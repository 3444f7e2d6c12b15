import StoreBinding.Smoke

/-!
The smoke command. It announces the run, runs the workload and turns the way it ended into
an exit status: 0 if every operation came out as expected, 1 after a fatal error or an
unexpected status, 130 after an interrupt. Any other failure is not the command's to
handle.
-/
namespace StoreBinding.Command

variable {σ : Type}

def announcement (s : Settings) : String :=
  s!"Running {s.recordCount} records x {s.threads} threads against table {s.table}"

/-- The exit status of a finished workload with the entry that explains it, or the failure that
leaves the command. -/
def conclude (logger : String) : Except Halt Bool → Except Halt (Nat × Log.Entry)
  | .ok true => .ok (0, { level := .info, logger, message := "Smoke run finished" })
  | .ok false =>
    .ok (1, { level := .error, logger, message := "Smoke run finished with unexpected statuses" })
  | .error (.interrupt _) =>
    .ok (130, { level := .warning, logger, message := "Shutdown requested by user (SIGINT)" })
  | .error (.failure f) =>
    if f.isFatal then .ok (1, { level := .error, logger, message := "Fatal error: " ++ f.message })
    else .error (.failure f)

def run (b : Backend σ) (logger : String) (settings : Settings) (choice : Smoke.Choice) :
    Act (Env σ) Nat := fun e =>
  match Smoke.runCrew b logger settings choice
      { env := e.note .info logger (announcement settings) } with
  | (r, w) =>
    match conclude logger r with
    | .error h => (.error h, w.env)
    | .ok (code, entry) => (.ok code, { w.env with log := w.env.log.push entry })

/-- The lines that a log shows, given a way to write the time of an entry. -/
def output (settings : Settings) (time : Log.Entry → String) (log : Array Log.Entry) :
    List String :=
  let least := Log.Level.ofName settings.logLevel
  (log.toList.filter fun e => least ≤ e.level).map fun e => e.line settings.logFormat (time e)

end StoreBinding.Command
