import StoreBinding.Cluster
import StoreBinding.Command
import StoreBinding.Log.Clock

/-!
The command line. Settings come from the environment, in capitals or small letters, and
from the environment file of the working directory. The workload runs against an empty
service of the process itself, and the log goes to standard output.
-/
namespace StoreBinding.Command

def environment : IO (List (String × String)) := do
  let spellings := Setting.all.flatMap fun s => [s.name.toUpper, s.name]
  spellings.filterMapM fun name => return (← IO.getEnv name).map fun v => (name, v)

/-- The text of a file, empty if it cannot be read. -/
def fileText (name : String) : IO String := do
  try IO.FS.readFile name catch _ => return ""

/-- Milliseconds since the start of 1970, from the time stamp of a new file. -/
def now : IO Int := do
  IO.FS.withTempFile fun _ path => do
    let stamp := (← path.metadata).modified
    return stamp.sec * 1000 + stamp.nsec.toNat / 1000000

def randomChoice (settings : Settings) (seed : Nat) : Smoke.Choice := fun worker record step =>
  Smoke.fields settings.fieldCount fun i =>
    Smoke.letters settings.fieldLength fun k => (hash (seed, worker, record, step, i, k)).toNat

def execute (settings : Settings) : IO UInt32 := do
  let seed ← IO.rand 0 0xffffffff
  let (result, env) :=
    run Cluster.backend "couchbench.main" settings (randomChoice settings seed) { store := {} }
  let time := (Log.timestamp (← now)).toOption.getD ""
  for line in output settings (fun _ => time) env.log do
    IO.println line
  match result with
  | .ok code => return code.toUInt32
  | .error h =>
    IO.eprintln h.headline
    return 1

def launch : IO UInt32 := do
  let file ← fileText (Settings.fileName none)
  match Settings.load (← environment) file with
  | .ok settings => execute settings
  | .error invalid =>
    for e in invalid do
      IO.eprintln s!"{e.setting.name}: {e.problem.message}"
    return 1

end StoreBinding.Command

def main : IO UInt32 := StoreBinding.Command.launch
