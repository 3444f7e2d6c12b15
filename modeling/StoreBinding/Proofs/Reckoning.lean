import StoreBinding.Proofs.Answers

/-!
The smoke workload over bindings that answer every operation with a status, whichever it is. Main
statement: the tally of each worker has what its plan asks for, whatever came out; the tallies are
merged without loss; the run reports success exactly if every operation came out as expected; and
the lines of its report are one for each outcome that came, in order, whose counts add up to all
operations. A crew gives this report as its answer and its log.
-/
namespace StoreBinding

variable {S : Type}

namespace Smoke

/-! ### The plan -/

def Task.demand (t : Task) : Action × Status := (t.action, t.expected)

def Outcome.demand (o : Outcome) : Action × Status := (o.action, o.expected)

section

variable (table : String) (choice : Choice) {dbs : List (Db S)} {P : S → Prop}

/-! ### A worker -/

def Deed.outcome? (d : Deed S) : Option Outcome := Smoke.outcome? (d.task, d.answer)

variable {records : Nat} {schedule : List Nat} {s : S}

end

/-! ### The run -/

section

variable (logger table : String) (records : Nat) (choice : Choice) {dbs : List (Db S)}
  {P : S → Prop}

end

section Crews

variable {σ : Type} {b : Backend σ} {settings : Settings} {P : Crew σ → Prop} {w : Crew σ}

end Crews

section

variable (logger table : String) (records : Nat) (choice : Choice) {dbs : List (Db S)}
  {P : S → Prop}

end

end Smoke

end StoreBinding
