import StoreBinding.Failure

/-!
Scripted faults. A script decides by operation, document and how many such calls there have
been, counting the present one; only calls that ask the script are counted. Written as
rules, the first one that matches decides.
-/
namespace StoreBinding

inductive Operation
  | get
  | insert
  | replace
  | remove
deriving DecidableEq, Repr

def Operation.name : Operation → String
  | get => "get"
  | insert => "insert"
  | replace => "replace"
  | remove => "remove"

/-- What a rule makes of a call: it fails, the document is reported as absent, or a write is
skipped and succeeds. -/
inductive FaultAction
  | raise (h : Halt)
  | absent
  | skip
deriving DecidableEq, Repr

structure FaultScript where
  decide : Operation → String → Nat → Option FaultAction := fun _ _ _ => none
  asked : List (Operation × String) := []

structure FaultRule where
  operation : Operation
  id : String
  /-- zero stands for every call, and a negative number for none -/
  nth : Int
  action : FaultAction
deriving DecidableEq, Repr

def FaultRule.concerns (r : FaultRule) (op : Operation) (id : String) (nth : Nat) : Bool :=
  r.operation == op && r.id == id && (r.nth == 0 || r.nth == nth)

namespace FaultScript

def ofRules (rules : List FaultRule) : FaultScript where
  decide op id nth := (rules.find? fun r => r.concerns op id nth).map FaultRule.action

/-- How often an operation on a document has asked so far. -/
def count (s : FaultScript) (op : Operation) (id : String) : Nat := s.asked.count (op, id)

/-- Counts a call and gives what the script makes of it. -/
def consult (s : FaultScript) (op : Operation) (id : String) : Option FaultAction × FaultScript :=
  (s.decide op id (s.count op id + 1), { s with asked := (op, id) :: s.asked })

theorem count_consult (s : FaultScript) (op op' : Operation) (id id' : String) :
    (s.consult op id).2.count op' id' =
      s.count op' id' + if (op, id) = (op', id') then 1 else 0 := by
  simp only [consult, count, List.count_cons, beq_iff_eq]

end FaultScript

end StoreBinding
