import StoreBinding.Log
import StoreBinding.Log.Clock
import StoreBinding.Template

/-!
Log records before they are lines: a message template with its arguments, and a time. A level
that cannot be written spoils any line. Then a text line fails first over its message, a JSON
line first over its time. Lines are given in units, since a message may name surrogates.
-/
namespace StoreBinding.Log

structure Record extends Frame where
  template : Value
  arguments : List Value
  millis : Int

/-- Why a record has no line. -/
inductive Unloggable
  | time (e : Timeless)
  | template (e : Template.Error)
deriving DecidableEq, Repr

def Unloggable.name : Unloggable → String
  | time e => e.name
  | template e => e.name

def Unloggable.message : Unloggable → String
  | time e => e.message
  | template e => e.message

namespace Record

/-- The message with its arguments in place. -/
def message (r : Record) : Except Unloggable Text.Units :=
  match r.template.shown with
  | .error u => .error (.template (.unwritable u))
  | .ok template => (Template.format template r.arguments).mapError .template

def line (format : Format) (r : Record) : Except Unloggable Text.Units :=
  let time := (timestamp r.millis).mapError Unloggable.time
  match Value.numeral r.level, format with
  | .error u, _ => .error (.template (.unwritable u))
  | .ok _, .text => do
    let message ← r.message
    return r.toFrame.text (← time) message
  | .ok _, .json => do
    let time ← time
    return .ofString (r.toFrame.json time (← r.message))

end Record

end StoreBinding.Log
