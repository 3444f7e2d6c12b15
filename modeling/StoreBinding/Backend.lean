import StoreBinding.ConnectionRequest
import StoreBinding.Document
import StoreBinding.Failure
import StoreBinding.Log

/-!
What a binding needs of a store: opening and closing a connection, and four single attempts
on documents by id. A backend acts on a state of its own and may fail at any point; opening
and closing may also write to the log, and operations never do.
-/
namespace StoreBinding

/-- Which connection, counted in the order in which they were opened. -/
abbrev Handle := Nat

/-- A state change that may end early; what it did to the state before that stays done. -/
abbrev Act (S α : Type) := S → Except Halt α × S

/-- The state of a store, and the log so far. -/
structure Env (σ : Type) where
  store : σ
  log : Array Log.Entry := #[]

def Env.note {σ : Type} (e : Env σ) (level : Log.Level) (logger message : String)
    (trouble : Option String := none) : Env σ :=
  { e with log := e.log.push { level, logger, message, trouble } }

@[simp] theorem Env.store_note {σ : Type} (e : Env σ) (level : Log.Level)
    (logger message : String) (trouble : Option String) :
    (e.note level logger message trouble).store = e.store := rfl

structure Backend (σ : Type) where
  connect : ConnectionRequest → Act (Env σ) Handle
  close : Handle → Act (Env σ) Unit
  get : Handle → String → Duration → Act σ (Option Content)
  insert : Handle → String → Content → WriteOptions → Act σ Unit
  replace : Handle → String → Content → WriteOptions → Act σ Unit
  remove : Handle → String → WriteOptions → Act σ Unit

end StoreBinding
