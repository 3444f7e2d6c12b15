import StoreBinding.Backend

/-!
One connection shared by many holders. It is opened for the first that acquires it and
closed with the last that releases it; in between only a count changes. A connection that
cannot be opened leaves nothing behind, and one whose close fails is given up all the same.
-/
namespace StoreBinding

structure Manager where
  live : Option Handle := none
  refs : Nat := 0
deriving DecidableEq, Repr

namespace Manager

variable {σ : Type}

def logger : String := "couchbench.core.connection"

def isConnected (m : Manager) : Bool := m.live.isSome

def connection (m : Manager) : Except Halt Handle :=
  match m.live with
  | some h => .ok h
  | none => .error (.failure .notConnected)

/-- Takes a reference, opening the connection unless one is live. -/
def acquire (b : Backend σ) (r : ConnectionRequest) (m : Manager) (e : Env σ) :
    Except Halt Handle × Manager × Env σ :=
  match m.live with
  | some h => (.ok h, { m with refs := m.refs + 1 }, e)
  | none =>
    match r.place with
    | .error u => (.error (.failure (.unwritable u)), m, e)
    | .ok (host, bucket) =>
      match b.connect r (e.note .info logger s!"Connecting to {host} (bucket {bucket})") with
      | (.ok h, e) =>
        (.ok h, { live := some h, refs := m.refs + 1 },
          e.note .info logger "Connection established")
      | (.error (.failure f), e) =>
        (.error (.failure (.unreachable host f)), m,
          e.note .error logger s!"Failed to connect to {host}: {f.message}")
      | (.error (.interrupt t), e) => (.error (.interrupt t), m, e)

/-- Drops a reference and closes the connection on the last one. Only an interrupt of the close
comes out; without a live connection nothing happens. -/
def release (b : Backend σ) (m : Manager) (e : Env σ) : Except Halt Unit × Manager × Env σ :=
  match m.live with
  | none => (.ok (), m, e)
  | some h =>
    let refs := m.refs - 1
    if 0 < refs then
      (.ok (), { m with refs },
        e.note .debug logger s!"Connection still held by {refs} binding(s)")
    else
      match b.close h e with
      | (.ok (), e) => (.ok (), {}, e.note .info logger "Connection closed")
      | (.error (.failure f), e) =>
        (.ok (), {}, e.note .warning logger s!"Error while closing connection: {f.message}"
          (some (Halt.failure f).headline))
      | (.error (.interrupt t), e) => (.error (.interrupt t), {}, e)

end Manager

/-- Managers by name; asking for one that is not there makes it. -/
abbrev Registry := OrderedMap String Manager

namespace Registry

def ask (r : Registry) (name : String) : Manager := (r.get? name).getD {}

def touch (r : Registry) (name : String) : Registry :=
  if r.contains name then r else r.insert name {}

@[simp] theorem ask_empty (name : String) : (∅ : Registry).ask name = {} := rfl

/-- Asking for a manager does not change what any name is answered with. -/
@[simp] theorem ask_touch (r : Registry) (name other : String) :
    (r.touch name).ask other = r.ask other := by
  unfold touch
  split
  · rfl
  · next h =>
    have hnone : r.get? name = none := by simpa [OrderedMap.contains] using h
    rw [ask, OrderedMap.get?_insert]
    split
    · next heq => rw [heq, ask, hnone]; rfl
    · rfl

theorem ask_insert (r : Registry) (name other : String) (m : Manager) :
    ask (OrderedMap.insert r name m) other = if other = name then m else r.ask other := by
  simp only [ask, OrderedMap.get?_insert]
  split <;> rfl

/-- Which manager a name has, counted in the order of first request. -/
def position (r : Registry) (name : String) : Nat := (r.touch name).keys.idxOf name

/-- Asks for several managers in turn and gives the position of each. -/
def positions (r : Registry) : List String → List Nat
  | [] => []
  | name :: names => r.position name :: (r.touch name).positions names

end Registry

end StoreBinding
