import StoreBinding.Client

/-!
What use is made of a store. A backend can be watched: it then writes down every call before its
effect, and behaves as before. Main statements: what acquiring and releasing a manager do over a
watched backend is what they do anyway, and the calls that they make are told by the manager alone.
-/
namespace StoreBinding

variable {σ : Type}

inductive Usage
  | connect (request : ConnectionRequest)
  | close (h : Handle)
  | get (h : Handle) (id : String) (timeout : Duration)
  | insert (h : Handle) (id : String) (content : Content) (options : WriteOptions)
  | replace (h : Handle) (id : String) (content : Content) (options : WriteOptions)
  | remove (h : Handle) (id : String) (options : WriteOptions)

namespace Backend

def watch {α : Type} (u : Usage) (act : Act σ α) : Act (σ × List Usage) α := fun s =>
  ((act s.1).1, ((act s.1).2, s.2 ++ [u]))

def watchEnv {α : Type} (u : Usage) (act : Act (Env σ) α) : Act (Env (σ × List Usage)) α := fun e =>
  match act { store := e.store.1, log := e.log } with
  | (x, after) => (x, { store := (after.store, e.store.2 ++ [u]), log := after.log })

def watched (b : Backend σ) : Backend (σ × List Usage) where
  connect r := watchEnv (.connect r) (b.connect r)
  close h := watchEnv (.close h) (b.close h)
  get h id t := watch (.get h id t) (b.get h id t)
  insert h id c o := watch (.insert h id c o) (b.insert h id c o)
  replace h id c o := watch (.replace h id c o) (b.replace h id c o)
  remove h id o := watch (.remove h id o) (b.remove h id o)

end Backend

def Env.withUses (e : Env σ) (uses : List Usage) : Env (σ × List Usage) :=
  { store := (e.store, uses), log := e.log }

namespace Manager

variable (b : Backend σ)

def opens (m : Manager) (r : ConnectionRequest) : List Usage :=
  match m.live, r.place with
  | none, .ok _ => [.connect r]
  | _, _ => []

def closes (m : Manager) : List Usage :=
  match m.live with
  | none => []
  | some h => if 1 < m.refs then [] else [.close h]

theorem acquire_watched (r : ConnectionRequest) (m : Manager) (e : Env σ) (uses : List Usage) :
    m.acquire b.watched r (e.withUses uses) =
      ((m.acquire b r e).1, (m.acquire b r e).2.1,
        (m.acquire b r e).2.2.withUses (uses ++ m.opens r)) := by
  unfold acquire opens
  cases m.live with
  | some h =>
    rw [List.append_nil]
  | none =>
    cases r.place with
    | error u => rw [List.append_nil]
    | ok place =>
      dsimp only
      have hconnect : b.watched.connect r ((e.withUses uses).note .info logger
            s!"Connecting to {place.1} (bucket {place.2})") =
          ((b.connect r (e.note .info logger s!"Connecting to {place.1} (bucket {place.2})")).1,
            (b.connect r (e.note .info logger
              s!"Connecting to {place.1} (bucket {place.2})")).2.withUses
                (uses ++ [.connect r])) := rfl
      rw [hconnect]
      rcases b.connect r _ with ⟨(t | f) | h, e'⟩ <;> rfl

theorem release_watched (m : Manager) (e : Env σ) (uses : List Usage) :
    m.release b.watched (e.withUses uses) =
      ((m.release b e).1, (m.release b e).2.1,
        (m.release b e).2.2.withUses (uses ++ m.closes)) := by
  unfold release closes
  cases m.live with
  | none => rw [List.append_nil]
  | some h =>
    dsimp only
    by_cases more : 1 < m.refs
    · rw [if_pos more, if_pos (Nat.sub_pos_of_lt more), if_pos (Nat.sub_pos_of_lt more),
        List.append_nil]
      rfl
    · have hlast : ¬ 0 < m.refs - 1 := by omega
      rw [if_neg more, if_neg hlast, if_neg hlast]
      have hclose : b.watched.close h (e.withUses uses) =
          ((b.close h e).1, (b.close h e).2.withUses (uses ++ [.close h])) := rfl
      rw [hclose]
      rcases b.close h e with ⟨(t | f) | u, e'⟩ <;> rfl

end Manager

end StoreBinding
