import StoreBinding.World
import StoreBinding.Proofs.Account

/-!
Calls on records. A call reaches the store when its manager has a connection, its binding has a
configuration and, for a write, all its values have a text; it then makes one call on the
document of the record. Any other call is refused: it is answered with an error and leaves
everything as it is.
-/
namespace StoreBinding

variable {σ : Type} {b : Backend σ}

inductive Call
  | read (table key : String) (names : List String)
  | insert (table key : String) (values : Option Content)
  | update (table key : String) (values : Option Content)
  | delete (table key : String)

namespace Call

def table : Call → String
  | read t _ _ | insert t _ _ | update t _ _ | delete t _ => t

def key : Call → String
  | read _ k _ | insert _ k _ | update _ k _ | delete _ k => k

def step (id : String) : Call → Step
  | read t k names => .read id t k names
  | insert t k values => .insert id t k values
  | update t k values => .update id t k values
  | delete t k => .delete id t k

def refusal : Call → Reply
  | read _ _ _ => .record { status := .error }
  | insert _ _ _ | update _ _ _ | delete _ _ => .status .error

def encoded? (values : Option Content) : Option Fields :=
  values.bind fun content => content.encode.toOption

def request? (o : WriteOptions) : Call → Option MemoryCall
  | read t k _ => some (.get (documentId t k) o.timeout)
  | insert t k values =>
    (encoded? values).map fun fields => .insert (documentId t k) fields.content o
  | update t k values =>
    (encoded? values).map fun fields => .replace (documentId t k) fields.content o
  | delete t k => some (.remove (documentId t k) o)

def issued? (call : Call) (c : Client) (m : Manager) : Option MemoryCall :=
  match m.live, c.resolved with
  | some _, some r => call.request? r.options
  | _, _ => none

def IsEncodable : Call → Prop
  | read _ _ _ | delete _ _ => True
  | insert _ _ values | update _ _ values => (encoded? values).isSome

theorem isSome_request? (call : Call) (o : WriteOptions) :
    (call.request? o).isSome ↔ call.IsEncodable := by
  cases call with
  | read t k names => exact ⟨fun _ => trivial, fun _ => rfl⟩
  | insert t k values => simp [request?, IsEncodable]
  | update t k values => simp [request?, IsEncodable]
  | delete t k => exact ⟨fun _ => trivial, fun _ => rfl⟩

theorem isSome_issued?_iff (call : Call) (c : Client) (m : Manager) :
    (call.issued? c m).isSome ↔ m.live.isSome ∧ c.resolved.isSome ∧ call.IsEncodable := by
  unfold issued?
  split
  · next h r hlive hresolved =>
    rw [isSome_request?, hlive, hresolved]
    simp
  · next hneither =>
    constructor
    · nofun
    · rintro ⟨hlive, hresolved, -⟩
      obtain ⟨h, hlive⟩ := Option.isSome_iff_exists.mp hlive
      obtain ⟨r, hresolved⟩ := Option.isSome_iff_exists.mp hresolved
      exact absurd hresolved (hneither h r hlive)

def run (b : Backend σ) (c : Client) (m : Manager) (call : Call) : Act σ Reply := fun s =>
  match call with
  | read t k names => let (r, s) := c.read b m t k names s; (r.map .record, s)
  | insert t k values => let (r, s) := c.insert b m t k values s; (r.map .status, s)
  | update t k values => let (r, s) := c.update b m t k values s; (r.map .status, s)
  | delete t k => let (r, s) := c.delete b m t k s; (r.map .status, s)

end Call

/-- A write in terms of the values as they are stored. -/
theorem Client.write_eq (put : Handle → String → Content → WriteOptions → Act σ Unit) (c : Client)
    (m : Manager) (t k : String) (values : Option Content) (s : σ) :
    Client.write put c m t k values s =
      match m.live, c.resolved, Call.encoded? values with
      | some h, some r, some fields => settle (put h (documentId t k) fields.content r.options s)
      | _, _, _ => (.ok .error, s) := by
  unfold Client.write
  cases m.live with
  | none => rfl
  | some h =>
    cases c.resolved with
    | none => rfl
    | some r =>
      cases values with
      | none => rfl
      | some content =>
        simp only [Option.map_some, Call.encoded?, Option.bind_some]
        cases content.encode <;> rfl

namespace Call

theorem write_of_refused {put : Handle → String → Content → WriteOptions → Act σ Unit}
    {c : Client} {m : Manager} {t k : String} {values : Option Content}
    (h : ¬ (m.live.isSome ∧ c.resolved.isSome ∧ (encoded? values).isSome)) (s : σ) :
    Client.write put c m t k values s = (.ok .error, s) := by
  rw [Client.write_eq]
  split
  · next hlive hresolved hfields =>
    rw [hlive, hresolved, hfields] at h
    exact absurd ⟨rfl, rfl, rfl⟩ h
  · rfl

theorem run_of_refused {call : Call} {c : Client} {m : Manager} (h : call.issued? c m = none)
    (s : σ) : call.run b c m s = (.ok call.refusal, s) := by
  have hrefused : ¬ (m.live.isSome ∧ c.resolved.isSome ∧ call.IsEncodable) := by
    rw [← isSome_issued?_iff, h]
    nofun
  cases call with
  | read t k names =>
    have hread : c.read b m t k names s = (.ok { status := .error }, s) := by
      unfold Client.read
      split
      · next hlive hresolved =>
        rw [hlive, hresolved] at hrefused
        exact absurd ⟨rfl, rfl, trivial⟩ hrefused
      · rfl
    simp only [run, hread]
    rfl
  | insert t k values =>
    simp only [run, Client.insert, write_of_refused hrefused]
    rfl
  | update t k values =>
    simp only [run, Client.update, write_of_refused hrefused]
    rfl
  | delete t k =>
    have hdelete : c.delete b m t k s = (.ok .error, s) := by
      unfold Client.delete
      split
      · next hlive hresolved =>
        rw [hlive, hresolved] at hrefused
        exact absurd ⟨rfl, rfl, trivial⟩ hrefused
      · rfl
    simp only [run, hdelete]
    rfl

section Ready

variable {c : Client} {m : Manager} {h : Handle} {r : Resolved}

/-- A write of a binding that is ready for calls. -/
theorem run_insert (hlive : m.live = some h) (hresolved : c.resolved = some r) (t k : String)
    (values : Option Content) (s : σ) :
    run b c m (.insert t k values) s =
      match encoded? values with
      | none => (.ok (.status .error), s)
      | some fields =>
        let (x, s') := Client.settle (b.insert h (documentId t k) fields.content r.options s)
        (x.map .status, s') := by
  simp only [run, Client.insert, Client.write_eq, hlive, hresolved]
  cases encoded? values <;> rfl

theorem run_update (hlive : m.live = some h) (hresolved : c.resolved = some r) (t k : String)
    (values : Option Content) (s : σ) :
    run b c m (.update t k values) s =
      match encoded? values with
      | none => (.ok (.status .error), s)
      | some fields =>
        let (x, s') := Client.settle (b.replace h (documentId t k) fields.content r.options s)
        (x.map .status, s') := by
  simp only [run, Client.update, Client.write_eq, hlive, hresolved]
  cases encoded? values <;> rfl

theorem run_delete (hlive : m.live = some h) (hresolved : c.resolved = some r) (t k : String)
    (s : σ) :
    run b c m (.delete t k) s =
      let (x, s') := Client.settle (b.remove h (documentId t k) r.options s)
      (x.map .status, s') := by
  simp only [run, Client.delete, hlive, hresolved]

end Ready

/-- A call that is not refused makes exactly the one call on the store. -/
theorem handled_run {call : Call} {c : Client} {m : Manager} {issued : MemoryCall}
    (h : call.issued? c m = some issued) (s : Memory) :
    Memory.Handled issued s (call.run Memory.backend c m s).2 := by
  unfold issued? at h
  split at h
  · next handle r hlive hresolved =>
    cases call with
    | read t k names =>
      cases h
      simp only [run, Client.read_snd hlive hresolved]
      exact Memory.handled_get ..
    | insert t k values =>
      obtain ⟨fields, hfields, rfl⟩ := Option.map_eq_some_iff.mp h
      simp only [run_insert hlive hresolved, hfields, Client.settle_snd]
      exact Memory.handled_insert ..
    | update t k values =>
      obtain ⟨fields, hfields, rfl⟩ := Option.map_eq_some_iff.mp h
      simp only [run_update hlive hresolved, hfields, Client.settle_snd]
      exact Memory.handled_replace ..
    | delete t k =>
      cases h
      simp only [run_delete hlive hresolved, Client.settle_snd]
      exact Memory.handled_remove ..
  · cases h

end Call

structure Backend.Preserves (b : Backend σ) (P : σ → Prop) : Prop where
  get : ∀ h id t s, P s → P (b.get h id t s).2
  insert : ∀ h id c o s, P s → P (b.insert h id c o s).2
  replace : ∀ h id c o s, P s → P (b.replace h id c o s).2
  remove : ∀ h id o s, P s → P (b.remove h id o s).2

/-- A call makes one attempt at most, so it preserves what every attempt preserves. -/
theorem Call.run_preserves {P : σ → Prop} (hb : b.Preserves P) (call : Call) (c : Client)
    (m : Manager) {s : σ} (h : P s) : P (call.run b c m s).2 := by
  cases hissued : call.issued? c m with
  | none =>
    rw [run_of_refused hissued]
    exact h
  | some i =>
    unfold issued? at hissued
    split at hissued
    · next handle r hlive hresolved =>
      cases call with
      | read t k names =>
        simp only [run, Client.read_snd hlive hresolved]
        exact hb.get _ _ _ _ h
      | insert t k values =>
        obtain ⟨fields, hfields, -⟩ := Option.map_eq_some_iff.mp hissued
        simp only [run_insert hlive hresolved, hfields, Client.settle_snd]
        exact hb.insert _ _ _ _ _ h
      | update t k values =>
        obtain ⟨fields, hfields, -⟩ := Option.map_eq_some_iff.mp hissued
        simp only [run_update hlive hresolved, hfields, Client.settle_snd]
        exact hb.replace _ _ _ _ _ h
      | delete t k =>
        simp only [run_delete hlive hresolved, Client.settle_snd]
        exact hb.remove _ _ _ _ h
    · cases hissued

theorem World.step_call {w : World σ} {id : String} {m : Member}
    (hm : w.members.get? id = some m) (call : Call) :
    w.step b (call.step id) =
      ((call.run b m.client (w.managers.ask m.manager) w.env.store).1,
        { w with env := { w.env with
          store := (call.run b m.client (w.managers.ask m.manager) w.env.store).2 } }) := by
  cases call with
  | read | insert | update | delete => simp [step, Call.step, hm, operate, Call.run]

end StoreBinding
