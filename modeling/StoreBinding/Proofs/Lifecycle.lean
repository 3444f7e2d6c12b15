import StoreBinding.Client
import StoreBinding.Proofs.Account

/-!
What the steps of a life can do. Acquiring shares the live connection, opens one, or fails and
leaves the manager alone; releasing drops a reference or closes the connection. Starting and
stopping a binding do this at most once for each reference. Main statements: one complete
list of outcomes for each of the four, with the effect on an account of the connections.
-/
namespace StoreBinding

variable {σ : Type} {b : Backend σ}

namespace Manager

inductive Acquired (a : b.Account) (m : Manager) (e : Env σ) :
    Except Halt Handle × Manager × Env σ → Prop
  | shared {h : Handle} (live : m.live = some h) :
      Acquired a m e (.ok h, { m with refs := m.refs + 1 }, e)
  | opened {e' : Env σ} (idle : m.live = none)
      (closes : a.closes e'.store = a.closes e.store ++ [0]) :
      Acquired a m e (.ok (a.closes e.store).length,
        { live := some (a.closes e.store).length, refs := m.refs + 1 }, e')
  | failed {x : Halt} {e' : Env σ} (idle : m.live = none)
      (closes : a.closes e'.store = a.closes e.store) :
      Acquired a m e (.error x, m, e')

theorem acquired (a : b.Account) (r : ConnectionRequest) (m : Manager) (e : Env σ) :
    Acquired a m e (m.acquire b r e) := by
  unfold acquire
  split
  · next h live => exact .shared live
  · next idle =>
    split
    · exact .failed idle rfl
    · split
      · next heq =>
        obtain ⟨rfl, closes⟩ := a.connect_ok heq
        exact .opened idle closes
      · next heq =>
        have closes := a.connect_error heq
        exact .failed idle closes
      · next heq =>
        have closes := a.connect_error heq
        exact .failed idle closes

inductive Released (a : b.Account) (m : Manager) (e : Env σ) :
    Except Halt Unit × Manager × Env σ → Prop
  | idle (idle : m.live = none) : Released a m e (.ok (), m, e)
  | kept {h : Handle} {e' : Env σ} (live : m.live = some h) (more : 1 < m.refs)
      (store : e'.store = e.store) :
      Released a m e (.ok (), { m with refs := m.refs - 1 }, e')
  | closed {h : Handle} {x : Except Halt Unit} {e' : Env σ} (live : m.live = some h)
      (last : m.refs ≤ 1) (quiet : ∀ f, x ≠ .error (.failure f))
      (closes : a.closes e'.store = (a.closes e.store).modify h (· + 1)) :
      Released a m e (x, {}, e')

theorem released (a : b.Account) (m : Manager) (e : Env σ) :
    Released a m e (m.release b e) := by
  unfold release
  split
  · next idle => exact .idle idle
  · next h live =>
    have closes := a.close h e
    by_cases more : 1 < m.refs
    · rw [if_pos (Nat.sub_pos_of_lt more)]
      exact .kept live more rfl
    · rw [if_neg (by omega)]
      split
      · next heq =>
        rw [heq] at closes
        exact .closed live (Nat.le_of_not_lt more) nofun closes
      · next heq =>
        rw [heq] at closes
        exact .closed live (Nat.le_of_not_lt more) nofun closes
      · next heq =>
        rw [heq] at closes
        exact .closed live (Nat.le_of_not_lt more) nofun closes

/-- What opening preserves of a store, acquiring preserves. -/
theorem acquire_preserves {P : σ → Prop} {r : ConnectionRequest}
    (hconnect : ∀ e, P e.store → P (b.connect r e).2.store) (m : Manager) {e : Env σ}
    (h : P e.store) : P (m.acquire b r e).2.2.store := by
  unfold acquire
  split
  · exact h
  · split
    · exact h
    · next host bucket _ =>
      have hopened := hconnect (e.note .info logger s!"Connecting to {host} (bucket {bucket})") h
      split <;> next heq => rw [heq] at hopened; exact hopened

/-- What closing preserves of a store, releasing preserves. -/
theorem release_preserves {P : σ → Prop} (hclose : ∀ h e, P e.store → P (b.close h e).2.store)
    (m : Manager) {e : Env σ} (h : P e.store) : P (m.release b e).2.2.store := by
  unfold release
  split
  · exact h
  · next handle _ =>
    have hclosed := hclose handle e h
    dsimp only
    split
    · exact h
    · split <;> next heq => rw [heq] at hclosed; exact hclosed

end Manager

namespace Client

inductive Started (a : b.Account) (c : Client) (m : Manager) (e : Env σ) :
    Except Halt Unit × Client × Manager × Env σ → Prop
  | refused {f : Failure} (unresolved : c.resolved = none)
      (reason : resolve c.properties = .error f) :
      Started a c m e (.error (.failure f), c, m, e)
  | again {r : Resolved} {e' : Env σ} (holds : c.holds = true) (store : e'.store = e.store) :
      Started a c m e (.ok (), { c with resolved := some r }, m, e')
  | failed {r : Resolved} {x : Halt} {e' : Env σ} (free : c.holds = false)
      (closes : a.closes e'.store = a.closes e.store) :
      Started a c m e (.error x, { c with resolved := some r }, m, e')
  | taken {r : Resolved} {h : Handle} {m' : Manager} {e₁ e' : Env σ} (free : c.holds = false)
      (store : e₁.store = e.store) (acquired : m.Acquired a e₁ (.ok h, m', e')) :
      Started a c m e (.ok (), { c with resolved := some r, holds := true }, m', e')

/-- A binding that can be prepared has resolved its configuration, and nothing else changes but
the log. -/
theorem prepare_ok {c c' : Client} {e e' : Env σ} {r : Resolved}
    (h : c.prepare e = (.ok r, c', e')) :
    c' = { c with resolved := some r } ∧ e'.store = e.store := by
  unfold prepare at h
  split at h
  · next hr =>
    cases h
    exact ⟨by rw [← hr], rfl⟩
  · split at h
    · cases h
    · cases h
      exact ⟨rfl, rfl⟩

theorem prepare_error {c c' : Client} {e e' : Env σ} {x : Halt}
    (h : c.prepare e = (.error x, c', e')) :
    c.resolved = none ∧ c' = c ∧ e' = e ∧
      ∃ f, x = .failure f ∧ resolve c.properties = .error f := by
  unfold prepare at h
  split at h
  · cases h
  · next hr =>
    split at h
    · next f hf =>
      cases h
      exact ⟨hr, rfl, rfl, f, rfl, hf⟩
    · cases h

theorem started (a : b.Account) (c : Client) (m : Manager) (e : Env σ) :
    Started a c m e (c.start b m e) := by
  unfold start
  split
  · next heq =>
    obtain ⟨hr, rfl, rfl, f, rfl, hf⟩ := prepare_error heq
    exact .refused hr hf
  · next r c₁ e₁ heq =>
    obtain ⟨rfl, store⟩ := prepare_ok heq
    split
    · next holds => exact .again holds store
    · next free =>
      have hfree : c.holds = false := by simpa using free
      have acquired := m.acquired a r.config.connection.request e₁
      split
      · next hacq =>
        rw [hacq] at acquired
        cases acquired with
        | failed idle closes => exact .failed hfree (by rw [closes, store])
      · next hacq =>
        rw [hacq] at acquired
        exact .taken hfree store acquired

/-- Starting leaves manager and store alone, or acquires the manager once. -/
theorem start_acquires (c : Client) (m : Manager) (e : Env σ) :
    ((c.start b m e).2.2.1 = m ∧ (c.start b m e).2.2.2.store = e.store) ∨
      ∃ (r : Resolved) (e₁ : Env σ), e₁.store = e.store ∧
        (c.start b m e).2.2 = (m.acquire b r.config.connection.request e₁).2 := by
  unfold start
  split
  · next heq =>
    obtain ⟨-, -, rfl, -⟩ := prepare_error heq
    exact Or.inl ⟨rfl, rfl⟩
  · next r c₁ e₁ heq =>
    obtain ⟨-, store⟩ := prepare_ok heq
    split
    · exact Or.inl ⟨rfl, store⟩
    · refine Or.inr ⟨r, e₁, store, ?_⟩
      split <;> next hacq => rw [hacq]

theorem start_preserves {P : σ → Prop} (hconnect : ∀ r e, P e.store → P (b.connect r e).2.store)
    (c : Client) (m : Manager) {e : Env σ} (h : P e.store) :
    P (c.start b m e).2.2.2.store := by
  unfold start
  split
  · next heq =>
    obtain ⟨-, -, rfl, -⟩ := prepare_error heq
    exact h
  · next r c₁ e₁ heq =>
    obtain ⟨-, store⟩ := prepare_ok heq
    have h₁ : P e₁.store := store ▸ h
    have hacquired := Manager.acquire_preserves (hconnect r.config.connection.request) m h₁
    split
    · exact h₁
    · split <;> next hacq => rw [hacq] at hacquired; exact hacquired

theorem stop_preserves {P : σ → Prop} (hclose : ∀ h e, P e.store → P (b.close h e).2.store)
    (c : Client) (m : Manager) {e : Env σ} (h : P e.store) : P (c.stop b m e).2.2.2.store := by
  unfold stop
  split
  · exact Manager.release_preserves hclose m h
  · exact h

/-- A binding that holds a reference and has its configuration starts without any effect. -/
theorem start_of_holds {c : Client} {r : Resolved} (hr : c.resolved = some r)
    (holds : c.holds = true) (m : Manager) (e : Env σ) :
    c.start b m e = (.ok (), c, m, e) := by
  have hp : c.prepare e = (.ok r, c, e) := by simp only [prepare, hr]
  simp only [start, hp, holds, if_true]

theorem stop_of_free {c : Client} (free : c.holds = false) (m : Manager) (e : Env σ) :
    c.stop b m e = (.ok (), c, m, e) := by
  simp [stop, free]

theorem stop_of_holds {c : Client} (holds : c.holds = true) (m : Manager) (e : Env σ) :
    c.stop b m e =
      ((m.release b e).1, { c with holds := false }, (m.release b e).2) := by
  simp [stop, holds]

theorem closes_read (a : b.Account) (c : Client) (m : Manager) (table key : String)
    (names : List String) (s : σ) :
    a.closes (c.read b m table key names s).2 = a.closes s := by
  cases hlive : m.live with
  | none => simp only [read, hlive]
  | some h =>
    cases hresolved : c.resolved with
    | none => simp only [read, hlive, hresolved]
    | some r => rw [read_snd hlive hresolved, a.get]

theorem closes_write (a : b.Account) {put : Handle → String → Content → WriteOptions → Act σ Unit}
    (hput : ∀ h id c o s, a.closes (put h id c o s).2 = a.closes s) (c : Client) (m : Manager)
    (table key : String) (values : Option Content) (s : σ) :
    a.closes (write put c m table key values s).2 = a.closes s := by
  unfold write
  split
  · rw [settle_snd, hput]
  · rfl

theorem closes_delete (a : b.Account) (c : Client) (m : Manager) (table key : String) (s : σ) :
    a.closes (c.delete b m table key s).2 = a.closes s := by
  unfold delete
  split
  · rw [settle_snd, a.remove]
  · rfl

end Client

end StoreBinding
