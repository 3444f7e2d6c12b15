import StoreBinding.Proofs.Threads

/-!
One connection for all threads. In every state that moves of threads lead to, the manager counts
exactly the threads that hold a reference, were granted one, or have not given theirs back yet;
its connection is open, no other is, and it stays until no thread is counted. Main statement:
at most one connection is open, what comes back with a connection between two closes comes
back with the same one, and the calls of a binding that is ready are made on an open
connection.
-/
namespace StoreBinding

variable {σ : Type} {b : Backend σ}

def Stage.Fits (live : Option Handle) (c : Client) : Stage → Prop
  | idle => True
  | acquiring _ => c.holds = false ∧ c.resolved.isSome
  | granted h => c.holds = false ∧ c.resolved.isSome ∧ live = some h
  | releasing => c.holds = false
  | calling _ seen => c.holds → seen = live

namespace Thread

structure Sound (live : Option Handle) (t : Thread) : Prop where
  ready : t.ready = t.client.holds
  resolved : t.client.holds → t.client.resolved.isSome
  stage : t.stage.Fits live t.client

/-- A thread that is not counted has nothing to do with the connection. -/
theorem Sound.of_free {live live' : Option Handle} {t : Thread} (h : t.Sound live)
    (free : t.counts = false) : t.Sound live' := by
  obtain ⟨client, stage, ready⟩ := t
  refine ⟨h.ready, h.resolved, ?_⟩
  cases stage with
  | idle => trivial
  | acquiring request => exact h.stage
  | granted g => cases free
  | releasing => cases free
  | calling c seen =>
    have hholds : client.holds = false := free
    intro held
    rw [hholds] at held
    cases held

inductive Moves (a : b.Account) (t : Thread) (m : Manager) (e : Env σ) : Moved σ → Prop
  | alone {t' : Thread} {e' : Env σ} {handed : Option Handle} (sound : t'.Sound m.live)
      (counts : t'.counts = t.counts) (closes : a.closes e'.store = a.closes e.store)
      (same : ∀ h, handed = some h → m.live = some h) :
      Moves a t m e { thread := t', manager := m, env := e', handed }
  | taken {t' : Thread} {h : Handle} {m' : Manager} {e' : Env σ} (free : t.counts = false)
      (counts : t'.counts = true) (sound : t'.Sound (some h))
      (acquired : m.Acquired a e (.ok h, m', e')) :
      Moves a t m e { thread := t', manager := m', env := e', handed := some h }
  | given {t' : Thread} {x : Except Halt Unit} {m' : Manager} {e' : Env σ}
      (held : t.counts = true) (counts : t'.counts = false) (sound : t'.Sound m.live)
      (released : m.Released a e (x, m', e')) :
      Moves a t m e { thread := t', manager := m', env := e' }

theorem moves_begin (a : b.Account) {t : Thread} {m : Manager} (ht : t.Sound m.live)
    (errand : Errand) (e : Env σ) : Moves a t m e (t.begin errand m e) := by
  have hnone : ∀ h, (none : Option Handle) = some h → m.live = some h := by
    intro h hsome
    cases hsome
  obtain ⟨client, stage, ready⟩ := t
  cases stage with
  | idle =>
    cases errand with
    | start =>
      simp only [begin]
      split
      · next heq =>
        obtain ⟨-, rfl, rfl, -⟩ := Client.prepare_error heq
        exact .alone ht rfl rfl hnone
      · next r c e' heq =>
        obtain ⟨rfl, store⟩ := Client.prepare_ok heq
        have closes : a.closes e'.store = a.closes e.store := by rw [store]
        split
        · next holds =>
          exact .alone ⟨holds.symm, fun _ => rfl, trivial⟩ rfl closes fun _ hlive => hlive
        · next free =>
          exact .alone ⟨ht.ready, fun _ => rfl, by simpa using free, rfl⟩ rfl closes hnone
    | stop =>
      simp only [begin]
      split
      · next holds => exact .alone ⟨rfl, fun _ => ht.resolved holds, rfl⟩ holds.symm rfl hnone
      · next free =>
        have hfree : client.holds = false := by simpa using free
        exact .alone ⟨hfree.symm, ht.resolved, trivial⟩ rfl rfl hnone
    | call c => exact .alone ⟨ht.ready, ht.resolved, fun _ => rfl⟩ rfl rfl hnone
  | _ => cases errand <;> exact .alone ht rfl rfl hnone

theorem moves_proceed (a : b.Account) {t : Thread} {m : Manager} (ht : t.Sound m.live)
    (e : Env σ) : Moves a t m e (t.proceed b m e) := by
  obtain ⟨client, stage, ready⟩ := t
  cases stage with
  | idle => exact .alone ht rfl rfl nofun
  | acquiring request =>
    obtain ⟨free, resolved⟩ := ht.stage
    have acquired := m.acquired a request e
    simp only [proceed]
    split
    · next heq =>
      rw [heq] at acquired
      cases acquired with
      | failed idle closes => exact .alone ⟨ht.ready, ht.resolved, trivial⟩ rfl closes nofun
    · next heq =>
      rw [heq] at acquired
      exact .taken free rfl ⟨ht.ready, ht.resolved, free, resolved, rfl⟩ acquired
  | granted h =>
    obtain ⟨-, resolved, live⟩ := ht.stage
    exact .alone ⟨rfl, fun _ => resolved, trivial⟩ rfl rfl fun g hg => hg ▸ live
  | releasing =>
    exact .given rfl ht.stage ⟨ht.ready, ht.resolved, trivial⟩ (m.released a e)
  | calling c seen =>
    have closes := c.closes_run a client { live := seen } e.store
    exact .alone ⟨ht.ready, ht.resolved, trivial⟩ rfl closes nofun

theorem moves (a : b.Account) {t : Thread} {m : Manager} (ht : t.Sound m.live) (move : Move)
    (e : Env σ) : Moves a t m e (t.move b move m e) := by
  cases move with
  | begin errand => exact moves_begin a ht errand e
  | proceed => exact moves_proceed a ht e

end Thread

/-- Handouts so far, given how often connections were closed and which one is live: those after the
last close were of the live connection, and those between two closes of the same one. -/
structure Agreed (closes : Nat) (live : Option Handle) (l : List Handout) : Prop where
  past : ∀ p ∈ l, p.closes ≤ closes
  current : ∀ p ∈ l, p.closes = closes → live = some p.handle
  agree : ∀ p ∈ l, ∀ q ∈ l, p.closes = q.closes → p.handle = q.handle

namespace Agreed

variable {closes : Nat} {l : List Handout}

theorem push {h : Handle} (hl : Agreed closes (some h) l) :
    Agreed closes (some h) ({ closes, handle := h } :: l) := by
  have hsame : ∀ p ∈ l, p.closes = closes → h = p.handle := fun p hp hc =>
    Option.some.inj (hl.current p hp hc)
  refine ⟨?_, ?_, ?_⟩
  · intro p hp
    rcases List.mem_cons.mp hp with rfl | hp
    · exact Nat.le_refl _
    · exact hl.past p hp
  · intro p hp hc
    rcases List.mem_cons.mp hp with rfl | hp
    · rfl
    · exact hl.current p hp hc
  · intro p hp q hq hc
    rcases List.mem_cons.mp hp with rfl | hp <;> rcases List.mem_cons.mp hq with rfl | hq
    · rfl
    · exact hsame q hq hc.symm
    · exact (hsame p hp hc).symm
    · exact hl.agree p hp q hq hc

/-- With no connection live, nothing was handed out since the last close. -/
theorem opened (hl : Agreed closes none l) (h : Handle) : Agreed closes (some h) l := by
  refine ⟨hl.past, ?_, hl.agree⟩
  intro p hp hc
  cases hl.current p hp hc

theorem closed {live : Option Handle} (hl : Agreed closes live l) : Agreed (closes + 1) none l := by
  refine ⟨fun p hp => Nat.le_succ_of_le (hl.past p hp), ?_, hl.agree⟩
  intro p hp hc
  have hpast := hl.past p hp
  omega

end Agreed

theorem sum_modify {l : List Nat} {h n : Nat} (hl : l[h]? = some n) :
    (l.modify h (· + 1)).sum = l.sum + 1 := by
  induction l generalizing h with
  | nil => cases hl
  | cons head rest ih =>
    cases h with
    | zero =>
      simp only [List.modify_zero_cons, List.sum_cons]
      omega
    | succ h =>
      have hrest := ih hl
      simp only [List.modify_succ_cons, List.sum_cons]
      omega

structure Consistent (closes : List Nat) (m : Manager) (threads : List Thread)
    (handouts : List Handout) : Prop where
  refs : m.refs = threads.countP Thread.counts
  idle : m.live = none ↔ m.refs = 0
  open_iff : ∀ h, closes[h]? = some 0 ↔ m.live = some h
  threads : ∀ t ∈ threads, t.Sound m.live
  handouts : Agreed closes.sum m.live handouts

namespace Consistent

variable {closes : List Nat} {m : Manager} {threads : List Thread} {handouts : List Handout}

theorem init (hclosed : ∀ n ∈ closes, n ≠ 0) (properties : List RawProperties) :
    Consistent closes {} (properties.map fun properties => { client := { properties } }) [] := by
  refine ⟨?_, ⟨fun _ => rfl, fun _ => rfl⟩, ?_, ?_, nofun, nofun, nofun⟩
  · induction properties with
    | nil => rfl
    | cons p rest ih => exact ih
  · intro h
    constructor
    · intro hopen
      exact absurd rfl (hclosed 0 (List.mem_of_getElem? hopen))
    · nofun
  · intro t ht
    obtain ⟨p, -, rfl⟩ := List.mem_map.mp ht
    exact ⟨rfl, nofun, trivial⟩

/-- What comes back with the live connection agrees with what came back before. -/
theorem handed (hs : Consistent closes m threads handouts) {h : Handle} (live : m.live = some h) :
    Consistent closes m threads ({ closes := closes.sum, handle := h } :: handouts) := by
  refine ⟨hs.refs, hs.idle, hs.open_iff, hs.threads, ?_⟩
  have hagreed := hs.handouts
  rw [live] at hagreed ⊢
  exact hagreed.push

section Move

variable {seat : Nat} {t t' : Thread}

/-- With no connection live, no thread is counted. -/
theorem free_of_idle (hs : Consistent closes m threads handouts) (hidle : m.live = none) :
    ∀ t ∈ threads, t.counts = false := by
  have hcount : threads.countP Thread.counts = 0 := hs.refs ▸ hs.idle.mp hidle
  intro t ht
  simpa using List.countP_eq_zero.mp hcount t ht

/-- A counted thread keeps the connection live. -/
theorem exists_live (hs : Consistent closes m threads handouts) (ht : t ∈ threads)
    (held : t.counts = true) : ∃ h, m.live = some h := by
  cases hlive : m.live with
  | some h => exact ⟨h, rfl⟩
  | none =>
    have hfree := hs.free_of_idle hlive t ht
    rw [held] at hfree
    cases hfree

theorem sound_set {live : Option Handle} (hs : ∀ t ∈ threads, t.Sound live)
    (sound : t'.Sound live) : ∀ t ∈ threads.set seat t', t.Sound live := by
  intro t ht
  rcases List.mem_or_eq_of_mem_set ht with hmem | rfl
  · exact hs t hmem
  · exact sound

theorem alone (hs : Consistent closes m threads handouts) (hat : threads[seat]? = some t)
    (counts : t'.counts = t.counts) (sound : t'.Sound m.live) :
    Consistent closes m (threads.set seat t') handouts := by
  have hcount := countP_set_add Thread.counts hat t'
  rw [counts, Nat.add_right_cancel_iff, ← hs.refs] at hcount
  exact ⟨hcount.symm, hs.idle, hs.open_iff, sound_set hs.threads sound, hs.handouts⟩

theorem shared (hs : Consistent closes m threads handouts) (hat : threads[seat]? = some t)
    (free : t.counts = false) (counts : t'.counts = true) {h : Handle} (live : m.live = some h)
    (sound : t'.Sound (some h)) :
    Consistent closes { m with refs := m.refs + 1 } (threads.set seat t') handouts := by
  have hcount := countP_set_add Thread.counts hat t'
  rw [free, counts, ← hs.refs] at hcount
  refine ⟨hcount.symm, ?_, hs.open_iff, sound_set hs.threads (live ▸ sound), hs.handouts⟩
  simp [live]

theorem opened (hs : Consistent closes m threads handouts) (hat : threads[seat]? = some t)
    (free : t.counts = false) (counts : t'.counts = true) (idle : m.live = none)
    (sound : t'.Sound (some closes.length)) :
    Consistent (closes ++ [0]) { live := some closes.length, refs := m.refs + 1 }
      (threads.set seat t') handouts := by
  have hcount := countP_set_add Thread.counts hat t'
  rw [free, counts, ← hs.refs] at hcount
  refine ⟨hcount.symm, ?_, ?_, sound_set ?_ sound, ?_⟩
  · simp
  · intro h
    have hclosed : closes[h]? ≠ some 0 := fun hopen => by
      have hlive := (hs.open_iff h).mp hopen
      rw [idle] at hlive
      cases hlive
    rcases Nat.lt_trichotomy h closes.length with hlt | rfl | hgt
    · simp [List.getElem?_append_left hlt, hclosed, Nat.ne_of_gt hlt]
    · simp
    · have hlength : (closes ++ [0]).length ≤ h := by
        rw [List.length_append]
        exact hgt
      simp [List.getElem?_eq_none hlength, Nat.ne_of_lt hgt]
  · intro u hu
    exact (hs.threads u hu).of_free (hs.free_of_idle idle u hu)
  · have hagreed := hs.handouts
    rw [idle] at hagreed
    simpa using hagreed.opened closes.length

theorem kept (hs : Consistent closes m threads handouts) (hat : threads[seat]? = some t)
    (held : t.counts = true) (counts : t'.counts = false) (more : 1 < m.refs)
    (sound : t'.Sound m.live) :
    Consistent closes { m with refs := m.refs - 1 } (threads.set seat t') handouts := by
  have hcount := countP_set_add Thread.counts hat t'
  rw [held, counts, ← hs.refs] at hcount
  have hidle := hs.idle
  refine ⟨?_, ?_, hs.open_iff, sound_set hs.threads sound, hs.handouts⟩
  · simp only [Bool.toNat_true, Bool.toNat_false] at hcount
    dsimp only
    omega
  · dsimp only
    rw [hidle]
    omega

theorem closed (hs : Consistent closes m threads handouts) (hat : threads[seat]? = some t)
    (held : t.counts = true) (counts : t'.counts = false) {h : Handle} (live : m.live = some h)
    (last : m.refs ≤ 1) (sound : t'.Sound m.live) :
    Consistent (closes.modify h (· + 1)) {} (threads.set seat t') handouts := by
  have hcount := countP_set_add Thread.counts hat t'
  rw [held, counts, ← hs.refs] at hcount
  have hnone : (threads.set seat t').countP Thread.counts = 0 := by
    simp only [Bool.toNat_true, Bool.toNat_false] at hcount
    omega
  have hopen : closes[h]? = some 0 := (hs.open_iff h).mpr live
  refine ⟨hnone.symm, ⟨fun _ => rfl, fun _ => rfl⟩, ?_, ?_, ?_⟩
  · intro g
    rw [List.getElem?_modify]
    by_cases heq : h = g
    · simp [heq]
    · have hg : closes[g]? ≠ some 0 := fun hopen => by
        have hlive := (hs.open_iff g).mp hopen
        rw [live] at hlive
        exact heq (Option.some.inj hlive)
      simp [heq, hg]
  · intro u hu
    have hfree : u.counts = false := by simpa using List.countP_eq_zero.mp hnone u hu
    exact (sound_set hs.threads sound u hu).of_free hfree
  · rw [sum_modify hopen]
    exact hs.handouts.closed

end Move

end Consistent

namespace Pool

variable {a : b.Account} {s : Pool σ}

def Sound (a : b.Account) (s : Pool σ) : Prop :=
  Consistent (a.closes s.env.store) s.manager s.threads s.handouts

theorem Sound.step (hs : s.Sound a) (seat : Nat) (move : Move) : (s.step a seat move).Sound a := by
  unfold Pool.step
  split
  · exact hs
  · next t hat =>
    have ht := hs.threads t (List.mem_of_getElem? hat)
    have hmoves := t.moves a ht move s.env
    unfold Sound after
    generalize t.move b move s.manager s.env = d at hmoves
    cases hmoves with
    | @alone t' e' handed sound counts closes same =>
      have hnext := hs.alone hat counts sound
      rw [← closes] at hnext
      cases handed with
      | none => exact hnext
      | some h => exact hnext.handed (same h rfl)
    | taken free counts sound acquired =>
      cases acquired with
      | shared live => exact (hs.shared hat free counts live sound).handed live
      | opened idle closes =>
        have hnext := hs.opened hat free counts idle sound
        rw [← closes] at hnext
        exact hnext.handed rfl
    | given held counts sound released =>
      cases released with
      | idle idle =>
        obtain ⟨h, live⟩ := hs.exists_live (List.mem_of_getElem? hat) held
        rw [idle] at live
        cases live
      | kept live more store =>
        have hnext := hs.kept hat held counts more sound
        rw [← store] at hnext
        exact hnext
      | closed live last quiet closes =>
        have hnext := hs.closed hat held counts live last sound
        rw [← closes] at hnext
        exact hnext

theorem Sound.of_reachable (hs : Reachable a s) : s.Sound a := by
  induction hs with
  | init closed properties => exact .init closed properties
  | step _ seat move ih => exact ih.step seat move
  | disturb _ env h ih =>
    rw [Sound, h]
    exact ih

/-- A thread that is ready has its configuration, and the live connection is what it looks up or
has looked up already. -/
theorem Sound.of_ready (hs : s.Sound a) {t : Thread} (ht : t ∈ s.threads) (ready : t.ready) :
    ∃ h r, s.manager.live = some h ∧ t.client.resolved = some r ∧
      (t.stage = .idle ∨ ∃ call, t.stage = .calling call (some h)) := by
  have hsound := hs.threads t ht
  have holds : t.client.holds = true := hsound.ready ▸ ready
  have hheld : ¬ t.client.holds = false := by simp [holds]
  obtain ⟨r, hr⟩ := Option.isSome_iff_exists.mp (hsound.resolved holds)
  have hstage := hsound.stage
  have hcounts : t.counts = true := by
    unfold Thread.counts
    split
    · rfl
    · rfl
    · exact holds
  obtain ⟨h, hlive⟩ := hs.exists_live ht hcounts
  refine ⟨h, r, hlive, hr, ?_⟩
  cases heq : t.stage with
  | idle => exact .inl rfl
  | calling call seen =>
    rw [heq] at hstage
    have hseen : seen = some h := (hstage holds).trans hlive
    exact .inr ⟨call, by rw [hseen]⟩
  | acquiring request =>
    rw [heq] at hstage
    exact absurd hstage.1 hheld
  | granted g =>
    rw [heq] at hstage
    exact absurd hstage.1 hheld
  | releasing =>
    rw [heq] at hstage
    exact absurd hstage hheld

/-- However the moves of the threads are mixed and whichever attempts to connect fail: at most one
connection is open; acquisitions and starts that come back between two closes come back with
the same connection; and a thread whose binding is ready looks up an open connection for each
of its calls, and when it makes the call on the store, it makes it on that connection, which
is still open. The moves of an errand with no others in between are the start, the stop or the call
of the binding. -/
theorem shares_one_connection (a : b.Account) {s : Pool σ} (hs : Reachable a s) :
    (∀ g h, s.IsOpen a g → s.IsOpen a h → g = h) ∧
    (∀ p ∈ s.handouts, ∀ q ∈ s.handouts, p.closes = q.closes → p.handle = q.handle) ∧
    (∀ seat t, s.threads[seat]? = some t → t.ready → ∃ h r, s.IsOpen a h ∧
      t.client.resolved = some r ∧
      (t.stage = .idle ∧ (∀ call, (s.step a seat (.begin (.call call))).threads[seat]? =
          some { t with stage := .calling call (some h) }) ∨
        ∃ call, t.stage = .calling call (some h) ∧ (s.step a seat .proceed).env.store =
          ((call.request? r.options).map (MemoryCall.on b h s.env.store)).getD s.env.store)) ∧
    ∀ seat t, s.threads[seat]? = some t → t.stage = .idle →
      (s.run a [(seat, .begin .start), (seat, .proceed), (seat, .proceed)]).left seat =
        some (t.client.start b s.manager s.env).2 ∧
      (s.run a [(seat, .begin .stop), (seat, .proceed)]).left seat =
        some (t.client.stop b s.manager s.env).2 ∧
      ∀ call, (s.run a [(seat, .begin (.call call)), (seat, .proceed)]).left seat =
        some (t.client, s.manager,
          { s.env with store := (call.run b t.client s.manager s.env.store).2 }) := by
  have hsound := Sound.of_reachable hs
  refine ⟨?_, hsound.handouts.agree, ?_, fun seat t hat hidle => ⟨left_run_start a hat hidle,
    left_run_stop a hat hidle, left_run_call a hat hidle⟩⟩
  · intro g h hg hh
    have hlive := (hsound.open_iff g).mp hg
    rw [(hsound.open_iff h).mp hh] at hlive
    exact (Option.some.inj hlive).symm
  · intro seat t hat ready
    obtain ⟨h, r, hlive, hr, hstage⟩ := hsound.of_ready (List.mem_of_getElem? hat) ready
    refine ⟨h, r, (hsound.open_iff h).mpr hlive, hr, ?_⟩
    rcases hstage with hidle | ⟨call, hcalling⟩
    · refine .inl ⟨hidle, fun call => ?_⟩
      have hseat : seat < s.threads.length := (List.getElem?_eq_some_iff.mp hat).1
      simp only [Pool.step, hat, after, Thread.move, Thread.begin, hidle, hlive]
      exact List.getElem?_set_self hseat
    · refine .inr ⟨call, hcalling, ?_⟩
      simp only [Pool.step, hat, after, Thread.move, Thread.proceed, hcalling]
      exact call.run_snd rfl hr s.env.store

/-- One binding starts and is given up while another is between the grant of its reference and the
return of its start; the second then looks up the connection for a read. -/
def handover : Pool Memory :=
  (init { store := {} } [∅, ∅]).run Memory.account
    [(0, .begin .start), (0, .proceed), (0, .proceed), (1, .begin .start), (1, .proceed),
      (0, .begin .stop), (0, .proceed), (1, .proceed), (1, .begin (.call (.read "t" "k" [])))]

theorem shares_one_connection_handover :
    Reachable Memory.account handover ∧
      handover.handouts = List.replicate 4 { closes := 0, handle := 0 } ∧
      ∃ t, handover.threads[1]? = some t ∧ t.ready ∧ ∃ h, handover.IsOpen Memory.account h := by
  have hreachable : Reachable Memory.account handover :=
    (Reachable.init (by decide) [∅, ∅]).run _
  obtain ⟨-, -, hready, -⟩ := shares_one_connection Memory.account hreachable
  obtain ⟨h, r, hopen, -⟩ := hready 1 _ rfl rfl
  exact ⟨hreachable, rfl, _, rfl, rfl, h, hopen⟩

end Pool

end StoreBinding
