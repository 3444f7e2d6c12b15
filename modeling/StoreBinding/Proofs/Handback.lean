import StoreBinding.Proofs.Independence
import StoreBinding.Proofs.Lifecycle

/-!
The smoke workload gives back what it took. Its bindings draw on a manager that others may hold
already: as long as any of them holds a reference, the count of the manager is what it was plus
the number of those that do, and a connection opened for them is the only one that is neither old
nor closed. Main statement: however the starts, the work and the stops end, and in whatever
order they are made, the manager is left as it was found, no binding of the run holds a
reference, and every connection that was opened in the run was closed exactly once.
-/
namespace StoreBinding

variable {σ : Type} {b : Backend σ}

namespace Manager

/-- The states of a manager and its store, however it is used. It is acquired and released any
number of times, in any order, and in between anything may happen to the store that spares the
live connection. -/
inductive Reachable (a : b.Account) : Manager → σ → Prop
  | fresh (s : σ) : Reachable a {} s
  | acquire {m : Manager} {e : Env σ} (h : Reachable a m e.store) (r : ConnectionRequest) :
      Reachable a (m.acquire b r e).2.1 (m.acquire b r e).2.2.store
  | release {m : Manager} {e : Env σ} (h : Reachable a m e.store) :
      Reachable a (m.release b e).2.1 (m.release b e).2.2.store
  | spare {m : Manager} {s s' : σ} (h : Reachable a m s)
      (same : ∀ handle, m.live = some handle → (a.closes s')[handle]? = (a.closes s)[handle]?) :
      Reachable a m s'

structure Standing (a : b.Account) (m : Manager) (s : σ) : Prop where
  connected : m.live.isSome ↔ 0 < m.refs
  unclosed : ∀ h, m.live = some h → (a.closes s)[h]? = some 0

namespace Standing

variable {a : b.Account} {m : Manager}

theorem acquire {e : Env σ} (h : Standing a m e.store) (r : ConnectionRequest) :
    Standing a (m.acquire b r e).2.1 (m.acquire b r e).2.2.store := by
  have hacquired := m.acquired a r e
  generalize m.acquire b r e = outcome at hacquired
  cases hacquired with
  | shared live =>
    refine ⟨?_, h.unclosed⟩
    simp [live]
  | @opened e' idle closes =>
    refine ⟨by simp, fun handle live => ?_⟩
    cases live
    show (a.closes e'.store)[(a.closes e.store).length]? = some 0
    rw [closes]
    exact List.getElem?_concat_length
  | @failed x e' idle closes =>
    refine ⟨h.connected, fun handle live => ?_⟩
    rw [idle] at live
    cases live

theorem release {e : Env σ} (h : Standing a m e.store) :
    Standing a (m.release b e).2.1 (m.release b e).2.2.store := by
  have hreleased := m.released a e
  generalize m.release b e = outcome at hreleased
  cases hreleased with
  | idle idle => exact h
  | @kept handle e' live more store =>
    have hrefs : 0 < m.refs - 1 := by omega
    refine ⟨?_, fun handle' live' => ?_⟩
    · simp [live, hrefs]
    · show (a.closes e'.store)[handle']? = some 0
      rw [store]
      exact h.unclosed handle' live'
  | closed live last quiet closes => exact ⟨⟨nofun, nofun⟩, nofun⟩

theorem of_reachable {s : σ} (h : Reachable a m s) : Standing a m s := by
  induction h with
  | fresh s => exact ⟨⟨nofun, nofun⟩, nofun⟩
  | acquire _ r ih => exact ih.acquire r
  | release _ ih => exact ih.release
  | spare _ same ih =>
    refine ⟨ih.connected, fun handle live => ?_⟩
    rw [same handle live]
    exact ih.unclosed handle live

/-- A manager without a connection is as good as new. -/
theorem eq_of_idle {s : σ} (h : Standing a m s) (idle : m.live = none) : m = {} := by
  have hconnected := h.connected
  rw [idle] at hconnected
  have hpos : ¬ 0 < m.refs := fun hpos => absurd (hconnected.mpr hpos) (by simp)
  have hrefs : m.refs = 0 := by omega
  obtain ⟨live, refs⟩ := m
  dsimp only at idle hrefs
  rw [idle, hrefs]

theorem refs_pos {s : σ} (h : Standing a m s) {handle : Handle} (live : m.live = some handle) :
    0 < m.refs := by
  rw [← h.connected, live]
  rfl

end Standing

end Manager

/-- What a number of bindings that hold a reference make of a manager and of the closes of its
connections. They share a connection that was there before, or hold none, or hold one that was
opened for them; those that were opened for them earlier were closed once each. -/
inductive Engaged (m : Manager) (closes : List Nat) : Nat → Manager → List Nat → Prop
  | borrowed {h : Handle} (live : m.live = some h) (n : Nat) :
      Engaged m closes n { m with refs := m.refs + n } closes
  | idle (live : m.live = none) (k : Nat) : Engaged m closes 0 m (closes ++ List.replicate k 1)
  | opened (live : m.live = none) (k : Nat) {n : Nat} (held : 0 < n) :
      Engaged m closes n { live := some (closes.length + k), refs := n }
        (closes ++ List.replicate k 1 ++ [0])

namespace Engaged

variable {a : b.Account} {m g g' : Manager} {closes : List Nat} {s : σ} {n : Nat} {e e' : Env σ}

theorem nobody (m : Manager) (closes : List Nat) : Engaged m closes 0 m closes := by
  cases hlive : m.live with
  | some h => exact borrowed hlive 0
  | none =>
    have hidle : Engaged m closes 0 m (closes ++ List.replicate 0 1) := idle hlive 0
    rwa [List.replicate_zero, List.append_nil] at hidle

/-- A binding more holds a reference. -/
theorem acquire_ok (hm : m.Standing a s) (h : Engaged m closes n g (a.closes e.store))
    {handle : Handle} (hacquired : g.Acquired a e (.ok handle, g', e')) :
    Engaged m closes (n + 1) g' (a.closes e'.store) := by
  generalize hbefore : a.closes e.store = before at h
  cases h with
  | borrowed live n =>
    cases hacquired with
    | shared live' =>
      rw [hbefore]
      exact borrowed live (n + 1)
    | opened idle closes =>
      rw [live] at idle
      cases idle
  | idle live k =>
    have hrefs : m.refs = 0 := by rw [hm.eq_of_idle live]
    cases hacquired with
    | shared live' =>
      rw [live] at live'
      cases live'
    | opened idle after =>
      have hlength : (closes ++ List.replicate k 1).length = closes.length + k := by
        rw [List.length_append, List.length_replicate]
      rw [after, hbefore, hrefs, hlength]
      exact opened live k (Nat.succ_pos 0)
  | @opened live k n held =>
    cases hacquired with
    | shared live' =>
      rw [hbefore]
      exact opened live k (Nat.succ_pos n)
    | opened idle after => cases idle

/-- The close of the connection that was opened last. -/
theorem modify_opened (closes : List Nat) (k : Nat) :
    (closes ++ List.replicate k 1 ++ [0]).modify (closes.length + k) (· + 1) =
      closes ++ List.replicate (k + 1) 1 := by
  have hlength : (closes ++ List.replicate k 1).length = closes.length + k := by
    rw [List.length_append, List.length_replicate]
  have hlast :=
    List.modifyTailIdx_add (List.modifyHead (· + 1)) 0 (closes ++ List.replicate k 1) [0]
  calc
    _ = closes ++ List.replicate k 1 ++ [1] := hlength ▸ hlast
    _ = closes ++ List.replicate (k + 1) 1 := by
      rw [List.append_assoc, ← List.replicate_succ']

/-- A binding less holds a reference. Only the last one to give it back can be interrupted. -/
theorem release (hm : m.Standing a s) (h : Engaged m closes (n + 1) g (a.closes e.store))
    {x : Except Halt Unit} (hreleased : g.Released a e (x, g', e')) :
    Engaged m closes n g' (a.closes e'.store) ∧ (x = .ok () ∨ n = 0) := by
  generalize hbefore : a.closes e.store = before at h
  generalize hcount : n + 1 = count at h
  cases h with
  | borrowed live count =>
    have hrefs := hm.refs_pos live
    cases hreleased with
    | idle idle =>
      rw [live] at idle
      cases idle
    | kept live' more store =>
      have hcounted : m.refs + count - 1 = m.refs + n := by omega
      refine ⟨?_, .inl rfl⟩
      dsimp only
      rw [store, hbefore, hcounted]
      exact borrowed live n
    | closed live' last quiet after =>
      -- somebody else holds the connection that was there before
      dsimp only at last
      omega
  | idle live k => omega
  | @opened live k count held =>
    cases hreleased with
    | idle idle => cases idle
    | kept live' more store =>
      dsimp only at more
      have hheld : 0 < n := by omega
      have hcounted : count - 1 = n := by omega
      refine ⟨?_, .inl rfl⟩
      dsimp only
      rw [store, hbefore, hcounted]
      exact opened live k hheld
    | closed live' last quiet after =>
      dsimp only at last
      have hnone : n = 0 := by omega
      cases live'
      obtain rfl := hm.eq_of_idle live
      refine ⟨?_, .inr hnone⟩
      rw [after, hbefore, modify_opened, hnone]
      exact idle live (k + 1)

end Engaged

def Crew.holders (w : Crew σ) : Nat := w.clients.countP Client.holds

structure Crew.Draws (a : b.Account) (m : Manager) (closes : List Nat) (count : Nat) (w : Crew σ) :
    Prop where
  length : w.clients.length = count
  engaged : Engaged m closes w.holders w.manager (a.closes w.env.store)

namespace Crew

variable {a : b.Account} {m : Manager} {closes : List Nat} {count : Nat} {s : σ} {w : Crew σ}

/-- Putting another binding into a seat, with a manager and a store that go with it. -/
theorem Draws.set (hw : w.Draws a m closes count) {seat : Nat} {c c' : Client}
    (hat : w.clients[seat]? = some c) {manager : Manager} {env : Env σ} {n : Nat}
    (h : Engaged m closes n manager (a.closes env.store))
    (hn : w.holders + c'.holds.toNat = n + c.holds.toNat) :
    Draws a m closes count { env, manager, clients := w.clients.set seat c' } := by
  have hcount := countP_set_add Client.holds hat c'
  have hholders : (w.clients.set seat c').countP Client.holds = n := by
    unfold holders at hn
    omega
  refine ⟨by rw [List.length_set, hw.length], ?_⟩
  unfold holders
  rw [hholders]
  exact h

theorem draws_start (hm : m.Standing a s) (hw : w.Draws a m closes count) (seat : Nat) :
    ((db b seat).start w).2.Draws a m closes count := by
  simp only [db, renew]
  split
  · exact hw
  · next c hat =>
    have hstarted := c.started a w.manager w.env
    have hengaged := hw.engaged
    generalize c.start b w.manager w.env = outcome at hstarted
    cases hstarted with
    | refused unresolved reason => exact hw.set hat hengaged rfl
    | again holds store =>
      rw [← store] at hengaged
      exact hw.set hat hengaged rfl
    | failed free after =>
      rw [← after] at hengaged
      exact hw.set hat hengaged rfl
    | taken free store acquired =>
      rw [← store] at hengaged
      have htaken := hengaged.acquire_ok hm acquired
      refine hw.set hat htaken ?_
      rw [free]
      rfl

/-- A stop that fails leaves no binding with a reference. -/
theorem draws_stop (hm : m.Standing a s) (hw : w.Draws a m closes count) (seat : Nat) :
    ((db b seat).stop w).2.Draws a m closes count ∧
      (((db b seat).stop w).1 = .ok () ∨ ((db b seat).stop w).2.holders = 0) := by
  simp only [db, renew]
  split
  · exact ⟨hw, .inl rfl⟩
  · next c hat =>
    cases hholds : c.holds with
    | false =>
      rw [Client.stop_of_free hholds]
      exact ⟨hw.set hat hw.engaged rfl, .inl rfl⟩
    | true =>
      have hcount := countP_set_add Client.holds hat { c with holds := false }
      rw [hholds] at hcount
      have hholders : w.holders = (w.clients.set seat { c with holds := false }).countP
          Client.holds + 1 := hcount.symm
      have hengaged := hw.engaged
      have hreleased := w.manager.released a w.env
      rw [Client.stop_of_holds hholds]
      generalize w.manager.release b w.env = outcome at hreleased
      obtain ⟨x, manager, env⟩ := outcome
      rw [hholders] at hengaged
      obtain ⟨hgiven, hresult⟩ := hengaged.release hm hreleased
      exact ⟨⟨by rw [List.length_set, hw.length], hgiven⟩, hresult⟩

def FreeAt (w : Crew σ) (seat : Nat) : Prop := ∀ c, w.clients[seat]? = some c → c.holds = false

theorem holders_eq_zero_iff : w.holders = 0 ↔ ∀ seat, w.FreeAt seat := by
  unfold holders FreeAt
  rw [List.countP_eq_zero]
  constructor
  · intro h seat c hat
    have hc := h c (List.mem_of_getElem? hat)
    simpa using hc
  · intro h c hc
    obtain ⟨seat, hat⟩ := List.getElem?_of_mem hc
    have hfree := h seat c hat
    simp [hfree]

theorem holds_stop (c : Client) (m : Manager) (e : Env σ) :
    (c.stop b m e).2.1.holds = false := by
  cases hholds : c.holds with
  | false => rw [Client.stop_of_free hholds]; exact hholds
  | true => rw [Client.stop_of_holds hholds]

/-- A stop frees the binding in its seat and leaves the other seats alone. -/
theorem freeAt_stop (w : Crew σ) (seat : Nat) : ((db b seat).stop w).2.FreeAt seat := by
  intro c' hat'
  simp only [db, renew] at hat'
  split at hat'
  · next hnone =>
    rw [hnone] at hat'
    cases hat'
  · next c hat =>
    have hseat : seat < w.clients.length := (List.getElem?_eq_some_iff.mp hat).1
    rw [List.getElem?_set_self hseat] at hat'
    cases hat'
    exact holds_stop c w.manager w.env

theorem freeAt_stop_of_ne {seat other : Nat} (hne : other ≠ seat) (h : w.FreeAt other) :
    ((db b seat).stop w).2.FreeAt other := by
  intro c' hat'
  simp only [db, renew] at hat'
  split at hat'
  · exact h c' hat'
  · rw [List.getElem?_set_ne (Ne.symm hne)] at hat'
    exact h c' hat'

/-- Operations on records change neither the bindings nor their manager, and no connection. -/
theorem draws_operate {op : Client → Manager → Act σ Status}
    (hop : ∀ c m s, a.closes (op c m s).2 = a.closes s) (hw : w.Draws a m closes count)
    (seat : Nat) :
    (operate seat op w).2.Draws a m closes count := by
  unfold operate
  split
  · exact hw
  · next c hat =>
    have hengaged := hw.engaged
    rw [← hop c w.manager w.env.store] at hengaged
    exact ⟨hw.length, hengaged⟩

end Crew

namespace Smoke

section Runs

variable {S : Type} {P : S → Prop}

/-- What every start preserves, all starts preserve, failed ones included. -/
theorem startAll_preserves {dbs : List (Db S)} (hop : ∀ db ∈ dbs, ∀ s, P s → P (db.start s).2)
    {s : S} (h : P s) : P (startAll dbs s).2 := by
  induction dbs generalizing s with
  | nil => exact h
  | cons db rest ih =>
    have hfirst : P (db.start s).2 := hop db List.mem_cons_self s h
    have hlater : P (startAll rest (db.start s).2).2 :=
      ih (fun db' hdb' => hop db' (List.mem_cons_of_mem db hdb')) hfirst
    simp only [startAll]
    split <;> exact hlater

def begin (starters : List (Db S)) (work : Act S Tally) : Act S Tally := fun s =>
  match startAll starters s with
  | (.error h, s) => (.error h, s)
  | (.ok (), s) => work s

def finish (dbs : List (Db S)) (p : Except Halt Tally × S) : Except Halt Tally × S :=
  match stopAll dbs p.2 with
  | (.error h, s) => (.error h, s)
  | (.ok (), s) => (p.1, s)

theorem begin_preserves {starters : List (Db S)} {work : Act S Tally}
    (hstart : ∀ db ∈ starters, ∀ s, P s → P (db.start s).2) (hwork : ∀ s, P s → P (work s).2)
    {s : S} (h : P s) : P (begin starters work s).2 := by
  have hstarted : P (startAll starters s).2 := startAll_preserves hstart h
  unfold begin
  split
  · next heq =>
    rw [heq] at hstarted
    exact hstarted
  · next heq =>
    rw [heq] at hstarted
    exact hwork _ hstarted

theorem finish_snd (dbs : List (Db S)) (p : Except Halt Tally × S) :
    (finish dbs p).2 = (stopAll dbs p.2).2 := by
  unfold finish
  split <;> next heq => rw [heq]

end Runs

def summarize (logger : String) (p : Except Halt Tally × Crew σ) : Except Halt Bool × Crew σ :=
  logged (reported logger p)

/-- The run of a crew in which the bindings of the given seats are started in that order and all
others are called off, and the workers take their turns by a schedule. -/
def runCrewFrom (starts schedule : List Nat) (b : Backend σ) (logger : String)
    (settings : Settings) (choice : Choice) : Act (Crew σ) Bool := fun w =>
  let dbs := bindings b settings
  let starters := starts.filterMap fun seat => dbs[seat]?
  let work := interleave settings.table settings.recordCount choice schedule dbs
  summarize logger
    (finish dbs (begin starters work (w.recruit settings.threads settings.properties)))

theorem runCrew_eq_summarize (b : Backend σ) (logger : String) (settings : Settings)
    (choice : Choice) (w : Crew σ) :
    runCrew b logger settings choice w =
      summarize logger (finish (bindings b settings) (begin (bindings b settings)
        (workAll settings.table settings.recordCount choice 0 (bindings b settings) ∅)
        (w.recruit settings.threads settings.properties))) := rfl

section Crews

variable {a : b.Account} {m : Manager} {closes : List Nat} {count : Nat} {s : σ} {w : Crew σ}

theorem start_withFields {S : Type} (length : Nat) (db : Db S) :
    (withFields length db).start = db.start := by
  unfold withFields
  split <;> rfl

theorem stop_withFields {S : Type} (length : Nat) (db : Db S) :
    (withFields length db).stop = db.stop := by
  unfold withFields
  split <;> rfl

theorem closes_readStatus (a : b.Account) (table key : String) (c : Client) (m : Manager) (s : σ) :
    a.closes (Crew.readStatus b table key c m s).2 = a.closes s := c.closes_read a m table key [] s

/-- The work of a crew leaves its references and connections as they are. -/
theorem draws_perform (hw : w.Draws a m closes count) (length seat : Nat) (table : String)
    (choice : Choice) (worker : Int) (t : Task) :
    (perform (withFields length (Crew.db b seat)) table choice worker t w).2.Draws
      a m closes count := by
  obtain ⟨record, step, action, expected⟩ := t
  have hread := Crew.draws_operate (closes_readStatus a table (key worker record)) hw seat
  have hdelete := Crew.draws_operate
    (fun c m s => c.closes_delete a m table (key worker record) s) hw seat
  unfold withFields
  by_cases hlength : length ≤ maxLetters
  · rw [if_pos hlength]
    cases action with
    | insert => exact Crew.draws_operate (fun c m s => c.closes_write a a.insert m _ _ _ s) hw seat
    | read => exact hread
    | update => exact Crew.draws_operate (fun c m s => c.closes_write a a.replace m _ _ _ s) hw seat
    | delete => exact hdelete
  · rw [if_neg hlength]
    cases action with
    | insert => exact hw
    | read => exact hread
    | update => exact hw
    | delete => exact hdelete

/-- Stopping every binding leaves none with a reference, also where a stop is interrupted. -/
theorem draws_stopAll (hm : m.Standing a s) (length : Nat) {seats : List Nat}
    (hw : w.Draws a m closes count) (hfree : ∀ seat, seat ∉ seats → w.FreeAt seat) :
    (stopAll (seats.map fun seat => withFields length (Crew.db b seat)) w).2.Draws
      a m closes count ∧
      (stopAll (seats.map fun seat => withFields length (Crew.db b seat)) w).2.holders = 0 := by
  induction seats generalizing w with
  | nil =>
    have hnone : w.holders = 0 :=
      Crew.holders_eq_zero_iff.mpr fun seat => hfree seat List.not_mem_nil
    exact ⟨hw, hnone⟩
  | cons seat rest ih =>
    obtain ⟨hdraws, hresult⟩ := Crew.draws_stop hm hw seat
    have hrest : ∀ other, other ∉ rest → ((Crew.db b seat).stop w).2.FreeAt other := by
      intro other hother
      by_cases heq : other = seat
      · rw [heq]
        exact Crew.freeAt_stop w seat
      · have hnew : other ∉ seat :: rest := by simp [heq, hother]
        exact Crew.freeAt_stop_of_ne heq (hfree other hnew)
    simp only [List.map_cons, stopAll, stop_withFields]
    split
    · next x w' heq =>
      rw [heq] at hdraws hresult
      have hnone : w'.holders = 0 := by
        rcases hresult with hok | hnone
        · cases hok
        · exact hnone
      exact ⟨hdraws, hnone⟩
    · next w' heq =>
      rw [heq] at hdraws hrest
      exact ih hdraws hrest

structure HandedBack (a : b.Account) (count : Nat) (w w' : Crew σ) : Prop where
  manager : w'.manager = w.manager
  length : w'.clients.length = count
  free : ∀ c ∈ w'.clients, c.holds = false
  unclosed : ∀ h, w.manager.live = some h → (a.closes w'.env.store)[h]? = some 0
  kept : ∀ h, h < (a.closes w.env.store).length →
    (a.closes w'.env.store)[h]? = (a.closes w.env.store)[h]?
  opened : ∀ h, (a.closes w.env.store).length ≤ h → h < (a.closes w'.env.store).length →
    (a.closes w'.env.store)[h]? = some 1

/-- With all references given back, a crew leaves what it found. -/
theorem handedBack_of_draws {w' : Crew σ} (hm : w.manager.Standing a w.env.store)
    (hw' : w'.Draws a w.manager (a.closes w.env.store) count) (hnone : w'.holders = 0) :
    HandedBack a count w w' := by
  obtain ⟨hlength, hengaged⟩ := hw'
  have hfree : ∀ c ∈ w'.clients, c.holds = false := by
    intro c hc
    have hnot := List.countP_eq_zero.mp hnone c hc
    simpa using hnot
  rw [hnone] at hengaged
  generalize hmanager : w'.manager = manager at hengaged
  generalize hafter : a.closes w'.env.store = after at hengaged
  cases hengaged with
  | borrowed live n =>
    refine ⟨hmanager, hlength, hfree, ?_, ?_, ?_⟩
    · rw [hafter]
      exact hm.unclosed
    · intro h hlt
      rw [hafter]
    · intro h hle hlt
      rw [hafter] at hlt
      omega
  | idle live k =>
    refine ⟨hmanager, hlength, hfree, ?_, ?_, ?_⟩
    · intro h hlive
      rw [live] at hlive
      cases hlive
    · intro h hlt
      rw [hafter, List.getElem?_append_left hlt]
    · intro h hle hlt
      rw [hafter, List.length_append, List.length_replicate] at hlt
      rw [hafter, List.getElem?_append_right hle, List.getElem?_replicate_of_lt (by omega)]
  | opened live k held => omega

theorem draws_recruit (w : Crew σ) (count : Nat) (properties : RawProperties) :
    (w.recruit count properties).Draws a w.manager (a.closes w.env.store) count := by
  have hnone : (w.recruit count properties).holders = 0 := by
    simp [Crew.holders, Crew.recruit]
  refine ⟨List.length_replicate, ?_⟩
  rw [hnone]
  exact .nobody w.manager _

/-- The summary is an entry of the log and nothing else. -/
theorem HandedBack.summarize {p : Except Halt Tally × Crew σ} (h : HandedBack a count w p.2)
    (logger : String) : HandedBack a count w (summarize logger p).2 := by
  obtain ⟨x | totals, w'⟩ := p
  · exact h
  · exact ⟨h.manager, h.length, h.free, h.unclosed, h.kept, h.opened⟩

/-- Any starts of bindings of the crew and any work that leaves references and connections as they
are make a run that hands back what it took. -/
theorem handedBack_run (hm : w.manager.Standing a w.env.store) (logger : String)
    (settings : Settings) {starters : List (Db (Crew σ))} {work : Act (Crew σ) Tally}
    (hstarters : ∀ db ∈ starters, db ∈ bindings b settings)
    (hwork : ∀ w', w'.Draws a w.manager (a.closes w.env.store) settings.threads →
      (work w').2.Draws a w.manager (a.closes w.env.store) settings.threads) :
    HandedBack a settings.threads w
      (summarize logger (finish (bindings b settings)
        (begin starters work (w.recruit settings.threads settings.properties)))).2 := by
  have hstart : ∀ db ∈ starters, ∀ w' : Crew σ,
      w'.Draws a w.manager (a.closes w.env.store) settings.threads →
        (db.start w').2.Draws a w.manager (a.closes w.env.store) settings.threads := by
    intro db hdb w' hw'
    obtain ⟨seat, -, rfl⟩ := List.mem_map.mp (hstarters db hdb)
    rw [start_withFields]
    exact Crew.draws_start hm hw' seat
  have hbegun := begin_preserves hstart hwork (draws_recruit w settings.threads settings.properties)
  generalize begin starters work (w.recruit settings.threads settings.properties) = p at hbegun
  have houtside : ∀ seat, seat ∉ List.range settings.threads → p.2.FreeAt seat := by
    intro seat hseat c hat
    have hlt : seat < p.2.clients.length := (List.getElem?_eq_some_iff.mp hat).1
    rw [hbegun.length] at hlt
    exact absurd (List.mem_range.mpr hlt) hseat
  obtain ⟨hdraws, hnone⟩ := draws_stopAll hm settings.fieldLength hbegun houtside
  have hstopped : HandedBack a settings.threads w (finish (bindings b settings) p).2 := by
    rw [finish_snd]
    exact handedBack_of_draws hm hdraws hnone
  exact hstopped.summarize logger

/-- Whatever state the manager of a crew is in, and whatever fails on the way, the run leaves the
manager as it was, no binding with a reference, the live connection unclosed, older ones alone,
and every connection that was opened on the way closed exactly once. The same holds if the bindings
are started in any other order, if some of them are called off, and for every schedule of the
work. -/
theorem hands_back (a : b.Account) (logger : String) (settings : Settings) (choice : Choice)
    {w : Crew σ} (hw : w.manager.Reachable a w.env.store) :
    HandedBack a settings.threads w (runCrew b logger settings choice w).2 ∧
    ∀ starts schedule, HandedBack a settings.threads w
      (runCrewFrom starts schedule b logger settings choice w).2 := by
  have hm : w.manager.Standing a w.env.store := .of_reachable hw
  have hperform : ∀ (seat : Nat) db, (bindings b settings)[seat]? = some db → ∀ (worker : Int) t w',
      w'.Draws a w.manager (a.closes w.env.store) settings.threads →
      (perform db settings.table choice worker t w').2.Draws a w.manager (a.closes w.env.store)
        settings.threads := by
    intro seat db hat worker t w' hw'
    obtain ⟨seat', -, rfl⟩ := List.mem_map.mp (List.mem_of_getElem? hat)
    exact draws_perform hw' settings.fieldLength seat' settings.table choice worker t
  constructor
  · rw [runCrew_eq_summarize]
    refine handedBack_run hm logger settings (fun db hdb => hdb) fun w' hw' => ?_
    rw [workAll_eq]
    exact inTurn_preserves (fun seat db hat => hperform seat db hat _) settings.recordCount hw'
  · intro starts schedule
    refine handedBack_run hm logger settings (fun db hdb => ?_) fun w' hw' => ?_
    · obtain ⟨seat, -, hat⟩ := List.mem_filterMap.mp hdb
      exact List.mem_of_getElem? hat
    · exact outcomes_preserves (fun seat db hat => hperform seat db hat _) settings.recordCount
        schedule hw'

end Crews

def hostile : Crew Memory where
  env := { store :=
    { script := { decide := fun _ _ _ => some (.raise (.interrupt "call")) }
      closeFault := some (.interrupt "close") } }

def hostileRun : Except Halt Bool × Crew Memory :=
  runCrew Memory.backend "smoke" duet (fun _ _ _ => ∅) hostile

/-- Both workers are interrupted and so is the last stop, and yet the one connection is closed and
the manager is as good as new. -/
theorem hands_back_hostile :
    hostile.manager.Reachable Memory.account hostile.env.store ∧
    hostileRun.1 = .error (.interrupt "close") ∧ hostileRun.2.manager = {} ∧
    (Memory.account.closes hostileRun.2.env.store)[0]? = some 1 := by
  have hreachable : hostile.manager.Reachable Memory.account hostile.env.store :=
    .fresh hostile.env.store
  have hback : HandedBack Memory.account 2 hostile hostileRun.2 :=
    (hands_back Memory.account "smoke" duet (fun _ _ _ => ∅) hreachable).1
  have hlt : 0 < (Memory.account.closes hostileRun.2.env.store).length := by decide +kernel
  exact ⟨hreachable, by decide +kernel, hback.manager, hback.opened 0 (Nat.zero_le _) hlt⟩

end Smoke

end StoreBinding
