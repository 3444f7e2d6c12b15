import StoreBinding.Proofs.Chronicle

/-!
Counting references. In every run of bindings the count of a manager is the number of its
bindings that hold a reference, it has a connection exactly when that number is positive, the
live connection was never closed, and every other connection that it opened was closed once.
The invariant ties the flag of each binding to the record of the run and keeps apart the
connections that different managers opened; each kind of step is shown to preserve it.
-/
namespace StoreBinding

variable {σ : Type} {b : Backend σ}

/-- A manager agrees with the number of references that its bindings hold, and with an account of
the connections that it opened. -/
structure Balanced (closes : List Nat) (openings : List (Handle × String)) (g : String)
    (m : Manager) (holders : Nat) : Prop where
  refs : m.refs = holders
  connected : m.isConnected = true ↔ 0 < holders
  live : ∀ h, m.live = some h → (h, g) ∈ openings ∧ closes[h]? = some 0
  closed : ∀ h, (h, g) ∈ openings → m.live ≠ some h → closes[h]? = some 1

namespace Balanced

variable {closes : List Nat} {openings : List (Handle × String)} {g : String} {m : Manager}
  {n : Nat} {h : Handle}

theorem opener_lt (hb : Balanced closes openings g m n) (hmem : (h, g) ∈ openings) :
    h < closes.length := by
  by_cases hl : m.live = some h
  · exact (List.getElem?_eq_some_iff.mp (hb.live h hl).2).1
  · exact (List.getElem?_eq_some_iff.mp (hb.closed h hmem hl)).1

theorem zero_of_idle (hb : Balanced closes openings g m n) (hl : m.live = none) : n = 0 := by
  rcases Nat.eq_zero_or_pos n with hzero | hpos
  · exact hzero
  · have hc : m.isConnected = true := hb.connected.mpr hpos
    rw [Manager.isConnected, hl] at hc
    cases hc

/-- One more reference to the live connection. -/
theorem shared (hb : Balanced closes openings g m n) (hl : m.live = some h) :
    Balanced closes openings g { m with refs := m.refs + 1 } (n + 1) where
  refs := by rw [hb.refs]
  connected := by
    have hc : m.isConnected = true := by rw [Manager.isConnected, hl]; rfl
    exact ⟨fun _ => Nat.succ_pos n, fun _ => hc⟩
  live := hb.live
  closed := hb.closed

/-- The first reference, to a connection that was just opened. -/
theorem opened (hb : Balanced closes openings g m n) (hl : m.live = none) :
    Balanced (closes ++ [0]) ((closes.length, g) :: openings) g
      { live := some closes.length, refs := m.refs + 1 } (n + 1) where
  refs := by rw [hb.refs]
  connected := ⟨fun _ => Nat.succ_pos n, fun _ => rfl⟩
  live := by
    intro h hlive
    cases hlive
    exact ⟨List.mem_cons_self, by simp⟩
  closed := by
    intro h hmem hne
    rcases List.mem_cons.mp hmem with heq | hold
    · cases heq
      exact absurd rfl hne
    · have hidle : m.live ≠ some h := by rw [hl]; nofun
      rw [List.getElem?_append_left (hb.opener_lt hold)]
      exact hb.closed h hold hidle

/-- Another manager opens a connection. -/
theorem opened_elsewhere (hb : Balanced closes openings g m n) {g' : String} (hne : g ≠ g') :
    Balanced (closes ++ [0]) ((closes.length, g') :: openings) g m n where
  refs := hb.refs
  connected := hb.connected
  live := by
    intro h hl
    obtain ⟨hmem, hzero⟩ := hb.live h hl
    refine ⟨List.mem_cons_of_mem _ hmem, ?_⟩
    rw [List.getElem?_append_left (hb.opener_lt hmem)]
    exact hzero
  closed := by
    intro h hmem hl
    rcases List.mem_cons.mp hmem with heq | hold
    · exact absurd (congrArg Prod.snd heq) hne
    · rw [List.getElem?_append_left (hb.opener_lt hold)]
      exact hb.closed h hold hl

/-- One reference less, and not the last. -/
theorem kept (hb : Balanced closes openings g m n) (hl : m.live = some h) (more : 1 < m.refs) :
    Balanced closes openings g { m with refs := m.refs - 1 } (n - 1) where
  refs := by rw [hb.refs]
  connected := by
    have hc : m.isConnected = true := by rw [Manager.isConnected, hl]; rfl
    have hn : 1 < n := hb.refs ▸ more
    exact ⟨fun _ => Nat.sub_pos_of_lt hn, fun _ => hc⟩
  live := hb.live
  closed := hb.closed

/-- The last reference goes, and the connection is closed. -/
theorem closed_last (hb : Balanced closes openings g m n) (hl : m.live = some h)
    (last : m.refs ≤ 1) :
    Balanced (closes.modify h (· + 1)) openings g {} (n - 1) where
  refs := by
    have hn : n ≤ 1 := hb.refs ▸ last
    exact (Nat.sub_eq_zero_of_le hn).symm
  connected := by
    have hn : n ≤ 1 := hb.refs ▸ last
    refine ⟨nofun, fun hpos => ?_⟩
    omega
  live := nofun
  closed := by
    intro h' hmem _
    rw [List.getElem?_modify]
    by_cases heq : h = h'
    · subst heq
      rw [(hb.live h hl).2]
      simp
    · have hne : m.live ≠ some h' := by
        rw [hl]
        exact fun hs => heq (Option.some.inj hs)
      rw [hb.closed h' hmem hne]
      simp [heq]

/-- Another manager closes its connection. -/
theorem closed_elsewhere (hb : Balanced closes openings g m n) (hother : (h, g) ∉ openings) :
    Balanced (closes.modify h (· + 1)) openings g m n where
  refs := hb.refs
  connected := hb.connected
  live := by
    intro h' hl
    obtain ⟨hmem, hzero⟩ := hb.live h' hl
    have hne : h ≠ h' := fun heq => hother (heq ▸ hmem)
    exact ⟨hmem, by simpa [hne] using hzero⟩
  closed := by
    intro h' hmem hl
    have hne : h ≠ h' := fun heq => hother (heq ▸ hmem)
    simpa [hne] using hb.closed h' hmem hl

end Balanced

namespace Chronicle

open Lease

def leaseOf (id : String) (m : Member) : Lease :=
  { binding := id, manager := m.manager, held := m.client.holds }

structure Sound (a : b.Account) (c : Chronicle σ) : Prop where
  members : ∀ id, (c.world.members.get? id).map (leaseOf id) = newest? id c.leases
  resolved : ∀ id m, c.world.members.get? id = some m → m.client.holds = true →
    m.client.resolved.isSome
  balanced : ∀ g, Balanced (a.closes c.world.env.store) c.openings g (c.world.managers.ask g)
    (holders g c.leases)
  opener : ∀ h g g', (h, g) ∈ c.openings → (h, g') ∈ c.openings → g = g'

namespace Sound

variable {a : b.Account} {c : Chronicle σ} {id : String} {m : Member}

theorem newest?_of_member (h : Sound a c) (hm : c.world.members.get? id = some m) :
    newest? id c.leases = some (leaseOf id m) := by
  rw [← h.members id, hm]
  rfl

theorem newest?_of_absent (h : Sound a c) (hm : c.world.members.get? id = none) :
    newest? id c.leases = none := by
  rw [← h.members id, hm]
  rfl

theorem init (env : Env σ) : Sound a (.init env) := by
  refine ⟨fun id => rfl, fun id m hm => ?_, fun g => ?_, fun h g g' hmem => ?_⟩
  · cases hm
  · rw [init_world, Registry.ask_empty]
    refine ⟨rfl, ⟨nofun, nofun⟩, nofun, fun h hmem => ?_⟩
    cases hmem
  · cases hmem

theorem disturb (h : Sound a c) {env : Env σ}
    (hc : a.closes env.store = a.closes c.world.env.store) : Sound a (c.disturb env) where
  members := h.members
  resolved := h.resolved
  balanced g := by
    show Balanced (a.closes env.store) c.openings g _ _
    rw [hc]
    exact h.balanced g
  opener := h.opener

theorem operation (h : Sound a c) {s : Step} (hs : s.isOperation) : Sound a (c.step a s) := by
  obtain ⟨env, heq, hc⟩ := c.step_operation a hs
  rw [heq]
  exact h.disturb hc

theorem create (h : Sound a c) (id manager : String) (properties : RawProperties) :
    Sound a (c.step a (.create id manager properties)) where
  members id' := by
    show ((c.world.members.insert id _).get? id').map (leaseOf id') =
      newest? id' ({ binding := id, manager } :: c.leases)
    rw [OrderedMap.get?_insert, newest?]
    by_cases heq : id' = id
    · rw [if_pos heq, if_pos heq.symm, heq]
      rfl
    · rw [if_neg heq, if_neg (Ne.symm heq), h.members]
  resolved id' m hm holds := by
    change (c.world.members.insert id _).get? id' = some m at hm
    rw [OrderedMap.get?_insert] at hm
    split at hm
    · cases hm
      cases holds
    · exact h.resolved id' m hm holds
  balanced g := by
    have hopen : (c.step a (.create id manager properties)).openings = c.openings :=
      openings_step rfl
    have hcount : holders g ({ binding := id, manager } :: c.leases) = holders g c.leases := by
      simp [holders]
    show Balanced (a.closes c.world.env.store) _ g ((c.world.managers.touch manager).ask g)
      (holders g ({ binding := id, manager } :: c.leases))
    rw [hopen, hcount, Registry.ask_touch]
    exact h.balanced g
  opener := by
    have hopen : (c.step a (.create id manager properties)).openings = c.openings :=
      openings_step rfl
    rw [hopen]
    exact h.opener

/-- A new connection has no opener yet. -/
theorem opener_opened (h : Sound a c) (manager : String) (handle : Handle) (g g' : String)
    (hg : (handle, g) ∈ ((a.closes c.world.env.store).length, manager) :: c.openings)
    (hg' : (handle, g') ∈ ((a.closes c.world.env.store).length, manager) :: c.openings) :
    g = g' := by
  rcases List.mem_cons.mp hg with heq | hold <;> rcases List.mem_cons.mp hg' with heq' | hold'
  · exact (congrArg Prod.snd heq).trans (congrArg Prod.snd heq').symm
  · have hlt := (h.balanced g').opener_lt hold'
    exact absurd (congrArg Prod.fst heq) (Nat.ne_of_lt hlt)
  · have hlt := (h.balanced g).opener_lt hold
    exact absurd (congrArg Prod.fst heq') (Nat.ne_of_lt hlt)
  · exact h.opener handle g g' hold hold'

/-- A start or a stop of a known binding, given what it does to the manager of the binding and
that it spares those of others. -/
theorem renew (h : Sound a c) (hm : c.world.members.get? id = some m) {s : Step}
    {reply : Except Halt Reply} {client : Client} {manager : Manager} {env : Env σ}
    (hstep : c.world.step b s = (reply,
      { c.world with
        env
        managers := c.world.managers.insert m.manager manager
        members := c.world.members.insert id { m with client } }))
    (hrecord : record s reply c.leases = mark id client.holds c.leases)
    (hresolved : client.holds = true → client.resolved.isSome)
    (hself : Balanced (a.closes env.store) (c.step a s).openings m.manager manager
      (holders m.manager (mark id client.holds c.leases)))
    (hother : ∀ g k n, g ≠ m.manager → Balanced (a.closes c.world.env.store) c.openings g k n →
      Balanced (a.closes env.store) (c.step a s).openings g k n)
    (hopener : ∀ h g g', (h, g) ∈ (c.step a s).openings → (h, g') ∈ (c.step a s).openings →
      g = g') :
    Sound a (c.step a s) := by
  have hworld : (c.step a s).world = _ := congrArg Prod.snd hstep
  have hleases : (c.step a s).leases = mark id client.holds c.leases := by
    show record s (c.world.step b s).1 c.leases = _
    rw [hstep, hrecord]
  have hnew := h.newest?_of_member hm
  refine ⟨?_, ?_, ?_, hopener⟩
  · intro id'
    rw [hworld, hleases, OrderedMap.get?_insert, newest?_mark]
    split
    · next heq =>
      rw [hnew, heq]
      rfl
    · exact h.members id'
  · intro id' m' hm' holds
    rw [hworld, OrderedMap.get?_insert] at hm'
    split at hm'
    · cases hm'
      exact hresolved holds
    · exact h.resolved id' m' hm' holds
  · intro g
    rw [hworld, hleases, Registry.ask_insert]
    split
    · next heq =>
      rw [heq]
      exact hself
    · next hne =>
      have hcount := holders_mark hnew g client.holds
      have hg : ¬ m.manager = g := fun heq => hne heq.symm
      simp only [leaseOf, hg, false_and, if_false, Nat.add_zero] at hcount
      rw [hcount]
      exact hother g _ _ hne (h.balanced g)

/-- As `renew`, where nothing is opened or closed. -/
theorem renew_same (h : Sound a c) (hm : c.world.members.get? id = some m) {s : Step}
    {reply : Except Halt Reply} {client : Client} {manager : Manager} {env : Env σ}
    (hstep : c.world.step b s = (reply,
      { c.world with
        env
        managers := c.world.managers.insert m.manager manager
        members := c.world.members.insert id { m with client } }))
    (hrecord : record s reply c.leases = mark id client.holds c.leases)
    (hresolved : client.holds = true → client.resolved.isSome)
    (hcloses : a.closes env.store = a.closes c.world.env.store)
    (hself : Balanced (a.closes c.world.env.store) c.openings m.manager manager
      (holders m.manager (mark id client.holds c.leases))) :
    Sound a (c.step a s) := by
  have hopen : (c.step a s).openings = c.openings := openings_step (by rw [hstep, hcloses])
  apply h.renew hm hstep hrecord hresolved
  · rw [hopen, hcloses]
    exact hself
  · intro g k n _ hb
    rw [hopen, hcloses]
    exact hb
  · rw [hopen]
    exact h.opener

theorem mark_self (h : Sound a c) (hm : c.world.members.get? id = some m) :
    mark id m.client.holds c.leases = c.leases :=
  mark_of_newest (h.newest?_of_member hm)

theorem holders_taken (h : Sound a c) (hm : c.world.members.get? id = some m)
    (free : m.client.holds = false) :
    holders m.manager (mark id true c.leases) = holders m.manager c.leases + 1 := by
  have hcount := holders_mark (h.newest?_of_member hm) m.manager true
  simpa [leaseOf, free] using hcount

theorem holders_given (h : Sound a c) (hm : c.world.members.get? id = some m)
    (holds : m.client.holds = true) :
    holders m.manager (mark id false c.leases) = holders m.manager c.leases - 1 := by
  have hcount := holders_mark (h.newest?_of_member hm) m.manager false
  simp only [leaseOf, holds, and_true, if_true, Bool.false_eq_true, and_false, if_false] at hcount
  omega

theorem start (h : Sound a c) (id : String) : Sound a (c.step a (.start id)) := by
  cases hm : c.world.members.get? id with
  | none =>
    rw [step_absent rfl (fun _ _ heq => by cases heq) hm (h.newest?_of_absent hm)]
    exact h
  | some m =>
    have hmanager : c.manager? (.start id) = some m.manager := by
      show (newest? id c.leases).map Lease.manager = some m.manager
      rw [h.newest?_of_member hm]
      rfl
    have hstep := World.step_start (b := b) hm
    have hstarted := m.client.started a (c.world.managers.ask m.manager) c.world.env
    have hb := h.balanced m.manager
    rw [World.renew] at hstep
    generalize m.client.start b (c.world.managers.ask m.manager) c.world.env = outcome
      at hstep hstarted
    -- only a taken reference changes the count, and only an opened connection the account
    cases hstarted with
    | refused unresolved reason =>
      apply h.renew_same hm hstep (h.mark_self hm).symm (h.resolved id m hm) rfl
      rw [h.mark_self hm]
      exact hb
    | @again r e' holds store =>
      have hmark : mark id true c.leases = c.leases := holds ▸ h.mark_self hm
      apply h.renew_same hm hstep (by simp only [holds]; rfl) (fun _ => rfl) (by rw [store])
      rw [holds, hmark]
      exact hb
    | @failed r x e' free closes =>
      apply h.renew_same hm hstep (h.mark_self hm).symm (fun _ => rfl) closes
      rw [h.mark_self hm]
      exact hb
    | @taken r handle m' e₁ e' free store acquired =>
      have hcount := h.holders_taken hm free
      cases acquired with
      | shared live =>
        apply h.renew_same hm hstep rfl (fun _ => rfl) (by rw [store])
        rw [hcount]
        exact hb.shared live
      | opened idle closes =>
        rw [store] at closes
        have hopen : (c.step a (.start id)).openings = _ :=
          openings_step_opened hmanager (by rw [hstep]; exact closes)
        apply h.renew hm hstep rfl (fun _ => rfl)
        · rw [hopen, hcount, closes, store]
          exact hb.opened idle
        · intro g k n hne hk
          rw [hopen, closes]
          exact hk.opened_elsewhere hne
        · rw [hopen]
          exact h.opener_opened m.manager

theorem stop (h : Sound a c) (id : String) : Sound a (c.step a (.stop id)) := by
  cases hm : c.world.members.get? id with
  | none =>
    rw [step_absent rfl (fun _ _ heq => by cases heq) hm (h.newest?_of_absent hm)]
    exact h
  | some m =>
    have hstep := World.step_stop (b := b) hm
    have hb := h.balanced m.manager
    rw [World.renew] at hstep
    cases holds : m.client.holds with
    | false =>
      rw [Client.stop_of_free holds] at hstep
      have hmark : mark id false c.leases = c.leases := holds ▸ h.mark_self hm
      apply h.renew_same hm hstep (by rw [holds]; rfl) (h.resolved id m hm) rfl
      rw [holds, hmark]
      exact hb
    | true =>
      have hcount := h.holders_given hm holds
      have hreleased := (c.world.managers.ask m.manager).released a c.world.env
      rw [Client.stop_of_holds holds] at hstep
      generalize (c.world.managers.ask m.manager).release b c.world.env = outcome
        at hstep hreleased
      cases hreleased with
      | idle idle =>
        -- a manager whose binding holds a reference is connected
        have hpos := holders_pos (h.newest?_of_member hm) holds
        have hzero := hb.zero_of_idle idle
        exact absurd hzero (Nat.ne_of_gt hpos)
      | kept live more store =>
        apply h.renew_same hm hstep rfl nofun (by rw [store])
        rw [hcount]
        exact hb.kept live more
      | @closed handle x e' live last quiet closes =>
        have hopen : (c.step a (.stop id)).openings = c.openings :=
          openings_step (by rw [hstep, closes, List.length_modify])
        apply h.renew hm hstep rfl nofun
        · rw [hopen, hcount, closes]
          exact hb.closed_last live last
        · intro g k n hne hk
          rw [hopen, closes]
          apply hk.closed_elsewhere
          intro hmem
          exact hne (h.opener handle g m.manager hmem (hb.live handle live).1)
        · rw [hopen]
          exact h.opener

theorem step (h : Sound a c) {s : Step} (hs : s.binding?.isSome) : Sound a (c.step a s) := by
  cases s with
  | create id manager properties => exact h.create id manager properties
  | start id => exact h.start id
  | stop id => exact h.stop id
  | read | insert | update | delete | scan => exact h.operation rfl
  | acquire | release | connection => cases hs

/-- The invariant holds after every step of every run. -/
theorem of_reachable (hc : Reachable a c) : Sound a c := by
  induction hc with
  | init env => exact init env
  | step hc s hs ih => exact ih.step hs
  | disturb hc env heq ih => exact ih.disturb heq

/-- The binding of a name that holds a reference, as the world knows it. -/
theorem member_of_held (h : Sound a c) (held : c.Held id) :
    ∃ m, c.world.members.get? id = some m ∧ m.client.holds = true := by
  obtain ⟨l, hl, hheld⟩ := held
  cases hm : c.world.members.get? id with
  | none =>
    rw [h.newest?_of_absent hm] at hl
    cases hl
  | some m =>
    rw [h.newest?_of_member hm] at hl
    cases hl
    exact ⟨m, rfl, hheld⟩

/-- A binding that holds a reference is ready for calls. -/
theorem ready_of_held (h : Sound a c) (held : c.Held id) :
    ∃ m r handle, c.world.members.get? id = some m ∧ m.client.resolved = some r ∧
      (c.world.managers.ask m.manager).live = some handle := by
  obtain ⟨m, hm, holds⟩ := h.member_of_held held
  obtain ⟨r, hr⟩ := Option.isSome_iff_exists.mp (h.resolved id m hm holds)
  have hpos := holders_pos (h.newest?_of_member hm) holds
  obtain ⟨handle, hlive⟩ := Option.isSome_iff_exists.mp ((h.balanced m.manager).connected.mpr hpos)
  exact ⟨m, r, handle, hm, hr, hlive⟩

theorem holds_of_not_held (h : Sound a c) (hm : c.world.members.get? id = some m)
    (free : ¬ c.Held id) : m.client.holds = false := by
  cases holds : m.client.holds with
  | false => rfl
  | true => exact absurd ⟨leaseOf id m, h.newest?_of_member hm, holds⟩ free

theorem manager?_of_member (h : Sound a c) (hm : c.world.members.get? id = some m) :
    (newest? id c.leases).map Lease.manager = some m.manager := by
  rw [h.newest?_of_member hm]
  rfl

/-- A step of one manager's binding spares all other managers. -/
theorem ask_step (h : Sound a c) {s : Step} (hs : s.binding?.isSome) {g : String}
    (hg : c.manager? s ≠ some g) :
    (c.step a s).world.managers.ask g = c.world.managers.ask g := by
  have hrenew : ∀ id m change, c.world.members.get? id = some m →
      (newest? id c.leases).map Lease.manager ≠ some g →
      (c.world.renew id m change).2.managers.ask g = c.world.managers.ask g := by
    intro id m change hm hne
    have hother : g ≠ m.manager := fun heq => hne (heq ▸ h.manager?_of_member hm)
    rw [World.renew]
    exact (Registry.ask_insert ..).trans (if_neg hother)
  cases s with
  | create id manager properties => exact Registry.ask_touch ..
  | start id =>
    show (c.world.step b (.start id)).2.managers.ask g = _
    cases hm : c.world.members.get? id with
    | none => rw [World.step_absent rfl (fun _ _ heq => by cases heq) hm]
    | some m =>
      rw [World.step_start hm]
      exact hrenew id m _ hm hg
  | stop id =>
    show (c.world.step b (.stop id)).2.managers.ask g = _
    cases hm : c.world.members.get? id with
    | none => rw [World.step_absent rfl (fun _ _ heq => by cases heq) hm]
    | some m =>
      rw [World.step_stop hm]
      exact hrenew id m _ hm hg
  | read | insert | update | delete | scan =>
    exact congrArg (fun r => Registry.ask r g) (managers_operation a c (by rfl))
  | acquire | release | connection => cases hs

theorem start_held (h : Sound a c) (held : c.Held id) :
    ∃ w, c.world.step b (.start id) = (.ok .done, w) ∧ w.env = c.world.env ∧
      ∀ g, w.managers.ask g = c.world.managers.ask g := by
  obtain ⟨m, hm, holds⟩ := h.member_of_held held
  obtain ⟨r, hr⟩ := Option.isSome_iff_exists.mp (h.resolved id m hm holds)
  rw [World.step_start hm, World.renew, Client.start_of_holds hr holds]
  refine ⟨_, rfl, rfl, fun g => ?_⟩
  rw [Registry.ask_insert]
  split
  · next heq => rw [heq]
  · rfl

theorem stop_free (h : Sound a c) (free : ¬ c.Held id) :
    (c.world.step b (.stop id)).2.env = c.world.env ∧
      ∀ g, (c.world.step b (.stop id)).2.managers.ask g = c.world.managers.ask g := by
  cases hm : c.world.members.get? id with
  | none =>
    rw [World.step_absent rfl (fun _ _ heq => by cases heq) hm]
    exact ⟨rfl, fun _ => rfl⟩
  | some m =>
    rw [World.step_stop hm, World.renew, Client.stop_of_free (h.holds_of_not_held hm free)]
    refine ⟨rfl, fun g => ?_⟩
    rw [Registry.ask_insert]
    split
    · next heq => rw [heq]
    · rfl

end Sound

/-- A start that fails has no part in the record and leaves the managers as they are. -/
theorem start_error (a : b.Account) (c : Chronicle σ) {id : String} {x : Halt}
    (hx : (c.world.step b (.start id)).1 = .error x) :
    (c.step a (.start id)).leases = c.leases ∧
      ∀ g, (c.step a (.start id)).world.managers.ask g = c.world.managers.ask g := by
  constructor
  · show record (.start id) (c.world.step b (.start id)).1 c.leases = c.leases
    rw [hx]
    rfl
  · intro g
    show (c.world.step b (.start id)).2.managers.ask g = _
    cases hm : c.world.members.get? id with
    | none => rw [World.step_absent rfl (fun _ _ heq => by cases heq) hm]
    | some m =>
      rw [World.step_start hm, World.renew] at hx ⊢
      have hstarted := m.client.started a (c.world.managers.ask m.manager) c.world.env
      generalize m.client.start b (c.world.managers.ask m.manager) c.world.env = outcome
        at hx hstarted ⊢
      have hsame : outcome.2.2.1 = c.world.managers.ask m.manager := by
        cases hstarted with
        | refused | failed => rfl
        | again | taken => cases hx
      refine (Registry.ask_insert ..).trans ?_
      split
      · next heq => rw [hsame, heq]
      · rfl

/-- After every step of every run, the count of each manager is the number of its bindings that
hold a reference, it is connected exactly when that number is positive, its live connection was
never closed, and every other connection that it opened was closed exactly once. A step spares
the managers of other bindings and their connections. Starting a binding that holds a reference
and stopping one that holds none have no effect on managers and store, and a start that fails
takes no reference. -/
theorem references_counted (a : b.Account) {c : Chronicle σ} (hc : Reachable a c) :
    (∀ g, Balanced (a.closes c.world.env.store) c.openings g (c.world.managers.ask g)
      (holders g c.leases)) ∧
    (∀ s, s.binding?.isSome → ∀ g, c.manager? s ≠ some g →
      (c.step a s).world.managers.ask g = c.world.managers.ask g ∧
      ∀ h, (h, g) ∈ c.openings →
        (a.closes (c.step a s).world.env.store)[h]? = (a.closes c.world.env.store)[h]?) ∧
    (∀ id, c.Held id → ∃ w, c.world.step b (.start id) = (.ok .done, w) ∧
      w.env = c.world.env ∧ ∀ g, w.managers.ask g = c.world.managers.ask g) ∧
    (∀ id, ¬ c.Held id → (c.world.step b (.stop id)).2.env = c.world.env ∧
      ∀ g, (c.world.step b (.stop id)).2.managers.ask g = c.world.managers.ask g) ∧
    (∀ id x, (c.world.step b (.start id)).1 = .error x →
      (c.step a (.start id)).leases = c.leases ∧
      ∀ g, (c.step a (.start id)).world.managers.ask g = c.world.managers.ask g) := by
  have hs : Sound a c := Sound.of_reachable hc
  refine ⟨hs.balanced, ?_, fun id => hs.start_held, fun id => hs.stop_free,
    fun id x => start_error a c⟩
  intro s hbinding g hg
  have hask := hs.ask_step hbinding hg
  refine ⟨hask, fun h hmem => ?_⟩
  have hnext := (hs.step hbinding).balanced g
  rw [hask] at hnext
  have hmem' : (h, g) ∈ (c.step a s).openings := mem_openings_step a s hmem
  by_cases hl : (c.world.managers.ask g).live = some h
  · rw [(hnext.live h hl).2, ((hs.balanced g).live h hl).2]
  · rw [hnext.closed h hmem' hl, (hs.balanced g).closed h hmem hl]

def setFaults (connect close : Option Halt) (c : Chronicle Memory) : Chronicle Memory :=
  c.disturb { c.world.env with
    store := { c.world.env.store with connectFault := connect, closeFault := close } }

theorem Reachable.setFaults {c : Chronicle Memory} (hc : Reachable Memory.account c)
    (connect close : Option Halt) : Reachable Memory.account (c.setFaults connect close) :=
  hc.disturb _ rfl

def rehearsal : Chronicle Memory :=
  ((((init { store := {} }).run Memory.account
      [.create "a" "m" ∅, .create "b" "m" ∅, .create "x" "n" ∅]).setFaults
      (some (.interrupt "")) none).run Memory.account [.start "a"]).setFaults
      none (some (.failure .notConnected)) |>.run Memory.account
      [.start "a", .start "b", .start "x", .start "a", .stop "a", .stop "a", .stop "b"]

theorem reachable_rehearsal : Reachable Memory.account rehearsal := by
  apply Reachable.run _ (by decide)
  apply Reachable.setFaults
  apply Reachable.run _ (by decide)
  apply Reachable.setFaults
  exact (Reachable.init _).run (by decide)

/-- A start that was interrupted and a close that failed leave both managers balanced: one with
nothing, and one with the connection of its only binding. -/
theorem references_counted_rehearsal :
    Reachable Memory.account rehearsal ∧ rehearsal.openings = [(1, "n"), (0, "m")] ∧
      Balanced [1, 0] [(1, "n"), (0, "m")] "m" {} 0 ∧
      Balanced [1, 0] [(1, "n"), (0, "m")] "n" { live := some 1, refs := 1 } 1 := by
  have h := (references_counted Memory.account reachable_rehearsal).1
  exact ⟨reachable_rehearsal, rfl, h "m", h "n"⟩

end Chronicle

end StoreBinding
