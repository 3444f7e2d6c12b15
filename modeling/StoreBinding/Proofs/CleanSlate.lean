import StoreBinding.Proofs.RecordLives

/-!
The smoke run over a store without faults. All its bindings can be started and stopped, and in
between each worker gives its records their lives, for no worker can tell what the others do. Main
statement: for every order of the starts and every schedule of the work, nothing is left of the
records of the run, whatever the store held, everything else is as it was, and the run succeeds
exactly if none of its records was there beforehand. There is one exception: if the fields are to
be longer than any text can be asked for, the run breaks off before the first write.
-/
namespace StoreBinding

structure Memory.Sound (d : Documents) (calls : List MemoryCall) (m : Memory) : Prop where
  received : Received d calls m
  connectFault : m.connectFault = none
  closeFault : m.closeFault = none

theorem Memory.Sound.withConnections {d : Documents} {calls : List MemoryCall} {m : Memory}
    (h : Sound d calls m) (cs : Array Connection) : Sound d calls { m with connections := cs } :=
  ⟨⟨h.received.serving.withConnections cs, h.received.calls⟩, h.connectFault, h.closeFault⟩

theorem Memory.Sound.connect {d : Documents} {calls : List MemoryCall} {e : Env Memory}
    (h : Sound d calls e.store) (r : ConnectionRequest) :
    ∃ handle e', backend.connect r e = (.ok handle, e') ∧ Sound d calls e'.store := by
  simp only [backend, Memory.connect]
  split
  · next hfault =>
    rw [h.connectFault] at hfault
    cases hfault
  · exact ⟨_, _, rfl, h.withConnections _⟩

structure Client.Fit (r : Resolved) (m : Manager) (c : Client) : Prop where
  properties : resolve c.properties = .ok r
  resolved : ∀ r', c.resolved = some r' → r' = r
  holds : c.holds = true → m.live.isSome

section Starts

variable {r : Resolved} {d : Documents} {calls : List MemoryCall}

theorem Client.Fit.prepare {c : Client} {m : Manager} (hc : c.Fit r m) {σ : Type} (e : Env σ) :
    ∃ e', c.prepare e = (.ok r, { c with resolved := some r }, e') ∧ e'.store = e.store := by
  unfold Client.prepare
  split
  · next r' hresolved =>
    obtain rfl := hc.resolved r' hresolved
    exact ⟨e, by rw [← hresolved], rfl⟩
  · rw [hc.properties]
    exact ⟨_, rfl, rfl⟩

theorem Manager.acquire_sound (p : Params) (m : Manager) {e : Env Memory}
    (he : Memory.Sound d calls e.store) :
    ∃ h m' e', m.acquire Memory.backend p.request e = (.ok h, m', e') ∧ m'.live.isSome ∧
      Memory.Sound d calls e'.store := by
  unfold acquire
  split
  · next h live => exact ⟨h, _, e, rfl, by rw [live]; rfl, he⟩
  · rw [ConnectionRequest.place_request]
    dsimp only
    obtain ⟨h, e', hconnect, he'⟩ := Memory.Sound.connect (e := e.note .info logger
      s!"Connecting to {p.host} (bucket {p.bucket})") he p.request
    rw [hconnect]
    exact ⟨h, _, _, rfl, rfl, he'⟩

/-- A binding that is fit can be started over a store without faults. -/
theorem Client.Fit.start {c : Client} {m : Manager} {e : Env Memory} (hc : c.Fit r m)
    (he : Memory.Sound d calls e.store) :
    ∃ c' m' e', c.start Memory.backend m e = (.ok (), c', m', e') ∧ c'.Fit r m' ∧
      c'.resolved = some r ∧ m'.live.isSome ∧ Memory.Sound d calls e'.store := by
  obtain ⟨e₁, hprepare, hstore⟩ := hc.prepare e
  have hsame : ∀ r', some r = some r' → r' = r := fun r' h => (Option.some.inj h).symm
  simp only [Client.start, hprepare]
  split
  · next holds =>
    exact ⟨_, m, e₁, rfl, ⟨hc.properties, hsame, hc.holds⟩, rfl, hc.holds holds, hstore ▸ he⟩
  · obtain ⟨h, m', e', hacquire, hlive, he'⟩ :=
      m.acquire_sound r.config.connection (hstore ▸ he : Memory.Sound d calls e₁.store)
    rw [hacquire]
    exact ⟨_, m', e', rfl, ⟨hc.properties, hsame, fun _ => hlive⟩, rfl, hlive, he'⟩

structure Crew.Fit (r : Resolved) (d : Documents) (calls : List MemoryCall) (count : Nat)
    (w : Crew Memory) : Prop where
  length : w.clients.length = count
  store : Memory.Sound d calls w.env.store
  clients : ∀ c ∈ w.clients, c.Fit r w.manager

/-- Starting a binding of the crew makes it ready, and leaves others ready. -/
theorem Crew.Fit.start {count : Nat} {w : Crew Memory} (hw : w.Fit r d calls count) {seat : Nat}
    (hseat : seat < count) :
    ((Crew.db Memory.backend seat).start w).1 = .ok () ∧
      ((Crew.db Memory.backend seat).start w).2.Fit r d calls count ∧
      ((Crew.db Memory.backend seat).start w).2.ReadyAt seat r.options ∧
      ∀ other o, w.ReadyAt other o → other ≠ seat →
        ((Crew.db Memory.backend seat).start w).2.ReadyAt other o := by
  have hlt : seat < w.clients.length := hw.length ▸ hseat
  have hat : w.clients[seat]? = some w.clients[seat] := List.getElem?_eq_getElem hlt
  obtain ⟨c', m', e', hstart, hc', hresolved, hlive, he'⟩ :=
    (hw.clients _ (List.getElem_mem hlt)).start hw.store
  obtain ⟨h, hlive⟩ := Option.isSome_iff_exists.mp hlive
  simp only [Crew.db, Crew.renew, hat, hstart]
  refine ⟨trivial, ⟨by rw [List.length_set, hw.length], he', fun c hc => ?_⟩,
    ⟨⟨c', r, List.getElem?_set_self hlt, hresolved, rfl⟩, h, hlive⟩, fun other o hready hne => ?_⟩
  · rcases List.mem_or_eq_of_mem_set hc with hold | rfl
    · have hfit := hw.clients c hold
      exact ⟨hfit.properties, hfit.resolved, fun _ => by rw [hlive]; rfl⟩
    · exact hc'
  · obtain ⟨c, r', hother, hrest⟩ := hready.client
    refine ⟨⟨c, r', ?_, hrest⟩, h, hlive⟩
    rw [← hother]
    exact List.getElem?_set_ne (Ne.symm hne)

end Starts

namespace Smoke

/-- All starts of a fit crew succeed, in any order, and afterwards the bindings are ready. -/
theorem startAll_fit {r : Resolved} {d : Documents} {calls : List MemoryCall} {settings : Settings}
    (starts : List Nat) {w : Crew Memory} (hw : w.Fit r d calls settings.threads) :
    ∃ w', startAll (starts.filterMap fun seat => (bindings Memory.backend settings)[seat]?) w =
        (.ok (), w') ∧ w'.Fit r d calls settings.threads ∧
      ∀ seat < settings.threads, seat ∈ starts ∨ w.ReadyAt seat r.options →
        w'.ReadyAt seat r.options := by
  induction starts generalizing w with
  | nil => exact ⟨w, rfl, hw, fun seat _ hready => hready.resolve_left List.not_mem_nil⟩
  | cons first rest ih =>
    by_cases hfirst : first < settings.threads
    · obtain ⟨hok, hfit, hready, hothers⟩ := hw.start hfirst
      obtain ⟨w', hrest, hw', hall⟩ := ih hfit
      rcases hs : (Crew.db Memory.backend first).start w with ⟨started, w₁⟩
      rw [hs] at hok hrest hready hothers hall
      dsimp only at hok hrest hready hothers hall
      subst hok
      refine ⟨w', ?_, hw', fun seat hseat h => ?_⟩
      · rw [List.filterMap_cons_some (bindings_get? Memory.backend settings hfirst)]
        simp only [startAll, start_withFields, hs, hrest]
      · refine hall seat hseat ?_
        by_cases heq : seat = first
        · exact Or.inr (heq ▸ hready)
        · rcases h with hmem | hbefore
          · exact Or.inl ((List.mem_cons.mp hmem).resolve_left heq)
          · exact Or.inr (hothers seat _ hbefore heq)
    · have hnone : (bindings Memory.backend settings)[first]? = none :=
        List.getElem?_eq_none (by rw [length_bindings]; exact Nat.not_lt.mp hfirst)
      rw [List.filterMap_cons_none hnone]
      obtain ⟨w', hrest, hw', hall⟩ := ih hw
      refine ⟨w', hrest, hw', fun seat hseat h => hall seat hseat (h.imp_left fun hmem => ?_)⟩
      refine (List.mem_cons.mp hmem).resolve_left ?_
      rintro rfl
      exact hfirst hseat

section Calls

variable (table : String) (choice : Choice)

def Task.made (worker : Int) (seat : Nat) (t : Task) (w : Crew Memory) : List MemoryCall :=
  match w.clients[seat]? with
  | none => []
  | some c => ((t.call table choice worker).issued? c w.manager).toList

theorem Task.table_call (worker : Int) (t : Task) : (t.call table choice worker).table = table := by
  obtain ⟨record, step, action, expected⟩ := t
  cases action <;> rfl

theorem Task.key_call (worker : Int) (t : Task) :
    (t.call table choice worker).key = Smoke.key worker t.record := by
  obtain ⟨record, step, action, expected⟩ := t
  cases action <;> rfl

variable {table choice}

theorem Task.id_made {worker : Int} {seat : Nat} {t : Task} {w : Crew Memory} {i : MemoryCall}
    (h : i ∈ t.made table choice worker seat w) :
    i.id = documentId table (Smoke.key worker t.record) := by
  unfold Task.made at h
  split at h
  · exact absurd h List.not_mem_nil
  · rw [(Call.issued_request (Option.mem_toList.mp h)).1, Task.table_call, Task.key_call]

theorem calls_perform (seat : Nat) (worker : Int) (t : Task) (w : Crew Memory) :
    (perform (Crew.db Memory.backend seat) table choice worker t w).2.env.store.calls.toList =
      w.env.store.calls.toList ++ t.made table choice worker seat w := by
  rw [perform_eq, Task.made]
  cases w.clients[seat]? with
  | none => exact (List.append_nil _).symm
  | some c =>
    dsimp only
    cases hissued : (t.call table choice worker).issued? c w.manager with
    | none => rw [Call.run_of_refused hissued, Option.toList_none, List.append_nil]
    | some i =>
      rw [(Call.handled_run hissued w.env.store).calls, Array.toList_push, Option.toList_some]

end Calls

end Smoke

structure Crew.Same (ids : String → Prop) (w w' : Crew Memory) : Prop where
  alike : Crew.Alike ids w w'
  calls : ∀ id, ids id →
    callsOn id w.env.store.calls.toList = callsOn id w'.env.store.calls.toList

theorem Crew.Same.refl (ids : String → Prop) (w : Crew Memory) : Crew.Same ids w w :=
  ⟨.refl ids w, fun _ _ => rfl⟩

namespace Smoke

theorem same_perform (seat : Nat) (table : String) (choice : Choice) (worker : Int) (t : Task) :
    Concerns Crew.Same (documentId table (key worker t.record))
      (perform (Crew.db Memory.backend seat) table choice worker t) := by
  have hconcerns := concerns_perform 0 seat table choice worker t
  rw [withFields_of_le (Nat.zero_le _)] at hconcerns
  constructor
  · intro ids w w' h hid
    obtain ⟨hanswer, halike⟩ := hconcerns.seen h.alike hid
    refine ⟨hanswer, halike, fun id hids => ?_⟩
    have hmade : t.made table choice worker seat w = t.made table choice worker seat w' := by
      unfold Task.made
      rw [h.alike.clients, h.alike.manager]
    rw [calls_perform, calls_perform, callsOn_append, callsOn_append, h.calls id hids, hmade]
  · intro ids w w' h hid
    refine ⟨hconcerns.unseen h.alike hid, fun id hids => ?_⟩
    have hnone : callsOn id (t.made table choice worker seat w) = [] := by
      refine List.filter_eq_nil_iff.mpr fun i hi => ?_
      rw [Task.id_made hi, decide_eq_true_eq]
      rintro rfl
      exact hid hids
    rw [calls_perform, callsOn_append, hnone, List.append_nil, h.calls id hids]

section Run

variable (settings : Settings) (choice : Choice)

/-- With fields that can be asked for, no worker can tell what the others do to the store. -/
theorem same_bindings (hlength : settings.fieldLength ≤ maxLetters) :
    Apart settings.table choice (bindings Memory.backend settings)
      fun seat => Crew.Same (Owns settings.table seat) where
  refl seat w := .refl _ w
  own hat hsame t := by
    rw [bindings_eq_some settings hat, withFields_of_le hlength]
    exact (same_perform _ _ choice _ t).seen hsame ⟨t.record, rfl⟩
  other hat hne hsame t := by
    rw [bindings_eq_some settings hat, withFields_of_le hlength]
    exact (same_perform _ _ choice _ t).unseen hsame (not_owns hne t.record)

def Planned (id : String) : Prop :=
  ∃ worker < settings.threads, ∃ n < settings.recordCount, id = idOf settings.table worker n

/-- What is left of a store after the lives of all records of a run: none of these records, all
other documents, and the calls of their lives, in which those of each record keep their order. -/
structure Cleared (o : WriteOptions) (before after : Memory) : Prop where
  gone : ∀ id, Planned settings id → after.documents.get? id = none
  kept : ∀ id, ¬ Planned settings id → after.documents.get? id = before.documents.get? id
  calls : ∃ made, after.calls.toList = before.calls.toList ++ made ∧
    (∀ worker < settings.threads, ∀ n < settings.recordCount,
      callsOn (idOf settings.table worker n) made = life settings.table choice worker o n) ∧
    ∀ id, ¬ Planned settings id → callsOn id made = []

variable {settings} {o : WriteOptions} {d : Documents} {w : Crew Memory}
  {schedule : List Nat}

variable {choice} in
/-- It is only about documents and calls. -/
theorem Cleared.congr {before before' after after' : Memory}
    (h : Cleared settings choice o before after) (hbefore : before'.documents = before.documents)
    (hcalls : before'.calls.toList = before.calls.toList)
    (hafter : after'.documents = after.documents) (hmade : after'.calls = after.calls) :
    Cleared settings choice o before' after' := by
  refine ⟨?_, ?_, ?_⟩
  · rw [hafter]
    exact h.gone
  · rw [hafter, hbefore]
    exact h.kept
  · rw [hmade, hcalls]
    exact h.calls

/-- The work leaves alone what is no worker's own. -/
theorem same_outcomes (hlength : settings.fieldLength ≤ maxLetters) (ids : String → Prop)
    (hids : ∀ id, ids id → ∀ seat < settings.threads, ¬ Owns settings.table seat id)
    (schedule : List Nat) (w : Crew Memory) :
    Crew.Same ids (outcomes settings.table settings.recordCount choice schedule
      (bindings Memory.backend settings) w).2 w := by
  refine outcomes_preserves (P := fun w' => Crew.Same ids w' w) (fun seat db hat t w' hsame => ?_)
    settings.recordCount schedule (.refl ids w)
  have hseat : seat < settings.threads := by
    rw [← length_bindings Memory.backend settings]
    exact (List.getElem?_eq_some_iff.mp hat).1
  rw [bindings_eq_some settings hat, withFields_of_le hlength]
  exact (same_perform _ _ choice _ t).unseen hsame fun hid => hids _ hid seat hseat ⟨t.record, rfl⟩

/-- The work adds its calls to those that the store got before. -/
theorem calls_outcomes (hlength : settings.fieldLength ≤ maxLetters) (schedule : List Nat)
    (w : Crew Memory) :
    ∃ made, (outcomes settings.table settings.recordCount choice schedule
        (bindings Memory.backend settings) w).2.env.store.calls.toList =
      w.env.store.calls.toList ++ made := by
  refine outcomes_preserves
    (P := fun w' : Crew Memory =>
      ∃ made, w'.env.store.calls.toList = w.env.store.calls.toList ++ made)
    (fun seat db hat t w' ⟨made, hmade⟩ => ?_) settings.recordCount schedule
    ⟨[], (List.append_nil _).symm⟩
  rw [bindings_eq_some settings hat, withFields_of_le hlength, calls_perform, hmade,
    List.append_assoc]
  exact ⟨_, rfl⟩

/-- Each worker comes to what it comes to alone, whose records get their lives. -/
theorem outcomes_received (hlength : settings.fieldLength ≤ maxLetters)
    (hready : ∀ seat < settings.threads, w.ReadyAt seat o) (hserving : Memory.Serving d w.env.store)
    (hschedule : ∀ seat < settings.threads,
      (plan settings.recordCount).length ≤ schedule.count seat) {seat : Nat}
    (hseat : seat < settings.threads) :
    ∃ t m, (outcomes settings.table settings.recordCount choice schedule
          (bindings Memory.backend settings) w).1[seat]? = some (.ok t) ∧
      Crew.Same (Owns settings.table seat)
        (outcomes settings.table settings.recordCount choice schedule
          (bindings Memory.backend settings) w).2
        { w with env := { w.env with store := m } } ∧
      Memory.Received (course settings.table choice seat (plan settings.recordCount) d).2
        (w.env.store.calls.toList ++
          (plan settings.recordCount).map (Task.request settings.table choice seat o)) m ∧
      (succeeded t = true ↔
        ∀ n < settings.recordCount, d.get? (idOf settings.table seat n) = none) := by
  have hturns : ∀ seat < (bindings Memory.backend settings).length,
      (plan settings.recordCount).length ≤ schedule.count seat := by rwa [length_bindings]
  obtain ⟨-, halone⟩ := (same_bindings settings choice hlength).outcomes_alone hturns w
  obtain ⟨hresult, hsame⟩ := halone seat _ (bindings_get? Memory.backend settings hseat)
  obtain ⟨t, m, hrun, hm, hsucceeded⟩ := runWorker_received settings.table choice seat
    (hready seat hseat) ⟨hserving, rfl⟩ settings.recordCount
  rw [withFields_of_le hlength, hrun] at hresult hsame
  exact ⟨t, m, hresult, hsame, hm, hsucceeded⟩

/-- The work succeeds, as a whole, exactly if none of the records is there beforehand. -/
theorem gather_outcomes (hlength : settings.fieldLength ≤ maxLetters)
    (hready : ∀ seat < settings.threads, w.ReadyAt seat o) (hserving : Memory.Serving d w.env.store)
    (hschedule : ∀ seat < settings.threads,
      (plan settings.recordCount).length ≤ schedule.count seat) :
    ∃ t, gather ∅ (outcomes settings.table settings.recordCount choice schedule
        (bindings Memory.backend settings) w).1 = .ok t ∧
      (succeeded t = true ↔ ∀ id, Planned settings id → d.get? id = none) := by
  have hseats := fun seat (hseat : seat < settings.threads) =>
    outcomes_received choice hlength hready hserving hschedule hseat
  have hcount := length_outcomes settings.table choice settings.recordCount schedule
    (bindings Memory.backend settings) w
  rw [length_bindings] at hcount
  generalize outcomes settings.table settings.recordCount choice schedule
    (bindings Memory.backend settings) w = p at hseats hcount ⊢
  rcases gather_cases ∅ p.1 with ⟨h, -, hmem⟩ | ⟨t, hgather, -, ht⟩
  · obtain ⟨seat, hat⟩ := List.mem_iff_getElem?.mp hmem
    obtain ⟨t, m, hresult, -⟩ := hseats seat (hcount ▸ (List.getElem?_eq_some_iff.mp hat).1)
    rw [hat] at hresult
    cases hresult
  · refine ⟨t, hgather, ht.trans ?_⟩
    constructor
    · rintro ⟨-, hall⟩ id ⟨worker, hworker, n, hn, rfl⟩
      obtain ⟨tally, m, hresult, -, -, hsucceeded⟩ := hseats worker hworker
      exact hsucceeded.mp (hall tally (List.mem_iff_getElem?.mpr ⟨worker, hresult⟩)) n hn
    · refine fun hnone => ⟨rfl, fun tally hmem => ?_⟩
      obtain ⟨seat, hat⟩ := List.mem_iff_getElem?.mp hmem
      have hseat : seat < settings.threads := hcount ▸ (List.getElem?_eq_some_iff.mp hat).1
      obtain ⟨tally', m, hresult, -, -, hsucceeded⟩ := hseats seat hseat
      rw [hat] at hresult
      cases hresult
      exact hsucceeded.mpr fun n hn => hnone _ ⟨seat, hseat, n, hn, rfl⟩

/-- The work of ready bindings clears the store. -/
theorem cleared_outcomes (hlength : settings.fieldLength ≤ maxLetters)
    (hready : ∀ seat < settings.threads, w.ReadyAt seat o) (hserving : Memory.Serving d w.env.store)
    (hschedule : ∀ seat < settings.threads,
      (plan settings.recordCount).length ≤ schedule.count seat) :
    Cleared settings choice o w.env.store
      (outcomes settings.table settings.recordCount choice schedule
        (bindings Memory.backend settings) w).2.env.store := by
  have hseats := fun seat (hseat : seat < settings.threads) =>
    outcomes_received choice hlength hready hserving hschedule hseat
  have hothers := fun id (hid : ∀ seat < settings.threads, ¬ Owns settings.table seat id) =>
    same_outcomes choice hlength (· = id) (fun _ heq => heq ▸ hid) schedule w
  obtain ⟨made, hmade⟩ := calls_outcomes choice hlength schedule w
  generalize outcomes settings.table settings.recordCount choice schedule
    (bindings Memory.backend settings) w = p at hseats hothers hmade ⊢
  have hdocuments : ∀ seat < settings.threads, ∀ id, Owns settings.table seat id →
      p.2.env.store.documents.get? id =
        if ∃ n < settings.recordCount, id = idOf settings.table seat n then none
        else w.env.store.documents.get? id := by
    intro seat hseat id hid
    obtain ⟨t, m, -, hsame, hm, -⟩ := hseats seat hseat
    rw [hsame.alike.env.store.documents id hid, hserving.documents,
      ← (course_plan settings.table choice seat settings.recordCount d).2, ← hm.serving.documents]
  have hcalls : ∀ seat < settings.threads, ∀ id, Owns settings.table seat id →
      callsOn id made = callsOn id
        ((plan settings.recordCount).map (Task.request settings.table choice seat o)) := by
    intro seat hseat id hid
    obtain ⟨t, m, -, hsame, hm, -⟩ := hseats seat hseat
    have hsplit := hsame.calls id hid
    dsimp only at hsplit
    rw [hmade, hm.calls, callsOn_append, callsOn_append] at hsplit
    exact List.append_cancel_left hsplit
  refine ⟨?_, ?_, made, hmade, ?_, ?_⟩
  · rintro id ⟨worker, hworker, n, hn, rfl⟩
    rw [hdocuments worker hworker (idOf settings.table worker n) ⟨n, rfl⟩, if_pos ⟨n, hn, rfl⟩]
  · intro id hid
    by_cases howned : ∃ seat < settings.threads, Owns settings.table seat id
    · obtain ⟨seat, hseat, howns⟩ := howned
      rw [hdocuments seat hseat id howns, if_neg fun hplanned => hid ⟨seat, hseat, hplanned⟩]
    · have hsame := hothers id fun seat hseat howns => howned ⟨seat, hseat, howns⟩
      exact hsame.alike.env.store.documents id rfl
  · intro worker hworker n hn
    rw [hcalls worker hworker (idOf settings.table worker n) ⟨n, rfl⟩]
    exact (callsOn_plan settings.table choice worker o settings.recordCount _).1 n hn rfl
  · intro id hid
    by_cases howned : ∃ seat < settings.threads, Owns settings.table seat id
    · obtain ⟨seat, hseat, howns⟩ := howned
      rw [hcalls seat hseat id howns]
      exact (callsOn_plan settings.table choice seat o settings.recordCount id).2
        fun n hn heq => hid ⟨seat, hseat, n, hn, heq⟩
    · have hsplit := (hothers id fun seat hseat howns => howned ⟨seat, hseat, howns⟩).calls id rfl
      rw [hmade, callsOn_append] at hsplit
      exact List.append_right_eq_self.mp hsplit

/-- A crew that has just been recruited is fit for the configuration of its properties. -/
theorem fit_recruit {r : Resolved} (hresolve : Client.resolve settings.properties = .ok r)
    (hw : Memory.Sound d w.env.store.calls.toList w.env.store) :
    (w.recruit settings.threads settings.properties).Fit r d w.env.store.calls.toList
      settings.threads := by
  refine ⟨List.length_replicate, hw, fun c hc => ?_⟩
  obtain rfl := List.eq_of_mem_replicate hc
  refine ⟨hresolve, fun r' hr' => ?_, fun hholds => ?_⟩
  · cases hr'
  · cases hholds

/-- The bindings of a run can be stopped, and that leaves documents and calls alone. -/
theorem stopAll_sound (settings : Settings) (hclose : w.env.store.closeFault = none) :
    ∃ w', stopAll (bindings Memory.backend settings) w = (.ok (), w') ∧
      w'.env.store.closeFault = none ∧ w'.env.store.documents = w.env.store.documents ∧
      w'.env.store.calls = w.env.store.calls := by
  have hsound : ∀ h (e : Env Memory), e.store.closeFault = none →
      Memory.backend.close h e =
        (.ok (), { e with store := { e.store with
          connections := closeAt e.store.connections h } }) := by
    intro h e hquiet
    simp only [Memory.backend, Memory.close]
    split
    · next hfault =>
      rw [hquiet] at hfault
      cases hfault
    · rfl
  refine stopAll_bindings (P := fun m : Memory => m.closeFault = none ∧
    m.documents = w.env.store.documents ∧ m.calls = w.env.store.calls) ?_ ?_ settings
    ⟨hclose, rfl, rfl⟩
  · intro h e he t
    rw [hsound h e he.1]
    nofun
  · intro h e he
    rw [hsound h e he.1]
    exact he

structure Fair (settings : Settings) (starts schedule : List Nat) : Prop where
  starts : ∀ seat < settings.threads, seat ∈ starts
  turns : ∀ seat < settings.threads, (plan settings.recordCount).length ≤ schedule.count seat

theorem fair_orderly (settings : Settings) :
    Fair settings (List.range settings.threads) (orderly settings) :=
  ⟨fun _ hseat => List.mem_range.mpr hseat, fun _ hseat => le_count_orderly hseat⟩

structure LeavesClean (settings : Settings) (choice : Choice) (o : WriteOptions) (before : Memory)
    (p : Except Halt Bool × Crew Memory) : Prop where
  answer : ∃ ok, p.1 = .ok ok ∧
    (ok = true ↔ ∀ id, Planned settings id → before.documents.get? id = none)
  cleared : Cleared settings choice o before p.2.env.store

structure BreaksOff (before : Memory) (p : Except Halt Bool × Crew Memory) : Prop where
  answer : p.1 = .error (.failure .fieldTooLong)
  documents : p.2.env.store.documents = before.documents
  calls : p.2.env.store.calls = before.calls

structure Ends (settings : Settings) (choice : Choice) (o : WriteOptions) (before : Memory)
    (p : Except Halt Bool × Crew Memory) : Prop where
  clean : settings.fieldLength ≤ maxLetters → LeavesClean settings choice o before p
  brokenOff : maxLetters < settings.fieldLength → 0 < settings.threads →
    0 < settings.recordCount → BreaksOff before p

section

variable {r : Resolved} {starts : List Nat}

theorem leavesClean_runCrewFrom (logger : String) (choice : Choice)
    (hlength : settings.fieldLength ≤ maxLetters)
    (hresolve : Client.resolve settings.properties = .ok r)
    (hw : Memory.Sound w.env.store.documents w.env.store.calls.toList w.env.store)
    (hfair : Fair settings starts schedule) :
    LeavesClean settings choice r.options w.env.store
      (runCrewFrom starts schedule Memory.backend logger settings choice w) := by
  obtain ⟨w₁, hstarted, hfit, hready⟩ := startAll_fit starts (fit_recruit hresolve hw)
  have hready₁ := fun seat hseat => hready seat hseat (Or.inl (hfair.starts seat hseat))
  have hserving := hfit.store.received.serving
  obtain ⟨t, hgather, hanswer⟩ := gather_outcomes choice hlength hready₁ hserving
    hfair.turns
  have hcleared := cleared_outcomes choice hlength hready₁ hserving hfair.turns
  have hclose := (same_outcomes choice hlength (fun _ => False)
    (fun _ => False.elim) schedule w₁).alike.env.store.closeFault.trans hfit.store.closeFault
  rw [runCrewFrom, begin, hstarted]
  dsimp only [interleave]
  rw [hgather]
  generalize (outcomes settings.table settings.recordCount choice schedule
    (bindings Memory.backend settings) w₁).2 = w₂ at hcleared hclose ⊢
  obtain ⟨w₃, hstopped, -, hdocuments, hcalls⟩ := stopAll_sound settings hclose
  rw [finish, hstopped]
  exact ⟨⟨_, rfl, hanswer⟩, hcleared.congr hserving.documents.symm hfit.store.received.calls.symm
    hdocuments hcalls⟩

/-- With fields that nobody can ask for, the run breaks off and has not called on any document. -/
theorem breaksOff_runCrewFrom (logger : String) (choice : Choice)
    (hlength : maxLetters < settings.fieldLength) (hthreads : 0 < settings.threads)
    (hrecords : 0 < settings.recordCount)
    (hresolve : Client.resolve settings.properties = .ok r)
    (hw : Memory.Sound w.env.store.documents w.env.store.calls.toList w.env.store)
    (hfair : Fair settings starts schedule) :
    BreaksOff w.env.store
      (runCrewFrom starts schedule Memory.backend logger settings choice w) := by
  obtain ⟨w₁, hstarted, hfit, -⟩ := startAll_fit starts (fit_recruit hresolve hw)
  obtain ⟨w₂, hstopped, -, hdocuments, hcalls⟩ := stopAll_sound settings hfit.store.closeFault
  rw [runCrewFrom, begin, hstarted]
  dsimp only [interleave]
  rw [outcomes_of_lt choice hlength hrecords hfair.turns, gather_replicate ∅ hthreads, finish,
    hstopped]
  exact ⟨rfl, hdocuments.trans hfit.store.received.serving.documents,
    hcalls.trans (Array.toList_inj.mp hfit.store.received.calls)⟩

/-- A run over a store without faults, for a configuration that is accepted with its timeout. If
its fields can be asked for, it leaves nothing of its records and everything else as it was, gives
each record its six calls in order, and succeeds exactly if none of them was there beforehand;
whatever the order of the starts and the schedule of the work. If nobody can ask for its fields, it
breaks off without an answer and without a call. -/
theorem leaves_clean (logger : String) (settings : Settings) (choice : Choice) {w : Crew Memory}
    (hresolve : Client.resolve settings.properties = .ok r)
    (hserving : Memory.Serving w.env.store.documents w.env.store)
    (hconnect : w.env.store.connectFault = none) (hclose : w.env.store.closeFault = none) :
    Ends settings choice r.options w.env.store
      (runCrew Memory.backend logger settings choice w) ∧
    ∀ starts schedule, Fair settings starts schedule →
      Ends settings choice r.options w.env.store
        (runCrewFrom starts schedule Memory.backend logger settings choice w) := by
  have hw : Memory.Sound w.env.store.documents w.env.store.calls.toList w.env.store :=
    ⟨⟨hserving, rfl⟩, hconnect, hclose⟩
  have hends : ∀ starts schedule, Fair settings starts schedule →
      Ends settings choice r.options w.env.store
        (runCrewFrom starts schedule Memory.backend logger settings choice w) :=
    fun starts schedule hfair =>
      ⟨fun hlength => leavesClean_runCrewFrom logger choice hlength hresolve hw hfair,
        fun hlength hthreads hrecords =>
          breaksOff_runCrewFrom logger choice hlength hthreads hrecords hresolve hw hfair⟩
  refine ⟨?_, hends⟩
  rw [runCrew_eq_runCrewFrom]
  exact hends _ _ (fair_orderly settings)

end

end Run

def haunted : Memory where
  documents :=
    .ofList [("a:b:user1-0", .ofList [("field0", .text "old")]), ("a:b:user1", .ofList [])]

/-- The second binding is started first, and the workers take turns; the stale record is gone in
the end, and is the reason for the answer. -/
theorem leaves_clean_haunted :
    ∃ r, Client.resolve duet.properties = .ok r ∧ Memory.Serving haunted.documents haunted ∧
      haunted.connectFault = none ∧ haunted.closeFault = none ∧
      Fair duet [1, 0] [1, 0, 0, 1, 1, 0, 0, 0, 1, 1, 1, 0] ∧
      LeavesClean duet (fun _ _ step => fields 1 fun _ => toString step) r.options haunted
        (runCrewFrom [1, 0] [1, 0, 0, 1, 1, 0, 0, 0, 1, 1, 1, 0] Memory.backend "smoke" duet
          (fun _ _ step => fields 1 fun _ => toString step) { env := { store := haunted } }) := by
  have hserving : Memory.Serving haunted.documents haunted := ⟨rfl, rfl, fun _ _ _ => rfl⟩
  have hfair : Fair duet [1, 0] [1, 0, 0, 1, 1, 0, 0, 0, 1, 1, 1, 0] := ⟨by decide, by decide⟩
  refine ⟨_, rfl, hserving, rfl, rfl, hfair, ?_⟩
  exact ((leaves_clean "smoke" duet (fun _ _ step => fields 1 fun _ => toString step)
    (w := { env := { store := haunted } }) rfl hserving rfl rfl).2 _ _ hfair).clean (by decide)

def oversized : Settings where
  binding _ := none
  table := "usertable"
  recordCount := 2
  fieldCount := 1
  fieldLength := 0x8000000000000000
  threads := 1
  logLevel := "INFO"
  logFormat := .text

/-- A field that nobody can ask for breaks a run off. -/
theorem not_leavesClean_oversized :
    ¬ ∀ (settings : Settings) (choice : Choice) (r : Resolved) (m : Memory),
      Client.resolve settings.properties = .ok r → Memory.Serving m.documents m →
      m.connectFault = none → m.closeFault = none →
        LeavesClean settings choice r.options m
          (runCrew Memory.backend "smoke" settings choice { env := { store := m } }) := by
  intro hclean
  obtain ⟨ok, hok, -⟩ :=
    (hclean oversized (fun _ _ _ => ∅) _ {} rfl .empty rfl rfl).answer
  have hfails : (runCrew Memory.backend "smoke" oversized (fun _ _ _ => ∅)
      { env := { store := {} } }).1 = .error (.failure .fieldTooLong) := by decide +kernel
  rw [hfails] at hok
  cases hok

end Smoke

end StoreBinding
