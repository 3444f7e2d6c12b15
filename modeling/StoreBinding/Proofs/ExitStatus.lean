import StoreBinding.Command
import StoreBinding.Proofs.Deeds
import StoreBinding.Proofs.FatalStart
import StoreBinding.Proofs.Interrupts

/-!
The exit status of the smoke command, over any store that may fail in any way, as long as only its
calls on documents can be interrupted. Main statement: the command ends with 0, 130 or 1, and this
tells whether everything was started and came out as expected, a call on the store was interrupted,
or neither; and 1 is accounted for by the last entry of the log. There is one exception: if the
fields are to be longer than any text can be asked for, a failure leaves the command once all
bindings are started.
-/
namespace StoreBinding

variable {σ : Type} {b : Backend σ}

def Settings.Punctual (s : Settings) : Prop :=
  ∀ c, Config.resolve s.properties = .ok c → c.kvTimeoutMillis < Duration.overlongMillis

namespace Smoke

def Deed.Interrupted (b : Backend σ) (table : String) (choice : Choice) (d : Deed (Crew σ)) :
    Prop :=
  ∃ c handle i t, d.found.clients[d.seat]? = some c ∧ d.found.manager.live = some handle ∧
    (d.task.call table choice d.seat).issued? c d.found.manager = some i ∧
    i.ending b handle d.found.env.store = .error (.interrupt t)

/-- An operation comes to a status unless the call on the store was interrupted. -/
theorem answer_cases {table : String} {choice : Choice} {d : Deed (Crew σ)}
    (h : d.answer = (perform (Crew.db b d.seat) table choice d.seat d.task d.found).1) :
    (d.Interrupted b table choice ∧ ∃ t, d.answer = .error (.interrupt t)) ∨
      ¬ d.Interrupted b table choice ∧ ∃ status, d.answer = .ok status := by
  rw [h, perform_eq]
  cases hat : d.found.clients[d.seat]? with
  | none =>
    refine Or.inr ⟨?_, _, rfl⟩
    rintro ⟨c, handle, i, t, hc, -⟩
    rw [hat] at hc
    cases hc
  | some c =>
    dsimp only
    cases hissued : (d.task.call table choice d.seat).issued? c d.found.manager with
    | none =>
      rw [Call.run_of_refused hissued]
      refine Or.inr ⟨?_, _, rfl⟩
      rintro ⟨c', handle, i, t, hc', -, hissued', -⟩
      rw [hat] at hc'
      cases hc'
      rw [hissued] at hissued'
      cases hissued'
    | some i =>
      have hsome := (Call.isSome_issued?_iff (d.task.call table choice d.seat) c
        d.found.manager).mp (by rw [hissued]; rfl)
      obtain ⟨handle, hlive⟩ := Option.isSome_iff_exists.mp hsome.1
      rcases Call.run_of_ending hlive _ hissued d.found.env.store with
        ⟨t, hending, hrun⟩ | ⟨hending, reply, hrun⟩
      · rw [hrun]
        exact Or.inl ⟨⟨c, handle, i, t, hat, hlive, hissued, hending⟩, t, rfl⟩
      · rw [hrun]
        refine Or.inr ⟨?_, _, rfl⟩
        rintro ⟨c', handle', i', t, hc', hlive', hissued', hending'⟩
        rw [hat] at hc'
        cases hc'
        rw [hlive] at hlive'
        cases hlive'
        rw [hissued] at hissued'
        cases hissued'
        exact hending t hending'

section Run

variable {Q : σ → Prop} {settings : Settings} {w : Crew σ}

structure OnDuty (Q : σ → Prop) (settings : Settings) (w : Crew σ) : Prop where
  store : Q w.env.store
  clients : ∀ c ∈ w.clients, c.properties = settings.properties

theorem OnDuty.recruit (hw : Q w.env.store) (settings : Settings) :
    OnDuty Q settings (w.recruit settings.threads settings.properties) := by
  refine ⟨hw, fun c hc => ?_⟩
  rw [List.eq_of_mem_replicate hc]

/-- A start succeeds or fails with a fatal failure. -/
theorem OnDuty.start (hb : b.Uninterrupted Q) (hpunctual : settings.Punctual)
    (hw : OnDuty Q settings w) (seat : Nat) :
    Orderly ((Crew.db b seat).start w).1 ∧ OnDuty Q settings ((Crew.db b seat).start w).2 := by
  simp only [Crew.db, Crew.renew]
  cases hat : w.clients[seat]? with
  | none => exact ⟨.ok (), hw⟩
  | some c =>
    have hproperties := hw.clients c (List.mem_of_getElem? hat)
    have hshort : ¬ c.Overlong := by
      rintro ⟨-, config, hconfig, hlong⟩
      rw [hproperties] at hconfig
      exact absurd (hpunctual config hconfig) (Int.not_lt.mpr hlong)
    have horderly := Client.orderly_start (b := b) hshort w.manager (e := w.env)
      fun r e' hstore => (hb.connect r e' (hstore ▸ hw.store)).2
    refine ⟨horderly, c.start_preserves (fun r e he => (hb.connect r e he).1) w.manager hw.store,
      fun c' hc' => ?_⟩
    rcases List.mem_or_eq_of_mem_set hc' with hold | rfl
    · exact hw.clients c' hold
    · exact (c.start_client w.manager w.env).1.trans hproperties

theorem OnDuty.startAll (hb : b.Uninterrupted Q) (hpunctual : settings.Punctual)
    (hw : OnDuty Q settings w) {dbs : List (Db (Crew σ))}
    (hdbs : ∀ db ∈ dbs, db ∈ bindings b settings) :
    (∀ x ∈ starting dbs w, Orderly x) ∧ OnDuty Q settings (startAll dbs w).2 := by
  have hstart : ∀ db ∈ dbs, ∀ w, OnDuty Q settings w →
      Orderly (db.start w).1 ∧ OnDuty Q settings (db.start w).2 := by
    intro db hdb w hw
    obtain ⟨seat, -, rfl⟩ := List.mem_map.mp (hdbs db hdb)
    rw [start_withFields]
    exact hw.start hb hpunctual seat
  refine ⟨?_, startAll_preserves (fun db hdb w hw => (hstart db hdb w hw).2) hw⟩
  clear hdbs
  induction dbs generalizing w with
  | nil => exact fun x hx => absurd hx List.not_mem_nil
  | cons db rest ih =>
    intro x hx
    rcases List.mem_cons.mp hx with rfl | hlater
    · exact (hstart db List.mem_cons_self w hw).1
    · exact ih (hstart db List.mem_cons_self w hw).2
        (fun db' hdb' => hstart db' (List.mem_cons_of_mem db hdb')) x hlater

/-- Operations of the workers keep the store to its rule. -/
theorem preserves_perform (hb : b.Preserves Q) (length seat : Nat) (table : String)
    (choice : Choice) (worker : Int) (t : Task) (hw : Q w.env.store) :
    Q (perform (withFields length (Crew.db b seat)) table choice worker t w).2.env.store := by
  rcases perform_withFields length (Crew.db b seat) table choice worker t w with hsame | hfails
  · rw [hsame, perform_eq]
    split
    · exact hw
    · next c _ =>
      exact Call.run_preserves hb (t.call table choice worker) c w.manager hw
  · rw [hfails]
    exact hw

/-- So does all their work. -/
theorem preserves_interleave (hb : b.Preserves Q) (settings : Settings) (choice : Choice)
    (schedule : List Nat) (hw : Q w.env.store) :
    Q (interleave settings.table settings.recordCount choice schedule (bindings b settings)
      w).2.env.store := by
  refine outcomes_preserves (P := fun w : Crew σ => Q w.env.store)
    (fun seat db hat t w hw => ?_) settings.recordCount schedule hw
  obtain ⟨seat', -, rfl⟩ := List.mem_map.mp (List.mem_of_getElem? hat)
  exact preserves_perform hb settings.fieldLength seat' settings.table choice seat t hw

structure History (σ : Type) where
  starts : List (Except Halt Unit)
  deeds : List (Deed (Crew σ))

def history (starts schedule : List Nat) (b : Backend σ) (settings : Settings) (choice : Choice)
    (w : Crew σ) : History σ :=
  let dbs := bindings b settings
  let starters := starts.filterMap fun seat => dbs[seat]?
  let crew := w.recruit settings.threads settings.properties
  { starts := starting starters crew
    deeds :=
      match startAll starters crew with
      | (.error _, _) => []
      | (.ok (), crew) =>
        deeds settings.table choice schedule (muster settings.recordCount dbs, crew) }

namespace History

def Started (settings : Settings) (starts : List Nat) (x : History σ) : Prop :=
  (∀ seat < settings.threads, seat ∈ starts) ∧ ∀ answer ∈ x.starts, answer = .ok ()

def AsExpected (settings : Settings) (x : History σ) : Prop :=
  ∀ worker < settings.threads,
    doneBy worker x.deeds = (plan settings.recordCount).map fun t => (t, .ok t.expected)

def Interrupted (b : Backend σ) (settings : Settings) (choice : Choice) (x : History σ) : Prop :=
  ∃ d ∈ x.deeds, d.Interrupted b settings.table choice

end History

inductive Ended (b : Backend σ) (settings : Settings) (choice : Choice) (starts : List Nat)
    (x : History σ) : Except Halt Bool → Prop
  | unstarted {f : Failure} (fatal : f.isFatal = true) (not : ¬ x.Started settings starts) :
      Ended b settings choice starts x (.error (.failure f))
  | interrupted {t : String} (started : x.Started settings starts)
      (short : settings.fieldLength ≤ maxLetters) (call : x.Interrupted b settings choice)
      (not : ¬ x.AsExpected settings) : Ended b settings choice starts x (.error (.interrupt t))
  | finished {ok : Bool} (started : x.Started settings starts)
      (short : settings.fieldLength ≤ maxLetters) (not : ¬ x.Interrupted b settings choice)
      (answer : ok = true ↔ x.AsExpected settings) : Ended b settings choice starts x (.ok ok)
  | tooLong (started : x.Started settings starts) (long : maxLetters < settings.fieldLength) :
      Ended b settings choice starts x (.error (.failure .fieldTooLong))

variable {choice : Choice} {starts schedule : List Nat}

/-- With fields that can be asked for, each operation is one of a worker of the run, and comes to a
status unless its call on the store was interrupted. -/
theorem cases_of_mem_deeds (hlength : settings.fieldLength ≤ maxLetters) {d : Deed (Crew σ)}
    (hd : d ∈ deeds settings.table choice schedule
      (muster settings.recordCount (bindings b settings), w)) :
    d.seat < settings.threads ∧
      ((d.Interrupted b settings.table choice ∧ ∃ t, d.answer = .error (.interrupt t)) ∨
        ¬ d.Interrupted b settings.table choice ∧ ∃ status, d.answer = .ok status) := by
  obtain ⟨v, hv, hanswer⟩ := answer_of_mem_deeds hd
  dsimp only at hv
  rw [muster, List.getElem?_map] at hv
  obtain ⟨db, hdb, rfl⟩ := Option.map_eq_some_iff.mp hv
  have hseat : d.seat < settings.threads := by
    rw [← length_bindings b settings]
    exact (List.getElem?_eq_some_iff.mp hdb).1
  rw [bindings_get? b settings hseat] at hdb
  cases hdb
  rw [withFields_of_le hlength] at hanswer
  exact ⟨hseat, answer_cases hanswer⟩

namespace History

variable {x : History σ}

/-- An operation that failed did not come out as expected. -/
theorem AsExpected.no_failure (h : x.AsExpected settings) {seat : Nat}
    (hseat : seat < settings.threads) {t : Task} {halt : Halt} :
    (t, .error halt) ∉ doneBy seat x.deeds := by
  intro hdone
  rw [h seat hseat] at hdone
  obtain ⟨t, -, heq⟩ := List.mem_map.mp hdone
  cases heq

/-- Once every worker made its whole plan, only the statuses are left to compare. -/
theorem asExpected_iff
    (hplans : ∀ seat < settings.threads,
      (doneBy seat x.deeds).map Prod.fst = plan settings.recordCount) :
    x.AsExpected settings ↔
      ∀ seat < settings.threads, ∀ p ∈ doneBy seat x.deeds, p.2 = .ok p.1.expected := by
  constructor
  · intro h seat hseat p hp
    rw [h seat hseat] at hp
    obtain ⟨t, -, rfl⟩ := List.mem_map.mp hp
    rfl
  · intro h seat hseat
    have hsame : (doneBy seat x.deeds).map (fun p => (p.1, .ok p.1.expected)) =
        (doneBy seat x.deeds).map id :=
      List.map_congr_left fun p hp => Prod.ext rfl (h seat hseat p hp).symm
    rw [← hplans seat hseat, List.map_map]
    exact (hsame.trans (List.map_id _)).symm

end History

/-- With fields that can be asked for, the workers come to what their operations come to. -/
theorem ended_of_le (hlength : settings.fieldLength ≤ maxLetters)
    (hturns : ∀ seat < settings.threads,
      (plan settings.recordCount).length ≤ schedule.count seat) {x : History σ}
    (hx : x.deeds = deeds settings.table choice schedule
      (muster settings.recordCount (bindings b settings), w))
    (hstarted : x.Started settings starts) :
    Ended b settings choice starts x
      ((gather ∅ (outcomes settings.table settings.recordCount choice schedule
        (bindings b settings) w).1).map succeeded) := by
  have hcases : ∀ d ∈ x.deeds, d.seat < settings.threads ∧
      ((d.Interrupted b settings.table choice ∧ ∃ t, d.answer = .error (.interrupt t)) ∨
        ¬ d.Interrupted b settings.table choice ∧ ∃ status, d.answer = .ok status) := by
    rw [hx]
    exact fun d hd => cases_of_mem_deeds hlength hd
  have htold := fun seat (hseat : seat < settings.threads) =>
    outcomes_told settings.table choice (length_bindings b settings ▸ hseat) (hturns seat hseat) w
  have hlist := length_outcomes settings.table choice settings.recordCount schedule
    (bindings b settings) w
  rw [length_bindings] at hlist
  rw [← hx] at htold
  generalize (outcomes settings.table settings.recordCount choice schedule
    (bindings b settings) w).1 = results at htold hlist ⊢
  rcases gather_cases ∅ results with ⟨h, hgather, hmem⟩ | ⟨total, hgather, hnone, htotal⟩
  · rw [hgather]
    obtain ⟨seat, hat⟩ := List.mem_iff_getElem?.mp hmem
    rcases htold seat (hlist ▸ (List.getElem?_eq_some_iff.mp hat).1) with
      ⟨t, h', hresult, hdone⟩ | ⟨tally, hresult, -⟩
    · rw [hat] at hresult
      cases hresult
      obtain ⟨d, hd, rfl, rfl, hanswer⟩ := mem_doneBy.mp hdone
      obtain ⟨hseat, ⟨hcall, text, htext⟩ | ⟨-, status, hok⟩⟩ := hcases d hd
      · rw [hanswer] at htext
        cases htext
        exact .interrupted hstarted hlength ⟨d, hd, hcall⟩ fun hexpected =>
          hexpected.no_failure hseat hdone
      · rw [hanswer] at hok
        cases hok
    · rw [hat] at hresult
      cases hresult
  · rw [hgather]
    -- no worker failed, so each has a tally of its whole plan
    have htallies : ∀ seat < settings.threads, ∃ tally, results[seat]? = some (.ok tally) ∧
        (doneBy seat x.deeds).map Prod.fst = plan settings.recordCount ∧
        (∀ p ∈ doneBy seat x.deeds, ∃ a, p.2 = .ok a) ∧
        (succeeded tally = true ↔ ∀ p ∈ doneBy seat x.deeds, p.2 = .ok p.1.expected) := by
      intro seat hseat
      rcases htold seat hseat with ⟨t, h, hresult, -⟩ | ⟨tally, hresult, hplan, hok, hcounts⟩
      · exact absurd (List.mem_iff_getElem?.mpr ⟨seat, hresult⟩) (hnone h)
      · exact ⟨tally, hresult, hplan, hok, hcounts.succeeded_iff.trans (forall_outcome?_iff hok)⟩
    have hplans : ∀ seat < settings.threads,
        (doneBy seat x.deeds).map Prod.fst = plan settings.recordCount := by
      intro seat hseat
      obtain ⟨tally, -, hplan, -⟩ := htallies seat hseat
      exact hplan
    refine .finished hstarted hlength ?_ (htotal.trans ?_)
    · rintro ⟨d, hd, hcall⟩
      obtain ⟨hseat, ⟨-, text, htext⟩ | ⟨hquiet, -⟩⟩ := hcases d hd
      · obtain ⟨tally, -, -, hanswered, -⟩ := htallies d.seat hseat
        obtain ⟨a, ha⟩ := hanswered _ (mem_doneBy.mpr ⟨d, hd, rfl, rfl, rfl⟩)
        dsimp only at ha
        rw [htext] at ha
        cases ha
      · exact hquiet hcall
    · rw [History.asExpected_iff hplans]
      constructor
      · rintro ⟨-, hall⟩ seat hseat
        obtain ⟨tally, hresult, -, -, hanswers⟩ := htallies seat hseat
        exact hanswers.mp (hall tally (List.mem_iff_getElem?.mpr ⟨seat, hresult⟩))
      · refine fun h => ⟨rfl, fun tally hmem => ?_⟩
        obtain ⟨seat, hat⟩ := List.mem_iff_getElem?.mp hmem
        have hseat : seat < settings.threads := hlist ▸ (List.getElem?_eq_some_iff.mp hat).1
        obtain ⟨tally', hresult, -, -, hanswers⟩ := htallies seat hseat
        rw [hat] at hresult
        cases hresult
        exact hanswers.mpr (h seat hseat)

theorem summarize_fst (logger : String) (p : Except Halt Tally × Crew σ) :
    (summarize logger p).1 = p.1.map succeeded := by
  rcases p with ⟨_ | _, w⟩ <;> rfl

/-- The stops of a run do not change its result, as long as they are not interrupted. -/
theorem finish_fst (hb : b.Uninterrupted Q) (settings : Settings)
    {p : Except Halt Tally × Crew σ} (hp : Q p.2.env.store) :
    (finish (bindings b settings) p).1 = p.1 := by
  obtain ⟨w', hstopped, -⟩ := stopAll_bindings (fun h e he => (hb.close h e he).2)
    (fun h e he => (hb.close h e he).1) settings hp
  rw [finish, hstopped]

/-- Every run ends in one of these ways. Starts may only be called off once one has failed. -/
theorem ended_runCrewFrom (hb : b.Uninterrupted Q) (hpunctual : settings.Punctual)
    (hthreads : 0 < settings.threads) (hrecords : 0 < settings.recordCount) (logger : String)
    (hw : Q w.env.store)
    (hstarts : (∀ seat < settings.threads, seat ∈ starts) ∨
      ∃ x ∈ (history starts schedule b settings choice w).starts, x ≠ .ok ())
    (hturns : ∀ seat < settings.threads,
      (plan settings.recordCount).length ≤ schedule.count seat) :
    Ended b settings choice starts (history starts schedule b settings choice w)
      (runCrewFrom starts schedule b logger settings choice w).1 := by
  have hstarters : ∀ db ∈ starts.filterMap fun seat => (bindings b settings)[seat]?,
      db ∈ bindings b settings := by
    intro db hdb
    obtain ⟨seat, -, hat⟩ := List.mem_filterMap.mp hdb
    exact List.mem_of_getElem? hat
  obtain ⟨horderly, hduty₁⟩ := (OnDuty.recruit hw settings).startAll hb hpunctual hstarters
  have hcases := startAll_cases (starts.filterMap fun seat => (bindings b settings)[seat]?)
    (w.recruit settings.threads settings.properties)
  have hdeeds : ∀ w₁, startAll (starts.filterMap fun seat => (bindings b settings)[seat]?)
      (w.recruit settings.threads settings.properties) = (.ok (), w₁) →
      (history starts schedule b settings choice w).deeds = deeds settings.table choice schedule
        (muster settings.recordCount (bindings b settings), w₁) := by
    intro w₁ hw₁
    simp only [history, hw₁]
  have hanswers : (history starts schedule b settings choice w).starts =
      starting (starts.filterMap fun seat => (bindings b settings)[seat]?)
        (w.recruit settings.threads settings.properties) := rfl
  rw [runCrewFrom, summarize_fst]
  dsimp only [begin]
  rw [← hanswers] at hcases horderly
  generalize history starts schedule b settings choice w = x at *
  rcases hs : startAll (starts.filterMap fun seat => (bindings b settings)[seat]?)
    (w.recruit settings.threads settings.properties) with ⟨started, w₁⟩
  rw [hs] at hcases hduty₁ hdeeds
  rcases hcases with ⟨hok, hall⟩ | ⟨h, herror, hmem⟩
  · obtain rfl : started = .ok () := hok
    have hstarted : x.Started settings starts := by
      refine ⟨hstarts.resolve_right ?_, hall⟩
      rintro ⟨answer, hanswer, hne⟩
      exact hne (hall answer hanswer)
    rw [finish_fst hb settings (preserves_interleave hb.operations settings choice schedule
      hduty₁.store)]
    dsimp only [interleave]
    rcases Nat.lt_or_ge maxLetters settings.fieldLength with hlong | hshort
    · rw [outcomes_of_lt choice hlong hrecords hturns, gather_replicate ∅ hthreads]
      exact .tooLong hstarted hlong
    · exact ended_of_le hshort hturns (hdeeds w₁ rfl) hstarted
  · obtain rfl : started = .error h := herror
    rw [finish_fst hb settings hduty₁.store]
    cases horderly _ hmem with
    | fatal fatal =>
      refine .unstarted fatal fun hstarted => ?_
      cases hstarted.2 _ hmem

end Run

end Smoke

namespace Settings

theorem size?_pos (source : Source) (s : Setting) {default : Nat} (h : 0 < default) :
    0 < (size? source s default).toOption.getD default := by
  unfold size? field
  cases source s.name with
  | none => exact h
  | some v =>
    dsimp only
    unfold readSize Size.read
    cases Size.readInt v with
    | error x => exact h
    | ok n =>
      by_cases hn : n ≤ 0
      · simp only [hn, if_true]
        exact h
      · simp only [hn, if_false]
        exact Int.lt_toNat.mpr (Int.not_le.mp hn)

/-- Settings that are accepted have a record to work on, and a worker. -/
theorem pos_of_load {environment : List (String × String)} {file : String} {s : Settings}
    (h : load environment file = .ok s) : 0 < s.threads ∧ 0 < s.recordCount := by
  unfold load read at h
  split at h
  · cases h
    exact ⟨size?_pos _ _ (by decide), size?_pos _ _ (by decide)⟩
  · cases h

end Settings

namespace Command

open Smoke (History)

def crew (logger : String) (settings : Settings) (e : Env σ) : Crew σ :=
  { env := e.note .info logger (announcement settings) }

def report (logger : String) (p : Except Halt Bool × Crew σ) : Except Halt Nat × Env σ :=
  match conclude logger p.1 with
  | .error h => (.error h, p.2.env)
  | .ok (code, entry) => (.ok code, { p.2.env with log := p.2.env.log.push entry })

def runFrom (starts schedule : List Nat) (b : Backend σ) (logger : String) (settings : Settings)
    (choice : Smoke.Choice) : Act (Env σ) Nat := fun e =>
  report logger
    (Smoke.runCrewFrom starts schedule b logger settings choice (crew logger settings e))

theorem run_eq_runFrom (b : Backend σ) (logger : String) (settings : Settings)
    (choice : Smoke.Choice) :
    run b logger settings choice =
      runFrom (List.range settings.threads) (Smoke.orderly settings) b logger settings choice := by
  funext e
  unfold run
  rw [Smoke.runCrew_eq_runCrewFrom]
  rfl

/-- Starts are called off only once one has failed, and every worker has turns enough. -/
structure Proper (settings : Settings) (starts schedule : List Nat) (x : History σ) : Prop where
  starts : (∀ seat < settings.threads, seat ∈ starts) ∨ ∃ answer ∈ x.starts, answer ≠ .ok ()
  turns : ∀ seat < settings.threads,
    (Smoke.plan settings.recordCount).length ≤ schedule.count seat

structure Exits (b : Backend σ) (logger : String) (settings : Settings) (choice : Smoke.Choice)
    (starts : List Nat) (x : History σ) (p : Except Halt Nat × Env σ) : Prop where
  finished : settings.fieldLength ≤ Smoke.maxLetters →
    (p.1 = .ok 0 ↔ x.Started settings starts ∧ x.AsExpected settings)
  interrupted : settings.fieldLength ≤ Smoke.maxLetters →
    (p.1 = .ok 130 ↔ x.Started settings starts ∧ x.Interrupted b settings choice)
  failed : settings.fieldLength ≤ Smoke.maxLetters →
    (p.1 = .ok 1 ↔ ¬ (x.Started settings starts ∧
      (x.AsExpected settings ∨ x.Interrupted b settings choice)))
  reported : p.1 = .ok 1 → ∃ message, p.2.log.back? = some { level := .error, logger, message }
  tooLong : Smoke.maxLetters < settings.fieldLength → x.Started settings starts →
    p.1 = .error (.failure .fieldTooLong)
  unstarted : ¬ x.Started settings starts → p.1 = .ok 1

variable {settings : Settings} {choice : Smoke.Choice} {starts : List Nat} {x : History σ}

theorem exits_of_ended (logger : String) {p : Except Halt Bool × Crew σ}
    (h : Smoke.Ended b settings choice starts x p.1) :
    Exits b logger settings choice starts x (report logger p) := by
  obtain ⟨result, w⟩ := p
  dsimp only at h
  cases h with
  | unstarted fatal not =>
    simp only [report, conclude, fatal, if_true]
    exact ⟨fun _ => iff_of_false nofun fun h => not h.1,
      fun _ => iff_of_false nofun fun h => not h.1, fun _ => iff_of_true rfl fun h => not h.1,
      fun _ => ⟨_, Array.back?_push⟩, fun _ hstarted => absurd hstarted not, fun _ => rfl⟩
  | interrupted started short call not =>
    exact ⟨fun _ => iff_of_false nofun fun h => not h.2,
      fun _ => iff_of_true rfl ⟨started, call⟩,
      fun _ => iff_of_false nofun fun h => h ⟨started, Or.inr call⟩, nofun,
      fun hlong _ => absurd hlong (Nat.not_lt.mpr short), fun h => absurd started h⟩
  | @finished ok started short not answer =>
    cases ok with
    | true =>
      have hexpected := answer.mp rfl
      exact ⟨fun _ => iff_of_true rfl ⟨started, hexpected⟩,
        fun _ => iff_of_false nofun fun h => not h.2,
        fun _ => iff_of_false nofun fun h => h ⟨started, Or.inl hexpected⟩, nofun,
        fun hlong _ => absurd hlong (Nat.not_lt.mpr short), fun h => absurd started h⟩
    | false =>
      have hunexpected : ¬ x.AsExpected settings := fun h => nomatch answer.mpr h
      exact ⟨fun _ => iff_of_false nofun fun h => hunexpected h.2,
        fun _ => iff_of_false nofun fun h => not h.2,
        fun _ => iff_of_true rfl fun h => h.2.elim hunexpected not,
        fun _ => ⟨_, Array.back?_push⟩, fun hlong _ => absurd hlong (Nat.not_lt.mpr short),
        fun _ => rfl⟩
  | tooLong started long =>
    have hnot : ¬ settings.fieldLength ≤ Smoke.maxLetters := Nat.not_le.mpr long
    exact ⟨fun h => absurd h hnot, fun h => absurd h hnot, fun h => absurd h hnot, nofun,
      fun _ _ => rfl, fun h => absurd started h⟩

/-- The command, for settings that are accepted and a timeout that is a time span, over a store that
may fail in any way but is interrupted only in calls on documents. With fields that can be asked
for, it ends with 0 exactly if everything was started and every operation of every worker came out
as expected, with 130 exactly if everything was started and some call on the store was interrupted,
and with 1 in all other cases, after an entry for the error. With longer fields a failure leaves it
as soon as everything is started. -/
theorem run_exits {Q : σ → Prop} (hb : b.Uninterrupted Q) (logger : String)
    {environment : List (String × String)} {file : String}
    (hload : Settings.load environment file = .ok settings) (hpunctual : settings.Punctual)
    (choice : Smoke.Choice) {e : Env σ} (he : Q e.store) :
    Exits b logger settings choice (List.range settings.threads)
      (Smoke.history (List.range settings.threads) (Smoke.orderly settings) b settings choice
        (crew logger settings e))
      (run b logger settings choice e) ∧
    ∀ starts schedule, Proper settings starts schedule
        (Smoke.history starts schedule b settings choice (crew logger settings e)) →
      Exits b logger settings choice starts
        (Smoke.history starts schedule b settings choice (crew logger settings e))
        (runFrom starts schedule b logger settings choice e) := by
  obtain ⟨hthreads, hrecords⟩ := Settings.pos_of_load hload
  have hexits : ∀ starts schedule, Proper settings starts schedule
        (Smoke.history starts schedule b settings choice (crew logger settings e)) →
      Exits b logger settings choice starts
        (Smoke.history starts schedule b settings choice (crew logger settings e))
        (runFrom starts schedule b logger settings choice e) :=
    fun starts schedule hproper => exits_of_ended logger
      (Smoke.ended_runCrewFrom hb hpunctual hthreads hrecords logger he hproper.starts
        hproper.turns)
  refine ⟨?_, hexits⟩
  rw [run_eq_runFrom]
  exact hexits _ _ ⟨Or.inl fun _ hseat => List.mem_range.mpr hseat,
    fun _ hseat => Smoke.le_count_orderly hseat⟩

def rehearsal : List (String × String) := [("RECORD_COUNT", "1"), ("threads", "2")]

def rehearsed : Settings := (Settings.load rehearsal "").toOption.getD Smoke.duet

theorem load_rehearsal : Settings.load rehearsal "" = .ok rehearsed := by
  have hsome : (Settings.load rehearsal "").toOption.isSome = true := by decide +kernel
  unfold rehearsed
  cases hload : Settings.load rehearsal "" with
  | error x =>
    rw [hload] at hsome
    cases hsome
  | ok s => rfl

theorem punctual_rehearsed : rehearsed.Punctual := by
  have hconfig : Config.resolve rehearsed.properties = .ok ⟨.counts 0 0, 10000, {}⟩ := by
    decide +kernel
  intro c hc
  rw [hconfig] at hc
  cases hc
  decide

def strained : Service where
  faults := .ofList [(.close, .failure .notConnected)]
  script := .ofRules [⟨.replace, "usertable:user1-0", 0, .raise (.interrupt "update")⟩]

theorem uninterrupted_strained : strained.Uninterrupted := by
  intro place h _ hfault
  rcases OrderedMap.of_get?_insert hfault with ⟨-, rfl⟩ | hnone
  · exact ⟨_, rfl⟩
  · cases hnone

/-- The interrupt of the second worker decides, whatever the first one comes to. -/
theorem run_exits_strained :
    Settings.load rehearsal "" = .ok rehearsed ∧ rehearsed.Punctual ∧
      Cluster.backend.Uninterrupted Service.Uninterrupted ∧ strained.Uninterrupted ∧
      Proper rehearsed [1, 0] [1, 0, 0, 1, 1, 0, 0, 0, 1, 1, 1, 0]
        (Smoke.history [1, 0] [1, 0, 0, 1, 1, 0, 0, 0, 1, 1, 1, 0] Cluster.backend rehearsed
          (fun _ _ _ => ∅) (crew "smoke" rehearsed { store := strained })) ∧
      (runFrom [1, 0] [1, 0, 0, 1, 1, 0, 0, 0, 1, 1, 1, 0] Cluster.backend "smoke" rehearsed
        (fun _ _ _ => ∅) { store := strained }).1 = .ok 130 ∧
      (Smoke.history [1, 0] [1, 0, 0, 1, 1, 0, 0, 0, 1, 1, 1, 0] Cluster.backend rehearsed
        (fun _ _ _ => ∅) (crew "smoke" rehearsed { store := strained })).Interrupted
          Cluster.backend rehearsed fun _ _ _ => ∅ := by
  have hproper : Proper rehearsed [1, 0] [1, 0, 0, 1, 1, 0, 0, 0, 1, 1, 1, 0]
      (Smoke.history [1, 0] [1, 0, 0, 1, 1, 0, 0, 0, 1, 1, 1, 0] Cluster.backend rehearsed
        (fun _ _ _ => ∅) (crew "smoke" rehearsed { store := strained })) :=
    ⟨Or.inl (by decide +kernel), by decide +kernel⟩
  have hcode : (runFrom [1, 0] [1, 0, 0, 1, 1, 0, 0, 0, 1, 1, 1, 0] Cluster.backend "smoke"
      rehearsed (fun _ _ _ => ∅) { store := strained }).1 = .ok 130 := by decide +kernel
  have hexits := (run_exits Cluster.uninterrupted "smoke" load_rehearsal punctual_rehearsed
    (fun _ _ _ => ∅) (e := { store := strained }) uninterrupted_strained).2 _ _ hproper
  exact ⟨load_rehearsal, punctual_rehearsed, Cluster.uninterrupted, uninterrupted_strained, hproper,
    hcode, ((hexits.interrupted (by decide +kernel)).mp hcode).2⟩

def boundless : List (String × String) :=
  [("FIELD_COUNT", "1"), ("FIELD_LENGTH", "9223372036854775808"), ("RECORD_COUNT", "1")]

/-- Such a field leaves the command without an exit status. -/
theorem not_run_exits_boundless :
    ¬ ∀ (environment : List (String × String)) (file : String) (settings : Settings)
      (choice : Smoke.Choice),
      Settings.load environment file = .ok settings → settings.Punctual →
        ∃ code ∈ [0, 1, 130],
          (run Cluster.backend "couchbench.main" settings choice { store := {} }).1 = .ok code := by
  intro hexits
  have hend : (Settings.load boundless "").map (fun settings =>
      (Config.resolve settings.properties,
        (run Cluster.backend "couchbench.main" settings (fun _ _ _ => ∅) { store := {} }).1)) =
      .ok (.ok ⟨.counts 0 0, 10000, {}⟩, .error (.failure .fieldTooLong)) := by decide +kernel
  cases hload : Settings.load boundless "" with
  | error x =>
    rw [hload] at hend
    cases hend
  | ok settings =>
    rw [hload] at hend
    obtain ⟨hconfig, hrun⟩ := Prod.mk.inj (Except.ok.inj hend)
    have hpunctual : settings.Punctual := by
      intro c hc
      rw [hconfig] at hc
      cases hc
      decide
    obtain ⟨code, -, hcode⟩ := hexits boundless "" settings (fun _ _ _ => ∅) hload hpunctual
    rw [hrun] at hcode
    cases hcode

end Command

end StoreBinding
