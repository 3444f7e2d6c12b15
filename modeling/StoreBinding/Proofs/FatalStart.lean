import StoreBinding.Proofs.Lifecycle
import StoreBinding.Proofs.Resolution

/-!
Which failures come out of starting a binding. Whatever its properties and its manager are, and
whatever failure the store answers with, they are fatal ones: the configuration is wrong or the
store cannot be reached. There is one exception. A timeout is checked from below only, so one
of a thousand million days or more passes as a configuration and then makes no time span.
-/
namespace StoreBinding

variable {σ : Type} {b : Backend σ}

inductive Orderly {α : Type} : Except Halt α → Prop
  | ok (v : α) : Orderly (.ok v)
  | fatal {f : Failure} (h : f.isFatal = true) : Orderly (.error (.failure f))

/-- Fatal failures bear one of two names. -/
theorem Failure.name_of_isFatal {f : Failure} (h : f.isFatal = true) :
    f.name = "ConfigurationError" ∨ f.name = "StoreConnectionError" := by
  cases f with
  | config e =>
    cases e with
    | invalid i => exact Or.inl rfl
    | refused r =>
      cases r with
      | outOfRange o => exact Or.inl rfl
      | unmakeable u => cases h
  | notConnected | unreachable => exact Or.inr rfl
  | _ => cases h

theorem Orderly.error_iff {α : Type} {f : Failure} :
    Orderly (.error (.failure f) : Except Halt α) ↔ f.isFatal = true := by
  constructor
  · intro h
    cases h with
    | fatal hf => exact hf
  · exact Orderly.fatal

/-- Acquiring for a configuration is orderly as long as opening is not interrupted. -/
theorem Manager.orderly_acquire {p : Params} {m : Manager} {e : Env σ}
    (quiet : ∀ r e', e'.store = e.store → ∀ t, (b.connect r e').1 ≠ .error (.interrupt t)) :
    Orderly (m.acquire b p.request e).1 := by
  unfold acquire
  split
  · exact .ok _
  · rw [ConnectionRequest.place_request]
    split
    · next hplace => cases hplace
    · split
      · exact .ok _
      · exact .fatal rfl
      · next hconnect =>
        have hquiet := quiet _ _ (Env.store_note ..) _ (congrArg Prod.fst hconnect)
        exact hquiet.elim

/-- Without a fault the in-memory store opens every connection. -/
theorem Memory.connect_quiet {e : Env Memory} (h : e.store.connectFault = none) (r : ConnectionRequest)
    (t : String) : (backend.connect r e).1 ≠ .error (.interrupt t) := by
  simp only [backend, connect, h]
  nofun

namespace Client

def Overlong (c : Client) : Prop :=
  c.resolved = none ∧
    ∃ config, Config.resolve c.properties = .ok config ∧
      Duration.overlongMillis ≤ config.kvTimeoutMillis

inductive Resolves (given : RawProperties) : Except Failure Resolved → Prop
  | accepted {r : Resolved} (reads : Config.resolve given = .ok r.config)
      (short : r.config.kvTimeoutMillis < Duration.overlongMillis) : Resolves given (.ok r)
  | refused {f : Failure} (reason : ∀ config, Config.resolve given ≠ .ok config)
      (fatal : f.isFatal = true) : Resolves given (.error f)
  | overlong {config : Config} {o : Duration.Overflow}
      (reads : Config.resolve given = .ok config)
      (long : Duration.overlongMillis ≤ config.kvTimeoutMillis) :
      Resolves given (.error (.duration (.overflow o)))

theorem resolves (given : RawProperties) : Resolves given (resolve given) := by
  unfold resolve
  split
  · next x hx =>
    have hnone : ∀ config, Config.resolve given ≠ .ok config := by
      intro config hc
      rw [hx] at hc
      cases hc
    exact .refused hnone (Config.isFatal_of_resolve hx)
  · next config hc =>
    have hshort := Config.exists_writeOptions_iff hc
    split
    · next o ho =>
      refine .overlong hc (Int.not_lt.mp fun hlt => ?_)
      obtain ⟨options, hoptions⟩ := hshort.mpr hlt
      rw [ho] at hoptions
      cases hoptions
    · next options ho => exact .accepted hc (hshort.mp ⟨options, ho⟩)

/-- A binding that is not overlong is prepared, or refused with a fatal failure. -/
theorem orderly_prepare {c : Client} (hc : ¬ c.Overlong) (e : Env σ) :
    Orderly (c.prepare e).1 := by
  unfold prepare
  split
  · exact .ok _
  · next hnone =>
    have hresolves := resolves c.properties
    split
    · next f hf =>
      rw [hf] at hresolves
      cases hresolves with
      | refused _ fatal => exact .fatal fatal
      | overlong reads long => exact (hc ⟨hnone, _, reads, long⟩).elim
    · exact .ok _

theorem start_of_overlong {c : Client} (hc : c.Overlong) (m : Manager) (e : Env σ) :
    ∃ o, c.start b m e = (.error (.failure (.duration (.overflow o))), c, m, e) := by
  obtain ⟨hnone, config, hconfig, long⟩ := hc
  have hresolves := resolves c.properties
  generalize hresolved : resolve c.properties = resolution at hresolves
  cases hresolves with
  | accepted reads short =>
    rw [hconfig] at reads
    cases reads
    exact absurd short (Int.not_lt.mpr long)
  | refused reason _ => exact absurd hconfig (reason config)
  | @overlong _ o _ _ =>
    refine ⟨o, ?_⟩
    have hprepare : c.prepare e = (.error (.failure (.duration (.overflow o))), c, e) := by
      simp only [prepare, hnone, hresolved]
    simp only [start, hprepare]

theorem orderly_start {c : Client} (hc : ¬ c.Overlong) (m : Manager) {e : Env σ}
    (quiet : ∀ r e', e'.store = e.store → ∀ t, (b.connect r e').1 ≠ .error (.interrupt t)) :
    Orderly (c.start b m e).1 := by
  have horderly := orderly_prepare hc e
  unfold start
  split
  · next h c' e' hprepare =>
    rw [hprepare] at horderly
    cases horderly with
    | fatal hf => exact .fatal hf
  · next r c' e' hprepare =>
    obtain ⟨-, hstore⟩ := prepare_ok hprepare
    have hacquire := Manager.orderly_acquire (p := r.config.connection) (m := m)
      fun request e'' hstore' => quiet request e'' (hstore'.trans hstore)
    split
    · exact .ok _
    · split
      · next h m' e'' hfailed =>
        rw [hfailed] at hacquire
        cases hacquire with
        | fatal hf => exact .fatal hf
      · exact .ok _

/-- Starting a binding is orderly unless the binding is overlong, and then it fails over the time
span and changes nothing. An accepted configuration has the timeout of its writes and the one of
its connection exactly when it is less than a thousand million days. A failure of an orderly start
bears one of two names. -/
theorem orderly_start_iff (c : Client) (m : Manager) (e : Env σ)
    (quiet : ∀ r e', e'.store = e.store → ∀ t, (b.connect r e').1 ≠ .error (.interrupt t)) :
    (Orderly (c.start b m e).1 ↔ ¬ c.Overlong) ∧
    (c.Overlong →
      ∃ o, c.start b m e = (.error (.failure (.duration (.overflow o))), c, m, e)) ∧
    (∀ given config, Config.resolve given = .ok config →
      ((∃ o, config.writeOptions = .ok o) ↔
        config.kvTimeoutMillis < Duration.overlongMillis) ∧
      ((∃ d, config.connection.kvTimeout = .ok d) ↔
        config.kvTimeoutMillis < Duration.overlongMillis)) ∧
    (¬ c.Overlong → ∀ f, (c.start b m e).1 = .error (.failure f) →
      f.name = "ConfigurationError" ∨ f.name = "StoreConnectionError") := by
  refine ⟨⟨?_, fun hc => orderly_start hc m quiet⟩, fun hc => start_of_overlong hc m e, ?_,
    fun hc f hf => Failure.name_of_isFatal (Orderly.error_iff.mp (hf ▸ orderly_start hc m quiet))⟩
  · intro horderly hc
    obtain ⟨o, hstart⟩ := start_of_overlong (b := b) hc m e
    rw [hstart] at horderly
    have hfatal := Orderly.error_iff.mp horderly
    cases hfatal
  · intro given config hconfig
    exact ⟨Config.exists_writeOptions_iff hconfig, Config.exists_kvTimeout_iff hconfig⟩

def sluggish : Client where
  properties := OrderedMap.ofList [(Property.kvTimeoutMillis.key, .text "86400000000000000")]

def sluggishConfig : Config where
  durability := .counts ⟨0, by decide⟩ ⟨0, by decide⟩
  kvTimeoutMillis := 86400000000000000
  connection := { kvTimeoutMillis := 86400000000000000 }

theorem overlong_sluggish : sluggish.Overlong :=
  ⟨rfl, sluggishConfig, rfl, Int.le_refl _⟩

theorem not_overlong_default : ¬ Overlong { properties := ∅ } := by
  rintro ⟨-, config, hconfig, long⟩
  have hshort : config.kvTimeoutMillis = 10000 := by
    cases hconfig
    rfl
  rw [hshort] at long
  exact absurd long (by decide)

/-- Properties that are all left out start in order, and a timeout of a thousand million days does
not. -/
theorem orderly_start_default :
    (∀ r e', e'.store = ({} : Memory) →
      ∀ t, (Memory.backend.connect r e').1 ≠ .error (.interrupt t)) ∧
    Orderly (start Memory.backend { properties := ∅ } {} { store := {} }).1 ∧
    ∃ o, sluggish.start Memory.backend {} { store := {} } =
      (.error (.failure (.duration (.overflow o))), sluggish, {}, { store := {} }) := by
  have quiet := fun r (e' : Env Memory) (hstore : e'.store = ({} : Memory)) =>
    Memory.connect_quiet (congrArg Memory.connectFault hstore) r
  have hdefault :=
    orderly_start_iff (b := Memory.backend) { properties := ∅ } {} { store := {} } quiet
  have hsluggish := orderly_start_iff (b := Memory.backend) sluggish {} { store := {} } quiet
  exact ⟨quiet, hdefault.1.mpr not_overlong_default, hsluggish.2.1 overlong_sluggish⟩

/-- The timeout is accepted with its configuration, and the start fails over the time span. -/
theorem not_orderly_start_sluggish :
    Config.resolve sluggish.properties = .ok sluggishConfig ∧
    sluggishConfig.writeOptions = .error (.days 1000000000) ∧
    sluggishConfig.connection.kvTimeout = .error (.days 1000000000) ∧
    (sluggish.start Memory.backend {} { store := {} }).1 =
      .error (.failure (.duration (.overflow (.days 1000000000)))) ∧
    ¬ Orderly (sluggish.start Memory.backend {} { store := {} }).1 := by
  have hconfig : Config.resolve sluggish.properties = .ok sluggishConfig := rfl
  have hoptions : sluggishConfig.writeOptions = .error (.days 1000000000) := rfl
  have hresolve : resolve sluggish.properties =
      .error (.duration (.overflow (.days 1000000000))) := by
    simp only [resolve, hconfig, hoptions]
  have hstart : (sluggish.start Memory.backend {} { store := {} }).1 =
      .error (.failure (.duration (.overflow (.days 1000000000)))) := by
    have hnone : sluggish.resolved = none := rfl
    simp only [start, prepare, hnone, hresolve]
  refine ⟨hconfig, hoptions, rfl, hstart, ?_⟩
  rw [hstart, Orderly.error_iff]
  decide

end Client

end StoreBinding
