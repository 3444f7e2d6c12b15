import StoreBinding.Client

/-!
What a resolved configuration is made of. Reading succeeds exactly when each property reads,
the range checks leave nothing for the constructors of policies to refuse, and the timeout is
positive and the same in both of its copies. Main statement: a configuration that resolves has
its timeouts exactly when the timeout has less than a thousand million days.
-/
namespace StoreBinding

namespace Properties

structure Reads (m : RawProperties) (p : Properties) : Prop where
  host : host? m = .ok p.host
  bucket : bucket? m = .ok p.bucket
  username : username? m = .ok p.username
  password : password? m = .ok p.password
  kvTimeoutMillis : kvTimeoutMillis? m = .ok p.kvTimeoutMillis
  kvEndpoints : kvEndpoints? m = .ok p.kvEndpoints
  durability : durability? m = .ok p.durability
  persistTo : persistTo? m = .ok p.persistTo
  replicateTo : replicateTo? m = .ok p.replicateTo

private theorem bind_eq_ok_iff {ε α β : Type} {x : Except ε α} {f : α → Except ε β} {r : β} :
    (x >>= f) = .ok r ↔ ∃ v, x = .ok v ∧ f v = .ok r := by
  cases x with
  | error e => exact ⟨nofun, fun ⟨_, h, _⟩ => by cases h⟩
  | ok v =>
    constructor
    · exact fun h => ⟨v, rfl, h⟩
    · rintro ⟨v', hv, hf⟩
      cases hv
      exact hf

theorem read_eq_ok_iff {given : RawProperties} {p : Properties} :
    read given = .ok p ↔ Reads (inForce given) p := by
  simp only [read, bind_eq_ok_iff]
  constructor
  · rintro ⟨_, h1, _, h2, _, h3, _, h4, _, h5, _, h6, _, h7, _, h8, _, h9, hp⟩
    cases hp
    exact ⟨h1, h2, h3, h4, h5, h6, h7, h8, h9⟩
  · rintro ⟨h1, h2, h3, h4, h5, h6, h7, h8, h9⟩
    exact ⟨_, h1, _, h2, _, h3, _, h4, _, h5, _, h6, _, h7, _, h8, _, h9, rfl⟩

/-- A property that reads has its default, or was given and read. -/
theorem field_eq_ok {α : Type} {m : RawProperties} {p : Property} {default v : α}
    {reader : Value → Except Problem α} (h : field m p default reader = .ok v) :
    v = default ∨ ∃ raw, reader raw = .ok v := by
  unfold field at h
  split at h
  · cases h
    exact Or.inl rfl
  · next spelling raw _ =>
    cases hr : reader raw with
    | error e =>
      rw [hr] at h
      cases h
    | ok v' =>
      rw [hr] at h
      cases h
      exact Or.inr ⟨raw, hr⟩

theorem readPositive_pos {v : Value} {n : Int} (h : readPositive v = .ok n) : 0 < n := by
  unfold readPositive at h
  split at h
  · split at h
    · cases h
    · next hn =>
      cases h
      omega
  · cases h

theorem Reads.kvTimeoutMillis_pos {m : RawProperties} {p : Properties} (h : Reads m p) :
    0 < p.kvTimeoutMillis := by
  rcases field_eq_ok h.kvTimeoutMillis with hdefault | ⟨raw, hraw⟩
  · rw [hdefault]
    decide
  · exact readPositive_pos hraw

end Properties

namespace Durability

theorem exists_ofInt {n : Int} (h : 0 ≤ n ∧ n ≤ maxLevel) : ∃ l, Level.ofInt n = .ok l := by
  have hn : n = 0 ∨ n = 1 ∨ n = 2 ∨ n = 3 := by
    simp only [maxLevel] at h
    omega
  rcases hn with rfl | rfl | rfl | rfl
  · exact ⟨.none, rfl⟩
  · exact ⟨.majority, rfl⟩
  · exact ⟨.majorityAndPersistToActive, rfl⟩
  · exact ⟨.persistToMajority, rfl⟩

theorem checkRange_cases (p : Property) (upper : Nat) (n : Int) :
    (checkRange p upper n = .ok n ∧ 0 ≤ n ∧ n ≤ upper) ∨
      checkRange p upper n = .error (.outOfRange ⟨p, upper⟩) := by
  unfold checkRange
  split
  · next h => exact Or.inl ⟨rfl, h⟩
  · exact Or.inr rfl

/-- Numbers in range always make a policy, so a refusal is about a range. -/
theorem outOfRange_of_resolve {level : Option Int} {persistTo replicateTo : Int} {e : Refusal}
    (h : resolve level persistTo replicateTo = .error e) : ∃ o, e = .outOfRange o := by
  cases level with
  | some n =>
    rcases checkRange_cases .durability maxLevel n with ⟨hc, hn⟩ | hc
    · obtain ⟨l, hl⟩ := exists_ofInt hn
      simp only [resolve, checkLevel, hc, bind, Except.bind, hl] at h
      cases h
    · simp only [resolve, checkLevel, hc, bind, Except.bind] at h
      cases h
      exact ⟨_, rfl⟩
  | none =>
    rcases checkRange_cases .persistTo maxPersistTo persistTo with ⟨hc, hp⟩ | hc
    · rcases checkRange_cases .replicateTo maxReplicateTo replicateTo with ⟨hc', hr⟩ | hc'
      · have hq := Policy.ofCounts_of_within hp hr
        simp only [resolve, checkPersistTo, checkReplicateTo, hc, hc', bind, Except.bind, hq] at h
        cases h
      · simp only [resolve, checkPersistTo, checkReplicateTo, hc, hc', bind, Except.bind] at h
        cases h
        exact ⟨_, rfl⟩
    · simp only [resolve, checkPersistTo, hc, bind, Except.bind] at h
      cases h
      exact ⟨_, rfl⟩

end Durability

namespace Duration

/-- A day has as many milliseconds as it has thousands of microseconds. -/
theorem fdiv_microsPerDay (n : Int) : (n * 1000).fdiv microsPerDay = n.fdiv 86400000 := by
  rw [Int.fdiv_eq_ediv_of_nonneg _ (by decide), Int.fdiv_eq_ediv_of_nonneg _ (by decide)]
  simp only [microsPerDay]
  omega

/-- Milliseconds make a duration exactly when their days are in range. -/
theorem exists_ofMillis_iff {n : Int} :
    (∃ d, ofMillis n = .ok d) ↔ (n.fdiv 86400000).natAbs ≤ maxDays := by
  rw [← fdiv_microsPerDay]
  simp only [ofMillis, ofMicros]
  constructor
  · rintro ⟨d, hd⟩
    split at hd
    · next hle => exact hle
    · split at hd <;> cases hd
  · intro hle
    rw [if_pos hle]
    exact ⟨_, rfl⟩

/-- The days of a duration are whole days, rounded down. -/
theorem days_of_ofMillis {n : Int} {d : Duration} (h : ofMillis n = .ok d) :
    d.days = n.fdiv 86400000 := by
  rw [← fdiv_microsPerDay]
  simp only [ofMillis, ofMicros] at h
  split at h
  · cases h
    rfl
  · split at h <;> cases h

def overlongMillis : Int := (maxDays + 1) * 86400000

theorem exists_ofMillis_of_pos {n : Int} (hn : 0 < n) :
    (∃ d, ofMillis n = .ok d) ↔ n < overlongMillis := by
  rw [exists_ofMillis_iff, Int.fdiv_eq_ediv_of_nonneg _ (by decide)]
  simp only [overlongMillis, maxDays]
  omega

end Duration

namespace Config

theorem resolve_eq_ok {given : RawProperties} {c : Config} (h : resolve given = .ok c) :
    ∃ p, Properties.read given = .ok p ∧ c.kvTimeoutMillis = p.kvTimeoutMillis ∧
      c.connection = p.params := by
  unfold resolve at h
  split at h
  · cases h
  · next p hp =>
    unfold ofProperties at h
    split at h
    · cases h
    · cases h
      exact ⟨p, hp, rfl, rfl⟩

theorem kvTimeoutMillis_pos {given : RawProperties} {c : Config} (h : resolve given = .ok c) :
    0 < c.kvTimeoutMillis := by
  obtain ⟨p, hp, htimeout, _⟩ := resolve_eq_ok h
  rw [htimeout]
  exact (Properties.read_eq_ok_iff.mp hp).kvTimeoutMillis_pos

theorem connection_kvTimeoutMillis {given : RawProperties} {c : Config}
    (h : resolve given = .ok c) : c.connection.kvTimeoutMillis = c.kvTimeoutMillis := by
  obtain ⟨p, _, htimeout, hconnection⟩ := resolve_eq_ok h
  rw [htimeout, hconnection]
  rfl

/-- A configuration that is refused is a fatal failure. -/
theorem isFatal_of_resolve {given : RawProperties} {e : Error} (h : resolve given = .error e) :
    (Failure.config e).isFatal = true := by
  unfold resolve at h
  split at h
  · cases h
    rfl
  · unfold ofProperties at h
    split at h
    · next hrefused =>
      cases h
      obtain ⟨o, rfl⟩ := Durability.outOfRange_of_resolve hrefused
      rfl
    · cases h

theorem exists_writeOptions_iff {given : RawProperties} {c : Config} (h : resolve given = .ok c) :
    (∃ o, c.writeOptions = .ok o) ↔ c.kvTimeoutMillis < Duration.overlongMillis := by
  rw [← Duration.exists_ofMillis_of_pos (kvTimeoutMillis_pos h), writeOptions]
  cases Duration.ofMillis c.kvTimeoutMillis with
  | error e =>
    constructor
    · rintro ⟨_, ho⟩
      cases ho
    · rintro ⟨_, hd⟩
      cases hd
  | ok d => exact ⟨fun _ => ⟨d, rfl⟩, fun _ => ⟨_, rfl⟩⟩

theorem exists_kvTimeout_iff {given : RawProperties} {c : Config} (h : resolve given = .ok c) :
    (∃ d, c.connection.kvTimeout = .ok d) ↔ c.kvTimeoutMillis < Duration.overlongMillis := by
  rw [← Duration.exists_ofMillis_of_pos (kvTimeoutMillis_pos h), Params.kvTimeout,
    connection_kvTimeoutMillis h]

end Config

end StoreBinding
