import StoreBinding.Proofs.Resolution

/-!
Timeouts as time spans. A number of milliseconds is converted twice, for the connection and for the
operations. Its span has whole days, rounded down, and the rest of a day behind them. Main statement:
on every integer the two conversions give the same span or the same refusal; there is a span as long
as its days are in range on either side of zero, it stands for exactly the given milliseconds, and a
longer time has a longer span.
-/
namespace StoreBinding

namespace Duration

instance : Zero Duration where
  zero := ofDay 0 0

instance : LT Duration where
  lt d e := d.days < e.days ∨
    d.days = e.days ∧ (d.seconds < e.seconds ∨ d.seconds = e.seconds ∧ d.micros < e.micros)

/-- In normal form no part can make up for one before it, so the whole decides. -/
theorem lt_iff_toMicros_lt {d e : Duration} : d < e ↔ d.toMicros < e.toMicros := by
  have hd := d.seconds_lt
  have hd' := d.micros_lt
  have he := e.seconds_lt
  have he' := e.micros_lt
  change (_ ∨ _ ∧ (_ ∨ _ ∧ _)) ↔ _
  simp only [toMicros]
  omega

theorem ofMillis_lt_iff {m n : Int} {d e : Duration} (hd : ofMillis m = .ok d)
    (he : ofMillis n = .ok e) : d < e ↔ m < n := by
  rw [lt_iff_toMicros_lt, toMicros_of_ofMillis hd, toMicros_of_ofMillis he]
  exact Int.mul_lt_mul_right (by decide)

structure Converts (convert : Int → Except Overflow Duration) : Prop where
  defined : ∀ n, (∃ d, convert n = .ok d) ↔ (n.fdiv 86400000).natAbs ≤ 999999999
  normal : ∀ n d, convert n = .ok d →
    d.days = n.fdiv 86400000 ∧ d.seconds < 86400 ∧ d.micros < 1000000
  exact : ∀ n d, convert n = .ok d →
    d.days * 86400000000 + d.seconds * 1000000 + d.micros = n * 1000
  monotone : ∀ m n d e, convert m = .ok d → convert n = .ok e → (d < e ↔ m < n)
  positive : ∀ n d, convert n = .ok d → (0 < d ↔ 0 < n)

theorem converts_ofMillis : Converts ofMillis where
  defined _ := exists_ofMillis_iff
  normal _ d h := ⟨days_of_ofMillis h, d.seconds_lt, d.micros_lt⟩
  exact _ _ h := toMicros_of_ofMillis h
  monotone _ _ _ _ hd he := ofMillis_lt_iff hd he
  positive n d h := by
    have hzero : ofMillis 0 = .ok 0 := rfl
    exact ofMillis_lt_iff hzero h

end Duration

def Params.timeoutAt (p : Params) (millis : Int) : Except Duration.Overflow Duration :=
  { p with kvTimeoutMillis := millis }.kvTimeout

def Config.timeoutAt (c : Config) (millis : Int) : Except Duration.Overflow Duration :=
  { c with kvTimeoutMillis := millis }.writeOptions.map WriteOptions.timeout

theorem Params.timeoutAt_eq (p : Params) : p.timeoutAt = Duration.ofMillis := rfl

theorem Config.timeoutAt_eq (c : Config) : c.timeoutAt = Duration.ofMillis := by
  funext millis
  rw [timeoutAt, writeOptions]
  cases Duration.ofMillis millis <;> rfl

/-- Whatever else parameters and configuration hold, they make the same timeout of the same time, or
refuse it for the same reason, and what they make is exact. -/
theorem timeouts_exact (p : Params) (c : Config) :
    p.timeoutAt = c.timeoutAt ∧ Duration.Converts p.timeoutAt := by
  rw [p.timeoutAt_eq, c.timeoutAt_eq]
  exact ⟨rfl, Duration.converts_ofMillis⟩

/-- The first and the last time that have a span are not opposites of each other, and just before
zero the days are rounded down. -/
theorem timeouts_exact_edges :
    let p : Params := {}
    let c : Config := { durability := .counts 0 0, kvTimeoutMillis := 10000, connection := p }
    (∃ d, c.timeoutAt 86399999999999999 = .ok d) ∧ (¬ ∃ d, c.timeoutAt 86400000000000000 = .ok d) ∧
    (∃ d, c.timeoutAt (-86399999913600000) = .ok d) ∧
    (¬ ∃ d, c.timeoutAt (-86399999913600001) = .ok d) ∧
    ∃ d, p.timeoutAt (-1) = .ok d ∧ d.days = -1 ∧ d.seconds = 86399 ∧ d.micros = 999000 := by
  intro p c
  obtain ⟨hsame, hconverts⟩ := timeouts_exact p c
  rw [← hsame]
  simp only [hconverts.defined]
  refine ⟨by decide, by decide, by decide, by decide, ?_⟩
  obtain ⟨d, hd⟩ := (hconverts.defined (-1)).mpr (by decide)
  have hnormal := hconverts.normal _ d hd
  have hexact := hconverts.exact _ d hd
  exact ⟨d, hd, by omega⟩

end StoreBinding
