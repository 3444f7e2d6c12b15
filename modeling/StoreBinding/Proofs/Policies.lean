import StoreBinding.Proofs.Resolution

/-!
Which numbers make which policy. A level is in force when one is asked for and its number is that of
a level; without a level the policy has the two counts, and each must be in its range. Main
statements: resolving gives exactly the policy with the given numbers, whatever integers they are.
-/
namespace StoreBinding

/-- A level is found by its number. -/
theorem Level.ofInt?_eq_some_iff {n : Int} {l : Level} :
    Level.ofInt? n = some l ↔ (l.number : Int) = n := by
  constructor
  · intro h
    unfold Level.ofInt? at h
    have hl := List.find?_some h
    exact of_decide_eq_true hl
  · rintro rfl
    cases l <;> rfl

namespace Durability

theorem checkRange_eq_ok_iff {p : Property} {upper : Nat} {n v : Int} :
    checkRange p upper n = .ok v ↔ v = n ∧ 0 ≤ n ∧ n ≤ upper := by
  unfold checkRange
  split
  · next h =>
    rw [Except.ok.injEq]
    exact ⟨fun hv => ⟨hv.symm, h⟩, fun hv => hv.1.symm⟩
  · next h => exact ⟨nofun, fun hv => absurd hv.2 h⟩

theorem checkLevel_eq_ok_iff {n : Int} {l : Level} :
    checkLevel n = .ok l ↔ (l.number : Int) = n := by
  constructor
  · intro h
    rcases checkRange_cases .durability maxLevel n with ⟨hc, -⟩ | hc
    · simp only [checkLevel, hc, bind, Except.bind, Level.ofInt] at h
      split at h
      · next l' hl' =>
        cases h
        exact Level.ofInt?_eq_some_iff.mp hl'
      · cases h
    · simp only [checkLevel, hc, bind, Except.bind] at h
      cases h
  · rintro rfl
    cases l <;> rfl

/-- A level that is asked for gives the policy of that level, and the counts do not matter. -/
theorem resolve_some_eq_ok_iff {n p r : Int} {q : Policy} :
    resolve (some n) p r = .ok q ↔ ∃ l : Level, q = .level l ∧ (l.number : Int) = n := by
  have hmap : resolve (some n) p r = (checkLevel n).map .level := rfl
  rw [hmap]
  cases h : checkLevel n with
  | error e =>
    refine ⟨nofun, ?_⟩
    rintro ⟨l, -, hl⟩
    rw [checkLevel_eq_ok_iff.mpr hl] at h
    cases h
  | ok l =>
    have hn := checkLevel_eq_ok_iff.mp h
    constructor
    · intro hq
      cases hq
      exact ⟨l, rfl, hn⟩
    · rintro ⟨l', rfl, hl'⟩
      rw [checkLevel_eq_ok_iff.mpr hl'] at h
      cases h
      rfl

/-- Without a level the policy has the two counts. -/
theorem resolve_none_eq_ok_iff {p r : Int} {q : Policy} :
    resolve none p r = .ok q ↔
      ∃ (persistTo : Fin 5) (replicateTo : Fin 4), q = .counts persistTo replicateTo ∧
        (persistTo.val : Int) = p ∧ (replicateTo.val : Int) = r := by
  constructor
  · intro h
    rcases checkRange_cases .persistTo maxPersistTo p with ⟨hc, hp⟩ | hc
    · rcases checkRange_cases .replicateTo maxReplicateTo r with ⟨hc', hr⟩ | hc'
      · have hcounts := Policy.ofCounts_of_within hp hr
        simp only [resolve, checkPersistTo, checkReplicateTo, hc, hc', bind, Except.bind,
          hcounts] at h
        cases h
        exact ⟨_, _, rfl, Int.toNat_of_nonneg hp.1, Int.toNat_of_nonneg hr.1⟩
      · simp only [resolve, checkPersistTo, checkReplicateTo, hc, hc', bind, Except.bind] at h
        cases h
    · simp only [resolve, checkPersistTo, hc, bind, Except.bind] at h
      cases h
  · rintro ⟨persistTo, replicateTo, rfl, rfl, rfl⟩
    have hp : (0 : Int) ≤ persistTo.val ∧ (persistTo.val : Int) ≤ maxPersistTo := by
      have hlt := persistTo.isLt
      simp only [maxPersistTo]
      omega
    have hr : (0 : Int) ≤ replicateTo.val ∧ (replicateTo.val : Int) ≤ maxReplicateTo := by
      have hlt := replicateTo.isLt
      simp only [maxReplicateTo]
      omega
    have hcp : checkPersistTo persistTo.val = .ok (persistTo.val : Int) :=
      checkRange_eq_ok_iff.mpr ⟨rfl, hp⟩
    have hcr : checkReplicateTo replicateTo.val = .ok (replicateTo.val : Int) :=
      checkRange_eq_ok_iff.mpr ⟨rfl, hr⟩
    have hcounts : Policy.ofCounts persistTo.val replicateTo.val =
        .ok (.counts persistTo replicateTo) := Policy.ofCounts_of_within hp hr
    simp only [resolve, hcp, hcr, bind, Except.bind, hcounts]
    rfl

theorem checkRange_of_outside {p : Property} {upper : Nat} {n : Int}
    (h : ¬ (0 ≤ n ∧ n ≤ upper)) : checkRange p upper n = .error (.outOfRange ⟨p, upper⟩) :=
  if_neg h

/-- A level that is asked for is refused exactly when it is out of range. -/
theorem resolve_some_eq_error_iff {n p r : Int} {e : Refusal} :
    resolve (some n) p r = .error e ↔
      ¬ (0 ≤ n ∧ n ≤ maxLevel) ∧ e = .outOfRange ⟨.durability, maxLevel⟩ := by
  by_cases hn : 0 ≤ n ∧ n ≤ maxLevel
  · obtain ⟨l, hl⟩ := exists_ofInt hn
    have hrange : checkRange .durability maxLevel n = .ok n := if_pos hn
    have hok : resolve (some n) p r = .ok (.level l) := by
      simp only [resolve, checkLevel, hrange, bind, Except.bind, hl]
      rfl
    rw [hok]
    constructor
    · intro h
      cases h
    · intro h
      exact absurd hn h.1
  · have herror : resolve (some n) p r = .error (.outOfRange ⟨.durability, maxLevel⟩) := by
      simp only [resolve, checkLevel, checkRange_of_outside hn, bind, Except.bind]
      rfl
    rw [herror, Except.error.injEq]
    exact ⟨fun h => ⟨hn, h.symm⟩, fun h => h.2.symm⟩

/-- Without a level the first count that is out of range is refused. -/
theorem resolve_none_eq_error_iff {p r : Int} {e : Refusal} :
    resolve none p r = .error e ↔
      (¬ (0 ≤ p ∧ p ≤ maxPersistTo) ∧ e = .outOfRange ⟨.persistTo, maxPersistTo⟩) ∨
      ((0 ≤ p ∧ p ≤ maxPersistTo) ∧ ¬ (0 ≤ r ∧ r ≤ maxReplicateTo) ∧
        e = .outOfRange ⟨.replicateTo, maxReplicateTo⟩) := by
  by_cases hp : 0 ≤ p ∧ p ≤ maxPersistTo
  · have hpersist : checkRange .persistTo maxPersistTo p = .ok p := if_pos hp
    by_cases hr : 0 ≤ r ∧ r ≤ maxReplicateTo
    · obtain ⟨q, hq⟩ : ∃ q, Policy.ofCounts p r = .ok q := ⟨_, Policy.ofCounts_of_within hp hr⟩
      have hreplicate : checkRange .replicateTo maxReplicateTo r = .ok r := if_pos hr
      have hok : resolve none p r = .ok q := by
        simp only [resolve, checkPersistTo, checkReplicateTo, hpersist, hreplicate, bind,
          Except.bind, hq]
        rfl
      simp [hok, hp, hr]
    · have herror : resolve none p r = .error (.outOfRange ⟨.replicateTo, maxReplicateTo⟩) := by
        simp only [resolve, checkPersistTo, checkReplicateTo, hpersist,
          checkRange_of_outside hr, bind, Except.bind]
      simp [herror, hp, hr, eq_comm]
  · have herror : resolve none p r = .error (.outOfRange ⟨.persistTo, maxPersistTo⟩) := by
      simp only [resolve, checkPersistTo, checkRange_of_outside hp, bind, Except.bind]
    simp [herror, hp, eq_comm]

/-- Numbers of levels are the integers from zero to three. -/
theorem exists_number_iff {n : Int} :
    (∃ l : Level, (l.number : Int) = n) ↔ 0 ≤ n ∧ n ≤ maxLevel := by
  constructor
  · rintro ⟨l, rfl⟩
    cases l <;> decide
  · intro h
    obtain ⟨l, hl⟩ := exists_ofInt h
    unfold Level.ofInt at hl
    split at hl
    · next l' hl' => exact ⟨l', Level.ofInt?_eq_some_iff.mp hl'⟩
    · cases hl

end Durability

end StoreBinding
