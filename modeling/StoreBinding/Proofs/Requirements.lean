import StoreBinding.Proofs.Policies
import StoreBinding.Proofs.Requests

/-!
From numbers to what the service is asked for. The bounds of a policy are drawn where numbers are
checked, where a policy is made and where nodes are counted, and they are the same bounds. Main
statement: integers make a policy exactly if they are in range, and a refusal is about a range. The
policy has the given numbers, the service can be asked for it, and what the service is asked for
tells the policy.
-/
namespace StoreBinding

namespace Policy

theorem requirement?_eq_none_iff {q : Policy} : q.requirement? = none ↔ q = .counts 0 0 := by
  cases q with
  | level l => exact ⟨nofun, nofun⟩
  | counts p r => rw [requirement?_counts_eq_none_iff, counts.injEq]

theorem requirement?_asked (q : Policy) : Cluster.requirement? q.asked = .ok q.requirement? := by
  rw [Cluster.requirement?, toPolicy_asked]
  rfl

theorem asked_injective : Function.Injective Policy.asked := by
  intro q q' h
  have hq := q.toPolicy_asked
  rw [h, toPolicy_asked] at hq
  exact (Except.ok.inj hq).symm

end Policy

def Requirement.behind : Option Requirement → Asked
  | none => .counts ⟨.int 0, .int 0⟩
  | some (.server l) => .policy (.level l)
  | some (.client p r) => .counts ⟨.int p.number, .int r.number⟩

/-- Nothing of a policy is lost on the way to the service. -/
theorem Requirement.behind_requirement? (q : Policy) : behind q.requirement? = q.asked := by
  cases q with
  | level l => rfl
  | counts p r =>
    cases h : (Policy.counts p r).requirement? with
    | none =>
      obtain ⟨rfl, rfl⟩ := Policy.requirement?_counts_eq_none_iff.mp h
      rfl
    | some q =>
      rw [Policy.requirement?_counts_eq_some h, behind, NodeCount.number_persist,
        NodeCount.number_replicate]
      rfl

namespace Durability

def resolveNumbers (level : Option Int) (persistTo replicateTo : Int) : Except Failure Asked :=
  resolveValues (level.elim .null .int) (.int persistTo) (.int replicateTo)

def Within (level : Option Int) (persistTo replicateTo : Int) : Prop :=
  match level with
  | some n => 0 ≤ n ∧ n ≤ 3
  | none => (0 ≤ persistTo ∧ persistTo ≤ 4) ∧ 0 ≤ replicateTo ∧ replicateTo ≤ 3

def Bears (level : Option Int) (persistTo replicateTo : Int) (a : Asked) : Prop :=
  match level with
  | some n => ∃ l : Level, a = .policy (.level l) ∧ (l.number : Int) = n
  | none => a = .counts ⟨.int persistTo, .int replicateTo⟩

variable {level : Option Int} {p r : Int}

theorem resolveNumbers_eq :
    resolveNumbers level p r =
      ((resolve level p r).map Policy.asked).mapError fun e => .config (.refused e) := by
  cases level with
  | none => exact resolveValues_null p r
  | some n => exact resolveValues_int n p r (.int p) (.int r)

theorem resolveNumbers_eq_ok_iff {a : Asked} :
    resolveNumbers level p r = .ok a ↔ ∃ q, resolve level p r = .ok q ∧ q.asked = a := by
  rw [resolveNumbers_eq]
  cases resolve level p r with
  | error e => exact ⟨nofun, fun ⟨_, h, _⟩ => nomatch h⟩
  | ok q =>
    constructor
    · intro h
      exact ⟨q, rfl, Except.ok.inj h⟩
    · rintro ⟨_, h, rfl⟩
      cases h
      rfl

theorem resolveNumbers_eq_error_iff {f : Failure} :
    resolveNumbers level p r = .error f ↔
      ∃ e, resolve level p r = .error e ∧ f = .config (.refused e) := by
  rw [resolveNumbers_eq]
  cases resolve level p r with
  | ok q => exact ⟨nofun, fun ⟨_, h, _⟩ => nomatch h⟩
  | error e =>
    constructor
    · intro h
      exact ⟨e, rfl, (Except.error.inj h).symm⟩
    · rintro ⟨_, h, rfl⟩
      cases h
      rfl

theorem exists_resolve_iff : (∃ q, resolve level p r = .ok q) ↔ Within level p r := by
  cases level with
  | some n =>
    have hrange : (∃ l : Level, (l.number : Int) = n) ↔ 0 ≤ n ∧ n ≤ 3 := exists_number_iff
    simp only [resolve_some_eq_ok_iff, Within, ← hrange]
    constructor
    · rintro ⟨_, l, -, hl⟩
      exact ⟨l, hl⟩
    · rintro ⟨l, hl⟩
      exact ⟨_, l, rfl, hl⟩
  | none =>
    simp only [resolve_none_eq_ok_iff, Within]
    constructor
    · rintro ⟨_, persistTo, replicateTo, -, rfl, rfl⟩
      omega
    · rintro ⟨hp, hr⟩
      exact ⟨_, ⟨p.toNat, by omega⟩, ⟨r.toNat, by omega⟩, rfl, Int.toNat_of_nonneg hp.1,
        Int.toNat_of_nonneg hr.1⟩

theorem bears_of_resolve {q : Policy} (h : resolve level p r = .ok q) :
    Bears level p r q.asked := by
  cases level with
  | some n =>
    obtain ⟨l, rfl, hl⟩ := resolve_some_eq_ok_iff.mp h
    exact ⟨l, rfl, hl⟩
  | none =>
    obtain ⟨persistTo, replicateTo, rfl, rfl, rfl⟩ := resolve_none_eq_ok_iff.mp h
    rfl

/-- Checking numbers, making a policy of them and asking the service for it go together. What is
refused is refused where its property is at hand, never where a policy is made. -/
structure Accords (level : Option Int) (persistTo replicateTo : Int) : Prop where
  resolved : (∃ q, resolve level persistTo replicateTo = .ok q) ↔ Within level persistTo replicateTo
  rejected : ∀ e, resolve level persistTo replicateTo = .error e →
    (∃ o, e = .outOfRange o) ∧
      resolveNumbers level persistTo replicateTo = .error (.config (.refused e))
  returned : (∃ a, resolveNumbers level persistTo replicateTo = .ok a) ↔
    Within level persistTo replicateTo
  refused : ∀ f, resolveNumbers level persistTo replicateTo = .error f →
    f.name = "ConfigurationError" ∧ ∃ o, f = .config (.refused (.outOfRange o))
  typed : ∀ q, resolve level persistTo replicateTo = .ok q ↔
    resolveNumbers level persistTo replicateTo = .ok q.asked
  passed : ∀ q, resolve level persistTo replicateTo = .ok q →
    Cluster.requirement? (.policy q) = Cluster.requirement? q.asked
  borne : ∀ a, resolveNumbers level persistTo replicateTo = .ok a →
    Bears level persistTo replicateTo a
  required : ∀ a, resolveNumbers level persistTo replicateTo = .ok a →
    ∃ q, Cluster.requirement? a = .ok q ∧
      (q = none ↔ a = .counts ⟨.int 0, .int 0⟩) ∧ Requirement.behind q = a
  distinct : ∀ level' p' r' a a', resolveNumbers level persistTo replicateTo = .ok a →
    resolveNumbers level' p' r' = .ok a' →
    Cluster.requirement? a = Cluster.requirement? a' → a = a'

/-- Any integers, with or without a level, are resolved within one set of bounds, and no two
policies look the same to the service. -/
theorem numbers_accord (level : Option Int) (persistTo replicateTo : Int) :
    Accords level persistTo replicateTo where
  resolved := exists_resolve_iff
  rejected e he :=
    ⟨outOfRange_of_resolve he, resolveNumbers_eq_error_iff.mpr ⟨e, he, rfl⟩⟩
  returned := by
    rw [← exists_resolve_iff]
    constructor
    · rintro ⟨a, ha⟩
      obtain ⟨q, hq, -⟩ := resolveNumbers_eq_ok_iff.mp ha
      exact ⟨q, hq⟩
    · rintro ⟨q, hq⟩
      exact ⟨q.asked, resolveNumbers_eq_ok_iff.mpr ⟨q, hq, rfl⟩⟩
  refused f hf := by
    obtain ⟨e, he, rfl⟩ := resolveNumbers_eq_error_iff.mp hf
    obtain ⟨o, rfl⟩ := outOfRange_of_resolve he
    exact ⟨rfl, o, rfl⟩
  typed q := by
    rw [resolveNumbers_eq_ok_iff]
    constructor
    · exact fun hq => ⟨q, hq, rfl⟩
    · rintro ⟨q', hq', h⟩
      rwa [Policy.asked_injective h] at hq'
  passed q _ := q.requirement?_asked.symm
  borne a ha := by
    obtain ⟨q, hq, rfl⟩ := resolveNumbers_eq_ok_iff.mp ha
    exact bears_of_resolve hq
  required a ha := by
    obtain ⟨q, -, rfl⟩ := resolveNumbers_eq_ok_iff.mp ha
    refine ⟨_, q.requirement?_asked, ?_, Requirement.behind_requirement? q⟩
    rw [Policy.requirement?_eq_none_iff]
    exact Policy.asked_injective.eq_iff.symm
  distinct level' p' r' a a' ha ha' h := by
    obtain ⟨q, -, rfl⟩ := resolveNumbers_eq_ok_iff.mp ha
    obtain ⟨q', -, rfl⟩ := resolveNumbers_eq_ok_iff.mp ha'
    rw [Policy.requirement?_asked, Policy.requirement?_asked] at h
    rw [← Requirement.behind_requirement?, Except.ok.inj h, Requirement.behind_requirement?]

/-- The largest numbers make policies that the service can be asked for, and with one more in effect
there is no policy. -/
theorem numbers_accord_corners :
    (∃ a q, resolveNumbers none 4 3 = .ok a ∧ Cluster.requirement? a = .ok q ∧ q ≠ none) ∧
    (∃ a q, resolveNumbers (some 3) 9 (-3) = .ok a ∧ Cluster.requirement? a = .ok q) ∧
    (¬ ∃ a, resolveNumbers none 4 4 = .ok a) ∧ ¬ ∃ a, resolveNumbers (some 4) 0 0 = .ok a := by
  refine ⟨?_, ?_, ?_, ?_⟩
  · have h := numbers_accord none 4 3
    obtain ⟨a, ha⟩ := h.returned.mpr (by simp [Within])
    obtain ⟨q, hq, hnone, -⟩ := h.required a ha
    have hcounts : a = .counts ⟨.int 4, .int 3⟩ := h.borne a ha
    refine ⟨a, q, ha, hq, fun h => ?_⟩
    rw [hnone, hcounts] at h
    cases h
  · have h := numbers_accord (some 3) 9 (-3)
    obtain ⟨a, ha⟩ := h.returned.mpr (by simp [Within])
    obtain ⟨q, hq, -⟩ := h.required a ha
    exact ⟨a, q, ha, hq⟩
  · rw [(numbers_accord none 4 4).returned]
    simp [Within]
  · rw [(numbers_accord (some 4) 0 0).returned]
    simp [Within]

end Durability

end StoreBinding
