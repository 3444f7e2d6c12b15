import StoreBinding.Proofs.Acceptance

/-!
Which counts survive into a policy. A mapping that says nothing about a level keeps the counts that
it gives, and one with a level has no use for them. A level that is given as null is asked for and
then not there: the counts are already out of force, and the policy has zeros. Main statement: the
counts of a policy are the given ones exactly unless a null level has dropped a count that was given
as something else than zero.
-/
namespace StoreBinding

def Value.Denotes : Value → Int → Prop
  | .text s, n => Numeral.Denotes s n
  | .int m, n => n = m
  | _, _ => False

theorem Value.readInt_eq_ok_iff {v : Value} {n : Int} : v.readInt = .ok n ↔ v.Denotes n := by
  cases v with
  | text s => exact Properties.readInt_text_iff
  | int m =>
    simp only [Value.readInt, Value.Denotes, Except.ok.injEq]
    exact eq_comm
  | _ => simp [Value.readInt, Value.Denotes]

namespace Properties

variable {given : RawProperties} {p : Property}

def value? (given : RawProperties) (p : Property) : Option Value :=
  (effective? given p).map Prod.snd

def Gives (given : RawProperties) (p : Property) (n : Int) : Prop :=
  match value? given p with
  | none => n = 0
  | some v => v.Denotes n

theorem value?_inForce :
    value? (inForce given) p =
      if (value? given .durability).isSome ∧ p.IsCount then none else value? given p := by
  simp only [value?, effective?_inForce, Option.isSome_map]
  split <;> rfl

/-- A level reads as no level exactly when it is null. -/
theorem readLevel_eq_ok_iff {v : Value} {level : Option Int} :
    readLevel v = .ok level ↔
      (v = .null ∧ level = none) ∨ ∃ n, v.Denotes n ∧ level = some n := by
  cases v with
  | null =>
    simp only [readLevel, Except.ok.injEq, Value.Denotes, false_and, exists_false, or_false,
      true_and]
    exact eq_comm
  | text s =>
    rw [readLevel_text_iff]
    simp [Value.Denotes, and_comm]
  | int m =>
    simp only [readLevel, Value.readInt, Except.map, Except.ok.injEq, Value.Denotes,
      exists_eq_left, reduceCtorEq, false_and, false_or]
    exact eq_comm
  | _ => simp [readLevel, Value.readInt, Except.map, Value.Denotes]

theorem durability?_inForce_iff {level : Option Int} :
    durability? (inForce given) = .ok level ↔
      match value? given .durability with
      | none => level = none
      | some v => readLevel v = .ok level := by
  have hforce : value? (inForce given) .durability = value? given .durability := by
    rw [value?_inForce, if_neg fun h => absurd h.2 (by decide)]
  have hfield : durability? (inForce given) = .ok level ↔ _ := field_eq_ok_iff
  rw [← value?, hforce] at hfield
  exact hfield

/-- Without a level a count reads as what the mapping gives. -/
theorem count_iff_gives {n : Int} (hlevel : value? given .durability = none) :
    field (inForce given) p 0 Value.readInt = .ok n ↔ Gives given p n := by
  have hforce : value? (inForce given) p = value? given p := by
    rw [value?_inForce, hlevel, if_neg fun h => absurd h.1 (by decide)]
  rw [field_eq_ok_iff, ← value?, hforce, Gives]
  cases value? given p with
  | none => rfl
  | some v => exact Value.readInt_eq_ok_iff

/-- With a level of any value, null included, a count is zero. -/
theorem count_eq_zero {n : Int} (hlevel : (value? given .durability).isSome) (hp : p.IsCount)
    (h : field (inForce given) p 0 Value.readInt = .ok n) : n = 0 := by
  rwa [field_eq_ok_iff, ← value?, value?_inForce, if_pos ⟨hlevel, hp⟩] at h

end Properties

namespace Config

open Properties (value? Gives)

inductive Durably (given : RawProperties) : Policy → Prop
  | asCounted {persistTo : Fin 5} {replicateTo : Fin 4}
      (level : value? given .durability = none) (persist : Gives given .persistTo persistTo.val)
      (replicate : Gives given .replicateTo replicateTo.val) :
      Durably given (.counts persistTo replicateTo)
  | uncounted (level : value? given .durability = some .null) : Durably given (.counts 0 0)
  | atLevel {v : Value} {l : Level} (level : value? given .durability = some v)
      (number : v.Denotes l.number) : Durably given (.level l)

variable {given : RawProperties} {c : Config}

theorem durably_of_resolve (h : resolve given = .ok c) : Durably given c.durability := by
  obtain ⟨p, hreads, hp⟩ := resolve_eq_ok_iff.mp h
  obtain ⟨policy, hpolicy, rfl⟩ := ofProperties_eq_ok_iff.mp hp
  have hread := Properties.durability?_inForce_iff.mp hreads.durability
  cases hlevel : value? given .durability with
  | none =>
    rw [hlevel] at hread
    rw [hread] at hpolicy
    obtain ⟨persistTo, replicateTo, rfl, hpersist, hreplicate⟩ :=
      Durability.resolve_none_eq_ok_iff.mp hpolicy
    refine .asCounted hlevel ?_ ?_
    · rw [hpersist]
      exact (Properties.count_iff_gives hlevel).mp hreads.persistTo
    · rw [hreplicate]
      exact (Properties.count_iff_gives hlevel).mp hreads.replicateTo
  | some v =>
    rw [hlevel] at hread
    rcases Properties.readLevel_eq_ok_iff.mp hread with ⟨rfl, hnone⟩ | ⟨n, hn, hsome⟩
    · have hsome : (value? given .durability).isSome := by rw [hlevel]; rfl
      rw [hnone, Properties.count_eq_zero hsome (Or.inl rfl) hreads.persistTo,
        Properties.count_eq_zero hsome (Or.inr rfl) hreads.replicateTo] at hpolicy
      obtain ⟨persistTo, replicateTo, rfl, hpersist, hreplicate⟩ :=
        Durability.resolve_none_eq_ok_iff.mp hpolicy
      obtain rfl : persistTo = 0 := Fin.ext (by simpa using hpersist)
      obtain rfl : replicateTo = 0 := Fin.ext (by simpa using hreplicate)
      exact .uncounted hlevel
    · rw [hsome] at hpolicy
      obtain ⟨l, rfl, rfl⟩ := Durability.resolve_some_eq_ok_iff.mp hpolicy
      exact .atLevel hlevel hn

def Keeps (given : RawProperties) (policy : Policy) : Prop :=
  ∀ persistTo replicateTo, policy = .counts persistTo replicateTo →
    Gives given .persistTo persistTo.val ∧ Gives given .replicateTo replicateTo.val

/-- A configuration without a level keeps the counts that its properties give, exactly when they
have no null level or give each count as zero. -/
theorem keeps_counts_iff (h : resolve given = .ok c) :
    Keeps given c.durability ↔
      (value? given .durability = some .null →
        Gives given .persistTo 0 ∧ Gives given .replicateTo 0) := by
  have hdurably := durably_of_resolve h
  generalize c.durability = policy at hdurably ⊢
  cases hdurably with
  | asCounted hlevel hpersist hreplicate =>
    constructor
    · intro _ hnull
      rw [hlevel] at hnull
      cases hnull
    · rintro _ _ _ hcounts
      cases hcounts
      exact ⟨hpersist, hreplicate⟩
  | uncounted hlevel =>
    constructor
    · exact fun hkeeps _ => hkeeps 0 0 rfl
    · rintro hzero _ _ hcounts
      cases hcounts
      exact hzero hlevel
  | atLevel hlevel hnumber =>
    constructor
    · intro _ hnull
      rw [hlevel] at hnull
      cases hnull
      exact hnumber.elim
    · exact fun _ _ _ hcounts => nomatch hcounts

def counted : RawProperties :=
  .ofList [("persistTo", .text "many"), ("couchbase.persistTo", .text "+3"),
    ("replicateTo", .int 2)]

/-- Counts under both spellings, one as a text and one as a number, are kept. -/
theorem keeps_counts_iff_counted :
    Config.resolve counted = .ok ⟨.counts 3 2, 10000, {}⟩ ∧ Keeps counted (.counts 3 2) := by
  have h : Config.resolve counted = .ok ⟨.counts 3 2, 10000, {}⟩ := by decide +kernel
  exact ⟨h, (keeps_counts_iff h).mpr nofun⟩

def unranked : RawProperties := .ofList [("durability", .null), ("persistTo", .int 3)]

/-- A level that is given as null drops the count beside it. -/
theorem not_keeps_unranked :
    ¬ ∀ given c, Config.resolve given = .ok c → Keeps given c.durability := by
  intro hkeeps
  have h : Config.resolve unranked = .ok ⟨.counts 0 0, 10000, {}⟩ := by decide +kernel
  have hzero : (0 : Int) = 3 := (hkeeps _ _ h 0 0 rfl).1
  exact absurd hzero (by decide)

end Config

end StoreBinding
