import StoreBinding.Properties
import StoreBinding.Proofs.OrderedMaps

/-!
Under which keys a property is found. Each property has two spellings, and taking the qualifier off
a key gives a property's name exactly for these two. Main statements: a level is asked for exactly
when the durability property has a value, the counts are then out of force and every other property
is as it was given, and what is read depends only on what each property has in force.
-/
namespace StoreBinding

namespace Property

theorem name_injective {p q : Property} (h : p.name = q.name) : p = q := by
  cases p <;> cases q <;> simp [name] at h ⊢

theorem toList_key (p : Property) : p.key.toList = qualifier.toList ++ p.name.toList := by
  rw [key, qualify, String.toList_append]

theorem key_injective {p q : Property} (h : p.key = q.key) : p = q := by
  apply name_injective
  apply String.toList_injective
  have hlist := congrArg String.toList h
  rw [toList_key, toList_key] at hlist
  exact List.append_cancel_left hlist

/-- A bare name does not start with the qualifier. -/
theorem name_unqualified (p : Property) : qualifier.toList.isPrefixOf p.name.toList = false := by
  cases p <;> decide

theorem name_ne_key (p q : Property) : p.name ≠ q.key := by
  intro h
  have hplain := name_unqualified p
  rw [h, toList_key] at hplain
  have hstart : qualifier.toList.isPrefixOf (qualifier.toList ++ q.name.toList) = true :=
    List.isPrefixOf_iff_prefix.mpr (List.prefix_append ..)
  rw [hstart] at hplain
  cases hplain

/-- A property has no spellings but its two. -/
theorem bare_eq_name_iff {k : String} {p : Property} :
    bare k = p.name ↔ k = p.key ∨ k = p.name := by
  unfold bare
  split
  · next h =>
    have hk : k.toList = qualifier.toList ++ k.toList.drop qualifier.length :=
      (List.prefix_iff_eq_append.mp (List.isPrefixOf_iff_prefix.mp h)).symm
    constructor
    · intro hbare
      left
      apply String.toList_injective
      rw [toList_key, hk, ← hbare, String.toList_ofList]
    · rintro (rfl | rfl)
      · apply String.toList_injective
        rw [String.toList_ofList]
        rw [toList_key] at hk ⊢
        exact (List.append_cancel_left hk).symm
      · rw [name_unqualified] at h
        cases h
  · next h =>
    constructor
    · exact Or.inr
    · rintro (rfl | rfl)
      · refine absurd (List.isPrefixOf_iff_prefix.mpr ?_) h
        rw [toList_key]
        exact List.prefix_append ..
      · rfl

def IsCount (p : Property) : Prop := p = persistTo ∨ p = replicateTo

instance (p : Property) : Decidable p.IsCount := inferInstanceAs (Decidable (_ ∨ _))

end Property

namespace Properties

/-- A count under either spelling. -/
theorem isCount_iff {k : String} :
    isCount k = true ↔ ∃ p : Property, p.IsCount ∧ (k = p.key ∨ k = p.name) := by
  simp only [isCount, Bool.or_eq_true, beq_iff_eq, Property.bare_eq_name_iff]
  constructor
  · rintro (h | h)
    · exact ⟨.persistTo, Or.inl rfl, h⟩
    · exact ⟨.replicateTo, Or.inr rfl, h⟩
  · rintro ⟨p, rfl | rfl, h⟩
    · exact Or.inl h
    · exact Or.inr h

/-- The two spellings of a property are counts together. -/
theorem isCount_key {p : Property} : isCount p.key = decide p.IsCount := by
  rw [Bool.eq_iff_iff, isCount_iff, decide_eq_true_eq]
  constructor
  · rintro ⟨q, hq, h | h⟩
    · exact Property.key_injective h ▸ hq
    · exact absurd h.symm (Property.name_ne_key q p)
  · exact fun hp => ⟨p, hp, Or.inl rfl⟩

theorem isCount_name {p : Property} : isCount p.name = decide p.IsCount := by
  rw [Bool.eq_iff_iff, isCount_iff, decide_eq_true_eq]
  constructor
  · rintro ⟨q, hq, h | h⟩
    · exact absurd h (Property.name_ne_key p q)
    · exact Property.name_injective h ▸ hq
  · exact fun hp => ⟨p, hp, Or.inr rfl⟩

theorem isSome_effective?_iff {m : RawProperties} {p : Property} :
    (effective? m p).isSome ↔ p.key ∈ m.keys ∨ p.name ∈ m.keys := by
  rw [OrderedMap.mem_keys_iff, OrderedMap.mem_keys_iff, effective?]
  cases m.get? p.key with
  | some v => simp
  | none => cases m.get? p.name <;> simp

/-- A level is asked for exactly when the durability property has a value. -/
theorem asksForLevel_iff {m : RawProperties} :
    asksForLevel m = true ↔ (effective? m .durability).isSome := by
  rw [isSome_effective?_iff]
  simp only [asksForLevel, List.any_eq_true, beq_iff_eq, Property.bare_eq_name_iff]
  constructor
  · rintro ⟨k, hmem, rfl | rfl⟩
    · exact Or.inl hmem
    · exact Or.inr hmem
  · rintro (hmem | hmem)
    · exact ⟨_, hmem, Or.inl rfl⟩
    · exact ⟨_, hmem, Or.inr rfl⟩

/-- Keys can be left out property by property, as both spellings stay or go. -/
theorem effective?_filterKeys (m : RawProperties) {keep : String → Bool} {p : Property} {b : Bool}
    (hkey : keep p.key = b) (hname : keep p.name = b) :
    effective? (m.filterKeys keep) p = if b then effective? m p else none := by
  simp only [effective?, OrderedMap.get?_filterKeys, hkey, hname]
  cases b <;> rfl

/-- With a level the counts have no value, and every other property is as it was given. -/
theorem effective?_inForce (m : RawProperties) (p : Property) :
    effective? (inForce m) p =
      if (effective? m .durability).isSome ∧ p.IsCount then none else effective? m p := by
  unfold inForce
  by_cases hlevel : asksForLevel m = true
  · have hsome := asksForLevel_iff.mp hlevel
    rw [if_pos hlevel, effective?_filterKeys m (congrArg not isCount_key)
      (congrArg not isCount_name)]
    by_cases hp : p.IsCount
    · simp [hp, hsome]
    · simp [hp]
  · have hnone : ¬ (effective? m .durability).isSome := mt asksForLevel_iff.mpr hlevel
    rw [if_neg hlevel, if_neg fun h => hnone h.1]

/-- Mappings that have the same properties in force are read the same way, refusals included. -/
theorem read_congr {m m' : RawProperties}
    (h : ∀ p, effective? (inForce m) p = effective? (inForce m') p) : read m = read m' := by
  simp only [read, host?, bucket?, username?, password?, kvTimeoutMillis?, kvEndpoints?,
    durability?, persistTo?, replicateTo?, field, h]

end Properties

end StoreBinding
