import Mathlib.Data.List.Induction
import Mathlib.Data.Nat.Digits.Defs
import StoreBinding.Numeral.Decimal

/-!
Integer numerals. A text is a numeral when it is an optional sign and then decimal digits, at least
one of them and no more than the limit; its integer is the sum of the digits by place, with that
sign. Main statement: reading gives the integer of a numeral and refuses every other text.
-/
namespace StoreBinding.Numeral

structure IsDigits (digits : List Char) : Prop where
  ne_nil : digits ≠ []
  decimal : ∀ c ∈ digits, '0' ≤ c ∧ c ≤ '9'
  length_le : digits.length ≤ digitLimit

def placeValue (digits : List Char) : Nat :=
  Nat.ofDigits 10 (digits.reverse.map fun c => c.toNat - '0'.toNat)

inductive Denotes : String → Int → Prop
  | unsigned {digits : List Char} (h : IsDigits digits) :
      Denotes (String.ofList digits) (placeValue digits)
  | plus {digits : List Char} (h : IsDigits digits) :
      Denotes (String.ofList ('+' :: digits)) (placeValue digits)
  | minus {digits : List Char} (h : IsDigits digits) :
      Denotes (String.ofList ('-' :: digits)) (-placeValue digits)

theorem value_concat (digits : List Char) (c : Char) :
    value (digits ++ [c]) = 10 * value digits + (c.toNat - '0'.toNat) := by
  rw [value, List.foldl_append]
  rfl

/-- Adding up digits from the front gives their sum by place. -/
theorem value_eq_placeValue (digits : List Char) : value digits = placeValue digits := by
  induction digits using List.reverseRecOn with
  | nil => rfl
  | append_singleton digits c ih =>
    rw [value_concat, ih, placeValue, placeValue, List.reverse_append, List.reverse_singleton,
      List.singleton_append, List.map_cons, Nat.ofDigits_cons]
    exact Nat.add_comm ..

theorem isDigit_iff (c : Char) : c.isDigit = true ↔ '0' ≤ c ∧ c ≤ '9' := by
  simp [Char.isDigit, Char.le_def]

theorem isDigits_iff (digits : List Char) :
    IsDigits digits ↔
      (digits ≠ [] ∧ digits.all Char.isDigit) ∧ digits.length ≤ digitLimit := by
  have hall : digits.all Char.isDigit ↔ ∀ c ∈ digits, '0' ≤ c ∧ c ≤ '9' := by
    simp only [List.all_eq_true, isDigit_iff]
  rw [hall]
  exact ⟨fun h => ⟨⟨h.ne_nil, h.decimal⟩, h.length_le⟩, fun h => ⟨h.1.1, h.1.2, h.2⟩⟩

/-- A sign is taken off the front, and nothing else is. -/
theorem splitSign_cases (text : List Char) :
    (∃ rest, text = '-' :: rest ∧ splitSign text = (true, rest)) ∨
      (∃ rest, text = '+' :: rest ∧ splitSign text = (false, rest)) ∨
      splitSign text = (false, text) := by
  unfold splitSign
  split
  · next rest => exact Or.inl ⟨rest, rfl, rfl⟩
  · next rest => exact Or.inr (Or.inl ⟨rest, rfl, rfl⟩)
  · exact Or.inr (Or.inr rfl)

/-- Digits have no sign in front. -/
theorem splitSign_digits {digits : List Char} (h : ∀ c ∈ digits, '0' ≤ c ∧ c ≤ '9') :
    splitSign digits = (false, digits) := by
  rcases splitSign_cases digits with ⟨rest, rfl, -⟩ | ⟨rest, rfl, -⟩ | hsplit
  · exact absurd (h '-' List.mem_cons_self) (by decide)
  · exact absurd (h '+' List.mem_cons_self) (by decide)
  · exact hsplit

/-- Reading in terms of the sign and the digits that follow it. -/
theorem read_eq_ok_of_split {s : String} {negative : Bool} {digits : List Char} {n : Int}
    (hsplit : splitSign s.toList = (negative, digits)) :
    read s = .ok n ↔
      IsDigits digits ∧ n = if negative then -(placeValue digits : Int) else placeValue digits := by
  rw [read, hsplit, isDigits_iff, ← value_eq_placeValue]
  dsimp only
  by_cases hdigits : digits ≠ [] ∧ digits.all Char.isDigit
  · by_cases hlength : digits.length ≤ digitLimit
    · rw [if_pos hdigits, if_pos hlength, Except.ok.injEq]
      exact ⟨fun hn => ⟨⟨hdigits, hlength⟩, hn.symm⟩, fun h => h.2.symm⟩
    · rw [if_pos hdigits, if_neg hlength]
      exact ⟨nofun, fun h => absurd h.1.2 hlength⟩
  · rw [if_neg hdigits]
    exact ⟨nofun, fun h => absurd h.1.1 hdigits⟩

/-- Reading gives the integer of a numeral, and nothing for any other text. -/
theorem read_eq_ok_iff {s : String} {n : Int} : read s = .ok n ↔ Denotes s n := by
  constructor
  · intro hread
    have hs : s = String.ofList s.toList := String.ofList_toList.symm
    rcases splitSign_cases s.toList with ⟨rest, htext, hsplit⟩ | ⟨rest, htext, hsplit⟩ | hsplit
    · obtain ⟨hdigits, rfl⟩ := (read_eq_ok_of_split hsplit).mp hread
      rw [hs, htext]
      exact .minus hdigits
    · obtain ⟨hdigits, rfl⟩ := (read_eq_ok_of_split hsplit).mp hread
      rw [hs, htext]
      exact .plus hdigits
    · obtain ⟨hdigits, rfl⟩ := (read_eq_ok_of_split hsplit).mp hread
      conv => arg 1; rw [hs]
      exact .unsigned hdigits
  · intro h
    cases h with
    | unsigned h =>
      exact (read_eq_ok_of_split (by rw [String.toList_ofList, splitSign_digits h.decimal])).mpr
        ⟨h, rfl⟩
    | plus h =>
      exact (read_eq_ok_of_split (by rw [String.toList_ofList]; rfl)).mpr ⟨h, rfl⟩
    | minus h =>
      exact (read_eq_ok_of_split (by rw [String.toList_ofList]; rfl)).mpr ⟨h, rfl⟩

/-- A text is a numeral of at most one integer. -/
theorem Denotes.unique {s : String} {n n' : Int} (h : Denotes s n) (h' : Denotes s n') :
    n = n' := by
  have hread := read_eq_ok_iff.mpr h
  rw [read_eq_ok_iff.mpr h'] at hread
  cases hread
  rfl

end StoreBinding.Numeral
