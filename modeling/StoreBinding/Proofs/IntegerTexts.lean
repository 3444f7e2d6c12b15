import StoreBinding.Proofs.Grammar
import StoreBinding.Proofs.Refusals

/-!
Texts that are given for numbers. The grammar is a sign or none and then decimal digits, at least
one and however many; an integer is read from a text of the grammar with no more digits than the
limit, and the two ways to fail are told apart by the grammar alone. Main statement: what validation
makes of every text, for each property that is a number, and that the decimal text of an integer
reads back with or without leading zeros.
-/
namespace StoreBinding

namespace Numeral

inductive Sign
  | none
  | plus
  | minus
deriving DecidableEq, Repr

def Sign.text : Sign → List Char
  | none => []
  | plus => ['+']
  | minus => ['-']

def Sign.apply : Sign → Nat → Int
  | none, n | plus, n => n
  | minus, n => -n

structure Spells (s : String) (sign : Sign) (digits : List Char) : Prop where
  text : s.toList = sign.text ++ digits
  ne_nil : digits ≠ []
  decimal : ∀ c ∈ digits, '0' ≤ c ∧ c ≤ '9'

/-- Taking off a sign leaves what the sign stands in front of. -/
theorem exists_splitSign (text : List Char) :
    ∃ sign rest, text = Sign.text sign ++ rest ∧
      splitSign text = (decide (sign = .minus), rest) := by
  rcases splitSign_cases text with ⟨rest, htext, hsplit⟩ | ⟨rest, htext, hsplit⟩ | hsplit
  · exact ⟨.minus, rest, htext, hsplit⟩
  · exact ⟨.plus, rest, htext, hsplit⟩
  · exact ⟨.none, text, rfl, hsplit⟩

theorem Spells.all_isDigit {s : String} {sign : Sign} {digits : List Char}
    (h : Spells s sign digits) : digits.all Char.isDigit := by
  apply List.all_eq_true.mpr
  intro c hc
  exact (isDigit_iff c).mpr (h.decimal c hc)

theorem Spells.splitSign {s : String} {sign : Sign} {digits : List Char}
    (h : Spells s sign digits) :
    splitSign s.toList = (decide (sign = .minus), digits) := by
  rw [h.text]
  cases sign with
  | none => exact splitSign_digits h.decimal
  | plus => rfl
  | minus => rfl

/-- A text of the grammar is an integer, or it has too many digits. -/
theorem Spells.read {s : String} {sign : Sign} {digits : List Char} (h : Spells s sign digits) :
    read s = if digits.length ≤ digitLimit then .ok (sign.apply (placeValue digits))
      else .error (.tooLong digits.length) := by
  rw [Numeral.read, h.splitSign]
  dsimp only
  rw [if_pos ⟨h.ne_nil, h.all_isDigit⟩, value_eq_placeValue]
  cases sign <;> rfl

/-- Any other text is refused as a whole. -/
theorem spells_or_notAnInteger (s : String) :
    (∃ sign digits, Spells s sign digits) ∨ read s = .error .notAnInteger := by
  obtain ⟨sign, rest, htext, hsplit⟩ := exists_splitSign s.toList
  by_cases hdigits : rest ≠ [] ∧ rest.all Char.isDigit
  · refine Or.inl ⟨sign, rest, htext, hdigits.1, ?_⟩
    intro c hc
    exact (isDigit_iff c).mp (List.all_eq_true.mp hdigits.2 c hc)
  · right
    rw [Numeral.read, hsplit]
    exact if_neg hdigits

/-- A text of the grammar has no character but its sign and its digits. -/
theorem Spells.mem_toList {s : String} {sign : Sign} {digits : List Char}
    (h : Spells s sign digits) {c : Char} (hc : c ∈ s.toList) :
    c = '+' ∨ c = '-' ∨ '0' ≤ c ∧ c ≤ '9' := by
  rw [h.text] at hc
  rcases List.mem_append.mp hc with hsign | hdigit
  · cases sign with
    | none => exact absurd hsign List.not_mem_nil
    | plus => exact Or.inl (List.mem_singleton.mp hsign)
    | minus => exact Or.inr (Or.inl (List.mem_singleton.mp hsign))
  · exact Or.inr (Or.inr (h.decimal c hdigit))

section Read

variable {s : String}

theorem read_eq_ok_iff_spells {n : Int} :
    read s = .ok n ↔ ∃ sign digits, Spells s sign digits ∧ digits.length ≤ digitLimit ∧
      n = sign.apply (placeValue digits) := by
  constructor
  · intro hread
    rcases spells_or_notAnInteger s with ⟨sign, digits, h⟩ | hforeign
    · rw [h.read] at hread
      split at hread
      · next hlength =>
        cases hread
        exact ⟨sign, digits, h, hlength, rfl⟩
      · cases hread
    · rw [hforeign] at hread
      cases hread
  · rintro ⟨sign, digits, h, hlength, rfl⟩
    rw [h.read, if_pos hlength]

theorem read_eq_notAnInteger_iff :
    read s = .error .notAnInteger ↔ ¬ ∃ sign digits, Spells s sign digits := by
  constructor
  · rintro hread ⟨sign, digits, h⟩
    rw [h.read] at hread
    split at hread <;> cases hread
  · exact (spells_or_notAnInteger s).resolve_left

theorem read_eq_tooLong_iff {count : Nat} :
    read s = .error (.tooLong count) ↔ ∃ sign digits, Spells s sign digits ∧
      digitLimit < digits.length ∧ count = digits.length := by
  constructor
  · intro hread
    rcases spells_or_notAnInteger s with ⟨sign, digits, h⟩ | hforeign
    · rw [h.read] at hread
      split at hread
      · cases hread
      · next hlength =>
        cases hread
        exact ⟨sign, digits, h, Nat.lt_of_not_le hlength, rfl⟩
    · rw [hforeign] at hread
      cases hread
  · rintro ⟨sign, digits, h, hlength, rfl⟩
    rw [h.read, if_neg (Nat.not_le_of_lt hlength)]

end Read

def Sign.of (n : Int) : Sign := if n < 0 then .minus else .none

theorem Sign.apply_of (n : Int) : (of n).apply n.natAbs = n := by
  unfold of
  split
  · show -(n.natAbs : Int) = n
    omega
  · show (n.natAbs : Int) = n
    omega

def padding (zeros n : Nat) : List Char := List.replicate zeros '0' ++ Nat.toDigits 10 n

def padded (sign : Sign) (zeros n : Nat) : String := String.ofList (sign.text ++ padding zeros n)

theorem spells_padded (sign : Sign) (zeros n : Nat) :
    Spells (padded sign zeros n) sign (padding zeros n) := by
  refine ⟨String.toList_ofList, ?_, ?_⟩
  · exact List.append_ne_nil_of_right_ne_nil _ Nat.toDigits_ne_nil
  · intro c hc
    rcases List.mem_append.mp hc with hzero | hdigit
    · rw [List.eq_of_mem_replicate hzero]
      decide
    · exact (isDigit_iff c).mp (Nat.isDigit_of_mem_toDigits (by decide) (by decide) hdigit)

/-- Zeros in front do not count. -/
theorem placeValue_padding (zeros n : Nat) : placeValue (padding zeros n) = n := by
  have hzeros : value (List.replicate zeros '0') = 0 := by
    induction zeros with
    | zero => rfl
    | succ zeros ih =>
      rw [List.replicate_succ', value_concat, ih]
      rfl
  rw [← value_eq_placeValue]
  calc
    value (padding zeros n)
      = Nat.ofDigitChars 10 (Nat.toDigits 10 n) (value (List.replicate zeros '0')) :=
        Nat.ofDigitChars_append 0
    _ = n := by rw [hzeros, Nat.ofDigitChars_ten_toDigits]

/-- A number reads back with any zeros in front that leave it within the limit. -/
theorem read_padded (sign : Sign) {zeros n : Nat}
    (h : zeros + (Nat.toDigits 10 n).length ≤ digitLimit) :
    read (padded sign zeros n) = .ok (sign.apply n) := by
  have hlength : (padding zeros n).length ≤ digitLimit := by
    rw [padding, List.length_append, List.length_replicate]
    exact h
  rw [(spells_padded sign zeros n).read, if_pos hlength, placeValue_padding]

/-- The text of an integer is its sign and its digits. -/
theorem padded_of (n : Int) : padded (.of n) 0 n.natAbs = toString n := by
  apply String.toList_injective
  rw [padded, String.toList_ofList]
  cases n with
  | ofNat m => exact (Nat.toList_repr ..).symm
  | negSucc m =>
    have hsign : Sign.of (Int.negSucc m) = .minus := if_pos (Int.negSucc_lt_zero m)
    have hdigits : (Nat.repr (m + 1)).toList = Nat.toDigits 10 (m + 1) := Nat.toList_repr
    rw [hsign]
    show '-' :: Nat.toDigits 10 (m + 1) = ("-" ++ Nat.repr (m + 1)).toList
    rw [String.toList_append, hdigits]
    rfl

end Numeral

open Numeral

def Property.IsNumber : Property → Prop
  | kvTimeoutMillis | kvEndpoints | durability | persistTo | replicateTo => True
  | host | bucket | username | password => False

namespace Properties

/-- Whatever else is asked of a number, an unreadable text is refused for being unreadable. -/
theorem probe_text {p : Property} (hp : p.IsNumber) (s : String) (u : Unreadable) :
    probe p (.text s) = .error (.unreadable u) ↔
      (Value.text s).readInt = .error (.unreadable u) := by
  cases p with
  | host | bucket | username | password => exact absurd hp id
  | kvTimeoutMillis =>
    simp only [probe, readPositive]
    cases (Value.text s).readInt with
    | error e => simp [Except.map]
    | ok n => by_cases hn : n ≤ 0 <;> simp [Except.map, hn]
  | kvEndpoints =>
    simp only [probe, readAtLeastOne]
    cases (Value.text s).readInt with
    | error e => simp [Except.map]
    | ok n => by_cases hn : n < 1 <;> simp [Except.map, hn]
  | durability | persistTo | replicateTo =>
    simp only [probe, readLevel]
    cases (Value.text s).readInt <;> simp [Except.map]

/-- Validation complains of a text that is in force for a number exactly if it cannot be read. -/
theorem unreadable_mem_problems {given : RawProperties} {p : Property} (hp : p.IsNumber)
    {spelling s : String} (h : effective? (inForce given) p = some (spelling, .text s))
    (u : Unreadable) :
    ⟨p, spelling, .unreadable u⟩ ∈ problems given ↔
      (Value.text s).readInt = .error (.unreadable u) := by
  rw [← probe_text hp, problems_eq, List.mem_flatMap]
  constructor
  · rintro ⟨q, -, hmem⟩
    obtain rfl : p = q := property_of_mem_problem hmem
    cases hfield : field (inForce given) p () (probe p) with
    | ok _ =>
      rw [hfield] at hmem
      cases hmem
    | error e =>
      rw [hfield] at hmem
      obtain rfl := List.mem_singleton.mp hmem
      obtain ⟨spelling', v, problem, heffective, hprobe, heq⟩ := field_eq_error_iff.mp hfield
      rw [h] at heffective
      cases heffective
      cases heq
      exact hprobe
  · intro hprobe
    have hfield : field (inForce given) p () (probe p) = .error ⟨p, spelling, .unreadable u⟩ :=
      field_eq_error_iff.mpr ⟨spelling, .text s, .unreadable u, h, hprobe, rfl⟩
    refine ⟨p, p.mem_all, ?_⟩
    rw [hfield]
    exact List.mem_singleton.mpr rfl

end Properties

structure Value.Judged (s : String) : Prop where
  integer : ∀ n, (text s).readInt = .ok n ↔ ∃ sign digits, Spells s sign digits ∧
    digits.length ≤ 4300 ∧ n = sign.apply (placeValue digits)
  foreign : (text s).readInt = .error (.unreadable .notAnInteger) ↔
    ¬ ∃ sign digits, Spells s sign digits
  overlong : ∀ count, (text s).readInt = .error (.unreadable (.tooLong count)) ↔
    ∃ sign digits, Spells s sign digits ∧ 4300 < digits.length ∧ count = digits.length
  -- blanks, line ends, underscores, points, exponents and the digits of other scripts
  stray : ∀ c ∈ s.toList, c ≠ '+' → c ≠ '-' → ¬ ('0' ≤ c ∧ c ≤ '9') →
    (text s).readInt = .error (.unreadable .notAnInteger)
  reported : ∀ (p : Property) (given : RawProperties) spelling, p.IsNumber →
    Properties.effective? (Properties.inForce given) p = some (spelling, text s) → ∀ u,
      ⟨p, spelling, .unreadable u⟩ ∈ Properties.problems given ↔
        (text s).readInt = .error (.unreadable u)

namespace Value

theorem readInt_text_eq_ok_iff {s : String} {n : Int} :
    (text s).readInt = .ok n ↔ read s = .ok n :=
  Properties.readInt_text_iff.trans read_eq_ok_iff.symm

theorem readInt_text_eq_error_iff {s : String} {u : Unreadable} :
    (text s).readInt = .error (.unreadable u) ↔ read s = .error u := by
  rw [readInt]
  cases read s <;> simp [Except.mapError]

theorem judged (s : String) : Judged s where
  integer _ := readInt_text_eq_ok_iff.trans read_eq_ok_iff_spells
  foreign := readInt_text_eq_error_iff.trans read_eq_notAnInteger_iff
  overlong _ := readInt_text_eq_error_iff.trans read_eq_tooLong_iff
  stray c hc hplus hminus hdigit := by
    rw [readInt_text_eq_error_iff, read_eq_notAnInteger_iff]
    rintro ⟨sign, digits, h⟩
    rcases h.mem_toList hc with rfl | rfl | hdecimal
    · exact hplus rfl
    · exact hminus rfl
    · exact hdigit hdecimal
  reported _ _ _ hp h u := Properties.unreadable_mem_problems hp h u

/-- A text of the grammar that is too long is told how many digits it has. -/
theorem message_tooLong (count : Nat) :
    (Problem.unreadable (.tooLong count)).message =
      "Value error, Exceeds the limit (4300 digits) for integer string conversion: value has " ++
        toString count ++ " digits; use sys.set_int_max_str_digits() to increase the limit" := by
  have hopening : "Value error, Exceeds the limit (" ++ toString digitLimit ++
      " digits) for integer string " ++ "conversion: value has " =
      "Value error, Exceeds the limit (4300 digits) for integer string conversion: value has " := by
    decide +kernel
  have hclosing : " digits; " ++ "use sys.set_int_max_str_digits() to increase the limit" =
      " digits; use sys.set_int_max_str_digits() to increase the limit" := by decide +kernel
  calc
    _ = "Value error, Exceeds the limit (" ++ toString digitLimit ++
        " digits) for integer string " ++ ("conversion: value has " ++ toString count ++
        " digits; ") ++ "use sys.set_int_max_str_digits() to increase the limit" := rfl
    _ = _ := by
      rw [← hopening, ← hclosing]
      simp only [String.append_assoc]

/-- Every text is judged by the grammar, with a message for each way to fail, and every integer of
no more digits than the limit is what its own text means, also with a plus sign if it is not
negative, and with as many zeros in front as the limit leaves room for. -/
theorem integers_read :
    (∀ s, Judged s) ∧
    (Problem.unreadable .notAnInteger).message = "Value error, must be an integer" ∧
    (∀ count : Nat, (Problem.unreadable (.tooLong count)).message =
      "Value error, Exceeds the limit (4300 digits) for integer string conversion: value has " ++
        toString count ++ " digits; use sys.set_int_max_str_digits() to increase the limit") ∧
    ∀ (n : Int) (zeros : Nat), zeros + (Nat.toDigits 10 n.natAbs).length ≤ 4300 →
      (text (toString n)).readInt = .ok n ∧
      (text (padded (.of n) zeros n.natAbs)).readInt = .ok n ∧
      (0 ≤ n → (text (padded .plus zeros n.natAbs)).readInt = .ok n) := by
  refine ⟨judged, rfl, message_tooLong, fun n zeros h => ⟨?_, ?_, fun hn => ?_⟩⟩
  · rw [readInt_text_eq_ok_iff, ← padded_of, read_padded _ (Nat.le_trans (by omega) h),
      Sign.apply_of]
  · rw [readInt_text_eq_ok_iff, read_padded _ h, Sign.apply_of]
  · rw [readInt_text_eq_ok_iff, read_padded _ h]
    exact congrArg Except.ok (Int.natAbs_of_nonneg hn)

/-- Leading zeros and a plus sign are read over, and neither an underscore nor a line end is. -/
theorem integers_read_plain :
    2 + (Nat.toDigits 10 (7 : Int).natAbs).length ≤ 4300 ∧ (0 : Int) ≤ 7 ∧
    (text (padded .plus 2 7)).readInt = .ok 7 ∧ padded .plus 2 7 = "+007" ∧
    (text "1_0").readInt = .error (.unreadable .notAnInteger) ∧
    (text "10\n").readInt = .error (.unreadable .notAnInteger) := by
  refine ⟨by decide, by decide, ?_, by decide +kernel, ?_, ?_⟩
  · exact (integers_read.2.2.2 7 2 (by decide)).2.2 (by decide)
  · exact (integers_read.1 "1_0").stray '_' (by decide) (by decide) (by decide) (by decide)
  · exact (integers_read.1 "10\n").stray '\n' (by decide) (by decide) (by decide) (by decide)

end Value

end StoreBinding
