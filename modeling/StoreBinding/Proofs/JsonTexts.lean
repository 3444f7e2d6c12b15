import Mathlib.Data.List.Basic
import StoreBinding.Text.JsonString

/-!
How a JSON text is read: blanks, strings with every escape, numbers, arrays and objects, at any
depth. A string is read unit by unit, and then pairs of surrogates are joined; one on its own is
no character, and the text is refused. Main statement: an object whose names and values are
written in seven-bit form reads as these names and values, in their order.
-/
namespace StoreBinding

open Text (Units)

/-- What a JSON text stands for. A number is kept as it is written, and an object keeps the order
of its members. -/
inductive Json
  | null
  | bool (b : Bool)
  | number (text : String)
  | string (s : String)
  | array (items : List Json)
  | object (members : List (String × Json))
deriving Repr

namespace Json

def isBlank (c : Char) : Bool := c = ' ' || c = '\t' || c = '\n' || c = '\r'

def skipBlanks (s : List Char) : List Char := s.dropWhile isBlank

def hexValue? (c : Char) : Option Nat :=
  if '0' ≤ c ∧ c ≤ '9' then some (c.toNat - '0'.toNat)
  else if 'a' ≤ c ∧ c ≤ 'f' then some (c.toNat - 'a'.toNat + 10)
  else if 'A' ≤ c ∧ c ≤ 'F' then some (c.toNat - 'A'.toNat + 10)
  else none

def hexUnit? (digits : List Char) (u : Nat) : Option Nat :=
  digits.foldlM (fun u c => (hexValue? c).map (16 * u + ·)) u

def escaped? : Char → Option Nat
  | '"' => some 0x22
  | '\\' => some 0x5c
  | '/' => some 0x2f
  | 'b' => some 0x08
  | 'f' => some 0x0c
  | 'n' => some 0x0a
  | 'r' => some 0x0d
  | 't' => some 0x09
  | _ => none

def units? : List Char → Option (Units × List Char)
  | [] => none
  | '"' :: s => some ([], s)
  | '\\' :: 'u' :: a :: b :: c :: d :: s => do
    let u ← hexUnit? [a, b, c, d] 0
    let (us, s) ← units? s
    return (u :: us, s)
  | '\\' :: c :: s => do
    let u ← escaped? c
    let (us, s) ← units? s
    return (u :: us, s)
  | c :: s =>
    if c.toNat < 0x20 then none
    else (units? s).map fun (us, s) => (Units.ofChar c ++ us, s)

def joined? : Units → Option (List Char)
  | [] => some []
  | u :: us =>
    if u < 0xd800 ∨ 0xdfff < u then (joined? us).map (Char.ofNat u :: ·)
    else
      match us with
      | [] => none
      | v :: us =>
        if u < 0xdc00 ∧ 0xdc00 ≤ v ∧ v ≤ 0xdfff then
          (joined? us).map (Char.ofNat (0x10000 + (u - 0xd800) * 0x400 + (v - 0xdc00)) :: ·)
        else none

def string? (s : List Char) : Option (String × List Char) := do
  let (us, s) ← units? s
  let l ← joined? us
  return (String.ofList l, s)

def digits? (s : List Char) : Option (List Char) :=
  if (s.takeWhile Char.isDigit).isEmpty then none else some (s.dropWhile Char.isDigit)

def whole? : List Char → Option (List Char)
  | '0' :: s => some s
  | s => digits? s

def fraction? : List Char → Option (List Char)
  | '.' :: s => digits? s
  | s => some s

def exponent? : List Char → Option (List Char)
  | 'e' :: '+' :: s | 'E' :: '+' :: s | 'e' :: '-' :: s | 'E' :: '-' :: s
  | 'e' :: s | 'E' :: s => digits? s
  | s => some s

def number? (s : List Char) : Option (Json × List Char) := do
  let unsigned := match s with
    | '-' :: s => s
    | s => s
  let rest ← exponent? (← fraction? (← whole? unsigned))
  return (.number (String.ofList (s.take (s.length - rest.length))), rest)

def scalar? : List Char → Option (Json × List Char)
  | 'n' :: 'u' :: 'l' :: 'l' :: s => some (.null, s)
  | 't' :: 'r' :: 'u' :: 'e' :: s => some (.bool true, s)
  | 'f' :: 'a' :: 'l' :: 's' :: 'e' :: s => some (.bool false, s)
  | s => number? s

def name? (s : List Char) : Option (String × List Char) :=
  match skipBlanks s with
  | '"' :: s => do
    let (name, s) ← string? s
    match skipBlanks s with
    | ':' :: s => some (name, s)
    | _ => none
  | _ => none

mutual

/-- Reads a value, and gives what is behind it. Two steps read at least one character, so a bound
of more than twice the length is never what ends it. -/
def value? : Nat → List Char → Option (Json × List Char)
  | 0, _ => none
  | bound + 1, s =>
    match skipBlanks s with
    | '"' :: s => (string? s).map fun (text, s) => (.string text, s)
    | '[' :: s =>
      match skipBlanks s with
      | ']' :: s => some (.array [], s)
      | s => (items? bound s).map fun (items, s) => (.array items, s)
    | '\x7b' :: s =>
      match skipBlanks s with
      | '\x7d' :: s => some (.object [], s)
      | s => (members? bound s).map fun (members, s) => (.object members, s)
    | s => scalar? s

def items? : Nat → List Char → Option (List Json × List Char)
  | 0, _ => none
  | bound + 1, s => do
    let (v, s) ← value? bound s
    match skipBlanks s with
    | ']' :: s => some ([v], s)
    | ',' :: s => (items? bound s).map fun (vs, s) => (v :: vs, s)
    | _ => none

def members? : Nat → List Char → Option (List (String × Json) × List Char)
  | 0, _ => none
  | bound + 1, s => do
    let (name, s) ← name? s
    let (v, s) ← value? bound s
    match skipBlanks s with
    | '\x7d' :: s => some ([(name, v)], s)
    | ',' :: s => (members? bound s).map fun (ms, s) => ((name, v) :: ms, s)
    | _ => none

end

def read (text : String) : Option Json :=
  match value? (2 * text.length + 1) text.toList with
  | some (v, rest) => if (skipBlanks rest).isEmpty then some v else none
  | none => none

/-! ### Units -/

theorem hexValue?_digitChar {d : Nat} (h : d < 16) : hexValue? (Nat.digitChar d) = some d := by
  have hall : ∀ d < 16, hexValue? (Nat.digitChar d) = some d := by decide
  exact hall d h

theorem hexUnit?_append (l m : List Char) (u : Nat) :
    hexUnit? (l ++ m) u = (hexUnit? l u).bind (hexUnit? m) := List.foldlM_append ..

theorem hexUnit?_zeros (n : Nat) : hexUnit? (List.replicate n '0') 0 = some 0 := by
  induction n with
  | zero => rfl
  | succ n ih => exact ih

theorem hexUnit?_toDigits (n : Nat) : hexUnit? (Nat.toDigits 16 n) 0 = some n := by
  induction n using Nat.strongRecOn with
  | ind n ih =>
    by_cases hone : n < 16
    · rw [Nat.toDigits_of_lt_base hone, hexUnit?, List.foldlM_cons, hexValue?_digitChar hone]
      simp
    · have hmod : n % 16 < 16 := Nat.mod_lt _ (by decide)
      rw [Nat.toDigits_of_base_le (by decide) (by omega), hexUnit?_append, ih (n / 16) (by omega),
        Option.bind_some, hexUnit?, List.foldlM_cons, hexValue?_digitChar hmod]
      simp only [Option.map_some, Option.bind_eq_bind, Option.bind_some, List.foldlM_nil,
        Option.pure_def, Option.some.injEq]
      omega

/-- A unit has four digits, which read as the unit. -/
theorem exists_hex {u : Nat} (h : u < 0x10000) :
    ∃ a b c d, (Text.hex 4 u).toList = [a, b, c, d] ∧ hexUnit? [a, b, c, d] 0 = some u := by
  have hlist : (Text.hex 4 u).toList = (Nat.toDigits 16 u).leftpad 4 '0' := String.toList_ofList
  have hlength : ((Nat.toDigits 16 u).leftpad 4 '0').length = 4 := by
    rw [List.length_leftpad]
    exact Nat.max_eq_left ((Nat.length_toDigits_le_iff (by decide) (by decide)).mpr h)
  have hread : hexUnit? ((Nat.toDigits 16 u).leftpad 4 '0') 0 = some u := by
    rw [List.leftpad, hexUnit?_append, hexUnit?_zeros, Option.bind_some, hexUnit?_toDigits]
  rw [hlist]
  generalize (Nat.toDigits 16 u).leftpad 4 '0' = l at hlength hread
  match l, hlength with
  | [a, b, c, d], _ => exact ⟨a, b, c, d, rfl, hread⟩

theorem units?_char {c : Char} (hquote : c ≠ '"') (hslash : c ≠ '\\') (h : 0x20 ≤ c.toNat)
    (s : List Char) :
    units? (c :: s) = (units? s).map fun (us, s) => (Units.ofChar c ++ us, s) := by
  rw [units?]
  · exact if_neg (Nat.not_lt.mpr h)
  · exact hquote
  · exact fun _ _ _ _ _ h _ => hslash h
  · exact fun _ _ h _ => hslash h

theorem units?_letter {l : Char} {u : Nat} (h : escaped? l = some u) (s : List Char) :
    units? ('\\' :: l :: s) = (units? s).map fun (us, s) => (u :: us, s) := by
  have hu : l ≠ 'u' := by
    rintro rfl
    have hnone : escaped? 'u' = none := rfl
    rw [hnone] at h
    cases h
  rw [units?]
  · rw [h]
    cases units? s <;> rfl
  · exact fun _ _ _ _ _ h _ => hu h

theorem escaped?_of_letter? {u : Nat} {l : Char} (h : Text.JsonString.letter? u = some l) :
    escaped? l = some u := by
  unfold Text.JsonString.letter? at h
  split at h <;> first | cases h; rfl | cases h

theorem toNat_ofNat_of_isVisible {u : Nat} (h : Text.JsonString.isVisible u = true) :
    (Char.ofNat u).toNat = u ∧ 0x20 ≤ u ∧ u ≤ 0x7e := by
  simp only [Text.JsonString.isVisible, Bool.and_eq_true, decide_eq_true_eq] at h
  have hvalid : u.isValidChar := Or.inl (by omega)
  exact ⟨by rw [Char.ofNat, dif_pos hvalid]; rfl, h⟩

/-- A written unit is read back, whatever is behind it. -/
theorem units?_encodeUnit {u : Nat} (h : u < 0x10000) (s : List Char) :
    units? (Text.JsonString.encodeUnit u ++ s) = (units? s).map fun (us, s) => (u :: us, s) := by
  unfold Text.JsonString.encodeUnit
  split
  · next l hl => exact units?_letter (escaped?_of_letter? hl) s
  · next hl =>
    split
    · next hvisible =>
      obtain ⟨hnat, hlow, hhigh⟩ := toNat_ofNat_of_isVisible hvisible
      have hchar : Units.ofChar (Char.ofNat u) = [u] := by
        rw [Units.ofChar, hnat, Units.ofPoint, if_pos h]
      -- quote and backslash are written by letters, so this character is neither
      have hne : ∀ d : Char, (Text.JsonString.letter? d.toNat).isSome → Char.ofNat u ≠ d := by
        rintro d hd rfl
        rw [hnat, hl] at hd
        cases hd
      rw [List.singleton_append, units?_char (hne '"' rfl) (hne '\\' rfl) (hnat.symm ▸ hlow),
        hchar]
      rfl
    · obtain ⟨a, b, c, d, hdigits, hread⟩ := exists_hex h
      rw [hdigits]
      show units? ('\\' :: 'u' :: a :: b :: c :: d :: s) = _
      rw [units?, hread]
      cases units? s <;> rfl

theorem units?_flatMap {us : Units} (h : ∀ u ∈ us, u < 0x10000) (s : List Char) :
    units? (us.flatMap Text.JsonString.encodeUnit ++ '"' :: s) = some (us, s) := by
  induction us with
  | nil => rfl
  | cons u us ih =>
    have hus : ∀ v ∈ us, v < 0x10000 := fun v hv => h v (List.mem_cons_of_mem u hv)
    rw [List.flatMap_cons, List.append_assoc, units?_encodeUnit (h u List.mem_cons_self), ih hus]
    rfl

/-! ### Characters -/

theorem lt_of_mem_ofPoint {n u : Nat} (hn : n < 0x110000) (h : u ∈ Units.ofPoint n) :
    u < 0x10000 := by
  unfold Units.ofPoint at h
  split at h
  · next hsmall => rwa [List.mem_singleton.mp h]
  · simp only [List.mem_cons, List.not_mem_nil, or_false] at h
    omega

theorem lt_of_mem_ofString {s : String} {u : Nat} (h : u ∈ Units.ofString s) : u < 0x10000 := by
  obtain ⟨c, -, hu⟩ := List.mem_flatMap.mp h
  have hc : c.toNat < 0xd800 ∨ 0xdfff < c.toNat ∧ c.toNat < 0x110000 := c.valid
  exact lt_of_mem_ofPoint (by omega) hu

theorem joined?_plain {u : Nat} (h : u < 0xd800 ∨ 0xdfff < u) (us : Units) :
    joined? (u :: us) = (joined? us).map (Char.ofNat u :: ·) := by
  rw [joined?.eq_def]
  exact if_pos h

theorem joined?_pair {u v : Nat} (hu : 0xd800 ≤ u ∧ u < 0xdc00) (hv : 0xdc00 ≤ v ∧ v ≤ 0xdfff)
    (us : Units) :
    joined? (u :: v :: us) =
      (joined? us).map (Char.ofNat (0x10000 + (u - 0xd800) * 0x400 + (v - 0xdc00)) :: ·) := by
  rw [joined?.eq_def]
  exact (if_neg (by omega)).trans (if_pos ⟨hu.2, hv⟩)

theorem joined?_ofChar (c : Char) (us : Units) :
    joined? (Units.ofChar c ++ us) = (joined? us).map (c :: ·) := by
  have hc : c.toNat < 0xd800 ∨ 0xdfff < c.toNat ∧ c.toNat < 0x110000 := c.valid
  unfold Units.ofChar Units.ofPoint
  split
  · rw [List.singleton_append, joined?_plain (by omega), Char.ofNat_toNat]
  · have hpoint : 0x10000 + (0xd800 + (c.toNat - 0x10000) / 0x400 - 0xd800) * 0x400 +
        (0xdc00 + (c.toNat - 0x10000) % 0x400 - 0xdc00) = c.toNat := by omega
    rw [List.cons_append, List.singleton_append, joined?_pair (by omega) (by omega), hpoint,
      Char.ofNat_toNat]

theorem joined?_ofString (s : String) : joined? (Units.ofString s) = some s.toList := by
  unfold Units.ofString
  induction s.toList with
  | nil => rfl
  | cons c l ih =>
    rw [List.flatMap_cons, joined?_ofChar, ih]
    rfl

/-! ### Strings and members -/

def written (s : String) : List Char :=
  (Units.ofString s).flatMap Text.JsonString.encodeUnit ++ ['"']

theorem toList_encode (s : String) :
    (Text.JsonString.encode s).toList = '"' :: written s := by
  simp only [Text.JsonString.encode, Text.JsonString.encodeUnits, String.toList_append,
    String.toList_ofList, written]
  rfl

/-- A written string is read back. -/
theorem string?_written (s : String) (rest : List Char) :
    string? (written s ++ rest) = some (s, rest) := by
  rw [string?, written, List.append_assoc, List.singleton_append,
    units?_flatMap fun _ => lt_of_mem_ofString]
  simp [joined?_ofString]

def member (p : String × String) : List Char :=
  '"' :: written p.1 ++ ':' :: ' ' :: '"' :: written p.2

theorem name?_member (p : String × String) (rest : List Char) :
    name? (member p ++ rest) = some (p.1, ' ' :: '"' :: written p.2 ++ rest) := by
  have hsplit : member p ++ rest =
      '"' :: (written p.1 ++ ':' :: ' ' :: '"' :: written p.2 ++ rest) := by
    simp only [member, List.cons_append, List.append_assoc]
  rw [hsplit]
  show (string? (written p.1 ++ ':' :: ' ' :: '"' :: written p.2 ++ rest)).bind _ = _
  rw [List.append_assoc, string?_written]
  rfl

theorem value?_written (bound : Nat) (s : String) (rest : List Char) :
    value? (bound + 1) (' ' :: '"' :: written s ++ rest) = some (.string s, rest) := by
  show (string? (written s ++ rest)).map _ = _
  rw [string?_written]
  rfl

theorem members?_blank (bound : Nat) (s : List Char) :
    members? bound (' ' :: s) = members? bound s := by
  cases bound <;> rfl

theorem members?_member (bound : Nat) (p : String × String) (rest : List Char) :
    members? (bound + 2) (member p ++ rest) =
      match skipBlanks rest with
      | '\x7d' :: s => some ([(p.1, .string p.2)], s)
      | ',' :: s => (members? (bound + 1) s).map fun (ms, s) => ((p.1, .string p.2) :: ms, s)
      | _ => none := by
  rw [members?, name?_member]
  simp only [Option.bind_eq_bind, Option.bind_some]
  rw [value?_written]
  rfl

/-- Members with texts as their values are read back. -/
theorem members?_written (p : String × String) (ps : List (String × String)) {bound : Nat}
    (h : ps.length < bound) (rest : List Char) :
    members? (bound + 1) ([',', ' '].intercalate ((p :: ps).map member) ++ '\x7d' :: rest) =
      some ((p :: ps).map fun p => (p.1, .string p.2), rest) := by
  -- on the members behind the first; a blank after the comma leads to the next one
  induction ps generalizing p bound with
  | nil =>
    cases bound with
    | zero => exact absurd h (Nat.lt_irrefl 0)
    | succ bound =>
      rw [List.map_singleton, List.intercalate_singleton, members?_member]
      rfl
  | cons q qs ih =>
    cases bound with
    | zero => exact absurd h (Nat.not_lt_zero _)
    | succ bound =>
      have hlater := ih q (Nat.lt_of_succ_lt_succ h)
      rw [List.map_cons, List.map_cons, List.intercalate_cons_cons, ← List.map_cons,
        List.append_assoc, List.append_assoc, members?_member]
      show (members? (bound + 1) (' ' :: ([',', ' '].intercalate ((q :: qs).map member) ++
        '\x7d' :: rest))).map _ = _
      rw [members?_blank, hlater]
      rfl

theorem exists_quoted (p : String × String) (ps : List (String × String)) :
    ∃ s, [',', ' '].intercalate ((p :: ps).map member) = '"' :: s := by
  cases ps with
  | nil => exact ⟨_, List.intercalate_singleton⟩
  | cons q qs =>
    rw [List.map_cons, List.map_cons, List.intercalate_cons_cons]
    exact ⟨_, rfl⟩

theorem value?_object (p : String × String) (ps : List (String × String)) {bound : Nat}
    (h : ps.length < bound) (rest : List Char) :
    value? (bound + 2) ('\x7b' ::
        ([',', ' '].intercalate ((p :: ps).map member) ++ '\x7d' :: rest)) =
      some (.object ((p :: ps).map fun p => (p.1, .string p.2)), rest) := by
  have hmembers := members?_written p ps h rest
  obtain ⟨s, hs⟩ := exists_quoted p ps
  rw [hs] at hmembers ⊢
  show (members? (bound + 1) ('"' :: s ++ '\x7d' :: rest)).map _ = _
  rw [hmembers]
  rfl

theorem length_le_written (ps : List (String × String)) :
    ps.length ≤ ([',', ' '].intercalate (ps.map member)).length := by
  induction ps with
  | nil => exact Nat.zero_le _
  | cons p ps ih =>
    cases ps with
    | nil => exact Nat.succ_le_succ (Nat.zero_le _)
    | cons q qs =>
      rw [List.map_cons, List.map_cons, List.intercalate_cons_cons, ← List.map_cons,
        List.length_append, List.length_append]
      simp only [List.length_cons] at ih ⊢
      omega

/-- An object with texts as its values is read back. -/
theorem read_written {p : String × String} {ps : List (String × String)} {text : String}
    (h : text.toList = '\x7b' :: ([',', ' '].intercalate ((p :: ps).map member) ++ ['\x7d'])) :
    read text = some (.object ((p :: ps).map fun p => (p.1, .string p.2))) := by
  have htext : text.length = ([',', ' '].intercalate ((p :: ps).map member)).length + 2 := by
    rw [← String.length_toList, h]
    simp only [List.length_cons, List.length_append, List.length_nil]
  have hbound : ∃ bound, 2 * text.length + 1 = bound + 2 ∧ ps.length < bound := by
    have hmembers := length_le_written (p :: ps)
    rw [List.length_cons] at hmembers
    exact ⟨2 * text.length - 1, by omega, by omega⟩
  obtain ⟨bound, hbound, hlong⟩ := hbound
  rw [read, h, hbound, value?_object p ps hlong]
  rfl

/-- Blanks and every kind of value are read; a comma with nothing behind it is refused, and so is
a surrogate on its own. -/
example :
    (read " [null, true, -0.5e+1, \"\\u00E9\\/\", \x7b\"a\": []\x7d ]\n").isSome = true ∧
      (read "[1,]").isSome = false ∧ (read "\"\\ud83d\"").isSome = false := by
  decide +kernel

end Json

end StoreBinding
