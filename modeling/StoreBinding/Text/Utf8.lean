import StoreBinding.Text.Hex

/-!
Strict UTF-8. Bytes either are the encoding of exactly one text, or there is a first
place where they stop being one; that place is reported with the longest stretch of
bytes that could still have begun a character. Main statement: decoding succeeds
exactly on encodings.
-/
namespace StoreBinding.Text.Utf8

inductive Defect
  | badStart
  | badContinuation
  | truncated
deriving DecidableEq, Repr

/-- Where bytes stop being UTF-8: the position of the first byte of the ill-formed stretch,
its length and its first byte. -/
structure Malformed where
  defect : Defect
  start : Nat
  length : Nat
  lead : UInt8
deriving DecidableEq, Repr

/-- What a leading byte asks for: how many bytes follow, and the range of the first of them. -/
structure Lead where
  tail : Nat
  low : UInt8
  high : UInt8

/-- Overlong forms, surrogates and code points beyond the last plane are excluded by the
leading byte itself or by the range of the byte after it. -/
def lead? (b : UInt8) : Option Lead :=
  if b < 0x80 then some ⟨0, 0x80, 0xbf⟩
  else if b < 0xc2 then none
  else if b < 0xe0 then some ⟨1, 0x80, 0xbf⟩
  else if b = 0xe0 then some ⟨2, 0xa0, 0xbf⟩
  else if b = 0xed then some ⟨2, 0x80, 0x9f⟩
  else if b < 0xf0 then some ⟨2, 0x80, 0xbf⟩
  else if b = 0xf0 then some ⟨3, 0x90, 0xbf⟩
  else if b < 0xf4 then some ⟨3, 0x80, 0xbf⟩
  else if b = 0xf4 then some ⟨3, 0x80, 0x8f⟩
  else none

/-- Reads the bytes after a leading one. On failure it gives the defect and how many of them
were still good; `none` means all were there. -/
def tailDefect? : Nat → UInt8 → UInt8 → List UInt8 → Option (Defect × Nat)
  | 0, _, _, _ => none
  | _ + 1, _, _, [] => some (.truncated, 0)
  | n + 1, low, high, b :: rest =>
    if low ≤ b ∧ b ≤ high then
      (tailDefect? n 0x80 0xbf rest).map fun (d, good) => (d, good + 1)
    else some (.badContinuation, 0)

/-- The first ill-formed stretch of a byte sequence that starts at the given position. -/
def firstDefect? (position : Nat) : List UInt8 → Option Malformed
  | [] => none
  | b :: rest =>
    match lead? b with
    | none => some ⟨.badStart, position, 1, b⟩
    | some l =>
      match tailDefect? l.tail l.low l.high rest with
      | some (d, good) => some ⟨d, position, good + 1, b⟩
      | none => firstDefect? (position + l.tail + 1) (rest.drop l.tail)
termination_by bytes => bytes.length
decreasing_by
  simp only [List.length_drop, List.length_cons]
  omega

def decode (bytes : ByteArray) : Except Malformed String :=
  if h : bytes.IsValidUTF8 then .ok (String.fromUTF8 bytes h)
  else .error ((firstDefect? 0 bytes.toList).getD ⟨.truncated, 0, bytes.size, 0⟩)

theorem decode_toUTF8 (s : String) : decode s.toUTF8 = .ok s := by
  have h : s.toUTF8.IsValidUTF8 := s.isValidUTF8
  simp only [decode, h, dite_true]
  rfl

theorem decode_eq_ok_iff {bytes : ByteArray} {s : String} :
    decode bytes = .ok s ↔ bytes = s.toUTF8 := by
  refine ⟨fun h => ?_, fun h => h ▸ decode_toUTF8 s⟩
  unfold decode at h
  split at h
  · cases h; rfl
  · cases h

def Defect.reason : Defect → String
  | .badStart => "invalid start byte"
  | .badContinuation => "invalid continuation byte"
  | .truncated => "unexpected end of data"

def Malformed.message (m : Malformed) : String :=
  let place :=
    if m.length = 1 then s!"byte 0x{hex 2 m.lead.toNat} in position {m.start}"
    else s!"bytes in position {m.start}-{m.start + m.length - 1}"
  s!"'utf-8' codec can't decode {place}: {m.defect.reason}"

end StoreBinding.Text.Utf8
