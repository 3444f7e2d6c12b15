import StoreBinding.Numeral.Fixed
import StoreBinding.Numeral.Word
import StoreBinding.Text.Units
import StoreBinding.Value.Text

/-!
Message templates. A percent sign starts an item: an optional key in parentheses, flags, a
width, a precision, a length letter that means nothing, and the conversion. Items use the
arguments one after the other; an item with a key takes its argument from a mapping. A
doubled percent sign stands for one. A number can ask for any code point, also for one that
is no character, so what comes out is counted in units.
-/
namespace StoreBinding

namespace Template

open Numeral (Binary64)
open Text (Units)

inductive Error
  | noMapping
  | noKey (key : String)
  | openKey
  | incomplete
  | tooFew
  | tooMany
  | starNeedsInteger
  | widthTooBig
  | precisionTooBig
  | widthOverflow
  | precisionOverflow
  | precisionTooLarge
  | noRoom
  | unsupported (conversion : Char) (index : Nat)
  | needsNumber (conversion : Char) (kind : String)
  | needsInteger (conversion : Char) (kind : String)
  | needsReal (kind : String)
  | notFinite (isNan : Bool)
  | tooLarge
  | needsCharacter
  | characterRange
  | unwritable (u : Unwritable)
deriving DecidableEq, Repr

namespace Error

def name : Error → String
  | noKey _ => "KeyError"
  | noMapping | tooFew | tooMany | starNeedsInteger | needsNumber _ _ | needsInteger _ _
  | needsReal _ | needsCharacter => "TypeError"
  | widthOverflow | precisionOverflow | precisionTooLarge | notFinite false | tooLarge
  | characterRange => "OverflowError"
  | noRoom => "MemoryError"
  | openKey | incomplete | widthTooBig | precisionTooBig | unsupported _ _ | notFinite true
  | unwritable .tooManyDigits => "ValueError"
  | unwritable (.malformed _) => "UnicodeDecodeError"

def message : Error → String
  | noMapping => "format requires a mapping"
  | noKey key => Text.Quoted.text key
  | openKey => "incomplete format key"
  | incomplete => "incomplete format"
  | tooFew => "not enough arguments for format string"
  | tooMany => "not all arguments converted during string formatting"
  | starNeedsInteger => "* wants int"
  | widthTooBig => "width too big"
  | precisionTooBig => "precision too big"
  | widthOverflow => "Python int too large to convert to C ssize_t"
  | precisionOverflow => "Python int too large to convert to C int"
  | precisionTooLarge => "precision too large"
  | noRoom => ""
  | unsupported c index =>
    let visible := if '\x1f' ≤ c ∧ c ≤ '~' then c else '?'
    s!"unsupported format character '{visible}' (0x{Text.hex 0 c.toNat}) at index {index}"
  | needsNumber c kind => s!"%{c} format: a real number is required, not {kind}"
  | needsInteger c kind => s!"%{c} format: an integer is required, not {kind}"
  | needsReal kind => "must be real number, not " ++ kind
  | notFinite true => "cannot convert float NaN to integer"
  | notFinite false => "cannot convert float infinity to integer"
  | tooLarge => "int too large to convert to float"
  | needsCharacter => "%c requires int or char"
  | characterRange => "%c arg not in range(0x110000)"
  | unwritable u => u.message

end Error

/-- The arguments that are still unused, and the mapping that keys are looked up in. -/
structure Arguments where
  mapping : Option (List (String × Value))
  unused : List Value

namespace Arguments

/-- A lone argument that is a nonempty mapping is what keys are looked up in, and is still to be
used. -/
def ofList : List Value → Arguments
  | [.mapping (entry :: entries)] => ⟨some (entry :: entries), [.mapping (entry :: entries)]⟩
  | args => ⟨none, args⟩

def next (a : Arguments) : Except Error (Value × Arguments) :=
  match a.unused with
  | [] => .error .tooFew
  | v :: rest => .ok (v, { a with unused := rest })

/-- Makes the value of a key the next argument. -/
def choose (a : Arguments) (key : String) : Except Error Arguments :=
  match a.mapping with
  | none => .error .noMapping
  | some entries =>
    match entries.lookup key with
    | none => .error (.noKey key)
    | some v => .ok { a with unused := [v] }

/-- Arguments must all be used, except that a mapping need not be. -/
def finish (a : Arguments) (out : Array Nat) : Except Error Units :=
  if a.mapping.isNone ∧ a.unused ≠ [] then .error .tooMany else .ok out.toList

end Arguments

structure Flags where
  left : Bool := false
  plus : Bool := false
  blank : Bool := false
  alternate : Bool := false
  zero : Bool := false
deriving DecidableEq, Repr

/-- How an item wants its text laid out. -/
structure Style where
  flags : Flags
  width : Nat
  precision : Option Nat
deriving DecidableEq, Repr

/-- The part of a template that is still unread, and where it starts. -/
structure Cursor where
  rest : List Char
  position : Nat

def Cursor.advance (c : Cursor) (n : Nat) : Cursor := ⟨c.rest.drop n, c.position + n⟩

/-- The length of a key up to the parenthesis that closes it, inner ones being balanced. -/
def keyLength? : Nat → List Char → Option Nat
  | _, [] => none
  | depth, ')' :: rest =>
    match depth with
    | 0 => some 0
    | d + 1 => (keyLength? d rest).map (· + 1)
  | depth, '(' :: rest => (keyLength? (depth + 1) rest).map (· + 1)
  | depth, _ :: rest => (keyLength? depth rest).map (· + 1)

def readKey (c : Cursor) (a : Arguments) : Except Error (Cursor × Arguments) :=
  match c.rest with
  | '(' :: rest =>
    if a.mapping.isNone then .error .noMapping
    else
      match keyLength? 0 rest with
      | none => .error .openKey
      | some n => (a.choose (String.ofList (rest.take n))).map fun a => (c.advance (n + 2), a)
  | _ => .ok (c, a)

def Flags.set (f : Flags) : Char → Option Flags
  | '-' => some { f with left := true }
  | '+' => some { f with plus := true }
  | ' ' => some { f with blank := true }
  | '#' => some { f with alternate := true }
  | '0' => some { f with zero := true }
  | _ => none

/-- Collects flags; the count is that of the characters read. -/
def readFlags (f : Flags) : List Char → Flags × Nat
  | [] => (f, 0)
  | c :: rest =>
    match f.set c with
    | none => (f, 0)
    | some g => let (h, n) := readFlags g rest; (h, n + 1)

/-- A number written out, or a star that takes the next argument. -/
def readSize (c : Cursor) (a : Arguments) : Except Error (Option Int × Bool × Cursor × Arguments) :=
  match c.rest with
  | '*' :: _ => do
    let (v, a) ← a.next
    match v with
    | .int n => return (some n, true, c.advance 1, a)
    | .bool b => return (some (if b then 1 else 0), true, c.advance 1, a)
    | _ => throw .starNeedsInteger
  | rest =>
    let digits := rest.takeWhile Char.isDigit
    let size : Option Int := if digits = [] then none else some (Numeral.value digits)
    .ok (size, false, c.advance digits.length, a)

/-- A negative width from an argument stands for its magnitude with the text on the left. -/
def readWidth (f : Flags) (c : Cursor) (a : Arguments) :
    Except Error (Flags × Nat × Cursor × Arguments) := do
  let (size, star, c, a) ← readSize c a
  let n := size.getD 0
  if !Numeral.fits64 n then throw (if star then .widthOverflow else .widthTooBig)
  if 0 ≤ n then return (f, n.toNat, c, a)
  return ({ f with left := true }, (Numeral.negate64 n).toNat, c, a)

def readPrecision (c : Cursor) (a : Arguments) :
    Except Error (Option Nat × Cursor × Arguments) := do
  match c.rest with
  | '.' :: _ =>
    let (size, star, c, a) ← readSize (c.advance 1) a
    let n := size.getD 0
    if !Numeral.fits32 n then throw (if star then .precisionOverflow else .precisionTooBig)
    return (some n.toNat, c, a)
  | _ => return (none, c, a)

def skipLength (c : Cursor) : Cursor :=
  match c.rest with
  | x :: _ => if x = 'h' ∨ x = 'l' ∨ x = 'L' then c.advance 1 else c
  | [] => c

/-- The widest field that there is room for. -/
def maxWidth : Nat := 0x3fffffff

/-- The most digits that an integer can be filled up to. -/
def maxDigits : Nat := 0x7ffffffc

/-- Fills a width with blanks. -/
def pad {α : Type} (s : Style) (blank : α) (text : List α) : List α :=
  let fill := List.replicate (s.width - text.length) blank
  if s.flags.left then text ++ fill else fill ++ text

def padText (s : Style) (text : List Char) : List Char := pad s ' ' text

/-- A number fills its width with blanks outside, or with zeros between the sign and the digits. -/
def padNumber (s : Style) (negative : Bool) (mark digits : List Char) : List Char :=
  let sign :=
    if negative then ['-'] else if s.flags.plus then ['+'] else if s.flags.blank then [' '] else []
  let lead := sign ++ mark
  if s.flags.zero ∧ ¬ s.flags.left then
    lead ++ List.replicate (s.width - lead.length - digits.length) '0' ++ digits
  else padText s (lead ++ digits)

def truncated (s : Style) (text : String) : List Char :=
  match s.precision with
  | none => text.toList
  | some n => text.toList.take n

def integer (s : Style) (conversion : Char) (n : Int) : Except Error String :=
  if maxDigits < s.precision.getD 0 then .error .precisionTooLarge else
  let shown := fun (mark : String) (digits : List Char) =>
    String.ofList (padNumber s (n < 0) (if s.flags.alternate then mark.toList else [])
      (digits.leftpad (s.precision.getD 0) '0'))
  match conversion with
  | 'x' => .ok (shown "0x" (Nat.toDigits 16 n.natAbs))
  | 'X' => .ok (shown "0X" ((Nat.toDigits 16 n.natAbs).map Char.toUpper))
  | 'o' => .ok (shown "0o" (Nat.toDigits 8 n.natAbs))
  | _ =>
    match Value.numeral n.natAbs with
    | .error u => .error (.unwritable u)
    | .ok digits => .ok (shown "" digits.toList)

/-- The count of places that leaves no room for the digit before them, and is taken as none. -/
def maxPlaces : Nat := 0x7fffffff

def real (s : Style) (conversion : Char) (x : Binary64) : String :=
  let places := s.precision.getD 6
  let keep := s.flags.alternate
  let (negative, digits) := match x with
    | .nan => (false, "nan".toList)
    | .infinite negative => (negative, "inf".toList)
    | .finite negative m q => (negative,
      match conversion.toLower with
      | 'e' => Numeral.scientific keep 'e' (if places = maxPlaces then 0 else places) m q
      | 'f' => Numeral.fixed keep places m q
      | _ => Numeral.general keep 'e' places m q)
  let digits := if conversion.isUpper then digits.map Char.toUpper else digits
  String.ofList (padNumber s negative [] digits)

def asInteger (conversion : Char) : Value → Except Error Int
  | .int n => .ok n
  | .bool b => .ok (if b then 1 else 0)
  | .float x =>
    if conversion = 'd' ∨ conversion = 'i' ∨ conversion = 'u' then
      match x with
      | .nan => .error (.notFinite true)
      | .infinite _ => .error (.notFinite false)
      | .finite negative m q => .ok (Binary64.truncate negative m q)
    else .error (.needsInteger conversion "float")
  | v =>
    if conversion = 'd' ∨ conversion = 'i' ∨ conversion = 'u' then
      .error (.needsNumber conversion v.kindName)
    else .error (.needsInteger conversion v.kindName)

def ofInteger (n : Int) : Except Error Binary64 :=
  match Binary64.ofInt? n with
  | some x => .ok x
  | none => .error .tooLarge

def asReal : Value → Except Error Binary64
  | .float x => .ok x
  | .int n => ofInteger n
  | .bool b => ofInteger (if b then 1 else 0)
  | v => .error (.needsReal v.kindName)

/-- The code point that a value asks for. -/
def asPoint : Value → Except Error Nat
  | .text s =>
    match s.toList with
    | [c] => .ok c.toNat
    | _ => .error .needsCharacter
  | .int n => if 0 ≤ n ∧ n < 0x110000 then .ok n.toNat else .error .characterRange
  | .bool b => .ok (if b then 1 else 0)
  | _ => .error .needsCharacter

def convert (s : Style) (conversion : Char) (index : Nat) (v : Value) : Except Error Units :=
  let asText := fun (text : Except Unwritable String) =>
    match text with
    | .error u => .error (.unwritable u)
    | .ok text => .ok ((padText s (truncated s text)).flatMap Units.ofChar)
  if conversion = 's' then asText v.shown
  else if conversion = 'r' then asText v.literal
  else if conversion = 'a' then asText (v.literal.map Text.Quoted.ascii)
  else if conversion ∈ ['d', 'i', 'u', 'x', 'X', 'o'] then do
    return .ofString (← integer s conversion (← asInteger conversion v))
  else if conversion ∈ ['e', 'E', 'f', 'F', 'g', 'G'] then do
    return .ofString (real s conversion (← asReal v))
  else if conversion = 'c' then do
    return (pad s ' '.toNat [← asPoint v]).flatMap Units.ofPoint
  else .error (.unsupported conversion index)

/-- Reads one item, from behind its percent sign, and writes its argument. -/
def item (c : Cursor) (a : Arguments) : Except Error (Units × Cursor × Arguments) := do
  let (c, a) ← readKey c a
  let (flags, n) := readFlags {} c.rest
  let (flags, width, c, a) ← readWidth flags (c.advance n) a
  let (precision, c, a) ← readPrecision c a
  let c := skipLength c
  match c.rest with
  | [] => throw .incomplete
  | conversion :: _ =>
    let (v, a) ← a.next
    let fits := width ≤ maxWidth
    let style : Style := ⟨flags, if fits then width else 0, precision⟩
    let units ← convert style conversion c.position v
    if !fits then throw .noRoom
    return (units, c.advance 1, a)

/-- Works through a template; every step reads at least one character, so the bound is never what
ends it. -/
def fill : Nat → Cursor → Arguments → Array Nat → Except Error Units
  | 0, _, a, out => a.finish out
  | bound + 1, c, a, out =>
    match c.rest with
    | [] => a.finish out
    | '%' :: '%' :: _ => fill bound (c.advance 2) a (out.push '%'.toNat)
    | '%' :: _ =>
      match item (c.advance 1) a with
      | .error e => .error e
      | .ok (units, c, a) => fill bound c a (out ++ units)
    | x :: _ => fill bound (c.advance 1) a (out ++ Units.ofChar x)

end Template

/-- A message with its arguments in place. Without arguments the template is the message. -/
def Template.format (template : String) (args : List Value) : Except Template.Error Text.Units :=
  if args.isEmpty then .ok (.ofString template)
  else Template.fill (template.length + 1) ⟨template.toList, 0⟩ (.ofList args) #[]

end StoreBinding
