import StoreBinding.OrderedMap
import StoreBinding.Text.Blank

/-!
Files of variables. An entry assigns one variable, or names one without a value, or says
nothing. A value in quotes runs to the closing quote, over line ends too, and may hold
escapes; any other ends with its line or before a comment that a space precedes. What cannot
be read is passed over up to the end of the line. References to variables in values are
replaced at the end.
-/
namespace StoreBinding.VariableFile

open Text

/-- One line feed for every way to end a line. -/
def unifyBreaks : List Char → List Char
  | [] => []
  | '\r' :: '\n' :: rest => '\n' :: unifyBreaks rest
  | '\r' :: rest => '\n' :: unifyBreaks rest
  | c :: rest => c :: unifyBreaks rest

/-- A space that does not end the line. -/
def isInline (c : Char) : Bool := isSpace c && c != '\n'

def skipInline (s : List Char) : List Char := trimLeft isInline s

def restOfLine (s : List Char) : List Char := s.dropWhile (· != '\n')

/-- What was read and what follows it, or the place where reading failed. -/
abbrev Reading (α : Type) := Except (List Char) (α × List Char)

def dropExport (s : List Char) : List Char :=
  let word := "export".toList
  let rest := s.drop word.length
  if word.isPrefixOf s ∧ rest.head?.any isInline then skipInline rest else s

/-- The name at the head of an entry; a comment has none. -/
def name (s : List Char) : Reading (Option String) :=
  match s with
  | '#' :: _ => .ok (none, s)
  | '\'' :: inner =>
    let name := inner.takeWhile (· != '\'')
    match name, inner.drop name.length with
    | _ :: _, '\'' :: rest => .ok (some (String.ofList name), rest)
    | _, _ => .error s
  | _ =>
    match s.takeWhile fun c => c != '=' && c != '#' && !isSpace c with
    | [] => .error s
    | name => .ok (some (String.ofList name), s.drop name.length)

/-- Splits off what stands before the closing quote. A backslash and the character behind it stay
together, so a quote behind a backslash closes only if that backslash is itself behind one. -/
def untilQuote? (quote : Char) : List Char → Option (List Char × List Char)
  | [] => none
  | '\\' :: c :: rest =>
    (untilQuote? quote rest).map fun (inner, after) => ('\\' :: c :: inner, after)
  | c :: rest =>
    if c = quote then some ([], rest)
    else (untilQuote? quote rest).map fun (inner, after) => (c :: inner, after)

/-- What a letter behind a backslash stands for in double quotes. -/
def doubleQuoted? : Char → Option Char
  | '\\' => some '\\'
  | '\'' => some '\''
  | '"' => some '"'
  | 'a' => some '\x07'
  | 'b' => some '\x08'
  | 'f' => some '\x0c'
  | 'n' => some '\n'
  | 'r' => some '\r'
  | 't' => some '\t'
  | 'v' => some '\x0b'
  | _ => none

/-- In single quotes only the backslash and the quote are escaped. -/
def singleQuoted? : Char → Option Char
  | '\\' => some '\\'
  | '\'' => some '\''
  | _ => none

def unescape (letter? : Char → Option Char) : List Char → List Char
  | [] => []
  | [c] => [c]
  | c :: d :: rest =>
    match if c = '\\' then letter? d else none with
    | some e => e :: unescape letter? rest
    | none => c :: unescape letter? (d :: rest)

/-- A value without quotes, cut before a comment. -/
def bare : List Char → List Char
  | [] => []
  | c :: rest =>
    if isSpace c ∧ (trimLeft isSpace rest).head? = some '#' then [] else c :: bare rest

/-- The value behind an equals sign; spaces around it do not count. -/
def value (s : List Char) : Reading String :=
  match skipInline s with
  | [] => .ok ("", [])
  | '\n' :: rest => .ok ("", '\n' :: rest)
  | c :: rest =>
    if c = '\'' ∨ c = '"' then
      match untilQuote? c rest with
      | none => .error (c :: rest)
      | some (inner, after) =>
        .ok (String.ofList (unescape (if c = '"' then doubleQuoted? else singleQuoted?) inner),
          after)
    else
      let line := s.takeWhile (· != '\n')
      .ok (String.ofList (skipInline (trimRight isSpace (bare line))), s.drop line.length)

/-- The end of an entry: spaces and a comment, and then the end of the line. -/
def ending (s : List Char) : Reading Unit :=
  let rest := skipInline s
  let rest := if rest.head? = some '#' then restOfLine rest else rest
  match rest with
  | [] => .ok ((), [])
  | '\n' :: rest => .ok ((), rest)
  | _ => .error s

/-- What an equals sign assigns, if there is one. -/
def assignment (s : List Char) : Reading (Option String) :=
  match s with
  | '=' :: rest => (value rest).map fun (v, rest) => (some v, rest)
  | _ => .ok (none, s)

/-- One entry: the variable that it assigns or names, if any. -/
def entry (s : List Char) : Reading (Option (String × Option String)) :=
  match name (dropExport s) with
  | .error s => .error s
  | .ok (name, s) =>
    match assignment (skipInline s) with
    | .error s => .error s
    | .ok (value, s) =>
      match ending s with
      | .error s => .error s
      | .ok ((), s) => .ok (name.map fun name => (name, value), s)

/-- Reads entry after entry; each takes at least one character, so the bound is never what ends
the reading. -/
def entries : Nat → List Char → List (String × Option String)
  | 0, _ => []
  | bound + 1, s =>
    match trimLeft isSpace s with
    | [] => []
    | s =>
      match entry s with
      | .ok (some assigned, rest) => assigned :: entries bound rest
      | .ok (none, rest) => entries bound rest
      | .error rest => entries bound ((restOfLine rest).drop 1)

/-- A reference to a variable, from behind its dollar sign, with the text to use if the variable is
not known. -/
def reference? (s : List Char) : Option (String × String × List Char) :=
  match s with
  | '{' :: inner =>
    let name := inner.takeWhile fun c => c != '}' && c != ':'
    match inner.drop name.length with
    | '}' :: rest => some (String.ofList name, "", rest)
    | ':' :: '-' :: rest =>
      let fallback := rest.takeWhile (· != '}')
      match rest.drop fallback.length with
      | '}' :: rest => some (String.ofList name, String.ofList fallback, rest)
      | _ => none
    | _ => none
  | _ => none

/-- Replaces references from left to right. A variable that is known but has no value is empty. -/
def expand (known : String → Option (Option String)) : Nat → List Char → List Char
  | _, [] => []
  | 0, s => s
  | bound + 1, c :: rest =>
    match if c = '$' then reference? rest else none with
    | some (name, fallback, rest) =>
      (((known name).getD (some fallback)).getD "").toList ++ expand known bound rest
    | none => c :: expand known bound rest

/-- Assigns the variables one after the other, so that each may refer to those before it and to the
process environment. -/
def assign (environment : List (String × String)) (m : OrderedMap String (Option String))
    (assigned : String × Option String) : OrderedMap String (Option String) :=
  let known := fun name => (m.get? name).or ((environment.lookup name).map some)
  m.insert assigned.1 (assigned.2.map fun v =>
    String.ofList (expand known v.length v.toList))

/-- A mark of the byte order may stand before everything else; it belongs to no entry. -/
def dropOrderMark : List Char → List Char
  | '\ufeff' :: rest => rest
  | s => s

/-- The variables of a file in the order of their first naming, each with its last value. -/
def read (environment : List (String × String)) (file : String) :
    OrderedMap String (Option String) :=
  let s := unifyBreaks (dropOrderMark file.toList)
  (entries s.length s).foldl (assign environment) ∅

end StoreBinding.VariableFile
