import StoreBinding.Text.JsonString

/-!
Log entries and their two line formats. A text line is followed by the trouble, on a line of
its own; a JSON line is one object with all texts escaped to visible ASCII. Both are made of
an entry's frame, which also takes messages in units that no text has.
-/
namespace StoreBinding.Log

open Text (Units)

/-- How much an entry matters. -/
abbrev Level := Int

namespace Level

def debug : Level := 10

def info : Level := 20

def warning : Level := 30

def error : Level := 40

def critical : Level := 50

def trace : Level := 5

def unset : Level := 0

def name (level : Level) : String :=
  if level = critical then "CRITICAL"
  else if level = error then "ERROR"
  else if level = warning then "WARNING"
  else if level = info then "INFO"
  else if level = debug then "DEBUG"
  else if level = trace then "TRACE"
  else if level = unset then "NOTSET"
  else "Level " ++ toString level

/-- The least level that is shown, by its name; a name that is not known shows what matters from
`info` on. -/
def ofName (name : String) : Level :=
  match name with
  | "CRITICAL" | "FATAL" => critical
  | "ERROR" => error
  | "WARNING" | "WARN" => warning
  | "INFO" => info
  | "DEBUG" => debug
  | "TRACE" => trace
  | "NOTSET" => unset
  | _ => info

end Level

/-- An entry without its message. -/
structure Frame where
  level : Level
  logger : String
  trouble : Option String := none
deriving DecidableEq, Repr

structure Entry extends Frame where
  message : String
deriving DecidableEq, Repr

inductive Format
  | text
  | json
deriving DecidableEq, Repr

def Format.ofName (name : String) : Format := if name = "json" then .json else .text

/-- The members of a JSON line, in order. -/
def jsonMembers (time level logger : String) (message : Units) (trouble : Option String) :
    List (String × Units) :=
  [("time", .ofString time), ("level", .ofString level), ("logger", .ofString logger),
    ("message", message)] ++ (trouble.map fun t => ("exception", Units.ofString t)).toList

def jsonMember (p : String × Units) : String :=
  Text.JsonString.encode p.1 ++ ": " ++ Text.JsonString.encodeUnits p.2

/-- The line for the texts of an entry; the name of a level can be any text. -/
def jsonLine (time level logger : String) (message : Units) (trouble : Option String) : String :=
  "\x7b" ++ ", ".intercalate ((jsonMembers time level logger message trouble).map jsonMember) ++
    "\x7d"

namespace Frame

def json (time : String) (message : Units) (f : Frame) : String :=
  jsonLine time f.level.name f.logger message f.trouble

/-- What a text line has before its message. -/
def opening (time : String) (f : Frame) : String :=
  time ++ " - " ++ f.logger ++ " - " ++ f.level.name ++ " - "

/-- What a text line has behind its message: the trouble, on a line of its own. -/
def closing (endsLine : Bool) (f : Frame) : String :=
  match f.trouble with
  | none => ""
  | some t => if endsLine then t else "\n" ++ t

def text (time : String) (message : Units) (f : Frame) : Units :=
  .ofString (f.opening time) ++ message ++ .ofString (f.closing (message.getLast? = some 0x0a))

end Frame

namespace Entry

def json (time : String) (e : Entry) : String := e.toFrame.json time (.ofString e.message)

def text (time : String) (e : Entry) : String :=
  e.opening time ++ e.message ++ e.closing (e.message.toList.getLast? = some '\n')

def line (format : Format) (time : String) (e : Entry) : String :=
  match format with
  | .text => e.text time
  | .json => e.json time

end Entry

end StoreBinding.Log
