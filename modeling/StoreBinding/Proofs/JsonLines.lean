import StoreBinding.Log.Record
import StoreBinding.Proofs.JsonTexts

/-!
What the JSON format tells of an entry. Main statement: a line is visible ASCII throughout, so it
is one line, and reading it gives the time, the level, the logger, the message and the trouble
back, whatever texts these are, and nothing else; so no two entries share a line.
-/
namespace StoreBinding.Log

open Text (Units)
open Text.JsonString (encodeUnit encodeUnits)

def IsVisible (c : Char) : Prop := ' ' ≤ c ∧ c ≤ '~'

instance (c : Char) : Decidable (IsVisible c) := inferInstanceAs (Decidable (_ ∧ _))

/-! ### Visible characters -/

theorem isVisible_of_mem_toDigits {n : Nat} {c : Char} (h : c ∈ Nat.toDigits 16 n) :
    IsVisible c := by
  have hdigit : ∀ d < 16, IsVisible (Nat.digitChar d) := by decide
  induction n using Nat.strongRecOn with
  | ind n ih =>
    by_cases hone : n < 16
    · rw [Nat.toDigits_of_lt_base hone, List.mem_singleton] at h
      exact h ▸ hdigit n hone
    · rw [Nat.toDigits_of_base_le (by decide) (by omega)] at h
      rcases List.mem_append.mp h with hearlier | hlast
      · exact ih (n / 16) (by omega) hearlier
      · rw [List.mem_singleton.mp hlast]
        exact hdigit _ (Nat.mod_lt n (by decide))

theorem isVisible_of_mem_hex {n : Nat} {c : Char} (h : c ∈ (Text.hex 4 n).toList) :
    IsVisible c := by
  rw [Text.hex, String.toList_ofList, List.leftpad] at h
  rcases List.mem_append.mp h with hzero | hdigit
  · rw [List.eq_of_mem_replicate hzero]
    decide
  · exact isVisible_of_mem_toDigits hdigit

theorem isVisible_of_letter? {u : Nat} {l : Char} (h : Text.JsonString.letter? u = some l) :
    IsVisible l := by
  unfold Text.JsonString.letter? at h
  split at h <;> first | cases h; decide | cases h

/-- However a unit is written, no control character and nothing beyond ASCII is needed. -/
theorem isVisible_of_mem_encodeUnit {u : Nat} {c : Char} (h : c ∈ encodeUnit u) :
    IsVisible c := by
  unfold encodeUnit at h
  split at h
  · next l hl =>
    rcases List.mem_cons.mp h with rfl | hletter
    · decide
    · exact List.mem_singleton.mp hletter ▸ isVisible_of_letter? hl
  · split at h
    · next hvisible =>
      obtain ⟨hnat, hlow, hhigh⟩ := Json.toNat_ofNat_of_isVisible hvisible
      have hchar : IsVisible (Char.ofNat u) := by
        show ' '.toNat ≤ (Char.ofNat u).toNat ∧ (Char.ofNat u).toNat ≤ '~'.toNat
        rw [hnat]
        exact ⟨hlow, hhigh⟩
      exact List.mem_singleton.mp h ▸ hchar
    · simp only [List.mem_cons] at h
      rcases h with rfl | rfl | hdigit
      · decide
      · decide
      · exact isVisible_of_mem_hex hdigit

theorem isVisible_of_mem_encodeUnits {us : Units} {c : Char} (h : c ∈ (encodeUnits us).toList) :
    IsVisible c := by
  simp only [encodeUnits, String.toList_append, String.toList_ofList, List.mem_append,
    List.mem_flatMap] at h
  rcases h with (hquote | ⟨u, -, hu⟩) | hquote
  · exact List.mem_singleton.mp hquote ▸ (by decide)
  · exact isVisible_of_mem_encodeUnit hu
  · exact List.mem_singleton.mp hquote ▸ (by decide)

/-! ### The line as an object -/

def jsonTexts (time level logger message : String) (trouble : Option String) :
    List (String × String) :=
  [("time", time), ("level", level), ("logger", logger), ("message", message)] ++
    (trouble.map fun t => ("exception", t)).toList

theorem jsonTexts_inj {time level logger message time' level' logger' message' : String}
    {trouble trouble' : Option String}
    (h : jsonTexts time' level' logger' message' trouble' =
      jsonTexts time level logger message trouble) :
    time' = time ∧ level' = level ∧ logger' = logger ∧ message' = message ∧
      trouble' = trouble := by
  simp only [jsonTexts, List.cons_append, List.nil_append, List.cons.injEq, Prod.mk.injEq,
    true_and] at h
  obtain ⟨htime, hlevel, hlogger, hmessage, hlast⟩ := h
  refine ⟨htime, hlevel, hlogger, hmessage, ?_⟩
  cases trouble <;> cases trouble' <;> simp_all

theorem jsonMembers_ofString (time level logger message : String) (trouble : Option String) :
    jsonMembers time level logger (.ofString message) trouble =
      (jsonTexts time level logger message trouble).map fun p => (p.1, Units.ofString p.2) := by
  cases trouble <;> rfl

theorem toList_jsonMember (p : String × String) :
    (jsonMember (p.1, Units.ofString p.2)).toList = Json.member p := by
  have hname := Json.toList_encode p.1
  have hvalue : (encodeUnits (Units.ofString p.2)).toList = '"' :: Json.written p.2 :=
    Json.toList_encode p.2
  rw [jsonMember, String.toList_append, String.toList_append, hname, hvalue, Json.member]
  simp

theorem toList_jsonLine (time level logger message : String) (trouble : Option String) :
    (jsonLine time level logger (.ofString message) trouble).toList =
      '\x7b' :: ([',', ' '].intercalate
        ((jsonTexts time level logger message trouble).map Json.member) ++ ['\x7d']) := by
  have hmembers : (((jsonTexts time level logger message trouble).map fun p =>
      (p.1, Units.ofString p.2)).map jsonMember).map String.toList =
        (jsonTexts time level logger message trouble).map Json.member := by
    rw [List.map_map, List.map_map]
    exact List.map_congr_left fun p _ => toList_jsonMember p
  rw [jsonLine, jsonMembers_ofString, String.toList_append, String.toList_append,
    String.toList_intercalate, hmembers]
  rfl

theorem isVisible_of_mem_jsonMember {p : String × Units} {c : Char}
    (h : c ∈ (jsonMember p).toList) : IsVisible c := by
  rw [jsonMember, String.toList_append, String.toList_append] at h
  rcases List.mem_append.mp h with h | hvalue
  · rcases List.mem_append.mp h with hname | hcolon
    · exact isVisible_of_mem_encodeUnits hname
    · have hall : ∀ c ∈ ": ".toList, IsVisible c := by decide
      exact hall c hcolon
  · exact isVisible_of_mem_encodeUnits hvalue

theorem mem_intercalate {α : Type} {x : List α} {ls : List (List α)} {a : α}
    (h : a ∈ x.intercalate ls) : a ∈ x ∨ ∃ l ∈ ls, a ∈ l := by
  induction ls with
  | nil => exact absurd h List.not_mem_nil
  | cons l ls ih =>
    cases ls with
    | nil =>
      rw [List.intercalate_singleton] at h
      exact Or.inr ⟨l, List.mem_cons_self, h⟩
    | cons m ls =>
      rw [List.intercalate_cons_cons, List.append_assoc] at h
      rcases List.mem_append.mp h with hfirst | h
      · exact Or.inr ⟨l, List.mem_cons_self, hfirst⟩
      · rcases List.mem_append.mp h with hbetween | hlater
        · exact Or.inl hbetween
        · exact (ih hlater).imp id fun ⟨k, hk, ha⟩ => ⟨k, List.mem_cons_of_mem l hk, ha⟩

/-- A line is visible throughout, also when its message names surrogates. -/
theorem isVisible_of_mem_jsonLine {time level logger : String} {message : Units}
    {trouble : Option String} {c : Char}
    (h : c ∈ (jsonLine time level logger message trouble).toList) : IsVisible c := by
  have hbraces : ∀ c, c ∈ "\x7b".toList ∨ c ∈ "\x7d".toList → IsVisible c := by
    rintro c (hopen | hclose)
    · exact List.mem_singleton.mp hopen ▸ (by decide)
    · exact List.mem_singleton.mp hclose ▸ (by decide)
  rw [jsonLine, String.toList_append, String.toList_append, String.toList_intercalate] at h
  rcases List.mem_append.mp h with h | hclose
  · rcases List.mem_append.mp h with hopen | hmembers
    · exact hbraces c (Or.inl hopen)
    · rcases mem_intercalate hmembers with hcomma | ⟨l, hl, hc⟩
      · have hall : ∀ c ∈ ", ".toList, IsVisible c := by decide
        exact hall c hcomma
      · obtain ⟨text, htext, rfl⟩ := List.mem_map.mp hl
        obtain ⟨p, -, rfl⟩ := List.mem_map.mp htext
        exact isVisible_of_mem_jsonMember hc
  · exact hbraces c (Or.inr hclose)

theorem read_jsonLine (time level logger message : String) (trouble : Option String) :
    Json.read (jsonLine time level logger (.ofString message) trouble) =
      some (.object
        ((jsonTexts time level logger message trouble).map fun p => (p.1, .string p.2))) :=
  Json.read_written (toList_jsonLine time level logger message trouble)

/-- A line has its texts from one entry only. -/
theorem jsonTexts_of_jsonLine
    {time level logger message time' level' logger' message' : String}
    {trouble trouble' : Option String}
    (h : jsonLine time' level' logger' (.ofString message') trouble' =
      jsonLine time level logger (.ofString message) trouble) :
    jsonTexts time' level' logger' message' trouble' =
      jsonTexts time level logger message trouble := by
  have hinj : Function.Injective fun p : String × String => (p.1, Json.string p.2) := by
    rintro ⟨name, text⟩ ⟨name', text'⟩ hp
    simpa using hp
  have hread := congrArg Json.read h
  rw [read_jsonLine, read_jsonLine, Option.some.injEq, Json.object.injEq] at hread
  exact List.map_injective_iff.mpr hinj hread

/-- Without arguments a message is the text of its template, percent signs and all. -/
theorem message_of_shown {r : Record} {message : String}
    (htemplate : r.template.shown = .ok message) (harguments : r.arguments = []) :
    r.message = .ok (.ofString message) := by
  unfold Record.message
  rewrite [htemplate, harguments]
  rfl

theorem line_json {r : Record} {time numeral : String} {message : Units}
    (hmessage : r.message = .ok message) (htime : timestamp r.millis = .ok time)
    (hlevel : Value.numeral r.level = .ok numeral) :
    r.line .json = .ok (.ofString (jsonLine time r.level.name r.logger message r.trouble)) := by
  unfold Record.line
  rewrite [hlevel, htime, hmessage]
  rfl

/-- What the JSON format makes of a time, a level, a logger, a message and maybe a trouble. Any text
can be the name of a level; a record has the name that its level gives it. -/
structure TellsAll (time level logger message : String) (trouble : Option String) : Prop where
  visible : ∀ c ∈ (jsonLine time level logger (.ofString message) trouble).toList,
    ' ' ≤ c ∧ c ≤ '~'
  parsed : Json.read (jsonLine time level logger (.ofString message) trouble) =
    some (.object ([("time", .string time), ("level", .string level), ("logger", .string logger),
      ("message", .string message)] ++ (trouble.map fun t => ("exception", .string t)).toList))
  alone : ∀ (time' level' logger' message' : String) (trouble' : Option String),
    jsonLine time' level' logger' (.ofString message') trouble' =
        jsonLine time level logger (.ofString message) trouble →
      time' = time ∧ level' = level ∧ logger' = logger ∧ message' = message ∧ trouble' = trouble
  formatted : ∀ r : Record, timestamp r.millis = .ok time → r.level.name = level →
    r.logger = logger → r.template.shown = .ok message → r.arguments = [] →
    r.trouble = trouble → (∃ numeral, Value.numeral r.level = .ok numeral) →
      r.line .json = .ok (.ofString (jsonLine time level logger (.ofString message) trouble))

/-- Every entry is told by one visible line, and by no line of another entry. -/
theorem json_tells_all (time level logger message : String) (trouble : Option String) :
    TellsAll time level logger message trouble where
  visible _ := isVisible_of_mem_jsonLine
  parsed := by
    rw [read_jsonLine]
    cases trouble <;> rfl
  alone _ _ _ _ _ h := jsonTexts_inj (jsonTexts_of_jsonLine h)
  formatted r htime hlevel hlogger htemplate harguments htrouble := by
    rintro ⟨numeral, hnumeral⟩
    rw [← hlevel, ← hlogger, ← htrouble]
    exact line_json (message_of_shown htemplate harguments) htime hnumeral

def forged : String := "%d \"\\\", \"level\": \"\n\x7f\u00e9😀"

def hostile : Record where
  level := .error
  logger := "couchbench.main"
  template := .text forged
  arguments := []
  millis := 0
  trouble := some "RuntimeError: boom"

/-- The break, the quotes and the character of two units are all escaped. -/
theorem json_tells_all_hostile :
    timestamp hostile.millis = .ok "1970-01-01 00:00:00,000" ∧
      hostile.line .json = .ok (.ofString ("\x7b\"time\": \"1970-01-01 00:00:00,000\", " ++
        "\"level\": \"ERROR\", \"logger\": \"couchbench.main\", " ++
        "\"message\": \"%d \\\"\\\\\\\", \\\"level\\\": \\\"" ++
        "\\n\\u007f\\u00e9\\ud83d\\ude00\", " ++
        "\"exception\": \"RuntimeError: boom\"\x7d")) := by
  have htime : timestamp hostile.millis = .ok "1970-01-01 00:00:00,000" := by decide +kernel
  have hnumeral : Value.numeral hostile.level = .ok "40" := by decide +kernel
  have hline := (json_tells_all "1970-01-01 00:00:00,000" "ERROR" "couchbench.main" forged
    (some "RuntimeError: boom")).formatted hostile htime rfl rfl rfl rfl rfl ⟨_, hnumeral⟩
  refine ⟨htime, hline.trans (congrArg (Except.ok ∘ Units.ofString) ?_)⟩
  decide +kernel

end StoreBinding.Log
