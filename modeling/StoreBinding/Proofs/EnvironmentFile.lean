import StoreBinding.Proofs.WrittenValues

/-!
The syntax of environment files. A line of a file is blank, a comment, a name, or an assignment; a
comment may follow on the line, and spaces are before and behind everything. Main statement: what is
read of such a file are the assignments of its lines, in order, each with the value that is written
there.
-/
namespace StoreBinding.VariableFile

open Text

abbrev Gap := { gap : List Char // ∀ c ∈ gap, IsGap c }

def Gap.empty : Gap := ⟨[], isGap_nil⟩

inductive Line
  | blank (gap : Gap)
  | comment (gap : Gap) (remark : List Char) (h : ∀ c ∈ remark, IsRemark c)
  | naming (gap : Gap) (head : Head) (tail : Tail)
  | assignment (gap : Gap) (head : Head) (before after : Gap) (value : Written) (tail : Tail)

namespace Line

def body : Line → List Char
  | blank _ => []
  | comment _ remark _ => '#' :: remark
  | naming _ head tail => head.text ++ tail.text
  | assignment _ head before after value tail =>
    head.text ++ (before.val ++ '=' :: (after.val ++ (value.text ++ tail.text)))

def gap : Line → Gap
  | blank gap | comment gap _ _ | naming gap _ _ | assignment gap _ _ _ _ _ => gap

def text (l : Line) : List Char := l.gap.val ++ l.body

def assigned : Line → Option (String × Option String)
  | blank _ | comment _ _ _ => none
  | naming _ head _ => some (head.name, none)
  | assignment _ head _ _ value _ => some (head.name, some (String.ofList value.letters))

def simple (name value : String)
    (h : ((∀ c ∈ name.toList, IsWord c) ∧ name.toList ≠ [] ∧ name.toList ≠ "export".toList) ∧
      IsPlain value.toList) : Line :=
  .assignment .empty (.plain name.toList h.1) .empty .empty (.plain value.toList h.2) .empty

end Line

theorem Head.head_text (h : Head) {s : List Char} :
    ∃ c more, h.text ++ s = c :: more ∧ IsWord c := by
  cases hexported : h.exported with
  | some gap => exact ⟨_, _, by simp only [text, hexported]; rfl, by decide⟩
  | none =>
    cases hletters : h.letters with
    | nil => exact absurd hletters h.nonempty
    | cons c letters =>
      exact ⟨c, letters ++ s, by simp only [text, hexported, hletters, List.cons_append],
        h.isWord c (by rw [hletters]; simp)⟩

theorem entry_naming (head : Head) (tail : Tail) {s rest : List Char} (hs : Left s rest) :
    entry (head.text ++ (tail.text ++ s)) = .ok (some (head.name, none), rest) := by
  have hends := tail.ends hs
  have hskip : skipInline (tail.text ++ s) = tail.marked ++ s := by
    rw [Tail.text, List.append_assoc, skipInline_gap tail.isGap, tail.skipInline_marked hs]
  simp only [entry, head.dropExport_text hends, head.name_text hends, hskip,
    tail.assignment_marked hs, tail.ending_marked hs, Option.map_some]

theorem entry_assignment (head : Head) (before after : Gap) (v : Written) (tail : Tail)
    {s rest : List Char} (hs : Left s rest) :
    entry (head.text ++ (before.val ++ '=' :: (after.val ++ (v.text ++ (tail.text ++ s))))) =
      .ok (some (head.name, some (String.ofList v.letters)), rest) := by
  have hends : Ends (before.val ++ '=' :: (after.val ++ (v.text ++ (tail.text ++ s)))) := by
    apply Ends.gap before.property
    intro c hc
    cases hc
    exact Or.inl rfl
  have hskip : skipInline (before.val ++ '=' :: (after.val ++ (v.text ++ (tail.text ++ s)))) =
      '=' :: (after.val ++ (v.text ++ (tail.text ++ s))) := by
    rw [skipInline_gap before.property]
    apply skipInline_of_head
    intro c hc
    cases hc
    decide
  obtain ⟨u, hvalue, hend⟩ := v.value_text after.property tail hs
  simp only [entry, head.dropExport_text hends, head.name_text hends, hskip, assignment, hvalue,
    Except.map, hend, Option.map_some]

theorem entry_comment {remark : List Char} (h : ∀ c ∈ remark, IsRemark c) {s rest : List Char}
    (hs : Left s rest) : entry ('#' :: (remark ++ s)) = .ok (none, rest) := by
  have hstart : ("export".toList).isPrefixOf ('#' :: (remark ++ s)) = false := rfl
  have hdrop : dropExport ('#' :: (remark ++ s)) = '#' :: (remark ++ s) := by
    rw [dropExport, if_neg]
    rw [hstart]
    exact fun h => Bool.false_ne_true h.1
  have hskip : skipInline ('#' :: (remark ++ s)) = '#' :: (remark ++ s) := by
    apply skipInline_of_head
    intro c hc
    cases hc
    decide
  have hnone : assignment ('#' :: (remark ++ s)) = .ok (none, '#' :: (remark ++ s)) := rfl
  simp only [entry, hdrop, name, hskip, hnone, ending_comment h hs, Option.map_none]

/-- Reading goes on behind all spaces. -/
theorem entries_congr {s s' : List Char} (h : trimLeft isSpace s = trimLeft isSpace s')
    (n : Nat) : entries n s = entries n s' := by
  cases n with
  | zero => rfl
  | succ n => rw [entries, entries, h]

theorem entries_nil (n : Nat) : entries n [] = [] := by
  cases n <;> rfl

/-- An entry is read where it begins. -/
theorem entries_entry {c : Char} {more rest : List Char} (hc : isSpace c = false)
    {a : Option (String × Option String)} (h : entry (c :: more) = .ok (a, rest)) (n : Nat) :
    entries (n + 1) (c :: more) = a.toList ++ entries n rest := by
  have htrim : trimLeft isSpace (c :: more) = c :: more :=
    List.dropWhile_cons_of_neg (by simp [hc])
  rw [entries, htrim]
  dsimp only
  rw [h]
  cases a <;> rfl

namespace Line

/-- What is left of a line behind the spaces in front of it is one entry, if it is anything. -/
theorem entry_body (l : Line) (hne : l.body ≠ []) {s rest : List Char} (hs : Left s rest) :
    ∃ c more, l.body ++ s = c :: more ∧ isSpace c = false ∧
      entry (c :: more) = .ok (l.assigned, rest) := by
  cases l with
  | blank gap => exact absurd rfl hne
  | comment gap remark h => exact ⟨'#', remark ++ s, rfl, by decide, entry_comment h hs⟩
  | naming gap head tail =>
    obtain ⟨c, more, hfirst, hword⟩ := head.head_text (s := tail.text ++ s)
    have hentry := entry_naming head tail hs
    rw [hfirst] at hentry
    refine ⟨c, more, ?_, hword.not_isSpace, hentry⟩
    rw [body, List.append_assoc, hfirst]
  | assignment gap head before after v tail =>
    obtain ⟨c, more, hfirst, hword⟩ :=
      head.head_text (s := before.val ++ '=' :: (after.val ++ (v.text ++ (tail.text ++ s))))
    have hentry := entry_assignment head before after v tail hs
    rw [hfirst] at hentry
    refine ⟨c, more, ?_, hword.not_isSpace, hentry⟩
    rw [← hfirst, body]
    simp only [List.append_assoc, List.cons_append]

theorem assigned_of_body (l : Line) (h : l.body = []) : l.assigned = none := by
  cases l with
  | blank gap => rfl
  | comment gap remark h' => cases h
  | naming gap head tail =>
    obtain ⟨c, more, hfirst, -⟩ := head.head_text (s := tail.text)
    rw [body, hfirst] at h
    cases h
  | assignment gap head before after v tail =>
    obtain ⟨c, more, hfirst, -⟩ :=
      head.head_text (s := before.val ++ '=' :: (after.val ++ (v.text ++ tail.text)))
    rw [body, hfirst] at h
    cases h

theorem isSpace_gap (l : Line) : ∀ c ∈ l.gap.val, isSpace c = true := fun c hc =>
  isSpace_of_isGap (l.gap.property c hc)

/-- One line is read, and the bound on the reading goes down with the text. -/
theorem entries_text (l : Line) {s rest : List Char} (hs : Left s rest) {n : Nat}
    (hn : (l.text ++ s).length ≤ n) :
    ∃ m, rest.length ≤ m ∧ entries n (l.text ++ s) = l.assigned.toList ++ entries m rest := by
  have hlength : rest.length ≤ s.length := by
    cases hs with
    | nothing => exact Nat.le_refl 0
    | line => exact Nat.le_succ _
  have htrim : trimLeft isSpace (l.text ++ s) = trimLeft isSpace (l.body ++ s) := by
    rw [text, List.append_assoc, trimLeft, List.dropWhile_append_of_pos l.isSpace_gap]
    rfl
  rw [List.length_append] at hn
  by_cases hbody : l.body = []
  · refine ⟨n, by omega, ?_⟩
    rw [l.assigned_of_body hbody, Option.toList_none, List.nil_append]
    apply entries_congr
    rw [htrim, hbody, List.nil_append]
    cases hs with
    | nothing => rfl
    | line => exact List.dropWhile_cons_of_pos (by decide)
  · obtain ⟨c, more, hfirst, hspace, hentry⟩ := l.entry_body hbody hs
    have hpositive : 0 < l.body.length := List.length_pos_of_ne_nil hbody
    have htext : l.body.length ≤ l.text.length := by
      rw [text, List.length_append]
      exact Nat.le_add_left ..
    obtain ⟨m, rfl⟩ : ∃ m, n = m + 1 := ⟨n - 1, by omega⟩
    refine ⟨m, by omega, ?_⟩
    rw [entries_congr htrim, hfirst, entries_entry hspace hentry]

end Line

def joined (last : Line) : List Line → List Char
  | [] => last.text
  | l :: rest => l.text ++ '\n' :: joined last rest

/-- Induction on the lines: each is read up to its end. -/
theorem entries_joined (last : Line) (lines : List Line) {n : Nat}
    (hn : (joined last lines).length ≤ n) :
    entries n (joined last lines) = (lines ++ [last]).filterMap Line.assigned := by
  induction lines generalizing n with
  | nil =>
    rw [joined, ← List.append_nil last.text] at hn
    obtain ⟨m, -, hread⟩ := last.entries_text .nothing hn
    rw [joined, ← List.append_nil last.text, hread, entries_nil]
    cases h : last.assigned with
    | none => simp [h]
    | some a => simp [h]
  | cons l rest ih =>
    obtain ⟨m, hm, hread⟩ := l.entries_text (.line (joined last rest)) hn
    rw [joined, hread, ih hm, List.cons_append]
    cases h : l.assigned with
    | none => simp [h]
    | some a => simp [h]

/-- A file of lines, each with its end, and a last one without. An end is a line feed, with or
without a carriage return before it; the order of bytes may be marked in front of everything. -/
structure Listing where
  isMarked : Bool := false
  lines : List (Line × Bool) := []
  last : Line := .blank .empty

namespace Listing

def letters (last : Line) : List (Line × Bool) → List Char
  | [] => last.text
  | (l, true) :: rest => l.text ++ '\r' :: '\n' :: letters last rest
  | (l, false) :: rest => l.text ++ '\n' :: letters last rest

def text (f : Listing) : String :=
  String.ofList (if f.isMarked then '\ufeff' :: letters f.last f.lines else letters f.last f.lines)

def assigned (f : Listing) : List (String × Option String) :=
  (f.lines.map Prod.fst ++ [f.last]).filterMap Line.assigned

end Listing

theorem unifyBreaks_append {s : List Char} (h : '\r' ∉ s) (t : List Char) :
    unifyBreaks (s ++ t) = s ++ unifyBreaks t := by
  induction s with
  | nil => rfl
  | cons c s ih =>
    have hc : c ≠ '\r' := fun heq => h (heq ▸ List.mem_cons_self)
    have ih := ih fun hmem => h (List.mem_cons_of_mem c hmem)
    rw [List.cons_append, unifyBreaks, ih, List.cons_append]
    · exact fun rest heq => absurd heq hc
    · exact hc

theorem Tail.text_ne_return (t : Tail) : '\r' ∉ t.text := by
  intro hc
  rcases List.mem_append.mp hc with hc | hc
  · exact (t.isGap _ hc).2 rfl
  · exact (t.marked_newline _ hc).2 rfl

theorem Head.text_ne_return (h : Head) : '\r' ∉ h.text := by
  have hletters : '\r' ∉ h.letters := fun hc => absurd (h.isWord _ hc) (by decide)
  unfold text
  split
  · exact hletters
  · next gap hgap =>
    simp only [List.mem_append, not_or]
    exact ⟨⟨by decide, fun hc => ((h.isGap gap hgap).2 _ hc).2 rfl⟩, hletters⟩

theorem Written.text_ne_return (v : Written) : '\r' ∉ v.text := by
  cases v with
  | plain t h => exact fun hc => (h.letters _ hc).2 rfl
  | quoted quote t h =>
    have hquote : '\r' ≠ quote := by rcases h.mark with rfl | rfl <;> decide
    simp only [text, List.mem_cons, List.mem_append, List.not_mem_nil, or_false, not_or]
    exact ⟨hquote, fun hc => (h.letters _ hc).2.2 rfl, hquote⟩

theorem Line.text_ne_return (l : Line) : '\r' ∉ l.text := by
  have hgap : ∀ gap : Gap, '\r' ∉ gap.val := fun gap hc => (gap.property _ hc).2 rfl
  rw [text, List.mem_append, not_or]
  refine ⟨hgap _, ?_⟩
  cases l with
  | blank gap => exact List.not_mem_nil
  | comment gap remark h =>
    simp only [body, List.mem_cons, not_or]
    exact ⟨by decide, fun hc => (h _ hc).2 rfl⟩
  | naming gap head tail =>
    simp only [body, List.mem_append, not_or]
    exact ⟨head.text_ne_return, tail.text_ne_return⟩
  | assignment gap head before after v tail =>
    simp only [body, List.mem_append, List.mem_cons, not_or]
    exact ⟨head.text_ne_return, hgap before, by decide, hgap after, v.text_ne_return,
      tail.text_ne_return⟩

theorem unifyBreaks_letters (last : Line) (lines : List (Line × Bool)) :
    unifyBreaks (Listing.letters last lines) = joined last (lines.map Prod.fst) := by
  induction lines with
  | nil =>
    have h := unifyBreaks_append last.text_ne_return []
    rwa [List.append_nil, unifyBreaks, List.append_nil] at h
  | cons p rest ih =>
    obtain ⟨l, crlf⟩ := p
    cases crlf with
    | true =>
      rw [Listing.letters, unifyBreaks_append l.text_ne_return, unifyBreaks, ih]
      rfl
    | false =>
      have hfeed : unifyBreaks ('\n' :: Listing.letters last rest) =
          '\n' :: unifyBreaks (Listing.letters last rest) := rfl
      rw [Listing.letters, unifyBreaks_append l.text_ne_return, hfeed, ih]
      rfl

theorem Line.head_body (l : Line) : ∀ c ∈ l.body.head?, c = '#' ∨ IsWord c := by
  intro c hc
  cases l with
  | blank gap => cases hc
  | comment gap remark h =>
    cases hc
    exact Or.inl rfl
  | naming gap head tail =>
    obtain ⟨d, more, hfirst, hword⟩ := head.head_text (s := tail.text)
    rw [body, hfirst] at hc
    cases hc
    exact Or.inr hword
  | assignment gap head before after v tail =>
    obtain ⟨d, more, hfirst, hword⟩ :=
      head.head_text (s := before.val ++ '=' :: (after.val ++ (v.text ++ tail.text)))
    rw [body, hfirst] at hc
    cases hc
    exact Or.inr hword

/-- No line begins with the mark of the order of bytes. -/
theorem Line.head_text (l : Line) : l.text.head? ≠ some '\ufeff' := by
  intro h
  rw [text] at h
  cases hgap : l.gap.val with
  | cons d gap =>
    rw [hgap] at h
    have hd : IsGap d := l.gap.property d (hgap ▸ List.mem_cons_self)
    rw [Option.some.inj h] at hd
    exact absurd hd (by decide)
  | nil =>
    rw [hgap, List.nil_append] at h
    rcases l.head_body _ h with heq | hword
    · exact absurd heq (by decide)
    · exact absurd hword (by decide)

theorem dropOrderMark_of_head {s : List Char} (h : s.head? ≠ some '\ufeff') :
    dropOrderMark s = s := by
  unfold dropOrderMark
  split
  · exact absurd rfl h
  · rfl

theorem head_append_cons {s t : List Char} {c d : Char} (hs : s.head? ≠ some d) (hc : c ≠ d) :
    (s ++ c :: t).head? ≠ some d := by
  cases s with
  | nil => exact fun h => hc (Option.some.inj h)
  | cons e s => exact hs

theorem dropOrderMark_letters (last : Line) (lines : List (Line × Bool)) :
    dropOrderMark (Listing.letters last lines) = Listing.letters last lines := by
  apply dropOrderMark_of_head
  cases lines with
  | nil => exact last.head_text
  | cons p rest =>
    obtain ⟨l, crlf⟩ := p
    cases crlf with
    | true => exact head_append_cons l.head_text (by decide)
    | false => exact head_append_cons l.head_text (by decide)

theorem reference?_of_head {s : List Char} (h : ∀ c ∈ s.head?, c ≠ '{') :
    reference? s = none := by
  unfold reference?
  split
  · exact absurd rfl (h '{' rfl)
  · rfl

theorem expand_of_isVerbatim {known : String → Option (Option String)} {s : List Char}
    (h : IsVerbatim s) (n : Nat) : expand known n s = s := by
  induction s generalizing n with
  | nil => cases n <;> rfl
  | cons c s ih =>
    obtain ⟨hbrace, hs⟩ := List.isChain_cons.mp h
    have hnone : (if c = '$' then reference? s else none) = none := by
      by_cases hc : c = '$'
      · rw [if_pos hc]
        exact reference?_of_head fun d hd => hbrace d hd hc
      · exact if_neg hc
    cases n with
    | zero => rfl
    | succ n => rw [expand, hnone, ih hs]

theorem Written.isVerbatim (v : Written) : IsVerbatim v.letters := by
  cases v with
  | plain t h => exact h.isVerbatim
  | quoted quote t h => exact h.isVerbatim

def valueAfter (environment : List (String × String)) (m : OrderedMap String (Option String))
    (assigned : String × Option String) : Option String :=
  assigned.2.map fun v => String.ofList
    (expand (fun name => (m.get? name).or ((environment.lookup name).map some)) v.length v.toList)

def assignmentsFrom (environment : List (String × String)) :
    OrderedMap String (Option String) → List (String × Option String) →
      List (String × Option String)
  | _, [] => []
  | m, a :: rest =>
    (a.1, valueAfter environment m a) ::
      assignmentsFrom environment (m.insert a.1 (valueAfter environment m a)) rest

def assignments (environment : List (String × String)) (file : String) :
    List (String × Option String) :=
  let s := unifyBreaks (dropOrderMark file.toList)
  assignmentsFrom environment ∅ (entries s.length s)

theorem foldl_assign (environment : List (String × String)) (l : List (String × Option String))
    (m : OrderedMap String (Option String)) :
    l.foldl (assign environment) m =
      (assignmentsFrom environment m l).foldl (fun m a => m.insert a.1 a.2) m := by
  induction l generalizing m with
  | nil => rfl
  | cons a rest ih => exact ih _

/-- A file is read as its assignments, written one after the other. -/
theorem read_eq_ofList (environment : List (String × String)) (file : String) :
    read environment file = .ofList (assignments environment file) :=
  foldl_assign ..

theorem assignmentsFrom_of_isVerbatim {environment : List (String × String)}
    {l : List (String × Option String)} (h : ∀ a ∈ l, ∀ v ∈ a.2, IsVerbatim v.toList)
    (m : OrderedMap String (Option String)) : assignmentsFrom environment m l = l := by
  induction l generalizing m with
  | nil => rfl
  | cons a rest ih =>
    obtain ⟨name, v⟩ := a
    have hvalue : valueAfter environment m (name, v) = v := by
      cases v with
      | none => rfl
      | some v =>
        have hverbatim := h _ List.mem_cons_self v rfl
        simp only [valueAfter, Option.map_some, expand_of_isVerbatim hverbatim,
          String.ofList_toList]
    rw [assignmentsFrom, hvalue, ih fun a ha => h a (List.mem_cons_of_mem _ ha)]

namespace Listing

theorem isVerbatim_assigned (f : Listing) :
    ∀ a ∈ f.assigned, ∀ v ∈ a.2, IsVerbatim v.toList := by
  intro a ha v hv
  obtain ⟨l, -, hl⟩ := List.mem_filterMap.mp ha
  cases l with
  | blank => cases hl
  | comment => cases hl
  | naming gap head tail =>
    cases hl
    cases hv
  | assignment gap head before after w tail =>
    cases hl
    cases hv
    rw [String.toList_ofList]
    exact w.isVerbatim

/-- Reading a file gives the variables that its lines name, in order, with their values. -/
theorem assignments_text (f : Listing) (environment : List (String × String)) :
    assignments environment f.text = f.assigned := by
  have hletters : unifyBreaks (dropOrderMark f.text.toList) =
      joined f.last (f.lines.map Prod.fst) := by
    rw [text, String.toList_ofList, ← unifyBreaks_letters]
    split
    · rfl
    · rw [dropOrderMark_letters]
  simp only [assignments, hletters, entries_joined _ _ (Nat.le_refl _)]
  exact assignmentsFrom_of_isVerbatim f.isVerbatim_assigned ∅

end Listing

end StoreBinding.VariableFile
