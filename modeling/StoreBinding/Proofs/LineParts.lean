import StoreBinding.Settings.VariableFile

/-!
The parts of a line of an environment file, apart from values: spaces, comments and names. Each is
read to its end where it stands, whatever is behind it on the line, and in the lines that follow.
-/
namespace StoreBinding.VariableFile

open Text

def IsGap (c : Char) : Prop := isInline c = true ∧ c ≠ '\r'

def IsRemark (c : Char) : Prop := c ≠ '\n' ∧ c ≠ '\r'

def IsWord (c : Char) : Prop := c.isAlphanum = true ∨ c = '_'

instance (c : Char) : Decidable (IsGap c) := inferInstanceAs (Decidable (_ ∧ _))

instance (c : Char) : Decidable (IsRemark c) := inferInstanceAs (Decidable (_ ∧ _))

instance (c : Char) : Decidable (IsWord c) := inferInstanceAs (Decidable (_ ∨ _))

-- To check the letters of a text is to go through the text, and not through all characters.
instance decidableLetters (p : Char → Prop) [DecidablePred p] (t : List Char) :
    Decidable (∀ c ∈ t, p c) :=
  List.decidableBAll p t

instance decidableLetter? (p : Char → Prop) [DecidablePred p] (t : Option Char) :
    Decidable (∀ c ∈ t, p c) :=
  Option.decidableForallMem t

theorem isSpace_of_visible {c : Char} (hlow : 0x20 < c.toNat) (hhigh : c.toNat < 0x7f) :
    isSpace c = false := by
  have hcontrol : ¬ c ≤ '\x1f' := by
    rw [Char.le_def, UInt32.le_iff_toNat_le]
    exact Nat.not_le.mpr (Nat.lt_of_lt_of_le (by decide) (Nat.le_of_lt hlow))
  have hblank : isBlank c = false := by
    simp only [isBlank, inRanges, blankRanges]
    rw [if_neg (by omega), if_neg (by omega), if_pos (by omega)]
    simp only [Bool.or_false, Bool.or_eq_false_iff, decide_eq_false_iff_not]
    omega
  simp [isSpace, hblank, hcontrol]

theorem IsWord.not_isSpace {c : Char} (h : IsWord c) : isSpace c = false := by
  rcases h with h | rfl
  · delta Char.isAlphanum Char.isAlpha Char.isUpper Char.isLower Char.isDigit at h
    simp only [Bool.or_eq_true, Bool.and_eq_true, decide_eq_true_eq, ge_iff_le,
      UInt32.le_iff_toNat_le] at h
    change ((65 ≤ c.toNat ∧ c.toNat ≤ 90) ∨ (97 ≤ c.toNat ∧ c.toNat ≤ 122)) ∨
      (48 ≤ c.toNat ∧ c.toNat ≤ 57) at h
    exact isSpace_of_visible (by omega) (by omega)
  · decide

theorem IsWord.ne {c d : Char} (h : IsWord c) (hd : ¬ IsWord d) : c ≠ d := by
  rintro rfl
  exact hd h

def Ends (s : List Char) : Prop := ∀ c ∈ s.head?, c = '=' ∨ c = '#' ∨ isSpace c = true

theorem Ends.not_isWord {c : Char} {s : List Char} (h : Ends (c :: s)) : ¬ IsWord c := by
  intro hword
  rcases h c rfl with rfl | rfl | hspace
  · exact absurd hword (by decide)
  · exact absurd hword (by decide)
  · rw [hword.not_isSpace] at hspace
    cases hspace

/-- What stands in front of an entry is skipped, and nothing else is. -/
theorem skipInline_gap {gap s : List Char} (hgap : ∀ c ∈ gap, IsGap c) :
    skipInline (gap ++ s) = skipInline s :=
  List.dropWhile_append_of_pos fun c hc => (hgap c hc).1

theorem skipInline_of_head {s : List Char} (h : ∀ c ∈ s.head?, isInline c = false) :
    skipInline s = s := by
  cases s with
  | nil => rfl
  | cons c s => exact List.dropWhile_cons_of_neg (by simp [h c rfl])

theorem isSpace_of_isGap {c : Char} (h : IsGap c) : isSpace c = true := by
  have hinline := h.1
  rw [isInline, Bool.and_eq_true] at hinline
  exact hinline.1

theorem ne_newline_of_isGap {c : Char} (h : IsGap c) : c ≠ '\n' := by
  rintro rfl
  exact absurd h.1 (by decide)

inductive Left : List Char → List Char → Prop
  | nothing : Left [] []
  | line (s : List Char) : Left ('\n' :: s) s

theorem Left.isInline_head {s rest : List Char} (h : Left s rest) :
    ∀ c ∈ s.head?, isInline c = false := by
  intro c hc
  cases h with
  | nothing => cases hc
  | line =>
    cases hc
    decide

theorem Left.takeWhile {s rest : List Char} (h : Left s rest) :
    s.takeWhile (· != '\n') = [] := by
  cases h with
  | nothing => rfl
  | line => exact List.takeWhile_cons_of_neg (by decide)

theorem Left.restOfLine {s rest : List Char} (h : Left s rest) : restOfLine s = s := by
  cases h with
  | nothing => rfl
  | line => exact List.dropWhile_cons_of_neg (by decide)

theorem Left.head_ne_hash {s rest : List Char} (h : Left s rest) : s.head? ≠ some '#' := by
  cases h with
  | nothing => nofun
  | line => simp

theorem ending_of_left {s u rest : List Char} (h : Left u rest)
    (hs : (if (skipInline s).head? = some '#' then restOfLine (skipInline s) else skipInline s) =
      u) : ending s = .ok ((), rest) := by
  simp only [ending, hs]
  cases h with
  | nothing => rfl
  | line => rfl

theorem Left.ending {s rest : List Char} (h : Left s rest) : ending s = .ok ((), rest) := by
  apply ending_of_left h
  rw [skipInline_of_head h.isInline_head, if_neg h.head_ne_hash]

theorem Left.ends {s rest : List Char} (h : Left s rest) : Ends s := by
  cases h with
  | nothing => nofun
  | line =>
    intro c hc
    cases hc
    exact Or.inr (Or.inr (by decide))

theorem Ends.gap {gap s : List Char} (hgap : ∀ c ∈ gap, IsGap c) (h : Ends s) :
    Ends (gap ++ s) := by
  cases gap with
  | nil => exact h
  | cons d gap =>
    intro c hc
    cases hc
    exact Or.inr (Or.inr (isSpace_of_isGap (hgap d List.mem_cons_self)))

theorem ending_gap {gap s rest : List Char} (hgap : ∀ c ∈ gap, IsGap c)
    (h : ending s = .ok ((), rest)) : ending (gap ++ s) = .ok ((), rest) := by
  unfold ending at h ⊢
  rw [skipInline_gap hgap]
  dsimp only at h ⊢
  split at h
  · exact h
  · exact h
  · cases h

/-- A comment goes up to the end of its line. -/
theorem ending_comment {remark s rest : List Char} (h : ∀ c ∈ remark, IsRemark c)
    (hs : Left s rest) : ending ('#' :: (remark ++ s)) = .ok ((), rest) := by
  have hskip : skipInline ('#' :: (remark ++ s)) = '#' :: (remark ++ s) := by
    apply skipInline_of_head
    intro c hc
    cases hc
    decide
  have hline : ∀ c ∈ '#' :: remark, (c != '\n') = true := by
    intro c hc
    rcases List.mem_cons.mp hc with rfl | hc
    · decide
    · exact bne_iff_ne.mpr (h c hc).1
  apply ending_of_left hs
  rw [hskip, List.head?_cons, if_pos rfl, restOfLine, ← List.cons_append,
    List.dropWhile_append_of_pos hline]
  exact hs.restOfLine

theorem isGap_nil : ∀ c ∈ ([] : List Char), IsGap c := nofun

structure Tail where
  gap : List Char := []
  remark : Option (List Char) := none
  isGap : ∀ c ∈ gap, IsGap c
  isRemark : ∀ r ∈ remark, ∀ c ∈ r, IsRemark c
  spaced : remark.isSome → gap ≠ []

namespace Tail

def empty : Tail where
  isGap := isGap_nil
  isRemark := by simp
  spaced := by simp

def marked (t : Tail) : List Char :=
  match t.remark with
  | none => []
  | some r => '#' :: r

def text (t : Tail) : List Char := t.gap ++ t.marked

theorem marked_newline (t : Tail) : ∀ c ∈ t.marked, IsRemark c := by
  intro c hc
  unfold marked at hc
  split at hc
  · cases hc
  · next r hr =>
    rcases List.mem_cons.mp hc with rfl | hc
    · exact ⟨by decide, by decide⟩
    · exact t.isRemark r hr c hc

theorem skipInline_marked (t : Tail) {s rest : List Char} (h : Left s rest) :
    skipInline (t.marked ++ s) = t.marked ++ s := by
  apply skipInline_of_head
  unfold marked
  split
  · exact h.isInline_head
  · intro c hc
    cases hc
    decide

theorem ending_marked (t : Tail) {s rest : List Char} (h : Left s rest) :
    ending (t.marked ++ s) = .ok ((), rest) := by
  unfold marked
  split
  · exact h.ending
  · next r hr => exact ending_comment (t.isRemark r hr) h

/-- A line ends behind its tail. -/
theorem ending (t : Tail) {s rest : List Char} (h : Left s rest) :
    ending (t.text ++ s) = .ok ((), rest) := by
  rw [text, List.append_assoc]
  exact ending_gap t.isGap (t.ending_marked h)

theorem assignment_marked (t : Tail) {s rest : List Char} (h : Left s rest) :
    assignment (t.marked ++ s) = .ok (none, t.marked ++ s) := by
  unfold marked
  split
  · cases h with
    | nothing => rfl
    | line => rfl
  · rfl

theorem ends (t : Tail) {s rest : List Char} (h : Left s rest) : Ends (t.text ++ s) := by
  rw [text, List.append_assoc]
  apply Ends.gap t.isGap
  unfold marked
  split
  · exact h.ends
  · intro c hc
    cases hc
    exact Or.inr (Or.inl rfl)

end Tail

structure Head where
  letters : List Char
  exported : Option (List Char) := none
  isWord : ∀ c ∈ letters, IsWord c
  nonempty : letters ≠ []
  isGap : ∀ gap ∈ exported, gap ≠ [] ∧ ∀ c ∈ gap, IsGap c
  unexported : exported = none → letters ≠ "export".toList

namespace Head

def plain (letters : List Char)
    (h : (∀ c ∈ letters, IsWord c) ∧ letters ≠ [] ∧ letters ≠ "export".toList) : Head where
  letters := letters
  isWord := h.1
  nonempty := h.2.1
  isGap := by simp
  unexported := fun _ => h.2.2

def name (h : Head) : String := String.ofList h.letters

def text (h : Head) : List Char :=
  match h.exported with
  | none => h.letters
  | some gap => "export".toList ++ gap ++ h.letters

/-- A word in front of a text is no other word if the text ends it. -/
theorem not_prefix_of_ends {word letters s : List Char} (hword : ∀ c ∈ word, IsWord c)
    (hs : Ends s) (hstart : word <+: letters ++ s) : word <+: letters := by
  obtain ⟨more, hmore⟩ := hstart
  rcases List.append_eq_append_iff.mp hmore with ⟨rest, hletters, -⟩ | ⟨rest, hrest, htail⟩
  · exact ⟨rest, hletters.symm⟩
  · cases rest with
    | nil =>
      rw [List.append_nil] at hrest
      exact hrest ▸ List.prefix_rfl
    | cons c rest =>
      rw [htail, List.cons_append] at hs
      have hc : c ∈ word := by
        rw [hrest]
        simp
      exact absurd (hword c hc) hs.not_isWord

theorem skipInline_letters (h : Head) (s : List Char) :
    skipInline (h.letters ++ s) = h.letters ++ s := by
  apply skipInline_of_head
  cases hletters : h.letters with
  | nil => exact absurd hletters h.nonempty
  | cons c letters =>
    intro d hd
    cases hd
    have hspace : isSpace c = false := (h.isWord c (by rw [hletters]; simp)).not_isSpace
    rw [isInline, hspace, Bool.false_and]

/-- The word `export` is dropped with the spaces behind it. -/
theorem dropExport_gap {gap : List Char} (hne : gap ≠ []) (hgap : ∀ c ∈ gap, IsGap c)
    (s : List Char) : dropExport ("export".toList ++ (gap ++ s)) = skipInline s := by
  have hstart : ("export".toList).isPrefixOf ("export".toList ++ (gap ++ s)) = true := by
    rw [List.isPrefixOf_iff_prefix]
    exact List.prefix_append ..
  have hdrop : ("export".toList ++ (gap ++ s)).drop "export".toList.length = gap ++ s := by
    rw [List.drop_left]
  have hinline : (gap ++ s).head?.any isInline = true := by
    cases gap with
    | nil => exact absurd rfl hne
    | cons c gap => exact (hgap c List.mem_cons_self).1
  simp only [dropExport, hstart, hdrop, hinline, and_self, if_true]
  exact skipInline_gap hgap

/-- A name that only begins with this word is left as it is. -/
theorem dropExport_letters (h : Head) (hexport : h.letters ≠ "export".toList) {s : List Char}
    (hs : Ends s) : dropExport (h.letters ++ s) = h.letters ++ s := by
  have hword : ∀ c ∈ "export".toList, IsWord c := by decide +kernel
  have hnot : ¬ (("export".toList).isPrefixOf (h.letters ++ s) = true ∧
      ((h.letters ++ s).drop "export".toList.length).head?.any isInline = true) := by
    rintro ⟨hstart, hinline⟩
    obtain ⟨rest, hrest⟩ := not_prefix_of_ends hword hs (List.isPrefixOf_iff_prefix.mp hstart)
    cases rest with
    | nil =>
      rw [List.append_nil] at hrest
      exact hexport hrest.symm
    | cons c rest =>
      rw [← hrest, List.append_assoc, List.drop_left] at hinline
      have hc : IsWord c := h.isWord c (by rw [← hrest]; simp)
      rw [List.cons_append, List.head?_cons, Option.any_some, isInline, hc.not_isSpace,
        Bool.false_and] at hinline
      cases hinline
  rw [dropExport, if_neg hnot]

theorem dropExport_text (h : Head) {s : List Char} (hs : Ends s) :
    dropExport (h.text ++ s) = h.letters ++ s := by
  cases hexported : h.exported with
  | some gap =>
    obtain ⟨hne, hgap⟩ := h.isGap gap hexported
    have htext : h.text ++ s = "export".toList ++ (gap ++ (h.letters ++ s)) := by
      simp only [text, hexported, List.append_assoc]
    rw [htext, dropExport_gap hne hgap, h.skipInline_letters]
  | none =>
    have htext : h.text ++ s = h.letters ++ s := by simp only [text, hexported]
    rw [htext, h.dropExport_letters (h.unexported hexported) hs]

/-- Letters of a word are read, and nothing behind them. -/
theorem takeWhile_word {letters s : List Char} (hletters : ∀ c ∈ letters, IsWord c) (hs : Ends s) :
    (letters ++ s).takeWhile (fun c => c != '=' && c != '#' && !isSpace c) = letters := by
  have hword : ∀ c ∈ letters, (c != '=' && c != '#' && !isSpace c) = true := by
    intro c hc
    have hc := hletters c hc
    simp [hc.not_isSpace, hc.ne (d := '=') (by decide), hc.ne (d := '#') (by decide)]
  rw [List.takeWhile_append_of_pos hword]
  cases s with
  | nil => exact List.append_nil _
  | cons c s =>
    have hstop : ¬ (c != '=' && c != '#' && !isSpace c) = true := by
      rcases hs c rfl with rfl | rfl | hspace
      · decide
      · decide
      · simp [hspace]
    rw [List.takeWhile_cons_of_neg (p := fun c => c != '=' && c != '#' && !isSpace c) hstop,
      List.append_nil]

theorem name_text (h : Head) {s : List Char} (hs : Ends s) :
    VariableFile.name (h.letters ++ s) = .ok (some h.name, s) := by
  have htake := takeWhile_word h.isWord hs
  have hfirst : ∀ d, ¬ IsWord d → (h.letters ++ s).head? ≠ some d := by
    intro d hd
    cases hletters : h.letters with
    | nil => exact absurd hletters h.nonempty
    | cons c letters =>
      have hword : IsWord c := h.isWord c (by rw [hletters]; simp)
      exact fun heq => hword.ne hd (Option.some.inj heq)
  unfold VariableFile.name
  split
  · next heq => exact absurd (congrArg List.head? heq) (hfirst '#' (by decide))
  · next heq => exact absurd (congrArg List.head? heq) (hfirst '\'' (by decide))
  · rw [htake]
    split
    · next heq => exact absurd heq h.nonempty
    · rw [List.drop_left]
      rfl

end Head

end StoreBinding.VariableFile
