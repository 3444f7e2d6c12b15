import Mathlib.Data.List.Chain
import Mathlib.Tactic.MkIffOfInductiveProp
import StoreBinding.Proofs.LineParts

/-!
Values in environment files. A value stands by itself or in quotes, where it may go on over several
lines. Main statement: read behind spaces and before a comment, it is what is written there.
-/
namespace StoreBinding.VariableFile

open Text

def IsVerbatim (t : List Char) : Prop := t.IsChain fun c d => c = '$' → d ≠ '{'

instance (t : List Char) : Decidable (IsVerbatim t) := inferInstanceAs (Decidable (t.IsChain _))

@[mk_iff]
structure IsPlain (t : List Char) : Prop where
  letters : ∀ c ∈ t, c ≠ '\n' ∧ c ≠ '\r'
  first : ∀ c ∈ t.head?, c ≠ '\'' ∧ c ≠ '"' ∧ c ≠ '#' ∧ isSpace c = false
  last : ∀ c ∈ t.getLast?, isSpace c = false
  hashes : t.IsChain fun c d => isSpace c = true → d ≠ '#'
  isVerbatim : IsVerbatim t

@[mk_iff]
structure IsQuoted (quote : Char) (t : List Char) : Prop where
  mark : quote = '\'' ∨ quote = '"'
  letters : ∀ c ∈ t, c ≠ quote ∧ c ≠ '\\' ∧ c ≠ '\r'
  isVerbatim : IsVerbatim t

instance (t : List Char) : Decidable (IsPlain t) := decidable_of_iff' _ (isPlain_iff t)

instance (quote : Char) (t : List Char) : Decidable (IsQuoted quote t) :=
  decidable_of_iff' _ (isQuoted_iff quote t)

inductive Written
  | plain (t : List Char) (h : IsPlain t)
  | quoted (quote : Char) (t : List Char) (h : IsQuoted quote t)

namespace Written

def letters : Written → List Char
  | plain t _ => t
  | quoted _ t _ => t

def text : Written → List Char
  | plain t _ => t
  | quoted quote t _ => quote :: (t ++ [quote])

end Written

theorem last_tail {c : Char} {t : List Char}
    (h : ∀ d ∈ (c :: t).getLast?, isSpace d = false) : ∀ d ∈ t.getLast?, isSpace d = false := by
  intro d hd
  apply h
  cases t with
  | nil => cases hd
  | cons e t => rwa [List.getLast?_cons_cons]

/-- Behind spaces comes a letter of the value, and not the mark of a comment. -/
theorem head_trimLeft {t u : List Char} (hne : t ≠ []) (hfirst : t.head? ≠ some '#')
    (hlast : ∀ c ∈ t.getLast?, isSpace c = false)
    (hhashes : t.IsChain fun c d => isSpace c = true → d ≠ '#') :
    (trimLeft isSpace (t ++ u)).head? ≠ some '#' := by
  induction t with
  | nil => exact absurd rfl hne
  | cons c t ih =>
    cases hspace : isSpace c with
    | false =>
      rw [trimLeft, List.cons_append, List.dropWhile_cons_of_neg (by simp [hspace])]
      exact hfirst
    | true =>
      rw [trimLeft, List.cons_append, List.dropWhile_cons_of_pos hspace]
      cases t with
      | nil =>
        rw [hlast c rfl] at hspace
        cases hspace
      | cons d t =>
        obtain ⟨hd, hrest⟩ := List.isChain_cons_cons.mp hhashes
        have hfirst' : (d :: t).head? ≠ some '#' := fun heq => hd hspace (Option.some.inj heq)
        exact ih nofun hfirst' (last_tail hlast) hrest

/-- A value goes up to its own end, where a comment may begin. -/
theorem bare_append {t u : List Char} (hlast : ∀ c ∈ t.getLast?, isSpace c = false)
    (hhashes : t.IsChain fun c d => isSpace c = true → d ≠ '#') :
    bare (t ++ u) = t ++ bare u := by
  induction t with
  | nil => rfl
  | cons c t ih =>
    have hgoes : ¬ (isSpace c = true ∧ (trimLeft isSpace (t ++ u)).head? = some '#') := by
      rintro ⟨hspace, hhead⟩
      cases t with
      | nil =>
        rw [hlast c rfl] at hspace
        cases hspace
      | cons d t =>
        obtain ⟨hd, hrest⟩ := List.isChain_cons_cons.mp hhashes
        have hfirst : (d :: t).head? ≠ some '#' := fun heq => hd hspace (Option.some.inj heq)
        exact head_trimLeft (t := d :: t) nofun hfirst (last_tail hlast) hrest hhead
    rw [List.cons_append, bare, if_neg hgoes, ih (last_tail hlast) hhashes.tail, List.cons_append]

/-- Spaces in front of the mark of a comment belong to the comment. -/
theorem bare_gap {gap r : List Char} (hne : gap ≠ []) (hgap : ∀ c ∈ gap, IsGap c) :
    bare (gap ++ '#' :: r) = [] := by
  cases gap with
  | nil => exact absurd rfl hne
  | cons c gap =>
    have hspaces : ∀ d ∈ gap, isSpace d = true := fun d hd =>
      isSpace_of_isGap (hgap d (List.mem_cons_of_mem c hd))
    have hhead : (trimLeft isSpace (gap ++ '#' :: r)).head? = some '#' := by
      rw [trimLeft, List.dropWhile_append_of_pos hspaces]
      rfl
    rw [List.cons_append, bare,
      if_pos ⟨isSpace_of_isGap (hgap c List.mem_cons_self), hhead⟩]

theorem bare_gap_append {gap u : List Char} (hgap : ∀ c ∈ gap, IsGap c)
    (hu : (trimLeft isSpace u).head? ≠ some '#') : bare (gap ++ u) = gap ++ bare u := by
  induction gap with
  | nil => rfl
  | cons c gap ih =>
    have hrest : ∀ d ∈ gap, IsGap d := fun d hd => hgap d (List.mem_cons_of_mem c hd)
    have hspaces : ∀ d ∈ gap, isSpace d = true := fun d hd => isSpace_of_isGap (hrest d hd)
    have hgoes : ¬ (isSpace c = true ∧ (trimLeft isSpace (gap ++ u)).head? = some '#') := by
      rw [trimLeft, List.dropWhile_append_of_pos hspaces]
      exact fun h => hu h.2
    rw [List.cons_append, bare, if_neg hgoes, ih hrest, List.cons_append]

theorem bare_of_spaces {gap : List Char} (hgap : ∀ c ∈ gap, IsGap c) : bare gap = gap := by
  have h := bare_gap_append (u := []) hgap nofun
  rwa [List.append_nil, bare, List.append_nil] at h

theorem Tail.bare_text (t : Tail) : bare t.text = if t.remark.isSome then [] else t.gap := by
  cases hremark : t.remark with
  | none =>
    have htext : t.text = t.gap := by simp only [text, marked, hremark, List.append_nil]
    rw [htext, bare_of_spaces t.isGap]
    rfl
  | some r =>
    have htext : t.text = t.gap ++ '#' :: r := by simp only [text, marked, hremark]
    rw [htext, bare_gap (t.spaced (by rw [hremark]; rfl)) t.isGap]
    rfl

theorem trimRight_spaces {t gap : List Char} (hlast : ∀ c ∈ t.getLast?, isSpace c = false)
    (hgap : ∀ c ∈ gap, IsGap c) : trimRight isSpace (t ++ gap) = t := by
  have hspaces : ∀ c ∈ gap.reverse, isSpace c = true := fun c hc =>
    isSpace_of_isGap (hgap c (List.mem_reverse.mp hc))
  rw [trimRight, List.reverse_append, List.dropWhile_append_of_pos hspaces]
  cases hreverse : t.reverse with
  | nil => exact (List.reverse_eq_nil_iff.mp hreverse).symm
  | cons c s =>
    have hc : isSpace c = false := by
      apply hlast
      rw [List.getLast?_eq_head?_reverse, hreverse]
      rfl
    rw [List.dropWhile_cons_of_neg (by simp [hc]), ← hreverse, List.reverse_reverse]

theorem untilQuote?_append {quote : Char} {t : List Char} (h : IsQuoted quote t)
    (s : List Char) : untilQuote? quote (t ++ quote :: s) = some (t, s) := by
  have hquote : quote ≠ '\\' := by rcases h.mark with rfl | rfl <;> decide
  have hletters := h.letters
  clear h
  induction t with
  | nil =>
    rw [List.nil_append, untilQuote?, if_pos rfl]
    exact fun c rest heq => absurd heq hquote
  | cons c t ih =>
    obtain ⟨hc, hbackslash, -⟩ := hletters c List.mem_cons_self
    have ih := ih fun d hd => hletters d (List.mem_cons_of_mem c hd)
    rw [List.cons_append, untilQuote?, if_neg hc, ih]
    · rfl
    · exact fun d rest heq => absurd heq hbackslash

theorem unescape_of_plain {letter? : Char → Option Char} {t : List Char} (h : '\\' ∉ t) :
    unescape letter? t = t := by
  induction t with
  | nil => rfl
  | cons c t ih =>
    have hc : c ≠ '\\' := fun heq => h (heq ▸ List.mem_cons_self)
    have ih := ih fun hmem => h (List.mem_cons_of_mem c hmem)
    cases t with
    | nil => rfl
    | cons d t =>
      rw [unescape, if_neg hc, ih]

/-- Spaces around an empty value are nothing, and neither is a comment behind them. -/
theorem line_of_nil {gap : List Char} (hgap : ∀ c ∈ gap, IsGap c) (tail : Tail) :
    skipInline (trimRight isSpace (bare (gap ++ tail.text))) = [] := by
  have hspaces : ∀ c ∈ gap ++ tail.gap, IsGap c := fun c hc =>
    (List.mem_append.mp hc).elim (hgap c) (tail.isGap c)
  cases hremark : tail.remark with
  | none =>
    have htext : gap ++ tail.text = gap ++ tail.gap := by
      simp only [Tail.text, Tail.marked, hremark, List.append_nil]
    rw [htext, bare_of_spaces hspaces, ← List.nil_append (gap ++ tail.gap),
      trimRight_spaces (t := []) (by simp) hspaces]
    rfl
  | some r =>
    have htext : gap ++ tail.text = (gap ++ tail.gap) ++ '#' :: r := by
      simp only [Tail.text, Tail.marked, hremark, List.append_assoc]
    have hne : gap ++ tail.gap ≠ [] := fun heq =>
      tail.spaced (by rw [hremark]; rfl) (List.append_eq_nil_iff.mp heq).2
    rw [htext, bare_gap hne hspaces]
    rfl

/-- A line without quotes is a value up to its tail. -/
theorem IsPlain.line {t gap : List Char} (h : IsPlain t) (hgap : ∀ c ∈ gap, IsGap c)
    (tail : Tail) :
    skipInline (trimRight isSpace (bare (gap ++ (t ++ tail.text)))) = t := by
  by_cases hne : t = []
  · rw [hne, List.nil_append]
    exact line_of_nil hgap tail
  · have hfirst : t.head? ≠ some '#' := fun heq => (h.first '#' heq).2.2.1 rfl
    have hhead := head_trimLeft (u := tail.text) hne hfirst h.last h.hashes
    have hspaces : ∀ c ∈ bare tail.text, IsGap c := by
      rw [tail.bare_text]
      split
      · exact isGap_nil
      · exact tail.isGap
    have hlast : ∀ c ∈ (gap ++ t).getLast?, isSpace c = false := by
      intro c hc
      rw [List.getLast?_append_of_ne_nil gap hne] at hc
      exact h.last c hc
    have hinline : ∀ c ∈ t.head?, isInline c = false := by
      intro c hc
      rw [isInline, (h.first c hc).2.2.2, Bool.false_and]
    rw [bare_gap_append hgap hhead, bare_append h.last h.hashes, ← List.append_assoc,
      trimRight_spaces hlast hspaces, skipInline_gap hgap, skipInline_of_head hinline]

/-- A line that is not empty and does not start with a quote is read as one. -/
theorem value_of_line {s line rest : List Char} {c : Char} {more : List Char}
    (hskip : skipInline (line ++ s) = c :: more) (hnewline : c ≠ '\n')
    (hquote : ¬ (c = '\'' ∨ c = '"')) (hline : ∀ d ∈ line, d ≠ '\n') (hs : Left s rest) :
    value (line ++ s) = .ok (String.ofList (skipInline (trimRight isSpace (bare line))), s) := by
  have htake : (line ++ s).takeWhile (· != '\n') = line := by
    rw [List.takeWhile_append_of_pos fun d hd => bne_iff_ne.mpr (hline d hd), hs.takeWhile,
      List.append_nil]
  unfold value
  rw [hskip]
  split
  · next heq => cases heq
  · next heq => exact absurd (List.cons.inj heq).1 hnewline
  · next d more' hne heq =>
    obtain ⟨rfl, rfl⟩ := List.cons.inj heq
    rw [if_neg hquote]
    simp only [htake, List.drop_left]

theorem Tail.text_ne_newline (t : Tail) : ∀ c ∈ t.text, c ≠ '\n' := by
  intro c hc
  rcases List.mem_append.mp hc with hc | hc
  · exact ne_newline_of_isGap (t.isGap c hc)
  · exact (t.marked_newline c hc).1

theorem IsPlain.value {t gap : List Char} (h : IsPlain t) (hgap : ∀ c ∈ gap, IsGap c)
    (tail : Tail) {s rest : List Char} (hs : Left s rest) :
    value (gap ++ (t ++ (tail.text ++ s))) = .ok (String.ofList t, s) := by
  have hwhole : gap ++ (t ++ (tail.text ++ s)) = (gap ++ (t ++ tail.text)) ++ s := by
    simp only [List.append_assoc]
  have hline : ∀ d ∈ gap ++ (t ++ tail.text), d ≠ '\n' := by
    intro d hd
    rcases List.mem_append.mp hd with hd | hd
    · exact ne_newline_of_isGap (hgap d hd)
    · rcases List.mem_append.mp hd with hd | hd
      · exact (h.letters d hd).1
      · exact tail.text_ne_newline d hd
  -- a line that is not empty is read as a whole, up to its tail
  have hread {c : Char} {more : List Char}
      (hskip : skipInline (gap ++ (t ++ (tail.text ++ s))) = c :: more) (hnewline : c ≠ '\n')
      (hquote : ¬ (c = '\'' ∨ c = '"')) :
      VariableFile.value (gap ++ (t ++ (tail.text ++ s))) = .ok (String.ofList t, s) := by
    rw [hwhole] at hskip ⊢
    rw [value_of_line hskip hnewline hquote hline hs, h.line hgap tail]
  cases t with
  | cons c t =>
    obtain ⟨hapostrophe, hquote, -, hspace⟩ := h.first c rfl
    have hskip : skipInline (gap ++ (c :: t ++ (tail.text ++ s))) =
        c :: (t ++ (tail.text ++ s)) := by
      rw [skipInline_gap hgap]
      apply skipInline_of_head
      intro d hd
      cases hd
      rw [isInline, hspace, Bool.false_and]
    exact hread hskip (h.letters c List.mem_cons_self).1 (not_or.mpr ⟨hapostrophe, hquote⟩)
  | nil =>
    have hskip : skipInline (gap ++ ([] ++ (tail.text ++ s))) = tail.marked ++ s := by
      rw [skipInline_gap hgap, List.nil_append, Tail.text, List.append_assoc,
        skipInline_gap tail.isGap, tail.skipInline_marked hs]
    cases hremark : tail.remark with
    | some r =>
      have hmarked : tail.marked = '#' :: r := by rw [Tail.marked, hremark]
      rw [hmarked] at hskip
      exact hread hskip (by decide) (by decide)
    | none =>
      have hmarked : tail.marked = [] := by rw [Tail.marked, hremark]
      rw [hmarked, List.nil_append s] at hskip
      unfold VariableFile.value
      rw [hskip]
      cases hs with
      | nothing => rfl
      | line => rfl

/-- A value is read together with nothing of its tail but, at most, the whole of it. -/
theorem Written.value_text (v : Written) {gap : List Char} (hgap : ∀ c ∈ gap, IsGap c)
    (tail : Tail) {s rest : List Char} (hs : Left s rest) :
    ∃ u, value (gap ++ (v.text ++ (tail.text ++ s))) = .ok (String.ofList v.letters, u) ∧
      ending u = .ok ((), rest) := by
  cases v with
  | quoted quote t h =>
    refine ⟨tail.text ++ s, ?_, tail.ending hs⟩
    have hskip : skipInline (gap ++ ((quoted quote t h).text ++ (tail.text ++ s))) =
        quote :: (t ++ quote :: (tail.text ++ s)) := by
      rw [skipInline_gap hgap]
      have htext : (quoted quote t h).text ++ (tail.text ++ s) =
          quote :: (t ++ quote :: (tail.text ++ s)) := by
        simp only [text, List.cons_append, List.append_assoc, List.nil_append]
      rw [htext]
      apply skipInline_of_head
      intro c hc
      cases hc
      rcases h.mark with rfl | rfl <;> decide
    have hletters : '\\' ∉ t := fun hmem => (h.letters _ hmem).2.1 rfl
    have hquote : quote ≠ '\n' := by rcases h.mark with rfl | rfl <;> decide
    unfold VariableFile.value
    rw [hskip]
    split
    · next heq => cases heq
    · next heq => exact absurd (List.cons.inj heq).1 hquote
    · next c more hne heq =>
      obtain ⟨rfl, rfl⟩ := List.cons.inj heq
      rw [if_pos h.mark, untilQuote?_append h]
      simp only [unescape_of_plain hletters, letters]
  | plain t h => exact ⟨s, h.value hgap tail hs, hs.ending⟩

end StoreBinding.VariableFile
