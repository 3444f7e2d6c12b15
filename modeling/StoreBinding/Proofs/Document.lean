import StoreBinding.Document
import StoreBinding.Proofs.OrderedMaps

/-!
Records as documents, seen from outside. A document id divides into table and key at each of its
colons, so it gives them back as long as tables have none. What a request selects is the requested
names without repetitions, those that are present, each with its value. Stored text comes back as it
was. Main statement: two records share an id exactly if the table of one runs over a colon in the
key of the other.
-/
namespace StoreBinding

theorem toList_documentId (table key : String) :
    (documentId table key).toList = table.toList ++ separator :: key.toList := by
  simp [documentId, Char.toString]

/-- An element stands in a list where it is looked for, or further on. -/
theorem exists_append_cons_iff {α : Type} {x : α} {l r l' r' : List α} :
    (∃ mid, l' = l ++ mid ∧ x :: r = mid ++ x :: r') ↔
      (l = l' ∧ r = r') ∨ ∃ m, l' = l ++ x :: m ∧ r = m ++ x :: r' := by
  constructor
  · rintro ⟨mid, hmid, htail⟩
    cases mid with
    | nil =>
      rw [List.append_nil] at hmid
      exact Or.inl ⟨hmid.symm, (List.cons.inj htail).2⟩
    | cons y m =>
      obtain ⟨rfl, hr⟩ := List.cons.inj htail
      exact Or.inr ⟨m, hmid, hr⟩
  · rintro (⟨rfl, rfl⟩ | ⟨m, hl, rfl⟩)
    · exact ⟨[], (List.append_nil l).symm, rfl⟩
    · exact ⟨x :: m, hl, rfl⟩

/-- Two divisions of a list at an element are the same, or one of them is further on. -/
theorem append_cons_eq_append_cons_iff {α : Type} {x : α} {l r l' r' : List α} :
    l ++ x :: r = l' ++ x :: r' ↔
      (l = l' ∧ r = r') ∨ (∃ m, l' = l ++ x :: m ∧ r = m ++ x :: r') ∨
        ∃ m, l = l' ++ x :: m ∧ r' = m ++ x :: r := by
  rw [List.append_eq_append_iff, exists_append_cons_iff, exists_append_cons_iff]
  constructor
  · rintro ((heq | hover) | (⟨rfl, rfl⟩ | hover))
    · exact Or.inl heq
    · exact Or.inr (Or.inl hover)
    · exact Or.inl ⟨rfl, rfl⟩
    · exact Or.inr (Or.inr hover)
  · rintro (heq | hover | hover)
    · exact Or.inl (Or.inl heq)
    · exact Or.inl (Or.inr hover)
    · exact Or.inr (Or.inr hover)

/-- The table `t'` runs on past `t` and a colon, over all of the key `k` up to a colon in it, and
leaves `k'` as its key. -/
def RunsOver (t k t' k' : String) : Prop := ∃ s, t' = t ++ ":" ++ s ∧ k = s ++ ":" ++ k'

theorem runsOver_iff {t k t' k' : String} :
    RunsOver t k t' k' ↔ ∃ m, t'.toList = t.toList ++ separator :: m ∧
      k.toList = m ++ separator :: k'.toList := by
  constructor
  · rintro ⟨s, rfl, rfl⟩
    exact ⟨s.toList, toList_documentId t s, toList_documentId s k'⟩
  · rintro ⟨m, ht, hk⟩
    refine ⟨String.ofList m, String.toList_injective ?_, String.toList_injective ?_⟩
    · rw [ht]
      simp [separator]
    · rw [hk]
      simp [separator]

theorem RunsOver.mem {t k t' k' : String} (h : RunsOver t k t' k') : separator ∈ t'.toList := by
  obtain ⟨m, ht, -⟩ := runsOver_iff.mp h
  rw [ht]
  exact List.mem_append_right _ List.mem_cons_self

theorem documentId_eq_iff {t k t' k' : String} :
    documentId t k = documentId t' k' ↔
      (t = t' ∧ k = k') ∨ RunsOver t k t' k' ∨ RunsOver t' k' t k := by
  have hlists : documentId t k = documentId t' k' ↔
      t.toList ++ separator :: k.toList = t'.toList ++ separator :: k'.toList := by
    rw [← String.toList_inj, toList_documentId, toList_documentId]
  rw [hlists, append_cons_eq_append_cons_iff, runsOver_iff, runsOver_iff, String.toList_inj,
    String.toList_inj]

/-- Tables without a separator cannot run over one. -/
theorem documentId_inj {t k t' k' : String} (ht : separator ∉ t.toList)
    (ht' : separator ∉ t'.toList) (h : documentId t k = documentId t' k') : t = t' ∧ k = k' := by
  rcases documentId_eq_iff.mp h with heq | hover | hover
  · exact heq
  · exact absurd hover.mem ht'
  · exact absurd hover.mem ht

/-- A table may contain anything: with the table fixed, the document tells the key. -/
theorem documentId_right_inj {table k k' : String} (h : documentId table k = documentId table k') :
    k = k' := by
  have hlist := congrArg String.toList h
  rw [toList_documentId, toList_documentId] at hlist
  exact String.toList_injective (List.cons.inj (List.append_cancel_left hlist)).2

/-- Two records share an id exactly if they are the same, or the table of one takes a part of the
other's key. So tables without a colon keep all records apart, and each table keeps its own
apart. -/
theorem documentIds_coincide (t k t' k' : String) :
    (documentId t k = documentId t' k' ↔
      (t = t' ∧ k = k') ∨ (∃ s, t' = t ++ ":" ++ s ∧ k = s ++ ":" ++ k') ∨
        ∃ s, t = t' ++ ":" ++ s ∧ k' = s ++ ":" ++ k) ∧
    (':' ∉ t.toList → ':' ∉ t'.toList → (t ≠ t' ∨ k ≠ k') →
      documentId t k ≠ documentId t' k') ∧
    (k ≠ k' → documentId t k ≠ documentId t k') := by
  refine ⟨documentId_eq_iff, fun ht ht' hne hid => ?_, fun hne hid => ?_⟩
  · obtain ⟨htable, hkey⟩ := documentId_inj ht ht' hid
    exact hne.elim (absurd htable) (absurd hkey)
  · exact hne (documentId_right_inj hid)

/-- A colon in a table is taken for the one behind it. Tables without one stay apart even if the
letters of their ids would run together, and so do an empty key and a colon as a key. -/
theorem documentIds_coincide_sample :
    documentId "a:b" "c" = documentId "a" "b:c" ∧
    documentId "user" "s:1" ≠ documentId "users" ":1" ∧
    documentId ":" "" ≠ documentId ":" ":" := by
  refine ⟨?_, ?_, ?_⟩
  · exact (documentIds_coincide "a:b" "c" "a" "b:c").1.mpr (Or.inr (Or.inr ⟨"b", rfl, rfl⟩))
  · exact (documentIds_coincide "user" "s:1" "users" ":1").2.1 (by decide) (by decide)
      (Or.inl (by decide))
  · exact (documentIds_coincide ":" "" ":" ":").2.2 (by decide)

namespace OrderedMap

variable {κ α : Type} [DecidableEq κ]

/-- One more name adds at most its own entry. -/
theorem select_concat (m : OrderedMap κ α) (names : List κ) (k : κ) :
    m.select (names ++ [k]) =
      match m.get? k with
      | none => m.select names
      | some v => (m.select names).insert k v := by
  cases h : m.get? k with
  | none => simp [select, h]
  | some v => simp [select, h, ofList_concat]

theorem get?_select (m : OrderedMap κ α) (names : List κ) (k : κ) :
    (m.select names).get? k = if k ∈ names then m.get? k else none := by
  induction names using List.reverseRecOn with
  | nil => rfl
  | append_singleton names k' ih =>
    rw [select_concat]
    cases h : m.get? k' with
    | none =>
      by_cases heq : k = k'
      · subst heq
        rw [ih]
        simp [h]
      · simp [ih, heq]
    | some v =>
      rw [get?_insert]
      by_cases heq : k = k'
      · simp [heq, h]
      · simp [ih, heq]

/-- A selection lists the requested names in order, each of them once. -/
theorem entries_select (m : OrderedMap κ α) (names : List κ) :
    (m.select names).entries =
      names.eraseDups.filterMap fun k => (m.get? k).map fun v => (k, v) := by
  -- from the back, since entries are written in turn: a repeated name only writes its own again
  induction names using List.reverseRecOn with
  | nil => rfl
  | append_singleton names k ih =>
    have hget := m.get?_select names k
    rw [select_concat, eraseDups_concat]
    by_cases hmem : k ∈ names
    · rw [if_pos hmem] at hget
      rw [if_pos hmem, ← ih]
      cases h : m.get? k with
      | none => rfl
      | some v => exact Entries.put_of_lookup (hget.trans h)
    · rw [if_neg hmem] at hget
      rw [if_neg hmem, List.filterMap_append, ← ih, List.filterMap_cons]
      cases h : m.get? k with
      | none => exact (List.append_nil _).symm
      | some v => exact Entries.put_of_absent hget v

end OrderedMap

namespace Fields

theorem get?_content (f : Fields) (name : String) :
    f.content.get? name = (f.get? name).map Value.text :=
  Entries.lookup_map Value.text name f.entries

/-- Selecting from stored text is selecting from the text. -/
theorem content_select (f : Fields) (names : List String) :
    f.content.select names = content (OrderedMap.select names f) := by
  apply OrderedMap.ext
  show _ = (OrderedMap.select names f).entries.map fun p => (p.1, Value.text p.2)
  rw [OrderedMap.entries_select, OrderedMap.entries_select, List.map_filterMap]
  congr 1
  funext name
  rw [get?_content]
  cases OrderedMap.get? f name <;> rfl

/-- Reading stored text gives all of it, or what is requested of it. -/
theorem project_content (f : Fields) (names : List String) :
    f.content.project names = .ok (if names = [] then f else OrderedMap.select names f) := by
  rw [Content.project, Content.requested]
  split
  · exact encode_content f
  · rw [content_select]
    exact encode_content _

end Fields

end StoreBinding
