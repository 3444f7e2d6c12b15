import Mathlib.Data.List.Basic
import StoreBinding.Proofs.Document
import StoreBinding.Proofs.Grammar

/-!
What a request selects of a document, and what comes of it. A value has no text exactly if it is
bytes that no text has, or has an integer in it, at any depth, with more digits than a numeral may
have. Main statement: a projection gives the texts of the selected values, or fails with the first
of them that has none; values that are not selected make no difference, projecting texts again
changes nothing, and two requests in turn are the second one cut down to the names of the first.
-/
namespace StoreBinding

namespace Numeral

/-- A number has more digits than there are places exactly if it is not below that power of ten. -/
theorem lt_length_toDigits_iff (n : Nat) {places : Nat} (h : 0 < places) :
    places < (Nat.toDigits 10 n).length ↔ ¬ n < Nat.pow 10 places := by
  rw [← Nat.not_le]
  exact not_congr (Nat.length_toDigits_le_iff (by decide) h)

theorem text?_eq_none_iff (n : Int) :
    text? n = none ↔ digitLimit < (Nat.toDigits 10 n.natAbs).length := by
  have hlimit : 0 < digitLimit := by decide
  rewrite [lt_length_toDigits_iff _ hlimit]
  unfold text?
  split
  · next hsmall => exact ⟨nofun, fun hlong => absurd hsmall hlong⟩
  · next hlong => exact ⟨fun _ => hlong, fun _ => rfl⟩

end Numeral

namespace Value

inductive HasOverlong : Value → Prop
  | int {n : Int} (long : 4300 < (Nat.toDigits 10 n.natAbs).length) : HasOverlong (.int n)
  | item {items : List Value} {v : Value} (mem : v ∈ items) (h : HasOverlong v) :
      HasOverlong (.list items)
  | component {items : List Value} {v : Value} (mem : v ∈ items) (h : HasOverlong v) :
      HasOverlong (.tuple items)
  | entry {entries : List (String × Value)} {k : String} {v : Value} (mem : (k, v) ∈ entries)
      (h : HasOverlong v) : HasOverlong (.mapping entries)

inductive Textless : Value → Prop
  | bytes {b : ByteArray} (foreign : ∀ s : String, b ≠ s.toUTF8) : Textless (.bytes b)
  | byteArray {b : ByteArray} (foreign : ∀ s : String, b ≠ s.toUTF8) : Textless (.byteArray b)
  | integer {v : Value} (h : v.HasOverlong) : Textless v

theorem exists_numeral_error_iff (n : Int) :
    (∃ e, numeral n = .error e) ↔ 4300 < (Nat.toDigits 10 n.natAbs).length := by
  refine Iff.trans ?_ (Numeral.text?_eq_none_iff n)
  unfold numeral
  cases Numeral.text? n with
  | some s => exact ⟨fun ⟨_, h⟩ => (nomatch h), fun h => (nomatch h)⟩
  | none => exact ⟨fun _ => rfl, fun _ => ⟨.tooManyDigits, rfl⟩⟩

theorem exists_map_error_iff {ε α β : Type} (f : α → β) (x : Except ε α) :
    (∃ e, x.map f = .error e) ↔ ∃ e, x = .error e := by
  cases x with
  | error e => exact ⟨fun _ => ⟨e, rfl⟩, fun _ => ⟨e, rfl⟩⟩
  | ok a => exact ⟨fun ⟨_, h⟩ => (nomatch h), fun ⟨_, h⟩ => (nomatch h)⟩

mutual

/-- Only an integer keeps a literal from being written. -/
theorem exists_literal_error_iff : ∀ v : Value, (∃ e, v.literal = .error e) ↔ v.HasOverlong
  | .null | .bool _ | .float _ | .text _ | .bytes _ | .byteArray _ =>
    ⟨fun ⟨_, h⟩ => (nomatch h), fun h => (nomatch h)⟩
  | .int n => by
    rw [literal, exists_numeral_error_iff]
    exact ⟨.int, fun | .int long => long⟩
  | .list items => by
    rw [literal, exists_map_error_iff, exists_itemLiterals_error_iff items]
    exact ⟨fun ⟨_, mem, h⟩ => .item mem h, fun | .item mem h => ⟨_, mem, h⟩⟩
  | .tuple items => by
    rw [literal, exists_map_error_iff, exists_itemLiterals_error_iff items]
    exact ⟨fun ⟨_, mem, h⟩ => .component mem h, fun | .component mem h => ⟨_, mem, h⟩⟩
  | .mapping entries => by
    rw [literal, exists_map_error_iff, exists_entryLiterals_error_iff entries]
    exact ⟨fun ⟨_, mem, h⟩ => .entry mem h, fun | .entry mem h => ⟨(_, _), mem, h⟩⟩

theorem exists_itemLiterals_error_iff :
    ∀ items : List Value, (∃ e, itemLiterals items = .error e) ↔ ∃ v ∈ items, v.HasOverlong
  | [] => ⟨fun ⟨_, h⟩ => (nomatch h), fun ⟨_, h, _⟩ => (nomatch h)⟩
  | v :: rest => by
    have hv := exists_literal_error_iff v
    have hrest := exists_itemLiterals_error_iff rest
    simp only [List.mem_cons, exists_eq_or_imp, ← hv, ← hrest, itemLiterals]
    cases v.literal with
    | error e => simp
    | ok s => simp [exists_map_error_iff]

theorem exists_entryLiterals_error_iff :
    ∀ entries : List (String × Value),
      (∃ e, entryLiterals entries = .error e) ↔ ∃ p ∈ entries, p.2.HasOverlong
  | [] => ⟨fun ⟨_, h⟩ => (nomatch h), fun ⟨_, h, _⟩ => (nomatch h)⟩
  | (k, v) :: rest => by
    have hv := exists_literal_error_iff v
    have hrest := exists_entryLiterals_error_iff rest
    simp only [List.mem_cons, exists_eq_or_imp, ← hv, ← hrest, entryLiterals]
    cases v.literal with
    | error e => simp
    | ok s => simp [exists_map_error_iff]

end

theorem exists_decode_error_iff (b : ByteArray) :
    (∃ e, (Text.Utf8.decode b).mapError Unwritable.malformed = .error e) ↔
      ∀ s : String, b ≠ s.toUTF8 := by
  simp only [ne_eq, ← Text.Utf8.decode_eq_ok_iff]
  cases Text.Utf8.decode b <;> simp [Except.mapError]

/-- A value has no text for one of two reasons. -/
theorem exists_encode_error_iff (v : Value) : (∃ e, v.encode = .error e) ↔ v.Textless := by
  cases v with
  | text s => exact ⟨fun ⟨_, h⟩ => (nomatch h), fun | .integer h => (nomatch h)⟩
  | bytes b =>
    rw [encode, exists_decode_error_iff]
    exact ⟨.bytes, fun | .bytes foreign => foreign | .integer h => (nomatch h)⟩
  | byteArray b =>
    rw [encode, exists_decode_error_iff]
    exact ⟨.byteArray, fun | .byteArray foreign => foreign | .integer h => (nomatch h)⟩
  | null | bool | int | float | list | tuple | mapping =>
    rw [encode, shown, exists_literal_error_iff]
    · exact ⟨.integer, fun | .integer h => h⟩
    all_goals exact nofun

theorem exists_encode_ok_iff (v : Value) : (∃ t, v.encode = .ok t) ↔ ¬ v.Textless := by
  rw [← exists_encode_error_iff]
  cases v.encode <;> simp

end Value

namespace Entries

variable {κ α β ε : Type}

/-- The first value that the function fails on decides the failure. -/
theorem mapValues_eq_error_iff {f : α → Except ε β} {l : List (κ × α)} {e : ε} :
    mapValues f l = .error e ↔ ∃ before p after, l = before ++ p :: after ∧
      (∀ q ∈ before, ∃ w, f q.2 = .ok w) ∧ f p.2 = .error e := by
  induction l with
  | nil => simp [mapValues]
  | cons p rest ih =>
    obtain ⟨k, v⟩ := p
    rw [mapValues]
    cases hv : f v with
    | error e' =>
      constructor
      · intro h
        cases h
        exact ⟨[], (k, v), rest, rfl, List.forall_mem_nil _, hv⟩
      · rintro ⟨_ | ⟨q, before⟩, p, after, hsplit, hbefore, hp⟩
        · cases hsplit
          dsimp only at hp
          rw [hv] at hp
          cases hp
          rfl
        · cases hsplit
          obtain ⟨w, hw⟩ := hbefore (k, v) List.mem_cons_self
          rw [hv] at hw
          cases hw
    | ok w =>
      have hrest : (∃ before p after, (k, v) :: rest = before ++ p :: after ∧
          (∀ q ∈ before, ∃ w, f q.2 = .ok w) ∧ f p.2 = .error e) ↔ mapValues f rest = .error e := by
        rw [ih]
        constructor
        · rintro ⟨_ | ⟨q, before⟩, p, after, hsplit, hbefore, hp⟩
          · cases hsplit
            rw [hv] at hp
            cases hp
          · cases hsplit
            exact ⟨before, p, after, rfl, fun q hq => hbefore q (List.mem_cons_of_mem _ hq), hp⟩
        · rintro ⟨before, p, after, rfl, hbefore, hp⟩
          exact ⟨(k, v) :: before, p, after, rfl, List.forall_mem_cons.mpr ⟨⟨w, hv⟩, hbefore⟩, hp⟩
      rw [hrest]
      cases mapValues f rest <;> simp

theorem lookup_mapValues [DecidableEq κ] {f : α → Except ε β} {l : List (κ × α)}
    {l' : List (κ × β)} (h : mapValues f l = .ok l') (k : κ) :
    (lookup k l).map f = (lookup k l').map .ok := by
  induction l generalizing l' with
  | nil => cases h; rfl
  | cons p rest ih =>
    obtain ⟨k', v⟩ := p
    simp only [mapValues] at h
    split at h
    · cases h
    · next w hv =>
      split at h
      · cases h
      · next ws hws =>
        cases h
        simp only [lookup]
        split
        · exact congrArg some hv
        · exact ih hws

end Entries

namespace OrderedMap

variable {κ α β ε : Type} [DecidableEq κ]

/-- A map is told by its keys in order and what is found for each. -/
theorem entries_eq_filterMap (m : OrderedMap κ α) :
    m.entries = m.keys.filterMap fun k => (m.get? k).map fun v => (k, v) := by
  rw [keys, List.filterMap_map]
  have hself : ∀ e ∈ m.entries,
      ((fun k => (m.get? k).map fun v => (k, v)) ∘ Prod.fst) e = some e := by
    intro e he
    rw [Function.comp, get?_of_mem he]
    rfl
  rw [List.filterMap_congr hself, List.filterMap_some]

theorem get?_mapValues {f : α → Except ε β} {m : OrderedMap κ α} {m' : OrderedMap κ β}
    (h : m.mapValues f = .ok m') (k : κ) : (m.get? k).map f = (m'.get? k).map .ok :=
  Entries.lookup_mapValues (mapValues_eq_ok_iff.mp h) k

omit [DecidableEq κ] in
theorem keys_mapValues {f : α → Except ε β} {m : OrderedMap κ α} {m' : OrderedMap κ β}
    (h : m.mapValues f = .ok m') : m'.keys = m.keys :=
  Entries.keys_mapValues (mapValues_eq_ok_iff.mp h)

omit [DecidableEq κ] in
theorem mapValues_eq_error_iff {f : α → Except ε β} {m : OrderedMap κ α} {e : ε} :
    m.mapValues f = .error e ↔ Entries.mapValues f m.entries = .error e := by
  rw [← map_entries_mapValues]
  cases m.mapValues f with
  | error e' => simp [Except.map]
  | ok m' => simp [Except.map]

/-- What can be done with all values can be done with those of any names. -/
theorem mapValues_select {f : α → Except ε β} {m : OrderedMap κ α} {m' : OrderedMap κ β}
    (h : m.mapValues f = .ok m') (names : List κ) :
    (m.select names).mapValues f = .ok (m'.select names) := by
  rw [mapValues_eq_ok_iff, entries_select, entries_select]
  induction names.eraseDups with
  | nil => rfl
  | cons k rest ih =>
    have hk := get?_mapValues h k
    cases hv : m.get? k with
    | none =>
      rw [hv] at hk
      have hnone : m'.get? k = none := Option.map_eq_none_iff.mp hk.symm
      rw [List.filterMap_cons_none (by rw [hv]; rfl), List.filterMap_cons_none (by rw [hnone]; rfl)]
      exact ih
    | some v =>
      rw [hv] at hk
      obtain ⟨w, hw, hfw⟩ := Option.map_eq_some_iff.mp hk.symm
      rw [List.filterMap_cons_some (by rw [hv]; rfl), List.filterMap_cons_some (by rw [hw]; rfl)]
      simp only [Entries.mapValues, ← hfw, ih]

end OrderedMap

namespace Content

def selection (c : Content) (names : List String) : List String :=
  if names = [] then c.keys else names.eraseDups.filter fun k => k ∈ c.keys

theorem entries_requested (c : Content) (names : List String) :
    (c.requested names).entries =
      (c.selection names).filterMap fun k => (c.get? k).map fun v => (k, v) := by
  unfold requested selection
  split
  · exact c.entries_eq_filterMap
  · rw [OrderedMap.entries_select, List.filterMap_filter]
    refine List.filterMap_congr fun k _ => ?_
    by_cases hk : k ∈ c.keys
    · simp [hk]
    · simp [hk, OrderedMap.get?_eq_none_iff.mpr hk]

theorem mem_keys_of_mem_selection {c : Content} {names : List String} {k : String}
    (h : k ∈ c.selection names) : k ∈ c.keys := by
  unfold selection at h
  split at h
  · exact h
  · exact of_decide_eq_true (List.mem_filter.mp h).2

theorem exists_get?_of_mem_selection {c : Content} {names : List String} {k : String}
    (h : k ∈ c.selection names) : ∃ v, c.get? k = some v :=
  Option.isSome_iff_exists.mp (OrderedMap.mem_keys_iff.mp (mem_keys_of_mem_selection h))

theorem keys_requested (c : Content) (names : List String) :
    (c.requested names).keys = c.selection names := by
  rw [OrderedMap.keys, entries_requested, List.map_filterMap]
  have hself : ∀ k ∈ c.selection names,
      Option.map Prod.fst ((c.get? k).map fun v => (k, v)) = some k := by
    intro k hk
    obtain ⟨v, hv⟩ := exists_get?_of_mem_selection hk
    rw [hv]
    rfl
  rw [List.filterMap_congr hself, List.filterMap_some]

theorem get?_requested (c : Content) (names : List String) {k : String}
    (hk : k ∈ c.selection names) : (c.requested names).get? k = c.get? k := by
  unfold selection at hk
  unfold requested
  split
  · rfl
  · next hnames =>
    rw [if_neg hnames] at hk
    rw [OrderedMap.get?_select, if_pos (List.mem_eraseDups.mp (List.mem_filter.mp hk).1)]

/-- A projection succeeds with the texts of what is selected. -/
theorem project_ok {c : Content} {names : List String} {f : Fields}
    (h : c.project names = .ok f) :
    f.keys = c.selection names ∧ ∀ k ∈ c.selection names, ∃ v t, c.get? k = some v ∧
      v.encode = .ok t ∧ f.get? k = some t := by
  refine ⟨(OrderedMap.keys_mapValues h).trans (c.keys_requested names), fun k hk => ?_⟩
  obtain ⟨v, hv⟩ := exists_get?_of_mem_selection hk
  have hmapped := OrderedMap.get?_mapValues h k
  rw [get?_requested c names hk, hv] at hmapped
  obtain ⟨t, ht, hencoded⟩ := Option.map_eq_some_iff.mp hmapped.symm
  exact ⟨v, t, hv, hencoded.symm, ht⟩

/-- A projection fails exactly with the first selected value that has no text. -/
theorem project_eq_error_iff {c : Content} {names : List String} {e : Unwritable} :
    c.project names = .error e ↔ ∃ before k after v, c.selection names = before ++ k :: after ∧
      (∀ k' ∈ before, ∀ v', c.get? k' = some v' → ∃ t, v'.encode = .ok t) ∧ c.get? k = some v ∧
      v.encode = .error e := by
  have hentry : ∀ p ∈ (c.requested names).entries, c.get? p.1 = some p.2 := by
    intro p hp
    rw [entries_requested] at hp
    obtain ⟨k, -, hk⟩ := List.mem_filterMap.mp hp
    obtain ⟨v, hv, rfl⟩ := Option.map_eq_some_iff.mp hk
    exact hv
  rw [project, encode, OrderedMap.mapValues_eq_error_iff, Entries.mapValues_eq_error_iff]
  constructor
  · rintro ⟨before, p, after, hsplit, hbefore, hp⟩
    have hmem : ∀ q, q ∈ before ∨ q = p → q ∈ (c.requested names).entries := by
      intro q hq
      rw [hsplit, List.mem_append, List.mem_cons]
      exact hq.imp_right Or.inl
    refine ⟨before.map Prod.fst, p.1, after.map Prod.fst, p.2, ?_, ?_, ?_, hp⟩
    · rw [← keys_requested, OrderedMap.keys, hsplit, List.map_append, List.map_cons]
    · intro k' hk' v' hv'
      obtain ⟨q, hq, rfl⟩ := List.mem_map.mp hk'
      rw [hentry q (hmem q (Or.inl hq))] at hv'
      cases hv'
      exact hbefore q hq
    · exact hentry p (hmem p (Or.inr rfl))
  · rintro ⟨before, k, after, v, hsplit, hbefore, hv, hencode⟩
    rw [entries_requested, hsplit, List.filterMap_append, List.filterMap_cons_some (by rw [hv]; rfl)]
    refine ⟨_, (k, v), _, rfl, fun q hq => ?_, hencode⟩
    obtain ⟨k', hk', hq⟩ := List.mem_filterMap.mp hq
    obtain ⟨v', hv', rfl⟩ := Option.map_eq_some_iff.mp hq
    exact hbefore k' hk' v' hv'

/-- Values that are not selected make no difference. -/
theorem project_congr {c c' : Content} {names : List String}
    (hselection : c'.selection names = c.selection names)
    (hvalues : ∀ k ∈ c.selection names, c'.get? k = c.get? k) :
    c'.project names = c.project names := by
  have hrequested : c'.requested names = c.requested names := by
    apply OrderedMap.ext
    rw [entries_requested, entries_requested, hselection]
    exact List.filterMap_congr fun k hk => by rw [hvalues k hk]
  rw [project, project, hrequested]

/-- Texts that were read stand for the document that they were read from. -/
theorem project_texts {c : Content} {f : Fields} (h : c.project [] = .ok f)
    (names : List String) : f.content.project names = c.project names := by
  have hall : c.encode = .ok f := h
  rw [Fields.project_content, project, requested]
  split
  · exact hall.symm
  · exact (OrderedMap.mapValues_select hall names).symm

/-- A second request selects those of its names that the first one selected. -/
theorem selection_texts {c : Content} {names names' : List String} {f : Fields}
    (hnames : names ≠ []) (hnames' : names' ≠ []) (h : c.project names = .ok f) :
    f.content.selection names' = names'.eraseDups.filter fun k => k ∈ names ∧ k ∈ c.keys := by
  have hkeys : f.content.keys = names.eraseDups.filter fun k => k ∈ c.keys := by
    have hcontent : f.content.keys = f.keys := List.map_map
    rw [hcontent, (project_ok h).1, selection, if_neg hnames]
  rw [selection, if_neg hnames', hkeys]
  refine List.filter_congr fun k _ => ?_
  simp only [List.mem_filter, List.mem_eraseDups, decide_eq_true_eq]

structure Projects (c : Content) (names : List String) : Prop where
  given : ∀ f, c.project names = .ok f → f.keys = c.selection names ∧
    ∀ k ∈ c.selection names, ∃ v t, c.get? k = some v ∧ v.encode = .ok t ∧ f.get? k = some t
  refused : (∃ e, c.project names = .error e) ↔
    ∃ k ∈ c.selection names, ∃ v, c.get? k = some v ∧ v.Textless
  blamed : ∀ e, c.project names = .error e ↔
    ∃ before k after v, c.selection names = before ++ k :: after ∧
      (∀ k' ∈ before, ∀ v', c.get? k' = some v' → ¬ v'.Textless) ∧ c.get? k = some v ∧
      v.encode = .error e
  unselected : ∀ c' : Content, c'.selection names = c.selection names →
    (∀ k ∈ c.selection names, c'.get? k = c.get? k) → c'.project names = c.project names
  encoded : ∀ f, c.encode = .ok f → f.content.encode = .ok f ∧ f.content.project [] = .ok f
  again : ∀ f, c.project [] = .ok f → f.content.project names = c.project names
  twice : ∀ names' f, names ≠ [] → names' ≠ [] → c.project names = .ok f →
    ∃ g, f.content.project names' = .ok g ∧
      g.keys = (names'.eraseDups.filter fun k => k ∈ names ∧ k ∈ c.keys) ∧
      ∀ k ∈ g.keys, g.get? k = f.get? k

/-- Every document and every request: what is selected and in which order, which values keep the
projection from being made, and that texts are projected as what they were made from. -/
theorem projects (c : Content) (names : List String) : c.Projects names where
  given _ := project_ok
  refused := by
    constructor
    · rintro ⟨e, h⟩
      obtain ⟨before, k, after, v, hsplit, -, hv, hencode⟩ := project_eq_error_iff.mp h
      have hk : k ∈ c.selection names := by
        rw [hsplit]
        exact List.mem_append_right before List.mem_cons_self
      exact ⟨k, hk, v, hv, (Value.exists_encode_error_iff v).mp ⟨e, hencode⟩⟩
    · rintro ⟨k, hk, v, hv, htextless⟩
      cases hproject : c.project names with
      | error e => exact ⟨e, rfl⟩
      | ok f =>
        obtain ⟨v', t, hv', hencode, -⟩ := (project_ok hproject).2 k hk
        rw [hv] at hv'
        cases hv'
        exact absurd htextless ((Value.exists_encode_ok_iff v).mp ⟨t, hencode⟩)
  blamed e := by
    simp only [project_eq_error_iff, Value.exists_encode_ok_iff]
  unselected _ := project_congr
  encoded f _ := ⟨f.encode_content, by rw [Fields.project_content, if_pos rfl]⟩
  again _ h := project_texts h names
  twice names' f hnames hnames' h := by
    have hproject : f.content.project names' = .ok (OrderedMap.select names' f) := by
      rw [Fields.project_content, if_neg hnames']
    have hkeys := (project_ok hproject).1
    rw [selection_texts hnames hnames' h] at hkeys
    refine ⟨_, hproject, hkeys, fun k hk => ?_⟩
    rw [hkeys, List.mem_filter, List.mem_eraseDups] at hk
    rw [OrderedMap.get?_select, if_pos hk.1]

def mixed : Content := ⟨[("a", .bytes ⟨#[0xff]⟩), ("b", .text "x")], by decide⟩

/-- The bytes matter exactly if they are asked for, and a request for names that are not there is
not one for everything. -/
theorem projects_mixed :
    (∃ e, mixed.project [] = .error e) ∧ (∃ e, mixed.project ["b", "a"] = .error e) ∧
    (∃ f, mixed.project ["b", "z", "b"] = .ok f ∧ f.keys = ["b"]) ∧
    ∃ f, mixed.project ["z"] = .ok f ∧ f.keys = [] := by
  have hforeign : ∀ s : String, (⟨#[0xff]⟩ : ByteArray) ≠ s.toUTF8 := by
    intro s hs
    have hvalid : ByteArray.IsValidUTF8 ⟨#[0xff]⟩ := hs ▸ s.isValidUTF8
    exact absurd hvalid (by decide +kernel)
  have hrefused : ∀ names, "a" ∈ mixed.selection names → ∃ e, mixed.project names = .error e :=
    fun names ha => (projects mixed names).refused.mpr ⟨"a", ha, _, rfl, .bytes hforeign⟩
  refine ⟨hrefused [] (by decide), hrefused ["b", "a"] (by decide), ?_, ?_⟩
  · exact ⟨_, rfl, ((projects mixed ["b", "z", "b"]).given _ rfl).1⟩
  · exact ⟨_, rfl, ((projects mixed ["z"]).given _ rfl).1⟩

end Content

end StoreBinding
