import Mathlib.Data.List.Induction
import StoreBinding.OrderedMap

/-!
Ordered maps, seen from outside. Written twice, a key keeps its place and has the last value; a map
made of a list has the keys of the list in the order of their first coming.
-/
namespace StoreBinding

theorem eraseDups_concat {κ : Type} [DecidableEq κ] (l : List κ) (k : κ) :
    (l ++ [k]).eraseDups = if k ∈ l then l.eraseDups else l.eraseDups ++ [k] := by
  rw [List.eraseDups_append]
  by_cases h : k ∈ l
  · have hnil : [k].removeAll l = [] := by simp [List.removeAll, h]
    rw [if_pos h, hnil, List.eraseDups_nil, List.append_nil]
  · have hone : [k].removeAll l = [k] := by simp [List.removeAll, h]
    rw [if_neg h, hone]
    rfl

namespace Entries

variable {κ α : Type} [DecidableEq κ]

/-- Writing what is there already changes nothing. -/
theorem put_of_lookup {k : κ} {v : α} {l : List (κ × α)} (h : lookup k l = some v) :
    put k v l = l := by
  induction l with
  | nil => cases h
  | cons p rest ih =>
    obtain ⟨k', v'⟩ := p
    simp only [lookup] at h
    split at h
    · next heq =>
      cases h
      rw [put, if_pos heq, heq]
    · next hne => rw [put, if_neg hne, ih h]

theorem put_put (k : κ) (v v' : α) (l : List (κ × α)) : put k v' (put k v l) = put k v' l := by
  induction l with
  | nil => simp [put]
  | cons p rest ih => by_cases h : p.1 = k <;> simp [put, h, ih]

theorem put_of_absent {k : κ} {l : List (κ × α)} (h : lookup k l = none) (v : α) :
    put k v l = l ++ [(k, v)] := by
  induction l with
  | nil => rfl
  | cons p rest ih =>
    obtain ⟨k', v'⟩ := p
    simp only [lookup] at h
    split at h
    · cases h
    · next hne => rw [put, if_neg hne, ih h, List.cons_append]

theorem lookup_eq [BEq κ] [LawfulBEq κ] (k : κ) (l : List (κ × α)) :
    lookup k l = l.lookup k := by
  induction l with
  | nil => rfl
  | cons p rest ih =>
    obtain ⟨k', v⟩ := p
    rw [lookup, List.lookup_cons, ih]
    by_cases h : k' = k
    · rw [if_pos h, beq_iff_eq.mpr h.symm]
    · rw [if_neg h, beq_eq_false_iff_ne.mpr (Ne.symm h)]

theorem lookup_map {β : Type} (g : α → β) (k : κ) (l : List (κ × α)) :
    lookup k (l.map fun p => (p.1, g p.2)) = (lookup k l).map g := by
  induction l with
  | nil => rfl
  | cons p rest ih =>
    simp only [List.map_cons, lookup, ih]
    split <;> rfl

theorem lookup_of_mem {e : κ × α} {l : List (κ × α)} (hl : (l.map Prod.fst).Nodup)
    (hmem : e ∈ l) : lookup e.1 l = some e.2 := by
  induction l with
  | nil => cases hmem
  | cons e' rest ih =>
    obtain ⟨hfirst, hrest⟩ := List.nodup_cons.mp hl
    rcases List.mem_cons.mp hmem with rfl | hmem
    · exact if_pos rfl
    · have hne : e'.1 ≠ e.1 := fun heq => hfirst (heq ▸ List.mem_map_of_mem hmem)
      exact (if_neg hne).trans (ih hrest hmem)

theorem lookup_filter (p : κ → Bool) (k : κ) (l : List (κ × α)) :
    lookup k (l.filter fun e => p e.1) = if p k then lookup k l else none := by
  induction l with
  | nil => simp [lookup]
  | cons e rest ih =>
    by_cases hk : e.1 = k
    · cases hp : p k with
      | true => simp [lookup, hk, hp]
      | false => simp [hk, hp, ih]
    · cases hp : p e.1 with
      | true => simp [lookup, hk, hp, ih]
      | false => simp [lookup, hk, hp, ih]

end Entries

namespace OrderedMap

variable {κ α : Type} [DecidableEq κ]

/-- Of two values that are written for one key the last stays. -/
theorem insert_insert (m : OrderedMap κ α) (k : κ) (v v' : α) :
    (m.insert k v).insert k v' = m.insert k v' := ext (Entries.put_put k v v' m.entries)

theorem insert_of_get? {m : OrderedMap κ α} {k : κ} {v : α} (h : m.get? k = some v) :
    m.insert k v = m := ext (Entries.put_of_lookup h)

theorem ofList_concat (l : List (κ × α)) (p : κ × α) :
    ofList (l ++ [p]) = (ofList l).insert p.1 p.2 := by
  simp [ofList]

theorem get?_filterKeys (p : κ → Bool) (m : OrderedMap κ α) (k : κ) :
    (m.filterKeys p).get? k = if p k then m.get? k else none :=
  Entries.lookup_filter p k m.entries

theorem mem_keys_iff {m : OrderedMap κ α} {k : κ} :
    k ∈ m.keys ↔ (m.get? k).isSome := by
  rw [← Option.ne_none_iff_isSome, ne_eq, get?_eq_none_iff, Decidable.not_not]

/-- Of the values written for a key the last is found. -/
theorem get?_ofList (l : List (κ × α)) (k : κ) : (ofList l).get? k = l.reverse.lookup k := by
  induction l using List.reverseRecOn with
  | nil => rfl
  | append_singleton l p ih =>
    obtain ⟨k', v⟩ := p
    rw [ofList_concat, get?_insert, List.reverse_concat, List.lookup_cons, ih]
    by_cases h : k = k'
    · rw [if_pos h, beq_iff_eq.mpr h]
    · rw [if_neg h, beq_eq_false_iff_ne.mpr h]

/-- The keys stand in the order in which they first come. -/
theorem keys_ofList (l : List (κ × α)) : (ofList l).keys = (l.map Prod.fst).eraseDups := by
  induction l using List.reverseRecOn with
  | nil => rfl
  | append_singleton l p ih =>
    rw [ofList_concat, keys_insert, ih, List.map_append, List.map_singleton, eraseDups_concat]
    simp only [List.mem_eraseDups]

theorem entries_ofList {l : List (κ × α)} (h : (l.map Prod.fst).Nodup) :
    (ofList l).entries = l := by
  induction l using List.reverseRecOn with
  | nil => rfl
  | append_singleton l p ih =>
    rw [List.map_append, List.map_singleton, List.nodup_append] at h
    obtain ⟨hl, -, hdisjoint⟩ := h
    have hnew : Entries.lookup p.1 l = none := Entries.lookup_eq_none_iff.mpr fun hmem =>
      hdisjoint p.1 hmem p.1 (List.mem_singleton.mpr rfl) rfl
    rw [ofList_concat]
    show Entries.put p.1 p.2 (ofList l).entries = _
    rw [ih hl, Entries.put_of_absent hnew]

/-- Keys that are written once are found as in the list. -/
theorem get?_ofList_of_nodup {l : List (κ × α)} (h : (l.map Prod.fst).Nodup) (k : κ) :
    (ofList l).get? k = l.lookup k := by
  rw [get?, entries_ofList h, Entries.lookup_eq]

theorem get?_of_mem {m : OrderedMap κ α} {e : κ × α} (h : e ∈ m.entries) :
    m.get? e.1 = some e.2 := Entries.lookup_of_mem m.nodup h

/-- Looking through the entries from the end is looking through the keys. -/
theorem find?_entries (m : OrderedMap κ α) (p : κ → Bool) :
    (m.entries.reverse.find? fun e => p e.1).map Prod.snd =
      (m.keys.reverse.find? p).bind m.get? := by
  rw [keys, ← List.map_reverse, List.find?_map]
  cases hfound : m.entries.reverse.find? (p ∘ Prod.fst) with
  | none =>
    have hnone : (m.entries.reverse.find? fun e => p e.1) = none := hfound
    rw [hnone]
    rfl
  | some e =>
    have hsome : (m.entries.reverse.find? fun e => p e.1) = some e := hfound
    have hmem : e ∈ m.entries := List.mem_reverse.mp (List.mem_of_find?_eq_some hfound)
    rw [hsome, Option.map_some, Option.map_some, Option.bind_some, get?_of_mem hmem]

end OrderedMap

end StoreBinding
