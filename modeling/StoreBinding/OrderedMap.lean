/-!
Finite maps that remember the order in which their keys first came. Writing to a key
that is present keeps its place and replaces its value; a new key goes to the end. The
keys are distinct by construction, so a map is read equally well as a list of entries
and as a partial function.
-/
namespace StoreBinding

structure OrderedMap (κ α : Type) where
  entries : List (κ × α)
  nodup : (entries.map Prod.fst).Nodup

namespace Entries

variable {κ α β ε : Type} [DecidableEq κ]

def lookup (k : κ) : List (κ × α) → Option α
  | [] => none
  | (k', v) :: rest => if k' = k then some v else lookup k rest

def put (k : κ) (v : α) : List (κ × α) → List (κ × α)
  | [] => [(k, v)]
  | (k', v') :: rest => if k' = k then (k, v) :: rest else (k', v') :: put k v rest

/-- Applies a function that may fail to every value, front to back; the first failure wins. -/
def mapValues (f : α → Except ε β) : List (κ × α) → Except ε (List (κ × β))
  | [] => .ok []
  | (k, v) :: rest =>
    match f v with
    | .error e => .error e
    | .ok w =>
      match mapValues f rest with
      | .error e => .error e
      | .ok ws => .ok ((k, w) :: ws)

theorem keys_put (k : κ) (v : α) (l : List (κ × α)) :
    (put k v l).map Prod.fst =
      if k ∈ l.map Prod.fst then l.map Prod.fst else l.map Prod.fst ++ [k] := by
  induction l with
  | nil => simp [put]
  | cons p rest ih =>
    obtain ⟨k', v'⟩ := p
    by_cases h : k' = k
    · simp [put, h]
    · have h' : ¬ k = k' := fun e => h e.symm
      simp only [put, h, if_false, List.map_cons, ih, List.mem_cons, h', false_or]
      split <;> simp

theorem nodup_put (k : κ) (v : α) (l : List (κ × α)) (h : (l.map Prod.fst).Nodup) :
    ((put k v l).map Prod.fst).Nodup := by
  rw [keys_put]
  split
  · exact h
  · rename_i hk
    exact List.nodup_append.2 ⟨h, by simp, by
      intro a ha b hb
      rw [List.mem_singleton.1 hb]
      exact fun e => hk (e ▸ ha)⟩

omit [DecidableEq κ] in
theorem keys_mapValues {f : α → Except ε β} {l : List (κ × α)} {l' : List (κ × β)}
    (h : mapValues f l = .ok l') : l'.map Prod.fst = l.map Prod.fst := by
  induction l generalizing l' with
  | nil => cases h; rfl
  | cons p rest ih =>
    obtain ⟨k, v⟩ := p
    simp only [mapValues] at h
    split at h
    · cases h
    · split at h
      · cases h
      · rename_i ws hws
        cases h
        simp [ih hws]

omit [DecidableEq κ] in
theorem mapValues_map {γ : Type} (f : β → Except ε γ) (g : α → β) (l : List (κ × α)) :
    mapValues f (l.map fun p => (p.1, g p.2)) = mapValues (fun v => f (g v)) l := by
  induction l with
  | nil => rfl
  | cons p rest ih => simp only [List.map_cons, mapValues, ih]

omit [DecidableEq κ] in
theorem mapValues_ok (l : List (κ × α)) :
    mapValues (fun v => (.ok v : Except ε α)) l = .ok l := by
  induction l with
  | nil => rfl
  | cons p rest ih => simp only [mapValues, ih]

theorem lookup_put_self (k : κ) (v : α) (l : List (κ × α)) : lookup k (put k v l) = some v := by
  induction l with
  | nil => simp [put, lookup]
  | cons p rest ih => by_cases h : p.1 = k <;> simp [put, lookup, h, ih]

theorem lookup_put_of_ne {k k' : κ} (h : k' ≠ k) (v : α) (l : List (κ × α)) :
    lookup k' (put k v l) = lookup k' l := by
  induction l with
  | nil => simp [put, lookup, h.symm]
  | cons p rest ih =>
    by_cases hp : p.1 = k
    · simp [put, lookup, hp, h.symm]
    · simp [put, lookup, hp, ih]

theorem lookup_eq_none_iff {k : κ} {l : List (κ × α)} :
    lookup k l = none ↔ k ∉ l.map Prod.fst := by
  induction l with
  | nil => simp [lookup]
  | cons p rest ih =>
    by_cases h : p.1 = k
    · simp [lookup, h]
    · simp only [lookup, h, if_false, ih, List.map_cons, List.mem_cons, not_or]
      exact ⟨fun h' => ⟨fun e => h e.symm, h'⟩, fun h' => h'.2⟩

theorem lookup_filter_ne (k k' : κ) (l : List (κ × α)) :
    lookup k' (l.filter fun p => decide (p.1 ≠ k)) = if k' = k then none else lookup k' l := by
  induction l with
  | nil => simp [lookup]
  | cons p rest ih =>
    by_cases hp : p.1 = k
    · by_cases hk : k' = k
      · simp_all
      · have : ¬ k = k' := fun e => hk e.symm
        simp_all [lookup]
    · by_cases hk : k' = k <;> simp_all [lookup]

end Entries

namespace OrderedMap

variable {κ α β ε : Type} [DecidableEq κ]

omit [DecidableEq κ] in
@[ext]
theorem ext {m m' : OrderedMap κ α} (h : m.entries = m'.entries) : m = m' := by
  cases m; cases m'; cases h; rfl

def empty : OrderedMap κ α := ⟨[], List.nodup_nil⟩

instance : EmptyCollection (OrderedMap κ α) := ⟨empty⟩

instance : Inhabited (OrderedMap κ α) := ⟨empty⟩

def keys (m : OrderedMap κ α) : List κ := m.entries.map Prod.fst

def get? (m : OrderedMap κ α) (k : κ) : Option α := Entries.lookup k m.entries

def contains (m : OrderedMap κ α) (k : κ) : Bool := (m.get? k).isSome

def insert (m : OrderedMap κ α) (k : κ) (v : α) : OrderedMap κ α :=
  ⟨Entries.put k v m.entries, Entries.nodup_put k v m.entries m.nodup⟩

def erase (m : OrderedMap κ α) (k : κ) : OrderedMap κ α :=
  ⟨m.entries.filter fun p => decide (p.1 ≠ k),
    m.nodup.sublist ((List.filter_sublist (p := fun p => decide (p.1 ≠ k))).map Prod.fst)⟩

/-- Writes the entries one after the other: of two values for one key the last stays, in the
place of the first. -/
def ofList (l : List (κ × α)) : OrderedMap κ α :=
  l.foldl (fun m p => m.insert p.1 p.2) empty

/-- Keeps the entries whose keys satisfy a test. -/
def filterKeys (p : κ → Bool) (m : OrderedMap κ α) : OrderedMap κ α :=
  ⟨m.entries.filter fun e => p e.1,
    m.nodup.sublist ((List.filter_sublist (p := fun e => p e.1)).map Prod.fst)⟩

/-- The entries of the requested keys that are present, in the order of the request; a key
requested twice counts where it is first. -/
def select (names : List κ) (m : OrderedMap κ α) : OrderedMap κ α :=
  ofList (names.filterMap fun k => (m.get? k).map fun v => (k, v))

/-- Applies a function that may fail to every value in order, keeping the keys. -/
def mapValues (f : α → Except ε β) (m : OrderedMap κ α) : Except ε (OrderedMap κ β) :=
  match h : Entries.mapValues f m.entries with
  | .error e => .error e
  | .ok l => .ok ⟨l, Entries.keys_mapValues h ▸ m.nodup⟩

omit [DecidableEq κ] in
@[simp] theorem entries_empty : (∅ : OrderedMap κ α).entries = [] := rfl

@[simp] theorem get?_empty (k : κ) : (∅ : OrderedMap κ α).get? k = none := rfl

@[simp] theorem get?_insert_self (m : OrderedMap κ α) (k : κ) (v : α) :
    (m.insert k v).get? k = some v := Entries.lookup_put_self k v m.entries

theorem get?_insert_of_ne (m : OrderedMap κ α) {k k' : κ} (h : k' ≠ k) (v : α) :
    (m.insert k v).get? k' = m.get? k' := Entries.lookup_put_of_ne h v m.entries

theorem get?_insert (m : OrderedMap κ α) (k k' : κ) (v : α) :
    (m.insert k v).get? k' = if k' = k then some v else m.get? k' := by
  split
  · rename_i h; rw [h, get?_insert_self]
  · rename_i h; exact m.get?_insert_of_ne h v

/-- What is found after a key was written is what was written there, or was found before. -/
theorem of_get?_insert {m : OrderedMap κ α} {k k' : κ} {v x : α}
    (h : (m.insert k v).get? k' = some x) : k' = k ∧ x = v ∨ m.get? k' = some x := by
  rw [get?_insert] at h
  split at h
  · rename_i hk
    exact Or.inl ⟨hk, (Option.some.inj h).symm⟩
  · exact Or.inr h

theorem get?_erase (m : OrderedMap κ α) (k k' : κ) :
    (m.erase k).get? k' = if k' = k then none else m.get? k' :=
  Entries.lookup_filter_ne k k' m.entries

theorem get?_eq_none_iff {m : OrderedMap κ α} {k : κ} : m.get? k = none ↔ k ∉ m.keys :=
  Entries.lookup_eq_none_iff

theorem keys_insert (m : OrderedMap κ α) (k : κ) (v : α) :
    (m.insert k v).keys = if k ∈ m.keys then m.keys else m.keys ++ [k] :=
  Entries.keys_put k v m.entries

omit [DecidableEq κ] in
theorem map_entries_mapValues (f : α → Except ε β) (m : OrderedMap κ α) :
    (m.mapValues f).map entries = Entries.mapValues f m.entries := by
  unfold mapValues
  split <;> next h => exact h.symm

omit [DecidableEq κ] in
theorem mapValues_eq_ok_iff {f : α → Except ε β} {m : OrderedMap κ α} {m' : OrderedMap κ β} :
    m.mapValues f = .ok m' ↔ Entries.mapValues f m.entries = .ok m'.entries := by
  unfold mapValues
  split
  · rename_i e h
    simp [h]
  · rename_i l h
    constructor
    · intro hm
      cases hm
      exact h
    · intro hl
      exact congrArg Except.ok (ext (Except.ok.inj (h.symm.trans hl)))

end OrderedMap

end StoreBinding
