import StoreBinding.Proofs.OrderedMaps
import StoreBinding.Settings

/-!
What a process environment and an environment file say of a variable. Names count without regard to
letter case. In the environment a variable has one spelling; in a file it may have several, and the
one that decides is that which came first last, with what is last assigned to it. Assignments to
other variables make no difference.
-/
namespace StoreBinding.Settings

def spells (name other : String) : Bool := lower other == lower name

/-- The spelling of a name that decides in a file: of all those in it, the one that came first
last. -/
def decisive? (assigned : List (String × Option String)) (name : String) : Option String :=
  (assigned.map Prod.fst).eraseDups.reverse.find? (spells name)

def fileText? (assigned : List (String × Option String)) (name : String) : Option String :=
  (decisive? assigned name).bind fun spelling => (assigned.reverse.lookup spelling).join

theorem lookup_lowered {α : Type} (l : List (String × α)) (name : String) :
    (l.map fun v => (lower v.1, v.2)).lookup (lower name) =
      (l.find? fun v => spells name v.1).map Prod.snd := by
  induction l with
  | nil => rfl
  | cons v rest ih =>
    rw [List.map_cons, List.lookup_cons, List.find?_cons, ih]
    cases h : lower name == lower v.1 with
    | true =>
      have hspells : spells name v.1 = true := beq_iff_eq.mpr (beq_iff_eq.mp h).symm
      rw [hspells]
      rfl
    | false =>
      have hspells : spells name v.1 = false :=
        beq_eq_false_iff_ne.mpr (Ne.symm (beq_eq_false_iff_ne.mp h))
      rw [hspells]

theorem get?_lowered {α : Type} (l : List (String × α)) (name : String) :
    (lowered l).get? (lower name) = (l.reverse.find? fun v => spells name v.1).map Prod.snd := by
  rw [← lookup_lowered, List.map_reverse]
  exact OrderedMap.get?_ofList ..

/-- What an environment file says of a name under any spelling. -/
theorem get?_lowered_ofList (assigned : List (String × Option String)) (name : String) :
    ((lowered (OrderedMap.ofList assigned).entries).get? (lower name)).join =
      fileText? assigned name := by
  rw [get?_lowered, OrderedMap.find?_entries, OrderedMap.keys_ofList, fileText?, decisive?]
  cases (assigned.map Prod.fst).eraseDups.reverse.find? (spells name) with
  | none => rfl
  | some spelling => rw [Option.bind_some, Option.bind_some, OrderedMap.get?_ofList]

/-- What a process environment says of a name, if no other one in it is spelled like that. -/
theorem get?_lowered_of_nodup {environment : List (String × String)}
    (h : (environment.map fun v => lower v.1).Nodup) (name : String) :
    (lowered environment).get? (lower name) =
      (environment.find? fun v => spells name v.1).map Prod.snd := by
  rw [← lookup_lowered]
  apply OrderedMap.get?_ofList_of_nodup
  rwa [List.map_map]

theorem get?_lowered_eq_none {α : Type} {l : List (String × α)} {name : String}
    (h : ∀ v ∈ l, lower v.1 ≠ name) : (lowered l).get? name = none := by
  rw [OrderedMap.get?_eq_none_iff, lowered, OrderedMap.keys_ofList, List.mem_eraseDups]
  intro hmem
  obtain ⟨e, he, hname⟩ := List.mem_map.mp hmem
  obtain ⟨v, hv, rfl⟩ := List.mem_map.mp he
  exact h v hv hname

def latest? (assigned : List (String × Option String)) (name : String) : Option String :=
  (assigned.reverse.find? fun a => spells name a.1).bind Prod.snd

theorem lookup_of_find? {l : List (String × Option String)} {p : String → Bool}
    {a : String × Option String} (h : (l.find? fun b => p b.1) = some a) :
    l.lookup a.1 = some a.2 := by
  have ha : p a.1 = true := List.find?_some (p := fun b : String × Option String => p b.1) h
  induction l with
  | nil => cases h
  | cons b rest ih =>
    rw [List.find?_cons] at h
    rw [List.lookup_cons]
    cases hb : p b.1 with
    | true =>
      rw [hb] at h
      cases h
      rw [beq_self_eq_true]
    | false =>
      rw [hb] at h
      have hne : (a.1 == b.1) = false := by
        rw [beq_eq_false_iff_ne]
        intro heq
        rw [heq, hb] at ha
        cases ha
      rw [hne]
      exact ih h

/-- As long as a file spells a variable in one way, the last assignment gives the text. -/
theorem fileText?_of_one_spelling {assigned : List (String × Option String)} {name : String}
    (h : ∀ a ∈ assigned, ∀ b ∈ assigned, spells name a.1 = true → spells name b.1 = true →
      a.1 = b.1) : fileText? assigned name = latest? assigned name := by
  rw [fileText?, latest?]
  cases hfound : assigned.reverse.find? fun a => spells name a.1 with
  | none =>
    have hnone : decisive? assigned name = none := by
      rw [decisive?, List.find?_eq_none]
      intro spelling hmem
      rw [List.mem_reverse, List.mem_eraseDups] at hmem
      obtain ⟨a, ha, rfl⟩ := List.mem_map.mp hmem
      exact List.find?_eq_none.mp hfound a (List.mem_reverse.mpr ha)
    rw [hnone]
    rfl
  | some a =>
    have ha : a ∈ assigned := List.mem_reverse.mp (List.mem_of_find?_eq_some hfound)
    have hspells : spells name a.1 = true :=
      List.find?_some (p := fun a : String × Option String => spells name a.1) hfound
    have hdecisive : decisive? assigned name = some a.1 := by
      cases hfirst : decisive? assigned name with
      | none =>
        have hmem : a.1 ∈ (assigned.map Prod.fst).eraseDups.reverse :=
          List.mem_reverse.mpr (List.mem_eraseDups.mpr (List.mem_map_of_mem ha))
        exact absurd hspells (List.find?_eq_none.mp hfirst a.1 hmem)
      | some spelling =>
        have hmem : spelling ∈ assigned.map Prod.fst :=
          List.mem_eraseDups.mp (List.mem_reverse.mp (List.mem_of_find?_eq_some hfirst))
        obtain ⟨b, hb, rfl⟩ := List.mem_map.mp hmem
        rw [h b hb a ha (List.find?_some hfirst) hspells]
    rw [hdecisive, Option.bind_some, lookup_of_find? hfound, Option.bind_some, Option.join_some]

theorem filter_eraseDups (p : String → Bool) (l : List String) :
    l.eraseDups.filter p = (l.filter p).eraseDups := by
  induction l using List.reverseRecOn with
  | nil => rfl
  | append_singleton l k ih =>
    rw [eraseDups_concat, List.filter_append, apply_ite (List.filter p), List.filter_append, ih]
    cases hk : p k with
    | true =>
      have hone : [k].filter p = [k] := by simp [hk]
      have hmem : k ∈ l.filter p ↔ k ∈ l := by simp [hk]
      rw [hone, eraseDups_concat]
      simp only [hmem]
    | false =>
      have hnil : [k].filter p = [] := by simp [hk]
      rw [hnil, List.append_nil, List.append_nil, ite_self]

theorem decisive?_filter (assigned : List (String × Option String)) (name : String) :
    decisive? (assigned.filter fun a => spells name a.1) name = decisive? assigned name := by
  have hnames : (assigned.filter fun a => spells name a.1).map Prod.fst =
      (assigned.map Prod.fst).filter (spells name) := by
    rw [List.filter_map]
    rfl
  rw [decisive?, decisive?, hnames, ← filter_eraseDups, ← List.head?_filter, ← List.head?_filter,
    List.filter_reverse, List.filter_reverse, List.filter_filter]
  simp only [Bool.and_self]

/-- A file says of a variable what those entries say of it that spell its name. -/
theorem fileText?_filter (assigned : List (String × Option String)) (name : String) :
    fileText? (assigned.filter fun a => spells name a.1) name = fileText? assigned name := by
  rw [fileText?, fileText?, decisive?_filter]
  cases hfound : decisive? assigned name with
  | none => rfl
  | some spelling =>
    have hspells : spells name spelling = true := List.find?_some hfound
    have hlookup := Entries.lookup_filter (spells name) spelling assigned.reverse
    rw [if_pos hspells, Entries.lookup_eq, Entries.lookup_eq, List.filter_reverse] at hlookup
    rw [Option.bind_some, Option.bind_some, hlookup]

end StoreBinding.Settings
