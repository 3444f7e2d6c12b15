import StoreBinding.Proofs.Handback

/-!
The run with its workers one after the other is one of the runs under a schedule: the one that gives
each worker all its turns at once. So what is shown of every schedule holds of the run as it is.
-/
namespace StoreBinding.Smoke

variable {S : Type}

def blocks (turns : Nat) (seats : List Nat) : List Nat := seats.flatMap (List.replicate turns)

theorem le_count_blocks {turns seat : Nat} {seats : List Nat} (h : seat ∈ seats) :
    turns ≤ (blocks turns seats).count seat := by
  have hall : (List.replicate turns seat).Sublist (blocks turns seats) :=
    List.sublist_flatten_of_mem (List.mem_map_of_mem h)
  have hcount := hall.count_le seat
  rwa [List.count_replicate_self] at hcount

section

variable (table : String) (choice : Choice)

theorem length_turn (p : List (Worker S) × S) (mover : Nat) :
    (turn table choice p mover).1.length = p.1.length := by
  unfold turn
  split
  · rfl
  · exact List.length_set

theorem length_play (schedule : List Nat) (p : List (Worker S) × S) :
    (play table choice schedule p).1.length = p.1.length := by
  induction schedule generalizing p with
  | nil => rfl
  | cons mover rest ih => exact (ih _).trans (length_turn table choice p mover)

theorem length_outcomes (records : Nat) (schedule : List Nat) (dbs : List (Db S)) (s : S) :
    (outcomes table records choice schedule dbs s).1.length = dbs.length := by
  rw [outcomes, List.length_map, length_play, muster, List.length_map]

/-- With turns enough in a row, a worker makes all operations that are left. -/
theorem play_replicate {turns seat : Nat} {p : List (Worker S) × S} {db : Db S} {hand : Hand}
    (hat : p.1[seat]? = some { db, hand }) (hturns : hand.left ≤ turns) :
    ∃ hand', play table choice (List.replicate turns seat) p =
        (p.1.set seat { db, hand := hand' }, (hand.finish db table choice seat p.2).2) ∧
      hand'.result = (hand.finish db table choice seat p.2).1 := by
  induction turns generalizing p hand with
  | zero =>
    have hfinish := Hand.finish_of_left db table choice seat (Nat.le_zero.mp hturns) p.2
    refine ⟨hand, ?_, ?_⟩
    · rw [hfinish, List.replicate_zero]
      have hsame : p.1.set seat { db, hand } = p.1 := by
        obtain ⟨hlt, heq⟩ := List.getElem?_eq_some_iff.mp hat
        rw [← heq, List.set_getElem_self]
      rw [hsame]
      rfl
    · rw [hfinish]
  | succ n ih =>
    have hfirst : turn table choice p seat =
        (p.1.set seat { db, hand := (hand.turn db table choice seat p.2).1 },
          (hand.turn db table choice seat p.2).2) := by
      unfold turn
      rw [hat]
    have hlt := (List.getElem?_eq_some_iff.mp hat).1
    have hleft := Hand.left_turn db table choice seat hand p.2
    have hnext : (turn table choice p seat).1[seat]? =
        some { db, hand := (hand.turn db table choice seat p.2).1 } := by
      rw [hfirst]
      exact List.getElem?_set_self hlt
    obtain ⟨hand', hplay, hresult⟩ := ih hnext (by omega)
    rw [hfirst, Hand.finish_turn] at hplay hresult
    refine ⟨hand', ?_, hresult⟩
    rw [List.replicate_succ, play, List.foldl_cons, ← play, hfirst, hplay, List.set_set]

/-- Workers whose turn has not come yet, behind those that had theirs. -/
theorem play_blocks (records : Nat) (front : List (Worker S)) (rest : List (Db S)) (s : S) :
    ∃ later, play table choice
        (blocks (plan records).length (List.range' front.length rest.length))
        (front ++ muster records rest, s) =
        (front ++ later, (inTurn table records choice front.length rest s).2) ∧
      later.map (fun w => w.hand.result) = (inTurn table records choice front.length rest s).1 := by
  induction rest generalizing front s with
  | nil => exact ⟨[], rfl, rfl⟩
  | cons db rest ih =>
    have hat : (front ++ muster records (db :: rest))[front.length]? =
        some { db, hand := .working (plan records) ∅ } := by
      rw [List.getElem?_append_right (Nat.le_refl _), Nat.sub_self]
      rfl
    obtain ⟨hand, hplay, hresult⟩ := play_replicate table choice
      (p := (front ++ muster records (db :: rest), s)) hat (Nat.le_refl (plan records).length)
    have hset : (front ++ muster records (db :: rest)).set front.length { db, hand } =
        (front ++ [⟨db, hand⟩]) ++ muster records rest := by
      rw [List.set_append_right _ _ (Nat.le_refl _), Nat.sub_self, List.append_assoc]
      rfl
    have hwork : Hand.finish db table choice front.length (.working (plan records) ∅) s =
        runWorker db table records choice front.length s := by
      rw [runWorker_eq_work]
      rfl
    dsimp only at hplay hresult
    rw [hset, hwork] at hplay
    rw [hwork] at hresult
    obtain ⟨later, hlater, hresults⟩ := ih (front ++ [⟨db, hand⟩])
      (runWorker db table records choice front.length s).2
    rw [List.length_append, List.length_singleton] at hlater hresults
    refine ⟨{ db, hand } :: later, ?_, ?_⟩
    · rw [List.length_cons, List.range'_succ, blocks, List.flatMap_cons, play, List.foldl_append,
        ← play, ← play, hplay, ← blocks, hlater, List.append_assoc]
      rfl
    · rw [List.map_cons, hresults, hresult]
      rfl

/-- Workers that run one after the other have their turns in blocks. -/
theorem inTurn_eq_outcomes (records : Nat) (dbs : List (Db S)) (s : S) :
    inTurn table records choice 0 dbs s =
      outcomes table records choice (blocks (plan records).length (List.range dbs.length)) dbs
        s := by
  obtain ⟨later, hplay, hresults⟩ := play_blocks table choice records [] dbs s
  rw [List.nil_append, List.nil_append, List.length_nil, ← List.range_eq_range'] at hplay
  rw [outcomes, hplay]
  exact Prod.ext hresults.symm rfl

theorem workAll_eq_interleave (records : Nat) (dbs : List (Db S)) :
    workAll table records choice 0 dbs ∅ =
      interleave table records choice (blocks (plan records).length (List.range dbs.length))
        dbs := by
  funext s
  rw [workAll_eq, inTurn_eq_outcomes]
  rfl

end

def orderly (settings : Settings) : List Nat :=
  blocks (plan settings.recordCount).length (List.range settings.threads)

theorem le_count_orderly {settings : Settings} {seat : Nat} (h : seat < settings.threads) :
    (plan settings.recordCount).length ≤ (orderly settings).count seat :=
  le_count_blocks (List.mem_range.mpr h)

theorem length_bindings {σ : Type} (b : Backend σ) (settings : Settings) :
    (bindings b settings).length = settings.threads := by
  rw [bindings, List.length_map, List.length_range]

theorem bindings_get? {σ : Type} (b : Backend σ) (settings : Settings) {seat : Nat}
    (h : seat < settings.threads) :
    (bindings b settings)[seat]? = some (withFields settings.fieldLength (Crew.db b seat)) := by
  rw [bindings, List.getElem?_map, List.getElem?_range h]
  rfl

theorem filterMap_bindings {σ : Type} (b : Backend σ) (settings : Settings) :
    (List.range settings.threads).filterMap (fun seat => (bindings b settings)[seat]?) =
      bindings b settings := by
  have hget : (List.range settings.threads).filterMap (fun seat => (bindings b settings)[seat]?) =
      (List.range settings.threads).filterMap fun seat =>
        some (withFields settings.fieldLength (Crew.db b seat)) :=
    List.filterMap_congr fun seat hseat => bindings_get? b settings (List.mem_range.mp hseat)
  rw [hget, List.filterMap_eq_map']
  rfl

/-- The run as it is starts its bindings in order and has its workers one after the other. -/
theorem runCrew_eq_runCrewFrom {σ : Type} (b : Backend σ) (logger : String) (settings : Settings)
    (choice : Choice) :
    runCrew b logger settings choice =
      runCrewFrom (List.range settings.threads) (orderly settings) b logger settings choice := by
  have hwork : workAll settings.table settings.recordCount choice 0 (bindings b settings) ∅ =
      interleave settings.table settings.recordCount choice (orderly settings)
        (bindings b settings) := by
    rw [workAll_eq_interleave, length_bindings]
    rfl
  funext w
  rw [runCrew_eq_summarize]
  dsimp only [runCrewFrom]
  rw [filterMap_bindings, ← hwork]

end StoreBinding.Smoke
