import StoreBinding.Proofs.Deployment
import StoreBinding.Proofs.Locality

/-!
What a call on a record can do, whatever goes wrong with it. It asks the store once, or not at
all, and every failure of the store, of the values and of the connection ends in a status: absent
documents alone are not found, and what is not `ok` is an error without fields. Main statement: in
every reachable world a call is contained, which says this together with all that it leaves as it
is.
-/
namespace StoreBinding

variable {σ : Type} {b : Backend σ}

namespace World

/-- The worlds that steps lead to, those of bindings and those on a manager itself. In between
anything may happen to the store and the log. -/
inductive Reachable (b : Backend σ) : World σ → Prop
  | init (env : Env σ) : Reachable b { env }
  | step {w : World σ} (hw : Reachable b w) (s : Step) : Reachable b (w.step b s).2
  | disturb {w : World σ} (hw : Reachable b w) (env : Env σ) : Reachable b { w with env }

/-- What a binding has resolved never comes from the properties of another one. -/
theorem Reachable.settled {w : World σ} (hw : Reachable b w) {id : String} {m : Member}
    (hm : w.members.get? id = some m) : m.client.Settled := by
  induction hw generalizing id m with
  | init env => cases hm
  | @step w hw s ih =>
    have hkept (hs : ∀ id' manager properties, s ≠ .create id' manager properties) :
        m.client.Settled := by
      obtain ⟨m₀, hm₀, -, hsettled⟩ := step_members hs hm
      exact hsettled (ih hm₀)
    cases s with
    | create id' manager properties =>
      rcases OrderedMap.of_get?_insert hm with ⟨-, rfl⟩ | hbefore
      · intro r hr
        cases hr
      · exact ih hbefore
    | start | stop | read | insert | update | delete | scan | acquire | release | connection =>
      exact hkept nofun
  | disturb hw env ih => exact ih hm

end World

namespace Entries

variable {κ α β ε : Type}

theorem exists_mapValues_iff {f : α → Except ε β} {l : List (κ × α)} :
    (∃ l', mapValues f l = .ok l') ↔ ∀ p ∈ l, ∃ v, f p.2 = .ok v := by
  induction l with
  | nil => exact ⟨fun _ _ hp => (List.not_mem_nil hp).elim, fun _ => ⟨[], rfl⟩⟩
  | cons p rest ih =>
    obtain ⟨k, v⟩ := p
    rw [List.forall_mem_cons, ← ih, mapValues]
    cases f v with
    | error e => simp
    | ok w => cases mapValues f rest <;> simp

end Entries

namespace Content

def IsLegible (c : Content) : Prop := ∀ p ∈ c.entries, ∃ text, p.2.encode = .ok text

theorem isLegible_iff {c : Content} : c.IsLegible ↔ ∃ fields, c.encode = .ok fields := by
  have hentries := OrderedMap.map_entries_mapValues Value.encode c
  rw [IsLegible, ← Entries.exists_mapValues_iff, ← hentries, encode]
  cases OrderedMap.mapValues Value.encode c with
  | error e =>
    constructor
    · rintro ⟨entries, hentries⟩
      cases hentries
    · rintro ⟨fields, hfields⟩
      cases hfields
  | ok fields => exact ⟨fun _ => ⟨fields, rfl⟩, fun _ => ⟨fields.entries, rfl⟩⟩

end Content

inductive StoreAnswer
  | absent
  | found (content : Content)
  | written

def StoreAnswer.ofGet : Option Content → StoreAnswer
  | none => absent
  | some content => found content

namespace Memory

theorem documents_call {α : Type} {P : Except Halt α → Prop} {op : Operation} {id : String}
    {c : MemoryCall} {react : Option FaultAction → Act Memory α}
    (hreact : ∀ action m, P (react action m).1 → (react action m).2.documents = m.documents)
    (m : Memory) (hP : P (call op id c react m).1) :
    (call op id c react m).2.documents = m.documents := by
  unfold call at hP ⊢
  simp only [attempt_eq] at hP ⊢
  cases hverdict : verdict op ((m.record c).script.consult op id).1 (m.record c).operationFault with
  | error x => rfl
  | ok action =>
    rw [hverdict] at hP
    exact hreact action _ hP

def ChangesWithSuccess (act : Act Memory Unit) : Prop :=
  ∀ m, (act m).1 ≠ .ok () → (act m).2.documents = m.documents

theorem changesWithSuccess_error (h : Halt) : ChangesWithSuccess fun m => (.error h, m) :=
  fun _ _ => rfl

theorem changesWithSuccess_ok (change : Memory → Memory) :
    ChangesWithSuccess fun m => (.ok (), change m) :=
  fun _ hne => absurd rfl hne

/-- Writes are made of acts for the two cases that the document can be in. -/
theorem changesWithSuccess_write {op : Operation} {id : String} {c : MemoryCall}
    {present absent : Act Memory Unit} (hpresent : ChangesWithSuccess present)
    (habsent : ChangesWithSuccess absent) :
    ChangesWithSuccess (call op id c (write id present absent)) := by
  have hlookup : ChangesWithSuccess fun m =>
      if m.documents.contains id then present m else absent m := by
    intro m
    dsimp only
    split
    · exact hpresent m
    · exact habsent m
  refine documents_call (P := (· ≠ .ok ())) fun action m h => ?_
  rcases action with _ | (_ | _ | _)
  · exact hlookup m h
  · exact hlookup m h
  · exact hlookup m h
  · rfl

theorem changesWithSuccess_insert (id : String) (c : Content) (o : WriteOptions) :
    ChangesWithSuccess (insert id c o) := by
  rw [insert_eq]
  exact changesWithSuccess_write (changesWithSuccess_error _) (changesWithSuccess_ok _)

theorem changesWithSuccess_replace (id : String) (c : Content) (o : WriteOptions) :
    ChangesWithSuccess (replace id c o) := by
  rw [replace_eq]
  exact changesWithSuccess_write (changesWithSuccess_ok _) (changesWithSuccess_error _)

theorem changesWithSuccess_remove (id : String) (o : WriteOptions) :
    ChangesWithSuccess (remove id o) := by
  rw [remove_eq]
  exact changesWithSuccess_write (changesWithSuccess_ok _) (changesWithSuccess_error _)

theorem documents_get (id : String) (t : Duration) (m : Memory) :
    (get id t m).2.documents = m.documents := by
  rw [get_eq]
  refine documents_call (P := fun _ => True) (fun action m _ => ?_) m trivial
  rcases action with _ | (_ | _ | _) <;> rfl

end Memory

namespace MemoryCall

def id : MemoryCall → String
  | get id _ | insert id _ _ | replace id _ _ | remove id _ => id

def make : MemoryCall → Act Memory StoreAnswer
  | get id t => fun s => ((Memory.get id t s).1.map .ofGet, (Memory.get id t s).2)
  | insert id c o => fun s => ((Memory.insert id c o s).1.map fun _ => .written,
      (Memory.insert id c o s).2)
  | replace id c o => fun s => ((Memory.replace id c o s).1.map fun _ => .written,
      (Memory.replace id c o s).2)
  | remove id o => fun s => ((Memory.remove id o s).1.map fun _ => .written,
      (Memory.remove id o s).2)

theorem concerns_make (i : MemoryCall) : Concerns Memory.Alike i.id i.make := by
  cases i with
  | get id t => exact (Memory.concerns_get id t).map _
  | insert id c o => exact (Memory.concerns_insert id c o).map _
  | replace id c o => exact (Memory.concerns_replace id c o).map _
  | remove id o => exact (Memory.concerns_remove id o).map _

def made? (issued : Option MemoryCall) (s : Memory) : Option (Except Halt StoreAnswer) :=
  issued.map fun i => (i.make s).1

/-- A call leaves all other documents as they are. -/
theorem documents_elsewhere (i : MemoryCall) (s : Memory) {other : String} (h : other ≠ i.id) :
    (i.make s).2.documents.get? other = s.documents.get? other := by
  have halike : Memory.Alike (· ≠ i.id) (i.make s).2 s :=
    i.concerns_make.unseen (.refl _ s) fun hself => hself rfl
  exact halike.documents other h

/-- A call that does not complete a write changes no document. -/
theorem documents_make (i : MemoryCall) (s : Memory) (h : (i.make s).1 ≠ .ok .written) :
    (i.make s).2.documents = s.documents := by
  have hput {r : Except Halt Unit} (hr : r.map (fun _ => StoreAnswer.written) ≠ .ok .written) :
      r ≠ .ok () := fun heq => hr (by rw [heq]; rfl)
  cases i with
  | get id t => exact Memory.documents_get id t s
  | insert id c o => exact Memory.changesWithSuccess_insert id c o s (hput h)
  | replace id c o => exact Memory.changesWithSuccess_replace id c o s (hput h)
  | remove id o => exact Memory.changesWithSuccess_remove id o s (hput h)

end MemoryCall

namespace Call

def values? : Call → Option (Option Content)
  | read _ _ _ | delete _ _ => none
  | insert _ _ values | update _ _ values => some values

def names? : Call → Option (List String)
  | read _ _ names => some names
  | insert _ _ _ | update _ _ _ | delete _ _ => none

def answer (call : Call) (status : Status) (fields : Fields) : Reply :=
  match call with
  | read _ _ _ => .record { status, fields }
  | insert _ _ _ | update _ _ _ | delete _ _ => .status status

theorem isEncodable_iff (call : Call) :
    call.IsEncodable ↔
      ∀ values ∈ call.values?, ∃ content, values = some content ∧ content.IsLegible := by
  have hwrite (values : Option Content) :
      (encoded? values).isSome ↔ ∃ content, values = some content ∧ content.IsLegible := by
    cases values with
    | none =>
      constructor
      · intro hsome
        cases hsome
      · rintro ⟨content, hcontent, -⟩
        cases hcontent
    | some content =>
      rw [encoded?, Option.bind_some]
      simp only [Option.some.injEq, exists_eq_left', Content.isLegible_iff]
      cases content.encode with
      | error e =>
        constructor
        · intro hsome
          cases hsome
        · rintro ⟨fields, hfields⟩
          cases hfields
      | ok fields => exact ⟨fun _ => ⟨fields, rfl⟩, fun _ => rfl⟩
  cases call with
  | read t k names | delete t k =>
    exact ⟨fun _ _ hv => (Option.not_mem_none _ hv).elim, fun _ => trivial⟩
  | insert t k values | update t k values =>
    refine (hwrite values).trans ⟨fun h values' hv => ?_, fun h => h values rfl⟩
    cases hv
    exact h

def conclude (call : Call) : Except Halt StoreAnswer → Except Halt Reply
  | .error (.interrupt t) => .error (.interrupt t)
  | .error (.failure _) => .ok (call.answer .error ∅)
  | .ok .absent => .ok (call.answer .notFound ∅)
  | .ok .written => .ok (call.answer .ok ∅)
  | .ok (.found content) =>
    match content.project (call.names?.getD []) with
    | .ok fields => .ok (call.answer .ok fields)
    | .error _ => .ok (call.answer .error ∅)

variable {call : Call} {c : Client} {m : Manager} {i : MemoryCall}

/-- A call that is not refused is settled by the one call on the store. -/
theorem run_of_issued (h : call.issued? c m = some i) (s : Memory) :
    call.run Memory.backend c m s = (call.conclude (i.make s).1, (i.make s).2) := by
  unfold issued? at h
  split at h
  · next handle r hlive hresolved =>
    cases call with
    | read t k names =>
      cases h
      simp only [run, Client.read, hlive, hresolved, Memory.backend, MemoryCall.make]
      rcases Memory.get (documentId t k) r.options.timeout s with ⟨(_ | _) | _ | content, s'⟩
      · rfl
      · rfl
      · rfl
      · dsimp only [Except.map, StoreAnswer.ofGet, conclude, names?, Option.getD_some]
        cases content.project names <;> rfl
    | insert t k values =>
      obtain ⟨fields, hfields, rfl⟩ := Option.map_eq_some_iff.mp h
      simp only [run_insert hlive hresolved, hfields, Memory.backend, MemoryCall.make]
      rcases Memory.insert (documentId t k) fields.content r.options s with ⟨(_ | _) | _, s'⟩ <;>
        rfl
    | update t k values =>
      obtain ⟨fields, hfields, rfl⟩ := Option.map_eq_some_iff.mp h
      simp only [run_update hlive hresolved, hfields, Memory.backend, MemoryCall.make]
      rcases Memory.replace (documentId t k) fields.content r.options s with ⟨(_ | _) | _, s'⟩ <;>
        rfl
    | delete t k =>
      cases h
      simp only [run_delete hlive hresolved, Memory.backend, MemoryCall.make]
      rcases Memory.remove (documentId t k) r.options s with ⟨(_ | _) | _, s'⟩ <;> rfl
  · cases h

/-- A call on the store that a binding makes is for the record of the call, with the options that
the binding resolved. -/
theorem issued_request (h : call.issued? c m = some i) :
    i.id = documentId call.table call.key ∧
      ∃ r, c.resolved = some r ∧ call.request? r.options = some i := by
  unfold issued? at h
  split at h
  · next handle r hlive hresolved =>
    refine ⟨?_, r, hresolved, h⟩
    cases call with
    | read t k names | delete t k =>
      cases h
      rfl
    | insert t k values | update t k values =>
      obtain ⟨fields, -, rfl⟩ := Option.map_eq_some_iff.mp h
      rfl
  · cases h

/-- The store answers reads with a document or its absence, and writes with their completion. -/
theorem answered_make {o : WriteOptions} (h : call.request? o = some i) {s : Memory}
    {a : StoreAnswer} (ha : (i.make s).1 = .ok a) : call.names?.isSome ↔ a ≠ .written := by
  have hput {r : Except Halt Unit} (hr : r.map (fun _ => StoreAnswer.written) = .ok a) :
      a = .written := by
    cases r with
    | error x => cases hr
    | ok u => exact (Except.ok.inj hr).symm
  cases call with
  | read t k names =>
    cases h
    have hne : a ≠ .written := by
      rintro rfl
      have hget : (Memory.get (documentId t k) o.timeout s).1.map StoreAnswer.ofGet =
        .ok StoreAnswer.written := ha
      cases hresult : (Memory.get (documentId t k) o.timeout s).1 with
      | error x =>
        rw [hresult] at hget
        cases hget
      | ok found =>
        rw [hresult] at hget
        cases found <;> cases hget
    exact ⟨fun _ => hne, fun _ => rfl⟩
  | insert t k values =>
    obtain ⟨fields, -, rfl⟩ := Option.map_eq_some_iff.mp h
    exact ⟨nofun, fun hne => absurd (hput ha) hne⟩
  | update t k values =>
    obtain ⟨fields, -, rfl⟩ := Option.map_eq_some_iff.mp h
    exact ⟨nofun, fun hne => absurd (hput ha) hne⟩
  | delete t k =>
    cases h
    exact ⟨nofun, fun hne => absurd (hput ha) hne⟩

structure Verdict (call : Call) (made : Option (Except Halt StoreAnswer)) (status : Status)
    (fields : Fields) : Prop where
  notFound : status = .notFound ↔ call.names?.isSome ∧ made = some (.ok .absent)
  ok : status = .ok ↔ ∃ a, made = some (.ok a) ∧ ∀ names ∈ call.names?, ∃ content,
    a = .found content ∧ (content.requested names).IsLegible
  otherwise : status ≠ .ok → status ≠ .notFound → status = .error
  fields : status ≠ .ok → fields = ∅

/-- Without a completed call on the store the verdict is an error. -/
theorem verdict_error (call : Call) {made : Option (Except Halt StoreAnswer)}
    (h : ∀ a, made ≠ some (.ok a)) : call.Verdict made .error ∅ :=
  ⟨⟨nofun, fun hmade => absurd hmade.2 (h _)⟩, ⟨nofun, fun ⟨a, ha, _⟩ => absurd ha (h a)⟩,
    fun _ _ => rfl, fun _ => rfl⟩

/-- A read that finds a document returns the fields that were asked for, if they have a text. -/
theorem verdict_found {names : List String} (hnames : call.names? = some names)
    (content : Content) :
    ∃ status fields, call.conclude (.ok (.found content)) = .ok (call.answer status fields) ∧
      call.Verdict (some (.ok (.found content))) status fields := by
  have hlegible := Content.isLegible_iff (c := content.requested names)
  have hproject : content.project (call.names?.getD []) = (content.requested names).encode := by
    rw [hnames]
    rfl
  have hok : (∃ a, some (.ok (.found content)) = some (.ok a : Except Halt StoreAnswer) ∧
      ∀ names ∈ call.names?, ∃ content, a = .found content ∧
        (content.requested names).IsLegible) ↔ (content.requested names).IsLegible := by
    constructor
    · rintro ⟨a, ha, hall⟩
      cases ha
      obtain ⟨content', hfound, hlegible'⟩ := hall names hnames
      cases hfound
      exact hlegible'
    · intro hall
      refine ⟨.found content, rfl, fun names' hnames' => ⟨content, rfl, ?_⟩⟩
      rw [Option.mem_def, hnames] at hnames'
      cases hnames'
      exact hall
  cases hencode : (content.requested names).encode with
  | error u =>
    have hnot : ¬ (content.requested names).IsLegible := by
      rw [hlegible, hencode]
      exact nofun
    refine ⟨.error, ∅, ?_, ⟨nofun, fun hmade => nomatch hmade.2⟩, ?_, fun _ _ => rfl,
      fun _ => rfl⟩
    · simp only [conclude, hproject, hencode]
    · rw [hok]
      exact ⟨nofun, fun hall => absurd hall hnot⟩
  | ok fields =>
    have hall : (content.requested names).IsLegible := hlegible.mpr ⟨fields, hencode⟩
    refine ⟨.ok, fields, ?_, ⟨nofun, fun hmade => nomatch hmade.2⟩, ?_,
      fun hne => absurd rfl hne, fun hne => absurd rfl hne⟩
    · simp only [conclude, hproject, hencode]
    · rw [hok]
      exact ⟨fun _ => hall, fun _ => rfl⟩

/-- A call that the store does not interrupt returns with its verdict. -/
theorem verdict_conclude {o : WriteOptions} (h : call.request? o = some i) (s : Memory)
    (hreturns : ∀ t, (i.make s).1 ≠ .error (.interrupt t)) :
    ∃ status fields, call.conclude (i.make s).1 = .ok (call.answer status fields) ∧
      call.Verdict (some (i.make s).1) status fields := by
  have hanswered (a : StoreAnswer) (ha : (i.make s).1 = .ok a) :
      call.names?.isSome ↔ a ≠ .written := answered_make h ha
  generalize (i.make s).1 = made at hreturns hanswered
  cases made with
  | error x =>
    cases x with
    | interrupt t => exact absurd rfl (hreturns t)
    | failure f => exact ⟨.error, ∅, rfl, call.verdict_error nofun⟩
  | ok a =>
    have hread := hanswered a rfl
    cases a with
    | absent =>
      have hnames : call.names?.isSome := hread.mpr nofun
      refine ⟨.notFound, ∅, rfl, ⟨fun _ => ⟨hnames, rfl⟩, fun _ => rfl⟩, ⟨nofun, ?_⟩,
        fun _ hne => absurd rfl hne, fun _ => rfl⟩
      rintro ⟨a, ha, hall⟩
      cases ha
      obtain ⟨names, hmem⟩ := Option.isSome_iff_exists.mp hnames
      obtain ⟨content, hfound, -⟩ := hall names hmem
      cases hfound
    | found content =>
      obtain ⟨names, hnames⟩ := Option.isSome_iff_exists.mp (hread.mpr nofun)
      exact verdict_found hnames content
    | written =>
      have hnone : call.names? = none := by
        rw [← Option.not_isSome_iff_eq_none, hread]
        exact fun hne => hne rfl
      refine ⟨.ok, ∅, rfl, ⟨nofun, fun hmade => nomatch hmade.2⟩, ⟨fun _ => ?_, fun _ => rfl⟩,
        fun hne => absurd rfl hne, fun hne => absurd rfl hne⟩
      refine ⟨.written, rfl, fun names hnames => ?_⟩
      rw [hnone] at hnames
      cases hnames

end Call

/-- What a call on a record can do at most, given the one call on the store that it issues, if
any. -/
structure Contained (w : World Memory) (m : Member) (call : Call) (issued : Option MemoryCall)
    (outcome : Except Halt Reply × World Memory) : Prop where
  /-- Nothing but this call is made. -/
  calls : outcome.2.env.store.calls.toList = w.env.store.calls.toList ++ issued.toList
  once : issued.isSome ↔ (w.managers.ask m.manager).isConnected ∧ m.client.resolved.isSome ∧
    ∀ values ∈ call.values?, ∃ content, values = some content ∧ content.IsLegible
  /-- It is for the record, with the options that the properties of the binding give. -/
  request : ∀ i ∈ issued, i.id = call.table ++ ":" ++ call.key ∧
    ∃ r, Client.resolve m.client.properties = .ok r ∧ call.request? r.options = some i
  /-- Only an interrupt of the store comes out. -/
  returns : (∀ t, MemoryCall.made? issued w.env.store ≠ some (.error (.interrupt t))) →
    ∃ status fields, outcome.1 = .ok (call.answer status fields) ∧
      call.Verdict (MemoryCall.made? issued w.env.store) status fields
  interrupted : ∀ t, MemoryCall.made? issued w.env.store = some (.error (.interrupt t)) →
    outcome.1 = .error (.interrupt t)
  /-- Bindings, managers and log stay as they are. -/
  quiet : outcome.2 = { w with env := { w.env with store := outcome.2.env.store } }
  elsewhere : ∀ other, other ≠ call.table ++ ":" ++ call.key →
    outcome.2.env.store.documents.get? other = w.env.store.documents.get? other
  unlessOk : (∀ fields, outcome.1 ≠ .ok (call.answer .ok fields)) →
    outcome.2.env.store.documents = w.env.store.documents

/-- Calls on records are contained, in every reachable world and whatever the store makes of them:
they return with a status unless the store is interrupted, ask the store for nothing but their own
record, once and only when they are ready, and leave everything else as it is. -/
theorem calls_contained {w : World Memory} (hw : World.Reachable Memory.backend w) {id : String}
    {m : Member} (hm : w.members.get? id = some m) (call : Call) :
    ∃ issued, Contained w m call issued (w.step Memory.backend (call.step id)) := by
  have hissued := call.isSome_issued?_iff m.client (w.managers.ask m.manager)
  rw [Call.isEncodable_iff] at hissued
  refine ⟨call.issued? m.client (w.managers.ask m.manager), ?_⟩
  rw [World.step_call hm]
  cases h : call.issued? m.client (w.managers.ask m.manager) with
  | none =>
    rw [h] at hissued
    have hrun := Call.run_of_refused h w.env.store (b := Memory.backend)
    rw [hrun]
    refine ⟨(List.append_nil _).symm, hissued, nofun, fun _ => ⟨.error, ∅, ?_, ?_⟩, nofun, rfl,
      fun _ _ => rfl, fun _ => rfl⟩
    · cases call <;> rfl
    · exact call.verdict_error nofun
  | some i =>
    rw [h] at hissued
    obtain ⟨hid, r, hresolved, hrequest⟩ := Call.issued_request h
    have hown : Client.resolve m.client.properties = .ok r := hw.settled hm r hresolved
    have hcalls := (Call.handled_run h w.env.store).calls
    rw [Call.run_of_issued h] at hcalls ⊢
    refine ⟨?_, hissued, ?_, fun hreturns => ?_, ?_, rfl, fun other hother => ?_, fun hnot => ?_⟩
    · exact (congrArg Array.toList hcalls).trans Array.toList_push
    · rintro i' ⟨rfl⟩
      exact ⟨hid, r, hown, hrequest⟩
    · exact Call.verdict_conclude hrequest w.env.store fun t ht => hreturns t (congrArg some ht)
    · intro t ht
      have hmade : (i.make w.env.store).1 = .error (.interrupt t) := Option.some.inj ht
      simp only [hmade, Call.conclude]
    · exact i.documents_elsewhere w.env.store (hid ▸ hother)
    · refine i.documents_make w.env.store fun hmade => hnot ∅ ?_
      simp only [hmade, Call.conclude]

def spoiled : World Memory :=
  let w := ((({ env := { store := {} } } : World Memory).step Memory.backend
    (.create "a" "m" ∅)).2.step Memory.backend (.start "a")).2
  { w with env := { w.env with store := { w.env.store with
      documents := OrderedMap.ofList [("t:k", OrderedMap.ofList [("f", .bytes ⟨#[255]⟩)])] } } }

theorem reachable_spoiled : World.Reachable Memory.backend spoiled :=
  (((World.Reachable.init _).step _).step _).disturb _

/-- A record that is no text is read as an error. -/
theorem calls_contained_spoiled :
    World.Reachable Memory.backend spoiled ∧ ∃ m, spoiled.members.get? "a" = some m ∧
      ∃ issued, Contained spoiled m (.read "t" "k" ["f"]) issued
        (spoiled.step Memory.backend (Call.step "a" (.read "t" "k" ["f"]))) ∧
      issued.isSome ∧ (spoiled.step Memory.backend (Call.step "a" (.read "t" "k" ["f"]))).1 =
        .ok (.record { status := .error }) := by
  have hmember : (spoiled.members.get? "a").isSome := rfl
  obtain ⟨m, hm⟩ := Option.isSome_iff_exists.mp hmember
  obtain ⟨issued, hcontained⟩ := calls_contained reachable_spoiled hm (.read "t" "k" ["f"])
  have hissued : issued.isSome := by
    cases hm
    exact hcontained.once.mpr ⟨rfl, rfl, nofun⟩
  exact ⟨reachable_spoiled, m, hm, issued, hcontained, hissued, rfl⟩

end StoreBinding
