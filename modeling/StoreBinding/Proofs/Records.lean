import StoreBinding.Proofs.Calls
import StoreBinding.Proofs.Document
import StoreBinding.Proofs.References
import StoreBinding.Proofs.Serving

/-!
Bindings over the in-memory store as a map from records to their fields. The map says what each
call gives without documents, connections or ids. Each record is related to the document that
stands for it, one call preserves the relation and gives the answer of the map, and so does a
run of calls by any bindings that hold a reference, with bindings starting and stopping between.
-/
namespace StoreBinding

abbrev Records := String × String → Option (List (String × String))

inductive Answer
  | status (s : Status)
  | record (s : Status) (fields : List (String × String))
deriving DecidableEq, Repr

namespace Records

def empty : Records := fun _ => none

def set (m : Records) (t k : String) (fields : Option (List (String × String))) : Records :=
  fun p => if p = (t, k) then fields else m p

def texts? (values : Option Content) : Option (List (String × String)) :=
  values.bind fun content => content.entries.mapM fun p =>
    p.2.encode.toOption.map fun text => (p.1, text)

def requested (names : List String) (fields : List (String × String)) : List (String × String) :=
  if names = [] then fields
  else names.eraseDups.filterMap fun name => (fields.lookup name).map fun text => (name, text)

def answer (m : Records) : Call → Answer × Records
  | .read t k names =>
    match m (t, k) with
    | none => (.record .notFound [], m)
    | some fields => (.record .ok (requested names fields), m)
  | .insert t k values =>
    match m (t, k), texts? values with
    | none, some texts => (.status .ok, m.set t k (some texts))
    | _, _ => (.status .error, m)
  | .update t k values =>
    match m (t, k), texts? values with
    | some _, some texts => (.status .ok, m.set t k (some texts))
    | _, _ => (.status .error, m)
  | .delete t k =>
    match m (t, k) with
    | some _ => (.status .ok, m.set t k none)
    | none => (.status .error, m)

def answers (m : Records) : List Call → List Answer × Records
  | [] => ([], m)
  | call :: rest =>
    ((m.answer call).1 :: ((m.answer call).2.answers rest).1, ((m.answer call).2.answers rest).2)

theorem toOption_mapValues {ε α β : Type} (f : α → Except ε β) (l : List (String × α)) :
    (Entries.mapValues f l).toOption =
      l.mapM fun p => (f p.2).toOption.map fun v => (p.1, v) := by
  induction l with
  | nil => rfl
  | cons p rest ih =>
    rw [List.mapM_cons, ← ih, Entries.mapValues]
    cases f p.2 with
    | error e => rfl
    | ok v => cases Entries.mapValues f rest <;> rfl

/-- Values are stored as their texts. -/
theorem texts?_eq (values : Option Content) :
    texts? values = (Call.encoded? values).map OrderedMap.entries := by
  cases values with
  | none => rfl
  | some content =>
    have htexts : texts? (some content) =
        (Entries.mapValues Value.encode content.entries).toOption :=
      (toOption_mapValues Value.encode content.entries).symm
    rw [htexts, ← OrderedMap.map_entries_mapValues]
    show _ = content.encode.toOption.map OrderedMap.entries
    rw [Content.encode]
    cases content.mapValues Value.encode <;> rfl

/-- A requested field is looked up the same way in a list and in a map. -/
theorem requested_entries (f : Fields) (names : List String) :
    (if names = [] then f else OrderedMap.select names f).entries = requested names f.entries := by
  unfold requested
  split
  · rfl
  · rw [OrderedMap.entries_select]
    simp only [OrderedMap.get?, Entries.lookup_eq]

inductive Same : Option Content → Option (List (String × String)) → Prop
  | absent : Same none none
  | present (f : Fields) : Same (some f.content) (some f.entries)

def StoredIn (m : Records) (d : Documents) : Prop :=
  ∀ t k, separator ∉ t.toList → Same (d.get? (documentId t k)) (m (t, k))

theorem storedIn_empty : empty.StoredIn ∅ := fun _ _ _ => .absent

/-- Changing a record goes with changing its document. -/
theorem StoredIn.set {m : Records} {d d' : Documents} (h : m.StoredIn d) {t k : String}
    (ht : separator ∉ t.toList) {content : Option Content}
    {fields : Option (List (String × String))} (hsame : Same content fields)
    (hd : ∀ id, d'.get? id = if id = documentId t k then content else d.get? id) :
    (m.set t k fields).StoredIn d' := by
  intro t' k' ht'
  rw [hd]
  by_cases hid : documentId t' k' = documentId t k
  · obtain ⟨rfl, rfl⟩ := documentId_inj ht' ht hid
    simpa [Records.set] using hsame
  · have hne : (t', k') ≠ (t, k) := by
      rintro heq
      cases heq
      exact hid rfl
    simpa [Records.set, hid, hne] using h t' k' ht'

def answer? : Except Halt Reply → Option Answer
  | .ok (.status s) => some (.status s)
  | .ok (.record r) => some (.record r.status r.fields.entries)
  | _ => none

structure Answered (m : Records) (call : Call) (outcome : Except Halt Reply × Memory) : Prop where
  reply : answer? outcome.1 = some (m.answer call).1
  store : ∃ d, Memory.Serving d outcome.2 ∧ (m.answer call).2.StoredIn d

theorem Answered.of_eq {m m' : Records} {call : Call} {outcome : Except Halt Reply × Memory}
    {a : Answer} {reply : Reply} {s' : Memory} {d' : Documents}
    (hanswer : m.answer call = (a, m')) (hrun : outcome = (.ok reply, s'))
    (hreply : answer? (.ok reply) = some a) (hs : Memory.Serving d' s') (hm : m'.StoredIn d') :
    Answered m call outcome := by
  refine ⟨?_, d', ?_, ?_⟩
  · rw [hanswer, hrun, hreply]
  · rw [hrun]
    exact hs
  · rw [hanswer]
    exact hm

section Calls

variable {m : Records} {d : Documents} {s : Memory} {c : Client} {g : Manager} {h : Handle}
  {r : Resolved} {t k : String} (hm : m.StoredIn d) (hs : Memory.Serving d s)
  (hlive : g.live = some h) (hresolved : c.resolved = some r)

include hm hs hlive hresolved

theorem answered_read (ht : separator ∉ t.toList) (names : List String) :
    Answered m (.read t k names) (Call.run Memory.backend c g (.read t k names) s) := by
  obtain ⟨s', hget, hs'⟩ := hs.get (documentId t k) r.options.timeout
  have hsame := hm t k ht
  generalize hrecord : m (t, k) = record at hsame
  generalize hdocument : d.get? (documentId t k) = document at hsame hget
  cases hsame with
  | absent =>
    have hanswer : m.answer (.read t k names) = (.record .notFound [], m) := by
      simp only [answer, hrecord]
    have hrun : Call.run Memory.backend c g (.read t k names) s =
        (.ok (.record { status := .notFound }), s') := by
      simp only [Call.run, Client.read, hlive, hresolved, Memory.backend, hget]
      rfl
    exact .of_eq hanswer hrun rfl hs' hm
  | present f =>
    have hanswer : m.answer (.read t k names) = (.record .ok (requested names f.entries), m) := by
      simp only [answer, hrecord]
    have hrun : Call.run Memory.backend c g (.read t k names) s = (.ok (.record
        { status := .ok, fields := if names = [] then f else OrderedMap.select names f }), s') := by
      simp only [Call.run, Client.read, hlive, hresolved, Memory.backend, hget,
        Fields.project_content]
      rfl
    exact .of_eq hanswer hrun (by rw [← requested_entries]; rfl) hs' hm

/-- An insert is refused over its values or over a record that is there already. -/
theorem answered_insert (ht : separator ∉ t.toList) (values : Option Content) :
    Answered m (.insert t k values) (Call.run Memory.backend c g (.insert t k values) s) := by
  have htexts := texts?_eq values
  have hsame := hm t k ht
  generalize hrecord : m (t, k) = record at hsame
  generalize hdocument : d.get? (documentId t k) = document at hsame
  have hrun := Call.run_insert (b := Memory.backend) hlive hresolved t k values s
  cases hencoded : Call.encoded? values with
  | none =>
    rw [hencoded] at htexts hrun
    have hanswer : m.answer (.insert t k values) = (.status .error, m) := by
      simp [answer, htexts]
    exact .of_eq hanswer hrun rfl hs hm
  | some fields =>
    rw [hencoded] at htexts hrun
    cases hsame with
    | absent =>
      obtain ⟨s', hinsert, hs'⟩ := hs.insert_absent hdocument fields.content r.options
      have hanswer : m.answer (.insert t k values) =
          (.status .ok, m.set t k (some fields.entries)) := by
        simp only [answer, hrecord, htexts]
        rfl
      simp only [Memory.backend, hinsert] at hrun
      exact .of_eq hanswer hrun rfl hs' (hm.set ht (.present fields) fun _ => d.get?_insert ..)
    | present f =>
      obtain ⟨s', hinsert, hs'⟩ := hs.insert_present hdocument fields.content r.options
      have hanswer : m.answer (.insert t k values) = (.status .error, m) := by
        simp only [answer, hrecord]
      simp only [Memory.backend, hinsert] at hrun
      exact .of_eq hanswer hrun rfl hs' hm

theorem answered_update (ht : separator ∉ t.toList) (values : Option Content) :
    Answered m (.update t k values) (Call.run Memory.backend c g (.update t k values) s) := by
  have htexts := texts?_eq values
  have hsame := hm t k ht
  generalize hrecord : m (t, k) = record at hsame
  generalize hdocument : d.get? (documentId t k) = document at hsame
  have hrun := Call.run_update (b := Memory.backend) hlive hresolved t k values s
  cases hencoded : Call.encoded? values with
  | none =>
    rw [hencoded] at htexts hrun
    have hanswer : m.answer (.update t k values) = (.status .error, m) := by
      simp [answer, htexts]
    exact .of_eq hanswer hrun rfl hs hm
  | some fields =>
    rw [hencoded] at htexts hrun
    cases hsame with
    | absent =>
      obtain ⟨s', hreplace, hs'⟩ := hs.replace_absent hdocument fields.content r.options
      have hanswer : m.answer (.update t k values) = (.status .error, m) := by
        simp only [answer, hrecord]
      simp only [Memory.backend, hreplace] at hrun
      exact .of_eq hanswer hrun rfl hs' hm
    | present f =>
      obtain ⟨s', hreplace, hs'⟩ := hs.replace_present hdocument fields.content r.options
      have hanswer : m.answer (.update t k values) =
          (.status .ok, m.set t k (some fields.entries)) := by
        simp only [answer, hrecord, htexts]
        rfl
      simp only [Memory.backend, hreplace] at hrun
      exact .of_eq hanswer hrun rfl hs' (hm.set ht (.present fields) fun _ => d.get?_insert ..)

theorem answered_delete (ht : separator ∉ t.toList) :
    Answered m (.delete t k) (Call.run Memory.backend c g (.delete t k) s) := by
  have hsame := hm t k ht
  have hrun := Call.run_delete (b := Memory.backend) hlive hresolved t k s
  generalize hrecord : m (t, k) = record at hsame
  generalize hdocument : d.get? (documentId t k) = document at hsame
  cases hsame with
  | absent =>
    obtain ⟨s', hremove, hs'⟩ := hs.remove_absent hdocument r.options
    have hanswer : m.answer (.delete t k) = (.status .error, m) := by
      simp only [answer, hrecord]
    simp only [Memory.backend, hremove] at hrun
    exact .of_eq hanswer hrun rfl hs' hm
  | present f =>
    obtain ⟨s', hremove, hs'⟩ := hs.remove_present hdocument r.options
    have hanswer : m.answer (.delete t k) = (.status .ok, m.set t k none) := by
      simp only [answer, hrecord]
    simp only [Memory.backend, hremove] at hrun
    exact .of_eq hanswer hrun rfl hs' (hm.set ht .absent fun _ => d.get?_erase ..)

/-- A call of a binding that is ready gives what the records say. -/
theorem answered_run {call : Call} (ht : separator ∉ call.table.toList) :
    Answered m call (call.run Memory.backend c g s) := by
  cases call with
  | read t k names => exact answered_read hm hs hlive hresolved ht names
  | insert t k values => exact answered_insert hm hs hlive hresolved ht values
  | update t k values => exact answered_update hm hs hlive hresolved ht values
  | delete t k => exact answered_delete hm hs hlive hresolved ht

end Calls

end Records

namespace Chronicle

/-- A run with the log of its calls and replies. Every call is made by a binding that holds a
reference at that time, on a table without a separator; in between bindings may be created,
started and stopped. -/
inductive Serves : Chronicle Memory → List (Call × Except Halt Reply) → Chronicle Memory → Prop
  | done (c : Chronicle Memory) : Serves c [] c
  | spare {c c' : Chronicle Memory} {log : List (Call × Except Halt Reply)} (s : Step)
      (hs : s.sparesRecords) (rest : Serves (c.step Memory.account s) log c') : Serves c log c'
  | call {c c' : Chronicle Memory} {log : List (Call × Except Halt Reply)} (id : String)
      (held : c.Held id) (call : Call) (ht : separator ∉ call.table.toList)
      (rest : Serves (c.step Memory.account (call.step id)) log c') :
      Serves c ((call, (c.world.step Memory.backend (call.step id)).1) :: log) c'

structure Tracks (c : Chronicle Memory) (m : Records) : Prop where
  sound : Sound Memory.account c
  store : ∃ d, Memory.Serving d c.world.env.store ∧ m.StoredIn d

theorem tracks_init : Tracks (init { store := {} }) .empty :=
  ⟨Sound.init _, ∅, Memory.Serving.empty, Records.storedIn_empty⟩

theorem Tracks.spare {c : Chronicle Memory} {m : Records} (h : Tracks c m) {s : Step}
    (hs : s.sparesRecords) : Tracks (c.step Memory.account s) m := by
  obtain ⟨d, hserving, hm⟩ := h.store
  refine ⟨h.sound.step (Step.isSome_binding? hs), d, ?_, hm⟩
  apply World.step_spares _ _ hs hserving
  · exact fun r _ he => he.connect r
  · exact fun handle _ he => he.close handle

/-- One call gives the answer of the records and keeps track of them. -/
theorem Tracks.call {c : Chronicle Memory} {m : Records} (h : Tracks c m) {id : String}
    (held : c.Held id) {call : Call} (ht : separator ∉ call.table.toList) :
    Records.answer? (c.world.step Memory.backend (call.step id)).1 = some (m.answer call).1 ∧
      Tracks (c.step Memory.account (call.step id)) (m.answer call).2 := by
  obtain ⟨d, hserving, hm⟩ := h.store
  obtain ⟨member, r, handle, hmember, hresolved, hlive⟩ := h.sound.ready_of_held held
  have hanswered := Records.answered_run hm hserving hlive hresolved ht
  have hstep := World.step_call (b := Memory.backend) hmember call
  constructor
  · rw [hstep]
    exact hanswered.reply
  · refine ⟨h.sound.step (by cases call <;> rfl), ?_⟩
    show ∃ d, Memory.Serving d (c.world.step Memory.backend (call.step id)).2.env.store ∧ _
    rw [hstep]
    exact hanswered.store

theorem Tracks.serves {c c' : Chronicle Memory} {m : Records}
    {log : List (Call × Except Halt Reply)} (h : Tracks c m) (hserves : Serves c log c') :
    (log.map fun p => Records.answer? p.2) = (m.answers (log.map Prod.fst)).1.map some ∧
      Tracks c' (m.answers (log.map Prod.fst)).2 := by
  -- the records at the start of the rest of a run are those after its first call
  induction hserves generalizing m with
  | done c => exact ⟨rfl, h⟩
  | spare s hs rest ih => exact ih (h.spare hs)
  | call id held call ht rest ih =>
    obtain ⟨hreply, hnext⟩ := h.call held ht
    obtain ⟨hreplies, hlast⟩ := ih hnext
    refine ⟨?_, hlast⟩
    simp only [List.map_cons, Records.answers]
    rw [hreply, hreplies]

/-- In every run from an empty store without faults, each call by a binding that holds a reference
gets the answer that the map of records gives, and the documents are those of the records. -/
theorem serves_answers {c : Chronicle Memory} {log : List (Call × Except Halt Reply)}
    (h : Serves (init { store := {} }) log c) :
    (log.map fun p => Records.answer? p.2) =
        (Records.empty.answers (log.map Prod.fst)).1.map some ∧
      (Records.empty.answers (log.map Prod.fst)).2.StoredIn c.world.env.store.documents := by
  obtain ⟨hreplies, hlast⟩ := tracks_init.serves h
  obtain ⟨d, hserving, hstored⟩ := hlast.store
  exact ⟨hreplies, hserving.documents ▸ hstored⟩

def sampleValues : Content := OrderedMap.ofList [("f", .bool true), ("g", .text "v")]

/-- A binding inserts a record twice, and another one reads it in part and removes it. -/
theorem serves_sample :
    ∃ log c, Serves (init { store := {} }) log c ∧
      log.map Prod.fst =
        [.insert "t" "k:1" (some sampleValues), .insert "t" "k:1" (some sampleValues),
          .read "t" "k:1" ["f", "h", "f"], .delete "t" "k:1"] := by
  -- the proofs that a binding holds a reference come last, when the states are known
  have run : Serves (init { store := {} }) _ _ :=
    .spare (.create "a" "m" ∅) rfl <| .spare (.create "b" "m" ∅) rfl <|
    .spare (.start "a") rfl <| .spare (.start "b") rfl <|
    .call "a" (by exact ⟨⟨"a", "m", true⟩, rfl, rfl⟩)
      (.insert "t" "k:1" (some sampleValues)) (by decide) <|
    .call "a" (by exact ⟨⟨"a", "m", true⟩, rfl, rfl⟩)
      (.insert "t" "k:1" (some sampleValues)) (by decide) <|
    .call "b" (by exact ⟨⟨"b", "m", true⟩, rfl, rfl⟩)
      (.read "t" "k:1" ["f", "h", "f"]) (by decide) <|
    .call "b" (by exact ⟨⟨"b", "m", true⟩, rfl, rfl⟩)
      (.delete "t" "k:1") (by decide) <|
    .done _
  exact ⟨_, _, run, rfl⟩

/-- The second insert is an error, and a value that is no text is read as its text. -/
theorem serves_answers_sample :
    ∃ log c, Serves (init { store := {} }) log c ∧
      (log.map fun p => Records.answer? p.2) =
        [some (.status .ok), some (.status .error), some (.record .ok [("f", "True")]),
          some (.status .ok)] := by
  obtain ⟨log, c, run, hcalls⟩ := serves_sample
  have hanswers := (serves_answers run).1
  rw [hcalls] at hanswers
  exact ⟨log, c, run, hanswers.trans rfl⟩

end Chronicle

end StoreBinding
