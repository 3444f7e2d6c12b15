import StoreBinding.Memory
import StoreBinding.Smoke

/-!
Calls on the in-memory store concern one document only. Two states are alike with respect to
some documents if these are the same and have been asked for equally often, and nothing that
all calls depend on differs. A call on one of the documents is answered the same in alike
states and leaves them alike, and a call on any other document leaves a state alike to what it
was alike to. The same holds of the operations of bindings that share a manager.
-/
namespace StoreBinding

/-- An act that concerns one document: with the document in view it does the same to states that
are alike, and otherwise it cannot be seen. -/
structure Concerns {S α : Type} (alike : (String → Prop) → S → S → Prop) (id : String)
    (act : S → α × S) : Prop where
  seen : ∀ {ids s s'}, alike ids s s' → ids id →
    (act s).1 = (act s').1 ∧ alike ids (act s).2 (act s').2
  unseen : ∀ {ids s s'}, alike ids s s' → ¬ ids id → alike ids (act s).2 s'

namespace Concerns

variable {S α β : Type} {alike : (String → Prop) → S → S → Prop} {id : String} {act : S → α × S}

/-- An answer that leaves the state as it is. -/
theorem pure (a : α) : Concerns alike id fun s => (a, s) :=
  ⟨fun h _ => ⟨rfl, h⟩, fun h _ => h⟩

theorem bind {f : α → S → β × S} (h : Concerns alike id act)
    (hf : ∀ a, Concerns alike id (f a)) :
    Concerns alike id fun s => f (act s).1 (act s).2 := by
  refine ⟨fun halike hid => ?_, fun halike hid => ?_⟩
  · obtain ⟨hsame, hafter⟩ := h.seen halike hid
    rw [hsame]
    exact (hf _).seen hafter hid
  · exact (hf _).unseen (h.unseen halike hid) hid

/-- What is made of the answer alone. -/
theorem map (h : Concerns alike id act) (f : α → β) :
    Concerns alike id fun s => (f (act s).1, (act s).2) :=
  h.bind fun a => pure (f a)

theorem congr {act' : S → α × S} (h : Concerns alike id act) (heq : ∀ s, act' s = act s) :
    Concerns alike id act' := by
  rwa [funext heq]

end Concerns

namespace Memory

structure Alike (ids : String → Prop) (m m' : Memory) : Prop where
  decide : m.script.decide = m'.script.decide
  operationFault : m.operationFault = m'.operationFault
  closeFault : m.closeFault = m'.closeFault
  connections : m.connections = m'.connections
  documents : ∀ id, ids id → m.documents.get? id = m'.documents.get? id
  asked : ∀ op id, ids id → m.script.count op id = m'.script.count op id

theorem Alike.refl (ids : String → Prop) (m : Memory) : Alike ids m m :=
  ⟨rfl, rfl, rfl, rfl, fun _ _ => rfl, fun _ _ _ => rfl⟩

theorem Alike.of_common {ids : String → Prop} {m m' common : Memory} (h : Alike ids m common)
    (h' : Alike ids m' common) : Alike ids m m' :=
  ⟨h.decide.trans h'.decide.symm, h.operationFault.trans h'.operationFault.symm,
    h.closeFault.trans h'.closeFault.symm, h.connections.trans h'.connections.symm,
    fun id hid => (h.documents id hid).trans (h'.documents id hid).symm,
    fun op id hid => (h.asked op id hid).trans (h'.asked op id hid).symm⟩

def verdict (op : Operation) (action : Option FaultAction) (fault : Option Halt) :
    Except Halt (Option FaultAction) :=
  match action, fault with
  | some (.raise h), _ => .error h
  | _, none => .ok action
  | _, some h => if action = some .skip ∧ op ≠ .get then .ok action else .error h

theorem attempt_eq (op : Operation) (id : String) (m : Memory) :
    attempt op id m =
      (verdict op (m.script.consult op id).1 m.operationFault,
        { m with script := (m.script.consult op id).2 }) := by
  unfold attempt
  rcases m.script.consult op id with ⟨action, script⟩
  cases m.operationFault with
  | none => rcases action with _ | (_ | _ | _) <;> rfl
  | some fault =>
    rcases action with _ | (_ | _ | _)
    · rfl
    · rfl
    · rfl
    · dsimp only [verdict]
      split <;> rfl

theorem concerns_attempt (op : Operation) (id : String) : Concerns Alike id (attempt op id) := by
  refine ⟨fun {ids m m'} h hid => ?_, fun {ids m m'} h hid => ?_⟩
  · simp only [attempt_eq]
    have hconsult : (m.script.consult op id).1 = (m'.script.consult op id).1 := by
      simp only [FaultScript.consult, h.decide, h.asked op id hid]
    refine ⟨by rw [hconsult, h.operationFault], h.decide, h.operationFault, h.closeFault,
      h.connections, h.documents, fun op' id' hid' => ?_⟩
    rw [FaultScript.count_consult, FaultScript.count_consult, h.asked op' id' hid']
  · simp only [attempt_eq]
    refine ⟨h.decide, h.operationFault, h.closeFault, h.connections, h.documents,
      fun op' id' hid' => ?_⟩
    have hne : (op, id) ≠ (op', id') := by
      rintro heq
      cases heq
      exact hid hid'
    rw [FaultScript.count_consult, if_neg hne]
    exact h.asked op' id' hid'

theorem concerns_record (id : String) (call : MemoryCall) :
    Concerns Alike id fun m => ((), m.record call) :=
  ⟨fun h _ => ⟨rfl, h.decide, h.operationFault, h.closeFault, h.connections, h.documents, h.asked⟩,
    fun h _ => ⟨h.decide, h.operationFault, h.closeFault, h.connections, h.documents, h.asked⟩⟩

def follow {α : Type} (react : Option FaultAction → Act Memory α) :
    Except Halt (Option FaultAction) → Act Memory α
  | .error h => fun m => (.error h, m)
  | .ok action => react action

def call {α : Type} (op : Operation) (id : String) (c : MemoryCall)
    (react : Option FaultAction → Act Memory α) : Act Memory α := fun m =>
  follow react (attempt op id (m.record c)).1 (attempt op id (m.record c)).2

theorem concerns_call {α : Type} (op : Operation) (id : String) (c : MemoryCall)
    {react : Option FaultAction → Act Memory α}
    (h : ∀ action, Concerns Alike id (react action)) : Concerns Alike id (call op id c react) := by
  have hattempt := (concerns_record id c).bind fun _ => concerns_attempt op id
  refine hattempt.bind fun verdict => ?_
  cases verdict with
  | error x => exact .pure _
  | ok action => exact h action

theorem get_eq (id : String) (t : Duration) :
    get id t = call .get id (.get id t) fun
      | some .absent => fun m => (.ok none, m)
      | _ => fun m => (.ok (m.documents.get? id), m) := by
  funext m
  unfold get call
  rcases attempt .get id (m.record (.get id t)) with ⟨_ | action, m'⟩
  · rfl
  · rcases action with _ | (_ | _ | _) <;> rfl

def write (id : String) (present absent : Act Memory Unit) : Option FaultAction → Act Memory Unit
  | some .skip => fun m => (.ok (), m)
  | _ => fun m => if m.documents.contains id then present m else absent m

theorem insert_eq (id : String) (c : Content) (o : WriteOptions) :
    insert id c o = call .insert id (.insert id c o) (write id
      (fun m => (.error (.failure (.existing id)), m))
      fun m => (.ok (), { m with documents := m.documents.insert id c })) := by
  funext m
  unfold insert call
  rcases attempt .insert id (m.record (.insert id c o)) with ⟨_ | action, m'⟩
  · rfl
  · rcases action with _ | (_ | _ | _) <;> rfl

theorem replace_eq (id : String) (c : Content) (o : WriteOptions) :
    replace id c o = call .replace id (.replace id c o) (write id
      (fun m => (.ok (), { m with documents := m.documents.insert id c }))
      fun m => (.error (.failure (.missing id)), m)) := by
  funext m
  unfold replace call
  rcases attempt .replace id (m.record (.replace id c o)) with ⟨_ | action, m'⟩
  · rfl
  · rcases action with _ | (_ | _ | _) <;> rfl

theorem remove_eq (id : String) (o : WriteOptions) :
    remove id o = call .remove id (.remove id o) (write id
      (fun m => (.ok (), { m with documents := m.documents.erase id }))
      fun m => (.error (.failure (.missing id)), m)) := by
  funext m
  unfold remove call
  rcases attempt .remove id (m.record (.remove id o)) with ⟨_ | action, m'⟩
  · rfl
  · rcases action with _ | (_ | _ | _) <;> rfl

theorem concerns_lookup {α : Type} (id : String) (f : Option Content → α) :
    Concerns Alike id fun m => (f (m.documents.get? id), m) :=
  ⟨fun h hid => ⟨by rw [h.documents id hid], h⟩, fun h _ => h⟩

/-- Setting or removing the document. -/
theorem concerns_documents {α : Type} {id : String} (change : Documents → Documents)
    (hsame : ∀ d d' : Documents, (change d).get? id = (change d').get? id)
    (hother : ∀ (d : Documents) (id' : String), id' ≠ id → (change d).get? id' = d.get? id')
    (a : α) : Concerns Alike id fun m => (a, { m with documents := change m.documents }) := by
  refine ⟨fun {ids m m'} h hid => ?_, fun {ids m m'} h hid => ?_⟩
  · refine ⟨rfl, h.decide, h.operationFault, h.closeFault, h.connections, fun id' hid' => ?_,
      h.asked⟩
    by_cases heq : id' = id
    · rw [heq]
      exact hsame m.documents m'.documents
    · rw [hother m.documents id' heq, hother m'.documents id' heq]
      exact h.documents id' hid'
  · refine ⟨h.decide, h.operationFault, h.closeFault, h.connections, fun id' hid' => ?_, h.asked⟩
    have heq : id' ≠ id := fun heq => hid (heq ▸ hid')
    rw [hother m.documents id' heq]
    exact h.documents id' hid'

theorem concerns_set {α : Type} (id : String) (c : Content) (a : α) :
    Concerns Alike id fun m => (a, { m with documents := m.documents.insert id c }) := by
  refine concerns_documents (fun d => OrderedMap.insert d id c) (fun d d' => ?_)
    (fun d id' h => ?_) a
  · rw [OrderedMap.get?_insert_self, OrderedMap.get?_insert_self]
  · exact OrderedMap.get?_insert_of_ne d h c

theorem concerns_erase {α : Type} (id : String) (a : α) :
    Concerns Alike id fun m => (a, { m with documents := m.documents.erase id }) := by
  refine concerns_documents (fun d => OrderedMap.erase d id) (fun d d' => ?_) (fun d id' h => ?_) a
  · rw [OrderedMap.get?_erase, OrderedMap.get?_erase, if_pos rfl, if_pos rfl]
  · rw [OrderedMap.get?_erase, if_neg h]

theorem concerns_write {id : String} {present absent : Act Memory Unit}
    (hpresent : Concerns Alike id present) (habsent : Concerns Alike id absent)
    (action : Option FaultAction) : Concerns Alike id (write id present absent action) := by
  have hwrite : Concerns Alike id fun m : Memory =>
      if m.documents.contains id then present m else absent m := by
    have hlookup := (concerns_lookup id Option.isSome).bind
      (f := fun isThere m => if isThere then present m else absent m) fun isThere => ?_
    · exact hlookup
    · cases isThere with
      | true => exact hpresent
      | false => exact habsent
  rcases action with _ | (_ | _ | _)
  · exact hwrite
  · exact hwrite
  · exact hwrite
  · exact .pure _

theorem concerns_get (id : String) (t : Duration) : Concerns Alike id (get id t) := by
  rw [get_eq]
  refine concerns_call .get id _ fun action => ?_
  rcases action with _ | (_ | _ | _)
  · exact concerns_lookup id Except.ok
  · exact concerns_lookup id Except.ok
  · exact .pure _
  · exact concerns_lookup id Except.ok

theorem concerns_insert (id : String) (c : Content) (o : WriteOptions) :
    Concerns Alike id (insert id c o) := by
  rw [insert_eq]
  exact concerns_call .insert id _ (concerns_write (.pure _) (concerns_set id c _))

theorem concerns_replace (id : String) (c : Content) (o : WriteOptions) :
    Concerns Alike id (replace id c o) := by
  rw [replace_eq]
  exact concerns_call .replace id _ (concerns_write (concerns_set id c _) (.pure _))

theorem concerns_remove (id : String) (o : WriteOptions) : Concerns Alike id (remove id o) := by
  rw [remove_eq]
  exact concerns_call .remove id _ (concerns_write (concerns_erase id _) (.pure _))

end Memory

namespace Client

def readAnswer (names : List String) : Except Halt (Option Content) → Except Halt ReadResult
  | .ok none => .ok { status := .notFound }
  | .ok (some content) =>
    match content.project names with
    | .ok fields => .ok { status := .ok, fields }
    | .error _ => .ok { status := .error }
  | .error (.failure _) => .ok { status := .error }
  | .error (.interrupt t) => .error (.interrupt t)

def writeAnswer : Except Halt Unit → Except Halt Status
  | .ok () => .ok .ok
  | .error (.failure _) => .ok .error
  | .error (.interrupt t) => .error (.interrupt t)

theorem settle_eq {σ : Type} (r : Except Halt Unit × σ) : settle r = (writeAnswer r.1, r.2) := by
  rcases r with ⟨(_ | _) | _, s⟩ <;> rfl

/-- A read of a binding that is ready for calls. -/
theorem read_eq {σ : Type} {c : Client} {m : Manager} {h : Handle} {r : Resolved}
    (hlive : m.live = some h) (hresolved : c.resolved = some r) (b : Backend σ)
    (table key : String) (names : List String) (s : σ) :
    c.read b m table key names s =
      (readAnswer names (b.get h (documentId table key) r.options.timeout s).1,
        (b.get h (documentId table key) r.options.timeout s).2) := by
  simp only [read, hlive, hresolved]
  rcases b.get h (documentId table key) r.options.timeout s with ⟨(_ | _) | _ | content, s'⟩
  · rfl
  · rfl
  · rfl
  · dsimp only [readAnswer]
    cases content.project names <;> rfl

theorem concerns_settle {id : String} {act : Act Memory Unit}
    (h : Concerns Memory.Alike id act) : Concerns Memory.Alike id fun s => settle (act s) :=
  (h.map writeAnswer).congr fun s => settle_eq (act s)

variable (c : Client) (m : Manager) (table key : String)

theorem concerns_read (names : List String) :
    Concerns Memory.Alike (documentId table key) (c.read Memory.backend m table key names) := by
  cases hlive : m.live with
  | none => exact (Concerns.pure _).congr fun s => by simp only [read, hlive]; rfl
  | some h =>
    cases hresolved : c.resolved with
    | none => exact (Concerns.pure _).congr fun s => by simp only [read, hlive, hresolved]; rfl
    | some r =>
      have hget := Memory.concerns_get (documentId table key) r.options.timeout
      exact (hget.map (readAnswer names)).congr fun s => read_eq hlive hresolved Memory.backend ..

theorem concerns_write {put : Handle → String → Content → WriteOptions → Act Memory Unit}
    (hput : ∀ h id content o, Concerns Memory.Alike id (put h id content o))
    (values : Option Content) :
    Concerns Memory.Alike (documentId table key) (write put c m table key values) := by
  unfold write
  generalize m.live = live
  generalize c.resolved = resolved
  generalize values.map Content.encode = encoded
  rcases live with _ | h
  · exact .pure _
  · rcases resolved with _ | r
    · exact .pure _
    · rcases encoded with _ | (_ | fields)
      · exact .pure _
      · exact .pure _
      · exact concerns_settle (hput h _ fields.content r.options)

theorem concerns_delete :
    Concerns Memory.Alike (documentId table key) (c.delete Memory.backend m table key) := by
  unfold delete
  generalize m.live = live
  generalize c.resolved = resolved
  rcases live with _ | h
  · exact .pure _
  · rcases resolved with _ | r
    · exact .pure _
    · exact concerns_settle (Memory.concerns_remove _ r.options)

end Client

structure Env.Alike (ids : String → Prop) (e e' : Env Memory) : Prop where
  log : e.log = e'.log
  store : Memory.Alike ids e.store e'.store

theorem Env.Alike.note {ids : String → Prop} {e e' : Env Memory} (h : Env.Alike ids e e')
    (level : Log.Level) (logger message : String) (trouble : Option String) :
    Env.Alike ids (e.note level logger message trouble) (e'.note level logger message trouble) :=
  ⟨congrArg (·.push { level, logger, message, trouble }) h.log, h.store⟩

/-- Closing a connection concerns no document. -/
theorem Memory.alike_close {ids : String → Prop} {e e' : Env Memory} (h : Env.Alike ids e e')
    (handle : Handle) :
    (close handle e).1 = (close handle e').1 ∧
      Env.Alike ids (close handle e).2 (close handle e').2 := by
  have hconnections := congrArg (closeAt · handle) h.store.connections
  simp only [close, h.store.closeFault]
  split <;> exact ⟨rfl, h.log, h.store.decide, h.store.operationFault, rfl, hconnections,
    h.store.documents, h.store.asked⟩

theorem Manager.alike_release (m : Manager) {ids : String → Prop} {e e' : Env Memory}
    (h : Env.Alike ids e e') :
    (m.release Memory.backend e).1 = (m.release Memory.backend e').1 ∧
      (m.release Memory.backend e).2.1 = (m.release Memory.backend e').2.1 ∧
      Env.Alike ids (m.release Memory.backend e).2.2 (m.release Memory.backend e').2.2 := by
  unfold release
  split
  · exact ⟨rfl, rfl, h⟩
  · next handle _ =>
    dsimp only
    split
    · exact ⟨rfl, rfl, h.note ..⟩
    · obtain ⟨hsame, hclosed⟩ := Memory.alike_close h handle
      simp only [Memory.backend]
      rcases hc : Memory.close handle e with ⟨closed, after⟩
      rcases hc' : Memory.close handle e' with ⟨closed', after'⟩
      rw [hc, hc'] at hsame hclosed
      cases hsame
      cases closed with
      | ok _ => exact ⟨rfl, rfl, hclosed.note ..⟩
      | error x =>
        cases x with
        | failure f => exact ⟨rfl, rfl, hclosed.note ..⟩
        | interrupt t => exact ⟨rfl, rfl, hclosed⟩

namespace Crew

structure Alike (ids : String → Prop) (w w' : Crew Memory) : Prop where
  manager : w.manager = w'.manager
  clients : w.clients = w'.clients
  env : Env.Alike ids w.env w'.env

theorem Alike.refl (ids : String → Prop) (w : Crew Memory) : Alike ids w w :=
  ⟨rfl, rfl, rfl, .refl ids w.env.store⟩

theorem Alike.of_common {ids : String → Prop} {w w' common : Crew Memory} (h : Alike ids w common)
    (h' : Alike ids w' common) : Alike ids w w' :=
  ⟨h.manager.trans h'.manager.symm, h.clients.trans h'.clients.symm,
    h.env.log.trans h'.env.log.symm, h.env.store.of_common h'.env.store⟩

/-- Crews that are alike with respect to each document differ in nothing that any call depends
on. -/
theorem Alike.of_each {w w' : Crew Memory} (h : ∀ id, ∃ ids, ids id ∧ Alike ids w w') :
    Alike (fun _ => True) w w' := by
  obtain ⟨ids, -, hany⟩ := h ""
  refine ⟨hany.manager, hany.clients, hany.env.log, hany.env.store.decide,
    hany.env.store.operationFault, hany.env.store.closeFault, hany.env.store.connections, ?_, ?_⟩
  · intro id _
    obtain ⟨ids, hid, halike⟩ := h id
    exact halike.env.store.documents id hid
  · intro op id _
    obtain ⟨ids, hid, halike⟩ := h id
    exact halike.env.store.asked op id hid

theorem concerns_operate {id : String} {op : Client → Manager → Act Memory Status}
    (h : ∀ c m, Concerns Memory.Alike id (op c m)) (seat : Nat) :
    Concerns Alike id (operate seat op) := by
  refine ⟨fun {ids w w'} halike hid => ?_, fun {ids w w'} halike hid => ?_⟩
  · unfold operate
    rw [halike.clients, halike.manager]
    split
    · exact ⟨rfl, halike⟩
    · next c _ =>
      obtain ⟨hsame, hstore⟩ := (h c w'.manager).seen halike.env.store hid
      exact ⟨hsame, rfl, rfl, halike.env.log, hstore⟩
  · unfold operate
    split
    · exact halike
    · next c _ =>
      exact ⟨halike.manager, halike.clients, halike.env.log,
        (h c w.manager).unseen halike.env.store hid⟩

/-- Stopping a binding does the same to crews that are alike. -/
theorem alike_stop {ids : String → Prop} {w w' : Crew Memory} (h : Alike ids w w') (seat : Nat) :
    ((db Memory.backend seat).stop w).1 = ((db Memory.backend seat).stop w').1 ∧
      Alike ids ((db Memory.backend seat).stop w).2 ((db Memory.backend seat).stop w').2 := by
  simp only [db, renew, h.clients, h.manager]
  split
  · exact ⟨rfl, h⟩
  · next c _ =>
    obtain ⟨hsame, hmanager, henv⟩ := w'.manager.alike_release h.env
    unfold Client.stop
    split
    · exact ⟨hsame, hmanager, rfl, henv⟩
    · exact ⟨rfl, rfl, rfl, h.env⟩

end Crew

namespace Smoke

/-- An operation of a worker concerns the document of its record. -/
theorem concerns_perform (length seat : Nat) (table : String) (choice : Choice) (worker : Int)
    (t : Task) :
    Concerns Crew.Alike (documentId table (key worker t.record))
      (perform (withFields length (Crew.db Memory.backend seat)) table choice worker t) := by
  obtain ⟨record, step, action, expected⟩ := t
  have hread := Crew.concerns_operate (fun c m => (c.concerns_read m table (key worker record)
    []).map (Except.map Client.ReadResult.status)) seat
  have hdelete := Crew.concerns_operate
    (fun c m => c.concerns_delete m table (key worker record)) seat
  unfold withFields
  by_cases hlength : length ≤ maxLetters
  · rw [if_pos hlength]
    cases action with
    | insert =>
      exact Crew.concerns_operate
        (fun c m => c.concerns_write m table _ (fun _ => Memory.concerns_insert) _) seat
    | read => exact hread
    | update =>
      exact Crew.concerns_operate
        (fun c m => c.concerns_write m table _ (fun _ => Memory.concerns_replace) _) seat
    | delete => exact hdelete
  · rw [if_neg hlength]
    cases action with
    | insert => exact .pure _
    | read => exact hread
    | update => exact .pure _
    | delete => exact hdelete

end Smoke

end StoreBinding
