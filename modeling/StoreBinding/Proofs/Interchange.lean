import StoreBinding.Proofs.Clusters
import StoreBinding.Proofs.Locality

/-!
The in-memory store in place of the cluster service. Both look documents up and write them alike,
follow the same script of faults, and differ in how they say that a document is absent, in the
errors of writes, and in what they ask for with a call. Main statement: bindings that are created
with texts cannot tell them apart. The same steps get the same replies and leave the same
documents behind, provided that connecting does not fail and that no look-up is made to fail with
the error that stands for an absent document.
-/
namespace StoreBinding

namespace Numeral

/-- As many digits as there are places bound a number. -/
theorem placeValue_lt {digits : List Char} (h : IsDigits digits) {places : Nat}
    (hplaces : digits.length ≤ places) : placeValue digits < Nat.pow 10 places := by
  have hdigit : ∀ d ∈ digits.reverse.map fun c => c.toNat - '0'.toNat, d < 10 := by
    intro d hd
    obtain ⟨c, hc, rfl⟩ := List.mem_map.mp hd
    have hdecimal := h.decimal c (List.mem_reverse.mp hc)
    have hupper : c.toNat ≤ '9'.toNat := hdecimal.2
    have hnine : '9'.toNat = 57 := rfl
    have hzero : '0'.toNat = 48 := rfl
    omega
  have hvalue := Nat.ofDigits_lt_base_pow_length (by decide) hdigit
  rw [List.length_map, List.length_reverse] at hvalue
  exact hvalue.trans_le (Nat.pow_le_pow_right (by decide) hplaces)

/-- An integer that was read from a numeral has one. -/
theorem Denotes.exists_numeral {s : String} {n : Int} (h : Denotes s n) :
    ∃ shown, Value.numeral n = .ok shown := by
  have hbound : n.natAbs < Nat.pow 10 digitLimit := by
    cases h with
    | unsigned h | plus h =>
      rw [Int.natAbs_natCast]
      exact placeValue_lt h h.length_le
    | minus h =>
      rw [Int.natAbs_neg, Int.natAbs_natCast]
      exact placeValue_lt h h.length_le
  refine ⟨toString n, ?_⟩
  unfold Value.numeral text?
  rw [if_pos hbound]

end Numeral

/-- A cluster can be opened with the parameters of every configuration that comes from texts. -/
theorem TextProperties.openable {m : TextProperties} {r : Resolved}
    (h : Client.resolve m.raw = .ok r) : Cluster.Openable r.config.connection := by
  have hresolve : Config.resolve m.raw = .ok r.config ∧ r.config.writeOptions = .ok r.options := by
    unfold Client.resolve at h
    split at h
    · cases h
    · next config hconfig =>
      split at h
      · cases h
      · next options hoptions =>
        cases h
        exact ⟨hconfig, hoptions⟩
  obtain ⟨hconfig, hoptions⟩ := hresolve
  have htimeout := (timesOut_and_demands hconfig hoptions).2.2.1
  have hendpoints := (describes_of_resolve hconfig).endpoints
  refine ⟨⟨_, htimeout⟩, ?_⟩
  unfold Has at hendpoints
  split at hendpoints
  · have hone : Numeral.Denotes "1" 1 := Numeral.read_eq_ok_iff.mp rfl
    rw [hendpoints]
    exact hone.exists_numeral
  · exact hendpoints.exists_numeral

structure Concur {α σ τ : Type} (R : σ → τ → Prop) (x : α × σ) (y : α × τ) : Prop where
  answer : x.1 = y.1
  states : R x.2 y.2

structure Twin (m : Memory) (s : Service) : Prop where
  documents : m.documents = s.documents
  script : m.script = s.script
  close : m.closeFault = s.faults.get? .close
  operations : m.operationFault = none
  requests : ∀ op, s.faults.get? (.request op) = none
  connect : m.connectFault = none
  cluster : s.faults.get? .cluster = none
  opening : ∀ place, Cluster.IsOpening place → s.faults.get? place = none
  lookups : ∀ id n f, m.script.decide .get id n = some (.raise (.failure (.fault f))) →
    f.kind ≠ .documentNotFound

namespace Twin

variable {m : Memory} {s : Service}

theorem withConnections (h : Twin m s) (connections : Array Connection) :
    Twin { m with connections } s :=
  ⟨h.documents, h.script, h.close, h.operations, h.requests, h.connect, h.cluster, h.opening,
    h.lookups⟩

theorem withClusters (h : Twin m s) (closes : Array Nat) (calls : Array ServiceCall) :
    Twin m { s with closes, calls } :=
  ⟨h.documents, h.script, h.close, h.operations, h.requests, h.connect, h.cluster, h.opening,
    h.lookups⟩

theorem withDocuments (h : Twin m s) {d d' : Documents} (hd : d = d') :
    Twin { m with documents := d } { s with documents := d' } :=
  ⟨hd, h.script, h.close, h.operations, h.requests, h.connect, h.cluster, h.opening, h.lookups⟩

/-- A call on a document is recorded by each side in its own way. -/
theorem asked (h : Twin m s) (op : Operation) (id : String) (c : MemoryCall) (c' : ServiceCall) :
    Twin { m.record c with script := (m.script.consult op id).2 }
      { s.record c' with script := (s.script.consult op id).2 } := by
  refine ⟨h.documents, ?_, h.close, h.operations, h.requests, h.connect, h.cluster, h.opening,
    h.lookups⟩
  show (m.script.consult op id).2 = (s.script.consult op id).2
  rw [h.script]

end Twin

/-- A request comes out as the script wants, as long as no fault stands at its place. -/
theorem Service.request_eq {s : Service} {op : Operation}
    (hfault : s.faults.get? (.request op) = none) (id : String) (o : RequestOptions)
    (c : Option Content) :
    request op id o c s =
      (Memory.verdict op (s.script.consult op id).1 none,
        { s.record (.request op id o c) with script := (s.script.consult op id).2 }) := by
  have hfate : s.fate (.request op) = .ok () := by rw [fate, hfault]
  unfold request
  rw [attempt_eq, hfate]
  dsimp only
  have hscript : (s.record (.request op id o c)).script = s.script := rfl
  rw [hscript]
  rcases s.script.consult op id with ⟨_ | (_ | _ | _), script⟩ <;> rfl

namespace Twin

variable {m : Memory} {s : Service} {α β : Type} {id : String}

/-- Calls of both sides are related when what follows a successful attempt is, and errors are. -/
theorem call (h : Twin m s) {op : Operation} {c : MemoryCall} {o : RequestOptions}
    {content : Option Content} {react : Option FaultAction → Act Memory α}
    {react' : Option FaultAction → Act Service β} {R : Except Halt α → Except Halt β → Prop}
    (herror : ∀ x, (∃ n, m.script.decide op id n = some (.raise x)) → R (.error x) (.error x))
    (hreact : ∀ action m s, Twin m s →
      R (react action m).1 (react' action s).1 ∧ Twin (react action m).2 (react' action s).2) :
    R (Memory.call op id c react m).1 (Service.call op id o content react' s).1 ∧
      Twin (Memory.call op id c react m).2 (Service.call op id o content react' s).2 := by
  have htwin := h.asked op id c (.request op id o content)
  have hscript : (m.record c).script = s.script := h.script
  have hverdict : Memory.verdict op ((m.record c).script.consult op id).1
      (m.record c).operationFault = Memory.verdict op (s.script.consult op id).1 none := by
    have hfault : (m.record c).operationFault = none := h.operations
    rw [hscript, hfault]
  unfold Memory.call Service.call
  rw [Service.request_eq (h.requests op), Memory.attempt_eq, hverdict]
  dsimp only
  cases hconsult : (s.script.consult op id).1 with
  | none => exact hreact none _ _ htwin
  | some action =>
    cases action with
    | raise x =>
      refine ⟨herror x ⟨s.script.count op id + 1, ?_⟩, htwin⟩
      rw [h.script]
      exact hconsult
    | absent => exact hreact (some .absent) _ _ htwin
    | skip => exact hreact (some .skip) _ _ htwin

end Twin

namespace Cluster

def absorb : Except Halt Content → Except Halt (Option Content)
  | .ok c => .ok (some c)
  | .error (.failure (.fault f)) =>
    if f.kind = .documentNotFound then .ok none else .error (.failure (.fault f))
  | .error h => .error h

theorem get_eq (id : String) (t : Duration) (s : Service) :
    get id t s = (absorb (Service.get id (options t) s).1, (Service.get id (options t) s).2) := by
  unfold get absorb
  rcases Service.get id (options t) s with ⟨(t | f) | c, s'⟩
  · rfl
  · cases f with
    | fault f =>
      dsimp only
      split <;> rfl
    | _ => rfl
  · rfl

end Cluster

namespace Twin

open Client (writeAnswer)

variable {m : Memory} {s : Service} {id : String}

theorem lookup (h : Twin m s) (id : String) :
    .ok (m.documents.get? id) = Cluster.absorb (Service.lookup id s).1 ∧
      Twin m (Service.lookup id s).2 := by
  unfold Service.lookup
  rw [h.documents]
  cases s.documents.get? id with
  | none => exact ⟨rfl, h⟩
  | some c => exact ⟨rfl, h⟩

/-- Looking a document up gives the same answer on both sides, though one of them has an error for
absence. -/
theorem get (h : Twin m s) (id : String) (t : Duration) :
    Concur Twin (Memory.get id t m) (Cluster.get id t s) := by
  rw [Cluster.get_eq, Memory.get_eq, Service.get_eq]
  suffices hcall : _ = Cluster.absorb _ ∧ Twin _ _ from ⟨hcall.1, hcall.2⟩
  refine h.call (R := fun x y => x = Cluster.absorb y) ?_ fun action m s h => ?_
  · rintro x ⟨n, hn⟩
    cases x with
    | interrupt t => rfl
    | failure f =>
      cases f with
      | fault f => exact (if_neg (h.lookups id n f hn)).symm
      | _ => rfl
  · rcases action with _ | (_ | _ | _)
    · exact h.lookup id
    · exact h.lookup id
    · exact ⟨rfl, h⟩
    · exact h.lookup id

def WritesAlike (put : Act Memory Unit) (put' : Act Service Unit) : Prop :=
  ∀ m s, Twin m s → writeAnswer (put m).1 = writeAnswer (put' s).1 ∧ Twin (put m).2 (put' s).2

theorem writesAlike_failure (f f' : Failure) :
    WritesAlike (fun m => (.error (.failure f), m)) fun s => (.error (.failure f'), s) :=
  fun _ _ h => ⟨rfl, h⟩

/-- The documents are changed in the same way. -/
theorem writesAlike_change (change : Documents → Documents) :
    WritesAlike (fun m => (.ok (), { m with documents := change m.documents }))
      fun s => (.ok (), { s with documents := change s.documents }) :=
  fun _ _ h => ⟨rfl, h.withDocuments (congrArg change h.documents)⟩

theorem writesAlike_call {op : Operation} {c : MemoryCall} {o : RequestOptions}
    {content : Option Content} {present absent : Act Memory Unit}
    {present' absent' : Act Service Unit} (hpresent : WritesAlike present present')
    (habsent : WritesAlike absent absent') :
    WritesAlike (Memory.call op id c (Memory.write id present absent))
      (Service.call op id o content (Service.write id present' absent')) := by
  intro m s h
  refine h.call (R := fun x y => writeAnswer x = writeAnswer y) (fun _ _ => rfl)
    fun action m s h => ?_
  have hwrite : writeAnswer (if m.documents.contains id then present m else absent m).1 =
        writeAnswer (if s.documents.contains id then present' s else absent' s).1 ∧
      Twin (if m.documents.contains id then present m else absent m).2
        (if s.documents.contains id then present' s else absent' s).2 := by
    rw [h.documents]
    split
    · exact hpresent m s h
    · exact habsent m s h
  rcases action with _ | (_ | _ | _)
  · exact hwrite
  · exact hwrite
  · exact hwrite
  · exact ⟨rfl, h⟩

theorem writesAlike_insert (id : String) (c : Content) (o : WriteOptions) (o' : RequestOptions) :
    WritesAlike (Memory.insert id c o) (Service.insert id c o') := by
  rw [Memory.insert_eq, Service.insert_eq]
  exact writesAlike_call (writesAlike_failure _ _) (writesAlike_change fun d => d.insert id c)

theorem writesAlike_replace (id : String) (c : Content) (o : WriteOptions) (o' : RequestOptions) :
    WritesAlike (Memory.replace id c o) (Service.replace id c o') := by
  rw [Memory.replace_eq, Service.replace_eq]
  exact writesAlike_call (writesAlike_change fun d => d.insert id c) (writesAlike_failure _ _)

theorem writesAlike_remove (id : String) (o : WriteOptions) (o' : RequestOptions) :
    WritesAlike (Memory.remove id o) (Service.remove id o') := by
  rw [Memory.remove_eq, Service.remove_eq]
  exact writesAlike_call (writesAlike_change fun d => d.erase id) (writesAlike_failure _ _)

theorem settle {put : Act Memory Unit} {put' : Act Service Unit} (hput : WritesAlike put put')
    (h : Twin m s) :
    Concur Twin (Client.settle (put m)) (Client.settle (put' s)) := by
  obtain ⟨hanswer, hstores⟩ := hput m s h
  rw [Client.settle_eq, Client.settle_eq]
  exact ⟨hanswer, hstores⟩

end Twin

structure Manager.Alike (m m' : Manager) : Prop where
  refs : m.refs = m'.refs
  connected : m.live.isSome = m'.live.isSome

namespace Manager.Alike

variable {m m' : Manager}

theorem none_iff (h : Alike m m') : m.live = none ↔ m'.live = none := by
  rw [← Option.not_isSome_iff_eq_none, h.connected, Option.not_isSome_iff_eq_none]

theorem exists_live (h : Alike m m') {handle : Handle} (hlive : m.live = some handle) :
    ∃ handle', m'.live = some handle' := by
  rw [← Option.isSome_iff_exists, ← h.connected, hlive]
  rfl

theorem issued? (h : Alike m m') (call : Call) (c : Client) :
    call.issued? c m = call.issued? c m' := by
  unfold Call.issued?
  cases hlive : m.live with
  | none => rw [h.none_iff.mp hlive]
  | some handle =>
    obtain ⟨handle', hlive'⟩ := h.exists_live hlive
    rw [hlive']
    cases c.resolved <;> rfl

end Manager.Alike

namespace Twin

variable {s : Memory} {v : Service} {c : Client} {m m' : Manager}

/-- A call is answered the same on both sides. -/
theorem run (h : Twin s v) (hm : m.Alike m') (call : Call) :
    Concur Twin (call.run Memory.backend c m s) (call.run Cluster.backend c m' v) := by
  cases hissued : call.issued? c m with
  | none =>
    have hissued' : call.issued? c m' = none := by rw [← hm.issued?, hissued]
    rw [Call.run_of_refused hissued, Call.run_of_refused hissued']
    exact ⟨rfl, h⟩
  | some i =>
    have hready := (call.isSome_issued?_iff c m).mp (by rw [hissued]; rfl)
    obtain ⟨handle, hlive⟩ := Option.isSome_iff_exists.mp hready.1
    obtain ⟨r, hresolved⟩ := Option.isSome_iff_exists.mp hready.2.1
    obtain ⟨handle', hlive'⟩ := hm.exists_live hlive
    cases call with
    | read t k names =>
      obtain ⟨hanswer, hstores⟩ := h.get (documentId t k) r.options.timeout
      simp only [Call.run, Client.read_eq hlive hresolved, Client.read_eq hlive' hresolved,
        Memory.backend, Cluster.backend]
      exact ⟨by rw [hanswer], hstores⟩
    | insert t k values =>
      obtain ⟨fields, hfields⟩ := Option.isSome_iff_exists.mp hready.2.2
      have hput := writesAlike_insert (documentId t k) fields.content r.options
        (Cluster.options r.options.timeout r.options.durability.requirement?)
      obtain ⟨hanswer, hstores⟩ := h.settle hput
      simp only [Call.run_insert hlive hresolved, Call.run_insert hlive' hresolved, hfields]
      exact ⟨congrArg (Except.map Reply.status) hanswer, hstores⟩
    | update t k values =>
      obtain ⟨fields, hfields⟩ := Option.isSome_iff_exists.mp hready.2.2
      have hput := writesAlike_replace (documentId t k) fields.content r.options
        (Cluster.options r.options.timeout r.options.durability.requirement?)
      obtain ⟨hanswer, hstores⟩ := h.settle hput
      simp only [Call.run_update hlive hresolved, Call.run_update hlive' hresolved, hfields]
      exact ⟨congrArg (Except.map Reply.status) hanswer, hstores⟩
    | delete t k =>
      have hput := writesAlike_remove (documentId t k) r.options
        (Cluster.options r.options.timeout r.options.durability.requirement?)
      obtain ⟨hanswer, hstores⟩ := h.settle hput
      simp only [Call.run_delete hlive hresolved, Call.run_delete hlive' hresolved]
      exact ⟨congrArg (Except.map Reply.status) hanswer, hstores⟩

end Twin

/-- Preparing a binding depends on nothing but the binding. -/
theorem Client.prepare_cases (c : Client) :
    (∃ f, ∀ {σ : Type} (e : Env σ), c.prepare e = (.error (.failure f), c, e)) ∨
      ∃ r, (c.resolved = some r ∨ resolve c.properties = .ok r) ∧
        ∀ {σ : Type} (e : Env σ), ∃ e₁, e₁.store = e.store ∧
          c.prepare e = (.ok r, { c with resolved := some r }, e₁) := by
  cases hresolved : c.resolved with
  | some r =>
    have hself : { c with resolved := some r } = c := by rw [← hresolved]
    refine Or.inr ⟨r, Or.inl rfl, fun e => ⟨e, rfl, ?_⟩⟩
    rw [hself]
    simp only [prepare, hresolved]
  | none =>
    cases hresolve : resolve c.properties with
    | error f => exact Or.inl ⟨f, fun e => by simp only [prepare, hresolved, hresolve]⟩
    | ok r =>
      refine Or.inr ⟨r, Or.inr rfl, fun e =>
        ⟨e.note .info logger (announcement r.config), rfl, ?_⟩⟩
      simp only [prepare, hresolved, hresolve]

structure SameLife (x : Except Halt Unit × Client × Manager × Env Memory)
    (y : Except Halt Unit × Client × Manager × Env Service) : Prop where
  answer : x.1 = y.1
  client : x.2.1 = y.2.1
  managers : x.2.2.1.Alike y.2.2.1
  stores : Twin x.2.2.2.store y.2.2.2.store

namespace Twin

variable {e : Env Memory} {e' : Env Service} {c : Client} {m m' : Manager}

/-- Every error of connecting has its reason, and none of the reasons is there. -/
theorem opens {s : Memory} {v v' : Service} (h : Twin s v) {p : Params} (hp : Cluster.Openable p)
    {x : Except Halt Handle} (hconnected : Cluster.Connected p v (x, v')) :
    (∃ handle, x = .ok handle) ∧ Twin s v' := by
  cases hconnected with
  | unready reason => exact absurd hp reason
  | tried hopened =>
    cases hopened with
    | refused fault =>
      rw [h.cluster] at fault
      cases fault
    | interrupted opening fault | closed opening fault cause =>
      rw [h.opening _ opening] at fault
      cases fault
    | opened => exact ⟨⟨_, rfl⟩, h.withClusters _ _⟩

/-- Connecting succeeds on both sides. -/
theorem connected (h : Twin e.store e'.store) {p : Params} (hp : Cluster.Openable p) :
    ∃ handle handle' e₁ e₁', Memory.connect p.request e = (.ok handle, e₁) ∧
      Cluster.connect p.request e' = (.ok handle', e₁') ∧ Twin e₁.store e₁'.store := by
  have hmemory : Memory.connect p.request e = (.ok e.store.connections.size, { e with store :=
      { e.store with connections := e.store.connections.push { request := p.request } } }) := by
    unfold Memory.connect
    rw [h.connect]
  obtain ⟨⟨handle', hhandle'⟩, hstores⟩ := h.opens hp (Cluster.connected p e')
  refine ⟨_, handle', _, _, hmemory, Prod.ext hhandle' rfl, ?_⟩
  exact hstores.withConnections _

theorem acquired (h : Twin e.store e'.store) (hm : m.Alike m') {p : Params}
    (hp : Cluster.Openable p) :
    ∃ handle handle' m₁ m₁' e₁ e₁', m.acquire Memory.backend p.request e = (.ok handle, m₁, e₁) ∧
      m'.acquire Cluster.backend p.request e' = (.ok handle', m₁', e₁') ∧ m₁.Alike m₁' ∧
      Twin e₁.store e₁'.store := by
  unfold Manager.acquire
  cases hlive : m.live with
  | some handle =>
    obtain ⟨handle', hlive'⟩ := hm.exists_live hlive
    rw [hlive']
    exact ⟨_, _, _, _, _, _, rfl, rfl, ⟨congrArg (· + 1) hm.refs, rfl⟩, h⟩
  | none =>
    rw [hm.none_iff.mp hlive, ConnectionRequest.place_request]
    dsimp only
    have hnoted : Twin
        (e.note .info Manager.logger s!"Connecting to {p.host} (bucket {p.bucket})").store
        (e'.note .info Manager.logger s!"Connecting to {p.host} (bucket {p.bucket})").store := h
    obtain ⟨handle, handle', e₁, e₁', hconnect, hconnect', hstores⟩ := hnoted.connected hp
    simp only [Memory.backend, Cluster.backend, hconnect, hconnect']
    exact ⟨_, _, _, _, _, _, rfl, rfl, ⟨congrArg (· + 1) hm.refs, rfl⟩, hstores⟩

/-- Starting a binding that was created with texts. -/
theorem start (h : Twin e.store e'.store) (hm : m.Alike m') (hsettled : c.Settled)
    {texts : TextProperties} (htexts : c.properties = texts.raw) :
    SameLife (c.start Memory.backend m e) (c.start Cluster.backend m' e') := by
  unfold Client.start
  rcases c.prepare_cases with ⟨f, hprepare⟩ | ⟨r, hr, hprepare⟩
  · rw [hprepare e, hprepare e']
    exact ⟨rfl, rfl, hm, h⟩
  · have hresolve : Client.resolve texts.raw = .ok r := by
      rw [← htexts]
      exact hr.elim (hsettled r) id
    obtain ⟨e₁, hstore, heq⟩ := hprepare e
    obtain ⟨e₁', hstore', heq'⟩ := hprepare e'
    have hprepared : Twin e₁.store e₁'.store := by rwa [hstore, hstore']
    rw [heq, heq']
    dsimp only
    split
    · exact ⟨rfl, rfl, hm, hprepared⟩
    · obtain ⟨_, _, _, _, _, _, hacquire, hacquire', hmanagers, hstores⟩ :=
        hprepared.acquired hm (TextProperties.openable hresolve)
      rw [hacquire, hacquire']
      exact ⟨rfl, rfl, hmanagers, hstores⟩

theorem released (h : Twin e.store e'.store) (hm : m.Alike m') :
    (m.release Memory.backend e).1 = (m'.release Cluster.backend e').1 ∧
      (m.release Memory.backend e).2.1.Alike (m'.release Cluster.backend e').2.1 ∧
      Twin (m.release Memory.backend e).2.2.store (m'.release Cluster.backend e').2.2.store := by
  unfold Manager.release
  cases hlive : m.live with
  | none =>
    rw [hm.none_iff.mp hlive]
    exact ⟨rfl, hm, h⟩
  | some handle =>
    obtain ⟨handle', hlive'⟩ := hm.exists_live hlive
    rw [hlive', ← hm.refs]
    dsimp only
    split
    · exact ⟨rfl, ⟨rfl, rfl⟩, h⟩
    · have hclose : Memory.backend.close handle e = _ := Memory.close_eq handle e
      have hclose' : Cluster.backend.close handle' e' = _ := Cluster.close_eq handle' e'
      have hclosed := (h.withConnections (closeAt e.store.connections handle)).withClusters
        (e'.store.closes.modify handle' (· + 1)) (e'.store.record (.close handle')).calls
      rw [hclose, hclose', Service.fate, ← h.close]
      cases e.store.closeFault with
      | none => exact ⟨rfl, ⟨rfl, rfl⟩, hclosed⟩
      | some x => cases x <;> exact ⟨rfl, ⟨rfl, rfl⟩, hclosed⟩

theorem stop (h : Twin e.store e'.store) (hm : m.Alike m') :
    SameLife (c.stop Memory.backend m e) (c.stop Cluster.backend m' e') := by
  cases holds : c.holds with
  | false =>
    rw [Client.stop_of_free holds, Client.stop_of_free holds]
    exact ⟨rfl, rfl, hm, h⟩
  | true =>
    obtain ⟨hanswer, hmanagers, hstores⟩ := h.released hm
    rw [Client.stop_of_holds holds, Client.stop_of_holds holds]
    exact ⟨hanswer, rfl, hmanagers, hstores⟩

end Twin

def Step.IsTextual : Step → Prop
  | .create _ _ properties => ∃ texts : TextProperties, properties = texts.raw
  | _ => True

namespace World

structure Twins (w : World Memory) (v : World Service) : Prop where
  members : w.members = v.members
  managers : ∀ g, (w.managers.ask g).Alike (v.managers.ask g)
  stores : Twin w.env.store v.env.store
  settled : ∀ id m, w.members.get? id = some m →
    m.client.Settled ∧ ∃ texts : TextProperties, m.client.properties = texts.raw

namespace Twins

variable {w : World Memory} {v : World Service}

theorem init {e : Env Memory} {e' : Env Service} (h : Twin e.store e'.store) :
    Twins { env := e } { env := e' } := by
  refine ⟨rfl, fun g => ⟨rfl, rfl⟩, h, fun id m hm => ?_⟩
  cases hm

theorem create (h : Twins w v) (id manager : String) (texts : TextProperties) :
    Twins (w.step Memory.backend (.create id manager texts.raw)).2
      (v.step Cluster.backend (.create id manager texts.raw)).2 := by
  refine ⟨congrArg (OrderedMap.insert · id _) h.members, fun g => ?_, h.stores, fun id' m hm => ?_⟩
  · show ((w.managers.touch manager).ask g).Alike ((v.managers.touch manager).ask g)
    rw [Registry.ask_touch, Registry.ask_touch]
    exact h.managers g
  · rcases OrderedMap.of_get?_insert hm with ⟨-, rfl⟩ | hbefore
    · refine ⟨fun r hr => ?_, texts, rfl⟩
      cases hr
    · exact h.settled id' m hbefore

/-- A change of one binding's life that is the same on both sides. -/
theorem renew (h : Twins w v) (id : String) (m : Member)
    {change : Client → Manager → Env Memory → Except Halt Unit × Client × Manager × Env Memory}
    {change' : Client → Manager → Env Service → Except Halt Unit × Client × Manager × Env Service}
    (hlife : SameLife (change m.client (w.managers.ask m.manager) w.env)
      (change' m.client (v.managers.ask m.manager) v.env))
    (hkept : (change m.client (w.managers.ask m.manager) w.env).2.1.Settled ∧
      ∃ texts : TextProperties,
        (change m.client (w.managers.ask m.manager) w.env).2.1.properties = texts.raw) :
    Concur Twins (w.renew id m change) (v.renew id m change') := by
  unfold World.renew
  refine ⟨congrArg (Except.map fun _ => Reply.done) hlife.answer, ?_, fun g => ?_, hlife.stores,
    fun id' m' hm' => ?_⟩
  · show w.members.insert id _ = v.members.insert id _
    rw [h.members, hlife.client]
  · show (Registry.ask (w.managers.insert m.manager _) g).Alike
      (Registry.ask (v.managers.insert m.manager _) g)
    rw [Registry.ask_insert, Registry.ask_insert]
    split
    · exact hlife.managers
    · exact h.managers g
  · rcases OrderedMap.of_get?_insert hm' with ⟨-, rfl⟩ | hbefore
    · exact hkept
    · exact h.settled id' m' hbefore

/-- Steps on a binding that was never created fail over its name on both sides. -/
theorem absent (h : Twins w v) {s : Step} {id : String} (hs : s.binding? = some id)
    (hnew : ∀ manager properties, s ≠ .create id manager properties)
    (hm : w.members.get? id = none) :
    Concur Twins (w.step Memory.backend s) (v.step Cluster.backend s) := by
  have hm' : v.members.get? id = none := by rw [← h.members, hm]
  rw [step_absent hs hnew hm, step_absent hs hnew hm']
  exact ⟨rfl, h⟩

theorem start (h : Twins w v) (id : String) :
    Concur Twins (w.step Memory.backend (.start id)) (v.step Cluster.backend (.start id)) := by
  cases hm : w.members.get? id with
  | none => exact h.absent rfl (fun _ _ heq => by cases heq) hm
  | some m =>
    have hm' : v.members.get? id = some m := by rw [← h.members, hm]
    obtain ⟨hsettled, texts, htexts⟩ := h.settled id m hm
    have hlife := h.stores.start (h.managers m.manager) hsettled htexts
    obtain ⟨hproperties, hkept⟩ :=
      m.client.start_client (b := Memory.backend) (w.managers.ask m.manager) w.env
    rw [step_start hm, step_start hm']
    exact h.renew id m hlife ⟨hkept hsettled, texts, hproperties.trans htexts⟩

theorem stop (h : Twins w v) (id : String) :
    Concur Twins (w.step Memory.backend (.stop id)) (v.step Cluster.backend (.stop id)) := by
  cases hm : w.members.get? id with
  | none => exact h.absent rfl (fun _ _ heq => by cases heq) hm
  | some m =>
    have hm' : v.members.get? id = some m := by rw [← h.members, hm]
    obtain ⟨hsettled, texts, htexts⟩ := h.settled id m hm
    have hlife := h.stores.stop (c := m.client) (h.managers m.manager)
    obtain ⟨hproperties, hkept⟩ :=
      m.client.stop_client (b := Memory.backend) (w.managers.ask m.manager) w.env
    rw [step_stop hm, step_stop hm']
    exact h.renew id m hlife ⟨hkept hsettled, texts, hproperties.trans htexts⟩

theorem call (h : Twins w v) (id : String) (call : Call) :
    Concur Twins (w.step Memory.backend (call.step id))
      (v.step Cluster.backend (call.step id)) := by
  cases hm : w.members.get? id with
  | none =>
    exact h.absent (by cases call <;> rfl) (fun _ _ heq => by cases call <;> cases heq) hm
  | some m =>
    have hm' : v.members.get? id = some m := by rw [← h.members, hm]
    obtain ⟨hanswer, hstores⟩ := h.stores.run (h.managers m.manager) call (c := m.client)
    rw [step_call hm, step_call hm']
    exact ⟨hanswer, h.members, h.managers, hstores, h.settled⟩

theorem step (h : Twins w v) {s : Step} (hs : s.binding?.isSome) (ht : s.IsTextual) :
    Concur Twins (w.step Memory.backend s) (v.step Cluster.backend s) := by
  cases s with
  | create id manager properties =>
    obtain ⟨texts, rfl⟩ := ht
    exact ⟨rfl, h.create id manager texts⟩
  | start id => exact h.start id
  | stop id => exact h.stop id
  | read id table key names => exact h.call id (.read table key names)
  | insert id table key values => exact h.call id (.insert table key values)
  | update id table key values => exact h.call id (.update table key values)
  | delete id table key => exact h.call id (.delete table key)
  | scan id =>
    cases hm : w.members.get? id with
    | none => exact h.absent rfl (fun _ _ heq => by cases heq) hm
    | some m =>
      have hm' : v.members.get? id = some m := by rw [← h.members, hm]
      simp only [World.step, hm, hm']
      exact ⟨rfl, h⟩
  | acquire | release | connection => cases hs

end Twins

def play {σ : Type} (b : Backend σ) : List Step → World σ → List (Except Halt Reply) × World σ
  | [], w => ([], w)
  | s :: rest, w =>
    ((w.step b s).1 :: (play b rest (w.step b s).2).1, (play b rest (w.step b s).2).2)

theorem Twins.play {w : World Memory} {v : World Service} (h : Twins w v) {steps : List Step}
    (hs : ∀ s ∈ steps, s.binding?.isSome ∧ s.IsTextual) :
    Concur Twins (w.play Memory.backend steps) (v.play Cluster.backend steps) := by
  induction steps generalizing w v with
  | nil => exact ⟨rfl, h⟩
  | cons s rest ih =>
    obtain ⟨hbinding, htextual⟩ := hs s List.mem_cons_self
    obtain ⟨hreply, hnext⟩ := h.step hbinding htextual
    obtain ⟨hreplies, hlast⟩ := ih hnext fun s' hmem => hs s' (List.mem_cons_of_mem s hmem)
    exact ⟨congrArg₂ List.cons hreply hreplies, hlast⟩

/-- Bindings that are created with texts cannot tell the in-memory store from the cluster service:
any steps get the same replies, and leave the same documents. -/
theorem backends_interchange {e : Env Memory} {e' : Env Service} (h : Twin e.store e'.store)
    {steps : List Step} (hs : ∀ s ∈ steps, s.binding?.isSome ∧ s.IsTextual) :
    (play Memory.backend steps { env := e }).1 = (play Cluster.backend steps { env := e' }).1 ∧
      (play Memory.backend steps { env := e }).2.env.store.documents =
        (play Cluster.backend steps { env := e' }).2.env.store.documents := by
  obtain ⟨hreplies, hlast⟩ := (Twins.init h).play hs
  exact ⟨hreplies, hlast.stores.documents⟩

def mishaps : List FaultRule :=
  [⟨.get, "t:k", 2, .absent⟩, ⟨.replace, "t:k", 1, .raise (.failure (.missing "t:k"))⟩,
    ⟨.get, "t:l", 0, .raise (.interrupt "")⟩, ⟨.remove, "t:k", 0, .skip⟩]

def mishapStore : Env Memory := { store := { script := .ofRules mishaps } }

def mishapService : Env Service := { store := { script := .ofRules mishaps } }

theorem twin_mishaps : Twin mishapStore.store mishapService.store := by
  refine ⟨rfl, rfl, rfl, rfl, fun _ => rfl, rfl, rfl, fun _ _ => rfl, fun id n f hf => ?_⟩
  obtain ⟨rule, hfound, haction⟩ := Option.map_eq_some_iff.mp hf
  have hrule := List.mem_of_find?_eq_some hfound
  have hnone : ∀ rule ∈ mishaps, rule.action ≠ .raise (.failure (.fault f)) := by
    simp [mishaps]
  exact absurd haction (hnone rule hrule)

def mishapSteps : List Step :=
  [.create "a" "m" leveled.raw, .create "b" "m" counted.raw,
    .start "a", .start "b",
    .insert "a" "t" "k" (some (OrderedMap.ofList [("f", .bool true)])), .read "b" "t" "k" [],
    .read "b" "t" "k" [], .update "b" "t" "k" (some ∅), .read "a" "t" "l" [],
    .delete "a" "t" "k", .scan "a", .stop "a", .stop "b", .read "a" "t" "k" []]

/-- The cluster service misses the same document once as the in-memory store does, and keeps the
same one that should have been removed. -/
theorem backends_interchange_mishaps :
    Twin mishapStore.store mishapService.store ∧
      (∀ s ∈ mishapSteps, s.binding?.isSome ∧ s.IsTextual) ∧
      (play Cluster.backend mishapSteps { env := mishapService }).1[6]? =
        some (.ok (.record { status := .notFound })) ∧
      (play Cluster.backend mishapSteps { env := mishapService }).2.env.store.documents.contains
        "t:k" = true := by
  have hs : ∀ s ∈ mishapSteps, s.binding?.isSome ∧ s.IsTextual := by
    simp [mishapSteps, Step.binding?, Step.IsTextual]
  obtain ⟨hreplies, hdocuments⟩ := backends_interchange twin_mishaps hs
  refine ⟨twin_mishaps, hs, ?_, ?_⟩
  · rw [← hreplies]
    rfl
  · rw [← hdocuments]
    rfl

end World

end StoreBinding
