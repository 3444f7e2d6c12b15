import StoreBinding.Proofs.Interchange
import StoreBinding.Proofs.Redaction

/-!
Backends that keep the password to themselves. Whatever opens connections gets to see the password,
so two backends are compared: they answer alike if requests that are the same but for its text get
the same answers and the same log. The in-memory store and the cluster service each answer alike
with themselves, as long as their records of calls are the same but for passwords.
-/
namespace StoreBinding

variable {σ τ : Type} {R : σ → τ → Prop}

structure Env.Matches (R : σ → τ → Prop) (e : Env σ) (e' : Env τ) : Prop where
  log : e.log = e'.log
  store : R e.store e'.store

theorem Env.Matches.note {e : Env σ} {e' : Env τ} (h : Matches R e e') (level : Log.Level)
    (logger message : String) (trouble : Option String) :
    Matches R (e.note level logger message trouble) (e'.note level logger message trouble) :=
  ⟨congrArg (·.push { level, logger, message, trouble }) h.log, h.store⟩

/-- Backends that answer alike as long as their stores are related, and keep these related. A
request is answered without regard to the text of its password. -/
structure Backend.AnswersAlike (b : Backend σ) (R : σ → τ → Prop) (b' : Backend τ) : Prop where
  connect : ∀ {r r' : ConnectionRequest} {e e'}, r.redacted = r'.redacted → Env.Matches R e e' →
    Concur (Env.Matches R) (b.connect r e) (b'.connect r' e')
  close : ∀ h {e e'}, Env.Matches R e e' → Concur (Env.Matches R) (b.close h e) (b'.close h e')
  get : ∀ h id t {s s'}, R s s' → Concur R (b.get h id t s) (b'.get h id t s')
  insert : ∀ h id c o {s s'}, R s s' → Concur R (b.insert h id c o s) (b'.insert h id c o s')
  replace : ∀ h id c o {s s'}, R s s' → Concur R (b.replace h id c o s) (b'.replace h id c o s')
  remove : ∀ h id o {s s'}, R s s' → Concur R (b.remove h id o s) (b'.remove h id o s')

def Passes {S α : Type} (forget : S → S) (act : S → α × S) : Prop :=
  ∀ s, act (forget s) = ((act s).1, forget (act s).2)

namespace Passes

variable {S α β : Type} {forget : S → S} {act : S → α × S}

theorem pure (a : α) : Passes forget fun s => (a, s) := fun _ => rfl

theorem bind {f : α → S → β × S} (h : Passes forget act) (hf : ∀ a, Passes forget (f a)) :
    Passes forget fun s => f (act s).1 (act s).2 := by
  intro s
  dsimp only
  rw [h s, hf]

theorem map (h : Passes forget act) (f : α → β) :
    Passes forget fun s => (f (act s).1, (act s).2) :=
  h.bind fun a => pure (f a)

theorem congr {act' : S → α × S} (h : Passes forget act) (heq : ∀ s, act' s = act s) :
    Passes forget act' := by
  rwa [funext heq]

/-- States that are the same but for what is forgotten get the same answer. -/
theorem concur (h : Passes forget act) {s s' : S} (hs : forget s = forget s') :
    Concur (fun s s' => forget s = forget s') (act s) (act s') := by
  have hboth : ((act s).1, forget (act s).2) = ((act s').1, forget (act s').2) := by
    rw [← h s, ← h s', hs]
  obtain ⟨hanswer, hstates⟩ := Prod.mk.inj hboth
  exact ⟨hanswer, hstates⟩

end Passes

namespace Env

variable {forget : σ → σ} {e e' : Env σ}

def forgetting (forget : σ → σ) (e : Env σ) : Env σ := { e with store := forget e.store }

theorem forgetting_eq_iff :
    e.forgetting forget = e'.forgetting forget ↔
      Matches (fun s s' => forget s = forget s') e e' := by
  unfold forgetting
  rw [mk.injEq]
  exact ⟨fun h => ⟨h.2, h.1⟩, fun h => ⟨h.store, h.log⟩⟩

/-- Acts on environments that come to the same when what they may differ in is forgotten. -/
theorem concur_of_forgetting {α : Type} {x x' : α × Env σ} {y y' : α × Env σ}
    (hx : y = (x.1, x.2.forgetting forget)) (hx' : y' = (x'.1, x'.2.forgetting forget))
    (h : y = y') : Concur (Matches fun s s' => forget s = forget s') x x' := by
  rw [hx, hx'] at h
  obtain ⟨hanswer, henv⟩ := Prod.mk.inj h
  exact ⟨hanswer, forgetting_eq_iff.mp henv⟩

end Env

theorem Passes.concur_env {α : Type} {forget : σ → σ} {act : Act (Env σ) α} {e e' : Env σ}
    (h : Passes (Env.forgetting forget) act)
    (he : Env.Matches (fun s s' => forget s = forget s') e e') :
    Concur (Env.Matches fun s s' => forget s = forget s') (act e) (act e') :=
  Env.concur_of_forgetting (h e) (h e') (by rw [Env.forgetting_eq_iff.mpr he])

namespace Memory

def redacted (m : Memory) : Memory :=
  { m with connections := m.connections.map fun c => { c with request := c.request.redacted } }

theorem passes_attempt (op : Operation) (id : String) : Passes redacted (attempt op id) := by
  intro m
  simp only [attempt_eq]
  rfl

theorem passes_call {α : Type} {op : Operation} {id : String} {c : MemoryCall}
    {react : Option FaultAction → Act Memory α} (h : ∀ action, Passes redacted (react action)) :
    Passes redacted (call op id c react) := by
  have hrecord : Passes redacted fun m : Memory => ((), m.record c) := fun _ => rfl
  refine (hrecord.bind fun _ => passes_attempt op id).bind fun verdict => ?_
  cases verdict with
  | error x => exact .pure _
  | ok action => exact h action

theorem passes_write {id : String} {present absent : Act Memory Unit}
    (hpresent : Passes redacted present) (habsent : Passes redacted absent)
    (action : Option FaultAction) : Passes redacted (write id present absent action) := by
  have hwrite : Passes redacted fun m : Memory =>
      if m.documents.contains id then present m else absent m := by
    intro m
    dsimp only [redacted]
    split
    · exact hpresent m
    · exact habsent m
  rcases action with _ | (_ | _ | _)
  · exact hwrite
  · exact hwrite
  · exact hwrite
  · exact .pure _

theorem passes_get (id : String) (t : Duration) : Passes redacted (get id t) := by
  rw [get_eq]
  refine passes_call fun action => ?_
  rcases action with _ | (_ | _ | _) <;> exact fun _ => rfl

theorem passes_insert (id : String) (c : Content) (o : WriteOptions) :
    Passes redacted (insert id c o) := by
  rw [insert_eq]
  exact passes_call (passes_write (.pure _) fun _ => rfl)

theorem passes_replace (id : String) (c : Content) (o : WriteOptions) :
    Passes redacted (replace id c o) := by
  rw [replace_eq]
  exact passes_call (passes_write (fun _ => rfl) (.pure _))

theorem passes_remove (id : String) (o : WriteOptions) : Passes redacted (remove id o) := by
  rw [remove_eq]
  exact passes_call (passes_write (fun _ => rfl) (.pure _))

/-- Closing a connection does not touch the request for it. -/
theorem closeAt_map (f : ConnectionRequest → ConnectionRequest) (connections : Array Connection)
    (h : Handle) :
    closeAt (connections.map fun c => { c with request := f c.request }) h =
      (closeAt connections h).map fun c => { c with request := f c.request } := by
  unfold closeAt
  apply Array.ext_getElem?
  intro i
  simp only [Array.getElem?_modify, Array.getElem?_map]
  split
  · cases connections[i]? <;> rfl
  · rfl

theorem passes_close (h : Handle) : Passes (Env.forgetting redacted) (close h) := by
  intro e
  simp only [close_eq, Env.forgetting, redacted, closeAt_map]

theorem connect_redacted (r : ConnectionRequest) (e : Env Memory) :
    connect r.redacted (e.forgetting redacted) =
      ((connect r e).1, (connect r e).2.forgetting redacted) := by
  cases hfault : e.store.connectFault with
  | some h => simp only [connect, Env.forgetting, redacted, hfault]
  | none => simp [connect, Env.forgetting, redacted, hfault]

/-- The in-memory store answers alike, whatever the passwords are that it was connected with. -/
theorem answersAlike :
    backend.AnswersAlike (fun m m' => m.redacted = m'.redacted) backend where
  connect {r r' e e'} hr he :=
    Env.concur_of_forgetting (connect_redacted r e) (connect_redacted r' e')
      (by rw [hr, Env.forgetting_eq_iff.mpr he])
  close h _ _ he := (passes_close h).concur_env he
  get _ id t _ _ := (passes_get id t).concur
  insert _ id c o _ _ := (passes_insert id c o).concur
  replace _ id c o _ _ := (passes_replace id c o).concur
  remove _ id o _ _ := (passes_remove id o).concur

end Memory

def ServiceCall.redacted : ServiceCall → ServiceCall
  | .cluster address who kvTimeout tokens =>
    .cluster address { who with password := "" } kvTimeout tokens
  | c => c

namespace Service

def redacted (s : Service) : Service := { s with calls := s.calls.map ServiceCall.redacted }

theorem redacted_record (s : Service) (c : ServiceCall) :
    (s.record c).redacted = s.redacted.record c.redacted := by
  simp only [record, redacted, Array.map_push]

theorem attempt_redacted (place : Place) (c : ServiceCall) (s : Service) :
    attempt place c.redacted s.redacted =
      ((attempt place c s).1, (attempt place c s).2.redacted) := by
  simp only [attempt_eq, redacted_record]
  rfl

theorem passes_attempt (place : Place) {c : ServiceCall} (h : c.redacted = c) :
    Passes redacted (attempt place c) := by
  intro s
  rw [← attempt_redacted, h]

theorem passes_close (h : Handle) : Passes redacted (close h) :=
  fun s => passes_attempt .close rfl { s with closes := s.closes.modify h (· + 1) }

theorem passes_request (op : Operation) (id : String) (o : RequestOptions) (c : Option Content) :
    Passes redacted (request op id o c) := by
  intro s
  have hcall : (ServiceCall.request op id o c).redacted = .request op id o c := rfl
  unfold request
  rw [passes_attempt _ hcall s]
  rcases attempt (.request op) (.request op id o c) s with ⟨h | _, s₁⟩
  · rfl
  · have hscript : s₁.redacted.script = s₁.script := rfl
    dsimp only
    rw [hscript]
    rcases s₁.script.consult op id with ⟨_ | (_ | _ | _), script⟩ <;> rfl

theorem passes_call {α : Type} {op : Operation} {id : String} {o : RequestOptions}
    {c : Option Content} {react : Option FaultAction → Act Service α}
    (h : ∀ action, Passes redacted (react action)) : Passes redacted (call op id o c react) := by
  intro s
  unfold call
  rw [passes_request op id o c s]
  rcases request op id o c s with ⟨x | action, s₁⟩
  · rfl
  · exact h action s₁

theorem passes_write {id : String} {present absent : Act Service Unit}
    (hpresent : Passes redacted present) (habsent : Passes redacted absent)
    (action : Option FaultAction) : Passes redacted (write id present absent action) := by
  have hwrite : Passes redacted fun s : Service =>
      if s.documents.contains id then present s else absent s := by
    intro s
    dsimp only [redacted]
    split
    · exact hpresent s
    · exact habsent s
  rcases action with _ | (_ | _ | _)
  · exact hwrite
  · exact hwrite
  · exact hwrite
  · exact .pure _

theorem passes_get (id : String) (o : RequestOptions) : Passes redacted (get id o) := by
  have hlookup : Passes redacted (lookup id) := by
    intro s
    dsimp only [lookup, redacted]
    cases s.documents.get? id <;> rfl
  rw [get_eq]
  refine passes_call fun action => ?_
  rcases action with _ | (_ | _ | _)
  · exact hlookup
  · exact hlookup
  · exact .pure _
  · exact hlookup

theorem passes_insert (id : String) (c : Content) (o : RequestOptions) :
    Passes redacted (insert id c o) := by
  rw [insert_eq]
  exact passes_call (passes_write (.pure _) fun _ => rfl)

theorem passes_replace (id : String) (c : Content) (o : RequestOptions) :
    Passes redacted (replace id c o) := by
  rw [replace_eq]
  exact passes_call (passes_write (fun _ => rfl) (.pure _))

theorem passes_remove (id : String) (o : RequestOptions) : Passes redacted (remove id o) := by
  rw [remove_eq]
  exact passes_call (passes_write (fun _ => rfl) (.pure _))

/-- Opening a cluster with another password is another call, and the rest is the same. -/
theorem openCluster_redacted (address : Value) (who : Credentials) (t : Duration) (tokens : Value)
    (s : Service) :
    openCluster address { who with password := "" } t tokens s.redacted =
      ((openCluster address who t tokens s).1,
        (openCluster address who t tokens s).2.redacted) := by
  unfold openCluster
  split
  · rfl
  · have hcall := attempt_redacted .cluster (.cluster address who t tokens) s
    dsimp only [ServiceCall.redacted] at hcall
    rw [hcall]
    rcases attempt .cluster (.cluster address who t tokens) s with ⟨h | _, s₁⟩ <;> rfl

end Service

namespace Cluster

open Service (redacted)

theorem passes_openCollection (bucket : Value) : Passes redacted (openCollection bucket) := by
  intro s
  unfold openCollection
  rw [Service.waitUntilReady, Service.passes_attempt .ready rfl s]
  rcases Service.attempt .ready _ s with ⟨h | _, s₁⟩
  · rfl
  · dsimp only
    rw [Service.openBucket, Service.passes_attempt .bucket rfl s₁]
    rcases Service.attempt .bucket _ s₁ with ⟨h | _, s₂⟩
    · rfl
    · exact Service.passes_attempt .collection rfl s₂

def Access.redacted (a : Access) : Access := { a with who := { a.who with password := "" } }

theorem access_redacted (r : ConnectionRequest) :
    access r.redacted = (access r).map Access.redacted := by
  have htimeout : r.redacted.kvTimeout = r.kvTimeout := rfl
  unfold access
  rw [htimeout]
  dsimp only [ConnectionRequest.redacted]
  cases credential "username" r.username with
  | error f => rfl
  | ok username =>
    cases r.password with
    | text s => cases r.kvTimeout <;> rfl
    | _ => rfl

theorem openWith_redacted (address : Value) (a : Access) (r : ConnectionRequest) (s : Service) :
    openWith address a.redacted r.redacted s.redacted =
      ((openWith address a r s).1, (openWith address a r s).2.redacted) := by
  unfold openWith
  have hopen := Service.openCluster_redacted address a.who a.kvTimeout r.enableMutationTokens s
  dsimp only [Access.redacted, ConnectionRequest.redacted]
  rw [hopen]
  rcases Service.openCluster address a.who a.kvTimeout r.enableMutationTokens s with
    ⟨h | cluster, s₁⟩
  · rfl
  · dsimp only
    rw [passes_openCollection r.bucket s₁]
    rcases openCollection r.bucket s₁ with ⟨(t | f) | _, s₂⟩
    · rfl
    · dsimp only
      rw [Service.passes_close cluster s₂]
      rcases Service.close cluster s₂ with ⟨h | _, s₃⟩ <;> rfl
    · rfl

theorem noteEndpoints_forgetting (r : ConnectionRequest) (e : Env Service) :
    noteEndpoints r.redacted (e.forgetting redacted) =
      (noteEndpoints r e).map (Env.forgetting redacted) := by
  have hendpoints : r.redacted.kvEndpoints = r.kvEndpoints := rfl
  simp only [noteEndpoints, hendpoints]
  by_cases hone : r.kvEndpoints.wholeNumber? = some 1
  · rw [if_pos hone, if_pos hone]
    rfl
  · rw [if_neg hone, if_neg hone]
    cases r.kvEndpoints.shown <;> rfl

theorem connect_redacted (r : ConnectionRequest) (e : Env Service) :
    connect r.redacted (e.forgetting redacted) =
      ((connect r e).1, (connect r e).2.forgetting redacted) := by
  have hhost : r.redacted.host = r.host := rfl
  unfold connect
  rw [access_redacted, hhost]
  cases access r with
  | error f => rfl
  | ok a =>
    dsimp only [Except.map]
    rw [noteEndpoints_forgetting]
    cases noteEndpoints r e with
    | error f => rfl
    | ok e₁ =>
      dsimp only [Except.map]
      cases addressOf r.host with
      | error f => rfl
      | ok address =>
        have hopen := openWith_redacted address a r e₁.store
        dsimp only [Env.forgetting]
        rw [hopen]
        rcases openWith address a r e₁.store with ⟨h | cluster, s⟩
        · rfl
        · have hplace : r.redacted.place = r.place := rfl
          dsimp only [noteOpened]
          rw [hplace]
          cases r.place <;> rfl

theorem passes_close (h : Handle) : Passes (Env.forgetting redacted) (close h) := by
  intro e
  have hclose := Service.passes_close h e.store
  simp only [close, Env.forgetting, hclose]

theorem passes_get (id : String) (t : Duration) : Passes redacted (get id t) :=
  ((Service.passes_get id (options t)).map absorb).congr fun s => get_eq id t s

theorem passes_write {put : RequestOptions → Act Service Unit}
    (hput : ∀ o, Passes redacted (put o)) (asked : Asked) (t : Duration) :
    Passes redacted (write asked t put) := by
  unfold write
  cases requirement? asked with
  | error f => exact .pure _
  | ok durability => exact hput _

/-- The cluster service answers alike, whatever the passwords are that clusters were opened with. -/
theorem answersAlike :
    backend.AnswersAlike (fun s s' => s.redacted = s'.redacted) backend where
  connect {r r' e e'} hr he :=
    Env.concur_of_forgetting (connect_redacted r e) (connect_redacted r' e')
      (by rw [hr, Env.forgetting_eq_iff.mpr he])
  close h _ _ he := (passes_close h).concur_env he
  get _ id t _ _ := (passes_get id t).concur
  insert _ id c o _ _ :=
    (passes_write (Service.passes_insert id c) (.policy o.durability) o.timeout).concur
  replace _ id c o _ _ :=
    (passes_write (Service.passes_replace id c) (.policy o.durability) o.timeout).concur
  remove _ id o _ _ :=
    (passes_write (Service.passes_remove id) (.policy o.durability) o.timeout).concur

end Cluster

end StoreBinding
