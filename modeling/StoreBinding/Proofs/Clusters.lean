import StoreBinding.Proofs.Deployment

/-!
The clusters that bindings open and close. A connection that cannot be opened to the end closes its
cluster itself, and every other cluster belongs to the manager until it is closed with the last
reference. Main statement: as long as only failures and no interrupts come in between, the one
cluster that has not been closed is that of the live connection, none is closed twice, and a failed
opening comes out of the start as the reason why the store could not be reached.
-/
namespace StoreBinding

namespace Service

def fate (s : Service) (place : Place) : Except Halt Unit :=
  match s.faults.get? place with
  | some h => .error h
  | none => .ok ()

theorem attempt_eq (place : Place) (c : ServiceCall) (s : Service) :
    attempt place c s = (s.fate place, s.record c) := by
  unfold attempt fate
  cases s.faults.get? place <;> rfl

theorem fate_eq_error_iff {s : Service} {place : Place} {h : Halt} :
    s.fate place = .error h ↔ s.faults.get? place = some h := by
  unfold fate
  split
  · next h' heq => simp [heq]
  · next heq => simp [heq]

theorem close_eq (h : Handle) (s : Service) :
    close h s = (s.fate .close,
      { s.record (.close h) with closes := s.closes.modify h (· + 1) }) := by
  unfold close
  rw [attempt_eq]
  rfl

structure SameClusters (s s' : Service) : Prop where
  closes : s'.closes = s.closes
  faults : s'.faults = s.faults

namespace SameClusters

theorem refl (s : Service) : SameClusters s s := ⟨rfl, rfl⟩

theorem trans {s s' s'' : Service} (h : SameClusters s s') (h' : SameClusters s' s'') :
    SameClusters s s'' :=
  ⟨h'.closes.trans h.closes, h'.faults.trans h.faults⟩

end SameClusters

def call {α : Type} (op : Operation) (id : String) (o : RequestOptions) (c : Option Content)
    (react : Option FaultAction → Act Service α) : Act Service α := fun s =>
  match request op id o c s with
  | (.error h, s) => (.error h, s)
  | (.ok action, s) => react action s

def write (id : String) (present absent : Act Service Unit) : Option FaultAction → Act Service Unit
  | some .skip => fun s => (.ok (), s)
  | _ => fun s => if s.documents.contains id then present s else absent s

def lookup (id : String) : Act Service Content := fun s =>
  match s.documents.get? id with
  | some c => (.ok c, s)
  | none => (.error notFound, s)

theorem get_eq (id : String) (o : RequestOptions) :
    get id o = call .get id o none fun
      | some .absent => fun s => (.error notFound, s)
      | _ => lookup id := by
  funext s
  unfold get call lookup
  rcases request .get id o none s with ⟨_ | action, s'⟩
  · rfl
  · rcases action with _ | (_ | _ | _) <;> rfl

theorem insert_eq (id : String) (c : Content) (o : RequestOptions) :
    insert id c o = call .insert id o (some c) (write id (fun s => (.error alreadyThere, s))
      fun s => (.ok (), { s with documents := s.documents.insert id c })) := by
  funext s
  unfold insert call
  rcases request .insert id o (some c) s with ⟨_ | action, s'⟩
  · rfl
  · rcases action with _ | (_ | _ | _) <;> rfl

theorem replace_eq (id : String) (c : Content) (o : RequestOptions) :
    replace id c o = call .replace id o (some c) (write id
      (fun s => (.ok (), { s with documents := s.documents.insert id c }))
      fun s => (.error notFound, s)) := by
  funext s
  unfold replace call
  rcases request .replace id o (some c) s with ⟨_ | action, s'⟩
  · rfl
  · rcases action with _ | (_ | _ | _) <;> rfl

theorem remove_eq (id : String) (o : RequestOptions) :
    remove id o = call .remove id o none (write id
      (fun s => (.ok (), { s with documents := s.documents.erase id }))
      fun s => (.error notFound, s)) := by
  funext s
  unfold remove call
  rcases request .remove id o none s with ⟨_ | action, s'⟩
  · rfl
  · rcases action with _ | (_ | _ | _) <;> rfl

theorem sameClusters_request (op : Operation) (id : String) (o : RequestOptions)
    (c : Option Content) (s : Service) : SameClusters s (request op id o c s).2 := by
  unfold request
  rw [attempt_eq]
  cases s.fate (.request op) with
  | error h => exact ⟨rfl, rfl⟩
  | ok _ =>
    dsimp only
    split <;> exact ⟨rfl, rfl⟩

theorem sameClusters_call {α : Type} {op : Operation} {id : String} {o : RequestOptions}
    {c : Option Content} {react : Option FaultAction → Act Service α}
    (hreact : ∀ action s, SameClusters s (react action s).2) (s : Service) :
    SameClusters s (call op id o c react s).2 := by
  have hrequest := sameClusters_request op id o c s
  unfold call
  split
  · next heq =>
    rw [heq] at hrequest
    exact hrequest
  · next action s' heq =>
    rw [heq] at hrequest
    exact hrequest.trans (hreact action s')

theorem sameClusters_write {id : String} {present absent : Act Service Unit}
    (hpresent : ∀ s, SameClusters s (present s).2) (habsent : ∀ s, SameClusters s (absent s).2)
    (action : Option FaultAction) (s : Service) :
    SameClusters s (write id present absent action s).2 := by
  have hlookup : SameClusters s
      (if s.documents.contains id then present s else absent s).2 := by
    split
    · exact hpresent s
    · exact habsent s
  rcases action with _ | (_ | _ | _)
  · exact hlookup
  · exact hlookup
  · exact hlookup
  · exact .refl s

end Service

namespace Cluster

open Service (SameClusters)

theorem sameClusters_get (id : String) (t : Duration) (s : Service) :
    SameClusters s (get id t s).2 := by
  have hget : SameClusters s (Service.get id (options t) s).2 := by
    rw [Service.get_eq]
    refine Service.sameClusters_call (fun action s => ?_) s
    have hlookup : SameClusters s (Service.lookup id s).2 := by
      unfold Service.lookup
      split <;> exact .refl s
    rcases action with _ | (_ | _ | _)
    · exact hlookup
    · exact hlookup
    · exact .refl s
    · exact hlookup
  unfold get
  split
  · next heq =>
    rw [heq] at hget
    exact hget
  · next heq =>
    rw [heq] at hget
    split <;> exact hget
  · next heq =>
    rw [heq] at hget
    exact hget

/-- Requests for documents neither open nor close anything. -/
theorem preserves_sameClusters (s₀ : Service) : backend.Preserves (SameClusters s₀) where
  get _ id t s h := h.trans (sameClusters_get id t s)
  insert _ id c o s h := by
    have hinsert : SameClusters s
        (Service.insert id c (options o.timeout o.durability.requirement?) s).2 := by
      rw [Service.insert_eq]
      exact Service.sameClusters_call (Service.sameClusters_write .refl fun _ => ⟨rfl, rfl⟩) s
    exact h.trans hinsert
  replace _ id c o s h := by
    have hreplace : SameClusters s
        (Service.replace id c (options o.timeout o.durability.requirement?) s).2 := by
      rw [Service.replace_eq]
      exact Service.sameClusters_call (Service.sameClusters_write (fun _ => ⟨rfl, rfl⟩) .refl) s
    exact h.trans hreplace
  remove _ id o s h := by
    have hremove : SameClusters s
        (Service.remove id (options o.timeout o.durability.requirement?) s).2 := by
      rw [Service.remove_eq]
      exact Service.sameClusters_call (Service.sameClusters_write (fun _ => ⟨rfl, rfl⟩) .refl) s
    exact h.trans hremove

def IsOpening (place : Place) : Prop := place = .ready ∨ place = .bucket ∨ place = .collection

/-- Looking for the collection only makes calls, and fails for what stands at one of its places. -/
theorem openCollection_cases (bucket : Value) (s : Service) :
    ∃ calls, (openCollection bucket s).2 = { s with calls } ∧
      ∀ h, (openCollection bucket s).1 = .error h →
        ∃ place, IsOpening place ∧ s.faults.get? place = some h := by
  unfold openCollection Service.waitUntilReady Service.openBucket Service.defaultCollection
  simp only [Service.attempt_eq]
  cases hready : s.fate .ready with
  | error h =>
    refine ⟨_, rfl, fun h' heq => ⟨.ready, Or.inl rfl, ?_⟩⟩
    cases heq
    exact Service.fate_eq_error_iff.mp hready
  | ok _ =>
    have hsame : (s.record (.ready readyTimeout)).fate .bucket = s.fate .bucket := rfl
    dsimp only
    rw [hsame]
    cases hbucket : s.fate .bucket with
    | error h =>
      refine ⟨_, rfl, fun h' heq => ⟨.bucket, Or.inr (Or.inl rfl), ?_⟩⟩
      cases heq
      exact Service.fate_eq_error_iff.mp hbucket
    | ok _ =>
      refine ⟨_, rfl, fun h' heq => ⟨.collection, Or.inr (Or.inr rfl), ?_⟩⟩
      exact Service.fate_eq_error_iff.mp heq

/-- What can come of opening a cluster and its collection. A cluster that is of no use is closed
unless an interrupt came in between, and a close that fails has its own error come out. -/
inductive Opened (s : Service) : Except Halt Handle × Service → Prop
  | refused {h : Halt} {calls : Array ServiceCall} (fault : s.faults.get? .cluster = some h) :
      Opened s (.error h, { s with calls })
  | interrupted {place : Place} {t : String} {calls : Array ServiceCall} (opening : IsOpening place)
      (fault : s.faults.get? place = some (.interrupt t)) :
      Opened s (.error (.interrupt t), { s with calls, closes := s.closes.push 0 })
  | closed {place : Place} {f : Failure} {h : Halt} {calls : Array ServiceCall}
      (opening : IsOpening place) (fault : s.faults.get? place = some (.failure f))
      (cause : h = .failure f ∨ s.faults.get? .close = some h) :
      Opened s (.error h, { s with calls, closes := s.closes.push 1 })
  | opened {calls : Array ServiceCall} :
      Opened s (.ok s.closes.size, { s with calls, closes := s.closes.push 0 })

theorem modify_push (closes : Array Nat) :
    (closes.push 0).modify closes.size (· + 1) = closes.push 1 := by
  apply Array.ext_getElem?
  intro i
  rw [Array.getElem?_modify, Array.getElem?_push, Array.getElem?_push]
  by_cases hi : i = closes.size
  · simp [hi]
  · have hne : ¬ closes.size = i := fun heq => hi heq.symm
    rw [if_neg hne, if_neg hi, if_neg hi]

theorem opened_openWith (address : Value) (a : Access) (p : Params) (s : Service) :
    Opened s (openWith address a p.request s) := by
  have hcluster : Service.openCluster address a.who a.kvTimeout p.request.enableMutationTokens s =
      match s.fate .cluster with
      | .error h => (.error h, s.record (.cluster address a.who a.kvTimeout
          (.bool p.enableMutationTokens)))
      | .ok _ => (.ok s.closes.size, { s with
          calls := (s.record (.cluster address a.who a.kvTimeout
            (.bool p.enableMutationTokens))).calls, closes := s.closes.push 0 }) := by
    unfold Service.openCluster
    dsimp only [Params.request]
    rw [Service.attempt_eq]
    cases s.fate .cluster <;> rfl
  unfold openWith
  rw [hcluster]
  cases hfate : s.fate .cluster with
  | error h => exact .refused (Service.fate_eq_error_iff.mp hfate)
  | ok _ =>
    dsimp only
    generalize hs₁ : ({ s with calls := _, closes := _ } : Service) = s₁
    obtain ⟨calls, hstore, herror⟩ := openCollection_cases p.request.bucket s₁
    rcases hcollection : openCollection p.request.bucket s₁ with ⟨(t | f) | _, s₂⟩
    · rw [hcollection] at hstore herror
      obtain ⟨place, hplace, hfault⟩ := herror _ rfl
      subst hs₁
      cases hstore
      exact .interrupted hplace hfault
    · rw [hcollection] at hstore herror
      obtain ⟨place, hplace, hfault⟩ := herror _ rfl
      subst hs₁
      cases hstore
      dsimp only
      rw [Service.close_eq]
      dsimp only [Service.record]
      rw [modify_push]
      cases hclose : Service.fate { s with calls, closes := s.closes.push 0 } .close with
      | error h => exact .closed hplace hfault (Or.inr (Service.fate_eq_error_iff.mp hclose))
      | ok _ => exact .closed hplace hfault (Or.inl rfl)
    · rw [hcollection] at hstore
      subst hs₁
      cases hstore
      exact .opened

theorem close_eq (cluster : Handle) (e : Env Service) :
    close cluster e = (e.store.fate .close, { e with
      store := { e.store.record (.close cluster) with
        closes := e.store.closes.modify cluster (· + 1) } }) := by
  unfold close
  rw [Service.close_eq]

def Openable (p : Params) : Prop :=
  (∃ t, p.kvTimeout = .ok t) ∧ ∃ shown, Value.numeral p.kvEndpoints = .ok shown

inductive Connected (p : Params) (s : Service) : Except Halt Handle × Service → Prop
  | unready {f : Failure} (reason : ¬ Openable p) : Connected p s (.error (.failure f), s)
  | tried {outcome : Except Halt Handle × Service} (h : Opened s outcome) : Connected p s outcome

/-- The number of endpoints is mentioned with a note or spoils the opening. -/
theorem noteEndpoints_error {p : Params} {e : Env Service} {f : Failure}
    (h : noteEndpoints p.request e = .error f) : ¬ Openable p := by
  rintro ⟨-, shown, hshown⟩
  have hnumber : p.request.kvEndpoints.shown = .ok shown := hshown
  unfold noteEndpoints at h
  rw [hnumber] at h
  split at h <;> cases h

theorem access_error {p : Params} {f : Failure} (h : access p.request = .error f) :
    ¬ Openable p := by
  rintro ⟨⟨t, ht⟩, -⟩
  rw [access_request ht] at h
  cases h

theorem connected (p : Params) (e : Env Service) :
    Connected p e.store ((connect p.request e).1, (connect p.request e).2.store) := by
  unfold connect
  cases haccess : access p.request with
  | error f => exact .unready (access_error haccess)
  | ok a =>
    dsimp only
    cases hnote : noteEndpoints p.request e with
    | error f => exact .unready (noteEndpoints_error hnote)
    | ok e₁ =>
      have haddress : addressOf p.request.host = .ok (.text (address p.host)) := rfl
      have hopened := opened_openWith (.text (address p.host)) a p e₁.store
      rw [haddress]
      dsimp only
      rw [store_noteEndpoints hnote] at hopened ⊢
      rcases hopen : openWith (.text (address p.host)) a p.request e.store with ⟨h | cluster, s⟩
      · rw [hopen] at hopened
        exact .tried hopened
      · rw [hopen] at hopened
        exact .tried hopened

/-- Whether connecting succeeds, and with what error it fails, does not depend on the log. -/
theorem connect_congr {e e' : Env Service} (h : e.store = e'.store) (p : Params) :
    (connect p.request e).1 = (connect p.request e').1 := by
  have hnote : (∃ f, noteEndpoints p.request e = .error f ∧
        noteEndpoints p.request e' = .error f) ∨
      ∃ e₁ e₁', noteEndpoints p.request e = .ok e₁ ∧ noteEndpoints p.request e' = .ok e₁' := by
    unfold noteEndpoints
    split
    · exact Or.inr ⟨e, e', rfl, rfl⟩
    · cases p.request.kvEndpoints.shown with
      | error u => exact Or.inl ⟨_, rfl, rfl⟩
      | ok n => exact Or.inr ⟨_, _, rfl, rfl⟩
  unfold connect
  cases access p.request with
  | error f => rfl
  | ok a =>
    dsimp only
    rcases hnote with ⟨f, hf, hf'⟩ | ⟨e₁, e₁', he, he'⟩
    · rw [hf, hf']
    · have haddress : addressOf p.request.host = .ok (.text (address p.host)) := rfl
      rw [he, he', haddress]
      dsimp only
      rw [store_noteEndpoints he, store_noteEndpoints he', h]
      rcases openWith (.text (address p.host)) a p.request e'.store with ⟨x | cluster, s⟩ <;> rfl

end Cluster

/-- Opening and closing can fail, but no interrupt comes in between. -/
def Service.Uninterrupted (s : Service) : Prop :=
  ∀ place h, (∀ op, place ≠ .request op) → s.faults.get? place = some h → ∃ f, h = .failure f

namespace Cluster

theorem IsOpening.ne_request {place : Place} (h : IsOpening place) (op : Operation) :
    place ≠ .request op := by
  rcases h with rfl | rfl | rfl <;> exact nofun

/-- Without interrupts connecting fails with a failure, and no cluster of its own is left open. -/
theorem connected_error {p : Params} {s s' : Service} {x : Halt} (hs : s.Uninterrupted)
    (h : Connected p s (.error x, s')) :
    (∃ f, x = .failure f) ∧ s'.faults = s.faults ∧
      (s'.closes = s.closes ∨ s'.closes = s.closes.push 1) := by
  cases h with
  | unready reason => exact ⟨⟨_, rfl⟩, rfl, Or.inl rfl⟩
  | tried h =>
    cases h with
    | refused fault => exact ⟨hs .cluster x nofun fault, rfl, Or.inl rfl⟩
    | interrupted opening fault =>
      obtain ⟨f, hf⟩ := hs _ _ opening.ne_request fault
      cases hf
    | closed opening fault cause =>
      refine ⟨?_, rfl, Or.inr rfl⟩
      rcases cause with rfl | hclose
      · exact ⟨_, rfl⟩
      · exact hs .close x nofun hclose

theorem connected_ok {p : Params} {s s' : Service} {cluster : Handle}
    (h : Connected p s (.ok cluster, s')) :
    cluster = s.closes.size ∧ s'.faults = s.faults ∧ s'.closes = s.closes.push 0 := by
  cases h with
  | tried h =>
    cases h with
    | opened => exact ⟨rfl, rfl, rfl⟩

end Cluster

/-- A manager owns the clusters that are open: that of its connection has not been closed, and
every other one has been closed once. -/
structure Manager.Owns (m : Manager) (s : Service) : Prop where
  atMostOnce : ∀ (h : Handle) (n : Nat), s.closes[h]? = some n → n ≤ 1
  unclosed : ∀ h : Handle, s.closes[h]? = some 0 ↔ m.live = some h

namespace Manager.Owns

variable {m : Manager} {s s' : Service} {e : Env Service}

theorem nothing (fresh : s.closes = #[]) : Manager.Owns {} s := by
  have hnone (h : Handle) : s.closes[h]? = none := by rw [fresh, Array.getElem?_empty]
  refine ⟨fun h n hn => ?_, fun h => ?_⟩
  · rw [hnone] at hn
    cases hn
  · rw [hnone]
    exact ⟨nofun, nofun⟩

/-- Only the connection and the closes count. -/
theorem congr {m' : Manager} (h : m.Owns s) (hlive : m'.live = m.live)
    (hcloses : s'.closes = s.closes) : m'.Owns s' := by
  refine ⟨?_, ?_⟩
  · rw [hcloses]
    exact h.atMostOnce
  · rw [hcloses, hlive]
    exact h.unclosed

/-- A cluster that was opened in vain has been closed. -/
theorem failed (h : m.Owns s) (idle : m.live = none) (hcloses : s'.closes = s.closes.push 1) :
    m.Owns s' := by
  refine ⟨fun i n hn => ?_, fun i => ?_⟩
  · rw [hcloses, Array.getElem?_push] at hn
    split at hn
    · cases hn
      exact Nat.le_refl 1
    · exact h.atMostOnce i n hn
  · rw [hcloses, Array.getElem?_push, idle]
    have hnone := h.unclosed i
    rw [idle] at hnone
    split
    · exact ⟨nofun, nofun⟩
    · exact hnone

theorem opened (h : m.Owns s) (idle : m.live = none) (hcloses : s'.closes = s.closes.push 0)
    (refs : Nat) : Manager.Owns { live := some s.closes.size, refs } s' := by
  refine ⟨fun i n hn => ?_, fun i => ?_⟩
  · rw [hcloses, Array.getElem?_push] at hn
    split at hn
    · cases hn
      exact Nat.zero_le 1
    · exact h.atMostOnce i n hn
  · have hnone := h.unclosed i
    rw [idle] at hnone
    rw [hcloses, Array.getElem?_push]
    by_cases hi : i = s.closes.size
    · rw [if_pos hi, hi]
      exact ⟨fun _ => rfl, fun _ => rfl⟩
    · rw [if_neg hi, hnone]
      exact ⟨nofun, fun heq => absurd (Option.some.inj heq).symm hi⟩

theorem closed {handle : Handle} (h : m.Owns s) (live : m.live = some handle)
    (hcloses : s'.closes = s.closes.modify handle (· + 1)) : Manager.Owns {} s' := by
  have hat : s.closes[handle]? = some 0 := (h.unclosed handle).mpr live
  refine ⟨fun i n hn => ?_, fun i => ?_⟩
  · rw [hcloses, Array.getElem?_modify] at hn
    split at hn
    · next heq =>
      rw [← heq, hat] at hn
      cases hn
      exact Nat.le_refl 1
    · exact h.atMostOnce i n hn
  · rw [hcloses, Array.getElem?_modify]
    split
    · next heq =>
      rw [← heq, hat]
      exact ⟨nofun, nofun⟩
    · next hne =>
      rw [h.unclosed i, live]
      exact ⟨fun heq => absurd (Option.some.inj heq) hne, nofun⟩

theorem acquire (h : m.Owns e.store) (hs : e.store.Uninterrupted) (p : Params) :
    (m.acquire Cluster.backend p.request e).2.1.Owns
        (m.acquire Cluster.backend p.request e).2.2.store ∧
      (m.acquire Cluster.backend p.request e).2.2.store.faults = e.store.faults := by
  unfold Manager.acquire
  cases live : m.live with
  | some handle => exact ⟨h.congr live.symm rfl, rfl⟩
  | none =>
    dsimp only
    rw [ConnectionRequest.place_request]
    dsimp only
    generalize hnote : e.note .info logger s!"Connecting to {p.host} (bucket {p.bucket})" = e₁
    have hstore : e₁.store = e.store := by rw [← hnote]; rfl
    have hconnected := Cluster.connected p e₁
    rw [hstore] at hconnected
    rcases hconnect : Cluster.connect p.request e₁ with ⟨x | cluster, e₂⟩
    · rw [hconnect] at hconnected
      obtain ⟨-, hfaults, hcloses⟩ := Cluster.connected_error hs hconnected
      have howns : m.Owns e₂.store := by
        rcases hcloses with hsame | hpush
        · exact h.congr rfl hsame
        · exact h.failed live hpush
      simp only [Cluster.backend, hconnect]
      cases x <;> exact ⟨howns, hfaults⟩
    · rw [hconnect] at hconnected
      obtain ⟨rfl, hfaults, hcloses⟩ := Cluster.connected_ok hconnected
      simp only [Cluster.backend, hconnect]
      exact ⟨h.opened live hcloses _, hfaults⟩

theorem release (h : m.Owns e.store) :
    (m.release Cluster.backend e).2.1.Owns (m.release Cluster.backend e).2.2.store ∧
      (m.release Cluster.backend e).2.2.store.faults = e.store.faults := by
  unfold Manager.release
  cases live : m.live with
  | none => exact ⟨h, rfl⟩
  | some handle =>
    dsimp only
    split
    · exact ⟨h.congr live.symm rfl, rfl⟩
    · have hclose : Cluster.backend.close handle e = _ := Cluster.close_eq handle e
      rw [hclose]
      cases e.store.fate .close with
      | ok _ => exact ⟨h.closed live rfl, rfl⟩
      | error x => cases x <;> exact ⟨h.closed live rfl, rfl⟩

end Manager.Owns

namespace World

structure Tidy (g : String) (w : World Service) : Prop where
  manager : ∀ id m, w.members.get? id = some m → m.manager = g
  owns : (w.managers.ask g).Owns w.env.store
  uninterrupted : w.env.store.Uninterrupted

namespace Tidy

variable {g : String} {w : World Service}

theorem create (h : Tidy g w) (id : String) (properties : RawProperties) :
    Tidy g (w.step Cluster.backend (.create id g properties)).2 := by
  refine ⟨fun id' m hm => ?_, ?_, h.uninterrupted⟩
  · rcases OrderedMap.of_get?_insert hm with ⟨-, rfl⟩ | hbefore
    · rfl
    · exact h.manager id' m hbefore
  · show ((w.managers.touch g).ask g).Owns w.env.store
    rw [Registry.ask_touch]
    exact h.owns

/-- A change of one binding's life, given what it makes of the manager and the service. -/
theorem renew (h : Tidy g w) {id : String} {m : Member} (hm : w.members.get? id = some m)
    {change : Client → Manager → Env Service → Except Halt Unit × Client × Manager × Env Service}
    (howns : (change m.client (w.managers.ask g) w.env).2.2.1.Owns
      (change m.client (w.managers.ask g) w.env).2.2.2.store)
    (hfaults : (change m.client (w.managers.ask g) w.env).2.2.2.store.faults =
      w.env.store.faults) :
    Tidy g (w.renew id m change).2 := by
  have hmanager : m.manager = g := h.manager id m hm
  unfold World.renew
  rw [hmanager]
  refine ⟨fun id' m' hm' => ?_, ?_, ?_⟩
  · rcases OrderedMap.of_get?_insert hm' with ⟨-, rfl⟩ | hbefore
    · rfl
    · exact h.manager id' m' hbefore
  · show (Registry.ask (w.managers.insert g _) g).Owns _
    rw [Registry.ask_insert, if_pos rfl]
    exact howns
  · intro place x hplace hfault
    have hbefore : w.env.store.faults.get? place = some x := by
      rw [← hfaults]
      exact hfault
    exact h.uninterrupted place x hplace hbefore

theorem start (h : Tidy g w) (id : String) : Tidy g (w.step Cluster.backend (.start id)).2 := by
  cases hm : w.members.get? id with
  | none =>
    rw [step_absent rfl (fun _ _ heq => by cases heq) hm]
    exact h
  | some m =>
    rw [step_start hm]
    rcases m.client.start_acquires (b := Cluster.backend) (w.managers.ask g) w.env with
      ⟨hsame, hstore⟩ | ⟨r, e₁, hstore, hacquired⟩
    · apply h.renew hm
      · rw [hsame, hstore]
        exact h.owns
      · rw [hstore]
    · have howns := h.owns
      have hquiet := h.uninterrupted
      rw [← hstore] at howns hquiet
      obtain ⟨howns', hfaults⟩ := howns.acquire hquiet r.config.connection
      apply h.renew hm
      · rw [hacquired]
        exact howns'
      · rw [hacquired, hfaults, hstore]

theorem stop (h : Tidy g w) (id : String) : Tidy g (w.step Cluster.backend (.stop id)).2 := by
  cases hm : w.members.get? id with
  | none =>
    rw [step_absent rfl (fun _ _ heq => by cases heq) hm]
    exact h
  | some m =>
    rw [step_stop hm]
    cases holds : m.client.holds with
    | false =>
      have hstop := Client.stop_of_free (b := Cluster.backend) holds (w.managers.ask g) w.env
      apply h.renew hm
      · rw [hstop]
        exact h.owns
      · rw [hstop]
    | true =>
      have hstop := Client.stop_of_holds (b := Cluster.backend) holds (w.managers.ask g) w.env
      obtain ⟨howns, hfaults⟩ := h.owns.release
      apply h.renew hm
      · rw [hstop]
        exact howns
      · rw [hstop]
        exact hfaults

theorem disturb (h : Tidy g w) {env : Env Service} (hcloses : env.store.closes = w.env.store.closes)
    (hquiet : env.store.Uninterrupted) : Tidy g { w with env } :=
  ⟨h.manager, h.owns.congr rfl hcloses, hquiet⟩

theorem call (h : Tidy g w) (id : String) (call : Call) :
    Tidy g (w.step Cluster.backend (call.step id)).2 := by
  cases hm : w.members.get? id with
  | none =>
    rw [step_absent (by cases call <;> rfl) (fun _ _ heq => by cases call <;> cases heq) hm]
    exact h
  | some m =>
    have hsame := call.run_preserves (Cluster.preserves_sameClusters w.env.store) m.client
      (w.managers.ask m.manager) (.refl w.env.store)
    rw [step_call hm]
    refine h.disturb hsame.closes fun place x hplace hfault => ?_
    rw [hsame.faults] at hfault
    exact h.uninterrupted place x hplace hfault

theorem step (h : Tidy g w) {s : Step} (hs : s.binding?.isSome)
    (hg : ∀ id manager properties, s = .create id manager properties → manager = g) :
    Tidy g (w.step Cluster.backend s).2 := by
  cases s with
  | create id manager properties =>
    rw [hg id manager properties rfl]
    exact h.create id properties
  | start id => exact h.start id
  | stop id => exact h.stop id
  | read id table key names => exact h.call id (.read table key names)
  | insert id table key values => exact h.call id (.insert table key values)
  | update id table key values => exact h.call id (.update table key values)
  | delete id table key => exact h.call id (.delete table key)
  | scan id =>
    simp only [World.step]
    split <;> exact h
  | acquire | release | connection => cases hs

end Tidy

/-- The runs of bindings that share one manager, from a service without clusters. In between, the
faults that stand may change and anything else may happen to the service, but nothing interrupts
opening and closing and nobody else opens or closes clusters. -/
inductive Shared (g : String) : World Service → Prop
  | init (env : Env Service) (fresh : env.store.closes = #[])
      (quiet : env.store.Uninterrupted) : Shared g { env }
  | step {w : World Service} (hw : Shared g w) (s : Step) (hs : s.binding?.isSome)
      (hg : ∀ id manager properties, s = .create id manager properties → manager = g) :
      Shared g (w.step Cluster.backend s).2
  | disturb {w : World Service} (hw : Shared g w) (env : Env Service)
      (closes : env.store.closes = w.env.store.closes) (quiet : env.store.Uninterrupted) :
      Shared g { w with env }

theorem Shared.tidy {g : String} {w : World Service} (hw : Shared g w) : Tidy g w := by
  induction hw with
  | init env fresh quiet =>
    refine ⟨fun id m hm => ?_, .nothing fresh, quiet⟩
    cases hm
  | step hw s hs hg ih => exact ih.step hs hg
  | disturb hw env closes quiet ih => exact ih.disturb closes quiet

end World

section Unreachable

variable {σ : Type} {b : Backend σ} {m : Manager}

/-- A manager that cannot connect tells the reason and takes no reference. -/
theorem Manager.acquire_unreachable (idle : m.live = none) {p : Params} {e : Env σ} {f : Failure}
    (h : (b.connect p.request
      (e.note .info Manager.logger s!"Connecting to {p.host} (bucket {p.bucket})")).1 =
        .error (.failure f)) :
    (m.acquire b p.request e).1 = .error (.failure (.unreachable p.host f)) ∧
      (m.acquire b p.request e).2.1 = m := by
  unfold Manager.acquire
  rw [idle, ConnectionRequest.place_request]
  dsimp only
  rcases hconnect : b.connect p.request
      (e.note .info Manager.logger s!"Connecting to {p.host} (bucket {p.bucket})") with ⟨x, e'⟩
  rw [hconnect] at h
  cases h
  exact ⟨rfl, rfl⟩

/-- What keeps a binding from its reference comes out of the start. -/
theorem Client.start_of_unreachable {c c₁ : Client} {e e₁ : Env σ} {r : Resolved} {x : Halt}
    (hprepare : c.prepare e = (.ok r, c₁, e₁)) (free : c.holds = false)
    (hx : (m.acquire b r.config.connection.request e₁).1 = .error x) :
    (c.start b m e).1 = .error x ∧
      (c.start b m e).2.2.1 = (m.acquire b r.config.connection.request e₁).2.1 := by
  obtain ⟨rfl, -⟩ := Client.prepare_ok hprepare
  unfold Client.start
  rw [hprepare]
  simp only [free, Bool.false_eq_true, if_false]
  rcases hacquire : m.acquire b r.config.connection.request e₁ with ⟨result, m', e'⟩
  rw [hacquire] at hx
  cases hx
  exact ⟨rfl, rfl⟩

end Unreachable

namespace World

structure Connects (g : String) (w : World Service) (id : String) (r : Resolved) : Prop where
  idle : (w.managers.ask g).live = none
  binding : ∃ m, w.members.get? id = some m ∧ m.client.holds = false ∧
    (m.client.prepare w.env).1 = .ok r

/-- However often bindings of one manager connect, and whatever fails on the way, no cluster is
closed twice, and the ones that have not been closed are the one of the live connection, or none
if there is no connection. A start that cannot connect ends with the reason that the store is
unreachable and the error behind it; it takes no reference, and there is still no connection. -/
theorem no_cluster_leaks {g : String} {w : World Service} (hw : Shared g w) :
    (∀ (h : Handle) (n : Nat), w.env.store.closes[h]? = some n → n ≤ 1) ∧
    (∀ h : Handle, w.env.store.closes[h]? = some 0 ↔ (w.managers.ask g).live = some h) ∧
    ∀ id r, Connects g w id r → ∀ e x, e.store = w.env.store →
      (Cluster.connect r.config.connection.request e).1 = .error x →
      ∃ f, x = .failure f ∧
        (w.step Cluster.backend (.start id)).1 =
          .error (.failure (.unreachable r.config.connection.host f)) ∧
        ((w.step Cluster.backend (.start id)).2.managers.ask g).refs = (w.managers.ask g).refs ∧
        ((w.step Cluster.backend (.start id)).2.managers.ask g).isConnected = false := by
  have htidy := hw.tidy
  refine ⟨htidy.owns.atMostOnce, htidy.owns.unclosed, ?_⟩
  rintro id r ⟨idle, m, hm, free, hprepared⟩ e x hstore hx
  rcases hprepare : m.client.prepare w.env with ⟨result, c₁, e₁⟩
  rw [hprepare] at hprepared
  cases hprepared
  obtain ⟨-, hsame⟩ := Client.prepare_ok hprepare
  -- connecting comes out as it does where the manager makes it, for the log plays no part in it
  let noted := e₁.note .info Manager.logger
    s!"Connecting to {r.config.connection.host} (bucket {r.config.connection.bucket})"
  have hnoted : noted.store = w.env.store := hsame
  rw [Cluster.connect_congr (hstore.trans hnoted.symm)] at hx
  have hconnected := Cluster.connected r.config.connection noted
  rw [hx, hnoted] at hconnected
  obtain ⟨⟨f, rfl⟩, -⟩ := Cluster.connected_error htidy.uninterrupted hconnected
  obtain ⟨hacquire, hkept⟩ := Manager.acquire_unreachable (b := Cluster.backend) idle hx
  obtain ⟨hreply, hmanager⟩ := Client.start_of_unreachable hprepare free hacquire
  have hname : m.manager = g := htidy.manager id m hm
  have hask : (w.step Cluster.backend (.start id)).2.managers.ask g = w.managers.ask g := by
    rw [step_start hm, World.renew, hname]
    refine (Registry.ask_insert ..).trans ?_
    rw [if_pos rfl, hmanager, hkept]
  refine ⟨f, rfl, ?_, by rw [hask], by rw [hask, Manager.isConnected, idle]; rfl⟩
  rw [step_start hm, World.renew, hname]
  show Except.map _ (m.client.start Cluster.backend (w.managers.ask g) w.env).1 = _
  rw [hreply]
  rfl

def withFailures (failures : List (Place × Failure)) (w : World Service) : World Service :=
  { w with env := { w.env with store := { w.env.store with
      faults := OrderedMap.ofList (failures.map fun p => (p.1, .failure p.2)) } } }

theorem Shared.withFailures {g : String} {w : World Service} (hw : Shared g w)
    (failures : List (Place × Failure)) : Shared g (w.withFailures failures) := by
  refine hw.disturb _ rfl fun place h _ hfault => ?_
  have hmem : ∀ l : List (Place × Failure),
      (OrderedMap.ofList (l.map fun p => (p.1, Halt.failure p.2))).get? place = some h →
        ∃ f, h = .failure f := by
    intro l
    induction l using List.reverseRecOn with
    | nil => exact nofun
    | append_singleton l p ih =>
      intro hget
      rw [List.map_append, List.map_singleton, OrderedMap.ofList_concat,
        OrderedMap.get?_insert] at hget
      split at hget
      · cases hget
        exact ⟨p.2, rfl⟩
      · exact ih hget
  exact hmem failures hfault

/-- One binding opens a cluster in vain, then connects, and stops with a close that fails. The
cluster that it would open next is of no use, and cannot be closed without a failure either. -/
def troubled : World Service :=
  let step (s : Step) (w : World Service) := (w.step Cluster.backend s).2
  step (.stop "a") <| withFailures [(.ready, .notConnected), (.close, .fieldTooLong)] <|
    step (.start "a") <| withFailures [] <|
    step (.start "a") <| withFailures [(.bucket, .notConnected)] <|
    step (.create "a" "m" ∅) { env := { store := {} } }

theorem shared_troubled : Shared "m" troubled := by
  have hcreated := (Shared.init { store := {} } rfl nofun).step (.create "a" "m" ∅) rfl
    fun id manager properties heq => by cases heq; rfl
  have hvain := (hcreated.withFailures [(.bucket, .notConnected)]).step (.start "a") rfl nofun
  have hconnected := (hvain.withFailures []).step (.start "a") rfl nofun
  exact (hconnected.withFailures [(.ready, .notConnected), (.close, .fieldTooLong)]).step
    (.stop "a") rfl nofun

theorem no_cluster_leaks_troubled :
    Shared "m" troubled ∧ troubled.env.store.closes = #[1, 1] ∧
      (troubled.managers.ask "m").live = none ∧
      ∃ host, (troubled.step Cluster.backend (.start "a")).1 =
        .error (.failure (.unreachable host .fieldTooLong)) := by
  obtain ⟨-, -, hunreachable⟩ := no_cluster_leaks shared_troubled
  have hconnects : Connects "m" troubled "a" _ := ⟨rfl, _, rfl, rfl, rfl⟩
  obtain ⟨f, hf, hreply, -⟩ := hunreachable "a" _ hconnects troubled.env
    (.failure .fieldTooLong) rfl rfl
  cases hf
  exact ⟨shared_troubled, rfl, rfl, _, hreply⟩

end World

end StoreBinding
