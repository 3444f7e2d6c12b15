import StoreBinding.Proofs.Discretion
import StoreBinding.Proofs.Usage

/-!
Two runs of the same steps with different passwords, over backends that answer alike. Main
statement: the runs cannot be told apart by replies, log, managers, or calls of the store, and what
differs in the end are the passwords of the bindings and of the requests for connections.
-/
namespace StoreBinding

variable {σ τ : Type} {R : σ → τ → Prop}

/-- What a call asks for depends on a binding through its options only. -/
theorem Call.issued?_eq (call : Call) (c : Client) (m : Manager) :
    call.issued? c m = m.live.bind fun _ =>
      (c.resolved.map Resolved.options).bind fun o => call.request? o := by
  unfold issued?
  cases m.live with
  | none => rfl
  | some h => cases c.resolved <;> rfl

structure LivesAlike (R : σ → τ → Prop) (x : Except Halt Unit × Client × Manager × Env σ)
    (y : Except Halt Unit × Client × Manager × Env τ) : Prop where
  answer : x.1 = y.1
  client : x.2.1.redacted = y.2.1.redacted
  manager : x.2.2.1 = y.2.2.1
  env : Env.Matches R x.2.2.2 y.2.2.2

/-- A configuration is found or refused alike, and announced in the same words. -/
theorem Client.prepare_of_redacted {c c' : Client} {e : Env σ} {e' : Env τ}
    (hc : c.redacted = c'.redacted) (he : Env.Matches R e e') :
    (c.prepare e).1.map Resolved.redacted = (c'.prepare e').1.map Resolved.redacted ∧
      (c.prepare e).2.1.redacted = (c'.prepare e').2.1.redacted ∧
      Env.Matches R (c.prepare e).2.2 (c'.prepare e').2.2 := by
  obtain ⟨properties, resolved, holds⟩ := c
  obtain ⟨properties', resolved', holds'⟩ := c'
  simp only [Client.redacted, Client.mk.injEq] at hc
  obtain ⟨hproperties, hresolved, rfl⟩ := hc
  unfold Client.prepare
  cases resolved with
  | some r =>
    obtain ⟨r', rfl, hr⟩ := Option.map_eq_some_iff.mp hresolved.symm
    refine ⟨congrArg Except.ok hr.symm, ?_, he⟩
    simp only [Client.redacted, hproperties, Option.map_some, hr]
  | none =>
    obtain rfl : resolved' = none := Option.map_eq_none_iff.mp hresolved.symm
    dsimp only
    rcases map_eq_map_cases (Client.resolve_of_redacted hproperties) with
      ⟨f, hf, hf'⟩ | ⟨r, r', hr, hr', hsame⟩
    · rw [hf, hf']
      refine ⟨rfl, ?_, he⟩
      simp only [Client.redacted, hproperties, Option.map_none]
    · rw [hr, hr']
      have hannounced : Client.announcement r.config = Client.announcement r'.config := by
        rw [← Client.announcement_redacted, ← Client.announcement_redacted r'.config]
        exact congrArg Client.announcement (congrArg Resolved.config hsame)
      refine ⟨congrArg Except.ok hsame, ?_, ?_⟩
      · simp only [Client.redacted, hproperties, Option.map_some, hsame]
      · dsimp only
        rw [hannounced]
        exact he.note ..

theorem Concur.settle {x : Except Halt Unit × σ} {y : Except Halt Unit × τ} (h : Concur R x y) :
    Concur R (Client.settle x) (Client.settle y) := by
  rw [Client.settle_eq, Client.settle_eq, h.answer]
  exact ⟨rfl, h.states⟩

namespace Backend.AnswersAlike

variable {b : Backend σ} {b' : Backend τ} (hb : b.AnswersAlike R b') {e : Env σ} {e' : Env τ}
  {s : σ} {s' : τ} {c c' : Client} {m : Manager}

include hb

theorem acquire {r r' : ConnectionRequest} (hr : r.redacted = r'.redacted)
    (he : Env.Matches R e e') :
    (m.acquire b r e).1 = (m.acquire b' r' e').1 ∧
      (m.acquire b r e).2.1 = (m.acquire b' r' e').2.1 ∧
      Env.Matches R (m.acquire b r e).2.2 (m.acquire b' r' e').2.2 := by
  unfold Manager.acquire
  split
  · exact ⟨rfl, rfl, he⟩
  · rw [ConnectionRequest.place_of_redacted hr]
    cases r'.place with
    | error u => exact ⟨rfl, rfl, he⟩
    | ok place =>
      dsimp only
      obtain ⟨hanswer, hafter⟩ := hb.connect hr (he.note .info Manager.logger
        s!"Connecting to {place.1} (bucket {place.2})" none)
      revert hanswer hafter
      rcases b.connect r _ with ⟨x, e₁⟩
      rcases b'.connect r' _ with ⟨x', e₁'⟩
      rintro ⟨⟩ hafter
      rcases x with (t | f) | handle
      · exact ⟨rfl, rfl, hafter⟩
      · exact ⟨rfl, rfl, hafter.note ..⟩
      · exact ⟨rfl, rfl, hafter.note ..⟩

theorem release (he : Env.Matches R e e') :
    (m.release b e).1 = (m.release b' e').1 ∧ (m.release b e).2.1 = (m.release b' e').2.1 ∧
      Env.Matches R (m.release b e).2.2 (m.release b' e').2.2 := by
  unfold Manager.release
  split
  · exact ⟨rfl, rfl, he⟩
  · next handle _ =>
    dsimp only
    split
    · exact ⟨rfl, rfl, he.note ..⟩
    · obtain ⟨hanswer, hafter⟩ := hb.close handle he
      revert hanswer hafter
      rcases b.close handle e with ⟨x, e₁⟩
      rcases b'.close handle e' with ⟨x', e₁'⟩
      rintro ⟨⟩ hafter
      rcases x with (t | f) | _
      · exact ⟨rfl, rfl, hafter⟩
      · exact ⟨rfl, rfl, hafter.note ..⟩
      · exact ⟨rfl, rfl, hafter.note ..⟩

theorem start (hc : c.redacted = c'.redacted) (he : Env.Matches R e e') :
    LivesAlike R (c.start b m e) (c'.start b' m e') := by
  obtain ⟨hanswer, hclient, hafter⟩ := Client.prepare_of_redacted hc he
  unfold Client.start
  revert hanswer hclient hafter
  rcases c.prepare e with ⟨x, c₁, e₁⟩
  rcases c'.prepare e' with ⟨x', c₁', e₁'⟩
  intro hanswer hclient hafter
  rcases map_eq_map_cases hanswer with ⟨x, rfl, rfl⟩ | ⟨r, r', rfl, rfl, hr⟩
  · exact ⟨rfl, hclient, rfl, hafter⟩
  · have hholds : c₁.holds = c₁'.holds := Client.holds_of_redacted hclient
    have hrequest : r.config.connection.request.redacted = r'.config.connection.request.redacted :=
      congrArg (fun r => (Resolved.config r).connection.request) hr
    dsimp only
    rw [hholds]
    split
    · exact ⟨rfl, hclient, rfl, hafter⟩
    · obtain ⟨hacquired, hmanager, hlast⟩ := hb.acquire (m := m) hrequest hafter
      revert hacquired hmanager hlast
      rcases m.acquire b _ e₁ with ⟨y, m₁, e₂⟩
      rcases m.acquire b' _ e₁' with ⟨y', m₁', e₂'⟩
      rintro ⟨⟩ hmanager hlast
      cases y with
      | error x => exact ⟨rfl, hclient, hmanager, hlast⟩
      | ok handle =>
        refine ⟨rfl, ?_, hmanager, hlast⟩
        exact congrArg (fun c : Client => { c with holds := true }) hclient

theorem stop (hc : c.redacted = c'.redacted) (he : Env.Matches R e e') :
    LivesAlike R (c.stop b m e) (c'.stop b' m e') := by
  have hholds := Client.holds_of_redacted hc
  cases h : c.holds with
  | false =>
    rw [Client.stop_of_free h, Client.stop_of_free (hholds ▸ h)]
    exact ⟨rfl, hc, rfl, he⟩
  | true =>
    obtain ⟨hanswer, hmanager, hafter⟩ := hb.release (m := m) he
    rw [Client.stop_of_holds h, Client.stop_of_holds (hholds ▸ h)]
    exact ⟨hanswer, congrArg (fun c : Client => { c with holds := false }) hc, hmanager, hafter⟩

/-- A call uses the options of a binding, and never its password. -/
theorem run (hc : c.redacted = c'.redacted) (hs : R s s') (call : Call) :
    Concur R (call.run b c m s) (call.run b' c' m s') := by
  have hoptions := Client.options_of_redacted hc
  cases hissued : call.issued? c m with
  | none =>
    have hissued' : call.issued? c' m = none := by
      rw [← hissued, Call.issued?_eq, Call.issued?_eq, hoptions]
    rw [Call.run_of_refused hissued, Call.run_of_refused hissued']
    exact ⟨rfl, hs⟩
  | some i =>
    have hready := (call.isSome_issued?_iff c m).mp (by rw [hissued]; rfl)
    obtain ⟨h, hlive⟩ := Option.isSome_iff_exists.mp hready.1
    obtain ⟨r, hresolved⟩ := Option.isSome_iff_exists.mp hready.2.1
    rw [hresolved] at hoptions
    obtain ⟨r', hresolved', hsame⟩ := Option.map_eq_some_iff.mp hoptions.symm
    cases call with
    | read t k names =>
      obtain ⟨hanswer, hafter⟩ := hb.get h (documentId t k) r.options.timeout hs
      simp only [Call.run, Client.read_eq hlive hresolved, Client.read_eq hlive hresolved', hsame]
      exact ⟨by rw [hanswer], hafter⟩
    | insert t k values =>
      simp only [Call.run_insert hlive hresolved, Call.run_insert hlive hresolved', hsame]
      cases Call.encoded? values with
      | none => exact ⟨rfl, hs⟩
      | some fields =>
        obtain ⟨hanswer, hafter⟩ :=
          (hb.insert h (documentId t k) fields.content r.options hs).settle
        exact ⟨congrArg (Except.map Reply.status) hanswer, hafter⟩
    | update t k values =>
      simp only [Call.run_update hlive hresolved, Call.run_update hlive hresolved', hsame]
      cases Call.encoded? values with
      | none => exact ⟨rfl, hs⟩
      | some fields =>
        obtain ⟨hanswer, hafter⟩ :=
          (hb.replace h (documentId t k) fields.content r.options hs).settle
        exact ⟨congrArg (Except.map Reply.status) hanswer, hafter⟩
    | delete t k =>
      simp only [Call.run_delete hlive hresolved, Call.run_delete hlive hresolved', hsame]
      obtain ⟨hanswer, hafter⟩ := (hb.remove h (documentId t k) r.options hs).settle
      exact ⟨congrArg (Except.map Reply.status) hanswer, hafter⟩

end Backend.AnswersAlike

def Member.redacted (m : Member) : Member := { m with client := m.client.redacted }

def Step.redacted : Step → Step
  | .create id manager properties => .create id manager properties.redacted
  | .acquire manager request => .acquire manager request.redacted
  | s => s

/-- Steps that are the same but for passwords. -/
theorem Step.redacted_cases {s s' : Step} (h : s.redacted = s'.redacted) :
    s = s' ∨
      (∃ id manager m m', s = .create id manager m ∧ s' = .create id manager m' ∧
        m.redacted = m'.redacted) ∨
      ∃ manager r r', s = .acquire manager r ∧ s' = .acquire manager r' ∧
        r.redacted = r'.redacted := by
  cases s <;> cases s' <;> simp_all [redacted]

namespace World

structure Matches (R : σ → τ → Prop) (w : World σ) (w' : World τ) : Prop where
  env : Env.Matches R w.env w'.env
  managers : w.managers = w'.managers
  members : ∀ id, (w.members.get? id).map Member.redacted =
    (w'.members.get? id).map Member.redacted

namespace Matches

variable {b : Backend σ} {b' : Backend τ} {w : World σ} {w' : World τ}

theorem insert (h : Matches R w w') (id : String) {m m' : Member} (hm : m.redacted = m'.redacted) :
    ∀ id', ((w.members.insert id m).get? id').map Member.redacted =
      ((w'.members.insert id m').get? id').map Member.redacted := by
  intro id'
  rw [OrderedMap.get?_insert, OrderedMap.get?_insert]
  split
  · exact congrArg some hm
  · exact h.members id'

theorem renew (h : Matches R w w') (id : String) {m m' : Member} (hm : m.redacted = m'.redacted)
    {change : Client → Manager → Env σ → Except Halt Unit × Client × Manager × Env σ}
    {change' : Client → Manager → Env τ → Except Halt Unit × Client × Manager × Env τ}
    (hlife : ∀ g, LivesAlike R (change m.client g w.env) (change' m'.client g w'.env)) :
    Concur (Matches R) (w.renew id m change) (w'.renew id m' change') := by
  obtain ⟨hclient, hname⟩ := Member.mk.inj hm
  have hlife := hlife (w'.managers.ask m'.manager)
  unfold World.renew
  rw [h.managers, hname]
  refine ⟨congrArg (Except.map fun _ => Reply.done) hlife.answer, hlife.env, ?_, ?_⟩
  · exact congrArg (OrderedMap.insert w'.managers m'.manager) hlife.manager
  · exact h.insert id (congrArg (Member.mk · m'.manager) hlife.client)

theorem manage {α : Type} (h : Matches R w w') (name : String) (reply : α → Reply)
    {change : Manager → Env σ → Except Halt α × Manager × Env σ}
    {change' : Manager → Env τ → Except Halt α × Manager × Env τ}
    (hchange : ∀ g, (change g w.env).1 = (change' g w'.env).1 ∧
      (change g w.env).2.1 = (change' g w'.env).2.1 ∧
      Env.Matches R (change g w.env).2.2 (change' g w'.env).2.2) :
    Concur (Matches R) (w.manage name reply change) (w'.manage name reply change') := by
  obtain ⟨hanswer, hmanager, henv⟩ := hchange (w'.managers.ask name)
  unfold World.manage
  rw [h.managers]
  exact ⟨congrArg (Except.map reply) hanswer, henv,
    congrArg (OrderedMap.insert w'.managers name) hmanager, h.members⟩

theorem acquire (h : Matches R w w') (hb : b.AnswersAlike R b') (name : String)
    {r r' : ConnectionRequest} (hr : r.redacted = r'.redacted) :
    Concur (Matches R) (w.step b (.acquire name r)) (w'.step b' (.acquire name r')) := by
  show Concur (Matches R) (w.manage name .handle (Manager.acquire b r))
    (w'.manage name .handle (Manager.acquire b' r'))
  exact h.manage name _ fun g => hb.acquire hr h.env

/-- A binding is there in both worlds or in none. -/
theorem member_cases (h : Matches R w w') (id : String) :
    (w.members.get? id = none ∧ w'.members.get? id = none) ∨
      ∃ m m', w.members.get? id = some m ∧ w'.members.get? id = some m' ∧
        m.redacted = m'.redacted := by
  have hid := h.members id
  cases hm : w.members.get? id with
  | none =>
    rw [hm] at hid
    exact Or.inl ⟨rfl, Option.map_eq_none_iff.mp hid.symm⟩
  | some m =>
    rw [hm] at hid
    obtain ⟨m', hm', hsame⟩ := Option.map_eq_some_iff.mp hid.symm
    exact Or.inr ⟨m, m', rfl, hm', hsame.symm⟩

theorem call (h : Matches R w w') (hb : b.AnswersAlike R b') (id : String) (call : Call) :
    Concur (Matches R) (w.step b (call.step id)) (w'.step b' (call.step id)) := by
  rcases h.member_cases id with ⟨hm, hm'⟩ | ⟨m, m', hm, hm', hsame⟩
  · have hbinding : (call.step id).binding? = some id := by cases call <;> rfl
    have hnew : ∀ manager properties, call.step id ≠ .create id manager properties :=
      fun _ _ heq => by cases call <;> cases heq
    rw [step_absent hbinding hnew hm, step_absent hbinding hnew hm']
    exact ⟨rfl, h⟩
  · obtain ⟨hclient, hname⟩ := Member.mk.inj hsame
    obtain ⟨hanswer, hstores⟩ :=
      hb.run (m := w'.managers.ask m'.manager) hclient h.env.store call
    rw [step_call hm, step_call hm', h.managers, hname]
    exact ⟨hanswer, ⟨h.env.log, hstores⟩, rfl, h.members⟩

/-- The same step leads to the same reply and to worlds that cannot be told apart again. -/
theorem step (h : Matches R w w') (hb : b.AnswersAlike R b') {s s' : Step}
    (hs : s.redacted = s'.redacted) : Concur (Matches R) (w.step b s) (w'.step b' s') := by
  rcases Step.redacted_cases hs with
    rfl | ⟨id, manager, m, m', rfl, rfl, hm⟩ | ⟨manager, r, r', rfl, rfl, hr⟩
  · cases s with
    | create id manager properties =>
      exact ⟨rfl, h.env, congrArg (Registry.touch · manager) h.managers, h.insert id rfl⟩
    | start id =>
      rcases h.member_cases id with ⟨hm, hm'⟩ | ⟨m, m', hm, hm', hsame⟩
      · simp only [World.step, hm, hm']
        exact ⟨rfl, h⟩
      · rw [step_start hm, step_start hm']
        exact h.renew id hsame fun g => hb.start (Member.mk.inj hsame).1 h.env
    | stop id =>
      rcases h.member_cases id with ⟨hm, hm'⟩ | ⟨m, m', hm, hm', hsame⟩
      · simp only [World.step, hm, hm']
        exact ⟨rfl, h⟩
      · rw [step_stop hm, step_stop hm']
        exact h.renew id hsame fun g => hb.stop (Member.mk.inj hsame).1 h.env
    | read id table key names => exact h.call hb id (.read table key names)
    | insert id table key values => exact h.call hb id (.insert table key values)
    | update id table key values => exact h.call hb id (.update table key values)
    | delete id table key => exact h.call hb id (.delete table key)
    | scan id =>
      rcases h.member_cases id with ⟨hm, hm'⟩ | ⟨m, m', hm, hm', hsame⟩ <;>
        simp only [World.step, hm, hm'] <;> exact ⟨rfl, h⟩
    | acquire name request => exact h.acquire hb name rfl
    | release name =>
      show Concur (Matches R) (w.manage name (fun _ => .done) (Manager.release b))
        (w'.manage name (fun _ => .done) (Manager.release b'))
      exact h.manage name _ fun g => hb.release h.env
    | connection name =>
      show Concur (Matches R) (w.manage name .handle fun g e => (g.connection, g, e))
        (w'.manage name .handle fun g e => (g.connection, g, e))
      exact h.manage name _ fun g => ⟨rfl, rfl, h.env⟩
  · exact ⟨rfl, h.env, congrArg (Registry.touch · manager) h.managers, h.insert id
      (congrArg (fun m => Member.mk ⟨m, none, false⟩ manager) hm)⟩
  · exact h.acquire hb manager hr

theorem play (h : Matches R w w') (hb : b.AnswersAlike R b') {steps steps' : List Step}
    (hs : steps.map Step.redacted = steps'.map Step.redacted) :
    Concur (Matches R) (w.play b steps) (w'.play b' steps') := by
  induction steps generalizing steps' w w' with
  | nil =>
    obtain rfl := List.map_eq_nil_iff.mp hs.symm
    exact ⟨rfl, h⟩
  | cons s rest ih =>
    obtain ⟨s', rest', rfl, hfirst, hrest⟩ := List.map_eq_cons_iff.mp hs.symm
    obtain ⟨hreply, hnext⟩ := h.step hb hfirst.symm
    obtain ⟨hreplies, hlast⟩ := ih hnext hrest.symm
    exact ⟨congrArg₂ List.cons hreply hreplies, hlast⟩

end Matches

end World

def Usage.redacted : Usage → Usage
  | .connect r => .connect r.redacted
  | u => u

theorem Usage.connect_of_redacted {r r' : ConnectionRequest} (h : r.redacted = r'.redacted) :
    (connect r).redacted = (connect r').redacted := congrArg connect h

namespace Backend

def UsedAlike (R : σ → τ → Prop) (s : σ × List Usage) (s' : τ × List Usage) : Prop :=
  R s.1 s'.1 ∧ s.2.map Usage.redacted = s'.2.map Usage.redacted

theorem UsedAlike.append {s : σ × List Usage} {s' : τ × List Usage} (h : UsedAlike R s s')
    {u u' : Usage} (hu : u.redacted = u'.redacted) :
    (s.2 ++ [u]).map Usage.redacted = (s'.2 ++ [u']).map Usage.redacted := by
  rw [List.map_append, List.map_append, h.2]
  exact congrArg (_ ++ [·]) hu

variable {b : Backend σ} {b' : Backend τ}

theorem usedAlike_watch {α : Type} {act : Act σ α} {act' : Act τ α}
    (hact : ∀ {s s'}, R s s' → Concur R (act s) (act' s')) (u : Usage) {s : σ × List Usage}
    {s' : τ × List Usage} (h : UsedAlike R s s') :
    Concur (UsedAlike R) (watch u act s) (watch u act' s') :=
  ⟨(hact h.1).answer, (hact h.1).states, h.append rfl⟩

theorem usedAlike_watchEnv {α : Type} {act : Act (Env σ) α} {act' : Act (Env τ) α}
    (hact : ∀ {e e'}, Env.Matches R e e' → Concur (Env.Matches R) (act e) (act' e')) {u u' : Usage}
    (hu : u.redacted = u'.redacted) {e : Env (σ × List Usage)} {e' : Env (τ × List Usage)}
    (h : Env.Matches (UsedAlike R) e e') :
    Concur (Env.Matches (UsedAlike R)) (watchEnv u act e) (watchEnv u' act' e') := by
  have hplain : Env.Matches R { store := e.store.1, log := e.log }
      { store := e'.store.1, log := e'.log } := ⟨h.log, h.store.1⟩
  obtain ⟨hanswer, hafter⟩ := hact hplain
  exact ⟨hanswer, hafter.log, hafter.store, h.store.append hu⟩

/-- Backends that answer alike are also used alike. -/
theorem AnswersAlike.watched (hb : b.AnswersAlike R b') :
    b.watched.AnswersAlike (UsedAlike R) b'.watched where
  connect hr := usedAlike_watchEnv (hb.connect hr) (Usage.connect_of_redacted hr)
  close h _ _ := usedAlike_watchEnv (hb.close h) rfl
  get h id t _ _ := usedAlike_watch (hb.get h id t) _
  insert h id c o _ _ := usedAlike_watch (hb.insert h id c o) _
  replace h id c o _ _ := usedAlike_watch (hb.replace h id c o) _
  remove h id o _ _ := usedAlike_watch (hb.remove h id o) _

end Backend

namespace World

def uses (b : Backend σ) (steps : List Step) (e : Env σ) : List Usage :=
  (play b.watched steps { env := { store := (e.store, []), log := e.log } }).2.env.store.2

theorem Matches.init {e : Env σ} {e' : Env τ} (h : Env.Matches R e e') :
    Matches R { env := e } { env := e' } := ⟨h, rfl, fun _ => rfl⟩

/-- Runs of the same steps with different passwords, over backends that answer alike: the replies
and the log are the same, the stores are used and left alike, and nothing differs but passwords.
The in-memory store and the cluster service answer alike. Properties that differ in the password
resolve to configurations that differ in it, and have the same texts. -/
theorem password_unseen {b : Backend σ} {b' : Backend τ} (hb : b.AnswersAlike R b')
    {steps steps' : List Step} (hsteps : steps.map Step.redacted = steps'.map Step.redacted)
    {e : Env σ} {e' : Env τ} (he : Env.Matches R e e') :
    (play b steps { env := e }).1 = (play b' steps' { env := e' }).1 ∧
    Matches R (play b steps { env := e }).2 (play b' steps' { env := e' }).2 ∧
    (uses b steps e).map Usage.redacted = (uses b' steps' e').map Usage.redacted ∧
    Memory.backend.AnswersAlike (fun m m' => m.redacted = m'.redacted) Memory.backend ∧
    Cluster.backend.AnswersAlike (fun s s' => s.redacted = s'.redacted) Cluster.backend ∧
    ∀ m m' : RawProperties, m.redacted = m'.redacted →
      (Config.resolve m).map Config.redacted = (Config.resolve m').map Config.redacted ∧
      ∀ p p', Properties.read m = .ok p → Properties.read m' = .ok p' →
        p.literal = p'.literal ∧ p.summary = p'.summary ∧ p.params.literal = p'.params.literal := by
  obtain ⟨hreplies, hlast⟩ := (Matches.init he).play hb hsteps
  have hwatched : Env.Matches (Backend.UsedAlike R)
      { store := (e.store, []), log := e.log } { store := (e'.store, []), log := e'.log } :=
    ⟨he.log, he.store, rfl⟩
  have huses := ((Matches.init hwatched).play hb.watched hsteps).states.env.store.2
  refine ⟨hreplies, hlast, huses, Memory.answersAlike, Cluster.answersAlike, fun m m' h => ?_⟩
  refine ⟨Config.resolve_of_redacted h, fun p p' hp hp' => ?_⟩
  have hread := Properties.read_of_redacted h
  rw [hp, hp'] at hread
  have hsame : p.redacted = p'.redacted := Except.ok.inj hread
  refine ⟨?_, ?_, ?_⟩
  · rw [← Properties.literal_redacted, hsame, Properties.literal_redacted]
  · rw [← Properties.summary_redacted, hsame, Properties.summary_redacted]
  · rw [← Params.literal_redacted, ← Properties.params_redacted, hsame, Properties.params_redacted,
      Params.literal_redacted]

def guarded (password : String) : List Step :=
  [.create "a" "m" (.ofList [("couchbase.password", .text password), ("durability", .int 1)]),
    .start "a", .insert "a" "t" "k" (some ∅), .read "a" "t" "k" [], .stop "a"]

/-- The password goes to the service, and leaves no other trace. -/
theorem password_unseen_guarded :
    (guarded "swordfish").map Step.redacted = (guarded "sesame").map Step.redacted ∧
    (∃ r later, uses Cluster.backend (guarded "swordfish") { store := {} } =
      .connect r :: later ∧ r.password = .text "swordfish") ∧
    (play Cluster.backend (guarded "swordfish") { env := { store := {} } }).1 =
      (play Cluster.backend (guarded "sesame") { env := { store := {} } }).1 := by
  have hsteps : (guarded "swordfish").map Step.redacted = (guarded "sesame").map Step.redacted :=
    rfl
  have hunseen := password_unseen Cluster.answersAlike hsteps (e := { store := {} }) ⟨rfl, rfl⟩
  exact ⟨hsteps, ⟨_, _, rfl, rfl⟩, hunseen.1⟩

end World

end StoreBinding
