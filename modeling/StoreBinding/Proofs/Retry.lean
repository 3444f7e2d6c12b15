import StoreBinding.Proofs.Demands
import StoreBinding.Proofs.EarlierLog
import StoreBinding.Proofs.FatalStart

/-!
Starting a binding again after failures. A start goes through stages: it resolves the configuration,
announces it, and only then asks for a connection, so that a failure leaves some of this done. Main
statement: however often a connection could not be opened, the start that opens one leads to the
world that a first start leads to, behind another log; and a binding whose properties are refused
fails over them in every start, before anything is asked of the store.
-/
namespace StoreBinding

variable {σ : Type} {b : Backend σ}

namespace Backend

variable (b : Backend σ) (p : Params)

def asked : Nat → σ → σ
  | 0, s => s
  | n + 1, s => (b.connect p.request { store := asked n s }).2.store

def answer (n : Nat) (s : σ) : Except Halt Handle :=
  (b.connect p.request { store := b.asked p n s }).1

theorem asked_watched (n : Nat) (s : σ) :
    b.watched.asked p n (s, []) = (b.asked p n s, List.replicate n (.connect p.request)) := by
  induction n with
  | zero => rfl
  | succ n ih =>
    rw [asked, ih, List.replicate_succ']
    rfl

theorem answer_watched (n : Nat) (s : σ) : b.watched.answer p n (s, []) = b.answer p n s := by
  rw [answer, asked_watched]
  rfl

end Backend

/-- What requests for a connection leave: the store that was asked, and more in the log. None of
that bears the name of a binding's log, unless the backend writes under it. -/
structure Backend.Asked (b : Backend σ) (p : Params) (n : Nat) (e e' : Env σ) : Prop where
  store : e'.store = b.asked p n e.store
  log : (∀ s, ∀ entry ∈ (b.connect p.request { store := s }).2.log,
      entry.logger ≠ Client.logger) →
    ∃ lines : Array Log.Entry, e'.log = e.log ++ lines ∧
      ∀ entry ∈ lines, entry.logger ≠ Client.logger

theorem Manager.logger_ne : Manager.logger ≠ Client.logger := by decide

/-- More of a manager in the log makes no difference. -/
theorem Backend.Asked.note {p : Params} {n : Nat} {e e' : Env σ} (h : b.Asked p n e e')
    (level : Log.Level) (message : String) (trouble : Option String) :
    b.Asked p n e (e'.note level Manager.logger message trouble) where
  store := h.store
  log hlogger := by
    obtain ⟨lines, hlog, hlines⟩ := h.log hlogger
    refine ⟨lines.push ⟨⟨level, Manager.logger, trouble⟩, message⟩, ?_, ?_⟩
    · rw [Env.note, hlog, Array.append_push]
    · intro entry hentry
      rcases Array.mem_push.mp hentry with hentry | rfl
      · exact hlines entry hentry
      · exact Manager.logger_ne

theorem Backend.Asked.zero (p : Params) (e : Env σ) : b.Asked p 0 e e where
  store := rfl
  log _ := ⟨#[], (Array.append_empty).symm, nofun⟩

theorem Backend.Asked.succ {p : Params} {n : Nat} {e e' e'' : Env σ} (h : b.Asked p n e e')
    (h' : b.Asked p 1 e' e'') : b.Asked p (n + 1) e e'' where
  store := by
    rw [h'.store, h.store]
    rfl
  log hlogger := by
    obtain ⟨lines, hlog, hlines⟩ := h.log hlogger
    obtain ⟨lines', hlog', hlines'⟩ := h'.log hlogger
    refine ⟨lines ++ lines', ?_, ?_⟩
    · rw [hlog', hlog, Array.append_assoc]
    · intro entry hentry
      rcases Array.mem_append.mp hentry with hentry | hentry
      · exact hlines entry hentry
      · exact hlines' entry hentry

/-- Requests that were made behind an empty log are made behind any other. -/
theorem Backend.Asked.after {p : Params} {n : Nat} {e e' : Env σ}
    (h : b.Asked p n { store := e.store } e') : b.Asked p n e (e'.after e.log) where
  store := h.store
  log hlogger := by
    obtain ⟨lines, hlog, hlines⟩ := h.log hlogger
    refine ⟨lines, ?_, hlines⟩
    rw [Env.after, hlog, Array.empty_append]

namespace Backend.Heedless

variable (hb : b.Heedless) {p : Params} {m : Manager} {e : Env σ}

include hb

theorem connect_announced (p : Params) (e : Env σ) :
    b.connect p.request (Manager.announced p e) =
      ((b.connect p.request { store := e.store }).1,
        (b.connect p.request { store := e.store }).2.after (Manager.announced p e).log) := by
  rw [← hb.connect]
  rfl

theorem asked_connect (p : Params) (e : Env σ) :
    b.Asked p 1 e (b.connect p.request (Manager.announced p e)).2 where
  store := by
    rw [hb.connect_announced]
    rfl
  log hlogger := by
    rw [hb.connect_announced]
    refine ⟨#[⟨⟨.info, Manager.logger, none⟩, s!"Connecting to {p.host} (bucket {p.bucket})"⟩] ++
      (b.connect p.request { store := e.store }).2.log, ?_, ?_⟩
    · simp [Env.after, Manager.announced, Env.note]
    · intro entry hentry
      rcases Array.mem_append.mp hentry with hfirst | hrest
      · rw [List.mem_toArray, List.mem_singleton] at hfirst
        rw [hfirst]
        exact Manager.logger_ne
      · exact hlogger _ entry hrest

theorem acquire_of_error (hlive : m.live = none) {x : Halt}
    (hx : (b.connect p.request { store := e.store }).1 = .error x) :
    ∃ y e', m.acquire b p.request e = (.error y, m, e') ∧ b.Asked p 1 e e' := by
  have hasked := hb.asked_connect p e
  have hanswer := congrArg Prod.fst (hb.connect_announced p e)
  rw [hx] at hanswer
  revert hasked hanswer
  cases hconnect : b.connect p.request (Manager.announced p e) with
  | mk answer e' =>
    rintro hasked ⟨⟩
    cases x with
    | interrupt t => exact ⟨_, _, Manager.acquire_of_interrupt hlive hconnect, hasked⟩
    | failure f => exact ⟨_, _, Manager.acquire_of_failure hlive hconnect, hasked.note ..⟩

theorem acquire_of_ok (hlive : m.live = none) {h : Handle}
    (hh : (b.connect p.request { store := e.store }).1 = .ok h) :
    ∃ e', m.acquire b p.request e = (.ok h, { live := some h, refs := m.refs + 1 }, e') ∧
      b.Asked p 1 e e' := by
  have hasked := hb.asked_connect p e
  have hanswer := congrArg Prod.fst (hb.connect_announced p e)
  rw [hh] at hanswer
  revert hasked hanswer
  cases hconnect : b.connect p.request (Manager.announced p e) with
  | mk answer e' =>
    rintro hasked ⟨⟩
    exact ⟨_, Manager.acquire_of_opened hlive hconnect, hasked.note ..⟩

end Backend.Heedless

/-- The first thing that a start does is to resolve the configuration and to announce it; it then
goes on as a start of a binding that has its configuration. -/
theorem Client.start_eq {c : Client} {r : Resolved} (hnone : c.resolved = none)
    (hr : resolve c.properties = .ok r) (m : Manager) (e : Env σ) :
    c.start b m e = Client.start b { c with resolved := some r } m
      (e.note .info logger (announcement r.config)) := by
  simp only [start, prepare, hnone, hr]

theorem Client.start_of_error {c : Client} {f : Failure} (hnone : c.resolved = none)
    (hf : resolve c.properties = .error f) (m : Manager) (e : Env σ) :
    c.start b m e = (.error (.failure f), c, m, e) := by
  simp only [start, prepare, hnone, hf]

namespace World

structure Fresh (w : World σ) (id name : String) (given : RawProperties) (m : Manager) : Prop where
  member : w.members.get? id = some { client := { properties := given }, manager := name }
  manager : w.managers.get? name = some m
  live : m.live = none

def prepared (id name : String) (given : RawProperties) (r : Resolved) (w : World σ) : World σ where
  env := w.env.note .info Client.logger (Client.announcement r.config)
  managers := w.managers
  members := w.members.insert id
    { client := { properties := given, resolved := some r }, manager := name }

variable {w : World σ} {id name : String} {given : RawProperties} {m : Manager} {r : Resolved}

theorem ask_of_get? (hm : w.managers.get? name = some m) : w.managers.ask name = m := by
  rw [Registry.ask, hm, Option.getD_some]

theorem Fresh.start (hw : Fresh w id name given m) (hr : Client.resolve given = .ok r) :
    w.step b (.start id) = (w.prepared id name given r).step b (.start id) := by
  have hprepared : (w.prepared id name given r).members.get? id =
      some { client := { properties := given, resolved := some r }, manager := name } :=
    OrderedMap.get?_insert_self ..
  rw [step_start hw.member, step_start hprepared]
  simp only [renew, Client.start_eq (c := { properties := given }) rfl hr, prepared,
    OrderedMap.insert_insert]

structure Poised (w : World σ) (id name : String) (given : RawProperties) (r : Resolved)
    (m : Manager) : Prop where
  member : w.members.get? id =
    some { client := { properties := given, resolved := some r }, manager := name }
  manager : w.managers.get? name = some m
  live : m.live = none

theorem Fresh.poised_prepared (hw : Fresh w id name given m) (r : Resolved) :
    Poised (w.prepared id name given r) id name given r m where
  member := OrderedMap.get?_insert_self ..
  manager := hw.manager
  live := hw.live

def started (id name : String) (given : RawProperties) (r : Resolved) (m : Manager) (h : Handle)
    (env : Env σ) (w : World σ) : World σ where
  env
  managers := w.managers.insert name { live := some h, refs := m.refs + 1 }
  members := w.members.insert id
    { client := { properties := given, resolved := some r, holds := true }, manager := name }

namespace Poised

variable (hw : Poised w id name given r m) (hb : b.Heedless)

include hw hb

theorem step_of_error {x : Halt}
    (hx : (b.connect r.config.connection.request { store := w.env.store }).1 = .error x) :
    ∃ y env, w.step b (.start id) = (.error y, { w with env }) ∧
      b.Asked r.config.connection 1 w.env env := by
  obtain ⟨y, env, hacquire, hasked⟩ := hb.acquire_of_error (m := m) hw.live hx
  refine ⟨y, env, ?_, hasked⟩
  have hstart : Client.start b { properties := given, resolved := some r } m w.env =
      (.error y, { properties := given, resolved := some r }, m, env) := by
    simp [Client.start, Client.prepare, hacquire]
  rw [step_start hw.member]
  simp only [renew, ask_of_get? hw.manager, hstart, OrderedMap.insert_of_get? hw.member,
    OrderedMap.insert_of_get? hw.manager, Except.map]

theorem step_of_ok {h : Handle}
    (hh : (b.connect r.config.connection.request { store := w.env.store }).1 = .ok h) :
    ∃ env, w.step b (.start id) = (.ok .done, w.started id name given r m h env) ∧
      b.Asked r.config.connection 1 w.env env := by
  obtain ⟨env, hacquire, hasked⟩ := hb.acquire_of_ok (m := m) hw.live hh
  refine ⟨env, ?_, hasked⟩
  have hstart : Client.start b { properties := given, resolved := some r } m w.env =
      (.ok (), { properties := given, resolved := some r, holds := true },
        { live := some h, refs := m.refs + 1 }, env) := by
    simp [Client.start, Client.prepare, hacquire]
  rw [step_start hw.member]
  simp only [renew, ask_of_get? hw.manager, hstart, started, Except.map]

end Poised

theorem play_concat (steps : List Step) (s : Step) (w : World σ) :
    w.play b (steps ++ [s]) =
      ((w.play b steps).1 ++ [((w.play b steps).2.step b s).1],
        ((w.play b steps).2.step b s).2) := by
  induction steps generalizing w with
  | nil => rfl
  | cons s' rest ih => simp only [List.cons_append, play, ih]

/-- Induction on the attempts: each of them finds the world as the one before, but for the store and
the log. -/
theorem Poised.attempts (hw : Poised w id name given r m) (hb : b.Heedless) {n : Nat}
    (hfails : ∀ j < n, ∃ x, b.answer r.config.connection j w.env.store = .error x) :
    ∃ env, (w.play b (List.replicate n (.start id))).2 = { w with env } ∧
      b.Asked r.config.connection n w.env env ∧
      ∀ reply ∈ (w.play b (List.replicate n (.start id))).1, ∃ x, reply = .error x := by
  induction n with
  | zero => exact ⟨w.env, rfl, .zero .., nofun⟩
  | succ n ih =>
    obtain ⟨env, hplay, hasked, hreplies⟩ := ih fun j hj => hfails j (Nat.lt_succ_of_lt hj)
    obtain ⟨x, hx⟩ := hfails n (Nat.lt_succ_self n)
    have hpoised : Poised { w with env } id name given r m := ⟨hw.member, hw.manager, hw.live⟩
    rw [Backend.answer, ← hasked.store] at hx
    obtain ⟨y, env', hstep, hasked'⟩ := hpoised.step_of_error hb hx
    rw [List.replicate_succ', play_concat, hplay, hstep]
    refine ⟨env', rfl, hasked.succ hasked', ?_⟩
    intro reply hreply
    rcases List.mem_append.mp hreply with hreply | hreply
    · exact hreplies reply hreply
    · exact ⟨y, List.mem_singleton.mp hreply⟩

def asked (b : Backend σ) (p : Params) (n : Nat) (w : World σ) : World σ :=
  { w with env := { w.env with store := b.asked p n w.env.store } }

def withUses (uses : List Usage) (w : World σ) : World (σ × List Usage) where
  env := w.env.withUses uses
  managers := w.managers
  members := w.members

theorem after_log (w : World σ) (env : Env σ) :
    ({ w with env := { store := env.store } } : World σ).after env.log = { w with env } := by
  simp only [after, Env.after, Array.append_empty]

namespace Fresh

variable (hw : Fresh w id name given m)

include hw

/-- The start that opens a connection, behind any log. -/
theorem last_start (hb : b.Heedless) {k : Nat} {h : Handle}
    (hopens : b.answer r.config.connection k w.env.store = .ok h) :
    ∃ env₀,
      b.Asked r.config.connection 1 { store := b.asked r.config.connection k w.env.store } env₀ ∧
      ∀ env : Env σ, env.store = b.asked r.config.connection k w.env.store →
        ({ w.prepared id name given r with env } : World σ).step b (.start id) =
          (.ok .done, (w.started id name given r m h env₀).after env.log) := by
  have hpoised := hw.poised_prepared r
  have hbare : Poised { w.prepared id name given r with
      env := { store := b.asked r.config.connection k w.env.store } } id name given r m :=
    ⟨hpoised.member, hpoised.manager, hpoised.live⟩
  obtain ⟨env₀, hstep, hasked⟩ := hbare.step_of_ok hb hopens
  refine ⟨env₀, hasked, fun env hstore => ?_⟩
  rw [← after_log, hstore, step_after hb, hstep]
  simp only [started, prepared, OrderedMap.insert_insert]

variable (hr : Client.resolve given = .ok r)

include hr

theorem play_start (n : Nat) :
    w.play b (List.replicate (n + 1) (.start id)) =
      (w.prepared id name given r).play b (List.replicate (n + 1) (.start id)) := by
  simp only [List.replicate_succ, play, hw.start hr]

theorem step_start (n : Nat) :
    (w.play b (List.replicate n (.start id))).2.step b (.start id) =
      ((w.prepared id name given r).play b (List.replicate n (.start id))).2.step b
        (.start id) := by
  cases n with
  | zero => exact hw.start hr
  | succ n => rw [hw.play_start hr]

variable (hb : b.Heedless) {k : Nat}
  (hfails : ∀ j < k, ∃ x, b.answer r.config.connection j w.env.store = .error x)

include hb hfails

theorem attempts {j : Nat} (hj : j ≤ k) :
    (w.play b (List.replicate j (.start id))).2.managers = w.managers ∧
      ∀ reply ∈ (w.play b (List.replicate j (.start id))).1, ∃ x, reply = .error x := by
  cases j with
  | zero => exact ⟨rfl, nofun⟩
  | succ n =>
    obtain ⟨env, hplay, -, hreplies⟩ :=
      (hw.poised_prepared r).attempts hb fun i hi => hfails i (Nat.lt_of_lt_of_le hi hj)
    rw [hw.play_start hr, hplay]
    exact ⟨rfl, hreplies⟩

/-- The start that opens a connection after failures, and a first start over the same store: they
lead to one world behind two logs. -/
theorem attempts_ok {h : Handle} (hopens : b.answer r.config.connection k w.env.store = .ok h) :
    ∃ env₀ past past',
      w.play b (List.replicate (k + 1) (.start id)) =
        ((w.play b (List.replicate k (.start id))).1 ++ [.ok .done],
          (w.started id name given r m h env₀).after past) ∧
      (w.asked b r.config.connection k).step b (.start id) =
        (.ok .done, (w.started id name given r m h env₀).after past') ∧
      b.Asked r.config.connection (k + 1) (w.prepared id name given r).env (env₀.after past) := by
  obtain ⟨env₀, hasked₀, hlast⟩ := hw.last_start hb hopens
  obtain ⟨env, hplay, hasked, -⟩ := (hw.poised_prepared r).attempts hb hfails
  have hstore : env.store = b.asked r.config.connection k w.env.store := hasked.store
  refine ⟨env₀, env.log, ((w.asked b r.config.connection k).prepared id name given r).env.log,
    ?_, ?_, ?_⟩
  · rw [List.replicate_succ', play_concat, hw.step_start hr, hplay, hlast env hstore]
  · have hfresh : Fresh (w.asked b r.config.connection k) id name given m :=
      ⟨hw.member, hw.manager, hw.live⟩
    rw [hfresh.start hr]
    exact hlast _ rfl
  · rw [← hstore] at hasked₀
    exact hasked.succ hasked₀.after

end Fresh

/-- A binding whose properties are refused keeps nothing of a start. -/
theorem step_start_of_error {w : World σ} {f : Failure}
    (hmember : w.members.get? id =
      some { client := { properties := given }, manager := name })
    (hf : Client.resolve given = .error f) :
    w.step b (.start id) = (.error (.failure f),
      { w with
        managers := w.managers.insert name (w.managers.ask name)
        members := w.members.insert id
          { client := { properties := given }, manager := name } }) := by
  have hstart : Client.start b { properties := given } (w.managers.ask name) w.env =
      (.error (.failure f), { properties := given }, w.managers.ask name, w.env) :=
    Client.start_of_error rfl hf ..
  rw [step_start hmember]
  simp only [renew, hstart, Except.map]

/-- Nothing but a new binding of its name takes its place. -/
theorem step_keeps {w : World σ} {f : Failure}
    (hmember : w.members.get? id =
      some { client := { properties := given }, manager := name })
    (hf : Client.resolve given = .error f) {s : Step}
    (hs : ∀ manager properties, s ≠ .create id manager properties) :
    (w.step b s).2.members.get? id =
      some { client := { properties := given }, manager := name } := by
  cases s with
  | create id' manager properties =>
    have hne : id ≠ id' := by
      rintro rfl
      exact hs manager properties rfl
    rw [← hmember]
    exact OrderedMap.get?_insert_of_ne w.members hne _
  | start id' =>
    by_cases hid : id = id'
    · rw [← hid, step_start_of_error hmember hf]
      exact OrderedMap.get?_insert_self ..
    · cases hm : w.members.get? id' with
      | none => rwa [step_absent rfl (fun _ _ heq => by cases heq) hm]
      | some m' =>
        rw [step_start hm, ← hmember]
        exact OrderedMap.get?_insert_of_ne w.members hid _
  | stop id' =>
    by_cases hid : id = id'
    · rw [← hid, step_stop hmember]
      simp only [renew, Client.stop_of_free]
      exact OrderedMap.get?_insert_self ..
    · cases hm : w.members.get? id' with
      | none => rwa [step_absent rfl (fun _ _ heq => by cases heq) hm]
      | some m' =>
        rw [step_stop hm, ← hmember]
        exact OrderedMap.get?_insert_of_ne w.members hid _
  | read | insert | update | delete | scan =>
    simp only [step]
    split <;> exact hmember
  | acquire | release | connection => exact hmember

theorem play_keeps {w : World σ} {f : Failure}
    (hmember : w.members.get? id =
      some { client := { properties := given }, manager := name })
    (hf : Client.resolve given = .error f) {steps : List Step}
    (hs : ∀ manager properties, .create id manager properties ∉ steps) :
    (w.play b steps).2.members.get? id =
      some { client := { properties := given }, manager := name } := by
  induction steps generalizing w with
  | nil => exact hmember
  | cons s rest ih =>
    apply ih
    · apply step_keeps hmember hf
      rintro manager properties rfl
      exact hs manager properties List.mem_cons_self
    · intro manager properties hmem
      exact hs manager properties (List.mem_cons_of_mem s hmem)

/-- What is expected of starts that fail to open a connection some times and then open one: the
failures leave every manager as it was, and the last start cannot be told from a first one that
opens the same connection, neither by what it leaves nor by anything done afterwards. -/
structure Retried (b : Backend σ) (w : World σ) (id name : String) (given : RawProperties)
    (r : Resolved) (m : Manager) (k : Nat) (h : Handle) : Prop where
  failed : ∀ j ≤ k, (w.play b (List.replicate j (.start id))).2.managers = w.managers ∧
    ∀ reply ∈ (w.play b (List.replicate j (.start id))).1, ∃ x, reply = .error x
  reply : (w.play b (List.replicate (k + 1) (.start id))).1.getLast? = some (.ok .done)
  member : (w.play b (List.replicate (k + 1) (.start id))).2.members.get? id =
    some { client := { properties := given, resolved := some r, holds := true }, manager := name }
  manager : (w.play b (List.replicate (k + 1) (.start id))).2.managers.get? name =
    some { live := some h, refs := m.refs + 1 }
  transparent : ∃ past past', ∀ steps, ∃ replies v,
    (w.play b (List.replicate (k + 1) (.start id))).2.play b steps =
      (replies, World.after past v) ∧
    ((w.asked b r.config.connection k).step b (.start id)).2.play b steps =
      (replies, World.after past' v)
  calls : ((w.withUses []).play b.watched (List.replicate (k + 1) (.start id))).2.env.store.2 =
    List.replicate (k + 1) (.connect r.config.connection.request)
  announced : (∀ s, ∀ entry ∈ (b.connect r.config.connection.request { store := s }).2.log,
      entry.logger ≠ Client.logger) →
    ∃ lines : Array Log.Entry, (∀ entry ∈ lines, entry.logger ≠ Client.logger) ∧
      (w.play b (List.replicate (k + 1) (.start id))).2.env.log = w.env.log.push
        ⟨⟨.info, Client.logger, none⟩, Client.announcement r.config⟩ ++ lines

theorem Fresh.retried (hw : Fresh w id name given m) (hr : Client.resolve given = .ok r)
    (hb : b.Heedless) {k : Nat}
    (hfails : ∀ j < k, ∃ x, b.answer r.config.connection j w.env.store = .error x) {h : Handle}
    (hopens : b.answer r.config.connection k w.env.store = .ok h) :
    Retried b w id name given r m k h := by
  obtain ⟨env₀, past, past', hplay, hfirst, hasked⟩ := hw.attempts_ok hr hb hfails hopens
  have hwatched : Fresh (w.withUses []) id name given m := ⟨hw.member, hw.manager, hw.live⟩
  have hfails' : ∀ j < k, ∃ x,
      b.watched.answer r.config.connection j (w.withUses []).env.store = .error x := by
    intro j hj
    obtain ⟨x, hx⟩ := hfails j hj
    exact ⟨x, (b.answer_watched ..).trans hx⟩
  have hopens' : b.watched.answer r.config.connection k (w.withUses []).env.store = .ok h :=
    (b.answer_watched ..).trans hopens
  obtain ⟨env₁, past₁, -, hplay₁, -, hasked₁⟩ :=
    hwatched.attempts_ok hr hb.watched hfails' hopens'
  exact {
    failed := fun j hj => hw.attempts hr hb hfails hj
    reply := by rw [hplay, List.getLast?_concat]
    member := by
      rw [hplay]
      exact OrderedMap.get?_insert_self ..
    manager := by
      rw [hplay]
      exact OrderedMap.get?_insert_self ..
    transparent := by
      refine ⟨past, past', fun steps => ?_⟩
      rw [hplay, hfirst]
      exact ⟨_, _, play_after hb _ past steps, play_after hb _ past' steps⟩
    calls := by
      rw [hplay₁]
      have hstore := hasked₁.store
      have huses := b.asked_watched r.config.connection (k + 1) w.env.store
      exact congrArg Prod.snd (hstore.trans huses)
    announced := by
      intro hlogger
      obtain ⟨lines, hlog, hlines⟩ := hasked.log hlogger
      rw [hplay]
      exact ⟨lines, hlines, hlog⟩ }

/-- Starts of a new binding whose manager has no connection. If its properties resolve, all failures
to open a connection are as if they had never been once one is opened. If they do not, it fails over
them in every start, whatever happens in between, keeps no configuration, and makes no use of the
store. -/
theorem retry_transparent (hb : b.Heedless) (hw : Fresh w id name given m) :
    (∀ r, Client.resolve given = .ok r → ∀ k h,
      (∀ j < k, ∃ x, b.answer r.config.connection j w.env.store = .error x) →
      b.answer r.config.connection k w.env.store = .ok h → Retried b w id name given r m k h) ∧
    ∀ f, Client.resolve given = .error f →
      ∀ steps, (∀ manager properties, .create id manager properties ∉ steps) →
        (w.play b steps).2.client? id = some { properties := given } ∧
        ((w.play b steps).2.step b (.start id)).1 = .error (.failure f) ∧
        ((w.play b steps).2.step b (.start id)).2.env = (w.play b steps).2.env ∧
        ∀ uses, (((w.play b steps).2.withUses uses).step b.watched (.start id)).2.env.store.2 =
          uses := by
  refine ⟨fun r hr k h hfails hopens => hw.retried hr hb hfails hopens, ?_⟩
  intro f hf steps hsteps
  have hmember := play_keeps (b := b) hw.member hf hsteps
  refine ⟨?_, ?_, ?_, fun uses => ?_⟩
  · rw [client?, hmember]
    rfl
  · rw [step_start_of_error hmember hf]
  · rw [step_start_of_error hmember hf]
  · have hwatched : ((w.play b steps).2.withUses uses).members.get? id =
        some { client := { properties := given }, manager := name } := hmember
    rw [step_start_of_error hwatched hf]
    rfl

/-- A store that can be reached at the third request only. The first one fails, and the second one
is interrupted. -/
def late : Backend (Memory × List Usage) :=
  { Memory.backend.watched with
    connect := fun r e =>
      match e.store.2 with
      | [] =>
        (.error (.failure .notConnected), { e with store := (e.store.1, [.connect r]) })
      | [first] =>
        (.error (.interrupt ""), { e with store := (e.store.1, [first, .connect r]) })
      | _ => Memory.backend.watched.connect r e }

theorem heedless_late : late.Heedless where
  connect r past e := by
    have hthird := Memory.heedless.watched.connect r past e
    simp only [late, Env.store_after]
    match e.store.2 with
    | [] => rfl
    | [first] => rfl
    | first :: second :: rest => exact hthird
  close := Memory.heedless.watched.close

def arrival (given : RawProperties) : World (Memory × List Usage) :=
  (play late [.create "a" "m" given] { env := { store := ({}, []) } }).2

theorem fresh_arrival (given : RawProperties) : Fresh (arrival given) "a" "m" given {} :=
  ⟨OrderedMap.get?_insert_self .., rfl, rfl⟩

/-- The third start of one binding opens a connection, and another one fails over its timeout as
often as it is started. -/
theorem retry_transparent_late :
    late.Heedless ∧ Fresh (arrival ∅) "a" "m" ∅ {} ∧
    (∃ r, Client.resolve ∅ = .ok r ∧ Retried late (arrival ∅) "a" "m" ∅ r {} 2 0) ∧
    ((play late [.start "a", .stop "a"] (arrival Client.sluggish.properties)).2.step late
      (.start "a")).1 = .error (.failure (.duration (.overflow (.days 1000000000)))) := by
  obtain ⟨hopens, -⟩ := retry_transparent heedless_late (fresh_arrival ∅)
  obtain ⟨-, hrefused⟩ :=
    retry_transparent heedless_late (fresh_arrival Client.sluggish.properties)
  refine ⟨heedless_late, fresh_arrival ∅, ⟨_, rfl, hopens _ rfl 2 0 ?_ rfl⟩, ?_⟩
  · intro j hj
    match j with
    | 0 => exact ⟨_, rfl⟩
    | 1 => exact ⟨_, rfl⟩
  · have hresolve : Client.resolve Client.sluggish.properties =
        .error (.duration (.overflow (.days 1000000000))) := by
      have hconfig : Config.resolve Client.sluggish.properties = .ok Client.sluggishConfig := rfl
      have hoptions : Client.sluggishConfig.writeOptions = .error (.days 1000000000) := rfl
      simp only [Client.resolve, hconfig, hoptions]
    have hcreates : ∀ manager properties,
        Step.create "a" manager properties ∉ [Step.start "a", Step.stop "a"] := by simp
    exact (hrefused _ hresolve _ hcreates).2.1

end World

end StoreBinding
