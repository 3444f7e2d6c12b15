import StoreBinding.Proofs.Interchange
import StoreBinding.Proofs.Usage

/-!
The log is written and never read. A backend is heedless if opening and closing do behind an earlier
log what they do without it; the in-memory store and the cluster service are, and a heedless backend
stays so when it is watched. Main statement: over a heedless backend any steps lead to the same
replies and to the same world behind any earlier log.
-/
namespace StoreBinding

variable {σ : Type}

def Env.after (past : Array Log.Entry) (e : Env σ) : Env σ :=
  { store := e.store, log := past ++ e.log }

@[simp] theorem Env.store_after (past : Array Log.Entry) (e : Env σ) :
    (e.after past).store = e.store := rfl

theorem Env.note_after (past : Array Log.Entry) (e : Env σ) (level : Log.Level)
    (logger message : String) (trouble : Option String) :
    (e.after past).note level logger message trouble =
      (e.note level logger message trouble).after past := by
  simp only [note, after, Array.append_push]

/-- Opening and closing write to the log and never read it. -/
structure Backend.Heedless (b : Backend σ) : Prop where
  connect : ∀ r past e, b.connect r (e.after past) =
    ((b.connect r e).1, (b.connect r e).2.after past)
  close : ∀ h past e, b.close h (e.after past) = ((b.close h e).1, (b.close h e).2.after past)

theorem Memory.heedless : backend.Heedless where
  connect r past e := by
    simp only [backend, connect, Env.store_after]
    cases e.store.connectFault <;> rfl
  close h past e := by
    simp only [backend, close, Env.store_after]
    cases e.store.closeFault <;> rfl

theorem Cluster.noteEndpoints_after (r : ConnectionRequest) (past : Array Log.Entry)
    (e : Env Service) :
    noteEndpoints r (e.after past) = (noteEndpoints r e).map (Env.after past) := by
  unfold noteEndpoints
  split
  · rfl
  · cases r.kvEndpoints.shown with
    | error u => rfl
    | ok n => exact congrArg Except.ok (Env.note_after ..)

theorem Cluster.noteOpened_after (r : ConnectionRequest) (cluster : Handle)
    (past : Array Log.Entry) (e : Env Service) :
    noteOpened r cluster (e.after past) =
      ((noteOpened r cluster e).1, (noteOpened r cluster e).2.after past) := by
  unfold noteOpened
  cases r.place with
  | error u => rfl
  | ok place => exact congrArg (Prod.mk _) (Env.note_after ..)

theorem Cluster.heedless : backend.Heedless where
  connect r past e := by
    simp only [backend, connect, noteEndpoints_after]
    cases access r with
    | error f => rfl
    | ok access =>
      cases noteEndpoints r e with
      | error f => rfl
      | ok e =>
        cases addressOf r.host with
        | error f => rfl
        | ok address =>
          simp only [Except.map, Env.store_after]
          rcases openWith address access r e.store with ⟨h | cluster, s⟩
          · rfl
          · exact noteOpened_after r cluster past { e with store := s }
  close h past e := rfl

theorem Backend.watchEnv_after {α : Type} {act : Act (Env σ) α}
    (hact : ∀ past e, act (e.after past) = ((act e).1, (act e).2.after past)) (u : Usage)
    (past : Array Log.Entry) (e : Env (σ × List Usage)) :
    watchEnv u act (e.after past) =
      ((watchEnv u act e).1, (watchEnv u act e).2.after past) :=
  congrArg (fun y : Except Halt α × Env σ =>
    (y.1, ({ store := (y.2.store, e.store.2 ++ [u]), log := y.2.log } : Env (σ × List Usage))))
    (hact past { store := e.store.1, log := e.log })

namespace Backend.Heedless

variable {b : Backend σ} (hb : b.Heedless) {m : Manager}

include hb

theorem watched : b.watched.Heedless where
  connect r := watchEnv_after (hb.connect r) _
  close h := watchEnv_after (hb.close h) _

theorem acquire (r : ConnectionRequest) (past : Array Log.Entry) (e : Env σ) :
    m.acquire b r (e.after past) =
      ((m.acquire b r e).1, (m.acquire b r e).2.1, (m.acquire b r e).2.2.after past) := by
  unfold Manager.acquire
  cases m.live with
  | some h => rfl
  | none =>
    cases r.place with
    | error u => rfl
    | ok place =>
      dsimp only
      rw [Env.note_after, hb.connect]
      rcases b.connect r _ with ⟨(t | f) | h, e'⟩
      · rfl
      · dsimp only
        rw [Env.note_after]
      · dsimp only
        rw [Env.note_after]

theorem release (past : Array Log.Entry) (e : Env σ) :
    m.release b (e.after past) =
      ((m.release b e).1, (m.release b e).2.1, (m.release b e).2.2.after past) := by
  unfold Manager.release
  cases m.live with
  | none => rfl
  | some h =>
    dsimp only
    split
    · rw [Env.note_after]
    · rw [hb.close]
      rcases b.close h e with ⟨(t | f) | u, e'⟩
      · rfl
      · dsimp only
        rw [Env.note_after]
      · dsimp only
        rw [Env.note_after]

end Backend.Heedless

namespace Client

variable (c : Client) (m : Manager) (past : Array Log.Entry) (e : Env σ)

theorem prepare_after :
    c.prepare (e.after past) =
      ((c.prepare e).1, (c.prepare e).2.1, (c.prepare e).2.2.after past) := by
  unfold prepare
  cases c.resolved with
  | some r => rfl
  | none =>
    cases resolve c.properties with
    | error f => rfl
    | ok r =>
      dsimp only
      rw [Env.note_after]

variable {b : Backend σ} (hb : b.Heedless)

include hb

theorem start_after :
    c.start b m (e.after past) =
      ((c.start b m e).1, (c.start b m e).2.1, (c.start b m e).2.2.1,
        (c.start b m e).2.2.2.after past) := by
  unfold start
  rw [prepare_after]
  rcases c.prepare e with ⟨h | r, c', e'⟩
  · rfl
  · dsimp only
    split
    · rfl
    · rw [hb.acquire]
      rcases m.acquire b _ e' with ⟨h | h, m', e''⟩ <;> rfl

theorem stop_after :
    c.stop b m (e.after past) =
      ((c.stop b m e).1, (c.stop b m e).2.1, (c.stop b m e).2.2.1,
        (c.stop b m e).2.2.2.after past) := by
  unfold stop
  split
  · rw [hb.release]
  · rfl

end Client

namespace World

def after (past : Array Log.Entry) (w : World σ) : World σ := { w with env := w.env.after past }

variable {b : Backend σ} (hb : b.Heedless) (w : World σ) (past : Array Log.Entry)

theorem renew_after {id : String} {m : Member}
    {change : Client → Manager → Env σ → Except Halt Unit × Client × Manager × Env σ}
    (hchange : ∀ c g e, change c g (e.after past) =
      ((change c g e).1, (change c g e).2.1, (change c g e).2.2.1,
        (change c g e).2.2.2.after past)) :
    (w.after past).renew id m change =
      ((w.renew id m change).1, (w.renew id m change).2.after past) := by
  simp only [renew, after, hchange]

theorem manage_after {α : Type} {name : String} {reply : α → Reply}
    {change : Manager → Env σ → Except Halt α × Manager × Env σ}
    (hchange : ∀ g e, change g (e.after past) =
      ((change g e).1, (change g e).2.1, (change g e).2.2.after past)) :
    (w.after past).manage name reply change =
      ((w.manage name reply change).1, (w.manage name reply change).2.after past) := by
  simp only [manage, after, hchange]

include hb

theorem step_after (s : Step) :
    (w.after past).step b s = ((w.step b s).1, (w.step b s).2.after past) := by
  have hmembers : (w.after past).members = w.members := rfl
  cases s with
  | create id manager properties => rfl
  | start id =>
    simp only [step, hmembers]
    cases w.members.get? id with
    | none => rfl
    | some m => exact renew_after w past fun c g e => c.start_after g past e hb
  | stop id =>
    simp only [step, hmembers]
    cases w.members.get? id with
    | none => rfl
    | some m => exact renew_after w past fun c g e => c.stop_after g past e hb
  | read id | insert id | update id | delete id | scan id =>
    -- operations do not even see the log
    simp only [step, hmembers]
    cases w.members.get? id <;> rfl
  | acquire name r => exact manage_after w past fun g e => hb.acquire r past e
  | release name => exact manage_after w past fun g e => hb.release past e
  | connection name => rfl

/-- Steps behind an earlier log: no reply depends on it, and it stays as it is. -/
theorem play_after (steps : List Step) :
    (w.after past).play b steps = ((w.play b steps).1, (w.play b steps).2.after past) := by
  induction steps generalizing w with
  | nil => rfl
  | cons s rest ih => simp only [play, step_after hb, ih]

end World

end StoreBinding
