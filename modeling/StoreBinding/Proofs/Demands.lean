import Mathlib.Data.List.Induction
import StoreBinding.Memory
import StoreBinding.Proofs.Usage

/-!
Demands on a manager, in any order and without balance. Whatever opening and closing come to, the
count of a manager is that of the acquisitions with success less that of the releases, which never
take it below zero, and the manager has a connection exactly when the count is positive. Main
statement: in every run a connection is asked for exactly when there is none, and closed exactly
when the count goes from one to zero, and the manager is then as it was before the first demand.
-/
namespace StoreBinding

variable {σ : Type} {b : Backend σ}

namespace Manager

/-- Acquiring shares the live connection, opens one, or fails and leaves the manager alone. -/
theorem acquire_cases (r : ConnectionRequest) (m : Manager) (e : Env σ) :
    (∃ h, m.live = some h ∧ m.acquire b r e = (.ok h, { m with refs := m.refs + 1 }, e)) ∨
    (m.live = none ∧ ∃ h e',
      m.acquire b r e = (.ok h, { live := some h, refs := m.refs + 1 }, e')) ∨
    (m.live = none ∧ ∃ x e', m.acquire b r e = (.error x, m, e')) := by
  unfold acquire
  cases hlive : m.live with
  | some h => exact Or.inl ⟨h, rfl, rfl⟩
  | none =>
    right
    dsimp only
    cases r.place with
    | error u => exact Or.inr ⟨rfl, _, _, rfl⟩
    | ok place =>
      dsimp only
      rcases b.connect r _ with ⟨(t | f) | h, e'⟩
      · exact Or.inr ⟨rfl, _, _, rfl⟩
      · exact Or.inr ⟨rfl, _, _, rfl⟩
      · exact Or.inl ⟨rfl, _, _, rfl⟩

def announced (p : Params) (e : Env σ) : Env σ :=
  e.note .info logger s!"Connecting to {p.host} (bucket {p.bucket})"

theorem acquire_of_live {m : Manager} {h : Handle} (hlive : m.live = some h) (r : ConnectionRequest)
    (e : Env σ) : m.acquire b r e = (.ok h, { m with refs := m.refs + 1 }, e) := by
  rw [acquire, hlive]

theorem acquire_of_opened {m : Manager} (hlive : m.live = none) {p : Params} {h : Handle}
    {e e' : Env σ} (hconnect : b.connect p.request (announced p e) = (.ok h, e')) :
    m.acquire b p.request e =
      (.ok h, { live := some h, refs := m.refs + 1 },
        e'.note .info logger "Connection established") := by
  simp only [announced] at hconnect
  simp only [acquire, hlive, ConnectionRequest.place_request, hconnect]

theorem acquire_of_failure {m : Manager} (hlive : m.live = none) {p : Params} {f : Failure}
    {e e' : Env σ} (hconnect : b.connect p.request (announced p e) = (.error (.failure f), e')) :
    m.acquire b p.request e =
      (.error (.failure (.unreachable p.host f)), m,
        e'.note .error logger s!"Failed to connect to {p.host}: {f.message}") := by
  simp only [announced] at hconnect
  simp only [acquire, hlive, ConnectionRequest.place_request, hconnect]

theorem acquire_of_interrupt {m : Manager} (hlive : m.live = none) {p : Params} {t : String}
    {e e' : Env σ} (hconnect : b.connect p.request (announced p e) = (.error (.interrupt t), e')) :
    m.acquire b p.request e = (.error (.interrupt t), m, e') := by
  simp only [announced] at hconnect
  simp only [acquire, hlive, ConnectionRequest.place_request, hconnect]

/-- Releasing does nothing without a connection, drops one reference of many, or closes the
connection and resets the manager. No failure comes out of it. -/
theorem release_cases (m : Manager) (e : Env σ) :
    (m.live = none ∧ m.release b e = (.ok (), m, e)) ∨
    (∃ h e', m.live = some h ∧ 1 < m.refs ∧
      m.release b e = (.ok (), { m with refs := m.refs - 1 }, e')) ∨
    (∃ h x e', m.live = some h ∧ m.refs ≤ 1 ∧ (∀ f, x ≠ .error (.failure f)) ∧
      m.release b e = (x, {}, e')) := by
  unfold release
  cases hlive : m.live with
  | none => exact Or.inl ⟨rfl, rfl⟩
  | some h =>
    right
    dsimp only
    by_cases more : 1 < m.refs
    · rw [if_pos (Nat.sub_pos_of_lt more)]
      exact Or.inl ⟨h, _, rfl, more, rfl⟩
    · have hlast : ¬ 0 < m.refs - 1 := by omega
      rw [if_neg hlast]
      have hle : m.refs ≤ 1 := Nat.le_of_not_lt more
      rcases b.close h e with ⟨(t | f) | u, e'⟩
      · exact Or.inr ⟨h, .error (.interrupt t), _, rfl, hle, nofun, rfl⟩
      · exact Or.inr ⟨h, .ok (), _, rfl, hle, nofun, rfl⟩
      · exact Or.inr ⟨h, .ok (), _, rfl, hle, nofun, rfl⟩

end Manager

inductive Demand
  | acquire (r : ConnectionRequest)
  | release

/-- A demand that was dealt with: whether there was a connection when it came, and the answer, which
holds the connection if one was acquired. -/
structure Dealing where
  demand : Demand
  connected : Bool
  answer : Except Halt (Option Handle)

namespace Dealing

/-- One for each acquisition with success, less one for each release, and never below zero. The
newest comes first. -/
def balance : List Dealing → Nat
  | [] => 0
  | ⟨.acquire _, _, .ok _⟩ :: before => balance before + 1
  | ⟨.acquire _, _, .error _⟩ :: before => balance before
  | ⟨.release, _, _⟩ :: before => balance before - 1

def opening? : List Dealing → Option (ConnectionRequest × Handle)
  | [] => none
  | ⟨.acquire r, false, .ok (some h)⟩ :: _ => some (r, h)
  | _ :: before => opening? before

end Dealing

structure Session (σ : Type) where
  manager : Manager := {}
  env : Env σ
  dealings : List Dealing := []

namespace Session

def deal (b : Backend σ) (s : Session σ) (d : Demand) : Session σ :=
  match d with
  | .acquire r =>
    match s.manager.acquire b r s.env with
    | (x, manager, env) =>
      { manager, env, dealings := ⟨d, s.manager.isConnected, x.map some⟩ :: s.dealings }
  | .release =>
    match s.manager.release b s.env with
    | (x, manager, env) =>
      { manager, env, dealings := ⟨d, s.manager.isConnected, x.map fun _ => none⟩ :: s.dealings }

theorem deal_acquire {s : Session σ} {r : ConnectionRequest} {x : Except Halt Handle}
    {manager : Manager} {env : Env σ} (h : s.manager.acquire b r s.env = (x, manager, env)) :
    s.deal b (.acquire r) = { manager, env, dealings :=
      ⟨.acquire r, s.manager.isConnected, x.map some⟩ :: s.dealings } := by
  rw [deal, h]

theorem deal_release {s : Session σ} {x : Except Halt Unit} {manager : Manager} {env : Env σ}
    (h : s.manager.release b s.env = (x, manager, env)) :
    s.deal b .release = { manager, env, dealings :=
      ⟨.release, s.manager.isConnected, x.map fun _ => none⟩ :: s.dealings } := by
  rw [deal, h]

def run (b : Backend σ) (demands : List Demand) (e : Env σ) : Session σ :=
  demands.foldl (deal b) { env := e }

def uses (b : Backend σ) (demands : List Demand) (e : Env σ) : List Usage :=
  (run b.watched demands (e.withUses [])).env.store.2

def answer? (s : Session σ) : Option (Except Halt (Option Handle)) :=
  s.dealings.head?.map Dealing.answer

theorem run_concat (demands : List Demand) (d : Demand) (e : Env σ) :
    run b (demands ++ [d]) e = (run b demands e).deal b d := by
  rw [run, List.foldl_append]
  rfl

def withUses (s : Session σ) (uses : List Usage) : Session (σ × List Usage) :=
  { manager := s.manager, env := s.env.withUses uses, dealings := s.dealings }

def calls (m : Manager) : Demand → List Usage
  | .acquire r => m.opens r
  | .release => m.closes

theorem deal_watched (s : Session σ) (d : Demand) (uses : List Usage) :
    (s.withUses uses).deal b.watched d = (s.deal b d).withUses (uses ++ calls s.manager d) := by
  cases d with
  | acquire r =>
    simp only [deal, withUses, Manager.acquire_watched]
    rfl
  | release =>
    simp only [deal, withUses, Manager.release_watched]
    rfl

/-- Watching changes nothing in a run. -/
theorem run_watched (demands : List Demand) (e : Env σ) :
    run b.watched demands (e.withUses []) = (run b demands e).withUses (uses b demands e) := by
  induction demands using List.reverseRecOn with
  | nil => rfl
  | append_singleton demands d ih =>
    rw [uses, run_concat, run_concat, ih, deal_watched]
    rfl

theorem uses_concat (demands : List Demand) (d : Demand) (e : Env σ) :
    uses b (demands ++ [d]) e = uses b demands e ++ calls (run b demands e).manager d := by
  rw [uses, run_concat, run_watched, deal_watched]
  rfl

/-- What holds of a manager after every demand: the count is the balance of all demands, a
connection is there exactly when the count is positive, and it is the one that was opened last, by
an acquisition that found none. -/
structure Consistent (s : Session σ) : Prop where
  refs : s.manager.refs = Dealing.balance s.dealings
  connected : s.manager.isConnected = true ↔ 0 < s.manager.refs
  live : ∀ h, s.manager.live = some h → ∃ r, Dealing.opening? s.dealings = some (r, h)

theorem consistent_run_nil (e : Env σ) : Consistent (run b [] e) where
  refs := rfl
  connected := by simp [run, Manager.isConnected]
  live := nofun

theorem Consistent.acquire {s : Session σ} (hs : Consistent s) (r : ConnectionRequest) :
    Consistent (s.deal b (.acquire r)) := by
  rcases Manager.acquire_cases (b := b) r s.manager s.env with
    ⟨h, hlive, heq⟩ | ⟨hlive, h, e', heq⟩ | ⟨hlive, x, e', heq⟩
  · have hconnected : s.manager.isConnected = true := by rw [Manager.isConnected, hlive]; rfl
    rw [deal_acquire heq, hconnected]
    exact {
      refs := congrArg (· + 1) hs.refs
      connected := ⟨fun _ => Nat.succ_pos _, fun _ => hconnected⟩
      live := hs.live }
  · have hconnected : s.manager.isConnected = false := by rw [Manager.isConnected, hlive]; rfl
    rw [deal_acquire heq, hconnected]
    exact {
      refs := congrArg (· + 1) hs.refs
      connected := ⟨fun _ => Nat.succ_pos _, fun _ => rfl⟩
      live := by
        intro k hk
        have hkh : h = k := Option.some.inj hk
        exact ⟨r, by rw [← hkh]; rfl⟩ }
  · rw [deal_acquire heq]
    exact {
      refs := hs.refs
      connected := hs.connected
      live := by
        intro k hk
        have habsent : s.manager.live = some k := hk
        rw [hlive] at habsent
        contradiction }

theorem Consistent.refs_eq_zero {s : Session σ} (hs : Consistent s)
    (hlive : s.manager.live = none) : s.manager.refs = 0 := by
  have hconnected := hs.connected
  rw [Manager.isConnected, hlive] at hconnected
  simpa using hconnected

theorem Consistent.refs_positive {s : Session σ} (hs : Consistent s) {h : Handle}
    (hlive : s.manager.live = some h) : 0 < s.manager.refs := by
  have hconnected := hs.connected
  rw [Manager.isConnected, hlive] at hconnected
  exact hconnected.1 rfl

theorem Consistent.release {s : Session σ} (hs : Consistent s) :
    Consistent (s.deal b .release) := by
  have hbalance : Dealing.balance s.dealings = s.manager.refs := hs.refs.symm
  rcases Manager.release_cases (b := b) s.manager s.env with
    ⟨hlive, heq⟩ | ⟨h, e', hlive, hrefs, heq⟩ | ⟨h, x, e', hlive, hrefs, hx, heq⟩
  · rw [deal_release heq]
    exact {
      refs := by rw [Dealing.balance, hbalance, hs.refs_eq_zero hlive]
      connected := hs.connected
      live := hs.live }
  · rw [deal_release heq]
    exact {
      refs := by rw [Dealing.balance, hbalance]
      connected := by
        rw [Manager.isConnected, hlive]
        exact ⟨fun _ => Nat.sub_pos_of_lt hrefs, fun _ => rfl⟩
      live := hs.live }
  · rw [deal_release heq]
    exact {
      refs := by
        rw [Dealing.balance, hbalance]
        exact (Nat.sub_eq_zero_of_le hrefs).symm
      connected := by simp [Manager.isConnected]
      live := nofun }

/-- Induction from the last demand on, each of which keeps what holds. -/
theorem consistent_run (demands : List Demand) (e : Env σ) : Consistent (run b demands e) := by
  induction demands using List.reverseRecOn with
  | nil => exact consistent_run_nil e
  | append_singleton demands d ih =>
    rw [run_concat]
    cases d with
    | acquire r => exact ih.acquire r
    | release => exact ih.release

structure Acquires (b : Backend σ) (p : Params) (before after : Session σ) : Prop where
  failed : ∀ x, after.answer? = some (.error x) → after.manager = before.manager
  returned : ∀ c, after.answer? = some (.ok c) →
    c = after.manager.live ∧ after.manager.isConnected = true
  shared : ∀ h, before.manager.live = some h → after.manager.live = some h
  opened : before.manager.live = none → ∀ h, after.manager.live = some h ↔
    (b.connect p.request (Manager.announced p before.env)).1 = .ok h

structure Releases (before after : Session σ) : Prop where
  last : before.manager.refs = 1 → after.manager = {}
  other : before.manager.refs ≠ 1 → after.manager.live = before.manager.live
  quiet : ∀ f, after.answer? ≠ some (.error (.failure f))

theorem acquires_of_error {p : Params} {s : Session σ} {x y : Halt} {env : Env σ}
    (hlive : s.manager.live = none)
    (hconnect : (b.connect p.request (Manager.announced p s.env)).1 = .error y)
    (h : s.manager.acquire b p.request s.env = (.error x, s.manager, env)) :
    Acquires b p s (s.deal b (.acquire p.request)) := by
  rw [deal_acquire h]
  exact {
    failed := fun _ _ => rfl
    returned := nofun
    shared := fun _ hk => hk
    opened := by
      intro _ k
      rw [hconnect, hlive]
      exact ⟨nofun, nofun⟩ }

theorem acquires (p : Params) (s : Session σ) :
    Acquires b p s (s.deal b (.acquire p.request)) := by
  cases hlive : s.manager.live with
  | some k =>
    rw [deal_acquire (Manager.acquire_of_live hlive p.request s.env)]
    exact {
      failed := nofun
      returned := by
        intro c hc
        have hck : some k = c := Except.ok.inj (Option.some.inj hc)
        rw [Manager.isConnected, hlive, ← hck]
        exact ⟨rfl, rfl⟩
      shared := fun _ hk => hk
      opened := by
        intro habsent
        rw [hlive] at habsent
        contradiction }
  | none =>
    cases hconnect : b.connect p.request (Manager.announced p s.env) with
    | mk x env =>
      have hanswer := congrArg Prod.fst hconnect
      rcases x with (t | f) | h
      · exact acquires_of_error hlive hanswer (Manager.acquire_of_interrupt hlive hconnect)
      · exact acquires_of_error hlive hanswer (Manager.acquire_of_failure hlive hconnect)
      · rw [deal_acquire (Manager.acquire_of_opened hlive hconnect)]
        exact {
          failed := nofun
          returned := by
            intro c hc
            have hch : some h = c := Except.ok.inj (Option.some.inj hc)
            exact ⟨hch.symm, rfl⟩
          shared := by
            intro k hk
            rw [hlive] at hk
            contradiction
          opened := by
            intro _ k
            rw [hanswer]
            exact ⟨fun hk => congrArg _ (Option.some.inj hk),
              fun hk => congrArg _ (Except.ok.inj hk)⟩ }

theorem Consistent.releases {s : Session σ} (hs : Consistent s) :
    Releases s (s.deal b .release) := by
  rcases Manager.release_cases (b := b) s.manager s.env with
    ⟨hlive, heq⟩ | ⟨h, e', hlive, hrefs, heq⟩ | ⟨h, x, e', hlive, hrefs, hx, heq⟩
  · have hzero := hs.refs_eq_zero hlive
    rw [deal_release heq]
    exact {
      last := by
        intro h
        omega
      other := fun _ => rfl
      quiet := nofun }
  · rw [deal_release heq]
    exact {
      last := by
        intro h
        omega
      other := fun _ => rfl
      quiet := nofun }
  · have hpositive := hs.refs_positive hlive
    rw [deal_release heq]
    exact {
      last := fun _ => rfl
      other := by
        intro h
        omega
      quiet := by
        intro f hf
        cases x with
        | ok u => cases hf
        | error t => exact hx f (congrArg _ (Except.error.inj (Option.some.inj hf))) }

theorem calls_acquire (p : Params) (s : Session σ) :
    calls s.manager (.acquire p.request) =
      if s.manager.isConnected then [] else [.connect p.request] := by
  rw [calls, Manager.opens, Manager.isConnected, ConnectionRequest.place_request]
  cases s.manager.live with
  | none => rfl
  | some h => rfl

theorem Consistent.calls_release {s : Session σ} (hs : Consistent s) :
    (s.manager.refs = 1 → ∃ h, s.manager.live = some h ∧ calls s.manager .release = [.close h]) ∧
    (s.manager.refs ≠ 1 → calls s.manager .release = []) := by
  rw [calls, Manager.closes]
  cases hlive : s.manager.live with
  | none =>
    have hzero := hs.refs_eq_zero hlive
    exact ⟨fun hone => absurd hzero (by omega), fun _ => rfl⟩
  | some h =>
    have hpositive := hs.refs_positive hlive
    dsimp only
    by_cases hone : s.manager.refs = 1
    · have hlast : ¬ 1 < s.manager.refs := by omega
      exact ⟨fun _ => ⟨h, rfl, if_neg hlast⟩, fun hother => absurd hone hother⟩
    · have hmore : 1 < s.manager.refs := by omega
      exact ⟨fun hlast => absurd hlast hone, fun _ => if_pos hmore⟩

/-- Whatever demands came before, the session is consistent, acquiring asks for a connection exactly
when there is none, and releasing closes the live one exactly when it drops the last reference. -/
theorem run_served (b : Backend σ) (demands : List Demand) (e : Env σ) :
    Consistent (run b demands e) ∧
    (∀ p : Params,
      Acquires b p (run b demands e) (run b (demands ++ [.acquire p.request]) e) ∧
      uses b (demands ++ [.acquire p.request]) e = uses b demands e ++
        if (run b demands e).manager.isConnected then [] else [.connect p.request]) ∧
    Releases (run b demands e) (run b (demands ++ [.release]) e) ∧
    ((run b demands e).manager.refs = 1 → ∃ h, (run b demands e).manager.live = some h ∧
      uses b (demands ++ [.release]) e = uses b demands e ++ [.close h]) ∧
    ((run b demands e).manager.refs ≠ 1 → uses b (demands ++ [.release]) e = uses b demands e) := by
  have hs : Consistent (run b demands e) := consistent_run demands e
  obtain ⟨hlast, hother⟩ := hs.calls_release
  refine ⟨hs, ?_, ?_, ?_, ?_⟩
  · intro p
    rw [run_concat, uses_concat, calls_acquire]
    exact ⟨acquires p _, rfl⟩
  · rw [run_concat]
    exact hs.releases
  · intro hone
    obtain ⟨h, hlive, hcalls⟩ := hlast hone
    rw [uses_concat, hcalls]
    exact ⟨h, hlive, rfl⟩
  · intro hone
    rw [uses_concat, hother hone, List.append_nil]

def unbalanced : List Demand :=
  [.release, .acquire ({ host := "near" } : Params).request,
    .acquire ({ host := "far" } : Params).request, .release]

/-- With a release too many before it, a shared connection is still closed by the last of its
releases. -/
theorem run_served_unbalanced :
    (run Memory.backend unbalanced { store := {} }).manager.refs = 1 ∧
    ∃ h, (run Memory.backend unbalanced { store := {} }).manager.live = some h ∧
      uses Memory.backend (unbalanced ++ [.release]) { store := {} } =
        [.connect ({ host := "near" } : Params).request, .close h] := by
  have hone : (run Memory.backend unbalanced { store := {} }).manager.refs = 1 := rfl
  obtain ⟨-, -, -, hlast, -⟩ := run_served Memory.backend unbalanced { store := {} }
  obtain ⟨h, hlive, huses⟩ := hlast hone
  exact ⟨hone, h, hlive, huses⟩

/-- A release too many does nothing, and a close that is interrupted resets the manager: the next
acquisition opens another connection. -/
example :
    let near : Params := { host := "near" }
    let far : Params := { host := "far" }
    uses Memory.backend
      [.release, .acquire near.request, .acquire far.request, .release, .release,
        .acquire far.request]
      { store := { closeFault := some (.interrupt "") } } =
    [.connect near.request, .close 0, .connect far.request] := rfl

end Session

end StoreBinding
