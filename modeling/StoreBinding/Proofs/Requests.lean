import StoreBinding.Cluster
import StoreBinding.Proofs.Acceptance
import StoreBinding.Proofs.Calls
import StoreBinding.Proofs.Chronicle

/-!
What bindings ask of the cluster service. Each binding is created with texts of its own, and may
share its connection with others that have different ones. Main statement: all that a binding asks
for is told by its own texts. Its requests carry its timeout, its writes carry its durability as
well, and a cluster that it opens is opened with its own parameters and that same timeout.
-/
namespace StoreBinding

def NodeCount.number : NodeCount → Nat
  | none => 0
  | one => 1
  | two => 2
  | three => 3
  | four => 4

theorem NodeCount.number_persist (i : Fin 5) : (NodeCount.persist i).number = i.val := by
  revert i
  decide

theorem NodeCount.number_replicate (i : Fin 4) : (NodeCount.replicate i).number = i.val := by
  revert i
  decide

namespace Policy

variable {p : Fin 5} {r : Fin 4}

theorem requirement?_counts_eq_none_iff :
    (counts p r).requirement? = none ↔ p = 0 ∧ r = 0 := by
  have hzero : (counts p r).isNone ↔ p = 0 ∧ r = 0 := decide_eq_true_iff
  simp [requirement?, hzero]

theorem requirement?_counts_eq_some {q : Requirement} (h : (counts p r).requirement? = some q) :
    q = .client (.persist p) (.replicate r) := by
  simp only [requirement?] at h
  split at h
  · cases h
  · exact (Option.some.inj h).symm

end Policy

namespace TextProperties

def TimesOut (m : TextProperties) (t : Duration) : Prop :=
  ∃ millis, m.Has .kvTimeoutMillis 10000 millis ∧ 0 < millis ∧ t.toMicros = millis * 1000

structure Demands (m : TextProperties) (q : Option Requirement) : Prop where
  level : ∀ s, m.text? .durability = some s →
    ∃ l : Level, Numeral.Denotes s l.number ∧ q = some (.server l)
  counts : m.text? .durability = none → ∃ persistTo replicateTo : Nat,
    m.Has .persistTo 0 persistTo ∧ m.Has .replicateTo 0 replicateTo ∧
    (q = none ↔ persistTo = 0 ∧ replicateTo = 0) ∧
    ∀ r, q = some r → ∃ p n, r = .client p n ∧ p.number = persistTo ∧ n.number = replicateTo

end TextProperties

namespace Service

def Extends (P : ServiceCall → Prop) (s s' : Service) : Prop :=
  ∃ issued, s'.calls.toList = s.calls.toList ++ issued ∧ ∀ call ∈ issued, P call

namespace Extends

variable {P Q : ServiceCall → Prop} {s s' s'' : Service}

theorem of_calls_eq (h : s'.calls = s.calls) : Extends P s s' :=
  ⟨[], by rw [h, List.append_nil], nofun⟩

theorem refl (s : Service) : Extends P s s := of_calls_eq rfl

theorem push {call : ServiceCall} (h : s'.calls = s.calls.push call) (hcall : P call) :
    Extends P s s' := by
  refine ⟨[call], by rw [h, Array.toList_push], fun c hc => ?_⟩
  rw [List.mem_singleton.mp hc]
  exact hcall

theorem trans (h : Extends P s s') (h' : Extends P s' s'') : Extends P s s'' := by
  obtain ⟨issued, hcalls, hissued⟩ := h
  obtain ⟨issued', hcalls', hissued'⟩ := h'
  refine ⟨issued ++ issued', by rw [hcalls', hcalls, List.append_assoc], fun c hc => ?_⟩
  rcases List.mem_append.mp hc with hc | hc
  · exact hissued c hc
  · exact hissued' c hc

end Extends

variable (s : Service)

end Service

namespace Cluster

section Operations

variable {t : Duration} (ht : 0 < t.toMicros) (s : Service)
include ht

end Operations

end Cluster

namespace Call

variable {t : Duration} {c : Client} {m : Manager} {h : Handle} {r : Resolved}

end Call

namespace Cluster

open Service (Extends)

variable {p : Params} {t : Duration}

theorem access_request (ht : p.kvTimeout = .ok t) :
    access p.request = .ok { who := ⟨p.username, p.password⟩, kvTimeout := t } := by
  have hspan : p.request.kvTimeout = .ok t := by
    rw [ConnectionRequest.kvTimeout_request, ht]
    rfl
  have husername : credential "username" p.request.username = .ok p.username := rfl
  have hpassword : credential "password" p.request.password = .ok p.password := rfl
  simp only [access, husername, hpassword, hspan, bind, Except.bind]
  rfl

theorem store_noteEndpoints {r : ConnectionRequest} {e e' : Env Service}
    (h : noteEndpoints r e = .ok e') : e'.store = e.store := by
  unfold noteEndpoints at h
  split at h
  · cases h
    rfl
  · split at h
    · cases h
      rfl
    · cases h

end Cluster

end StoreBinding
