import Cryptoki.Proofs.Session.Asking

/-!
How an action that asks the module ends, goes on with, or starts an operation.
-/
namespace Cryptoki

variable {σ α β : Type} {M : Module σ}

namespace Session

theorem setOperation_setOperation (s : Session) (k : OperationKind) (a b : Operation) :
    (s.setOperation k a).setOperation k b = s.setOperation k b := by
  simp only [setOperation, mk.injEq, true_and]
  funext j
  split <;> simp_all

theorem setOperation_self (s : Session) (k : OperationKind) :
    s.setOperation k (s.operation k) = s := by
  have same : (fun j => if j = k then s.operation k else s.operation j) = s.operation := by
    funext j
    split <;> simp_all
  rw [setOperation, same]

theorem operation_setOperation (s : Session) (k : OperationKind) (op : Operation) :
    (s.setOperation k op).operation k = op := if_pos rfl

theorem operation_setOperation_of_ne (s : Session) {j k : OperationKind} (op : Operation)
    (other : j ≠ k) : (s.setOperation k op).operation j = s.operation j := if_neg other

end Session

namespace SessionM

variable {s : Session} {k : OperationKind} {act : SessionM σ α}

theorem does_finishing (asks : Asks M act) :
    Does M (finishing k act) s fun xs r s' =>
      xs ≠ [] ∧ Relays xs r ∧ s' = s.setOperation k .idle := by
  refine asks.outcome_bind fun xs r reached relays => ?_
  refine quiet_setState.bind (does_ofResult ?_)
  rw [List.append_nil]
  exact ⟨reached, relays, rfl⟩

theorem does_updating (asks : Asks M act) :
    Does M (updating k act) s fun xs r s' =>
      xs ≠ [] ∧ Relays xs r ∧
        s' = s.setOperation k (inState (s.operation k) (if r.isOk then .updated else .idle)) := by
  refine asks.outcome_bind fun xs r reached relays => ?_
  cases r with
  | ok a =>
    refine quiet_setState.bind (does_pure ?_)
    rw [List.append_nil]
    exact ⟨reached, relays, rfl⟩
  | error e =>
    refine quiet_setState.bind (does_ofResult (r := .error e) ?_)
    rw [List.append_nil]
    exact ⟨reached, relays, rfl⟩

theorem does_starting {m : Mechanism} {q : Handle → MechanismBlock → Request .done}
    (cleared : s.operation k = .idle) :
    Does M (starting M k m q) s fun xs r s' =>
      xs ≠ [] ∧ Relays xs r ∧ s' = s.setOperation k
        (if r.isOk then ⟨.initialized, m.code, protocol m.code k⟩ else .idle) := by
  have accepted : s.checkStart k = .ok () := by simp [Session.checkStart, cleared, Operation.idle]
  have accept : Does M (do
      ask M (q s.handle m.layOut.2)
      modify fun s => s.setOperation k
        { s.operation k with mechanism := m.code, protocol := protocol m.code k }
      setState k .initialized) s fun xs r s' =>
        xs ≠ [] ∧ Relays xs r ∧ s' = s.setOperation k
          (if r.isOk then ⟨.initialized, m.code, protocol m.code k⟩ else .idle) := by
    refine (asks_ask _ s).bind ?_ ?_
    · intro xs _ s' holds
      obtain ⟨reached, relays, rfl⟩ := holds
      refine quiet_modify.bind (quiet_setState.does ?_)
      rw [List.append_nil]
      refine ⟨reached, relays, ?_⟩
      rw [Session.setOperation_setOperation, Session.operation_setOperation]
      rfl
    · intro xs e s' holds
      obtain ⟨reached, relays, rfl⟩ := holds
      refine ⟨reached, relays, ?_⟩
      exact (cleared ▸ Session.setOperation_self s' k).symm
  unfold starting
  apply quiet_get.bind
  rw [accepted]
  apply quiet_ofResult.bind
  by_cases unknown : protocol m.code k = .notSupported
  · simp only [if_pos unknown]
    exact quiet_tell.bind (quiet_ownHandle.bind accept)
  · simp only [if_neg unknown]
    exact quiet_ownHandle.bind accept

end SessionM

end Cryptoki
