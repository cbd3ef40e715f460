import Cryptoki.Proofs.Session.Ledger
import Cryptoki.Proofs.Session.Operation

/-!
What each call does: refused, it fails with nothing asked; accepted, it asks the module, and leaves
its operation as its role has it.
-/
namespace Cryptoki

variable {σ α : Type} {M : Module σ}

namespace Session

def check (s : Session) (k : OperationKind) : Role → Result Unit
  | .start | .whole => s.checkStart k
  | .oneShot => s.checkOneShot k
  | .update => s.checkUpdate k
  | .final => s.checkFinal k

def Role.next (started op : Operation) : Role → Bool → Operation
  | .start, succeeded => if succeeded then started else .idle
  | .update, succeeded => SessionM.inState op (if succeeded then .updated else .idle)
  | .oneShot, _ | .final, _ | .whole, _ => .idle

def Call.started : Call → Operation
  | .init k m _ => ⟨.initialized, m.code, protocol m.code k.kind⟩
  | .digestInit m => ⟨.initialized, m.code, protocol m.code .digest⟩
  | _ => ⟨.initialized, noMechanism, .unclassified⟩

def Searching (op : Operation) : Prop := op.state ≠ .idle ∧ op.protocol = .unclassified

open SessionM

variable {s : Session} {k : OperationKind} {h : Host σ} {e : Error}
  {check : Session → Result Unit}

theorem run_of_refused {rest : Session → Unit → SessionM σ α} (refused : check s = .error e) :
    (get >>= fun s => ofResult (check s) >>= rest s) s h = ((.error e, s), h) := by
  refine (bind_of_ok rfl).trans (bind_of_error ?_)
  rw [refused]
  rfl

theorem does_of_accepted {act : Handle → SessionM σ α}
    {post : List Exchange → Result α → Session → Prop} (accepted : check s = .ok ())
    (does : Does M (act s.handle) s post) :
    Does M (get >>= fun s => ofResult (check s) >>= fun _ => ownHandle >>= act) s post := by
  apply quiet_get.bind
  rw [accepted]
  exact quiet_ofResult.bind (quiet_ownHandle.bind does)

theorem does_findObjectsInit {t : Template} (cleared : s.operation .findObjects = .idle) :
    Does M (findObjectsInit M t) s fun xs r s' =>
      xs ≠ [] ∧ Relays xs r ∧ s' = s.setOperation .findObjects
        (if r.isOk then ⟨.initialized, noMechanism, .unclassified⟩ else .idle) := by
  have accepted : s.checkStart .findObjects = .ok () := by
    simp [checkStart, cleared, Operation.idle]
  apply does_of_accepted accepted
  refine (asks_ask _ s).bind ?_ ?_
  · intro xs _ s' holds
    obtain ⟨reached, relays, rfl⟩ := holds
    apply quiet_setState.does
    rw [List.append_nil, cleared]
    exact ⟨reached, relays, rfl⟩
  · intro xs e s' holds
    obtain ⟨reached, relays, rfl⟩ := holds
    exact ⟨reached, relays, (cleared ▸ setOperation_self s' _).symm⟩

theorem does_findObjectsNext {max : Nat} (accepted : s.checkUpdate .findObjects = .ok ()) :
    Does M (findObjectsNext M max) s fun xs r s' =>
      xs ≠ [] ∧ Relays xs r ∧ s' = s.setOperation .findObjects
        (inState (s.operation .findObjects) (if r.isOk then .updated else .idle)) := by
  refine does_of_accepted accepted (quiet_reserve.bind (does_updating ?_))
  exact asks_answer (.findObjects s.handle max) fun a count =>
    a.written.handleBuffer (min max count)

theorem does_findObjectsFinal (accepted : s.checkFinal .findObjects = .ok ()) :
    Does M (findObjectsFinal M) s fun xs r s' =>
      xs ≠ [] ∧ Relays xs r ∧ s' = s.setOperation .findObjects .idle :=
  does_of_accepted accepted (does_finishing (asks_ask _))

theorem checkUpdate_of_searching (searching : Searching (s.operation .findObjects)) :
    s.checkUpdate .findObjects = .ok () := by
  simp [checkUpdate, checkActive, searching.1, searching.2, Protocol.isSingleStep]

theorem checkFinal_of_searching (searching : Searching (s.operation .findObjects)) :
    s.checkFinal .findObjects = .ok () := by
  simp [checkFinal, checkActive, searching.1, searching.2, Protocol.isSingleStep]

theorem does_gather (batches : Nat) (op : Operation) (searching : Searching op) :
    Does M (gather M batches) (s.setOperation .findObjects op) fun xs r s' =>
      Relays xs r ∧ ∃ op', s' = s.setOperation .findObjects op' ∧
        if r.isOk then Searching op' else op' = .idle := by
  induction batches generalizing op with
  | zero => exact does_pure ⟨relays_nil _, op, rfl, searching⟩
  | succ batches ih =>
    have accepted : (s.setOperation .findObjects op).checkUpdate .findObjects = .ok () :=
      checkUpdate_of_searching (by rwa [operation_setOperation])
    refine (does_findObjectsNext accepted).bind ?_ ?_
    · intro xs found s' holds
      obtain ⟨_, relays, rfl⟩ := holds
      have still : Searching (inState op .updated) := ⟨by simp [inState], searching.2⟩
      rw [setOperation_setOperation, operation_setOperation]
      cases found with
      | nil =>
        apply does_pure
        rw [List.append_nil]
        exact ⟨relays.of_ok, _, rfl, still⟩
      | cons handle handles =>
        refine (ih _ still).bind ?_ ?_
        · intro ys more s' holds
          obtain ⟨relays', op', rfl, holds⟩ := holds
          apply does_pure
          rw [List.append_nil]
          exact ⟨relays.append (relays'.map _), op', rfl, holds⟩
        · intro ys e s' holds
          obtain ⟨relays', op', rfl, holds⟩ := holds
          exact ⟨relays.append relays', op', rfl, holds⟩
    · intro xs e s' holds
      obtain ⟨_, relays, rfl⟩ := holds
      rw [setOperation_setOperation, operation_setOperation]
      exact ⟨relays.of_error, _, rfl, rfl⟩

theorem does_findObjects {batches : Nat} {t : Template}
    (cleared : s.operation .findObjects = .idle) :
    Does M (findObjects M batches t) s fun xs r s' =>
      xs ≠ [] ∧ Relays xs r ∧ s' = s.setOperation .findObjects .idle := by
  refine (does_findObjectsInit cleared).bind ?_ ?_
  · intro xs _ s' holds
    obtain ⟨reached, relays, rfl⟩ := holds
    refine (does_gather batches _ ⟨by simp [Except.isOk, Except.toBool], rfl⟩).bind ?_ ?_
    · intro ys found s' holds
      obtain ⟨relays', op, rfl, searching⟩ := holds
      have accepted : (s.setOperation .findObjects op).checkFinal .findObjects = .ok () :=
        checkFinal_of_searching (by rwa [operation_setOperation])
      refine (does_findObjectsFinal accepted).bind ?_ ?_
      · intro zs _ s' holds
        obtain ⟨_, relays'', rfl⟩ := holds
        apply does_pure
        rw [List.append_nil, setOperation_setOperation]
        exact ⟨by simp [reached], relays.append (relays'.append relays''.of_ok), rfl⟩
      · intro zs e s' holds
        obtain ⟨_, relays'', rfl⟩ := holds
        rw [setOperation_setOperation]
        exact ⟨by simp [reached], relays.append (relays'.append relays''.of_error), rfl⟩
    · intro ys e s' holds
      obtain ⟨relays', op, rfl, rfl⟩ := holds
      exact ⟨by simp [reached], relays.append relays'.of_error, rfl⟩
  · intro xs e s' holds
    obtain ⟨reached, relays, rfl⟩ := holds
    exact ⟨reached, relays.of_error, rfl⟩

theorem map_of_refused {β : Type} {act : SessionM σ α} (g : α → β)
    (refused : act s h = ((.error e, s), h)) : (g <$> act) s h = ((.error e, s), h) := by
  rw [map_eq_pure_bind]
  exact bind_of_error refused

theorem perform_of_refused {c : Call} {role : Role} (belongs : c.role? = some (k, role))
    (refused : s.check k role = .error e) : perform M c s h = ((.error e, s), h) := by
  cases c <;> cases belongs
  case findObjects batches t => exact map_of_refused _ (bind_of_error (run_of_refused refused))
  all_goals exact map_of_refused _ (run_of_refused refused)

theorem isOk_map {β : Type} (g : α → β) (r : Result α) : (g <$> r).isOk = r.isOk := by
  cases r <;> rfl

theorem does_perform {c : Call} {role : Role} (belongs : c.role? = some (k, role))
    (accepted : s.check k role = .ok ()) (cleared : s.state k = .idle → s.operation k = .idle) :
    Does M (perform M c) s fun xs r s' =>
      xs ≠ [] ∧ Relays xs r ∧
        s' = s.setOperation k (role.next c.started (s.operation k) r.isOk) := by
  have idle : s.checkStart k = .ok () → s.operation k = .idle := by
    intro passed
    refine cleared (Decidable.byContradiction fun active => ?_)
    simp only [checkStart, show ¬ (s.operation k).state = .idle from active, ↓reduceIte] at passed
    cases passed
  have mapped : ∀ {α : Type} (act : SessionM σ α) (g : α → Outcome),
      Does M act s (fun xs r s' => xs ≠ [] ∧ Relays xs r ∧
        s' = s.setOperation k (role.next c.started (s.operation k) r.isOk)) →
      Does M (g <$> act) s (fun xs r s' => xs ≠ [] ∧ Relays xs r ∧
        s' = s.setOperation k (role.next c.started (s.operation k) r.isOk)) := by
    intro α act g does
    apply does.map
    intro xs r s' holds
    obtain ⟨reached, relays, same⟩ := holds
    refine ⟨reached, relays.map g, ?_⟩
    rw [isOk_map]
    exact same
  cases c <;> cases belongs
  case init k m key => exact mapped _ _ (does_starting (idle accepted))
  case digestInit m => exact mapped _ _ (does_starting (idle accepted))
  case oneShot k data =>
    exact mapped _ _ (does_of_accepted accepted (does_finishing (asks_sizedOutput _)))
  case stream k data =>
    exact mapped _ _ (does_of_accepted accepted (does_updating (asks_sizedOutput _)))
  case feed k data => exact mapped _ _ (does_of_accepted accepted (does_updating (asks_ask _)))
  case finish k =>
    exact mapped _ _ (does_of_accepted accepted (does_finishing (asks_sizedOutput _)))
  case verify data signature =>
    exact mapped _ _ (does_of_accepted accepted (does_finishing (asks_ask _)))
  case verifyFinal signature =>
    exact mapped _ _ (does_of_accepted accepted (does_finishing (asks_ask _)))
  case findObjectsInit t => exact mapped _ _ (does_findObjectsInit (idle accepted))
  case findObjectsNext max => exact mapped _ _ (does_findObjectsNext accepted)
  case findObjectsFinal => exact mapped _ _ (does_findObjectsFinal accepted)
  case findObjects batches t => exact mapped _ _ (does_findObjects (idle accepted))

end Session

end Cryptoki
