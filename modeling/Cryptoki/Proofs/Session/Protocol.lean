import Cryptoki.Proofs.Session.Limits

/-!
Over any run of calls, and whatever the module answers, a session keeps to the protocol of the
operations as the ledger has it.
-/
namespace Cryptoki.Session

variable {σ : Type} {M : Module σ}

/-- The state of a session is that of the ledger, and the ledger knows how its operations go on. -/
structure Agrees (l : Ledger) (s : Session) : Prop where
  state : ∀ k, s.state k = l.state k
  cleared : ∀ k, s.state k = .idle → s.operation k = .idle
  singleStep : ∀ k, s.state k ≠ .idle → (s.operation k).protocol.isSingleStep = l.isSingleStep k

def fresh (handle : Handle) (slot : UInt64) : Session := ⟨handle, slot, fun _ => .idle⟩

theorem fresh_of_openOn {slot flags : UInt64} {h h' : Host σ} {s : Session}
    (opened : openOn M slot flags h = (.ok s, h')) : ∃ handle, s = fresh handle slot := by
  by_cases serial : flags &&& serialFlag ≠ serialFlag
  · simp only [openOn, if_pos serial] at opened
    cases opened
  · simp only [openOn, if_neg serial] at opened
    cases answered : (M.answer (.openSession slot flags) h.state).1.result with
    | error e =>
      simp only [bind, StateT.bind, Module.ask, answered] at opened
      cases opened
    | ok handle =>
      simp only [bind, StateT.bind, Module.ask, answered] at opened
      cases opened
      exact ⟨handle, rfl⟩

theorem agrees_fresh (handle : Handle) (slot : UInt64) : Agrees .fresh (fresh handle slot) where
  state _ := rfl
  cleared _ _ := rfl
  singleStep _ active := absurd rfl active

variable {l : Ledger} {s : Session} {k : OperationKind}

theorem isSingleStep_iff (p : Protocol) :
    p.isSingleStep = true ↔ p = .singleShot ∨ p = .recover := by
  cases p <;> simp [Protocol.isSingleStep]

theorem check_of_refuses (agrees : Agrees l s) {role : Role} (refuses : l.refusesRole k role) :
    ∃ e, s.check k role = .error e ∧ e.kind = .invalidState := by
  have state := agrees.state k
  have singleStep := agrees.singleStep k
  have sameState : (s.operation k).state = s.state k := rfl
  cases role with
  | start | whole =>
    have active : s.state k ≠ .idle := by simpa [Ledger.refusesRole, state] using refuses
    simp [check, checkStart, sameState, active, Error.kind]
  | oneShot =>
    have other : s.state k ≠ .initialized := by simpa [Ledger.refusesRole, state] using refuses
    cases now : s.state k with
    | idle => simp [check, checkOneShot, checkActive, sameState, now, Error.kind]
    | initialized => exact absurd now other
    | updated => simp [check, checkOneShot, checkActive, sameState, now, Error.kind]
  | update | final =>
    have either : s.state k = .idle ∨ l.isSingleStep k = true := by
      simpa [Ledger.refusesRole, state] using refuses
    by_cases idle : s.state k = .idle
    · simp [check, checkUpdate, checkFinal, checkActive, sameState, idle, Error.kind]
    · have single := (singleStep idle).trans (either.resolve_left idle)
      simp [check, checkUpdate, checkFinal, checkActive, sameState, idle, single, Error.kind]

theorem check_of_accepts (agrees : Agrees l s) {role : Role}
    (accepts : l.refusesRole k role = false) : s.check k role = .ok () := by
  have state := agrees.state k
  have singleStep := agrees.singleStep k
  have sameState : (s.operation k).state = s.state k := rfl
  cases role with
  | start | whole =>
    have idle : s.state k = .idle := by simpa [Ledger.refusesRole, state] using accepts
    simp [check, checkStart, sameState, idle]
  | oneShot =>
    have ready : s.state k = .initialized := by simpa [Ledger.refusesRole, state] using accepts
    simp [check, checkOneShot, checkActive, sameState, ready]
  | update | final =>
    have neither : s.state k ≠ .idle ∧ l.isSingleStep k = false := by
      simpa [Ledger.refusesRole, state] using accepts
    have several := (singleStep neither.1).trans neither.2
    simp [check, checkUpdate, checkFinal, checkActive, sameState, neither.1, several]

theorem Agrees.set (agrees : Agrees l s) {l' : Ledger} {op : Operation}
    (others : ∀ j, j ≠ k → l'.state j = l.state j ∧ l'.isSingleStep j = l.isSingleStep j)
    (state : op.state = l'.state k) (cleared : op.state = .idle → op = .idle)
    (singleStep : op.state ≠ .idle → op.protocol.isSingleStep = l'.isSingleStep k) :
    Agrees l' (s.setOperation k op) := by
  have split : ∀ j, (j = k ∧ (s.setOperation k op).operation j = op) ∨
      (j ≠ k ∧ (s.setOperation k op).operation j = s.operation j) := by
    intro j
    by_cases same : j = k
    · exact .inl ⟨same, same ▸ operation_setOperation s k op⟩
    · exact .inr ⟨same, operation_setOperation_of_ne s op same⟩
  constructor
  · intro j
    rw [Session.state]
    rcases split j with ⟨rfl, touched⟩ | ⟨other, kept⟩
    · rw [touched, state]
    · rw [kept, (others j other).1]
      exact agrees.state j
  · intro j
    rw [Session.state]
    rcases split j with ⟨rfl, touched⟩ | ⟨other, kept⟩
    · rw [touched]
      exact cleared
    · rw [kept]
      exact agrees.cleared j
  · intro j
    rw [Session.state]
    rcases split j with ⟨rfl, touched⟩ | ⟨other, kept⟩
    · rw [touched]
      exact singleStep
    · rw [kept, (others j other).2]
      exact agrees.singleStep j

theorem Ledger.setState_self (l : Ledger) (k : OperationKind) (state : OperationState) :
    (l.setState k state).state k = state := if_pos rfl

theorem Ledger.setState_of_ne (l : Ledger) {j k : OperationKind} (state : OperationState)
    (other : j ≠ k) : (l.setState k state).state j = l.state j := if_neg other

theorem Ledger.isSingleStep_setMechanism_of_ne (l : Ledger) {j k : OperationKind}
    (m : Option Code) (other : j ≠ k) :
    (l.setMechanism k m).isSingleStep j = l.isSingleStep j := by
  simp [Ledger.isSingleStep, Ledger.setMechanism, other]

theorem isSingleStep_started {c : Call} (belongs : c.role? = some (k, .start)) :
    c.started.protocol.isSingleStep = (l.setMechanism k c.mechanism?).isSingleStep k := by
  cases c <;> cases belongs
  case init k m key =>
    rw [Bool.eq_iff_iff]
    simp [Ledger.isSingleStep, Ledger.setMechanism, Call.mechanism?, Call.started,
      isSingleStep_iff]
  case digestInit m =>
    rw [Bool.eq_iff_iff]
    simp [Ledger.isSingleStep, Ledger.setMechanism, Call.mechanism?, Call.started,
      isSingleStep_iff]
  case findObjectsInit t => simp [Ledger.isSingleStep, Ledger.setMechanism, Call.mechanism?,
    Call.started, Protocol.isSingleStep]

theorem started_state (c : Call) : c.started.state = .initialized := by
  cases c <;> rfl

theorem agrees_after {c : Call} {role : Role} (agrees : Agrees l s)
    (belongs : c.role? = some (k, role)) (accepts : l.refusesRole k role = false)
    (succeeded : Bool) :
    Agrees (l.after c succeeded)
      (s.setOperation k (role.next c.started (s.operation k) succeeded)) := by
  have accepted : l.refuses c = false := by simp [Ledger.refuses, belongs, accepts]
  have ended : ∀ op, op = .idle → Agrees (l.setState k .idle) (s.setOperation k op) := by
    rintro op rfl
    exact agrees.set (fun j other => ⟨l.setState_of_ne _ other, rfl⟩) (l.setState_self k _).symm
      (fun _ => rfl) (fun active => absurd rfl active)
  simp only [Ledger.after, accepted, belongs, Bool.false_eq_true, ↓reduceIte]
  cases role with
  | oneShot | final | whole => exact ended _ rfl
  | start =>
    cases succeeded with
    | true =>
      refine agrees.set (fun j other => ⟨l.setState_of_ne _ other, ?_⟩) ?_ ?_ ?_
      · exact Ledger.isSingleStep_setMechanism_of_ne _ _ other
      · exact (started_state c).trans (l.setState_self k _).symm
      · intro idle
        exact absurd ((started_state c).symm.trans idle) (by decide)
      · intro _
        exact isSingleStep_started belongs
    | false =>
      have idle : l.state k = .idle := by simpa [Ledger.refusesRole] using accepts
      exact agrees.set (fun _ _ => ⟨rfl, rfl⟩) idle.symm (fun _ => rfl)
        (fun active => absurd rfl active)
  | update =>
    cases succeeded with
    | true =>
      have active : s.state k ≠ .idle := by
        have both : l.state k ≠ .idle ∧ l.isSingleStep k = false := by
          simpa [Ledger.refusesRole] using accepts
        rw [agrees.state k]
        exact both.1
      refine agrees.set (fun j other => ⟨l.setState_of_ne _ other, rfl⟩)
        (l.setState_self k _).symm ?_ ?_
      · intro idle
        cases idle
      · intro _
        exact agrees.singleStep k active
    | false => exact ended _ rfl

/-- What a call makes of a session and a host, when `l` is the ledger before it. -/
structure Follows (M : Module σ) (l : Ledger) (c : Call) (before : Session × Host σ)
    (r : Result Outcome) (after : Session × Host σ) : Prop where
  state : ∀ k, after.1.state k = (l.after c r.isOk).state k
  others : ∀ k, c.kind? ≠ some k → after.1.operation k = before.1.operation k
  refused : l.refuses c = true → ∃ e, r = .error e ∧ e.kind = .invalidState ∧ after = before
  served : l.refuses c = false →
    ∃ xs, M.Exchanges xs before.2.state after.2.state ∧ Served c xs r

theorem step_of_perform {c : Call} {h h' : Host σ} {r : Result Outcome} {s s' : Session}
    (run : perform M c s h = ((r, s'), h')) : step M c s h = (r, s', h') := by
  unfold step
  rw [run]

theorem step_follows (agrees : Agrees l s) (c : Call) (h : Host σ) :
    Agrees (l.after c (step M c s h).1.isOk) (step M c s h).2.1 ∧
    Follows M l c (s, h) (step M c s h).1 (step M c s h).2 := by
  cases belongs : c.role? with
  | none =>
    have accepted : l.refuses c = false := by simp [Ledger.refuses, belongs]
    have unchanged : ∀ succeeded, l.after c succeeded = l := by
      simp [Ledger.after, accepted, belongs]
    obtain ⟨xs, r, s', h', run, exchanges, served, rfl⟩ := does_perform_apart belongs h
    rw [step_of_perform run, unchanged]
    refine ⟨agrees, ⟨fun k => ?_, fun _ _ => rfl, fun refused => ?_, fun _ => ?_⟩⟩
    · rw [unchanged]
      exact agrees.state k
    · rw [accepted] at refused
      cases refused
    · exact ⟨xs, exchanges, served⟩
  | some owner =>
    obtain ⟨k, role⟩ := owner
    have refuses : l.refuses c = l.refusesRole k role := by simp [Ledger.refuses, belongs]
    cases decided : l.refusesRole k role with
    | true =>
      obtain ⟨e, error, reason⟩ := check_of_refuses agrees decided
      have unchanged : ∀ succeeded, l.after c succeeded = l := by
        simp [Ledger.after, refuses, decided]
      rw [step_of_perform (perform_of_refused belongs error), unchanged]
      refine ⟨agrees, ⟨fun k => ?_, fun _ _ => rfl, fun _ => ⟨e, rfl, reason, rfl⟩, ?_⟩⟩
      · rw [unchanged]
        exact agrees.state k
      · intro accepted
        rw [refuses, decided] at accepted
        cases accepted
    | false =>
      have accepted := check_of_accepts agrees decided
      obtain ⟨xs, r, s', h', run, exchanges, reached, relays, rfl⟩ :=
        does_perform belongs accepted (agrees.cleared k) h
      have still := agrees_after agrees belongs decided r.isOk
      rw [step_of_perform run]
      refine ⟨still, ⟨still.state, fun j other => ?_, fun refused => ?_, fun _ => ?_⟩⟩
      · refine operation_setOperation_of_ne s _ fun same => other ?_
        simp [Call.kind?, belongs, same]
      · rw [refuses, decided] at refused
        cases refused
      · exact ⟨xs, exchanges, served_of_relays reached relays⟩

theorem agrees_run (agrees : Agrees l s) (calls : List Call) (h : Host σ) :
    Agrees (l.afterAll (calls.zip (run M calls s h).1)) (run M calls s h).2.1 := by
  induction calls generalizing l s h with
  | nil => exact agrees
  | cons c rest ih => exact ih (step_follows agrees c h).1 (step M c s h).2.2

theorem accepts_of_checks (agrees : Agrees l s) {c : Call}
    (accepted : ∀ k role, c.role? = some (k, role) → s.check k role = .ok ()) :
    l.refuses c = false := by
  cases belongs : c.role? with
  | none => simp [Ledger.refuses, belongs]
  | some owner =>
    obtain ⟨k, role⟩ := owner
    have refuses : l.refuses c = l.refusesRole k role := by simp [Ledger.refuses, belongs]
    rw [refuses, Bool.eq_false_iff]
    intro refused
    obtain ⟨e, error, _⟩ := check_of_refuses agrees refused
    exact nomatch error.symm.trans (accepted k role belongs)

def signing : List Call := [.init .sign ⟨0x251, none⟩ 5, .feed .sign [1, 2]]

/-- Has one object with an id, and gives a signature a length beyond all buffers. -/
def boaster : Host Recorder :=
  let r := Recorder.new.addLie (.oneShot .sign) ⟨0, 0xffffffffffffffff⟩
  ⟨{ r with token := (r.token.addObject [(0x102, .bytes [7])]).1 }, []⟩

end Cryptoki.Session
