import Cryptoki.Recorder
import Cryptoki.Session.Call

/-!
What an action in a session comes to, put together from what its parts come to: the exchanges it
has with the module, its result, and the session after it.
-/
namespace Cryptoki

variable {σ α β : Type} {M : Module σ}

/-- The module is asked one thing after the other, and goes from the first state to the last. -/
inductive Module.Exchanges (M : Module σ) : List Exchange → σ → σ → Prop where
  | nil (a : σ) : M.Exchanges [] a a
  | cons {shape : Shape} (q : Request shape) {xs : List Exchange} {a b : σ}
    (rest : M.Exchanges xs (M.answer q a).2.1 b) :
    M.Exchanges (⟨shape, q, (M.answer q a).1⟩ :: xs) a b

theorem Module.Exchanges.append {xs ys : List Exchange} {a b c : σ}
    (first : M.Exchanges xs a b) (second : M.Exchanges ys b c) : M.Exchanges (xs ++ ys) a c := by
  induction first with
  | nil a => exact second
  | cons q rest ih => exact .cons q (ih second)

def Exchange.error? (x : Exchange) : Option Error :=
  match x.answer.result with
  | .ok _ => none
  | .error e => some e

namespace SessionM

/-- Started in the session, the action has exchanges, a result and a session after it that are as
`post` says, whatever the module. -/
def Does (M : Module σ) (act : SessionM σ α) (s : Session)
    (post : List Exchange → Result α → Session → Prop) : Prop :=
  ∀ h : Host σ, ∃ xs r s' h', act s h = ((r, s'), h') ∧ M.Exchanges xs h.state h'.state ∧
    post xs r s'

variable {s s' : Session} {h h' : Host σ} {act : SessionM σ α} {f : α → SessionM σ β}

theorem bind_run {ε : Type} {act : ActionM ε σ α} {f : α → ActionM ε σ β} :
    (act >>= f) s h = ExceptT.bindCont f (act s h).1.1 (act s h).1.2 (act s h).2 := rfl

theorem bind_of_ok {ε : Type} {act : ActionM ε σ α} {f : α → ActionM ε σ β} {a : α}
    (first : act s h = ((.ok a, s'), h')) : (act >>= f) s h = f a s' h' := by
  rw [bind_run, first]
  rfl

theorem bind_of_error {ε : Type} {act : ActionM ε σ α} {f : α → ActionM ε σ β} {e : ε}
    (first : act s h = ((.error e, s'), h')) : (act >>= f) s h = ((.error e, s'), h') := by
  rw [bind_run, first]
  rfl

theorem askAnswer_run {ε : Type} {shape : Shape} (q : Request shape) :
    (askAnswer M q : ActionM ε σ (Answer shape)) s h = ((.ok (M.answer q h.state).1, s),
      ⟨(M.answer q h.state).2.1, h.journal ++ (M.answer q h.state).2.2⟩) := rfl

theorem bind_eq_ok {b : β} (run : (act >>= f) s h = ((.ok b, s'), h')) :
    ∃ a s₁ h₁, act s h = ((.ok a, s₁), h₁) ∧ f a s₁ h₁ = ((.ok b, s'), h') := by
  rcases first : act s h with ⟨⟨r, s₁⟩, h₁⟩
  cases r with
  | ok a => exact ⟨a, s₁, h₁, rfl, (bind_of_ok first).symm.trans run⟩
  | error e =>
    rw [bind_of_error first] at run
    cases run

section

variable {ε : Type} [Fault ε] {act : ActionM ε σ α}

theorem outcome_of_ok {a : α} (run : act s h = ((.ok a, s'), h')) :
    outcome act s h = ((.ok (.ok a), s'), h') := by
  simp only [outcome, ExceptT.mk, ExceptT.run, bind, StateT.bind]
  rw [run]
  rfl

theorem outcome_of_error {f : ε} {e : Error} (run : act s h = ((.error f, s'), h'))
    (returned : Fault.error? f = some e) : outcome act s h = ((.ok (.error e), s'), h') := by
  simp only [outcome, ExceptT.mk, ExceptT.run, bind, StateT.bind]
  rw [run]
  simp only [returned]
  rfl

theorem outcome_of_unwound {f : ε} (run : act s h = ((.error f, s'), h'))
    (unwound : Fault.error? f = none) : outcome act s h = ((.error f, s'), h') := by
  simp only [outcome, ExceptT.mk, ExceptT.run, bind, StateT.bind]
  rw [run]
  simp only [unwound]
  rfl

end

theorem outcome_run : outcome act s h = ((.ok (act s h).1.1, (act s h).1.2), (act s h).2) := by
  rcases run : act s h with ⟨⟨r, s'⟩, h'⟩
  cases r with
  | ok a => exact outcome_of_ok run
  | error e => exact outcome_of_error run rfl

section

variable {post : List Exchange → Result α → Session → Prop}

theorem Does.mono {weaker : List Exchange → Result α → Session → Prop}
    (does : Does M act s post) (implies : ∀ xs r s', post xs r s' → weaker xs r s') :
    Does M act s weaker := by
  intro h
  obtain ⟨xs, r, s', h', run, exchanges, holds⟩ := does h
  exact ⟨xs, r, s', h', run, exchanges, implies xs r s' holds⟩

theorem does_pure {a : α} (holds : post [] (.ok a) s) : Does M (pure a) s post :=
  fun h => ⟨[], .ok a, s, h, rfl, .nil _, holds⟩

theorem does_ofResult {r : Result α} (holds : post [] r s) : Does M (ofResult r) s post := by
  intro h
  refine ⟨[], r, s, h, ?_, .nil _, holds⟩
  cases r <;> rfl

/-- What the second part does is asked of it after each success of the first. -/
theorem Does.bind {after : List Exchange → Result β → Session → Prop}
    (first : Does M act s post)
    (second : ∀ xs a s', post xs (.ok a) s' →
      Does M (f a) s' fun ys r s'' => after (xs ++ ys) r s'')
    (failed : ∀ xs e s', post xs (.error e) s' → after xs (.error e) s') :
    Does M (act >>= f) s after := by
  intro h
  obtain ⟨xs, r, s', h', run, exchanges, holds⟩ := first h
  cases r with
  | ok a =>
    obtain ⟨ys, r, s'', h'', run', exchanges', holds'⟩ := second xs a s' holds h'
    exact ⟨xs ++ ys, r, s'', h'', (bind_of_ok run).trans run', exchanges.append exchanges', holds'⟩
  | error e => exact ⟨xs, .error e, s', h', bind_of_error run, exchanges, failed xs e s' holds⟩

theorem Does.map {g : α → β} {after : List Exchange → Result β → Session → Prop}
    (does : Does M act s post) (implies : ∀ xs r s', post xs r s' → after xs (g <$> r) s') :
    Does M (g <$> act) s after := by
  rw [map_eq_pure_bind]
  refine does.bind (fun xs a s' holds => does_pure ?_) fun xs e s' holds => implies xs _ s' holds
  rw [List.append_nil]
  exact implies xs _ s' holds

theorem does_askAnswer_bind {shape : Shape} {q : Request shape} {f : Answer shape → SessionM σ α}
    (next : ∀ a, Does M (f a) s fun xs r s' => post (⟨shape, q, a⟩ :: xs) r s') :
    Does M (askAnswer M q >>= f) s post := by
  intro h
  obtain ⟨xs, r, s', h', run, exchanges, holds⟩ :=
    next (M.answer q h.state).1 ⟨(M.answer q h.state).2.1, h.journal ++ (M.answer q h.state).2.2⟩
  exact ⟨_, r, s', h', run, .cons q exchanges, holds⟩

theorem does_ofResult_bind {r : Result β} {f : β → SessionM σ α}
    (next : ∀ b, r = .ok b → Does M (f b) s post)
    (failed : ∀ e, r = .error e → post [] (.error e) s) : Does M (ofResult r >>= f) s post := by
  intro h
  cases r with
  | ok b => exact next b rfl h
  | error e => exact ⟨[], .error e, s, h, rfl, .nil _, failed e rfl⟩

end

/-- The action succeeds without the module. -/
def Quiet (act : SessionM σ α) (s : Session) (a : α) (s' : Session) : Prop :=
  ∀ h : Host σ, ∃ h', act s h = ((.ok a, s'), h') ∧ h'.state = h.state

theorem Quiet.bind {a : α} {post : List Exchange → Result β → Session → Prop}
    (quiet : Quiet act s a s') (next : Does M (f a) s' post) : Does M (act >>= f) s post := by
  intro h
  obtain ⟨h', run, same⟩ := quiet h
  obtain ⟨xs, r, s'', h'', run', exchanges, holds⟩ := next h'
  exact ⟨xs, r, s'', h'', (bind_of_ok run).trans run', same ▸ exchanges, holds⟩

theorem Quiet.does {a : α} {post : List Exchange → Result α → Session → Prop}
    (quiet : Quiet act s a s') (holds : post [] (.ok a) s') : Does M act s post := by
  intro h
  obtain ⟨h', run, same⟩ := quiet h
  exact ⟨[], .ok a, s', h', run, same ▸ .nil _, holds⟩

theorem Quiet.seq {a : α} {b : β} {s'' : Session} (first : Quiet act s a s')
    (second : Quiet (f a) s' b s'') : Quiet (act >>= f) s b s'' := by
  intro h
  obtain ⟨h', run, same⟩ := first h
  obtain ⟨h'', run', same'⟩ := second h'
  exact ⟨h'', (bind_of_ok run).trans run', same'.trans same⟩

theorem quiet_get : Quiet (get : SessionM σ Session) s s s := fun h => ⟨h, rfl, rfl⟩

theorem quiet_set : Quiet (set s' : SessionM σ PUnit) s ⟨⟩ s' := fun h => ⟨h, rfl, rfl⟩

theorem quiet_modify {change : Session → Session} :
    Quiet (modify change : SessionM σ PUnit) s ⟨⟩ (change s) := fun h => ⟨h, rfl, rfl⟩

theorem quiet_ownHandle : Quiet (ownHandle : SessionM σ Handle) s s.handle s := fun h => ⟨h, rfl, rfl⟩

theorem quiet_tell {level : Level} {text : String} :
    Quiet (tell level text : SessionM σ Unit) s () s := fun _ => ⟨_, rfl, rfl⟩

theorem quiet_reserve {size : Nat} : Quiet (reserve size : SessionM σ Unit) s () s :=
  fun h => ⟨h, rfl, rfl⟩

theorem quiet_ofResult {a : α} : Quiet (ofResult (.ok a) : SessionM σ α) s a s :=
  fun h => ⟨h, rfl, rfl⟩

def inState (op : Operation) (state : OperationState) : Operation :=
  if state = .idle then .idle else { op with state := state }

theorem quiet_setState {k : OperationKind} {state : OperationState} :
    Quiet (setState k state : SessionM σ Unit) s ()
      (s.setOperation k (inState (s.operation k) state)) := by
  apply quiet_get.seq
  by_cases different : s.state k ≠ state
  · simp only [if_pos different]
    exact quiet_tell.seq quiet_set
  · simp only [if_neg different]
    exact quiet_set

end SessionM

end Cryptoki
