import Cryptoki.Proofs.Session.Frame

/-!
Twins: two runs of one action, in sessions that have one operation in common and on modules that
are related. An action that looks at nothing else comes to the same result in both, and leaves them
as they were.
-/
namespace Cryptoki

structure Session.Twins (handle : Handle) (k : OperationKind) (s₁ s₂ : Session) : Prop where
  first : s₁.handle = handle
  second : s₂.handle = handle
  operation : s₁.operation k = s₂.operation k

namespace Session

variable {handle : Handle} {k : OperationKind} {s₁ s₂ : Session}

theorem Twins.setOperation (twins : Twins handle k s₁ s₂) {op₁ op₂ : Operation}
    (same : op₁ = op₂) : Twins handle k (s₁.setOperation k op₁) (s₂.setOperation k op₂) where
  first := twins.first
  second := twins.second
  operation := by rw [operation_setOperation, operation_setOperation, same]

theorem Twins.check (twins : Twins handle k s₁ s₂) (role : Role) :
    s₁.check k role = s₂.check k role := by
  cases role <;>
    simp only [Session.check, checkStart, checkOneShot, checkUpdate, checkFinal, checkActive,
      twins.operation]

end Session

namespace SessionM

open Session

variable {σ α β : Type} {M : Module σ} {handle : Handle} {k : OperationKind}
  {same : σ → σ → Prop} {act : SessionM σ α} {f : α → SessionM σ β}

/-- The action cannot tell twins apart, as long as the modules are in states that `same` relates. -/
def Blind (handle : Handle) (k : OperationKind) (same : σ → σ → Prop) (act : SessionM σ α) : Prop :=
  ∀ s₁ s₂, Twins handle k s₁ s₂ → ∀ h₁ h₂ : Host σ, same h₁.state h₂.state →
    (act s₁ h₁).1.1 = (act s₂ h₂).1.1 ∧
      Twins handle k (act s₁ h₁).1.2 (act s₂ h₂).1.2 ∧
      same (act s₁ h₁).2.state (act s₂ h₂).2.state

theorem Quiet.blind {v : Session → α} {g : Session → Session}
    (quiet : ∀ s, Quiet act s (v s) (g s))
    (alike : ∀ s₁ s₂, Twins handle k s₁ s₂ → v s₁ = v s₂ ∧ Twins handle k (g s₁) (g s₂)) :
    Blind handle k same act := by
  intro s₁ s₂ twins h₁ h₂ related
  obtain ⟨h₁', run₁, state₁⟩ := quiet s₁ h₁
  obtain ⟨h₂', run₂, state₂⟩ := quiet s₂ h₂
  obtain ⟨values, sessions⟩ := alike s₁ s₂ twins
  rw [run₁, run₂]
  refine ⟨congrArg Except.ok values, sessions, ?_⟩
  rwa [state₁, state₂]

theorem blind_pure (v : α) : Blind handle k same (pure v : SessionM σ α) :=
  fun _ _ twins _ _ related => ⟨rfl, twins, related⟩

theorem blind_ofResult (r : Result α) : Blind handle k same (ofResult r : SessionM σ α) := by
  cases r <;> exact fun _ _ twins _ _ related => ⟨rfl, twins, related⟩

theorem Blind.bind (first : Blind handle k same act)
    (second : ∀ v, Blind handle k same (f v)) : Blind handle k same (act >>= f) := by
  intro s₁ s₂ twins h₁ h₂ related
  obtain ⟨results, sessions, states⟩ := first s₁ s₂ twins h₁ h₂ related
  rcases run₁ : act s₁ h₁ with ⟨⟨r₁, s₁'⟩, h₁'⟩
  rcases run₂ : act s₂ h₂ with ⟨⟨r₂, s₂'⟩, h₂'⟩
  rw [run₁, run₂] at results sessions states
  cases results
  cases r₁ with
  | ok v =>
    rw [bind_of_ok run₁, bind_of_ok run₂]
    exact second v s₁' s₂' sessions h₁' h₂' states
  | error e =>
    rw [bind_of_error run₁, bind_of_error run₂]
    exact ⟨rfl, sessions, states⟩

theorem Blind.map (blind : Blind handle k same act) (g : α → β) :
    Blind handle k same (g <$> act) := by
  rw [map_eq_pure_bind]
  exact blind.bind fun v => blind_pure (g v)

theorem blind_ownHandle_bind {f : Handle → SessionM σ β} (next : Blind handle k same (f handle)) :
    Blind handle k same (ownHandle >>= f) := by
  intro s₁ s₂ twins h₁ h₂ related
  have own : ∀ s (h : Host σ), (ownHandle >>= f) s h = f s.handle s h := fun _ _ => rfl
  rw [own, own, twins.first, twins.second]
  exact next s₁ s₂ twins h₁ h₂ related

theorem blind_check (role : Role) {next : SessionM σ α} (rest : Blind handle k same next) :
    Blind handle k same (get >>= fun s => ofResult (s.check k role) >>= fun _ => next) := by
  intro s₁ s₂ twins h₁ h₂ related
  have checked : ∀ s (h : Host σ),
      (get >>= fun s => ofResult (s.check k role) >>= fun _ => next) s h =
        (ofResult (s.check k role) >>= fun _ => next) s h := fun _ _ => rfl
  rw [checked, checked, twins.check role]
  exact (blind_ofResult _).bind (fun _ => rest) s₁ s₂ twins h₁ h₂ related

theorem blind_tell (level : Level) (text : String) :
    Blind handle k same (tell level text : SessionM σ Unit) :=
  Quiet.blind (g := id) (fun _ => quiet_tell) fun _ _ twins => ⟨rfl, twins⟩

theorem blind_reserve (size : Nat) : Blind handle k same (reserve size : SessionM σ Unit) :=
  Quiet.blind (g := id) (fun _ => quiet_reserve) fun _ _ twins => ⟨rfl, twins⟩

theorem blind_setState (state : OperationState) :
    Blind handle k same (setState k state : SessionM σ Unit) :=
  Quiet.blind (fun _ => quiet_setState) fun _ _ twins =>
    ⟨rfl, twins.setOperation (by rw [twins.operation])⟩

def Agreed (M : Module σ) (same : σ → σ → Prop) {shape : Shape} (q : Request shape) : Prop :=
  ∀ a₁ a₂, same a₁ a₂ →
    (M.answer q a₁).1 = (M.answer q a₂).1 ∧ same (M.answer q a₁).2.1 (M.answer q a₂).2.1

theorem blind_askAnswer_bind {shape : Shape} {q : Request shape}
    {f : Answer shape → SessionM σ β} (agreed : Agreed M same q)
    (next : ∀ answer, Blind handle k same (f answer)) :
    Blind handle k same (askAnswer M q >>= f) := by
  intro s₁ s₂ twins h₁ h₂ related
  obtain ⟨answers, states⟩ := agreed _ _ related
  have asked : ∀ s (h : Host σ), (askAnswer M q >>= f) s h = f (M.answer q h.state).1 s
      ⟨(M.answer q h.state).2.1, h.journal ++ (M.answer q h.state).2.2⟩ := fun _ _ => rfl
  rw [asked, asked, answers]
  exact next _ s₁ s₂ twins _ _ states

theorem blind_ask {shape : Shape} {q : Request shape} (agreed : Agreed M same q) :
    Blind handle k same (ask M q) :=
  blind_askAnswer_bind agreed fun _ => blind_ofResult _

theorem Blind.outcome_bind {f : Result α → SessionM σ β} (blind : Blind handle k same act)
    (next : ∀ r, Blind handle k same (f r)) : Blind handle k same (outcome act >>= f) := by
  intro s₁ s₂ twins h₁ h₂ related
  obtain ⟨results, sessions, states⟩ := blind s₁ s₂ twins h₁ h₂ related
  rw [bind_of_ok outcome_run, bind_of_ok outcome_run, results]
  exact next _ _ _ sessions _ _ states

theorem Blind.finishing (blind : Blind handle k same act) :
    Blind handle k same (finishing k act) :=
  blind.outcome_bind fun r => (blind_setState .idle).bind fun _ => blind_ofResult r

theorem Blind.updating (blind : Blind handle k same act) :
    Blind handle k same (updating k act) := by
  refine blind.outcome_bind fun r => ?_
  cases r with
  | ok v => exact (blind_setState .updated).bind fun _ => blind_pure v
  | error e => exact (blind_setState .idle).bind fun _ => blind_ofResult (.error e)

theorem blind_sizedOutput {q : Option Nat → Request .length}
    (agreed : ∀ capacity, Agreed M same (q capacity)) :
    Blind handle k same (sizedOutput M q) :=
  (blind_ask (agreed none)).bind fun size => (blind_reserve size).bind fun _ =>
    blind_askAnswer_bind (agreed (some size)) fun answer =>
      (blind_ofResult answer.result).bind fun _ => blind_pure _

theorem blind_starting {m : Mechanism} {q : Handle → MechanismBlock → Request .done}
    (agreed : ∀ b, Agreed M same (q handle b)) : Blind handle k same (starting M k m q) := by
  have begun : Blind handle k same (modify fun s => s.setOperation k
      { s.operation k with mechanism := m.code, protocol := protocol m.code k } :
      SessionM σ PUnit) :=
    Quiet.blind (fun _ => quiet_modify) fun _ _ twins =>
      ⟨rfl, twins.setOperation (by rw [twins.operation])⟩
  have accepted : Blind handle k same (do
      ask M (q (← ownHandle) m.layOut.2)
      modify fun s => s.setOperation k
        { s.operation k with mechanism := m.code, protocol := protocol m.code k }
      setState k .initialized) :=
    blind_ownHandle_bind ((blind_ask (agreed _)).bind fun _ =>
      begun.bind fun _ => blind_setState .initialized)
  refine blind_check .start ?_
  by_cases unknown : protocol m.code k = .notSupported
  · simp only [if_pos unknown]
    exact (blind_tell _ _).bind fun _ => accepted
  · simp only [if_neg unknown]
    exact accepted

end SessionM

namespace Session

open SessionM

variable {σ : Type} {M : Module σ} {handle : Handle} {k : OperationKind} {same : σ → σ → Prop}

/-- A call of a kind other than searches is blind, if the module gives the same answers to what may
be asked in it. -/
theorem blind_perform {c : Call} (own : c.kind? = some k) (other : k ≠ .findObjects)
    (agreed : ∀ {shape : Shape} (q : Request shape), q.Within handle (some k) → Agreed M same q) :
    Blind handle k same (perform M c) := by
  cases c <;> cases own
  case init k m key => exact (blind_starting fun b => agreed _ ⟨rfl, rfl⟩).map _
  case digestInit m => exact (blind_starting fun b => agreed _ ⟨rfl, rfl⟩).map _
  case oneShot k data =>
    refine (blind_check .oneShot (blind_ownHandle_bind ?_)).map _
    exact (blind_sizedOutput fun capacity => agreed _ ⟨rfl, rfl⟩).finishing
  case stream k data =>
    refine (blind_check .update (blind_ownHandle_bind ?_)).map _
    exact (blind_sizedOutput fun capacity => agreed _ ⟨rfl, rfl⟩).updating
  case feed k data =>
    refine (blind_check .update (blind_ownHandle_bind ?_)).map _
    exact (blind_ask (agreed _ ⟨rfl, rfl⟩)).updating
  case finish k =>
    refine (blind_check .final (blind_ownHandle_bind ?_)).map _
    exact (blind_sizedOutput fun capacity => agreed _ ⟨rfl, rfl⟩).finishing
  case verify data signature =>
    refine (blind_check .oneShot (blind_ownHandle_bind ?_)).map _
    exact (blind_ask (agreed _ ⟨rfl, rfl⟩)).finishing
  case verifyFinal signature =>
    refine (blind_check .final (blind_ownHandle_bind ?_)).map _
    exact (blind_ask (agreed _ ⟨rfl, rfl⟩)).finishing
  all_goals exact absurd rfl other

end Session

end Cryptoki
