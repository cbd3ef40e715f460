import Cryptoki.Proofs.Session.Action

/-!
How an action in a session ends, by the state that the module is in: the result, the session after
it, and the state after it. What is preserved by all that an action asks is preserved by the action.
-/
namespace Cryptoki

namespace SessionM

variable {σ α β : Type} {M : Module σ} {s s' : Session} {a : σ} {act : SessionM σ α}
  {f : α → SessionM σ β}

/-- Started in the session, with the module in the state, the action ends as `post` says. -/
def Ends (act : SessionM σ α) (s : Session) (a : σ)
    (post : Result α → Session → σ → Prop) : Prop :=
  ∀ journal, post (act s ⟨a, journal⟩).1.1 (act s ⟨a, journal⟩).1.2 (act s ⟨a, journal⟩).2.state

section

variable {post weaker : Result α → Session → σ → Prop} {after : Result β → Session → σ → Prop}

theorem Ends.mono (ends : Ends act s a post) (implies : ∀ r s' a', post r s' a' → weaker r s' a') :
    Ends act s a weaker :=
  fun journal => implies _ _ _ (ends journal)

theorem ends_pure {v : α} (holds : post (.ok v) s a) : Ends (pure v) s a post := fun _ => holds

theorem ends_ofResult {r : Result α} (holds : post r s a) : Ends (ofResult r) s a post := by
  cases r <;> exact fun _ => holds

theorem Ends.bind (first : Ends act s a post)
    (second : ∀ v s' a', post (.ok v) s' a' → Ends (f v) s' a' after)
    (failed : ∀ e s' a', post (.error e) s' a' → after (.error e) s' a') :
    Ends (act >>= f) s a after := by
  intro journal
  have holds := first journal
  rcases run : act s ⟨a, journal⟩ with ⟨⟨r, s'⟩, ⟨a', journal'⟩⟩
  rw [run] at holds
  cases r with
  | ok v =>
    rw [bind_of_ok run]
    exact second v s' a' holds journal'
  | error e =>
    rw [bind_of_error run]
    exact failed e s' a' holds

theorem Ends.bind_ok {v : α} {mid : Session → σ → Prop}
    (first : Ends act s a fun r s' a' => r = .ok v ∧ mid s' a')
    (second : ∀ s' a', mid s' a' → Ends (f v) s' a' after) : Ends (act >>= f) s a after := by
  refine first.bind ?_ ?_
  · rintro w s' a' ⟨same, reached⟩
    cases same
    exact second s' a' reached
  · rintro e s' a' ⟨same, -⟩
    cases same

theorem Ends.map {g : α → β} (ends : Ends act s a post)
    (implies : ∀ r s' a', post r s' a' → after (g <$> r) s' a') : Ends (g <$> act) s a after := by
  rw [map_eq_pure_bind]
  exact ends.bind (fun v s' a' holds => ends_pure (implies _ s' a' holds)) fun e s' a' holds =>
    implies (.error e) s' a' holds

theorem ends_ofResult_bind {r : Result α} (ok : ∀ v, r = .ok v → Ends (f v) s a after)
    (failed : ∀ e, r = .error e → after (.error e) s a) : Ends (ofResult r >>= f) s a after := by
  cases r with
  | ok v => exact ok v rfl
  | error e => exact fun _ => failed e rfl

theorem ends_askAnswer_bind {shape : Shape} {q : Request shape} {f : Answer shape → SessionM σ β}
    (next : Ends (f (M.answer q a).1) s (M.answer q a).2.1 after) :
    Ends (askAnswer M q >>= f) s a after := fun _ => next _

theorem ends_ask {shape : Shape} {q : Request shape} {post : Result shape.Value → Session → σ → Prop}
    (holds : post (M.answer q a).1.result s (M.answer q a).2.1) : Ends (ask M q) s a post :=
  ends_askAnswer_bind (ends_ofResult holds)

theorem ends_ask_bind {shape : Shape} {q : Request shape} {f : shape.Value → SessionM σ β}
    (ok : ∀ v, (M.answer q a).1.result = .ok v → Ends (f v) s (M.answer q a).2.1 after)
    (failed : ∀ e, (M.answer q a).1.result = .error e → after (.error e) s (M.answer q a).2.1) :
    Ends (ask M q >>= f) s a after := by
  unfold ask
  rw [bind_assoc]
  exact ends_askAnswer_bind (ends_ofResult_bind ok failed)

theorem Quiet.ends {v : α} (quiet : Quiet act s v s') (next : Ends (f v) s' a after) :
    Ends (act >>= f) s a after := by
  intro journal
  obtain ⟨⟨a', journal'⟩, run, same⟩ := quiet ⟨a, journal⟩
  cases same
  rw [bind_of_ok run]
  exact next journal'

theorem Quiet.ends_last {v : α} (quiet : Quiet act s v s') (holds : post (.ok v) s' a) :
    Ends act s a post := by
  intro journal
  obtain ⟨⟨a', journal'⟩, run, same⟩ := quiet ⟨a, journal⟩
  cases same
  rw [run]
  exact holds

theorem Ends.outcome_bind {f : Result α → SessionM σ β} (ends : Ends act s a post)
    (next : ∀ r s' a', post r s' a' → Ends (f r) s' a' after) :
    Ends (outcome act >>= f) s a after := by
  intro journal
  have holds := ends journal
  rw [bind_of_ok outcome_run]
  exact next _ _ _ holds _

variable {k : OperationKind}

theorem Ends.finishing (ends : Ends act s a post) :
    Ends (finishing k act) s a fun r s'' a' =>
      ∃ s', post r s' a' ∧ s'' = s'.setOperation k .idle := by
  refine ends.outcome_bind fun r s' a' holds => ?_
  exact quiet_setState.ends (ends_ofResult ⟨s', holds, rfl⟩)

theorem Ends.updating (ends : Ends act s a post) :
    Ends (updating k act) s a fun r s'' a' =>
      ∃ s', post r s' a' ∧ s'' = s'.setOperation k
        (inState (s'.operation k) (if r.isOk then .updated else .idle)) := by
  refine ends.outcome_bind fun r s' a' holds => ?_
  cases r with
  | ok v => exact quiet_setState.ends (ends_pure ⟨s', holds, rfl⟩)
  | error e => exact quiet_setState.ends (ends_ofResult (r := .error e) ⟨s', holds, rfl⟩)

theorem ends_of_accepted {check : Session → Result Unit} {act : Handle → SessionM σ α}
    (accepted : check s = .ok ()) (ends : Ends (act s.handle) s a post) :
    Ends (get >>= fun s => ofResult (check s) >>= fun _ => ownHandle >>= act) s a post := by
  refine quiet_get.ends ?_
  rw [accepted]
  exact quiet_ofResult.ends (quiet_ownHandle.ends ends)

theorem ends_starting {m : Mechanism} {q : Handle → MechanismBlock → Request .done}
    (accepted : s.checkStart k = .ok ()) :
    Ends (starting M k m q) s a fun r _ a' =>
      r = (M.answer (q s.handle m.layOut.2) a).1.result ∧
        a' = (M.answer (q s.handle m.layOut.2) a).2.1 := by
  have started : Ends (do
      ask M (q s.handle m.layOut.2)
      modify fun s => s.setOperation k
        { s.operation k with mechanism := m.code, protocol := protocol m.code k }
      setState k .initialized) s a fun r _ a' =>
        r = (M.answer (q s.handle m.layOut.2) a).1.result ∧
          a' = (M.answer (q s.handle m.layOut.2) a).2.1 := by
    refine ends_ask_bind (fun v came => ?_) fun e came => ⟨came.symm, rfl⟩
    exact quiet_modify.ends (quiet_setState.ends_last ⟨came.symm, rfl⟩)
  refine quiet_get.ends ?_
  rw [accepted]
  refine quiet_ofResult.ends ?_
  by_cases unknown : protocol m.code k = .notSupported
  · simp only [if_pos unknown]
    exact quiet_tell.ends (quiet_ownHandle.ends started)
  · simp only [if_neg unknown]
    exact quiet_ownHandle.ends started

end

/-- Started with the handle and where `inv` holds, the action keeps both, and fails only with
errors of `failure`. -/
def Keeps (handle : Handle) (inv : σ → Prop) (failure : Error → Prop) (act : SessionM σ α) : Prop :=
  ∀ s a, s.handle = handle → inv a → Ends act s a fun r s' a' =>
    s'.handle = handle ∧ inv a' ∧ ∀ e, r = .error e → failure e

section

variable {handle : Handle} {inv : σ → Prop} {failure : Error → Prop}

theorem Quiet.keeps {act : SessionM σ α} {v : Session → α} {g : Session → Session}
    (quiet : ∀ s, Quiet act s (v s) (g s)) (same : ∀ s, (g s).handle = s.handle) :
    Keeps handle inv failure act := by
  intro s a handled holds
  exact (quiet s).ends_last ⟨(same s).trans handled, holds, fun _ failed => nomatch failed⟩

theorem keeps_pure (v : α) : Keeps handle inv failure (pure v : SessionM σ α) :=
  fun _ _ handled holds => ends_pure ⟨handled, holds, fun _ failed => nomatch failed⟩

theorem keeps_ofResult {r : Result α} (failed : ∀ e, r = .error e → failure e) :
    Keeps handle inv failure (ofResult r : SessionM σ α) :=
  fun _ _ handled holds => ends_ofResult ⟨handled, holds, failed⟩

theorem Keeps.bind (first : Keeps handle inv failure act)
    (second : ∀ v, Keeps handle inv failure (f v)) : Keeps handle inv failure (act >>= f) := by
  intro s a handled holds
  refine (first s a handled holds).bind ?_ ?_
  · intro v s' a' kept
    exact second v s' a' kept.1 kept.2.1
  · intro e s' a' kept
    exact ⟨kept.1, kept.2.1, fun e' failed => by cases failed; exact kept.2.2 e rfl⟩

theorem Keeps.map (keeps : Keeps handle inv failure act) (g : α → β) :
    Keeps handle inv failure (g <$> act) := by
  rw [map_eq_pure_bind]
  exact keeps.bind fun v => keeps_pure (g v)

theorem keeps_get : Keeps handle inv failure (get : SessionM σ Session) :=
  Quiet.keeps (g := id) (fun _ => quiet_get) fun _ => rfl

theorem keeps_tell {level : Level} {text : String} :
    Keeps handle inv failure (tell level text : SessionM σ Unit) :=
  Quiet.keeps (g := id) (fun _ => quiet_tell) fun _ => rfl

theorem keeps_reserve {size : Nat} : Keeps handle inv failure (reserve size : SessionM σ Unit) :=
  Quiet.keeps (g := id) (fun _ => quiet_reserve) fun _ => rfl

theorem keeps_modify {g : Session → Session} (same : ∀ s, (g s).handle = s.handle) :
    Keeps handle inv failure (modify g : SessionM σ PUnit) :=
  Quiet.keeps (fun _ => quiet_modify) same

theorem keeps_setState {k : OperationKind} {state : OperationState} :
    Keeps handle inv failure (setState k state : SessionM σ Unit) :=
  Quiet.keeps (fun _ => quiet_setState) fun _ => rfl

theorem keeps_ownHandle_bind {f : Handle → SessionM σ β}
    (next : Keeps handle inv failure (f handle)) :
    Keeps handle inv failure (ownHandle >>= f) := by
  intro s a handled holds
  refine quiet_ownHandle.ends ?_
  rw [handled]
  exact next s a handled holds

/-- The module may be asked, where it keeps the invariant and fails only with such errors. -/
def Allows (M : Module σ) (inv : σ → Prop) (failure : Error → Prop) {shape : Shape}
    (q : Request shape) : Prop :=
  ∀ a, inv a → inv (M.answer q a).2.1 ∧ ∀ e, (M.answer q a).1.result = .error e → failure e

theorem keeps_askAnswer_bind {shape : Shape} {q : Request shape}
    {f : Answer shape → SessionM σ β} (allows : Allows M inv failure q)
    (next : ∀ answer, (∀ e, answer.result = .error e → failure e) →
      Keeps handle inv failure (f answer)) : Keeps handle inv failure (askAnswer M q >>= f) := by
  intro s a handled holds
  obtain ⟨kept, errors⟩ := allows a holds
  exact ends_askAnswer_bind (next _ errors s _ handled kept)

theorem keeps_ask {shape : Shape} {q : Request shape} (allows : Allows M inv failure q) :
    Keeps handle inv failure (ask M q) :=
  keeps_askAnswer_bind allows fun _ errors => keeps_ofResult errors

theorem Keeps.outcome_bind {f : Result α → SessionM σ β} (keeps : Keeps handle inv failure act)
    (next : ∀ r, (∀ e, r = .error e → failure e) → Keeps handle inv failure (f r)) :
    Keeps handle inv failure (outcome act >>= f) := by
  intro s a handled holds
  refine (keeps s a handled holds).outcome_bind fun r s' a' kept => ?_
  exact next r kept.2.2 s' a' kept.1 kept.2.1

theorem Keeps.finishing {k : OperationKind} (keeps : Keeps handle inv failure act) :
    Keeps handle inv failure (finishing k act) :=
  keeps.outcome_bind fun _ errors => keeps_setState.bind fun _ => keeps_ofResult errors

theorem Keeps.updating {k : OperationKind} (keeps : Keeps handle inv failure act) :
    Keeps handle inv failure (updating k act) := by
  refine keeps.outcome_bind fun r errors => ?_
  cases r with
  | ok v => exact keeps_setState.bind fun _ => keeps_pure v
  | error e => exact keeps_setState.bind fun _ => keeps_ofResult (r := .error e) errors

theorem keeps_sizedOutput {q : Option Nat → Request .length}
    (allows : ∀ capacity, Allows M inv failure (q capacity)) :
    Keeps handle inv failure (sizedOutput M q) := by
  refine (keeps_ask (allows none)).bind fun size => keeps_reserve.bind fun _ => ?_
  refine keeps_askAnswer_bind (allows (some size)) fun answer errors => ?_
  exact (keeps_ofResult errors).bind fun length => keeps_pure _

end

end SessionM

theorem Session.drop_state {σ : Type} (M : Module σ) (s : Session) (h : Host σ) :
    (s.drop M h).2.state = (M.answer (.closeSession s.handle) h.state).2.1 := by
  simp only [drop, bind, StateT.bind, Module.ask]
  cases (M.answer (.closeSession s.handle) h.state).1.result <;> rfl

theorem Session.step_of_ends {σ : Type} {M : Module σ} {c : Session.Call} {s : Session} {a : σ}
    {post : Result Session.Outcome → Session → σ → Prop}
    (ends : SessionM.Ends (Session.perform M c) s a post) (journal : Journal) :
    post (step M c s ⟨a, journal⟩).1 (step M c s ⟨a, journal⟩).2.1
      (step M c s ⟨a, journal⟩).2.2.state := ends journal

end Cryptoki
