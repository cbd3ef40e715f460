import Cryptoki.Pool
import Cryptoki.Proofs.Session.Frame

/-!
What a module is asked to close. A pool asks once for each session that it dismisses, whatever comes
of it, and no call of a session asks for its end.
-/
namespace Cryptoki

variable {σ : Type} {M : Module σ} {s : Session}

def Module.logged (M : Module σ) : Module (σ × List Exchange) :=
  ⟨fun q a =>
    let (answer, state, notes) := M.answer q a.1
    (answer, (state, a.2 ++ [⟨_, q, answer⟩]), notes)⟩

def Request.closes? {shape : Shape} : Request shape → Option Handle
  | .closeSession h => some h
  | _ => none

def closings (log : List Exchange) : List Handle := log.filterMap fun x => x.request.closes?

theorem closings_append (xs ys : List Exchange) :
    closings (xs ++ ys) = closings xs ++ closings ys := List.filterMap_append

def Host.closed (h : Host (σ × List Exchange)) : List Handle := closings h.state.2

variable {h : Host (σ × List Exchange)}

theorem closes?_of_within {shape : Shape} {q : Request shape} {handle : Handle}
    {kind : Option OperationKind} (within : q.Within handle kind) : q.closes? = none := by
  obtain ⟨_, subject⟩ := within
  cases q <;> first | rfl | cases subject

theorem closed_step (c : Session.Call) :
    (Session.step M.logged c s h).2.1.handle = s.handle ∧
      (Session.step M.logged c s h).2.2.closed = h.closed := by
  have keeps : SessionM.Keeps s.handle (fun a : σ × List Exchange => closings a.2 = h.closed)
      (fun _ => True) (Session.perform M.logged c) := by
    refine Session.keeps_perform (fun _ _ => trivial) c fun q within a same =>
      ⟨?_, fun _ _ => trivial⟩
    have silent : closings [⟨_, q, (M.answer q a.1).1⟩] = [] := by
      simp [closings, closes?_of_within within]
    change closings (a.2 ++ [⟨_, q, (M.answer q a.1).1⟩]) = h.closed
    rw [closings_append, silent, List.append_nil]
    exact same
  have kept := keeps s h.state rfl rfl h.journal
  exact ⟨kept.1, kept.2.1⟩

def firstError (xs : List Exchange) : Result Unit :=
  match xs.findSome? Exchange.error? with
  | some e => .error e
  | none => .ok ()

theorem firstError_append (xs ys : List Exchange) :
    firstError (xs ++ ys) =
      match firstError xs with
      | .ok () => firstError ys
      | .error e => .error e := by
  simp only [firstError, List.findSome?_append]
  cases xs.findSome? Exchange.error? <;> rfl

/-- The sessions are asked to be closed, each once, and the result is the first error. -/
structure Closes (sessions : List Session) (before : Host (σ × List Exchange)) (r : Result Unit)
    (after : Host (σ × List Exchange)) : Prop where
  asked : ∃ xs, after.state.2 = before.state.2 ++ xs ∧ closings xs = sessions.map (·.handle) ∧
    xs.length = sessions.length ∧ r = firstError xs

theorem Closes.closed {sessions : List Session} {r : Result Unit} {h' : Host (σ × List Exchange)}
    (closes : Closes sessions h r h') : h'.closed = h.closed ++ sessions.map (·.handle) := by
  obtain ⟨xs, log, handles, _⟩ := closes.asked
  rw [Host.closed, log, closings_append, handles, Host.closed]

theorem closes_close (M : Module σ) (s : Session) (h : Host (σ × List Exchange)) :
    Closes [s] h (s.close M.logged h).1 (s.close M.logged h).2 := by
  refine ⟨[⟨.done, .closeSession s.handle, (M.answer (.closeSession s.handle) h.state.1).1⟩], rfl,
    rfl, rfl, ?_⟩
  change (M.answer (.closeSession s.handle) h.state.1).1.result = _
  simp only [firstError, List.findSome?, Exchange.error?]
  cases (M.answer (.closeSession s.handle) h.state.1).1.result <;> rfl

theorem closed_drop : (s.drop M.logged h).2.closed = h.closed ++ [s.handle] := by
  have left : (s.drop M.logged h).2.state = (s.close M.logged h).2.state := by
    rw [Session.drop_state]
    rfl
  rw [Host.closed, left]
  exact (closes_close M s h).closed

namespace Pool

theorem dismiss_run (M : Module σ) (s : Session) (h : Host σ) :
    (dismiss M s h).1 = (s.close M h).1 ∧ (dismiss M s h).2.state = (s.close M h).2.state := by
  simp only [dismiss, bind, StateT.bind]
  rcases s.close M h with ⟨_ | _, h'⟩ <;> exact ⟨rfl, rfl⟩

theorem closes_dismiss (M : Module σ) (s : Session) (h : Host (σ × List Exchange)) :
    Closes [s] h (dismiss M.logged s h).1 (dismiss M.logged s h).2 := by
  obtain ⟨xs, log, handles, length, result⟩ := (closes_close M s h).asked
  obtain ⟨same, left⟩ := dismiss_run M.logged s h
  exact ⟨xs, left ▸ log, handles, length, same ▸ result⟩

theorem closes_dismissAll (M : Module σ) (sessions : List Session) (h : Host (σ × List Exchange)) :
    Closes sessions h (dismissAll M.logged sessions h).1 (dismissAll M.logged sessions h).2 := by
  induction sessions generalizing h with
  | nil => exact ⟨[], (List.append_nil h.state.2).symm, rfl, rfl, rfl⟩
  | cons s rest ih =>
    obtain ⟨xs, log, handles, length, result⟩ := (closes_dismiss M s h).asked
    obtain ⟨ys, log', handles', length', result'⟩ := (ih (dismiss M.logged s h).2).asked
    have after : (dismissAll M.logged (s :: rest) h).2.state =
        (dismissAll M.logged rest (dismiss M.logged s h).2).2.state := by
      simp only [dismissAll, bind, StateT.bind]
      rcases dismiss M.logged s h with ⟨_ | _, h'⟩ <;> rfl
    refine ⟨xs ++ ys, ?_, ?_, ?_, ?_⟩
    · rw [after, log', log, List.append_assoc]
    · rw [closings_append, handles, handles']
      rfl
    · simp only [List.length_append, length, length', List.length_cons, List.length_nil]
      omega
    · rw [firstError_append, ← result, ← result']
      simp only [dismissAll, bind, StateT.bind]
      rcases dismiss M.logged s h with ⟨_ | _, h'⟩ <;> rfl

end Pool

end Cryptoki
