import Cryptoki.Proofs.Session.Frame
import Cryptoki.Token.Answer

/-!
How the token in memory takes a request of an open session: a failure that is due is returned, and
otherwise the request is served. Either way the rest of the token stays as it is.
-/
namespace Cryptoki.Token

variable {t t' : Token} {f g : Function} {h : Handle} {rv : Code} {shape : Shape}
  {q : Request shape}

def due (t : Token) (f : Function) : Option Code := ((t.record f).dueFailure f).2

def counted (t : Token) (f : Function) : Token := ((t.record f).dueFailure f).1

/-- A failure with the return value is to come, at this call of the function or a later one. -/
def Pending (t : Token) (f : Function) (rv : Code) : Prop :=
  ∃ skip, t.failures.get? f = some ⟨skip, rv⟩

theorem counted_eq (t : Token) (f : Function) :
    ∃ failures, t.counted f = { t with failures, calls := t.calls ++ [f] } := by
  unfold counted dueFailure record
  split
  · exact ⟨t.failures, rfl⟩
  · exact ⟨_, rfl⟩
  · exact ⟨_, rfl⟩

@[simp] theorem sessions_counted (t : Token) (f : Function) :
    (t.counted f).sessions = t.sessions := by
  obtain ⟨_, same⟩ := t.counted_eq f
  rw [same]

@[simp] theorem lastSession_counted (t : Token) (f : Function) :
    (t.counted f).lastSession = t.lastSession := by
  obtain ⟨_, same⟩ := t.counted_eq f
  rw [same]

@[simp] theorem operations_counted (t : Token) (f : Function) :
    (t.counted f).operations = t.operations := by
  obtain ⟨_, same⟩ := t.counted_eq f
  rw [same]

@[simp] theorem searches_counted (t : Token) (f : Function) :
    (t.counted f).searches = t.searches := by
  obtain ⟨_, same⟩ := t.counted_eq f
  rw [same]

@[simp] theorem objects_counted (t : Token) (f : Function) :
    (t.counted f).objects = t.objects := by
  obtain ⟨_, same⟩ := t.counted_eq f
  rw [same]

theorem due_eq_some : t.due f = some rv ↔ t.failures.get? f = some ⟨0, rv⟩ := by
  unfold due dueFailure record
  cases found : t.failures.get? f with
  | none => simp
  | some failure =>
    obtain ⟨skip, rv'⟩ := failure
    cases skip <;> simp

theorem pending_of_due (due : t.due f = some rv) : t.Pending f rv := ⟨0, due_eq_some.mp due⟩

theorem due_eq_none (clear : t.failures.get? f = none) : t.due f = none := by
  simp [due, dueFailure, record, clear]

theorem pending_of_counted (later : (t.counted f).Pending g rv) : t.Pending g rv := by
  obtain ⟨skip, later⟩ := later
  unfold counted dueFailure record at later
  dsimp only at later
  split at later
  · exact ⟨skip, later⟩
  · rw [Table.get?_erase] at later
    split at later
    · cases later
    · exact ⟨skip, later⟩
  · rename_i found
    rw [Table.get?_insert] at later
    split at later
    · rename_i same
      cases later
      exact ⟨_, same ▸ found⟩
    · exact ⟨skip, later⟩

theorem counted_of_clear (clear : t.failures.get? f = none) :
    t.counted f = { t with calls := t.calls ++ [f] } := by
  simp [counted, dueFailure, record, clear]

theorem module_answer (q : Request shape) (t : Token) :
    Token.module.answer q t = ((t.answer q).1, (t.answer q).2, []) := rfl

theorem enter_eq (t : Token) (f : Function) (h : Handle) : t.enter f h =
    match t.due f with
    | some rv => ((t.counted f).dropOperation h f, some rv)
    | none => (t.counted f, if (t.counted f).sessions.contains h then none
        else some Return.sessionHandleInvalid) := by
  unfold enter due counted
  rcases (t.record f).dueFailure f with ⟨t', _ | rv⟩ <;> rfl

theorem answer_of_due (own : q.session? = some h) (due : t.due q.function = some rv) :
    t.answer q = refuse rv ((t.counted q.function).dropOperation h q.function) := by
  simp only [answer, own, enter_eq, due]

theorem answer_of_open (own : q.session? = some h) (clear : t.due q.function = none)
    (opened : h ∈ t.sessions) : t.answer q = perform q (t.counted q.function) := by
  simp [answer, own, enter_eq, clear, opened]

theorem answer_of_closed (own : q.session? = some h) (clear : t.due q.function = none)
    (closed : h ∉ t.sessions) :
    t.answer q = refuse Return.sessionHandleInvalid (t.counted q.function) := by
  simp [answer, own, enter_eq, clear, closed]

/-- The ways in which a request of an open session is answered. -/
theorem answer_cases (own : q.session? = some h) (opened : h ∈ t.sessions) :
    (∃ rv, t.due q.function = some rv ∧
      t.answer q = refuse rv ((t.counted q.function).dropOperation h q.function)) ∨
    (t.due q.function = none ∧ t.answer q = perform q (t.counted q.function)) := by
  cases due : t.due q.function with
  | some rv => exact .inl ⟨rv, rfl, answer_of_due own due⟩
  | none => exact .inr ⟨rfl, answer_of_open own due opened⟩

end Cryptoki.Token
