import Cryptoki.Proofs.Token.Frame

/-!
What a call of an operation leaves under way in the token: after a success what the call is for,
and after a failure nothing.
-/
namespace Cryptoki

/-- What the token has under way after a call that succeeded, from what it had before. -/
def Session.Call.leaves : Session.Call → Option Token.Operation → Option Token.Operation
  | .init _ m _, _ | .digestInit m, _ => some ⟨m.code, []⟩
  | .stream .., held => held
  | .feed _ data, held => held.map fun op => { op with data := op.data ++ data }
  | _, _ => none

namespace Token

variable {α β : Type} {t t' t'' : Token} {handle : Handle} {k : OperationKind}
  {kind : Option OperationKind} {shape : Shape} {q : Request shape} {op : Operation}
  {held leaves leaves' : Option Operation} {r : Result α} {e : Error}

/-- If the token disagrees with the session in the error, that was a failure to come, in a function
that is about the kind of operation. -/
def Explains (t : Token) (kind : Option OperationKind) (e : Error) : Prop :=
  ∀ rv, e = .returned rv → Disagrees rv → ∃ f : Function, f.subject? = some kind ∧ t.Pending f rv

theorem explains_of_other {rv : Code} (other : ¬ Disagrees rv) :
    t.Explains kind (.returned rv) := by
  intro rv' same disagrees
  cases same
  exact absurd disagrees other

theorem explains_of_agreeable {a : Answer shape} (agreeable : Agreeable a)
    (failed : a.result = .error e) : t.Explains kind e := by
  obtain ⟨rv, rfl, other⟩ := agreeable e failed
  exact explains_of_other other

theorem explains_of_due {rv : Code} {f : Function} (subject : f.subject? = some kind)
    (due : t.due f = some rv) : t.Explains kind (.returned rv) := by
  intro rv' same _
  cases same
  exact ⟨f, subject, pending_of_due due⟩

theorem Framed.explains {other : Option OperationKind} (framed : Framed handle other t t')
    (explains : t'.Explains kind e) : t.Explains kind e := by
  intro rv same disagrees
  obtain ⟨f, subject, pending⟩ := explains rv same disagrees
  exact ⟨f, subject, framed.pending f rv pending⟩

theorem explains_answer (within : q.Within handle none) (opened : handle ∈ t.sessions)
    (failed : (t.answer q).1.result = .error e) : t.Explains none e := by
  rcases answer_cases within.session opened with ⟨rv, due, answered⟩ | ⟨_, answered⟩
  · rw [answered] at failed
    cases failed
    exact explains_of_due within.subject due
  · rw [answered] at failed
    exact explains_of_agreeable (agreeable_perform_apart within.subject _) failed

/-- From one token to the next, the request or call has left of the operation what it is for, or
nothing if it failed. -/
structure Settles (handle : Handle) (k : OperationKind) (leaves : Option Operation) (t : Token)
    (r : Result α) (t' : Token) : Prop where
  held : t'.operations.get? (handle, k) = if r.isOk then leaves else none
  explains : ∀ e, r = .error e → t.Explains (some k) e

theorem Settles.of_ok {a : α} {b : β} (settles : Settles handle k leaves t r t')
    (ok : r = .ok a) : Settles handle k leaves t (.ok b : Result β) t' where
  held := by
    rw [settles.held, ok]
    rfl
  explains e failed := by cases failed

theorem Settles.of_error (settles : Settles handle k leaves t r t') (failed : r = .error e) :
    Settles handle k leaves' t (.error e : Result β) t' where
  held := by
    rw [settles.held, failed]
    rfl
  explains e' same := by
    cases same
    exact settles.explains e failed

theorem Settles.map (settles : Settles handle k leaves t r t') (g : α → β) :
    Settles handle k leaves t (g <$> r) t' := by
  cases result : r with
  | ok a => exact settles.of_ok result
  | error e => exact settles.of_error result

theorem Settles.earlier {other : Option OperationKind} (framed : Framed handle other t t')
    (settles : Settles handle k leaves t' r t'') : Settles handle k leaves t r t'' where
  held := settles.held
  explains e failed := framed.explains (settles.explains e failed)

theorem settles_refuse {rv : Code} (other : ¬ Disagrees rv)
    (gone : t'.operations.get? (handle, k) = none) :
    Settles handle k leaves t (refuse rv t' : Answer shape × Token).1.result t' where
  held := gone
  explains e failed := by
    cases failed
    exact explains_of_other other

theorem settles_give {v : shape.Value} (left : t'.operations.get? (handle, k) = leaves) :
    Settles handle k leaves t (give v t' : Answer shape × Token).1.result t' where
  held := left
  explains e failed := by cases failed

theorem get?_dropOperation {f : Function}
    (ends : f.operation? = some k ∨ t.operations.get? (handle, k) = none) :
    (t.dropOperation handle f).operations.get? (handle, k) = none := by
  unfold dropOperation
  cases goes_on : f.operation? with
  | none =>
    rcases ends with some_kind | nothing
    · rw [goes_on] at some_kind
      cases some_kind
    · exact nothing
  | some j =>
    change (t.operations.erase (handle, j)).get? (handle, k) = none
    rw [Table.get?_erase]
    rcases ends with same | nothing
    · rw [goes_on] at same
      cases same
      simp
    · rw [nothing, ite_self]

theorem settles_answer (within : q.Within handle (some k)) (opened : handle ∈ t.sessions)
    (ends : q.function.operation? = some k ∨ t.operations.get? (handle, k) = none)
    (served : Settles handle k leaves (t.counted q.function) (perform q (t.counted q.function)).1.result
      (perform q (t.counted q.function)).2) :
    Settles handle k leaves t (t.answer q).1.result (t.answer q).2 := by
  rcases answer_cases within.session opened with ⟨rv, due, answered⟩ | ⟨_, answered⟩
  · rw [answered]
    refine ⟨get?_dropOperation (by rwa [operations_counted]), fun e failed => ?_⟩
    cases failed
    exact explains_of_due within.subject due
  · rw [answered]
    have framed : Framed handle none t (t.counted q.function) := framed_counted t _
    exact served.earlier framed

theorem settles_begin {code : Code} (idle : t.operations.get? (handle, k) = none) :
    Settles handle k (some ⟨code, []⟩) t (begin k handle code t).1.result
      (begin k handle code t).2 := by
  unfold begin
  split
  · exact settles_refuse (by decide) idle
  · rw [Table.contains, idle]
    exact settles_give (Table.get?_insert_self _ _ _)

theorem settles_feed {data : Bytes} (held : t.operations.get? (handle, k) = some op) :
    Settles handle k (some { op with data := op.data ++ data }) t (feed k handle data t).1.result
      (feed k handle data t).2 := by
  simp only [feed, held]
  exact settles_give (Table.get?_insert_self _ _ _)

theorem settles_check {data signature : Bytes}
    (held : t.operations.get? (handle, .verify) = some op) :
    Settles handle .verify none t (check handle data signature t).1.result
      (check handle data signature t).2 := by
  have gone : (t.operations.erase (handle, .verify)).get? (handle, .verify) = none := by
    simp [Table.get?_erase]
  simp only [check, held]
  split
  · exact settles_give gone
  · exact settles_refuse (by decide) gone

theorem settles_conclude {data : Bytes} {n : Nat}
    (held : t.operations.get? (handle, k) = some op) :
    Settles handle k none t (conclude k handle data (some n) t).1.result
      (conclude k handle data (some n) t).2 := by
  have gone : (t.operations.erase (handle, k)).get? (handle, k) = none := by
    simp [Table.get?_erase]
  simp only [conclude, held, deliver, Option.isSome_some, ↓reduceIte]
  split
  · exact settles_refuse (by decide) gone
  · exact ⟨gone, fun e failed => by cases failed⟩

theorem settles_stream {data : Bytes} (held : t.operations.get? (handle, k) = some op) :
    Settles handle k (some op) t
      (stream k handle data (some (cipher data).length) t).1.result
      (stream k handle data (some (cipher data).length) t).2 := by
  simp only [stream, held, deliver, Nat.lt_irrefl, ↓reduceIte]
  exact ⟨held, fun e failed => by cases failed⟩

open Session SessionM

variable {s : Session}

theorem ends_asked (within : q.Within handle (some k)) (ends : q.function.operation? = some k)
    (opened : handle ∈ t.sessions)
    (served : ∀ t', t'.operations = t.operations →
      Settles handle k leaves t' (perform q t').1.result (perform q t').2) :
    Ends (ask Token.module q) s t fun r _ t' => Settles handle k leaves t r t' := by
  have settles : Settles handle k leaves t (t.answer q).1.result (t.answer q).2 :=
    settles_answer within opened (.inl ends) (served _ (operations_counted _ _))
  exact ends_askAnswer_bind (ends_ofResult settles)

theorem ends_sizedOutput {q : Option Nat → Request .length} {length : Nat}
    (within : ∀ capacity, (q capacity).Within handle (some k))
    (ends : ∀ capacity, (q capacity).function.operation? = some k)
    (asks : ∀ t, t.operations.get? (handle, k) = some op → perform (q none) t = give length t)
    (gives : ∀ t, t.operations.get? (handle, k) = some op → Settles handle k leaves t
      (perform (q (some length)) t).1.result (perform (q (some length)) t).2)
    (opened : handle ∈ t.sessions) (held : t.operations.get? (handle, k) = some op) :
    Ends (sizedOutput Token.module q) s t fun r _ t' => Settles handle k leaves t r t' := by
  have first : Settles handle k (some op) t (t.answer (q none)).1.result (t.answer (q none)).2 := by
    refine settles_answer (within none) opened (.inl (ends none)) ?_
    have still : (t.counted (q none).function).operations.get? (handle, k) = some op := by simp [held]
    rw [asks _ still]
    exact settles_give still
  have framed : Framed handle (some k) t (t.answer (q none)).2 := framed_answer (within none)
  refine ends_ask_bind (fun size found => ?_) fun e failed => first.of_error failed
  have found : (t.answer (q none)).1.result = .ok size := found
  have same : size = length := by
    rcases answer_cases (within none).session opened with ⟨rv, due, answered⟩ | ⟨_, answered⟩
    · rw [answered] at found
      cases found
    · rw [answered, asks _ (by simp [held])] at found
      cases found
      rfl
  have still : (t.answer (q none)).2.operations.get? (handle, k) = some op := by
    rw [first.held, found]
    rfl
  have opened' : handle ∈ (t.answer (q none)).2.sessions := by rwa [framed.sessions]
  have second := (settles_answer (within (some length)) opened' (.inl (ends _))
    (gives _ (by simp [still]))).earlier framed
  rw [same]
  refine quiet_reserve.ends (ends_askAnswer_bind ?_)
  exact ends_ofResult_bind (fun n given => ends_pure (second.of_ok given))
    fun e failed => second.of_error failed

theorem ends_conclude {q : Option Nat → Request .length} {data : Bytes}
    (within : ∀ capacity, (q capacity).Within handle (some k))
    (ends : ∀ capacity, (q capacity).function.operation? = some k)
    (concludes : ∀ capacity t, perform (q capacity) t = conclude k handle data capacity t)
    (opened : handle ∈ t.sessions) (held : t.operations.get? (handle, k) = some op) :
    Ends (sizedOutput Token.module q) s t fun r _ t' => Settles handle k none t r t' := by
  have asks : ∀ t, t.operations.get? (handle, k) = some op →
      perform (q none) t = give (output k op data).length t := by
    intro t held
    simp [concludes, conclude, held, deliver]
  refine ends_sizedOutput within ends asks (fun t held => ?_) opened held
  rw [concludes]
  exact settles_conclude held

theorem ends_started {m : Mechanism} {q : Handle → MechanismBlock → Request .done}
    (within : ∀ b, (q s.handle b).Within s.handle (some k))
    (begins : ∀ b t, perform (q s.handle b) t = begin k s.handle b.code t)
    (accepted : s.checkStart k = .ok ()) (opened : s.handle ∈ t.sessions)
    (idle : t.operations.get? (s.handle, k) = none) :
    Ends (starting Token.module k m q) s t fun r _ t' =>
      Settles s.handle k (some ⟨m.code, []⟩) t r t' := by
  refine (ends_starting accepted).mono ?_
  intro r s' t' came
  obtain ⟨rfl, rfl⟩ := came
  refine settles_answer (within _) opened (.inr idle) ?_
  rw [begins]
  exact settles_begin (by rwa [operations_counted])

/-- An accepted call settles its operation. -/
theorem ends_perform {c : Call} {role : Role} (belongs : c.role? = some (k, role))
    (other : k ≠ .findObjects) (accepted : s.check k role = .ok ()) (opened : s.handle ∈ t.sessions)
    (active : s.state k ≠ .idle ↔ (t.operations.get? (s.handle, k)).isSome) :
    Ends (Session.perform Token.module c) s t fun r _ t' =>
      Settles s.handle k (c.leaves (t.operations.get? (s.handle, k))) t r t' := by
  have idle : s.checkStart k = .ok () → t.operations.get? (s.handle, k) = none := by
    intro passed
    simpa [idle_of_checkStart passed] using active
  have running : role.goesOn → ∃ op, t.operations.get? (s.handle, k) = some op :=
    fun goes_on => Option.isSome_iff_exists.mp (active.mp (active_of_check accepted goes_on))
  cases c <;> cases belongs
  case init k m key =>
    exact (ends_started (fun _ => ⟨rfl, rfl⟩) (fun _ _ => rfl) accepted opened (idle accepted)).map
      fun r _ t' settles => settles.map _
  case digestInit m =>
    exact (ends_started (fun _ => ⟨rfl, rfl⟩) (fun _ _ => rfl) accepted opened (idle accepted)).map
      fun r _ t' settles => settles.map _
  case oneShot k data =>
    obtain ⟨op, held⟩ := running trivial
    have ends := ends_conclude (s := s) (q := Request.oneShot k s.handle data)
      (fun _ => ⟨rfl, rfl⟩) (fun _ => rfl) (fun _ _ => rfl) opened held
    refine (ends_of_accepted accepted ends.finishing).map ?_
    intro r _ t' came
    obtain ⟨_, settles, _⟩ := came
    exact settles.map _
  case stream k data =>
    obtain ⟨op, held⟩ := running trivial
    have asks : ∀ t, t.operations.get? (s.handle, k.kind) = some op →
        perform (.stream k s.handle data none) t = give (cipher data).length t := by
      intro t held
      simp [perform, Token.stream, held, deliver]
    have ends := ends_sizedOutput (s := s) (q := Request.stream k s.handle data)
      (fun _ => ⟨rfl, rfl⟩) (fun _ => rfl) asks (fun _ held => settles_stream held) opened held
    refine (ends_of_accepted accepted ends.updating).map ?_
    intro r _ t' came
    obtain ⟨_, settles, _⟩ := came
    rw [held]
    exact settles.map _
  case feed k data =>
    obtain ⟨op, held⟩ := running trivial
    have ends := ends_asked (s := s) (q := Request.feed k s.handle data) ⟨rfl, rfl⟩ rfl opened
      fun t' same => settles_feed (same ▸ held)
    refine (ends_of_accepted accepted ends.updating).map ?_
    intro r _ t' came
    obtain ⟨_, settles, _⟩ := came
    rw [held]
    exact settles.map _
  case finish k =>
    obtain ⟨op, held⟩ := running trivial
    have ends := ends_conclude (s := s) (q := Request.finish k s.handle)
      (fun _ => ⟨rfl, rfl⟩) (fun _ => rfl) (fun _ _ => rfl) opened held
    refine (ends_of_accepted accepted ends.finishing).map ?_
    intro r _ t' came
    obtain ⟨_, settles, _⟩ := came
    exact settles.map _
  case verify data signature =>
    obtain ⟨op, held⟩ := running trivial
    have ends := ends_asked (s := s) (q := Request.verify s.handle data signature) ⟨rfl, rfl⟩ rfl
      opened fun t' same => settles_check (same ▸ held)
    refine (ends_of_accepted accepted ends.finishing).map ?_
    intro r _ t' came
    obtain ⟨_, settles, _⟩ := came
    exact settles.map _
  case verifyFinal signature =>
    obtain ⟨op, held⟩ := running trivial
    have ends := ends_asked (s := s) (q := Request.verifyFinal s.handle signature) ⟨rfl, rfl⟩ rfl
      opened fun t' same => settles_check (same ▸ held)
    refine (ends_of_accepted accepted ends.finishing).map ?_
    intro r _ t' came
    obtain ⟨_, settles, _⟩ := came
    exact settles.map _
  all_goals exact absurd rfl other

end Token

end Cryptoki
