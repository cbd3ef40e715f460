import Cryptoki.Proofs.Session.Twins
import Cryptoki.Proofs.Token.Undisturbed

/-!
Sessions of one token do not interfere, nor do the kinds of operation in a session. As long as no
failure is injected, what the calls of one kind come to in a session is what they come to alone,
whatever else happens in between.
-/
namespace Cryptoki

namespace Token

variable {t t' t₁ t₂ : Token} {handle h : Handle} {k : OperationKind}
  {kind : Option OperationKind} {shape : Shape} {q : Request shape}

/-- Both serve the session, and have the same operation of the kind under way there. -/
structure Alike (handle : Handle) (k : OperationKind) (t₁ t₂ : Token) : Prop where
  first : Admits handle t₁
  second : Admits handle t₂
  operation : t₁.operations.get? (handle, k) = t₂.operations.get? (handle, k)

structure Likewise (handle : Handle) (k : OperationKind) (x y : Answer shape × Token) : Prop where
  answer : x.1 = y.1
  operation : x.2.operations.get? (handle, k) = y.2.operations.get? (handle, k)

section

variable (same : t₁.operations.get? (handle, k) = t₂.operations.get? (handle, k))
include same

theorem likewise_refuse (rv : Code) :
    Likewise handle k (refuse rv t₁ : Answer shape × Token) (refuse rv t₂) := ⟨rfl, same⟩

theorem likewise_give (v : shape.Value) :
    Likewise handle k (give v t₁ : Answer shape × Token) (give v t₂) := ⟨rfl, same⟩

theorem likewise_deliver (b : Bytes) (capacity : Option Nat) :
    Likewise handle k (deliver b capacity t₁) (deliver b capacity t₂) := by
  unfold deliver
  split
  · exact likewise_give same _
  · split
    · exact likewise_refuse same _
    · exact ⟨rfl, same⟩

theorem likewise_begin (code : Code) :
    Likewise handle k (begin k handle code t₁) (begin k handle code t₂) := by
  have free : t₁.operations.contains (handle, k) = t₂.operations.contains (handle, k) := by
    rw [Table.contains, Table.contains, same]
  simp only [begin, free]
  by_cases invalid : code = vendorBit
  · simp only [if_pos invalid]
    exact likewise_refuse same _
  · by_cases busy : t₂.operations.contains (handle, k) = true
    · simp only [if_neg invalid, if_pos busy]
      exact likewise_refuse same _
    · simp only [if_neg invalid, if_neg busy]
      refine likewise_give ?_ _
      rw [Table.get?_insert_self, Table.get?_insert_self]

theorem likewise_conclude (data : Bytes) (capacity : Option Nat) :
    Likewise handle k (conclude k handle data capacity t₁)
      (conclude k handle data capacity t₂) := by
  simp only [conclude, same]
  cases t₂.operations.get? (handle, k) with
  | none => exact likewise_refuse same _
  | some op =>
    refine likewise_deliver ?_ _ capacity
    split
    · simp [Table.get?_erase]
    · exact same

theorem likewise_stream (data : Bytes) (capacity : Option Nat) :
    Likewise handle k (stream k handle data capacity t₁) (stream k handle data capacity t₂) := by
  simp only [stream, same]
  cases t₂.operations.get? (handle, k) with
  | none => exact likewise_refuse same _
  | some op => exact likewise_deliver same _ capacity

theorem likewise_feed (data : Bytes) :
    Likewise handle k (feed k handle data t₁) (feed k handle data t₂) := by
  simp only [feed, same]
  cases t₂.operations.get? (handle, k) with
  | none => exact likewise_refuse same _
  | some op =>
    refine likewise_give ?_ _
    rw [Table.get?_insert_self, Table.get?_insert_self]

end

theorem likewise_check
    (same : t₁.operations.get? (handle, .verify) = t₂.operations.get? (handle, .verify))
    (data signature : Bytes) :
    Likewise handle .verify (check handle data signature t₁) (check handle data signature t₂) := by
  have gone : (t₁.operations.erase (handle, .verify)).get? (handle, .verify) =
      (t₂.operations.erase (handle, .verify)).get? (handle, .verify) := by simp [Table.get?_erase]
  simp only [check, same]
  cases t₂.operations.get? (handle, .verify) with
  | none => exact likewise_refuse same _
  | some op =>
    dsimp only
    split
    · exact likewise_give gone _
    · exact likewise_refuse gone _

theorem likewise_perform (within : q.Within handle (some k)) (other : k ≠ .findObjects)
    (same : t₁.operations.get? (handle, k) = t₂.operations.get? (handle, k)) :
    Likewise handle k (perform q t₁) (perform q t₂) := by
  obtain ⟨session, subject⟩ := within
  cases q <;> cases session <;> cases subject
  case init => exact likewise_begin same _
  case digestInit => exact likewise_begin same _
  case oneShot => exact likewise_conclude same _ _
  case stream => exact likewise_stream same _ _
  case feed => exact likewise_feed same _
  case finish => exact likewise_conclude same _ _
  case verify => exact likewise_check same _ _
  case verifyFinal => exact likewise_check same _ _
  all_goals exact absurd rfl other

theorem agreed_of_within (within : q.Within handle (some k)) (other : k ≠ .findObjects) :
    SessionM.Agreed Token.module (Alike handle k) q := by
  intro t₁ t₂ alike
  obtain ⟨first, second, same⟩ := alike
  have answered : ∀ {t}, Admits handle t → t.answer q = perform q (t.record q.function) :=
    fun admits => answer_of_clear admits.clear within.session admits.opened
  have served : Likewise handle k (t₁.answer q) (t₂.answer q) := by
    rw [answered first, answered second]
    exact likewise_perform within other same
  exact ⟨served.answer, first.framed (framed_answer within), second.framed (framed_answer within),
    served.operation⟩

end Token

namespace Bench

open Session

variable {b b₁ b₂ : Bench} {handle : Handle} {k : OperationKind} {d d₁ d₂ : Desk} {e : Event}

/-- The session is at both benches, with the same operation of the kind, and both tokens have the
same of it under way. -/
structure Parallel (handle : Handle) (k : OperationKind) (b₁ : Bench) (d₁ : Desk) (b₂ : Bench)
    (d₂ : Desk) : Prop where
  calm₁ : b₁.Calm
  calm₂ : b₂.Calm
  present₁ : b₁.desks.get? handle = some d₁
  present₂ : b₂.desks.get? handle = some d₂
  operation : d₁.session.operation k = d₂.session.operation k
  held : b₁.host.state.operations.get? (handle, k) = b₂.host.state.operations.get? (handle, k)

theorem Parallel.apart (parallel : Parallel handle k b₁ d₁ b₂ d₂) (spares : e.Spares handle)
    (other : e.own? handle k = none) :
    ∃ d₁', Parallel handle k (b₁.step e) d₁' b₂ d₂ ∧
      ofKind k d₁'.history = ofKind k d₁.history := by
  obtain ⟨d₁', undisturbed⟩ :=
    undisturbed_step parallel.calm₁ parallel.present₁ spares other
  refine ⟨d₁', ⟨parallel.calm₁.step spares.quiet, parallel.calm₂, undisturbed.present,
    parallel.present₂, ?_, ?_⟩, undisturbed.history⟩
  · rw [undisturbed.operation, parallel.operation]
  · rw [undisturbed.held, parallel.held]

theorem Parallel.together (parallel : Parallel handle k b₁ d₁ b₂ d₂) {c : Call}
    (own : c.kind? = some k) (other : k ≠ .findObjects) :
    ∃ r s₁ s₂, Parallel handle k (b₁.step (.call handle c)) ⟨s₁, d₁.history ++ [(c, r)]⟩
      (b₂.step (.call handle c)) ⟨s₂, d₂.history ++ [(c, r)]⟩ := by
  obtain ⟨calm₁, calm₂, present₁, present₂, operation, held⟩ := parallel
  have twins : Session.Twins handle k d₁.session d₂.session :=
    ⟨(calm₁.desks handle d₁ present₁).own, (calm₂.desks handle d₂ present₂).own, operation⟩
  have alike : Token.Alike handle k b₁.host.state b₂.host.state :=
    ⟨calm₁.admits present₁, calm₂.admits present₂, held⟩
  have blind : SessionM.Blind handle k (Token.Alike handle k) (perform Token.module c) :=
    blind_perform own other fun q within => Token.agreed_of_within within other
  obtain ⟨results, twins', alike'⟩ :=
    blind d₁.session d₂.session twins b₁.host b₂.host alike
  have next₁ : (b₁.step (.call handle c)).Calm := calm₁.step fun _ _ _ same => nomatch same
  have next₂ : (b₂.step (.call handle c)).Calm := calm₂.step fun _ _ _ same => nomatch same
  simp only [step, present₁, present₂] at next₁ next₂ ⊢
  refine ⟨_, _, _, next₁, next₂, Table.get?_insert_self _ _ _, ?_, twins'.operation,
    alike'.operation⟩
  have results : (Session.step Token.module c d₁.session b₁.host).1 =
    (Session.step Token.module c d₂.session b₂.host).1 := results
  rw [results]
  exact Table.get?_insert_self _ _ _

theorem ofKind_append (k : OperationKind) (history : History) {c : Call}
    (own : c.kind? = some k) (r : Result Outcome) :
    ofKind k (history ++ [(c, r)]) = ofKind k history ++ [(c, r)] := by
  simp [ofKind, own]

/-- Along a run, where only the calls of the kind in the session are made at the second bench. -/
theorem Parallel.run {events : List Event} (parallel : Parallel handle k b₁ d₁ b₂ d₂)
    (other : k ≠ .findObjects) (spares : ∀ e ∈ events, e.Spares handle) :
    let calls := events.filterMap (Event.own? handle k)
    ∃ d₁' d₂' own, Parallel handle k (b₁.run events) d₁' (b₂.run (calls.map (.call handle))) d₂' ∧
      own.map (·.1) = calls ∧ ofKind k d₁'.history = ofKind k d₁.history ++ own ∧
      d₂'.history = d₂.history ++ own := by
  induction events generalizing b₁ d₁ b₂ d₂ with
  | nil => exact ⟨d₁, d₂, [], parallel, rfl, by simp, by simp⟩
  | cons e rest ih =>
    obtain ⟨first, later⟩ := List.forall_mem_cons.mp spares
    cases owned : e.own? handle k with
    | none =>
      obtain ⟨d, next, unsaid⟩ := parallel.apart first owned
      obtain ⟨d₁', d₂', own, parallel', calls, history₁, history₂⟩ := ih next later
      rw [List.filterMap_cons_none owned]
      exact ⟨d₁', d₂', own, parallel', calls, by rw [history₁, unsaid], history₂⟩
    | some c =>
      obtain ⟨rfl, kind⟩ := Event.own?_eq_some.mp owned
      obtain ⟨r, s₁, s₂, next⟩ := parallel.together kind other
      obtain ⟨d₁', d₂', own, parallel', calls, history₁, history₂⟩ := ih next later
      rw [List.filterMap_cons_some owned]
      refine ⟨d₁', d₂', (c, r) :: own, parallel', by rw [List.map_cons, calls], ?_, ?_⟩
      · rw [history₁, ofKind_append k _ kind, List.append_assoc, List.singleton_append]
      · rw [history₂, List.append_assoc, List.singleton_append]

/-- What the calls of a kind of operation come to in a session, and where they leave the operation,
is what they come to and leave when nothing else is done: no call of another kind, no other session,
none that is opened or closed, and no object. -/
theorem kinds_do_not_interfere (calm : b.Calm) (present : b.desks.get? handle = some d)
    (other : k ≠ .findObjects) (events : List Event) (spares : ∀ e ∈ events, e.Spares handle) :
    let calls := events.filterMap (Event.own? handle k)
    let together := b.run events
    let alone := b.run (calls.map (.call handle))
    ∃ d₁ d₂ own, together.desks.get? handle = some d₁ ∧ alone.desks.get? handle = some d₂ ∧
      own.map (·.1) = calls ∧
      ofKind k d₁.history = ofKind k d.history ++ own ∧ d₂.history = d.history ++ own ∧
      d₁.session.state k = d₂.session.state k ∧
      d₁.session.operation k = d₂.session.operation k ∧
      together.host.state.operations.get? (handle, k) =
        alone.host.state.operations.get? (handle, k) := by
  intro calls together alone
  have start : Parallel handle k b d b d := ⟨calm, calm, present, present, rfl, rfl⟩
  obtain ⟨d₁, d₂, own, parallel, made, history₁, history₂⟩ := start.run other spares
  exact ⟨d₁, d₂, own, parallel.present₁, parallel.present₂, made, history₁, history₂,
    congrArg Operation.state parallel.operation, parallel.operation, parallel.held⟩

def shared : List Event := [
  .openSession 1 serialFlag,
  .openSession 1 serialFlag,
  .call 2 (.init .encrypt (.plain 0x1082) 7)]

def interleaved : List Event := [
  .call 1 (.digestInit (.plain 0x250)),
  .call 1 (.init .sign (.plain 0x40) 7),
  .call 2 (.stream .encrypt [1]),
  .call 1 (.feed .digest [2]),
  .call 2 (.digestInit (.plain 0x220)),
  .call 1 (.feed .sign [3]),
  .call 2 (.feed .digest [4]),
  .addObject [],
  .call 1 (.findObjects 2 .empty),
  .call 1 (.digestInit (.plain 0x220)),
  .close 2,
  .call 1 (.feed .digest [5]),
  .openSession 1 serialFlag,
  .call 1 (.finish .digest)]

/-- The digest comes to what it comes to alone: its second start is refused, and what the other
session and the signature were fed is not in it. -/
theorem interleaved_digest_is_undisturbed :
    let alone := ([.digestInit (.plain 0x250), .feed .digest [2], .digestInit (.plain 0x220),
      .feed .digest [5], .finish .digest] : List Call)
    let b := new.run shared
    ∃ d₁ d₂ own, (b.run interleaved).desks.get? 1 = some d₁ ∧
      (b.run (alone.map (.call 1))).desks.get? 1 = some d₂ ∧ own.map (·.1) = alone ∧
      ofKind .digest d₁.history = own ∧ d₂.history = own ∧
      d₁.session.state .digest = d₂.session.state .digest := by
  have calm : (new.run shared).Calm := calm_run shared (by simp [shared])
  have present : (new.run shared).desks.get? 1 =
      some (((new.run shared).desks.get? 1).get rfl) := rfl
  have spares : ∀ e ∈ interleaved, e.Spares 1 := by simp [interleaved, Event.Spares]
  obtain ⟨d₁, d₂, own, present₁, present₂, made, history₁, history₂, state, _⟩ :=
    kinds_do_not_interfere calm present (show OperationKind.digest ≠ .findObjects by decide)
      interleaved spares
  exact ⟨d₁, d₂, own, present₁, present₂, made, history₁, history₂, state⟩

end Bench

end Cryptoki
