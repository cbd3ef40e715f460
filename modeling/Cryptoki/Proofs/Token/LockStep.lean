import Cryptoki.Proofs.Session.Protocol
import Cryptoki.Proofs.Token.Bench
import Cryptoki.Proofs.Token.Opening
import Cryptoki.Proofs.Token.Operations

/-!
Over any run of a bench, whatever failures are injected, each session and the token agree on which
operations are under way, and the token holds of each what the history of the session says.
-/
namespace Cryptoki

open Session

/-- The session has an operation of the kind under way exactly if the token holds one, and that is
the one the history tells of. -/
structure Mirrors (k : OperationKind) (state : OperationState) (history : History)
    (held : Option Token.Operation) : Prop where
  active : state ≠ .idle ↔ held.isSome
  mechanism : ∀ op, held = some op → startedWith k history = some op.mechanism
  data : ∀ op, held = some op → op.data = (chunks k history).flatten

section

variable {k : OperationKind} {state : OperationState} {history : History}
  {held : Option Token.Operation} {c : Call} {v : Outcome} {r : Result Outcome}

theorem mirrors_idle : Mirrors k .idle history none where
  active := by simp
  mechanism op none_held := by cases none_held
  data op none_held := by cases none_held

theorem Mirrors.silent {e : Call × Result Outcome} (mirrors : Mirrors k state history held)
    (silent : isStart k e = false ∧ chunk? k e = none) :
    Mirrors k state (history ++ [e]) held where
  active := mirrors.active
  mechanism op holds := by
    rw [startedWith_append silent.1]
    exact mirrors.mechanism op holds
  data op holds := by
    rw [chunks_append silent.1, silent.2]
    simpa using mirrors.data op holds

theorem Mirrors.updated (mirrors : Mirrors k state history held) (active : state ≠ .idle) :
    Mirrors k .updated history held where
  active := by simpa [active] using mirrors.active
  mechanism := mirrors.mechanism
  data := mirrors.data

theorem mirrors_start {code : Code} (start : c.role? = some (k, .start))
    (mechanism : c.mechanism? = some code) :
    Mirrors k .initialized (history ++ [(c, .ok v)]) (some ⟨code, []⟩) := by
  have starts : isStart k (c, .ok v) := by simp [isStart, start, Except.isOk, Except.toBool]
  constructor
  · simp
  · intro op holds
    cases holds
    rw [startedWith_append_start starts]
    exact mechanism
  · intro op holds
    cases holds
    rw [chunks_append_start starts]
    rfl

theorem Mirrors.feed {f : Feed} {data : Bytes} (mirrors : Mirrors f.kind state history held)
    (active : state ≠ .idle) :
    Mirrors f.kind .updated (history ++ [(.feed f data, .ok v)])
      ((Call.feed f data).leaves held) := by
  have other : isStart f.kind (.feed f data, .ok v) = false := by simp [isStart, Call.role?]
  have fed : chunk? f.kind (.feed f data, .ok v) = some data := by simp [chunk?]
  constructor
  · simpa [Call.leaves, active] using mirrors.active
  · intro op holds
    obtain ⟨before, held_before, rfl⟩ := Option.map_eq_some_iff.mp holds
    rw [startedWith_append other]
    exact mirrors.mechanism before held_before
  · intro op holds
    obtain ⟨before, held_before, rfl⟩ := Option.map_eq_some_iff.mp holds
    rw [chunks_append other, fed]
    simp [mirrors.data before held_before]

end

namespace Session

variable {l : Ledger} {s : Session} {t : Token} {k : OperationKind} {history : History}

theorem next_of_failure (role : Role) (started op : Operation) :
    role.next started op false = .idle := by
  cases role <;> rfl

theorem mirrors_success {c : Call} {role : Role} {op : Operation} {held : Option Token.Operation}
    {v : Outcome} (belongs : c.role? = some (k, role)) (other : k ≠ .findObjects)
    (active : role.goesOn → op.state ≠ .idle) (mirrors : Mirrors k op.state history held) :
    Mirrors k (role.next c.started op true).state (history ++ [(c, .ok v)]) (c.leaves held) := by
  cases c <;> cases belongs
  case init => exact mirrors_start rfl rfl
  case digestInit => exact mirrors_start rfl rfl
  case stream f data =>
    exact (mirrors.updated (active trivial)).silent ⟨by simp [isStart, Call.role?], rfl⟩
  case feed => exact mirrors.feed (active trivial)
  case oneShot | finish | verify | verifyFinal =>
    exact mirrors_idle.silent ⟨by simp [isStart, Call.role?], rfl⟩
  all_goals exact absurd rfl other

theorem mirrors_accepted {c : Call} {role : Role} (belongs : c.role? = some (k, role))
    (other : k ≠ .findObjects) (accepted : s.check k role = .ok ())
    (cleared : s.state k = .idle → s.operation k = .idle) (opened : s.handle ∈ t.sessions)
    (mirrors : Mirrors k (s.state k) history (t.operations.get? (s.handle, k)))
    (journal : Journal) :
    let after := step Token.module c s ⟨t, journal⟩
    Mirrors k (after.2.1.state k) (history ++ [(c, after.1)])
        (after.2.2.state.operations.get? (s.handle, k)) ∧
      ∀ e, after.1 = .error e → t.Explains (some k) e := by
  obtain ⟨xs, r, s', h', run, _, _, _, rfl⟩ := does_perform belongs accepted cleared ⟨t, journal⟩
  have settles := Token.ends_perform belongs other accepted opened mirrors.active journal
  rw [run] at settles
  rw [step_of_perform run]
  refine ⟨?_, settles.explains⟩
  dsimp only
  rw [settles.held, Session.state, operation_setOperation]
  cases r with
  | error e =>
    change Mirrors k (role.next c.started (s.operation k) false).state _ none
    rw [next_of_failure]
    exact mirrors_idle.silent silent_of_error
  | ok v => exact mirrors_success belongs other (active_of_check accepted) mirrors

/-- Any call, where the session and the token agreed before. -/
theorem mirrors_step (agrees : Agrees l s) (other : k ≠ .findObjects)
    (opened : s.handle ∈ t.sessions)
    (mirrors : Mirrors k (s.state k) history (t.operations.get? (s.handle, k))) (c : Call)
    (journal : Journal) :
    let after := step Token.module c s ⟨t, journal⟩
    Mirrors k (after.2.1.state k) (history ++ [(c, after.1)])
      (after.2.2.state.operations.get? (s.handle, k)) := by
  intro after
  have follows : Follows Token.module l c (s, ⟨t, journal⟩) after.1 after.2 :=
    (step_follows agrees c ⟨t, journal⟩).2
  by_cases same : c.kind? = some k
  · obtain ⟨⟨_, role⟩, belongs, rfl⟩ := Option.map_eq_some_iff.mp same
    cases decided : l.refusesRole _ role with
    | false =>
      exact (mirrors_accepted belongs other (check_of_accepts agrees decided) (agrees.cleared _) opened
        mirrors journal).1
    | true =>
      obtain ⟨e, failed, _, unchanged⟩ := follows.refused (by simp [Ledger.refuses, belongs, decided])
      have unchanged : after.2 = (s, ⟨t, journal⟩) := unchanged
      have failed : after.1 = .error e := failed
      rw [failed, unchanged]
      exact mirrors.silent silent_of_error
  · -- Neither side is touched by a call of another kind, nor does its history speak of the operation.
    have framed := (framed_step c s t journal).2
    have kept : after.2.1.state k = s.state k :=
      congrArg Operation.state (follows.others k same)
    rw [kept, framed.operations s.handle k fun _ => same]
    exact mirrors.silent (silent_of_kind_ne same)

theorem explains_step (agrees : Agrees l s) (opened : s.handle ∈ t.sessions) (c : Call)
    (other : c.kind? ≠ some .findObjects)
    (mirrors : ∀ k, k ≠ .findObjects →
      Mirrors k (s.state k) history (t.operations.get? (s.handle, k))) (journal : Journal) {e : Error}
    (failed : (step Token.module c s ⟨t, journal⟩).1 = .error e) : t.Explains c.kind? e := by
  cases belongs : c.role? with
  | none =>
    have apart : c.kind? = none := by simp [Call.kind?, belongs]
    have keeps : SessionM.Keeps s.handle (fun t' => Token.Framed s.handle none t t' ∧ s.handle ∈ t'.sessions)
        (t.Explains none) (perform Token.module c) := by
      -- Along the way the session stays open, else a request could be refused for that alone.
      refine keeps_perform ?_ c ?_
      · intro e own rv same
        cases same
        exact absurd rfl own
      · intro shape q within a holds
        obtain ⟨framed, opened⟩ := holds
        rw [apart] at within
        have next : Token.Framed s.handle none a (a.answer q).2 := Token.framed_answer within
        refine ⟨⟨framed.trans next, ?_⟩, fun e failed => framed.explains ?_⟩
        · change s.handle ∈ (a.answer q).2.sessions
          rwa [next.sessions]
        · exact Token.explains_answer within opened failed
    rw [apart]
    exact (keeps s t rfl ⟨Token.Framed.refl t, opened⟩ journal).2.2 e failed
  | some owner =>
    obtain ⟨k, role⟩ := owner
    have same : c.kind? = some k := by simp [Call.kind?, belongs]
    rw [same] at other ⊢
    have other : k ≠ .findObjects := fun is_search => other (congrArg some is_search)
    cases decided : l.refusesRole k role with
    | false =>
      exact (mirrors_accepted belongs other (check_of_accepts agrees decided) (agrees.cleared k) opened
        (mirrors k other) journal).2 e failed
    | true =>
      obtain ⟨e', error, reason⟩ := check_of_refuses agrees decided
      rw [step_of_perform (perform_of_refused belongs error)] at failed
      cases failed
      intro rv same
      cases same
      cases reason

end Session

/-- The session is open, and mirrored by the token in all kinds but searches. -/
structure Desk.InStep (t : Token) (handle : Handle) (d : Desk) : Prop where
  own : d.session.handle = handle
  opened : handle ∈ t.sessions
  agrees : ∃ l, Agrees l d.session
  mirrors : ∀ k, k ≠ .findObjects →
    Mirrors k (d.session.state k) d.history (t.operations.get? (handle, k))

namespace Bench

variable {b b' : Bench} {injected : Function → Code → Prop} {own : Option Handle}

/-- All sessions are in step with the token, and all failures to come have been injected. -/
structure InStep (injected : Function → Code → Prop) (b : Bench) : Prop where
  sound : b.host.state.Sound
  pending : ∀ f rv, b.host.state.Pending f rv → injected f rv
  desks : ∀ h d, b.desks.get? h = some d → d.InStep b.host.state h

theorem inStep_new : InStep injected new where
  sound := Token.sound_new
  pending f rv pending := by
    obtain ⟨skip, found⟩ := pending
    cases found
  desks h d found := by cases found

theorem InStep.spares (inStep : InStep injected b)
    (spares : Token.Spares own b.host.state b'.host.state)
    (pending : ∀ f rv, b'.host.state.Pending f rv → injected f rv)
    (others : ∀ h, own ≠ some h → b'.desks.get? h = b.desks.get? h)
    (desk : ∀ h d, own = some h → b'.desks.get? h = some d → d.InStep b'.host.state h) :
    InStep injected b' where
  sound := inStep.sound.spares spares
  pending := pending
  desks h d found := by
    by_cases same : own = some h
    · exact desk h d same found
    · rw [others h same] at found
      have before := inStep.desks h d found
      refine ⟨before.own, (spares.sessions h same).mpr before.opened, before.agrees, ?_⟩
      intro k other
      rw [spares.operations h k same]
      exact before.mirrors k other

theorem inStep_openSession (inStep : InStep injected b) (slot flags : UInt64) :
    InStep injected (b.step (.openSession slot flags)) := by
  rcases Token.openOn_cases slot flags b.host with
    ⟨e, host, opened, framed⟩ | ⟨h, host, opened, opens⟩
  · simp only [step, opened]
    refine inStep.spares framed.spares_all ?_ (fun _ _ => rfl) (fun _ _ same => by cases same)
    intro f rv later
    exact inStep.pending f rv (framed.pending f rv later)
  · simp only [step, opened]
    refine inStep.spares opens.spares ?_ ?_ ?_
    · intro f rv later
      exact inStep.pending f rv (opens.pending f rv later)
    · intro h' other
      exact (Table.get?_insert _ _ _ _).trans (if_neg fun same => other (congrArg some same.symm))
    · intro h' d same found
      cases same
      cases (Table.get?_insert_self _ _ _).symm.trans found
      refine ⟨rfl, by simp [opens.sessions], ⟨_, agrees_fresh h slot⟩, fun k other => ?_⟩
      have unused : b.host.state.lastSession < h := opens.handle ▸ Nat.lt_succ_self _
      rw [opens.operations, inStep.sound.unused h k unused]
      exact mirrors_idle

theorem inStep_call (inStep : InStep injected b) (handle : Handle) (c : Call) :
    InStep injected (b.step (.call handle c)) := by
  cases found : b.desks.get? handle with
  | none =>
    simp only [step, found]
    exact inStep
  | some d =>
    obtain ⟨own, opened, ⟨l, agrees⟩, mirrors⟩ := inStep.desks handle d found
    subst own
    simp only [step, found]
    have kept := framed_step c d.session b.host.state b.host.journal
    have framed := kept.2
    refine inStep.spares (framed.spares (inStep.sound.known _ opened)) ?_ ?_ ?_
    · intro f rv later
      exact inStep.pending f rv (framed.pending f rv later)
    · intro h other
      exact (Table.get?_insert _ _ _ _).trans (if_neg fun same => other (congrArg some same.symm))
    · intro h d' same present
      cases same
      cases (Table.get?_insert_self _ _ _).symm.trans present
      refine ⟨kept.1, ?_, ⟨_, (step_follows agrees c b.host).1⟩, fun k other => ?_⟩
      · rw [framed.sessions]
        exact opened
      · exact mirrors_step agrees other opened (mirrors k other) c b.host.journal

theorem inStep_leave (inStep : InStep injected b) {handle : Handle} {d : Desk} {host : Host Token}
    (found : b.desks.get? handle = some d)
    (closed : host.state = (b.host.state.answer (.closeSession handle)).2) :
    InStep injected ⟨host, b.desks.erase handle⟩ := by
  have opened := (inStep.desks handle d found).opened
  have closing := Token.close_cases (inStep.sound.known _ opened)
  rw [← closed] at closing
  refine inStep.spares closing.1 ?_ ?_ ?_
  · intro f rv later
    exact inStep.pending f rv (closing.2 f rv later)
  · intro h other
    exact (Table.get?_erase _ _ _).trans (if_neg fun same => other (congrArg some same.symm))
  · intro h d' same present
    cases same
    have gone : (b.desks.erase handle).get? handle = none :=
      (Table.get?_erase _ _ _).trans (if_pos rfl)
    cases gone.symm.trans present

theorem inStep_step (inStep : InStep injected b) (e : Event)
    (said : ∀ f skip rv, e = .failAfter f skip rv → injected f rv) :
    InStep injected (b.step e) := by
  cases e with
  | openSession slot flags => exact inStep_openSession inStep slot flags
  | call handle c => exact inStep_call inStep handle c
  | close handle =>
    cases found : b.desks.get? handle with
    | none =>
      simp only [step, found]
      exact inStep
    | some d =>
      simp only [step, found]
      refine inStep_leave inStep found ?_
      rw [← (inStep.desks handle d found).own]
      rfl
  | drop handle =>
    cases found : b.desks.get? handle with
    | none =>
      simp only [step, found]
      exact inStep
    | some d =>
      simp only [step, found]
      refine inStep_leave inStep found ?_
      rw [← (inStep.desks handle d found).own]
      exact drop_state Token.module d.session b.host
  | failAfter f skip rv =>
    have unchanged : Token.Spares none b.host.state (b.host.state.failAfter f skip rv) :=
      ⟨le_refl _, fun _ same => (by cases same), fun _ _ => Iff.rfl, fun _ _ _ => rfl⟩
    refine inStep.spares unchanged ?_ (fun _ _ => rfl) fun _ _ same => by cases same
    intro g code later
    obtain ⟨skip', later⟩ := later
    have later : (b.host.state.failures.insert f ⟨skip, rv⟩).get? g = some ⟨skip', code⟩ := later
    rw [Table.get?_insert] at later
    split at later
    · rename_i same
      cases later
      exact said g skip rv (same ▸ rfl)
    · exact inStep.pending g code ⟨skip', later⟩
  | addObject o =>
    have framed : Token.Framed 0 none b.host.state (b.host.state.addObject o).1 :=
      Token.framed_objects _ _
    refine inStep.spares framed.spares_all ?_ (fun _ _ => rfl) fun _ _ same => by cases same
    intro f rv later
    exact inStep.pending f rv (framed.pending f rv later)

theorem inStep_run {b : Bench} (events : List Event) (inStep : InStep injected b)
    (said : ∀ f skip rv, Event.failAfter f skip rv ∈ events → injected f rv) :
    InStep injected (b.run events) := by
  induction events generalizing b with
  | nil => exact inStep
  | cons e rest ih =>
    have first : InStep injected (b.step e) :=
      inStep_step inStep e fun f skip rv same => said f skip rv (by simp [same])
    exact ih first fun f skip rv member => said f skip rv (List.mem_cons_of_mem e member)

/-- At every point of a run, each session has under way what the token holds for it, begun with the
mechanism of its start and fed with all chunks since. No call but a search is answered with an
operation that should not be or one that is missing, unless that failure was injected. -/
theorem run_in_lock_step (events : List Event) (handle : Handle) (d : Desk)
    (present : (new.run events).desks.get? handle = some d) :
    let host := (new.run events).host
    (∀ k, k ≠ .findObjects →
      Mirrors k (d.session.state k) d.history (host.state.operations.get? (handle, k))) ∧
    ∀ c, c.kind? ≠ some .findObjects → ∀ rv, Token.Disagrees rv →
      (Session.step Token.module c d.session host).1 = .error (.returned rv) →
      ∃ f skip, Event.failAfter f skip rv ∈ events ∧ f.subject? = some c.kind? ∧
        host.state.Pending f rv := by
  intro host
  have inStep : InStep (fun f rv => ∃ skip, Event.failAfter f skip rv ∈ events) (new.run events) :=
    inStep_run events inStep_new fun f skip rv member => ⟨skip, member⟩
  obtain ⟨own, opened, ⟨l, agrees⟩, mirrors⟩ := inStep.desks handle d present
  refine ⟨mirrors, ?_⟩
  intro c other rv disagrees failed
  subst own
  obtain ⟨f, subject, pending⟩ :=
    explains_step agrees opened c other mirrors host.journal failed rv rfl disagrees
  obtain ⟨skip, member⟩ := inStep.pending f rv pending
  exact ⟨f, skip, member, subject, pending⟩

def signing : List Event := [
  .openSession 1 serialFlag,
  .call 1 (.init .sign (.plain 0x40) 7),
  .failAfter (.feed .sign) 1 Return.signatureInvalid,
  .call 1 (.feed .sign [1]),
  .call 1 (.feed .sign [2]),
  .call 1 (.init .sign (.plain 0x250) 7),
  .call 1 (.feed .sign [3, 4]),
  .call 1 (.feed .sign [5]),
  .failAfter (.feed .sign) 0 Return.operationNotInitialized]

/-- Of the second signature the token has the mechanism and the two chunks. That the next update is
refused for want of an operation was injected. -/
theorem run_in_lock_step_signing :
    let b := new.run signing
    ∃ d, b.desks.get? 1 = some d ∧ d.session.state .sign = .updated ∧
      Mirrors .sign (d.session.state .sign) d.history (some ⟨0x250, [3, 4, 5]⟩) ∧
      (Session.step Token.module (.feed .sign [6]) d.session b.host).1 =
        .error (.returned Return.operationNotInitialized) ∧
      ∃ f skip, Event.failAfter f skip Return.operationNotInitialized ∈ signing ∧
        f.subject? = some (some .sign) ∧ b.host.state.Pending f Return.operationNotInitialized := by
  have present : (new.run signing).desks.get? 1 =
      some (((new.run signing).desks.get? 1).get rfl) := rfl
  obtain ⟨mirrors, injected⟩ := run_in_lock_step signing 1 _ present
  refine ⟨_, present, rfl, mirrors .sign (by decide), rfl, ?_⟩
  exact injected (.feed .sign [6]) (by decide) Return.operationNotInitialized (by decide) rfl

end Bench

end Cryptoki
