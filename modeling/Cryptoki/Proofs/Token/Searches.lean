import Cryptoki.Proofs.Session.Protocol
import Cryptoki.Proofs.Token.Bench
import Cryptoki.Proofs.Token.Operations

/-!
Searches. A failure that is injected drops other operations of the token, but not its search, and a
session that is told of the failure asks for no end of the search. So a call that fails in a search
that is under way leaves the search to the token, and no other search can start in the session.
-/
namespace Cryptoki.Token

open Session SessionM

variable {t t' : Token} {handle : Handle} {s s' : Session} {template : List Wire.Entry} {e : Error}

def Searched (t : Token) (handle : Handle) : Prop := (t.searches.get? handle).isSome

theorem searched_counted {f : Function} : (t.counted f).Searched handle ↔ t.Searched handle := by
  rw [Searched, searches_counted, Searched]

theorem dropOperation_of_search {f : Function} (subject : f.subject? = some (some .findObjects)) :
    t.dropOperation handle f = t := by
  cases f with
  | oneShot k | stream k | feed k | finish k => cases k <;> cases subject
  | verify | verifyFinal => cases subject
  | _ => rfl

theorem answer_search_cases {shape : Shape} {q : Request shape}
    (within : q.Within handle (some .findObjects)) (opened : handle ∈ t.sessions) :
    (∃ rv, t.due q.function = some rv ∧ t.answer q = refuse rv (t.counted q.function)) ∨
    (t.due q.function = none ∧ t.answer q = perform q (t.counted q.function)) := by
  rcases answer_cases within.session opened with ⟨rv, due, answered⟩ | served
  · rw [dropOperation_of_search within.subject] at answered
    exact .inl ⟨rv, due, answered⟩
  · exact .inr served

theorem answer_findObjectsInit (template : List Wire.Entry) (opened : handle ∈ t.sessions)
    (clear : ¬ t.Searched handle) :
    let a := t.answer (.findObjectsInit handle template)
    (a.1.result.isOk ↔ t.due .findObjectsInit = none) ∧
      (a.2.Searched handle ↔ a.1.result.isOk) := by
  have within : Request.Within (.findObjectsInit handle template) handle (some .findObjects) :=
    ⟨rfl, rfl⟩
  rcases answer_search_cases within opened with ⟨rv, due, answered⟩ | ⟨due, answered⟩
  · rw [answered]
    have due : t.due .findObjectsInit = some rv := due
    simp only [refuse, searched_counted, clear, due]
    simp [Except.isOk, Except.toBool]
  · rw [answered]
    have due : t.due .findObjectsInit = none := due
    have free : t.searches.contains handle = false := by
      simpa [Searched, Table.contains] using clear
    simp [perform, search, Request.function, free, due, give, Searched, Except.isOk, Except.toBool]

theorem answer_findObjects {n : Nat} (opened : handle ∈ t.sessions) (searched : t.Searched handle) :
    (t.answer (.findObjects handle n)).2.Searched handle := by
  have within : Request.Within (.findObjects handle n) handle (some .findObjects) := ⟨rfl, rfl⟩
  rcases answer_search_cases within opened with ⟨rv, _, answered⟩ | ⟨_, answered⟩
  · rw [answered]
    exact searched_counted.mpr searched
  · rw [answered]
    obtain ⟨pending, found⟩ := Option.isSome_iff_exists.mp searched
    simp [perform, nextFound, Request.function, found, Searched]

theorem answer_findObjectsFinal (opened : handle ∈ t.sessions) (searched : t.Searched handle) :
    let a := t.answer (.findObjectsFinal handle)
    a.2.Searched handle ↔ a.1.result.isOk = false := by
  have within : Request.Within (.findObjectsFinal handle) handle (some .findObjects) := ⟨rfl, rfl⟩
  rcases answer_search_cases within opened with ⟨rv, _, answered⟩ | ⟨_, answered⟩
  · rw [answered]
    simp only [refuse, searched_counted, searched]
    simp [Except.isOk, Except.toBool]
  · rw [answered]
    obtain ⟨pending, found⟩ := Option.isSome_iff_exists.mp searched
    simp [perform, endSearch, Request.function, Table.contains, found, Searched, give,
      Table.get?_erase, Except.isOk, Except.toBool]

theorem answer_findObjectsInit_active (template : List Wire.Entry) (opened : handle ∈ t.sessions)
    (clear : t.due .findObjectsInit = none) :
    (t.answer (.findObjectsInit handle template)).1.result =
        .error (.returned Return.operationActive) ↔ t.Searched handle := by
  rw [answer_of_open (q := .findObjectsInit handle template) rfl clear opened]
  by_cases searched : t.searches.contains handle = true
  · have holds : t.Searched handle := searched
    simp [perform, search, Request.function, searched, refuse, holds]
  · have lacks : ¬ t.Searched handle := searched
    simp [perform, search, Request.function, searched, give, lacks]

/-- The session is open in the token. Whether it has a search, and whether the token has one for it,
is as given. -/
structure Standing (handle : Handle) (inSession : Bool) (inToken : Prop) (s : Session) (t : Token) :
    Prop where
  own : s.handle = handle
  opened : handle ∈ t.sessions
  session : if inSession then Searching (s.operation .findObjects)
    else s.operation .findObjects = .idle
  token : t.Searched handle ↔ inToken

variable {inSession inSession' : Bool} {inToken inToken' : Prop} {op : Cryptoki.Operation}

theorem Standing.of_iff (standing : Standing handle inSession inToken s t)
    (same : inToken ↔ inToken') : Standing handle inSession inToken' s t where
  own := standing.own
  opened := standing.opened
  session := standing.session
  token := standing.token.trans same

theorem Standing.after {shape : Shape} {q : Request shape}
    (standing : Standing handle inSession inToken s t)
    (within : q.Within handle (some .findObjects))
    (session : if inSession' then Searching op else op = .idle)
    (token : (t.answer q).2.Searched handle ↔ inToken') :
    Standing handle inSession' inToken' (s.setOperation .findObjects op) (t.answer q).2 where
  own := standing.own
  opened := by
    have framed : Framed handle (some .findObjects) t (t.answer q).2 := framed_answer within
    rw [framed.sessions]
    exact standing.opened
  session := by rwa [operation_setOperation]
  token := token

theorem ends_findObjectsInit {template : Template} (standing : Standing handle false False s t) :
    Ends (findObjectsInit Token.module template) s t fun r s' t' =>
      (r.isOk ↔ t.due .findObjectsInit = none) ∧ Standing handle r.isOk (r.isOk = true) s' t' := by
  obtain rfl := standing.own
  have idle : s.operation .findObjects = .idle := standing.session
  have accepted : s.checkStart .findObjects = .ok () := by simp [checkStart, idle, Operation.idle]
  have clear : ¬ t.Searched s.handle := standing.token.mp
  obtain ⟨succeeds, searched⟩ := answer_findObjectsInit template.toArray standing.opened clear
  have within : Request.Within (.findObjectsInit s.handle template.toArray) s.handle
      (some .findObjects) := ⟨rfl, rfl⟩
  refine ends_of_accepted accepted (ends_ask_bind (fun v ok => ?_) fun e failed => ?_)
  · have ok : (t.answer (.findObjectsInit s.handle template.toArray)).1.result = .ok v := ok
    rw [ok] at succeeds searched
    refine quiet_setState.ends_last ⟨succeeds, standing.after within ?_ searched⟩
    rw [idle]
    exact ⟨by simp [inState], rfl⟩
  · have failed : (t.answer (.findObjectsInit s.handle template.toArray)).1.result = .error e := failed
    rw [failed] at succeeds searched
    refine ⟨succeeds, ?_⟩
    have after : Standing s.handle false (false = true) _ _ := standing.after within idle searched
    rwa [setOperation_self] at after

theorem ends_findObjectsNext {max : Nat} (standing : Standing handle true True s t) :
    Ends (findObjectsNext Token.module max) s t fun r s' t' =>
      Standing handle r.isOk True s' t' := by
  obtain rfl := standing.own
  have searching : Searching (s.operation .findObjects) := standing.session
  have within : Request.Within (.findObjects s.handle max) s.handle (some .findObjects) :=
    ⟨rfl, rfl⟩
  have searched : (t.answer (.findObjects s.handle max)).2.Searched s.handle :=
    answer_findObjects standing.opened (standing.token.mpr trivial)
  have asked : Ends (do
      let a ← askAnswer Token.module (.findObjects s.handle max)
      let count ← ofResult a.result
      return a.written.handleBuffer (min max count)) s t fun _ s' t' =>
        s' = s ∧ t' = (t.answer (.findObjects s.handle max)).2 :=
    ends_askAnswer_bind (ends_ofResult_bind (fun _ _ => ends_pure ⟨rfl, rfl⟩) fun _ _ => ⟨rfl, rfl⟩)
  refine (ends_of_accepted (checkUpdate_of_searching searching)
    (quiet_reserve.ends asked.updating)).mono ?_
  intro r s' t' came
  obtain ⟨_, ⟨rfl, rfl⟩, rfl⟩ := came
  refine standing.after within ?_ (iff_true_intro searched)
  cases r with
  | ok found => exact ⟨by simp [inState, Except.isOk, Except.toBool], searching.2⟩
  | error e => rfl

theorem ends_findObjectsFinal (standing : Standing handle true True s t) :
    Ends (findObjectsFinal Token.module) s t fun r s' t' =>
      Standing handle false (r.isOk = false) s' t' := by
  obtain rfl := standing.own
  have searching : Searching (s.operation .findObjects) := standing.session
  have within : Request.Within (.findObjectsFinal s.handle) s.handle (some .findObjects) :=
    ⟨rfl, rfl⟩
  have searched := answer_findObjectsFinal standing.opened (standing.token.mpr trivial)
  have asked : Ends (ask Token.module (.findObjectsFinal s.handle)) s t fun r s' t' =>
      s' = s ∧ t' = (t.answer (.findObjectsFinal s.handle)).2 ∧
        (t'.Searched s.handle ↔ r.isOk = false) :=
    ends_ask ⟨rfl, rfl, searched⟩
  refine (ends_of_accepted (checkFinal_of_searching searching) asked.finishing).mono ?_
  intro r s' t' came
  obtain ⟨_, ⟨rfl, rfl, left⟩, rfl⟩ := came
  exact standing.after within rfl left

theorem ends_gather (batches : Nat) (standing : Standing handle true True s t) :
    Ends (gather Token.module batches) s t fun r s' t' => Standing handle r.isOk True s' t' := by
  induction batches generalizing s t with
  | zero => exact ends_pure standing
  | succ batches ih =>
    refine (ends_findObjectsNext standing).bind ?_ fun e s' t' left => left
    intro found s' t' still
    cases found with
    | nil => exact ends_pure still
    | cons h hs =>
      exact (ih still).bind (fun more s'' t'' still => ends_pure still) fun e s'' t'' left => left

theorem ends_findObjects {batches : Nat} {template : Template}
    (standing : Standing handle false False s t) :
    Ends (findObjects Token.module batches template) s t fun r s' t' =>
      Standing handle false (r.isOk = false ∧ t.due .findObjectsInit = none) s' t' := by
  refine (ends_findObjectsInit standing).bind ?_ ?_
  · intro _ s' t' started
    obtain ⟨clear, started⟩ := started
    have clear : t.due .findObjectsInit = none := clear.mp rfl
    have started : Standing handle true True s' t' := started.of_iff (iff_true_intro rfl)
    refine (ends_gather batches started).bind ?_ ?_
    · intro found s'' t'' still
      refine (ends_findObjectsFinal still).bind ?_ ?_
      · intro _ _ _ ended
        exact ends_pure (ended.of_iff (by simp [Except.isOk, Except.toBool]))
      · intro _ _ _ left
        exact left.of_iff (by simp [clear, Except.isOk, Except.toBool])
    · intro e s'' t'' left
      exact left.of_iff (by simp [clear, Except.isOk, Except.toBool])
  · intro e s' t' came
    obtain ⟨due, unstarted⟩ := came
    have due : t.due .findObjectsInit ≠ none := by
      intro clear
      cases due.mpr clear
    exact unstarted.of_iff (by simp [due, Except.isOk, Except.toBool])

/-- The call fails in a search that is under way: in that of the session, or in a whole search of
its own that has started. -/
def Abandons (s : Session) (t : Token) (c : Call) (r : Result Outcome) : Prop :=
  r.isOk = false ∧
    match c with
    | .findObjectsNext _ | .findObjectsFinal => s.state .findObjects ≠ .idle
    | .findObjects .. => s.state .findObjects = .idle ∧ t.due .findObjectsInit = none
    | _ => False

theorem search_cases {c : Call} (search : c.kind? = some .findObjects) :
    (∃ template, c = .findObjectsInit template) ∨ (∃ max, c = .findObjectsNext max) ∨
      c = .findObjectsFinal ∨ ∃ batches template, c = .findObjects batches template := by
  cases c with
  | init k _ _ | oneShot k _ | stream k _ | feed k _ | finish k => cases k <;> cases search
  | findObjectsInit template => exact .inl ⟨template, rfl⟩
  | findObjectsNext max => exact .inr (.inl ⟨max, rfl⟩)
  | findObjectsFinal => exact .inr (.inr (.inl rfl))
  | findObjects batches template => exact .inr (.inr (.inr ⟨batches, template, rfl⟩))
  | _ => cases search

theorem Standing.state_false (standing : Standing handle false inToken s t) :
    s.state .findObjects = .idle := by
  have idle : s.operation .findObjects = .idle := standing.session
  rw [Session.state, idle]
  rfl

theorem Standing.state_true (standing : Standing handle true inToken s t) :
    s.state .findObjects ≠ .idle := by
  have searching : Searching (s.operation .findObjects) := standing.session
  exact searching.1

theorem standing_of_refused (standing : Standing handle inSession (inSession = true) s t) {c : Call}
    (role : Role) (belongs : c.role? = some (.findObjects, role))
    (refused : s.check .findObjects role ≠ .ok ()) (keeps : ∀ e, ¬ Abandons s t c (.error e))
    (journal : Journal) :
    let after := step Token.module c s ⟨t, journal⟩
    ∃ still, Standing handle still (still = true ∨ Abandons s t c after.1) after.2.1
      after.2.2.state := by
  cases checked : s.check .findObjects role with
  | ok _ => exact absurd checked refused
  | error e =>
    rw [step_of_perform (perform_of_refused belongs checked)]
    exact ⟨inSession, standing.of_iff (by simp [keeps])⟩

/-- Where the session and the token agree on the search, they disagree after a call exactly if it
has abandoned the search. -/
theorem standing_step (standing : Standing handle inSession (inSession = true) s t) {c : Call}
    (search : c.kind? = some .findObjects) (journal : Journal) :
    let after := step Token.module c s ⟨t, journal⟩
    ∃ still, Standing handle still (still = true ∨ Abandons s t c after.1) after.2.1
      after.2.2.state := by
  cases inSession with
  | false =>
    have none_here : Standing handle false False s t := standing.of_iff (by simp)
    have idle := standing.state_false
    rcases search_cases search with ⟨template, rfl⟩ | ⟨max, rfl⟩ | rfl | ⟨batches, template, rfl⟩
    · have ends : Ends (Session.perform Token.module (.findObjectsInit template)) s t
          fun r s' t' => Standing handle r.isOk (r.isOk = true) s' t' :=
        (ends_findObjectsInit none_here).map fun r s' t' came => by
          rw [isOk_map]
          exact came.2
      exact ⟨_, (step_of_ends ends journal).of_iff (by simp [Abandons])⟩
    · exact standing_of_refused standing .update rfl
        (fun passed => active_of_check passed trivial idle) (by simp [Abandons, idle]) journal
    · exact standing_of_refused standing .final rfl
        (fun passed => active_of_check passed trivial idle) (by simp [Abandons, idle]) journal
    · have ends : Ends (Session.perform Token.module (.findObjects batches template)) s t
          fun r s' t' =>
            Standing handle false (r.isOk = false ∧ t.due .findObjectsInit = none) s' t' :=
        (ends_findObjects none_here).map fun r s' t' came => by
          rw [isOk_map]
          exact came
      exact ⟨false, (step_of_ends ends journal).of_iff (by simp [Abandons, idle])⟩
  | true =>
    have both : Standing handle true True s t := standing.of_iff (by simp)
    have active := standing.state_true
    rcases search_cases search with ⟨template, rfl⟩ | ⟨max, rfl⟩ | rfl | ⟨batches, template, rfl⟩
    · exact standing_of_refused standing .start rfl
        (fun passed => active (idle_of_checkStart passed)) (by simp [Abandons]) journal
    · have ends : Ends (Session.perform Token.module (.findObjectsNext max)) s t
          fun r s' t' => Standing handle r.isOk True s' t' :=
        (ends_findObjectsNext both).map fun r s' t' came => by
          rw [isOk_map]
          exact came
      refine ⟨_, (step_of_ends ends journal).of_iff ?_⟩
      simp [Abandons, active]
    · have ends : Ends (Session.perform Token.module .findObjectsFinal) s t
          fun r s' t' => Standing handle false (r.isOk = false) s' t' :=
        (ends_findObjectsFinal both).map fun r s' t' came => by
          rw [isOk_map]
          exact came
      exact ⟨false, (step_of_ends ends journal).of_iff (by simp [Abandons, active])⟩
    · exact standing_of_refused standing .whole rfl
        (fun passed => active (idle_of_checkStart passed)) (by simp [Abandons, active]) journal

theorem ends_findObjectsInit_answer {template : Template} (idle : s.state .findObjects = .idle) :
    Ends (findObjectsInit Token.module template) s t fun r _ _ =>
      r = (t.answer (.findObjectsInit s.handle template.toArray)).1.result := by
  have accepted : s.checkStart .findObjects = .ok () := by
    simp [checkStart, show (s.operation .findObjects).state = .idle from idle]
  exact ends_of_accepted accepted (ends_ask_bind
    (fun _ ok => quiet_setState.ends_last ok.symm) fun _ failed => failed.symm)

/-- Where the session and the token agree on the search, and a call of a search leaves the session
idle, the token still has a search exactly if the call failed in one that was under way. Then no
other search can start in the session. -/
theorem search_left_iff_abandoned (standing : Standing handle inSession (inSession = true) s t)
    {c : Call} (search : c.kind? = some .findObjects) (journal : Journal)
    (idle : (step Token.module c s ⟨t, journal⟩).2.1.state .findObjects = .idle) :
    let after := step Token.module c s ⟨t, journal⟩
    (after.2.2.state.Searched handle ↔ Abandons s t c after.1) ∧
      (after.2.2.state.due .findObjectsInit = none → ∀ template,
        ((step Token.module (.findObjectsInit template) after.2.1 after.2.2).1 =
          .error (.returned Return.operationActive) ↔ Abandons s t c after.1)) := by
  intro after
  have idle : after.2.1.state .findObjects = .idle := idle
  obtain ⟨still, ended⟩ := standing_step standing search journal
  have ended : Standing handle false (Abandons s t c after.1) after.2.1 after.2.2.state := by
    cases still with
    | true => exact absurd idle ended.state_true
    | false => exact ended.of_iff (by simp [after])
  refine ⟨ended.token, fun clear template => ?_⟩
  have own := ended.own
  have answered : Ends (Session.perform Token.module (.findObjectsInit template)) after.2.1
      after.2.2.state fun r _ _ => r = (fun _ => Outcome.done) <$>
        (after.2.2.state.answer (.findObjectsInit handle template.toArray)).1.result := by
    refine (ends_findObjectsInit_answer idle).map ?_
    rintro r _ _ rfl
    rw [own]
  have active := answer_findObjectsInit_active template.toArray ended.opened clear
  have result : (step Token.module (.findObjectsInit template) after.2.1 after.2.2).1 = _ :=
    step_of_ends answered after.2.2.journal
  rw [result, ← ended.token, ← active]
  cases (after.2.2.state.answer (.findObjectsInit handle template.toArray)).1.result <;> simp

def troubled : Token :=
  { (new.failAfter .findObjects 0 0x30) with lastSession := 1, sessions := [1] }

/-- A whole search that fails in its first batch is left to the token. -/
theorem search_left_by_troubled_batch :
    let after := step Token.module (.findObjects 1 .empty) (fresh 1 1) ⟨troubled, []⟩
    after.1 = .error (.returned 0x30) ∧ after.2.1.state .findObjects = .idle ∧
      after.2.2.state.Searched 1 ∧
      (step Token.module (.findObjectsInit .empty) after.2.1 after.2.2).1 =
        .error (.returned Return.operationActive) := by
  have standing : Standing 1 false (false = true) (fresh 1 1) troubled :=
    ⟨rfl, by decide, rfl, by simp [Searched, troubled, failAfter, new]⟩
  have abandons : Abandons (fresh 1 1) troubled (.findObjects 1 .empty)
      (step Token.module (.findObjects 1 .empty) (fresh 1 1) ⟨troubled, []⟩).1 := ⟨rfl, rfl, rfl⟩
  obtain ⟨left, refused⟩ := search_left_iff_abandoned standing
    (show (Call.findObjects 1 .empty).kind? = some .findObjects from rfl) [] rfl
  exact ⟨rfl, rfl, left.mpr abandons, (refused rfl .empty).mpr abandons⟩

def abandoning : List Bench.Event := [
  .openSession 1 serialFlag,
  .call 1 (.findObjectsInit .empty),
  .failAfter .findObjects 0 0x30,
  .call 1 (.findObjectsNext 10)]

/-- The failure leaves the session idle and the search to the token, which refuses another. -/
theorem search_outlives_failed_batch :
    let b := Bench.new.run abandoning
    ∃ d, b.desks.get? 1 = some d ∧ d.session.state .findObjects = .idle ∧ b.host.state.Searched 1 ∧
      (step Token.module (.findObjectsInit .empty) d.session b.host).1 =
        .error (.returned Return.operationActive) :=
  ⟨((Bench.new.run abandoning).desks.get? 1).get rfl, rfl, rfl, rfl, rfl⟩

end Cryptoki.Token
