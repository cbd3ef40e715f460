import Cryptoki.Proofs.Token.LockStep
import Cryptoki.Proofs.Token.Splitting

/-!
What the calls of one kind in one session can rely on as long as no failure is injected: whatever
else happens on the bench leaves their operation as it was, in the session and in the token.
-/
namespace Cryptoki

theorem Session.openOn_state {σ : Type} (M : Module σ) (slot flags : UInt64) (h : Host σ) :
    (openOn M slot flags h).2.state = if flags &&& serialFlag ≠ serialFlag then h.state
      else (M.answer (.openSession slot flags) h.state).2.1 := by
  split
  · rename_i missing
    simp only [openOn, if_pos missing]
    rfl
  · rename_i serial
    simp only [openOn, if_neg serial, bind, StateT.bind, Module.ask]
    cases (M.answer (.openSession slot flags) h.state).1.result <;> rfl

namespace Token

variable {t t' : Token} {handle h : Handle} {kind : Option OperationKind}

structure Admits (handle : Handle) (t : Token) : Prop where
  clear : t.Clear
  opened : handle ∈ t.sessions

theorem clear_iff : t.Clear ↔ ∀ f rv, ¬ t.Pending f rv := by
  constructor
  · intro clear f rv pending
    obtain ⟨skip, found⟩ := pending
    cases (clear f).symm.trans found
  · intro none_pending f
    refine Option.eq_none_iff_forall_ne_some.mpr fun failure found => ?_
    exact none_pending f failure.rv ⟨failure.skip, found⟩

theorem Admits.framed (admits : Admits handle t) (framed : Framed h kind t t') :
    Admits handle t' where
  clear := clear_iff.mpr fun f rv later =>
    clear_iff.mp admits.clear f rv (framed.pending f rv later)
  opened := by
    rw [framed.sessions]
    exact admits.opened

theorem openSession_snd (slot : UInt64) (t : Token) : ∃ lastSession sessions,
    (openSession slot t).2 = { t.counted .openSession with lastSession, sessions } := by
  rw [openSession_eq]
  split
  · exact ⟨_, _, rfl⟩
  · split <;> exact ⟨_, _, rfl⟩

theorem searches_openSession (slot : UInt64) (t : Token) :
    (openSession slot t).2.searches = t.searches := by
  obtain ⟨_, _, left⟩ := openSession_snd slot t
  rw [left]
  exact searches_counted t _

theorem searches_openOn (slot flags : UInt64) (host : Host Token) :
    (Session.openOn Token.module slot flags host).2.state.searches = host.state.searches := by
  rw [Session.openOn_state]
  split
  · rfl
  · exact searches_openSession slot host.state

theorem searches_dropOperation (t : Token) (h : Handle) (f : Function) :
    (t.dropOperation h f).searches = t.searches := by
  unfold dropOperation
  split <;> rfl

theorem searches_answer_closeSession (t : Token) (other : handle ≠ h) :
    (t.answer (.closeSession h)).2.searches.get? handle = t.searches.get? handle := by
  cases due : t.due .closeSession with
  | some rv =>
    rw [answer_of_due (q := .closeSession h) rfl due]
    change ((t.counted .closeSession).dropOperation h .closeSession).searches.get? handle = _
    rw [searches_dropOperation, searches_counted]
  | none =>
    by_cases opened : h ∈ t.sessions
    · rw [answer_of_open (q := .closeSession h) rfl due opened]
      change ((t.counted .closeSession).searches.erase h).get? handle = _
      rw [Table.get?_erase, if_neg other, searches_counted]
    · rw [answer_of_closed (q := .closeSession h) rfl due opened]
      change (t.counted .closeSession).searches.get? handle = _
      rw [searches_counted]

end Token

namespace Bench

open Session

variable {b b' : Bench} {handle : Handle} {k : OperationKind} {d : Desk} {e : Event}

def Calm (b : Bench) : Prop := InStep (fun _ _ => False) b

/-- No failure is injected, and the session is not closed. -/
def Event.Spares (handle : Handle) : Event → Prop
  | .failAfter .. => False
  | .close h | .drop h => h ≠ handle
  | .openSession .. | .call .. | .addObject _ => True

def Event.own? (handle : Handle) (k : OperationKind) : Event → Option Call
  | .call h c => if h = handle ∧ c.kind? = some k then some c else none
  | _ => none

theorem Event.own?_eq_some {c : Call} :
    e.own? handle k = some c ↔ e = .call handle c ∧ c.kind? = some k := by
  cases e with
  | call h c' =>
    by_cases own : h = handle ∧ c'.kind? = some k
    · obtain ⟨rfl, kind⟩ := own
      simp only [own?, kind, and_self, if_true, Option.some.injEq, call.injEq, true_and]
      constructor
      · rintro rfl
        exact ⟨rfl, kind⟩
      · exact fun same => same.1
    · simp only [own?, if_neg own, call.injEq]
      constructor
      · intro same
        cases same
      · rintro ⟨⟨rfl, rfl⟩, kind⟩
        exact absurd ⟨rfl, kind⟩ own
  | _ => simp [own?]

def ofKind (k : OperationKind) (history : History) : History :=
  history.filter fun e => e.1.kind? = some k

theorem Calm.step (calm : b.Calm) (quiet : ∀ f skip rv, e ≠ .failAfter f skip rv) :
    (b.step e).Calm :=
  inStep_step calm e fun f skip rv same => quiet f skip rv same

/-- Every bench is calm that no failure was injected into. -/
theorem calm_run (events : List Event) (quiet : ∀ f skip rv, .failAfter f skip rv ∉ events) :
    (new.run events).Calm :=
  inStep_run events inStep_new quiet

theorem Event.Spares.quiet (spares : e.Spares handle) (f : Function) (skip : Nat) (rv : Code) :
    e ≠ .failAfter f skip rv := by
  rintro rfl
  exact spares

theorem Calm.admits (calm : b.Calm) (present : b.desks.get? handle = some d) :
    b.host.state.Admits handle where
  clear := Token.clear_iff.mpr calm.pending
  opened := (calm.desks handle d present).opened

/-- The session is still there. Nothing has become of its operation of the kind, and its history
says no more of it. -/
structure Undisturbed (handle : Handle) (k : OperationKind) (b : Bench) (d : Desk) (b' : Bench)
    (d' : Desk) : Prop where
  present : b'.desks.get? handle = some d'
  operation : d'.session.operation k = d.session.operation k
  history : ofKind k d'.history = ofKind k d.history
  held : b'.host.state.operations.get? (handle, k) = b.host.state.operations.get? (handle, k)
  searches : k = .findObjects →
    b'.host.state.searches.get? handle = b.host.state.searches.get? handle

theorem undisturbed_desk (present : b'.desks.get? handle = some d)
    (operations : ∀ k, b'.host.state.operations.get? (handle, k) =
      b.host.state.operations.get? (handle, k))
    (searches : b'.host.state.searches.get? handle = b.host.state.searches.get? handle) :
    Undisturbed handle k b d b' d :=
  ⟨present, rfl, rfl, operations k, fun _ => searches⟩

theorem undisturbed_openSession (calm : b.Calm) (present : b.desks.get? handle = some d)
    (slot flags : UInt64) : Undisturbed handle k b d (b.step (.openSession slot flags)) d := by
  have searches := Token.searches_openOn slot flags b.host
  rcases Token.openOn_cases slot flags b.host with
    ⟨e, host, opened, framed⟩ | ⟨h, host, opened, opens⟩
  · rw [opened] at searches
    simp only [step, opened]
    refine undisturbed_desk present (fun k => ?_) (by rw [searches])
    refine framed.operations handle k fun _ same => ?_
    cases same
  · rw [opened] at searches
    simp only [step, opened]
    have known := calm.sound.known handle (calm.admits present).opened
    have beyond : b.host.state.lastSession < h := opens.handle ▸ Nat.lt_succ_self _
    have other : handle ≠ h := (known.trans_lt beyond).ne
    refine undisturbed_desk ?_ (fun k => ?_) (by rw [searches])
    · exact (Table.get?_insert _ _ _ _).trans ((if_neg other).trans present)
    · rw [opens.operations]

theorem undisturbed_leave {h : Handle} {left : Desk} {host : Host Token} (calm : b.Calm)
    (present : b.desks.get? handle = some d) (found : b.desks.get? h = some left)
    (other : h ≠ handle) (closed : host.state = (b.host.state.answer (.closeSession h)).2) :
    Undisturbed handle k b d ⟨host, b.desks.erase h⟩ d := by
  have known := calm.sound.known h (calm.desks h left found).opened
  have spares := (Token.close_cases known).1
  have another : some h ≠ some handle := fun same => other (Option.some.inj same)
  refine undisturbed_desk ?_ (fun k => ?_) ?_
  · exact (Table.get?_erase _ _ _).trans ((if_neg other.symm).trans present)
  · rw [closed]
    exact spares.operations handle k another
  · rw [closed]
    exact Token.searches_answer_closeSession b.host.state other.symm

theorem undisturbed_call (calm : b.Calm) (present : b.desks.get? handle = some d) {h : Handle}
    {c : Call} (other : (Event.call h c).own? handle k = none) :
    ∃ d', Undisturbed handle k b d (b.step (.call h c)) d' := by
  cases found : b.desks.get? h with
  | none =>
    simp only [step, found]
    exact ⟨d, undisturbed_desk present (fun _ => rfl) rfl⟩
  | some d₀ =>
    obtain ⟨own, _, ⟨l, agrees⟩, _⟩ := calm.desks h d₀ found
    subst own
    have framed := (framed_step c d₀.session b.host.state b.host.journal).2
    simp only [step, found]
    by_cases same : d₀.session.handle = handle
    · subst same
      cases found.symm.trans present
      have apart : c.kind? ≠ some k := by simpa [Event.own?] using other
      refine ⟨_, Table.get?_insert_self _ _ _, ?_, ?_, ?_, ?_⟩
      · exact (step_follows agrees c b.host).2.others k apart
      · simp [ofKind, apart]
      · exact framed.operations _ k fun _ => apart
      · rintro rfl
        exact framed.searches _ fun _ => apart
    · have same : handle ≠ d₀.session.handle := Ne.symm same
      refine ⟨d, undisturbed_desk ?_ (fun k => ?_) ?_⟩
      · exact (Table.get?_insert _ _ _ _).trans ((if_neg same).trans present)
      · exact framed.operations handle k fun here => absurd here same
      · exact framed.searches handle fun here => absurd here same

/-- Whatever happens that is no call of the kind in the session. -/
theorem undisturbed_step (calm : b.Calm) (present : b.desks.get? handle = some d)
    (spares : e.Spares handle) (other : e.own? handle k = none) :
    ∃ d', Undisturbed handle k b d (b.step e) d' := by
  cases e with
  | openSession slot flags => exact ⟨d, undisturbed_openSession calm present slot flags⟩
  | call h c => exact undisturbed_call calm present other
  | close h =>
    cases found : b.desks.get? h with
    | none =>
      simp only [step, found]
      exact ⟨d, undisturbed_desk present (fun _ => rfl) rfl⟩
    | some left =>
      simp only [step, found]
      refine ⟨d, undisturbed_leave calm present found spares ?_⟩
      rw [← (calm.desks h left found).own]
      rfl
  | drop h =>
    cases found : b.desks.get? h with
    | none =>
      simp only [step, found]
      exact ⟨d, undisturbed_desk present (fun _ => rfl) rfl⟩
    | some left =>
      simp only [step, found]
      refine ⟨d, undisturbed_leave calm present found spares ?_⟩
      rw [← (calm.desks h left found).own]
      exact drop_state Token.module left.session b.host
  | failAfter f skip rv => exact spares.elim
  | addObject o => exact ⟨d, undisturbed_desk present (fun _ => rfl) rfl⟩

end Bench

end Cryptoki
