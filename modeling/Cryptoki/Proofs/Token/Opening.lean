import Cryptoki.Proofs.Session.Protocol
import Cryptoki.Proofs.Token.Frame

/-!
How sessions of the token in memory come and go. A session that opens gets a handle that none had
before; one that closes takes all with it that it had under way. The other sessions stay as they are.
-/
namespace Cryptoki.Token

variable {t t' t'' : Token} {own : Option Handle} {handle h : Handle} {k : OperationKind}
  {kind : Option OperationKind}

structure Sound (t : Token) : Prop where
  known : ∀ h ∈ t.sessions, h ≤ t.lastSession
  unused : ∀ h k, t.lastSession < h → t.operations.get? (h, k) = none

theorem sound_new : Sound .new where
  known h member := by cases member
  unused h k beyond := rfl

structure Spares (own : Option Handle) (t t' : Token) : Prop where
  lastSession : t.lastSession ≤ t'.lastSession
  bound : ∀ h, own = some h → h ≤ t'.lastSession
  sessions : ∀ h, own ≠ some h → (h ∈ t'.sessions ↔ h ∈ t.sessions)
  operations : ∀ h k, own ≠ some h → t'.operations.get? (h, k) = t.operations.get? (h, k)

theorem Spares.trans (first : Spares own t t') (second : Spares own t' t'') :
    Spares own t t'' where
  lastSession := first.lastSession.trans second.lastSession
  bound := second.bound
  sessions h other := (second.sessions h other).trans (first.sessions h other)
  operations h k other := (second.operations h k other).trans (first.operations h k other)

theorem Sound.spares (sound : Sound t) (spares : Spares own t t') : Sound t' where
  known h member := by
    by_cases same : own = some h
    · exact spares.bound h same
    · have before := sound.known h ((spares.sessions h same).mp member)
      exact before.trans spares.lastSession
  unused h k beyond := by
    have other : own ≠ some h := by
      intro same
      exact absurd (spares.bound h same) (Nat.not_le.mpr beyond)
    rw [spares.operations h k other]
    exact sound.unused h k (spares.lastSession.trans_lt beyond)

theorem Framed.spares (framed : Framed handle kind t t') (known : handle ≤ t.lastSession) :
    Spares (some handle) t t' where
  lastSession := framed.lastSession.ge
  bound h same := by
    cases same
    rwa [framed.lastSession]
  sessions h _ := by rw [framed.sessions]
  operations h k other := framed.operations h k fun same => absurd (congrArg some same.symm) other

theorem Framed.spares_all (framed : Framed handle none t t') : Spares none t t' where
  lastSession := framed.lastSession.ge
  bound h same := by cases same
  sessions h _ := by rw [framed.sessions]
  operations h k _ := framed.operations h k fun _ same => by cases same

theorem openSession_eq (slot : UInt64) (t : Token) : openSession slot t =
    match t.due .openSession with
    | some rv => refuse rv (t.counted .openSession)
    | none =>
      if slot = 1 then
        give (t.lastSession + 1) { t.counted .openSession with
          lastSession := t.lastSession + 1, sessions := t.sessions ++ [t.lastSession + 1] }
      else refuse Return.slotIdInvalid (t.counted .openSession) := by
  have last := lastSession_counted t .openSession
  have open_sessions := sessions_counted t .openSession
  rw [← last, ← open_sessions]
  unfold openSession due counted
  rcases (t.record .openSession).dueFailure .openSession with ⟨t', _ | rv⟩ <;> rfl

structure Opens (h : Handle) (t t' : Token) : Prop where
  handle : h = t.lastSession + 1
  lastSession : t'.lastSession = h
  sessions : t'.sessions = t.sessions ++ [h]
  operations : t'.operations = t.operations
  pending : ∀ f rv, t'.Pending f rv → t.Pending f rv

theorem Opens.spares (opens : Opens h t t') : Spares (some h) t t' where
  lastSession := by
    rw [opens.lastSession, opens.handle]
    exact Nat.le_succ _
  bound h' same := by
    cases same
    exact opens.lastSession.ge
  sessions h' other := by
    have other : h' ≠ h := fun same => other (congrArg some same.symm)
    simp [opens.sessions, other]
  operations h' k _ := by rw [opens.operations]

theorem openOn_cases (slot flags : UInt64) (host : Host Token) :
    (∃ e host', Session.openOn Token.module slot flags host = (.error e, host') ∧
      Framed 0 none host.state host'.state) ∨
    (∃ h host', Session.openOn Token.module slot flags host = (.ok (Session.fresh h slot), host') ∧
      Opens h host.state host'.state) := by
  by_cases serial : flags &&& serialFlag ≠ serialFlag
  · refine .inl ⟨.serialFlagMissing, host, ?_, Framed.refl _⟩
    simp only [Session.openOn, if_pos serial]
    rfl
  · have asked : ∀ a t', openSession slot host.state = (a, t') →
        Token.module.ask (.openSession slot flags) host = (a, ⟨t', host.journal ++ []⟩) := by
      intro a t' came
      change ((openSession slot host.state).1,
        (⟨(openSession slot host.state).2, host.journal ++ []⟩ : Host Token)) = _
      rw [came]
    have refused : ∀ rv t', openSession slot host.state = refuse rv t' →
        Session.openOn Token.module slot flags host =
          (.error (.returned rv), ⟨t', host.journal ++ []⟩) := by
      intro rv t' came
      simp only [Session.openOn, if_neg serial, bind, StateT.bind, asked _ t' came]
      rfl
    have given : ∀ h t', openSession slot host.state = give h t' →
        Session.openOn Token.module slot flags host =
          (.ok (Session.fresh h slot), ⟨t', (host.journal ++ []) ++
            [⟨.debug, "opened session " ++ toString h ++ " on slot " ++ toString slot.toNat⟩]⟩) := by
      intro h t' came
      simp only [Session.openOn, if_neg serial, bind, StateT.bind, asked _ t' came]
      rfl
    cases due : host.state.due .openSession with
    | some rv =>
      have came := openSession_eq slot host.state
      rw [due] at came
      exact .inl ⟨_, _, refused _ _ came, framed_counted _ _⟩
    | none =>
      have came := openSession_eq slot host.state
      rw [due] at came
      by_cases one : slot = 1
      · simp only [if_pos one] at came
        refine .inr ⟨_, _, given _ _ came, ?_⟩
        exact ⟨rfl, rfl, rfl, operations_counted _ _, fun _ _ => pending_of_counted⟩
      · simp only [if_neg one] at came
        exact .inl ⟨_, _, refused _ _ came, framed_counted _ _⟩

theorem spares_closeSession (known : h ≤ t.lastSession) :
    Spares (some h) t (closeSession h t).2 where
  lastSession := le_refl _
  bound h' same := by
    cases same
    exact known
  sessions h' other := by
    have other : h' ≠ h := fun same => other (congrArg some same.symm)
    simp [closeSession, give, other]
  operations h' k other := by
    have other : h' ≠ h := fun same => other (congrArg some same.symm)
    change (t.operations.retain fun key => key.1 != h).get? (h', k) = _
    rw [Table.get?_retain]
    simp [other]

theorem close_cases (known : h ≤ t.lastSession) :
    Spares (some h) t (t.answer (.closeSession h)).2 ∧
      ∀ f rv, (t.answer (.closeSession h)).2.Pending f rv → t.Pending f rv := by
  have framed : Framed h none t (t.counted .closeSession) := framed_counted t _
  by_cases opened : h ∈ t.sessions
  · rcases answer_cases (q := .closeSession h) rfl opened with ⟨rv, _, answered⟩ | ⟨_, answered⟩
    · rw [answered]
      exact ⟨framed.spares known, framed.pending⟩
    · rw [answered]
      have spares := spares_closeSession (t := t.counted .closeSession) (h := h) (by simpa using known)
      exact ⟨(framed.spares known).trans spares, framed.pending⟩
  · cases due : t.due .closeSession with
    | some rv =>
      rw [answer_of_due (q := .closeSession h) rfl due]
      exact ⟨framed.spares known, framed.pending⟩
    | none =>
      rw [answer_of_closed (q := .closeSession h) rfl due opened]
      exact ⟨framed.spares known, framed.pending⟩

end Cryptoki.Token
