import Cryptoki.Proofs.Token.Entering

/-!
What a request leaves alone: the operations and searches of other sessions, and those of other
kinds in its own. And what a request about no operation can be refused for.
-/
namespace Cryptoki

namespace Token

variable {t t' t'' : Token} {handle h : Handle} {kind : Option OperationKind} {k : OperationKind}
  {shape : Shape} {q : Request shape}

/-- From one token to the next, nothing has changed beyond the kind of operation in the session,
but for the objects, and no failure has been injected. -/
structure Framed (handle : Handle) (kind : Option OperationKind) (t t' : Token) : Prop where
  sessions : t'.sessions = t.sessions
  lastSession : t'.lastSession = t.lastSession
  operations : ∀ h k, (h = handle → kind ≠ some k) →
    t'.operations.get? (h, k) = t.operations.get? (h, k)
  searches : ∀ h, (h = handle → kind ≠ some .findObjects) →
    t'.searches.get? h = t.searches.get? h
  pending : ∀ f rv, t'.Pending f rv → t.Pending f rv

theorem Framed.refl (t : Token) : Framed handle kind t t where
  sessions := rfl
  lastSession := rfl
  operations _ _ _ := rfl
  searches _ _ := rfl
  pending _ _ later := later

theorem Framed.trans (first : Framed handle kind t t') (second : Framed handle kind t' t'') :
    Framed handle kind t t'' where
  sessions := second.sessions.trans first.sessions
  lastSession := second.lastSession.trans first.lastSession
  operations h k other := (second.operations h k other).trans (first.operations h k other)
  searches h other := (second.searches h other).trans (first.searches h other)
  pending f rv later := first.pending f rv (second.pending f rv later)

theorem framed_counted (t : Token) (f : Function) : Framed handle kind t (t.counted f) where
  sessions := sessions_counted t f
  lastSession := lastSession_counted t f
  operations h k _ := by rw [operations_counted]
  searches h _ := by rw [searches_counted]
  pending _ _ := pending_of_counted

theorem framed_operations {operations : Table (Handle × OperationKind) Operation}
    (others : ∀ key, key ≠ (handle, k) → operations.get? key = t.operations.get? key) :
    Framed handle (some k) t { t with operations } where
  sessions := rfl
  lastSession := rfl
  operations h j other := others (h, j) fun same => by
    cases same
    exact other rfl rfl
  searches _ _ := rfl
  pending _ _ later := later

theorem framed_searches {searches : Table Handle (List Handle)}
    (others : ∀ h, h ≠ handle → searches.get? h = t.searches.get? h) :
    Framed handle (some .findObjects) t { t with searches } where
  sessions := rfl
  lastSession := rfl
  operations _ _ _ := rfl
  searches h other := others h fun same => other same rfl
  pending _ _ later := later

theorem framed_objects (objects : Table Handle Object) (lastObject : Handle) :
    Framed handle kind t { t with objects, lastObject } where
  sessions := rfl
  lastSession := rfl
  operations _ _ _ := rfl
  searches _ _ := rfl
  pending _ _ later := later

theorem framed_insert (op : Operation) :
    Framed handle (some k) t { t with operations := t.operations.insert (handle, k) op } :=
  framed_operations fun key other => by rw [Table.get?_insert, if_neg other]

theorem framed_erase :
    Framed handle (some k) t { t with operations := t.operations.erase (handle, k) } :=
  framed_operations fun key other => by rw [Table.get?_erase, if_neg other]

theorem subject_of_operation {f : Function} (goes_on : f.operation? = some k) :
    f.subject? = some (some k) := by
  cases f <;> cases goes_on <;> rfl

theorem framed_dropOperation {f : Function} (subject : f.subject? = some kind) :
    Framed handle kind t (t.dropOperation handle f) := by
  unfold dropOperation
  cases goes_on : f.operation? with
  | none => exact Framed.refl t
  | some k =>
    cases subject.symm.trans (subject_of_operation goes_on)
    exact framed_erase

theorem deliver_snd (b : Bytes) (capacity : Option Nat) (t : Token) :
    (deliver b capacity t).2 = t := by
  unfold deliver
  split
  · rfl
  · split <;> rfl

theorem framed_begin (code : Code) : Framed handle (some k) t (begin k handle code t).2 := by
  unfold begin
  split
  · exact Framed.refl t
  · split
    · exact Framed.refl t
    · exact framed_insert _

theorem framed_conclude (data : Bytes) (capacity : Option Nat) :
    Framed handle (some k) t (conclude k handle data capacity t).2 := by
  unfold conclude
  split
  · exact Framed.refl t
  · rw [deliver_snd]
    split
    · exact framed_erase
    · exact Framed.refl t

theorem framed_stream (data : Bytes) (capacity : Option Nat) :
    Framed handle (some k) t (stream k handle data capacity t).2 := by
  unfold stream
  split
  · exact Framed.refl t
  · rw [deliver_snd]
    exact Framed.refl t

theorem framed_feed (data : Bytes) : Framed handle (some k) t (feed k handle data t).2 := by
  unfold feed
  split
  · exact Framed.refl t
  · exact framed_insert _

theorem framed_check (data signature : Bytes) :
    Framed handle (some .verify) t (check handle data signature t).2 := by
  unfold check
  split
  · exact Framed.refl t
  · dsimp only
    split <;> exact framed_erase

theorem framed_search (template : List Wire.Entry) :
    Framed handle (some .findObjects) t (search handle template t).2 := by
  unfold search
  split
  · exact Framed.refl t
  · exact framed_searches fun h other => by rw [Table.get?_insert, if_neg other]

theorem framed_nextFound (capacity : Nat) :
    Framed handle (some .findObjects) t (nextFound handle capacity t).2 := by
  unfold nextFound
  split
  · exact Framed.refl t
  · exact framed_searches fun h other => by rw [Table.get?_insert, if_neg other]

theorem framed_endSearch : Framed handle (some .findObjects) t (endSearch handle t).2 := by
  unfold endSearch
  split
  · exact framed_searches fun h other => by rw [Table.get?_erase, if_neg other]
  · exact Framed.refl t

theorem perform_apart (apart : q.function.subject? = some none) (t : Token) :
    ∃ objects lastObject, (perform q t).2 = { t with objects, lastObject } := by
  cases q <;> cases apart
  case generateKey | generateKeyPair | createObject | generateRandom | seedRandom =>
    exact ⟨_, _, rfl⟩
  case wrapKey session m wrapping key capacity =>
    simp only [perform, wrap]
    split
    · split
      · exact ⟨_, _, rfl⟩
      · split
        · exact ⟨_, _, rfl⟩
        · rw [deliver_snd]
          exact ⟨_, _, rfl⟩
    · exact ⟨_, _, rfl⟩
  case deriveKey session m base template =>
    simp only [perform, derive]
    split
    · split
      · split <;> exact ⟨_, _, rfl⟩
      · split
        · split <;> exact ⟨_, _, rfl⟩
        · exact ⟨_, _, rfl⟩
    · exact ⟨_, _, rfl⟩
  all_goals
    simp only [perform]
    split <;> exact ⟨_, _, rfl⟩

theorem framed_perform_of_subject (session : q.session? = some handle)
    (subject : q.function.subject? = some (some k)) :
    Framed handle (some k) t (perform q t).2 := by
  cases q <;> cases session <;> cases subject
  case init => exact framed_begin _
  case digestInit => exact framed_begin _
  case oneShot => exact framed_conclude _ _
  case stream => exact framed_stream _ _
  case feed => exact framed_feed _
  case finish => exact framed_conclude _ _
  case verify => exact framed_check _ _
  case verifyFinal => exact framed_check _ _
  case findObjectsInit => exact framed_search _
  case findObjects => exact framed_nextFound _
  case findObjectsFinal => exact framed_endSearch

theorem framed_perform (within : q.Within handle kind) : Framed handle kind t (perform q t).2 := by
  cases kind with
  | none =>
    obtain ⟨objects, lastObject, same⟩ := perform_apart within.subject t
    rw [same]
    exact framed_objects objects lastObject
  | some k => exact framed_perform_of_subject within.session within.subject

theorem framed_answer (within : q.Within handle kind) : Framed handle kind t (t.answer q).2 := by
  by_cases opened : handle ∈ t.sessions
  · rcases answer_cases within.session opened with ⟨rv, _, answered⟩ | ⟨_, answered⟩
    · rw [answered]
      exact (framed_counted t _).trans (framed_dropOperation within.subject)
    · rw [answered]
      exact (framed_counted t _).trans (framed_perform within)
  · cases due : t.due q.function with
    | some rv =>
      rw [answer_of_due within.session due]
      exact (framed_counted t _).trans (framed_dropOperation within.subject)
    | none =>
      rw [answer_of_closed within.session due opened]
      exact framed_counted t _

/-- The token speaks of an operation under way that should not be, or of none where one should. -/
def Disagrees (rv : Code) : Prop := rv = Return.operationActive ∨ rv = Return.operationNotInitialized

instance (rv : Code) : Decidable (Disagrees rv) := inferInstanceAs (Decidable (_ ∨ _))

def Agreeable {shape : Shape} (a : Answer shape) : Prop :=
  ∀ e, a.result = .error e → ∃ rv, e = .returned rv ∧ ¬ Disagrees rv

theorem agreeable_give (v : shape.Value) (t : Token) : Agreeable (give v t).1 := by
  intro e failed
  cases failed

theorem agreeable_refuse {rv : Code} (other : ¬ Disagrees rv) (t : Token) :
    Agreeable (refuse rv t : Answer shape × Token).1 := by
  intro e failed
  cases failed
  exact ⟨rv, rfl, other⟩

theorem agreeable_deliver (b : Bytes) (capacity : Option Nat) (t : Token) :
    Agreeable (deliver b capacity t).1 := by
  unfold deliver
  split
  · exact agreeable_give _ t
  · split
    · exact agreeable_refuse (by decide) t
    · intro e failed
      cases failed

theorem worse_of_both {P : Code → Prop} {rv r : Code} (start : P rv) (next : P r) :
    P (worse rv r) := by
  unfold worse
  split
  · exact next
  · exact start

theorem fillAll_rv_of_forall {P : Code → Prop} {o : Object} {entries : List Wire.Entry}
    (each : ∀ i, ∀ e ∈ entries, P (fillEntry o i e).2) {i : Nat} {rv : Code} (start : P rv) :
    P (fillAll o i rv entries).2 := by
  induction entries generalizing i rv with
  | nil => exact start
  | cons e rest ih =>
    exact ih (fun j f member => each j f (List.mem_cons_of_mem e member))
      (worse_of_both start (each i e List.mem_cons_self))

theorem fillBytes_rv (path : List Nat) (type : Option Code) (h : Wire.Head) (b : Bytes) :
    ¬ Disagrees (fillBytes path type h b).2 := by
  unfold fillBytes
  split
  · exact (by decide : ¬ Disagrees Return.ok)
  · split
    · exact (by decide : ¬ Disagrees Return.bufferTooSmall)
    · exact (by decide : ¬ Disagrees Return.ok)

theorem fillMembers_rv (path : List Nat) (j : Nat) (heads : List Wire.Head)
    (members : List (Code × Bytes)) : ¬ Disagrees (fillMembers path j heads members).2 := by
  induction heads generalizing j members with
  | nil => exact (by decide : ¬ Disagrees Return.ok)
  | cons h heads ih =>
    cases members with
    | nil => exact (by decide : ¬ Disagrees Return.ok)
    | cons m members =>
      rw [fillMembers]
      dsimp only
      split
      · exact fillBytes_rv _ _ _ _
      · exact ih (j + 1) members

theorem fillEntry_rv (o : Object) (i : Nat) (e : Wire.Entry) :
    ¬ Disagrees (fillEntry o i e).2 := by
  unfold fillEntry
  split
  · exact (by decide : ¬ Disagrees Return.attributeTypeInvalid)
  · exact (by decide : ¬ Disagrees Return.attributeSensitive)
  · exact fillBytes_rv _ _ _ _
  · unfold fillNested
    dsimp only
    split
    · exact (by decide : ¬ Disagrees Return.ok)
    · split
      · exact (by decide : ¬ Disagrees Return.bufferTooSmall)
      · exact fillMembers_rv _ _ _ _

theorem agreeable_readAttributes (o : Object) (entries : List Wire.Entry) :
    Agreeable (readAttributes o entries) := by
  have start : ¬ Disagrees Return.ok := by decide
  have filled : ¬ Disagrees (fillAll o 0 Return.ok entries).2 :=
    fillAll_rv_of_forall (P := fun rv => ¬ Disagrees rv) (fun i e _ => fillEntry_rv o i e) start
  intro e failed
  unfold readAttributes at failed
  dsimp only at failed
  split at failed
  · cases failed
  · cases failed
    exact ⟨_, rfl, filled⟩

theorem agreeable_perform_apart (apart : q.function.subject? = some none) (t : Token) :
    Agreeable (perform q t).1 := by
  cases q <;> cases apart
  case generateKey | generateKeyPair | createObject | generateRandom | seedRandom =>
    intro e failed
    cases failed
  case wrapKey session m wrapping key capacity =>
    simp only [perform, wrap]
    split
    · split
      · exact agreeable_refuse (by decide) t
      · split
        · exact agreeable_refuse (by decide) t
        · exact agreeable_deliver _ _ t
    · exact agreeable_refuse (by decide) t
  case deriveKey session m base template =>
    simp only [perform, derive]
    split
    · split
      · split
        · intro e failed
          cases failed
        · exact agreeable_refuse (by decide) t
      · split
        · split
          · intro e failed
            cases failed
          · exact agreeable_refuse (by decide) t
        · intro e failed
          cases failed
    · exact agreeable_refuse (by decide) t
  case getAttributeValue session object entries =>
    simp only [perform]
    split
    · exact agreeable_refuse (by decide) t
    · exact agreeable_readAttributes _ entries
  case unwrapKey | destroyObject =>
    simp only [perform]
    split
    · intro e failed
      cases failed
    · exact agreeable_refuse (by decide) t
  all_goals
    simp only [perform]
    split
    · exact agreeable_refuse (by decide) t
    · intro e failed
      cases failed

end Token

/-- What a call may change of the token. -/
theorem Session.framed_step (c : Session.Call) (s : Session) (t : Token) (journal : Journal) :
    (Session.step Token.module c s ⟨t, journal⟩).2.1.handle = s.handle ∧
      Token.Framed s.handle c.kind? t (Session.step Token.module c s ⟨t, journal⟩).2.2.state := by
  have keeps : SessionM.Keeps s.handle (Token.Framed s.handle c.kind? t) (fun _ => True)
      (Session.perform Token.module c) :=
    Session.keeps_perform (fun _ _ => trivial) c fun q within a framed =>
      ⟨framed.trans (Token.framed_answer within), fun _ _ => trivial⟩
  have kept := keeps s t rfl (Token.Framed.refl t) journal
  exact ⟨kept.1, kept.2.1⟩

end Cryptoki
