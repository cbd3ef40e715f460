import Cryptoki.Proofs.Session.Apart
import Cryptoki.Proofs.Session.Calls

/-!
Sessions where buffers have a limit. A call that asks for none beyond it does what it does where
every buffer can be had. One that asks for more unwinds, and leaves the session as it was.
-/
namespace Cryptoki

variable {σ α β : Type} {M : Module σ}

def Result.limited (r : Result α) : Except Halt α := r.mapError .error

namespace SessionM

variable {limited : ActionM Halt σ α} {free : SessionM σ α} {s s' : Session} {h h' : Host σ}

def told (M : Module σ) (q : Request .length) (a : σ) : Nat :=
  match (M.answer q a).1.result with
  | .ok size => size
  | .error _ => 0

theorem ask_run {ε : Type} [Fault ε] {shape : Shape} (q : Request shape) :
    (ask M q : ActionM ε σ shape.Value) s h = ofResult (M.answer q h.state).1.result s
      ⟨(M.answer q h.state).2.1, h.journal ++ (M.answer q h.state).2.2⟩ := rfl

theorem told_of_ask {q : Request .length} {size : Nat}
    (came : (ask M q : SessionM σ Nat) s h = ((.ok size, s'), h')) : told M q h.state = size := by
  rw [ask_run] at came
  unfold told
  cases result : (M.answer q h.state).1.result with
  | ok size' =>
    rw [result] at came
    cases came
    rfl
  | error e =>
    rw [result] at came
    cases came

/-- The action comes to what it comes to where every buffer can be had. -/
def Unhindered (limited : ActionM Halt σ α) (free : SessionM σ α) (s : Session) (h : Host σ) :
    Prop :=
  limited s h = ((Result.limited (free s h).1.1, (free s h).1.2), (free s h).2)

theorem unhindered_pure (a : α) : Unhindered (pure a) (pure a : SessionM σ α) s h := rfl

theorem unhindered_ofResult (r : Result α) :
    Unhindered (ofResult r) (ofResult r : SessionM σ α) s h := by
  cases r <;> rfl

theorem unhindered_get : Unhindered get (get : SessionM σ Session) s h := rfl

theorem unhindered_set : Unhindered (set s') (set s' : SessionM σ PUnit) s h := rfl

theorem unhindered_modify (change : Session → Session) :
    Unhindered (modify change) (modify change : SessionM σ PUnit) s h := rfl

theorem unhindered_tell (level : Level) (text : String) :
    Unhindered (tell level text) (tell level text : SessionM σ Unit) s h := rfl

theorem unhindered_ownHandle : Unhindered ownHandle (ownHandle : SessionM σ Handle) s h := rfl

theorem unhindered_askAnswer {shape : Shape} (q : Request shape) :
    Unhindered (askAnswer M q) (askAnswer M q) s h := rfl

theorem Unhindered.bind {f : α → ActionM Halt σ β} {g : α → SessionM σ β}
    (first : Unhindered limited free s h)
    (second : ∀ a s' h', free s h = ((.ok a, s'), h') → Unhindered (f a) (g a) s' h') :
    Unhindered (limited >>= f) (free >>= g) s h := by
  rcases run : free s h with ⟨⟨r, s'⟩, h'⟩
  rw [Unhindered, run] at first
  cases r with
  | ok a =>
    rw [Unhindered, bind_of_ok first, bind_of_ok run]
    exact second a s' h' run
  | error e =>
    rw [Unhindered, bind_of_error first, bind_of_error run]
    rfl

theorem Unhindered.map (unhindered : Unhindered limited free s h) (f : α → β) :
    Unhindered (f <$> limited) (f <$> free) s h := by
  rw [map_eq_pure_bind, map_eq_pure_bind]
  exact unhindered.bind fun a _ _ _ => unhindered_pure (f a)

theorem unhindered_ask {shape : Shape} (q : Request shape) :
    Unhindered (ask M q) (ask M q) s h :=
  (unhindered_askAnswer q).bind fun a _ _ _ => unhindered_ofResult a.result

theorem unhindered_setState (k : OperationKind) (state : OperationState) :
    Unhindered (setState k state) (setState k state : SessionM σ Unit) s h := by
  refine unhindered_get.bind fun s₁ _ _ _ => ?_
  by_cases different : s₁.state k ≠ state
  · simp only [if_pos different]
    exact (unhindered_tell _ _).bind fun _ _ _ _ => unhindered_set
  · simp only [if_neg different]
    exact unhindered_set

theorem Unhindered.outcome (unhindered : Unhindered limited free s h) :
    Unhindered (outcome limited) (outcome free) s h := by
  rw [Unhindered, outcome_run]
  rcases run : free s h with ⟨⟨r, s'⟩, h'⟩
  rw [Unhindered, run] at unhindered
  cases r with
  | ok a => exact outcome_of_ok unhindered
  | error e => exact outcome_of_error unhindered rfl

theorem Unhindered.finishing (unhindered : Unhindered limited free s h) (k : OperationKind) :
    Unhindered (finishing k limited) (finishing k free) s h :=
  unhindered.outcome.bind fun r _ _ _ => (unhindered_setState k .idle).bind fun _ _ _ _ =>
    unhindered_ofResult r

theorem Unhindered.updating (unhindered : Unhindered limited free s h) (k : OperationKind) :
    Unhindered (updating k limited) (updating k free) s h := by
  refine unhindered.outcome.bind fun r _ _ _ => ?_
  cases r with
  | ok a => exact (unhindered_setState k .updated).bind fun _ _ _ _ => unhindered_pure a
  | error e =>
    exact (unhindered_setState k .idle).bind fun _ _ _ _ => unhindered_ofResult (.error e)

theorem unhindered_starting {k : OperationKind} {m : Mechanism}
    {q : Handle → MechanismBlock → Request .done} :
    Unhindered (starting M k m q) (starting M k m q) s h := by
  refine unhindered_get.bind fun s₁ s₂ h₂ _ => ?_
  refine (unhindered_ofResult _).bind fun _ s₃ h₃ _ => ?_
  have asked : ∀ s h, Unhindered (do
      ask M (q (← ownHandle) m.layOut.2)
      modify fun s => s.setOperation k
        { s.operation k with mechanism := m.code, protocol := protocol m.code k }
      setState k .initialized) (do
      ask M (q (← ownHandle) m.layOut.2)
      modify fun s => s.setOperation k
        { s.operation k with mechanism := m.code, protocol := protocol m.code k }
      setState k .initialized) s h := fun _ _ =>
    unhindered_ownHandle.bind fun _ _ _ _ => (unhindered_ask _).bind fun _ _ _ _ =>
      (unhindered_modify _).bind fun _ _ _ _ => unhindered_setState k .initialized
  by_cases unknown : protocol m.code k = .notSupported
  · simp only [if_pos unknown]
    exact (unhindered_tell _ _).bind fun _ _ _ _ => asked _ _
  · simp only [if_neg unknown]
    exact asked _ _

theorem unhindered_reserve {size : Nat} (fits : size ≤ bufferLimit) :
    Unhindered (reserve size) (reserve size : SessionM σ Unit) s h := by
  have enough : (Fault.lack size : Option Halt) = none := if_neg (Nat.not_lt.mpr fits)
  rw [Unhindered, reserve, enough]
  rfl

theorem unhindered_sizedOutput {q : Option Nat → Request .length}
    (fits : told M (q none) h.state ≤ bufferLimit) :
    Unhindered (sizedOutput M q) (sizedOutput M q) s h := by
  refine (unhindered_ask _).bind fun size s₁ h₁ came => ?_
  refine (unhindered_reserve ?_).bind fun _ _ _ _ => ?_
  · rwa [told_of_ask came] at fits
  · exact (unhindered_askAnswer _).bind fun a _ _ _ =>
      (unhindered_ofResult a.result).bind fun _ _ _ _ => unhindered_pure _

/-- The action unwinds with the session as it was. -/
def Unwinds (act : ActionM Halt σ α) (s : Session) (h : Host σ) : Prop :=
  ∃ h', act s h = ((.error .unwound, s), h')

theorem Unwinds.bind {f : α → ActionM Halt σ β} (unwinds : Unwinds limited s h) :
    Unwinds (limited >>= f) s h := by
  obtain ⟨h', run⟩ := unwinds
  exact ⟨h', bind_of_error run⟩

theorem Unwinds.after {f : α → ActionM Halt σ β} {a : α} (first : Unhindered limited free s h)
    (came : free s h = ((.ok a, s), h')) (unwinds : Unwinds (f a) s h') :
    Unwinds (limited >>= f) s h := by
  obtain ⟨h'', run⟩ := unwinds
  rw [Unhindered, came] at first
  exact ⟨h'', (bind_of_ok first).trans run⟩

theorem Unwinds.map (unwinds : Unwinds limited s h) (f : α → β) : Unwinds (f <$> limited) s h := by
  rw [map_eq_pure_bind]
  exact unwinds.bind

theorem unwinds_reserve {size : Nat} (beyond : bufferLimit < size) :
    Unwinds (reserve size : ActionM Halt σ Unit) s h := by
  have lacking : (Fault.lack size : Option Halt) = some .unwound := if_pos beyond
  exact ⟨h, by rw [reserve, lacking]; rfl⟩

theorem Unwinds.outcome (unwinds : Unwinds limited s h) : Unwinds (outcome limited) s h := by
  obtain ⟨h', run⟩ := unwinds
  exact ⟨h', outcome_of_unwound run rfl⟩

theorem Unwinds.finishing (unwinds : Unwinds limited s h) (k : OperationKind) :
    Unwinds (finishing k limited) s h := unwinds.outcome.bind

theorem Unwinds.updating (unwinds : Unwinds limited s h) (k : OperationKind) :
    Unwinds (updating k limited) s h := unwinds.outcome.bind

theorem unwinds_sizedOutput {q : Option Nat → Request .length}
    (beyond : bufferLimit < told M (q none) h.state) : Unwinds (sizedOutput M q) s h := by
  cases result : (M.answer (q none) h.state).1.result with
  | ok size =>
    have came : (ask M (q none) : SessionM σ Nat) s h = ((.ok size, s),
        ⟨(M.answer (q none) h.state).2.1, h.journal ++ (M.answer (q none) h.state).2.2⟩) := by
      rw [ask_run, result]
      rfl
    rw [told_of_ask came] at beyond
    exact Unwinds.after (unhindered_ask _) came (unwinds_reserve beyond).bind
  | error e => simp [told, result] at beyond

end SessionM

namespace Session

open SessionM

variable {s : Session} {h : Host σ}

/-- The longest storage that is made over several readings of attributes. -/
def readingDemand (M : Module σ) (object : Handle) :
    Nat → List Wire.Entry → Session → Host σ → Nat
  | 0, _, _, _ => 0
  | passes + 1, entries, s, h =>
    match (readAttributes M object entries : SessionM σ _) s h with
    | ((.error _, _), _) => 0
    | ((.ok (entries, _), s), h) =>
      let (entries, made) := Wire.allocate .bundled entries
      max (Wire.extent entries) <|
        match made with
        | .ok true => readingDemand M object passes entries s h
        | _ => 0

/-- The bytes of the longest buffer that a call comes to ask for. -/
def Call.demand (M : Module σ) (c : Call) (s : Session) (h : Host σ) : Nat :=
  match c with
  | .oneShot k data => told M (.oneShot k s.handle data none) h.state
  | .stream k data => told M (.stream k s.handle data none) h.state
  | .finish k => told M (.finish k s.handle none) h.state
  | .findObjectsNext max => handleSize * max
  | .findObjects _ _ => handleSize * findBatch
  | .wrapKey m wrapping key => told M (.wrapKey s.handle m.layOut.2 wrapping key none) h.state
  | .getAttributes object types => readingDemand M object attributePasses (Wire.query types) s h
  | .generateRandom size => size
  | _ => 0

theorem unhindered_readAttributes {object : Handle} {entries : List Wire.Entry} :
    Unhindered (readAttributes M object entries) (readAttributes M object entries) s h := by
  refine unhindered_ownHandle.bind fun handle _ _ _ => (unhindered_askAnswer _).bind fun a _ _ _ => ?_
  cases a.result with
  | ok _ => exact unhindered_pure _
  | error e =>
    by_cases secret : e.rv = Return.attributeSensitive
    · simp only [if_pos secret]
      exact unhindered_pure _
    · by_cases unknown : e.rv = Return.attributeTypeInvalid
      · simp only [if_neg secret, if_pos unknown]
        exact unhindered_pure _
      · simp only [if_neg secret, if_neg unknown]
        exact unhindered_ofResult (.error e)

theorem unhindered_flagSecrets {object : Handle} (types : List Code) (t : Template) :
    Unhindered (flagSecrets M object types t) (flagSecrets M object types t) s h := by
  induction types generalizing t s h with
  | nil => exact unhindered_pure t
  | cons type rest ih => exact unhindered_readAttributes.bind fun _ _ _ _ => ih _

theorem unhindered_readPasses {object : Handle} (passes : Nat) (entries : List Wire.Entry)
    (fits : readingDemand M object passes entries s h ≤ bufferLimit) :
    Unhindered (readPasses M object passes entries) (readPasses M object passes entries) s h := by
  induction passes generalizing entries s h with
  | zero => exact unhindered_pure _
  | succ passes ih =>
    refine unhindered_readAttributes.bind fun answer s₁ h₁ came => ?_
    obtain ⟨read, secret⟩ := answer
    rw [readingDemand, came] at fits
    dsimp only at fits ⊢
    obtain ⟨room, later⟩ := Nat.max_le.mp fits
    refine (unhindered_reserve room).bind fun _ _ _ reserved => ?_
    cases reserved
    cases made : (Wire.allocate .bundled read).2 with
    | error e => exact (unhindered_ofResult (.error e)).bind fun _ _ _ failed => nomatch failed
    | ok changed =>
      refine (unhindered_ofResult (.ok changed)).bind fun _ _ _ passed => ?_
      cases passed
      cases changed with
      | true =>
        rw [made] at later
        exact (ih _ later).bind fun _ _ _ _ => unhindered_pure _
      | false => exact unhindered_pure _

theorem unhindered_getAttributes {object : Handle} {types : List Code}
    (fits : readingDemand M object attributePasses (Wire.query types) s h ≤ bufferLimit) :
    Unhindered (getAttributes M object types) (getAttributes M object types) s h := by
  refine (unhindered_readPasses _ _ fits).bind fun answer _ _ _ => ?_
  obtain ⟨entries, secret⟩ := answer
  refine (unhindered_ofResult _).bind fun t _ _ _ => ?_
  cases secret with
  | true => exact unhindered_flagSecrets _ t
  | false => exact unhindered_pure t

theorem unwinds_readPasses {object : Handle} (passes : Nat) (entries : List Wire.Entry)
    (beyond : bufferLimit < readingDemand M object passes entries s h) :
    Unwinds (readPasses M object passes entries) s h := by
  induction passes generalizing entries s h with
  | zero => exact absurd beyond (Nat.not_lt_zero _)
  | succ passes ih =>
    rcases came : (readAttributes M object entries : SessionM σ _) s h with ⟨⟨answer, s₁⟩, h₁⟩
    rw [readingDemand, came] at beyond
    cases answer with
    | error e => exact absurd beyond (Nat.not_lt_zero _)
    | ok answer =>
      obtain ⟨read, secret⟩ := answer
      have does : Does M (readAttributes M object entries) s _ := does_readAttributes
      obtain ⟨_, _, _, _, run, _, _, _, same⟩ := does h
      cases came.symm.trans run
      subst same
      refine Unwinds.after unhindered_readAttributes came ?_
      -- Either storage is too long after this reading, or after a later one.
      by_cases room : Wire.extent (Wire.allocate .bundled read).1 ≤ bufferLimit
      · refine Unwinds.after (unhindered_reserve room) rfl ?_
        have later := Nat.not_le.mp fun less => Nat.not_le.mpr beyond (Nat.max_le.mpr ⟨room, less⟩)
        cases made : (Wire.allocate .bundled read).2 with
        | error e =>
          rw [made] at later
          exact absurd later (Nat.not_lt_zero _)
        | ok changed =>
          rw [made] at later
          refine Unwinds.after (unhindered_ofResult (.ok changed)) rfl ?_
          cases changed with
          | true => exact (ih _ later).bind
          | false => exact absurd later (Nat.not_lt_zero _)
      · exact (unwinds_reserve (Nat.not_le.mp room)).bind

theorem unhindered_checked {check : Session → Result Unit} {limited : Handle → ActionM Halt σ α}
    {free : Handle → SessionM σ α}
    (rest : check s = .ok () → Unhindered (limited s.handle) (free s.handle) s h) :
    Unhindered (get >>= fun s => ofResult (check s) >>= fun _ => ownHandle >>= limited)
      (get >>= fun s => ofResult (check s) >>= fun _ => ownHandle >>= free) s h := by
  refine unhindered_get.bind fun _ _ _ came => ?_
  cases came
  refine (unhindered_ofResult _).bind fun _ _ _ passed => ?_
  cases checked : check s with
  | error e =>
    rw [checked] at passed
    cases passed
  | ok _ =>
    rw [checked] at passed
    cases passed
    refine unhindered_ownHandle.bind fun _ _ _ came => ?_
    cases came
    exact rest checked

theorem unwinds_checked {check : Session → Result Unit} {limited : Handle → ActionM Halt σ α}
    (accepted : check s = .ok ()) (rest : Unwinds (limited s.handle) s h) :
    Unwinds (get >>= fun s => ofResult (check s) >>= fun _ => ownHandle >>= limited) s h := by
  refine Unwinds.after unhindered_get rfl ?_
  rw [accepted]
  exact Unwinds.after (unhindered_ofResult (.ok ())) rfl (Unwinds.after unhindered_ownHandle rfl rest)

theorem unhindered_findObjectsInit (t : Template) :
    Unhindered (findObjectsInit M t) (findObjectsInit M t) s h :=
  unhindered_checked fun _ => (unhindered_ask _).bind fun _ _ _ _ => unhindered_setState _ _

theorem unhindered_findObjectsNext {max : Nat}
    (fits : s.checkUpdate .findObjects = .ok () → handleSize * max ≤ bufferLimit) :
    Unhindered (findObjectsNext M max) (findObjectsNext M max) s h := by
  refine unhindered_checked fun accepted => ?_
  refine (unhindered_reserve (fits accepted)).bind fun _ _ _ _ => Unhindered.updating ?_ _
  exact (unhindered_askAnswer _).bind fun a _ _ _ =>
    (unhindered_ofResult a.result).bind fun _ _ _ _ => unhindered_pure _

theorem unhindered_findObjectsFinal :
    Unhindered (findObjectsFinal M) (findObjectsFinal M) s h :=
  unhindered_checked fun _ => (unhindered_ask _).finishing _

theorem unhindered_gather (batches : Nat) :
    Unhindered (gather M batches) (gather M batches) s h := by
  induction batches generalizing s h with
  | zero => exact unhindered_pure _
  | succ batches ih =>
    refine (unhindered_findObjectsNext fun _ => by decide).bind fun found _ _ _ => ?_
    cases found with
    | nil => exact unhindered_pure _
    | cons handle handles => exact ih.bind fun _ _ _ _ => unhindered_pure _

theorem unhindered_findObjects (batches : Nat) (t : Template) :
    Unhindered (findObjects M batches t) (findObjects M batches t) s h :=
  (unhindered_findObjectsInit t).bind fun _ _ _ _ => (unhindered_gather batches).bind fun _ _ _ _ =>
    unhindered_findObjectsFinal.bind fun _ _ _ _ => unhindered_pure _

theorem unhindered_deriveKey {m : Mechanism} {base : Handle} {t : Template} :
    Unhindered (deriveKey M m base t) (deriveKey M m base t) s h := by
  refine unhindered_ownHandle.bind fun _ _ _ _ => (unhindered_askAnswer _).bind fun a _ _ _ => ?_
  cases a.result <;> exact unhindered_pure _

/-- What an accepted call asks for. A refused one asks for nothing. -/
theorem unhindered_perform {c : Call}
    (fits : (∀ k role, c.role? = some (k, role) → s.check k role = .ok ()) →
      c.demand M s h ≤ bufferLimit) :
    Unhindered (perform M c) (perform M c) s h := by
  have asking : ∀ {shape : Shape} (q : Handle → Request shape),
      Unhindered (ownHandle >>= fun handle => ask M (q handle))
        (ownHandle >>= fun handle => ask M (q handle)) s h := fun q =>
    unhindered_ownHandle.bind fun _ _ _ _ => unhindered_ask _
  have checked : ∀ k role, c.role? = some (k, role) → s.check k role = .ok () →
      c.demand M s h ≤ bufferLimit := by
    intro k role belongs accepted
    refine fits fun k' role' belongs' => ?_
    cases belongs.symm.trans belongs'
    exact accepted
  cases c with
  | init k m key => exact unhindered_starting.map _
  | digestInit m => exact unhindered_starting.map _
  | oneShot k data =>
    exact (unhindered_checked fun accepted =>
      (unhindered_sizedOutput (checked _ .oneShot rfl accepted)).finishing _).map _
  | stream k data =>
    exact (unhindered_checked fun accepted =>
      (unhindered_sizedOutput (checked _ .update rfl accepted)).updating _).map _
  | feed k data => exact (unhindered_checked fun _ => (unhindered_ask _).updating _).map _
  | finish k =>
    exact (unhindered_checked fun accepted =>
      (unhindered_sizedOutput (checked _ .final rfl accepted)).finishing _).map _
  | verify data signature =>
    exact (unhindered_checked fun _ => (unhindered_ask _).finishing _).map _
  | verifyFinal signature =>
    exact (unhindered_checked fun _ => (unhindered_ask _).finishing _).map _
  | findObjectsInit t => exact (unhindered_findObjectsInit t).map _
  | findObjectsNext max =>
    exact (unhindered_findObjectsNext fun accepted => checked _ .update rfl accepted).map _
  | findObjectsFinal => exact unhindered_findObjectsFinal.map _
  | findObjects batches t => exact (unhindered_findObjects batches t).map _
  | generateKey m t => exact (asking _).map _
  | generateKeyPair m t u => exact (asking _).map _
  | wrapKey m wrapping key =>
    refine Unhindered.map (unhindered_ownHandle.bind fun _ _ _ came => ?_) _
    cases came
    exact unhindered_sizedOutput (fits fun _ _ apart => nomatch apart)
  | unwrapKey m unwrapping wrapped t => exact (asking _).map _
  | deriveKey m base t =>
    exact unhindered_deriveKey.bind fun answer _ _ _ => (unhindered_ofResult answer.1).map _
  | createObject t => exact (asking _).map _
  | copyObject object t => exact (asking _).map _
  | destroyObject object => exact (asking _).map _
  | getAttributes object types =>
    exact (unhindered_getAttributes (fits fun _ _ apart => nomatch apart)).map _
  | setAttributes object t => exact (asking _).map _
  | generateRandom size =>
    refine Unhindered.map ?_ _
    refine (unhindered_reserve (fits fun _ _ apart => nomatch apart)).bind fun _ _ _ _ => ?_
    exact unhindered_ownHandle.bind fun _ _ _ _ => (unhindered_askAnswer _).bind fun a _ _ _ =>
      (unhindered_ofResult a.result).bind fun _ _ _ _ => unhindered_pure _
  | seedRandom seed => exact (asking _).map _

theorem unwinds_perform {c : Call}
    (accepted : ∀ k role, c.role? = some (k, role) → s.check k role = .ok ())
    (beyond : bufferLimit < c.demand M s h) : Unwinds (perform M c) s h := by
  cases c with
  | oneShot k data =>
    exact (unwinds_checked (accepted _ .oneShot rfl) ((unwinds_sizedOutput beyond).finishing _)).map _
  | stream k data =>
    exact (unwinds_checked (accepted _ .update rfl) ((unwinds_sizedOutput beyond).updating _)).map _
  | finish k =>
    exact (unwinds_checked (accepted _ .final rfl) ((unwinds_sizedOutput beyond).finishing _)).map _
  | findObjectsNext max =>
    exact (unwinds_checked (accepted _ .update rfl) (unwinds_reserve beyond).bind).map _
  | findObjects batches t =>
    exact absurd (show bufferLimit < handleSize * findBatch from beyond) (by decide)
  | wrapKey m wrapping key =>
    exact (Unwinds.after unhindered_ownHandle rfl (unwinds_sizedOutput beyond)).map _
  | getAttributes object types => exact (unwinds_readPasses _ _ beyond).bind.map _
  | generateRandom size => exact (unwinds_reserve beyond).bind.map _
  | _ => exact absurd beyond (Nat.not_lt_zero _)

theorem returned?_limited (r : Result Outcome) : returned? r.limited = some r := by
  cases r <;> rfl

theorem attempt_of_fits {c : Call}
    (fits : (∀ k role, c.role? = some (k, role) → s.check k role = .ok ()) →
      c.demand M s h ≤ bufferLimit) :
    attempt M c s h = ((step M c s h).1.limited, (step M c s h).2) := by
  have same : (perform M c : ActionM Halt σ Outcome) s h = _ := unhindered_perform fits
  rw [attempt, same]
  rfl

theorem attempt_of_beyond {c : Call}
    (accepted : ∀ k role, c.role? = some (k, role) → s.check k role = .ok ())
    (beyond : bufferLimit < c.demand M s h) : ∃ h', attempt M c s h = (.error .unwound, s, h') := by
  obtain ⟨h', run⟩ := unwinds_perform accepted beyond
  exact ⟨h', by rw [attempt, run]⟩

/-- A run in which no call unwinds is the run where every buffer can be had. -/
theorem run_of_attempts {calls : List Call} {after : List (Result Outcome) × Session × Host σ}
    (returned : attempts M calls s h = some after) : run M calls s h = after := by
  induction calls generalizing s h after with
  | nil => exact Option.some.inj returned
  | cons c rest ih =>
    -- A call that asks for too much would have unwound.
    by_cases fits : (∀ k role, c.role? = some (k, role) → s.check k role = .ok ()) →
        c.demand M s h ≤ bufferLimit
    · rw [attempts, attempt_of_fits fits] at returned
      simp only [returned?_limited, Option.bind_eq_bind, Option.bind_some] at returned
      obtain ⟨later, afterwards, same⟩ := Option.bind_eq_some_iff.mp returned
      cases same
      have opened : run M (c :: rest) s h = ((step M c s h).1 ::
        (run M rest (step M c s h).2.1 (step M c s h).2.2).1,
          (run M rest (step M c s h).2.1 (step M c s h).2.2).2) := rfl
      rw [opened, ih afterwards]
    · obtain ⟨accepted, beyond⟩ := Classical.not_imp.mp fits
      obtain ⟨h', unwound⟩ := attempt_of_beyond accepted (Nat.not_le.mp beyond)
      rw [attempts, unwound] at returned
      cases returned

end Session

end Cryptoki
