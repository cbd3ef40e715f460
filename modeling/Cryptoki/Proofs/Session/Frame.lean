import Cryptoki.Proofs.Session.Ending
import Cryptoki.Proofs.Session.Calls
import Cryptoki.Proofs.Wire.Refusal

/-!
What a call can reach. All that it asks the module is asked in its own session and belongs to its
own kind of operation, so that whatever such requests leave alone, the call leaves alone.
-/
namespace Cryptoki

/-- What a call of the function is about in its session: a kind of operation, or none. To open and
to close are about the session itself. -/
def Function.subject? : Function → Option (Option OperationKind)
  | .openSession | .closeSession => none
  | .init k => some (some k.kind)
  | .digestInit => some (some .digest)
  | .oneShot k => some (some k.kind)
  | .stream k => some (some k.kind)
  | .feed k => some (some k.kind)
  | .finish k => some (some k.kind)
  | .verify | .verifyFinal => some (some .verify)
  | .findObjectsInit | .findObjects | .findObjectsFinal => some (some .findObjects)
  | _ => some none

/-- Asked in the session of the handle, and about the kind of operation, or about none. -/
structure Request.Within {shape : Shape} (q : Request shape) (handle : Handle)
    (kind : Option OperationKind) : Prop where
  session : q.session? = some handle
  subject : q.function.subject? = some kind

namespace Session

variable {σ α : Type} {M : Module σ} {handle : Handle} {inv : σ → Prop} {failure : Error → Prop}

open SessionM

theorem kind_of_checkActive (s : Session) (k : OperationKind) {e : Error}
    (refused : s.checkActive k = .error e) : e.kind = .invalidState := by
  by_cases idle : (s.operation k).state = .idle
  · simp only [checkActive, if_pos idle] at refused
    cases refused
    rfl
  · simp only [checkActive, if_neg idle] at refused
    cases refused

theorem kind_of_refused (s : Session) (k : OperationKind) {bad : Operation → Prop}
    [DecidablePred bad] {reason : Operation → Error} (state : ∀ op, (reason op).kind = .invalidState)
    {e : Error} (refused : (do
      let op ← s.checkActive k
      if bad op then .error (reason op) : Result Unit) = .error e) : e.kind = .invalidState := by
  cases active : s.checkActive k with
  | error e' =>
    rw [active] at refused
    cases refused
    exact kind_of_checkActive s k active
  | ok op =>
    rw [active, Result.ok_bind] at refused
    split at refused
    · cases refused
      exact state op
    · cases refused

theorem kind_of_check (s : Session) (k : OperationKind) (role : Role) {e : Error}
    (refused : s.check k role = .error e) : e.kind = .invalidState := by
  cases role with
  | start | whole =>
    by_cases idle : (s.operation k).state = .idle
    · simp only [check, checkStart, if_pos idle] at refused
      cases refused
    · simp only [check, checkStart, if_neg idle] at refused
      cases refused
      rfl
  | oneShot => exact kind_of_refused s k (fun _ => rfl) refused
  | update => exact kind_of_refused s k (fun _ => rfl) refused
  | final => exact kind_of_refused s k (fun _ => rfl) refused

def Role.goesOn : Role → Prop
  | .start | .whole => False
  | .oneShot | .update | .final => True

theorem idle_of_checkStart {s : Session} {k : OperationKind} (passed : s.checkStart k = .ok ()) :
    s.state k = .idle := by
  by_cases idle : (s.operation k).state = .idle
  · exact idle
  · simp only [checkStart, if_neg idle] at passed
    cases passed

theorem active_of_checkActive {s : Session} {k : OperationKind} {op : Operation}
    (passed : s.checkActive k = .ok op) : s.state k ≠ .idle := by
  intro idle
  have idle : (s.operation k).state = .idle := idle
  simp only [checkActive, if_pos idle] at passed
  cases passed

theorem active_of_check {s : Session} {k : OperationKind} {role : Role}
    (passed : s.check k role = .ok ()) (goesOn : role.goesOn) : s.state k ≠ .idle := by
  cases role with
  | start | whole => exact goesOn.elim
  | oneShot | update | final =>
    obtain ⟨op, active, _⟩ := Result.bind_eq_ok.mp passed
    exact active_of_checkActive active

theorem ends_deriveKey {m : Mechanism} {base : Handle} {t : Template} {s : Session} {a : σ} :
    Ends (deriveKey M m base t) s a fun r s' a' =>
      ∃ after, r = .ok ((M.answer (.deriveKey s.handle m.layOut.2 base t.toArray) a).1.result, after) ∧
        s' = s ∧ a' = (M.answer (.deriveKey s.handle m.layOut.2 base t.toArray) a).2.1 := by
  unfold deriveKey
  rcases m.layOut with ⟨reset, b⟩
  refine quiet_ownHandle.ends (ends_askAnswer_bind ?_)
  generalize M.answer (.deriveKey s.handle b base t.toArray) a = answered
  rcases answered with ⟨⟨written, result⟩, a', notes⟩
  cases result with
  | ok key => exact ends_pure ⟨_, rfl, rfl, rfl⟩
  | error e => exact ends_pure ⟨_, rfl, rfl, rfl⟩

section

variable {object : Handle}
  (allows : ∀ entries, Allows M inv failure (.getAttributeValue handle object entries))
include allows

theorem keeps_readAttributes (entries : List Wire.Entry) :
    Keeps handle inv failure (readAttributes M object entries) := by
  refine keeps_ownHandle_bind (keeps_askAnswer_bind (allows entries) fun a errors => ?_)
  cases answered : a.result with
  | ok _ => exact keeps_pure _
  | error e =>
    have passed_on : Keeps handle inv failure
        (ofResult (.error e) : SessionM σ (List Wire.Entry × Bool)) :=
      keeps_ofResult fun e' failed => by
        cases failed
        exact errors e answered
    dsimp only
    split
    · exact keeps_pure _
    · split
      · exact keeps_pure _
      · exact passed_on

theorem keeps_flagSecrets (types : List Code) (t : Template) :
    Keeps handle inv failure (flagSecrets M object types t) := by
  induction types generalizing t with
  | nil => exact keeps_pure t
  | cons type rest ih =>
    exact (keeps_readAttributes allows _).bind fun answer => ih _

end

section

variable (own : ∀ e : Error, e.kind ≠ .module → failure e)
include own

theorem keeps_check (k : OperationKind) (role : Role) {next : SessionM σ α}
    (rest : Keeps handle inv failure next) :
    Keeps handle inv failure (get >>= fun s => ofResult (s.check k role) >>= fun _ => next) := by
  refine keeps_get.bind fun s => (keeps_ofResult fun e refused => own e ?_).bind fun _ => rest
  simp [kind_of_check s k role refused]

theorem keeps_malformed {r : Result α} (malformed : r.OnlyMalformed) :
    Keeps handle inv failure (ofResult r : SessionM σ α) :=
  keeps_ofResult fun e failed => own e (by simp [malformed e failed])

theorem keeps_starting {k : OperationKind} {m : Mechanism}
    {q : Handle → MechanismBlock → Request .done}
    (allows : ∀ b, Allows M inv failure (q handle b)) :
    Keeps handle inv failure (starting M k m q) := by
  refine keeps_check own k .start ?_
  have accept : Keeps handle inv failure (do
      ask M (q (← ownHandle) m.layOut.2)
      modify fun s => s.setOperation k
        { s.operation k with mechanism := m.code, protocol := protocol m.code k }
      setState k .initialized) :=
    keeps_ownHandle_bind ((keeps_ask (allows _)).bind fun _ =>
      (keeps_modify (g := fun s => s.setOperation k _) fun _ => rfl).bind fun _ =>
        keeps_setState)
  by_cases unknown : protocol m.code k = .notSupported
  · simp only [if_pos unknown]
    exact keeps_tell.bind fun _ => accept
  · simp only [if_neg unknown]
    exact accept

theorem keeps_findObjectsInit {t : Template}
    (allows : Allows M inv failure (.findObjectsInit handle t.toArray)) :
    Keeps handle inv failure (findObjectsInit M t) :=
  keeps_check own _ .start <|
    keeps_ownHandle_bind ((keeps_ask allows).bind fun _ => keeps_setState)

theorem keeps_findObjectsNext {max : Nat}
    (allows : Allows M inv failure (.findObjects handle max)) :
    Keeps handle inv failure (findObjectsNext M max) := by
  refine keeps_check own _ .update ?_
  refine keeps_ownHandle_bind (keeps_reserve.bind fun _ => Keeps.updating ?_)
  exact keeps_askAnswer_bind allows fun a errors =>
    (keeps_ofResult errors).bind fun count => keeps_pure _

theorem keeps_findObjectsFinal (allows : Allows M inv failure (.findObjectsFinal handle)) :
    Keeps handle inv failure (findObjectsFinal M) :=
  keeps_check own _ .final <|
    keeps_ownHandle_bind (keeps_ask allows).finishing

theorem keeps_gather (allows : Allows M inv failure (.findObjects handle findBatch))
    (batches : Nat) :
    Keeps handle inv failure (gather M batches) := by
  induction batches with
  | zero => exact keeps_pure []
  | succ batches ih =>
    refine (keeps_findObjectsNext own allows).bind fun found => ?_
    cases found with
    | nil => exact keeps_pure []
    | cons h hs => exact ih.bind fun more => keeps_pure _

section

variable {object : Handle}
  (allows : ∀ entries, Allows M inv failure (.getAttributeValue handle object entries))
include allows

theorem keeps_readPasses (passes : Nat) (entries : List Wire.Entry) :
    Keeps handle inv failure (readPasses M object passes entries) := by
  induction passes generalizing entries with
  | zero => exact keeps_pure _
  | succ passes ih =>
    refine (keeps_readAttributes allows entries).bind fun answer => ?_
    obtain ⟨entries, secret⟩ := answer
    refine keeps_reserve.bind fun _ => ?_
    refine (keeps_malformed own (Wire.onlyMalformed_allocate entries)).bind fun made => ?_
    cases made with
    | true => exact (ih _).bind fun again => keeps_pure _
    | false => exact keeps_pure _

theorem keeps_getAttributes (types : List Code) :
    Keeps handle inv failure (getAttributes M object types) := by
  refine (keeps_readPasses own allows attributePasses _).bind fun answer => ?_
  obtain ⟨entries, secret⟩ := answer
  refine (keeps_malformed own (Wire.onlyMalformed_ofArray entries)).bind fun t => ?_
  cases secret with
  | true => exact keeps_flagSecrets allows _ t
  | false => exact keeps_pure t

end

theorem keeps_perform (c : Call)
    (allows : ∀ {shape : Shape} (q : Request shape), q.Within handle c.kind? →
      Allows M inv failure q) :
    Keeps handle inv failure (perform M c) := by
  have asking : ∀ {shape : Shape} (q : Request shape), q.Within handle c.kind? →
      Keeps handle inv failure (ask M q) := fun q within => keeps_ask (allows q within)
  cases c with
  | init k m key =>
    exact Keeps.map (keeps_starting own fun b => allows _ ⟨rfl, rfl⟩) _
  | digestInit m =>
    exact Keeps.map (keeps_starting own fun b => allows _ ⟨rfl, rfl⟩) _
  | oneShot k data =>
    refine (keeps_check own _ .oneShot ?_).map _
    exact keeps_ownHandle_bind
      (keeps_sizedOutput fun capacity => allows _ ⟨rfl, rfl⟩).finishing
  | stream k data =>
    refine (keeps_check own _ .update ?_).map _
    exact keeps_ownHandle_bind
      (keeps_sizedOutput fun capacity => allows _ ⟨rfl, rfl⟩).updating
  | feed k data =>
    refine (keeps_check own _ .update ?_).map _
    exact keeps_ownHandle_bind (asking _ ⟨rfl, rfl⟩).updating
  | finish k =>
    refine (keeps_check own _ .final ?_).map _
    exact keeps_ownHandle_bind
      (keeps_sizedOutput fun capacity => allows _ ⟨rfl, rfl⟩).finishing
  | verify data signature =>
    refine (keeps_check own _ .oneShot ?_).map _
    exact keeps_ownHandle_bind (asking _ ⟨rfl, rfl⟩).finishing
  | verifyFinal signature =>
    refine (keeps_check own _ .final ?_).map _
    exact keeps_ownHandle_bind (asking _ ⟨rfl, rfl⟩).finishing
  | findObjectsInit t => exact (keeps_findObjectsInit own (allows _ ⟨rfl, rfl⟩)).map _
  | findObjectsNext max => exact (keeps_findObjectsNext own (allows _ ⟨rfl, rfl⟩)).map _
  | findObjectsFinal => exact (keeps_findObjectsFinal own (allows _ ⟨rfl, rfl⟩)).map _
  | findObjects batches t =>
    refine Keeps.map ?_ _
    refine (keeps_findObjectsInit own (allows _ ⟨rfl, rfl⟩)).bind fun _ => ?_
    refine (keeps_gather own (allows _ ⟨rfl, rfl⟩) batches).bind fun found => ?_
    exact (keeps_findObjectsFinal own (allows _ ⟨rfl, rfl⟩)).bind fun _ => keeps_pure found
  | generateKey m t => exact (keeps_ownHandle_bind (asking _ ⟨rfl, rfl⟩)).map _
  | generateKeyPair m t u => exact (keeps_ownHandle_bind (asking _ ⟨rfl, rfl⟩)).map _
  | wrapKey m wrapping key =>
    exact (keeps_ownHandle_bind
      (keeps_sizedOutput fun capacity => allows _ ⟨rfl, rfl⟩)).map _
  | unwrapKey m unwrapping wrapped t =>
    exact (keeps_ownHandle_bind (asking _ ⟨rfl, rfl⟩)).map _
  | deriveKey m base t =>
    intro s a handled holds
    have within : Request.Within (.deriveKey s.handle m.layOut.2 base t.toArray) handle none :=
      ⟨congrArg some handled, rfl⟩
    obtain ⟨kept, errors⟩ := allows _ within a holds
    refine ends_deriveKey.bind ?_ ?_
    · intro v s' a' came
      obtain ⟨after, found, rfl, rfl⟩ := came
      cases found
      exact (keeps_ofResult errors).map _ _ _ handled kept
    · intro e s' a' came
      obtain ⟨_, found, _⟩ := came
      cases found
  | createObject t => exact (keeps_ownHandle_bind (asking _ ⟨rfl, rfl⟩)).map _
  | copyObject object t => exact (keeps_ownHandle_bind (asking _ ⟨rfl, rfl⟩)).map _
  | destroyObject object => exact (keeps_ownHandle_bind (asking _ ⟨rfl, rfl⟩)).map _
  | getAttributes object types =>
    exact (keeps_getAttributes own (fun entries => allows _ ⟨rfl, rfl⟩) types).map _
  | setAttributes object t => exact (keeps_ownHandle_bind (asking _ ⟨rfl, rfl⟩)).map _
  | generateRandom size =>
    refine (keeps_reserve.bind fun _ => keeps_ownHandle_bind ?_).map _
    exact keeps_askAnswer_bind (allows _ ⟨rfl, rfl⟩) fun a errors =>
      (keeps_ofResult errors).bind fun _ => keeps_pure _
  | seedRandom seed => exact (keeps_ownHandle_bind (asking _ ⟨rfl, rfl⟩)).map _

end

end Session

end Cryptoki
