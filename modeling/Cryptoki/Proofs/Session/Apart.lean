import Cryptoki.Proofs.Session.Asking
import Cryptoki.Proofs.Session.Ledger

/-!
Calls that belong to no operation. They ask the module and leave the session as it is. Only a
reading of attributes does not pass every error of the module on.
-/
namespace Cryptoki

variable {σ α β : Type} {M : Module σ}

namespace Session

/-- Errors that a call may be answered with and go on. -/
def Call.Tolerates : Call → Error → Prop
  | .getAttributes _ _, e =>
    e.rv = Return.attributeSensitive ∨ e.rv = Return.attributeTypeInvalid
  | _, _ => False

/-- Calls that can fail although no answer was an error, since they decode what was written. -/
def Call.Decodes : Call → Prop
  | .getAttributes _ _ => True
  | _ => False

/-- The module was asked. Its errors are the errors of the call, but for those that the call
tolerates, and there are no others, but for those of decoding. -/
structure Served (c : Call) (xs : List Exchange) (r : Result Outcome) : Prop where
  reached : xs ≠ []
  passed_on : ∀ x ∈ xs, ∀ e, x.error? = some e → c.Tolerates e ∨ r = .error e
  caused : ∀ e, r = .error e → c.Decodes ∨ ∃ x ∈ xs, x.error? = some e

theorem served_of_relays {c : Call} {xs : List Exchange} {r : Result Outcome}
    (reached : xs ≠ []) (relays : Relays xs r) : Served c xs r where
  reached := reached
  passed_on x member e error := .inr ((relays e).mp ⟨x, member, error⟩)
  caused e failed := .inr ((relays e).mpr failed)

open SessionM

/-- Among the errors of the answers are only the result and those that a reading tolerates. -/
def Reads (xs : List Exchange) (r : Result α) : Prop :=
  ∀ x ∈ xs, ∀ e, x.error? = some e →
    (e.rv = Return.attributeSensitive ∨ e.rv = Return.attributeTypeInvalid) ∨ r = .error e

theorem reads_nil (r : Result α) : Reads [] r := by
  intro x member
  cases member

theorem Reads.append {xs ys : List Exchange} {a : α} {r : Result β}
    (first : Reads xs (.ok a : Result α)) (second : Reads ys r) : Reads (xs ++ ys) r := by
  intro x member e error
  rcases List.mem_append.mp member with before | now
  · rcases first x before e error with tolerated | failed
    · exact .inl tolerated
    · cases failed
  · exact second x now e error

theorem Reads.of_error {xs : List Exchange} {e : Error}
    (reads : Reads xs (.error e : Result α)) : Reads xs (.error e : Result β) := by
  intro x member e' error
  rcases reads x member e' error with tolerated | failed
  · exact .inl tolerated
  · cases failed
    exact .inr rfl

variable {s : Session}

theorem does_readAttributes {object : Handle} {entries : List Wire.Entry} :
    Does M (readAttributes M object entries) s fun xs r s' => xs ≠ [] ∧ Reads xs r ∧ s' = s := by
  refine quiet_ownHandle.bind (does_askAnswer_bind fun a => ?_)
  have only : ∀ (r : Result (List Wire.Entry × Bool)),
      (∀ e, a.result = .error e →
        (e.rv = Return.attributeSensitive ∨ e.rv = Return.attributeTypeInvalid) ∨ r = .error e) →
      Reads [⟨_, .getAttributeValue s.handle object entries, a⟩] r := by
    intro r allowed x member e error
    rw [List.mem_singleton.mp member] at error
    cases answered : a.result with
    | ok _ => simp [Exchange.error?, answered] at error
    | error e' =>
      simp only [Exchange.error?, answered, Option.some.injEq] at error
      exact allowed e (error ▸ answered)
  cases answered : a.result with
  | ok _ => exact does_pure ⟨by simp, only _ (by simp [answered]), rfl⟩
  | error e =>
    by_cases secret : e.rv = Return.attributeSensitive
    · simp only [if_pos secret]
      exact does_pure ⟨by simp, only _ (by simp [answered, secret]), rfl⟩
    · simp only [if_neg secret]
      by_cases unknown : e.rv = Return.attributeTypeInvalid
      · simp only [if_pos unknown]
        exact does_pure ⟨by simp, only _ (by simp [answered, unknown]), rfl⟩
      · simp only [if_neg unknown]
        exact does_ofResult (r := .error e) ⟨by simp, only _ (by simp [answered]), rfl⟩

theorem does_readPasses {object : Handle} (passes : Nat) (entries : List Wire.Entry) :
    Does M (readPasses M object passes entries) s fun xs r s' =>
      (0 < passes → xs ≠ []) ∧ Reads xs r ∧ s' = s := by
  induction passes generalizing entries with
  | zero => exact does_pure ⟨fun some => absurd some (Nat.lt_irrefl 0), reads_nil _, rfl⟩
  | succ passes ih =>
    refine does_readAttributes.bind ?_ ?_
    · intro xs answer s' holds
      obtain ⟨entries, secret⟩ := answer
      obtain ⟨reached, reads, rfl⟩ := holds
      have grown : ∀ ys : List Exchange, xs ++ ys ≠ [] := by simp [reached]
      refine quiet_reserve.bind (does_ofResult_bind ?_ ?_)
      · intro made _
        cases made with
        | true =>
          refine (ih (Wire.allocate .bundled entries).1).bind ?_ ?_
          · intro ys again s'' holds
            obtain ⟨_, reads', rfl⟩ := holds
            refine does_pure ⟨fun _ => ?_, ?_, rfl⟩
            · simp [reached]
            · exact reads.append (reads'.append (reads_nil _))
          · intro ys e s'' holds
            obtain ⟨_, reads', rfl⟩ := holds
            exact ⟨fun _ => grown ys, reads.append reads', rfl⟩
        | false => exact does_pure ⟨fun _ => grown [], reads.append (reads_nil _), rfl⟩
      · intro e _
        exact ⟨fun _ => grown [], reads.append (reads_nil _), rfl⟩
    · intro xs e s' holds
      obtain ⟨reached, reads, rfl⟩ := holds
      exact ⟨fun _ => reached, reads.of_error, rfl⟩

theorem does_flagSecrets {object : Handle} (types : List Code) (t : Template) :
    Does M (flagSecrets M object types t) s fun xs r s' => Reads xs r ∧ s' = s := by
  induction types generalizing t with
  | nil => exact does_pure ⟨reads_nil _, rfl⟩
  | cons type rest ih =>
    refine does_readAttributes.bind ?_ ?_
    · intro xs answer s' holds
      obtain ⟨_, secret⟩ := answer
      obtain ⟨_, reads, rfl⟩ := holds
      refine (ih _).mono ?_
      intro ys r s'' holds
      obtain ⟨reads', same⟩ := holds
      exact ⟨reads.append reads', same⟩
    · intro xs e s' holds
      obtain ⟨_, reads, same⟩ := holds
      exact ⟨reads.of_error, same⟩

theorem does_getAttributes {object : Handle} {types : List Code} :
    Does M (getAttributes M object types) s fun xs r s' => xs ≠ [] ∧ Reads xs r ∧ s' = s := by
  refine (does_readPasses attributePasses (Wire.query types)).bind ?_ ?_
  · intro xs answer s' holds
    obtain ⟨entries, secret⟩ := answer
    obtain ⟨reached, reads, rfl⟩ := holds
    have grown : ∀ ys : List Exchange, xs ++ ys ≠ [] := by simp [reached (by decide)]
    refine does_ofResult_bind ?_ ?_
    · intro t _
      cases secret with
      | true =>
        refine (does_flagSecrets _ t).mono ?_
        intro ys r s'' holds
        obtain ⟨reads', same⟩ := holds
        exact ⟨grown ys, reads.append reads', same⟩
      | false => exact does_pure ⟨grown [], reads.append (reads_nil _), rfl⟩
    · intro e _
      exact ⟨grown [], reads.append (reads_nil _), rfl⟩
  · intro xs e s' holds
    obtain ⟨reached, reads, rfl⟩ := holds
    exact ⟨reached (by decide), reads.of_error, rfl⟩

theorem does_deriveKey {m : Mechanism} {base : Handle} {t : Template} :
    Does M (deriveKey M m base t) s fun xs r s' =>
      ∃ key after, r = .ok (key, after) ∧ xs ≠ [] ∧ Relays xs key ∧ s' = s := by
  refine quiet_ownHandle.bind (does_askAnswer_bind fun a => ?_)
  cases answered : a.result with
  | ok key =>
    exact does_pure ⟨_, _, rfl, by simp, relays_answer _ a (by simp [answered]), rfl⟩
  | error e =>
    exact does_pure ⟨_, _, rfl, by simp, relays_answer _ a (by simp [answered]), rfl⟩

theorem does_perform_apart {c : Call} (apart : c.role? = none) :
    Does M (perform M c) s fun xs r s' => Served c xs r ∧ s' = s := by
  have asking : ∀ {α : Type} (act : SessionM σ α) (g : α → Outcome), Asks M act →
      Does M (g <$> act) s fun xs r s' => Served c xs r ∧ s' = s := by
    intro α act g asks
    apply (asks s).map
    intro xs r s' holds
    obtain ⟨reached, relays, same⟩ := holds
    exact ⟨served_of_relays reached (relays.map g), same⟩
  cases c <;> cases apart
  case generateKey m t => exact asking _ _ (asks_ownHandle fun _ => asks_ask _)
  case generateKeyPair m t u => exact asking _ _ (asks_ownHandle fun _ => asks_ask _)
  case wrapKey m wrapping key => exact asking _ _ (asks_ownHandle fun _ => asks_sizedOutput _)
  case unwrapKey m unwrapping wrapped t => exact asking _ _ (asks_ownHandle fun _ => asks_ask _)
  case deriveKey m base t =>
    refine does_deriveKey.bind ?_ ?_
    · intro xs _ s' holds
      obtain ⟨key, after, found, reached, relays, rfl⟩ := holds
      cases found
      have renamed : (Outcome.handle <$> ofResult key : SessionM σ Outcome) =
          ofResult (.handle <$> key) := by cases key <;> rfl
      change Does M (Outcome.handle <$> ofResult key) _ _
      rw [renamed]
      apply does_ofResult
      rw [List.append_nil]
      exact ⟨served_of_relays reached (relays.map _), rfl⟩
    · intro xs e s' holds
      obtain ⟨_, _, found, _⟩ := holds
      cases found
  case createObject t => exact asking _ _ (asks_ownHandle fun _ => asks_ask _)
  case copyObject object t => exact asking _ _ (asks_ownHandle fun _ => asks_ask _)
  case destroyObject object => exact asking _ _ (asks_ownHandle fun _ => asks_ask _)
  case getAttributes object types =>
    apply does_getAttributes.map
    intro xs r s' holds
    obtain ⟨reached, reads, same⟩ := holds
    refine ⟨⟨reached, fun x member e error => ?_, fun e _ => .inl trivial⟩, same⟩
    exact (reads x member e error).imp_right fun failed => by rw [failed]; rfl
  case setAttributes object t => exact asking _ _ (asks_ownHandle fun _ => asks_ask _)
  case generateRandom size =>
    exact asking _ _ (asks_reserve (asks_ownHandle fun _ =>
      asks_answer _ fun a _ => a.written.buffer size))
  case seedRandom seed => exact asking _ _ (asks_ownHandle fun _ => asks_ask _)

end Session

end Cryptoki
