import Cryptoki.Proofs.Result
import Cryptoki.Proofs.Session.Action

/-!
Actions that only ask the module: they leave the session alone and pass its errors on.
-/
namespace Cryptoki

variable {σ α β : Type} {M : Module σ}

/-- The result is an error exactly when an answer was, and it is that error. -/
def Relays (xs : List Exchange) (r : Result α) : Prop :=
  ∀ e, (∃ x ∈ xs, x.error? = some e) ↔ r = .error e

theorem relays_nil (a : α) : Relays [] (.ok a : Result α) := by
  intro e
  simp

theorem relays_answer {shape : Shape} (q : Request shape) (a : Answer shape) {r : Result α}
    (same : ∀ e, a.result = .error e ↔ r = .error e) : Relays [⟨shape, q, a⟩] r := by
  intro e
  rw [← same e]
  simp only [List.mem_singleton, exists_eq_left, Exchange.error?]
  cases a.result <;> simp

theorem Relays.append {xs ys : List Exchange} {a : α} {r : Result β}
    (first : Relays xs (.ok a : Result α)) (second : Relays ys r) : Relays (xs ++ ys) r := by
  intro e
  have none_before : ¬ ∃ x ∈ xs, x.error? = some e := fun found => nomatch (first e).mp found
  rw [← second e]
  constructor
  · intro holds
    obtain ⟨x, member, error⟩ := holds
    rcases List.mem_append.mp member with before | now
    · exact absurd ⟨x, before, error⟩ none_before
    · exact ⟨x, now, error⟩
  · intro holds
    obtain ⟨x, member, error⟩ := holds
    exact ⟨x, List.mem_append_right xs member, error⟩

theorem Relays.map {xs : List Exchange} {r : Result α} (relays : Relays xs r) (g : α → β) :
    Relays xs (g <$> r) := by
  intro e
  rw [relays e]
  cases r <;> simp

theorem Relays.of_ok {xs : List Exchange} {a : α} {b : β}
    (relays : Relays xs (.ok a : Result α)) : Relays xs (.ok b : Result β) := by
  intro e
  rw [relays e]
  simp

theorem Relays.of_error {xs : List Exchange} {e : Error}
    (relays : Relays xs (.error e : Result α)) : Relays xs (.error e : Result β) := by
  intro e'
  rw [relays e']
  simp

namespace SessionM

/-- The module is asked at least once, its errors are passed on, and the session is left alone. -/
def Asks (M : Module σ) (act : SessionM σ α) : Prop :=
  ∀ s, Does M act s fun xs r s' => xs ≠ [] ∧ Relays xs r ∧ s' = s

theorem asks_ownHandle {f : Handle → SessionM σ α} (each : ∀ handle, Asks M (f handle)) :
    Asks M (ownHandle >>= f) :=
  fun s => quiet_ownHandle.bind (each s.handle s)

theorem asks_reserve {size : Nat} {act : SessionM σ α} (asks : Asks M act) :
    Asks M (reserve size >>= fun _ => act) :=
  fun s => quiet_reserve.bind (asks s)

theorem asks_answer {shape : Shape} (q : Request shape) (make : Answer shape → shape.Value → α) :
    Asks M (askAnswer M q >>= fun a => ofResult a.result >>= fun v => pure (make a v)) := by
  intro s
  refine does_askAnswer_bind fun a => does_ofResult_bind ?_ ?_
  · intro v found
    exact does_pure ⟨by simp, relays_answer q a (by simp [found]), rfl⟩
  · intro e found
    exact ⟨by simp, relays_answer q a (by simp [found]), rfl⟩

theorem asks_ask {shape : Shape} (q : Request shape) : Asks M (ask M q) := by
  have plain : ask M q = askAnswer M q >>= fun a => ofResult a.result >>= fun v => pure v := by
    simp only [ask, bind_pure]
  rw [plain]
  exact asks_answer q fun _ v => v

theorem Asks.bind {act : SessionM σ α} {f : α → SessionM σ β} (first : Asks M act)
    (second : ∀ a, Asks M (f a)) : Asks M (act >>= f) := by
  intro s
  refine (first s).bind ?_ ?_
  · intro xs a s' holds
    obtain ⟨reached, relays, rfl⟩ := holds
    refine (second a s').mono ?_
    intro ys r s'' holds
    obtain ⟨_, relays', same⟩ := holds
    exact ⟨by simp [reached], relays.append relays', same⟩
  · intro xs e s' holds
    obtain ⟨reached, relays, same⟩ := holds
    exact ⟨reached, relays.of_error, same⟩

theorem asks_sizedOutput (q : Option Nat → Request .length) : Asks M (sizedOutput M q) :=
  (asks_ask (q none)).bind fun size =>
    asks_answer (q (some size)) fun a length => a.written.buffer (min size length)

theorem Asks.outcome_bind {act : SessionM σ α} {f : Result α → SessionM σ β} {s : Session}
    {post : List Exchange → Result β → Session → Prop} (asks : Asks M act)
    (next : ∀ xs r, xs ≠ [] → Relays xs r →
      Does M (f r) s fun ys r' s' => post (xs ++ ys) r' s') :
    Does M (outcome act >>= f) s post := by
  intro h
  obtain ⟨xs, r, s₁, h', run, exchanges, reached, relays, same⟩ := asks s h
  have outcomeRun : outcome act s h = ((.ok r, s), h') := by rw [outcome_run, run, same]
  obtain ⟨ys, r', s', h'', run', exchanges', holds⟩ := next xs r reached relays h'
  exact ⟨xs ++ ys, r', s', h'', (bind_of_ok outcomeRun).trans run', exchanges.append exchanges',
    holds⟩

end SessionM

end Cryptoki
