import Cryptoki.Error
import Mathlib.Control.Monad.Basic

/-!
Results in a row: how they are chained, and what follows when the outcome is a success, or a failure
of one sort.
-/
namespace Cryptoki.Result

variable {α β : Type}

@[simp] theorem ok_bind (a : α) (f : α → Result β) : ((.ok a : Result α) >>= f) = f a := rfl

@[simp] theorem error_bind (e : Error) (f : α → Result β) :
    ((.error e : Result α) >>= f) = .error e := rfl

@[simp] theorem pure_eq (a : α) : (pure a : Result α) = .ok a := rfl

theorem map_eq_ok {f : α → β} {x : Result α} {b : β} :
    f <$> x = .ok b ↔ ∃ a, x = .ok a ∧ f a = b := by
  cases x <;> simp

theorem map_succeeds_iff (f : α → β) (x : Result α) : (∃ b, f <$> x = .ok b) ↔ ∃ a, x = .ok a := by
  cases x <;> simp

theorem bind_eq_ok {x : Result α} {f : α → Result β} {b : β} :
    x >>= f = .ok b ↔ ∃ a, x = .ok a ∧ f a = .ok b := by
  cases x <;> simp

theorem map_eq_map {f : α → β} {x y : Result α} :
    f <$> x = f <$> y ↔
      (∃ e, x = .error e ∧ y = .error e) ∨ ∃ a b, x = .ok a ∧ y = .ok b ∧ f a = f b := by
  cases x <;> cases y <;> simp [eq_comm]

/-- It fails, if at all, because what was read is malformed. -/
def OnlyMalformed {α : Type} (x : Result α) : Prop := ∀ e, x = .error e → e.kind = .malformed

theorem onlyMalformed_ok (a : α) : OnlyMalformed (.ok a : Result α) := by
  intro e failed
  cases failed

theorem onlyMalformed_error {e : Error} (malformed : e.kind = .malformed) :
    OnlyMalformed (.error e : Result α) := by
  intro e' failed
  cases failed
  exact malformed

theorem onlyMalformed_bind {x : Result α} {f : α → Result β} (first : OnlyMalformed x)
    (next : ∀ a, OnlyMalformed (f a)) : OnlyMalformed (x >>= f) := by
  cases x with
  | error e => exact onlyMalformed_error (first e rfl)
  | ok a => exact next a

theorem onlyMalformed_map {x : Result α} (f : α → β) (first : OnlyMalformed x) :
    OnlyMalformed (f <$> x) := by
  cases x with
  | error e => exact onlyMalformed_error (first e rfl)
  | ok a => exact onlyMalformed_ok (f a)

end Cryptoki.Result
