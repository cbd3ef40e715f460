import Cryptoki.Journal
import Cryptoki.Module.Request

/-!
Modules: whatever answers requests. A host keeps a module's state and the journal.
-/
namespace Cryptoki

/-- Answers requests from a state, and may make notes. -/
structure Module (σ : Type) where
  answer : {s : Shape} → Request s → σ → Answer s × σ × Journal

structure Host (σ : Type) where
  state : σ
  journal : Journal

abbrev HostM (σ : Type) := StateM (Host σ)

def note (level : Level) (text : String) : HostM σ Unit :=
  modify fun h => { h with journal := h.journal ++ [⟨level, text⟩] }

def Module.ask (M : Module σ) (q : Request s) : HostM σ (Answer s) := fun h =>
  let (a, state, notes) := M.answer q h.state
  (a, ⟨state, h.journal ++ notes⟩)

def Answer.unsupported : Answer s := ⟨.nothing, .error (.returned Return.functionNotSupported)⟩

def Module.unsupported : Module σ := ⟨fun _ state => (.unsupported, state, [])⟩

def bareAnswer : Request s → Answer s
  | .openSession slot _ => ⟨.nothing, .ok (slot + 6).toNat⟩
  | _ => .unsupported

def Module.bare : Module σ := ⟨fun q state => (bareAnswer q, state, [])⟩

end Cryptoki
