import Cryptoki.Module.Argument
import Cryptoki.Module.Basic

/-!
Function tables, the form in which a loaded module is reached.
-/
namespace Cryptoki

structure NativeReply where
  rv : Code
  cells : List Nat
  written : Written

abbrev NativeFunction (σ : Type) := List Argument → σ → NativeReply × σ × Journal

structure FunctionTable (σ : Type) where
  entry : Function → Option (NativeFunction σ)

def failureNote (f : Function) (rv : Code) : Note :=
  ⟨.debug, f.symbol ++ " failed: " ++ Text.hexCode rv⟩

def FunctionTable.answer (T : FunctionTable σ) (q : Request s) (state : σ) :
    Answer s × σ × Journal :=
  match T.entry q.function with
  | none => (⟨.nothing, .error (.functionMissing q.function.symbol)⟩, state, [])
  | some f =>
    let (reply, state, notes) := f q.arguments state
    if reply.rv = Return.ok then
      (⟨reply.written, .ok (q.valueOfCells reply.cells)⟩, state, notes)
    else
      (⟨reply.written, .error (.returned reply.rv)⟩, state,
        notes ++ [failureNote q.function reply.rv])

/-- The module that a table gives access to. A call of a missing function is an error and does
nothing. -/
def FunctionTable.module (T : FunctionTable σ) : Module σ := ⟨T.answer⟩

def FunctionTable.ofPointer : Option (FunctionTable σ) → Result (FunctionTable σ)
  | some T => .ok T
  | none => .error .tableMissing

def FunctionTable.ofEntryPoint :
    Option (Code × Option (FunctionTable σ)) → Result (FunctionTable σ)
  | none => .error .entryPointMissing
  | some (rv, pointer) => if rv = Return.ok then ofPointer pointer else .error (.tableFailed rv)

end Cryptoki
