import Cryptoki.Module.FunctionTable

/-!
Tables over a module: each function finds out what is asked, and passes it on.
-/
namespace Cryptoki

structure AnyRequest where
  shape : Shape
  request : Request shape

def AnyRequest.of (q : Request s) : AnyRequest := ⟨s, q⟩

def templateOf (entries : Option (List Wire.Entry)) (count : Nat) : List Wire.Entry :=
  (entries.getD []).take count

def capacityOf (room : Option Nat) (cell : Nat) : Option Nat := room.map fun _ => cell

def Function.requestOf? : Function → List Argument → Option AnyRequest
  | .openSession, [.word slot, .word flags, _, _, .cell _] =>
    some (.of (.openSession (UInt64.ofNat slot) (UInt64.ofNat flags)))
  | .closeSession, [.word h] => some (.of (.closeSession h))
  | .init k, [.word h, .mechanism m, .word key] => some (.of (.init k h m key))
  | .digestInit, [.word h, .mechanism m] => some (.of (.digestInit h m))
  | .oneShot k, [.word h, .bytes b, .word n, .room room, .cell size] =>
    some (.of (.oneShot k h (b.take n) (capacityOf room size)))
  | .stream k, [.word h, .bytes b, .word n, .room room, .cell size] =>
    some (.of (.stream k h (b.take n) (capacityOf room size)))
  | .feed k, [.word h, .bytes b, .word n] => some (.of (.feed k h (b.take n)))
  | .finish k, [.word h, .room room, .cell size] =>
    some (.of (.finish k h (capacityOf room size)))
  | .verify, [.word h, .bytes b, .word n, .bytes s, .word m] =>
    some (.of (.verify h (b.take n) (s.take m)))
  | .verifyFinal, [.word h, .bytes s, .word m] => some (.of (.verifyFinal h (s.take m)))
  | .generateKey, [.word h, .mechanism m, .attributes t, .word n, .cell _] =>
    some (.of (.generateKey h m (templateOf t n)))
  | .generateKeyPair, [.word h, .mechanism m, .attributes t, .word n, .attributes u, .word k,
      .cell _, .cell _] =>
    some (.of (.generateKeyPair h m (templateOf t n) (templateOf u k)))
  | .wrapKey, [.word h, .mechanism m, .word wrapping, .word key, .room room, .cell size] =>
    some (.of (.wrapKey h m wrapping key (capacityOf room size)))
  | .unwrapKey, [.word h, .mechanism m, .word unwrapping, .bytes b, .word k, .attributes t,
      .word n, .cell _] =>
    some (.of (.unwrapKey h m unwrapping (b.take k) (templateOf t n)))
  | .deriveKey, [.word h, .mechanism m, .word base, .attributes t, .word n, .cell _] =>
    some (.of (.deriveKey h m base (templateOf t n)))
  | .createObject, [.word h, .attributes t, .word n, .cell _] =>
    some (.of (.createObject h (templateOf t n)))
  | .copyObject, [.word h, .word object, .attributes t, .word n, .cell _] =>
    some (.of (.copyObject h object (templateOf t n)))
  | .destroyObject, [.word h, .word object] => some (.of (.destroyObject h object))
  | .getAttributeValue, [.word h, .word object, .attributes t, .word n] =>
    some (.of (.getAttributeValue h object (templateOf t n)))
  | .setAttributeValue, [.word h, .word object, .attributes t, .word n] =>
    some (.of (.setAttributeValue h object (templateOf t n)))
  | .findObjectsInit, [.word h, .attributes t, .word n] =>
    some (.of (.findObjectsInit h (templateOf t n)))
  | .findObjects, [.word h, .handleRoom _, .word n, .cell _] => some (.of (.findObjects h n))
  | .findObjectsFinal, [.word h] => some (.of (.findObjectsFinal h))
  | .generateRandom, [.word h, .room _, .word n] => some (.of (.generateRandom h n))
  | .seedRandom, [.word h, .bytes b, .word n] => some (.of (.seedRandom h (b.take n)))
  | _, _ => none

def Shape.cells : (s : Shape) → s.Value → List Nat
  | .done, _ => []
  | .handle, h => [h]
  | .handlePair, (a, b) => [a, b]
  | .length, n => [n]
  | .count, n => [n]

def Answer.reply (a : Answer s) : NativeReply :=
  match a.result with
  | .ok v => ⟨Return.ok, s.cells v, a.written⟩
  | .error e => ⟨e.rv, [], a.written⟩

def Module.nativeFunction (M : Module σ) (f : Function) : NativeFunction σ := fun args state =>
  match f.requestOf? args with
  | none => (⟨Return.argumentsBad, [], .nothing⟩, state, [])
  | some q =>
    let (a, state, notes) := M.answer q.request state
    (a.reply, state, notes)

def FunctionTable.ofModule (M : Module σ) : FunctionTable σ := ⟨fun f => some (M.nativeFunction f)⟩

def FunctionTable.without (missing : List Function) (T : FunctionTable σ) : FunctionTable σ :=
  ⟨fun f => if missing.contains f then none else T.entry f⟩

end Cryptoki
