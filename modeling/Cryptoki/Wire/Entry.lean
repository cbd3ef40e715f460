import Cryptoki.Attribute.Basic

/-!
Attribute arrays, the form in which templates travel. An entry has a head, which is what the
module sees of it, and the storage that its pointer leads to: none, a buffer, or a nested array.
-/
namespace Cryptoki.Wire

inductive Pointer where
  | null
  | own
  | stray (address : Nat)
  deriving DecidableEq, Repr

structure Head where
  type : Code
  /-- A value that is withheld or unknown has no length. -/
  length : Option Nat
  pointer : Pointer
  /-- Kept beside the array. Modules do not see it. -/
  sensitive : Bool
  deriving DecidableEq, Repr

inductive Entry where
  | empty (head : Head)
  | buffer (head : Head) (bytes : Bytes)
  | nested (head : Head) (entries : List Entry)
  deriving Repr

def unavailable : Nat := 0xffffffffffffffff

def entrySize : Nat := 24

def lengthOfWord (n : Nat) : Option Nat := if n = unavailable then none else some n

def Head.lengthWord (h : Head) : Nat := h.length.getD unavailable

namespace Entry

def head : Entry → Head
  | .empty h | .buffer h _ | .nested h _ => h

def withHead (h : Head) : Entry → Entry
  | .empty _ => .empty h
  | .buffer _ b => .buffer h b
  | .nested _ entries => .nested h entries

def blank (type : Code) (sensitive : Bool) : Entry := .empty ⟨type, some 0, .null, sensitive⟩

end Entry

def Pointer.address : Pointer → Nat
  | .null => 0
  | .own => 1
  | .stray n => n

def Pointer.ofAddress (n : Nat) : Pointer :=
  if n = 0 then .null else if n = 1 then .own else .stray n

def Head.image (h : Head) : Bytes :=
  Bytes.ofWord h.type ++ Bytes.littleEndian 8 h.pointer.address ++
    Bytes.littleEndian 8 h.lengthWord

def Head.ofImage (sensitive : Bool) (b : Bytes) : Head where
  type := UInt64.ofNat (Bytes.littleEndianValue (b.take 8))
  length := lengthOfWord (Bytes.littleEndianValue ((b.drop 16).take 8))
  pointer := .ofAddress (Bytes.littleEndianValue ((b.drop 8).take 8))
  sensitive := sensitive

def image (entries : List Entry) : Bytes := entries.flatMap fun e => e.head.image

def ofImage (b : Bytes) : List Entry :=
  (b.chunks entrySize).map fun c => .empty (Head.ofImage false c)

namespace Entry

def storageBytes : Entry → Bytes
  | .empty _ => []
  | .buffer _ b => b
  | .nested _ entries => image entries

def heads : Entry → List Head
  | .empty _ => []
  | .buffer _ b => (ofImage b).map head
  | .nested _ entries => entries.map head

/-- The bytes of the value: no more than there are, and no more than the length says. -/
def bytes (e : Entry) : Bytes := e.storageBytes.take e.head.lengthWord

def byteCount : Entry → Nat
  | .empty _ => 0
  | .buffer h b => min h.lengthWord b.length
  | .nested h entries => min h.lengthWord (entrySize * entries.length)

def lens (e : Entry) : Code × Nat × Bool :=
  (e.head.type, e.head.lengthWord, e.head.pointer == .null)

def text (e : Entry) : String :=
  Attribute.typeName e.head.type ++
    if e.head.sensitive then " <sensitive>" else " len=" ++ toString e.head.lengthWord

end Entry

def text (entries : List Entry) : String := Text.bracketed (entries.map Entry.text)

end Cryptoki.Wire
