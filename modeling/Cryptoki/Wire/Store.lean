import Cryptoki.Wire.Template

/-!
Arrays as they are kept. The array that a module sees stands in one list; beside it stand the
flags, the slots that say which storage is whose, and the storage itself. `none` is the outcome of
an index that leads nowhere.
-/
namespace Cryptoki.Wire

inductive Slot where
  | empty
  | buffer (index : Nat)
  | nested (index : Nat)
  deriving DecidableEq, Repr

structure Face where
  type : Code
  length : Option Nat
  pointer : Pointer
  deriving DecidableEq, Repr

structure Store where
  faces : List Face
  slots : List Slot
  sensitive : List Bool
  buffers : List Bytes
  nested : List Store

namespace Face

def head (f : Face) (sensitive : Bool) : Head := ⟨f.type, f.length, f.pointer, sensitive⟩

def lengthWord (f : Face) : Nat := f.length.getD unavailable

def image (f : Face) : Bytes := (f.head false).image

def ofImage (b : Bytes) : Face :=
  let h := Head.ofImage false b
  ⟨h.type, h.length, h.pointer⟩

def text (f : Face) (sensitive : Bool) : String := (Entry.empty (f.head sensitive)).text

end Face

namespace Store

def new : Store := ⟨[], [], [], [], []⟩

def pushEmpty (s : Store) (type : Code) (sensitive : Bool) : Store :=
  { s with
    faces := s.faces ++ [⟨type, some 0, .null⟩]
    slots := s.slots ++ [.empty]
    sensitive := s.sensitive ++ [sensitive] }

def pushBytes (s : Store) (type : Code) (sensitive : Bool) (b : Bytes) : Store :=
  { s with
    faces := s.faces ++ [⟨type, some b.length, if b.isEmpty then .null else .own⟩]
    slots := s.slots ++ [.buffer s.buffers.length]
    sensitive := s.sensitive ++ [sensitive]
    buffers := s.buffers ++ [b] }

def pushNested (s : Store) (type : Code) (sensitive : Bool) (t : Store) : Store :=
  { s with
    faces := s.faces ++
      [⟨type, some (entrySize * t.faces.length), if t.faces.isEmpty then .null else .own⟩]
    slots := s.slots ++ [.nested s.nested.length]
    sensitive := s.sensitive ++ [sensitive]
    nested := s.nested ++ [t] }

mutual

def push (s : Store) : Attribute → Store
  | .absent .. => s
  | .scalar t f v => s.pushBytes t f v.encode
  | .template t f members => s.pushNested t f (new.pushAll members)

def pushAll (s : Store) : List Attribute → Store
  | [] => s
  | a :: rest => (s.push a).pushAll rest

end

def ofTemplate (t : Template) : Store := new.pushAll t.attributes

def query (types : List Code) : Store :=
  types.foldl (fun s t => s.pushEmpty t (Registry.bundled.isSensitive t)) new

def blank (count : Nat) : Store := Nat.repeat (·.pushEmpty 0 false) count new

def updateFace (s : Store) (i : Nat) (change : Face → Face) : Store :=
  { s with faces := s.faces.modify i change }

def assignBuffer (s : Store) (i : Nat) (b : Bytes) : Store :=
  { s.updateFace i fun f => { f with pointer := .own } with
    slots := s.slots.set i (.buffer s.buffers.length)
    buffers := s.buffers ++ [b] }

def assignNested (s : Store) (i : Nat) (t : Store) : Store :=
  { s.updateFace i fun f => { f with pointer := .own } with
    slots := s.slots.set i (.nested s.nested.length)
    nested := s.nested ++ [t] }

/-- Storage for an entry without any, if there is a length to go by. That there is none to be had for
a length beyond the limit of buffers is left out. -/
def furnish (r : Registry) (s : Store) (i : Nat) (f : Face) : Store × Result Bool :=
  match f.length with
  | none | some 0 => (s, .ok false)
  | some n =>
    if r.kind f.type = .template then
      match nestedCount r f.type n with
      | .error e => (s, .error e)
      | .ok count => (s.assignNested i (blank count), .ok true)
    else (s.assignBuffer i (List.replicate n 0), .ok true)

def allocateEntry (r : Registry) (inner : Store → Option (Store × Result Bool)) (s : Store)
    (i : Nat) : Option (Store × Result Bool) := do
  match ← s.slots[i]? with
  | .empty => return s.furnish r i (← s.faces[i]?)
  | .buffer _ => return (s, .ok false)
  | .nested n =>
    let (t, made) ← inner (← s.nested[n]?)
    return ({ s with nested := s.nested.set n t }, made)

def allocateEach (r : Registry) (inner : Store → Option (Store × Result Bool)) (s : Store) :
    List Nat → Option (Store × Result Bool)
  | [] => some (s, .ok false)
  | i :: rest => do
    match ← s.allocateEntry r inner i with
    | (s', .error e) => return (s', .error e)
    | (s', .ok made) =>
      let (s'', made') ← s'.allocateEach r inner rest
      return (s'', (made || ·) <$> made')

def allocateWithin (r : Registry) : Nat → Store → Option (Store × Result Bool)
  | 0, _ => none
  | levels + 1, s => s.allocateEach r (allocateWithin r levels) (List.range s.faces.length)

mutual

def depth : Store → Nat
  | ⟨_, _, _, _, nested⟩ => depthOfAll nested + 1

def depthOfAll : List Store → Nat
  | [] => 0
  | t :: rest => max t.depth (depthOfAll rest)

end

/-- Makes storage wherever it is due. The answer is whether anything was made. One level more than
there is leaves room for the arrays that are made. -/
def allocate (r : Registry) (s : Store) : Option (Store × Result Bool) :=
  s.allocateWithin r (s.depth + 1)

def markUnavailable (s : Store) (i : Nat) : Store :=
  s.updateFace i fun f => { f with length := none }

def image (s : Store) : Bytes := s.faces.flatMap Face.image

def overwriteImage (s : Store) (b : Bytes) : Store :=
  { s with faces := ((s.image.overwrite b).chunks entrySize).map Face.ofImage }

def atStorage (s : Store) (i : Nat) (onBuffer : Bytes → Bytes) (onNested : Store → Store) :
    Store :=
  match s.faces[i]?, s.slots[i]? with
  | some f, some slot =>
    if f.pointer = .own then
      match slot with
      | .empty => s
      | .buffer b => { s with buffers := s.buffers.modify b onBuffer }
      | .nested n => { s with nested := s.nested.modify n onNested }
    else s
  | _, _ => s

def writeEntry (s : Store) (i : Nat) (w : Write) : Store :=
  let typed := s.updateFace i fun f => { f with type := w.type.getD f.type }
  let filled := typed.atStorage i (Bytes.overwrite · w.bytes) (·.overwriteImage w.bytes)
  match w.length with
  | some n => filled.updateFace i fun f => { f with length := lengthOfWord n }
  | none => filled

def writeAt : List Nat → Write → Store → Store
  | [], _, s => s
  | [i], w, s => s.writeEntry i w
  | i :: path, w, s =>
    s.atStorage i (fun b => b.overwrite (Wire.image (Wire.writeAt path w (ofImage b))))
      (writeAt path w)

def slotBytes (s : Store) (f : Face) : Slot → Option Bytes
  | .empty => some []
  | .buffer b => (·.take f.lengthWord) <$> s.buffers[b]?
  | .nested n => (·.image.take f.lengthWord) <$> s.nested[n]?

def entries (s : Store) : Option (List (Code × Nat × Bytes)) :=
  (s.faces.zip s.slots).mapM fun (f, slot) => do
    return (f.type, f.lengthWord, ← s.slotBytes f slot)

theorem sizeOf_lt_of_nested {s t : Store} {n : Nat} (found : s.nested[n]? = some t) :
    sizeOf t < sizeOf s := by
  have member := List.sizeOf_lt_of_mem (List.mem_of_getElem? found)
  cases s
  simp only [mk.sizeOf_spec] at member ⊢
  omega

mutual

def decode (r : Registry) (s : Store) : Option (Result Template) :=
  s.decodeEach r .empty s.faces.zipIdx
termination_by (sizeOf s, 3, 0)

def decodeEach (r : Registry) (s : Store) (t : Template) :
    List (Face × Nat) → Option (Result Template)
  | [] => some (.ok t)
  | (f, i) :: rest => do
    match ← s.decodeEntry r f i with
    | .error e => return .error e
    | .ok a => s.decodeEach r (t.insert a) rest
termination_by rest => (sizeOf s, 2, rest.length)

def decodeEntry (r : Registry) (s : Store) (f : Face) (i : Nat) : Option (Result Attribute) := do
  match f.length with
  | none => return .ok (.absent f.type (← s.sensitive[i]?))
  | some length =>
    match ← s.decodeSlot r f length (← s.slots[i]?) with
    | .error e => return .error e
    | .ok a => return .ok (flagged (f.head (← s.sensitive[i]?)) a)
termination_by (sizeOf s, 1, 0)

def decodeSlot (r : Registry) (s : Store) (f : Face) (length : Nat) :
    Slot → Option (Result Attribute)
  | .empty =>
    if length ≠ 0 then some (.error (.valueMissing (r.name f.type)))
    else if r.kind f.type = .template then some (.ok (nestedAttribute f.type .empty))
    else some (Attribute.decode r f.type [])
  | .buffer b => Attribute.decode r f.type <$> s.slotBytes f (.buffer b)
  | .nested n =>
    match nestedCount r f.type length with
    | .error e => some (.error e)
    | .ok count =>
      match _found : s.nested[n]? with
      | none => none
      | some t => do
        match ← t.decode r with
        | .error e => return .error e
        | .ok members => return .ok (nestedAttribute f.type ⟨members.attributes.take count⟩)
termination_by (sizeOf s, 0, 0)
decreasing_by
  exact Prod.Lex.left _ _ (sizeOf_lt_of_nested ‹_›)

end

def text (s : Store) : Option String := do
  let entries ← s.faces.zipIdx.mapM fun (f, i) => do return f.text (← s.sensitive[i]?)
  return Text.bracketed entries

end Store

end Cryptoki.Wire
