import Cryptoki.Wire.Entry

/-!
Arrays in exchange with a module. A query starts without storage; storage is made for the
lengths that the module reports; and the module writes types, lengths and bytes into what it is
given, never beyond it.
-/
namespace Cryptoki.Wire

def query (types : List Code) : List Entry :=
  types.map fun t => .blank t (Registry.bundled.isSensitive t)

def nestedCount (r : Registry) (type : Code) (length : Nat) : Result Nat :=
  if length % entrySize = 0 then .ok (length / entrySize)
  else .error (.arrayLength (r.name type) length)

mutual

/-- Makes storage for an entry without any, if the module reported a length for it. The answer
is whether anything was made. Storage beyond the limit of buffers is made here like any other: where
there is a limit, room for `extent` has to be asked for besides. -/
def Entry.allocate (r : Registry) : Entry → Entry × Result Bool
  | .nested h entries =>
    let (entries', made) := allocate r entries
    (.nested h entries', made)
  | .buffer h b => (.buffer h b, .ok false)
  | .empty h =>
    match h.length with
    | none | some 0 => (.empty h, .ok false)
    | some n =>
      if r.kind h.type = .template then
        match nestedCount r h.type n with
        | .error e => (.empty h, .error e)
        | .ok count =>
          (.nested { h with pointer := .own } (List.replicate count (.blank 0 false)), .ok true)
      else (.buffer { h with pointer := .own } (List.replicate n 0), .ok true)

/-- Stops at the first failure and keeps what was made before it. -/
def allocate (r : Registry) : List Entry → List Entry × Result Bool
  | [] => ([], .ok false)
  | e :: rest =>
    match e.allocate r with
    | (e', .error x) => (e' :: rest, .error x)
    | (e', .ok made) =>
      let (rest', made') := allocate r rest
      (e' :: rest', (made || ·) <$> made')

end

mutual

def Entry.extent : Entry → Nat
  | .empty _ => 0
  | .buffer _ b => b.length
  | .nested _ entries => max (entrySize * entries.length) (extent entries)

/-- How many bytes the longest storage has. -/
def extent : List Entry → Nat
  | [] => 0
  | e :: rest => max e.extent (extent rest)

end

def Entry.markUnavailable (e : Entry) : Entry := e.withHead { e.head with length := none }

def markUnavailable (i : Nat) (entries : List Entry) : List Entry :=
  entries.modify i Entry.markUnavailable

structure Write where
  type : Option Code := none
  bytes : Bytes := []
  length : Option Nat := none
  deriving DecidableEq, Repr

def overwriteImage (entries : List Entry) (b : Bytes) : List Entry :=
  List.zipWith (fun e c => e.withHead (Head.ofImage e.head.sensitive c)) entries
    ((Bytes.overwrite (image entries) b).chunks entrySize)

def Entry.isReached (e : Entry) : Bool := e.head.pointer = .own

/-- As many bytes are written as there is storage for, whatever the length says. -/
def Entry.overwrite (b : Bytes) (e : Entry) : Entry :=
  if e.isReached then
    match e with
    | .empty h => .empty h
    | .buffer h old => .buffer h (Bytes.overwrite old b)
    | .nested h entries => .nested h (overwriteImage entries b)
  else e

def Entry.write (w : Write) (e : Entry) : Entry :=
  let e := (e.withHead { e.head with type := w.type.getD e.head.type }).overwrite w.bytes
  match w.length with
  | some n => e.withHead { e.head with length := lengthOfWord n }
  | none => e

def Entry.atNested (f : List Entry → List Entry) (e : Entry) : Entry :=
  if e.isReached then
    match e with
    | .empty h => .empty h
    | .buffer h b => .buffer h (Bytes.overwrite b (image (f (ofImage b))))
    | .nested h entries => .nested h (f entries)
  else e

/-- Writes to the entry that a path of indices leads to, each but the last into a nested array.
A path that leads nowhere changes nothing. -/
def writeAt : List Nat → Write → List Entry → List Entry
  | [], _, entries => entries
  | [i], w, entries => entries.modify i (Entry.write w)
  | i :: path, w, entries => entries.modify i (Entry.atNested (writeAt path w))

end Cryptoki.Wire
