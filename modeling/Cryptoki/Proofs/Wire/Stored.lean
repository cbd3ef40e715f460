import Cryptoki.Proofs.Attribute.Bare
import Cryptoki.Module.Basic
import Cryptoki.Wire.Exchange

/-!
What an object stores, what a module that answers faithfully writes of it into an array, and what
the stored values are as attributes.
-/
namespace Cryptoki.Wire

/-- A value under its type, as an object stores it. -/
inductive Stored where
  | withheld (type : Code)
  | bytes (type : Code) (b : Bytes)
  | members (type : Code) (ms : List Stored)
  deriving Repr

namespace Stored

@[elab_as_elim]
theorem nested_induction {motive : Stored → Prop} (withheld : ∀ t, motive (.withheld t))
    (bytes : ∀ t b, motive (.bytes t b))
    (members : ∀ t ms, (∀ v ∈ ms, motive v) → motive (.members t ms)) : ∀ v, motive v
  | .withheld t => withheld t
  | .bytes t b => bytes t b
  | .members t ms => members t ms fun v _ => nested_induction withheld bytes members v

def type : Stored → Code
  | .withheld t | .bytes t _ | .members t _ => t

mutual

/-- What a faithful answer makes of an entry: storage is filled, and an entry without any gets its
length. -/
def fill : Stored → Entry → Entry
  | .withheld t, e => e.withHead { e.head with type := t, length := none }
  | .bytes t b, .buffer h old =>
    .buffer { h with type := t, length := some b.length } (Bytes.overwrite old b)
  | .members t ms, .nested h entries =>
    .nested { h with type := t, length := some (entrySize * ms.length) } (fillAll ms entries)
  | .bytes t b, e => e.withHead { e.head with type := t, length := some b.length }
  | .members t ms, e =>
    e.withHead { e.head with type := t, length := some (entrySize * ms.length) }

def fillAll : List Stored → List Entry → List Entry
  | v :: vs, e :: rest => v.fill e :: fillAll vs rest
  | _, rest => rest

end

mutual

/-- The entry has a null pointer, or storage of the right shape that it gives the length of, with
enough room. Lengths are below the word for none. -/
def Suits : Stored → Entry → Prop
  | _, .empty h => h.pointer = .null ∧ ∀ n ∈ h.length, n < unavailable
  | .bytes _ b, .buffer h old =>
    h.pointer = .own ∧ h.length = some old.length ∧ old.length < unavailable ∧
      b.length ≤ old.length
  | .members _ ms, .nested h entries =>
    h.pointer = .own ∧ h.length = some (entrySize * entries.length) ∧
      entrySize * entries.length < unavailable ∧ SuitsAll ms entries
  | _, _ => False

def SuitsAll : List Stored → List Entry → Prop
  | v :: vs, e :: rest => v.Suits e ∧ SuitsAll vs rest
  | [], [] => True
  | _, _ => False

end

mutual

/-- Templates are stored just where the registry has the template kind, and lengths can be told. -/
def Fits (r : Registry) : Stored → Prop
  | .withheld _ => True
  | .bytes t b => r.kind t ≠ .template ∧ b.length < unavailable
  | .members t ms =>
    r.kind t = .template ∧ entrySize * ms.length < unavailable ∧ FitsAll r ms

def FitsAll (r : Registry) : List Stored → Prop
  | [] => True
  | v :: vs => v.Fits r ∧ FitsAll r vs

end

mutual

def read (r : Registry) : Stored → Result Attribute
  | .withheld t => .ok (.absent t false)
  | .bytes t b => .scalar t false <$> Scalar.decode (r.kind t) b
  | .members t ms => do
    let as ← readAll r ms
    return .template t false (collect as).attributes

def readAll (r : Registry) : List Stored → Result (List Attribute)
  | [] => .ok []
  | v :: vs => do
    let a ← v.read r
    return a :: (← readAll r vs)

end

mutual

/-- The value with nothing but its length, deeper than `depth` templates: zeros for bytes, and
members that nothing was written to. -/
def seen (depth : Nat) : Stored → Stored
  | .withheld t => .withheld t
  | .bytes t b => .bytes t (if depth = 0 then List.replicate b.length 0 else b)
  | .members t ms =>
    match depth with
    | 0 => .members t (List.replicate ms.length (.bytes 0 []))
    | depth + 1 => .members t (seenAll depth ms)

def seenAll (depth : Nat) : List Stored → List Stored
  | [] => []
  | v :: vs => v.seen depth :: seenAll depth vs

end

mutual

/-- Whether something of the value lies just `depth` templates deep. -/
def reaches (depth : Nat) : Stored → Bool
  | .withheld _ => false
  | .bytes _ b => depth = 0 ∧ b ≠ []
  | .members _ ms =>
    match depth with
    | 0 => ms ≠ []
    | depth + 1 => reachesAny depth ms

def reachesAny (depth : Nat) : List Stored → Bool
  | [] => false
  | v :: vs => v.reaches depth || reachesAny depth vs

end

mutual

def entry (sensitive : Bool) : Stored → Entry
  | .withheld t => .empty ⟨t, none, .null, sensitive⟩
  | .bytes t b =>
    if b = [] then .blank t sensitive else .buffer ⟨t, some b.length, .own, sensitive⟩ b
  | .members t ms =>
    if ms = [] then .blank t sensitive
    else .nested ⟨t, some (entrySize * ms.length), .own, sensitive⟩ (entries ms)

def entries : List Stored → List Entry
  | [] => []
  | v :: vs => v.entry false :: entries vs

end

end Stored

abbrev StoredObject := List Stored

def StoredObject.value (o : StoredObject) (type : Code) : Stored :=
  (o.find? (·.type == type)).getD (.withheld type)

theorem StoredObject.value_type (o : StoredObject) (type : Code) : (o.value type).type = type := by
  unfold StoredObject.value
  cases found : o.find? (·.type == type) with
  | none => rfl
  | some v =>
    have holds := List.find?_some found
    exact eq_of_beq holds

/-- Asked to fill an array that suits what the object stores, the module does so, and goes on to do
so. What result it gives along with that is left open. -/
structure Faithful {σ : Type} (M : Module σ) (session object : Handle) (o : StoredObject)
    (keeps : σ → Prop) : Prop where
  fills : ∀ a, keeps a → ∀ entries,
    Stored.SuitsAll (entries.map fun e => o.value e.head.type) entries →
    (M.answer (.getAttributeValue session object entries) a).1.written.array entries =
      Stored.fillAll (entries.map fun e => o.value e.head.type) entries
  stays : ∀ a, keeps a → ∀ entries,
    keeps (M.answer (.getAttributeValue session object entries) a).2.1

end Cryptoki.Wire
