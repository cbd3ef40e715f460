/-!
Small tables from keys to values, with one entry for each key, in the order in which the keys
first came in.
-/
namespace Cryptoki

structure Table (κ α : Type) where
  entries : List (κ × α)
  deriving Repr

namespace Table

variable {κ α : Type} [DecidableEq κ]

def empty : Table κ α := ⟨[]⟩

instance : Inhabited (Table κ α) := ⟨empty⟩

def find (j : κ) : List (κ × α) → Option α
  | [] => none
  | e :: rest => if e.1 = j then some e.2 else find j rest

def get? (t : Table κ α) (k : κ) : Option α := find k t.entries

def contains (t : Table κ α) (k : κ) : Bool := (t.get? k).isSome

def keys (t : Table κ α) : List κ := t.entries.map (·.1)

def insertEntry (k : κ) (a : α) : List (κ × α) → List (κ × α)
  | [] => [(k, a)]
  | e :: rest => if e.1 = k then (k, a) :: rest else e :: insertEntry k a rest

def insert (t : Table κ α) (k : κ) (a : α) : Table κ α := ⟨insertEntry k a t.entries⟩

def retain (t : Table κ α) (keep : κ → Bool) : Table κ α := ⟨t.entries.filter fun e => keep e.1⟩

def erase (t : Table κ α) (k : κ) : Table κ α := t.retain (· != k)

theorem find_insertEntry (k j : κ) (a : α) (l : List (κ × α)) :
    find j (insertEntry k a l) = if j = k then some a else find j l := by
  induction l with
  | nil => grind [insertEntry, find]
  | cons e rest ih => grind [insertEntry, find]

theorem find_filter (keep : κ → Bool) (j : κ) (l : List (κ × α)) :
    find j (l.filter fun e => keep e.1) = if keep j then find j l else none := by
  induction l with
  | nil => simp [find]
  | cons e rest ih => grind [find]

@[simp] theorem get?_empty (j : κ) : (empty : Table κ α).get? j = none := rfl

theorem get?_insert (t : Table κ α) (k j : κ) (a : α) :
    (t.insert k a).get? j = if j = k then some a else t.get? j :=
  find_insertEntry k j a t.entries

@[simp] theorem get?_insert_self (t : Table κ α) (k : κ) (a : α) :
    (t.insert k a).get? k = some a := by simp [get?_insert]

theorem get?_retain (t : Table κ α) (keep : κ → Bool) (j : κ) :
    (t.retain keep).get? j = if keep j then t.get? j else none :=
  find_filter keep j t.entries

theorem get?_erase (t : Table κ α) (k j : κ) :
    (t.erase k).get? j = if j = k then none else t.get? j := by
  by_cases h : j = k <;> simp [erase, get?_retain, h]

end Table

end Cryptoki
