/-!
Maps from names, kept in the order of the names.
-/
namespace Cryptoki

abbrev Ordered (entries : List (String × α)) : Prop := entries.Pairwise fun a b => a.1 < b.1

structure NameMap (α : Type) where
  entries : List (String × α)
  ordered : Ordered entries
  deriving DecidableEq

def NameMap.empty : NameMap α := ⟨[], .nil⟩

def insertEntry (name : String) (a : α) : List (String × α) → List (String × α)
  | [] => [(name, a)]
  | e :: rest =>
    if name < e.1 then (name, a) :: e :: rest
    else if name = e.1 then (name, a) :: rest
    else e :: insertEntry name a rest

theorem mem_insertEntry {name : String} {a : α} {e : String × α} :
    ∀ {l : List (String × α)}, e ∈ insertEntry name a l → e = (name, a) ∨ e ∈ l
  | [], h => by simpa [insertEntry] using h
  | x :: rest, h => by
    unfold insertEntry at h
    split at h
    · simpa using h
    · split at h
      · rcases List.mem_cons.1 h with h | h
        · exact .inl h
        · exact .inr (List.mem_cons_of_mem _ h)
      · rcases List.mem_cons.1 h with h | h
        · exact .inr (h ▸ List.mem_cons_self)
        · exact (mem_insertEntry h).imp id (List.mem_cons_of_mem _)

theorem ordered_insertEntry (name : String) (a : α) :
    ∀ {l : List (String × α)}, Ordered l → Ordered (insertEntry name a l)
  | [], _ => by simp [insertEntry]
  | x :: rest, h => by
    have hx := List.pairwise_cons.1 h
    unfold insertEntry
    split
    · rename_i before
      refine List.pairwise_cons.2 ⟨fun e he => ?_, h⟩
      rcases List.mem_cons.1 he with rfl | he
      · exact before
      · exact String.lt_trans before (hx.1 e he)
    · split
      · rename_i same
        exact List.pairwise_cons.2 ⟨fun e he => same ▸ hx.1 e he, hx.2⟩
      · rename_i notBefore notSame
        have after : x.1 < name := by
          refine String.not_le.1 fun le => notSame (String.le_antisymm ?_ le |>.symm) |>.elim
          exact String.not_lt.1 notBefore
        refine List.pairwise_cons.2 ⟨fun e he => ?_, ordered_insertEntry name a hx.2⟩
        rcases mem_insertEntry he with rfl | he
        · exact after
        · exact hx.1 e he

def NameMap.insert (m : NameMap α) (name : String) (a : α) : NameMap α :=
  ⟨insertEntry name a m.entries, ordered_insertEntry name a m.ordered⟩

def NameMap.ofList (entries : List (String × α)) : NameMap α :=
  entries.foldl (fun m e => m.insert e.1 e.2) .empty

def NameMap.erase (m : NameMap α) (name : String) : NameMap α :=
  ⟨m.entries.filter (·.1 != name), m.ordered.filter _⟩

def NameMap.get? (m : NameMap α) (name : String) : Option α :=
  (m.entries.find? (·.1 == name)).map (·.2)

end Cryptoki
