import Cryptoki.Proofs.Attribute.Bare
import Cryptoki.Proofs.Result
import Cryptoki.Proofs.Wire.Decoding
import Cryptoki.Proofs.Wire.Exchanged

/-!
An array cut down to what its pointers and lengths say, with storage of the kind that its types
have. A reader that follows the pointers sees no more than that.
-/
namespace Cryptoki

namespace Wire

variable {r : Registry}

def Head.count (h : Head) : Nat := h.length.getD 0 / entrySize

def Head.Reaches (h : Head) (size : Nat) : Prop :=
  ∀ n, h.length = some n → h.pointer = .null ∨ n ≤ size

mutual

/-- Every available value has a null pointer or as many bytes as its length says, and so has
every entry of an array, as far as its length takes it in. -/
def Entry.Covered (r : Registry) : Entry → Prop
  | .empty h => h.Reaches 0
  | .buffer h b =>
    h.Reaches b.length ∧
      (r.kind h.type = .template → ∀ e ∈ (ofImage b).take h.count, e.head.Reaches 0)
  | .nested h entries => h.Reaches (entrySize * entries.length) ∧ CoveredAll r entries h.count

def CoveredAll (r : Registry) : List Entry → Nat → Prop
  | [], _ | _, 0 => True
  | e :: rest, count + 1 => e.Covered r ∧ CoveredAll r rest count

end

mutual

def Entry.cut (r : Registry) : Entry → Entry
  | .empty h => .empty h
  | .buffer h b =>
    if b.isEmpty then .empty h
    else if r.kind h.type = .template then .nested h ((ofImage b).take h.count)
    else .buffer h b
  | .nested h entries =>
    if entries.isEmpty then .empty h
    else if r.kind h.type = .template then .nested h (cutAll r entries h.count)
    else .buffer h (image entries)

def cutAll (r : Registry) : List Entry → Nat → List Entry
  | [], _ | _, 0 => []
  | e :: rest, count + 1 => e.cut r :: cutAll r rest count

end

theorem length_cutAll_le (entries : List Entry) (count : Nat) :
    (cutAll r entries count).length ≤ count := by
  induction entries generalizing count with
  | nil => exact Nat.zero_le _
  | cons e rest ih =>
    cases count with
    | zero => exact Nat.le_refl _
    | succ count =>
      have shorter := ih count
      simp only [cutAll, List.length_cons]
      omega

theorem bare_nested_of_members (h : Head) {x y : Result (List Attribute)} {count : Nat}
    (same : List.map Attribute.bare <$> x = List.map Attribute.bare <$> y)
    (few : ∀ as, y = .ok as → as.length ≤ count) :
    Attribute.bare <$> ((fun as => nestedAttribute h.type (collect as)) <$> x) =
      Attribute.bare <$> ((fun as => flagged h (nestedAttribute h.type
        ⟨(collect as).attributes.take count⟩)) <$> y) := by
  rcases Result.map_eq_map.mp same with ⟨e, left, right⟩ | ⟨as, bs, left, right, bare⟩
  · rw [left, right]
    rfl
  · have whole : (collect bs).attributes.take count = (collect bs).attributes :=
      List.take_of_length_le (Nat.le_trans (length_collect_le bs) (few bs right))
    have collected : (collect as).bare = (collect bs).bare := by
      rw [bare_collect, bare_collect, bare]
    rw [left, right]
    apply congrArg Except.ok
    rw [Attribute.bare_flagged, whole, bare_nestedAttribute, bare_nestedAttribute, collected]

theorem bare_toAttribute_of_absent {e : Entry} (absent : e.head.length = none)
    (members : Nat → Result (List Attribute)) (bytes : Bytes) :
    Attribute.bare <$> e.head.toAttribute r members bytes = Attribute.bare <$> e.toAttribute r := by
  rw [toAttribute_of_absent absent, Head.toAttribute, absent]
  rfl

theorem bare_toAttribute_of_empty {h : Head} (reaches : h.Reaches 0)
    {members : Nat → Result (List Attribute)} {bytes : Bytes} (none_left : members 0 = .ok []) :
    Attribute.bare <$> h.toAttribute r members bytes =
      Attribute.bare <$> (Entry.empty h).toAttribute r := by
  cases length : h.length with
  | none =>
    exact bare_toAttribute_of_absent (e := .empty h) length _ _
  | some n =>
    unfold Entry.toAttribute
    by_cases zero : n = 0
    · subst zero
      by_cases kind : r.kind h.type = .template
      · have read := toAttribute_of_nested (n := 0) members bytes length (fun _ => rfl) kind
        rw [read, none_left]
        simp only [length, kind, ne_eq, not_true_eq_false, ↓reduceIte]
        apply congrArg Except.ok
        rw [Attribute.bare_flagged]
        rfl
      · rw [toAttribute_of_flat members bytes length (fun _ => rfl) kind]
        simp only [length, kind, ne_eq, not_true_eq_false, ↓reduceIte, List.take_zero]
        exact (bare_map_flagged h _).symm
    · have null : h.pointer = .null := by
        rcases reaches n length with null | small
        · exact null
        · omega
      simp [Head.toAttribute, length, null, zero]

theorem bare_toAttribute_of_nested {h : Head} {members : Nat → Result (List Attribute)}
    {bytes : Bytes} {entries : List Entry} (own : h.pointer = .own)
    (kind : r.kind h.type = .template) (few : entries.length ≤ h.count)
    (same : List.map Attribute.bare <$> members h.count =
      List.map Attribute.bare <$> toAttributes r entries) :
    Attribute.bare <$> h.toAttribute r members bytes =
      Attribute.bare <$> (Entry.nested h entries).toAttribute r := by
  cases length : h.length with
  | none =>
    exact bare_toAttribute_of_absent (e := .nested h entries) length _ _
  | some n =>
    have counted : h.count = n / entrySize := by rw [Head.count, length, Option.getD_some]
    rw [counted] at few same
    have readable : ¬ (h.pointer = .null ∧ n ≠ 0) := by simp [own]
    unfold Head.toAttribute Entry.toAttribute
    simp only [length, readable, kind, ↓reduceIte]
    cases whole : nestedCount r h.type n with
    | error e => rfl
    | ok count =>
      have exactly : count = n / entrySize := by
        rw [nestedCount_eq_ok whole]
        simp [entrySize]
      subst exactly
      have short : ∀ as, toAttributes r entries = .ok as → as.length ≤ n / entrySize := by
        intro as done
        rw [length_of_toAttributes done]
        exact few
      have read := bare_nested_of_members h same short
      revert read
      simp only [Result.ok_bind]
      cases members (n / entrySize) <;> cases toAttributes r entries <;> exact id

theorem bare_toAttribute_of_flat {h : Head} {members : Nat → Result (List Attribute)}
    {bytes : Bytes} (own : h.pointer = .own) (kind : r.kind h.type ≠ .template) :
    Attribute.bare <$> h.toAttribute r members bytes =
      Attribute.bare <$> (Entry.buffer h bytes).toAttribute r := by
  cases length : h.length with
  | none =>
    exact bare_toAttribute_of_absent (e := .buffer h bytes) length _ _
  | some n =>
    have safe : h.pointer = .null → n = 0 := by simp [own]
    rw [toAttribute_of_flat members bytes length safe kind, Entry.toAttribute, length]
    exact (bare_map_flagged h _).symm

theorem bare_cons {x y : Result Attribute} {xs ys : Result (List Attribute)}
    (first : Attribute.bare <$> x = Attribute.bare <$> y)
    (others : List.map Attribute.bare <$> xs = List.map Attribute.bare <$> ys) :
    List.map Attribute.bare <$> (do let a ← x; return a :: (← xs)) =
      List.map Attribute.bare <$> (do let a ← y; return a :: (← ys)) := by
  rcases Result.map_eq_map.mp first with ⟨e, left, right⟩ | ⟨a, b, left, right, bare⟩
  · rw [left, right]
    rfl
  · rw [left, right]
    rcases Result.map_eq_map.mp others with ⟨e, left, right⟩ | ⟨as, bs, left, right, later⟩
    · rw [left, right]
      rfl
    · rw [left, right]
      apply congrArg Except.ok
      rw [List.map_cons, List.map_cons, bare, later]

theorem bare_mapM_toFlatAttribute {entries : List Entry}
    (flat : ∀ e ∈ entries, e = .empty e.head ∧ e.head.Reaches 0) :
    List.map Attribute.bare <$> entries.mapM (fun e => e.head.toFlatAttribute r) =
      List.map Attribute.bare <$> toAttributes r entries := by
  induction entries with
  | nil => rfl
  | cons e rest ih =>
    obtain ⟨empty, reaches⟩ := flat e List.mem_cons_self
    have others := ih fun f member => flat f (List.mem_cons_of_mem e member)
    have first : Attribute.bare <$> e.head.toFlatAttribute r =
        Attribute.bare <$> e.toAttribute r := by
      rw [empty]
      exact bare_toAttribute_of_empty reaches rfl
    rw [List.mapM_cons, toAttributes]
    exact bare_cons first others

theorem bare_toAttributesByHead_of_forall {entries : List Entry}
    (each : ∀ e ∈ entries, e.Owned → e.Covered r →
      Attribute.bare <$> e.toAttributeByHead r = Attribute.bare <$> (e.cut r).toAttribute r)
    (owned : OwnedAll entries) {count : Nat} (covered : CoveredAll r entries count) :
    List.map Attribute.bare <$> toAttributesByHead r entries count =
      List.map Attribute.bare <$> toAttributes r (cutAll r entries count) := by
  induction entries generalizing count with
  | nil => cases count <;> rfl
  | cons e rest ih =>
    cases count with
    | zero => rfl
    | succ count =>
      obtain ⟨ownedHere, ownedLater⟩ := owned
      obtain ⟨coveredHere, coveredLater⟩ := covered
      have first := each e List.mem_cons_self ownedHere coveredHere
      have others := ih (fun f member => each f (List.mem_cons_of_mem e member)) ownedLater
        coveredLater
      rw [toAttributesByHead, cutAll, toAttributes]
      exact bare_cons first others

theorem bare_toAttributeByHead (e : Entry) (owned : e.Owned) (covered : e.Covered r) :
    Attribute.bare <$> e.toAttributeByHead r = Attribute.bare <$> (e.cut r).toAttribute r := by
  induction e using Entry.nested_induction with
  | empty h => exact bare_toAttribute_of_empty covered rfl
  | buffer h b =>
    obtain ⟨_, inside⟩ := covered
    rw [Entry.toAttributeByHead]
    cases b with
    | nil => exact bare_toAttribute_of_empty (fun _ _ => .inl owned) rfl
    | cons x rest =>
      unfold Entry.cut
      by_cases kind : r.kind h.type = .template
      · simp only [List.isEmpty_cons, Bool.false_eq_true, kind, ↓reduceIte]
        apply bare_toAttribute_of_nested owned kind (List.length_take_le _ _)
        -- Entries that bytes are read as have pointers to anything, and no storage of their own.
        refine bare_mapM_toFlatAttribute fun e member => ⟨?_, inside kind e member⟩
        obtain ⟨c, _, rfl⟩ := List.mem_map.mp (List.mem_of_mem_take member)
        rfl
      · simp only [List.isEmpty_cons, Bool.false_eq_true, kind, ↓reduceIte]
        exact bare_toAttribute_of_flat owned kind
  | nested h entries ih =>
    obtain ⟨pointer, ownedInside⟩ := owned
    obtain ⟨_, inside⟩ := covered
    rw [Entry.toAttributeByHead]
    cases entries with
    | nil => exact bare_toAttribute_of_empty (fun _ _ => .inl pointer) rfl
    | cons e rest =>
      unfold Entry.cut
      by_cases kind : r.kind h.type = .template
      · simp only [List.isEmpty_cons, Bool.false_eq_true, kind, ↓reduceIte]
        apply bare_toAttribute_of_nested pointer kind (length_cutAll_le _ _)
        exact bare_toAttributesByHead_of_forall ih ownedInside inside
      · simp only [List.isEmpty_cons, Bool.false_eq_true, kind, ↓reduceIte]
        exact bare_toAttribute_of_flat pointer kind

/-- A reader that follows the pointers sees the array as if it were cut. -/
theorem bare_toAttributesByHead {entries : List Entry} (owned : OwnedAll entries) {count : Nat}
    (covered : CoveredAll r entries count) :
    List.map Attribute.bare <$> toAttributesByHead r entries count =
      List.map Attribute.bare <$> toAttributes r (cutAll r entries count) :=
  bare_toAttributesByHead_of_forall (fun e _ => bare_toAttributeByHead e) owned covered

end Wire

end Cryptoki
