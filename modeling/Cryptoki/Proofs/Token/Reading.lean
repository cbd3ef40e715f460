import Cryptoki.Proofs.Session.Reading
import Cryptoki.Proofs.Token.Frame
import Cryptoki.Proofs.Wire.Answering

/-!
The token in memory fills an array of attributes as faithfully as any module, if its objects have
templates of flat members just where the registry has the template kind. An array that suits the
object is filled whole, and what is returned then is only whether something is a secret or unknown.
-/
namespace Cryptoki

open Wire

namespace Token

def Value.stored (type : Code) : Value → Stored
  | .bytes b => .bytes type b
  | .nested members => .members type (members.map fun m => .bytes m.1 m.2)
  | .secret _ => .withheld type

/-- The form of the value is the one of its type: flat members for a template, and bytes for all
else. Lengths are below the word for a value that has none, as those of all that fits into memory
are. -/
def Value.Flat (type : Code) : Value → Prop
  | .bytes b => Registry.bundled.kind type ≠ .template ∧ b.length < unavailable
  | .nested members =>
    Registry.bundled.kind type = .template ∧ entrySize * members.length < unavailable ∧
      ∀ m ∈ members, Registry.bundled.kind m.1 ≠ .template ∧ m.2.length < unavailable
  | .secret _ => True

theorem Value.stored_type (type : Code) (v : Value) : (v.stored type).type = type := by
  cases v <;> rfl

theorem Value.fits_stored {type : Code} {v : Value} (flat : v.Flat type) :
    (v.stored type).Fits .bundled := by
  cases v with
  | bytes b => exact flat
  | secret b => trivial
  | nested members =>
    refine ⟨flat.1, ?_, Stored.fitsAll_iff.mpr fun w inside => ?_⟩
    · rw [List.length_map]
      exact flat.2.1
    · obtain ⟨m, there, rfl⟩ := List.mem_map.mp inside
      exact flat.2.2 m there

theorem Value.stored_not_reaches (type : Code) (v : Value) : (v.stored type).reaches 2 = false := by
  cases v with
  | bytes b => simp [stored, Stored.reaches]
  | secret b => rfl
  | nested members =>
    rw [stored, Stored.reaches, Stored.reachesAny_eq_any, List.any_map, List.any_eq_false]
    intro m _
    simp [Stored.reaches]

namespace Object

def stored (o : Object) : StoredObject := o.map fun e => e.2.stored e.1

def Flat (o : Object) : Prop := ∀ e ∈ o, e.2.Flat e.1

theorem value_stored (o : Object) (type : Code) :
    o.stored.value type = ((o.value? type).map (Value.stored type)).getD (.withheld type) := by
  induction o with
  | nil => rfl
  | cons e rest ih =>
    have first : (e.2.stored e.1).type = e.1 := Value.stored_type e.1 e.2
    unfold StoredObject.value value? at ih ⊢
    simp only [stored, List.map_cons, List.find?_cons, first]
    by_cases here : e.1 = type
    · subst here
      simp
    · rw [beq_eq_false_iff_ne.mpr here]
      exact ih

theorem value_stored_of_some {o : Object} {type : Code} {v : Value} (has : o.value? type = some v) :
    o.stored.value type = v.stored type := by
  rw [value_stored, has]
  rfl

theorem value_stored_of_none {o : Object} {type : Code} (lacks : o.value? type = none) :
    o.stored.value type = .withheld type := by
  rw [value_stored, lacks]
  rfl

theorem fits_stored {o : Object} (flat : o.Flat) : ∀ v ∈ o.stored, v.Fits .bundled := by
  intro v member
  obtain ⟨e, there, rfl⟩ := List.mem_map.mp member
  exact Value.fits_stored (flat e there)

theorem flat_of_value? {o : Object} (flat : o.Flat) {type : Code} {v : Value}
    (has : o.value? type = some v) : v.Flat type := by
  obtain ⟨e, found, rfl⟩ := Option.map_eq_some_iff.mp has
  have holds := List.find?_some found
  have same : e.1 = type := eq_of_beq holds
  exact same ▸ flat e (List.mem_of_find?_eq_some found)

def verdict (o : Object) (type : Code) : Code :=
  match o.value? type with
  | none => Return.attributeTypeInvalid
  | some (.secret _) => Return.attributeSensitive
  | some _ => Return.ok

end Object

theorem write_typed (e : Entry) (type : Option Code) (b : Bytes) (n : Nat) :
    e.write { type, bytes := b, length := some n } =
      e.write { type := some (type.getD e.head.type), bytes := b, length := some n } := rfl

theorem fillBytes_of_suits (path : List Nat) (type : Option Code) {t : Code} {b : Bytes} {e : Entry}
    (typed : type.getD e.head.type = t) (small : b.length < unavailable)
    (suits : (Stored.bytes t b).Suits e) :
    ∃ w, fillBytes path type e.head b = ([⟨path, w⟩], Return.ok) ∧
      e.write w = (Stored.bytes t b).fill e := by
  subst typed
  cases e with
  | empty h =>
    have null : (Entry.empty h).head.pointer = .null := suits.1
    refine ⟨{ type, length := some b.length }, ?_, ?_⟩
    · rw [fillBytes, if_pos null]
    · rw [write_typed, write_empty small]
      rfl
  | buffer h old =>
    obtain ⟨own, length, _, room⟩ := suits
    have known : h.lengthWord = old.length := by rw [Head.lengthWord, length, Option.getD_some]
    refine ⟨{ type, bytes := b, length := some b.length }, ?_, ?_⟩
    · simp [fillBytes, Entry.head, own, known, Nat.not_lt.mpr room]
    · rw [write_typed, write_buffer small own]
      rfl
  | nested h entries => cases suits

theorem fillMembers_of_suits (i : Nat) {members : List (Code × Bytes)}
    (small : ∀ m ∈ members, m.2.length < unavailable) (before entries : List Entry)
    (suits : Stored.SuitsAll (members.map fun m => .bytes m.1 m.2) entries) :
    ∃ ps : List Patch, fillMembers [i] before.length (entries.map Entry.head) members =
        (ps.map (Patch.inside i), Return.ok) ∧
      (∀ p ∈ ps, p.path ≠ []) ∧
      ps.foldl patch (before ++ entries) =
        before ++ Stored.fillAll (members.map fun m => .bytes m.1 m.2) entries := by
  induction members generalizing before entries with
  | nil =>
    exact ⟨[], by simp [fillMembers], fun p member => absurd member List.not_mem_nil,
      by simp [Stored.fillAll]⟩
  | cons m members ih =>
    cases entries with
    | nil => cases suits
    | cons e rest =>
      obtain ⟨w, asked, written⟩ := fillBytes_of_suits ([i] ++ [before.length])
        (some m.1) rfl (small m List.mem_cons_self) suits.1
      obtain ⟨ps, later, somewhere, filled⟩ := ih
        (fun n member => small n (List.mem_cons_of_mem m member))
        (before ++ [(Stored.bytes m.1 m.2).fill e]) rest suits.2
      rw [List.length_append, List.length_singleton] at later
      rw [List.append_assoc, List.append_assoc] at filled
      refine ⟨⟨[before.length], w⟩ :: ps, ?_, ?_, ?_⟩
      · simp only [List.map_cons, fillMembers, asked, later]
        rfl
      · intro p member
        rcases List.mem_cons.mp member with rfl | inside
        · simp
        · exact somewhere p inside
      · rw [List.foldl_cons, patch_here, written]
        exact filled

theorem withheld_of_suits {t : Code} {e : Entry} (rv : Code) (typed : e.head.type = t)
    (suits : (Stored.withheld t).Suits e) (before rest : List Entry) :
    (withheld [before.length] rv).1.foldl patch (before ++ e :: rest) =
      before ++ (Stored.withheld t).fill e :: rest := by
  subst typed
  cases e with
  | empty h =>
    rw [withheld, List.foldl_cons, List.foldl_nil, patch_here]
    exact congrArg (fun e => before ++ e :: rest) (write_withheld h h.type)
  | buffer h old => cases suits
  | nested h entries => cases suits

theorem fillNested_of_suits {t : Code} {members : List (Code × Bytes)} {e : Entry}
    (flat : (Value.nested members).Flat t) (typed : e.head.type = t)
    (suits : ((Value.nested members).stored t).Suits e) (before rest : List Entry) :
    (fillNested [before.length] e members).2 = Return.ok ∧
    (fillNested [before.length] e members).1.foldl patch (before ++ e :: rest) =
      before ++ ((Value.nested members).stored t).fill e :: rest := by
  subst typed
  have fits := Value.fits_stored flat
  obtain ⟨_, small, each⟩ := flat
  have count : (members.map fun m => Stored.bytes m.1 m.2).length = members.length :=
    List.length_map _
  cases e with
  | empty h =>
    have null : (Entry.empty h).head.pointer = .null := suits.1
    have written := write_empty (h := h) (t := h.type) small []
    refine ⟨by simp [fillNested, null], ?_⟩
    simp only [fillNested, null, ↓reduceIte, List.foldl_cons, List.foldl_nil]
    rw [patch_here, write_typed]
    refine congrArg (fun e => before ++ e :: rest) (written.trans ?_)
    simp [Value.stored, Stored.fill, Entry.withHead, Entry.head]
  | buffer h old => cases suits
  | nested h entries =>
    obtain ⟨own, length, _, inside⟩ := suits
    have same := Stored.length_of_suitsAll inside
    rw [List.length_map] at same
    have room : h.lengthWord = entrySize * members.length := by
      rw [Head.lengthWord, length, Option.getD_some, same]
    obtain ⟨ps, asked, somewhere, filled⟩ := fillMembers_of_suits before.length
      (fun m member => (each m member).2) [] entries inside
    -- The length is written over heads that are filled by then, and must leave them as they are.
    have plain := Stored.plain_fillAll (Stored.fitsAll_iff.mp fits.2.2) inside
    have whole : fillNested [before.length] (.nested h entries) members =
        (ps.map (Patch.inside before.length) ++
          [⟨[before.length], { length := some (entrySize * members.length) }⟩], Return.ok) := by
      simp only [List.length_nil] at asked
      simp [fillNested, Entry.head, Entry.heads, own, room, asked]
    rw [whole]
    refine ⟨rfl, ?_⟩
    rw [List.foldl_append, foldl_patch_inside before rest own ps somewhere, List.foldl_cons,
      List.foldl_nil, patch_here, write_typed]
    simp only [List.nil_append] at filled
    rw [filled, write_nested small own (fun e member => (plain e member).1)
      fun e member => (plain e member).2]
    simp [Value.stored, Stored.fill, Entry.head]

theorem fillEntry_of_suits {o : Object} (flat : o.Flat) {e : Entry}
    (suits : (o.stored.value e.head.type).Suits e) (before rest : List Entry) :
    (fillEntry o before.length e).2 = o.verdict e.head.type ∧
    (fillEntry o before.length e).1.foldl patch (before ++ e :: rest) =
      before ++ (o.stored.value e.head.type).fill e :: rest := by
  cases has : o.value? e.head.type with
  | none =>
    rw [Object.value_stored_of_none has] at suits ⊢
    simp only [fillEntry, Object.verdict, has]
    exact ⟨rfl, withheld_of_suits _ rfl suits before rest⟩
  | some v =>
    have form := Object.flat_of_value? flat has
    rw [Object.value_stored_of_some has] at suits ⊢
    cases v with
    | secret b =>
      simp only [fillEntry, Object.verdict, has]
      exact ⟨rfl, withheld_of_suits _ rfl suits before rest⟩
    | bytes b =>
      obtain ⟨w, asked, written⟩ := fillBytes_of_suits [before.length] none rfl form.2 suits
      simp only [fillEntry, Object.verdict, has, asked, List.foldl_cons, List.foldl_nil]
      rw [patch_here, written]
      exact ⟨trivial, rfl⟩
    | nested members =>
      simp only [fillEntry, Object.verdict, has]
      exact fillNested_of_suits form rfl suits before rest

theorem fillAll_of_suits {o : Object} (flat : o.Flat) (before entries : List Entry) (rv : Code)
    (suits : Stored.SuitsAll (entries.map fun e => o.stored.value e.head.type) entries) :
    (fillAll o before.length rv entries).2 =
      (entries.map fun e => o.verdict e.head.type).foldl worse rv ∧
    (fillAll o before.length rv entries).1.foldl patch (before ++ entries) =
      before ++ Stored.fillAll (entries.map fun e => o.stored.value e.head.type) entries := by
  induction entries generalizing before rv with
  | nil => exact ⟨rfl, rfl⟩
  | cons e rest ih =>
    obtain ⟨verdict, filled⟩ := fillEntry_of_suits flat suits.1 before rest
    obtain ⟨rv', others⟩ := ih (before ++ [(o.stored.value e.head.type).fill e])
      (worse rv (o.verdict e.head.type)) suits.2
    rw [List.length_append, List.length_singleton] at rv' others
    rw [List.append_assoc, List.append_assoc] at others
    simp only [fillAll, verdict, List.map_cons, List.foldl_cons, List.foldl_append, filled]
    exact ⟨rv', others⟩

def Excused (rv : Code) : Prop :=
  rv = Return.ok ∨ rv = Return.attributeSensitive ∨ rv = Return.attributeTypeInvalid

theorem excused_verdict (o : Object) (type : Code) : Excused (o.verdict type) := by
  unfold Object.verdict
  split
  · exact .inr (.inr rfl)
  · exact .inr (.inl rfl)
  · exact .inl rfl

theorem excused_verdicts (o : Object) (types : List Code) {rv : Code} (start : Excused rv) :
    Excused ((types.map o.verdict).foldl worse rv) := by
  induction types generalizing rv with
  | nil => exact start
  | cons type rest ih => exact ih (worse_of_both start (excused_verdict o type))

theorem readAttributes_of_suits {o : Object} (flat : o.Flat) {entries : List Entry}
    (suits : Stored.SuitsAll (entries.map fun e => o.stored.value e.head.type) entries) :
    (readAttributes o entries).written.array entries =
      Stored.fillAll (entries.map fun e => o.stored.value e.head.type) entries ∧
    Forgiven (readAttributes o entries).result := by
  obtain ⟨verdicts, filled⟩ := fillAll_of_suits flat [] entries Return.ok suits
  refine ⟨filled, fun e failed => ?_⟩
  have excused := excused_verdicts o (entries.map (·.head.type)) (.inl rfl)
  rw [List.map_map] at excused
  simp only [readAttributes] at failed
  split at failed
  · cases failed
  · rename_i nonzero
    cases failed
    exact (verdicts ▸ excused : Excused _).resolve_left nonzero

/-- The session is open and the object is there, and no reading is going to fail. -/
structure Serves (session object : Handle) (o : Object) (t : Token) : Prop where
  opened : session ∈ t.sessions
  stored : t.objects.get? object = some o
  clear : t.failures.get? .getAttributeValue = none

variable {session object : Handle} {o : Object} {t : Token}

theorem answer_reading (serves : Serves session object o t) (entries : List Entry) :
    t.answer (.getAttributeValue session object entries) =
      (readAttributes o entries, { t with calls := t.calls ++ [.getAttributeValue] }) := by
  have own : (Request.getAttributeValue session object entries).session? = some session := rfl
  have counted := counted_of_clear serves.clear
  rw [answer_of_open own (due_eq_none serves.clear) serves.opened]
  change perform _ (t.counted .getAttributeValue) = _
  rw [counted]
  simp only [perform, serves.stored]

theorem forthcoming (flat : o.Flat) (session object : Handle) :
    Forthcoming Token.module session object o.stored (Serves session object o) where
  fills t serves entries suits := by
    change (t.answer (.getAttributeValue session object entries)).1.written.array entries = _
    rw [answer_reading serves]
    exact (readAttributes_of_suits flat suits).1
  stays t serves entries := by
    change Serves session object o (t.answer (.getAttributeValue session object entries)).2
    rw [answer_reading serves]
    exact ⟨serves.opened, serves.stored, serves.clear⟩
  forgives t serves entries suits := by
    change Forgiven (t.answer (.getAttributeValue session object entries)).1.result
    rw [answer_reading serves]
    exact (readAttributes_of_suits flat suits).2

end Token

end Cryptoki
