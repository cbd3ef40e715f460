import Cryptoki.Proofs.Token.Attributes
import Cryptoki.Proofs.Wire.Labels

/-!
Which absent attributes of the token in memory are flagged. Those that are withheld are, whatever
else was asked for; and so is any whose type the registry has as sensitive, even when the object
does not have it.
-/
namespace Cryptoki

open Wire

namespace Token

variable {o : Object}

theorem ok_ne_sensitive : Return.ok ≠ Return.attributeSensitive := by decide

theorem tooSmall_ne_sensitive : Return.bufferTooSmall ≠ Return.attributeSensitive := by decide

theorem fillBytes_writes (path : List Nat) (type : Option Code) (h : Head) (b : Bytes) :
    (∃ w : Write, (fillBytes path type h b).1 = [⟨path, w⟩] ∧ w.type = type) ∧
      (fillBytes path type h b).2 ≠ Return.attributeSensitive := by
  unfold fillBytes
  split
  · exact ⟨⟨_, rfl, rfl⟩, ok_ne_sensitive⟩
  · split
    · exact ⟨⟨_, rfl, rfl⟩, tooSmall_ne_sensitive⟩
    · exact ⟨⟨_, rfl, rfl⟩, ok_ne_sensitive⟩

theorem at_own (i : Nat) {w : Write} (untyped : w.type = none) :
    ∀ p ∈ [(⟨[i], w⟩ : Patch)], p.At i := by
  intro p member
  obtain rfl := List.mem_singleton.mp member
  exact ⟨[], rfl, fun _ => untyped⟩

theorem fillMembers_writes (i j : Nat) (heads : List Head) (members : List (Code × Bytes)) :
    (∀ p ∈ (fillMembers [i] j heads members).1, p.At i) ∧
      (fillMembers [i] j heads members).2 ≠ Return.attributeSensitive := by
  induction heads generalizing j members with
  | nil => exact ⟨fun p member => absurd member List.not_mem_nil, ok_ne_sensitive⟩
  | cons h heads ih =>
    cases members with
    | nil => exact ⟨fun p member => absurd member List.not_mem_nil, ok_ne_sensitive⟩
    | cons m members =>
      obtain ⟨⟨w, first, _⟩, other⟩ := fillBytes_writes ([i] ++ [j]) (some m.1) h m.2
      obtain ⟨later, other'⟩ := ih (j + 1) members
      simp only [fillMembers]
      refine ⟨fun p member => ?_, ?_⟩
      · rw [first] at member
        rcases List.mem_cons.mp member with rfl | inside
        · exact ⟨[j], rfl, fun empty => absurd empty (List.cons_ne_nil j [])⟩
        · exact later p inside
      · split
        · exact other
        · exact other'

theorem fillNested_writes (i : Nat) (e : Entry) (members : List (Code × Bytes)) :
    (∀ p ∈ (fillNested [i] e members).1, p.At i) ∧
      (fillNested [i] e members).2 ≠ Return.attributeSensitive := by
  unfold fillNested
  dsimp only
  split
  · exact ⟨at_own i rfl, ok_ne_sensitive⟩
  · split
    · exact ⟨at_own i rfl, tooSmall_ne_sensitive⟩
    · obtain ⟨inner, other⟩ := fillMembers_writes i 0 e.heads members
      refine ⟨fun p member => ?_, other⟩
      rcases List.mem_append.mp member with inside | last
      · exact inner p inside
      · exact at_own i rfl p last

theorem fillEntry_writes (o : Object) (i : Nat) (e : Entry) :
    (∀ p ∈ (fillEntry o i e).1, p.At i) ∧
    ((fillEntry o i e).2 = Return.attributeSensitive ↔
      o.verdict e.head.type = Return.attributeSensitive) ∧
    (o.verdict e.head.type ≠ Return.ok →
      (fillEntry o i e).1 = [⟨[i], { length := some unavailable }⟩]) := by
  unfold fillEntry Object.verdict
  cases o.value? e.head.type with
  | none => exact ⟨at_own i rfl, Iff.rfl, fun _ => rfl⟩
  | some v =>
    cases v with
    | secret b => exact ⟨at_own i rfl, Iff.rfl, fun _ => rfl⟩
    | bytes b =>
      obtain ⟨⟨w, written, untyped⟩, other⟩ := fillBytes_writes [i] none e.head b
      refine ⟨?_, ?_, fun bad => absurd rfl bad⟩
      · simp only [written]
        exact at_own i untyped
      · exact ⟨fun same => absurd same other, fun same => absurd same ok_ne_sensitive⟩
    | nested members =>
      obtain ⟨within, other⟩ := fillNested_writes i e members
      exact ⟨within, ⟨fun same => absurd same other, fun same => absurd same ok_ne_sensitive⟩,
        fun bad => absurd rfl bad⟩

theorem worse_eq_sensitive (rv r : Code) :
    worse rv r = Return.attributeSensitive ↔
      rv = Return.attributeSensitive ∨ r = Return.attributeSensitive := by
  unfold worse
  split
  · rename_i failed
    exact ⟨.inr, fun either => either.resolve_left failed.2⟩
  · rename_i kept
    constructor
    · exact .inl
    · intro either
      by_contra other
      have failed : r = Return.attributeSensitive := either.resolve_left other
      exact kept ⟨failed ▸ by decide, other⟩

theorem fillAll_eq_sensitive (o : Object) (i : Nat) (rv : Code) (entries : List Entry) :
    (fillAll o i rv entries).2 = Return.attributeSensitive ↔
      rv = Return.attributeSensitive ∨
        ∃ e ∈ entries, o.verdict e.head.type = Return.attributeSensitive := by
  induction entries generalizing i rv with
  | nil => simp [fillAll]
  | cons e rest ih =>
    simp only [fillAll, ih, worse_eq_sensitive, (fillEntry_writes o i e).2.1, List.mem_cons,
      exists_eq_or_imp, or_assoc]

def Silent (o : Object) (e : Entry) : Prop :=
  o.verdict e.head.type ≠ Return.ok → e.head.length = none

theorem fillAll_labels (o : Object) (before entries : List Entry) (rv : Code) :
    ∃ after, (fillAll o before.length rv entries).1.foldl patch (before ++ entries) =
        before ++ after ∧
      after.map Entry.label = entries.map Entry.label ∧ ∀ e ∈ after, Silent o e := by
  -- What stands before the entries has been filled, and is not reached by their patches.
  induction entries generalizing before rv with
  | nil => exact ⟨[], rfl, rfl, fun e member => nomatch member⟩
  | cons e rest ih =>
    obtain ⟨within, _, marked⟩ := fillEntry_writes o before.length e
    obtain ⟨e', here, same⟩ := foldl_patch_at before rest within e
    have silent : Silent o e' := by
      intro bad
      have typed : e'.head.type = e.head.type := congrArg Prod.fst same
      rw [marked (typed ▸ bad), List.foldl_cons, List.foldl_nil, patch_here,
        List.append_cancel_left_eq, List.cons.injEq] at here
      rw [← here.1]
      exact length_write_unavailable e
    obtain ⟨after, others, labels, silents⟩ :=
      ih (before ++ [e']) (worse rv (fillEntry o before.length e).2)
    rw [List.length_append, List.length_singleton, List.append_assoc, List.append_assoc] at others
    refine ⟨e' :: after, ?_, ?_, ?_⟩
    · simp only [fillAll, List.foldl_append, here]
      exact others
    · rw [List.map_cons, List.map_cons, same, labels]
    · intro f member
      rcases List.mem_cons.mp member with rfl | later
      · exact silent
      · exact silents f later

end Token

theorem Session.secret_of_readAttributes {σ : Type} {M : Module σ} {object : Handle}
    {entries after : List Entry} {secret : Bool} {s s' : Session} {h h' : Host σ}
    (run : Session.readAttributes M object entries s h = ((.ok (after, secret), s'), h')) :
    secret = true ↔ ∃ e, e.rv = Return.attributeSensitive ∧
      (M.answer (.getAttributeValue s.handle object entries) h.state).1.result = .error e := by
  obtain ⟨_, _, _, handle, run⟩ := SessionM.bind_eq_ok run
  cases handle
  obtain ⟨a, _, _, answered, run⟩ := SessionM.bind_eq_ok run
  cases answered
  split at run
  · rename_i ok
    cases run
    simp [ok]
  · rename_i e failed
    split at run
    · rename_i sensitive
      cases run
      exact iff_of_true rfl ⟨e, sensitive, failed⟩
    · rename_i other
      split at run
      · cases run
        refine iff_of_false Bool.false_ne_true fun found => ?_
        obtain ⟨e', sensitive, failed'⟩ := found
        cases failed.symm.trans failed'
        exact other sensitive
      · cases run

namespace Token

open Session SessionM

variable {o : Object} {s s' : Session} {h h' : Host Token} {object : Handle} {types : List Code}

/-- What an array says of the types that it was made to ask for: they are flagged as the registry
has them, and what is not given has no length. -/
structure Told (o : Object) (types : List Code) (entries : List Entry) : Prop where
  labels : entries.map Entry.label = types.map fun type => (type, Registry.bundled.isSensitive type)
  silent : ∀ e ∈ entries, Silent o e

theorem typesOf_labels {entries : List Entry}
    (labels : entries.map Entry.label =
      types.map fun type => (type, Registry.bundled.isSensitive type)) :
    entries.map (·.head.type) = types := by
  have first := congrArg (List.map Prod.fst) labels
  simpa [Function.comp_def, Entry.label] using first

theorem result_readAttributes (o : Object) (entries : List Entry) :
    (readAttributes o entries).result =
      if (fillAll o 0 Return.ok entries).2 = Return.ok then .ok ()
      else .error (.returned (fillAll o 0 Return.ok entries).2) := rfl

theorem result_eq_sensitive (o : Object) (entries : List Entry) :
    (readAttributes o entries).result = .error (.returned Return.attributeSensitive) ↔
      ∃ e ∈ entries, o.verdict e.head.type = Return.attributeSensitive := by
  have sensitive := fillAll_eq_sensitive o 0 Return.ok entries
  rw [or_iff_right ok_ne_sensitive] at sensitive
  rw [← sensitive, result_readAttributes]
  split
  · rename_i ok
    rw [ok]
    exact iff_of_false (fun failed => nomatch failed) ok_ne_sensitive
  · rw [Except.error.injEq, Error.returned.injEq]

theorem sensitive_answer_iff (o : Object) (entries : List Entry) :
    (∃ e : Error, e.rv = Return.attributeSensitive ∧
      (readAttributes o entries).result = .error e) ↔
    ∃ e ∈ entries, o.verdict e.head.type = Return.attributeSensitive := by
  rw [← result_eq_sensitive]
  constructor
  · intro found
    obtain ⟨e, same, failed⟩ := found
    rw [result_readAttributes] at failed ⊢
    split at failed
    · cases failed
    · cases failed
      rw [if_neg ‹_›]
      exact congrArg (fun rv => Except.error (Error.returned rv)) same
  · intro failed
    exact ⟨_, rfl, failed⟩

theorem told_readAttributes (serves : Serves s.handle object o h.state) {entries after : List Entry}
    {secret : Bool}
    (labels : entries.map Entry.label =
      types.map fun type => (type, Registry.bundled.isSensitive type))
    (run : Session.readAttributes Token.module object entries s h =
      ((.ok (after, secret), s'), h')) :
    s' = s ∧ Serves s.handle object o h'.state ∧ Told o types after ∧
      (secret = true ↔ ∃ type ∈ types, o.verdict type = Return.attributeSensitive) := by
  have found := secret_of_readAttributes run
  obtain ⟨written, same, next⟩ := readAttributes_eq_ok run
  rw [module_answer, answer_reading serves] at found written next
  refine ⟨same, ?_, ?_, ?_⟩
  · rw [next]
    exact ⟨serves.opened, serves.stored, serves.clear⟩
  · obtain ⟨after', filled, kept, silent⟩ := fillAll_labels o [] entries Return.ok
    have whole : after = after' := written.trans filled
    subst whole
    exact ⟨kept.trans labels, silent⟩
  · rw [found, sensitive_answer_iff, ← typesOf_labels labels]
    simp

theorem Told.allocate {entries : List Entry} (told : Told o types entries) :
    Told o types (Wire.allocate .bundled entries).1 := by
  have said := map_said_allocate .bundled entries
  have labels := congrArg (List.map fun m => (m.1, m.2.1)) said
  simp only [List.map_map] at labels
  refine ⟨Eq.trans ?_ told.labels, fun e member => ?_⟩
  · exact labels
  · have there : e.head.said ∈ entries.map (·.head.said) := said ▸ List.mem_map_of_mem member
    obtain ⟨f, found, same⟩ := List.mem_map.mp there
    intro bad
    have typed : f.head.type = e.head.type := congrArg (·.1) same
    have length : f.head.length = e.head.length := congrArg (·.2.2) same
    rw [← length]
    exact told.silent f found (typed ▸ bad)

theorem readPasses_succ {σ : Type} {M : Module σ} {s s' : Session} {h h' : Host σ} {passes : Nat}
    {entries after : List Entry} {secret : Bool}
    (run : readPasses M object (passes + 1) entries s h = ((.ok (after, secret), s'), h')) :
    ∃ entries' first s₁ h₁ others later, others ≤ passes ∧ (first = true → secret = true) ∧
      Session.readAttributes M object entries s h = ((.ok (entries', first), s₁), h₁) ∧
      readPasses M object others (Wire.allocate .bundled entries').1 s₁ h₁ =
        ((.ok (after, later), s'), h') := by
  obtain ⟨⟨entries', first⟩, s₁, h₁, reading, rest⟩ := bind_eq_ok run
  obtain ⟨_, _, _, room, rest⟩ := bind_eq_ok rest
  cases room
  obtain ⟨made, s₂, h₂, found, rest⟩ := bind_eq_ok rest
  cases result : (Wire.allocate .bundled entries').2 with
  | error e =>
    simp only [result] at found
    cases found
  | ok changed =>
    simp only [result] at found
    cases found
    -- The array is given back as it is if nothing was made, which is what no reading does.
    cases made with
    | true =>
      obtain ⟨⟨entries'', later⟩, _, _, reread, rest⟩ := bind_eq_ok rest
      cases rest
      exact ⟨entries', first, _, _, passes, later, Nat.le_refl passes,
        fun set => by rw [set, Bool.true_or], reading, reread⟩
    | false =>
      cases rest
      exact ⟨entries', _, _, _, 0, false, Nat.zero_le passes, id, reading, rfl⟩

theorem told_again (passes : Nat) (serves : Serves s.handle object o h.state)
    {entries after : List Entry} (told : Told o types entries) {secret : Bool}
    (run : readPasses Token.module object passes entries s h = ((.ok (after, secret), s'), h')) :
    s' = s ∧ Serves s.handle object o h'.state ∧ Told o types after := by
  induction passes using Nat.strong_induction_on generalizing s h s' h' entries secret with
  | h passes ih =>
    cases passes with
    | zero =>
      cases run
      exact ⟨rfl, serves, told⟩
    | succ passes =>
      obtain ⟨_, _, _, _, others, _, fewer, _, reading, rest⟩ := readPasses_succ run
      obtain ⟨rfl, serves', told', _⟩ := told_readAttributes serves told.labels reading
      exact ih others (Nat.lt_succ_of_le fewer) serves' told'.allocate rest

theorem told_readPasses (passes : Nat) (serves : Serves s.handle object o h.state)
    {entries after : List Entry} {secret : Bool}
    (labels : entries.map Entry.label =
      types.map fun type => (type, Registry.bundled.isSensitive type))
    (run : readPasses Token.module object (passes + 1) entries s h =
      ((.ok (after, secret), s'), h')) :
    s' = s ∧ Serves s.handle object o h'.state ∧ Told o types after ∧
      ((∃ type ∈ types, o.verdict type = Return.attributeSensitive) → secret = true) := by
  obtain ⟨_, _, _, _, others, _, _, seen, reading, rest⟩ := readPasses_succ run
  obtain ⟨rfl, serves', told, sensitive⟩ := told_readAttributes serves labels reading
  obtain ⟨same, serves'', told'⟩ := told_again others serves' told.allocate rest
  exact ⟨same, serves'', told', fun some => seen (sensitive.mpr some)⟩

theorem get?_flagSecrets (asked : List Code) (serves : Serves s.handle object o h.state)
    {t r : Template} (run : flagSecrets Token.module object asked t s h = ((.ok r, s'), h')) :
    Attribute.typesOf r.attributes = Attribute.typesOf t.attributes ∧
    ∀ type, r.get? type = (t.get? type).map fun a =>
      if type ∈ asked ∧ o.verdict type = Return.attributeSensitive then a.withSensitive true
      else a := by
  induction asked generalizing s h t with
  | nil =>
    cases run
    exact ⟨rfl, fun type => by simp⟩
  | cons first rest ih =>
    obtain ⟨⟨_, secret⟩, s₁, h₁, reading, others⟩ := bind_eq_ok run
    have labels : (query [first]).map Entry.label =
        [first].map fun type => (type, Registry.bundled.isSensitive type) := rfl
    obtain ⟨rfl, serves', _, sensitive⟩ := told_readAttributes serves labels reading
    obtain ⟨types, found⟩ := ih serves' others
    simp only [List.mem_singleton, exists_eq_left] at sensitive
    cases secret with
    | true =>
      have hidden := sensitive.mp rfl
      refine ⟨types.trans (Template.types_markSensitive t first), fun type => ?_⟩
      simp only [found, ↓reduceIte, Template.get?_markSensitive, Option.map_map]
      congr 1
      funext a
      by_cases here : type = first
      · subst here
        by_cases again : type ∈ rest
        · cases a <;> simp [hidden, again, Attribute.withSensitive]
        · simp [hidden, again]
      · simp [here]
    | false =>
      have shown : ¬ o.verdict first = Return.attributeSensitive := fun hidden =>
        nomatch sensitive.mpr hidden
      refine ⟨types, fun type => ?_⟩
      simp only [found, Bool.false_eq_true, ↓reduceIte]
      congr 1
      funext a
      by_cases here : type = first
      · subst here
        simp [shown]
      · simp [here]

structure Unflagged (o : Object) (types : List Code) (t : Template) : Prop where
  distinct : (Attribute.typesOf t.attributes).Nodup
  absent : ∀ a ∈ t.attributes, a.isPresent = false →
    a = .absent a.type (Registry.bundled.isSensitive a.type) ∧ a.type ∈ types
  lacking : ∀ type ∈ types, o.verdict type ≠ Return.ok →
    t.get? type = some (.absent type (Registry.bundled.isSensitive type))

theorem Unflagged.mem_absent {t : Template} (unflagged : Unflagged o types t) {type : Code}
    {a : Attribute} (found : t.get? type = some a) :
    type ∈ (t.attributes.filter (!·.isPresent)).map (·.type) ↔ a.isPresent = false := by
  obtain ⟨member, rfl⟩ := Template.mem_of_get? found
  constructor
  · intro listed
    obtain ⟨b, there, same⟩ := List.mem_map.mp listed
    obtain ⟨there, missing⟩ := List.mem_filter.mp there
    have other := Template.get?_of_mem unflagged.distinct there
    rw [same, found] at other
    cases other
    simpa using missing
  · intro missing
    exact List.mem_map_of_mem (List.mem_filter.mpr ⟨member, by simp [missing]⟩)

theorem absent_of_told {entries : List Entry} (told : Told o types entries) {e : Entry}
    (there : e ∈ entries) {a : Attribute} (read : e.toAttribute .bundled = .ok a)
    (missing : a.isPresent = false) :
    a = .absent a.type (Registry.bundled.isSensitive a.type) ∧ a.type ∈ types := by
  obtain ⟨typed, present⟩ := toAttribute_eq_ok read
  have silent : e.head.length = none := by
    rw [← Option.not_isSome_iff_eq_none, ← present, missing]
    exact Bool.false_ne_true
  rw [toAttribute_of_absent silent] at read
  cases read
  have label : e.label ∈ entries.map Entry.label := List.mem_map_of_mem there
  rw [told.labels] at label
  obtain ⟨type, asked, same⟩ := List.mem_map.mp label
  have typed : type = e.head.type := congrArg Prod.fst same
  have flag : Registry.bundled.isSensitive type = e.head.sensitive := congrArg Prod.snd same
  rw [typed] at asked flag
  exact ⟨congrArg (Attribute.absent e.head.type) flag.symm, asked⟩

theorem unflagged_of_told {entries : List Entry} (told : Told o types entries) {t : Template}
    (read : Template.ofArray entries = .ok t) : Unflagged o types t := by
  obtain ⟨as, decoded, rfl⟩ := Result.map_eq_ok.mp read
  have typed := typesOf_toAttributes decoded
  rw [typesOf_labels told.labels] at typed
  have collected := typesOf_collect as
  have distinct := nodup_collect as
  have origin : ∀ a ∈ (collect as).attributes, ∃ e ∈ entries, e.toAttribute .bundled = .ok a :=
    fun a member => mem_toAttributes decoded (mem_collect member)
  refine ⟨distinct, ?_, ?_⟩
  · intro a member missing
    obtain ⟨e, there, reads⟩ := origin a member
    exact absent_of_told told there reads missing
  · intro type asked bad
    have kept : type ∈ Attribute.typesOf (collect as).attributes := by
      rw [collected, List.mem_eraseDups, typed]
      exact asked
    obtain ⟨a, member, rfl⟩ := List.mem_map.mp kept
    obtain ⟨e, there, reads⟩ := origin a member
    obtain ⟨same, present⟩ := toAttribute_eq_ok reads
    have missing : a.isPresent = false := by
      rw [present, told.silent e there (same ▸ bad)]
      rfl
    rw [Template.get?_of_mem distinct member]
    exact congrArg some (absent_of_told told there reads missing).1

/-- Asked for the attribute alone, the token answers that it is sensitive. -/
def Withholds (t : Token) (session object : Handle) (type : Code) : Prop :=
  (t.answer (.getAttributeValue session object (query [type]))).1.result =
    .error (.returned Return.attributeSensitive)

theorem withholds_iff {t : Token} {session : Handle} (serves : Serves session object o t)
    (type : Code) :
    t.Withholds session object type ↔ o.verdict type = Return.attributeSensitive := by
  rw [Withholds, answer_reading serves, result_eq_sensitive]
  simp [query, Entry.blank, Entry.head]

/-- The attributes that were got, as they were decoded: those of absent types that the token
withholds are flagged besides. -/
theorem getAttributes_flags (serves : Serves s.handle object o h.state) {r : Template}
    (run : Session.getAttributes Token.module object types s h = ((.ok r, s'), h')) :
    ∃ t, Unflagged o types t ∧
      Attribute.typesOf r.attributes = Attribute.typesOf t.attributes ∧
      ∀ type, r.get? type = (t.get? type).map fun a =>
        if a.isPresent = false ∧ o.verdict type = Return.attributeSensitive
        then a.withSensitive true else a := by
  obtain ⟨⟨entries, secret⟩, s₁, h₁, passes, rest⟩ := bind_eq_ok run
  have labels : (query types).map Entry.label =
      types.map fun type => (type, Registry.bundled.isSensitive type) := List.map_map
  obtain ⟨rfl, serves', told, seen⟩ := told_readPasses 2 serves labels passes
  obtain ⟨t, s₂, h₂, found, rest⟩ := bind_eq_ok rest
  cases read : Template.ofArray entries with
  | error e =>
    rw [read] at found
    cases found
  | ok decoded =>
    rw [read] at found
    cases found
    have unflagged := unflagged_of_told told read
    refine ⟨t, unflagged, ?_⟩
    cases secret with
    | true =>
      obtain ⟨types, flags⟩ := get?_flagSecrets _ serves' rest
      refine ⟨types, fun type => (flags type).trans ?_⟩
      refine Option.map_congr fun a found => ?_
      simp only [unflagged.mem_absent found]
    | false =>
      cases rest
      refine ⟨rfl, fun type => ?_⟩
      cases found : r.get? type with
      | none => rfl
      | some a =>
        obtain ⟨member, rfl⟩ := Template.mem_of_get? found
        -- Absent attributes were asked for, and the readings would have spoken of a secret.
        refine congrArg some (if_neg fun withheld => Bool.false_ne_true ?_).symm
        exact seen ⟨a.type, (unflagged.absent a member withheld.1).2, withheld.2⟩

structure Flagged (o : Object) (types : List Code) (r : Template) : Prop where
  asked : ∀ a ∈ r.attributes, a.isPresent = false → a.type ∈ types
  flag : ∀ a ∈ r.attributes, a.isPresent = false → (a.isSensitive = true ↔
    o.verdict a.type = Return.attributeSensitive ∨ Registry.bundled.isSensitive a.type = true)
  missing : ∀ type ∈ types, o.verdict type = Return.attributeTypeInvalid →
    r.get? type = some (.absent type (Registry.bundled.isSensitive type))
  withheld : ∀ type ∈ types, o.verdict type = Return.attributeSensitive →
    r.get? type = some (.absent type true)

theorem flagged_of_getAttributes (serves : Serves s.handle object o h.state) {r : Template}
    (run : Session.getAttributes Token.module object types s h = ((.ok r, s'), h')) :
    Flagged o types r := by
  obtain ⟨t, unflagged, kept, flags⟩ := getAttributes_flags serves run
  have distinct : (Attribute.typesOf r.attributes).Nodup := kept ▸ unflagged.distinct
  have origin : ∀ a ∈ r.attributes, a.isPresent = false → a.type ∈ types ∧
      a = if o.verdict a.type = Return.attributeSensitive then .absent a.type true
        else .absent a.type (Registry.bundled.isSensitive a.type) := by
    intro a member missing
    have found := flags a.type
    rw [Template.get?_of_mem distinct member] at found
    obtain ⟨b, there, same⟩ := Option.map_eq_some_iff.mp found.symm
    have absent : b.isPresent = false := by
      rw [← missing, ← same]
      split
      · exact (b.isPresent_withSensitive true).symm
      · rfl
    obtain ⟨member', typed⟩ := Template.mem_of_get? there
    obtain ⟨plain, asked⟩ := unflagged.absent b member' absent
    rw [typed] at plain asked
    refine ⟨asked, same.symm.trans ?_⟩
    simp only [absent, true_and]
    rw [plain]
    rfl
  refine ⟨fun a member missing => (origin a member missing).1, ?_, ?_, ?_⟩
  · intro a member missing
    rw [(origin a member missing).2]
    split
    · rename_i withheld
      exact iff_of_true rfl (.inl withheld)
    · rename_i shown
      exact (or_iff_right shown).symm
  · intro type asked invalid
    rw [flags, unflagged.lacking type asked (by rw [invalid]; decide), invalid]
    rfl
  · intro type asked withheld
    rw [flags, unflagged.lacking type asked (by rw [withheld]; decide), withheld]
    rfl

theorem verdict_of_not_readable {type : Code} (has : o.value? type ≠ none)
    (hidden : ¬ o.Readable type) : o.verdict type = Return.attributeSensitive := by
  unfold Object.Readable at hidden
  unfold Object.verdict
  cases value : o.value? type with
  | none => exact absurd value has
  | some v =>
    cases v with
    | secret b => rfl
    | bytes b => exact absurd (.inl ⟨b, value⟩) hidden
    | nested members => exact absurd (.inr ⟨members, value⟩) hidden

theorem readsAs_of_getAttributes (flat : o.Flat) (serves : Serves s.handle object o h.state)
    {r : Template}
    (run : Session.getAttributes Token.module object types s h = ((.ok r, s'), h')) :
    o.ReadsAs types r := by
  have read := Session.getAttributes_faithful (forthcoming flat s.handle object).toFaithful serves
    (Object.fits_stored flat) run
  exact readsAs_of_reading (readingTo_stored o types ▸ read)

/-- Each absent attribute is flagged just when the token withholds it. -/
def ToldApart (t : Token) (session object : Handle) (r : Template) : Prop :=
  ∀ a ∈ r.attributes, a.isPresent = false →
    (a.isSensitive = true ↔ t.Withholds session object a.type)

/-- An absent attribute of a reading is flagged just when the token withholds it or its type is
sensitive in the registry. What the object does not have is therefore absent with the flag of its
type, and what is withheld is absent and flagged, in every mix of types asked for. The flag tells
the two apart just when the object has all that was asked for of the sensitive types. -/
theorem flagged_iff_withheld_or_registered {t : Token} {s : Session}
    (serves : Serves s.handle object o t) (journal : Journal) {r : Template}
    (done : (Session.getAttributes Token.module object types s ⟨t, journal⟩).1.1 = .ok r) :
    (∀ a ∈ r.attributes, a.isPresent = false →
      (a.isSensitive = true ↔
        t.Withholds s.handle object a.type ∨ Registry.bundled.isSensitive a.type = true)) ∧
    (∀ type ∈ types, o.value? type = none →
      r.get? type = some (.absent type (Registry.bundled.isSensitive type))) ∧
    (∀ type ∈ types, t.Withholds s.handle object type →
      r.get? type = some (.absent type true)) ∧
    (o.Flat → (t.ToldApart s.handle object r ↔
      ∀ type ∈ types, Registry.bundled.isSensitive type = true → o.value? type ≠ none)) := by
  rcases run : Session.getAttributes Token.module object types s ⟨t, journal⟩ with
    ⟨⟨_, s'⟩, h'⟩
  rw [run] at done
  cases done
  have flagged := flagged_of_getAttributes serves run
  have invalid : ∀ type, o.value? type = none → o.verdict type = Return.attributeTypeInvalid := by
    intro type missing
    rw [Object.verdict, missing]
  unfold ToldApart
  simp only [withholds_iff serves]
  refine ⟨flagged.flag, fun type asked missing => flagged.missing type asked (invalid type missing),
    flagged.withheld, fun flat => ⟨?_, ?_⟩⟩
  · intro apart type asked registered missing
    have found := flagged.missing type asked (invalid type missing)
    rw [registered] at found
    have withheld := (apart _ (Template.mem_of_get? found).1 rfl).mp rfl
    exact absurd ((invalid type missing).symm.trans withheld) (by decide)
  · intro has a member missing
    rw [flagged.flag a member missing]
    refine or_iff_left_of_imp fun registered => ?_
    refine verdict_of_not_readable (has a.type (flagged.asked a member missing) registered) ?_
    rw [← (readsAs_of_getAttributes flat serves run).present a member, missing]
    exact Bool.false_ne_true

def mixedAnswer : Template :=
  ⟨[.absent 0x11 true, .absent 0x123 true, .absent 0x9000 false, .scalar 0x102 false (.bytes [7])]⟩

/-- A secret is asked for together with what the key lacks, of a sensitive type and of another. -/
theorem flagged_iff_withheld_or_registered_mixed :
    Serves 1 1 wrappingKey wrappingToken ∧
    (Session.getAttributes Token.module 1 [0x11, 0x123, 0x9000, 0x102]
      ⟨1, 1, fun _ => .idle⟩ ⟨wrappingToken, []⟩).1.1 = .ok mixedAnswer ∧
    wrappingToken.Withholds 1 1 0x11 ∧
    (wrappingToken.ToldApart 1 1 mixedAnswer ↔
      ∀ type ∈ ([0x11, 0x123, 0x9000, 0x102] : List Code),
        Registry.bundled.isSensitive type = true → wrappingKey.value? type ≠ none) := by
  have run : (Session.getAttributes Token.module 1 [0x11, 0x123, 0x9000, 0x102]
      ⟨1, 1, fun _ => .idle⟩ ⟨wrappingToken, []⟩).1.1 = .ok mixedAnswer := by rfl
  have told := flagged_iff_withheld_or_registered wrappingToken_serves [] run
  exact ⟨wrappingToken_serves, run, rfl, told.2.2.2 wrappingKey_flat⟩

/-- An attribute of a sensitive type is flagged though the key lacks it and nothing is withheld. -/
theorem missing_flagged_as_withheld :
    (Session.getAttributes Token.module 1 [0x123] ⟨1, 1, fun _ => .idle⟩
      ⟨wrappingToken, []⟩).1.1 = .ok ⟨[.absent 0x123 true]⟩ ∧
    wrappingKey.value? 0x123 = none ∧ ¬ wrappingToken.Withholds 1 1 0x123 := by
  refine ⟨rfl, rfl, ?_⟩
  rw [withholds_iff wrappingToken_serves]
  decide

end Token

end Cryptoki
