import Cryptoki.Proofs.Token.Reading

/-!
What a reading of the token in memory gives: just what the object has for the types asked for, as
the registry decodes it.
-/
namespace Cryptoki

open Wire

namespace Token

def decoded (type : Code) (b : Bytes) : Result Attribute :=
  Attribute.bare <$> Attribute.decode .bundled type b

namespace Object

/-- The attribute that the object has for the type, flags aside. Members of a template are inserted
in the order in which they are stored. -/
def attributeOf (o : Object) (type : Code) : Result Attribute :=
  match o.value? type with
  | none | some (.secret _) => .ok (.absent type false)
  | some (.bytes b) => decoded type b
  | some (.nested members) => do
    let as ← members.mapM fun m => decoded m.1 m.2
    return .template type false (collect as).attributes

/-- The object has a value for the type that is no secret. -/
def Readable (o : Object) (type : Code) : Prop :=
  (∃ b, o.value? type = some (.bytes b)) ∨ ∃ members, o.value? type = some (.nested members)

/-- What can be read for the type decodes under the registered kind, and so does each member. -/
structure Decodes (o : Object) (type : Code) : Prop where
  bytes : ∀ b, o.value? type = some (.bytes b) →
    ∃ v, Scalar.decode (Registry.bundled.kind type) b = .ok v
  members : ∀ members, o.value? type = some (.nested members) → ∀ m ∈ members,
    ∃ v, Scalar.decode (Registry.bundled.kind m.1) m.2 = .ok v

/-- The template has each type that was asked for once, in the order in which they were first asked
for. What is readable is present, with the value that the object has. -/
structure ReadsAs (o : Object) (types : List Code) (t : Template) : Prop where
  types : t.types = types.eraseDups
  present : ∀ a ∈ t.attributes, a.isPresent = true ↔ o.Readable a.type
  value : ∀ a ∈ t.attributes, o.attributeOf a.type = .ok a.bare

end Object

theorem decoded_eq (type : Code) (b : Bytes) :
    decoded type b = .scalar type false <$> Scalar.decode (Registry.bundled.kind type) b := by
  unfold decoded Attribute.decode
  cases Scalar.decode (Registry.bundled.kind type) b <;> rfl

theorem readAll_members (members : List (Code × Bytes)) :
    Stored.readAll .bundled (members.map fun m => .bytes m.1 m.2) =
      members.mapM fun m => decoded m.1 m.2 := by
  induction members with
  | nil => rfl
  | cons m rest ih =>
    rw [List.map_cons, Stored.readAll, ih, List.mapM_cons, decoded_eq, Stored.read]

variable {o : Object}

theorem read_stored (o : Object) (type : Code) :
    (o.stored.value type).read .bundled = o.attributeOf type := by
  unfold Object.attributeOf
  split
  · rename_i lacks
    rw [Object.value_stored_of_none lacks]
    rfl
  · rename_i has
    rw [Object.value_stored_of_some has]
    rfl
  · rename_i has
    rw [Object.value_stored_of_some has, decoded_eq]
    rfl
  · rename_i has
    rw [Object.value_stored_of_some has, ← readAll_members]
    rfl

theorem read_bytes_succeeds_iff {type : Code} {b : Bytes} :
    (∃ a, (Stored.bytes type b).read .bundled = .ok a) ↔
      ∃ v, Scalar.decode (Registry.bundled.kind type) b = .ok v := by
  rw [Stored.read]
  cases Scalar.decode (Registry.bundled.kind type) b <;> simp

theorem read_members_succeeds_iff {type : Code} {members : List (Code × Bytes)} :
    (∃ a, ((Value.nested members).stored type).read .bundled = .ok a) ↔
      ∀ m ∈ members, ∃ v, Scalar.decode (Registry.bundled.kind m.1) m.2 = .ok v := by
  have whole : (∃ a, ((Value.nested members).stored type).read .bundled = .ok a) ↔
      ∃ as, Stored.readAll .bundled (members.map fun m => .bytes m.1 m.2) = .ok as := by
    rw [Value.stored, Stored.read]
    cases Stored.readAll .bundled (members.map fun m => .bytes m.1 m.2) <;> simp
  rw [whole, Stored.readAll_succeeds_iff, List.forall_mem_map]
  exact forall₂_congr fun m _ => read_bytes_succeeds_iff

theorem read_succeeds_iff {type : Code} :
    (∃ a, (o.stored.value type).read .bundled = .ok a) ↔ o.Decodes type := by
  constructor
  · intro succeeds
    constructor
    · intro b has
      rw [Object.value_stored_of_some has] at succeeds
      exact read_bytes_succeeds_iff.mp succeeds
    · intro members has
      rw [Object.value_stored_of_some has] at succeeds
      exact read_members_succeeds_iff.mp succeeds
  · intro decodes
    cases has : o.value? type with
    | none => exact ⟨_, by rw [Object.value_stored_of_none has]; rfl⟩
    | some v =>
      rw [Object.value_stored_of_some has]
      cases v with
      | secret b => exact ⟨_, rfl⟩
      | bytes b => exact read_bytes_succeeds_iff.mpr (decodes.bytes b has)
      | nested members => exact read_members_succeeds_iff.mpr (decodes.members members has)

theorem isPresent_of_attributeOf {type : Code} {a : Attribute} (read : o.attributeOf type = .ok a) :
    a.isPresent = true ↔ o.Readable type := by
  unfold Object.attributeOf at read
  unfold Object.Readable
  split at read
  · rename_i lacks
    cases read
    simp [lacks, Attribute.isPresent]
  · rename_i has
    cases read
    simp [has, Attribute.isPresent]
  · rename_i has
    rw [decoded_eq] at read
    obtain ⟨v, _, rfl⟩ := Result.map_eq_ok.mp read
    simp [has, Attribute.isPresent]
  · rename_i has
    obtain ⟨as, _, last⟩ := Result.bind_eq_ok.mp read
    cases last
    simp [has, Attribute.isPresent]

theorem isPresent_bare (a : Attribute) : a.bare.isPresent = a.isPresent := by
  cases a <;> rfl

theorem readingTo_stored (o : Object) (types : List Code) :
    o.stored.readingTo 2 .bundled types = o.stored.reading .bundled types := by
  have whole : (types.map fun type => (o.stored.value type).seen 2) = types.map o.stored.value := by
    refine List.map_congr_left fun type _ => Stored.seen_of_not_reaches ?_
    cases has : o.value? type with
    | none =>
      rw [Object.value_stored_of_none has]
      rfl
    | some v =>
      rw [Object.value_stored_of_some has]
      exact Value.stored_not_reaches type v
  rw [StoredObject.readingTo, whole, StoredObject.reading]

theorem reading_succeeds_iff {types : List Code} :
    (∃ t, o.stored.reading .bundled types = .ok t) ↔ ∀ type ∈ types, o.Decodes type := by
  have collected : (∃ t, o.stored.reading .bundled types = .ok t) ↔
      ∃ as, Stored.readAll .bundled (types.map o.stored.value) = .ok as := by
    unfold StoredObject.reading
    cases Stored.readAll .bundled (types.map o.stored.value) <;> simp
  rw [collected, Stored.readAll_succeeds_iff, List.forall_mem_map]
  exact forall₂_congr fun type _ => read_succeeds_iff

theorem readsAs_of_reading {types : List Code} {t : Template}
    (read : o.stored.reading .bundled types = .ok t.bare) : o.ReadsAs types t := by
  obtain ⟨as, done, collected⟩ := Result.map_eq_ok.mp read
  have value : ∀ a ∈ t.attributes, o.attributeOf a.type = .ok a.bare := by
    intro a member
    -- Flags are set after the reading, so the attribute is found among what was read without them.
    have bare : a.bare ∈ (collect as).attributes := by
      rw [collected]
      exact List.mem_map_of_mem member
    obtain ⟨v, there, here⟩ := Stored.mem_readAll done (mem_collect bare)
    obtain ⟨type, _, rfl⟩ := List.mem_map.mp there
    have same : a.type = type := by
      rw [← a.bare_type, Stored.type_of_read here, StoredObject.value_type]
    rw [same, ← read_stored]
    exact here
  refine ⟨?_, fun a member => ?_, value⟩
  · have typed := typesOf_collect as
    rw [Stored.typesOf_readAll done, StoredObject.types_values, collected] at typed
    rw [← typed, Template.types, Template.bare, Attribute.typesOf, List.map_map]
    exact (List.map_congr_left fun a _ => a.bare_type).symm
  · rw [← isPresent_bare, isPresent_of_attributeOf (value a member)]

/-- In an open session, with no failure to come, attributes of an object are read just when what
is readable of them decodes, and they are read as the object has them. -/
theorem getAttributes_exact {o : Object} (flat : o.Flat) {t : Token} {s : Session} {object : Handle}
    (serves : Serves s.handle object o t) (journal : Journal) (types : List Code) :
    ((∃ r, (Session.getAttributes Token.module object types s ⟨t, journal⟩).1.1 = .ok r) ↔
      ∀ type ∈ types, o.Decodes type) ∧
    ∀ r, (Session.getAttributes Token.module object types s ⟨t, journal⟩).1.1 = .ok r →
      o.ReadsAs types r := by
  have whole := readingTo_stored o types
  have forthcoming := forthcoming flat s.handle object
  have fits := Object.fits_stored flat
  constructor
  · rw [Session.getAttributes_succeeds_iff forthcoming serves fits types, whole,
      reading_succeeds_iff]
  · intro r done
    rcases run : Session.getAttributes Token.module object types s ⟨t, journal⟩ with ⟨⟨x, s'⟩, h'⟩
    rw [run] at done
    cases done
    have read := Session.getAttributes_faithful forthcoming.toFaithful serves fits run
    exact readsAs_of_reading (whole ▸ read)

def wrappingKey : Object :=
  [(0x102, .bytes [7]), (0x11, .secret [1, 2, 3]),
    (0x40000211, .nested [(0x102, [1]), (0x162, [1]), (0x102, [2, 3])])]

theorem wrappingKey_flat : wrappingKey.Flat := by
  intro e member
  simp only [wrappingKey, List.mem_cons, List.not_mem_nil, or_false] at member
  rcases member with rfl | rfl | rfl
  · exact ⟨by decide, by decide⟩
  · trivial
  · exact ⟨by decide, by decide, by decide⟩

def wrappingToken : Token :=
  { new with sessions := [1], objects := Table.empty.insert 1 wrappingKey }

theorem wrappingToken_serves : Serves 1 1 wrappingKey wrappingToken :=
  ⟨List.mem_singleton.mpr rfl, rfl, rfl⟩

def wrappingAnswer : Template :=
  ⟨[.template 0x40000211 false
      [.scalar 0x102 false (.bytes [2, 3]), .scalar 0x162 false (.bool true)],
    .absent 0x11 true, .scalar 0x102 false (.bytes [7]), .absent 0x9000 false]⟩

/-- Of the two members of one type the later is in the place of the earlier. -/
theorem getAttributes_exact_wrappingKey :
    (Session.getAttributes Token.module 1 [0x40000211, 0x11, 0x102, 0x40000211, 0x9000]
      ⟨1, 1, fun _ => .idle⟩ ⟨wrappingToken, []⟩).1.1 = .ok wrappingAnswer ∧
    wrappingKey.ReadsAs [0x40000211, 0x11, 0x102, 0x40000211, 0x9000] wrappingAnswer := by
  have run : (Session.getAttributes Token.module 1 [0x40000211, 0x11, 0x102, 0x40000211, 0x9000]
      ⟨1, 1, fun _ => .idle⟩ ⟨wrappingToken, []⟩).1.1 = .ok wrappingAnswer := by rfl
  exact ⟨run, (getAttributes_exact wrappingKey_flat wrappingToken_serves [] _).2 _ run⟩

end Token

end Cryptoki
