import Cryptoki.Proofs.Sorted
import Cryptoki.Vendor.Definitions
import Mathlib.Data.List.Nodup

/-!
What becomes of configured names. Each family is a list of names with codes in the order of the
names. A name whose code a smaller name has is dropped with a note; the others are kept, so that
names and codes determine each other. The kinds of attributes are sorted apart from the names,
and still belong to the names that are kept.
-/
namespace Cryptoki.Vendor

def Preceded (l : List (String × Code)) (e : String × Code) : Prop :=
  ∃ e' ∈ l, e'.1 < e.1 ∧ e'.2 = e.2

instance (l : List (String × Code)) (e : String × Code) : Decidable (Preceded l e) :=
  inferInstanceAs (Decidable (∃ e' ∈ l, e'.1 < e.1 ∧ e'.2 = e.2))

def kept (l : List (String × Code)) : List (String × Code) := l.filter fun e => ¬Preceded l e

def dropped (l : List (String × Code)) : List (String × Code) := l.filter fun e => Preceded l e

theorem ordered_codes (c : Config) (f : Family) : Ordered (c.codes f) := by
  cases f with
  | attributes => exact List.pairwise_map.mpr c.attributes.ordered
  | mechanisms => exact c.mechanisms.ordered
  | objectClasses => exact c.objectClasses.ordered
  | keyTypes => exact c.keyTypes.ordered

theorem eq_of_same_name {l : List (String × α)} (ordered : Ordered l) :
    ∀ e ∈ l, ∀ e' ∈ l, e.1 = e'.1 → e = e' := by
  have distinct : (l.map Prod.fst).Nodup :=
    List.pairwise_map.mpr (ordered.imp fun before => String.ne_of_lt before)
  intro e listed e' listed' same
  exact List.inj_on_of_nodup_map distinct listed listed' same

theorem find?_eq_some_iff_smallest {l : List (String × α)} (ordered : Ordered l)
    {p : String × α → Bool} {e : String × α} :
    l.find? p = some e ↔ e ∈ l ∧ p e ∧ ∀ e' ∈ l, e'.1 < e.1 → ¬p e' := by
  induction l with
  | nil => simp
  | cons first rest ih =>
    obtain ⟨least, others⟩ := List.pairwise_cons.mp ordered
    rw [List.find?_cons]
    split
    · rename_i passes
      constructor
      · rintro ⟨⟩
        refine ⟨List.mem_cons_self, passes, fun e' listed smaller => ?_⟩
        rcases List.mem_cons.mp listed with rfl | listed
        · exact absurd smaller (String.lt_irrefl _)
        · exact absurd smaller (String.lt_asymm (least e' listed))
      · rintro ⟨listed, _, smallest⟩
        rcases List.mem_cons.mp listed with rfl | listed
        · rfl
        · exact absurd passes (smallest first List.mem_cons_self (least e listed))
    · rw [ih others]
      grind

theorem insert?_eq {t : NameTable} {e : String × Code} (fresh : ∀ e' ∈ t, e'.1 ≠ e.1) :
    t.insert? e.1 e.2 = if ∃ e' ∈ t, e'.2 = e.2 then none else some (t ++ [e]) := by
  have occupied : (t.any fun e' => e'.1 == e.1 || e'.2 == e.2) = true ↔ ∃ e' ∈ t, e'.2 = e.2 := by
    simp only [List.any_eq_true, Bool.or_eq_true, beq_iff_eq]
    grind
  simp only [NameTable.insert?, occupied]

theorem preceded_iff {before after : List (String × Code)} {e : String × Code}
    (ordered : Ordered (before ++ e :: after)) :
    Preceded (before ++ e :: after) e ↔ ∃ e' ∈ before, e'.2 = e.2 := by
  obtain ⟨_, behind, across⟩ := List.pairwise_append.mp ordered
  obtain ⟨least, _⟩ := List.pairwise_cons.mp behind
  constructor
  · rintro ⟨e', listed, smaller, same⟩
    rcases List.mem_append.mp listed with listed | listed
    · exact ⟨e', listed, same⟩
    · rcases List.mem_cons.mp listed with rfl | listed
      · exact absurd smaller (String.lt_irrefl _)
      · exact absurd smaller (String.lt_asymm (least e' listed))
  · rintro ⟨e', listed, same⟩
    exact ⟨e', List.mem_append_left _ listed, across e' listed e List.mem_cons_self, same⟩

theorem fill_eq {all : List (String × Code)} (ordered : Ordered all)
    {rest : List (String × Code)} {t : NameTable} {before : List (String × Code)}
    (parts : all = before ++ rest) (some_of : ∀ e ∈ t, e ∈ before)
    (codes : ∀ e ∈ before, ∃ e' ∈ t, e'.2 = e.2) :
    t.fill rest = (t ++ rest.filter fun e => ¬Preceded all e,
      (rest.filter fun e => Preceded all e).map fun e => duplicateNote e.1 e.2) := by
  induction rest generalizing t before with
  | nil => simp [NameTable.fill]
  | cons e rest ih =>
    have parts' : all = (before ++ [e]) ++ rest := by simp [parts]
    have fresh : ∀ e' ∈ t, e'.1 ≠ e.1 := by
      intro e' listed
      rw [parts] at ordered
      exact String.ne_of_lt
        ((List.pairwise_append.mp ordered).2.2 e' (some_of e' listed) e List.mem_cons_self)
    have taken : (∃ e' ∈ t, e'.2 = e.2) ↔ Preceded all e := by
      rw [parts, preceded_iff (parts ▸ ordered)]
      constructor
      · rintro ⟨e', listed, same⟩
        exact ⟨e', some_of e' listed, same⟩
      · rintro ⟨e', listed, same⟩
        obtain ⟨e'', listed', same'⟩ := codes e' listed
        exact ⟨e'', listed', same'.trans same⟩
    simp only [NameTable.fill, insert?_eq fresh]
    -- Either way the codes up to here are in the table, which is what the rest goes by.
    by_cases preceded : Preceded all e
    · have same := taken.mpr preceded
      have rest_eq := ih (t := t) parts'
        (fun e' listed => List.mem_append_left _ (some_of e' listed))
        (List.forall_mem_append.mpr ⟨codes, List.forall_mem_singleton.mpr same⟩)
      simp [same, preceded, rest_eq]
    · have codes' : ∀ e' ∈ before, ∃ e'' ∈ t ++ [e], e''.2 = e'.2 := by
        intro e' listed
        obtain ⟨e'', listed', same⟩ := codes e' listed
        exact ⟨e'', List.mem_append_left _ listed', same⟩
      have rest_eq := ih (t := t ++ [e]) parts' (by grind)
        (List.forall_mem_append.mpr ⟨codes', List.forall_mem_singleton.mpr ⟨e, by simp, rfl⟩⟩)
      simp [mt taken.mp preceded, preceded, rest_eq]

theorem fill_empty {l : List (String × Code)} (ordered : Ordered l) :
    NameTable.fill [] l = (kept l, (dropped l).map fun e => duplicateNote e.1 e.2) :=
  fill_eq ordered (List.nil_append l).symm (by simp) (by simp)

theorem table_ofConfig (c : Config) (f : Family) :
    (Definitions.ofConfig c).table f = kept (c.codes f) := by
  cases f <;> exact congrArg Prod.fst (fill_empty (ordered_codes c _))

theorem notes_ofConfig (c : Config) :
    (Definitions.ofConfigNoted c).2 =
      [Family.mechanisms, .attributes, .objectClasses, .keyTypes].flatMap fun f =>
        (dropped (c.codes f)).map fun e => duplicateNote e.1 e.2 := by
  simp [Definitions.ofConfigNoted, fill_empty (ordered_codes c _)]

variable {c : Config} {f : Family} {name : String} {code : Code}

theorem mem_kept {l : List (String × Code)} {e : String × Code} :
    e ∈ kept l ↔ e ∈ l ∧ ¬Preceded l e := by
  simp [kept]

theorem eq_of_same_code {l : List (String × Code)} (ordered : Ordered l) :
    ∀ e ∈ kept l, ∀ e' ∈ kept l, e.2 = e'.2 → e = e' := by
  intro e stays e' stays' same
  obtain ⟨listed, first⟩ := mem_kept.mp stays
  obtain ⟨listed', first'⟩ := mem_kept.mp stays'
  refine eq_of_same_name ordered e listed e' listed' (String.le_antisymm ?_ ?_)
  · exact String.not_lt.mp fun greater => first ⟨e', listed', greater, same.symm⟩
  · exact String.not_lt.mp fun smaller => first' ⟨e, listed, smaller, same⟩

theorem code?_ofConfig :
    (Definitions.ofConfig c).code? f name = some code ↔ (name, code) ∈ kept (c.codes f) := by
  have ordered : Ordered (kept (c.codes f)) := (ordered_codes c f).filter _
  rw [Definitions.code?, table_ofConfig, NameTable.code?, Option.map_eq_some_iff]
  simp [find?_key_eq_some_iff (eq_of_same_name ordered)]

theorem name?_ofConfig :
    (Definitions.ofConfig c).name? f code = some name ↔ (name, code) ∈ kept (c.codes f) := by
  rw [Definitions.name?, table_ofConfig, NameTable.name?, Option.map_eq_some_iff]
  simp [find?_key_eq_some_iff (eq_of_same_code (ordered_codes c f))]

theorem attributeKind?_eq (c : Config) (code : Code) :
    (Definitions.ofConfig c).attributeKind? code =
      (c.attributes.entries.find? (·.2.code == code)).map (·.2.kind) := by
  have strict : c.attributeKinds.Pairwise (·.1 < ·.1) :=
    strict_dropRepeats (ordered_sortByCode _)
  have kinds : (Definitions.ofConfig c).attributeKinds = c.attributeKinds := rfl
  rw [Definitions.attributeKind?, kinds, bisect_eq_find? strict, Config.attributeKinds,
    find?_dropRepeats, find?_sortByCode, List.find?_map, Option.map_map]
  rfl

theorem first_attribute_iff {name : String} {a : AttributeDefinition} :
    c.attributes.entries.find? (·.2.code == code) = some (name, a) ↔
      (name, a) ∈ c.attributes.entries ∧ a.code = code ∧
        (name, code) ∈ kept (c.codes .attributes) := by
  rw [find?_eq_some_iff_smallest c.attributes.ordered, mem_kept]
  refine and_congr_right fun listed => ?_
  simp only [beq_iff_eq]
  refine and_congr_right fun own => ?_
  constructor
  · intro smallest
    refine ⟨List.mem_map.mpr ⟨(name, a), listed, by rw [own]⟩, ?_⟩
    rintro ⟨_, configured, smaller, same⟩
    obtain ⟨e, listed', rfl⟩ := List.mem_map.mp configured
    exact smallest e listed' smaller same
  · rintro ⟨_, first⟩ e listed' smaller same
    exact first ⟨(e.1, e.2.code), List.mem_map.mpr ⟨e, listed', rfl⟩, smaller, same⟩

theorem attribute_of_kept (stays : (name, code) ∈ kept (c.codes .attributes)) :
    ∃ a, c.attributes.get? name = some a ∧ a.code = code ∧
      (Definitions.ofConfig c).attributeKind? code = some a.kind := by
  obtain ⟨⟨_, a⟩, listed, same⟩ := List.mem_map.mp (mem_kept.mp stays).1
  cases same
  refine ⟨a, ?_, rfl, ?_⟩
  · have unique := eq_of_same_name c.attributes.ordered
    exact Option.map_eq_some_iff.mpr ⟨_, (find?_key_eq_some_iff unique).mpr ⟨listed, rfl⟩, rfl⟩
  · rw [attributeKind?_eq, first_attribute_iff.mpr ⟨listed, rfl, stays⟩]
    rfl

theorem hasKind_iff_hasName (c : Config) (code : Code) :
    ((Definitions.ofConfig c).attributeKind? code).isSome ↔
      ((Definitions.ofConfig c).name? .attributes code).isSome := by
  simp only [Option.isSome_iff_exists]
  constructor
  · rintro ⟨kind, found⟩
    rw [attributeKind?_eq] at found
    obtain ⟨e, first, _⟩ := Option.map_eq_some_iff.mp found
    exact ⟨e.1, name?_ofConfig.mpr (first_attribute_iff.mp first).2.2⟩
  · rintro ⟨name, found⟩
    obtain ⟨a, _, _, kind⟩ := attribute_of_kept (name?_ofConfig.mp found)
    exact ⟨a.kind, kind⟩

/-- What definitions and notes make of a configuration. -/
structure Consistent (c : Config) (d : Definitions) (notes : Journal) : Prop where
  inverse : ∀ f name code, d.code? f name = some code ↔ d.name? f code = some name
  /-- A configured name is kept, with its code, unless a smaller name has the code. -/
  first : ∀ f name code, d.code? f name = some code ↔
    (name, code) ∈ c.codes f ∧ ¬Preceded (c.codes f) (name, code)
  /-- One note for each name that is dropped, family by family. -/
  noted : notes = [Family.mechanisms, .attributes, .objectClasses, .keyTypes].flatMap fun f =>
    (dropped (c.codes f)).map fun e => duplicateNote e.1 e.2
  kinds : ∀ code, (d.attributeKind? code).isSome ↔ (d.name? .attributes code).isSome
  own_kind : ∀ code name, d.name? .attributes code = some name →
    ∃ a, c.attributes.get? name = some a ∧ a.code = code ∧ d.attributeKind? code = some a.kind

/-- The look-ups of names, of codes and of kinds agree, whatever was configured. -/
theorem lookups_agree (c : Config) :
    Consistent c (Definitions.ofConfigNoted c).1 (Definitions.ofConfigNoted c).2 where
  inverse _ _ _ := code?_ofConfig.trans name?_ofConfig.symm
  first _ _ _ := code?_ofConfig.trans mem_kept
  noted := notes_ofConfig c
  kinds code := hasKind_iff_hasName c code
  own_kind _ _ found := attribute_of_kept (name?_ofConfig.mp found)

end Cryptoki.Vendor
