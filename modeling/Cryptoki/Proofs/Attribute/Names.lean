import Cryptoki.Attribute.Registry
import Cryptoki.Proofs.Result
import Cryptoki.Proofs.Vendor.Definitions
import Cryptoki.Vendor.Source

/-!
Names of attribute types, and what they resolve to. Standard types and vendor types have no code
in common, since configurations with a standard code are refused. They can have names in common,
and then the name means the standard type.
-/
namespace Cryptoki

variable {code : Code} {name : String} {row : AttributeRow}

theorem standard_ordered : standardAttributes.Pairwise (·.code < ·.code) := by decide

theorem standard_names_distinct : (standardAttributes.map (·.name)).Nodup := by
  decide +kernel

theorem standard_not_vendor :
    ∀ row ∈ standardAttributes, Vendor.inVendorRange row.code = false := by
  decide

theorem standardByCode?_eq_some_iff :
    standardByCode? code = some row ↔ row ∈ standardAttributes ∧ row.code = code := by
  have distinct : (standardAttributes.map (·.code)).Nodup :=
    List.pairwise_map.mpr (standard_ordered.imp UInt64.ne_of_lt)
  rw [standardByCode?, bisect_eq_find? standard_ordered]
  exact find?_key_eq_some_iff fun _ listed _ listed' =>
    List.inj_on_of_nodup_map distinct listed listed'

theorem standardByName?_eq_some_iff :
    standardByName? name = some row ↔ row ∈ standardAttributes ∧ row.name = name :=
  find?_key_eq_some_iff fun _ listed _ listed' =>
    List.inj_on_of_nodup_map standard_names_distinct listed listed'

namespace Vendor.Config

variable {c : Config} {text : String}

theorem validate_of_ofText (accepted : ofText text = .ok c) : c.validate = .ok () := by
  unfold ofText at accepted
  split at accepted
  · cases accepted
  · obtain ⟨_, valid, rest⟩ := Result.bind_eq_ok.mp accepted
    cases rest
    exact valid

theorem inVendorRange_of_validate (valid : c.validate = .ok ()) {f : Family} {e : String × Code}
    (configured : e ∈ c.codes f) : inVendorRange e.2 = true := by
  unfold validate at valid
  split at valid
  · rename_i nothing
    have listed : e ∈ c.allCodes := by
      cases f <;> simp [allCodes, configured]
    simpa using List.find?_eq_none.mp nothing e listed
  · cases valid

theorem standardByCode?_of_validate (valid : c.validate = .ok ()) {f : Family}
    (configured : (name, code) ∈ c.codes f) : standardByCode? code = none := by
  refine Option.eq_none_iff_forall_ne_some.mpr fun row found => ?_
  obtain ⟨listed, rfl⟩ := standardByCode?_eq_some_iff.mp found
  have outside := standard_not_vendor row listed
  rw [inVendorRange_of_validate valid configured] at outside
  cases outside

end Vendor.Config

open Vendor

namespace Registry

abbrev ofConfig (c : Config) : Registry := ⟨.ofConfig c⟩

/-- A vendor type under the name of a standard one. -/
def Masked (r : Registry) (code : Code) : Prop :=
  ∃ name, r.vendor.name? .attributes code = some name ∧ (standardByName? name).isSome

variable (r : Registry)

theorem name_standard (listed : row ∈ standardAttributes) : r.name row.code = row.name := by
  simp [name, standardByCode?_eq_some_iff.mpr ⟨listed, rfl⟩]

theorem kind_standard (listed : row ∈ standardAttributes) : r.kind row.code = row.kind := by
  simp [kind, standardByCode?_eq_some_iff.mpr ⟨listed, rfl⟩]

theorem isKnown_standard (listed : row ∈ standardAttributes) : r.isKnown row.code := by
  simp [isKnown, standardByCode?_eq_some_iff.mpr ⟨listed, rfl⟩]

theorem byName_standard (listed : row ∈ standardAttributes) :
    r.byName row.name = .ok (row.code, row.kind) := by
  simp [byName, standardByName?_eq_some_iff.mpr ⟨listed, rfl⟩]

variable {c : Config}

theorem isKnown_vendor (stays : (name, code) ∈ kept (c.codes .attributes)) :
    (ofConfig c).isKnown code := by
  have named : ((Definitions.ofConfig c).name? .attributes code).isSome := by
    rw [name?_ofConfig.mpr stays]
    rfl
  simp [isKnown, (hasKind_iff_hasName c code).mpr named]

theorem byName_vendor (stays : (name, code) ∈ kept (c.codes .attributes))
    (own : standardByName? name = none) :
    (ofConfig c).byName name = .ok (code, (ofConfig c).kind code) := by
  simp [byName, own, code?_ofConfig.mpr stays]

theorem masked_iff (stays : (name, code) ∈ kept (c.codes .attributes)) :
    (ofConfig c).Masked code ↔ (standardByName? name).isSome := by
  simp [Masked, name?_ofConfig.mpr stays]

theorem known_cases (known : (ofConfig c).isKnown code) :
    (∃ row ∈ standardAttributes, row.code = code) ∨
      ∃ name, (name, code) ∈ kept (c.codes .attributes) := by
  rcases (Bool.or_eq_true _ _).mp known with standard | vendor
  · obtain ⟨row, found⟩ := Option.isSome_iff_exists.mp standard
    exact .inl ⟨row, standardByCode?_eq_some_iff.mp found⟩
  · obtain ⟨name, found⟩ :=
      Option.isSome_iff_exists.mp ((hasKind_iff_hasName c code).mp vendor)
    exact .inr ⟨name, name?_ofConfig.mp found⟩

section
variable (valid : c.validate = .ok ())
include valid

theorem standardByCode?_vendor (stays : (name, code) ∈ kept (c.codes .attributes)) :
    standardByCode? code = none :=
  Config.standardByCode?_of_validate valid (mem_kept.mp stays).1

theorem name_vendor (stays : (name, code) ∈ kept (c.codes .attributes)) :
    (ofConfig c).name code = name := by
  simp [Registry.name, standardByCode?_vendor valid stays, name?_ofConfig.mpr stays]

theorem not_masked_standard (listed : row ∈ standardAttributes) :
    ¬(ofConfig c).Masked row.code := by
  rintro ⟨name, found, _⟩
  have standard := standardByCode?_eq_some_iff.mpr ⟨listed, rfl⟩
  rw [standardByCode?_vendor valid (name?_ofConfig.mp found)] at standard
  cases standard

theorem back_of_byName {kind : Kind}
    (found : (ofConfig c).byName name = .ok (code, kind)) :
    (ofConfig c).isKnown code ∧ (ofConfig c).name code = name ∧ (ofConfig c).kind code = kind := by
  unfold byName at found
  split at found
  · rename_i row standard
    obtain ⟨listed, rfl⟩ := standardByName?_eq_some_iff.mp standard
    cases found
    exact ⟨isKnown_standard _ listed, name_standard _ listed, kind_standard _ listed⟩
  · split at found
    · rename_i own
      cases found
      have stays := code?_ofConfig.mp own
      exact ⟨isKnown_vendor stays, name_vendor valid stays, rfl⟩
    · cases found

theorem masked_means_standard (masked : (ofConfig c).Masked code) :
    (ofConfig c).isKnown code ∧ ∃ row ∈ standardAttributes, row.code ≠ code ∧
      (ofConfig c).name code = row.name ∧
      (ofConfig c).byName ((ofConfig c).name code) = .ok (row.code, row.kind) := by
  have ⟨name, found, standard⟩ := masked
  have stays := name?_ofConfig.mp found
  obtain ⟨row, resolved⟩ := Option.isSome_iff_exists.mp standard
  obtain ⟨listed, rfl⟩ := standardByName?_eq_some_iff.mp resolved
  have named := name_vendor valid stays
  refine ⟨isKnown_vendor stays, row, listed, ?_, named, named ▸ byName_standard _ listed⟩
  rintro rfl
  exact not_masked_standard valid listed masked

theorem byName_name_iff (known : (ofConfig c).isKnown code) :
    (ofConfig c).byName ((ofConfig c).name code) = .ok (code, (ofConfig c).kind code) ↔
      ¬(ofConfig c).Masked code := by
  constructor
  · intro resolved masked
    obtain ⟨_, row, _, apart, _, standard⟩ := masked_means_standard valid masked
    exact apart (Prod.mk.inj (Except.ok.inj (standard.symm.trans resolved))).1
  · intro clear
    rcases known_cases known with ⟨row, listed, rfl⟩ | ⟨name, stays⟩
    · rw [name_standard _ listed, kind_standard _ listed, byName_standard _ listed]
    · have own : standardByName? name = none := by
        simpa using mt (masked_iff stays).mpr clear
      rw [name_vendor valid stays, byName_vendor stays own]

end

/-- How names stand for types. -/
structure Resolving (r : Registry) : Prop where
  back : ∀ name code kind, r.byName name = .ok (code, kind) →
    r.isKnown code ∧ r.name code = name ∧ r.kind code = kind
  forth : ∀ code, r.isKnown code →
    (r.byName (r.name code) = .ok (code, r.kind code) ↔ ¬r.Masked code)
  standard : ∀ row ∈ standardAttributes, r.isKnown row.code ∧ ¬r.Masked row.code ∧
    r.name row.code = row.name ∧ r.kind row.code = row.kind
  masked : ∀ code, r.Masked code → r.isKnown code ∧ ∃ row ∈ standardAttributes,
    row.code ≠ code ∧ r.name code = row.name ∧ r.byName (r.name code) = .ok (row.code, row.kind)
  apart : ∀ code code', r.isKnown code → r.isKnown code' → ¬r.Masked code → ¬r.Masked code' →
    r.name code = r.name code' → code = code'

theorem resolving_of_valid (valid : c.validate = .ok ()) : Resolving (ofConfig c) where
  back _ _ _ found := back_of_byName valid found
  forth _ known := byName_name_iff valid known
  standard _ listed := ⟨isKnown_standard _ listed, not_masked_standard valid listed,
    name_standard _ listed, kind_standard _ listed⟩
  masked _ masked := masked_means_standard valid masked
  apart code code' known known' clear clear' same := by
    have resolved := (byName_name_iff valid known).mpr clear
    have resolved' := (byName_name_iff valid known').mpr clear'
    exact (Prod.mk.inj (Except.ok.inj (resolved.symm.trans (same ▸ resolved')))).1

/-- In the registry of an accepted configuration names and types determine each other, but for
vendor types with a standard name. -/
theorem names_resolve_unless_masked {text : String} {c : Config}
    (accepted : Config.ofText text = .ok c) : Resolving (ofConfig c) :=
  resolving_of_valid (Config.validate_of_ofText accepted)

def labelsText : String :=
  "[attributes.ACME_COUNTER]\ncode = 0x80001004\nkind = \"ulong\"\n\n" ++
  "[attributes.CKA_LABEL]\ncode = 0x80001234\nkind = \"ulong\"\n"

def labels : Config where
  attributes := .ofList
    [("ACME_COUNTER", ⟨0x80001004, .ulong⟩), ("CKA_LABEL", ⟨0x80001234, .ulong⟩)]

theorem ofText_labels : Config.ofText labelsText = .ok labels := by
  decide +kernel

/-- The counter resolves back and the vendor label does not. -/
theorem names_resolve_unless_masked_labels :
    Config.ofText labelsText = .ok labels ∧
      (ofConfig labels).byName ((ofConfig labels).name 0x80001004) = .ok (0x80001004, .ulong) ∧
      (ofConfig labels).byName ((ofConfig labels).name 0x80001234) ≠ .ok (0x80001234, .ulong) := by
  have resolving := names_resolve_unless_masked ofText_labels
  have clear : ¬(ofConfig labels).Masked 0x80001004 := by
    rintro ⟨name, found, standard⟩
    cases (show some "ACME_COUNTER" = some name from found)
    revert standard
    decide
  have masked : (ofConfig labels).Masked 0x80001234 := ⟨"CKA_LABEL", by decide, by decide⟩
  refine ⟨ofText_labels, (resolving.forth 0x80001004 (by decide)).mpr clear, fun resolved => ?_⟩
  exact (resolving.forth 0x80001234 (by decide)).mp resolved masked

/-- A vendor type can be given the name of a standard one. It is known by that name, which means
the standard type. -/
theorem vendor_label_masked :
    Config.ofText labelsText = .ok labels ∧ (ofConfig labels).isKnown 0x80001234 ∧
      (ofConfig labels).kind 0x80001234 = .ulong ∧
      (ofConfig labels).name 0x80001234 = "CKA_LABEL" ∧ (ofConfig labels).name 0x3 = "CKA_LABEL" ∧
      (ofConfig labels).byName "CKA_LABEL" = .ok (0x3, .string) :=
  ⟨ofText_labels, by decide, by decide, by decide, by decide, by decide⟩

end Registry

end Cryptoki
