import Cryptoki.Proofs.Mechanism.Layout

/-!
The pointers that a module is handed with a mechanism, each against the length that goes with it.
A pointer is to be null just when its length is zero. Spans are made so, random values are never
empty, and the vectors of key material keep their size in every use; but bare vectors are handed
over by a pointer that is never null.
-/
namespace Cryptoki

structure Handed where
  null : Bool
  length : Nat
  deriving DecidableEq, Repr

/-- A null pointer for no bytes, and for nothing else. -/
def Handed.Fit (p : Handed) : Prop := p.null = true ↔ p.length = 0

instance (p : Handed) : Decidable p.Fit :=
  inferInstanceAs (Decidable (p.null = true ↔ p.length = 0))

def Span.handed (s : Span) : Handed := ⟨s.bytes.isNone, s.length⟩

def RandomSpans.handed (r : RandomSpans) : List Handed := [r.client.handed, r.server.handed]

/-- The pointers in the parameters. Those to the vectors of key material have no length of their
own, and go with the size in bits that both are said to have. -/
def Block.inner : Block → List Handed
  | .none | .bytes _ | .pss .. => []
  | .derivationString data => [data.handed]
  | .oaep _ _ _ source => [source.handed]
  | .gcm vector _ aad _ => [vector.handed, aad.handed]
  | .ccm _ nonce aad _ => [nonce.handed, aad.handed]
  | .ecdh _ sharedData publicData => [sharedData.handed, publicData.handed]
  | .master randoms .. => randoms.handed
  | .keyMaterial _ _ ivBits _ randoms _ _ clientIv serverIv =>
    randoms.handed ++ [⟨clientIv.isNone, ivBits.toNat⟩, ⟨serverIv.isNone, ivBits.toNat⟩]

def MechanismBlock.handed (b : MechanismBlock) : List Handed :=
  ⟨b.block.isNull, b.block.size⟩ :: b.block.inner

namespace Cell

def fields : Cell → List Cell
  | .struct cells => cells
  | _ => []

def nulls : Cell → List Bool
  | .word _ | .byte _ => []
  | .null => [true]
  | .buffer _ | .room _ => [false]
  | .struct cells => cells.flatMap nulls

@[simp] theorem nulls_behind (o : Option Bytes) : (behind o).nulls = [o.isNone] := by
  cases o <;> simp [behind, nulls]

@[simp] theorem nulls_roomBehind (o : Option Bytes) : (roomBehind o).nulls = [o.isNone] := by
  cases o <;> simp [roomBehind, nulls]

@[simp] theorem nulls_prfCells (prf : Option Code) : (prfCells prf).flatMap nulls = [] := by
  cases prf <;> simp [prfCells, nulls]

end Cell

theorem Block.null_inner (b : Block) :
    b.inner.map Handed.null = b.pointer.fields.flatMap Cell.nulls := by
  cases b <;>
    simp [inner, pointer, Cell.fields, Cell.nulls, Span.handed, RandomSpans.handed,
      RandomSpans.cells, Cell.flag]

theorem Block.length_inner (b : Block) :
    ∀ p ∈ b.inner, Cell.word p.length ∈ b.pointer.fields := by
  cases b <;>
    simp [inner, pointer, Cell.fields, Span.handed, RandomSpans.handed, RandomSpans.cells]

theorem fit_pointerTo {b : Bytes} {length : Nat} (empty : b.length = 0 ↔ length = 0) :
    (⟨(pointerTo b).isNone, length⟩ : Handed).Fit := by
  have null : (pointerTo b).isNone = true ↔ b.length = 0 := by
    cases b <;> simp [pointerTo]
  exact null.trans empty

@[simp] theorem fit_span (b : Bytes) : (Span.of b).handed.Fit := fit_pointerTo Iff.rfl

theorem Randoms.fit_spans (r : Randoms) : ∀ p ∈ r.spans.handed, p.Fit := by
  simp [Randoms.spans, RandomSpans.handed, Span.handed, Handed.Fit, randomSize]

theorem KeyMaterialParameters.vectorSize_eq_zero (p : KeyMaterialParameters) :
    (p.ivBits / 8).toNat = 0 ↔ p.ivBits.toNat = 0 := by
  have whole : p.ivBits.toNat % 8 = 0 := by
    simpa using congrArg UInt64.toNat p.iv_whole
  have size : (p.ivBits / 8).toNat = p.ivBits.toNat / 8 := UInt64.toNat_div _ _
  omega

namespace Parameters

theorem fit_inner {p : Parameters} (roomy : p.Roomy) : ∀ q ∈ p.block.inner, q.Fit := by
  cases p with
  | master p => exact p.randoms.fit_spans
  | keyMaterial p =>
    obtain ⟨client, server⟩ := roomy
    intro q listed
    rcases List.mem_append.mp listed with random | vector
    · exact p.randoms.fit_spans q random
    · simp only [List.mem_cons, List.not_mem_nil, or_false] at vector
      rcases vector with rfl | rfl
      · exact fit_pointerTo (client ▸ p.vectorSize_eq_zero)
      · exact fit_pointerTo (server ▸ p.vectorSize_eq_zero)
  | _ => simp [block, Block.inner]

theorem fit_outer_iff (p : Parameters) :
    (⟨p.block.isNull, p.block.size⟩ : Handed).Fit ↔ p ≠ .iv [] := by
  cases p with
  | iv v => simp [block, Block.isNull, Block.size, Handed.Fit]
  | master p => cases prf : p.prf <;> simp [block, Block.isNull, Block.size, Handed.Fit, prf]
  | keyMaterial p => cases prf : p.prf <;> simp [block, Block.isNull, Block.size, Handed.Fit, prf]
  | _ => simp [block, Block.isNull, Block.size, Handed.Fit]

def withPrf (prf : Code) : Parameters → Parameters
  | .master p => .master { p with prf := some prf }
  | .keyMaterial p => .keyMaterial { p with prf := some prf }
  | p => p

end Parameters

namespace Mechanism

variable {m : Mechanism}

/-- The mechanisms that a caller can come by: those that were made, and what becomes of them when
they are used, or their parameters taken for another mechanism. -/
inductive Obtained : Mechanism → Prop where
  | made (r : Recipe) (code : Code) {m : Mechanism} : r.build code = .ok m → Obtained m
  | used {m : Mechanism} (u : Use) : Obtained m → Obtained (u.apply m)
  | under (code : Code) {m : Mechanism} : Obtained m → Obtained { m with code }
  | withPrf (prf : Code) {m : Mechanism} :
    Obtained m → Obtained (m.mapParameters (.withPrf prf))

theorem Obtained.roomy (obtained : Obtained m) : m.Roomy := by
  induction obtained with
  | made r code built => exact (made_of_build built).2.unused.2
  | used u _ ih => exact (kept_apply u ih).roomy
  | under code _ ih => exact ih
  | withPrf prf _ ih =>
    intro p found
    obtain ⟨q, own, rfl⟩ := Option.map_eq_some_iff.mp found
    have roomy := ih q own
    cases q <;> exact roomy

theorem fit_handed_iff (roomy : m.Roomy) :
    (∀ p ∈ m.layOut.2.handed, p.Fit) ↔ m.parameters ≠ some (.iv []) := by
  obtain ⟨code, _ | p⟩ := m
  · simp [layOut, MechanismBlock.handed, Block.isNull, Block.size, Block.inner, Handed.Fit]
  · have inner := Parameters.fit_inner (roomy p rfl)
    have outer := p.fit_outer_iff
    simp only [layOut, MechanismBlock.handed, Option.map_some, Option.getD_some,
      List.forall_mem_cons, ne_eq, Option.some.injEq]
    exact ⟨fun fit => outer.mp fit.1, fun given => ⟨outer.mpr given, inner⟩⟩

theorem made_bare_iff {r : Recipe} {code : Code} (built : r.build code = .ok m) :
    m.parameters = some (.iv []) ↔ r = .rawIv [] := by
  obtain ⟨-, made⟩ := made_of_build built
  generalize m.parameters = parameters at made
  cases made <;> simp_all

structure NullForEmpty (m : Mechanism) (b : MechanismBlock) : Prop where
  all : b.block.inner.map Handed.null = b.block.pointer.fields.flatMap Cell.nulls
  lengths : ∀ p ∈ b.block.inner, Cell.word p.length ∈ b.block.pointer.fields
  inner : ∀ p ∈ b.block.inner, p.Fit
  /-- Only a bare vector with no bytes has a pointer that does not fit. -/
  handed : (∀ p ∈ b.handed, p.Fit) ↔ m.parameters ≠ some (.iv [])
  bare : ∀ (r : Recipe) code, r.build code = .ok m →
    (m.parameters = some (.iv []) ↔ r = .rawIv [])

/-- Of a mechanism that a caller can come by, the pointers in the parameters are null just when
their lengths are zero. So is the pointer to the parameters, unless these are a bare vector with
no bytes. -/
theorem null_exactly_for_empty (obtained : Obtained m) : NullForEmpty m m.layOut.2 where
  all := Block.null_inner _
  lengths := Block.length_inner _
  inner := by
    intro p listed
    obtain ⟨code, _ | q⟩ := m
    · cases listed
    · exact Parameters.fit_inner (obtained.roomy q rfl) p listed
  handed := fit_handed_iff obtained.roomy
  bare _ _ := made_bare_iff

/-- Key material without vectors, after a call that wrote handles and vectors, and for another
mechanism since. -/
theorem null_exactly_for_empty_keyMaterial :
    let random := List.replicate 28 1
    let recipe := Recipe.keyMaterial 160 128 0 true random random none
    ∃ m, recipe.build 0x372 = .ok m ∧
      let other := { (Use.layOut [.material ⟨9, 9, 9, 9⟩ [7, 7] [7]]).apply m with code := 0x3e1 }
      Obtained other ∧
      other.layOut.2.handed = [⟨false, 72⟩, ⟨false, 28⟩, ⟨false, 28⟩, ⟨true, 0⟩, ⟨true, 0⟩] ∧
      ∀ p ∈ other.layOut.2.handed, p.Fit := by
  intro random recipe
  obtain ⟨m, built⟩ : ∃ m, recipe.build 0x372 = .ok m := ⟨_, rfl⟩
  have obtained := Obtained.under 0x3e1
    (.used (.layOut [.material ⟨9, 9, 9, 9⟩ [7, 7] [7]]) (.made recipe 0x372 built))
  refine ⟨m, built, obtained, ?_, (null_exactly_for_empty obtained).handed.mpr ?_⟩
  · cases built
    rfl
  · cases built
    exact nofun

/-- The pointer to a bare vector is not null, even if there are no bytes to point to. -/
theorem bare_vector_not_null :
    ∃ m, (Recipe.rawIv []).build 0x1082 = .ok m ∧ Obtained m ∧
      m.layOut.2.handed = [⟨false, 0⟩] ∧ ¬∀ p ∈ m.layOut.2.handed, p.Fit :=
  ⟨_, rfl, .made (.rawIv []) 0x1082 rfl, rfl, by decide⟩

end Mechanism

end Cryptoki
