import Cryptoki.Proofs.Mechanism.Outputs
import Cryptoki.Proofs.Mechanism.Recipe

/-!
What a module finds behind the pointer of a mechanism: the fields of the struct in their order,
with what their own pointers lead to. It is what the constructor was given, in whatever way the
mechanism was used since; and it determines the mechanism, but for what outputs hold.
-/
namespace Cryptoki

inductive Cell where
  | word (n : Nat)
  | byte (b : UInt8)
  | null
  | buffer (b : Bytes)
  | room (size : Nat)
  | struct (cells : List Cell)

namespace Cell

def width : Cell → Nat
  | .byte _ => 1
  | _ => 8

def alignUp (alignment offset : Nat) : Nat := (offset + alignment - 1) / alignment * alignment

/-- Each field begins at a multiple of its own width, and the struct ends at one of the widest. -/
def structSize (widths : List Nat) : Nat :=
  alignUp (widths.foldl max 1) (widths.foldl (fun offset w => alignUp w offset + w) 0)

def extent : Cell → Nat
  | .buffer b => b.length
  | .room size => size
  | .struct cells => structSize (cells.map width)
  | _ => 0

inductive Fits : Cell → Prop where
  | word {n : Nat} : n < 2 ^ 64 → Fits (.word n)
  | byte {b : UInt8} : Fits (.byte b)
  | null : Fits .null
  | buffer {b : Bytes} : Fits (.buffer b)
  | room {size : Nat} : Fits (.room size)
  | struct {cells : List Cell} : (∀ c ∈ cells, Fits c) → Fits (.struct cells)

def flag (b : Bool) : Cell := .byte (if b then 1 else 0)

def start (b : Bytes) : Cell := if b = [] then .null else .buffer b

def roomFor (size : Nat) : Cell := if size = 0 then .null else .room size

def behind : Option Bytes → Cell
  | none => .null
  | some b => .buffer b

def roomBehind : Option Bytes → Cell
  | none => .null
  | some b => .room b.length

end Cell

open Cell

def RandomSpans.cells (r : RandomSpans) : List Cell :=
  [behind r.client.bytes, .word r.client.length, behind r.server.bytes, .word r.server.length]

/-- The hash of a pseudo-random function comes last, in the longer layouts only. -/
def prfCells (prf : Option Code) : List Cell := prf.toList.map (.word ·.toNat)

/-- What the pointer to the block leads to, in the order in which the structs are declared. -/
def Block.pointer : Block → Cell
  | .none => .null
  | .bytes b => .buffer b
  | .derivationString data => .struct [behind data.bytes, .word data.length]
  | .pss hash mask saltLength =>
    .struct [.word hash.toNat, .word mask.toNat, .word saltLength.toNat]
  | .oaep hash mask sourceKind source =>
    .struct [.word hash.toNat, .word mask.toNat, .word sourceKind.toNat, behind source.bytes,
      .word source.length]
  | .gcm vector vectorBits aad tagBits =>
    .struct [behind vector.bytes, .word vector.length, .word vectorBits, behind aad.bytes,
      .word aad.length, .word tagBits.toNat]
  | .ccm dataLength nonce aad macLength =>
    .struct [.word dataLength.toNat, behind nonce.bytes, .word nonce.length, behind aad.bytes,
      .word aad.length, .word macLength.toNat]
  | .ecdh kdf sharedData publicData =>
    .struct [.word kdf.toNat, .word sharedData.length, behind sharedData.bytes,
      .word publicData.length, behind publicData.bytes]
  | .master randoms version prf =>
    .struct (randoms.cells ++ [.struct [.byte version.major, .byte version.minor]] ++ prfCells prf)
  | .keyMaterial macBits keyBits ivBits exported randoms prf handles clientIv serverIv =>
    .struct ([.word macBits.toNat, .word keyBits.toNat, .word ivBits.toNat, flag exported] ++
      randoms.cells ++
      [.struct [.word handles.clientMac, .word handles.serverMac, .word handles.clientKey,
        .word handles.serverKey, roomBehind clientIv, roomBehind serverIv]] ++
      prfCells prf)

def MechanismBlock.cells (b : MechanismBlock) : List Cell :=
  [.word b.code.toNat, b.block.pointer, .word b.block.size]

namespace Mechanism.Recipe

def randoms (client server : Bytes) : List Cell :=
  [.buffer client, .word client.length, .buffer server, .word server.length]

def parameters : Recipe → Cell
  | .plain => .null
  | .iv v | .rawIv v => .buffer v
  | .derivationString data => .struct [start data, .word data.length]
  | .pss hash mask saltLength =>
    .struct [.word hash.toNat, .word mask.toNat, .word saltLength.toNat]
  | .oaep hash mask source =>
    let data := source.getD []
    .struct [.word hash.toNat, .word mask.toNat, .word (if data = [] then 0 else 1), start data,
      .word data.length]
  | .gcm vector aad tagBits =>
    .struct [.buffer vector, .word vector.length, .word (8 * vector.length), start aad,
      .word aad.length, .word (tagBits.getD 128).toNat]
  | .ccm dataLength nonce aad macLength =>
    .struct [.word dataLength.toNat, .buffer nonce, .word nonce.length, start aad,
      .word aad.length, .word macLength.toNat]
  | .ecdh kdf sharedData publicData =>
    .struct [.word kdf.toNat, .word sharedData.length, start sharedData, .word publicData.length,
      .buffer publicData]
  | .master client server prf =>
    .struct (randoms client server ++ [.struct [.byte 0, .byte 0]] ++
      prf.toList.map (.word ·.toNat))
  | .keyMaterial macBits keyBits ivBits exported client server prf =>
    let vector := roomFor (ivBits.toNat / 8)
    .struct ([.word macBits.toNat, .word keyBits.toNat, .word ivBits.toNat,
        .byte (if exported then 1 else 0)] ++
      randoms client server ++ [.struct [.word 0, .word 0, .word 0, .word 0, vector, vector]] ++
      prf.toList.map (.word ·.toNat))

def buffers : Recipe → List Bytes
  | .plain | .pss .. => []
  | .iv b | .rawIv b | .derivationString b => [b]
  | .oaep _ _ source => [source.getD []]
  | .gcm b c _ | .ccm _ b c _ | .ecdh _ b c | .master b c _ | .keyMaterial _ _ _ _ b c _ => [b, c]

/-- Each buffer is shorter than 2⁶¹ bytes, so that eight times its length is still a word. -/
def Short (r : Recipe) : Prop := ∀ b ∈ r.buffers, b.length < 2 ^ 61

end Mechanism.Recipe

inductive Layout where
  | iv | pss | oaep | gcm | ccm | ecdh | derivationString | master | keyMaterial
  deriving DecidableEq, Repr

namespace Parameters

def layout : Parameters → Layout
  | .iv _ => .iv
  | .pss _ => .pss
  | .oaep _ => .oaep
  | .gcm _ => .gcm
  | .ccm _ => .ccm
  | .ecdh _ => .ecdh
  | .derivationString _ => .derivationString
  | .master _ => .master
  | .keyMaterial _ => .keyMaterial

def withoutOutputs : Parameters → Parameters
  | .master p => .master { p with version := .pending ⟨0, 0⟩ }
  | .keyMaterial p =>
    let vector := List.replicate (p.ivBits / 8).toNat 0
    .keyMaterial { p with material := .pending ⟨.none, vector, vector⟩ }
  | p => p

/-- The vectors of key material have the size that was asked for. -/
def Roomy : Parameters → Prop
  | .keyMaterial p =>
    p.material.value.clientIv.length = (p.ivBits / 8).toNat ∧
      p.material.value.serverIv.length = (p.ivBits / 8).toNat
  | _ => True

end Parameters

namespace Mechanism

def layout? (m : Mechanism) : Option Layout := m.parameters.map Parameters.layout

def withoutOutputs (m : Mechanism) : Mechanism := m.mapParameters Parameters.withoutOutputs

def Roomy (m : Mechanism) : Prop := ∀ p, m.parameters = some p → p.Roomy

end Mechanism

namespace Cell

@[simp] theorem behind_pointerTo (b : Bytes) : behind (pointerTo b) = start b := by
  cases b <;> rfl

@[simp] theorem roomBehind_pointerTo (b : Bytes) : roomBehind (pointerTo b) = roomFor b.length := by
  cases b <;> rfl

theorem start_of_ne_nil {b : Bytes} (given : b ≠ []) : start b = .buffer b := if_neg given

@[simp] theorem start_inj {b c : Bytes} : start b = start c ↔ b = c := by
  cases b <;> cases c <;> simp [start]

@[simp] theorem flag_inj {a b : Bool} : flag a = flag b ↔ a = b := by
  cases a <;> cases b <;> simp [flag]

@[simp] theorem width_word (n : Nat) : (Cell.word n).width = 8 := rfl

@[simp] theorem width_struct (cells : List Cell) : (Cell.struct cells).width = 8 := rfl

@[simp] theorem width_flag (b : Bool) : (flag b).width = 1 := rfl

@[simp] theorem width_behind (o : Option Bytes) : (behind o).width = 8 := by
  cases o <;> rfl

@[simp] theorem fits_word {n : Nat} : (Cell.word n).Fits ↔ n < 2 ^ 64 :=
  ⟨fun | .word small => small, .word⟩

@[simp] theorem fits_struct {cells : List Cell} :
    (Cell.struct cells).Fits ↔ ∀ c ∈ cells, c.Fits :=
  ⟨fun | .struct fit => fit, .struct⟩

@[simp] theorem fits_byte (b : UInt8) : (Cell.byte b).Fits := .byte

@[simp] theorem fits_buffer (b : Bytes) : (Cell.buffer b).Fits := .buffer

@[simp] theorem fits_start (b : Bytes) : (start b).Fits := by
  cases b
  · exact .null
  · exact .buffer

@[simp] theorem fits_roomFor (size : Nat) : (roomFor size).Fits := by
  cases size
  · exact .null
  · exact .room

end Cell

theorem Block.size_eq_extent (b : Block) : b.size = b.pointer.extent := by
  cases b with
  | none | bytes => rfl
  | master _ _ prf | keyMaterial _ _ _ _ _ prf =>
    cases prf <;> simp [pointer, size, extent, structSize, alignUp, RandomSpans.cells, prfCells]
  | _ => simp [pointer, size, extent, structSize, alignUp]

@[simp] theorem Randoms.cells_spans (r : Randoms) :
    r.spans.cells = Mechanism.Recipe.randoms r.client r.server := by
  simp [Randoms.spans, RandomSpans.cells, Mechanism.Recipe.randoms, behind, r.client_size,
    r.server_size]

namespace Mechanism

variable {r : Recipe} {m : Mechanism} {code : Code}

theorem Made.pointer {p : Option Parameters} (made : Made r p) :
    ((p.map Parameters.block).getD .none).pointer = r.parameters := by
  cases made with
  | plain | iv | rawIv | pss => rfl
  | derivationString => simp [Parameters.block, Block.pointer, Span.of, Recipe.parameters]
  | oaep p source =>
    by_cases none : p.source = [] <;>
      simp [Parameters.block, Block.pointer, Span.of, Recipe.parameters, ← source, none,
        sourceSpecified]
  | gcm p tag =>
    simp [Parameters.block, Block.pointer, Span.of, Recipe.parameters, ← tag,
      start_of_ne_nil p.vector_given, Nat.mul_comm]
  | ccm p =>
    have given : p.nonce ≠ [] := by
      intro empty
      simpa [empty] using p.nonce_allowed
    simp [Parameters.block, Block.pointer, Span.of, Recipe.parameters, start_of_ne_nil given]
  | ecdh p =>
    simp [Parameters.block, Block.pointer, Span.of, Recipe.parameters,
      start_of_ne_nil p.public_given]
  | master =>
    simp [Parameters.block, Block.pointer, Recipe.parameters, MasterParameters.make, prfCells]
  | keyMaterial p unwritten =>
    simp [Parameters.block, Block.pointer, Recipe.parameters, unwritten, Output.pending, prfCells,
      flag, KeyHandles.none]

end Mechanism

theorem Randoms.eq_of_cells {a b : Randoms}
    (same : Mechanism.Recipe.randoms a.client a.server =
      Mechanism.Recipe.randoms b.client b.server) : a = b := by
  cases a
  cases b
  simp_all [Mechanism.Recipe.randoms]

@[simp] theorem prfCells_inj {a b : Option Code} : prfCells a = prfCells b ↔ a = b := by
  cases a <;> cases b <;> simp [prfCells, UInt64.toNat_inj]

namespace Parameters

theorem withoutOutputs_eq_of_pointer {p q : Parameters} (same : p.layout = q.layout)
    (agree : p.block.pointer = q.block.pointer) : p.withoutOutputs = q.withoutOutputs := by
  cases p <;> cases q <;> cases same
  case iv.iv.refl | derivationString.derivationString.refl =>
    simp_all [block, Block.pointer, Span.of]
  case master.master.refl p q =>
    simp only [block, Block.pointer, struct.injEq, List.append_assoc, Randoms.cells_spans] at agree
    -- The parts of a struct but the last have as many fields on both sides.
    obtain ⟨random, rest⟩ := List.append_inj agree rfl
    have randoms := Randoms.eq_of_cells random
    have prf := prfCells_inj.mp (List.append_cancel_left rest)
    simp only [withoutOutputs, randoms, prf]
  case keyMaterial.keyMaterial.refl p q =>
    simp only [block, Block.pointer, struct.injEq, List.append_assoc, Randoms.cells_spans] at agree
    obtain ⟨sizes, rest⟩ := List.append_inj agree rfl
    obtain ⟨random, rest⟩ := List.append_inj rest rfl
    obtain ⟨_, prf⟩ := List.append_inj rest rfl
    have randoms := Randoms.eq_of_cells random
    have prf := prfCells_inj.mp prf
    simp only [List.cons.injEq, word.injEq, UInt64.toNat_inj, flag_inj, and_true] at sizes
    obtain ⟨mac, key, iv, exported⟩ := sizes
    simp only [withoutOutputs, mac, key, iv, exported, randoms, prf]
  all_goals
    rename_i p q
    cases p
    cases q
    simp_all [block, Block.pointer, Span.of, UInt64.toNat_inj]

end Parameters

theorem Parameters.pointer_withoutOutputs {p : Parameters} (roomy : p.Roomy) :
    p.block.pointer = p.withoutOutputs.block.pointer := by
  cases p with
  | keyMaterial p =>
    obtain ⟨client, server⟩ := roomy
    simp [block, Block.pointer, withoutOutputs, Output.pending, client, server]
  | _ => rfl

namespace Mechanism

variable {r : Recipe} {m : Mechanism} {code : Code}

structure Kept (m after : Mechanism) : Prop where
  code : after.code = m.code
  withoutOutputs : after.withoutOutputs = m.withoutOutputs
  roomy : after.Roomy

theorem kept_refl (roomy : m.Roomy) : Kept m m := ⟨rfl, rfl, roomy⟩

theorem kept_of_parameters {after : Mechanism} {p q : Parameters} (own : m.parameters = some p)
    (left : after.parameters = some q) (code : after.code = m.code)
    (same : q.withoutOutputs = p.withoutOutputs) (roomy : q.Roomy) : Kept m after where
  code := code
  withoutOutputs := by
    simp [withoutOutputs, mapParameters, own, left, code, same]
  roomy x found := by
    rw [left] at found
    cases found
    exact roomy

theorem apply_eq_self_of_no_outputs (lacks : m.hasOutputs = false) (u : Use) : u.apply m = m := by
  obtain ⟨code, _ | p⟩ := m
  · cases u <;> rfl
  · cases p
    case master | keyMaterial => cases lacks
    all_goals rcases u with _ | _ | _ | _ <;> rfl

theorem kept_apply (u : Use) (roomy : m.Roomy) : Kept m (u.apply m) := by
  have code : (u.apply m).code = m.code := by cases u <;> rfl
  rcases own : m.parameters with _ | p
  · rw [apply_eq_self_of_no_outputs (by simp [hasOutputs, own])]
    exact kept_refl roomy
  · cases p with
    | master p =>
      cases u with
      | layOut writes =>
        exact kept_of_parameters own (parameters_layOut_master writes own) code rfl trivial
      | complete outputs =>
        exact kept_of_parameters own (parameters_complete_master outputs own) code rfl trivial
    | keyMaterial p =>
      obtain ⟨client, server⟩ := roomy _ own
      cases u with
      | layOut writes =>
        refine kept_of_parameters own (parameters_layOut_keyMaterial writes own) code rfl ⟨?_, ?_⟩
        · exact (Bytes.length_foldl_overwrite _ _).trans client
        · exact (Bytes.length_foldl_overwrite _ _).trans server
      | complete outputs =>
        refine kept_of_parameters own (parameters_complete_keyMaterial outputs own) code rfl ?_
        cases outputs.handles? <;> exact ⟨client, server⟩
    | _ =>
      rw [apply_eq_self_of_no_outputs (by simp [hasOutputs, own])]
      exact kept_refl roomy

theorem kept_foldl (uses : List Use) (roomy : m.Roomy) : Kept m (uses.foldl Use.apply m) := by
  induction uses generalizing m with
  | nil => exact kept_refl roomy
  | cons u uses ih =>
    have first := kept_apply u roomy
    have rest := ih first.roomy
    exact ⟨rest.code.trans first.code, rest.withoutOutputs.trans first.withoutOutputs, rest.roomy⟩

theorem pointer_layOut (roomy : m.Roomy) :
    m.layOut.2.block.pointer = m.withoutOutputs.layOut.2.block.pointer := by
  obtain ⟨code, _ | p⟩ := m
  · rfl
  · exact Parameters.pointer_withoutOutputs (roomy p rfl)

/-- The module is handed the arguments of the constructor, which keep its rules. No number needs
more than a word, so that the layout can be made. -/
structure Faithful (code : Code) (r : Recipe) (m : Mechanism) : Prop where
  allowed : r.Allowed
  handed : m.layOut.2.cells = [.word code.toNat, r.parameters, .word r.parameters.extent]
  fits : r.Short → ∀ c ∈ m.layOut.2.cells, c.Fits

theorem Recipe.parameters_fit (short : r.Short) : r.parameters.Fits := by
  have scalars : ∀ n : UInt64, n.toNat < 18446744073709551616 := UInt64.toNat_lt
  have lengths : ∀ b ∈ r.buffers,
      b.length < 18446744073709551616 ∧ 8 * b.length < 18446744073709551616 := by
    intro b listed
    have := short b listed
    omega
  cases r with
  | plain => exact .null
  | iv | rawIv => exact .buffer
  | oaep _ _ source =>
    by_cases none : source.getD [] = [] <;> simp_all [buffers, parameters]
  | _ => simp_all [buffers, parameters, randoms]

theorem Made.extent_lt {p : Option Parameters} (made : Made r p) (short : r.Short) :
    r.parameters.extent < 2 ^ 64 := by
  rw [← made.pointer, ← Block.size_eq_extent]
  cases made with
  | iv | rawIv =>
    simp only [Recipe.Short, Recipe.buffers, List.mem_singleton, forall_eq] at short
    exact Nat.lt_trans short (by decide)
  | master _ prf => cases prf <;> simp [Parameters.block, Block.size, MasterParameters.make]
  | keyMaterial p => cases prf : p.prf <;> simp [Parameters.block, Block.size, prf]
  | _ => simp [Parameters.block, Block.size]

theorem Made.unused {p : Option Parameters} (made : Made r p) :
    p.map Parameters.withoutOutputs = p ∧ ∀ q, p = some q → q.Roomy := by
  cases made with
  | plain => exact ⟨rfl, nofun⟩
  | keyMaterial p unwritten =>
    refine ⟨by simp only [Option.map_some, Parameters.withoutOutputs, ← unwritten],
      fun q found => ?_⟩
    cases found
    simp [Parameters.Roomy, unwritten, Output.pending]
  | _ =>
    refine ⟨rfl, fun q found => ?_⟩
    cases found
    trivial

theorem faithful_foldl (uses : List Use) (built : r.build code = .ok m) :
    Faithful code r (uses.foldl Use.apply m) := by
  obtain ⟨own, made⟩ := made_of_build built
  obtain ⟨unused, roomy⟩ := made.unused
  have kept := kept_foldl uses roomy
  have same : m.withoutOutputs = m := by
    simp only [withoutOutputs, mapParameters, unused]
  have handed : (uses.foldl Use.apply m).layOut.2.cells =
      [.word code.toNat, r.parameters, .word r.parameters.extent] := by
    have pointer : (uses.foldl Use.apply m).layOut.2.block.pointer = r.parameters := by
      rw [pointer_layOut kept.roomy, kept.withoutOutputs, same]
      exact made.pointer
    simp only [MechanismBlock.cells, Block.size_eq_extent, pointer]
    simp only [layOut, kept.code, own]
  refine ⟨made.allowed, handed, fun short c member => ?_⟩
  rw [handed] at member
  simp only [List.mem_cons, List.not_mem_nil, or_false] at member
  rcases member with rfl | rfl | rfl
  · exact .word code.toNat_lt
  · exact Recipe.parameters_fit short
  · exact .word (made.extent_lt short)

theorem withoutOutputs_eq {n : Mechanism} (layout : m.layout? = n.layout?) (code : m.code = n.code)
    (pointer : m.layOut.2.block.pointer = n.layOut.2.block.pointer) :
    m.withoutOutputs = n.withoutOutputs := by
  obtain ⟨_, _ | p⟩ := m <;> obtain ⟨_, _ | q⟩ := n <;> cases code
  · rfl
  · cases layout
  · cases layout
  · have same := Parameters.withoutOutputs_eq_of_pointer (Option.some.inj layout) pointer
    exact congrArg (withParameters _) same

/-- A constructor succeeds just when its arguments keep the rules, and however the mechanism is
used, the module finds these arguments behind the pointer that it is handed. Mechanisms of one
layout that look the same to the module differ in their outputs only. -/
theorem layout_is_faithful :
    (∀ (r : Recipe) (code : Code), ((∃ m, r.build code = .ok m) ↔ r.Allowed) ∧
      ∀ m, r.build code = .ok m → ∀ uses : List Use, Faithful code r (uses.foldl Use.apply m)) ∧
    ∀ m n : Mechanism, m.layout? = n.layout? → m.layOut.2.cells = n.layOut.2.cells →
      m.withoutOutputs = n.withoutOutputs := by
  refine ⟨fun r code => ⟨⟨?_, build_of_allowed code⟩, ?_⟩, ?_⟩
  · rintro ⟨m, built⟩
    exact (made_of_build built).2.allowed
  · intro m built uses
    exact faithful_foldl uses built
  · intro m n layout agree
    simp only [MechanismBlock.cells, List.cons.injEq, Cell.word.injEq, and_true] at agree
    obtain ⟨code, pointer, -⟩ := agree
    exact withoutOutputs_eq layout (UInt64.toNat_inj.mp code) pointer

/-- Key material that was asked for with a pseudo-random function, and used. -/
theorem layout_is_faithful_keyMaterial :
    let client := List.replicate 28 1
    let server := List.replicate 28 2
    ∃ m, (Recipe.keyMaterial 160 128 16 true client server (some 0x250)).build 0x3e1 = .ok m ∧
      let used := (Use.layOut [.material ⟨9, 9, 9, 9⟩ [7, 7] [7]]).apply m
      used.layOut.2.cells = [.word 0x3e1,
        .struct [.word 160, .word 128, .word 16, .byte 1, .buffer client, .word 28, .buffer server,
          .word 28, .struct [.word 0, .word 0, .word 0, .word 0, .room 2, .room 2], .word 0x250],
        .word 80] ∧
      (∀ c ∈ used.layOut.2.cells, c.Fits) ∧ used.withoutOutputs = m.withoutOutputs := by
  obtain ⟨constructors, determined⟩ := layout_is_faithful
  have found := (constructors (.keyMaterial 160 128 16 true (List.replicate 28 1)
    (List.replicate 28 2) (some 0x250)) 0x3e1).2 _ rfl
  have fresh := found []
  have used := found [.layOut [.material ⟨9, 9, 9, 9⟩ [7, 7] [7]]]
  refine ⟨_, rfl, used.handed, used.fits ?_, ?_⟩
  · simp [Recipe.Short, Recipe.buffers]
  · exact determined _ _ rfl (used.handed.trans fresh.handed.symm)

end Mechanism

end Cryptoki
