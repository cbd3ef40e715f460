import Cryptoki.Proofs.Bytes
import Cryptoki.Proofs.Session.Ending
import Cryptoki.Token.Answer
import Mathlib.Data.List.Basic
import Mathlib.Data.List.Induction

/-!
The outputs of mechanisms. Whatever is done with a mechanism, an output is readable just when the
latest completion that fits came after the mechanism was last laid out, and is then what that
completion gave. The vectors of key material are the bytes last written at each place.
-/
namespace Cryptoki

/-- At each place the byte of the last of the writes that reached it, and zero where none did. -/
def Bytes.lastWritten (size : Nat) (writes : List Bytes) : Bytes :=
  (List.range size).map fun i => ((writes.filterMap (·[i]?)).getLast?).getD 0

namespace Bytes

@[simp] theorem length_lastWritten (size : Nat) (writes : List Bytes) :
    (lastWritten size writes).length = size := by
  simp [lastWritten]

theorem lastWritten_nil (size : Nat) : lastWritten size [] = List.replicate size 0 := by
  simp [lastWritten, List.map_const']

theorem overwrite_lastWritten (size : Nat) (writes : List Bytes) (w : Bytes) :
    (lastWritten size writes).overwrite w = lastWritten size (writes ++ [w]) := by
  refine List.ext_getElem? fun i => ?_
  rw [getElem?_overwrite]
  by_cases inside : i < size
  · cases reached : w[i]? with
    | none => simp [lastWritten, inside, reached]
    | some b => simp [lastWritten, inside, reached]
  · simp [lastWritten, inside]

theorem foldl_overwrite_lastWritten (size : Nat) (writes more : List Bytes) :
    more.foldl overwrite (lastWritten size writes) = lastWritten size (writes ++ more) := by
  induction more generalizing writes with
  | nil => simp
  | cons w more ih => rw [List.foldl_cons, overwrite_lastWritten, ih, List.append_assoc]; rfl

theorem length_foldl_overwrite (writes : List Bytes) (b : Bytes) :
    (writes.foldl overwrite b).length = b.length := by
  induction writes generalizing b with
  | nil => rfl
  | cons w writes ih => rw [List.foldl_cons, ih, length_overwrite]

end Bytes

inductive Mechanism.Use where
  | layOut (writes : List BlockWrite)
  | complete (outputs : Outputs)

inductive Mechanism.Event (σ : Type) where
  | use (u : Use)
  | derive (s : Session) (h : Host σ) (base : Handle) (t : Template)

def BlockWrite.version? : BlockWrite → Option Version
  | .version v => some v
  | .material .. => none

def BlockWrite.handles? : BlockWrite → Option KeyHandles
  | .version _ => none
  | .material h _ _ => some h

def BlockWrite.vectors? : BlockWrite → Option (Bytes × Bytes)
  | .version _ => none
  | .material _ client server => some (client, server)

def Outputs.version? : Outputs → Option Version
  | .version v => some v
  | _ => Option.none

def Outputs.handles? : Outputs → Option KeyHandles
  | .handles h => some h
  | _ => Option.none

def Written.blockWrites : Written → List BlockWrite
  | .block w => [w]
  | _ => []

namespace Mechanism

variable {σ : Type} {α : Type}

def Use.apply (m : Mechanism) : Use → Mechanism
  | .layOut writes => m.layOut.1.absorb (writes.foldl Block.write m.layOut.2.block)
  | .complete outputs => m.complete outputs

def Event.apply (M : Module σ) (m : Mechanism) : Event σ → Mechanism
  | .use u => u.apply m
  | .derive s h base t =>
    match ((Session.deriveKey M m base t : SessionM σ _) s h).1.1 with
    | .ok (_, after) => after
    | .error _ => m

def run (M : Module σ) (m : Mechanism) (events : List (Event σ)) : Mechanism :=
  events.foldl (Event.apply M) m

/-- The outputs that the module has written, or those of a block that it left alone. -/
def outputsOf (m : Mechanism) (writes : List BlockWrite) : Outputs :=
  match m.parameters with
  | some (.master _) => .version (((writes.filterMap BlockWrite.version?).getLast?).getD ⟨0, 0⟩)
  | some (.keyMaterial _) =>
    .handles (((writes.filterMap BlockWrite.handles?).getLast?).getD .none)
  | _ => .none

/-- A derivation lays the mechanism out, and completes it if the module succeeds. -/
def Event.uses (M : Module σ) (m : Mechanism) : Event σ → List Use
  | .use u => [u]
  | .derive s h base t =>
    let a := (M.answer (.deriveKey s.handle m.layOut.2 base t.toArray) h.state).1
    match a.result with
    | .ok _ => [.layOut a.written.blockWrites, .complete (m.outputsOf a.written.blockWrites)]
    | .error _ => [.layOut a.written.blockWrites]

def history (M : Module σ) : Mechanism → List (Event σ) → List Use
  | _, [] => []
  | m, e :: rest => e.uses M m ++ history M (e.apply M m) rest

def Use.reading (pick : Outputs → Option α) : Use → Option (Option α)
  | .layOut _ => some none
  | .complete outputs => (pick outputs).map some

/-- What the latest completion that fits gave, unless the mechanism was laid out since. -/
def given (pick : Outputs → Option α) (uses : List Use) : Option α :=
  ((uses.filterMap (Use.reading pick)).getLast?).join

def vectorWrites (side : Bytes × Bytes → Bytes) (uses : List Use) : List Bytes :=
  uses.flatMap fun
    | .layOut writes => (writes.filterMap BlockWrite.vectors?).map side
    | .complete _ => []

/-- Read as what was given, or not to be read in this state. -/
def Reads (r : Result α) : Option α → Prop
  | some a => r = .ok a
  | none => ∃ e, r = .error e ∧ e.kind = .invalidState ∧ e.rv = Return.operationNotInitialized

variable {m : Mechanism} {uses : List Use}

theorem given_layOut (pick : Outputs → Option α) (uses : List Use) (writes : List BlockWrite) :
    given pick (uses ++ [.layOut writes]) = none := by
  simp [given, Use.reading]

theorem given_complete (pick : Outputs → Option α) (uses : List Use) (outputs : Outputs) :
    given pick (uses ++ [.complete outputs]) =
      match pick outputs with
      | some a => some a
      | none => given pick uses := by
  cases fits : pick outputs <;> simp [given, Use.reading, fits]

theorem vectorWrites_append (side : Bytes × Bytes → Bytes) (uses more : List Use) :
    vectorWrites side (uses ++ more) = vectorWrites side uses ++ vectorWrites side more :=
  List.flatMap_append

theorem foldl_write_master (writes : List BlockWrite) (r : RandomSpans) (prf : Option Code) :
    writes.foldl Block.write (.master r ⟨0, 0⟩ prf) =
      .master r (((writes.filterMap BlockWrite.version?).getLast?).getD ⟨0, 0⟩) prf := by
  induction writes using List.reverseRecOn with
  | nil => rfl
  | append_singleton writes w ih =>
    rw [List.foldl_append, ih]
    cases w <;> simp [Block.write, Block.writeVersion, Block.writeMaterial, BlockWrite.version?]

theorem foldl_write_keyMaterial (writes : List BlockWrite) (mac key iv : UInt64) (exported : Bool)
    (r : RandomSpans) (prf : Option Code) (c s : Option Bytes) :
    writes.foldl Block.write (.keyMaterial mac key iv exported r prf .none c s) =
      .keyMaterial mac key iv exported r prf
        (((writes.filterMap BlockWrite.handles?).getLast?).getD .none)
        (c.map ((vectorWrites Prod.fst [.layOut writes]).foldl Bytes.overwrite))
        (s.map ((vectorWrites Prod.snd [.layOut writes]).foldl Bytes.overwrite)) := by
  induction writes using List.reverseRecOn with
  | nil => cases c <;> cases s <;> rfl
  | append_singleton writes w ih =>
    rw [List.foldl_append, ih]
    cases w <;>
      simp [Block.write, Block.writeVersion, Block.writeMaterial, BlockWrite.handles?, vectorWrites,
        BlockWrite.vectors?, List.filterMap_cons, Function.comp_def]

theorem overwrite_pointerTo (writes : List Bytes) (b : Bytes) :
    b.overwrite (((pointerTo b).map (writes.foldl Bytes.overwrite)).getD []) =
      writes.foldl Bytes.overwrite b := by
  have length := Bytes.length_foldl_overwrite writes b
  by_cases empty : b = []
  · subst empty
    rw [List.length_nil, List.length_eq_zero_iff] at length
    rw [length]
    rfl
  · have whole := List.take_of_length_le (Nat.le_of_eq length)
    simp [pointerTo, empty, Bytes.overwrite, length, whole]

theorem parameters_layOut_master {p : MasterParameters} (writes : List BlockWrite)
    (own : m.parameters = some (.master p)) :
    ((Use.layOut writes).apply m).parameters =
      some (.master { p with version := p.version.reset }) := by
  simp [Use.apply, layOut, absorb, resetOutputs, writeVectors, mapParameters, own]

theorem parameters_complete_master {p : MasterParameters} (outputs : Outputs)
    (own : m.parameters = some (.master p)) :
    ((Use.complete outputs).apply m).parameters =
      some (.master { p with version :=
        match outputs.version? with
        | some v => p.version.complete v
        | none => p.version }) := by
  cases outputs <;> simp [Use.apply, complete, mapParameters, own, Outputs.version?]

theorem parameters_complete_keyMaterial {p : KeyMaterialParameters} (outputs : Outputs)
    (own : m.parameters = some (.keyMaterial p)) :
    ((Use.complete outputs).apply m).parameters =
      some (.keyMaterial { p with material :=
        match outputs.handles? with
        | some h => p.material.complete { p.material.value with handles := h }
        | none => p.material }) := by
  cases outputs <;> simp [Use.apply, complete, mapParameters, own, Outputs.handles?]

theorem parameters_layOut_keyMaterial {p : KeyMaterialParameters} (writes : List BlockWrite)
    (own : m.parameters = some (.keyMaterial p)) :
    ((Use.layOut writes).apply m).parameters =
      some (.keyMaterial { p with material := ⟨
        ⟨p.material.value.handles,
          (vectorWrites Prod.fst [.layOut writes]).foldl Bytes.overwrite p.material.value.clientIv,
          (vectorWrites Prod.snd [.layOut writes]).foldl Bytes.overwrite p.material.value.serverIv⟩,
        false⟩ }) := by
  simp only [Use.apply, layOut, absorb, resetOutputs, writeVectors, mapParameters, own,
    Option.map_some, Option.getD_some, Parameters.block, foldl_write_keyMaterial, Block.vectors,
    Output.reset, overwrite_pointerTo]

structure Stands {β : Type} (o : Output α) (part : α → β) (given : Option β) : Prop where
  written : o.written = given.isSome
  value : ∀ b, given = some b → part o.value = b

theorem stands_reset {β : Type} {part : α → β} (a : α) : Stands ⟨a, false⟩ part none where
  written := rfl
  value _ some := nomatch some

theorem stands_complete {β : Type} {part : α → β} {b : β} (a : α) (same : part a = b) :
    Stands ⟨a, true⟩ part (some b) where
  written := rfl
  value _ some := same.trans (Option.some.inj some)

structure KeyMaterialStands (start : KeyMaterialParameters) (uses : List Use)
    (p : KeyMaterialParameters) : Prop where
  others : p = { start with material := p.material }
  handles : Stands p.material KeyMaterial.handles (given Outputs.handles? uses)
  client : p.material.value.clientIv =
    Bytes.lastWritten (start.ivBits / 8).toNat (vectorWrites Prod.fst uses)
  server : p.material.value.serverIv =
    Bytes.lastWritten (start.ivBits / 8).toNat (vectorWrites Prod.snd uses)

theorem master_after (uses : List Use) {randoms : Randoms} {prf : Option Code}
    (made : m.parameters = some (.master (.make randoms prf))) :
    ∃ version, (uses.foldl Use.apply m).parameters = some (.master ⟨randoms, prf, version⟩) ∧
      Stands version id (given Outputs.version? uses) := by
  induction uses using List.reverseRecOn with
  | nil => exact ⟨.pending ⟨0, 0⟩, made, stands_reset _⟩
  | append_singleton uses u ih =>
    obtain ⟨version, own, stands⟩ := ih
    rw [List.foldl_append]
    cases u with
    | layOut writes =>
      refine ⟨_, parameters_layOut_master writes own, ?_⟩
      rw [given_layOut]
      exact stands_reset _
    | complete outputs =>
      refine ⟨_, parameters_complete_master outputs own, ?_⟩
      rw [given_complete]
      cases outputs.version? with
      | none => exact stands
      | some v => exact stands_complete v rfl

theorem keyMaterial_after (uses : List Use) {start : KeyMaterialParameters}
    (fresh : start.material = .pending ⟨.none, List.replicate (start.ivBits / 8).toNat 0,
      List.replicate (start.ivBits / 8).toNat 0⟩)
    (made : m.parameters = some (.keyMaterial start)) :
    ∃ p, (uses.foldl Use.apply m).parameters = some (.keyMaterial p) ∧
      KeyMaterialStands start uses p := by
  induction uses using List.reverseRecOn with
  | nil =>
    refine ⟨start, made, rfl, ?_, ?_, ?_⟩
    · rw [fresh]
      exact stands_reset _
    · rw [fresh]
      exact (Bytes.lastWritten_nil _).symm
    · rw [fresh]
      exact (Bytes.lastWritten_nil _).symm
  | append_singleton uses u ih =>
    obtain ⟨p, own, stands⟩ := ih
    rw [List.foldl_append]
    cases u with
    | layOut writes =>
      refine ⟨_, parameters_layOut_keyMaterial writes own, ?_, ?_, ?_, ?_⟩
      · rw [stands.others]
      · rw [given_layOut]
        exact stands_reset _
      · rw [vectorWrites_append, ← Bytes.foldl_overwrite_lastWritten, ← stands.client]
      · rw [vectorWrites_append, ← Bytes.foldl_overwrite_lastWritten, ← stands.server]
    | complete outputs =>
      have same : ∀ side,
          vectorWrites side (uses ++ [.complete outputs]) = vectorWrites side uses := by
        intro side
        simp [vectorWrites]
      refine ⟨_, parameters_complete_keyMaterial outputs own, ?_, ?_, ?_, ?_⟩
      · rw [stands.others]
      · rw [given_complete]
        cases outputs.handles? with
        | none => exact stands.handles
        | some h => exact stands_complete _ rfl
      · rw [same, ← stands.client]
        cases outputs.handles? <;> rfl
      · rw [same, ← stands.server]
        cases outputs.handles? <;> rfl

theorem outputs_foldl_write (m : Mechanism) (writes : List BlockWrite) :
    (writes.foldl Block.write m.layOut.2.block).outputs = m.outputsOf writes := by
  have none_taken : ∀ b : Block, (∀ w, b.write w = b) → b.outputs = .none →
      (writes.foldl Block.write b).outputs = .none := by
    intro b fixed nothing
    rw [List.foldl_fixed' fixed]
    exact nothing
  rcases m with ⟨code, _ | parameters⟩
  · exact none_taken .none (fun w => by cases w <;> rfl) rfl
  · cases parameters with
    | master p =>
      change (writes.foldl Block.write (.master _ ⟨0, 0⟩ _)).outputs = _
      rw [foldl_write_master]
      rfl
    | keyMaterial p =>
      change (writes.foldl Block.write (.keyMaterial _ _ _ _ _ _ .none _ _)).outputs = _
      rw [foldl_write_keyMaterial]
      rfl
    | _ => exact none_taken _ (fun w => by cases w <;> rfl) rfl

theorem blockAfter_eq (b : Block) (written : Written) :
    written.blockAfter b = written.blockWrites.foldl Block.write b := by
  cases written <;> rfl

open SessionM in
theorem ends_deriveKey_outputs {M : Module σ} {s : Session} {a : σ} (base : Handle) (t : Template)
    {answer : Answer .handle}
    (answered : (M.answer (.deriveKey s.handle m.layOut.2 base t.toArray) a).1 = answer) :
    Ends (Session.deriveKey M m base t) s a fun r _ _ =>
      r = .ok (answer.result, match answer.result with
        | .ok _ => ((Use.layOut answer.written.blockWrites).apply m).complete
            (m.outputsOf answer.written.blockWrites)
        | .error _ => (Use.layOut answer.written.blockWrites).apply m) := by
  have outputs := outputs_foldl_write m answer.written.blockWrites
  unfold Session.deriveKey Use.apply
  generalize m.layOut = laidOut at answered outputs ⊢
  obtain ⟨reset, b⟩ := laidOut
  refine quiet_ownHandle.ends (ends_askAnswer_bind ?_)
  rw [answered]
  simp only [blockAfter_eq, outputs]
  cases answer.result with
  | ok key => exact ends_pure rfl
  | error e => exact ends_pure rfl

/-- Whatever the module answers, a derivation comes to its uses. -/
theorem apply_eq_foldl_uses (M : Module σ) (m : Mechanism) (e : Event σ) :
    e.apply M m = (e.uses M m).foldl Use.apply m := by
  cases e with
  | use u => rfl
  | derive s h base t =>
    have came := ends_deriveKey_outputs (M := M) (m := m) (s := s) (a := h.state) base t rfl
      h.journal
    simp only [Event.apply, Event.uses]
    rw [came]
    cases (M.answer (.deriveKey s.handle m.layOut.2 base t.toArray) h.state).1.result <;> rfl

theorem run_eq_foldl_history (M : Module σ) (m : Mechanism) (events : List (Event σ)) :
    run M m events = (history M m events).foldl Use.apply m := by
  induction events generalizing m with
  | nil => rfl
  | cons e rest ih =>
    rw [history, List.foldl_append, ← apply_eq_foldl_uses, ← ih]
    rfl

theorem reads_get {o : Output α} {g : Option α} (stands : Stands o id g) : Reads o.get g := by
  cases g with
  | none => exact ⟨.outputUnread, by simp [Output.get, stands.written], rfl, rfl⟩
  | some a =>
    have value : o.value = a := stands.value a rfl
    simp [Reads, Output.get, stands.written, value]

theorem KeyMaterialStands.whole {start p : KeyMaterialParameters}
    (stands : KeyMaterialStands start uses p) :
    Stands p.material id ((given Outputs.handles? uses).map fun h =>
      ⟨h, Bytes.lastWritten (start.ivBits / 8).toNat (vectorWrites Prod.fst uses),
        Bytes.lastWritten (start.ivBits / 8).toNat (vectorWrites Prod.snd uses)⟩) where
  written := by
    rw [stands.handles.written, Option.isSome_map]
  value material found := by
    obtain ⟨h, given, rfl⟩ := Option.map_eq_some_iff.mp found
    rw [← stands.handles.value h given, ← stands.client, ← stands.server]
    rfl

/-- Over any course of events, the version and the key material are read just as they were last
given, if the mechanism was not laid out since, with the vectors as they were last written; and
otherwise they are not to be read. The vectors that the module is handed always have the size that
the block says. -/
theorem outputs_follow_history (M : Module σ) (events : List (Event σ)) (code : Code)
    (randoms : Randoms) (prf : Option Code) :
    (let start := withParameters code (.master (.make randoms prf))
      ∃ p, (run M start events).parameters = some (.master p) ∧
        Reads p.version.get (given Outputs.version? (history M start events))) ∧
    ∀ macBits keyBits ivBits exported made,
      KeyMaterialParameters.make macBits keyBits ivBits exported randoms prf = .ok made →
      let start := withParameters code (.keyMaterial made)
      let uses := history M start events
      let size := (ivBits / 8).toNat
      ∃ p, (run M start events).parameters = some (.keyMaterial p) ∧
        Reads p.material.get ((given Outputs.handles? uses).map fun h =>
          ⟨h, Bytes.lastWritten size (vectorWrites Prod.fst uses),
            Bytes.lastWritten size (vectorWrites Prod.snd uses)⟩) ∧
        p.material.value.clientIv.length = size ∧ p.material.value.serverIv.length = size ∧
        (run M start events).layOut.2.block = .keyMaterial macBits keyBits ivBits exported
          randoms.spans prf .none (pointerTo p.material.value.clientIv)
          (pointerTo p.material.value.serverIv) := by
  constructor
  · intro start
    obtain ⟨version, own, stands⟩ := master_after (history M start events) (m := start) rfl
    refine ⟨⟨randoms, prf, version⟩, ?_, reads_get stands⟩
    rw [run_eq_foldl_history, own]
  · intro macBits keyBits ivBits exported made done start uses size
    unfold KeyMaterialParameters.make at done
    split at done
    · cases done
      obtain ⟨p, own, stands⟩ := keyMaterial_after uses (m := start) rfl rfl
      rw [run_eq_foldl_history]
      refine ⟨p, own, reads_get stands.whole, ?_, ?_, ?_⟩
      · rw [stands.client, Bytes.length_lastWritten]
      · rw [stands.server, Bytes.length_lastWritten]
      · rw [layOut, own, stands.others]
        rfl
    · cases done

def blankRandoms : Randoms where
  client := List.replicate randomSize 0
  server := List.replicate randomSize 0
  client_size := rfl
  server_size := rfl

def derivations : List (Event Token) :=
  let host : Host Token := ⟨({ Token.new with sessions := [1] }.addObject []).1, []⟩
  [.use (.layOut [.material ⟨9, 9, 9, 9⟩ [7, 7, 7] [7]]), .use (.complete (.version ⟨3, 0⟩)),
    .derive ⟨1, 1, fun _ => .idle⟩ host 1 .empty, .derive ⟨1, 1, fun _ => .idle⟩ host 8 .empty]

theorem outputs_follow_history_derivations : ∃ made,
    KeyMaterialParameters.make 0 128 16 false blankRandoms none = .ok made ∧
    (∃ p, (run Token.module (withParameters 0x372 (.keyMaterial made))
        (derivations.take 3)).parameters = some (.keyMaterial p) ∧
      p.material.get = .ok ⟨⟨2, 3, 4, 5⟩, [0xc1, 0xc1], [0x5e, 0x5e]⟩) ∧
    ∃ p, (run Token.module (withParameters 0x372 (.keyMaterial made)) derivations).parameters =
        some (.keyMaterial p) ∧
      ∃ e, p.material.get = .error e ∧ e.kind = .invalidState ∧
        e.rv = Return.operationNotInitialized := by
  refine ⟨_, rfl, ?_, ?_⟩
  · obtain ⟨p, own, reads, _⟩ := (outputs_follow_history Token.module (derivations.take 3) 0x372
      blankRandoms none).2 0 128 16 false _ rfl
    exact ⟨p, own, reads⟩
  · obtain ⟨p, own, reads, _⟩ := (outputs_follow_history Token.module derivations 0x372
      blankRandoms none).2 0 128 16 false _ rfl
    exact ⟨p, own, reads⟩

end Mechanism

end Cryptoki
