import Cryptoki.Proofs.Session.Protocol
import Cryptoki.Proofs.Token.Operations

/-!
Data in parts. On the token in memory, as long as no failure is injected, it makes no difference
how the data of an operation is split: what comes out is what comes out for the whole.
-/
namespace Cryptoki

/-- A call that gives an operation one more part of its data, with output for it or without. -/
inductive Part where
  | stream (k : Stream)
  | feed (k : Feed)

namespace Part

def kind : Part → OperationKind
  | .stream k => k.kind
  | .feed k => k.kind

def call : Part → Bytes → Session.Call
  | .stream k => .stream k
  | .feed k => .feed k

def emits : Part → Bytes → Bytes
  | .stream _, data => Token.cipher data
  | .feed _, _ => []

def keeps : Part → Token.Operation → Bytes → Token.Operation
  | .stream _, op, _ => op
  | .feed _, op, data => { op with data := op.data ++ data }

end Part

namespace Finish

def start : Finish → Mechanism → Handle → Session.Call
  | .encrypt => .init .encrypt
  | .decrypt => .init .decrypt
  | .sign => .init .sign
  | .digest => fun m _ => .digestInit m

def oneShot : Finish → OneShot
  | .encrypt => .encrypt
  | .decrypt => .decrypt
  | .sign => .sign
  | .digest => .digest

def part : Finish → Part
  | .encrypt => .stream .encrypt
  | .decrypt => .stream .decrypt
  | .sign => .feed .sign
  | .digest => .feed .digest

def whole (k : Finish) (m : Mechanism) (key : Handle) (data : Bytes) : List Session.Call :=
  [k.start m key, .oneShot k.oneShot data]

def inParts (k : Finish) (m : Mechanism) (key : Handle) (chunks : List Bytes) :
    List Session.Call :=
  k.start m key :: (chunks.map k.part.call ++ [.finish k])

end Finish

namespace Session

def verifyWhole (m : Mechanism) (key : Handle) (data signature : Bytes) : List Call :=
  [.init .verify m key, .verify data signature]

def verifyInParts (m : Mechanism) (key : Handle) (chunks : List Bytes) (signature : Bytes) :
    List Call :=
  .init .verify m key :: (chunks.map (Part.feed .verify).call ++ [.verifyFinal signature])

def Outcome.output : Outcome → Bytes
  | .bytes b => b
  | _ => []

def given : List (Result Outcome) → Result Bytes
  | [] => .ok []
  | r :: rest => do
    let o ← r
    return o.output ++ (← given rest)

/-- The calls give the result, and leave nothing of the kind under way, neither in the session nor
in the token. -/
structure Yields (calls : List Call) (k : OperationKind) (s : Session) (h : Host Token)
    (r : Result Bytes) : Prop where
  given : given (run Token.module calls s h).1 = r
  idle : (run Token.module calls s h).2.1.state k = .idle
  gone : (run Token.module calls s h).2.2.state.operations.get? (s.handle, k) = none

/-- The start of the kind succeeds on a token without failures to come, and the mechanism is one
whose data may go in parts. -/
structure Ready (start : Call) (k : OperationKind) (m : Mechanism) (s : Session)
    (h : Host Token) : Prop where
  clear : ∀ f, h.state.failures.get? f = none
  starts : (step Token.module start s h).1 = .ok .done
  several : protocol m.code k ≠ .singleShot ∧ protocol m.code k ≠ .recover

theorem run_cons {σ : Type} (M : Module σ) (c : Call) (rest : List Call) (s : Session)
    (h : Host σ) : run M (c :: rest) s h =
      ((step M c s h).1 :: (run M rest (step M c s h).2.1 (step M c s h).2.2).1,
        (run M rest (step M c s h).2.1 (step M c s h).2.2).2) := rfl

theorem state_setOperation (s : Session) (k : OperationKind) (op : Operation) :
    (s.setOperation k op).state k = op.state := by
  rw [Session.state, operation_setOperation]

end Session

namespace Token

open Session SessionM

variable {t t' : Token} {handle : Handle} {k : OperationKind} {shape : Shape} {q : Request shape}
  {op : Operation} {s : Session} {h : Host Token} {α : Type}

def Clear (t : Token) : Prop := ∀ f, t.failures.get? f = none

theorem answer_of_clear (clear : t.Clear) (own : q.session? = some handle)
    (opened : handle ∈ t.sessions) : t.answer q = perform q (t.record q.function) := by
  rw [answer_of_open own (due_eq_none (clear _)) opened, counted_of_clear (clear _)]
  rfl

theorem ends_ask_of_clear {post : Result shape.Value → Session → Token → Prop}
    (clear : t.Clear) (own : q.session? = some handle) (opened : handle ∈ t.sessions)
    (holds : post (perform q (t.record q.function)).1.result s
      (perform q (t.record q.function)).2) :
    Ends (ask Token.module q) s t post := by
  refine ends_ask ?_
  rwa [module_answer, answer_of_clear clear own opened]

theorem ends_sizedOutput_of_clear {q : Option Nat → Request .length} (output : Bytes)
    {post : Result Bytes → Session → Token → Prop} (clear : t.Clear)
    (own : ∀ capacity, (q capacity).session? = some handle) (opened : handle ∈ t.sessions)
    (asks : ∀ f, perform (q none) (t.record f) = give output.length (t.record f))
    (gives : ∀ f g, ∃ t', perform (q (some output.length)) ((t.record f).record g) =
      (⟨.bytes output, .ok output.length⟩, t') ∧ post (.ok output) s t') :
    Ends (sizedOutput Token.module q) s t post := by
  obtain ⟨t', given, holds⟩ := gives (q none).function (q (some output.length)).function
  have first : t.answer (q none) = give output.length (t.record (q none).function) := by
    rw [answer_of_clear clear (own none) opened, asks]
  have second : (t.record (q none).function).answer (q (some output.length)) =
      (⟨.bytes output, .ok output.length⟩, t') := by
    rw [answer_of_clear (t := t.record (q none).function) clear (own _) opened, given]
  refine ends_ask_bind (fun size found => ?_) fun e failed => ?_
  · rw [module_answer, first] at found ⊢
    cases found
    refine quiet_reserve.ends (ends_askAnswer_bind ?_)
    simp only [give, module_answer, second]
    refine quiet_ofResult.ends (ends_pure ?_)
    simpa [Written.buffer, Bytes.overwrite] using holds
  · rw [module_answer, first] at failed
    cases failed

structure Underway (handle : Handle) (k : OperationKind) (op : Operation) (s : Session)
    (t : Token) : Prop where
  clear : t.Clear
  opened : handle ∈ t.sessions
  held : t.operations.get? (handle, k) = some op
  own : s.handle = handle
  active : s.state k ≠ .idle
  protocol : (s.operation k).protocol = protocol op.mechanism k

structure Over (handle : Handle) (k : OperationKind) (s : Session) (t : Token) : Prop where
  idle : s.state k = .idle
  gone : t.operations.get? (handle, k) = none

theorem opened_of_answered {v : shape.Value} (clear : t.Clear) (own : q.session? = some handle)
    (answered : (t.answer q).1.result = .ok v) : handle ∈ t.sessions := by
  by_contra closed
  rw [answer_of_closed own (due_eq_none (clear _)) closed] at answered
  cases answered

theorem begun_of_ok {code : Code} {v : Unit} (begun : (begin k handle code t).1.result = .ok v) :
    (begin k handle code t).2 =
      { t with operations := t.operations.insert (handle, k) ⟨code, []⟩ } := by
  unfold begin at begun ⊢
  split at begun
  · cases begun
  · rename_i known
    split at begun
    · cases begun
    · rename_i free
      rw [if_neg known, if_neg free]
      rfl

theorem ends_begun {m : Mechanism} {q : Handle → MechanismBlock → Request .done} (clear : t.Clear)
    (own : ∀ b, (q s.handle b).session? = some s.handle)
    (begins : ∀ b t, perform (q s.handle b) t = begin k s.handle b.code t) :
    Ends ((fun _ => Outcome.done) <$> starting Token.module k m q) s t fun r s' t' =>
      r = .ok .done → Underway s.handle k ⟨m.code, []⟩ s' t' ∧ s'.state k = .initialized := by
  have started : Ends (do
      ask Token.module (q s.handle m.layOut.2)
      modify fun s => s.setOperation k
        { s.operation k with mechanism := m.code, protocol := protocol m.code k }
      setState k .initialized) s t fun r s' t' => r = .ok () →
        Underway s.handle k ⟨m.code, []⟩ s' t' ∧ s'.state k = .initialized := by
    refine ends_ask_bind (fun v answered => ?_) fun e _ same => nomatch same
    rw [module_answer] at answered ⊢
    have opened := opened_of_answered clear (own _) answered
    rw [answer_of_clear clear (own _) opened, begins] at answered ⊢
    rw [begun_of_ok answered]
    refine quiet_modify.ends (quiet_setState.ends_last fun _ => ?_)
    rw [operation_setOperation]
    refine ⟨⟨clear, opened, Table.get?_insert_self _ _ _, rfl, ?_, ?_⟩, ?_⟩
    · rw [state_setOperation]
      exact fun idle => nomatch idle
    · rw [operation_setOperation]
      rfl
    · rw [state_setOperation]
      rfl
  have ends : Ends (starting Token.module k m q) s t fun r s' t' => r = .ok () →
      Underway s.handle k ⟨m.code, []⟩ s' t' ∧ s'.state k = .initialized := by
    refine quiet_get.ends (ends_ofResult_bind (fun _ _ => ?_) fun e _ same => nomatch same)
    by_cases unknown : protocol m.code k = .notSupported
    · simp only [if_pos unknown]
      exact quiet_tell.ends (quiet_ownHandle.ends started)
    · simp only [if_neg unknown]
      exact quiet_ownHandle.ends started
  refine ends.map fun r s' t' holds same => ?_
  cases r with
  | ok v => exact holds rfl
  | error e => cases same

theorem ends_start {c : Call} (clear : t.Clear) (belongs : c.role? = some (k, .start))
    (other : k ≠ .findObjects) :
    Ends (Session.perform Token.module c) s t fun r s' t' => r = .ok .done →
      Underway s.handle k ⟨c.started.mechanism, []⟩ s' t' ∧ s'.state k = .initialized := by
  cases c <;> cases belongs
  case init k m key => exact ends_begun (m := m) clear (fun _ => rfl) fun _ _ => rfl
  case digestInit m => exact ends_begun (m := m) clear (fun _ => rfl) fun _ _ => rfl
  case findObjectsInit t => exact absurd rfl other

theorem check_of_underway (underway : Underway handle k op s t)
    (several : (protocol op.mechanism k).isSingleStep = false) :
    s.checkUpdate k = .ok () ∧ s.checkFinal k = .ok () := by
  have active : ¬ (s.operation k).state = .idle := underway.active
  simp [checkUpdate, checkFinal, checkActive, active, underway.protocol, several]

theorem Underway.updated {op' : Operation} (underway : Underway handle k op s t)
    (same : op'.mechanism = op.mechanism) (clear : t'.Clear) (opened : handle ∈ t'.sessions)
    (held : t'.operations.get? (handle, k) = some op') :
    Underway handle k op' (s.setOperation k (inState (s.operation k) .updated)) t' where
  clear := clear
  opened := opened
  held := held
  own := underway.own
  active := by
    rw [state_setOperation]
    exact fun idle => nomatch idle
  protocol := by
    rw [operation_setOperation, same]
    exact underway.protocol

theorem ends_part (p : Part) (underway : Underway handle p.kind op s t)
    (several : (protocol op.mechanism p.kind).isSingleStep = false) (data : Bytes) :
    Ends (Session.perform Token.module (p.call data)) s t fun r s' t' =>
      Outcome.output <$> r = .ok (p.emits data) ∧
        Underway handle p.kind (p.keeps op data) s' t' := by
  have accepted := (check_of_underway underway several).1
  cases underway.own
  have clear := underway.clear
  have opened := underway.opened
  have held := underway.held
  cases p with
  | stream k =>
    change t.operations.get? (s.handle, k.kind) = some op at held
    have ends : Ends (sizedOutput Token.module (.stream k s.handle data)) s t fun r s' t' =>
        r = .ok (cipher data) ∧ s' = s ∧ ∃ calls, t' = { t with calls } := by
      refine ends_sizedOutput_of_clear (cipher data) clear (fun _ => rfl) opened ?_ ?_
      · intro f
        simp [perform, Token.stream, record, held, deliver]
      · intro f g
        refine ⟨(t.record f).record g, ?_, rfl, rfl, _, rfl⟩
        simp [perform, Token.stream, record, held, deliver]
    refine (ends_of_accepted accepted ends.updating).map ?_
    intro r s'' t' came
    obtain ⟨s', ⟨rfl, rfl, calls, rfl⟩, rfl⟩ := came
    exact ⟨rfl, underway.updated rfl clear opened held⟩
  | feed k =>
    change t.operations.get? (s.handle, k.kind) = some op at held
    have ends : Ends (ask Token.module (.feed k s.handle data)) s t fun r s' t' =>
        r = .ok () ∧ s' = s ∧ ∃ calls, t' = { t with
          operations := t.operations.insert (s.handle, k.kind) { op with data := op.data ++ data }
          calls } := by
      have fed : ∀ f, perform (.feed k s.handle data) (t.record f) = give () { t.record f with
          operations := t.operations.insert (s.handle, k.kind)
            { op with data := op.data ++ data } } := by
        intro f
        simp [perform, Token.feed, record, held]
      refine ends_ask_of_clear clear rfl opened ?_
      rw [fed]
      exact ⟨rfl, rfl, _, rfl⟩
    refine (ends_of_accepted accepted ends.updating).map ?_
    intro r s'' t' came
    obtain ⟨s', ⟨rfl, rfl, calls, rfl⟩, rfl⟩ := came
    exact ⟨rfl, underway.updated rfl clear opened (Table.get?_insert_self _ _ _)⟩

theorem ends_concluded {q : Option Nat → Request .length} {data : Bytes}
    (underway : Underway s.handle k op s t)
    (own : ∀ capacity, (q capacity).session? = some s.handle)
    (concludes : ∀ capacity t, perform (q capacity) t = conclude k s.handle data capacity t) :
    Ends (finishing k (sizedOutput Token.module q)) s t fun r s' t' =>
      r = .ok (output k op data) ∧ Over s.handle k s' t' := by
  have held := underway.held
  have ends : Ends (sizedOutput Token.module q) s t fun r s' t' =>
      r = .ok (output k op data) ∧ s' = s ∧ t'.operations.get? (s.handle, k) = none := by
    refine ends_sizedOutput_of_clear (output k op data) underway.clear own
      underway.opened ?_ ?_
    · intro f
      simp [concludes, conclude, record, held, deliver]
    · intro f g
      refine ⟨{ (t.record f).record g with operations := t.operations.erase (s.handle, k) },
        ?_, rfl, rfl, ?_⟩
      · simp [concludes, conclude, record, held, deliver]
      · simp [Table.get?_erase]
  refine ends.finishing.mono ?_
  intro r s'' t' came
  obtain ⟨s', ⟨rfl, rfl, gone⟩, rfl⟩ := came
  exact ⟨rfl, state_setOperation s' k .idle, gone⟩

def verdict (signature expected : Bytes) : Result Bytes :=
  if signature = expected then .ok [] else .error (.returned Return.signatureInvalid)

theorem ends_checked {q : Request .done} (data signature : Bytes)
    (underway : Underway s.handle .verify op s t) (own : q.session? = some s.handle)
    (checks : ∀ t, perform q t = check s.handle data signature t) :
    Ends (finishing .verify (ask Token.module q)) s t fun r s' t' =>
      (fun _ => []) <$> r = verdict signature (output .verify op data) ∧
        Over s.handle .verify s' t' := by
  have held := underway.held
  have ends : Ends (ask Token.module q) s t fun r s' t' =>
      (fun _ => []) <$> r = verdict signature (output .verify op data) ∧ s' = s ∧
        t'.operations.get? (s.handle, .verify) = none := by
    have judged : ∀ f, ∃ t', t'.operations.get? (s.handle, .verify) = none ∧
        perform q (t.record f) = if output .verify op data = signature then give () t'
          else refuse Return.signatureInvalid t' := by
      intro f
      refine ⟨{ t.record f with operations := t.operations.erase (s.handle, .verify) }, ?_, ?_⟩
      · simp [Table.get?_erase]
      · simp [checks, check, record, held]
    obtain ⟨t', gone, judged⟩ := judged q.function
    refine ends_ask_of_clear underway.clear own underway.opened ?_
    rw [judged, verdict]
    by_cases fits : output .verify op data = signature
    · rw [if_pos fits, if_pos fits.symm]
      exact ⟨rfl, rfl, gone⟩
    · rw [if_neg fits, if_neg (Ne.symm fits)]
      exact ⟨rfl, rfl, gone⟩
  refine ends.finishing.mono ?_
  intro r s'' t' came
  obtain ⟨s', ⟨same, rfl, gone⟩, rfl⟩ := came
  exact ⟨same, state_setOperation s' .verify .idle, gone⟩

theorem yields_last {c : Call} {r : Result Bytes}
    (ends : Ends (Session.perform Token.module c) s h.state fun r' s' t' =>
      Outcome.output <$> r' = r ∧ Over s.handle k s' t') : Yields [c] k s h r := by
  obtain ⟨same, ended⟩ := step_of_ends ends h.journal
  refine ⟨?_, ended.idle, ended.gone⟩
  change given [(step Token.module c s h).1] = r
  rw [← same]
  cases (step Token.module c s h).1 <;> simp [given]

theorem Yields.cons {c : Call} {rest : List Call} {b : Bytes} {r : Result Bytes}
    (first : Outcome.output <$> (step Token.module c s h).1 = .ok b)
    (own : (step Token.module c s h).2.1.handle = s.handle)
    (others : Yields rest k (step Token.module c s h).2.1 (step Token.module c s h).2.2 r) :
    Yields (c :: rest) k s h ((b ++ ·) <$> r) where
  given := by
    obtain ⟨o, came, rfl⟩ := Result.map_eq_ok.mp first
    rw [run_cons, Session.given, others.given, came]
    rfl
  idle := others.idle
  gone := own ▸ others.gone

theorem yields_start {c : Call} {rest : List Call} {r : Result Bytes}
    (clear : h.state.Clear) (starts : (step Token.module c s h).1 = .ok .done)
    (belongs : c.role? = some (k, .start)) (other : k ≠ .findObjects)
    (others : ∀ s' h', Underway s.handle k ⟨c.started.mechanism, []⟩ s' h'.state →
      s'.state k = .initialized → Yields rest k s' h' r) : Yields (c :: rest) k s h r := by
  obtain ⟨underway, initialized⟩ :=
    step_of_ends (ends_start (s := s) clear belongs other) h.journal starts
  have whole := Yields.cons (b := []) (by rw [starts]; rfl) underway.own
    (others _ _ underway initialized)
  cases r <;> exact whole

/-- The invariant is that the operation is under way, with what is kept of the parts so far. -/
theorem yields_parts (p : Part) {chunks : List Bytes} {last : List Call} {r : Result Bytes}
    (underway : Underway handle p.kind op s h.state)
    (several : (protocol op.mechanism p.kind).isSingleStep = false)
    (others : ∀ s' h', Underway handle p.kind (chunks.foldl p.keeps op) s' h'.state →
      Yields last p.kind s' h' r) :
    Yields (chunks.map p.call ++ last) p.kind s h ((chunks.flatMap p.emits ++ ·) <$> r) := by
  induction chunks generalizing op s h with
  | nil =>
    have yields := others s h underway
    cases r <;> exact yields
  | cons data chunks ih =>
    obtain ⟨first, underway'⟩ := step_of_ends (ends_part p underway several data) h.journal
    have kept : (p.keeps op data).mechanism = op.mechanism := by cases p <;> rfl
    have yields := Yields.cons first (underway'.own.trans underway.own.symm)
      (ih underway' (kept ▸ several) others)
    cases r with
    | ok b => simpa [List.append_assoc] using yields
    | error e => exact yields

theorem yields_finish {k : Finish} (underway : Underway handle k.kind op s h.state)
    (several : (protocol op.mechanism k.kind).isSingleStep = false) :
    Yields [.finish k] k.kind s h (.ok (output k.kind op [])) := by
  cases underway.own
  have ends := ends_concluded (q := .finish k s.handle) underway (fun _ => rfl) fun _ _ => rfl
  refine yields_last ((ends_of_accepted (check_of_underway underway several).2 ends).map ?_)
  rintro r s' t' ⟨rfl, ended⟩
  exact ⟨rfl, ended⟩

theorem yields_oneShot {k : OneShot} {data : Bytes} (underway : Underway handle k.kind op s h.state)
    (initialized : s.state k.kind = .initialized) :
    Yields [.oneShot k data] k.kind s h (.ok (output k.kind op data)) := by
  cases underway.own
  have initialized : (s.operation k.kind).state = .initialized := initialized
  have accepted : s.checkOneShot k.kind = .ok () := by simp [checkOneShot, checkActive, initialized]
  have ends := ends_concluded (q := .oneShot k s.handle data) underway (fun _ => rfl) fun _ _ => rfl
  refine yields_last ((ends_of_accepted accepted ends).map ?_)
  rintro r s' t' ⟨rfl, ended⟩
  exact ⟨rfl, ended⟩

theorem output_done (r : Result Unit) :
    Outcome.output <$> (fun _ => Outcome.done) <$> r = (fun _ => []) <$> r := by
  cases r <;> rfl

theorem yields_verify {data signature : Bytes} (underway : Underway handle .verify op s h.state)
    (initialized : s.state .verify = .initialized) :
    Yields [.verify data signature] .verify s h (verdict signature (output .verify op data)) := by
  cases underway.own
  have initialized : (s.operation .verify).state = .initialized := initialized
  have accepted : s.checkOneShot .verify = .ok () := by
    simp [checkOneShot, checkActive, initialized]
  have ends := ends_checked (q := .verify s.handle data signature) data signature underway rfl
    fun _ => rfl
  refine yields_last ((ends_of_accepted accepted ends).map ?_)
  rintro r s' t' ⟨same, ended⟩
  exact ⟨(output_done r).trans same, ended⟩

theorem yields_verifyFinal (signature : Bytes) (underway : Underway handle .verify op s h.state)
    (several : (protocol op.mechanism .verify).isSingleStep = false) :
    Yields [.verifyFinal signature] .verify s h (verdict signature (output .verify op [])) := by
  cases underway.own
  have ends := ends_checked (q := .verifyFinal s.handle signature) [] signature underway rfl
    fun _ => rfl
  refine yields_last ((ends_of_accepted (check_of_underway underway several).2 ends).map ?_)
  rintro r s' t' ⟨same, ended⟩
  exact ⟨(output_done r).trans same, ended⟩

theorem cipher_flatten (chunks : List Bytes) : chunks.flatMap cipher = cipher chunks.flatten := by
  rw [cipher, List.map_flatten, List.flatMap_def]
  rfl

theorem cipher_cipher (data : Bytes) : cipher (cipher data) = data := by
  have twice : ∀ b : UInt8, b ^^^ 0x5a ^^^ 0x5a = b := fun b => by
    rw [UInt8.xor_assoc, UInt8.xor_self, UInt8.xor_zero]
  simp [cipher, Function.comp_def, twice]

theorem foldl_feed (k : Feed) (op : Operation) (chunks : List Bytes) :
    chunks.foldl (Part.feed k).keeps op = { op with data := op.data ++ chunks.flatten } := by
  induction chunks generalizing op with
  | nil => simp
  | cons data chunks ih => simp [ih, Part.keeps]

theorem foldl_stream (k : Stream) (op : Operation) (chunks : List Bytes) :
    chunks.foldl (Part.stream k).keeps op = op := by
  induction chunks with
  | nil => rfl
  | cons data chunks ih => exact ih

theorem flatMap_feed (k : Feed) (chunks : List Bytes) :
    chunks.flatMap (Part.feed k).emits = [] :=
  List.flatMap_eq_nil_iff.mpr fun _ _ => rfl

theorem output_kept (k : OperationKind) (code : Code) (data : Bytes) :
    output k ⟨code, data⟩ [] = output k ⟨code, []⟩ data := by
  simp [output]

theorem output_parts (k : Finish) (code : Code) (chunks : List Bytes) :
    chunks.flatMap k.part.emits ++ output k.kind (chunks.foldl k.part.keeps ⟨code, []⟩) [] =
      output k.kind ⟨code, []⟩ chunks.flatten := by
  cases k with
  | encrypt | decrypt =>
    change chunks.flatMap cipher ++ output _ (chunks.foldl (Part.stream _).keeps ⟨code, []⟩) [] =
      cipher chunks.flatten
    rw [cipher_flatten, foldl_stream]
    exact List.append_nil _
  | sign | digest =>
    rw [Finish.part, flatMap_feed, foldl_feed, List.nil_append]
    exact output_kept _ _ _

section

variable {k : Finish} {m : Mechanism} {key : Handle} {start : Call} {kind : OperationKind}

theorem isSingleStep_of_ready (ready : Ready start kind m s h) :
    (protocol m.code kind).isSingleStep = false := by
  rw [Bool.eq_false_iff, ne_eq, isSingleStep_iff]
  exact not_or.mpr ready.several

theorem role?_start (k : Finish) (m : Mechanism) (key : Handle) :
    (k.start m key).role? = some (k.kind, .start) := by
  cases k <;> rfl

theorem mechanism_start (k : Finish) (m : Mechanism) (key : Handle) :
    (k.start m key).started.mechanism = m.code := by
  cases k <;> rfl

theorem kind_part (k : Finish) : k.part.kind = k.kind := by
  cases k <;> rfl

theorem mechanism_foldl_keeps (p : Part) (op : Operation) (chunks : List Bytes) :
    (chunks.foldl p.keeps op).mechanism = op.mechanism := by
  cases p with
  | stream k => rw [foldl_stream]
  | feed k => rw [foldl_feed]

theorem yields_whole (ready : Ready (k.start m key) k.kind m s h) (data : Bytes) :
    Yields (k.whole m key data) k.kind s h (.ok (output k.kind ⟨m.code, []⟩ data)) := by
  have other : k.kind ≠ .findObjects := by cases k <;> simp [Finish.kind]
  have same : k.oneShot.kind = k.kind := by cases k <;> rfl
  refine yields_start ready.clear ready.starts (role?_start k m key) other ?_
  intro s' h' underway initialized
  rw [mechanism_start, ← same] at underway
  rw [← same] at initialized ⊢
  exact yields_oneShot underway initialized

theorem yields_inParts (ready : Ready (k.start m key) k.kind m s h) (chunks : List Bytes) :
    Yields (k.inParts m key chunks) k.kind s h
      (.ok (output k.kind ⟨m.code, []⟩ chunks.flatten)) := by
  have other : k.kind ≠ .findObjects := by cases k <;> simp [Finish.kind]
  have several := isSingleStep_of_ready ready
  refine yields_start ready.clear ready.starts (role?_start k m key) other ?_
  intro s' h' underway _
  rw [mechanism_start, ← kind_part] at underway
  rw [← output_parts, ← kind_part]
  refine yields_parts k.part underway (by rwa [kind_part]) (r := .ok _) ?_
  intro s'' h'' underway'
  rw [kind_part] at underway' ⊢
  exact yields_finish underway' (by rwa [mechanism_foldl_keeps])

theorem yields_verifyWhole (ready : Ready (.init .verify m key) .verify m s h)
    (data signature : Bytes) : Yields (verifyWhole m key data signature) .verify s h
      (verdict signature (output .verify ⟨m.code, []⟩ data)) :=
  yields_start ready.clear ready.starts rfl (by decide) fun _ _ underway initialized =>
    yields_verify underway initialized

theorem yields_verifyInParts (ready : Ready (.init .verify m key) .verify m s h)
    (chunks : List Bytes) (signature : Bytes) :
    Yields (verifyInParts m key chunks signature) .verify s h
      (verdict signature (output .verify ⟨m.code, []⟩ chunks.flatten)) := by
  have several := isSingleStep_of_ready ready
  refine yields_start ready.clear ready.starts rfl (by decide) ?_
  intro s' h' underway _
  have others : ∀ s'' h'', Underway s.handle .verify
      (chunks.foldl (Part.feed .verify).keeps ⟨m.code, []⟩) s'' h''.state →
      Yields [.verifyFinal signature] .verify s'' h''
        (verdict signature (output .verify ⟨m.code, []⟩ chunks.flatten)) := by
    intro s'' h'' underway'
    rw [foldl_feed] at underway'
    have yields := yields_verifyFinal signature underway' several
    rwa [output_kept] at yields
  have yields := yields_parts (.feed .verify) underway several others
  rw [flatMap_feed] at yields
  cases result : verdict signature (output .verify ⟨m.code, []⟩ chunks.flatten) <;>
    rw [result] at yields <;> exact yields

/-- However its data is split, an operation gives the same as for the data in one call: encryption,
decryption, signing and digesting the same bytes, so that what was encrypted in any parts can be
decrypted in any parts, and verification the same verdict, which is that the signature is the one
that signing gives. Nothing is left under way. -/
theorem splitting_does_not_matter (m : Mechanism) (chunks : List Bytes) :
    (∀ (k : Finish) key s h, Ready (k.start m key) k.kind m s h →
      ∃ b, Yields (k.whole m key chunks.flatten) k.kind s h (.ok b) ∧
        Yields (k.inParts m key chunks) k.kind s h (.ok b)) ∧
    (∀ key s h, Ready (.init .encrypt m key) .encrypt m s h →
      ∃ b, Yields (Finish.encrypt.inParts m key chunks) .encrypt s h (.ok b) ∧
        ∀ key' s' h' parts, Ready (.init .decrypt m key') .decrypt m s' h' → parts.flatten = b →
          Yields (Finish.decrypt.inParts m key' parts) .decrypt s' h' (.ok chunks.flatten)) ∧
    (∀ key s h, Ready (.init .sign m key) .sign m s h →
      ∃ b, Yields (Finish.sign.whole m key chunks.flatten) .sign s h (.ok b) ∧
        ∀ key' s' h' signature, Ready (.init .verify m key') .verify m s' h' →
          Yields (verifyWhole m key' chunks.flatten signature) .verify s' h' (verdict signature b) ∧
          Yields (verifyInParts m key' chunks signature) .verify s' h' (verdict signature b)) := by
  refine ⟨?_, ?_, ?_⟩
  · intro k key s h ready
    exact ⟨_, yields_whole ready _, yields_inParts ready chunks⟩
  · intro key s h ready
    refine ⟨_, yields_inParts (k := .encrypt) ready chunks, ?_⟩
    intro key' s' h' parts ready' same
    have yields := yields_inParts (k := .decrypt) ready' parts
    rw [same] at yields
    change Yields _ _ s' h' (.ok (cipher (cipher chunks.flatten))) at yields
    rwa [cipher_cipher] at yields
  · intro key s h ready
    refine ⟨_, yields_whole (k := .sign) ready _, ?_⟩
    intro key' s' h' signature ready'
    exact ⟨yields_verifyWhole ready' _ signature, yields_verifyInParts ready' chunks signature⟩

def opened : Host Token := ⟨{ new with lastSession := 1, sessions := [1] }, []⟩

/-- Three bytes are signed, and then verified, in two parts with an empty one between them; and
what was encrypted in these parts is decrypted in one. -/
theorem splitting_does_not_matter_three_bytes :
    (∃ b, Yields (Finish.sign.inParts (.plain 0x40) 7 [[1], [], [2, 3]]) .sign (fresh 1 1) opened
        (.ok b) ∧
      Yields (verifyInParts (.plain 0x40) 7 [[1], [], [2, 3]] b) .verify (fresh 1 1) opened
        (.ok [])) ∧
    ∃ b, Yields (Finish.encrypt.inParts (.plain 0x1082) 7 [[1], [], [2, 3]]) .encrypt (fresh 1 1)
        opened (.ok b) ∧
      Yields (Finish.decrypt.inParts (.plain 0x1082) 7 [b]) .decrypt (fresh 1 1) opened
        (.ok [1, 2, 3]) := by
  have ready : ∀ (k : Keyed) code, (step Token.module (.init k (.plain code) 7) (fresh 1 1)
      opened).1 = .ok .done → protocol code k.kind ≠ .singleShot ∧ protocol code k.kind ≠ .recover →
      Ready (.init k (.plain code) 7) k.kind (.plain code) (fresh 1 1) opened :=
    fun _ _ starts several => ⟨fun _ => rfl, starts, several⟩
  constructor
  · have all := splitting_does_not_matter (.plain 0x40) [[1], [], [2, 3]]
    obtain ⟨b, whole, parts⟩ := all.1 .sign 7 _ _ (ready .sign 0x40 rfl (by decide))
    obtain ⟨b', whole', verified⟩ := all.2.2 7 _ _ (ready .sign 0x40 rfl (by decide))
    have same := whole.given.symm.trans whole'.given
    cases same
    have accepted := (verified 7 _ _ b (ready .verify 0x40 rfl (by decide))).2
    rw [verdict, if_pos rfl] at accepted
    exact ⟨b, parts, accepted⟩
  · have all := splitting_does_not_matter (.plain 0x1082) [[1], [], [2, 3]]
    obtain ⟨b, parts, decrypts⟩ := all.2.1 7 _ _ (ready .encrypt 0x1082 rfl (by decide))
    exact ⟨b, parts, decrypts 7 _ _ [b] (ready .decrypt 0x1082 rfl (by decide)) (by simp)⟩

end

end Token

end Cryptoki
