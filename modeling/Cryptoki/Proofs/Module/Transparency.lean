import Cryptoki.Module.Forwarding
import Cryptoki.Proofs.Session.Ending

/-!
A module behind a function table. Arguments by position and cells say all that a request and its
answer say, so that through a table which forwards its calls a module is used as it is used
directly: of an error the return value is left, and everything else stays as it is.
-/
namespace Cryptoki

variable {σ α β : Type} {M : Module σ} {T : FunctionTable σ} {s : Shape}

@[simp] theorem templateOf_arguments (entries : List Wire.Entry) :
    templateOf (if entries = [] then none else some entries) entries.length = entries := by
  cases entries <;> simp [templateOf]

@[simp] theorem templateOf_entries (entries : List Wire.Entry) :
    templateOf (some entries) entries.length = entries := by
  simp [templateOf]

@[simp] theorem capacityOf_arguments (capacity : Option Nat) :
    capacityOf capacity (capacity.getD 0) = capacity := by
  cases capacity <;> rfl

theorem requestOf?_arguments (q : Request s) :
    q.function.requestOf? q.arguments = some (.of q) := by
  -- The function computes on each list of arguments. What it took from pointers and lengths is
  -- left to compare.
  cases q <;>
  · refine congrArg some ?_
    simp

theorem valueOfCells_cells (q : Request s) (v : s.Value) : q.valueOfCells (s.cells v) = v := by
  cases q <;> rfl

/-- Each function that the table has finds out what is asked, asks the module for it, and gives
its answer by return value and cells. -/
def FunctionTable.Forwards (T : FunctionTable σ) (M : Module σ) : Prop :=
  ∀ f native, T.entry f = some native → ∀ args q, f.requestOf? args = some q → ∀ a,
    native args a = ((M.answer q.request a).1.reply, (M.answer q.request a).2)

/-- No error looks like a success. -/
def Module.Loud (M : Module σ) : Prop :=
  ∀ {s : Shape} (q : Request s) a e, (M.answer q a).1.result = .error e → e.rv ≠ Return.ok

theorem FunctionTable.forwards_without (missing : List Function) :
    ((FunctionTable.ofModule M).without missing).Forwards M := by
  intro f native present args q asked a
  simp only [without, ofModule] at present
  split at present <;> cases present
  simp only [Module.nativeFunction, asked]

def Result.returned : Result α → Result α
  | .ok v => .ok v
  | .error e => .error (.returned e.rv)

theorem Result.returned_eq_ok {r : Result α} {v : α} : r.returned = .ok v ↔ r = .ok v := by
  cases r <;> simp [returned]

def failureNotes (f : Function) : Result α → Journal
  | .ok _ => []
  | .error e => [failureNote f e.rv]

theorem answer_of_missing (q : Request s) (a : σ) (missing : T.entry q.function = none) :
    T.module.answer q a =
      (⟨.nothing, .error (.functionMissing q.function.symbol)⟩, a, []) := by
  simp only [FunctionTable.module, FunctionTable.answer, missing]

theorem answer_of_entry (forwards : T.Forwards M) (loud : M.Loud) (q : Request s) (a : σ)
    (present : (T.entry q.function).isSome) :
    T.module.answer q a =
      (⟨(M.answer q a).1.written, (M.answer q a).1.result.returned⟩, (M.answer q a).2.1,
        (M.answer q a).2.2 ++ failureNotes q.function (M.answer q a).1.result) := by
  obtain ⟨native, entry⟩ := Option.isSome_iff_exists.mp present
  have forwarded := forwards _ _ entry _ _ (requestOf?_arguments q) a
  simp only [AnyRequest.of] at forwarded
  simp only [FunctionTable.module, FunctionTable.answer, entry, forwarded, Answer.reply]
  cases result : (M.answer q a).1.result with
  | ok v => simp [valueOfCells_cells, Result.returned, failureNotes]
  | error e => simp [loud q a e result, Result.returned, failureNotes]

structure Refused (T : FunctionTable σ) (q : Request s) (a : σ) : Prop where
  state : (T.module.answer q a).2.1 = a
  notes : (T.module.answer q a).2.2 = []
  written : (T.module.answer q a).1.written = .nothing
  result : ∃ e, (T.module.answer q a).1.result = .error e ∧ e.kind = .module ∧
    e.rv = Return.functionNotSupported

structure Passed (T : FunctionTable σ) (M : Module σ) (q : Request s) (a : σ) : Prop where
  state : (T.module.answer q a).2.1 = (M.answer q a).2.1
  notes : (M.answer q a).2.2 <+: (T.module.answer q a).2.2
  written : (T.module.answer q a).1.written = (M.answer q a).1.written
  succeeds : ∀ v, (T.module.answer q a).1.result = .ok v ↔ (M.answer q a).1.result = .ok v
  fails : ∀ e, (M.answer q a).1.result = .error e →
    ∃ e', (T.module.answer q a).1.result = .error e' ∧ e'.kind = .module ∧ e'.rv = e.rv

theorem refused_of_missing (q : Request s) (a : σ) (missing : T.entry q.function = none) :
    Refused T q a := by
  have answer := answer_of_missing q a missing
  exact ⟨by rw [answer], by rw [answer], by rw [answer], _, by rw [answer], rfl, rfl⟩

theorem passed_of_entry (forwards : T.Forwards M) (loud : M.Loud) (q : Request s) (a : σ)
    (present : (T.entry q.function).isSome) : Passed T M q a := by
  have answer := answer_of_entry forwards loud q a present
  refine ⟨by rw [answer], ?_, by rw [answer], fun v => ?_, fun e failed => ?_⟩
  · rw [answer]
    exact List.prefix_append _ _
  · rw [answer]
    exact Result.returned_eq_ok
  · refine ⟨.returned e.rv, ?_, rfl, rfl⟩
    rw [answer, failed]
    rfl

/-- The exchanges that get through the table. -/
def FunctionTable.through (T : FunctionTable σ) (xs : List Exchange) : List Exchange :=
  xs.filter fun x => (T.entry x.request.function).isSome

def Exchange.returned (x : Exchange) : Exchange :=
  ⟨x.shape, x.request, ⟨x.answer.written, x.answer.result.returned⟩⟩

theorem exchanges_through (forwards : T.Forwards M) (loud : M.Loud) {xs : List Exchange} {a b : σ}
    (exchanges : T.module.Exchanges xs a b) :
    ∃ ys, M.Exchanges ys a b ∧ T.through xs = ys.map Exchange.returned := by
  induction exchanges with
  | nil a => exact ⟨[], .nil a, rfl⟩
  | @cons shape q xs a b rest ih =>
    obtain ⟨ys, direct, same⟩ := ih
    cases entry : T.entry q.function with
    | none =>
      -- The module was not reached, and is where it was.
      rw [answer_of_missing q a entry] at direct
      refine ⟨ys, direct, ?_⟩
      rw [← same]
      simp [FunctionTable.through, entry]
    | some native =>
      have present : (T.entry q.function).isSome := by rw [entry]; rfl
      have answer := answer_of_entry forwards loud q a present
      rw [answer] at direct
      refine ⟨_, .cons q direct, ?_⟩
      rw [List.map_cons, ← same, answer]
      simp [FunctionTable.through, entry, Exchange.returned]

namespace SessionM

variable {through direct : SessionM σ α}

/-- From equal states both actions come to equal states and sessions, and to one result but for
the wording of errors. -/
def Mirrors (through direct : SessionM σ α) : Prop :=
  ∀ (s : Session) (h₁ h₂ : Host σ), h₁.state = h₂.state →
    (through s h₁).1 = (Result.returned (direct s h₂).1.1, (direct s h₂).1.2) ∧
      (through s h₁).2.state = (direct s h₂).2.state

theorem mirrors_pure (v : α) : Mirrors (pure v : SessionM σ α) (pure v) :=
  fun _ _ _ same => ⟨rfl, same⟩

theorem mirrors_ofResult (r : Result α) :
    Mirrors (ofResult r.returned : SessionM σ α) (ofResult r) := by
  intro s h₁ h₂ same
  cases r <;> exact ⟨rfl, same⟩

theorem mirrors_reserve (size : Nat) :
    Mirrors (reserve size : SessionM σ Unit) (reserve size) := mirrors_pure ()

theorem Mirrors.bind {f g : α → SessionM σ β} (first : Mirrors through direct)
    (second : ∀ v, Mirrors (f v) (g v)) : Mirrors (through >>= f) (direct >>= g) := by
  intro s h₁ h₂ same
  obtain ⟨results, states⟩ := first s h₁ h₂ same
  rcases run₁ : through s h₁ with ⟨⟨r₁, s₁⟩, h₁'⟩
  rcases run₂ : direct s h₂ with ⟨⟨r₂, s₂⟩, h₂'⟩
  rw [run₁, run₂] at results states
  cases results
  cases r₂ with
  | ok v =>
    rw [bind_of_ok run₁, bind_of_ok run₂]
    exact second v s₂ h₁' h₂' states
  | error e =>
    rw [bind_of_error run₁, bind_of_error run₂]
    exact ⟨rfl, states⟩

theorem mirrors_askAnswer_bind {f g : Answer s → SessionM σ β} (forwards : T.Forwards M)
    (loud : M.Loud) {q : Request s} (present : (T.entry q.function).isSome)
    (next : ∀ answer, Mirrors (f ⟨answer.written, answer.result.returned⟩) (g answer)) :
    Mirrors (askAnswer T.module q >>= f) (askAnswer M q >>= g) := by
  intro session h₁ h₂ same
  have asked : ∀ (N : Module σ) (f : Answer s → SessionM σ β) (h : Host σ),
      (askAnswer N q >>= f) session h = f (N.answer q h.state).1 session
        ⟨(N.answer q h.state).2.1, h.journal ++ (N.answer q h.state).2.2⟩ := fun _ _ _ => rfl
  rw [asked, asked, answer_of_entry forwards loud q h₁.state present, same]
  exact next _ session _ _ rfl

theorem mirrors_sizedOutput (forwards : T.Forwards M) (loud : M.Loud)
    {q : Option Nat → Request .length}
    (present : ∀ capacity, (T.entry (q capacity).function).isSome) :
    Mirrors (sizedOutput T.module q) (sizedOutput M q) :=
  (mirrors_askAnswer_bind forwards loud (present none) fun answer =>
    mirrors_ofResult answer.result).bind fun size => (mirrors_reserve size).bind fun _ =>
  mirrors_askAnswer_bind forwards loud (present (some size)) fun answer =>
    (mirrors_ofResult answer.result).bind fun _ => mirrors_pure _

theorem ends_sizedOutput_second {q : Option Nat → Request .length} {session : Session} {a : σ}
    {size : Nat} (told : (M.answer (q none) a).1.result = .ok size) :
    Ends (sizedOutput M q) session a fun _ _ b =>
      b = (M.answer (q (some size)) (M.answer (q none) a).2.1).2.1 := by
  refine ends_ask_bind (fun size' told' => ?_) fun e failed => ?_
  · cases told.symm.trans told'
    refine quiet_reserve.ends (ends_askAnswer_bind ?_)
    exact ends_ofResult_bind (fun _ _ => ends_pure rfl) fun _ _ => rfl
  · cases told.symm.trans failed

end SessionM

structure Sized (T : FunctionTable σ) (M : Module σ) (q : Option Nat → Request .length)
    (session : Session) (h : Host σ) : Prop where
  result : (SessionM.sizedOutput T.module q session h).1 =
    (Result.returned (SessionM.sizedOutput M q session h).1.1,
      (SessionM.sizedOutput M q session h).1.2)
  state : (SessionM.sizedOutput T.module q session h).2.state =
    (SessionM.sizedOutput M q session h).2.state
  second : ∀ size, (M.answer (q none) h.state).1.result = .ok size →
    (SessionM.sizedOutput T.module q session h).2.state =
      (M.answer (q (some size)) (M.answer (q none) h.state).2.1).2.1

/-- Through a table that forwards its calls a module is used as it is used directly. A function
that is missing fails and does nothing; any other comes to the same answer, but for the wording of
errors, and to the same state. So do outputs whose length is asked for first. In a row of calls
the module serves just those that the table has functions for. -/
theorem FunctionTable.is_transparent (forwards : T.Forwards M) (loud : M.Loud) :
    (∀ {s : Shape} (q : Request s) a, T.entry q.function = none → Refused T q a) ∧
    (∀ {s : Shape} (q : Request s) a, (T.entry q.function).isSome → Passed T M q a) ∧
    (∀ q : Option Nat → Request .length,
      (∀ capacity, (T.entry (q capacity).function).isSome) →
        ∀ session h, Sized T M q session h) ∧
    ∀ xs a b, T.module.Exchanges xs a b →
      ∃ ys, M.Exchanges ys a b ∧ T.through xs = ys.map Exchange.returned := by
  refine ⟨refused_of_missing, passed_of_entry forwards loud, fun q present session h => ?_,
    fun _ _ _ => exchanges_through forwards loud⟩
  obtain ⟨result, state⟩ := SessionM.mirrors_sizedOutput forwards loud present session h h rfl
  refine ⟨result, state, fun size told => ?_⟩
  rw [state]
  exact SessionM.ends_sizedOutput_second told h.journal

def Module.mute : Module Nat :=
  ⟨fun {s} (q : Request s) n =>
    match q with
    | .oneShot _ _ _ none => (⟨.nothing, .ok 0⟩, n, [])
    | .oneShot _ _ _ (some _) => (⟨.bytes [], .ok 0⟩, n + 1, [])
    | _ => (.unsupported, n, [])⟩

theorem Module.loud_mute : Module.mute.Loud := by
  intro s q n e failed
  cases q
  case oneShot k h data capacity => cases capacity <;> cases failed
  all_goals
    cases failed
    decide

/-- A table without a function for seeds. The output that has no bytes is asked for once with a
buffer. -/
theorem FunctionTable.is_transparent_mute :
    let T := (FunctionTable.ofModule Module.mute).without [.seedRandom]
    let session : Session := ⟨1, 1, fun _ => .idle⟩
    let digest := SessionM.sizedOutput T.module (.oneShot .digest 1 []) session ⟨0, []⟩
    digest.1.1 = .ok [] ∧ digest.2.state = 1 ∧ Refused T (.seedRandom 1 []) 0 := by
  intro T session digest
  obtain ⟨missing, _, sized, _⟩ :=
    FunctionTable.is_transparent (FunctionTable.forwards_without [.seedRandom]) Module.loud_mute
  have same := sized (.oneShot .digest 1 []) (fun _ => rfl) session ⟨0, []⟩
  exact ⟨congrArg Prod.fst same.result, same.second 0 rfl, missing _ 0 rfl⟩

end Cryptoki
