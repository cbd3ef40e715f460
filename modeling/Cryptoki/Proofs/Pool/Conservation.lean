import Cryptoki.Proofs.Pool.Lending

/-!
However a pool is used, no session is lost and none is shared: each is idle, or in one user's hands,
or gone, and the module is asked once to close it.
-/
namespace Cryptoki

variable {σ α : Type} {M : Module σ}

namespace Pool

variable {p : Pool} {s : Session} {timeout : Duration} {h : Host σ}

theorem take_of_closed (closed : p.closed = true) :
    p.take timeout h = ((.error .poolClosed, p), h) := by
  simp only [take, closed, ↓reduceIte]
  rfl

theorem take_of_empty (opened : p.closed = false) (empty : p.idle = []) :
    p.take timeout h = ((.error (.noSession timeout), p), h) := by
  simp only [take, opened, empty]
  rfl

theorem take_of_idle {rest : List Session} (opened : p.closed = false) (idle : p.idle = s :: rest) :
    p.take timeout h = ((.ok s, { p with idle := rest }), ⟨h.state, h.journal ++
      [⟨.debug, "session " ++ toString s.handle ++ " borrowed"⟩]⟩) := by
  simp only [take, opened, idle]
  rfl

theorem take_fails_iff (p : Pool) (timeout : Duration) (h : Host σ) (e : Error) :
    (p.take timeout h).1.1 = .error e ↔
      (p.closed = true ∧ e = .poolClosed) ∨
      (p.closed = false ∧ p.idle = [] ∧ e = .noSession timeout) := by
  cases closed : p.closed with
  | true =>
    rw [take_of_closed closed]
    simp [eq_comm]
  | false =>
    cases idle : p.idle with
    | nil =>
      rw [take_of_empty closed idle]
      simp [eq_comm]
    | cons s rest =>
      rw [take_of_idle closed idle]
      simp

theorem receive_run (p : Pool) (s : Session) (h : Host σ) :
    (p.receive s h).2.state = h.state ∧
      (p.receive s h).1 = match p.refusal? with
        | some _ => (false, p)
        | none => (true, { p with idle := s :: p.idle }) := by
  simp only [receive]
  cases !s.isIdle <;> cases p.refusal? <;> exact ⟨rfl, rfl⟩

theorem refusal?_eq_none : p.refusal? = none ↔ p.closed = false ∧ p.idle.length < p.capacity := by
  unfold refusal?
  split
  · simp [*]
  · split
    · simp [*]
    · simp [*]
      omega

theorem requite_of_refused {h : Host (σ × List Exchange)} (refused : p.refusal? ≠ none) :
    (p.requite M.logged s h).1 = p ∧
      (p.requite M.logged s h).2.closed = h.closed ++ [s.handle] := by
  obtain ⟨reason, refused⟩ := Option.ne_none_iff_exists'.mp refused
  obtain ⟨same, result⟩ := receive_run p s h
  rw [refused] at result
  have run : p.requite M.logged s h = (p, (dismiss M.logged s (p.receive s h).2).2) := by
    simp only [requite, bind, StateT.bind]
    rw [show p.receive s h = ((false, p), (p.receive s h).2) from Prod.ext result rfl]
    rfl
  rw [run]
  refine ⟨rfl, ?_⟩
  have closes := (closes_dismiss M s (p.receive s h).2).closed
  rw [Host.closed, Host.closed, same] at closes
  exact closes

theorem closes_closeAll (M : Module σ) (p : Pool) (h : Host (σ × List Exchange)) :
    (p.closeAll M.logged h).1.2 = { p with idle := [], closed := true } ∧
      Closes p.idle.reverse h (p.closeAll M.logged h).1.1 (p.closeAll M.logged h).2 :=
  ⟨rfl, closes_dismissAll M p.idle.reverse h⟩

end Pool

namespace Lending

variable {l l' : Lending σ}

/-- Every session there ever was is in one place. -/
structure Kept (l : Lending σ) : Prop where
  distinct : l.known.Nodup
  placed : l.known.Perm l.places

theorem withdraw_perm {handle : α → Handle} {h : Handle} {xs rest : List α} {a : α}
    (found : withdraw handle h xs = some (a, rest)) : handle a = h ∧ xs.Perm (a :: rest) := by
  induction xs generalizing a rest with
  | nil => cases found
  | cons x xs ih =>
    unfold withdraw at found
    split at found
    · rename_i same
      cases found
      exact ⟨same, List.Perm.refl _⟩
    · obtain ⟨⟨b, others⟩, deeper, eq⟩ := Option.map_eq_some_iff.mp found
      cases eq
      obtain ⟨same, perm⟩ := ih deeper
      exact ⟨same, (perm.cons x).trans (List.Perm.swap _ _ _)⟩

theorem onLoan_cases {motive : Lending σ → Prop} {h : Handle} {f : Loan → List Loan → Lending σ}
    (absent : motive l)
    (present : ∀ loan rest, loan.session.handle = h → l.loans.Perm (loan :: rest) →
      motive (f loan rest)) : motive (l.onLoan h f) := by
  unfold onLoan
  split
  · rename_i loan rest found
    obtain ⟨same, perm⟩ := withdraw_perm found
    exact present loan rest same perm
  · exact absent

theorem count_of_perm {handle : α → Handle} {xs rest : List α} {a : α} (perm : xs.Perm (a :: rest))
    (x : Handle) :
    (xs.map handle).count x = (rest.map handle).count x + if handle a = x then 1 else 0 := by
  rw [(perm.map handle).count_eq, List.map_cons, List.count_cons]
  simp

/-- Places are compared by how often a handle is in them, so that moves add up. -/
theorem count_places (l : Lending σ) (x : Handle) :
    l.places.count x = l.idle.count x + l.held.count x + (l.leaving.map (·.handle)).count x +
      l.host.closed.count x := by
  simp only [places, gone, List.count_append]
  omega

theorem Kept.moved (kept : Kept l) (known : l'.known = l.known)
    (count : ∀ x, l'.places.count x = l.places.count x) : Kept l' where
  distinct := by
    rw [known]
    exact kept.distinct
  placed := by
    rw [known]
    refine kept.placed.trans ?_
    rw [List.perm_iff_count]
    intro x
    exact (count x).symm

theorem kept_start (a : σ) (sessions : List Session) (distinct : (sessions.map (·.handle)).Nodup) :
    Kept (start a sessions) where
  distinct := distinct
  placed := by
    rw [List.perm_iff_count]
    intro x
    rw [count_places]
    simp [start, idle, held, Pool.ofSessions, Host.closed, closings]

theorem kept_take (kept : Kept l) (user : Nat) (guarded : Bool) (timeout : Duration) :
    Kept (l.step M (.take user guarded timeout)) := by
  cases closed : l.pool.closed with
  | true =>
    simp only [step, Pool.take_of_closed closed]
    exact kept
  | false =>
    cases idle : l.pool.idle with
    | nil =>
      simp only [step, Pool.take_of_empty closed idle]
      exact kept
    | cons s rest =>
      simp only [step, Pool.take_of_idle closed idle]
      refine kept.moved rfl fun x => ?_
      rw [count_places, count_places]
      simp only [Lending.idle, held, idle, List.map_cons, List.count_cons, Host.closed]
      omega

theorem giveBack_of_room {s : Session} {rest : List Loan} (room : l.pool.refusal? = none) :
    l.giveBack s rest = { l with
      host := (l.pool.receive s l.host).2
      pool := { l.pool with idle := s :: l.pool.idle }
      loans := rest } := by
  have result := (Pool.receive_run l.pool s l.host).2
  rw [room] at result
  rw [giveBack, show l.pool.receive s l.host =
    ((true, { l.pool with idle := s :: l.pool.idle }), (l.pool.receive s l.host).2) from
      Prod.ext result rfl]
  rfl

theorem giveBack_of_refused {s : Session} {rest : List Loan} (refused : l.pool.refusal? ≠ none) :
    l.giveBack s rest = { l with
      host := (l.pool.receive s l.host).2
      loans := rest
      leaving := s :: l.leaving } := by
  obtain ⟨reason, refused⟩ := Option.ne_none_iff_exists'.mp refused
  have result := (Pool.receive_run l.pool s l.host).2
  rw [refused] at result
  rw [giveBack, show l.pool.receive s l.host =
    ((false, l.pool), (l.pool.receive s l.host).2) from Prod.ext result rfl]
  rfl

theorem closed_receive (p : Pool) (s : Session) (h : Host (σ × List Exchange)) :
    (p.receive s h).2.closed = h.closed := by
  rw [Host.closed, (Pool.receive_run p s h).1, Host.closed]

theorem kept_giveBack (kept : Kept l) {loan : Loan} {rest : List Loan}
    (perm : l.loans.Perm (loan :: rest)) : Kept (l.giveBack loan.session rest) := by
  have count (x : Handle) : (l.loans.map (·.session.handle)).count x =
      (rest.map (·.session.handle)).count x + if loan.session.handle = x then 1 else 0 :=
    count_of_perm perm x
  by_cases room : l.pool.refusal? = none
  · rw [giveBack_of_room room]
    refine kept.moved rfl fun x => ?_
    rw [count_places, count_places, closed_receive]
    simp only [idle, held, count x, List.map_cons, List.count_cons]
    simp
    omega
  · rw [giveBack_of_refused room]
    refine kept.moved rfl fun x => ?_
    rw [count_places, count_places, closed_receive]
    simp only [idle, held, count x, List.map_cons, List.count_cons]
    simp
    omega

theorem kept_closeAll (kept : Kept l) : Kept (l.step M .closeAll) := by
  refine kept.moved rfl fun x => ?_
  rw [count_places, count_places]
  simp only [step, Pool.shut, idle, held, List.map_append, List.map_reverse, List.count_append,
    List.count_reverse, List.map_nil, List.count_nil]
  omega

theorem kept_dismiss (kept : Kept l) (h : Handle) : Kept (l.step M (.dismiss h)) := by
  cases found : withdraw (·.handle) h l.leaving with
  | none =>
    simp only [step, found]
    exact kept
  | some taken =>
    obtain ⟨s, rest⟩ := taken
    simp only [step, found]
    refine kept.moved rfl fun x => ?_
    rw [count_places, count_places, (Pool.closes_dismiss M s l.host).closed]
    simp only [idle, held, count_of_perm (withdraw_perm found).2 x, List.count_append,
      List.map_cons, List.map_nil, List.count_cons, List.count_nil]
    simp
    omega

theorem kept_bring (kept : Kept l) (user : Nat) (s : Session) :
    Kept (l.step M (.bring user s)) := by
  by_cases known : s.handle ∈ l.known
  · simp only [step, if_pos known]
    exact kept
  · simp only [step, if_neg known]
    refine ⟨List.nodup_cons.mpr ⟨known, kept.distinct⟩, ?_⟩
    rw [List.perm_iff_count]
    intro x
    have before := kept.placed.count_eq x
    rw [count_places] at before ⊢
    simp only [idle, held, List.map_cons, List.count_cons] at before ⊢
    omega

theorem kept_of_loan (kept : Kept l) {loan : Loan} {rest loans : List Loan}
    {host : Host (σ × List Exchange)} (perm : l.loans.Perm (loan :: rest))
    (count : ∀ x, (loans.map (·.session.handle)).count x + host.closed.count x =
      (rest.map (·.session.handle)).count x + l.host.closed.count x +
        if loan.session.handle = x then 1 else 0) :
    Kept { l with host, loans } := by
  refine kept.moved rfl fun x => ?_
  rw [count_places, count_places]
  have before : (l.loans.map (·.session.handle)).count x =
      (rest.map (·.session.handle)).count x + if loan.session.handle = x then 1 else 0 :=
    count_of_perm perm x
  have after := count x
  simp only [idle, held]
  omega

theorem kept_step (kept : Kept l) (e : Event) : Kept (l.step M e) := by
  cases e with
  | take user guarded timeout => exact kept_take kept user guarded timeout
  | closeAll => exact kept_closeAll kept
  | dismiss h => exact kept_dismiss kept h
  | bring user s => exact kept_bring kept user s
  | requite h =>
    refine onLoan_cases kept fun loan rest same perm => ?_
    split
    · exact kept
    · exact kept_giveBack kept perm
  | dropGuard h =>
    refine onLoan_cases kept fun loan rest same perm => ?_
    split
    · exact kept_giveBack kept perm
    · exact kept
  | detach h =>
    refine onLoan_cases kept fun loan rest same perm => kept_of_loan kept perm fun x => ?_
    simp only [List.map_cons, List.count_cons]
    simp
    omega
  | call h c =>
    refine onLoan_cases kept fun loan rest same perm => ?_
    obtain ⟨own, closed⟩ := closed_step (M := M) (s := loan.session) (h := l.host) c
    generalize Session.step M.logged c loan.session l.host = stepped at own closed ⊢
    refine kept_of_loan kept perm fun x => ?_
    rw [closed]
    simp only [List.map_cons, List.count_cons, own]
    simp
    omega
  | close h =>
    refine onLoan_cases kept fun loan rest same perm => ?_
    split
    · exact kept
    · refine kept_of_loan kept perm fun x => ?_
      rw [(closes_close M loan.session l.host).closed]
      simp [List.count_append, List.count_cons]
      omega
  | drop h =>
    refine onLoan_cases kept fun loan rest same perm => ?_
    split
    · exact kept
    · refine kept_of_loan kept perm fun x => ?_
      rw [closed_drop]
      simp [List.count_append, List.count_cons]
      omega

theorem kept_run (events : List Event) (kept : Kept l) : Kept (l.run M events) := by
  induction events generalizing l with
  | nil => exact kept
  | cons e rest ih => exact ih (kept_step kept e)

/-- What one event may do to a pool. -/
inductive Moves (p : Pool) : Pool → Prop where
  | nothing : Moves p p
  | taken (s : Session) (rest : List Session) (idle : p.idle = s :: rest) :
    Moves p { p with idle := rest }
  | kept (s : Session) (room : p.refusal? = none) : Moves p { p with idle := s :: p.idle }
  | shut : Moves p { p with idle := [], closed := true }

theorem moves_giveBack (l : Lending σ) (s : Session) (rest : List Loan) :
    Moves l.pool (l.giveBack s rest).pool := by
  by_cases room : l.pool.refusal? = none
  · rw [giveBack_of_room room]
    exact .kept s room
  · rw [giveBack_of_refused room]
    exact .nothing

theorem moves_step (l : Lending σ) (e : Event) : Moves l.pool (l.step M e).pool := by
  cases e with
  | take user guarded timeout =>
    cases closed : l.pool.closed with
    | true =>
      simp only [step, Pool.take_of_closed closed]
      exact .nothing
    | false =>
      cases idle : l.pool.idle with
      | nil =>
        simp only [step, Pool.take_of_empty closed idle]
        exact .nothing
      | cons s rest =>
        simp only [step, Pool.take_of_idle closed idle]
        exact .taken s rest idle
  | requite h =>
    refine onLoan_cases (motive := fun l' => Moves l.pool l'.pool) .nothing fun loan rest _ _ => ?_
    split
    · exact .nothing
    · exact moves_giveBack l loan.session rest
  | dropGuard h =>
    refine onLoan_cases (motive := fun l' => Moves l.pool l'.pool) .nothing fun loan rest _ _ => ?_
    split
    · exact moves_giveBack l loan.session rest
    · exact .nothing
  | closeAll => exact .shut
  | dismiss h =>
    simp only [step]
    split <;> exact .nothing
  | bring user s =>
    simp only [step]
    split <;> exact .nothing
  | detach h | call h c =>
    exact onLoan_cases (motive := fun l' => Moves l.pool l'.pool) .nothing fun _ _ _ _ => .nothing
  | close h | drop h =>
    refine onLoan_cases (motive := fun l' => Moves l.pool l'.pool) .nothing fun loan rest _ _ => ?_
    split <;> exact .nothing

theorem Moves.capacity {p p' : Pool} (moves : Moves p p') : p'.capacity = p.capacity := by
  cases moves <;> rfl

theorem Moves.closed {p p' : Pool} (moves : Moves p p') (closed : p.closed = true) :
    p'.closed = true := by
  cases moves with
  | shut => rfl
  | nothing | taken | kept => exact closed

structure Fits (p : Pool) : Prop where
  bounded : p.idle.length ≤ p.capacity
  empty : p.closed = true → p.idle = []

theorem fits_ofSessions (sessions : List Session) : Fits (.ofSessions sessions) where
  bounded := by simp [Pool.ofSessions]
  empty closed := by cases closed

theorem Moves.fits {p p' : Pool} (moves : Moves p p') (fits : Fits p) : Fits p' := by
  cases moves with
  | nothing => exact fits
  | taken s rest idle =>
    have bounded := fits.bounded
    rw [idle, List.length_cons] at bounded
    refine ⟨Nat.le_of_succ_le bounded, fun closed => ?_⟩
    rw [fits.empty closed] at idle
    cases idle
  | kept s room =>
    obtain ⟨opened, below⟩ := Pool.refusal?_eq_none.mp room
    refine ⟨below, fun closed => ?_⟩
    rw [opened] at closed
    cases closed
  | shut => exact ⟨Nat.zero_le _, fun _ => rfl⟩

theorem fits_run (events : List Event) (fits : Fits l.pool) : Fits (l.run M events).pool := by
  induction events generalizing l with
  | nil => exact fits
  | cons e rest ih => exact ih ((l.moves_step e).fits fits)

theorem capacity_run (l : Lending σ) (events : List Event) :
    (l.run M events).pool.capacity = l.pool.capacity := by
  induction events generalizing l with
  | nil => rfl
  | cons e rest ih => exact (ih (l.step M e)).trans (l.moves_step e).capacity

theorem closed_run (events : List Event) (closed : l.pool.closed = true) :
    (l.run M events).pool.closed = true := by
  induction events generalizing l with
  | nil => exact closed
  | cons e rest ih => exact ih ((l.moves_step e).closed closed)

theorem closed_of_closeAll (events : List Event) (called : .closeAll ∈ events) :
    (l.run M events).pool.closed = true := by
  induction events generalizing l with
  | nil => cases called
  | cons e rest ih =>
    rcases List.mem_cons.mp called with rfl | later
    · exact closed_run rest rfl
    · exact ih later

/-- The sessions that were taken from the pool and are still in use. -/
def lent (l : Lending σ) : Nat := l.loans.countP (·.lent)

/-- Only sessions taken from the pool are returned, those are not closed by those who took them, and
the pool is not closed. -/
def Tame (l : Lending σ) : Event → Prop
  | .requite h | .dropGuard h => ∀ loan ∈ l.loans, loan.session.handle = h → loan.lent = true
  | .close h | .drop h => ∀ loan ∈ l.loans, loan.session.handle = h → loan.lent = false
  | .closeAll => False
  | _ => True

instance (l : Lending σ) : (e : Event) → Decidable (l.Tame e)
  | .requite h | .dropGuard h =>
    inferInstanceAs (Decidable (∀ loan ∈ l.loans, loan.session.handle = h → loan.lent = true))
  | .close h | .drop h =>
    inferInstanceAs (Decidable (∀ loan ∈ l.loans, loan.session.handle = h → loan.lent = false))
  | .closeAll => isFalse id
  | .take .. | .detach _ | .dismiss _ | .bring .. | .call .. => isTrue trivial

def TameRun (M : Module σ) : Lending σ → List Event → Prop
  | _, [] => True
  | l, e :: rest => l.Tame e ∧ TameRun M (l.step M e) rest

instance TameRun.decidable (M : Module σ) :
    (l : Lending σ) → (events : List Event) → Decidable (TameRun M l events)
  | _, [] => isTrue trivial
  | l, e :: rest =>
    have := TameRun.decidable M (l.step M e) rest
    inferInstanceAs (Decidable (l.Tame e ∧ TameRun M (l.step M e) rest))

/-- The pool is open, and what is not idle in it is lent. -/
structure Balanced (l : Lending σ) : Prop where
  opened : l.pool.closed = false
  counted : l.pool.idle.length + l.lent = l.pool.capacity

theorem balanced_start (a : σ) (sessions : List Session) : Balanced (start a sessions) where
  opened := rfl
  counted := by simp [start, lent, Pool.ofSessions]

theorem Balanced.room (balanced : Balanced l) {loan : Loan} (member : loan ∈ l.loans)
    (taken : loan.lent = true) : l.pool.refusal? = none := by
  have some_lent : 0 < l.lent := List.countP_pos_iff.mpr ⟨loan, member, taken⟩
  have counted := balanced.counted
  exact Pool.refusal?_eq_none.mpr ⟨balanced.opened, by omega⟩

theorem lent_of_perm {loan : Loan} {rest : List Loan} (perm : l.loans.Perm (loan :: rest)) :
    l.lent = rest.countP (·.lent) + if loan.lent then 1 else 0 := by
  rw [lent, perm.countP_eq, List.countP_cons]

theorem Balanced.giveBack (balanced : Balanced l) {loan : Loan} {rest : List Loan}
    (perm : l.loans.Perm (loan :: rest)) (taken : loan.lent = true) :
    Balanced (l.giveBack loan.session rest) := by
  have room := balanced.room (perm.symm.subset List.mem_cons_self) taken
  have counted := balanced.counted
  rw [lent_of_perm perm, if_pos taken] at counted
  rw [giveBack_of_room room]
  refine ⟨balanced.opened, ?_⟩
  simp only [lent, List.length_cons]
  omega

theorem Balanced.same (balanced : Balanced l) (pool : l'.pool = l.pool) (same : l'.lent = l.lent) :
    Balanced l' where
  opened := by
    rw [pool]
    exact balanced.opened
  counted := by
    rw [pool, same]
    exact balanced.counted

theorem balanced_step (balanced : Balanced l) {e : Event} (tame : l.Tame e) :
    Balanced (l.step M e) := by
  have member {loan : Loan} {rest : List Loan} (perm : l.loans.Perm (loan :: rest)) :
      loan ∈ l.loans := perm.symm.subset List.mem_cons_self
  cases e with
  | take user guarded timeout =>
    cases idle : l.pool.idle with
    | nil =>
      simp only [step, Pool.take_of_empty balanced.opened idle]
      exact balanced
    | cons s rest =>
      simp only [step, Pool.take_of_idle balanced.opened idle]
      have counted := balanced.counted
      rw [idle, List.length_cons] at counted
      refine ⟨balanced.opened, ?_⟩
      simp only [lent, List.countP_cons] at counted ⊢
      simp
      omega
  | requite h =>
    refine onLoan_cases balanced fun loan rest same perm => ?_
    split
    · exact balanced
    · exact balanced.giveBack perm (tame loan (member perm) same)
  | dropGuard h =>
    refine onLoan_cases balanced fun loan rest same perm => ?_
    split
    · exact balanced.giveBack perm (tame loan (member perm) same)
    · exact balanced
  | closeAll => exact tame.elim
  | dismiss h =>
    simp only [step]
    split
    · exact balanced.same rfl rfl
    · exact balanced
  | bring user s =>
    simp only [step]
    split
    · exact balanced
    · exact balanced.same rfl (by simp [lent])
  | detach h =>
    refine onLoan_cases balanced fun loan rest same perm => balanced.same rfl ?_
    rw [lent_of_perm perm, lent, List.countP_cons]
  | call h c =>
    refine onLoan_cases balanced fun loan rest same perm => balanced.same rfl ?_
    rw [lent_of_perm perm, lent, List.countP_cons]
  | close h =>
    refine onLoan_cases balanced fun loan rest same perm => ?_
    split
    · exact balanced
    · refine balanced.same rfl ?_
      rw [lent_of_perm perm, tame loan (member perm) same]
      rfl
  | drop h =>
    refine onLoan_cases balanced fun loan rest same perm => ?_
    split
    · exact balanced
    · refine balanced.same rfl ?_
      rw [lent_of_perm perm, tame loan (member perm) same]
      rfl

theorem balanced_run (events : List Event) (balanced : Balanced l) (tame : TameRun M l events) :
    Balanced (l.run M events) := by
  induction events generalizing l with
  | nil => exact balanced
  | cons e rest ih => exact ih (balanced_step balanced tame.1) tame.2

/-- What holds of a pool in use, at any time. Takes and returns are looked at from any state that
the module may be in. -/
structure Conserved (M : Module σ) (l : Lending σ) : Prop where
  placed : l.known.Perm (l.idle ++ l.held ++ l.gone)
  once : (l.idle ++ l.held ++ l.gone).Nodup
  closed_once : l.host.closed.Nodup
  closed_unused : ∀ h ∈ l.host.closed, h ∉ l.idle ∧ h ∉ l.held
  available_le : l.pool.available ≤ l.pool.capacity
  take_fails : ∀ timeout (h : Host σ) e, (l.pool.take timeout h).1.1 = .error e ↔
    (l.pool.closed = true ∧ e = .poolClosed) ∨
    (l.pool.closed = false ∧ l.pool.available = 0 ∧ e = .noSession timeout)
  closed_is_empty : l.pool.closed = true → l.pool.available = 0
  closed_takes_fail : l.pool.closed = true → ∀ timeout (h : Host σ), ∃ e,
    (l.pool.take timeout h).1.1 = .error e ∧ e.rv = Return.sessionClosed
  closed_refuses : l.pool.closed = true → ∀ s h,
    (l.pool.requite M.logged s h).1 = l.pool ∧
      (l.pool.requite M.logged s h).2.closed = h.closed ++ [s.handle]
  closeAll_tries_all : ∀ h,
    Closes l.pool.idle.reverse h (l.pool.closeAll M.logged h).1.1 (l.pool.closeAll M.logged h).2

theorem Kept.once (kept : Kept l) : (l.idle ++ l.held ++ l.gone).Nodup :=
  kept.placed.nodup_iff.mp kept.distinct

theorem Kept.conserved (kept : Kept l) (fits : Fits l.pool) : Conserved M l where
  placed := kept.placed
  once := kept.once
  closed_once := (List.nodup_append.mp (List.nodup_append.mp kept.once).2.1).2.1
  closed_unused h closed := by
    have gone : h ∈ l.gone := List.mem_append_right _ closed
    have apart := (List.nodup_append.mp kept.once).2.2
    refine ⟨fun idle => ?_, fun held => ?_⟩
    · exact apart h (List.mem_append_left _ idle) h gone rfl
    · exact apart h (List.mem_append_right _ held) h gone rfl
  available_le := fits.bounded
  take_fails timeout h e := by
    rw [Pool.take_fails_iff, Pool.available, List.length_eq_zero_iff]
  closed_is_empty closed := by rw [Pool.available, fits.empty closed, List.length_nil]
  closed_takes_fail closed timeout h :=
    ⟨.poolClosed, (Pool.take_fails_iff _ _ _ _).mpr (.inl ⟨closed, rfl⟩), rfl⟩
  closed_refuses closed s h := by
    refine Pool.requite_of_refused fun room => ?_
    rw [(Pool.refusal?_eq_none.mp room).1] at closed
    cases closed
  closeAll_tries_all h := (Pool.closes_closeAll M l.pool h).2

def pair : List Session := [⟨1, 1, fun _ => .idle⟩, ⟨2, 1, fun _ => .idle⟩]

def visits : List Event := [
  .take 0 true (.ofMicroseconds 0), .take 1 false (.ofMicroseconds 0), .dropGuard 2, .requite 1,
  .take 0 false (.ofMicroseconds 0)]

def intrusion : List Event := [
  .take 0 true (.ofMicroseconds 0), .bring 1 ⟨9, 1, fun _ => .idle⟩, .requite 9, .dropGuard 2,
  .dismiss 2, .closeAll, .dismiss 1]

end Lending

end Cryptoki
