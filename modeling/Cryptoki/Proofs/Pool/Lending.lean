import Cryptoki.Proofs.Pool.Closing

/-!
A pool in use. Any number of users take sessions and give them back, and each event happens under
the lock of the pool, or is about one session that a user has in hand. Sessions are closed outside
the lock: whoever has set some aside closes them later, one by one.
-/
namespace Cryptoki

structure Loan where
  user : Nat
  guarded : Bool
  lent : Bool
  session : Session

/-- A pool, with all sessions outside of it. The log of the module tells which are closed. -/
structure Lending (σ : Type) where
  host : Host (σ × List Exchange)
  pool : Pool
  loans : List Loan
  /-- What has been set aside to be closed. -/
  leaving : List Session
  known : List Handle

namespace Lending

variable {σ α : Type}

def withdraw (handle : α → Handle) (h : Handle) : List α → Option (α × List α)
  | [] => none
  | a :: rest =>
    if handle a = h then some (a, rest)
    else (withdraw handle h rest).map fun found => (found.1, a :: found.2)

def start (a : σ) (sessions : List Session) : Lending σ :=
  ⟨⟨(a, []), []⟩, .ofSessions sessions, [], [], sessions.map (·.handle)⟩

inductive Event where
  | take (user : Nat) (guarded : Bool) (timeout : Duration)
  | requite (h : Handle)
  | dropGuard (h : Handle)
  | detach (h : Handle)
  | closeAll
  | dismiss (h : Handle)
  | bring (user : Nat) (s : Session)
  | call (h : Handle) (c : Session.Call)
  | close (h : Handle)
  | drop (h : Handle)

def giveBack (l : Lending σ) (s : Session) (rest : List Loan) : Lending σ :=
  let ((kept, pool), host) := l.pool.receive s l.host
  { l with host, pool, loans := rest, leaving := if kept then l.leaving else s :: l.leaving }

def onLoan (l : Lending σ) (h : Handle) (f : Loan → List Loan → Lending σ) : Lending σ :=
  match withdraw (·.session.handle) h l.loans with
  | some (loan, rest) => f loan rest
  | none => l

/-- Only owners give sessions back or close them, and only guards are dropped or detached. -/
def step (M : Module σ) (l : Lending σ) : Event → Lending σ
  | .take user guarded timeout =>
    match l.pool.take timeout l.host with
    | ((.ok s, pool), host) => { l with host, pool, loans := ⟨user, guarded, true, s⟩ :: l.loans }
    | ((.error _, pool), host) => { l with host, pool }
  | .requite h => l.onLoan h fun loan rest =>
    if loan.guarded then l else l.giveBack loan.session rest
  | .dropGuard h => l.onLoan h fun loan rest =>
    if loan.guarded then l.giveBack loan.session rest else l
  | .detach h => l.onLoan h fun loan rest =>
    { l with loans := { loan with guarded := false } :: rest }
  | .closeAll =>
    let (sessions, pool) := l.pool.shut
    { l with pool, leaving := sessions ++ l.leaving }
  | .dismiss h =>
    match withdraw (·.handle) h l.leaving with
    | some (s, rest) => { l with host := (Pool.dismiss M.logged s l.host).2, leaving := rest }
    | none => l
  | .bring user s =>
    if s.handle ∈ l.known then l
    else { l with loans := ⟨user, false, false, s⟩ :: l.loans, known := s.handle :: l.known }
  | .call h c => l.onLoan h fun loan rest =>
    let (_, s, host) := Session.step M.logged c loan.session l.host
    { l with host, loans := { loan with session := s } :: rest }
  | .close h => l.onLoan h fun loan rest =>
    if loan.guarded then l
    else { l with host := (loan.session.close M.logged l.host).2, loans := rest }
  | .drop h => l.onLoan h fun loan rest =>
    if loan.guarded then l
    else { l with host := (loan.session.drop M.logged l.host).2, loans := rest }

def run (M : Module σ) (l : Lending σ) (events : List Event) : Lending σ := events.foldl (step M) l

def idle (l : Lending σ) : List Handle := l.pool.idle.map (·.handle)

def held (l : Lending σ) : List Handle := l.loans.map (·.session.handle)

def gone (l : Lending σ) : List Handle := l.leaving.map (·.handle) ++ l.host.closed

def places (l : Lending σ) : List Handle := l.idle ++ l.held ++ l.gone

end Lending

end Cryptoki
