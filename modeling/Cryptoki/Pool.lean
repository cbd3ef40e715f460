import Cryptoki.Session.Calls

/-!
Pools of open sessions. A session is idle in its pool, or held by the one who took it, or closed.
A closed pool keeps nothing and gives nothing.
-/
namespace Cryptoki

structure Pool where
  /-- The session that came in last is the first to be taken. -/
  idle : List Session
  closed : Bool
  capacity : Nat

namespace Pool

variable {σ : Type}

def ofSessions (sessions : List Session) : Pool := ⟨sessions.reverse, false, sessions.length⟩

def available (p : Pool) : Nat := p.idle.length

def isDry (p : Pool) : Bool := p.idle.isEmpty && !p.closed

def take (timeout : Duration) (p : Pool) : HostM σ (Result Session × Pool) := do
  if p.closed then return (.error .poolClosed, p)
  match p.idle with
  | [] => return (.error (.noSession timeout), p)
  | s :: rest =>
    note .debug ("session " ++ toString s.handle ++ " borrowed")
    return (.ok s, { p with idle := rest })

def activeNote (s : Session) : String :=
  "session " ++ toString s.handle ++ " returned with active operations: " ++
    Text.bracketed (s.active.map (·.title))

def refusal? (p : Pool) : Option String :=
  if p.closed then some "closed" else if p.capacity ≤ p.idle.length then some "full" else none

def receive (s : Session) (p : Pool) : HostM σ (Bool × Pool) := do
  if !s.isIdle then note .warn (activeNote s)
  match p.refusal? with
  | some reason =>
    note .warn ("session " ++ toString s.handle ++ " returned to a " ++ reason ++ " pool")
    return (false, p)
  | none =>
    note .debug ("session " ++ toString s.handle ++ " returned")
    return (true, { p with idle := s :: p.idle })

def dismiss (M : Module σ) (s : Session) : HostM σ (Result Unit) := do
  match ← s.close M with
  | .ok () => return .ok ()
  | .error e =>
    note .warn (s.closeFailure e)
    return .error e

def requite (M : Module σ) (s : Session) (p : Pool) : HostM σ Pool := do
  let (kept, p) ← p.receive s
  if !kept then discard <| dismiss M s
  return p

def shut (p : Pool) : List Session × Pool := (p.idle.reverse, { p with idle := [], closed := true })

/-- Closes one session after the other, whatever comes of it, and gives the first failure. -/
def dismissAll (M : Module σ) : List Session → HostM σ (Result Unit)
  | [] => return .ok ()
  | s :: rest => do
    match ← dismiss M s with
    | .ok () => dismissAll M rest
    | .error e =>
      discard <| dismissAll M rest
      return .error e

def closeAll (M : Module σ) (p : Pool) : HostM σ (Result Unit × Pool) := do
  let (sessions, p) := p.shut
  return (← dismissAll M sessions, p)

end Pool

end Cryptoki
