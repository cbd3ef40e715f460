import Cryptoki.Session.Calls

/-!
Calls of a session as data, and runs of calls.
-/
namespace Cryptoki.Session

inductive Call where
  | init (k : Keyed) (m : Mechanism) (key : Handle)
  | digestInit (m : Mechanism)
  | oneShot (k : OneShot) (data : Bytes)
  | stream (k : Stream) (data : Bytes)
  | feed (k : Feed) (data : Bytes)
  | finish (k : Finish)
  | verify (data signature : Bytes)
  | verifyFinal (signature : Bytes)
  | findObjectsInit (t : Template)
  | findObjectsNext (max : Nat)
  | findObjectsFinal
  | findObjects (batches : Nat) (t : Template)
  | generateKey (m : Mechanism) (t : Template)
  | generateKeyPair (m : Mechanism) (publicTemplate privateTemplate : Template)
  | wrapKey (m : Mechanism) (wrapping key : Handle)
  | unwrapKey (m : Mechanism) (unwrapping : Handle) (wrapped : Bytes) (t : Template)
  | deriveKey (m : Mechanism) (base : Handle) (t : Template)
  | createObject (t : Template)
  | copyObject (object : Handle) (t : Template)
  | destroyObject (object : Handle)
  | getAttributes (object : Handle) (types : List Code)
  | setAttributes (object : Handle) (t : Template)
  | generateRandom (size : Nat)
  | seedRandom (seed : Bytes)

inductive Outcome where
  | done
  | bytes (b : Bytes)
  | handle (h : Handle)
  | handlePair (a b : Handle)
  | handles (hs : List Handle)
  | template (t : Template)

variable {ε σ : Type} [Fault ε]

def perform (M : Module σ) : Call → ActionM ε σ Outcome
  | .init k m key => (fun _ => .done) <$> init M k m key
  | .digestInit m => (fun _ => .done) <$> digestInit M m
  | .oneShot k data => .bytes <$> oneShot M k data
  | .stream k data => .bytes <$> stream M k data
  | .feed k data => (fun _ => .done) <$> feed M k data
  | .finish k => .bytes <$> finish M k
  | .verify data signature => (fun _ => .done) <$> verify M data signature
  | .verifyFinal signature => (fun _ => .done) <$> verifyFinal M signature
  | .findObjectsInit t => (fun _ => .done) <$> findObjectsInit M t
  | .findObjectsNext max => .handles <$> findObjectsNext M max
  | .findObjectsFinal => (fun _ => .done) <$> findObjectsFinal M
  | .findObjects batches t => .handles <$> findObjects M batches t
  | .generateKey m t => .handle <$> generateKey M m t
  | .generateKeyPair m t u => (fun p => .handlePair p.1 p.2) <$> generateKeyPair M m t u
  | .wrapKey m wrapping key => .bytes <$> wrapKey M m wrapping key
  | .unwrapKey m unwrapping wrapped t => .handle <$> unwrapKey M m unwrapping wrapped t
  | .deriveKey m base t => do
    let (r, _) ← deriveKey M m base t
    .handle <$> SessionM.ofResult r
  | .createObject t => .handle <$> createObject M t
  | .copyObject object t => .handle <$> copyObject M object t
  | .destroyObject object => (fun _ => .done) <$> destroyObject M object
  | .getAttributes object types => .template <$> getAttributes M object types
  | .setAttributes object t => (fun _ => .done) <$> setAttributes M object t
  | .generateRandom size => .bytes <$> generateRandom M size
  | .seedRandom seed => (fun _ => .done) <$> seedRandom M seed

/-- One call, from a session and a host to those after it. Every buffer can be had. -/
def step (M : Module σ) (c : Call) (s : Session) (h : Host σ) :
    Result Outcome × Session × Host σ :=
  let ((r, s), h) := perform M c s h
  (r, s, h)

/-- One call where buffers have a limit. -/
def attempt (M : Module σ) (c : Call) (s : Session) (h : Host σ) :
    Except Halt Outcome × Session × Host σ :=
  let ((r, s), h) := perform M c s h
  (r, s, h)

def run (M : Module σ) : List Call → Session → Host σ → List (Result Outcome) × Session × Host σ
  | [], s, h => ([], s, h)
  | c :: rest, s, h =>
    let (r, s, h) := step M c s h
    let (rs, s, h) := run M rest s h
    (r :: rs, s, h)

def returned? : Except Halt Outcome → Option (Result Outcome)
  | .ok v => some (.ok v)
  | .error halt => .error <$> halt.error?

/-- A run where buffers have a limit. Nothing is said of one in which a call unwinds. -/
def attempts (M : Module σ) :
    List Call → Session → Host σ → Option (List (Result Outcome) × Session × Host σ)
  | [], s, h => some ([], s, h)
  | c :: rest, s, h => do
    let (r, s, h) := attempt M c s h
    let r ← returned? r
    let (rs, s, h) ← attempts M rest s h
    return (r :: rs, s, h)

end Cryptoki.Session
