import Cryptoki.Scenario.Basic
import Cryptoki.Session.Call

/-!
Steps of a scenario, and what they come to. A step that speaks of a name nobody has does nothing.
-/
namespace Cryptoki

inductive MechanismSource where
  | given (m : Result Mechanism)
  | kept (name : String)

/-- What a step asks for. Templates were built beforehand, or could not be. -/
inductive Step where
  -- the token and the recorder
  | fail (f : Option Function) (skip : Nat) (rv : Code)
  | lie (f : Option Function) (l : Lie)
  | script (passes : Option (List Pass))
  | addObject (o : Token.Object)
  | objectValue (object : Handle) (type : Code)
  | hasObject (object : Handle)
  | callCount (f : Option Function)
  | openSessions
  -- sessions
  | openSession (name : String) (slot flags : UInt64)
  | close (name : String)
  | drop (name : String)
  | info (name : String)
  | call (name : String) (c : Result Session.Call)
  | callWith (name : String) (source : MechanismSource) (c : Result (Mechanism → Session.Call))
  | search (name : String) (t : Result Template)
  | deriveKey (name : String) (source : MechanismSource) (base : Handle) (t : Result Template)
  -- mechanisms
  | keep (name : String) (m : Result Mechanism)
  | outputs (name : String)
  -- pools
  | pool (name : String) (sessions : List String)
  | poolInfo (name : String)
  | take (pool name : String) (timeout : Duration)
  | borrow (pool name : String) (timeout : Duration)
  | detach (name : String)
  | requite (pool name : String)
  | closeAll (pool : String)
  | wait (pool : String) (returned : Option String) (into : String)

def Step.subject? : Step → Option String
  | openSession name .. | close name | drop name | info name | call name _ | callWith name ..
  | search name _ | deriveKey name .. | take _ name _ | borrow _ name _ | detach name
  | requite _ name => some name
  | wait _ returned _ => returned
  | _ => none

inductive Reply where
  | nothing
  | number (n : Nat)
  | flag (b : Bool)
  | value (v : Option Token.Value)
  | outcome (r : Result Session.Outcome)
  | unwound
  | session (s : Session)
  | derived (r : Result Handle) (m : Mechanism)
  | kept (r : Result Unit)
  | outputs (m : Mechanism)
  | pool (p : Pool)
  | waited (waiter : Result Handle) (closing : Option (Result Unit))

namespace Scenario

def performCall (M : Module Recorder) (name : String) (c : Session.Call) : ScenarioM Reply := do
  match ← holder? name with
  | none => return .nothing
  | some h =>
    let (r, s, host) := Session.attempt M c h.session (← get).host
    modify fun c => { c with host }
    setHolder name (h.withSession s)
    return (Session.returned? r).elim .unwound .outcome

def mechanismOf : MechanismSource → ScenarioM (Option (Result Mechanism))
  | .given m => return some m
  | .kept name => return Except.ok <$> (← get).mechanisms.get? name

/-- Batches that a search of all objects can take: each has an object in it, or a false count, or
is the last. -/
def searchBound : ScenarioM Nat := do
  let r := (← get).host.state
  return r.token.objects.entries.length + ((r.lies.get? .findObjects).getD []).length + 1

def performDerivation (M : Module Recorder) (name : String) (source : MechanismSource)
    (m : Mechanism) (base : Handle) (t : Template) : ScenarioM Reply := do
  match ← holder? name with
  | none => return .nothing
  | some h =>
    let ((r, s), host) := Session.deriveKey M m base t h.session (← get).host
    modify fun c => { c with host }
    setHolder name (h.withSession s)
    match r with
    | .error e => return .outcome (.error e)
    | .ok (key, m) =>
      if let .kept kept := source then
        modify fun c => { c with mechanisms := c.mechanisms.insert kept m }
      return .derived key m

def poolReply (name : String) (act : Nat → Pool → ScenarioM Reply) : ScenarioM Reply := do
  match ← pool? name with
  | none => return .nothing
  | some (i, p) => act i p

def closePool (M : Module Recorder) (i : Nat) : ScenarioM (Result Unit) := do
  match (← get).pools[i]? with
  | none => return .ok ()
  | some p =>
    let (r, p) ← onHost (p.closeAll M)
    setPool i p
    return r

def release (M : Module Recorder) (i : Nat) : Option String → ScenarioM (Option (Result Unit))
  | none => return some (← closePool M i)
  | some name => do
    if let some s ← withdraw name then giveBack M i s
    return none

def patience : Duration := .ofMicroseconds 20000000

/-- Who has to wait gets what is there after the release, and who need not is served before. -/
def waitFor (M : Module Recorder) (i : Nat) (p : Pool) (returned : Option String)
    (into : String) : ScenarioM Reply := do
  if p.isDry then
    let closing ← release M i returned
    let taken ← takeFrom i ((← get).pools[i]?.getD p) patience
    return .waited (← holdResult M into .owner taken) closing
  else
    let taken ← takeFrom i p patience
    let closing ← release M i returned
    return .waited (← holdResult M into .owner taken) closing

def perform (M : Module Recorder) : Step → ScenarioM Reply
  | .fail f skip rv => do
    if let some f := f then updateToken (·.failAfter f skip rv)
    return .nothing
  | .lie f l => do
    if let some f := f then updateRecorder (·.addLie f l)
    return .nothing
  | .script passes => do
    updateRecorder fun r => { r with script := passes }
    return .nothing
  | .addObject o => do
    let (t, h) := (← token).addObject o
    updateToken fun _ => t
    return .number h
  | .objectValue object type => return .value ((← token).objectValue? object type)
  | .hasObject object => return .flag ((← token).objects.contains object)
  | .callCount f => return .number (f.elim 0 (← token).callCount)
  | .openSessions => return .number (← token).sessions.length
  | .openSession name slot flags => do
    let r ← onHost (Session.openOn M slot flags)
    return .outcome (.handle <$> (← holdResult M name .owner r))
  | .close name => do
    match ← withdraw name with
    | none => return .nothing
    | some s => return .outcome ((fun _ => .done) <$> (← onHost (s.close M)))
  | .drop name => do
    letGoAll M [name]
    return .nothing
  | .info name => return (← holder? name).elim .nothing fun h => .session h.session
  | .call _ (.error e) | .callWith _ _ (.error e) | .search _ (.error e)
  | .deriveKey _ _ _ (.error e) => return .outcome (.error e)
  | .call name (.ok c) => performCall M name c
  | .callWith name source (.ok c) => do
    match ← mechanismOf source with
    | none => return .nothing
    | some (.error e) => return .outcome (.error e)
    | some (.ok m) => performCall M name (c m)
  | .search name (.ok t) => do performCall M name (.findObjects (← searchBound) t)
  | .deriveKey name source base (.ok t) => do
    match ← mechanismOf source with
    | none => return .nothing
    | some (.error e) => return .outcome (.error e)
    | some (.ok m) => performDerivation M name source m base t
  | .keep name m => do
    if let .ok m := m then
      modify fun c => { c with mechanisms := c.mechanisms.insert name m }
    return .kept ((fun _ => ()) <$> m)
  | .outputs name => return ((← get).mechanisms.get? name).elim .nothing .outputs
  | .pool name sessions => do
    let sessions ← sessions.filterMapM withdraw
    let p := Pool.ofSessions sessions
    modify fun c =>
      { c with pools := c.pools ++ [p], poolNames := c.poolNames.insert name c.pools.length }
    return .pool p
  | .poolInfo name => poolReply name fun _ p => return .pool p
  | .take pool name timeout => poolReply pool fun i p => do
    return .outcome (.handle <$> (← holdResult M name .owner (← takeFrom i p timeout)))
  | .borrow pool name timeout => poolReply pool fun i p => do
    return .outcome (.handle <$> (← holdResult M name (.guard i) (← takeFrom i p timeout)))
  | .detach name => do
    match ← holder? name with
    | none => return .nothing
    | some h =>
      setHolder name (.owner h.session)
      return .number h.session.handle
  | .requite pool name => poolReply pool fun i _ => do
    if let some s ← withdraw name then giveBack M i s
    return .nothing
  | .closeAll pool => poolReply pool fun i _ => do
    return .outcome ((fun _ => .done) <$> (← closePool M i))
  | .wait pool returned into => poolReply pool fun i p => waitFor M i p returned into

end Scenario

end Cryptoki
