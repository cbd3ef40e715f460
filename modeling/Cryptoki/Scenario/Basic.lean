import Cryptoki.Pool
import Cryptoki.Recorder

/-!
Scenarios: named sessions, mechanisms and pools over a recorded token. A session has an owner, or
a guard that gives it back to its pool.
-/
namespace Cryptoki

/-- Who has a session. A guard gives it back to its pool in the end. -/
inductive Holder where
  | owner (s : Session)
  | guard (pool : Nat) (s : Session)

namespace Holder

def session : Holder → Session
  | owner s | guard _ s => s

def withSession (s : Session) : Holder → Holder
  | owner _ => owner s
  | guard p _ => guard p s

def isGuard : Holder → Bool
  | owner _ => false
  | guard .. => true

end Holder

structure Scenario where
  host : Host Recorder
  holders : NameMap Holder
  mechanisms : NameMap Mechanism
  pools : List Pool
  poolNames : NameMap Nat

abbrev ScenarioM := StateM Scenario

namespace Scenario

def start : Scenario := ⟨⟨.new, []⟩, .empty, .empty, [], .empty⟩

def onHost (act : HostM Recorder α) : ScenarioM α := fun c =>
  let (a, host) := act c.host
  (a, { c with host })

def updateRecorder (f : Recorder → Recorder) : ScenarioM Unit :=
  onHost (modify fun h => { h with state := f h.state })

def updateToken (f : Token → Token) : ScenarioM Unit :=
  updateRecorder fun r => { r with token := f r.token }

def token : ScenarioM Token := return (← get).host.state.token

def setPool (i : Nat) (p : Pool) : ScenarioM Unit :=
  modify fun c => { c with pools := c.pools.set i p }

def pool? (name : String) : ScenarioM (Option (Nat × Pool)) := do
  let c ← get
  return (c.poolNames.get? name).bind fun i => c.pools[i]?.map (i, ·)

def holder? (name : String) : ScenarioM (Option Holder) := return (← get).holders.get? name

def setHolder (name : String) (h : Holder) : ScenarioM Unit :=
  modify fun c => { c with holders := c.holders.insert name h }

def withdraw (name : String) : ScenarioM (Option Session) := do
  let h ← holder? name
  modify fun c => { c with holders := c.holders.erase name }
  return h.map (·.session)

def takeFrom (i : Nat) (p : Pool) (timeout : Duration) : ScenarioM (Result Session) := do
  let (r, p) ← onHost (p.take timeout)
  setPool i p
  return r

def giveBack (M : Module Recorder) (i : Nat) (s : Session) : ScenarioM Unit := do
  if let some p := (← get).pools[i]? then
    setPool i (← onHost (p.requite M s))

def letGo (M : Module Recorder) : Holder → ScenarioM Unit
  | .owner s => onHost (s.drop M)
  | .guard i s => giveBack M i s

/-- A new holder takes the name, then the old one is let go. -/
def hold (M : Module Recorder) (name : String) (h : Holder) : ScenarioM Unit := do
  let old ← holder? name
  setHolder name h
  if let some h := old then letGo M h

def holdResult (M : Module Recorder) (name : String) (holder : Session → Holder) :
    Result Session → ScenarioM (Result Handle)
  | .error e => return .error e
  | .ok s => do
    hold M name (holder s)
    return .ok s.handle

def letGoAll (M : Module Recorder) (names : List String) : ScenarioM Unit := do
  for name in names do
    if let some h ← holder? name then
      modify fun c => { c with holders := c.holders.erase name }
      letGo M h

/-- The end of a scenario: guards are let go, then owners, both in the order of their names.
Sessions in pools stay open. -/
def finish (M : Module Recorder) : ScenarioM Unit := do
  let entries := (← get).holders.entries
  letGoAll M ((entries.filter (·.2.isGuard)).map (·.1))
  letGoAll M ((entries.filter (!·.2.isGuard)).map (·.1))

end Scenario

end Cryptoki
