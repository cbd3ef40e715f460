import Cryptoki.Scenario.Step

/-!
Runs of a scenario. Each step reports what it came to, and all that reached the module on the way.
-/
namespace Cryptoki

structure Report where
  reply : Reply
  exchanges : List Exchange
  notes : Journal
  active : Option (List (OperationKind × OperationState))

namespace Scenario

def activity (c : Scenario) (name : String) : Option (List (OperationKind × OperationState)) :=
  (c.holders.get? name).map fun h => h.session.active.map fun k => (k, h.session.state k)

def clearRecords : ScenarioM Unit :=
  onHost (modify fun h => ⟨{ h.state with trace := [] }, []⟩)

def report (act : ScenarioM Reply) (subject : Option String) : ScenarioM Report := do
  clearRecords
  let reply ← act
  let c ← get
  return ⟨reply, c.host.state.trace, c.host.journal, subject.bind c.activity⟩

def run (M : Module Recorder) (steps : List Step) : List Report :=
  let act : ScenarioM (List Report) := do
    let reports ← steps.mapM fun s => report (perform M s) s.subject?
    let last ← report (do finish M; return .nothing) none
    return reports ++ [last]
  (act.run start).1

end Scenario

end Cryptoki
