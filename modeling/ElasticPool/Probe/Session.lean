import ElasticPool.Probe

namespace ElasticPool.Probe

inductive Step
  | start
  | stop
  /-- The probe is let go without being stopped. -/
  | drop
  | advance (millis : Nat)
  | jump (millis : Nat)

open Schedule

/-- The probe after a step, with all tasks waiting again. -/
def perform (step : Step) (s : Schedule Probe Nat) : Schedule Probe Nat :=
  let after :=
    match step with
    | .start =>
        let (task?, state) := s.state.start
        { s with state }.wake task?.toList
    | .stop =>
        let (task?, state) := s.state.stop
        { s with state }.wake task?.toList
    | .drop =>
        let (task?, state) := s.state.release
        { s with state }.wake task?.toList
    | .advance millis => s.advance Probe.tasks millis
    | .jump millis => s.jump Probe.tasks millis
  after.settle Probe.tasks

def publications : Schedule Probe Nat → List Step → List (List Moment)
  | _, [] => []
  | s, step :: steps =>
      let after := perform step { s with state := { s.state with published := [] } }
      after.state.published.reverse :: publications after steps

end ElasticPool.Probe
