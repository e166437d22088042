import ElasticPool.Metrics
import ElasticPool.Schedule
import ElasticPool.Signal.Line
import ElasticPool.Simulation.Workplace

namespace ElasticPool.Simulation

inductive ClientSource
  | constant
  | counter
  /-- A total, or the error that hides it. -/
  | scripted (total : Nat) (failure? : Option String)

inductive Task
  | sampling (task : Nat)
  | call (call : Nat)
  | invocation (number : Nat)
  deriving DecidableEq, Repr

structure World where
  recorder : Recorder
  evaluator : LoadConfig
  client : ClientSource
  clientErrors : Nat := 0
  place? : Option Workplace := none
  verbosity? : Option LogLevel
  /-- The lines of the log that have not been read. -/
  log : Array LogLine := #[]
  metrics : Metrics := {}

namespace World

def report (w : World) (s : Signal) : World :=
  let line := s.line
  { w with
    log := if line.kept w.verbosity? then w.log.push line else w.log
    metrics := w.metrics.observe s }

def reportAll (w : World) (signals : List Signal) : World := signals.foldl report w

def clientTotal (w : World) : Except String Nat :=
  match w.client with
  | .constant => .ok 0
  | .counter => .ok w.clientErrors
  | .scripted _ (some cause) => .error cause
  | .scripted total none => .ok total

/-- One turn of a task and the tasks that it makes ready. -/
def turn (now : Moment) (task : Task) (w : World) : Option (World × List Task) :=
  match task with
  | .sampling task =>
      (w.recorder.turn task now w.clientTotal).map fun (recorder, signals) =>
        ({ w with recorder }.reportAll signals, [])
  | .call call =>
      (w.place?.bind (·.callTurn call now w.recorder w.evaluator)).map fun t =>
        ({ w with place? := some t.place }.reportAll t.signals, t.started.map .invocation)
  | .invocation number =>
      (w.place?.bind (·.invocationTurn number now)).map fun (place, errors, calls) =>
        ({ w with place? := some place, clientErrors := w.clientErrors + errors },
          calls.map .call)

def timers (w : World) : List (Task × Moment) :=
  (w.recorder.timers.map fun (task, m) => (.sampling task, m)) ++
  match w.place? with
  | none => []
  | some place =>
      (List.range place.pool.calls.length).flatMap (fun call =>
        (place.callTimers call).map ((.call call, ·))) ++
      place.invocations.filterMap fun i => i.wakesAt?.map ((.invocation i.number, ·))

def tasks : TaskSystem World Task := ⟨turn, timers⟩

end World

abbrev Timeline := Schedule World Task

end ElasticPool.Simulation
