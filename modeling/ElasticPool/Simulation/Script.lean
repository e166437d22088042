import ElasticPool.Simulation.World

namespace ElasticPool.Simulation

structure Setup where
  recorder : SamplingConfig := {}
  evaluator : LoadConfig := {}
  busCapacity : Nat := 1024
  client : ClientSource := .constant
  verbosity? : Option LogLevel := some .warn
  pool? : Option (Settings.Fields × ScalingConfig × Workload) := none

namespace Setup

def workplace? (s : Setup) : Except ConfigFault (Option Workplace) :=
  match s.pool? with
  | none => .ok none
  | some (fields, config, workload) => do
      let settings ← Settings.build fields
      config.check
      return some { workload, pool := { settings, config } }

/-- The world at the beginning.  The recorder is checked first, then the
evaluator, then the pool. -/
def build (s : Setup) : Except ConfigFault Timeline := do
  s.recorder.check
  s.evaluator.check
  let place? ← s.workplace?
  let world : World := {
    recorder := { config := s.recorder, bus := .ofCapacity s.busCapacity }
    evaluator := s.evaluator
    client := s.client
    place?
    verbosity? := s.verbosity? }
  return { state := world.report (.busCreated s.busCapacity) }

end Setup

inductive Step
  | advance (millis : Nat)
  | jump (millis : Nat)
  | look
  | start
  | stop
  | isActive
  | subscribers
  | record (sample : Sample)
  | samples (kind : Resource) (window? : Option Span)
  | currentLoad
  | windowLoad
  | emit (measurements : List Measurement)
  | clientErrors (n : Nat)
  | clientTotal (total : Nat)
  | clientFailure (cause? : Option String)
  | config
  | releaseRecorder
  | metrics
  | run
  | abort
  | dropCall (call : Nat)

inductive Reply
  | done
  | flag (value : Bool)
  | count (value : Nat)
  | samples (list : List Sample)
  | load (value : SystemLoad)
  | config (retention : Span) (pool? : Option (Settings × Bool))
  | metrics (value : Metrics)
  | recorderFault (cause : RecorderFault)
  | poolFault (cause : PoolFault)

namespace Reply

def ofExcept {α : Type} (reply : α → Reply) : Except RecorderFault α → Reply
  | .ok a => reply a
  | .error cause => .recorderFault cause

end Reply

structure Status where
  phase : Phase
  current : UInt64
  desired : UInt64
  tally : Tally
  calls : List (Call Float)

namespace Script

def settle (s : Timeline) : Timeline := Schedule.settle World.tasks s

def change (s : Timeline) (f : World → World) (woken : List Task := []) : Timeline :=
  { s with state := f s.state }.wake woken

/-- Does a step, without letting the tasks it makes ready run.  An advance runs what
is due on the way, and a stop lets the tasks run until its own has ended. -/
def perform (s : Timeline) (step : Step) : Reply × Timeline :=
  let w := s.state
  match step with
  | .advance millis => (.done, s.advance World.tasks millis)
  | .jump millis => (.done, s.jump World.tasks millis)
  | .look => (.done, s)
  | .start =>
      match w.recorder.start with
      | .error cause => (.recorderFault cause, s)
      | .ok (recorder, signals) =>
          (.done, change s (fun w => { w with recorder }.reportAll signals)
            (recorder.registered?.toList.map .sampling))
  | .stop =>
      match w.recorder.beginStop with
      | (none, _) => (.done, change s (·.report .samplingInactive))
      | (some task, recorder) =>
          let s := settle (change s (fun w => { w with recorder }) [.sampling task])
          (.done, change s fun w =>
            { w with recorder := w.recorder.finishStop }.report .samplingStopped)
  | .isActive => (.flag w.recorder.active, s)
  | .subscribers => (.count w.recorder.bus.live, s)
  | .record sample =>
      match w.recorder.record s.now sample with
      | .error cause => (.recorderFault cause, s)
      | .ok recorder => (.done, change s fun w => { w with recorder })
  | .samples kind window? => (.ofExcept .samples (w.recorder.samples s.now kind window?), s)
  | .currentLoad => (.ofExcept .load (w.recorder.currentLoad w.evaluator s.now), s)
  | .windowLoad => (.ofExcept .load (w.recorder.windowLoad w.evaluator s.now), s)
  | .emit measurements =>
      let bus := measurements.foldl Bus.emit w.recorder.bus
      let signals := measurements.map fun _ => Signal.emitted
      (.done, change s
        (fun w => { w with recorder := { w.recorder with bus } }.reportAll signals)
        (w.recorder.samplers.map fun t => .sampling t.1))
  | .clientErrors n =>
      (.count (w.clientErrors + n),
        change s fun w => { w with clientErrors := w.clientErrors + n })
  | .clientTotal total =>
      (.done, change s fun w => { w with client :=
        match w.client with
        | .scripted _ failure? => .scripted total failure?
        | client => client })
  | .clientFailure cause? =>
      (.done, change s fun w => { w with client :=
        match w.client with
        | .scripted total _ => .scripted total cause?
        | client => client })
  | .config =>
      (.config w.recorder.config.retention
        (w.place?.map fun place => (place.pool.settings, w.recorder.active)), s)
  | .releaseRecorder =>
      let (task?, recorder) := w.recorder.release
      (.done, change s (fun w => { w with recorder }) (task?.toList.map .sampling))
  | .metrics => (.metrics w.metrics, s)
  | .run =>
      match w.place? with
      | none => (.done, s)
      | some place =>
          (.done, change s
            (fun w => { w with place? := some { place with pool := place.pool.call } })
            [.call place.pool.calls.length])
  | .abort =>
      match w.place? with
      | none => (.poolFault .notRunning, s)
      | some place =>
          match place.pool.abort with
          | .error cause => (.poolFault cause, s)
          | .ok (pool, effects) =>
              let signals := effects.filterMap fun
                | .report signal => some signal
                | _ => none
              (.done, change s
                (fun w => { w with place? := some { place with pool } }.reportAll signals)
                (place.pool.abortable?.toList.map .call))
  | .dropCall call =>
      match w.place? with
      | none => (.done, s)
      | some place =>
          (.done, change s
            (fun w => { w with place? := some { place with doomed := call :: place.doomed } })
            [.call call])

/-- What a step told, and what there is to see after it. -/
structure Record where
  clock : Nat
  reply : Reply
  status? : Option Status
  log : List LogLine

def status (place : Workplace) : Status where
  phase := place.pool.phase
  current := place.pool.current
  desired := place.pool.desired
  tally := place.tally
  calls := place.pool.calls

def record (s : Timeline) (step : Step) (settles : Bool) : Record × Timeline :=
  let (reply, s) := perform s step
  let s := if settles then settle s else s
  (⟨s.clock, reply, s.state.place?.map status, s.state.log.toList⟩,
    { s with state := { s.state with log := #[] } })

def records : Timeline → List (Step × Bool) → List Record
  | _, [] => []
  | s, (step, settles) :: steps =>
      let (first, s) := record s step settles
      first :: records s steps

end Script

end ElasticPool.Simulation
