import ElasticPool.Bus
import ElasticPool.SamplingTask
/-!
The recorder: a history of samples that exists between a start and a stop.

A start registers a sampling task.  A stop takes the registration away, waits for
the task to end and then drops the history, so that other calls may fall between
its two halves.
-/

namespace ElasticPool

structure Recorder where
  config : SamplingConfig
  bus : Bus Measurement
  history? : Option History := none
  /-- The sampling task that a stop would end. -/
  registered? : Option Nat := none
  samplers : List (Nat × SamplingTask) := []
  starts : Nat := 0

namespace Recorder

def active (s : Recorder) : Bool := s.history?.isSome

def sampler? (s : Recorder) (task : Nat) : Option SamplingTask := s.samplers.lookup task

def setSampler (s : Recorder) (task : Nat) (sampler : SamplingTask) : Recorder :=
  { s with samplers := s.samplers.map fun t => if t.1 = task then (t.1, sampler) else t }

def start (s : Recorder) : Except RecorderFault (Recorder × List Signal) :=
  if s.registered?.isSome then .error .alreadyActive
  else
    let (subscription, bus) := s.bus.subscribe
    let sampler : SamplingTask := { subscription, warning := ⟨s.config.warningCooldown, none⟩ }
    .ok ({ s with
      bus
      history? := some .empty
      registered? := some s.starts
      samplers := s.samplers ++ [(s.starts, sampler)]
      starts := s.starts + 1 },
      [.subscribed bus.live, .samplingStarted s.config.retention])

def endTask (s : Recorder) (task : Nat) : Recorder :=
  match s.sampler? task with
  | some sampler => s.setSampler task { sampler with stopping := true }
  | none => s

/-- The first half of a stop.  It names the task whose end it waits for. -/
def beginStop (s : Recorder) : Option Nat × Recorder :=
  match s.registered? with
  | none => (none, s)
  | some task => (some task, { s.endTask task with registered? := none })

/-- The second half of a stop, once the task has ended. -/
def finishStop (s : Recorder) : Recorder := { s with history? := none }

def record (s : Recorder) (now : Moment) (sample : Sample) :
    Except RecorderFault Recorder :=
  match s.history? with
  | none => .error .notActive
  | some h => .ok { s with history? := some (h.record sample now s.config.retention) }

def samples (s : Recorder) (now : Moment) (kind : Resource) (window? : Option Span) :
    Except RecorderFault (List Sample) :=
  match s.history? with
  | none => .error .notActive
  | some h => .ok (h.get kind now window?)

def currentLoad (s : Recorder) (c : LoadConfig) (now : Moment) :
    Except RecorderFault SystemLoad :=
  match s.history? with
  | none => .error .notActive
  | some h => .ok (c.currentLoad h now)

def windowLoad (s : Recorder) (c : LoadConfig) (now : Moment) :
    Except RecorderFault SystemLoad :=
  match s.history? with
  | none => .error .notActive
  | some h => .ok (c.windowLoad h now)

def afterTurn (s : Recorder) (task : Nat) (tickers : SamplingTickers) (turn : SamplingTurn) :
    Recorder × List Signal :=
  let s := s.setSampler task { turn.sampler with tickers? := some tickers }
  ({ s with history? := turn.history? }, turn.signals)

/-- One turn of a sampling task.  It takes the first that is ready of: being told
to end, a measurement, a tick for the event loop, a tick for the client. -/
def turn (s : Recorder) (task : Nat) (now : Moment) (clientTotal : Except String Nat) :
    Option (Recorder × List Signal) :=
  match s.sampler? task with
  | none => none
  | some sampler =>
      if sampler.stopping then
        some ({ s with
          bus := s.bus.unsubscribe sampler.subscription
          samplers := s.samplers.filter (·.1 ≠ task) }, [.samplingEnded, .released])
      else
        -- The clocks start with the first of these turns.
        let tickers := sampler.clocks s.config now
        match s.bus.receive sampler.subscription with
        | (⟨skipped, some m⟩, bus) =>
            let (s, signals) := { s with bus }.afterTurn task tickers
              (sampler.onMeasurement s.config s.history? now m)
            some (s, (if skipped = 0 then [] else [.lagged skipped]) ++ signals)
        | (⟨_, none⟩, _) =>
            if tickers.eventLoop.Ready now then
              some (s.afterTurn task { tickers with eventLoop := tickers.eventLoop.taken now }
                (sampler.onEventLoopTick s.config s.history? now tickers.eventLoop.due))
            else if tickers.client.Ready now then
              some (s.afterTurn task { tickers with client := tickers.client.taken now }
                (sampler.onClientTick s.config s.history? now clientTotal))
            else none

def timers (s : Recorder) : List (Nat × Moment) :=
  s.samplers.flatMap fun (task, sampler) =>
    match sampler.tickers? with
    | some tickers => [(task, tickers.eventLoop.due), (task, tickers.client.due)]
    | none => []

/-- The recorder once its owner has let it go.  No call reaches it any more, and
its sampling task is told to end. -/
def release (s : Recorder) : Option Nat × Recorder := s.beginStop

end Recorder

end ElasticPool
