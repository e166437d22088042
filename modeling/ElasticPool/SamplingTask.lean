import ElasticPool.Measurement
import ElasticPool.WarningGate
import ElasticPool.Signal
import ElasticPool.Time.Ticker

namespace ElasticPool

structure SamplingTickers where
  eventLoop : Ticker
  client : Ticker
  deriving DecidableEq, Repr

structure SamplingTask where
  subscription : Nat
  /-- Its clocks, which start when it first runs. -/
  tickers? : Option SamplingTickers := none
  /-- The total of client errors at the last successful reading. -/
  previousErrors? : Option Nat := none
  warning : WarningGate
  stopping : Bool := false

structure SamplingTurn where
  sampler : SamplingTask
  history? : Option History
  signals : List Signal

namespace SamplingTask

def keep (c : SamplingConfig) (now : Moment) (samples : List Sample) (history? : Option History) :
    Option History × List Signal :=
  match history? with
  | none => (none, [])
  | some h =>
      (some (samples.foldl (fun h s => h.record s now c.retention) h),
        (samples.filter (·.overloaded)).map fun s => .resourceOverloaded s.kind)

def clocks (c : SamplingConfig) (s : SamplingTask) (now : Moment) : SamplingTickers :=
  s.tickers?.getD
    ⟨.start .delay c.eventLoopInterval now, .start .delay c.clientInterval now⟩

/-- Turns a measurement into a sample of the CPU and one of the memory, or skips
it altogether. -/
def onMeasurement (c : SamplingConfig) (s : SamplingTask) (history? : Option History)
    (now : Moment) (m : Measurement) : SamplingTurn :=
  match m.fault? with
  | some fault => ⟨s, history?, [.measurementSkipped fault]⟩
  | none =>
      let (warned, warning) := s.warning.ask (m.memorySample c).overloaded now
      let (history?, overloads) := keep c now [m.cpuSample c, m.memorySample c] history?
      let critical :=
        if warned then [Signal.memoryCritical m.memory (m.memoryLimit c) c.maxMemoryRatio] else []
      ⟨{ s with warning }, history?, critical ++ overloads⟩

def onEventLoopTick (c : SamplingConfig) (s : SamplingTask) (history? : Option History)
    (now due : Moment) : SamplingTurn :=
  let delay := now.since due
  let (history?, overloads) := keep c now [⟨.eventLoop delay c.maxEventLoopDelay, now⟩] history?
  ⟨s, history?, .loopDelayed delay :: overloads⟩

/-- Samples the client errors since the last successful reading.  The first reading
counts none, and a failed one leaves everything as it was. -/
def onClientTick (c : SamplingConfig) (s : SamplingTask) (history? : Option History)
    (now : Moment) (total : Except String Nat) : SamplingTurn :=
  match total with
  | .error cause => ⟨s, history?, [.clientSkipped (.clientLoad cause)]⟩
  | .ok total =>
      let errors := total - s.previousErrors?.getD total
      let (history?, overloads) := keep c now [⟨.client errors c.maxClientErrors, now⟩] history?
      ⟨{ s with previousErrors? := some total }, history?, overloads⟩

end SamplingTask

end ElasticPool
