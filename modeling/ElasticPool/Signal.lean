import ElasticPool.Fault
import ElasticPool.Load

namespace ElasticPool

inductive Signal
  | busCreated (capacity : Nat)
  | subscribed (subscribers : Nat)
  | emitted
  | lagged (skipped : Nat)
  | released
  | samplingStarted (retention : Span)
  | samplingStopped
  | samplingInactive
  | samplingEnded
  | loopDelayed (delay : Span)
  | resourceOverloaded (kind : Resource)
  | memoryCritical (size limit : UInt64) (limitRatio : Float)
  | measurementSkipped (cause : MeasurementFault)
  | clientSkipped (cause : MeasurementFault)
  | runStarted (minimum maximum desired : UInt64)
  | runFinished
  | abortRequested
  | runAborted
  /-- The first failure of a run, with the invocations that have not been joined. -/
  | taskFailed (cause : String) (inFlight : Nat)
  | furtherTaskFailed (cause : String)
  | runFailed (cause : String)
  | evaluationFailed (cause : RecorderFault)
  | budgetExhausted (wait : Span)
  | taskStarted (current : UInt64)
  | desiredChanged (before after : UInt64)
  | scaledDown (load : SystemLoad) (desired : UInt64)
  | concurrencySampled (desired current : UInt64)
  | status (load : SystemLoad) (current desired : UInt64)
  | statusUnavailable (cause : RecorderFault)

end ElasticPool
