import ElasticPool.Binary64.Shortest

namespace ElasticPool

inductive ConfigFault
  | minimumZero
  | maximumBelowMinimum (minimum maximum : UInt64)
  | desiredOutOfRange (desired minimum maximum : UInt64)
  | rateNotPositive (value : Float)
  | notRatio (field : String) (value : Float)
  | zeroSpan (field : String)

namespace ConfigFault

def message : ConfigFault → String
  | minimumZero => "min_concurrency must be at least 1"
  | maximumBelowMinimum minimum maximum =>
      s!"max_concurrency ({maximum}) must not be lower than min_concurrency ({minimum})"
  | desiredOutOfRange desired minimum maximum =>
      s!"desired_concurrency ({desired}) must be within [{minimum}, {maximum}]"
  | rateNotPositive value =>
      "max_tasks_per_minute must be a positive number, got " ++ Binary64.text value
  | notRatio field value =>
      "`" ++ field ++ "` must be a ratio within [0, 1], got " ++ Binary64.text value
  | zeroSpan field => "`" ++ field ++ "` must be a non-zero duration"

end ConfigFault

inductive RecorderFault
  | notActive
  | alreadyActive
  deriving DecidableEq, Repr

namespace RecorderFault

def message : RecorderFault → String
  | notActive => "snapshotter is not active; call `start()` first"
  | alreadyActive => "snapshotter is already active"

end RecorderFault

inductive MeasurementFault
  | clientLoad (cause : String)
  | invalidMeasurement (details : String)
  | systemRead (details : String)
  deriving DecidableEq, Repr

namespace MeasurementFault

def message : MeasurementFault → String
  | clientLoad cause => "failed to read downstream client errors: " ++ cause
  | invalidMeasurement details => "invalid system measurement: " ++ details
  | systemRead details => "failed to read system usage: " ++ details

def chain (e : MeasurementFault) : List String :=
  match e with
  | clientLoad cause => [e.message, cause]
  | _ => [e.message]

end MeasurementFault

inductive PoolFault
  | alreadyRunning
  | notRunning
  | recorder (cause : RecorderFault)
  /-- The first error of an invocation, reported once the others have ended. -/
  | taskFailed (cause : String)
  deriving DecidableEq, Repr

namespace PoolFault

def message : PoolFault → String
  | alreadyRunning => "pool is already running"
  | notRunning => "pool is not running"
  | recorder cause => "load evaluation failed: " ++ cause.message
  | taskFailed cause => "task failed: " ++ cause

def chain (e : PoolFault) : List String :=
  match e with
  | recorder cause => [e.message, cause.message]
  | taskFailed cause => [e.message, cause]
  | _ => [e.message]

/-- The error of the invocation itself, where that is what failed. -/
def taskError? : PoolFault → Option String
  | taskFailed cause => some cause
  | _ => none

end PoolFault

end ElasticPool
