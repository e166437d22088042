import ElasticPool.Signal

namespace ElasticPool

inductive LogLevel
  | trace
  | debug
  | info
  | warn
  | error
  deriving DecidableEq, Repr

namespace LogLevel

def severity : LogLevel → Nat
  | trace => 0
  | debug => 1
  | info => 2
  | warn => 3
  | error => 4

def name : LogLevel → String
  | trace => "TRACE"
  | debug => "DEBUG"
  | info => "INFO"
  | warn => "WARN"
  | error => "ERROR"

end LogLevel

inductive LogValue
  | count (value : Nat)
  | flag (value : Bool)
  | real (value : Float)
  | text (value : String)

structure LogLine where
  level : LogLevel
  message : String
  fields : List (String × LogValue) := []

namespace LogLine

/-- Whether a log keeps the line, given the most verbose level that it keeps. -/
def kept (line : LogLine) (verbosity : Option LogLevel) : Bool :=
  verbosity.any (·.severity ≤ line.level.severity)

end LogLine

namespace Signal

open LogValue

def word (n : UInt64) : LogValue := .count n.toNat

def ratios (l : SystemLoad) : List (String × LogValue) :=
  Resource.all.map fun kind => (kind.name, real (l.ratio kind).actual)

def line : Signal → LogLine
  | busCreated capacity =>
      ⟨.debug, "EventBus::new: creating event bus", [("capacity", .count capacity)]⟩
  | subscribed subscribers =>
      ⟨.debug, "EventBus::subscribe", [("subscribers", .count subscribers)]⟩
  | emitted => ⟨.trace, "EventBus::emit", [("event_type", .text "system_info")]⟩
  | lagged skipped =>
      ⟨.warn, "Subscriber lagged behind the event bus.", [("skipped", .count skipped)]⟩
  | released => ⟨.debug, "EventBus: subscription released", []⟩
  | samplingStarted retention =>
      ⟨.info, "Snapshotter started.", [("retention_secs", .real retention.seconds)]⟩
  | samplingStopped => ⟨.info, "Snapshotter stopped.", []⟩
  | samplingInactive => ⟨.debug, "Snapshotter::stop: not active", []⟩
  | samplingEnded => ⟨.debug, "Snapshotter: sampling task finished", []⟩
  | loopDelayed delay => ⟨.trace, "Event loop delay", [("delay_ms", .count delay.wholeMillis)]⟩
  | resourceOverloaded kind => ⟨.trace, "Resource overloaded", [("resource", .text kind.name)]⟩
  | memoryCritical size limit limitRatio =>
      ⟨.warn, "Memory is critically overloaded.", [
        ("used_bytes", word size), ("max_bytes", word limit),
        ("used_ratio", .real (Reading.memoryRatio size limit)),
        ("max_used_ratio", .real limitRatio)]⟩
  | measurementSkipped cause =>
      ⟨.warn, "Skipping system measurement.", [("error", .text cause.message)]⟩
  | clientSkipped cause => ⟨.warn, "Skipping client snapshot.", [("error", .text cause.message)]⟩
  | runStarted minimum maximum desired =>
      ⟨.info, "Starting the pool.", [
        ("min_concurrency", word minimum), ("max_concurrency", word maximum),
        ("desired_concurrency", word desired)]⟩
  | runFinished => ⟨.info, "All tasks finished.", []⟩
  | abortRequested => ⟨.info, "Aborting the pool.", []⟩
  | runAborted => ⟨.info, "The pool was aborted.", []⟩
  | taskFailed cause inFlight =>
      ⟨.warn, "Task failed; no new tasks will be started.", [
        ("error", .text cause), ("in_flight", .count inFlight)]⟩
  | furtherTaskFailed cause =>
      ⟨.debug, "Another task failed while draining.", [("error", .text cause)]⟩
  | runFailed cause => ⟨.error, "A task failed; the pool stopped.", [("error", .text cause)]⟩
  | evaluationFailed cause =>
      ⟨.error, "Load evaluation failed; the pool stopped.", [("error", .text cause.message)]⟩
  | budgetExhausted wait =>
      ⟨.trace, "Task start budget exhausted.", [("wait_ms", .count wait.wholeMillis)]⟩
  | taskStarted current => ⟨.trace, "Task started.", [("current_concurrency", word current)]⟩
  | desiredChanged before after =>
      ⟨.debug, "Desired concurrency changed", [("from", word before), ("to", word after)]⟩
  | scaledDown load desired =>
      ⟨.debug, "System is overloaded; scaling down.",
        ratios load ++ [("desired_concurrency", word desired)]⟩
  | concurrencySampled desired current =>
      ⟨.trace, "Concurrency sampled", [
        ("desired_concurrency", word desired), ("current_concurrency", word current)]⟩
  | status load current desired =>
      ⟨.info, "Pool status.", [
        ("current_concurrency", word current), ("desired_concurrency", word desired),
        ("system_idle", .flag load.idle)] ++ ratios load⟩
  | statusUnavailable cause =>
      ⟨.debug, "Pool status unavailable.", [("error", .text cause.message)]⟩

end Signal

end ElasticPool
