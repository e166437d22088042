import ElasticPool.Schedule
import ElasticPool.Time.Ticker

namespace ElasticPool

structure Publisher where
  ticker? : Option Ticker := none
  stopping : Bool := false
  deriving DecidableEq, Repr

structure Probe where
  period : Span
  /-- The task that a stop would end. -/
  registered? : Option Nat := none
  publishers : List (Nat × Publisher) := []
  starts : Nat := 0
  published : List Moment := []
  /-- Whether the owner of the probe has let it go. -/
  released : Bool := false

namespace Probe

/-- The shortest period.  The system refreshes its figures no faster. -/
def shortestPeriod : Span := .ofMillis 200

def ofInterval (interval : Span) : Probe :=
  { period := if interval < shortestPeriod then shortestPeriod else interval }

def standardInterval : Span := .ofSeconds 1

/-- Starts a publishing task, unless one is registered or nobody holds the probe any
more.  It names the new task. -/
def start (m : Probe) : Option Nat × Probe :=
  if m.registered?.isSome ∨ m.released then (none, m)
  else
    (some m.starts, { m with
      registered? := some m.starts
      publishers := m.publishers ++ [(m.starts, {})]
      starts := m.starts + 1 })

def stop (m : Probe) : Option Nat × Probe :=
  match m.registered? with
  | none => (none, m)
  | some task =>
      (some task, { m with
        registered? := none
        publishers := m.publishers.map fun p =>
          if p.1 = task then (p.1, { p.2 with stopping := true }) else p })

def release (m : Probe) : Option Nat × Probe :=
  let (task?, m) := m.stop
  (task?, { m with released := true })

/-- One turn of a publishing task: it ends, publishes or has to wait. -/
def turn (now : Moment) (task : Nat) (m : Probe) : Option (Probe × List Nat) :=
  match m.publishers.lookup task with
  | none => none
  | some publisher =>
      if publisher.stopping then
        some ({ m with publishers := m.publishers.filter (·.1 ≠ task) }, [])
      else
        let ticker := publisher.ticker?.getD (.start .skip m.period now)
        if ticker.Ready now then
          some ({ m with
            publishers := m.publishers.map fun p =>
              if p.1 = task then (p.1, { p.2 with ticker? := some (ticker.taken now) }) else p
            published := now :: m.published }, [])
        else none

def timers (m : Probe) : List (Nat × Moment) :=
  m.publishers.filterMap fun (task, publisher) => publisher.ticker?.map fun t => (task, t.due)

def tasks : TaskSystem Probe Nat := ⟨turn, timers⟩

end Probe

end ElasticPool
