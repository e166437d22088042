import ElasticPool.Time.Moment

namespace ElasticPool

inductive Pacing
  /-- The next tick comes a full period after the late one. -/
  | delay
  /-- The next tick comes at the next moment of the schedule. -/
  | skip
  deriving DecidableEq, Repr

structure Ticker where
  due : Moment
  period : Span
  pacing : Pacing
  deriving DecidableEq, Repr

namespace Ticker

/-- A tick taken later than this counts as missed. -/
def tolerance : Span := .ofMillis 5

def start (pacing : Pacing) (period : Span) (now : Moment) : Ticker := ⟨now, period, pacing⟩

def Ready (t : Ticker) (now : Moment) : Prop := t.due ≤ now

instance (t : Ticker) (now : Moment) : Decidable (t.Ready now) :=
  inferInstanceAs (Decidable (t.due ≤ now))

/-- When the tick after the current one comes by the schedule. -/
def planned (t : Ticker) (now : Moment) : Moment :=
  if t.due.nanos + tolerance.nanos < now.nanos then
    match t.pacing with
    | .delay => ⟨now.nanos + t.period.nanos⟩
    | .skip => ⟨now.nanos + t.period.nanos - (now.nanos - t.due.nanos) % t.period.nanos⟩
  else ⟨t.due.nanos + t.period.nanos⟩

/-- When the tick after the current one is due: by the schedule, where the clock can be set to
the time until then. -/
def nextDue (t : Ticker) (now : Moment) : Moment :=
  if ((t.planned now).since now).Settable then t.planned now
  else ⟨now.nanos + Span.far.nanos⟩

def taken (t : Ticker) (now : Moment) : Ticker := { t with due := t.nextDue now }

end Ticker

end ElasticPool
