import ElasticPool.Load
import ElasticPool.Budget
import ElasticPool.Time.Ticker

namespace ElasticPool

inductive Dispatch
  /-- The next thing to do is to ask whether all work is finished. -/
  | idle
  | askedFinished
  | askedReady
  | waiting (moment : Moment)
  /-- An invocation must end, or the desired concurrency change, first. -/
  | parked
  deriving DecidableEq, Repr

namespace Dispatch

def asking : Dispatch → Bool
  | askedFinished | askedReady => true
  | _ => false

end Dispatch

structure Run (α : Type) where
  budget : Budget α
  scaleTicker : Ticker
  statusTicker : Ticker
  inFlight : List Nat := []
  /-- The number of invocations started so far, which is the name of the next one. -/
  started : Nat := 0
  /-- The error of the first invocation that was joined with one. -/
  failure? : Option String := none
  dispatch : Dispatch := .idle
  cancelled : Bool := false

inductive RunEvent
  | joined (invocation : Nat) (result : Except String Unit)
  /-- A tick of the autoscaler, with the load over the evaluator's window. -/
  | scaleTick (load : Except RecorderFault SystemLoad)
  /-- A tick of the status report, with the load of the latest samples. -/
  | statusTick (load : Except RecorderFault SystemLoad)
  | answered (yes : Bool)
  | waited

inductive Outcome
  | finished
  | aborted
  | taskFailed (cause : String)
  | evaluationFailed (cause : RecorderFault)
  deriving DecidableEq, Repr

/-- A moment some time from now, or an hour from now where that cannot be named. -/
def momentAfter (now : Moment) (wait : Span) : Moment :=
  (now.add? wait).getD ⟨now.nanos + longestWait.nanos⟩

namespace Run

variable {α : Type}

def fresh [Scalar α] (perMinute? : Option Float) (c : ScalingConfig) (now : Moment) : Run α where
  budget := .full perMinute? now
  scaleTicker := ⟨momentAfter now c.autoscaleInterval, c.autoscaleInterval, .delay⟩
  statusTicker := ⟨momentAfter now c.loggingInterval, c.loggingInterval, .delay⟩

/-- Whether an event can happen now. -/
def Admits (r : Run α) (now : Moment) : RunEvent → Prop
  | .joined invocation _ => invocation ∈ r.inFlight
  | .scaleTick _ => r.scaleTicker.Ready now
  | .statusTick _ => r.statusTicker.Ready now
  | .answered _ => r.dispatch.asking
  | .waited => ∃ m ≤ now, r.dispatch = .waiting m

instance (r : Run α) (now : Moment) (e : RunEvent) : Decidable (r.Admits now e) :=
  match e with
  | .joined invocation _ => inferInstanceAs (Decidable (invocation ∈ r.inFlight))
  | .scaleTick _ => inferInstanceAs (Decidable (r.scaleTicker.Ready now))
  | .statusTick _ => inferInstanceAs (Decidable (r.statusTicker.Ready now))
  | .answered _ => inferInstanceAs (Decidable (r.dispatch.asking = true))
  | .waited =>
      match h : r.dispatch with
      | .waiting m =>
          if le : m ≤ now then isTrue ⟨m, le, h⟩
          else isFalse fun ⟨m', le', h'⟩ => le (by simp_all)
      | .idle | .askedFinished | .askedReady | .parked => isFalse fun ⟨_, _, h'⟩ => by simp_all

/-- A parked run looks for work again, unless an invocation has failed. -/
def unparked (r : Run α) : Run α :=
  if r.failure?.isNone ∧ r.dispatch = .parked then { r with dispatch := .idle } else r

end Run

end ElasticPool
