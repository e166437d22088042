import ElasticPool.Pool
import ElasticPool.Simulation.Workload
import ElasticPool.Recorder

namespace ElasticPool.Simulation

structure Invocation where
  number : Nat
  call : Nat
  name : Nat
  wakesAt? : Option Moment := none
  deriving DecidableEq, Repr

structure Ended where
  call : Nat
  name : Nat
  result : Except String Unit

structure Question where
  call : Nat
  condition : Condition
  answersAt : Moment
  deriving DecidableEq, Repr

structure Workplace where
  workload : Workload
  pool : Pool Float
  invocations : List Invocation := []
  /-- The invocations that have still to be joined, in the order in which they ended. -/
  ended : List Ended := []
  question? : Option Question := none
  tally : Tally := {}
  /-- The calls that are given up at their next turn. -/
  doomed : List Nat := []

/-- A workplace after a turn, with the signals given and the invocations started. -/
structure WorkplaceTurn where
  place : Workplace
  signals : List Signal := []
  started : List Nat := []

namespace Workplace

def ask (w : Workplace) (call : Nat) (now : Moment) (plan : AnswerPlan) : Workplace :=
  let answersAt : Moment := ⟨now.nanos + (Span.ofMillis plan.millis).nanos⟩
  { w with question? := some ⟨call, plan.condition, answersAt⟩ }

def questionOf? (w : Workplace) (call : Nat) : Option Question :=
  w.question?.filter (·.call = call)

def endedOf? (w : Workplace) (call : Nat) : Option Ended := w.ended.find? (·.call = call)

def carryOut (call : Nat) (now : Moment) (t : WorkplaceTurn) (e : Effect) : WorkplaceTurn :=
  let w := t.place
  match e with
  | .askFinished =>
      let plan := Workload.answer w.workload.finished w.tally.finishedChecks
      let tally := { w.tally with finishedChecks := w.tally.finishedChecks + 1 }
      { t with place := { w with tally }.ask call now plan }
  | .askReady =>
      let plan := Workload.answer w.workload.ready w.tally.readyChecks
      let tally := { w.tally with readyChecks := w.tally.readyChecks + 1 }
      { t with place := { w with tally }.ask call now plan }
  | .start name =>
      let number := w.tally.started
      { t with
        place := { w with
          invocations := w.invocations ++ [{ number, call, name }]
          tally := { w.tally with started := number + 1 } }
        started := t.started ++ [number] }
  | .cancel names =>
      let hit (i : Invocation) : Bool := i.call = call ∧ i.name ∈ names
      { t with place := { w with
          invocations := w.invocations.filter (!hit ·)
          tally := { w.tally with cancelled := w.tally.cancelled + w.invocations.countP hit } } }
  | .report signal => { t with signals := t.signals ++ [signal] }

/-- Closes what a call has left open: a question that it no longer asks, and ended
invocations that nobody joins. -/
def tidy (w : Workplace) (call : Nat) : Workplace :=
  let unasked := { w with question? := w.question?.filter (·.call ≠ call) }
  match w.pool.active? call with
  | some run => if run.dispatch.asking then w else unasked
  -- A call that is over joins nobody.
  | none => { unasked with ended := w.ended.filter (·.call ≠ call) }

def after (w : Workplace) (call : Nat) (now : Moment) (turn : Pool Float × List Effect) :
    WorkplaceTurn :=
  let t := turn.2.foldl (carryOut call now) { place := { w with pool := turn.1 } }
  { t with place := t.place.tidy call }

/-- The event that comes first for an active run: an ended invocation, a tick of
the autoscaler, a tick of the status report, an answer, the end of a wait. -/
def nextEvent? (w : Workplace) (call : Nat) (run : Run Float) (now : Moment) (s : Recorder)
    (c : LoadConfig) : Option RunEvent :=
  match w.endedOf? call with
  | some e => some (.joined e.name e.result)
  | none =>
      if run.scaleTicker.Ready now then some (.scaleTick (s.windowLoad c now))
      else if run.statusTicker.Ready now then some (.statusTick (s.currentLoad c now))
      else
        match w.questionOf? call, run.dispatch with
        | some q, _ =>
            if q.answersAt ≤ now then some (.answered (q.condition.holds w.tally now)) else none
        | none, .waiting m => if m ≤ now then some .waited else none
        | none, _ => none

/-- One turn of a call of `run`.  A call whose run fails over its next event breaks off. -/
def callTurn (w : Workplace) (call : Nat) (now : Moment) (s : Recorder) (c : LoadConfig) :
    Option WorkplaceTurn :=
  if call ∈ w.doomed then
    let w := { w with doomed := w.doomed.erase call }
    some (w.after call now (w.pool.drop call))
  else
    let event? := (w.pool.active? call).bind fun run => w.nextEvent? call run now s c
    let ended :=
      match event? with
      | some (.joined ..) => w.ended.eraseP (·.call = call)
      | _ => w.ended
    match w.pool.turn call now s.active event? with
    | some turn => some ({ w with ended }.after call now turn)
    | none =>
        if event?.any w.pool.overflows then some (w.after call now (w.pool.drop call)) else none

/-- One turn of an invocation: it falls asleep, or it ends and its call is made
ready.  The number counts the client errors that it reports. -/
def invocationTurn (w : Workplace) (number : Nat) (now : Moment) :
    Option (Workplace × Nat × List Nat) :=
  match w.invocations.find? (·.number = number) with
  | none => none
  | some i =>
      let plan := w.workload.task number
      match i.wakesAt? with
      | none =>
          let wakesAt : Moment := ⟨now.nanos + (Span.ofMillis plan.millis).nanos⟩
          let invocations := w.invocations.map fun j =>
            if j.number = number then { j with wakesAt? := some wakesAt } else j
          some ({ w with invocations }, 0, [])
      | some wakesAt =>
          if wakesAt ≤ now then
            let tally :=
              match plan.ending with
              | .succeeds => { w.tally with succeeded := w.tally.succeeded + 1 }
              | .fails _ | .panics _ => { w.tally with failed := w.tally.failed + 1 }
            some ({ w with
              invocations := w.invocations.filter (·.number ≠ number)
              ended := w.ended ++ [⟨i.call, i.name, plan.ending.result⟩]
              tally }, plan.clientErrors, [i.call])
          else none

def callTimers (w : Workplace) (call : Nat) : List Moment :=
  match w.pool.active? call with
  | none => []
  | some run =>
      [run.scaleTicker.due, run.statusTicker.due]
        ++ ((w.questionOf? call).map (·.answersAt)).toList
        ++ (match run.dispatch with
            | .waiting m => [m]
            | _ => [])

end Workplace

end ElasticPool.Simulation
