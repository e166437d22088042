import ElasticPool.Run
import ElasticPool.Scaling
import ElasticPool.Signal
/-!
The pool: the calls of `run`, the one run that may be active among them, and the
concurrency that all of them share.

A turn of a call takes the pool, the moment and the event that comes first, and it
yields the pool afterwards with the effects that the turn has on the outside: the
questions asked, the invocations started and cancelled, and the signals given.
-/

namespace ElasticPool

/-- Where the pool stands.  The outcome of the last run is kept until the next one
begins. -/
inductive Phase
  | idle
  | running
  | finished
  | aborted
  | failed
  deriving DecidableEq, Repr

inductive Call (α : Type)
  | waiting
  | active (run : Run α)
  | ended (result : Except PoolFault Unit)
  | dropped

inductive Effect
  | askFinished
  | askReady
  | start (invocation : Nat)
  | cancel (invocations : List Nat)
  | report (signal : Signal)

structure Pool (α : Type) where
  settings : Settings
  config : ScalingConfig
  phase : Phase := .idle
  /-- The call that an abort would cancel. -/
  abortable? : Option Nat := none
  /-- The calls whose runs have been told to end, or were told so when they ended. -/
  revoked : List Nat := []
  desired : UInt64 := settings.desired
  current : UInt64 := 0
  calls : List (Call α) := []

/-- A run in the middle of a turn: the pool, the run, the effects so far and the
outcome, if the turn has ended the run. -/
structure RunTurn (α : Type) where
  pool : Pool α
  run : Run α
  effects : List Effect := []
  outcome? : Option Outcome := none

namespace RunTurn

variable {α : Type}

def moveTo (t : RunTurn α) (dispatch : Dispatch) : RunTurn α :=
  { t with run := { t.run with dispatch } }

def perform (t : RunTurn α) (e : Effect) : RunTurn α := { t with effects := t.effects ++ [e] }

def report (t : RunTurn α) (s : Signal) : RunTurn α := t.perform (.report s)

def seekMore (t : RunTurn α) : RunTurn α :=
  if t.pool.current < t.pool.desired then (t.moveTo .askedReady).perform .askReady
  else t.moveTo .parked

/-- Acts on the answer whether all work is finished.  With invocations in flight
the question comes again when one of them has ended. -/
def onFinishedAnswer (t : RunTurn α) (finished : Bool) : RunTurn α :=
  if finished then
    if t.run.inFlight.isEmpty then { t with outcome? := some .finished } else t.moveTo .parked
  else t.seekMore

def startOne (t : RunTurn α) : RunTurn α :=
  let run := { t.run with
    inFlight := t.run.inFlight ++ [t.run.started]
    started := t.run.started + 1 }
  let pool := { t.pool with current := t.pool.current + 1 }
  ({ t with pool, run }.perform (.start t.run.started)).report (.taskStarted pool.current)

/-- Acts on the answer whether work is ready.  The desired concurrency may have
dropped while the question was open. -/
def onReadyAnswer [Scalar α] (t : RunTurn α) (now : Moment) (ready : Bool) : RunTurn α :=
  if !ready then t.moveTo (.waiting (momentAfter now t.pool.config.dispatchWait))
  else if t.pool.desired ≤ t.pool.current then t.moveTo .parked
  else
    match t.run.budget.take now with
    | (.error wait, budget) =>
        ({ t with run := { t.run with budget } }.report (.budgetExhausted wait)).moveTo
          (.waiting (momentAfter now wait))
    | (.ok (), budget) => { t with run := { t.run with budget } }.startOne.seekMore

/-- Joins an invocation.  The first error stops new starts and closes an open
question. -/
def onJoined (t : RunTurn α) (invocation : Nat) (result : Except String Unit) : RunTurn α :=
  let current := if t.pool.current = 0 then 0 else t.pool.current - 1
  let t := { t with
    pool := { t.pool with current }
    run := { t.run with inFlight := t.run.inFlight.erase invocation } }
  match result with
  | .ok () => { t with run := t.run.unparked }
  | .error cause =>
      match t.run.failure? with
      | none =>
          (({ t with run := { t.run with failure? := some cause } }).report
            (.taskFailed cause t.run.inFlight.length)).moveTo .parked
      | some _ => (t.report (.furtherTaskFailed cause)).moveTo .parked

/-- Moves the desired concurrency by one step at most.  A tick that fails does not come
this far. -/
def rescale (t : RunTurn α) (load : SystemLoad) : RunTurn α :=
  let before := t.pool.desired
  let after := (Scaling.next? t.pool.settings t.pool.config before t.pool.current load.idle).getD
    before
  let t := { t with pool := { t.pool with desired := after } }
  let t := if after = before then t else t.report (.desiredChanged before after)
  let t := if after < before then t.report (.scaledDown load after) else t
  t.report (.concurrencySampled after t.pool.current)

def onScaleTick (t : RunTurn α) (now : Moment) (load : Except RecorderFault SystemLoad) :
    RunTurn α :=
  let t := { t with run := { t.run with scaleTicker := t.run.scaleTicker.taken now } }
  match load with
  | .error cause => { t with outcome? := some (.evaluationFailed cause) }
  | .ok load =>
      let t := t.rescale load
      { t with run := t.run.unparked }

def onStatusTick (t : RunTurn α) (now : Moment) (load : Except RecorderFault SystemLoad) :
    RunTurn α :=
  let t := { t with run := { t.run with statusTicker := t.run.statusTicker.taken now } }
  match load with
  | .ok load => t.report (.status load t.pool.current t.pool.desired)
  | .error cause => t.report (.statusUnavailable cause)

def onAnswer [Scalar α] (t : RunTurn α) (now : Moment) (yes : Bool) : RunTurn α :=
  match t.run.dispatch with
  | .askedFinished => t.onFinishedAnswer yes
  | .askedReady =>
      if t.run.failure?.isNone then t.onReadyAnswer now yes else t.moveTo .parked
  | _ => t

def onEvent [Scalar α] (t : RunTurn α) (now : Moment) : RunEvent → RunTurn α
  | .joined invocation result => t.onJoined invocation result
  | .scaleTick load => t.onScaleTick now load
  | .statusTick load => t.onStatusTick now load
  | .answered yes => t.onAnswer now yes
  | .waited => t.moveTo .idle

/-- What a run does before it waits again.  A failed run ends once nothing is in
flight, and a run with nothing pending asks whether all work is finished. -/
def settle (t : RunTurn α) : RunTurn α :=
  if t.outcome?.isSome then t
  else
    match t.run.failure? with
    | some cause =>
        if t.run.inFlight.isEmpty then { t with outcome? := some (.taskFailed cause) } else t
    | none =>
        if t.run.dispatch = .idle then (t.moveTo .askedFinished).perform .askFinished else t

end RunTurn

namespace Outcome

def phase : Outcome → Phase
  | finished => .finished
  | aborted => .aborted
  | taskFailed _ | evaluationFailed _ => .failed

def result : Outcome → Except PoolFault Unit
  | finished | aborted => .ok ()
  | taskFailed cause => .error (.taskFailed cause)
  | evaluationFailed cause => .error (.recorder cause)

def signal : Outcome → Signal
  | finished => .runFinished
  | aborted => .runAborted
  | taskFailed cause => .runFailed cause
  | evaluationFailed cause => .evaluationFailed cause

end Outcome

namespace Pool

variable {α : Type}

def setCall (p : Pool α) (i : Nat) (call : Call α) : Pool α :=
  { p with calls := p.calls.set i call }

def call (p : Pool α) : Pool α := { p with calls := p.calls ++ [.waiting] }

/-- What every run leaves behind, whichever way it ends. -/
def release (p : Pool α) : Pool α := { p with
  phase := if p.phase = .running then .aborted else p.phase
  abortable? := none
  revoked := p.revoked ++ p.abortable?.toList
  current := 0 }

theorem phase_release_ne_running (p : Pool α) : p.release.phase ≠ .running := by
  unfold release
  split <;> simp_all

def leave (p : Pool α) (i : Nat) (run : Run α) (outcome : Outcome) : Pool α × List Effect :=
  (({ p with phase := outcome.phase }.release).setCall i (.ended outcome.result),
    [.cancel run.inFlight, .report outcome.signal])

def resume (i : Nat) (t : RunTurn α) : Pool α × List Effect :=
  match t.outcome? with
  | none => (t.pool.setCall i (.active t.run), t.effects)
  | some outcome =>
      let (pool, effects) := t.pool.leave i t.run outcome
      (pool, t.effects ++ effects)

def enter [Scalar α] (p : Pool α) (i : Nat) (now : Moment) (sampling : Bool) :
    Pool α × List Effect :=
  if p.phase = .running then (p.setCall i (.ended (.error .alreadyRunning)), [])
  else if !sampling then (p.setCall i (.ended (.error (.recorder .notActive))), [])
  else
    let p := { p with
      phase := .running, abortable? := some i, desired := p.settings.desired, current := 0 }
    let turn : RunTurn α := { pool := p, run := .fresh p.settings.tasksPerMinute p.config now }
    resume i (turn.report
      (.runStarted p.settings.minimum p.settings.maximum p.desired)).settle

/-- Whether the run fails over the event: a tick of the autoscaler that would raise the
desired concurrency beyond what fits into a word. -/
def overflows (p : Pool α) : RunEvent → Bool
  | .scaleTick (.ok load) =>
      (Scaling.next? p.settings p.config p.desired p.current load.idle).isNone
  | .scaleTick (.error _) | .joined .. | .statusTick _ | .answered _ | .waited => false

/-- One turn of a call, or nothing where it has to wait.  A cancelled run ends
before any event is looked at.  A run does not come through a turn over which it fails:
the call breaks off, as if it were given up. -/
def turn [Scalar α] (p : Pool α) (i : Nat) (now : Moment) (sampling : Bool)
    (event? : Option RunEvent) : Option (Pool α × List Effect) :=
  match p.calls[i]? with
  | some .waiting => some (p.enter i now sampling)
  | some (.active run) =>
      if run.cancelled then some (p.leave i run .aborted)
      else
        match event? with
        | none => none
        | some event =>
            if run.Admits now event ∧ ¬p.overflows event then
              some (resume i (({ pool := p, run } : RunTurn α).onEvent now event).settle)
            else none
  | _ => none

theorem turn_of_cancelled [Scalar α] {p : Pool α} {i : Nat} {run : Run α}
    (active : p.calls[i]? = some (.active run)) (cancelled : run.cancelled = true)
    (now : Moment) (sampling : Bool) (event? : Option RunEvent) :
    p.turn i now sampling event? = some (p.leave i run .aborted) := by
  simp [turn, active, cancelled]

/-- Cancels the active run.  It ends at its next turn. -/
def abort (p : Pool α) : Except PoolFault (Pool α × List Effect) :=
  match p.phase, p.abortable? with
  | .running, some i =>
      -- The run is only marked here. It stays active until its call takes a turn.
      let calls := p.calls.modify i fun
        | .active run => .active { run with cancelled := true }
        | call => call
      .ok ({ p with calls, revoked := p.revoked ++ [i], current := 0 }, [.report .abortRequested])
  | _, _ => .error .notRunning

def drop (p : Pool α) (i : Nat) : Pool α × List Effect :=
  match p.calls[i]? with
  | some .waiting => (p.setCall i .dropped, [])
  | some (.active run) => (p.release.setCall i .dropped, [.cancel run.inFlight])
  | _ => (p, [])

def active? (p : Pool α) (i : Nat) : Option (Run α) :=
  match p.calls[i]? with
  | some (.active run) => some run
  | _ => none

end Pool

end ElasticPool
