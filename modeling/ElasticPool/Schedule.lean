import ElasticPool.Time.Moment
/-!
Cooperative tasks under a virtual clock.

Ready tasks run one at a time, first in, first out.  The running task is the head
of the queue; it takes one turn after another until it has to wait.  The clock
shows whole milliseconds and moves only when it is told to: either through every
moment at which a waiting task is due, or at once to its target.
-/

namespace ElasticPool

structure TaskSystem (σ τ : Type) where
  /-- One turn of a task and the tasks that it makes ready, or nothing where the
  task has to wait. -/
  turn : Moment → τ → σ → Option (σ × List τ)
  timers : σ → List (τ × Moment)

structure Schedule (σ τ : Type) where
  clock : Nat := 0
  ready : List τ := []
  state : σ

namespace Schedule

variable {σ τ : Type} [BEq τ]

def now (s : Schedule σ τ) : Moment := .ofMillis s.clock

def wake (s : Schedule σ τ) (tasks : List τ) : Schedule σ τ :=
  let enqueue (queue : List τ) (task : τ) :=
    if queue.contains task then queue else queue ++ [task]
  { s with ready := tasks.foldl enqueue s.ready }

def settleWithin (sys : TaskSystem σ τ) : Nat → Schedule σ τ → Schedule σ τ
  | 0, s => s
  | turns + 1, s =>
      match s.ready with
      | [] => s
      | task :: others =>
          -- The task goes on at the head of the queue until it has to wait.
          match sys.turn s.now task s.state with
          | some (state, woken) => settleWithin sys turns ({ s with state }.wake woken)
          | none => settleWithin sys turns { s with ready := others }

/-- The turns after which tasks that keep each other ready are left alone. -/
def patience : Nat := 100000000

def settle (sys : TaskSystem σ τ) (s : Schedule σ τ) : Schedule σ τ :=
  settleWithin sys patience s

/-- The next time after the present one at which the clock finds a task due. -/
def nextFiring? (sys : TaskSystem σ τ) (s : Schedule σ τ) : Option Nat :=
  let times := (sys.timers s.state).map fun timer => timer.2.roundedUp
  (times.filter (s.clock < ·)).min?

def fire (sys : TaskSystem σ τ) (s : Schedule σ τ) (clock : Nat) : Schedule σ τ :=
  let due := (sys.timers s.state).filter fun timer => timer.2.roundedUp ≤ clock
  { s with clock }.wake (due.map Prod.fst)

/-- Runs the tasks through each time before the target at which one is due, for at
most the given number of such times.  What is due at the target is left ready. -/
def advanceWithin (sys : TaskSystem σ τ) (target : Nat) :
    Nat → Schedule σ τ → Schedule σ τ
  | 0, s => s.fire sys target
  | firings + 1, s =>
      match s.nextFiring? sys with
      | some clock =>
          if clock < target then
            advanceWithin sys target firings ((s.fire sys clock).settle sys)
          else s.fire sys target
      | none => s.fire sys target

/-- Runs what is ready, and then moves the clock through each time at which a task
is due.  The tasks that are due in the end are ready, but have not run; with no
time to pass, none runs at all.  The clock stops at most once at each millisecond. -/
def advance (sys : TaskSystem σ τ) (millis : Nat) (s : Schedule σ τ) : Schedule σ τ :=
  let millis := (Span.ofMillis millis).kept.wholeMillis
  if millis = 0 then s else advanceWithin sys (s.clock + millis) millis (s.settle sys)

/-- Moves the clock at once.  Whatever has become due is ready and runs late. -/
def jump (sys : TaskSystem σ τ) (millis : Nat) (s : Schedule σ τ) : Schedule σ τ :=
  s.fire sys (s.clock + millis)

end Schedule

end ElasticPool
