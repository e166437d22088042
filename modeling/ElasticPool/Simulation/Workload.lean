import ElasticPool.Text.Quoted
import ElasticPool.Time.Moment

namespace ElasticPool.Simulation

inductive Ending
  | succeeds
  | fails (cause : String)
  | panics (message : String)
  deriving DecidableEq, Repr

namespace Ending

/-- The result that the pool joins.  A panic counts as an error. -/
def result : Ending → Except String Unit
  | succeeds => .ok ()
  | fails cause => .error cause
  | panics message => .error ("task N panicked with message " ++ Text.quoted message)

end Ending

structure TaskPlan where
  millis : Nat
  clientErrors : Nat := 0
  ending : Ending := .succeeds
  deriving DecidableEq, Repr

structure Tally where
  started : Nat := 0
  succeeded : Nat := 0
  failed : Nat := 0
  cancelled : Nat := 0
  readyChecks : Nat := 0
  finishedChecks : Nat := 0
  deriving DecidableEq, Repr

inductive Condition
  | always (answer : Bool)
  | startedBelow (n : Nat)
  | succeededAtLeast (n : Nat)
  | endedAtLeast (n : Nat)
  | clockAtLeast (millis : Nat)
  deriving DecidableEq, Repr

namespace Condition

def holds (tally : Tally) (now : Moment) : Condition → Bool
  | always answer => answer
  | startedBelow n => tally.started < n
  | succeededAtLeast n => n ≤ tally.succeeded
  | endedAtLeast n => n ≤ tally.succeeded + tally.failed
  | clockAtLeast millis => Moment.ofMillis millis ≤ now

end Condition

/-- How a question is answered: after a while, by what holds then. -/
structure AnswerPlan where
  millis : Nat
  condition : Condition
  deriving DecidableEq, Repr

/-- The plans of the invocations, which are used in turn, and of the answers, of
which the last one is used again and again. -/
structure Workload where
  tasks : List TaskPlan
  ready : List AnswerPlan
  finished : List AnswerPlan
  deriving DecidableEq, Repr

namespace Workload

def task (w : Workload) (number : Nat) : TaskPlan :=
  w.tasks[number % w.tasks.length]?.getD { millis := 0 }

def answer (plans : List AnswerPlan) (asked : Nat) : AnswerPlan :=
  plans[min asked (plans.length - 1)]?.getD ⟨0, .always true⟩

end Workload

end ElasticPool.Simulation
