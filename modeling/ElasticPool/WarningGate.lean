import ElasticPool.Time.Moment

namespace ElasticPool

structure WarningGate where
  cooldown : Span
  /-- When the current episode was last warned about. -/
  last? : Option Moment := none
  deriving DecidableEq, Repr

namespace WarningGate

def ask (w : WarningGate) (overloaded : Bool) (now : Moment) : Bool × WarningGate :=
  if overloaded then
    if w.last?.any fun last => now.since last < w.cooldown then (false, w)
    else (true, { w with last? := some now })
  else (false, { w with last? := none })

/-- The first call of an episode is always answered with a warning. -/
theorem ask_true_of_none {w : WarningGate} (h : w.last? = none) (now : Moment) :
    w.ask true now = (true, { w with last? := some now }) := by
  simp [ask, h]

def answers (w : WarningGate) : List (Bool × Moment) → List Bool
  | [] => []
  | (overloaded, now) :: calls =>
      let (warned, w) := w.ask overloaded now
      warned :: w.answers calls

end WarningGate

end ElasticPool
