import ElasticPool.Config
import ElasticPool.Settings

namespace ElasticPool.Scaling

/-- The size of a step: a share of the desired concurrency, rounded up and at
least one. -/
def stepSize (desired : UInt64) (ratio : Float) : UInt64 :=
  max (Binary64.ceilWord (desired.toFloat * ratio)) 1

def lowered (desired amount : UInt64) : UInt64 :=
  if amount ≤ desired then desired - amount else 0

def raised? (desired amount : UInt64) : Option UInt64 :=
  if desired.toNat + amount.toNat < UInt64.size then some (desired + amount) else none

/-- The desired concurrency after a tick.  It grows while the system is idle and
the present allowance is in use, and it shrinks while the system is overloaded.
A tick fails if it adds up what does not fit into a word. -/
def next? (s : Settings) (c : ScalingConfig) (desired current : UInt64) (idle : Bool) :
    Option UInt64 :=
  if idle then
    if c.utilization ≤ current.toFloat / desired.toFloat then
      (raised? desired (stepSize desired c.upRatio)).map s.clamp
    else some desired
  else some (s.clamp (lowered desired (stepSize desired c.downRatio)))

/-- The desired concurrency after each of a sequence of ticks, unless one of them
fails.  A tick gives the concurrency in use, the desired one where it gives none,
and whether the system is idle. -/
def afterTicks (s : Settings) (c : ScalingConfig) (desired : UInt64) :
    List (Option UInt64 × Bool) → Option (List UInt64)
  | [] => some []
  | (current?, idle) :: ticks =>
      (next? s c desired (current?.getD desired) idle).bind fun next =>
        (afterTicks s c next ticks).map (next :: ·)

def replay (f : Settings.Fields) (c : ScalingConfig) (start? : Option UInt64)
    (ticks : List (Option UInt64 × Bool)) : Except ConfigFault (Option (List UInt64)) := do
  let s ← Settings.build f
  c.check
  return afterTicks s c (start?.getD s.desired) ticks

end ElasticPool.Scaling
