import ElasticPool.Binary64.Exact

namespace ElasticPool

@[ext] structure Span where
  nanos : Nat
  deriving DecidableEq, Repr

namespace Span

def ofMillis (n : Nat) : Span := ⟨n * 1000000⟩

def ofSeconds (n : Nat) : Span := ⟨n * 1000000000⟩

/-- The longest span, one nanosecond short of `2 ^ 64` seconds.  It reaches from
every moment beyond the last one that can be named. -/
def longest : Span := ⟨UInt64.size * 1000000000 - 1⟩

/-- Thirty years, which stand in for a wait to which no clock can be set. -/
def far : Span := .ofSeconds (30 * 365 * 86400)

/-- A clock can be set to any wait of fewer nanoseconds than the last 64-bit count. -/
def Settable (s : Span) : Prop := s.nanos < UInt64.size - 1

instance (s : Span) : Decidable s.Settable := inferInstanceAs (Decidable (s.nanos < _))

/-- How long a clock waits that is set to a span. -/
def kept (s : Span) : Span := if s.Settable then s else far

def count (s : Span) : UInt64 := .ofNat s.nanos

instance : LE Span := ⟨fun a b => a.nanos ≤ b.nanos⟩

instance : LT Span := ⟨fun a b => a.nanos < b.nanos⟩

instance (a b : Span) : Decidable (a ≤ b) := inferInstanceAs (Decidable (a.nanos ≤ b.nanos))

instance (a b : Span) : Decidable (a < b) := inferInstanceAs (Decidable (a.nanos < b.nanos))

theorem le_def {a b : Span} : a ≤ b ↔ a.nanos ≤ b.nanos := .rfl

theorem lt_def {a b : Span} : a < b ↔ a.nanos < b.nanos := .rfl

theorem kept_of_settable {s : Span} (h : s.Settable) : s.kept = s := if_pos h

theorem kept_of_not_settable {s : Span} (h : ¬s.Settable) : s.kept = far := if_neg h

theorem far_lt_of_not_settable {s : Span} (h : ¬s.Settable) : far.nanos < s.nanos :=
  Nat.lt_of_lt_of_le (by decide) (Nat.le_of_not_lt h)

theorem kept_le (s : Span) : s.kept.nanos ≤ s.nanos := by
  by_cases h : s.Settable
  · exact Nat.le_of_eq (congrArg nanos (kept_of_settable h))
  · rw [kept_of_not_settable h]
    exact Nat.le_of_lt (far_lt_of_not_settable h)

theorem min_far_le_kept (s : Span) : min s.nanos far.nanos ≤ s.kept.nanos := by
  by_cases h : s.Settable
  · rw [kept_of_settable h]
    exact Nat.min_le_left _ _
  · rw [kept_of_not_settable h]
    exact Nat.min_le_right _ _

def wholeMillis (s : Span) : Nat := s.nanos / 1000000

/-- The span in seconds.  Whole seconds and the rest are converted apart and then
added, so the sum is rounded once more. -/
def seconds (s : Span) : Float :=
  Float.ofNat (s.nanos / 1000000000) + Float.ofNat (s.nanos % 1000000000) / 1e9

def ofRat? (q : Rat) : Option Span :=
  if q < 0 then none
  else
    let nanos := (Binary64.roundHalfEven (q * 1000000000)).toNat
    if nanos ≤ longest.nanos then some ⟨nanos⟩ else none

/-- The span of `x` seconds to the nearest nanosecond, decided on the exact value
of `x`. -/
def ofFloat? (x : Float) : Option Span :=
  (Binary64.toRat? x).bind ofRat?

end Span

end ElasticPool
