import ElasticPool.Time.Span

namespace ElasticPool

/-- A moment, as signed nanoseconds from the one at which the clock starts. -/
@[ext] structure Moment where
  nanos : Int
  deriving DecidableEq, Repr

namespace Moment

def ofMillis (n : Nat) : Moment := ⟨n * 1000000⟩

def count (m : Moment) : Int64 := .ofInt m.nanos

instance : LE Moment := ⟨fun a b => a.nanos ≤ b.nanos⟩

instance : LT Moment := ⟨fun a b => a.nanos < b.nanos⟩

instance (a b : Moment) : Decidable (a ≤ b) := inferInstanceAs (Decidable (a.nanos ≤ b.nanos))

instance (a b : Moment) : Decidable (a < b) := inferInstanceAs (Decidable (a.nanos < b.nanos))

theorem le_def {a b : Moment} : a ≤ b ↔ a.nanos ≤ b.nanos := .rfl

theorem lt_def {a b : Moment} : a < b ↔ a.nanos < b.nanos := .rfl

/-- Moments can be named as long as their whole seconds fit a signed 64-bit word. -/
def Nameable (nanos : Int) : Prop :=
  -9223372036854775808 * 1000000000 ≤ nanos ∧ nanos < 9223372036854775808 * 1000000000

instance (nanos : Int) : Decidable (Nameable nanos) :=
  inferInstanceAs (Decidable (_ ∧ _))

def add? (m : Moment) (s : Span) : Option Moment :=
  if Nameable (m.nanos + s.nanos) then some ⟨m.nanos + s.nanos⟩ else none

def sub? (m : Moment) (s : Span) : Option Moment :=
  if Nameable (m.nanos - s.nanos) then some ⟨m.nanos - s.nanos⟩ else none

def since (later earlier : Moment) : Span := ⟨(later.nanos - earlier.nanos).toNat⟩

/-- The least whole millisecond of the clock that is not before the moment. -/
def roundedUp (m : Moment) : Nat := ((m.nanos + 999999) / 1000000).toNat

theorem since_eq_zero_iff {later earlier : Moment} : (later.since earlier).nanos = 0 ↔
    later ≤ earlier := by
  simp only [since, le_def]
  omega

end Moment

end ElasticPool
