import ElasticPool.Scalar
import ElasticPool.Time.Moment

namespace ElasticPool

open Scalar

/-- A bucket that fills by `perSecond` and held `tokens` at the moment `last`. -/
structure Bucket (α : Type) where
  perSecond : α
  tokens : α
  last : Moment
  deriving Repr

/-- The longest single wait.  A bucket that fills more slowly is asked again
after it. -/
def longestWait : Span := .ofSeconds 3600

namespace Bucket

variable {α : Type} [Scalar α]

def full (perMinute : Float) (now : Moment) : Bucket α := ⟨ofRate perMinute / sixty, 1, now⟩

/-- The bucket after the time since it was last seen.  It never holds more than
one start, and time that runs backwards changes nothing. -/
def refill (b : Bucket α) (now : Moment) : Bucket α :=
  let elapsed : α := ofSpan (now.since b.last)
  if atMost elapsed 0 then b
  else
    let tokens := b.tokens + elapsed * b.perSecond
    { b with tokens := if atMost tokens 1 then tokens else 1, last := now }

/-- How long the bucket takes to hold a start. -/
def wait (b : Bucket α) : Span :=
  match toSpan? ((1 - b.tokens) / b.perSecond) with
  | some span => if longestWait < span then longestWait else span
  | none => longestWait

theorem wait_le_longestWait (b : Bucket α) : b.wait ≤ longestWait := by
  unfold wait
  split
  · split
    · exact Nat.le_refl _
    · next h => exact Nat.not_lt.mp h
  · exact Nat.le_refl _

def take (b : Bucket α) (now : Moment) : Except Span Unit × Bucket α :=
  let b := b.refill now
  if atMost 1 b.tokens then (.ok (), { b with tokens := b.tokens - 1 }) else (.error b.wait, b)

end Bucket

/-- A bucket, or nothing where starts are not limited. -/
abbrev Budget (α : Type) := Option (Bucket α)

namespace Budget

variable {α : Type} [Scalar α]

def full (perMinute? : Option Float) (now : Moment) : Budget α :=
  perMinute?.map (Bucket.full · now)

def take (b : Budget α) (now : Moment) : Except Span Unit × Budget α :=
  match b with
  | none => (.ok (), none)
  | some bucket =>
      let (answer, bucket) := bucket.take now
      (answer, some bucket)

@[simp] theorem take_none (now : Moment) :
    take (none : Budget α) now = (.ok (), none) := rfl

def answers (b : Budget α) : List Moment → List (Except Span Unit)
  | [] => []
  | now :: calls =>
      let (answer, b) := b.take now
      answer :: b.answers calls

end Budget

end ElasticPool
