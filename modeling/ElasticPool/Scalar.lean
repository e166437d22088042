import ElasticPool.Time.Span

namespace ElasticPool

class Scalar (α : Type) extends Add α, Sub α, Mul α, Div α, Zero α, One α where
  atMost : α → α → Bool
  ofRate : Float → α
  sixty : α
  ofSpan : Span → α
  /-- A number of seconds to the nearest nanosecond, where spans reach that far. -/
  toSpan? : α → Option Span

instance : Scalar Float where
  zero := 0
  one := 1
  atMost x y := x ≤ y
  ofRate := id
  sixty := 60
  ofSpan := Span.seconds
  toSpan? := Span.ofFloat?

instance : Scalar Rat where
  zero := 0
  one := 1
  atMost x y := x ≤ y
  ofRate x := (Binary64.toRat? x).getD 0
  sixty := 60
  ofSpan s := (s.nanos : Rat) / 1000000000
  toSpan? := Span.ofRat?

end ElasticPool
