import ElasticPool.Binary64.Exact
/-!
The shortest decimal text of a float.

The text has the fewest significant digits that still read back as the same
float.  Among the decimals with that many digits the nearest one is written, and
of two equally near ones the larger.  The notation is always positional.
-/

namespace ElasticPool.Binary64

structure Decimal where
  coefficient : Nat
  exponent : Int
  deriving DecidableEq, Repr

def powerOfTen (e : Int) : Rat :=
  if 0 ≤ e then (Nat.pow 10 e.toNat : Nat) else mkRat 1 (Nat.pow 10 (-e).toNat)

def Decimal.value (d : Decimal) : Rat :=
  d.coefficient * powerOfTen d.exponent

/-- The numbers that round to one float: all between `low` and `high`, and these
two as well when `closed` holds. -/
structure Interval where
  low : Rat
  high : Rat
  closed : Bool

def Interval.contains (i : Interval) (q : Rat) : Bool :=
  if i.closed then decide (i.low ≤ q ∧ q ≤ i.high) else decide (i.low < q ∧ q < i.high)

/-- The rounding interval of a positive float.  Below a power of two the
neighbouring float is only half as far away, unless the exponent is the least. -/
def Parts.interval (p : Parts) : Interval :=
  let value := scaled p.significand p.exponent
  let above := scaled 1 (p.exponent - 1)
  let below :=
    if p.significand = leastNormal ∧ p.exponent ≠ -1074 then scaled 1 (p.exponent - 2) else above
  ⟨value - below, value + above, p.significand % 2 = 0⟩

def leadingExponent (q : Rat) : Int :=
  (Nat.toDigits 10 (q * powerOfTen 400).floor.toNat).length - 401

/-- The decimal with the given exponent that lies in the interval and is nearest
to `q`, if there is one. -/
def onGrid? (i : Interval) (q : Rat) (exponent : Int) : Option Decimal :=
  let below := (q / powerOfTen exponent).floor.toNat
  let lower : Decimal := ⟨below, exponent⟩
  let upper : Decimal := ⟨below + 1, exponent⟩
  match i.contains lower.value, i.contains upper.value with
  | true, true => some (if q - lower.value < upper.value - q then lower else upper)
  | true, false => some lower
  | false, true => some upper
  | false, false => none

/-- The first grid, from coarse to fine, that meets the interval.  The coarsest
one holds the next power of ten above the float, and seventeen digits always
suffice. -/
def shortest (p : Parts) : Decimal :=
  let q := scaled p.significand p.exponent
  let lead := leadingExponent q
  ((List.range 18).findSome? fun (n : Nat) => onGrid? p.interval q (lead + 1 - n)).getD ⟨0, 0⟩

/-- Positional notation: no exponent, and no point in a whole number. -/
def Decimal.text (d : Decimal) : String :=
  let digits := Nat.toDigits 10 d.coefficient
  if 0 ≤ d.exponent then
    String.ofList (digits ++ List.replicate d.exponent.toNat '0')
  else
    let places := (-d.exponent).toNat
    let padded := List.replicate (places + 1 - digits.length) '0' ++ digits
    let whole := padded.length - places
    String.ofList (padded.take whole ++ '.' :: padded.drop whole)

def text (x : Float) : String :=
  match parts? x with
  | some p =>
      let magnitude := if p.significand = 0 then "0" else (shortest p).text
      if p.negative then "-" ++ magnitude else magnitude
  | none => if x.isNaN then "NaN" else if x < 0 then "-inf" else "inf"

end ElasticPool.Binary64
