namespace ElasticPool.Binary64

structure Parts where
  negative : Bool
  significand : Nat
  exponent : Int
  deriving DecidableEq, Repr

def leastNormal : Nat := 1 <<< 52

/-- The parts of a finite float.  Subnormal floats share the least exponent and
lack the leading bit that the others carry implicitly. -/
def parts? (x : Float) : Option Parts :=
  let bits := x.toBits.toNat
  let negative := bits.testBit 63
  let biased : Nat := bits / leastNormal % 2048
  let fraction : Nat := bits % leastNormal
  if biased = 2047 then none
  else if biased = 0 then some ⟨negative, fraction, -1074⟩
  else some ⟨negative, leastNormal + fraction, (biased : Int) - 1075⟩

def scaled (n : Nat) (e : Int) : Rat :=
  if 0 ≤ e then (n <<< e.toNat : Nat) else mkRat n (1 <<< (-e).toNat)

def Parts.value (p : Parts) : Rat :=
  let magnitude := scaled p.significand p.exponent
  if p.negative then -magnitude else magnitude

/-- The number that a finite float stands for; infinities and NaN have none. -/
def toRat? (x : Float) : Option Rat :=
  (parts? x).map Parts.value

def roundHalfEven (q : Rat) : Int :=
  let below := q.floor
  let rest := q - below
  if rest < 1 / 2 then below
  else if 1 / 2 < rest then below + 1
  else if below % 2 = 0 then below
  else below + 1

/-- The least whole number that is not below `x`, brought into the range of
64-bit words.  NaN gives zero. -/
def ceilWord (x : Float) : UInt64 :=
  match toRat? x with
  | some q => .ofNat (min q.ceil.toNat (UInt64.size - 1))
  | none => if 0 < x then .ofNat (UInt64.size - 1) else 0

end ElasticPool.Binary64
