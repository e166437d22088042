import ElasticPool.Json

namespace ElasticPool.Json

abbrev Reader (α : Type) := List Char → Option (α × List Char)

namespace Reader

def isBlank (c : Char) : Bool := c = ' ' || c = '\n' || c = '\t' || c = '\r'

def skipBlanks (cs : List Char) : List Char := cs.dropWhile isBlank

def digitValue (c : Char) : Nat := c.toNat - '0'.toNat

def digitsValue (ds : List Char) : Nat := ds.foldl (fun n d => 10 * n + digitValue d) 0

def digits : Reader (List Char) := fun cs =>
  match cs.takeWhile Char.isDigit with
  | [] => none
  | ds => some (ds, cs.dropWhile Char.isDigit)

def wholePart : Reader (List Char)
  | '0' :: cs => some (['0'], cs)
  | cs => digits cs

def fractionPart : Reader (List Char)
  | '.' :: cs => digits cs
  | cs => some ([], cs)

def exponentPart : Reader Int
  | 'e' :: cs | 'E' :: cs =>
      let (negative, cs) : Bool × List Char :=
        match cs with
        | '+' :: cs => (false, cs)
        | '-' :: cs => (true, cs)
        | cs => (false, cs)
      (digits cs).map fun (ds, rest) =>
        (if negative then -(digitsValue ds : Int) else digitsValue ds, rest)
  | cs => some (0, cs)

/-- The float nearest to `coefficient * 10 ^ exponent`, if it is finite.  The decimal
is rounded once, as a whole: no power of ten is rounded on the way.  Numbers far
outside the range of floats are told apart by their count of digits. -/
def nearestFloat? (coefficient : Nat) (exponent : Int) : Option Float :=
  let magnitude := (Nat.toDigits 10 coefficient).length + exponent
  if coefficient = 0 ∨ magnitude < -400 then some 0
  else if 400 < magnitude then none
  else
    let x := Float.ofScientific coefficient (exponent < 0) exponent.natAbs
    if x.isFinite then some x else none

def number : Reader Json := fun cs => do
  let (negative, cs) : Bool × List Char :=
    match cs with
    | '-' :: cs => (true, cs)
    | cs => (false, cs)
  let (whole, afterWhole) ← wholePart cs
  let (fraction, afterFraction) ← fractionPart afterWhole
  let (exponent, rest) ← exponentPart afterFraction
  let plain := !negative && afterWhole.length == rest.length
  if plain && digitsValue whole < UInt64.size then
    return (.word (.ofNat (digitsValue whole)), rest)
  let x ← nearestFloat? (digitsValue (whole ++ fraction)) (exponent - fraction.length)
  return (.real (if negative then -x else x), rest)

def hexValue? (c : Char) : Option Nat :=
  if c.isDigit then some (digitValue c)
  else if 'a' ≤ c ∧ c ≤ 'f' then some (c.toNat - 'a'.toNat + 10)
  else if 'A' ≤ c ∧ c ≤ 'F' then some (c.toNat - 'A'.toNat + 10)
  else none

def hexUnit : Reader Nat
  | a :: b :: c :: d :: rest => do
      let a ← hexValue? a
      let b ← hexValue? b
      let c ← hexValue? c
      let d ← hexValue? d
      return (((a * 16 + b) * 16 + c) * 16 + d, rest)
  | _ => none

/-- What follows a backslash and the letter `u`: a character, or the first of two
surrogate units and then the second one in the same form. -/
def unicodeEscape : Reader Char := fun cs => do
  let (first, rest) ← hexUnit cs
  if 0xD800 ≤ first ∧ first < 0xDC00 then
    match rest with
    | '\\' :: 'u' :: rest =>
        let (second, rest) ← hexUnit rest
        if 0xDC00 ≤ second ∧ second < 0xE000 then
          return (.ofNat (0x10000 + (first - 0xD800) * 0x400 + (second - 0xDC00)), rest)
        else none
    | _ => none
  else if 0xDC00 ≤ first ∧ first < 0xE000 then none
  else return (.ofNat first, rest)

def escape : Reader Char
  | '"' :: rest => some ('"', rest)
  | '\\' :: rest => some ('\\', rest)
  | '/' :: rest => some ('/', rest)
  | 'b' :: rest => some ('\x08', rest)
  | 'f' :: rest => some ('\x0c', rest)
  | 'n' :: rest => some ('\n', rest)
  | 'r' :: rest => some ('\r', rest)
  | 't' :: rest => some ('\t', rest)
  | 'u' :: rest => unicodeEscape rest
  | _ => none

/-- The characters up to the closing quote.  Control characters must be escaped.
Each round uses at least one character, so as many rounds as there are characters
are enough. -/
def characters : Nat → Reader (List Char)
  | 0, _ => none
  | _ + 1, '"' :: rest => some ([], rest)
  | rounds + 1, '\\' :: rest => do
      let (c, rest) ← escape rest
      let (cs, rest) ← characters rounds rest
      return (c :: cs, rest)
  | rounds + 1, c :: rest =>
      if c.toNat < 0x20 then none
      else do
        let (cs, rest) ← characters rounds rest
        return (c :: cs, rest)
  | _ + 1, [] => none

def string : Reader String := fun cs =>
  (characters cs.length cs).map fun (cs, rest) => (String.ofList cs, rest)

def expect (word : List Char) (value : Json) : Reader Json := fun cs =>
  if word.isPrefixOf cs then some (value, cs.drop word.length) else none

mutual

/-- A value, after blanks.  The first argument bounds the rounds of the readers
that call each other. -/
def valueWithin : Nat → Reader Json
  | 0, _ => none
  | rounds + 1, cs =>
      match skipBlanks cs with
      | 'n' :: rest => expect "ull".toList .null rest
      | 't' :: rest => expect "rue".toList (.bool true) rest
      | 'f' :: rest => expect "alse".toList (.bool false) rest
      | '"' :: rest => (string rest).map fun (s, rest) => (.string s, rest)
      | '[' :: rest =>
          match skipBlanks rest with
          | ']' :: rest => some (.array [], rest)
          | rest => (itemsWithin rounds rest).map fun (items, rest) => (.array items, rest)
      | '{' :: rest =>
          match skipBlanks rest with
          | '}' :: rest => some (.object [], rest)
          | rest => (membersWithin rounds rest).map fun (ms, rest) => (.object ms, rest)
      | rest => number rest

def itemsWithin : Nat → Reader (List Json)
  | 0, _ => none
  | rounds + 1, cs => do
      let (item, rest) ← valueWithin rounds cs
      match skipBlanks rest with
      | ',' :: rest =>
          let (items, rest) ← itemsWithin rounds rest
          return (item :: items, rest)
      | ']' :: rest => return ([item], rest)
      | _ => none

def membersWithin : Nat → Reader (List (String × Json))
  | 0, _ => none
  | rounds + 1, cs =>
      match skipBlanks cs with
      | '"' :: rest => do
          let (name, rest) ← string rest
          match skipBlanks rest with
          | ':' :: rest =>
              let (value, rest) ← valueWithin rounds rest
              match skipBlanks rest with
              | ',' :: rest =>
                  let (members, rest) ← membersWithin rounds rest
                  return ((name, value) :: members, rest)
              | '}' :: rest => return ([(name, value)], rest)
              | _ => none
          | _ => none
      | _ => none

end

/-- A value at the front of the text.  Two rounds at most pass without taking a
character. -/
def value : Reader Json := fun cs => valueWithin (2 * cs.length + 2) cs

def atEnd (cs : List Char) : Bool := (skipBlanks cs).isEmpty

end Reader

end ElasticPool.Json
