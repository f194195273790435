import ThreadSoup.Counter
import ThreadSoup.Toml.Date
import ThreadSoup.Toml.Value

namespace ThreadSoup.Toml

/-- An integer has 64 bits. -/
def integerValue (n : Int) : Option Value :=
  if -signLimit ≤ n ∧ n < signLimit then some (.integer n) else none

def infinity : Float := 1 / 0

/-- The double-precision number nearest to `m * 10 ^ e`. -/
def nearestFloat (m : Nat) (e : Int) : Float :=
  let order := (Nat.toDigits 10 m).length + e
  if m = 0 ∨ order < -400 then 0
  else if 400 < order then infinity
  else if e < 0 then Float.ofScientific m true e.natAbs
  else Float.ofScientific m false e.natAbs

/-- A positive number must not be too large. A negative one may be. -/
def floatValue (negative : Bool) (m : Nat) (e : Int) : Option Value :=
  let x := nearestFloat m e
  if negative then some (.float (-x))
  else if x == infinity then none
  else some (.float x)

/-- The digits before the point. Zero stands alone. -/
def readWhole : Reader (List Char)
  | '0' :: s => some (['0'], s)
  | s => readDigits1 isDecimalDigit s

def readFraction : Reader (List Char)
  | '.' :: s => readDigits1 isDecimalDigit s
  | _ => none

def readExponent : Reader Int
  | c :: s =>
    if c = 'e' ∨ c = 'E' then
      match s with
      | '-' :: s => do
        let (digits, rest) ← readDigits1 isDecimalDigit s
        return (-(digitsValue 10 digits : Int), rest)
      | '+' :: s => do
        let (digits, rest) ← readDigits1 isDecimalDigit s
        return (digitsValue 10 digits, rest)
      | s => do
        let (digits, rest) ← readDigits1 isDecimalDigit s
        return (digitsValue 10 digits, rest)
    else none
  | [] => none

/-- A decimal number. It is an integer if it has neither a fraction nor an exponent. -/
def readDecimal (negative : Bool) (s : List Char) : Option (Value × List Char) := do
  let (whole, rest) ← readWhole s
  match readFraction rest with
  | none =>
    match readExponent rest with
    | none =>
      let n : Int := digitsValue 10 whole
      return (← integerValue (if negative then -n else n), rest)
    | some (e, rest) => return (← floatValue negative (digitsValue 10 whole) e, rest)
  | some (fraction, rest) =>
    let m := digitsValue 10 (whole ++ fraction)
    let (e, rest) := (readExponent rest).getD (0, rest)
    return (← floatValue negative m (e - fraction.length), rest)

/-- A number after its sign. -/
def readUnsigned (negative : Bool) : Reader Value
  | 'i' :: 'n' :: 'f' :: s => some (.float (if negative then -infinity else infinity), s)
  | 'n' :: 'a' :: 'n' :: s => some (.float (0 / 0), s)
  | s => readDecimal negative s

def readRadix (base : Nat) (isDigit : Char → Bool) (s : List Char) :
    Option (Value × List Char) := do
  let (digits, rest) ← readDigits1 isDigit s
  return (← integerValue (digitsValue base digits), rest)

/-- A number, a date or a time. -/
def readNumber (s : List Char) : Option (Value × List Char) :=
  match skipDate s with
  | some rest => some (.date (String.ofList (s.take (s.length - rest.length))), rest)
  | none =>
    match s with
    | '0' :: 'x' :: s => readRadix 16 isHexDigit s
    | '0' :: 'o' :: s => readRadix 8 isOctalDigit s
    | '0' :: 'b' :: s => readRadix 2 isBinaryDigit s
    | '+' :: s => readUnsigned false s
    | '-' :: s => readUnsigned true s
    | s => readUnsigned false s

end ThreadSoup.Toml
