import ThreadSoup.Toml.Scan

namespace ThreadSoup.Toml

/-- A number of exactly `width` decimal digits from `low` to `high`. -/
def readField (width low high : Nat) : Reader Nat := fun s =>
  let digits := s.take width
  let n := digitsValue 10 digits
  if digits.length = width ∧ digits.all isDecimalDigit ∧ low ≤ n ∧ n ≤ high then
    some (n, s.drop width)
  else none

def skipChar (c : Char) : List Char → Option (List Char)
  | d :: s => if d = c then some s else none
  | [] => none

def isLeapYear (year : Nat) : Bool := year % 4 == 0 && (year % 100 != 0 || year % 400 == 0)

def daysInMonth (year month : Nat) : Nat :=
  if month = 2 then if isLeapYear year then 29 else 28
  else if month = 4 ∨ month = 6 ∨ month = 9 ∨ month = 11 then 30
  else 31

/-- Skips a year, a month and a day. -/
def skipDay (s : List Char) : Option (List Char) := do
  let (year, s) ← readField 4 0 9999 s
  let s ← skipChar '-' s
  let (month, s) ← readField 2 1 12 s
  let s ← skipChar '-' s
  let (_, s) ← readField 2 1 (daysInMonth year month) s
  return s

/-- Skips a fraction of a second, if there is one. -/
def skipFraction : List Char → List Char
  | '.' :: c :: s => if isDecimalDigit c then s.dropWhile isDecimalDigit else '.' :: c :: s
  | s => s

/-- Skips hours, minutes and seconds. A minute may have a leap second. -/
def skipClock (s : List Char) : Option (List Char) := do
  let (_, s) ← readField 2 0 23 s
  let s ← skipChar ':' s
  let (_, s) ← readField 2 0 59 s
  let s ← skipChar ':' s
  let (_, s) ← readField 2 0 60 s
  return skipFraction s

/-- Skips an offset from universal time. -/
def skipOffset : List Char → Option (List Char)
  | c :: s =>
    if c = 'Z' ∨ c = 'z' then some s
    else if c = '+' ∨ c = '-' then do
      let (_, s) ← readField 2 0 23 s
      let s ← skipChar ':' s
      let (_, s) ← readField 2 0 59 s
      return s
    else none
  | [] => none

/-- Skips a time and its offset after a day, if they follow. -/
def skipTimeOfDay (s : List Char) : List Char :=
  match s with
  | c :: after =>
    if c = 'T' ∨ c = 't' ∨ c = ' ' then
      match skipClock after with
      | some rest => (skipOffset rest).getD rest
      | none => s
    else s
  | [] => s

/-- Skips a day with or without a time, or a time alone. -/
def skipDate (s : List Char) : Option (List Char) :=
  match skipDay s with
  | some rest => some (skipTimeOfDay rest)
  | none => skipClock s

end ThreadSoup.Toml
