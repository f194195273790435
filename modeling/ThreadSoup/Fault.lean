namespace ThreadSoup

/-- Why an operation has no result. -/
inductive Fault where
  /-- A position lies outside the cells or the pool. -/
  | outOfRange
  /-- A grid, a ring or a range has no members. -/
  | empty
  /-- A number does not fit its word. -/
  | overflow
  /-- No byte stands for the literal. -/
  | unencodable
  /-- The random source gives no value. -/
  | exhausted
deriving DecidableEq

def Fault.message : Fault → String
  | .outOfRange => "position out of range"
  | .empty => "empty range"
  | .overflow => "number too large"
  | .unencodable => "literal without a byte"
  | .exhausted => "no random number"

end ThreadSoup
