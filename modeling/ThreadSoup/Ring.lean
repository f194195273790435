import ThreadSoup.Counter

namespace ThreadSoup

/-- The two's complement reading of a 64-bit word. -/
def signed (n : Nat) : Int := if n < signLimit then n else n - UInt64.size

/-- The product of signed numbers, which must fit 64 bits. -/
def signedMul (a b : Int) : Except Fault Int :=
  if -signLimit ≤ a * b ∧ a * b < signLimit then .ok (a * b) else .error .overflow

/-- The position reached from `index` by `delta` steps on a ring of `len` positions. The sum
must fit 64 signed bits, and so must the quotient that the remainder belongs to. -/
def wrap (index : Nat) (delta : Int) (len : Nat) : Except Fault Nat :=
  let sum := signed index + delta
  if len = 0 then .error .empty
  else if sum < -signLimit ∨ signLimit ≤ sum then .error .overflow
  else if sum = -signLimit ∧ signed len = -1 then .error .overflow
  else .ok (sum % signed len).toNat

end ThreadSoup
