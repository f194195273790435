import ThreadSoup.Fault

namespace ThreadSoup

/-- The greatest value of ages, progress and other 32-bit counters. -/
def counterMax : Nat := UInt32.size - 1

/-- A 32-bit counter stops at its greatest value. -/
def saturatingAdd (count delta : Nat) : Nat := min (count + delta) counterMax

/-- A 64-bit word with a sign is at least `-signLimit` and below `signLimit`. -/
def signLimit : Nat := UInt64.size / 2

/-- A running total must fit 64 bits. -/
def addTotal (total delta : Nat) : Except Fault Nat :=
  if total + delta < UInt64.size then .ok (total + delta) else .error .overflow

end ThreadSoup
