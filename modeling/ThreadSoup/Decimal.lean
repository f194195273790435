namespace ThreadSoup

/-- The quotient rounded to the nearest number, a half to the even one. -/
def roundDiv (n d : Nat) : Nat :=
  let q := n / d
  let twice := 2 * (n % d)
  if d < twice ∨ (twice = d ∧ q % 2 = 1) then q + 1 else q

/-- A number of units of `10 ^ -places`, with all its places. -/
def placed (places units : Nat) : String :=
  let rest := toString (units % Nat.pow 10 places)
  let zeros := String.ofList (List.replicate (places - rest.length) '0')
  toString (units / Nat.pow 10 places) ++ "." ++ zeros ++ rest

/-- The units of `10 ^ -places` nearest to `m * 2 ^ (e - 1075)`. -/
def scaledUnits (places m e : Nat) : Nat :=
  let n := m * Nat.pow 10 places
  if 1075 ≤ e then n <<< (e - 1075) else roundDiv n (1 <<< (1075 - e))

/-- A double-precision number with a fixed number of places, from its exact value. -/
def fixed (places : Nat) (x : Float) : String :=
  let bits := x.toBits.toNat
  let sign := if UInt64.size / 2 ≤ bits then "-" else ""
  let exponent := (bits >>> 52) % 2048
  let fraction := bits % (1 <<< 52)
  if exponent = 2047 then if fraction = 0 then sign ++ "inf" else "NaN"
  else if exponent = 0 then sign ++ placed places (scaledUnits places fraction 1)
  else sign ++ placed places (scaledUnits places (fraction + (1 <<< 52)) exponent)

end ThreadSoup
