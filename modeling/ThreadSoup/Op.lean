import ThreadSoup.Fault

namespace ThreadSoup

/-- The four operations. A byte other than 1, 2 and 3 pushes its distance from 127. -/
inductive Op where
  /-- Pop source offset, destination offset and length, then copy cells. -/
  | copy
  /-- Kill the executing thread. -/
  | halt
  /-- Pop an offset and count down the lifespan of the executed cell. -/
  | spawn
  | push (literal : Int32)
deriving DecidableEq

def copyByte : UInt8 := 1
def haltByte : UInt8 := 2
def spawnByte : UInt8 := 3

/-- The byte that pushes zero. -/
def pushBase : Nat := 127

/-- The greatest magnitude of a literal written by noise. -/
def noiseRadius : Nat := 11

namespace Op

def decode (byte : UInt8) : Op :=
  if byte = copyByte then .copy
  else if byte = haltByte then .halt
  else if byte = spawnByte then .spawn
  else .push (Int32.ofInt ((byte.toNat : Int) - pushBase))

/-- A literal is encodable if its byte exists and is not one of the fixed operations. -/
def encode : Op → Except Fault UInt8
  | .copy => .ok copyByte
  | .halt => .ok haltByte
  | .spawn => .ok spawnByte
  | .push literal =>
    let byte := (pushBase : Int) + literal.toInt
    if 0 ≤ byte ∧ byte ≤ 255 ∧ ¬(1 ≤ byte ∧ byte ≤ 3) then .ok (UInt8.ofNat byte.toNat)
    else .error .unencodable

/-- Digits stand for small literals, the letters from `a` on for their negatives. -/
def glyph : Op → Char
  | .copy => 'C'
  | .halt => '.'
  | .spawn => 'S'
  | .push literal =>
    let v := literal.toInt
    if v ≤ -10 then '-'
    else if v < 0 then Char.ofNat (96 - v).toNat
    else if v < 10 then Char.ofNat (48 + v).toNat
    else '+'

end Op

end ThreadSoup
