import ThreadSoup.Random

namespace ThreadSoup

/-- The state of the xoshiro256++ generator. -/
structure Generator where
  s0 : UInt64
  s1 : UInt64
  s2 : UInt64
  s3 : UInt64
deriving DecidableEq

/-- One step of the congruential generator that spreads a seed over the state. -/
def seedStep (state : UInt64) : UInt64 :=
  state * 6364136223846793005 + 11634580027462260723

/-- The permuted 32-bit output of a seeding state. -/
def seedOutput (state : UInt64) : UInt32 :=
  let mixed := (((state >>> 18) ^^^ state) >>> 27).toUInt32
  let turn := (state >>> 59).toUInt32
  (mixed >>> turn) ||| (mixed <<< ((32 - turn) % 32))

/-- Two outputs, the first one in the low half, and the seeding state after them. -/
def seedWord (state : UInt64) : UInt64 × UInt64 :=
  let first := seedStep state
  let second := seedStep first
  ((seedOutput first).toUInt64 ||| ((seedOutput second).toUInt64 <<< 32), second)

def rotateLeft (word turn : UInt64) : UInt64 := (word <<< turn) ||| (word >>> (64 - turn))

namespace Generator

def ofSeed (seed : UInt64) : Generator :=
  let (s0, state) := seedWord seed
  let (s1, state) := seedWord state
  let (s2, state) := seedWord state
  let (s3, _) := seedWord state
  { s0, s1, s2, s3 }

def next (g : Generator) : UInt64 × Generator :=
  let word := rotateLeft (g.s0 + g.s3) 23 + g.s0
  let s2 := g.s2 ^^^ g.s0
  let s3 := g.s3 ^^^ g.s1
  (word,
    { s0 := g.s0 ^^^ s3
      s1 := g.s1 ^^^ s2
      s2 := s2 ^^^ (g.s1 <<< 17)
      s3 := rotateLeft s3 45 })

end Generator

instance : WordSource Generator where
  next := Generator.next

end ThreadSoup
