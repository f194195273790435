namespace ThreadSoup

/-- Where random choices come from. A source may fail to give a number. -/
class RandomSource (σ : Type) where
  /-- A number below a positive bound. -/
  below : Nat → σ → Option (Nat × σ)
  /-- A number whose magnitude is at most the radius. -/
  within : Nat → σ → Option (Int × σ)
  coin : σ → Bool × σ

/-- A stream of 64-bit words. -/
class WordSource (σ : Type) where
  next : σ → UInt64 × σ

/-- Multiplies a word of `bits` bits into a range and keeps the high half. A word whose low
half is too large is rejected, so that every number has equally many words. -/
def scaleWord (bits range word : Nat) : Option Nat :=
  let product := word * range
  if product % (1 <<< bits) < range <<< (bits - 1 - range.log2) then some (product >>> bits)
  else none

/-- The first accepted word among the next `tries`. -/
def firstAccepted {σ α : Type} [WordSource σ] (accept : UInt64 → Option α) :
    Nat → σ → Option (α × σ)
  | 0, _ => none
  | tries + 1, source =>
    match WordSource.next source with
    | (word, rest) =>
      match accept word with
      | some a => some (a, rest)
      | none => firstAccepted accept tries rest

/-- How many words a draw may look at. -/
def maxTries : Nat := UInt64.size / 4

/-- The high half of a word. -/
def highHalf (word : UInt64) : Nat := word.toNat / UInt32.size

instance {σ : Type} [WordSource σ] : RandomSource σ where
  below bound source :=
    if bound = 0 then none
    else firstAccepted (fun word => scaleWord 64 bound word.toNat) maxTries source
  within radius source :=
    firstAccepted
      (fun word =>
        (scaleWord 32 (2 * radius + 1) (highHalf word)).map fun n : Nat => (n : Int) - radius)
      maxTries source
  coin source :=
    match WordSource.next source with
    | (word, rest) => (decide (UInt32.size / 2 ≤ highHalf word), rest)

/-- A fixed list of words, then zeros for ever. -/
structure Script where
  words : List UInt64
deriving DecidableEq

instance : WordSource Script where
  next script :=
    match script.words with
    | [] => (0, script)
    | word :: words => (word, { words })

end ThreadSoup
