import Std.Data.HashMap

namespace ThreadSoup

/-- Progress in cutting bytes into phrases, each a known phrase and one more byte. -/
structure PhraseState where
  /-- The known phrases by their longest proper beginning and their last byte. -/
  known : Std.HashMap (Nat × UInt8) Nat := {}
  /-- The phrase that the bytes since the last cut spell, or zero. -/
  current : Nat := 0
  count : Nat := 0

def PhraseState.step (state : PhraseState) (byte : UInt8) : PhraseState :=
  match state.known[(state.current, byte)]? with
  | some phrase => { state with current := phrase }
  | none =>
    { known := state.known.insert (state.current, byte) (state.count + 1)
      current := 0
      count := state.count + 1 }

/-- The number of phrases of a text, an unfinished one included. -/
def phraseCount (bytes : List UInt8) : Nat :=
  let state := bytes.foldl PhraseState.step {}
  if state.current = 0 then state.count else state.count + 1

/-- The size in bytes of a text written as phrases. -/
def compressedSize (bytes : List UInt8) : Nat :=
  let count := phraseCount bytes
  (count * (count.log2 + 9) + 7) / 8

/-- Compressed size over size: near one for noise, small for repeated bytes. -/
def highOrderEntropy (bytes : List UInt8) : Float :=
  if bytes.isEmpty then 0
  else (compressedSize bytes).toUInt64.toFloat / bytes.length.toUInt64.toFloat

end ThreadSoup
