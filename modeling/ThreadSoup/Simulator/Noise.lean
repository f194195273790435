import ThreadSoup.Random
import ThreadSoup.Simulator.Basic

namespace ThreadSoup

/-- A draw that has no value is a fault. -/
def draw {α : Type} : Option α → Except Fault α
  | some a => .ok a
  | none => .error .exhausted

/-- The kinds of operation that noise writes. -/
inductive NoiseKind where
  | copy
  | halt
  | push
  | spawn
deriving DecidableEq

/-- The kind that a number below the total of the weights selects. The weights divide the range
in the order copy, halt, push, spawn. -/
def noiseKind (config : Config) (slice : Nat) : NoiseKind :=
  let copy := config.copySlice.toNat
  let halt := copy + config.haltSlice.toNat
  let push := halt + config.pushSlice.toNat
  if slice < copy then .copy
  else if slice < halt then .halt
  else if slice < push then .push
  else .spawn

namespace Simulator

variable {σ : Type} [RandomSource σ]

/-- The byte that noise writes, for weights that are not all zero. -/
def noiseByte (config : Config) (source : σ) : Except Fault (UInt8 × σ) := do
  let (slice, source) ← draw (RandomSource.below config.totalSlice source)
  match noiseKind config slice with
  | .copy => return (copyByte, source)
  | .halt => return (haltByte, source)
  | .push =>
    let (literal, source) ← draw (RandomSource.within noiseRadius source)
    let byte ← (Op.push (Int32.ofInt literal)).encode
    return (byte, source)
  | .spawn => return (spawnByte, source)

/-- Overwrites a cell with a random operation, or does nothing if all weights are zero. -/
def randomizeCell (sim : Simulator σ) (index : Nat) : Except Fault (Simulator σ) := do
  if sim.config.totalSlice = 0 then return sim
  else
    let (byte, source) ← noiseByte sim.config sim.source
    let memory ← sim.memory.setOp index byte sim.config.spawnLifeSpan.toNat
    return { sim with memory, source }

/-- Overwrites a random cell. -/
def addNoise (sim : Simulator σ) : Except Fault (Simulator σ) := do
  let (index, source) ← draw (RandomSource.below sim.size sim.source)
  randomizeCell { sim with source } index

/-- Starts a thread at a random cell. The direction is drawn only if it may be reversed. -/
def injectThread (sim : Simulator σ) : Except Fault (Simulator σ) := do
  let (ip, source) ← draw (RandomSource.below sim.size sim.source)
  if sim.config.reverseEnabled then
    let (reversed, source) := RandomSource.coin source
    spawnThread { sim with source } ip reversed
  else
    spawnThread { sim with source } ip false

end Simulator

end ThreadSoup
