import ThreadSoup.Decimal
import ThreadSoup.Entropy
import ThreadSoup.Simulator.Basic

namespace ThreadSoup

/-- How many cells hold each operation. -/
structure OpCensus where
  copy : Nat := 0
  halt : Nat := 0
  spawn : Nat := 0
  push : Nat := 0
deriving DecidableEq

namespace OpCensus

def add (census : OpCensus) : Op → OpCensus
  | .copy => { census with copy := census.copy + 1 }
  | .halt => { census with halt := census.halt + 1 }
  | .spawn => { census with spawn := census.spawn + 1 }
  | .push _ => { census with push := census.push + 1 }

def ofCells (cells : List Cell) : OpCensus :=
  cells.foldl (fun census cell => census.add cell.op) {}

def total (census : OpCensus) : Nat := census.copy + census.halt + census.spawn + census.push

end OpCensus

/-- How often each byte occurs. -/
def byteHistogram (cells : List Cell) : Array Nat :=
  cells.foldl (fun counts cell => counts.modify cell.byte.toNat (· + 1)) (Array.replicate 256 0)

/-- A summary of the pool. -/
structure ThreadCensus where
  count : Nat := 0
  reversed : Nat := 0
  maxAge : Nat := 0
  meanAge : Float := 0
  meanDepth : Float := 0

/-- The mean of a list that is not empty, summed from the left. -/
def mean (values : List Nat) : Float :=
  values.foldl (fun sum value => sum + value.toUInt64.toFloat) 0 /
    values.length.toUInt64.toFloat

def ThreadCensus.ofThreads (threads : List Thread) : ThreadCensus :=
  if threads.isEmpty then {}
  else
    { count := threads.length
      reversed := threads.countP (·.reversed)
      maxAge := threads.foldl (fun age thread => max age thread.age) 0
      meanAge := mean (threads.map (·.age))
      meanDepth := mean (threads.map (·.stack.depth)) }

/-- A row of statistics. -/
structure Snapshot where
  cycles : Nat
  ops : OpCensus
  threads : ThreadCensus
  effects : Nat
  entropy : Float

namespace Snapshot

def header : String := "cycles,threads,effects,copy,halt,spawn,push,hoe"

def ofSimulator {σ : Type} (sim : Simulator σ) : Snapshot where
  cycles := sim.cycles
  ops := OpCensus.ofCells sim.memory.cells.toList
  threads := ThreadCensus.ofThreads sim.threads
  effects := sim.effects.length
  entropy := highOrderEntropy sim.memory.bytes

/-- The fields of a row, the last one with six places. -/
def fields (snapshot : Snapshot) : List String :=
  [toString snapshot.cycles, toString snapshot.threads.count, toString snapshot.effects,
    toString snapshot.ops.copy, toString snapshot.ops.halt, toString snapshot.ops.spawn,
    toString snapshot.ops.push, fixed 6 snapshot.entropy]

def row (snapshot : Snapshot) : String := String.intercalate "," snapshot.fields

end Snapshot

end ThreadSoup
