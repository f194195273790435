import ThreadSoup.Dispatch

namespace ThreadSoup

/-- Why a thread left the pool. -/
inductive DeathCause where
  | halted
  | failed
  | trimmed
deriving DecidableEq

/-- Births and deaths since the start. -/
structure Tally where
  spawned : Nat := 0
  halted : Nat := 0
  faulted : Nat := 0
  trimmed : Nat := 0
deriving DecidableEq

def Tally.birth (tally : Tally) : Except Fault Tally := do
  return { tally with spawned := ← addTotal tally.spawned 1 }

def Tally.death (tally : Tally) : DeathCause → Except Fault Tally
  | .halted => do return { tally with halted := ← addTotal tally.halted 1 }
  | .failed => do return { tally with faulted := ← addTotal tally.faulted 1 }
  | .trimmed => do return { tally with trimmed := ← addTotal tally.trimmed 1 }

/-- A grid with its pool of threads and its effects, and the source of its random choices. -/
structure Simulator (σ : Type) where
  config : Config
  memory : Memory
  /-- The pool in scheduling order. New threads go to the front. -/
  threads : List Thread
  effects : EffectQueue
  /-- Milliseconds that no cycle has used yet. -/
  progress : Nat
  cycles : Nat
  tally : Tally
  source : σ
deriving DecidableEq

/-- Applies `f` as often as `count` says. -/
def repeatTimes {α : Type} (f : α → Except Fault α) : Nat → α → Except Fault α
  | 0, a => .ok a
  | count + 1, a => do repeatTimes f count (← f a)

namespace Simulator

variable {σ : Type}

def size (sim : Simulator σ) : Nat := sim.memory.size

def scene (sim : Simulator σ) : Scene := { memory := sim.memory, effects := sim.effects }

/-- Applies a change to the grid alone. -/
def editMemory (sim : Simulator σ) (edit : Memory → Except Fault Memory) :
    Except Fault (Simulator σ) := do
  return { sim with memory := ← edit sim.memory }

/-- Replaces a cell and marks the grid dirty. -/
def setCell (sim : Simulator σ) (index : Nat) (cell : Cell) : Except Fault (Simulator σ) :=
  sim.editMemory fun memory => do return (← memory.put index cell).markDirty

/-- Writes bytes into consecutive cells, which do not wrap. -/
def load (sim : Simulator σ) (start : Nat) (bytes : List UInt8) : Except Fault (Simulator σ) :=
  sim.editMemory (·.setOps start bytes sim.config.spawnLifeSpan.toNat)

def markDirty (sim : Simulator σ) : Simulator σ := { sim with memory := sim.memory.markDirty }

def clearDirty (sim : Simulator σ) : Simulator σ := { sim with memory := sim.memory.clearDirty }

/-- Starts a thread, its position taken on the ring. -/
def spawnThread (sim : Simulator σ) (ip : Nat) (reversed : Bool) :
    Except Fault (Simulator σ) := do
  if sim.size = 0 then throw .empty
  let tally ← sim.tally.birth
  let thread := Thread.start (ip % sim.size) reversed sim.config.maxStackSize.toNat
  return { sim with threads := thread :: sim.threads, tally }

/-- The effects that a death leaves where the thread stands. -/
def mourn (config : Config) (effects : EffectQueue) (thread : Thread) : EffectQueue :=
  if config.useThreadDeathEffect then
    let fall : EffectKind := if thread.reversed then .fallReverse else .fallForward
    (effects.insert { kind := fall, ip := thread.ip }).insert { kind := .pulse, ip := thread.ip }
  else effects

/-- Removes the thread at a position of the pool. -/
def bury (sim : Simulator σ) (index : Nat) (thread : Thread) (tally : Tally) : Simulator σ :=
  { sim with
    threads := sim.threads.eraseIdx index
    effects := mourn sim.config sim.effects thread
    tally }

/-- Ends a drawn frame: if anything was new, highlights fade and the flag is cleared. -/
def finishFrame (sim : Simulator σ) : Simulator σ × Bool :=
  if sim.memory.dirty then ({ sim with memory := sim.memory.fade.clearDirty }, true)
  else (sim, false)

end Simulator

end ThreadSoup
