import ThreadSoup.Simulator.Noise

namespace ThreadSoup

/-- The position of the first thread of the greatest age. -/
def oldest (threads : List Thread) : Nat :=
  let age := threads.foldl (fun age thread => max age thread.age) 0
  threads.findIdx fun thread => thread.age == age

namespace Simulator

variable {σ : Type}

/-- Gives the threads from a position on one turn each. A dead thread leaves the pool, and its
position then holds the thread behind it. -/
def dispatchFrom (index : Nat) (sim : Simulator σ) : Except Fault (Simulator σ) :=
  if h : index < sim.threads.length then do
    let turn ← dispatch sim.config sim.scene sim.threads[index]
    let after := { sim with
      memory := turn.scene.memory
      effects := turn.scene.effects
      threads := sim.threads.set index turn.thread }
    match turn.outcome with
    | .running => dispatchFrom (index + 1) after
    | .halted =>
      let tally ← after.tally.death .halted
      dispatchFrom index (after.bury index turn.thread tally)
    | .failed _ =>
      let tally ← after.tally.death .failed
      dispatchFrom index (after.bury index turn.thread tally)
  else .ok sim
termination_by sim.threads.length - index
decreasing_by all_goals simp [bury, List.length_eraseIdx, h]; omega

/-- Highlights the cell on which a thread stands. Only a new highlight makes the grid dirty. -/
def highlightThread (memory : Memory) (thread : Thread) : Except Fault Memory := do
  let cell ← memory.get thread.ip
  if cell.modified = threadHighlight then return memory
  else
    let memory ← memory.setModified thread.ip threadHighlight
    return memory.markDirty

/-- Highlights the cells on which threads stand. -/
def highlight (memory : Memory) (threads : List Thread) : Except Fault Memory :=
  threads.foldlM highlightThread memory

variable [RandomSource σ]

/-- The position of the next thread to be trimmed. -/
def victim (sim : Simulator σ) : Except Fault (Nat × σ) :=
  if sim.config.threadReductionEnabled then
    draw (RandomSource.below sim.threads.length sim.source)
  else .ok (oldest sim.threads, sim.source)

/-- Kills threads until the pool is no larger than allowed. -/
def trim (sim : Simulator σ) : Except Fault (Simulator σ) :=
  if sim.config.maxThreadCount.toNat < sim.threads.length then do
    let (index, source) ← sim.victim
    if h : index < sim.threads.length then
      let tally ← sim.tally.death .trimmed
      trim ({ sim with source }.bury index sim.threads[index] tally)
    else throw .outOfRange
  else .ok sim
termination_by sim.threads.length
decreasing_by simp [bury, List.length_eraseIdx, h]; omega

/-- One cycle: noise, new threads, a turn for every thread, trimming, highlights. -/
def cycle (sim : Simulator σ) : Except Fault (Simulator σ) := do
  let sim ← repeatTimes addNoise sim.config.randomNoisePerCycle.toNat sim
  let sim ← repeatTimes injectThread sim.config.newThreadsPerCycle.toNat sim
  let sim ← dispatchFrom 0 sim
  let sim ← sim.trim
  let memory ← highlight sim.memory sim.threads
  let cycles ← addTotal sim.cycles 1
  return { sim with memory, cycles }

end Simulator

end ThreadSoup
