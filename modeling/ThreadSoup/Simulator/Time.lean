import ThreadSoup.Simulator.Cycle

namespace ThreadSoup.Simulator

variable {σ : Type} [RandomSource σ]

/-- Runs a cycle for every whole period of the budget. Gives the simulator, the rest of the
budget and the number of cycles, which must fit 32 bits. -/
def drain (period budget ran : Nat) (sim : Simulator σ) :
    Except Fault (Simulator σ × Nat × Nat) :=
  if 0 < period ∧ period ≤ budget then do
    let sim ← sim.cycle
    if ran < counterMax then drain period (budget - period) (ran + 1) sim
    else throw .overflow
  else .ok (sim, budget, ran)
termination_by budget

/-- Lets time pass: runs the cycles that are due, then ages the effects. Gives the number of
cycles. -/
def behave (sim : Simulator σ) (ms : UInt32) : Except Fault (Simulator σ × Nat) := do
  let budget ← addTotal sim.progress ms.toNat
  let (sim, progress, ran) ← drain sim.config.msPerCycle.toNat budget 0 sim
  if sim.effects.isEmpty then return ({ sim with progress }, ran)
  else
    let effects := sim.effects.advance ms.toNat
    return ({ sim with progress, effects, memory := sim.memory.markDirty }, ran)

/-- Plays one frame and ends it. Gives the number of cycles. -/
def frame (sim : Simulator σ) (ms : UInt32) : Except Fault (Simulator σ × Nat) := do
  let (sim, ran) ← sim.behave ms
  return (sim.finishFrame.1, ran)

/-- Plays frames and adds the number of cycles to `total`. -/
def play (ms : UInt32) : Nat → Simulator σ → Nat → Except Fault (Simulator σ × Nat)
  | 0, sim, total => .ok (sim, total)
  | frames + 1, sim, total => do
    let (sim, ran) ← sim.frame ms
    play ms frames sim (total + ran)

end ThreadSoup.Simulator
