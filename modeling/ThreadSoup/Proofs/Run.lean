import ThreadSoup.Picture
import ThreadSoup.Proofs.Setup
import ThreadSoup.Proofs.Time

namespace ThreadSoup

/-- A grid of whole rows, no larger than grids can be. -/
structure Memory.Rectangular (memory : Memory) : Prop where
  columns_pos : 0 < memory.columns
  size_eq : memory.size = memory.rows * memory.columns
  size_le : memory.size ≤ maxCells

theorem Memory.Rectangular.print_eq {memory : Memory} (rect : memory.Rectangular) :
    memory.print = .ok memory.toText := by
  have hpos := rect.columns_pos
  have hsize := rect.size_eq
  have hle : memory.rows ≤ memory.rows * memory.columns := Nat.le_mul_of_pos_right _ hpos
  have hmax : memory.size ≤ 2 ^ 60 := Nat.le_trans rect.size_le (by decide)
  have hlimit := signLimit_eq
  unfold Memory.print
  rw [if_neg (by omega), if_neg (by omega)]

/-- What a host can ask of a simulator. -/
inductive Command where
  | behave (ms : UInt32)
  | cycle
  | spawn (ip : Nat) (reversed : Bool)
  | finishFrame
  | clearDirty
  | print
  /-- Write an operation with a fresh lifespan. -/
  | write (index : Nat) (byte : UInt8)
  | replace (index : Nat) (cell : Cell)

namespace Command

def ms : Command → Nat
  | .behave ms => ms.toNat
  | _ => 0

def cycles : Command → Nat
  | .cycle => 1
  | _ => 0

def births : Command → Nat
  | .spawn _ _ => 1
  | _ => 0

/-- A cell that the command names is on the grid. -/
def Inside (size : Nat) : Command → Prop
  | .write index _ => index < size
  | .replace index _ => index < size
  | _ => True

instance (size : Nat) : DecidablePred (Inside size)
  | .write index _ => inferInstanceAs (Decidable (index < size))
  | .replace index _ => inferInstanceAs (Decidable (index < size))
  | .behave _ | .cycle | .spawn _ _ | .finishFrame | .clearDirty | .print =>
    inferInstanceAs (Decidable True)

end Command

/-- The time that passes in a list of commands. -/
def elapsed (commands : List Command) : Nat := (commands.map Command.ms).sum

/-- The cycles that the host runs by itself. -/
def hostCycles (commands : List Command) : Nat := (commands.map Command.cycles).sum

/-- The threads that the host starts. -/
def hostBirths (commands : List Command) : Nat := (commands.map Command.births).sum

namespace Simulator

variable {σ : Type} [RandomSource σ]

def perform (sim : Simulator σ) : Command → Except Fault (Simulator σ)
  | .behave ms => do return (← sim.behave ms).1
  | .cycle => sim.cycle
  | .spawn ip reversed => sim.spawnThread ip reversed
  | .finishFrame => .ok sim.finishFrame.1
  | .clearDirty => .ok sim.clearDirty
  | .print => do
    let _ ← sim.print
    return sim
  | .write index byte => sim.editMemory (·.setOp index byte sim.config.spawnLifeSpan.toNat)
  | .replace index cell => sim.setCell index cell

def run (sim : Simulator σ) (commands : List Command) : Except Fault (Simulator σ) :=
  commands.foldlM perform sim

variable {layout : Layout} {sim next : Simulator σ}

omit [RandomSource σ] in
/-- Time that passes in two parts gives the same cycles and the same rest. -/
theorem due_add {ms : Nat} (more : Nat) (hpos : 0 < sim.config.msPerCycle.toNat)
    (hconfig : next.config = sim.config) (hprogress : next.progress = sim.rest ms) :
    sim.due (ms + more) = sim.due ms + next.due more ∧ sim.rest (ms + more) = next.rest more := by
  have hsplit : sim.progress + (ms + more) =
      sim.config.msPerCycle.toNat * ((sim.progress + ms) / sim.config.msPerCycle.toNat) +
        ((sim.progress + ms) % sim.config.msPerCycle.toNat + more) := by
    have := Nat.div_add_mod (sim.progress + ms) sim.config.msPerCycle.toNat
    omega
  unfold due rest at *
  rw [hconfig, hprogress, hsplit]
  exact ⟨Nat.mul_add_div hpos _ _, Nat.mul_add_mod _ _ _⟩

/-- What a stretch of a run adds to the counters, from the time that passes in it and from the
cycles and threads that the host asks for. -/
structure Ledger (layout : Layout) (ms cycles births : Nat) (sim next : Simulator σ) : Prop where
  wellFormed : next.WellFormed layout
  progress_eq : next.progress = sim.rest ms
  cycles_eq : next.cycles = sim.cycles + (sim.due ms + cycles)
  spawned_eq : next.tally.spawned = sim.tally.spawned +
    (layout.config.newThreadsPerCycle.toNat * (sim.due ms + cycles) + births)

omit [RandomSource σ] in
theorem Ledger.trans {ms cycles births ms' cycles' births' : Nat} {a b c : Simulator σ}
    (wf : a.WellFormed layout) (first : Ledger layout ms cycles births a b)
    (second : Ledger layout ms' cycles' births' b c) :
    Ledger layout (ms + ms') (cycles + cycles') (births + births') a c := by
  have hconfig : b.config = a.config := first.wellFormed.config_eq.trans wf.config_eq.symm
  obtain ⟨hdue, hrest⟩ := due_add ms' wf.period_pos hconfig first.progress_eq
  have hcycles := first.cycles_eq
  have hspawned := first.spawned_eq
  refine ⟨second.wellFormed, second.progress_eq.trans hrest.symm, ?_, ?_⟩
  · rw [second.cycles_eq, hdue]
    omega
  · have hsum : a.due ms + b.due ms' + (cycles + cycles') =
        (a.due ms + cycles) + (b.due ms' + cycles') := by omega
    have hmul := Nat.mul_add layout.config.newThreadsPerCycle.toNat (a.due ms + cycles)
      (b.due ms' + cycles')
    rw [second.spawned_eq, hspawned, hdue, hsum, hmul]
    omega

omit [RandomSource σ] in
theorem WellFormed.due_zero (wf : sim.WellFormed layout) : sim.due 0 = 0 ∧ sim.rest 0 = sim.progress := by
  have hlt := wf.progress_lt
  rw [← wf.config_eq] at hlt
  exact ⟨Nat.div_eq_of_lt hlt, Nat.mod_eq_of_lt hlt⟩

omit [RandomSource σ] in
/-- A command in which no time passes. -/
theorem Phase.ledger {births cycles extra : Nat} (wf : sim.WellFormed layout)
    (phase : Phase layout births cycles sim next)
    (h : births = layout.config.newThreadsPerCycle.toNat * cycles + extra) :
    Ledger layout 0 cycles extra sim next := by
  obtain ⟨hdue, hrest⟩ := wf.due_zero
  refine ⟨phase.wellFormed, phase.progress_eq.trans hrest.symm, ?_, ?_⟩
  · rw [phase.cycles_eq, hdue, Nat.zero_add]
  · rw [phase.spawned_eq, hdue, Nat.zero_add, h]

omit [RandomSource σ] in
theorem with_memory_ledger {memory : Memory} (wf : sim.WellFormed layout)
    (h : memory.shape = sim.memory.shape) : Ledger layout 0 0 0 sim { sim with memory } := by
  obtain ⟨hdue, hrest⟩ := wf.due_zero
  exact ⟨with_memory_wellFormed wf h, hrest.symm, by rw [hdue]; rfl, by rw [hdue]; rfl⟩

omit [RandomSource σ] in
theorem WellFormed.rectangular (wf : sim.WellFormed layout) : sim.memory.Rectangular := by
  have hrows : sim.memory.rows = layout.rows := congrArg (fun shape => shape.1) wf.shape_eq
  have hcolumns : sim.memory.columns = layout.columns :=
    congrArg (fun shape => shape.2.1) wf.shape_eq
  refine ⟨hcolumns ▸ layout.columns_pos, ?_, wf.size_eq ▸ layout.size_le⟩
  rw [wf.size_eq, hrows, hcolumns]
  rfl

omit [RandomSource σ] in
theorem print_exists (wf : sim.WellFormed layout) : ∃ text, sim.print = .ok text :=
  ⟨sim.toText, wf.rectangular.print_eq⟩

theorem behave_ledger {ms : UInt32} {ran : Nat} (wf : sim.WellFormed layout)
    (h : sim.behave ms = .ok (next, ran)) : Ledger layout ms.toNat 0 0 sim next := by
  obtain ⟨rfl, wellFormed, last, phase, rfl⟩ := behave_phase wf h
  exact ⟨wellFormed, rfl, phase.cycles_eq, phase.spawned_eq⟩

theorem perform_ledger {command : Command} (wf : sim.WellFormed layout)
    (h : sim.perform command = .ok next) :
    Ledger layout command.ms command.cycles command.births sim next := by
  cases command with
  | behave ms =>
    obtain ⟨⟨after, ran⟩, hb, h⟩ := bind_eq_ok.mp h
    cases h
    exact behave_ledger wf hb
  | cycle => exact (cycle_phase wf h).ledger wf (Nat.mul_one _).symm
  | spawn ip reversed => exact (spawnThread_phase wf h).ledger wf rfl
  | finishFrame =>
    cases h
    unfold finishFrame
    split
    next => exact with_memory_ledger wf (by simp)
    next => exact (Phase.refl wf).ledger wf rfl
  | clearDirty =>
    cases h
    exact with_memory_ledger wf sim.memory.clearDirty_shape
  | print =>
    obtain ⟨text, _, h⟩ := bind_eq_ok.mp h
    cases h
    exact (Phase.refl wf).ledger wf rfl
  | write index byte =>
    obtain ⟨memory, hm, h⟩ := bind_eq_ok.mp h
    cases h
    exact with_memory_ledger wf (setOp_shape hm)
  | replace index cell =>
    obtain ⟨memory, hm, h⟩ := bind_eq_ok.mp h
    obtain ⟨written, hw, hm⟩ := bind_eq_ok.mp hm
    cases hm
    cases h
    exact with_memory_ledger wf (written.markDirty_shape.trans (Memory.put_shape hw))

theorem run_ledger {commands : List Command} (wf : sim.WellFormed layout)
    (h : sim.run commands = .ok next) :
    Ledger layout (elapsed commands) (hostCycles commands) (hostBirths commands) sim next := by
  induction commands generalizing sim with
  | nil =>
    cases h
    exact (Phase.refl wf).ledger wf rfl
  | cons command rest ih =>
    unfold run at h
    rw [List.foldlM_cons] at h
    obtain ⟨middle, hm, h⟩ := bind_eq_ok.mp h
    have first := perform_ledger wf hm
    exact Ledger.trans wf first (ih first.wellFormed h)

/-- What every command of a run keeps, the run keeps. -/
theorem run_preserves {P : Simulator σ → Prop} {commands : List Command}
    (step : ∀ command ∈ commands, ∀ a b : Simulator σ, a.WellFormed layout → P a →
      a.perform command = .ok b → P b)
    (wf : sim.WellFormed layout) (hp : P sim) (h : sim.run commands = .ok next) : P next := by
  induction commands generalizing sim with
  | nil => cases h; exact hp
  | cons command rest ih =>
    unfold run at h
    rw [List.foldlM_cons] at h
    obtain ⟨middle, hm, h⟩ := bind_eq_ok.mp h
    have hmiddle := step command (by simp) sim middle wf hp hm
    exact ih (fun c hmem => step c (List.mem_cons_of_mem command hmem))
      (perform_ledger wf hm).wellFormed hmiddle h

theorem perform_exists {command : Command} (wf : sim.WellFormed layout) (hr : Reliable sim.source)
    (hinside : command.Inside layout.size)
    (hc : sim.cycles + (sim.due command.ms + command.cycles) < 2 ^ 64)
    (hs : sim.tally.spawned + (layout.config.newThreadsPerCycle.toNat *
      (sim.due command.ms + command.cycles) + command.births) < 2 ^ 64) :
    ∃ next, sim.perform command = .ok next ∧ Reliable next.source := by
  cases command with
  | behave ms =>
    obtain ⟨next, ran, hb, hrn⟩ := behave_exists ms wf hr hs hc
    exact ⟨next, by simp only [perform, hb, ok_bind, pure_eq], hrn⟩
  | cycle =>
    simp only [Command.ms, Command.cycles, Command.births, wf.due_zero.1, Nat.zero_add,
      Nat.mul_one, Nat.add_zero] at hc hs
    exact cycle_exists wf hr hs hc
  | spawn ip reversed =>
    simp only [Command.ms, Command.cycles, Command.births, wf.due_zero.1, Nat.mul_zero,
      Nat.zero_add] at hs
    obtain ⟨next, hn, hsource⟩ := spawnThread_exists ip reversed wf hs
    exact ⟨next, hn, hsource ▸ hr⟩
  | finishFrame =>
    refine ⟨sim.finishFrame.1, rfl, ?_⟩
    unfold finishFrame
    split
    next => exact hr
    next => exact hr
  | clearDirty => exact ⟨sim.clearDirty, rfl, hr⟩
  | print =>
    obtain ⟨text, ht⟩ := print_exists wf
    exact ⟨sim, by simp only [perform, ht, ok_bind, pure_eq], hr⟩
  | write index byte =>
    obtain ⟨memory, hm⟩ := setOp_exists byte sim.config.spawnLifeSpan.toNat (wf.size_eq ▸ hinside)
    exact ⟨{ sim with memory }, by simp only [perform, editMemory, hm, ok_bind, pure_eq], hr⟩
  | replace index cell =>
    obtain ⟨memory, hm⟩ := Memory.put_exists cell (wf.size_eq ▸ hinside)
    exact ⟨{ sim with memory := memory.markDirty },
      by simp only [perform, setCell, editMemory, hm, ok_bind, pure_eq], hr⟩

/-- A run has a result as long as its cycles and its threads can be counted. -/
theorem run_exists {commands : List Command} (wf : sim.WellFormed layout) (hr : Reliable sim.source)
    (hinside : ∀ command ∈ commands, command.Inside layout.size)
    (hc : sim.cycles + (sim.due (elapsed commands) + hostCycles commands) < 2 ^ 64)
    (hs : sim.tally.spawned + (layout.config.newThreadsPerCycle.toNat *
      (sim.due (elapsed commands) + hostCycles commands) + hostBirths commands) < 2 ^ 64) :
    ∃ next, sim.run commands = .ok next ∧ Reliable next.source := by
  induction commands generalizing sim with
  | nil => exact ⟨sim, rfl, hr⟩
  | cons command rest ih =>
    have htime : elapsed (command :: rest) = command.ms + elapsed rest := rfl
    have hasked : hostCycles (command :: rest) = command.cycles + hostCycles rest := rfl
    have hborn : hostBirths (command :: rest) = command.births + hostBirths rest := rfl
    rw [htime, hasked] at hc
    rw [htime, hasked, hborn] at hs
    have hdue : sim.due command.ms ≤ sim.due (command.ms + elapsed rest) :=
      Nat.div_le_div_right (by omega)
    have hmul := Nat.mul_le_mul_left layout.config.newThreadsPerCycle.toNat
      (by omega : sim.due command.ms + command.cycles ≤
        sim.due (command.ms + elapsed rest) + (command.cycles + hostCycles rest))
    obtain ⟨middle, hm, hrm⟩ := perform_exists wf hr (hinside command (by simp)) (by omega) (by omega)
    have first := perform_ledger wf hm
    have hconfig : middle.config = sim.config := first.wellFormed.config_eq.trans wf.config_eq.symm
    have hsplit := (due_add (elapsed rest) wf.period_pos hconfig first.progress_eq).1
    have hsum : sim.due command.ms + middle.due (elapsed rest) + (command.cycles + hostCycles rest) =
        (sim.due command.ms + command.cycles) + (middle.due (elapsed rest) + hostCycles rest) := by
      omega
    rw [hsplit, hsum] at hc
    rw [hsplit, hsum, Nat.mul_add] at hs
    have hcycles := first.cycles_eq
    have hspawned := first.spawned_eq
    obtain ⟨next, hn, hrn⟩ := ih first.wellFormed hrm
      (fun c hmem => hinside c (List.mem_cons_of_mem command hmem)) (by omega) (by omega)
    refine ⟨next, ?_, hrn⟩
    unfold run
    rw [List.foldlM_cons, hm]
    exact hn

theorem create_run_exists (layout : Layout) {source : σ} (hr : Reliable source) :
    ∃ sim, create layout.rows layout.columns layout.config source = .ok sim ∧
      ∀ commands : List Command, (∀ command ∈ commands, command.Inside layout.size) →
        elapsed commands / layout.config.msPerCycle.toNat + hostCycles commands < 2 ^ 64 →
        layout.config.newThreadsPerCycle.toNat *
            (elapsed commands / layout.config.msPerCycle.toNat + hostCycles commands) +
          hostBirths commands < 2 ^ 64 →
        ∃ last, sim.run commands = .ok last ∧ Reliable last.source := by
  obtain ⟨sim, hsim, hrs⟩ := create_exists layout hr
  obtain ⟨wf, hprogress, hcycles, hspawned⟩ := create_wellFormed hsim
  refine ⟨sim, hsim, ?_⟩
  intro commands hinside hc hs
  have hdue : sim.due (elapsed commands) = elapsed commands / layout.config.msPerCycle.toNat := by
    unfold due
    rw [hprogress, Nat.zero_add, wf.config_eq]
  exact run_exists wf hrs hinside (by rw [hcycles, hdue, Nat.zero_add]; exact hc)
    (by rw [hspawned, hdue, Nat.zero_add]; exact hs)

end Simulator

end ThreadSoup
