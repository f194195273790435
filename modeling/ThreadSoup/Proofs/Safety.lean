import ThreadSoup.Proofs.Run

namespace ThreadSoup

theorem Config.totalSlice_lt (config : Config) : config.totalSlice < 2 ^ 34 := by
  have hcopy := config.copySlice.toNat_lt
  have hhalt := config.haltSlice.toNat_lt
  have hpush := config.pushSlice.toNat_lt
  have hspawn := config.spawnSlice.toNat_lt
  unfold Config.totalSlice
  omega

namespace Simulator

variable {σ : Type} [RandomSource σ]

/-- Setting up a simulator gives the first of the three refusals that applies, and otherwise a
simulator that never faults, whatever its cells hold and its host asks for, as long as fewer
than `2 ^ 64` cycles run and threads start. The sum of the noise weights fits its word. -/
theorem accepted_run_never_faults (rows columns : Nat) (config : Config) {source : σ}
    (hr : Reliable source) :
    config.totalSlice < 2 ^ 64 ∧
    (rows = 0 ∨ columns = 0 →
      create rows columns config source = .error (.emptyGrid rows columns)) ∧
    (rows ≠ 0 → columns ≠ 0 → (2 ^ 63 - 1) / 8 < rows * columns →
      create rows columns config source = .error (.gridTooLarge rows columns)) ∧
    (rows ≠ 0 → columns ≠ 0 → rows * columns ≤ (2 ^ 63 - 1) / 8 → config.msPerCycle = 0 →
      create rows columns config source = .error (.config .zeroCycleLength)) ∧
    (rows ≠ 0 → columns ≠ 0 → rows * columns ≤ (2 ^ 63 - 1) / 8 → config.msPerCycle ≠ 0 →
      ∃ sim, create rows columns config source = .ok sim ∧
        ∀ commands : List Command, (∀ command ∈ commands, command.Inside (rows * columns)) →
          elapsed commands / config.msPerCycle.toNat + hostCycles commands < 2 ^ 64 →
          config.newThreadsPerCycle.toNat *
              (elapsed commands / config.msPerCycle.toNat + hostCycles commands) +
            hostBirths commands < 2 ^ 64 →
          ∃ last, sim.run commands = .ok last) := by
  have hcells : maxCells = (2 ^ 63 - 1) / 8 := rfl
  refine ⟨Nat.lt_trans config.totalSlice_lt (by decide), ?_, ?_, ?_, ?_⟩
  · intro hzero
    rw [create_eq, if_pos hzero]
  · intro hrows hcolumns hlarge
    rw [create_eq, if_neg (by omega), if_pos (hcells ▸ hlarge)]
  · intro hrows hcolumns hsize hperiod
    rw [create_eq, if_neg (by omega), if_neg (by omega), if_pos hperiod]
  · intro hrows hcolumns hsize hperiod
    have hne : config.msPerCycle.toNat ≠ 0 := fun hz => hperiod (UInt32.toNat_inj.mp hz)
    obtain ⟨sim, hsim, hrun⟩ := create_run_exists
      ⟨rows, columns, config, by omega, by omega, hcells ▸ hsize, by omega⟩ hr
    refine ⟨sim, hsim, ?_⟩
    intro commands hinside hc hs
    obtain ⟨last, hlast, _⟩ := hrun commands hinside hc hs
    exact ⟨last, hlast⟩

/-- The largest delta at the shortest period, with every other kind of command around it. -/
theorem scripted_run_never_faults :
    ∃ sim, create 2 3 { Config.screensaver with msPerCycle := 1 }
        (⟨[7, 0, 0x8000000000000000]⟩ : Script) = .ok sim ∧
      ∃ last, sim.run [.spawn 17 true, .behave 4294967295, .write 5 3, .cycle, .finishFrame,
        .clearDirty, .print, .replace 0 {}] = .ok last := by
  obtain ⟨_, _, _, _, h⟩ := accepted_run_never_faults 2 3
    { Config.screensaver with msPerCycle := 1 }
    (Script.reliable ⟨[7, 0, 0x8000000000000000]⟩ (by decide))
  obtain ⟨sim, hsim, hrun⟩ := h (by decide) (by decide) (by decide) (by decide)
  exact ⟨sim, hsim, hrun _ (by decide) (by decide) (by decide)⟩

end Simulator

end ThreadSoup
