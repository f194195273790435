import ThreadSoup.Proofs.Run

namespace ThreadSoup

/-- A cell that bears the highlight of a live thread. -/
def Memory.Lit (memory : Memory) (index : Nat) : Prop :=
  ∃ cell, memory.get index = .ok cell ∧ cell.modified = threadHighlight

theorem highlightThread_lit {memory next : Memory} {thread : Thread} {index : Nat}
    (h : Simulator.highlightThread memory thread = .ok next)
    (hi : index = thread.ip ∨ memory.Lit index) : next.Lit index := by
  obtain ⟨cell, hc, h⟩ := bind_eq_ok.mp h
  split at h
  next hlit =>
    cases h
    rcases hi with rfl | hi
    · exact ⟨cell, hc, hlit⟩
    · exact hi
  next =>
    obtain ⟨written, hw, h⟩ := bind_eq_ok.mp h
    obtain ⟨old, _, hw⟩ := bind_eq_ok.mp hw
    cases h
    by_cases heq : index = thread.ip
    · have hself := Memory.put_get_self hw
      exact ⟨_, heq ▸ hself, rfl⟩
    · obtain ⟨lit, hg, hm⟩ := hi.resolve_left heq
      exact ⟨lit, (Memory.put_get_other heq hw).trans hg, hm⟩

theorem highlight_lit {memory next : Memory} {threads : List Thread}
    (h : Simulator.highlight memory threads = .ok next) :
    ∀ thread ∈ threads, next.Lit thread.ip := by
  -- every thread of the pool either waits for its highlight or stands on a lit cell
  have hall := foldlM_preserves
    (P := fun waiting (m : Memory) => ∀ thread ∈ threads, thread ∈ waiting ∨ m.Lit thread.ip)
    (fun current rest a b ha hb thread hmem => by
      rcases ha thread hmem with hwait | hlit
      · rcases List.mem_cons.mp hwait with rfl | hrest
        · exact Or.inr (highlightThread_lit hb (Or.inl rfl))
        · exact Or.inl hrest
      · exact Or.inr (highlightThread_lit hb (Or.inr hlit)))
    (fun thread hmem => Or.inl hmem) h
  intro thread hmem
  exact (hall thread hmem).resolve_left List.not_mem_nil

namespace Simulator

variable {σ : Type} [RandomSource σ] {layout : Layout} {sim next : Simulator σ}

/-- A cycle ends with a pool that is small enough and lit where it stands. -/
theorem cycle_population (wf : sim.WellFormed layout) (h : sim.cycle = .ok next) :
    next.threads.length ≤ layout.config.maxThreadCount.toNat ∧
      ∀ thread ∈ next.threads, next.memory.Lit thread.ip := by
  obtain ⟨noisy, fed, turned, trimmed, memory, hnoise, hfed, hturned, htrim, hlight, rfl⟩ :=
    cycle_eq_ok h
  have noise := repeatTimes_phase (fun _ _ => addNoise_phase) wf hnoise
  have feed := repeatTimes_phase (fun _ _ => injectThread_phase) noise.wellFormed hfed
  have turn := dispatchFrom_phase feed.wellFormed hturned
  exact ⟨(trim_phase turn.wellFormed htrim).2, highlight_lit hlight⟩

/-- Every thread that ever started is in the pool or counted under one cause of death, and
threads start only at the rate of the configuration or at the wish of the host. After any
positive number of cycles in a row the pool is no larger than allowed and lit. -/
theorem threads_conserved {rows columns : Nat} {config : Config} {source : σ}
    {start : Simulator σ} {commands : List Command}
    (hc : create rows columns config source = .ok start) (hr : start.run commands = .ok sim) :
    sim.tally.spawned =
      sim.threads.length + sim.tally.halted + sim.tally.faulted + sim.tally.trimmed ∧
    sim.tally.spawned = config.newThreadsPerCycle.toNat * sim.cycles + hostBirths commands ∧
    ∀ count last, repeatTimes cycle (count + 1) sim = .ok last →
      last.threads.length ≤ config.maxThreadCount.toNat ∧
        ∀ thread ∈ last.threads, ∃ cell, last.memory.get thread.ip = .ok cell ∧ cell.modified = 2 := by
  obtain ⟨layout, rfl, rfl, rfl⟩ := create_layout hc
  obtain ⟨wf, _, hcycles, hspawned⟩ := create_wellFormed hc
  have ledger := run_ledger wf hr
  have hbalance := ledger.wellFormed.balance
  have htotal := ledger.spawned_eq
  have hrun := ledger.cycles_eq
  rw [hcycles, Nat.zero_add] at hrun
  rw [hspawned, Nat.zero_add, ← hrun] at htotal
  refine ⟨?_, htotal, ?_⟩
  · unfold Tally.deaths at hbalance
    omega
  · intro count last hlast
    rw [repeatTimes_add] at hlast
    obtain ⟨before, hb, hlast⟩ := bind_eq_ok.mp hlast
    obtain ⟨after, ha, hlast⟩ := bind_eq_ok.mp hlast
    cases hlast
    have phase := repeatTimes_phase (fun _ _ => cycle_phase) ledger.wellFormed hb
    exact cycle_population phase.wellFormed ha

theorem scripted_threads_conserved :
    ∃ start sim, create 2 3 Config.screensaver (⟨[7, 0, 0x8000000000000000]⟩ : Script) = .ok start ∧
      start.run [.spawn 17 true, .behave 500, .cycle, .finishFrame] = .ok sim ∧
      sim.tally.spawned =
        sim.threads.length + sim.tally.halted + sim.tally.faulted + sim.tally.trimmed ∧
      sim.tally.spawned = 1 * sim.cycles + 1 := by
  obtain ⟨start, hc, hrun⟩ := create_run_exists
    ⟨2, 3, Config.screensaver, by decide, by decide, by decide, by decide⟩
    (Script.reliable ⟨[7, 0, 0x8000000000000000]⟩ (by decide))
  obtain ⟨sim, hr, _⟩ := hrun [.spawn 17 true, .behave 500, .cycle, .finishFrame]
    (by decide) (by decide) (by decide)
  obtain ⟨hbalance, hspawned, _⟩ := threads_conserved hc hr
  exact ⟨start, sim, hc, hr, hbalance, hspawned⟩

end Simulator

end ThreadSoup
