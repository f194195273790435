import ThreadSoup.Proofs.Conservation
import ThreadSoup.Proofs.Exhaustion

namespace ThreadSoup

/-- The counters can hold the cycles and the births of some frames. -/
structure Layout.Room (layout : Layout) (ms : UInt32) (frames : Nat) : Prop where
  cycles_lt : frames * ms.toNat / layout.config.msPerCycle.toNat < 2 ^ 64
  births_lt : layout.config.newThreadsPerCycle.toNat *
    (frames * ms.toNat / layout.config.msPerCycle.toNat) < 2 ^ 64

theorem Layout.Room.mono {layout : Layout} {ms : UInt32} {frames more : Nat}
    (room : layout.Room ms more) (hle : frames ≤ more) : layout.Room ms frames := by
  have hcycles : frames * ms.toNat / layout.config.msPerCycle.toNat ≤
      more * ms.toNat / layout.config.msPerCycle.toNat :=
    Nat.div_le_div_right (Nat.mul_le_mul_right _ hle)
  have hbirths := Nat.mul_le_mul_left layout.config.newThreadsPerCycle.toNat hcycles
  exact ⟨Nat.lt_of_le_of_lt hcycles room.cycles_lt, Nat.lt_of_le_of_lt hbirths room.births_lt⟩

namespace Simulator

variable {σ : Type} [RandomSource σ] {layout : Layout} {ms : UInt32} {frames : Nat}
  {sim next : Simulator σ}

theorem frame_eq_ok {ran : Nat} (h : sim.frame ms = .ok (next, ran)) :
    ∃ after, sim.behave ms = .ok (after, ran) ∧ next = after.finishFrame.1 := by
  obtain ⟨⟨after, ran⟩, hb, h⟩ := bind_eq_ok.mp h
  cases h
  exact ⟨after, hb, rfl⟩

theorem frame_ledger {ran : Nat} (wf : sim.WellFormed layout)
    (h : sim.frame ms = .ok (next, ran)) : Ledger layout ms.toNat 0 0 sim next := by
  obtain ⟨after, hb, rfl⟩ := frame_eq_ok h
  have first := behave_ledger wf hb
  have hfinish : after.perform .finishFrame = .ok after.finishFrame.1 := rfl
  exact Ledger.trans wf first (perform_ledger first.wellFormed hfinish)

omit [RandomSource σ] in
theorem finishFrame_threads (sim : Simulator σ) : sim.finishFrame.1.threads = sim.threads := by
  unfold finishFrame
  split
  next => rfl
  next => rfl

/-- Frames end with a pool that is small enough if they start with one. -/
theorem frame_population {ran : Nat} (wf : sim.WellFormed layout)
    (hle : sim.threads.length ≤ layout.config.maxThreadCount.toNat)
    (h : sim.frame ms = .ok (next, ran)) :
    next.threads.length ≤ layout.config.maxThreadCount.toNat := by
  obtain ⟨after, hb, rfl⟩ := frame_eq_ok h
  rw [behave_eq ms (wf.config_eq ▸ wf.progress_lt)] at hb
  obtain ⟨last, hl, hb⟩ := bind_eq_ok.mp hb
  cases hb
  have hlast := repeatTimes_preserves
    (P := fun a : Simulator σ => a.WellFormed layout ∧
      a.threads.length ≤ layout.config.maxThreadCount.toNat)
    (fun a b ha hc => ⟨(cycle_phase ha.1 hc).wellFormed, (cycle_population ha.1 hc).1⟩)
    ⟨wf, hle⟩ hl
  rw [finishFrame_threads]
  exact hlast.2

/-- A simulator that has played some frames since it was set up. -/
structure Played (layout : Layout) (ms : UInt32) (frames : Nat) (sim : Simulator σ) : Prop where
  wellFormed : sim.WellFormed layout
  progress_eq : sim.progress = frames * ms.toNat % layout.config.msPerCycle.toNat
  cycles_eq : sim.cycles = frames * ms.toNat / layout.config.msPerCycle.toNat
  spawned_eq : sim.tally.spawned =
    layout.config.newThreadsPerCycle.toNat * (frames * ms.toNat / layout.config.msPerCycle.toNat)
  threads_le : sim.threads.length ≤ layout.config.maxThreadCount.toNat

omit [RandomSource σ] in
/-- The time that is left over after some frames counts in the next one. -/
theorem Played.due_eq (played : sim.Played layout ms frames) :
    (frames + 1) * ms.toNat / layout.config.msPerCycle.toNat =
        frames * ms.toNat / layout.config.msPerCycle.toNat + sim.due ms.toNat ∧
      (frames + 1) * ms.toNat % layout.config.msPerCycle.toNat = sim.rest ms.toNat := by
  have hsplit := Nat.div_add_mod (frames * ms.toNat) layout.config.msPerCycle.toNat
  have hsum : (frames + 1) * ms.toNat =
      layout.config.msPerCycle.toNat * (frames * ms.toNat / layout.config.msPerCycle.toNat) +
        (frames * ms.toNat % layout.config.msPerCycle.toNat + ms.toNat) := by
    rw [Nat.succ_mul]
    omega
  unfold due rest
  rw [played.wellFormed.config_eq, played.progress_eq, hsum]
  exact ⟨Nat.mul_add_div layout.period_pos _ _, Nat.mul_add_mod _ _ _⟩

theorem Played.frame {ran : Nat} (played : sim.Played layout ms frames)
    (h : sim.frame ms = .ok (next, ran)) : next.Played layout ms (frames + 1) := by
  obtain ⟨hdue, hrest⟩ := played.due_eq
  have ledger := frame_ledger played.wellFormed h
  refine ⟨ledger.wellFormed, ledger.progress_eq.trans hrest.symm, ?_, ?_,
    frame_population played.wellFormed played.threads_le h⟩
  · rw [ledger.cycles_eq, played.cycles_eq, hdue, Nat.add_zero]
  · rw [ledger.spawned_eq, played.spawned_eq, hdue, Nat.add_zero, Nat.add_zero, Nat.mul_add]

theorem Played.play {count total : Nat} {last : Simulator σ × Nat}
    (played : sim.Played layout ms frames) (h : sim.play ms count total = .ok last) :
    last.1.Played layout ms (frames + count) := by
  induction count generalizing frames sim total with
  | zero => cases h; exact played
  | succ count ih =>
    obtain ⟨⟨middle, ran⟩, hm, h⟩ := bind_eq_ok.mp h
    have hlast := ih (played.frame hm) h
    rwa [Nat.add_right_comm] at hlast

end Simulator

end ThreadSoup
