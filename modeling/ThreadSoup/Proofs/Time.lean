import ThreadSoup.Proofs.Cycle
import ThreadSoup.Simulator.Time

namespace ThreadSoup

theorem EffectQueue.advance_of_isEmpty {queue : EffectQueue} (ms : Nat) (h : queue.isEmpty = true) :
    queue.advance ms = queue := by
  obtain ⟨list⟩ := queue
  cases list with
  | nil => rfl
  | cons effect rest => cases h

namespace Simulator

variable {σ : Type} [RandomSource σ] {layout : Layout} {sim next : Simulator σ}

/-- Draining runs one cycle for every whole period of the budget. -/
theorem drain_eq {period : Nat} (budget ran : Nat) (sim : Simulator σ) (hpos : 0 < period)
    (hran : ran + budget / period ≤ counterMax) :
    drain period budget ran sim =
      (repeatTimes cycle (budget / period) sim >>= fun last =>
        .ok (last, budget % period, ran + budget / period)) := by
  induction budget using Nat.strongRecOn generalizing ran sim with
  | ind budget ih =>
    rw [drain]
    by_cases hle : period ≤ budget
    · have hdiv : budget / period = (budget - period) / period + 1 := Nat.div_eq_sub_div hpos hle
      have hmod : budget % period = (budget - period) % period := Nat.mod_eq_sub_mod hle
      rw [hdiv] at hran
      rw [if_pos ⟨hpos, hle⟩, hdiv, repeatTimes]
      cases hc : sim.cycle with
      | error e => rfl
      | ok after =>
        have hroom : ran < counterMax :=
          Nat.lt_of_lt_of_le (Nat.lt_add_of_pos_right (Nat.succ_pos _)) hran
        simp only [ok_bind, if_pos hroom]
        rw [ih (budget - period) (by omega) (ran + 1) after (by omega), hmod]
        rw [show ran + 1 + (budget - period) / period = ran + ((budget - period) / period + 1) by omega]
    · have hdiv : budget / period = 0 := Nat.div_eq_of_lt (by omega)
      have hmod : budget % period = budget := Nat.mod_eq_of_lt (by omega)
      rw [if_neg (by omega), hdiv, hmod]
      rfl

/-- How time ends: the rest of it is kept, and effects grow older. -/
def lapse (sim : Simulator σ) (ms : UInt32) (progress : Nat) : Simulator σ :=
  { sim with
    progress
    effects := sim.effects.advance ms.toNat
    memory := if sim.effects.isEmpty then sim.memory else sim.memory.markDirty }

theorem behave_eq_drain (sim : Simulator σ) (ms : UInt32) :
    sim.behave ms = (addTotal sim.progress ms.toNat >>= fun budget =>
      drain sim.config.msPerCycle.toNat budget 0 sim >>= fun last =>
        .ok (last.1.lapse ms last.2.1, last.2.2)) := by
  unfold behave
  cases addTotal sim.progress ms.toNat with
  | error e => rfl
  | ok budget =>
    simp only [ok_bind]
    cases drain sim.config.msPerCycle.toNat budget 0 sim with
    | error e => rfl
    | ok last =>
      simp only [ok_bind]
      split
      next hempty => simp only [lapse, hempty, EffectQueue.advance_of_isEmpty ms.toNat hempty]; rfl
      next hempty => simp only [lapse, hempty]; rfl

/-- The number of cycles that are due after some time. -/
def due (sim : Simulator σ) (ms : Nat) : Nat := (sim.progress + ms) / sim.config.msPerCycle.toNat

/-- The time that is then left over. -/
def rest (sim : Simulator σ) (ms : Nat) : Nat := (sim.progress + ms) % sim.config.msPerCycle.toNat

/-- Less than a period of accumulated time leaves room for any delta: neither the budget nor the
number of cycles overflows. -/
theorem behave_eq {sim : Simulator σ} (ms : UInt32)
    (h : sim.progress < sim.config.msPerCycle.toNat) :
    sim.behave ms = (repeatTimes cycle (sim.due ms.toNat) sim >>= fun last =>
      .ok (last.lapse ms (sim.rest ms.toNat), sim.due ms.toNat)) := by
  have hms := ms.toNat_lt
  have hperiod := sim.config.msPerCycle.toNat_lt
  have hpos : 0 < sim.config.msPerCycle.toNat := by omega
  have hbudget : addTotal sim.progress ms.toNat = .ok (sim.progress + ms.toNat) :=
    addTotal_eq (by omega)
  have hdue : sim.due ms.toNat < 2 ^ 32 := by
    apply Nat.div_lt_of_lt_mul
    omega
  have hdrain := drain_eq (sim.progress + ms.toNat) 0 sim hpos (by
    unfold due at hdue
    have hmax : counterMax = 2 ^ 32 - 1 := rfl
    omega)
  rw [Nat.zero_add] at hdrain
  rw [behave_eq_drain, hbudget, ok_bind, hdrain]
  change (repeatTimes cycle (sim.due ms.toNat) sim >>= _) >>= _ = _
  cases repeatTimes cycle (sim.due ms.toNat) sim with
  | error e => rfl
  | ok last => rfl

omit [RandomSource σ] in
theorem lapse_wellFormed {progress : Nat} (ms : UInt32) (wf : sim.WellFormed layout)
    (h : progress < layout.config.msPerCycle.toNat) : (sim.lapse ms progress).WellFormed layout := by
  refine ⟨wf.config_eq, ?_, wf.threads_fit, h, wf.balance⟩
  unfold lapse
  split
  next => exact wf.shape_eq
  next => exact wf.shape_eq

omit [RandomSource σ] in
theorem WellFormed.period_pos (wf : sim.WellFormed layout) : 0 < sim.config.msPerCycle.toNat :=
  wf.config_eq ▸ layout.period_pos

omit [RandomSource σ] in
theorem WellFormed.rest_lt (wf : sim.WellFormed layout) (ms : Nat) :
    sim.rest ms < layout.config.msPerCycle.toNat := by
  rw [← wf.config_eq]
  exact Nat.mod_lt _ wf.period_pos

theorem behave_phase {ms : UInt32} {ran : Nat} (wf : sim.WellFormed layout)
    (h : sim.behave ms = .ok (next, ran)) :
    ran = sim.due ms.toNat ∧ next.WellFormed layout ∧ ∃ last,
      Phase layout (layout.config.newThreadsPerCycle.toNat * ran) ran sim last ∧
      next = last.lapse ms (sim.rest ms.toNat) := by
  rw [behave_eq ms (wf.config_eq ▸ wf.progress_lt)] at h
  obtain ⟨last, hl, h⟩ := bind_eq_ok.mp h
  cases h
  have phase := repeatTimes_phase (fun _ _ => cycle_phase) wf hl
  rw [Nat.one_mul] at phase
  exact ⟨rfl, lapse_wellFormed ms phase.wellFormed (wf.rest_lt ms.toNat), last, phase, rfl⟩

theorem behave_exists (ms : UInt32) (wf : sim.WellFormed layout) (hr : Reliable sim.source)
    (hs : sim.tally.spawned + layout.config.newThreadsPerCycle.toNat * sim.due ms.toNat < 2 ^ 64)
    (hc : sim.cycles + sim.due ms.toNat < 2 ^ 64) :
    ∃ next ran, sim.behave ms = .ok (next, ran) ∧ Reliable next.source := by
  obtain ⟨last, hl, hrl⟩ := repeatTimes_phase_exists (fun _ _ => cycle_phase)
    (fun _ => cycle_exists) (sim.due ms.toNat) wf hr hs (by omega)
  rw [behave_eq ms (wf.config_eq ▸ wf.progress_lt), hl]
  exact ⟨_, _, rfl, hrl⟩

end Simulator

end ThreadSoup
