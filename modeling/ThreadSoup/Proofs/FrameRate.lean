import ThreadSoup.Proofs.QueueMirror
import ThreadSoup.Proofs.Run

namespace ThreadSoup

/-- The time that a list of deltas adds up to. -/
def totalTime (deltas : List UInt32) : Nat := (deltas.map UInt32.toNat).sum

namespace Simulator

variable {σ : Type} {sim image : Simulator σ}

/-- A lapse of time raises the flag that the queue was about to raise. -/
theorem lapse_grid (sim : Simulator σ) (ms : UInt32) (progress : Nat) :
    (sim.lapse ms progress).scene.grid = sim.scene.grid ∧
      (sim.lapse ms progress).memory = sim.scene.grid := by
  obtain ⟨config, ⟨rows, columns, cells, dirty⟩, threads, effects, old, cycles, tally, source⟩ := sim
  cases he : effects.isEmpty with
  | true =>
    simp [lapse, Simulator.scene, Scene.grid, he, EffectQueue.advance_of_isEmpty ms.toNat he]
  | false => simp [lapse, Simulator.scene, Scene.grid, Memory.markDirty, he]

theorem lapse_sims {config : Config} (ms : UInt32) (progress : Nat)
    (h : (queueMirror config).Sims sim image) :
    (queueMirror config).Sims (sim.lapse ms progress) image :=
  ⟨h.config_eq, h.image_config_eq, (lapse_grid sim ms progress).1.trans h.scene, h.threads,
    h.tally, h.cycles, h.source⟩

/-- Simulators that correspond are equal but for what is queued, once flag and time agree. -/
theorem eq_of_sims {config : Config} {a b : Simulator σ} (ha : (queueMirror config).Sims a image)
    (hb : (queueMirror config).Sims b image) (hprogress : a.progress = b.progress)
    (hsa : a.memory = a.scene.grid) (hsb : b.memory = b.scene.grid) :
    { a with effects := b.effects } = b := by
  have hmemory : a.memory = b.memory := by
    rw [hsa, hsb]
    exact ha.scene.trans hb.scene.symm
  have hpool := (forall₂_alike_eq.mp ha.threads).trans (forall₂_alike_eq.mp hb.threads).symm
  have hconfig := ha.config_eq.trans hb.config_eq.symm
  have htally := ha.tally.trans hb.tally.symm
  have hcycles := ha.cycles.trans hb.cycles.symm
  have hsource := ha.source.trans hb.source.symm
  cases a
  cases b
  simp only [Simulator.mk.injEq]
  exact ⟨hconfig, hmemory, hpool, trivial, hprogress, hcycles, htally, hsource⟩

variable [RandomSource σ] {layout : Layout}

/-- Lets some more time pass and adds the cycles to the total. -/
def passStep (state : Simulator σ × Nat) (ms : UInt32) : Except Fault (Simulator σ × Nat) := do
  let (next, ran) ← state.1.behave ms
  return (next, state.2 + ran)

/-- Lets time pass in steps. Gives the number of cycles in all of them. -/
def passTime (sim : Simulator σ) (deltas : List UInt32) : Except Fault (Simulator σ × Nat) :=
  deltas.foldlM passStep (sim, 0)

/-- What is known after some time has passed in steps, compared with a simulator `last` that ran
the cycles in a row. -/
structure Passed (layout : Layout) (ms total : Nat) (sim last : Simulator σ)
    (state : Simulator σ × Nat) : Prop where
  sims : (queueMirror layout.config).Sims state.1 last
  progress_eq : state.1.progress = sim.rest ms
  total_eq : state.2 = total + sim.due ms

/-- However time is divided, the cycles that are due in all of it run in a row, and the flag is
settled after the first step. -/
theorem foldlM_passStep_agree (deltas : List UInt32) (total : Nat) (wf : sim.WellFormed layout)
    (h : (queueMirror layout.config).Sims sim image) :
    Agree (fun state last => Passed layout (totalTime deltas) total sim last state ∧
        (deltas ≠ [] ∨ sim.memory = sim.scene.grid → state.1.memory = state.1.scene.grid))
      (deltas.foldlM passStep (sim, total))
      (repeatTimes cycle (sim.due (totalTime deltas)) image) := by
  induction deltas generalizing sim image total with
  | nil =>
    have hzero : totalTime [] = 0 := rfl
    rw [hzero, wf.due_zero.1]
    refine Agree.ok ⟨⟨h, wf.due_zero.2.symm, by rw [wf.due_zero.1]; rfl⟩, ?_⟩
    intro hsettled
    exact hsettled.resolve_left (fun hne => hne rfl)
  | cons ms rest ih =>
    have htime : totalTime (ms :: rest) = ms.toNat + totalTime rest := rfl
    obtain ⟨hdue, hrest⟩ := due_add (totalTime rest) wf.period_pos
      (rfl : (sim.lapse ms (sim.rest ms.toNat)).config = sim.config) rfl
    have hcycles := repeatTimes_agree
      (fun _ _ => Mirror.cycle_agree (queueMirror_still layout.config)) (sim.due ms.toNat) h
    have hphases := hcycles.mono fun a b ha _ hs =>
      And.intro hs (repeatTimes_phase (fun _ _ => cycle_phase) wf ha)
    rw [List.foldlM_cons, htime, hdue, repeatTimes_add]
    simp only [passStep, behave_eq ms (wf.config_eq ▸ wf.progress_lt), bind_assoc, ok_bind, pure_eq]
    refine hphases.bind fun last last' ⟨hs, phase⟩ => ?_
    have hwf := lapse_wellFormed ms phase.wellFormed (wf.rest_lt ms.toNat)
    have hstep := ih (total + sim.due ms.toNat) hwf (lapse_sims ms (sim.rest ms.toNat) hs)
    -- the time left over does not depend on the cycles that have run
    have hsame : ∀ more, (last.lapse ms (sim.rest ms.toNat)).due more =
        (sim.lapse ms (sim.rest ms.toNat)).due more ∧
        (last.lapse ms (sim.rest ms.toNat)).rest more =
          (sim.lapse ms (sim.rest ms.toNat)).rest more := by
      intro more
      have hconfig : last.config = sim.config := phase.wellFormed.config_eq.trans wf.config_eq.symm
      unfold due Simulator.rest lapse
      rw [hconfig]
      exact ⟨rfl, rfl⟩
    rw [(hsame _).1] at hstep
    refine hstep.mono fun state final _ _ ⟨passed, hsettled⟩ => ⟨⟨passed.sims, ?_, ?_⟩, fun _ => ?_⟩
    · rw [passed.progress_eq, (hsame _).2, hrest]
    · rw [passed.total_eq, (hsame _).1, hdue, Nat.add_assoc]
    · exact hsettled (Or.inr ((lapse_grid _ _ _).2.trans (lapse_grid _ _ _).1.symm))

/-- The cycles that are due run in a row, after which only the queue and the flag can tell how
the time was divided. -/
theorem passTime_agree {deltas : List UInt32} (wf : sim.WellFormed layout) (hne : deltas ≠ []) :
    Agree (fun state last => Passed layout (totalTime deltas) 0 sim last state ∧
        state.1.memory = state.1.scene.grid ∧ last.cycles = sim.cycles + sim.due (totalTime deltas))
      (sim.passTime deltas) (repeatTimes cycle (sim.due (totalTime deltas)) sim) := by
  have hself : (queueMirror layout.config).Sims sim sim :=
    ⟨wf.config_eq, wf.config_eq, rfl, forall₂_alike_eq.mpr rfl, rfl, rfl, rfl⟩
  refine (foldlM_passStep_agree deltas 0 wf hself).mono fun state last _ hl ⟨passed, hsettled⟩ => ?_
  have phase := repeatTimes_phase (fun _ _ => cycle_phase) wf hl
  rw [Nat.one_mul] at phase
  exact ⟨passed, hsettled (Or.inl hne), phase.cycles_eq⟩

/-- From every state that a host can reach, it does not matter how time is divided: steps that add
up to the same time end in the same fault or in states that differ at most in the queued effects.
All cycles that are due have run and the rest of the time is kept. The steps do not end in a fault
while the random source answers and the counters have room. -/
theorem frame_rate_independent {rows columns : Nat} {config : Config} {source : σ}
    {start : Simulator σ} {commands : List Command} {xs ys : List UInt32}
    (hc : create rows columns config source = .ok start) (hrun : start.run commands = .ok sim)
    (hx : xs ≠ []) (hy : ys ≠ []) (hsum : totalTime xs = totalTime ys) :
    Agree (fun p q => { p.1 with effects := q.1.effects } = q.1 ∧ p.2 = q.2 ∧
        p.2 = (sim.progress + totalTime xs) / config.msPerCycle.toNat ∧
        p.1.cycles = sim.cycles + p.2 ∧
        p.1.progress = (sim.progress + totalTime xs) % config.msPerCycle.toNat)
      (sim.passTime xs) (sim.passTime ys) ∧
    (Reliable sim.source →
      sim.cycles + (sim.progress + totalTime xs) / config.msPerCycle.toNat < 2 ^ 64 →
      sim.tally.spawned + config.newThreadsPerCycle.toNat *
        ((sim.progress + totalTime xs) / config.msPerCycle.toNat) < 2 ^ 64 →
      ∃ p q, sim.passTime xs = .ok p ∧ sim.passTime ys = .ok q) := by
  obtain ⟨layout, rfl, rfl, rfl⟩ := create_layout hc
  have wf := (run_ledger (create_wellFormed hc).1 hrun).wellFormed
  have hdue : (sim.progress + totalTime xs) / layout.config.msPerCycle.toNat =
      sim.due (totalTime xs) := by rw [← wf.config_eq]; rfl
  have hrest : (sim.progress + totalTime xs) % layout.config.msPerCycle.toNat =
      sim.rest (totalTime xs) := by rw [← wf.config_eq]; rfl
  have hleft := passTime_agree wf hx
  have hright := passTime_agree wf hy
  rw [← hsum] at hright
  rw [hdue, hrest]
  constructor
  · refine (hleft.join hright).mono ?_
    rintro p q _ _ ⟨last, ⟨passed, hsettled, hcycles⟩, passed', hsettled', _⟩
    have hp := passed.total_eq
    have hq := passed'.total_eq
    rw [Nat.zero_add] at hp hq
    refine ⟨?_, hp.trans hq.symm, hp, ?_, passed.progress_eq⟩
    · exact eq_of_sims passed.sims passed'.sims (passed.progress_eq.trans passed'.progress_eq.symm)
        hsettled hsettled'
    · rw [passed.sims.cycles, hcycles, hp]
  · intro hr hroom hspawned
    obtain ⟨last, hlast, _⟩ := repeatTimes_phase_exists (fun _ _ => cycle_phase)
      (fun _ => cycle_exists) (sim.due (totalTime xs)) wf hr hspawned (by omega)
    rw [hlast] at hleft hright
    obtain ⟨p, hp⟩ := hleft.exists_left
    obtain ⟨q, hq⟩ := hright.exists_left
    exact ⟨p, q, hp, hq⟩

/-- With 20 of 50 milliseconds left over, 120 more run two cycles and leave 40. -/
theorem scripted_frame_rate :
    ∃ start sim, create 2 3 Config.screensaver (⟨[7, 0, 0x8000000000000000]⟩ : Script) = .ok start ∧
      start.run [.spawn 17 true, .behave 70] = .ok sim ∧
      ∃ p q, sim.passTime [30, 0, 90] = .ok p ∧ sim.passTime [120] = .ok q ∧
        { p.1 with effects := q.1.effects } = q.1 ∧ p.2 = 2 ∧ q.2 = 2 ∧ q.1.progress = 40 := by
  obtain ⟨start, hc, hrun⟩ := create_run_exists
    ⟨2, 3, Config.screensaver, by decide, by decide, by decide, by decide⟩
    (Script.reliable ⟨[7, 0, 0x8000000000000000]⟩ (by decide))
  obtain ⟨sim, hr, hrel⟩ := hrun [.spawn 17 true, .behave 70] (by decide) (by decide) (by decide)
  obtain ⟨wf, hprogress, hcycles, hspawned⟩ := create_wellFormed hc
  have ledger := run_ledger wf hr
  have hdue : start.due 70 = 1 := by unfold due; rw [hprogress, wf.config_eq]; rfl
  have hleft : sim.progress = 20 := by
    refine ledger.progress_eq.trans ?_
    unfold Simulator.rest
    rw [hprogress, wf.config_eq]
    rfl
  have hran : sim.cycles = 1 := by
    refine ledger.cycles_eq.trans ?_
    change start.cycles + (start.due 70 + 0) = 1
    rw [hcycles, hdue]
  have hborn : sim.tally.spawned = 2 := by
    refine ledger.spawned_eq.trans ?_
    change start.tally.spawned + (1 * (start.due 70 + 0) + 1) = 2
    rw [hspawned, hdue]
  have htwo : (20 + totalTime [30, 0, 90]) / Config.screensaver.msPerCycle.toNat = 2 := by decide
  have hforty : (20 + totalTime [30, 0, 90]) % Config.screensaver.msPerCycle.toNat = 40 := by decide
  obtain ⟨hagree, hok⟩ := frame_rate_independent hc hr (List.cons_ne_nil 30 [0, 90])
    (List.cons_ne_nil 120 []) (by decide)
  rw [hleft, htwo] at hagree hok
  rw [hforty] at hagree
  obtain ⟨p, q, hp, hq⟩ := hok hrel (by rw [hran]; decide) (by rw [hborn]; decide)
  rw [hp, hq] at hagree
  cases hagree with
  | ok h =>
    obtain ⟨hsame, htotal, hcount, _, hprogress'⟩ := h
    have hrest : q.1.progress = 40 := by rw [← hsame]; exact hprogress'
    exact ⟨start, sim, hc, hr, p, q, hp, hq, hsame, hcount, htotal.symm.trans hcount, hrest⟩

end Simulator

end ThreadSoup
