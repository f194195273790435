import ThreadSoup.Proofs.Time

namespace ThreadSoup.Simulator

variable {σ : Type} {sim next : Simulator σ}

/-- What a cycle never touches, in whatever state it starts. -/
def fixtures (sim : Simulator σ) : Nat × Nat × Nat × Nat := (sim.progress, sim.memory.shape)

theorem progress_of_fixtures (h : next.fixtures = sim.fixtures) : next.progress = sim.progress :=
  congrArg Prod.fst h

theorem size_of_fixtures (h : next.fixtures = sim.fixtures) : next.size = sim.size :=
  Memory.size_of_shape (congrArg Prod.snd h)

theorem fixtures_of_shape {memory : Memory} (h : memory.shape = sim.memory.shape) :
    { sim with memory }.fixtures = sim.fixtures := congrArg (Prod.mk sim.progress) h

theorem repeatTimes_fixtures {f : Simulator σ → Except Fault (Simulator σ)}
    (step : ∀ a b, f a = .ok b → b.fixtures = a.fixtures) {count : Nat}
    (h : repeatTimes f count sim = .ok next) : next.fixtures = sim.fixtures :=
  repeatTimes_preserves (P := fun a => a.fixtures = sim.fixtures)
    (fun a b ha hb => (step a b hb).trans ha) rfl h

theorem spawnThread_fixtures {ip : Nat} {reversed : Bool}
    (h : sim.spawnThread ip reversed = .ok next) : next.fixtures = sim.fixtures := by
  unfold spawnThread at h
  split at h
  next => cases h
  next =>
    obtain ⟨tally, _, h⟩ := bind_eq_ok.mp h
    cases h
    rfl

theorem dispatchFrom_fixtures (h : dispatchFrom 0 sim = .ok next) :
    next.fixtures = sim.fixtures := by
  rw [dispatchFrom_zero] at h
  obtain ⟨last, hl, h⟩ := bind_eq_ok.mp h
  cases h
  have hshape := foldlM_preserves
    (P := fun _ (round : Round) => round.scene.memory.shape = sim.memory.shape)
    (fun _ _ before after hb hg => by
      obtain ⟨turn, ht, hcases⟩ := Round.give_cases hg
      have hturn := (dispatch_moves ht).shape.trans hb
      rcases hcases with ⟨_, hscene, _⟩ | ⟨_, _, _, hscene, _⟩
      · rw [hscene]
        exact hturn
      · rw [hscene]
        exact hturn) rfl hl
  exact congrArg (Prod.mk sim.progress) hshape

theorem highlight_shape {memory after : Memory} {threads : List Thread}
    (h : highlight memory threads = .ok after) : after.shape = memory.shape :=
  foldlM_preserves (P := fun _ (m : Memory) => m.shape = memory.shape)
    (fun _ _ _ _ hm hh => (highlightThread_shape hh).trans hm) rfl h

variable [RandomSource σ]

theorem addNoise_fixtures (h : sim.addNoise = .ok next) : next.fixtures = sim.fixtures := by
  obtain ⟨⟨index, source⟩, _, h⟩ := bind_eq_ok.mp h
  simp only [randomizeCell] at h
  split at h
  next => cases h; rfl
  next =>
    obtain ⟨drawn, _, h⟩ := bind_eq_ok.mp h
    obtain ⟨memory, hm, h⟩ := bind_eq_ok.mp h
    cases h
    exact fixtures_of_shape (setOp_shape hm)

theorem injectThread_fixtures (h : sim.injectThread = .ok next) : next.fixtures = sim.fixtures := by
  obtain ⟨⟨ip, source⟩, _, h⟩ := bind_eq_ok.mp h
  simp only at h
  split at h
  next => exact (spawnThread_fixtures h).trans rfl
  next => exact (spawnThread_fixtures h).trans rfl

theorem cycle_fixtures (h : sim.cycle = .ok next) : next.fixtures = sim.fixtures := by
  obtain ⟨noisy, fed, turned, trimmed, memory, hnoise, hfed, hturned, htrim, hlight, rfl⟩ :=
    cycle_eq_ok h
  have htrimmed := (trim_preserves (P := fun a => a.fixtures = turned.fixtures)
    (fun _ _ _ _ _ ha _ _ _ _ => ha) rfl htrim).1
  calc
    _ = trimmed.fixtures := fixtures_of_shape (highlight_shape hlight)
    _ = turned.fixtures := htrimmed
    _ = fed.fixtures := dispatchFrom_fixtures hturned
    _ = noisy.fixtures := repeatTimes_fixtures (fun _ _ => injectThread_fixtures) hfed
    _ = sim.fixtures := repeatTimes_fixtures (fun _ _ => addNoise_fixtures) hnoise

theorem drain_fixtures {period budget ran : Nat} {last : Simulator σ × Nat × Nat}
    (h : drain period budget ran sim = .ok last) : last.1.fixtures = sim.fixtures := by
  induction budget using Nat.strongRecOn generalizing ran sim with
  | ind budget ih =>
    rw [drain] at h
    split at h
    next hdue =>
      obtain ⟨middle, hm, h⟩ := bind_eq_ok.mp h
      split at h
      next => exact (ih (budget - period) (by omega) h).trans (cycle_fixtures hm)
      next => cases h
    next => cases h; rfl

end ThreadSoup.Simulator
