import ThreadSoup.Proofs.Pool
import ThreadSoup.Proofs.Source
import ThreadSoup.Simulator.Setup

namespace ThreadSoup

/-- A grid and a configuration with which a simulator can be set up. -/
structure Layout where
  rows : Nat
  columns : Nat
  config : Config
  rows_pos : 0 < rows
  columns_pos : 0 < columns
  size_le : rows * columns ≤ maxCells
  period_pos : 0 < config.msPerCycle.toNat

def Layout.size (layout : Layout) : Nat := layout.rows * layout.columns

theorem Layout.size_pos (layout : Layout) : 0 < layout.size :=
  Nat.mul_pos layout.rows_pos layout.columns_pos

theorem Layout.size_lt (layout : Layout) : layout.size < 2 ^ 63 :=
  Nat.lt_of_le_of_lt layout.size_le (by decide)

namespace Simulator

variable {σ : Type} {layout : Layout} {births cycles : Nat} {sim next : Simulator σ}

/-- What every operation of the host keeps, whatever the cells hold. -/
structure WellFormed (layout : Layout) (sim : Simulator σ) : Prop where
  config_eq : sim.config = layout.config
  shape_eq : sim.memory.shape = (layout.rows, layout.columns, layout.size)
  threads_fit : ∀ thread ∈ sim.threads, thread.Fits layout.size layout.config.maxStackSize.toNat
  progress_lt : sim.progress < layout.config.msPerCycle.toNat
  balance : sim.tally.spawned = sim.threads.length + sim.tally.deaths

theorem WellFormed.size_eq (wf : sim.WellFormed layout) : sim.memory.size = layout.size :=
  congrArg (fun shape => shape.2.2) wf.shape_eq

/-- A stretch of a run in which a given number of threads start and of cycles end. -/
structure Phase (layout : Layout) (births cycles : Nat) (sim next : Simulator σ) : Prop where
  wellFormed : next.WellFormed layout
  moves : Moves layout.config sim.scene next.scene
  spawned_eq : next.tally.spawned = sim.tally.spawned + births
  cycles_eq : next.cycles = sim.cycles + cycles
  progress_eq : next.progress = sim.progress

theorem Phase.refl (wf : sim.WellFormed layout) : Phase layout 0 0 sim sim :=
  ⟨wf, Moves.refl _, rfl, rfl, rfl⟩

theorem Phase.trans {m n k l : Nat} {a b c : Simulator σ} (first : Phase layout m k a b)
    (second : Phase layout n l b c) : Phase layout (m + n) (k + l) a c where
  wellFormed := second.wellFormed
  moves := first.moves.trans second.moves
  spawned_eq := by rw [second.spawned_eq, first.spawned_eq, Nat.add_assoc]
  cycles_eq := by rw [second.cycles_eq, first.cycles_eq, Nat.add_assoc]
  progress_eq := second.progress_eq.trans first.progress_eq

/-- Moves alone change neither the pool nor the counters. -/
theorem Phase.of_moves (wf : sim.WellFormed layout) (moves : Moves layout.config sim.scene next.scene)
    (hconfig : next.config = sim.config) (hthreads : next.threads = sim.threads)
    (htally : next.tally = sim.tally) (hcycles : next.cycles = sim.cycles)
    (hprogress : next.progress = sim.progress) : Phase layout 0 0 sim next where
  wellFormed :=
    { config_eq := hconfig.trans wf.config_eq
      shape_eq := moves.shape.trans wf.shape_eq
      threads_fit := hthreads ▸ wf.threads_fit
      progress_lt := hprogress ▸ wf.progress_lt
      balance := by rw [htally, hthreads]; exact wf.balance }
  moves := moves
  spawned_eq := by rw [htally]; rfl
  cycles_eq := hcycles
  progress_eq := hprogress

theorem repeatTimes_phase {f : Simulator σ → Except Fault (Simulator σ)}
    (step : ∀ a b, a.WellFormed layout → f a = .ok b → Phase layout births cycles a b)
    {count : Nat} (wf : sim.WellFormed layout) (h : repeatTimes f count sim = .ok next) :
    Phase layout (births * count) (cycles * count) sim next := by
  induction count generalizing sim with
  | zero => cases h; exact Phase.refl wf
  | succ count ih =>
    obtain ⟨middle, hm, h⟩ := bind_eq_ok.mp h
    have first := step sim middle wf hm
    have whole := first.trans (ih first.wellFormed h)
    rwa [Nat.mul_succ, Nat.mul_succ, Nat.add_comm _ births, Nat.add_comm _ cycles]

theorem spawnThread_phase {ip : Nat} {reversed : Bool} (wf : sim.WellFormed layout)
    (h : sim.spawnThread ip reversed = .ok next) : Phase layout 1 0 sim next := by
  unfold spawnThread at h
  split at h
  next => cases h
  next hsize =>
    obtain ⟨tally, ht, h⟩ := bind_eq_ok.mp h
    obtain ⟨spawned, hs, ht⟩ := bind_eq_ok.mp ht
    cases ht
    cases h
    have hspawned := addTotal_eq_ok hs
    have hbalance := wf.balance
    have hip : ip % sim.size < layout.size := by
      rw [← wf.size_eq]
      exact Nat.mod_lt ip (Nat.pos_of_ne_zero hsize)
    refine ⟨⟨wf.config_eq, wf.shape_eq, ?_, wf.progress_lt, ?_⟩, Moves.refl _, hspawned, rfl, rfl⟩
    · intro thread hmem
      rcases List.mem_cons.mp hmem with rfl | hold
      · exact ⟨hip, congrArg (fun c => c.maxStackSize.toNat) wf.config_eq, Nat.zero_le _⟩
      · exact wf.threads_fit thread hold
    · simp only [List.length_cons, Tally.deaths] at hbalance ⊢
      omega

/-- Before the first turn the whole pool is waiting. -/
theorem WellFormed.round_sound (wf : sim.WellFormed layout) :
    (sim.round []).Sound layout.config sim.scene layout.config.maxStackSize.toNat
      sim.tally.spawned sim.tally.spawned sim.threads := by
  have hsize : sim.scene.memory.size = layout.size := wf.size_eq
  refine ⟨Moves.refl _, hsize ▸ wf.threads_fit, by simp [round], rfl, ?_⟩
  rw [wf.balance]
  rfl

theorem dispatchFrom_phase (wf : sim.WellFormed layout) (h : dispatchFrom 0 sim = .ok next) :
    Phase layout 0 0 sim next := by
  rw [dispatchFrom_zero, wf.config_eq] at h
  obtain ⟨last, hl, h⟩ := bind_eq_ok.mp h
  cases h
  have hsize : sim.scene.memory.size = layout.size := wf.size_eq
  have hend := foldlM_preserves
    (P := fun waiting round => round.Sound layout.config sim.scene
      layout.config.maxStackSize.toNat sim.tally.spawned sim.tally.spawned waiting)
    (fun _ _ _ _ sound hg => sound.give (hsize ▸ layout.size_lt) hg) wf.round_sound hl
  refine ⟨⟨wf.config_eq, hend.moves.shape.trans wf.shape_eq, hsize ▸ hend.survivors_fit,
    wf.progress_lt, ?_⟩, hend.moves, hend.spawned_eq, rfl, rfl⟩
  have htotal := hend.total_eq
  have hspawned := hend.spawned_eq
  simp only [List.length_nil] at htotal
  change last.tally.spawned = last.survivors.length + last.tally.deaths
  omega

theorem highlight_phase {memory : Memory} (wf : sim.WellFormed layout)
    (h : highlight sim.memory sim.threads = .ok memory) :
    Phase layout 0 0 sim { sim with memory } := by
  have moves : Moves layout.config sim.scene { sim.scene with memory } :=
    foldlM_preserves (P := fun _ m => Moves layout.config sim.scene { sim.scene with memory := m })
      (fun _ _ _ _ hm hh => hm.trans (Move.highlight hh).moves) (Moves.refl _) h
  exact Phase.of_moves wf moves rfl rfl rfl rfl rfl

theorem bury_phase {index : Nat} {thread : Thread} {tally : Tally} (wf : sim.WellFormed layout)
    (hi : sim.threads[index]? = some thread) (ht : sim.tally.death .trimmed = .ok tally) :
    Phase layout 0 0 sim (sim.bury index thread tally) := by
  obtain ⟨hspawned, hdeaths⟩ := Tally.death_eq_ok ht
  have hlen := bury_length sim tally hi
  have hbalance := wf.balance
  have hip := (wf.threads_fit thread (List.mem_of_getElem? hi)).ip_lt
  have hsize : sim.scene.memory.size = layout.size := wf.size_eq
  have moves : Moves layout.config sim.scene (sim.bury index thread tally).scene := by
    have move : Move layout.config sim.scene
        { sim.scene with effects := mourn layout.config sim.scene.effects thread } :=
      Move.mourn (hsize ▸ hip)
    rw [← wf.config_eq] at move ⊢
    exact move.moves
  refine ⟨⟨wf.config_eq, wf.shape_eq, ?_, wf.progress_lt, ?_⟩, moves, hspawned, rfl, rfl⟩
  · intro t hmem
    exact wf.threads_fit t (List.mem_of_mem_eraseIdx hmem)
  · have htally : (sim.bury index thread tally).tally = tally := rfl
    rw [htally]
    omega

theorem with_source_phase (source : σ) (wf : sim.WellFormed layout) :
    Phase layout 0 0 sim { sim with source } :=
  Phase.of_moves wf (Moves.refl _) rfl rfl rfl rfl rfl

variable [RandomSource σ]

theorem trim_phase (wf : sim.WellFormed layout) (h : sim.trim = .ok next) :
    Phase layout 0 0 sim next ∧ next.threads.length ≤ layout.config.maxThreadCount.toNat := by
  have hstep : ∀ a index source thread tally, Phase layout 0 0 sim a →
      a.config.maxThreadCount.toNat < a.threads.length → a.victim = .ok (index, source) →
      a.threads[index]? = some thread → a.tally.death .trimmed = .ok tally →
      Phase layout 0 0 sim ({ a with source }.bury index thread tally) := by
    intro a index source thread tally phase _ _ hi ht
    have drawn := phase.trans (with_source_phase source phase.wellFormed)
    exact drawn.trans (bury_phase drawn.wellFormed hi ht)
  obtain ⟨phase, hshort⟩ := trim_preserves hstep (Phase.refl wf) h
  rw [phase.wellFormed.config_eq] at hshort
  exact ⟨phase, Nat.le_of_not_lt hshort⟩

theorem randomizeCell_phase {index : Nat} (wf : sim.WellFormed layout)
    (h : sim.randomizeCell index = .ok next) : Phase layout 0 0 sim next := by
  unfold randomizeCell at h
  split at h
  next => cases h; exact Phase.refl wf
  next =>
    obtain ⟨⟨byte, source⟩, hb, h⟩ := bind_eq_ok.mp h
    obtain ⟨memory, hm, h⟩ := bind_eq_ok.mp h
    cases h
    rw [wf.config_eq] at hb hm
    have move : Move layout.config sim.scene { sim.scene with memory } := Move.noise hb hm
    exact Phase.of_moves wf move.moves rfl rfl rfl rfl rfl

theorem addNoise_phase (wf : sim.WellFormed layout) (h : sim.addNoise = .ok next) :
    Phase layout 0 0 sim next := by
  obtain ⟨⟨index, source⟩, _, h⟩ := bind_eq_ok.mp h
  have drawn := with_source_phase source wf
  exact drawn.trans (randomizeCell_phase drawn.wellFormed h)

theorem injectThread_phase (wf : sim.WellFormed layout) (h : sim.injectThread = .ok next) :
    Phase layout 1 0 sim next := by
  obtain ⟨⟨ip, source⟩, _, h⟩ := bind_eq_ok.mp h
  simp only at h
  split at h
  next =>
    have drawn := with_source_phase (RandomSource.coin source).2 wf
    exact drawn.trans (spawnThread_phase drawn.wellFormed h)
  next =>
    have drawn := with_source_phase source wf
    exact drawn.trans (spawnThread_phase drawn.wellFormed h)

end Simulator

end ThreadSoup
