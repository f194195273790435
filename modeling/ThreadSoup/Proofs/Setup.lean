import ThreadSoup.Proofs.Cycle

namespace ThreadSoup

/-- What writing one operation keeps, writing several keeps. -/
theorem setOps_preserves {P : Memory → Prop} {memory next : Memory} {start spawnLifeSpan : Nat}
    {bytes : List UInt8}
    (step : ∀ a b index byte, P a → a.setOp index byte spawnLifeSpan = .ok b → P b)
    (hp : P memory) (h : memory.setOps start bytes spawnLifeSpan = .ok next) : P next :=
  foldlM_preserves (P := fun _ m => P m) (fun _ _ _ _ ha hb => step _ _ _ _ ha hb) hp h

theorem setOps_exists {memory : Memory} {start : Nat} (bytes : List UInt8) (spawnLifeSpan : Nat)
    (h : start + bytes.length ≤ memory.size) :
    ∃ next, memory.setOps start bytes spawnLifeSpan = .ok next := by
  obtain ⟨next, hn, _⟩ := foldlM_exists
    (P := fun waiting (m : Memory) => m.shape = memory.shape ∧
      ∀ entry ∈ waiting, start + entry.2 < memory.size)
    (f := fun m entry => m.setOp (start + entry.2) entry.1 spawnLifeSpan)
    (fun entry rest m ⟨hshape, hfit⟩ => by
      have hsize := Memory.size_of_shape hshape
      obtain ⟨written, hw⟩ := setOp_exists entry.1 spawnLifeSpan (hsize ▸ hfit entry (by simp))
      exact ⟨written, hw, (setOp_shape hw).trans hshape,
        fun e he => hfit e (List.mem_cons_of_mem entry he)⟩)
    bytes.zipIdx ⟨rfl, fun entry he => by
      have := (List.mem_zipIdx he).2.1
      omega⟩
  exact ⟨next, hn⟩

/-- The simulator before its grid is filled. -/
def Layout.blank {σ : Type} (layout : Layout) (source : σ) : Simulator σ :=
  { config := layout.config
    memory :=
      { rows := layout.rows
        columns := layout.columns
        cells := Array.replicate layout.size {}
        dirty := true }
    threads := []
    effects := {}
    progress := 0
    cycles := 0
    tally := {}
    source }

namespace Simulator

variable {σ : Type} {layout : Layout} {sim next : Simulator σ}

theorem blank_wellFormed (layout : Layout) (source : σ) :
    (layout.blank source).WellFormed layout := by
  refine ⟨rfl, ?_, by simp [Layout.blank], layout.period_pos, rfl⟩
  simp [Layout.blank, Memory.shape, Memory.size]

/-- Writes of the host change nothing but the grid. -/
theorem editMemory_eq_ok {edit : Memory → Except Fault Memory} (h : sim.editMemory edit = .ok next) :
    ∃ memory, edit sim.memory = .ok memory ∧ next = { sim with memory } := by
  obtain ⟨memory, hm, h⟩ := bind_eq_ok.mp h
  cases h
  exact ⟨memory, hm, rfl⟩

theorem editMemory_of_ok {edit : Memory → Except Fault Memory} {memory : Memory}
    (h : edit sim.memory = .ok memory) : sim.editMemory edit = .ok { sim with memory } := by
  unfold editMemory
  rw [h]
  rfl

theorem with_memory_wellFormed {memory : Memory} (wf : sim.WellFormed layout)
    (h : memory.shape = sim.memory.shape) : { sim with memory }.WellFormed layout :=
  ⟨wf.config_eq, h.trans wf.shape_eq, wf.threads_fit, wf.progress_lt, wf.balance⟩

theorem load_wellFormed {start : Nat} {bytes : List UInt8} (wf : sim.WellFormed layout)
    (h : sim.load start bytes = .ok next) : ∃ memory, next = { sim with memory } ∧
      sim.memory.setOps start bytes sim.config.spawnLifeSpan.toNat = .ok memory ∧
      next.WellFormed layout := by
  obtain ⟨memory, hm, rfl⟩ := editMemory_eq_ok h
  have hshape := setOps_preserves (P := fun m => m.shape = sim.memory.shape)
    (fun _ _ _ _ ha hb => (setOp_shape hb).trans ha) rfl hm
  exact ⟨memory, rfl, hm, with_memory_wellFormed wf hshape⟩

theorem load_halts_exists (sim : Simulator σ) :
    ∃ memory, sim.load 0 (List.replicate sim.size haltByte) = .ok { sim with memory } := by
  have hlength : 0 + (List.replicate sim.size haltByte).length ≤ sim.memory.size := by
    rw [List.length_replicate, Nat.zero_add]
    exact Nat.le_refl _
  obtain ⟨memory, hm⟩ := setOps_exists _ sim.config.spawnLifeSpan.toNat hlength
  exact ⟨memory, editMemory_of_ok hm⟩

variable [RandomSource σ]

/-- The grid starts as noise or as halt cells. -/
theorem fill_cases (wf : sim.WellFormed layout) (h : sim.fill = .ok next) :
    Phase layout 0 0 sim next ∨ ∃ memory, next = { sim with memory } ∧
      sim.memory.setOps 0 (List.replicate sim.size haltByte) sim.config.spawnLifeSpan.toNat = .ok memory ∧
      next.WellFormed layout := by
  unfold fill at h
  split at h
  next =>
    exact Or.inl (foldlM_preserves (P := fun _ a => Phase layout 0 0 sim a)
      (fun _ _ _ _ phase hb => phase.trans (randomizeCell_phase phase.wellFormed hb))
      (Phase.refl wf) h)
  next => exact Or.inr (load_wellFormed wf h)

theorem fill_exists (wf : sim.WellFormed layout) (hr : Reliable sim.source) :
    ∃ next, sim.fill = .ok next ∧ Reliable next.source := by
  have hsize : sim.size = layout.size := wf.size_eq
  unfold fill
  split
  next =>
    obtain ⟨next, hn, hp⟩ := foldlM_exists (f := randomizeCell)
      (P := fun waiting (a : Simulator σ) => a.WellFormed layout ∧ Reliable a.source ∧
        ∀ index ∈ waiting, index < layout.size)
      (fun index rest a ⟨wfa, hra, hfit⟩ => by
        obtain ⟨b, hb, hrb⟩ := randomizeCell_exists wfa hra (hfit index (by simp))
        exact ⟨b, hb, (randomizeCell_phase wfa hb).wellFormed, hrb,
          fun i hi => hfit i (List.mem_cons_of_mem index hi)⟩)
      (List.range sim.size) ⟨wf, hr, fun i hi => hsize ▸ List.mem_range.mp hi⟩
    exact ⟨next, hn, hp.2.1⟩
  next =>
    obtain ⟨memory, hm⟩ := sim.load_halts_exists
    exact ⟨{ sim with memory }, hm, hr⟩

theorem build_eq (layout : Layout) (source : σ) :
    build layout.rows layout.columns layout.config source =
      (fill (layout.blank source) >>= fun filled => .ok filled.markDirty) := by
  have hrows := layout.rows_pos
  have hcolumns := layout.columns_pos
  have hsize := layout.size_le
  unfold build Memory.create
  rw [if_neg (by omega), if_neg (by omega)]
  rfl

/-- The checks come in the order empty grid, large grid, configuration. -/
theorem create_eq (rows columns : Nat) (config : Config) (source : σ) :
    create rows columns config source =
      if rows = 0 ∨ columns = 0 then .error (.emptyGrid rows columns)
      else if maxCells < rows * columns then .error (.gridTooLarge rows columns)
      else if config.msPerCycle = 0 then .error (.config .zeroCycleLength)
      else (build rows columns config source).mapError .fault := by
  unfold create Config.validate
  split
  next => rfl
  next =>
    split
    next => rfl
    next =>
      by_cases hzero : config.msPerCycle = 0
      · rw [if_pos hzero, if_pos hzero]
      · rw [if_neg hzero, if_neg hzero]
        cases build rows columns config source with
        | error fault => rfl
        | ok sim => rfl

/-- Whatever is accepted has a layout. -/
theorem create_layout {rows columns : Nat} {config : Config} {source : σ}
    (h : create rows columns config source = .ok sim) :
    ∃ layout : Layout, layout.rows = rows ∧ layout.columns = columns ∧ layout.config = config := by
  rw [create_eq] at h
  split at h
  next => cases h
  next hpos =>
    split at h
    next => cases h
    next hsize =>
      split at h
      next => cases h
      next hperiod =>
        have hne : config.msPerCycle.toNat ≠ 0 := fun hz => hperiod (UInt32.toNat_inj.mp hz)
        exact ⟨⟨rows, columns, config, by omega, by omega, by omega, by omega⟩, rfl, rfl, rfl⟩

theorem create_eq_fill (layout : Layout) (source : σ) :
    create layout.rows layout.columns layout.config source =
      ((fill (layout.blank source)).map Simulator.markDirty).mapError .fault := by
  have hrows := layout.rows_pos
  have hcolumns := layout.columns_pos
  have hsize := layout.size_le
  have hperiod := layout.period_pos
  have hne : layout.config.msPerCycle ≠ 0 := by
    intro hz
    rw [hz] at hperiod
    exact absurd hperiod (by decide)
  rw [create_eq, if_neg (by omega), if_neg (by omega), if_neg hne, build_eq]
  cases fill (layout.blank source) with
  | error fault => rfl
  | ok filled => rfl

theorem create_eq_ok {source : σ}
    (h : create layout.rows layout.columns layout.config source = .ok sim) :
    ∃ filled, fill (layout.blank source) = .ok filled ∧ sim = filled.markDirty := by
  rw [create_eq_fill] at h
  cases hf : fill (layout.blank source) with
  | error fault => rw [hf] at h; cases h
  | ok filled => rw [hf] at h; cases h; exact ⟨filled, rfl, rfl⟩

/-- A fresh simulator is well formed, and nothing has happened yet. -/
theorem create_wellFormed {source : σ}
    (h : create layout.rows layout.columns layout.config source = .ok sim) :
    sim.WellFormed layout ∧ sim.progress = 0 ∧ sim.cycles = 0 ∧ sim.tally.spawned = 0 := by
  obtain ⟨filled, hf, rfl⟩ := create_eq_ok h
  have hmark : ∀ a : Simulator σ, a.WellFormed layout → a.markDirty.WellFormed layout :=
    fun a wf => with_memory_wellFormed wf a.memory.markDirty_shape
  rcases fill_cases (blank_wellFormed layout source) hf with phase | ⟨memory, rfl, _, wf⟩
  · exact ⟨hmark filled phase.wellFormed, phase.progress_eq, phase.cycles_eq, phase.spawned_eq⟩
  · exact ⟨hmark _ wf, rfl, rfl, rfl⟩

theorem create_exists (layout : Layout) {source : σ} (hr : Reliable source) :
    ∃ sim, create layout.rows layout.columns layout.config source = .ok sim ∧
      Reliable sim.source := by
  obtain ⟨filled, hf, hrf⟩ := fill_exists (blank_wellFormed layout source) hr
  refine ⟨filled.markDirty, ?_, hrf⟩
  rw [create_eq_fill, hf]
  rfl

end Simulator

end ThreadSoup
