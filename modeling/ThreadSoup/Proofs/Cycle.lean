import ThreadSoup.Proofs.Phase

namespace ThreadSoup

/-- The greatest age is an upper bound that some thread reaches. -/
theorem foldl_max_age (threads : List Thread) (start : Nat) :
    start ≤ threads.foldl (fun age thread => max age thread.age) start ∧
      (threads.foldl (fun age thread => max age thread.age) start = start ∨
        ∃ thread ∈ threads,
          thread.age = threads.foldl (fun age thread => max age thread.age) start) ∧
      ∀ thread ∈ threads,
        thread.age ≤ threads.foldl (fun age thread => max age thread.age) start := by
  induction threads generalizing start with
  | nil => simp
  | cons head tail ih =>
    obtain ⟨hstart, hreach, hbound⟩ := ih (max start head.age)
    simp only [List.foldl_cons]
    refine ⟨by omega, ?_, ?_⟩
    · rcases hreach with heq | ⟨thread, hmem, hage⟩
      · rcases Nat.le_total start head.age with hle | hle
        · exact Or.inr ⟨head, by simp, by omega⟩
        · exact Or.inl (by omega)
      · exact Or.inr ⟨thread, List.mem_cons_of_mem head hmem, hage⟩
    · intro thread hmem
      rcases List.mem_cons.mp hmem with rfl | hmem
      · omega
      · exact hbound thread hmem

theorem oldest_lt {threads : List Thread} (h : 0 < threads.length) :
    oldest threads < threads.length := by
  obtain ⟨_, hreach, hbound⟩ := foldl_max_age threads 0
  apply List.findIdx_lt_length_of_exists
  rcases hreach with hzero | ⟨thread, hmem, hage⟩
  · obtain ⟨head, tail, rfl⟩ := List.exists_cons_of_length_pos h
    have := hbound head (by simp)
    exact ⟨head, by simp, by simp only [beq_iff_eq]; omega⟩
  · exact ⟨thread, hmem, by simpa using hage⟩

theorem draw_eq_ok {α : Type} {drawn : Option α} {a : α} :
    draw drawn = .ok a ↔ drawn = some a := by
  cases drawn with
  | none => simp [draw]
  | some b => simp [draw]

/-- A literal drawn by noise has a byte. -/
theorem encode_noise_exists {literal : Int} (hlow : -(noiseRadius : Int) ≤ literal)
    (hhigh : literal ≤ noiseRadius) :
    ∃ byte, (Op.push (Int32.ofInt literal)).encode = .ok byte := by
  have hradius : noiseRadius = 11 := rfl
  have hvalue : (Int32.ofInt literal).toInt = literal :=
    Int32.toInt_ofInt_of_le (by omega) (by omega)
  have hbase : pushBase = 127 := rfl
  simp only [Op.encode, hvalue]
  rw [if_pos (by omega)]
  exact ⟨_, rfl⟩

namespace Simulator

variable {σ : Type} [RandomSource σ] {layout : Layout} {sim next : Simulator σ}

theorem noiseByte_exists {config : Config} {source : σ} (hr : Reliable source)
    (hw : config.totalSlice ≠ 0) :
    ∃ byte rest, noiseByte config source = .ok (byte, rest) ∧ Reliable rest := by
  obtain ⟨slice, drawn, hd, _, hdrawn⟩ := hr.below (Nat.pos_of_ne_zero hw)
  unfold noiseByte
  simp only [hd, draw, ok_bind]
  split
  next => exact ⟨_, _, rfl, hdrawn⟩
  next => exact ⟨_, _, rfl, hdrawn⟩
  next =>
    obtain ⟨literal, rest, hl, hlow, hhigh, hrest⟩ := hdrawn.within
    obtain ⟨byte, hb⟩ := encode_noise_exists hlow hhigh
    exact ⟨byte, rest, by simp only [hl, ok_bind, hb, pure_eq], hrest⟩
  next => exact ⟨_, _, rfl, hdrawn⟩

theorem randomizeCell_exists {index : Nat} (wf : sim.WellFormed layout) (hr : Reliable sim.source)
    (hi : index < layout.size) :
    ∃ next, sim.randomizeCell index = .ok next ∧ Reliable next.source := by
  unfold randomizeCell
  split
  next => exact ⟨sim, rfl, hr⟩
  next hw =>
    obtain ⟨byte, rest, hb, hrest⟩ := noiseByte_exists hr hw
    obtain ⟨memory, hm⟩ := setOp_exists byte sim.config.spawnLifeSpan.toNat (wf.size_eq ▸ hi)
    simp only [hb, ok_bind, hm, pure_eq]
    exact ⟨_, rfl, hrest⟩

theorem addNoise_exists (wf : sim.WellFormed layout) (hr : Reliable sim.source) :
    ∃ next, sim.addNoise = .ok next ∧ Reliable next.source := by
  have hsize : sim.size = layout.size := wf.size_eq
  obtain ⟨index, rest, hd, hlt, hrest⟩ := hr.below (hsize ▸ layout.size_pos)
  unfold addNoise
  simp only [hd, draw, ok_bind]
  exact randomizeCell_exists (with_source_phase rest wf).wellFormed hrest (hsize ▸ hlt)

omit [RandomSource σ] in
theorem spawnThread_exists (ip : Nat) (reversed : Bool) (wf : sim.WellFormed layout)
    (h : sim.tally.spawned + 1 < 2 ^ 64) :
    ∃ next, sim.spawnThread ip reversed = .ok next ∧ next.source = sim.source := by
  have hsize : sim.size = layout.size := wf.size_eq
  have hpos := layout.size_pos
  unfold spawnThread Tally.birth
  rw [if_neg (by omega), addTotal_eq h]
  exact ⟨_, rfl, rfl⟩

theorem injectThread_exists (wf : sim.WellFormed layout) (hr : Reliable sim.source)
    (h : sim.tally.spawned + 1 < 2 ^ 64) :
    ∃ next, sim.injectThread = .ok next ∧ Reliable next.source := by
  have hsize : sim.size = layout.size := wf.size_eq
  obtain ⟨ip, rest, hd, _, hrest⟩ := hr.below (hsize ▸ layout.size_pos)
  unfold injectThread
  simp only [hd, draw, ok_bind]
  split
  next =>
    obtain ⟨next, hn, hsource⟩ := spawnThread_exists ip (RandomSource.coin rest).1
      (with_source_phase (RandomSource.coin rest).2 wf).wellFormed h
    exact ⟨next, hn, hsource ▸ hrest.coin⟩
  next =>
    obtain ⟨next, hn, hsource⟩ :=
      spawnThread_exists ip false (with_source_phase rest wf).wellFormed h
    exact ⟨next, hn, hsource ▸ hrest⟩

omit [RandomSource σ] in
theorem dispatchFrom_exists (wf : sim.WellFormed layout) (h : sim.tally.spawned < 2 ^ 64) :
    ∃ next, dispatchFrom 0 sim = .ok next ∧ next.source = sim.source := by
  have hsize : sim.scene.memory.size = layout.size := wf.size_eq
  obtain ⟨last, hl, _⟩ := foldlM_exists
    (P := fun waiting (round : Round) => round.Sound layout.config sim.scene
      layout.config.maxStackSize.toNat sim.tally.spawned sim.tally.spawned waiting)
    (fun _ _ _ sound => by
      obtain ⟨next, hn⟩ := sound.give_exists (hsize ▸ layout.size_le) h
      exact ⟨next, hn, sound.give (hsize ▸ layout.size_lt) hn⟩) sim.threads wf.round_sound
  rw [dispatchFrom_zero, wf.config_eq, hl]
  exact ⟨_, rfl, rfl⟩

theorem victim_exists (hr : Reliable sim.source) (hpos : 0 < sim.threads.length) :
    ∃ index source, sim.victim = .ok (index, source) ∧ index < sim.threads.length ∧
      Reliable source := by
  unfold victim
  split
  next =>
    obtain ⟨index, source, hd, hlt, hs⟩ := hr.below hpos
    exact ⟨index, source, by rw [hd]; rfl, hlt, hs⟩
  next => exact ⟨_, _, rfl, oldest_lt hpos, hr⟩

theorem trim_total (wf : sim.WellFormed layout) (hr : Reliable sim.source)
    (h : sim.tally.spawned < 2 ^ 64) : ∃ next, sim.trim = .ok next ∧ Reliable next.source := by
  have hstep : ∀ a : Simulator σ, (a.WellFormed layout ∧ a.tally.spawned < 2 ^ 64 ∧ Reliable a.source) →
      a.config.maxThreadCount.toNat < a.threads.length →
      ∃ index source thread tally, a.victim = .ok (index, source) ∧
        a.threads[index]? = some thread ∧ a.tally.death .trimmed = .ok tally ∧
        (({ a with source }.bury index thread tally).WellFormed layout ∧
          ({ a with source }.bury index thread tally).tally.spawned < 2 ^ 64 ∧
          Reliable ({ a with source }.bury index thread tally).source) := by
    intro a ⟨wfa, hspawned, hra⟩ hlong
    obtain ⟨index, source, hv, hlt, hs⟩ := victim_exists hra (by omega)
    have hi := List.getElem?_eq_getElem hlt
    have hbalance := wfa.balance
    obtain ⟨tally, ht⟩ := a.tally.death_exists .trimmed (by omega)
    have buried := bury_phase (with_source_phase source wfa).wellFormed hi ht
    exact ⟨index, source, _, tally, hv, hi, ht, buried.wellFormed,
      by rw [buried.spawned_eq]; exact hspawned, hs⟩
  obtain ⟨next, hn, _, _, hs⟩ := trim_exists hstep ⟨wf, h, hr⟩
  exact ⟨next, hn, hs⟩

omit [RandomSource σ] in
theorem highlight_exists (wf : sim.WellFormed layout) :
    ∃ memory, highlight sim.memory sim.threads = .ok memory := by
  obtain ⟨memory, hm, _⟩ := foldlM_exists
    (P := fun waiting (memory : Memory) =>
      memory.shape = sim.memory.shape ∧ ∀ thread ∈ waiting, thread ∈ sim.threads)
    (fun thread rest memory ⟨hshape, hmem⟩ => by
      have hip := (wf.threads_fit thread (hmem thread (by simp))).ip_lt
      have hsize := (Memory.size_of_shape hshape).trans wf.size_eq
      obtain ⟨next, hn⟩ := highlightThread_exists (hsize ▸ hip)
      exact ⟨next, hn, (highlightThread_shape hn).trans hshape,
        fun t ht => hmem t (List.mem_cons_of_mem thread ht)⟩)
    sim.threads ⟨rfl, fun _ ht => ht⟩
  exact ⟨memory, hm⟩

/-- Repeating a part of a run has a result as long as the counters have room for it. -/
theorem repeatTimes_phase_exists {f : Simulator σ → Except Fault (Simulator σ)} {births cycles : Nat}
    (phase : ∀ a b, a.WellFormed layout → f a = .ok b → Phase layout births cycles a b)
    (step : ∀ a, a.WellFormed layout → Reliable a.source → a.tally.spawned + births < 2 ^ 64 →
      a.cycles + cycles < 2 ^ 64 → ∃ b, f a = .ok b ∧ Reliable b.source)
    (count : Nat) (wf : sim.WellFormed layout) (hr : Reliable sim.source)
    (hs : sim.tally.spawned + births * count < 2 ^ 64)
    (hc : sim.cycles + cycles * count < 2 ^ 64) :
    ∃ next, repeatTimes f count sim = .ok next ∧ Reliable next.source := by
  induction count generalizing sim with
  | zero => exact ⟨sim, rfl, hr⟩
  | succ count ih =>
    rw [Nat.mul_succ] at hs hc
    obtain ⟨middle, hm, hrm⟩ := step sim wf hr (by omega) (by omega)
    have first := phase sim middle wf hm
    have hspawned := first.spawned_eq
    have hcycles := first.cycles_eq
    obtain ⟨next, hn, hrn⟩ := ih first.wellFormed hrm (by omega) (by omega)
    exact ⟨next, by rw [repeatTimes, hm, ok_bind, hn], hrn⟩

/-- The states between the parts of a cycle. -/
theorem cycle_eq_ok (h : sim.cycle = .ok next) :
    ∃ noisy fed turned trimmed memory,
      repeatTimes addNoise sim.config.randomNoisePerCycle.toNat sim = .ok noisy ∧
      repeatTimes injectThread noisy.config.newThreadsPerCycle.toNat noisy = .ok fed ∧
      dispatchFrom 0 fed = .ok turned ∧ turned.trim = .ok trimmed ∧
      highlight trimmed.memory trimmed.threads = .ok memory ∧
      next = { trimmed with memory, cycles := trimmed.cycles + 1 } := by
  obtain ⟨noisy, hnoise, h⟩ := bind_eq_ok.mp h
  obtain ⟨fed, hfed, h⟩ := bind_eq_ok.mp h
  obtain ⟨turned, hturned, h⟩ := bind_eq_ok.mp h
  obtain ⟨trimmed, htrim, h⟩ := bind_eq_ok.mp h
  obtain ⟨memory, hmemory, h⟩ := bind_eq_ok.mp h
  obtain ⟨cycles, hcycles, h⟩ := bind_eq_ok.mp h
  cases h
  rw [addTotal_eq_ok hcycles]
  exact ⟨noisy, fed, turned, trimmed, memory, hnoise, hfed, hturned, htrim, hmemory, rfl⟩

theorem cycle_phase (wf : sim.WellFormed layout) (h : sim.cycle = .ok next) :
    Phase layout layout.config.newThreadsPerCycle.toNat 1 sim next := by
  obtain ⟨noisy, fed, turned, trimmed, memory, hnoise, hfed, hturned, htrim, hlight, rfl⟩ :=
    cycle_eq_ok h
  have noise := repeatTimes_phase (fun _ _ => addNoise_phase) wf hnoise
  have feed := repeatTimes_phase (fun _ _ => injectThread_phase) noise.wellFormed hfed
  rw [noise.wellFormed.config_eq] at feed
  have turn := dispatchFrom_phase feed.wellFormed hturned
  have trim := (trim_phase turn.wellFormed htrim).1
  have light := highlight_phase trim.wellFormed hlight
  have last : Phase layout 0 1 { trimmed with memory }
      { trimmed with memory, cycles := trimmed.cycles + 1 } :=
    ⟨⟨light.wellFormed.config_eq, light.wellFormed.shape_eq, light.wellFormed.threads_fit,
      light.wellFormed.progress_lt, light.wellFormed.balance⟩, Moves.refl _, rfl, rfl, rfl⟩
  have whole := ((((noise.trans feed).trans turn).trans trim).trans light).trans last
  simpa using whole

/-- A cycle has a result as long as no counter is full. -/
theorem cycle_exists (wf : sim.WellFormed layout) (hr : Reliable sim.source)
    (hs : sim.tally.spawned + layout.config.newThreadsPerCycle.toNat < 2 ^ 64)
    (hc : sim.cycles + 1 < 2 ^ 64) : ∃ next, sim.cycle = .ok next ∧ Reliable next.source := by
  obtain ⟨noisy, hnoise, hrn⟩ := repeatTimes_phase_exists (fun _ _ => addNoise_phase)
    (fun _ wfa hra _ _ => addNoise_exists wfa hra) sim.config.randomNoisePerCycle.toNat wf hr
    (by omega) (by omega)
  have noise := repeatTimes_phase (fun _ _ => addNoise_phase) wf hnoise
  have hnoisy : noisy.config.newThreadsPerCycle.toNat = layout.config.newThreadsPerCycle.toNat := by
    rw [noise.wellFormed.config_eq]
  have hspawned := noise.spawned_eq
  have hcycles := noise.cycles_eq
  obtain ⟨fed, hfed, hrf⟩ := repeatTimes_phase_exists (fun _ _ => injectThread_phase)
    (fun _ wfa hra hsa _ => injectThread_exists wfa hra hsa) noisy.config.newThreadsPerCycle.toNat
    noise.wellFormed hrn (by omega) (by omega)
  have feed := repeatTimes_phase (fun _ _ => injectThread_phase) noise.wellFormed hfed
  have hfspawned := feed.spawned_eq
  have hfcycles := feed.cycles_eq
  obtain ⟨turned, hturned, hsource⟩ := dispatchFrom_exists feed.wellFormed (by omega)
  have turn := dispatchFrom_phase feed.wellFormed hturned
  have htspawned := turn.spawned_eq
  have htcycles := turn.cycles_eq
  obtain ⟨trimmed, htrim, hrt⟩ := trim_total turn.wellFormed (hsource ▸ hrf) (by omega)
  have trim := (trim_phase turn.wellFormed htrim).1
  obtain ⟨memory, hlight⟩ := highlight_exists trim.wellFormed
  have hcount := trim.cycles_eq
  have hadd : addTotal trimmed.cycles 1 = .ok (trimmed.cycles + 1) := addTotal_eq (by omega)
  refine ⟨{ trimmed with memory, cycles := trimmed.cycles + 1 }, ?_, hrt⟩
  simp only [cycle, hnoise, hfed, hturned, htrim, hlight, hadd, ok_bind, pure_eq]

end Simulator

end ThreadSoup
