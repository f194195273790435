import ThreadSoup.Proofs.MirrorCycle

namespace ThreadSoup

/-- The grid as the next lapse of time leaves it: dirty if anything is queued. -/
def Scene.grid (scene : Scene) : Memory :=
  { scene.memory with dirty := scene.memory.dirty || !scene.effects.isEmpty }

@[simp] theorem EffectQueue.insert_isEmpty (queue : EffectQueue) (effect : Effect) :
    (queue.insert effect).isEmpty = false := by
  unfold EffectQueue.insert EffectQueue.push
  split
  next h => simpa [EffectQueue.isEmpty] using List.ne_nil_of_mem h
  next => rfl

theorem mourn_isEmpty (config : Config) (queue : EffectQueue) (thread : Thread) :
    (Simulator.mourn config queue thread).isEmpty =
      (!config.useThreadDeathEffect && queue.isEmpty) := by
  unfold Simulator.mourn
  split
  next h => simp [h]
  next h => simp [h]

/-- Scenes of the same grid differ at most in the flag and in what is queued. -/
theorem Scene.grid_cases {a b : Scene} (h : a.grid = b.grid) :
    ∃ dirty, b.memory = { a.memory with dirty } ∧
      (a.memory.dirty || !a.effects.isEmpty) = (dirty || !b.effects.isEmpty) := by
  obtain ⟨⟨rows, columns, cells, dirty⟩, effects⟩ := a
  obtain ⟨⟨rows', columns', cells', dirty'⟩, effects'⟩ := b
  simp only [Scene.grid, Memory.mk.injEq] at h
  obtain ⟨rfl, rfl, rfl, hflag⟩ := h
  exact ⟨dirty', rfl, hflag⟩

theorem put_dirty_agree (memory : Memory) (dirty : Bool) (index : Nat) (cell : Cell) :
    Agree (fun m n => n = { m with dirty } ∧ m.dirty = memory.dirty)
      (memory.put index cell) (({ memory with dirty } : Memory).put index cell) := by
  unfold Memory.put
  split
  next => exact Agree.ok ⟨rfl, rfl⟩
  next => exact Agree.error .outOfRange

theorem setModified_dirty_agree (memory : Memory) (dirty : Bool) (index modified : Nat) :
    Agree (fun m n => n = { m with dirty } ∧ m.dirty = memory.dirty)
      (memory.setModified index modified)
      (({ memory with dirty } : Memory).setModified index modified) := by
  refine (Agree.refl (memory.get index)).bind fun cell _ hc => ?_
  subst hc
  exact put_dirty_agree memory dirty index _

section Grid

variable {a b : Scene}

theorem copyCell_grid (config : Config) (source target : Nat) (h : a.grid = b.grid) :
    Agree (fun c d => c.grid = d.grid) (copyCell config a source target)
      (copyCell config b source target) := by
  obtain ⟨dirty, hm, hflag⟩ := Scene.grid_cases h
  rw [copyCell_eq, copyCell_eq, hm]
  refine (Agree.refl (a.memory.get source)).bind fun origin _ ho => ?_
  subst ho
  refine (Agree.refl (a.memory.get target)).bind fun old _ ho => ?_
  subst ho
  refine (put_dirty_agree a.memory dirty target _).bind fun m n ⟨hn, hd⟩ => ?_
  subst hn
  apply Agree.ok
  -- a changed byte or a queued effect stirs both grids, and nothing else does
  by_cases hb : old.byte = origin.byte
  · by_cases hc : config.useCopyEffect = true
    · simp [Scene.grid, hb, hc]
    · simp [Scene.grid, hb, hc, hd, hflag]
  · simp [Scene.grid, Memory.markDirty, hb]

/-- A write of the host or of noise stirs the grid whatever was queued. -/
theorem setOp_grid (index spawnLifeSpan : Nat) (byte : UInt8) (h : a.grid = b.grid) :
    Agree (fun m n => ∀ effects effects' : EffectQueue,
        (Scene.mk m effects).grid = (Scene.mk n effects').grid)
      (a.memory.setOp index byte spawnLifeSpan) (b.memory.setOp index byte spawnLifeSpan) := by
  obtain ⟨dirty, hm, _⟩ := Scene.grid_cases h
  unfold Memory.setOp
  rw [hm]
  refine (put_dirty_agree a.memory dirty index _).bind fun m n ⟨hn, _⟩ => ?_
  subst hn
  apply Agree.ok
  intro effects effects'
  simp [Scene.grid, Memory.markDirty]

theorem countDown_grid (config : Config) (origin : Nat) (h : a.grid = b.grid) :
    Agree (fun c d => c.grid = d.grid) (countDown config a origin) (countDown config b origin) := by
  obtain ⟨dirty, hm, hflag⟩ := Scene.grid_cases h
  have hget : b.memory.get origin = a.memory.get origin := by rw [hm]; rfl
  unfold countDown
  rw [hget]
  refine (Agree.refl _).bind fun cell _ hc => ?_
  subst hc
  split
  next => exact Agree.ok h
  next =>
    split
    next => exact (setOp_grid origin _ _ h).bind fun m n hmn => Agree.ok (hmn _ _)
    next =>
      rw [hm]
      refine (put_dirty_agree a.memory dirty origin _).bind fun m n ⟨hn, hd⟩ => ?_
      subst hn
      apply Agree.ok
      simp [Scene.grid, hd, hflag]

theorem mourn_grid (config : Config) (thread : Thread) (h : a.grid = b.grid) :
    ({ a with effects := Simulator.mourn config a.effects thread } : Scene).grid =
      ({ b with effects := Simulator.mourn config b.effects thread } : Scene).grid := by
  obtain ⟨dirty, hm, hflag⟩ := Scene.grid_cases h
  simp only [Scene.grid, mourn_isEmpty, hm, Memory.mk.injEq, true_and]
  cases config.useThreadDeathEffect with
  | true => simp
  | false => simpa using hflag

theorem highlightThread_grid (thread : Thread) (h : a.grid = b.grid) :
    Agree (fun m n => ({ a with memory := m } : Scene).grid = ({ b with memory := n } : Scene).grid)
      (Simulator.highlightThread a.memory thread) (Simulator.highlightThread b.memory thread) := by
  obtain ⟨dirty, hm, hflag⟩ := Scene.grid_cases h
  have hget : b.memory.get thread.ip = a.memory.get thread.ip := by rw [hm]; rfl
  unfold Simulator.highlightThread
  rw [hget]
  refine (Agree.refl _).bind fun cell _ hc => ?_
  subst hc
  split
  next => exact Agree.ok h
  next =>
    rw [hm]
    refine (setModified_dirty_agree a.memory dirty thread.ip _).bind fun m n ⟨hn, _⟩ => ?_
    subst hn
    apply Agree.ok
    simp [Scene.grid, Memory.markDirty]

end Grid

/-- What is queued, and whether the flag is up already, does not matter to a cycle. -/
def queueMirror (config : Config) : Mirror config config where
  place := Eq
  alike a b := a.grid = b.grid
  rules_eq := rfl
  wrap := by
    rintro a b i _ delta h rfl _ _
    obtain ⟨dirty, hm, _⟩ := Scene.grid_cases h
    rw [hm]
    exact Agree.refl _
  get := by
    rintro a b i _ h rfl
    obtain ⟨dirty, hm, _⟩ := Scene.grid_cases h
    rw [hm]
    exact (Agree.refl (a.memory.get i)).mono fun c d _ _ hcd => by rw [hcd]
  copy := by
    rintro a b i _ k _ h rfl rfl
    exact copyCell_grid config i k h
  countDown := by
    rintro a b i _ h rfl
    exact countDown_grid config i h
  mourn := by
    intro a b thread image h ht
    rw [← ht.eq]
    exact mourn_grid config thread h
  highlight := by
    intro a b thread image h ht
    rw [← ht.eq]
    exact highlightThread_grid thread h

theorem queueMirror_still (config : Config) : (queueMirror config).Still where
  place_self _ := rfl
  size_eq := by
    intro a b h
    obtain ⟨dirty, hm, _⟩ := Scene.grid_cases h
    rw [hm]
    rfl
  write := by
    intro a b i byte h
    exact (setOp_grid i _ byte h).mono fun m n _ _ hmn => hmn _ _

end ThreadSoup
