import Mathlib.Tactic.MkIffOfInductiveProp
import ThreadSoup.Proofs.Run

namespace ThreadSoup

/-- Highlights stay within their scale, and a lifespan is what tells a spawn cell from the others,
unless spawn cells have none at all. -/
@[mk_iff] structure Cell.Sound (spawnLifeSpan : Nat) (cell : Cell) : Prop where
  modified_le : cell.modified ≤ 2
  lifespan_le : cell.lifespan ≤ spawnLifeSpan
  byte_eq : cell.lifespan ≠ 0 → cell.byte = spawnByte
  lifespan_pos : 0 < spawnLifeSpan → cell.byte = spawnByte → 1 ≤ cell.lifespan

instance (spawnLifeSpan : Nat) : DecidablePred (Cell.Sound spawnLifeSpan) :=
  fun cell => decidable_of_iff _ (Cell.sound_iff spawnLifeSpan cell).symm

/-- A queued effect stands on the grid and has not outlived its span. -/
structure Effect.Sound (size : Nat) (effect : Effect) : Prop where
  ip_lt : effect.ip < size
  progress_le : effect.progress ≤ effect.lifeSpan

structure Scene.Sound (config : Config) (scene : Scene) : Prop where
  cells : ∀ cell ∈ scene.memory.cells, cell.Sound config.spawnLifeSpan.toNat
  effects : ∀ effect ∈ scene.effects.toList, effect.Sound scene.memory.size

/-- Whatever byte is written, its fresh lifespan belongs to it. -/
theorem Cell.sound_of_fresh {modified : Nat} (byte : UInt8) (spawnLifeSpan : Nat)
    (h : modified ≤ 2) :
    Cell.Sound spawnLifeSpan { byte, modified, lifespan := freshLifespan byte spawnLifeSpan } := by
  by_cases hb : byte = spawnByte
  · have hlife : freshLifespan byte spawnLifeSpan = spawnLifeSpan := if_pos hb
    rw [hlife]
    exact ⟨h, Nat.le_refl _, fun _ => hb, fun hpos _ => hpos⟩
  · have hlife : freshLifespan byte spawnLifeSpan = 0 := if_neg hb
    rw [hlife]
    exact ⟨h, Nat.zero_le _, fun hne => absurd rfl hne, fun _ heq => absurd heq hb⟩

theorem Cell.Sound.with_modified {cell : Cell} {spawnLifeSpan modified : Nat}
    (sound : cell.Sound spawnLifeSpan) (h : modified ≤ 2) :
    Cell.Sound spawnLifeSpan { cell with modified } :=
  ⟨h, sound.lifespan_le, sound.byte_eq, sound.lifespan_pos⟩

/-- A countdown that does not end leaves a spawn cell that can still be executed. -/
theorem Cell.Sound.count_down {cell : Cell} {spawnLifeSpan : Nat} (sound : cell.Sound spawnLifeSpan)
    (h : 2 ≤ cell.lifespan) :
    Cell.Sound spawnLifeSpan { cell with lifespan := cell.lifespan - 1 } := by
  have hle := sound.lifespan_le
  have hbyte := sound.byte_eq (by omega)
  exact ⟨sound.modified_le, by simp only; omega, fun _ => hbyte, fun _ _ => by simp only; omega⟩

theorem Cell.Sound.overwrite {cell : Cell} {spawnLifeSpan : Nat} (sound : cell.Sound spawnLifeSpan)
    (byte : UInt8) : (cell.overwrite byte spawnLifeSpan).Sound spawnLifeSpan := by
  apply Cell.sound_of_fresh
  split
  next => exact sound.modified_le
  next => decide

theorem EffectQueue.insert_sound {queue : EffectQueue} {size ip : Nat} (kind : EffectKind)
    (h : ∀ effect ∈ queue.toList, effect.Sound size) (hip : ip < size) :
    ∀ effect ∈ (queue.insert { kind, ip }).toList, effect.Sound size := by
  unfold EffectQueue.insert EffectQueue.push
  split
  next => exact h
  next =>
    intro effect hmem
    rcases List.mem_cons.mp hmem with rfl | hold
    · exact ⟨hip, Nat.zero_le _⟩
    · exact h effect hold

/-- Aging drops exactly the effects that would outlive their span. -/
theorem EffectQueue.advance_sound {queue : EffectQueue} {size : Nat} (ms : Nat)
    (h : ∀ effect ∈ queue.toList, effect.Sound size) :
    ∀ effect ∈ (queue.advance ms).toList, effect.Sound size := by
  intro effect hmem
  obtain ⟨haged, hlive⟩ := List.mem_filter.mp hmem
  obtain ⟨old, hold, rfl⟩ := List.mem_map.mp haged
  refine ⟨(h old hold).ip_lt, ?_⟩
  simpa [Effect.isExpired] using hlive

theorem mourn_sound {config : Config} {queue : EffectQueue} {thread : Thread} {size : Nat}
    (h : ∀ effect ∈ queue.toList, effect.Sound size) (hip : thread.ip < size) :
    ∀ effect ∈ (Simulator.mourn config queue thread).toList, effect.Sound size := by
  unfold Simulator.mourn
  split
  next => exact EffectQueue.insert_sound _ (EffectQueue.insert_sound _ h hip) hip
  next => exact h

theorem setOp_sound {memory next : Memory} {index spawnLifeSpan : Nat} {byte : UInt8}
    (hcells : ∀ cell ∈ memory.cells, cell.Sound spawnLifeSpan)
    (h : memory.setOp index byte spawnLifeSpan = .ok next) :
    ∀ cell ∈ next.cells, cell.Sound spawnLifeSpan := by
  obtain ⟨written, hw, h⟩ := bind_eq_ok.mp h
  cases h
  rw [Memory.markDirty_cells]
  exact Memory.put_forall hw (Cell.sound_of_fresh byte spawnLifeSpan (by decide)) hcells

theorem copyCell_sound {config : Config} {scene next : Scene} {source target : Nat}
    (sound : scene.Sound config) (h : copyCell config scene source target = .ok next) :
    next.Sound config := by
  have hsize := (Move.copy h).moves.size
  obtain ⟨origin, old, memory, _, ht, hm, hmem, heff⟩ := copyCell_eq_ok h
  have hold := sound.cells old (Memory.get_mem ht)
  have hcells := Memory.put_forall hm (hold.overwrite origin.byte) sound.cells
  refine ⟨?_, ?_⟩
  · rw [hmem]
    split
    next => exact hcells
    next => exact hcells
  · rw [hsize, heff]
    split
    next => exact EffectQueue.insert_sound _ sound.effects (Memory.get_lt ht)
    next => exact sound.effects

theorem countDown_sound {config : Config} {scene next : Scene} {origin : Nat}
    (sound : scene.Sound config) (h : countDown config scene origin = .ok next) :
    next.Sound config := by
  have hsize := (Move.countDown h).moves.size
  obtain ⟨cell, hc, h⟩ := bind_eq_ok.mp h
  split at h
  next => cases h; exact sound
  next hne =>
    split at h
    next =>
      obtain ⟨memory, hm, h⟩ := bind_eq_ok.mp h
      cases h
      refine ⟨setOp_sound sound.cells hm, ?_⟩
      rw [hsize]
      split
      next => exact EffectQueue.insert_sound _ sound.effects (Memory.get_lt hc)
      next => exact sound.effects
    next hone =>
      obtain ⟨memory, hm, h⟩ := bind_eq_ok.mp h
      cases h
      have hcell := (sound.cells cell (Memory.get_mem hc)).count_down (by omega)
      exact ⟨Memory.put_forall hm hcell sound.cells, hsize ▸ sound.effects⟩

theorem highlightThread_sound {memory next : Memory} {thread : Thread} {spawnLifeSpan : Nat}
    (hcells : ∀ cell ∈ memory.cells, cell.Sound spawnLifeSpan)
    (h : Simulator.highlightThread memory thread = .ok next) :
    ∀ cell ∈ next.cells, cell.Sound spawnLifeSpan := by
  obtain ⟨cell, _, h⟩ := bind_eq_ok.mp h
  split at h
  next => cases h; exact hcells
  next =>
    obtain ⟨written, hw, h⟩ := bind_eq_ok.mp h
    obtain ⟨old, hold, hw⟩ := bind_eq_ok.mp hw
    cases h
    rw [Memory.markDirty_cells]
    exact Memory.put_forall hw ((hcells old (Memory.get_mem hold)).with_modified (by decide)) hcells

/-- Every writer within a cycle leaves operations and lifespans consistent. -/
theorem Move.sound {config : Config} {scene next : Scene} (sound : scene.Sound config)
    (move : Move config scene next) : next.Sound config := by
  have hsize := move.moves.size
  cases move with
  | copy h => exact copyCell_sound sound h
  | countDown h => exact countDown_sound sound h
  | mourn hip => exact ⟨sound.cells, mourn_sound sound.effects hip⟩
  | noise _ h => exact ⟨setOp_sound sound.cells h, hsize ▸ sound.effects⟩
  | highlight h => exact ⟨highlightThread_sound sound.cells h, hsize ▸ sound.effects⟩

theorem Moves.sound {config : Config} {scene next : Scene} (sound : scene.Sound config)
    (moves : Moves config scene next) : next.Sound config :=
  moves.preserves (fun _ _ ha move => Move.sound ha move) sound

/-- A cell that the host puts on the grid is consistent. -/
def Command.Tidy (spawnLifeSpan : Nat) : Command → Prop
  | .replace _ cell => cell.Sound spawnLifeSpan
  | _ => True

instance (spawnLifeSpan : Nat) : DecidablePred (Command.Tidy spawnLifeSpan)
  | .replace _ cell => inferInstanceAs (Decidable (cell.Sound spawnLifeSpan))
  | .behave _ | .cycle | .spawn _ _ | .finishFrame | .clearDirty | .print | .write _ _ =>
    inferInstanceAs (Decidable True)

namespace Simulator

variable {σ : Type} {layout : Layout} {sim next : Simulator σ}

/-- Grids with the same cells but for their highlights and flags. -/
theorem with_memory_sound {memory : Memory} (sound : sim.scene.Sound layout.config)
    (hshape : memory.shape = sim.memory.shape)
    (hcells : ∀ cell ∈ memory.cells, cell.Sound layout.config.spawnLifeSpan.toNat) :
    ({ sim with memory } : Simulator σ).scene.Sound layout.config := by
  have hsize := Memory.size_of_shape hshape
  exact ⟨hcells, hsize ▸ sound.effects⟩

theorem lapse_sound {progress : Nat} (ms : UInt32) (sound : sim.scene.Sound layout.config) :
    (sim.lapse ms progress).scene.Sound layout.config := by
  unfold lapse scene
  split
  next => exact ⟨sound.cells, EffectQueue.advance_sound ms.toNat sound.effects⟩
  next => exact ⟨sound.cells, EffectQueue.advance_sound ms.toNat sound.effects⟩

theorem finishFrame_sound (sound : sim.scene.Sound layout.config) :
    sim.finishFrame.1.scene.Sound layout.config := by
  unfold finishFrame
  split
  next =>
    refine with_memory_sound sound (by simp) ?_
    intro cell hmem
    obtain ⟨old, hold, rfl⟩ := Array.mem_map.mp hmem
    have hmodified := (sound.cells old hold).modified_le
    exact (sound.cells old hold).with_modified (by omega)
  next => exact sound

theorem blank_sound (layout : Layout) (source : σ) :
    (layout.blank source).scene.Sound layout.config := by
  refine ⟨?_, by simp [Layout.blank, scene]⟩
  intro cell hmem
  rw [(Array.mem_replicate.mp hmem).2]
  exact Cell.sound_of_fresh 0 _ (by decide)

variable [RandomSource σ]

theorem create_sound {source : σ}
    (h : create layout.rows layout.columns layout.config source = .ok sim) :
    sim.scene.Sound layout.config := by
  obtain ⟨filled, hf, rfl⟩ := create_eq_ok h
  have hblank := blank_sound layout source
  have hfilled : filled.scene.Sound layout.config := by
    rcases fill_cases (blank_wellFormed layout source) hf with phase | ⟨memory, rfl, hm, wf⟩
    · exact phase.moves.sound hblank
    · have hcells := setOps_preserves
        (P := fun m => ∀ cell ∈ m.cells, cell.Sound layout.config.spawnLifeSpan.toNat)
        (fun _ _ _ _ ha hb => setOp_sound ha hb) hblank.cells hm
      exact with_memory_sound hblank
        (wf.shape_eq.trans (blank_wellFormed layout source).shape_eq.symm) hcells
  exact with_memory_sound hfilled filled.memory.markDirty_shape hfilled.cells

theorem perform_sound {command : Command} (wf : sim.WellFormed layout)
    (sound : sim.scene.Sound layout.config)
    (htidy : command.Tidy layout.config.spawnLifeSpan.toNat)
    (h : sim.perform command = .ok next) : next.scene.Sound layout.config := by
  cases command with
  | behave ms =>
    obtain ⟨⟨after, ran⟩, hb, h⟩ := bind_eq_ok.mp h
    cases h
    obtain ⟨_, _, last, phase, rfl⟩ := behave_phase wf hb
    exact lapse_sound ms (phase.moves.sound sound)
  | cycle => exact (cycle_phase wf h).moves.sound sound
  | spawn ip reversed => exact (spawnThread_phase wf h).moves.sound sound
  | finishFrame => cases h; exact finishFrame_sound sound
  | clearDirty => cases h; exact with_memory_sound sound sim.memory.clearDirty_shape sound.cells
  | print =>
    obtain ⟨text, _, h⟩ := bind_eq_ok.mp h
    cases h
    exact sound
  | write index byte =>
    obtain ⟨memory, hm, h⟩ := bind_eq_ok.mp h
    cases h
    rw [wf.config_eq] at hm
    exact with_memory_sound sound (setOp_shape hm) (setOp_sound sound.cells hm)
  | replace index cell =>
    obtain ⟨memory, hm, h⟩ := bind_eq_ok.mp h
    obtain ⟨written, hw, hm⟩ := bind_eq_ok.mp hm
    cases hm
    cases h
    refine with_memory_sound sound (written.markDirty_shape.trans (Memory.put_shape hw)) ?_
    rw [Memory.markDirty_cells]
    exact Memory.put_forall hw htidy sound.cells

theorem run_sound {commands : List Command} (wf : sim.WellFormed layout)
    (sound : sim.scene.Sound layout.config)
    (htidy : ∀ command ∈ commands, command.Tidy layout.config.spawnLifeSpan.toNat)
    (h : sim.run commands = .ok next) : next.scene.Sound layout.config :=
  run_preserves (P := fun a => a.scene.Sound layout.config)
    (fun command hmem _ _ wfa sounda => perform_sound wfa sounda (htidy command hmem)) wf sound h

/-- In every state that a host can reach, the grid keeps its size, threads and effects stand on it,
stacks stay within their capacity, operations and lifespans agree, and less than a period of time
is left over. -/
theorem reached_state_sound {rows columns : Nat} {config : Config} {source : σ}
    {start : Simulator σ} {commands : List Command}
    (hc : create rows columns config source = .ok start)
    (htidy : ∀ command ∈ commands, command.Tidy config.spawnLifeSpan.toNat)
    (hr : start.run commands = .ok sim) :
    sim.memory.shape = (rows, columns, rows * columns) ∧
    (∀ thread ∈ sim.threads, thread.Fits (rows * columns) config.maxStackSize.toNat) ∧
    (∀ cell ∈ sim.memory.cells, cell.Sound config.spawnLifeSpan.toNat) ∧
    (∀ effect ∈ sim.effects.toList, effect.Sound (rows * columns)) ∧
    sim.progress < config.msPerCycle.toNat := by
  obtain ⟨layout, rfl, rfl, rfl⟩ := create_layout hc
  have wf := (run_ledger (create_wellFormed hc).1 hr).wellFormed
  have sound := run_sound (create_wellFormed hc).1 (create_sound hc) htidy hr
  have heffects := sound.effects
  rw [show sim.scene.memory.size = layout.size from wf.size_eq] at heffects
  exact ⟨wf.shape_eq, wf.threads_fit, sound.cells, heffects, wf.progress_lt⟩

theorem scripted_state_sound :
    ∃ start sim, create 2 3 Config.screensaver (⟨[7, 0, 0x8000000000000000]⟩ : Script) = .ok start ∧
      start.run [.spawn 17 true, .write 5 spawnByte, .behave 500, .cycle, .finishFrame,
        .clearDirty] = .ok sim ∧
      sim.memory.shape = (2, 3, 6) ∧
      (∀ thread ∈ sim.threads, thread.Fits 6 Config.screensaver.maxStackSize.toNat) ∧
      (∀ cell ∈ sim.memory.cells, cell.Sound Config.screensaver.spawnLifeSpan.toNat) ∧
      (∀ effect ∈ sim.effects.toList, effect.Sound 6) ∧
      sim.progress < Config.screensaver.msPerCycle.toNat := by
  obtain ⟨start, hc, hrun⟩ := create_run_exists
    ⟨2, 3, Config.screensaver, by decide, by decide, by decide, by decide⟩
    (Script.reliable ⟨[7, 0, 0x8000000000000000]⟩ (by decide))
  obtain ⟨sim, hr, _⟩ := hrun [.spawn 17 true, .write 5 spawnByte, .behave 500, .cycle, .finishFrame,
    .clearDirty] (by decide) (by decide) (by decide)
  exact ⟨start, sim, hc, hr, reached_state_sound hc (by decide) hr⟩

end Simulator

end ThreadSoup
