import Mathlib.Logic.Relation
import ThreadSoup.Proofs.Memory
import ThreadSoup.Simulator.Cycle

namespace ThreadSoup

/-- What a copied byte leaves of the cell that it replaces. -/
def Cell.overwrite (cell : Cell) (byte : UInt8) (spawnLifeSpan : Nat) : Cell :=
  { byte
    modified := if cell.byte = byte then cell.modified else writeHighlight
    lifespan := freshLifespan byte spawnLifeSpan }

/-- A copy reads two cells and writes one. -/
theorem copyCell_eq (config : Config) (scene : Scene) (source target : Nat) :
    copyCell config scene source target = do
      let origin ← scene.memory.get source
      let old ← scene.memory.get target
      let memory ← scene.memory.put target (old.overwrite origin.byte config.spawnLifeSpan.toNat)
      return {
        memory := if old.byte = origin.byte then memory else memory.markDirty
        effects :=
          if config.useCopyEffect then scene.effects.insert { kind := .zoom, ip := target }
          else scene.effects } := by
  unfold copyCell Memory.copyOp
  cases hs : scene.memory.get source with
  | error e => rfl
  | ok origin =>
    cases ht : scene.memory.get target with
    | error e => rfl
    | ok old =>
      obtain ⟨memory, hm⟩ := Memory.put_exists
        { old with byte := origin.byte, lifespan := freshLifespan origin.byte config.spawnLifeSpan.toNat }
        (Memory.get_lt ht)
      simp only [ok_bind, hm, pure_eq]
      by_cases hb : old.byte = origin.byte
      · simp [hb, Cell.overwrite, hm]
      · -- the highlight is written over the cell that the copy has just written
        have hput := Memory.put_put (old.overwrite origin.byte config.spawnLifeSpan.toNat) hm
        simp only [Cell.overwrite, if_neg hb] at hput
        simp only [bne_iff_ne, ne_eq, hb, not_false_eq_true, if_true, if_false, Memory.setModified,
          Memory.put_get_self hm, ok_bind, hput, Cell.overwrite]

theorem copyCell_eq_ok {config : Config} {scene next : Scene} {source target : Nat}
    (h : copyCell config scene source target = .ok next) :
    ∃ origin old memory, scene.memory.get source = .ok origin ∧ scene.memory.get target = .ok old ∧
      scene.memory.put target (old.overwrite origin.byte config.spawnLifeSpan.toNat) = .ok memory ∧
      next.memory = (if old.byte = origin.byte then memory else memory.markDirty) ∧
      next.effects = if config.useCopyEffect then scene.effects.insert { kind := .zoom, ip := target }
        else scene.effects := by
  rw [copyCell_eq] at h
  obtain ⟨origin, hs, h⟩ := bind_eq_ok.mp h
  obtain ⟨old, ht, h⟩ := bind_eq_ok.mp h
  obtain ⟨memory, hm, h⟩ := bind_eq_ok.mp h
  cases h
  exact ⟨origin, old, memory, hs, ht, hm, rfl, rfl⟩

theorem copyCell_exists {scene : Scene} {source target : Nat} (config : Config)
    (hs : source < scene.memory.size) (ht : target < scene.memory.size) :
    ∃ next, copyCell config scene source target = .ok next := by
  obtain ⟨origin, ho⟩ := Memory.get_exists hs
  obtain ⟨old, hold⟩ := Memory.get_exists ht
  obtain ⟨memory, hm⟩ :=
    Memory.put_exists (old.overwrite origin.byte config.spawnLifeSpan.toNat) ht
  rw [copyCell_eq, ho, ok_bind, hold, ok_bind, hm]
  exact ⟨_, rfl⟩

theorem setOp_exists {memory : Memory} {index : Nat} (byte : UInt8) (spawnLifeSpan : Nat)
    (h : index < memory.size) : ∃ next, memory.setOp index byte spawnLifeSpan = .ok next := by
  obtain ⟨next, hn⟩ := Memory.put_exists
    { byte, modified := writeHighlight, lifespan := freshLifespan byte spawnLifeSpan } h
  unfold Memory.setOp
  rw [hn]
  exact ⟨_, rfl⟩

theorem countDown_exists {scene : Scene} {origin : Nat} (config : Config)
    (h : origin < scene.memory.size) : ∃ next, countDown config scene origin = .ok next := by
  obtain ⟨cell, hc⟩ := Memory.get_exists h
  unfold countDown
  rw [hc, ok_bind]
  split
  next => exact ⟨_, rfl⟩
  next =>
    split
    next =>
      obtain ⟨memory, hm⟩ := setOp_exists haltByte config.spawnLifeSpan.toNat h
      rw [hm]
      exact ⟨_, rfl⟩
    next =>
      obtain ⟨memory, hm⟩ := Memory.put_exists { cell with lifespan := cell.lifespan - 1 } h
      rw [hm]
      exact ⟨_, rfl⟩

theorem highlightThread_exists {memory : Memory} {thread : Thread}
    (h : thread.ip < memory.size) : ∃ next, Simulator.highlightThread memory thread = .ok next := by
  obtain ⟨cell, hc⟩ := Memory.get_exists h
  obtain ⟨next, hn⟩ := Memory.put_exists { cell with modified := threadHighlight } h
  unfold Simulator.highlightThread Memory.setModified
  rw [hc, ok_bind]
  split
  next => exact ⟨_, rfl⟩
  next => rw [ok_bind, hn]; exact ⟨_, rfl⟩

/-- All that can happen to a scene within a cycle. -/
inductive Move (config : Config) : Scene → Scene → Prop
  | copy {scene next : Scene} {source target : Nat} :
      copyCell config scene source target = .ok next → Move config scene next
  | countDown {scene next : Scene} {origin : Nat} :
      countDown config scene origin = .ok next → Move config scene next
  | mourn {scene : Scene} {thread : Thread} : thread.ip < scene.memory.size →
      Move config scene { scene with effects := Simulator.mourn config scene.effects thread }
  | noise {σ : Type} [RandomSource σ] {scene : Scene} {memory : Memory} {source rest : σ}
      {index : Nat} {byte : UInt8} : Simulator.noiseByte config source = .ok (byte, rest) →
      scene.memory.setOp index byte config.spawnLifeSpan.toNat = .ok memory →
      Move config scene { scene with memory }
  | highlight {scene : Scene} {memory : Memory} {thread : Thread} :
      Simulator.highlightThread scene.memory thread = .ok memory →
      Move config scene { scene with memory }

/-- Any number of moves, one after the other. -/
def Moves (config : Config) : Scene → Scene → Prop := Relation.ReflTransGen (Move config)

theorem Moves.refl {config : Config} (scene : Scene) : Moves config scene scene :=
  Relation.ReflTransGen.refl

theorem Moves.trans {config : Config} {a b c : Scene} (first : Moves config a b)
    (second : Moves config b c) : Moves config a c := Relation.ReflTransGen.trans first second

theorem Move.moves {config : Config} {a b : Scene} (h : Move config a b) : Moves config a b :=
  Relation.ReflTransGen.single h

/-- What one move keeps, every sequence of moves keeps. -/
theorem Moves.preserves {config : Config} {P : Scene → Prop}
    (step : ∀ a b, P a → Move config a b → P b) {a b : Scene} (h : Moves config a b)
    (ha : P a) : P b := by
  induction h with
  | refl => exact ha
  | tail _ move ih => exact step _ _ ih move

theorem setOp_shape {memory next : Memory} {index spawnLifeSpan : Nat} {byte : UInt8}
    (h : memory.setOp index byte spawnLifeSpan = .ok next) : next.shape = memory.shape := by
  obtain ⟨written, hw, h⟩ := bind_eq_ok.mp h
  cases h
  exact written.markDirty_shape.trans (Memory.put_shape hw)

theorem setOp_dirty {memory next : Memory} {index spawnLifeSpan : Nat} {byte : UInt8}
    (h : memory.setOp index byte spawnLifeSpan = .ok next) : next.dirty = true := by
  obtain ⟨written, _, h⟩ := bind_eq_ok.mp h
  cases h
  rfl

/-- What a write does to the cells. -/
theorem setOp_observed {memory next : Memory} {index spawnLifeSpan : Nat} {byte : UInt8}
    (h : memory.setOp index byte spawnLifeSpan = .ok next) :
    next.get index = .ok
        { byte, modified := writeHighlight, lifespan := freshLifespan byte spawnLifeSpan } ∧
      ∀ place, place ≠ index → next.get place = memory.get place := by
  obtain ⟨written, hput, h⟩ := bind_eq_ok.mp h
  cases h
  refine ⟨?_, ?_⟩
  · rw [Memory.markDirty_get]
    exact Memory.put_get_self hput
  · intro place hne
    rw [Memory.markDirty_get]
    exact Memory.put_get_other hne hput

theorem countDown_shape {config : Config} {scene next : Scene} {origin : Nat}
    (h : countDown config scene origin = .ok next) : next.memory.shape = scene.memory.shape := by
  obtain ⟨cell, _, h⟩ := bind_eq_ok.mp h
  split at h
  next => cases h; rfl
  next =>
    split at h
    next =>
      obtain ⟨memory, hm, h⟩ := bind_eq_ok.mp h
      cases h
      exact setOp_shape hm
    next =>
      obtain ⟨memory, hm, h⟩ := bind_eq_ok.mp h
      cases h
      exact Memory.put_shape hm

theorem highlightThread_shape {memory next : Memory} {thread : Thread}
    (h : Simulator.highlightThread memory thread = .ok next) : next.shape = memory.shape := by
  obtain ⟨cell, _, h⟩ := bind_eq_ok.mp h
  split at h
  next => cases h; rfl
  next =>
    obtain ⟨written, hw, h⟩ := bind_eq_ok.mp h
    obtain ⟨old, _, hw⟩ := bind_eq_ok.mp hw
    cases h
    exact written.markDirty_shape.trans (Memory.put_shape hw)

theorem Move.shape {config : Config} {scene next : Scene} (h : Move config scene next) :
    next.memory.shape = scene.memory.shape := by
  cases h with
  | copy h =>
    obtain ⟨origin, old, memory, _, _, hm, hmem, _⟩ := copyCell_eq_ok h
    rw [hmem]
    split
    next => exact Memory.put_shape hm
    next => exact memory.markDirty_shape.trans (Memory.put_shape hm)
  | countDown h => exact countDown_shape h
  | mourn _ => rfl
  | noise _ h => exact setOp_shape h
  | highlight h => exact highlightThread_shape h

theorem Moves.shape {config : Config} {scene next : Scene} (h : Moves config scene next) :
    next.memory.shape = scene.memory.shape :=
  h.preserves (P := fun s => s.memory.shape = scene.memory.shape)
    (fun _ _ ha move => move.shape.trans ha) rfl

theorem Moves.size {config : Config} {scene next : Scene} (h : Moves config scene next) :
    next.memory.size = scene.memory.size := Memory.size_of_shape h.shape

end ThreadSoup
