import ThreadSoup.Proofs.QueueMirror
import ThreadSoup.Proofs.Run

namespace ThreadSoup

/-- What a picture shows of a cell. -/
def Cell.look (cell : Cell) : UInt8 × Nat := (cell.byte, cell.modified)

def Memory.looks (memory : Memory) : List (UInt8 × Nat) := memory.cells.toList.map Cell.look

theorem put_looks {memory next : Memory} {index : Nat} {cell old : Cell}
    (hget : memory.get index = .ok old) (hput : memory.put index cell = .ok next)
    (hlook : cell.look = old.look) : next.looks = memory.looks := by
  obtain ⟨hlt, rfl⟩ := Memory.put_eq_ok.mp hput
  have hi : index < memory.looks.length := by
    simpa [Memory.looks, Memory.size] using hlt
  have hread : memory.looks[index] = cell.look := by
    obtain ⟨_, hold⟩ := Array.getElem?_eq_some_iff.mp (Memory.get_eq_ok.mp hget)
    simp [Memory.looks, hold, hlook]
  have hset : memory.looks.set index cell.look = memory.looks := by
    rw [← hread, List.set_getElem_self]
  simpa [Memory.looks, List.map_set] using hset

theorem EffectQueue.eq_of_isEmpty {queue other : EffectQueue} (h : queue.isEmpty = true)
    (hother : other.isEmpty = true) : queue = other := by
  have hlist : queue.toList = other.toList :=
    (List.isEmpty_iff.mp h).trans (List.isEmpty_iff.mp hother).symm
  exact congrArg EffectQueue.mk hlist

theorem EffectQueue.isEmpty_of_insert_if {queue : EffectQueue} {effect : Effect} {shown : Bool}
    (h : (if shown then queue.insert effect else queue).isEmpty = true) : queue.isEmpty = true := by
  cases shown with
  | true => simp at h
  | false => exact h

theorem Memory.toText_eq (memory : Memory) :
    memory.toText = String.ofList (memory.looks.zipIdx.flatMap fun (look, i) =>
      if (i + 1) % memory.columns = 0 then [(Op.decode look.1).glyph, '\n']
      else [(Op.decode look.1).glyph]) := by
  unfold Memory.toText Memory.looks
  rw [List.zipIdx_map, List.flatMap_map]
  rfl

theorem Memory.print_congr {memory next : Memory} (hshape : next.shape = memory.shape)
    (hlooks : next.looks = memory.looks) : next.print = memory.print := by
  simp only [Memory.shape, Prod.mk.injEq] at hshape
  obtain ⟨hrows, hcolumns, hsize⟩ := hshape
  unfold Memory.print
  rw [Memory.toText_eq, Memory.toText_eq, hrows, hcolumns, hsize, hlooks]

/-- Whatever there is to see of the way from one scene to the other, the flag tells or the queue
still holds. -/
structure Scene.Noted (scene next : Scene) : Prop where
  dirty : scene.memory.dirty = true → next.memory.dirty = true
  looks : next.memory.dirty = false → next.memory.looks = scene.memory.looks
  queue : next.effects.isEmpty = true → scene.effects.isEmpty = true

namespace Scene.Noted

variable {a b c : Scene}

theorem refl (scene : Scene) : scene.Noted scene := ⟨id, fun _ => rfl, id⟩

theorem clean (h : a.Noted b) (hb : b.memory.dirty = false) : a.memory.dirty = false := by
  by_contra ha
  have := h.dirty (by simpa using ha)
  simp [this] at hb

theorem trans (first : a.Noted b) (second : b.Noted c) : a.Noted c where
  dirty := second.dirty ∘ first.dirty
  looks hc := (second.looks hc).trans (first.looks (second.clean hc))
  queue := first.queue ∘ second.queue

/-- A raised flag excuses any change of the grid. -/
theorem of_dirty (hdirty : b.memory.dirty = true)
    (hqueue : b.effects.isEmpty = true → a.effects.isEmpty = true) : a.Noted b :=
  ⟨fun _ => hdirty, fun hb => by simp [hdirty] at hb, hqueue⟩

theorem of_looks (hdirty : b.memory.dirty = a.memory.dirty)
    (hlooks : b.memory.looks = a.memory.looks)
    (hqueue : b.effects.isEmpty = true → a.effects.isEmpty = true) : a.Noted b :=
  ⟨fun ha => hdirty.trans ha, fun _ => hlooks, hqueue⟩

end Scene.Noted

section Moves

variable {config : Config} {scene next : Scene}

/-- A copy of an equal byte changes a lifespan at most. -/
theorem copyCell_noted {source target : Nat}
    (h : copyCell config scene source target = .ok next) : scene.Noted next := by
  obtain ⟨origin, old, memory, _, ht, hm, hmemory, heffects⟩ := copyCell_eq_ok h
  have hqueue : next.effects.isEmpty = true → scene.effects.isEmpty = true := by
    rw [heffects]
    exact EffectQueue.isEmpty_of_insert_if
  by_cases hb : old.byte = origin.byte
  · rw [if_pos hb] at hmemory
    subst hmemory
    have hlook : (old.overwrite origin.byte config.spawnLifeSpan.toNat).look = old.look := by
      simp [Cell.look, Cell.overwrite, hb]
    obtain ⟨_, hput⟩ := Memory.put_eq_ok.mp hm
    exact Scene.Noted.of_looks (by rw [hput]) (put_looks ht hm hlook) hqueue
  · rw [if_neg hb] at hmemory
    exact Scene.Noted.of_dirty (by rw [hmemory]; rfl) hqueue

theorem countDown_noted {origin : Nat} (h : countDown config scene origin = .ok next) :
    scene.Noted next := by
  obtain ⟨cell, hc, h⟩ := bind_eq_ok.mp h
  split at h
  next => cases h; exact Scene.Noted.refl scene
  next =>
    split at h
    next =>
      obtain ⟨memory, hm, h⟩ := bind_eq_ok.mp h
      cases h
      exact Scene.Noted.of_dirty (setOp_dirty hm) EffectQueue.isEmpty_of_insert_if
    next =>
      obtain ⟨memory, hm, h⟩ := bind_eq_ok.mp h
      cases h
      have hlooks := put_looks hc hm rfl
      obtain ⟨_, rfl⟩ := Memory.put_eq_ok.mp hm
      exact Scene.Noted.of_looks rfl hlooks id

theorem highlightThread_noted {memory : Memory} {thread : Thread}
    (h : Simulator.highlightThread scene.memory thread = .ok memory) :
    scene.Noted { scene with memory } := by
  obtain ⟨cell, _, h⟩ := bind_eq_ok.mp h
  split at h
  next => cases h; exact Scene.Noted.refl scene
  next =>
    obtain ⟨written, _, h⟩ := bind_eq_ok.mp h
    cases h
    exact Scene.Noted.of_dirty rfl id

theorem Move.noted (h : Move config scene next) : scene.Noted next := by
  cases h with
  | copy h => exact copyCell_noted h
  | countDown h => exact countDown_noted h
  | mourn _ =>
    refine Scene.Noted.of_looks rfl rfl ?_
    rw [mourn_isEmpty, Bool.and_eq_true]
    exact And.right
  | noise _ h => exact Scene.Noted.of_dirty (setOp_dirty h) id
  | highlight h => exact highlightThread_noted h

theorem Moves.noted (h : Moves config scene next) : scene.Noted next :=
  h.preserves (P := fun s => scene.Noted s) (fun _ _ hs move => hs.trans move.noted)
    (Scene.Noted.refl scene)

end Moves

namespace Simulator

variable {σ : Type} {layout : Layout} {sim next : Simulator σ}

theorem tiles_eq (sim : Simulator σ) :
    sim.tiles = sim.memory.looks.map fun look => tileIndex look.1 look.2 := by
  unfold tiles Memory.looks
  rw [List.map_map]
  rfl

/-- Two states between which no picture of the grid can tell. -/
structure LooksLike (next sim : Simulator σ) : Prop where
  cells : next.memory.looks = sim.memory.looks
  tiles : next.tiles = sim.tiles
  text : next.print = sim.print

theorem LooksLike.of_looks (hshape : next.memory.shape = sim.memory.shape)
    (hlooks : next.memory.looks = sim.memory.looks) : next.LooksLike sim := by
  refine ⟨hlooks, ?_, Memory.print_congr hshape hlooks⟩
  rw [tiles_eq, tiles_eq, hlooks]

theorem LooksLike.refl (sim : Simulator σ) : sim.LooksLike sim := ⟨rfl, rfl, rfl⟩

theorem LooksLike.trans {last : Simulator σ} (second : last.LooksLike next)
    (first : next.LooksLike sim) : last.LooksLike sim :=
  ⟨second.cells.trans first.cells, second.tiles.trans first.tiles, second.text.trans first.text⟩

theorem finishFrame_unseen (h : sim.finishFrame.2 = false) : sim.memory.dirty = false := by
  unfold finishFrame at h
  split at h
  next => cases h
  next hd => simpa using hd

theorem lapse_clean {ms : UInt32} {progress : Nat}
    (h : (sim.lapse ms progress).memory.dirty = false) :
    sim.lapse ms progress = { sim with progress } ∧ sim.effects.isEmpty = true := by
  unfold lapse at h ⊢
  split at h
  next hempty =>
    rw [if_pos hempty, EffectQueue.advance_of_isEmpty ms.toNat hempty]
    exact ⟨rfl, hempty⟩
  next => cases h

theorem lapse_dirty (ms : UInt32) (progress : Nat) (h : sim.memory.dirty = true) :
    (sim.lapse ms progress).memory.dirty = true := by
  unfold lapse
  split
  next => exact h
  next => rfl

variable [RandomSource σ]

/-- Time that leaves the flag down found nothing queued and has queued nothing. -/
theorem behave_clean {ms : UInt32} {ran : Nat} (wf : sim.WellFormed layout)
    (h : sim.behave ms = .ok (next, ran)) (hnext : next.memory.dirty = false) :
    sim.memory.dirty = false ∧ next.LooksLike sim ∧ sim.effects.isEmpty = true ∧
      next.effects.isEmpty = true := by
  obtain ⟨_, _, last, phase, rfl⟩ := behave_phase wf h
  obtain ⟨hlapse, hempty⟩ := lapse_clean hnext
  have hnoted : sim.scene.Noted last.scene := phase.moves.noted
  rw [hlapse] at hnext ⊢
  exact ⟨hnoted.clean hnext, LooksLike.of_looks phase.moves.shape (hnoted.looks hnext),
    hnoted.queue hempty, hempty⟩

theorem behave_dirty {ms : UInt32} {ran : Nat} (wf : sim.WellFormed layout)
    (h : sim.behave ms = .ok (next, ran)) (hsim : sim.memory.dirty = true) :
    next.memory.dirty = true := by
  obtain ⟨_, _, last, phase, rfl⟩ := behave_phase wf h
  exact lapse_dirty ms _ (phase.moves.noted.dirty hsim)

theorem behaves_clean {deltas : List UInt32} {last : Simulator σ} (wf : sim.WellFormed layout)
    (h : sim.run (deltas.map Command.behave) = .ok last) (hlast : last.memory.dirty = false) :
    sim.memory.dirty = false ∧ last.LooksLike sim ∧ last.effects = sim.effects := by
  induction deltas generalizing sim with
  | nil =>
    cases h
    exact ⟨hlast, LooksLike.refl _, rfl⟩
  | cons ms rest ih =>
    unfold run at h
    rw [List.map_cons, List.foldlM_cons] at h
    obtain ⟨middle, hm, h⟩ := bind_eq_ok.mp h
    obtain ⟨⟨_, ran⟩, hb, hm⟩ := bind_eq_ok.mp hm
    cases hm
    obtain ⟨hmiddle, hrest, heffects⟩ := ih (behave_phase wf hb).2.1 h
    obtain ⟨hsim, hfirst, hbefore, hafter⟩ := behave_clean wf hb hmiddle
    exact ⟨hsim, hrest.trans hfirst, heffects.trans (EffectQueue.eq_of_isEmpty hafter hbefore)⟩

/-- Neither cycles nor time take the flag down. As long as it stays down the grid looks the same,
and as long as time leaves it down nothing is queued, so that a frame without news shows what the
frame before it has shown. -/
theorem dirty_flag_sound {rows columns : Nat} {config : Config} {source : σ}
    {start : Simulator σ} {commands : List Command}
    (hc : create rows columns config source = .ok start) (hr : start.run commands = .ok sim) :
    (∀ next, sim.cycle = .ok next →
      (sim.memory.dirty = true → next.memory.dirty = true) ∧
      (sim.memory.dirty = false → next.memory.dirty = false → next.LooksLike sim)) ∧
    (∀ ms next ran, sim.behave ms = .ok (next, ran) →
      (sim.memory.dirty = true → next.memory.dirty = true) ∧
      (sim.memory.dirty = false → next.memory.dirty = false → next.LooksLike sim ∧
        sim.effects.isEmpty = true ∧ next.effects.isEmpty = true)) ∧
    (∀ deltas last, sim.finishFrame.1.run (List.map Command.behave deltas) = .ok last →
      last.finishFrame.2 = false →
        last.LooksLike sim.finishFrame.1 ∧ last.effects = sim.finishFrame.1.effects) := by
  obtain ⟨layout, rfl, rfl, rfl⟩ := create_layout hc
  have wf := (run_ledger (create_wellFormed hc).1 hr).wellFormed
  refine ⟨?_, ?_, ?_⟩
  · intro next h
    have moves := (cycle_phase wf h).moves
    refine ⟨moves.noted.dirty, fun _ hnext => ?_⟩
    exact LooksLike.of_looks moves.shape (moves.noted.looks hnext)
  · intro ms next ran h
    exact ⟨behave_dirty wf h, fun _ hnext => (behave_clean wf h hnext).2⟩
  · intro deltas last h hlast
    have hframe : sim.perform .finishFrame = .ok sim.finishFrame.1 := rfl
    have wf' := (perform_ledger wf hframe).wellFormed
    exact (behaves_clean wf' h (finishFrame_unseen hlast)).2

/-- A fresh grid of two halt cells. -/
def freshPair : Simulator Script :=
  { config := { msPerCycle := 10, maxStackSize := 2, maxThreadCount := 2, spawnLifeSpan := 5 }
    memory :=
      { rows := 1
        columns := 2
        cells := Array.replicate 2 { byte := haltByte, modified := 1 }
        dirty := true }
    threads := []
    effects := {}
    progress := 0
    cycles := 0
    tally := {}
    source := ⟨[]⟩ }

/-- Two threads that take turns on its lit cells and count one of them down. -/
def lull (lifespan : Nat) : Simulator Script :=
  { freshPair with
    memory :=
      { freshPair.memory with
        cells := #[{ byte := 127, modified := 2 }, { byte := spawnByte, modified := 2, lifespan }]
        dirty := false }
    threads := [⟨1, ⟨[0], 2⟩, 1, false⟩, ⟨0, ⟨[], 2⟩, 2, false⟩]
    cycles := 2
    tally := { spawned := 2 } }

theorem lull_unseen :
    create 1 2 freshPair.config freshPair.source = .ok freshPair ∧
      freshPair.run [.write 0 127, .write 1 spawnByte, .spawn 0 false, .cycle, .spawn 0 false,
        .cycle, .clearDirty] = .ok (lull 4) ∧
      (∃ next, (lull 4).cycle = .ok next ∧ next.memory = (lull 3).memory ∧
        next.LooksLike (lull 4)) ∧
      ∃ last, (lull 4).finishFrame.1.run (List.map Command.behave [7, 23]) = .ok last ∧
        last.memory = (lull 1).memory ∧ last.LooksLike (lull 4).finishFrame.1 := by
  have hc : create 1 2 freshPair.config freshPair.source = .ok freshPair := by rfl
  have hr : freshPair.run [.write 0 127, .write 1 spawnByte, .spawn 0 false, .cycle, .spawn 0 false,
      .cycle, .clearDirty] = .ok (lull 4) := by decide +kernel
  have hcycle : (lull 4).cycle = .ok
      { (lull 3) with
        threads := [⟨0, ⟨[], 2⟩, 2, false⟩, ⟨1, ⟨[0], 2⟩, 3, false⟩]
        cycles := 3 } := by decide +kernel
  have htime : (lull 4).finishFrame.1.run (List.map Command.behave [7, 23]) = .ok
      { (lull 1) with
        threads := [⟨0, ⟨[], 2⟩, 4, false⟩, ⟨1, ⟨[0], 2⟩, 5, false⟩]
        cycles := 5 } := by decide +kernel
  obtain ⟨hcycles, _, hframes⟩ := dirty_flag_sound hc hr
  exact ⟨hc, hr, ⟨_, hcycle, rfl, (hcycles _ hcycle).2 rfl rfl⟩,
    ⟨_, htime, rfl, (hframes _ _ htime rfl).1⟩⟩

end Simulator

end ThreadSoup
