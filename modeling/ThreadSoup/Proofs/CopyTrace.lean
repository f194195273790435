import ThreadSoup.Proofs.CopyPattern
import ThreadSoup.Proofs.EffectHistory

namespace ThreadSoup

/-- The places of a region of a ring in the order in which a thread walks through it. -/
def region (size start : Nat) (direction : Int) (count : Nat) : List Nat :=
  (List.range count).map fun i => onRing size (start + direction * (i : Nat))

section Region

variable {size start count place : Nat} {direction : Int}

theorem mem_region :
    place ∈ region size start direction count ↔
      ∃ i < count, onRing size (start + direction * (i : Nat)) = place := by
  simp [region]

theorem region_succ (size start : Nat) (direction : Int) (count : Nat) :
    region size start direction (count + 1) =
      region size start direction count ++ [onRing size (start + direction * count)] := by
  simp [region, List.range_succ]

theorem lt_of_mem_region (hpos : 0 < size) (h : place ∈ region size start direction count) :
    place < size := by
  obtain ⟨i, _, rfl⟩ := mem_region.mp h
  exact onRing_lt hpos _

/-- Within one lap no place comes twice. -/
theorem region_nodup (hpos : 0 < size) (hdir : direction = 1 ∨ direction = -1)
    (hcount : count ≤ size) : (region size start direction count).Nodup := by
  have hgap : onRing size (direction * ((start : Int) - start)) = 0 := by simp [onRing]
  refine List.Nodup.map_on ?_ List.nodup_range
  intro i hi j hj hmeet
  have hi := List.mem_range.mp hi
  have hj := List.mem_range.mp hj
  have heq := eq_of_meets hpos hdir hgap (by omega) (by omega) hmeet
  omega

end Region

/-- The zooms that writes at some places put in front of a queue, one for each place that has none
yet, the latest in front. -/
def newZooms (places : List Nat) (queue : EffectQueue) : List Effect :=
  ((places.eraseDups.map fun place => { kind := .zoom, ip := place }).filter
    (· ∉ queue.toList)).reverse

theorem mem_newZooms {places : List Nat} {queue : EffectQueue} {effect : Effect} :
    effect ∈ newZooms places queue ↔
      (∃ place ∈ places, { kind := .zoom, ip := place } = effect) ∧ effect ∉ queue.toList := by
  simp [newZooms]

theorem eraseDups_snoc (places : List Nat) (place : Nat) :
    (places ++ [place]).eraseDups =
      places.eraseDups ++ if place ∈ places then [] else [place] := by
  rw [List.eraseDups_append]
  by_cases hmem : place ∈ places
  · simp [List.removeAll, hmem]
  · simp [List.removeAll, hmem, List.eraseDups_cons]

theorem newZooms_of_mem {places : List Nat} {place : Nat} {queue : EffectQueue}
    (h : place ∈ places ∨ { kind := .zoom, ip := place } ∈ queue.toList) :
    newZooms (places ++ [place]) queue = newZooms places queue := by
  unfold newZooms
  rw [eraseDups_snoc]
  split
  next => rw [List.append_nil]
  next hnew =>
    have hqueued := h.resolve_left hnew
    simp [hqueued]

theorem newZooms_of_not_mem {places : List Nat} {place : Nat} {queue : EffectQueue}
    (hnew : place ∉ places) (hqueue : { kind := .zoom, ip := place } ∉ queue.toList) :
    newZooms (places ++ [place]) queue =
      { kind := .zoom, ip := place } :: newZooms places queue := by
  simp [newZooms, eraseDups_snoc, hnew, hqueue]

/-- A write queues its zoom unless the place has one, from before or from an earlier write. -/
theorem insert_newZooms {places : List Nat} {queue middle : EffectQueue}
    (h : middle.toList = newZooms places queue ++ queue.toList) (place : Nat) :
    (middle.insert { kind := .zoom, ip := place }).toList =
      newZooms (places ++ [place]) queue ++ queue.toList := by
  have hmem : { kind := .zoom, ip := place } ∈ middle.toList ↔
      place ∈ places ∨ { kind := .zoom, ip := place } ∈ queue.toList := by
    rw [h, List.mem_append, mem_newZooms]
    simp only [Effect.mk.injEq, true_and, and_true, exists_eq_right]
    tauto
  unfold EffectQueue.insert
  by_cases hqueued : { kind := .zoom, ip := place } ∈ middle.toList
  · rw [EffectQueue.push_of_mem hqueued, newZooms_of_mem (hmem.mp hqueued)]
    exact h
  · obtain ⟨hnew, hqueue⟩ := not_or.mp (mt hmem.mpr hqueued)
    rw [EffectQueue.push_of_not_mem hqueued, newZooms_of_not_mem hnew hqueue, List.cons_append, ← h]

/-- What one step of a copy does, as far as it can be seen. -/
theorem copyCell_observed {config : Config} {scene next : Scene} {source target : Nat}
    (h : copyCell config scene source target = .ok next) :
    ∃ origin old, scene.memory.get source = .ok origin ∧ scene.memory.get target = .ok old ∧
      next.memory.get target = .ok (old.overwrite origin.byte config.spawnLifeSpan.toNat) ∧
      (∀ place, place ≠ target → next.memory.get place = scene.memory.get place) ∧
      next.memory.bytes = scene.memory.bytes.set target origin.byte ∧
      next.memory.dirty = (scene.memory.dirty || decide (old.byte ≠ origin.byte)) ∧
      next.effects = if config.useCopyEffect then scene.effects.insert { kind := .zoom, ip := target }
        else scene.effects := by
  obtain ⟨origin, old, memory, hs, ht, hput, hmemory, heffects⟩ := copyCell_eq_ok h
  have hdirty : memory.dirty = scene.memory.dirty := by
    obtain ⟨_, rfl⟩ := Memory.put_eq_ok.mp hput
    rfl
  have hcells : next.memory.cells = memory.cells := by
    rw [hmemory]
    split
    next => rfl
    next => rfl
  have hget : ∀ place, next.memory.get place = memory.get place :=
    fun place => Memory.get_congr (by rw [hcells])
  obtain ⟨byte, hread, hbytes⟩ := copyCell_bytes h
  obtain rfl : origin.byte = byte := Option.some.inj ((Memory.bytes_get hs).symm.trans hread)
  refine ⟨origin, old, hs, ht, (hget target).trans (Memory.put_get_self hput), ?_, hbytes, ?_,
    heffects⟩
  · intro place hne
    exact (hget place).trans (Memory.put_get_other hne hput)
  · rw [hmemory]
    split
    next hsame => simp [hsame, hdirty]
    next hchanged => simp [hchanged, Memory.markDirty]

/-- What a copy that has written some places, one after the other, has made of a scene. Only if it
has written none of them twice can the highlights and the dirty flag be told from the bytes. -/
structure CopyLeaves (config : Config) (places : List Nat) (first last : Scene) : Prop where
  kept : ∀ place ∉ places, last.memory.get place = first.memory.get place
  fresh : ∀ place ∈ places, ∀ cell, last.memory.get place = .ok cell →
    cell.lifespan = freshLifespan cell.byte config.spawnLifeSpan.toNat
  marked : ∀ place old cell, first.memory.get place = .ok old → last.memory.get place = .ok cell →
    cell.byte ≠ old.byte → cell.modified = writeHighlight
  unmarked : places.Nodup → ∀ place old cell, first.memory.get place = .ok old →
    last.memory.get place = .ok cell → cell.byte = old.byte → cell.modified = old.modified
  dirty : places.Nodup → (last.memory.dirty = true ↔
    first.memory.dirty = true ∨ last.memory.bytes ≠ first.memory.bytes)
  effects : last.effects.toList =
    (if config.useCopyEffect then newZooms places first.effects else []) ++ first.effects.toList

namespace CopyLeaves

variable {config : Config} {places : List Nat} {first middle last : Scene} {source target : Nat}

theorem refl (config : Config) (scene : Scene) : CopyLeaves config [] scene scene where
  kept _ _ := rfl
  fresh _ h := absurd h List.not_mem_nil
  marked place old cell hold hcell hne := by
    rw [hold] at hcell
    cases hcell
    exact absurd rfl hne
  unmarked _ place old cell hold hcell _ := by
    rw [hold] at hcell
    cases hcell
    rfl
  dirty _ := by simp
  effects := by simp [newZooms]

/-- One more step of a copy. -/
theorem step (leaves : CopyLeaves config places first middle)
    (h : copyCell config middle source target = .ok last) :
    CopyLeaves config (places ++ [target]) first last := by
  obtain ⟨origin, old, _, ht, hself, hother, hbytes, hdirty, heffects⟩ := copyCell_observed h
  have hmem : ∀ place, place ≠ target → (place ∈ places ++ [target] ↔ place ∈ places) := by
    intro place hne
    rw [List.mem_append, List.mem_singleton, or_iff_left hne]
  have honce : (places ++ [target]).Nodup → places.Nodup ∧ first.memory.get target = .ok old := by
    intro hnodup
    obtain ⟨hplaces, _, hapart⟩ := List.nodup_append.mp hnodup
    have hnew : target ∉ places := fun hm => hapart target hm target (List.mem_singleton.mpr rfl) rfl
    exact ⟨hplaces, (leaves.kept target hnew).symm.trans ht⟩
  refine ⟨?_, ?_, ?_, ?_, ?_, ?_⟩
  · intro place hplace
    have hne : place ≠ target := fun heq => hplace (by simp [heq])
    rw [hother place hne]
    exact leaves.kept place (mt (hmem place hne).mpr hplace)
  · intro place hplace cell hcell
    by_cases hne : place = target
    · subst hne
      rw [hself] at hcell
      cases hcell
      rfl
    · rw [hother place hne] at hcell
      exact leaves.fresh place ((hmem place hne).mp hplace) cell hcell
  · intro place original cell horiginal hcell hchanged
    by_cases hne : place = target
    · subst hne
      rw [hself] at hcell
      cases hcell
      -- a byte that this step leaves alone may have been changed by an earlier one
      simp only [Cell.overwrite] at hchanged ⊢
      split
      next hsame => exact leaves.marked place original old horiginal ht (hsame ▸ hchanged)
      next => rfl
    · rw [hother place hne] at hcell
      exact leaves.marked place original cell horiginal hcell hchanged
  · intro hnodup place original cell horiginal hcell hsame
    obtain ⟨hplaces, hfirst⟩ := honce hnodup
    by_cases hne : place = target
    · subst hne
      rw [hfirst] at horiginal
      cases horiginal
      rw [hself] at hcell
      cases hcell
      exact if_pos hsame.symm
    · rw [hother place hne] at hcell
      exact leaves.unmarked hplaces place original cell horiginal hcell hsame
  · intro hnodup
    obtain ⟨hplaces, hfirst⟩ := honce hnodup
    have hbefore := leaves.dirty hplaces
    by_cases hsame : old.byte = origin.byte
    · have hkept : last.memory.bytes = middle.memory.bytes := by
        obtain ⟨_, hread⟩ := List.getElem?_eq_some_iff.mp (Memory.bytes_get ht)
        rw [hbytes, ← hsame, ← hread, List.set_getElem_self]
      rw [hdirty, hkept, decide_eq_false (not_not_intro hsame), Bool.or_false]
      exact hbefore
    · have hchanged : last.memory.bytes ≠ first.memory.bytes := by
        intro heq
        have hnew := Memory.bytes_get hself
        rw [heq, Memory.bytes_get hfirst] at hnew
        exact hsame (Option.some.inj hnew)
      rw [hdirty, decide_eq_true hsame, Bool.or_true]
      exact ⟨fun _ => Or.inr hchanged, fun _ => rfl⟩
  · rw [heffects]
    have hqueue := leaves.effects
    cases hshown : config.useCopyEffect with
    | true =>
      rw [hshown] at hqueue
      exact insert_newZooms hqueue target
    | false =>
      rw [hshown] at hqueue
      exact hqueue

end CopyLeaves

theorem copyCells_leaves {config : Config} {scene last : Scene} {source target count : Nat}
    {direction : Int} (hsize : scene.memory.size ≤ maxCells) (hs : source < scene.memory.size)
    (ht : target < scene.memory.size) (hdir : direction = 1 ∨ direction = -1)
    (hcount : count ≤ 2 ^ 31)
    (h : copyCells config source target direction 0 count scene = .ok last) :
    CopyLeaves config (region scene.memory.size target direction count) scene last := by
  refine (copyCells_walk (P := fun done middle => CopyLeaves config
    (region scene.memory.size target direction done) scene middle) hsize hs ht hdir hcount
    (CopyLeaves.refl config scene) ?_ h).2
  intro done before after _ _ leaves hcopy
  rw [region_succ]
  exact leaves.step hcopy

/-- A copy leaves alone what it does not write. Every cell that it writes has the lifespan of its
new operation, and every cell with a new operation is highlighted. A copy of at most one lap
highlights no other cell and makes the grid dirty only by a new operation. It queues one zoom for
each place that it writes and that has no new zoom yet, or none at all. -/
theorem copy_leaves_behind (config : Config) {scene : Scene} {thread : Thread} {cell : Cell}
    {sourceOffset targetOffset length : Int32} {rest : List Int32}
    (hsize : scene.memory.size ≤ maxCells) (hcell : scene.memory.get thread.ip = .ok cell)
    (hbyte : cell.byte = copyByte)
    (hstack : thread.stack.values = sourceOffset :: targetOffset :: length :: rest) :
    let size := scene.memory.size
    let count := length.toInt.toNat
    let written := region size (thread.reach size targetOffset) thread.direction count
    ∃ turn, dispatch config scene thread = .ok turn ∧ turn.outcome = .running ∧
      turn.scene.memory.size = size ∧
      (∀ place ∉ written, turn.scene.memory.get place = scene.memory.get place) ∧
      (∀ place ∈ written, ∃ new, turn.scene.memory.get place = .ok new ∧
        new.lifespan = if new.byte = spawnByte then config.spawnLifeSpan.toNat else 0) ∧
      (∀ place old new, scene.memory.get place = .ok old →
        turn.scene.memory.get place = .ok new → new.byte ≠ old.byte → new.modified = 1) ∧
      (count ≤ size →
        (∀ place ∈ written, ∃ old new, scene.memory.get place = .ok old ∧
          turn.scene.memory.get place = .ok new ∧
          new.modified = if new.byte = old.byte then old.modified else 1) ∧
        (turn.scene.memory.dirty = true ↔
          scene.memory.dirty = true ∨ turn.scene.memory.bytes ≠ scene.memory.bytes)) ∧
      turn.scene.effects.toList =
        (if config.useCopyEffect then
          ((written.eraseDups.map fun place => { kind := .zoom, ip := place }).filter
            (· ∉ scene.effects.toList)).reverse
        else []) ++ scene.effects.toList := by
  intro size count written
  have hpos : 0 < size := Nat.zero_lt_of_lt (Memory.get_lt hcell)
  have hs : thread.reach size sourceOffset < size := thread.reach_lt hpos sourceOffset
  have ht : thread.reach size targetOffset < size := thread.reach_lt hpos targetOffset
  have hdir := thread.direction_eq
  have hcount : count ≤ 2 ^ 31 := by
    have := length.toInt_lt
    omega
  obtain ⟨last, hlast⟩ := copyCells_exists config hsize hs ht hdir (by omega : 0 + count ≤ 2 ^ 31)
  have hturn := dispatch_copy_eq config hsize hcell hbyte hstack
  rw [hlast, ok_bind] at hturn
  have leaves := copyCells_leaves hsize hs ht hdir hcount hlast
  have hsame : last.memory.size = size := (copyCells_moves hlast).size
  have hinside : ∀ place ∈ written, ∃ old new, scene.memory.get place = .ok old ∧
      last.memory.get place = .ok new := by
    intro place hplace
    have hlt := lt_of_mem_region hpos hplace
    obtain ⟨old, hold⟩ := Memory.get_exists hlt
    obtain ⟨new, hnew⟩ := Memory.get_exists (hsame ▸ hlt)
    exact ⟨old, new, hold, hnew⟩
  refine ⟨_, hturn, rfl, hsame, leaves.kept, ?_, leaves.marked, ?_, leaves.effects⟩
  · intro place hplace
    obtain ⟨_, new, _, hnew⟩ := hinside place hplace
    exact ⟨new, hnew, leaves.fresh place hplace new hnew⟩
  · intro hlap
    have hnodup : written.Nodup := region_nodup hpos hdir hlap
    refine ⟨?_, leaves.dirty hnodup⟩
    intro place hplace
    obtain ⟨old, new, hold, hnew⟩ := hinside place hplace
    refine ⟨old, new, hold, hnew, ?_⟩
    split
    next hkept => exact leaves.unmarked hnodup place old new hold hnew hkept
    next hchanged => exact leaves.marked place old new hold hnew hchanged

/-- A ring of six cells with a copy cell at place 0 and a zoom that is already queued. -/
def spawnRing : Scene :=
  { memory :=
      { rows := 2
        columns := 3
        cells := #[{ byte := copyByte }, { byte := spawnByte, lifespan := 5 }, { byte := 10 },
          { byte := spawnByte, modified := 2, lifespan := 1 }, { byte := 10 }, { byte := 11 }]
        dirty := false }
    effects := ⟨[{ kind := .zoom, ip := 4 }]⟩ }

/-- Copies three cells from place 1 to place 3. -/
def copier : Thread := { ip := 0, stack := ⟨[0, 2, 3], 4⟩, age := 0, reversed := false }

/-- The first step renews a lifespan, the second one changes nothing, and the third one copies what
the first one has written. In the copy of seven steps on five cells every place has one zoom. -/
theorem copy_leaves_spawnRing :
    (∃ turn cell, dispatch { useCopyEffect := true, spawnLifeSpan := 5 } spawnRing copier =
        .ok turn ∧
      turn.scene.memory.get 3 = .ok cell ∧ cell.modified = 2 ∧ cell.lifespan = 5 ∧
      turn.scene.memory.dirty = true ∧
      turn.scene.effects.toList = [⟨.zoom, 5, 0⟩, ⟨.zoom, 3, 0⟩, ⟨.zoom, 4, 0⟩]) ∧
    ∃ turn, dispatch { useCopyEffect := true } smallRing lapping = .ok turn ∧
      turn.scene.effects.toList = [⟨.zoom, 1, 0⟩, ⟨.zoom, 2, 0⟩, ⟨.zoom, 3, 0⟩, ⟨.zoom, 4, 0⟩,
        ⟨.zoom, 0, 0⟩] := by
  constructor
  · obtain ⟨turn, hturn, _, _, _, hfresh, _, hlap, heffects⟩ := copy_leaves_behind
      { useCopyEffect := true, spawnLifeSpan := 5 }
      (show spawnRing.memory.size ≤ maxCells by decide)
      (show spawnRing.memory.get copier.ip = .ok { byte := copyByte } from rfl) rfl rfl
    obtain ⟨hcells, hdirty⟩ := hlap (by decide)
    have hrun : (dispatch { useCopyEffect := true, spawnLifeSpan := 5 } spawnRing copier).map
        (fun turn => turn.scene.memory.bytes) = .ok [1, 3, 10, 3, 10, 3] := rfl
    rw [hturn] at hrun
    have hbytes : turn.scene.memory.bytes = [1, 3, 10, 3, 10, 3] := Except.ok.inj hrun
    obtain ⟨old, new, hold, hnew, hmodified⟩ := hcells 3 (by decide)
    obtain ⟨cell, hcell, hlifespan⟩ := hfresh 3 (by decide)
    obtain rfl := Except.ok.inj (hcell.symm.trans hnew)
    have hbyte : cell.byte = spawnByte := by
      have hread := Memory.bytes_get hcell
      rw [hbytes] at hread
      exact (Option.some.inj hread).symm
    obtain rfl : { byte := spawnByte, modified := 2, lifespan := 1 } = old := Except.ok.inj hold
    refine ⟨turn, cell, hturn, hcell, ?_, ?_, ?_, heffects.trans (by decide +kernel)⟩
    · rw [hmodified, if_pos hbyte]
    · rw [hlifespan, if_pos hbyte]
      rfl
    · rw [hdirty, hbytes]
      decide
  · obtain ⟨turn, hturn, _, _, _, _, _, _, heffects⟩ := copy_leaves_behind { useCopyEffect := true }
      (show smallRing.memory.size ≤ maxCells by decide)
      (show smallRing.memory.get lapping.ip = .ok { byte := copyByte } from rfl) rfl rfl
    exact ⟨turn, hturn, heffects.trans (by decide +kernel)⟩

end ThreadSoup
