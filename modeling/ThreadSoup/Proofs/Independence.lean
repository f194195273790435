import Mathlib.Data.List.Basic
import ThreadSoup.Proofs.Footprint

namespace ThreadSoup

/-- A grid is what can be seen of it, cell by cell. -/
theorem Memory.eq_of_get {memory other : Memory} (hshape : memory.shape = other.shape)
    (hget : ∀ place, memory.get place = other.get place) (hdirty : memory.dirty = other.dirty) :
    memory = other := by
  have hcells : memory.cells = other.cells := by
    apply Array.ext_getElem?
    intro place
    rcases Nat.lt_or_ge place memory.size with hlt | hge
    · obtain ⟨cell, hcell⟩ := Memory.get_exists hlt
      rw [Memory.get_eq_ok.mp hcell, Memory.get_eq_ok.mp ((hget place).symm.trans hcell)]
    · have hge' : other.size ≤ place := Memory.size_of_shape hshape ▸ hge
      rw [Array.getElem?_eq_none hge, Array.getElem?_eq_none hge']
  cases memory
  cases other
  simp_all [Memory.shape]

/-- A queue after some effects are queued, one after the other. -/
def EffectQueue.insertAll (queue : EffectQueue) (effects : List Effect) : EffectQueue :=
  effects.foldl EffectQueue.insert queue

theorem EffectQueue.insertAll_append (queue : EffectQueue) (first second : List Effect) :
    queue.insertAll (first ++ second) = (queue.insertAll first).insertAll second :=
  List.foldl_append

theorem EffectQueue.mem_insertAll {queue : EffectQueue} {effects : List Effect} {effect : Effect} :
    effect ∈ (queue.insertAll effects).toList ↔ effect ∈ queue.toList ∨ effect ∈ effects := by
  induction effects generalizing queue with
  | nil => simp [insertAll]
  | cons new effects ih =>
    have hrest : effect ∈ ((queue.insert new).insertAll effects).toList ↔ _ := ih
    rw [mem_insert] at hrest
    rw [List.mem_cons]
    exact hrest.trans (by tauto)

theorem EffectQueue.insertAll_nodup {queue : EffectQueue} (effects : List Effect)
    (h : queue.toList.Nodup) : (queue.insertAll effects).toList.Nodup := by
  induction effects generalizing queue with
  | nil => exact h
  | cons new effects ih => exact ih (insert_nodup new h)

/-- Grids that have the same cells, but for some places. -/
def Memory.EqBut (apart : List Nat) (memory other : Memory) : Prop :=
  ∀ place ∉ apart, memory.get place = other.get place

/-- The same work on two scenes `a` and `b`, which makes them `c` and `d`. It ends with the same
cells but for the places `apart`, sets the dirty flag of both or of neither, and queues the same
effects. -/
structure SameWork (apart : List Nat) (a b c d : Scene) : Prop where
  cells : Memory.EqBut apart c.memory d.memory
  dirty : ∃ set, c.memory.dirty = (a.memory.dirty || set) ∧ d.memory.dirty = (b.memory.dirty || set)
  effects : ∃ queued, c.effects = a.effects.insertAll queued ∧ d.effects = b.effects.insertAll queued

namespace SameWork

variable {config : Config} {apart : List Nat} {a b c d e f : Scene}

theorem refl (h : Memory.EqBut apart a.memory b.memory) : SameWork apart a b a b where
  cells := h
  dirty := ⟨false, by simp⟩
  effects := ⟨[], rfl, rfl⟩

theorem trans (first : SameWork apart a b c d) (second : SameWork apart c d e f) :
    SameWork apart a b e f where
  cells := second.cells
  dirty := by
    obtain ⟨set, hc, hd⟩ := first.dirty
    obtain ⟨set', he, hf⟩ := second.dirty
    exact ⟨set || set', by rw [he, hc, Bool.or_assoc], by rw [hf, hd, Bool.or_assoc]⟩
  effects := by
    obtain ⟨queued, hc, hd⟩ := first.effects
    obtain ⟨queued', he, hf⟩ := second.effects
    exact ⟨queued ++ queued', by rw [he, hc, EffectQueue.insertAll_append],
      by rw [hf, hd, EffectQueue.insertAll_append]⟩

/-- The same cell is written at the same place. -/
theorem write {place : Nat} {cell : Cell} {set : Bool} {effect : Effect} {shown : Prop}
    [Decidable shown] (hagree : Memory.EqBut apart a.memory b.memory)
    (hc : c.memory.get place = .ok cell) (hd : d.memory.get place = .ok cell)
    (hother : ∀ other, other ≠ place → c.memory.get other = a.memory.get other)
    (hother' : ∀ other, other ≠ place → d.memory.get other = b.memory.get other)
    (hdirty : c.memory.dirty = (a.memory.dirty || set))
    (hdirty' : d.memory.dirty = (b.memory.dirty || set))
    (heffects : c.effects = if shown then a.effects.insert effect else a.effects)
    (heffects' : d.effects = if shown then b.effects.insert effect else b.effects) :
    SameWork apart a b c d := by
  refine ⟨?_, ⟨set, hdirty, hdirty'⟩, ?_⟩
  · intro other hnot
    by_cases heq : other = place
    · rw [heq, hc, hd]
    · rw [hother other heq, hother' other heq]
      exact hagree other hnot
  · rw [heffects, heffects']
    split
    next => exact ⟨[effect], rfl, rfl⟩
    next => exact ⟨[], rfl, rfl⟩

theorem copyCell {source target : Nat} (hs : source ∉ apart) (ht : target ∉ apart)
    (hagree : Memory.EqBut apart a.memory b.memory)
    (ha : copyCell config a source target = .ok c) (hb : copyCell config b source target = .ok d) :
    SameWork apart a b c d := by
  obtain ⟨origin, old, horigin, hold, hself, hother, _, hdirty, heffects⟩ := copyCell_observed ha
  obtain ⟨origin', old', horigin', hold', hself', hother', _, hdirty', heffects'⟩ :=
    copyCell_observed hb
  rw [hagree source hs, horigin'] at horigin
  rw [hagree target ht, hold'] at hold
  cases horigin
  cases hold
  exact write hagree hself hself' hother hother' hdirty hdirty' heffects heffects'

theorem countDown {origin : Nat} (ho : origin ∉ apart)
    (hagree : Memory.EqBut apart a.memory b.memory)
    (ha : countDown config a origin = .ok c) (hb : countDown config b origin = .ok d) :
    SameWork apart a b c d := by
  obtain ⟨cell, hcell, hself, hother, hdirty, heffects⟩ := countDown_observed ha
  obtain ⟨cell', hcell', hself', hother', hdirty', heffects'⟩ := countDown_observed hb
  rw [hagree origin ho, hcell'] at hcell
  cases hcell
  exact write hagree hself hself' hother hother' hdirty hdirty' heffects heffects'

/-- A copy whose sources and targets lie elsewhere does the same work on both scenes. -/
theorem copyCells {source target count : Nat} {direction : Int}
    (hsize : a.memory.size ≤ maxCells) (hsame : b.memory.size = a.memory.size)
    (hs : source < a.memory.size) (ht : target < a.memory.size)
    (hdir : direction = 1 ∨ direction = -1) (hcount : count ≤ 2 ^ 31)
    (hsources : apart.Disjoint (region a.memory.size source direction count))
    (htargets : apart.Disjoint (region a.memory.size target direction count))
    (hagree : Memory.EqBut apart a.memory b.memory)
    (ha : copyCells config source target direction 0 count a = .ok c) :
    ∃ d, ThreadSoup.copyCells config source target direction 0 count b = .ok d ∧
      SameWork apart a b c d := by
  have hpos : 0 < a.memory.size := Nat.zero_lt_of_lt hs
  -- the second copy is carried along the walk of the first one
  refine (copyCells_walk (P := fun done middle => ∃ other,
      ThreadSoup.copyCells config source target direction 0 done b = .ok other ∧
        SameWork apart a b middle other)
    hsize hs ht hdir hcount ⟨b, rfl, refl hagree⟩ ?_ ha).2
  rintro done before after hdone - ⟨other, hother, same⟩ hcopy
  have hother' : other.memory.size = a.memory.size := (copyCells_moves hother).size.trans hsame
  have hsource : onRing a.memory.size (source + direction * done) ∉ apart :=
    fun hmem => hsources hmem (mem_region.mpr ⟨done, hdone, rfl⟩)
  have htarget : onRing a.memory.size (target + direction * done) ∉ apart :=
    fun hmem => htargets hmem (mem_region.mpr ⟨done, hdone, rfl⟩)
  obtain ⟨next, hnext⟩ := copyCell_exists config
    (Nat.lt_of_lt_of_eq (onRing_lt hpos (source + direction * done)) hother'.symm)
    (Nat.lt_of_lt_of_eq (onRing_lt hpos (target + direction * done)) hother'.symm)
  refine ⟨next, ?_, same.trans (copyCell hsource htarget same.cells hcopy hnext)⟩
  rw [copyCells_snoc, hother, ok_bind, Nat.zero_add,
    copyStep_eq (hother' ▸ hsize) (hother' ▸ hs) (hother' ▸ ht) hdir (by omega), hother']
  exact hnext

end SameWork

section Turns

variable {config : Config} {a b : Scene} {thread : Thread} {cell : Cell} {turn image : Turn}

/-- The outcome is decided by the cell and the stack. -/
theorem Turned.outcome_eq (turned : Turned config a thread cell turn)
    (other : Turned config b thread cell image) : image.outcome = turn.outcome := by
  cases h : turn.outcome with
  | halted => exact other.halted_iff.mpr (turned.halted_iff.mp h)
  | failed error => exact (other.failed_iff error).mpr ((turned.failed_iff error).mp h)
  | running =>
    cases h' : image.outcome with
    | running => rfl
    | halted =>
      have hhalted := turned.halted_iff.mpr (other.halted_iff.mp h')
      rw [h] at hhalted
      cases hhalted
    | failed error =>
      have hfailed := (turned.failed_iff error).mpr ((other.failed_iff error).mp h')
      rw [h] at hfailed
      cases hfailed

theorem Thread.ip_mem_reads (memory : Memory) (thread : Thread) : thread.ip ∈ thread.reads memory :=
  List.mem_cons_self

/-- What a thread writes is decided by its cell and by the size of the grid. -/
theorem Thread.writes_congr (hsame : b.memory.size = a.memory.size)
    (ha : a.memory.get thread.ip = .ok cell) (hb : b.memory.get thread.ip = .ok cell) :
    thread.writes b.memory = thread.writes a.memory := by
  unfold Thread.writes
  rw [Memory.opAt_get ha, Memory.opAt_get hb, hsame]

/-- A turn depends on no cell but those that it reads or writes. -/
theorem Turned.sameWork {apart : List Nat} (hsize : a.memory.size ≤ maxCells)
    (hsame : b.memory.size = a.memory.size) (hcell : a.memory.get thread.ip = .ok cell)
    (hreads : apart.Disjoint (thread.reads a.memory))
    (hwrites : apart.Disjoint (thread.writes a.memory))
    (hagree : Memory.EqBut apart a.memory b.memory)
    (turned : Turned config a thread cell turn) (other : Turned config b thread cell image) :
    SameWork apart a b turn.scene image.scene := by
  have hat := Memory.opAt_get hcell
  have hpos : 0 < a.memory.size := Nat.zero_lt_of_lt (Memory.get_lt hcell)
  have houtcome := turned.outcome_eq other
  cases turned with
  | @copy source target length _ _ hop hvalues hlast =>
    have hlength := length.toInt_lt
    rw [Thread.reads, hat, hop, hvalues] at hreads
    rw [Thread.writes, hat, hop, hvalues] at hwrites
    obtain ⟨d, hd, same⟩ := SameWork.copyCells hsize hsame (thread.reach_lt hpos source)
      (thread.reach_lt hpos target) thread.direction_eq (by omega)
      (fun _ hmem hregion => hreads hmem (List.mem_cons_of_mem _ hregion)) hwrites hagree hlast
    have himage := other.copies hop hvalues
    rw [hsame, hd] at himage
    cases himage
    exact same
  | spawn hop hvalues hlast =>
    rw [Thread.writes, hat, hop, hvalues] at hwrites
    have himage := other.countsDown hop (by simp [hvalues])
    exact SameWork.countDown (fun hmem => hwrites hmem (List.mem_singleton.mpr rfl)) hagree hlast
      himage
  | push hop =>
    rw [other.scene_eq (Or.inr ⟨_, hop⟩)]
    exact SameWork.refl hagree
  | copyShort | halt | spawnEmpty | pushFull =>
    rw [other.scene_eq (Or.inl (by simp [houtcome]))]
    exact SameWork.refl hagree

/-- After a turn that touches nothing of its own, a thread has the turn that it would have had at
once. -/
theorem dispatch_after {scene : Scene} {first second : Thread} {turn alone : Turn}
    (hsize : scene.memory.size ≤ maxCells) (hfirst : dispatch config scene first = .ok turn)
    (halone : dispatch config scene second = .ok alone)
    (hip : first.ip < scene.memory.size) (hip' : second.ip < scene.memory.size)
    (hreads : (first.writes scene.memory).Disjoint (second.reads scene.memory))
    (hwrites : (first.writes scene.memory).Disjoint (second.writes scene.memory)) :
    ∃ after, dispatch config turn.scene second = .ok after ∧ after.outcome = alone.outcome ∧
      after.thread = alone.thread ∧ after.scene.memory.shape = scene.memory.shape ∧
      Memory.EqBut (second.writes scene.memory) after.scene.memory turn.scene.memory ∧
      SameWork (first.writes scene.memory) scene turn.scene alone.scene after.scene := by
  obtain ⟨cell, hcell⟩ := Memory.get_exists hip
  obtain ⟨own, hown⟩ := Memory.get_exists hip'
  have hshape : turn.scene.memory.shape = scene.memory.shape := (dispatch_moves hfirst).shape
  have hsame := Memory.size_of_shape hshape
  have hagree : Memory.EqBut (first.writes scene.memory) scene.memory turn.scene.memory :=
    fun place hplace => ((dispatch_turned hsize hcell hfirst).frame hsize hcell hplace).symm
  have hown' : turn.scene.memory.get second.ip = .ok own :=
    (hagree _ fun hmem => hreads hmem (second.ip_mem_reads scene.memory)).symm.trans hown
  obtain ⟨after, hafter⟩ := dispatch_exists config (hsame ▸ hsize) (hsame ▸ hip')
  have turned := dispatch_turned hsize hown halone
  have turned' := dispatch_turned (hsame ▸ hsize) hown' hafter
  refine ⟨after, hafter, turned.outcome_eq turned', ?_, (dispatch_moves hafter).shape.trans hshape,
    ?_, turned.sameWork hsize hsame hown hreads hwrites hagree turned'⟩
  · rw [turned.thread_eq, turned'.thread_eq, hsame]
  · intro place hplace
    rw [← Thread.writes_congr hsame hown hown'] at hplace
    exact turned'.frame (hsame ▸ hsize) hown' hplace

end Turns

/-- Two threads of which neither writes what the other one reads or writes may take their turns in
either order. Each has the same outcome and is left the same, and so is the grid. The queues have
the same effects, each once, but not always in the same order. -/
theorem independent_turns_commute (config : Config) {scene : Scene} {a b : Thread}
    (hsize : scene.memory.size ≤ maxCells) (hqueue : scene.effects.toList.Nodup)
    (ha : a.ip < scene.memory.size) (hb : b.ip < scene.memory.size)
    (hread : (a.writes scene.memory).Disjoint (b.reads scene.memory))
    (hwritten : (a.writes scene.memory).Disjoint (b.writes scene.memory))
    (hread' : (b.writes scene.memory).Disjoint (a.reads scene.memory)) :
    ∃ aFirst bSecond bFirst aSecond,
      dispatch config scene a = .ok aFirst ∧ dispatch config aFirst.scene b = .ok bSecond ∧
      dispatch config scene b = .ok bFirst ∧ dispatch config bFirst.scene a = .ok aSecond ∧
      aSecond.outcome = aFirst.outcome ∧ aSecond.thread = aFirst.thread ∧
      bSecond.outcome = bFirst.outcome ∧ bSecond.thread = bFirst.thread ∧
      aSecond.scene.memory = bSecond.scene.memory ∧
      aSecond.scene.effects.toList.Nodup ∧ bSecond.scene.effects.toList.Nodup ∧
      ∀ effect, effect ∈ aSecond.scene.effects.toList ↔ effect ∈ bSecond.scene.effects.toList := by
  obtain ⟨aFirst, haFirst⟩ := dispatch_exists config hsize ha
  obtain ⟨bFirst, hbFirst⟩ := dispatch_exists config hsize hb
  obtain ⟨bSecond, hbSecond, hbOutcome, hbThread, hbShape, hbFrame, bWork⟩ :=
    dispatch_after hsize haFirst hbFirst ha hb hread hwritten
  obtain ⟨aSecond, haSecond, haOutcome, haThread, haShape, haFrame, aWork⟩ :=
    dispatch_after hsize hbFirst haFirst hb ha hread' (List.disjoint_symm hwritten)
  refine ⟨aFirst, bSecond, bFirst, aSecond, haFirst, hbSecond, hbFirst, haSecond, haOutcome, haThread,
    hbOutcome, hbThread, ?_, ?_⟩
  · refine Memory.eq_of_get (haShape.trans hbShape.symm) ?_ ?_
    · intro place
      by_cases hmem : place ∈ a.writes scene.memory
      · have hnot : place ∉ b.writes scene.memory := fun hmem' => hwritten hmem hmem'
        rw [hbFrame place hnot, aWork.cells place hnot]
      · rw [haFrame place hmem, bWork.cells place hmem]
    · obtain ⟨aSets, haDirty, haDirty'⟩ := aWork.dirty
      obtain ⟨bSets, hbDirty, hbDirty'⟩ := bWork.dirty
      rw [haDirty', hbDirty, hbDirty', haDirty, Bool.or_right_comm]
  · obtain ⟨aQueued, haQueue, haQueue'⟩ := aWork.effects
    obtain ⟨bQueued, hbQueue, hbQueue'⟩ := bWork.effects
    rw [haQueue', hbQueue, hbQueue', haQueue]
    refine ⟨EffectQueue.insertAll_nodup _ (EffectQueue.insertAll_nodup _ hqueue),
      EffectQueue.insertAll_nodup _ (EffectQueue.insertAll_nodup _ hqueue), ?_⟩
    intro effect
    simp only [EffectQueue.mem_insertAll, or_right_comm]

/-- Copies two cells from place 1 to place 4. -/
def shortCopier : Thread := { ip := 0, stack := ⟨[0, 3, 2], 4⟩, age := 0, reversed := false }

/-- Executes a spawn cell for the last time. -/
def expiring : Thread := { ip := 3, stack := ⟨[7], 4⟩, age := 9, reversed := true }

/-- A copy beside a cell that expires. What they queue lies in the order of their turns. -/
theorem copy_and_expiry_commute :
    let config : Config := { useCopyEffect := true, useSpawnExpireEffect := true }
    ∃ copied expired expired' copied', dispatch config spawnRing shortCopier = .ok copied ∧
      dispatch config copied.scene expiring = .ok expired ∧
      dispatch config spawnRing expiring = .ok expired' ∧
      dispatch config expired'.scene shortCopier = .ok copied' ∧
      copied'.scene.memory = expired.scene.memory ∧
      expired.scene.effects.toList = [⟨.zoom, 3, 0⟩, ⟨.zoom, 5, 0⟩, ⟨.zoom, 4, 0⟩] ∧
      copied'.scene.effects.toList = [⟨.zoom, 5, 0⟩, ⟨.zoom, 3, 0⟩, ⟨.zoom, 4, 0⟩] := by
  intro config
  obtain ⟨copied, expired, expired', copied', hcopied, hexpired, hexpired', hcopied', _, _, _, _,
    hmemory, _⟩ := independent_turns_commute config (show spawnRing.memory.size ≤ maxCells by decide)
      (show spawnRing.effects.toList.Nodup by decide)
      (show shortCopier.ip < spawnRing.memory.size by decide)
      (show expiring.ip < spawnRing.memory.size by decide)
      (List.disjoint_left.mpr (by decide)) (List.disjoint_left.mpr (by decide))
      (List.disjoint_left.mpr (by decide))
  have hone : (dispatch config spawnRing shortCopier >>= fun turn =>
      dispatch config turn.scene expiring).map (fun turn => turn.scene.effects.toList) =
        .ok [⟨.zoom, 3, 0⟩, ⟨.zoom, 5, 0⟩, ⟨.zoom, 4, 0⟩] := by decide +kernel
  have hother : (dispatch config spawnRing expiring >>= fun turn =>
      dispatch config turn.scene shortCopier).map (fun turn => turn.scene.effects.toList) =
        .ok [⟨.zoom, 5, 0⟩, ⟨.zoom, 3, 0⟩, ⟨.zoom, 4, 0⟩] := by decide +kernel
  rw [hcopied, ok_bind, hexpired] at hone
  rw [hexpired', ok_bind, hcopied'] at hother
  exact ⟨copied, expired, expired', copied', hcopied, hexpired, hexpired', hcopied', hmemory,
    Except.ok.inj hone, Except.ok.inj hother⟩

end ThreadSoup
