import ThreadSoup.Proofs.MirrorCycle

namespace ThreadSoup

/-- A cell without its highlight. -/
def Cell.plain (cell : Cell) : Cell := { cell with modified := 0 }

/-- A grid without its highlights and its flag. -/
def Memory.plain (memory : Memory) : Memory :=
  { memory with cells := memory.cells.map Cell.plain, dirty := false }

def Memory.lifespans (memory : Memory) : List Nat := memory.cells.toList.map Cell.lifespan

theorem Cell.plain_eq_iff {cell other : Cell} :
    cell.plain = other.plain ↔ cell.byte = other.byte ∧ cell.lifespan = other.lifespan := by
  simp [Cell.plain]

theorem map_plain_eq_iff {cells images : List Cell} :
    cells.map Cell.plain = images.map Cell.plain ↔
      cells.map Cell.byte = images.map Cell.byte ∧
        cells.map Cell.lifespan = images.map Cell.lifespan := by
  induction cells generalizing images with
  | nil => simp
  | cons cell rest ih =>
    cases images with
    | nil => simp
    | cons image others =>
      simp only [List.map_cons, List.cons.injEq, Cell.plain_eq_iff, ih]
      exact and_and_and_comm

section Plain

variable {memory other : Memory} {cell image : Cell}

/-- What is left of a grid are its bytes and its lifespans. -/
theorem Memory.plain_eq_iff :
    memory.plain = other.plain ↔ memory.rows = other.rows ∧ memory.columns = other.columns ∧
      memory.bytes = other.bytes ∧ memory.lifespans = other.lifespans := by
  unfold Memory.plain Memory.bytes Memory.lifespans
  rw [Memory.mk.injEq, ← map_plain_eq_iff, ← Array.toList_map, ← Array.toList_map, Array.toList_inj]
  simp

@[simp] theorem Memory.markDirty_plain (memory : Memory) :
    memory.markDirty.plain = memory.plain := rfl

@[simp] theorem Memory.clearDirty_plain (memory : Memory) :
    memory.clearDirty.plain = memory.plain := rfl

@[simp] theorem Memory.fade_plain (memory : Memory) : memory.fade.plain = memory.plain := by
  simp [Memory.plain, Memory.fade, Cell.plain, Function.comp_def]

theorem Memory.size_of_plain (h : memory.plain = other.plain) : memory.size = other.size := by
  have hsize := congrArg (fun m : Memory => m.cells.size) h
  simpa [Memory.plain, Memory.size] using hsize

theorem get_plain (index : Nat) (h : memory.plain = other.plain) :
    Agree (fun c d => c.plain = d.plain) (memory.get index) (other.get index) := by
  have hsize : memory.cells.size = other.cells.size := Memory.size_of_plain h
  have hcells := congrArg (fun m : Memory => m.cells[index]?) h
  simp only [Memory.plain, Array.getElem?_map] at hcells
  unfold Memory.get
  by_cases hi : index < memory.cells.size
  · have hj : index < other.cells.size := hsize ▸ hi
    rw [dif_pos hi, dif_pos hj]
    apply Agree.ok
    simpa [hi, hj] using hcells
  · rw [dif_neg hi, dif_neg (hsize ▸ hi)]
    exact Agree.error .outOfRange

theorem put_plain (index : Nat) (h : memory.plain = other.plain)
    (hcell : cell.plain = image.plain) :
    Agree (fun m n => m.plain = n.plain) (memory.put index cell) (other.put index image) := by
  have hsize : memory.cells.size = other.cells.size := Memory.size_of_plain h
  unfold Memory.put
  by_cases hi : index < memory.cells.size
  · have hj : index < other.cells.size := hsize ▸ hi
    rw [dif_pos hi, dif_pos hj]
    apply Agree.ok
    simp only [Memory.plain, Memory.mk.injEq] at h ⊢
    simp [Array.map_set, h, hcell]
  · rw [dif_neg hi, dif_neg (hsize ▸ hi)]
    exact Agree.error .outOfRange

theorem put_self {index : Nat} (h : memory.get index = .ok cell) :
    memory.put index cell = .ok memory := by
  obtain ⟨hlt, hread⟩ := Array.getElem?_eq_some_iff.mp (Memory.get_eq_ok.mp h)
  subst hread
  unfold Memory.put
  simp [hlt]

/-- A new highlight changes nothing else. -/
theorem setModified_plain {index : Nat} (modified : Nat) (h : index < memory.size) :
    ∃ next, memory.setModified index modified = .ok next ∧ next.plain = memory.plain := by
  obtain ⟨cell, hc⟩ := Memory.get_exists h
  have hput : Agree (fun m n => m.plain = n.plain) (memory.put index { cell with modified })
      (memory.put index cell) := put_plain index rfl (Cell.plain_eq_iff.mpr ⟨rfl, rfl⟩)
  rw [put_self hc] at hput
  obtain ⟨next, hn⟩ := hput.exists_left
  rw [hn] at hput
  cases hput with
  | ok hplain =>
    refine ⟨next, ?_, hplain⟩
    unfold Memory.setModified
    rw [hc]
    exact hn

theorem highlightThread_plain {thread : Thread} (h : thread.ip < memory.size) :
    ∃ next, Simulator.highlightThread memory thread = .ok next ∧ next.plain = memory.plain := by
  obtain ⟨cell, hc⟩ := Memory.get_exists h
  obtain ⟨next, hn, hplain⟩ := setModified_plain threadHighlight h
  unfold Simulator.highlightThread
  rw [hc, ok_bind]
  split
  next => exact ⟨memory, rfl, rfl⟩
  next =>
    rw [hn]
    exact ⟨next.markDirty, rfl, hplain⟩

/-- Whether a highlight is new or not, threads leave equal grids behind. -/
theorem highlightThread_plain_agree (thread : Thread) (h : memory.plain = other.plain) :
    Agree (fun m n => m.plain = n.plain) (Simulator.highlightThread memory thread)
      (Simulator.highlightThread other thread) := by
  have hsize := Memory.size_of_plain h
  by_cases hi : thread.ip < memory.size
  · obtain ⟨m, hm, hmp⟩ := highlightThread_plain hi
    obtain ⟨n, hn, hnp⟩ := highlightThread_plain (hsize ▸ hi)
    rw [hm, hn]
    exact Agree.ok (hmp.trans (h.trans hnp.symm))
  · have hm : memory.get thread.ip = .error .outOfRange := dif_neg hi
    have hj : ¬thread.ip < other.size := hsize ▸ hi
    have hn : other.get thread.ip = .error .outOfRange := dif_neg hj
    unfold Simulator.highlightThread
    rw [hm, hn]
    exact Agree.error .outOfRange

theorem setOp_plain (index spawnLifeSpan : Nat) (byte : UInt8) (h : memory.plain = other.plain) :
    Agree (fun m n => m.plain = n.plain) (memory.setOp index byte spawnLifeSpan)
      (other.setOp index byte spawnLifeSpan) := by
  unfold Memory.setOp
  refine (put_plain index h rfl).bind fun m n hmn => ?_
  exact Agree.ok hmn

end Plain

section Rules

variable {config config' : Config} {a b : Scene}

theorem copyCell_plain (hrules : config.rules = config'.rules) (source target : Nat)
    (h : a.memory.plain = b.memory.plain) :
    Agree (fun c d => c.memory.plain = d.memory.plain) (copyCell config a source target)
      (copyCell config' b source target) := by
  have hlife : config.spawnLifeSpan = config'.spawnLifeSpan :=
    congrArg (fun c => c.spawnLifeSpan) hrules
  rw [copyCell_eq, copyCell_eq, hlife]
  refine (get_plain source h).bind fun origin origin' horigin => ?_
  refine (get_plain target h).bind fun old old' hold => ?_
  have hbyte := (Cell.plain_eq_iff.mp horigin).1
  rw [hbyte]
  refine (put_plain target h (by rfl)).bind fun m n hmn => ?_
  apply Agree.ok
  -- both branches leave the same cells
  simpa only [apply_ite Memory.plain, Memory.markDirty_plain, ite_self] using hmn

theorem countDown_plain (hrules : config.rules = config'.rules) (origin : Nat)
    (h : a.memory.plain = b.memory.plain) :
    Agree (fun c d => c.memory.plain = d.memory.plain) (countDown config a origin)
      (countDown config' b origin) := by
  have hlife : config.spawnLifeSpan = config'.spawnLifeSpan :=
    congrArg (fun c => c.spawnLifeSpan) hrules
  unfold countDown
  rw [hlife]
  refine (get_plain origin h).bind fun cell image hcell => ?_
  obtain ⟨hbyte, hlifespan⟩ := Cell.plain_eq_iff.mp hcell
  rw [← hlifespan]
  split
  next => exact Agree.ok h
  next =>
    split
    next => exact (setOp_plain origin _ haltByte h).bind fun m n hmn => Agree.ok hmn
    next =>
      refine (put_plain origin h ?_).bind fun m n hmn => Agree.ok hmn
      exact Cell.plain_eq_iff.mpr ⟨hbyte, rfl⟩

/-- What is there to be looked at does not matter to a cycle, nor does the choice of effects. -/
def plainMirror (hrules : config.rules = config'.rules) : Mirror config config' where
  place := Eq
  alike a b := a.memory.plain = b.memory.plain
  rules_eq := hrules
  wrap := by
    rintro a b i _ delta h rfl _ _
    unfold Memory.wrap
    rw [Memory.size_of_plain h]
    exact Agree.refl _
  get := by
    rintro a b i _ h rfl
    exact (get_plain i h).mono fun c d _ _ hcd => (Cell.plain_eq_iff.mp hcd).1
  copy := by
    rintro a b i _ k _ h rfl rfl
    exact copyCell_plain hrules i k h
  countDown := by
    rintro a b i _ h rfl
    exact countDown_plain hrules i h
  mourn := by
    intro a b thread image h _
    exact h
  highlight := by
    intro a b thread image h ht
    rw [← ht.eq]
    exact highlightThread_plain_agree thread h

theorem plainMirror_still (hrules : config.rules = config'.rules) : (plainMirror hrules).Still where
  place_self _ := rfl
  size_eq h := Memory.size_of_plain h
  write i byte h := setOp_plain i _ byte h

end Rules

end ThreadSoup
