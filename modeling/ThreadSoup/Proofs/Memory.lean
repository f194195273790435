import ThreadSoup.Dispatch
import ThreadSoup.Proofs.Fault
import ThreadSoup.Proofs.Ring

namespace ThreadSoup

/-- What no operation on a grid changes. -/
def Memory.shape (memory : Memory) : Nat × Nat × Nat := (memory.rows, memory.columns, memory.size)

theorem Memory.size_of_shape {memory next : Memory} (h : next.shape = memory.shape) :
    next.size = memory.size := congrArg (fun shape => shape.2.2) h

@[simp] theorem Memory.markDirty_shape (memory : Memory) : memory.markDirty.shape = memory.shape := rfl

@[simp] theorem Memory.markDirty_cells (memory : Memory) : memory.markDirty.cells = memory.cells := rfl

@[simp] theorem Memory.markDirty_get (memory : Memory) (index : Nat) :
    memory.markDirty.get index = memory.get index := rfl

@[simp] theorem Memory.clearDirty_shape (memory : Memory) :
    memory.clearDirty.shape = memory.shape := rfl

@[simp] theorem Memory.fade_shape (memory : Memory) : memory.fade.shape = memory.shape := by
  simp [Memory.shape, Memory.fade, Memory.size]

theorem Memory.get_eq_ok {memory : Memory} {index : Nat} {cell : Cell} :
    memory.get index = .ok cell ↔ memory.cells[index]? = some cell := by
  unfold Memory.get
  split
  next h => simp [h]
  next h => simp [h]

theorem Memory.get_exists {memory : Memory} {index : Nat} (h : index < memory.size) :
    ∃ cell, memory.get index = .ok cell := by
  have hi : index < memory.cells.size := h
  exact ⟨memory.cells[index], Memory.get_eq_ok.mpr (Array.getElem?_eq_getElem hi)⟩

theorem Memory.get_congr {memory other : Memory} {i j : Nat}
    (h : memory.cells[i]? = other.cells[j]?) : memory.get i = other.get j := by
  cases hj : other.get j with
  | ok cell => exact Memory.get_eq_ok.mpr (h.trans (Memory.get_eq_ok.mp hj))
  | error e =>
    unfold Memory.get at hj ⊢
    split at hj
    next => cases hj
    next hlt =>
      have hnone : memory.cells[i]? = none := by rw [h]; simpa using hlt
      rw [dif_neg (by simpa using hnone)]
      exact hj

theorem Memory.get_lt {memory : Memory} {index : Nat} {cell : Cell}
    (h : memory.get index = .ok cell) : index < memory.size :=
  (Array.getElem?_eq_some_iff.mp (Memory.get_eq_ok.mp h)).1

theorem Memory.get_mem {memory : Memory} {index : Nat} {cell : Cell}
    (h : memory.get index = .ok cell) : cell ∈ memory.cells :=
  Array.mem_of_getElem? (Memory.get_eq_ok.mp h)

theorem Memory.put_eq_ok {memory next : Memory} {index : Nat} {cell : Cell} :
    memory.put index cell = .ok next ↔
      index < memory.size ∧
        next = { memory with cells := memory.cells.setIfInBounds index cell } := by
  unfold Memory.put Memory.size
  split
  next h => simp [h, Array.setIfInBounds, eq_comm]
  next h => simp [h]

theorem Memory.put_exists {memory : Memory} {index : Nat} (cell : Cell)
    (h : index < memory.size) : ∃ next, memory.put index cell = .ok next :=
  ⟨_, Memory.put_eq_ok.mpr ⟨h, rfl⟩⟩

theorem Memory.put_shape {memory next : Memory} {index : Nat} {cell : Cell}
    (h : memory.put index cell = .ok next) : next.shape = memory.shape := by
  obtain ⟨_, rfl⟩ := Memory.put_eq_ok.mp h
  simp [Memory.shape, Memory.size]

theorem Memory.put_get_self {memory next : Memory} {index : Nat} {cell : Cell}
    (h : memory.put index cell = .ok next) : next.get index = .ok cell := by
  obtain ⟨hi, rfl⟩ := Memory.put_eq_ok.mp h
  exact Memory.get_eq_ok.mpr (Array.getElem?_setIfInBounds_self_of_lt hi)

theorem Memory.put_get_other {memory next : Memory} {index other : Nat} {cell : Cell}
    (hne : other ≠ index) (h : memory.put index cell = .ok next) :
    next.get other = memory.get other := by
  obtain ⟨_, rfl⟩ := Memory.put_eq_ok.mp h
  exact Memory.get_congr (Array.getElem?_setIfInBounds_ne (Ne.symm hne))

/-- A later write of a cell hides an earlier one. -/
theorem Memory.put_put {memory middle : Memory} {index : Nat} {first : Cell} (second : Cell)
    (h : memory.put index first = .ok middle) :
    middle.put index second = memory.put index second := by
  obtain ⟨hi, rfl⟩ := Memory.put_eq_ok.mp h
  obtain ⟨last, hlast⟩ := Memory.put_exists second hi
  obtain ⟨_, rfl⟩ := Memory.put_eq_ok.mp hlast
  rw [hlast]
  exact Memory.put_eq_ok.mpr
    ⟨by simpa [Memory.size] using hi, by simp [Array.setIfInBounds_setIfInBounds]⟩

theorem Memory.put_forall {P : Cell → Prop} {memory next : Memory} {index : Nat} {cell : Cell}
    (h : memory.put index cell = .ok next) (hcell : P cell) (hall : ∀ old ∈ memory.cells, P old) :
    ∀ c ∈ next.cells, P c := by
  obtain ⟨_, rfl⟩ := Memory.put_eq_ok.mp h
  intro c hc
  rcases Array.mem_or_eq_of_mem_setIfInBounds hc with hold | rfl
  · exact hall c hold
  · exact hcell

end ThreadSoup
