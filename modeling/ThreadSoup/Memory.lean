import ThreadSoup.Op
import ThreadSoup.Ring

namespace ThreadSoup

/-- The highlight that a write leaves on a cell. -/
def writeHighlight : Nat := 1

/-- The highlight of a cell on which a live thread stands. -/
def threadHighlight : Nat := 2

structure Cell where
  byte : UInt8 := 0
  /-- The highlight, counted down by one per drawn frame. -/
  modified : Nat := 0
  /-- How many more times a spawn cell can be executed. -/
  lifespan : Nat := 0
deriving DecidableEq

def Cell.op (cell : Cell) : Op := Op.decode cell.byte

/-- Only spawn cells have a lifespan. -/
def freshLifespan (byte : UInt8) (spawnLifeSpan : Nat) : Nat :=
  if byte = spawnByte then spawnLifeSpan else 0

/-- The grid, row by row. Its ends are joined, so positions lie on a ring. -/
structure Memory where
  rows : Nat
  columns : Nat
  cells : Array Cell
  /-- Something visible has changed since the flag was cleared. -/
  dirty : Bool
deriving DecidableEq

/-- The greatest number of eight-byte cells that can be addressed. -/
def maxCells : Nat := (signLimit - 1) / 8

namespace Memory

def create (rows columns : Nat) : Except Fault Memory :=
  if rows = 0 ∨ columns = 0 then .error .empty
  else if maxCells < rows * columns then .error .overflow
  else .ok { rows, columns, cells := Array.replicate (rows * columns) {}, dirty := true }

def size (memory : Memory) : Nat := memory.cells.size

def bytes (memory : Memory) : List UInt8 := memory.cells.toList.map Cell.byte

def get (memory : Memory) (index : Nat) : Except Fault Cell :=
  if h : index < memory.cells.size then .ok memory.cells[index] else .error .outOfRange

/-- Replaces a cell and leaves the dirty flag alone. -/
def put (memory : Memory) (index : Nat) (cell : Cell) : Except Fault Memory :=
  if h : index < memory.cells.size then
    .ok { memory with cells := memory.cells.set index cell h }
  else .error .outOfRange

def wrap (memory : Memory) (index : Nat) (delta : Int) : Except Fault Nat :=
  ThreadSoup.wrap index delta memory.size

def markDirty (memory : Memory) : Memory := { memory with dirty := true }

def clearDirty (memory : Memory) : Memory := { memory with dirty := false }

/-- Writes an operation, highlights the cell and marks the grid dirty. -/
def setOp (memory : Memory) (index : Nat) (byte : UInt8) (spawnLifeSpan : Nat) :
    Except Fault Memory := do
  let memory ← memory.put index
    { byte, modified := writeHighlight, lifespan := freshLifespan byte spawnLifeSpan }
  return memory.markDirty

/-- Writes operations into consecutive cells. -/
def setOps (memory : Memory) (start : Nat) (bytes : List UInt8) (spawnLifeSpan : Nat) :
    Except Fault Memory :=
  bytes.zipIdx.foldlM (fun memory (byte, i) => memory.setOp (start + i) byte spawnLifeSpan) memory

/-- Writes an operation without a highlight, and says whether the byte changed. The caller
marks the grid, so that a copy of equal cells stays invisible. -/
def copyOp (memory : Memory) (index : Nat) (byte : UInt8) (spawnLifeSpan : Nat) :
    Except Fault (Memory × Bool) := do
  let cell ← memory.get index
  let memory ← memory.put index
    { cell with byte, lifespan := freshLifespan byte spawnLifeSpan }
  return (memory, cell.byte != byte)

/-- Sets the highlight of a cell and leaves the dirty flag alone. -/
def setModified (memory : Memory) (index modified : Nat) : Except Fault Memory := do
  let cell ← memory.get index
  memory.put index { cell with modified }

/-- Every highlight fades by one step. -/
def fade (memory : Memory) : Memory :=
  { memory with cells := memory.cells.map fun cell => { cell with modified := cell.modified - 1 } }

end Memory

end ThreadSoup
