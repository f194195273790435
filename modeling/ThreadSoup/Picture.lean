import ThreadSoup.Simulator.Basic

namespace ThreadSoup

/-- A row of the tile sheet is bright positive, bright negative, dim positive, dim negative. -/
def tileColumns : Nat := 4

/-- The tile of an operation. Literals have the row of their magnitude; a cell without a
highlight is dim. -/
def tileIndex (byte : UInt8) (modified : Nat) : Nat :=
  let (row, column) : Nat × Nat := match Op.decode byte with
    | .copy => (12, 0)
    | .spawn => (14, 0)
    | .halt => (15, 0)
    | .push literal => (literal.toInt.natAbs, if literal.toInt < 0 then 1 else 0)
  row * tileColumns + column + if modified = 0 then 2 else 0

/-- How to draw an effect. -/
structure Sprite where
  tile : Nat
  /-- Opacity from zero to one. -/
  blend : Float32
  scale : Float32
  /-- The top left corner in pixels. -/
  x : Float32
  y : Float32

/-- How far a falling tile drifts and drops, in pixels. -/
def fallDrift : Float32 := 256
def fallDrop : Float32 := 192

/-- The magnification with which a zoom starts. -/
def zoomStart : Float32 := 1.5

/-- The sprite of an effect on a cell of a grid with the given number of columns. -/
def sprite (effect : Effect) (cell : Cell) (columns : Nat) (width height : Float32) :
    Except Fault Sprite :=
  if columns = 0 then .error .empty
  else
    let col := (effect.ip % columns).toUInt64.toFloat32
    let row := (effect.ip / columns).toUInt64.toFloat32
    let t := effect.fraction
    let fall (drift : Float32) : Sprite :=
      { tile := tileIndex cell.byte writeHighlight
        blend := 1 - t
        scale := 1
        x := col * width + 0.5 + drift * t
        y := row * height + 0.5 + fallDrop * t * t }
    match effect.kind with
    | .pulse => .ok
      { tile := tileIndex cell.byte cell.modified
        blend := t
        scale := 1
        x := col * width
        y := row * height }
    | .zoom =>
      let zoom := zoomStart * (1 - t / 2)
      .ok
        { tile := tileIndex cell.byte writeHighlight
          blend := 1 - t
          scale := zoom
          x := width * (col + (1 - zoom) / 2)
          y := height * (row + (1 - zoom) / 2) }
    | .fallForward => .ok (fall fallDrift)
    | .fallReverse => .ok (fall (-fallDrift))

/-- The grid as text, a line for each row. -/
def Memory.toText (memory : Memory) : String :=
  String.ofList (memory.cells.toList.zipIdx.flatMap fun (cell, i) =>
    if (i + 1) % memory.columns = 0 then [cell.op.glyph, '\n'] else [cell.op.glyph])

/-- The text of the grid, for rows that have an end and a text whose size can be addressed. -/
def Memory.print (memory : Memory) : Except Fault String :=
  if memory.columns = 0 then .error .empty
  else if signLimit ≤ memory.size + memory.rows then .error .overflow
  else .ok memory.toText

namespace Simulator

variable {σ : Type}

def toText (sim : Simulator σ) : String := sim.memory.toText

def print (sim : Simulator σ) : Except Fault String := sim.memory.print

def tiles (sim : Simulator σ) : List Nat :=
  sim.memory.cells.toList.map fun cell => tileIndex cell.byte cell.modified

/-- The sprites of all effects in drawing order. -/
def sprites (sim : Simulator σ) (width height : Float32) : Except Fault (List Sprite) :=
  sim.effects.renderOrder.mapM fun effect => do
    sprite effect (← sim.memory.get effect.ip) sim.memory.columns width height

end Simulator

end ThreadSoup
