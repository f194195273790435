import ThreadSoup.Simulator.Noise

namespace ThreadSoup

/-- Why no simulator can be set up. -/
inductive SetupError where
  | emptyGrid (rows columns : Nat)
  | gridTooLarge (rows columns : Nat)
  | config (defect : ConfigDefect)
  | fault (cause : Fault)
deriving DecidableEq

def SetupError.message : SetupError → String
  | .emptyGrid rows columns =>
    s!"grid must have at least one row and one column, got {rows}x{columns}"
  | .gridTooLarge rows columns => s!"grid of {rows}x{columns} cells does not fit in memory"
  | .config defect => defect.message
  | .fault cause => cause.message

namespace Simulator

variable {σ : Type} [RandomSource σ]

/-- The first contents of the grid: noise or halt cells. -/
def fill (sim : Simulator σ) : Except Fault (Simulator σ) :=
  if sim.config.randomizeMemoryOnInitialize then
    (List.range sim.size).foldlM randomizeCell sim
  else sim.load 0 (List.replicate sim.size haltByte)

/-- A simulator without threads on a freshly filled grid. -/
def build (rows columns : Nat) (config : Config) (source : σ) :
    Except Fault (Simulator σ) := do
  let memory ← Memory.create rows columns
  let sim ← fill
    { config, memory, threads := [], effects := {}, progress := 0, cycles := 0, tally := {}, source }
  return sim.markDirty

/-- Sets up a simulator, or says what is wrong with the grid or the configuration. -/
def create (rows columns : Nat) (config : Config) (source : σ) :
    Except SetupError (Simulator σ) :=
  if rows = 0 ∨ columns = 0 then .error (.emptyGrid rows columns)
  else if maxCells < rows * columns then .error (.gridTooLarge rows columns)
  else
    match config.validate with
    | .error defect => .error (.config defect)
    | .ok () =>
      match build rows columns config source with
      | .error fault => .error (.fault fault)
      | .ok sim => .ok sim

end Simulator

end ThreadSoup
