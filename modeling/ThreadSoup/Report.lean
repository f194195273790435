import ThreadSoup.Census
import ThreadSoup.CommandLine
import ThreadSoup.Generator
import ThreadSoup.Picture
import ThreadSoup.Settings
import ThreadSoup.Simulator.Setup
import ThreadSoup.Simulator.Time

namespace ThreadSoup

/-- Why a run has no report. -/
inductive RunFailure where
  | settings (path : String) (error : SettingsError)
  | setup (error : SetupError)
  | fault (cause : Fault)

def RunFailure.message : RunFailure → String
  | .settings path error =>
    s!"Error: loading settings from {path}\n\nCaused by:\n    {error.message}"
  | .setup error => "Error: " ++ error.message
  | .fault cause => "Error: " ++ cause.message

/-- The statistics of a frame. -/
structure ReportRow where
  frame : Nat
  snapshot : Snapshot

/-- What a run shows. -/
structure Report where
  frames : Nat
  rows : List ReportRow
  /-- The frames at which progress was reported. -/
  progress : List Nat
  /-- The grid at the end, if it was asked for. -/
  picture : Option String

/-- What a benchmark counts. -/
structure Benchmark where
  rows : Nat
  columns : Nat
  replicas : Nat
  frames : Nat
  cycles : Nat

/-- A run in progress, with the latest row and the latest report first. -/
structure Recording where
  sim : Simulator Generator
  rows : List ReportRow
  progress : List Nat

/-- Sets up the simulator of a run. -/
def Options.start (options : Options) (config : Config) (seed : UInt64) :
    Except RunFailure (Simulator Generator) :=
  match Simulator.create options.rows options.columns config (Generator.ofSeed seed) with
  | .ok sim => .ok sim
  | .error (.fault fault) => .error (.fault fault)
  | .error error => .error (.setup error)

/-- Plays a frame, then adds its row and its progress report if they are due. -/
def Recording.step (options : Options) (recording : Recording) (frame : Nat) :
    Except Fault Recording := do
  let (sim, _) ← recording.sim.frame options.frameMs
  let rows :=
    if frame % options.metricsInterval = 0 then
      { frame, snapshot := Snapshot.ofSimulator sim } :: recording.rows
    else recording.rows
  let progress :=
    if frame % 600 = 0 ∨ frame = options.frames then frame :: recording.progress
    else recording.progress
  return { sim, rows, progress }

/-- A fault ends a run. -/
def runFault {α : Type} : Except Fault α → Except RunFailure α
  | .ok a => .ok a
  | .error fault => .error (.fault fault)

/-- Runs a simulation frame by frame. -/
def simulate (options : Options) (config : Config) : Except RunFailure Report := do
  let sim ← options.start config options.seed
  let first : Recording :=
    { sim, rows := [{ frame := 0, snapshot := Snapshot.ofSimulator sim }], progress := [] }
  let last ← runFault ((List.range' 1 options.frames).foldlM (Recording.step options) first)
  let picture ← if options.dump then some <$> runFault last.sim.print else pure none
  return {
    frames := options.frames
    rows := last.rows.reverse
    progress := last.progress.reverse
    picture }

/-- The number of cycles that a replica runs. -/
def replicaCycles (options : Options) (config : Config) (replica : Nat) :
    Except RunFailure Nat := do
  let sim ← options.start config (options.seed + UInt64.ofNat replica)
  let (sim, _) ← runFault (sim.play options.frameMs options.frames 0)
  return sim.cycles

/-- Adds up the cycles of all replicas. -/
def benchmark (options : Options) (config : Config) : Except RunFailure Benchmark := do
  let replicas := max options.replicas 1
  let cycles ← (List.range replicas).mapM (replicaCycles options config)
  let total ← runFault (cycles.foldlM addTotal 0)
  let frames ← runFault (addTotal 0 (options.frames * replicas))
  return { rows := options.rows, columns := options.columns, replicas, frames, cycles := total }

namespace Report

def header : String := "frame," ++ Snapshot.header

/-- The statistics, a line for each row below the header. -/
def table (report : Report) : String :=
  String.join ((header :: report.rows.map fun row => s!"{row.frame},{row.snapshot.row}").map
    (· ++ "\n"))

/-- The progress reports on one line, then the grid. -/
def log (report : Report) : String :=
  String.join (report.progress.map fun frame => s!"\rframe {frame}/{report.frames}") ++ "\n" ++
    report.picture.getD ""

end Report

/-- The counts of a benchmark, a line for each. -/
def Benchmark.log (result : Benchmark) : String :=
  "Benchmark results:\n" ++
  s!"  Grid:              {result.rows}x{result.columns} ({result.rows * result.columns} cells)\n" ++
  s!"  Replicas:          {result.replicas}\n" ++
  s!"  Frames:            {result.frames}\n" ++
  s!"  Cycles:            {result.cycles}\n"

/-- The configuration of a run, given what its settings file holds. -/
def Options.loadConfig (options : Options) (contents : Except ReadFailure ByteArray) :
    Except RunFailure Config :=
  match options.config with
  | none => .ok Config.screensaver
  | some path =>
    match Config.ofFile contents with
    | .ok config => .ok config
    | .error error => .error (.settings path error)

/-- What a finished run prints on its two streams. -/
structure Printout where
  output : String
  log : String

/-- Runs what the options ask for. -/
def Options.run (options : Options) (contents : Except ReadFailure ByteArray) :
    Except RunFailure Printout := do
  let config ← options.loadConfig contents
  if options.benchmark then
    return { output := "", log := (← ThreadSoup.benchmark options config).log }
  else
    let report ← simulate options config
    return { output := report.table, log := report.log }

end ThreadSoup
