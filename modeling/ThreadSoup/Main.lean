import ThreadSoup.Report

namespace ThreadSoup

def usage : String :=
  "usage: threadsoup [--seed N] [--rows N] [--columns N] [--frames N] [--frame-ms N]\n" ++
  "  [--config FILE] [--metrics-interval N] [--dump] [--benchmark] [--replicas N]\n"

/-- The contents of a file, or why they cannot be read. -/
def readContents (path : String) : IO (Except ReadFailure ByteArray) := do
  try
    return .ok (← IO.FS.readBinFile path)
  catch
    | .noFileOrDirectory .. => return .error .missing
    | .inappropriateType .. => return .error .directory
    | error => return .error (.other (toString error))

/-- The time that a benchmark took, in seconds, and its rates. -/
def timing (result : Benchmark) (nanoseconds : Nat) : String :=
  let seconds := nanoseconds.toUInt64.toFloat / 1e9
  let rate (count : Nat) := fixed 1 (count.toUInt64.toFloat / seconds)
  s!"  Elapsed:           {fixed 2 seconds}s\n" ++
  s!"  Frames/sec:        {rate result.frames}\n" ++
  s!"  Cycles/sec:        {rate result.cycles}\n"

def fail (failure : RunFailure) : IO UInt32 := do
  IO.eprintln failure.message
  return 1

def runBenchmark (options : Options) (config : Config) : IO UInt32 := do
  let start ← IO.monoNanosNow
  match benchmark options config with
  | .error failure => fail failure
  | .ok result =>
    IO.eprint result.log
    IO.eprint (timing result ((← IO.monoNanosNow) - start))
    return 0

end ThreadSoup

open ThreadSoup

def main (arguments : List String) : IO UInt32 := do
  match Request.ofArguments arguments with
  | none =>
    IO.eprint usage
    return 2
  | some .help =>
    IO.print usage
    return 0
  | some (.run options) =>
    let contents ← match options.config with
      | some path => readContents path
      | none => pure (.error .missing)
    if options.benchmark then
      match options.loadConfig contents with
      | .error failure => fail failure
      | .ok config => runBenchmark options config
    else
      match options.run contents with
      | .error failure => fail failure
      | .ok printout =>
        IO.print printout.output
        IO.eprint printout.log
        return 0
