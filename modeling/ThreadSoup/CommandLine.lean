namespace ThreadSoup

/-- What the command line asks for. -/
structure Options where
  seed : UInt64 := 0
  rows : Nat := 33
  columns : Nat := 117
  frames : Nat := 3600
  /-- Milliseconds that pass in a frame. -/
  frameMs : UInt32 := 16
  /-- The settings file. Without one the screensaver settings are used. -/
  config : Option String := none
  /-- Frames between two rows of statistics. -/
  metricsInterval : Nat := 60
  /-- Print the grid at the end. -/
  dump : Bool := false
  benchmark : Bool := false
  /-- Simulators that a benchmark runs. -/
  replicas : Nat := 1

inductive Request where
  | help
  | run (options : Options)

/-- An unsigned number below a bound, with an optional plus sign. -/
def readUnsigned (bound : Nat) (text : String) : Option Nat :=
  let digits : List Char := match text.toList with
    | '+' :: digits => digits
    | digits => digits
  let n := digits.foldl (fun n c => n * 10 + (c.toNat - '0'.toNat)) 0
  if digits ≠ [] ∧ digits.all (fun c => '0' ≤ c && c ≤ '9') ∧ n < bound then some n else none

/-- A 32-bit number, also if it is written as the negative of zero. -/
def readMilliseconds (text : String) : Option UInt32 :=
  match text.toList with
  | '-' :: digits =>
    if digits ≠ [] ∧ digits.all (· == '0') then some 0 else none
  | _ => (readUnsigned UInt32.size text).map UInt32.ofNat

namespace Options

def valueNames : List String :=
  ["seed", "rows", "columns", "frames", "frame-ms", "config", "metrics-interval", "replicas"]

def flagNames : List String := ["dump", "benchmark"]

/-- Sets the option that takes a value. -/
def setValue (options : Options) (name value : String) : Option Options :=
  match name with
  | "seed" => do return { options with seed := UInt64.ofNat (← readUnsigned UInt64.size value) }
  | "rows" => do return { options with rows := ← readUnsigned UInt64.size value }
  | "columns" => do return { options with columns := ← readUnsigned UInt64.size value }
  | "frames" => do return { options with frames := ← readUnsigned UInt64.size value }
  | "frame-ms" => do return { options with frameMs := ← readMilliseconds value }
  | "config" => if value.isEmpty then none else some { options with config := some value }
  | "metrics-interval" => do
    let interval ← readUnsigned UInt64.size value
    if interval = 0 then none else return { options with metricsInterval := interval }
  | "replicas" => do return { options with replicas := ← readUnsigned UInt64.size value }
  | _ => none

def setFlag (options : Options) (name : String) : Option Options :=
  match name with
  | "dump" => some { options with dump := true }
  | "benchmark" => some { options with benchmark := true }
  | _ => none

end Options

/-- The name of a long option and the value after its equals sign. -/
def splitOption (argument : String) : Option (String × Option String) :=
  match argument.toList with
  | '-' :: '-' :: chars =>
    let name := String.ofList (chars.takeWhile (· != '='))
    match chars.dropWhile (· != '=') with
    | _ :: value => some (name, some (String.ofList value))
    | [] => some (name, none)
  | _ => none

/-- A separate word is a value unless it looks like an option. -/
def isValueWord (argument : String) : Bool :=
  match argument.toList with
  | ['-'] => true
  | '-' :: _ => false
  | _ => true

/-- Whether a word asks for help by its first letter. -/
def isShortHelp (argument : String) : Bool :=
  match argument.toList with
  | '-' :: 'h' :: _ => true
  | _ => false

/-- Reads arguments from the left. An option may be given once, and nothing but options may be
given. Without a result the usage is wrong. -/
def readArguments (given : List String) (options : Options) (arguments : List String) :
    Option Request :=
  match arguments with
  | [] => some (.run options)
  | argument :: rest =>
    if argument = "--" then if rest.isEmpty then some (.run options) else none
    else
      match splitOption argument with
      | none => if isShortHelp argument then some .help else none
      | some (name, attached) =>
        if name ∈ given then none
        else
          match attached with
          | some value =>
            match options.setValue name value with
            | some options => readArguments (name :: given) options rest
            | none => none
          | none =>
            if name = "help" then some .help
            else if name ∈ Options.flagNames then
              match options.setFlag name with
              | some options => readArguments (name :: given) options rest
              | none => none
            else
              match rest with
              | value :: rest =>
                if isValueWord value then
                  match options.setValue name value with
                  | some options => readArguments (name :: given) options rest
                  | none => none
                else none
              | [] => none

def Request.ofArguments (arguments : List String) : Option Request := readArguments [] {} arguments

end ThreadSoup
