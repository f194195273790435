namespace ThreadSoup

/-- Everything that can be tuned. -/
structure Config where
  /-- The length of a cycle in milliseconds. -/
  msPerCycle : UInt32 := 0
  maxStackSize : UInt32 := 0
  /-- The population that a cycle ends with at most. -/
  maxThreadCount : UInt32 := 0
  /-- Cells overwritten by noise in a cycle. -/
  randomNoisePerCycle : UInt32 := 0
  /-- Threads started in a cycle. -/
  newThreadsPerCycle : UInt32 := 0
  /-- Executions that a fresh spawn cell survives. -/
  spawnLifeSpan : UInt32 := 0
  /-- The weights of the operations in noise. -/
  copySlice : UInt32 := 0
  haltSlice : UInt32 := 0
  pushSlice : UInt32 := 0
  spawnSlice : UInt32 := 0
  /-- New threads may run backwards. -/
  reverseEnabled : Bool := false
  /-- Memory starts as noise and not as halt cells. -/
  randomizeMemoryOnInitialize : Bool := false
  useCopyEffect : Bool := false
  useThreadDeathEffect : Bool := false
  useSpawnExpireEffect : Bool := false
  /-- Trimming kills random threads and not the oldest ones. -/
  threadReductionEnabled : Bool := false
deriving DecidableEq

/-- What makes a configuration unusable. -/
inductive ConfigDefect where
  | zeroCycleLength
deriving DecidableEq

def ConfigDefect.message : ConfigDefect → String
  | .zeroCycleLength => "invalid configuration: MsPerCycle must be positive"

inductive NumberKey where
  | msPerCycle
  | maxStackSize
  | maxThreadCount
  | randomNoisePerCycle
  | newThreadsPerCycle
  | spawnLifeSpan
  | copySlice
  | haltSlice
  | pushSlice
  | spawnSlice
deriving DecidableEq

inductive SwitchKey where
  | reverseEnabled
  | randomizeMemoryOnInitialize
  | useCopyEffect
  | useThreadDeathEffect
  | useSpawnExpireEffect
  | threadReductionEnabled
deriving DecidableEq

/-- The name of a setting in a settings text. -/
def NumberKey.name : NumberKey → String
  | .msPerCycle => "MsPerCycle"
  | .maxStackSize => "MaxStackSize"
  | .maxThreadCount => "MaxThreadCount"
  | .randomNoisePerCycle => "RandomNoisePerCycle"
  | .newThreadsPerCycle => "NewThreadsPerCycle"
  | .spawnLifeSpan => "SpawnLifeSpan"
  | .copySlice => "CopySlice"
  | .haltSlice => "HaltSlice"
  | .pushSlice => "PushSlice"
  | .spawnSlice => "SpawnSlice"

/-- The name of a setting in a settings text. -/
def SwitchKey.name : SwitchKey → String
  | .reverseEnabled => "ReverseEnabled"
  | .randomizeMemoryOnInitialize => "RandomizeMemoryOnInitialize"
  | .useCopyEffect => "UseCopyEffect"
  | .useThreadDeathEffect => "UseThreadDeathEffect"
  | .useSpawnExpireEffect => "UseSpawnExpireEffect"
  | .threadReductionEnabled => "ThreadReductionEnabled"

/-- The number settings in the order in which they are written. -/
def NumberKey.all : List NumberKey :=
  [.msPerCycle, .maxStackSize, .maxThreadCount, .randomNoisePerCycle, .newThreadsPerCycle,
    .spawnLifeSpan, .copySlice, .haltSlice, .pushSlice, .spawnSlice]

/-- The switches in the order in which they are written, after the numbers. -/
def SwitchKey.all : List SwitchKey :=
  [.reverseEnabled, .randomizeMemoryOnInitialize, .useCopyEffect, .useThreadDeathEffect,
    .useSpawnExpireEffect, .threadReductionEnabled]

namespace Config

/-- The settings of the screensaver. -/
def screensaver : Config where
  msPerCycle := 50
  maxStackSize := 16
  maxThreadCount := 64
  randomNoisePerCycle := 4
  newThreadsPerCycle := 1
  spawnLifeSpan := 8
  copySlice := 10
  haltSlice := 2
  pushSlice := 40
  spawnSlice := 4
  reverseEnabled := true
  randomizeMemoryOnInitialize := true
  useCopyEffect := true
  useThreadDeathEffect := true
  useSpawnExpireEffect := true
  threadReductionEnabled := false

def validate (config : Config) : Except ConfigDefect Unit :=
  if config.msPerCycle = 0 then .error .zeroCycleLength else .ok ()

/-- The sum of the noise weights. -/
def totalSlice (config : Config) : Nat :=
  config.copySlice.toNat + config.haltSlice.toNat + config.pushSlice.toNat +
    config.spawnSlice.toNat

def number (config : Config) : NumberKey → UInt32
  | .msPerCycle => config.msPerCycle
  | .maxStackSize => config.maxStackSize
  | .maxThreadCount => config.maxThreadCount
  | .randomNoisePerCycle => config.randomNoisePerCycle
  | .newThreadsPerCycle => config.newThreadsPerCycle
  | .spawnLifeSpan => config.spawnLifeSpan
  | .copySlice => config.copySlice
  | .haltSlice => config.haltSlice
  | .pushSlice => config.pushSlice
  | .spawnSlice => config.spawnSlice

def setNumber (config : Config) (value : UInt32) : NumberKey → Config
  | .msPerCycle => { config with msPerCycle := value }
  | .maxStackSize => { config with maxStackSize := value }
  | .maxThreadCount => { config with maxThreadCount := value }
  | .randomNoisePerCycle => { config with randomNoisePerCycle := value }
  | .newThreadsPerCycle => { config with newThreadsPerCycle := value }
  | .spawnLifeSpan => { config with spawnLifeSpan := value }
  | .copySlice => { config with copySlice := value }
  | .haltSlice => { config with haltSlice := value }
  | .pushSlice => { config with pushSlice := value }
  | .spawnSlice => { config with spawnSlice := value }

def switch (config : Config) : SwitchKey → Bool
  | .reverseEnabled => config.reverseEnabled
  | .randomizeMemoryOnInitialize => config.randomizeMemoryOnInitialize
  | .useCopyEffect => config.useCopyEffect
  | .useThreadDeathEffect => config.useThreadDeathEffect
  | .useSpawnExpireEffect => config.useSpawnExpireEffect
  | .threadReductionEnabled => config.threadReductionEnabled

def setSwitch (config : Config) (value : Bool) : SwitchKey → Config
  | .reverseEnabled => { config with reverseEnabled := value }
  | .randomizeMemoryOnInitialize => { config with randomizeMemoryOnInitialize := value }
  | .useCopyEffect => { config with useCopyEffect := value }
  | .useThreadDeathEffect => { config with useThreadDeathEffect := value }
  | .useSpawnExpireEffect => { config with useSpawnExpireEffect := value }
  | .threadReductionEnabled => { config with threadReductionEnabled := value }

/-- One line for each setting, as a settings text. -/
def toText (config : Config) : String :=
  let numbers := NumberKey.all.map fun key => s!"{key.name} = {(config.number key).toNat}\n"
  let switches := SwitchKey.all.map fun key => s!"{key.name} = {config.switch key}\n"
  String.join (numbers ++ switches)

end Config

end ThreadSoup
