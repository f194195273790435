import ThreadSoup.Config
import ThreadSoup.Effect
import ThreadSoup.Memory
import ThreadSoup.Thread

namespace ThreadSoup

/-- What a turn means for the thread that took it. -/
inductive Outcome where
  | running
  | halted
  /-- A stack operation could not be carried out. -/
  | failed (error : StackError)
deriving DecidableEq

def Outcome.isRunning : Outcome → Bool
  | .running => true
  | _ => false

/-- What threads act on. -/
structure Scene where
  memory : Memory
  effects : EffectQueue
deriving DecidableEq

/-- A thread and its scene after a turn. -/
structure Turn where
  outcome : Outcome
  thread : Thread
  scene : Scene
deriving DecidableEq

/-- Copies one cell. The byte is read at the moment of the write, so overlapping regions see
what the same copy wrote before. -/
def copyCell (config : Config) (scene : Scene) (source target : Nat) : Except Fault Scene := do
  let cell ← scene.memory.get source
  let (memory, changed) ←
    scene.memory.copyOp target cell.byte config.spawnLifeSpan.toNat
  let effects :=
    if config.useCopyEffect then scene.effects.insert { kind := .zoom, ip := target }
    else scene.effects
  if changed then
    let memory ← memory.setModified target writeHighlight
    return { memory := memory.markDirty, effects }
  else
    return { memory, effects }

/-- Copies `count` cells, the first one `done` steps from the starts of both regions. -/
def copyCells (config : Config) (source target : Nat) (direction : Int) (done : Nat) :
    Nat → Scene → Except Fault Scene
  | 0, scene => .ok scene
  | count + 1, scene => do
    let offset ← signedMul done direction
    let i ← scene.memory.wrap source offset
    let j ← scene.memory.wrap target offset
    let scene ← copyCell config scene i j
    copyCells config source target direction (done + 1) count scene

/-- The operands of a copy, popped in this order. -/
structure CopyOperands where
  source : Int32
  target : Int32
  length : Int32
deriving DecidableEq

def popCopyOperands (stack : Stack) : Stack × Except StackError CopyOperands :=
  match stack.pop with
  | .error e => (stack, .error e)
  | .ok (source, stack) =>
    match stack.pop with
    | .error e => (stack, .error e)
    | .ok (target, stack) =>
      match stack.pop with
      | .error e => (stack, .error e)
      | .ok (length, stack) => (stack, .ok { source, target, length })

/-- Copies as many cells as the length says, none if it is negative, in the direction of the
thread. Offsets count from the pointer after its move. -/
def runCopy (config : Config) (scene : Scene) (thread : Thread) : Except Fault Turn :=
  match popCopyOperands thread.stack with
  | (stack, .error e) => .ok { outcome := .failed e, thread := { thread with stack }, scene }
  | (stack, .ok operands) => do
    let source ← scene.memory.wrap thread.ip operands.source.toInt
    let target ← scene.memory.wrap thread.ip operands.target.toInt
    let scene ←
      copyCells config source target thread.direction 0 operands.length.toInt.toNat scene
    return { outcome := .running, thread := { thread with stack }, scene }

/-- Counts down the cell at `origin`, which turns into halt when its lifespan ends. -/
def countDown (config : Config) (scene : Scene) (origin : Nat) : Except Fault Scene := do
  let cell ← scene.memory.get origin
  if cell.lifespan = 0 then return scene
  else if cell.lifespan = 1 then
    let memory ← scene.memory.setOp origin haltByte config.spawnLifeSpan.toNat
    let effects :=
      if config.useSpawnExpireEffect then scene.effects.insert { kind := .zoom, ip := origin }
      else scene.effects
    return { memory, effects }
  else
    let memory ← scene.memory.put origin { cell with lifespan := cell.lifespan - 1 }
    return { scene with memory }

/-- Pops an offset, which is not used, and counts down the executed cell. No thread starts. -/
def runSpawn (config : Config) (scene : Scene) (thread : Thread) (origin : Nat) :
    Except Fault Turn :=
  match thread.stack.pop with
  | .error e => .ok { outcome := .failed e, thread, scene }
  | .ok (_, stack) => do
    let scene ← countDown config scene origin
    return { outcome := .running, thread := { thread with stack }, scene }

def runPush (scene : Scene) (thread : Thread) (literal : Int32) : Turn :=
  match thread.stack.push literal with
  | .error e => { outcome := .failed e, thread, scene }
  | .ok stack => { outcome := .running, thread := { thread with stack }, scene }

/-- One turn: read the operation under the pointer, move the pointer, then act. -/
def dispatch (config : Config) (scene : Scene) (thread : Thread) : Except Fault Turn := do
  let origin := thread.ip
  let cell ← scene.memory.get origin
  let ip ← scene.memory.wrap origin thread.direction
  let thread := { thread with ip, age := saturatingAdd thread.age 1 }
  match cell.op with
  | .copy => runCopy config scene thread
  | .halt => return { outcome := .halted, thread, scene }
  | .spawn => runSpawn config scene thread origin
  | .push literal => return runPush scene thread literal

end ThreadSoup
