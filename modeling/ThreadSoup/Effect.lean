import ThreadSoup.Counter

namespace ThreadSoup

inductive EffectKind where
  /-- A thread died. -/
  | pulse
  /-- A forward thread died. -/
  | fallForward
  /-- A reversed thread died. -/
  | fallReverse
  /-- A copy wrote the cell, or a spawn cell expired. -/
  | zoom
deriving DecidableEq

namespace EffectKind

/-- How long an effect stays queued, in milliseconds. -/
def lifeSpan : EffectKind → Nat
  | .pulse | .fallForward | .fallReverse => 1000
  | .zoom => 500

/-- The drawing layer, lower ones first. -/
def layer : EffectKind → Nat
  | .pulse => 1
  | .fallForward | .fallReverse => 2
  | .zoom => 3

end EffectKind

structure Effect where
  kind : EffectKind
  ip : Nat
  /-- Milliseconds since the effect was queued. -/
  progress : Nat := 0
deriving DecidableEq

namespace Effect

def lifeSpan (effect : Effect) : Nat := effect.kind.lifeSpan

def layer (effect : Effect) : Nat := effect.kind.layer

def isExpired (effect : Effect) : Bool := effect.lifeSpan < effect.progress

def age (effect : Effect) (ms : Nat) : Effect :=
  { effect with progress := saturatingAdd effect.progress ms }

/-- Progress as a part of the life span, at most one. -/
def fraction (effect : Effect) : Float32 :=
  let part := effect.progress.toUInt64.toFloat32 / effect.lifeSpan.toUInt64.toFloat32
  if part < 1 then part else 1

end Effect

/-- The live effects, newest first. -/
structure EffectQueue where
  toList : List Effect := []
deriving DecidableEq

namespace EffectQueue

def length (queue : EffectQueue) : Nat := queue.toList.length

def isEmpty (queue : EffectQueue) : Bool := queue.toList.isEmpty

/-- Queues an effect unless an equal one is queued, and says whether it did. -/
def push (queue : EffectQueue) (effect : Effect) : EffectQueue × Bool :=
  if effect ∈ queue.toList then (queue, false) else (⟨effect :: queue.toList⟩, true)

/-- The queue after `push`. -/
def insert (queue : EffectQueue) (effect : Effect) : EffectQueue := (queue.push effect).1

/-- Ages every effect and drops the expired ones. -/
def advance (queue : EffectQueue) (ms : Nat) : EffectQueue :=
  ⟨(queue.toList.map (·.age ms)).filter (!·.isExpired)⟩

/-- The effects by layer, in queue order within a layer. -/
def renderOrder (queue : EffectQueue) : List Effect :=
  queue.toList.mergeSort fun a b => a.layer ≤ b.layer

end EffectQueue

end ThreadSoup
