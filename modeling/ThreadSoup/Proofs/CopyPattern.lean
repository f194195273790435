import Mathlib.Algebra.Order.Group.Unbundled.Int
import Mathlib.Tactic.LinearCombination
import ThreadSoup.Proofs.Dispatch

namespace ThreadSoup

/-- The byte at a position of the ring, which may be negative or too large. -/
def Memory.byteAt (memory : Memory) (position : Int) : Option UInt8 :=
  memory.bytes[onRing memory.size position]?

/-- Where an offset of a thread leads, counted from the pointer after its move. -/
def Thread.reach (thread : Thread) (size : Nat) (offset : Int32) : Nat :=
  onRing size (onRing size (thread.ip + thread.direction) + offset.toInt)

/-- One step of a copy, `done` steps from the starts of both regions. -/
def copyStep (config : Config) (source target : Nat) (direction : Int) (done : Nat) (scene : Scene) :
    Except Fault Scene := do
  let offset ← signedMul done direction
  let i ← scene.memory.wrap source offset
  let j ← scene.memory.wrap target offset
  copyCell config scene i j

theorem copyCells_succ (config : Config) (source target : Nat) (direction : Int) (done count : Nat)
    (scene : Scene) :
    copyCells config source target direction done (count + 1) scene =
      (copyStep config source target direction done scene >>=
        copyCells config source target direction (done + 1) count) := by
  unfold copyStep
  rw [copyCells]
  simp only [bind_assoc]

/-- The last step of a copy sees what all the steps before it have left. -/
theorem copyCells_snoc (config : Config) (source target : Nat) (direction : Int) (done count : Nat)
    (scene : Scene) :
    copyCells config source target direction done (count + 1) scene =
      (copyCells config source target direction done count scene >>=
        copyStep config source target direction (done + count)) := by
  induction count generalizing done scene with
  | zero =>
    rw [copyCells_succ]
    simp only [copyCells, ok_bind, Nat.add_zero]
    exact bind_pure _
  | succ count ih =>
    rw [copyCells_succ, copyCells_succ config source target direction done count scene, bind_assoc]
    congr 1
    funext middle
    rw [ih (done + 1) middle, show done + 1 + count = done + (count + 1) by omega]

theorem Memory.size_bytes (memory : Memory) : memory.bytes.length = memory.size := by
  simp [Memory.bytes, Memory.size]

theorem Memory.bytes_get {memory : Memory} {index : Nat} {cell : Cell}
    (h : memory.get index = .ok cell) : memory.bytes[index]? = some cell.byte := by
  have hcell := Memory.get_eq_ok.mp h
  simp [Memory.bytes, hcell]

theorem Memory.bytes_put {memory next : Memory} {index : Nat} {cell : Cell}
    (h : memory.put index cell = .ok next) : next.bytes = memory.bytes.set index cell.byte := by
  obtain ⟨_, rfl⟩ := Memory.put_eq_ok.mp h
  simp [Memory.bytes, List.map_set]

theorem copyCell_bytes {config : Config} {scene next : Scene} {source target : Nat}
    (h : copyCell config scene source target = .ok next) :
    ∃ byte, scene.memory.bytes[source]? = some byte ∧
      next.memory.bytes = scene.memory.bytes.set target byte := by
  obtain ⟨origin, old, memory, hs, ht, hm, hnext, _⟩ := copyCell_eq_ok h
  refine ⟨origin.byte, Memory.bytes_get hs, ?_⟩
  have hbytes : next.memory.bytes = memory.bytes := by
    rw [hnext]
    split
    next => rfl
    next => rfl
  rw [hbytes, Memory.bytes_put hm]
  rfl

section Steps

variable {config : Config} {scene next : Scene} {source target done : Nat} {direction : Int}

theorem copyStep_eq (hsize : scene.memory.size ≤ maxCells) (hs : source < scene.memory.size)
    (ht : target < scene.memory.size) (hdir : direction = 1 ∨ direction = -1)
    (hdone : done ≤ 2 ^ 31) :
    copyStep config source target direction done scene =
      copyCell config scene (onRing scene.memory.size (source + direction * done))
        (onRing scene.memory.size (target + direction * done)) := by
  have hmax : maxCells ≤ 2 ^ 62 := by decide
  obtain ⟨hmul, hlow, hhigh⟩ := signedMul_direction hdir hdone
  have hi := wrap_eq_onRing (by omega) hs (by omega : -2 ^ 62 ≤ (done : Int) * direction) (by omega)
  have hj := wrap_eq_onRing (by omega) ht (by omega : -2 ^ 62 ≤ (done : Int) * direction) (by omega)
  unfold copyStep Memory.wrap
  rw [hmul, ok_bind, hi, ok_bind, hj, ok_bind, Int.mul_comm direction]

/-- A step changes the byte at its target into the byte that it finds at its source. -/
theorem copyCell_byteAt {i j : Int} (hpos : 0 < scene.memory.size)
    (h : copyCell config scene (onRing scene.memory.size i) (onRing scene.memory.size j) = .ok next)
    (position : Int) :
    next.memory.byteAt position =
      if onRing scene.memory.size j = onRing scene.memory.size position then scene.memory.byteAt i
      else scene.memory.byteAt position := by
  have hsame := (Move.copy h).moves.size
  obtain ⟨byte, hread, hbytes⟩ := copyCell_bytes h
  have hlt : onRing scene.memory.size j < scene.memory.bytes.length := by
    rw [Memory.size_bytes]
    exact onRing_lt hpos _
  unfold Memory.byteAt
  rw [hsame, hbytes, List.getElem?_set, if_pos hlt, hread]

end Steps

/-- What a copy of `count` cells has made of the bytes of a ring, if its target lies `gap > 0` steps
behind its source: the first `gap` bytes of the source over and over again, where later writes hide
earlier ones, and nothing else. -/
structure Patterned (size gap source target : Nat) (direction : Int) (count : Nat)
    (first last : Int → Option UInt8) : Prop where
  written : ∀ j < count, ∀ position,
    onRing size (target + direction * j) = onRing size position →
    (∀ i, j < i → i < count →
      onRing size (target + direction * i) ≠ onRing size position) →
    last position = first (source + direction * (j % gap : Nat))
  kept : ∀ position,
    (∀ j < count, onRing size (target + direction * j) ≠ onRing size position) →
    last position = first position

section Ring

variable {size gap source target : Nat} {direction : Int}

theorem onRing_eq_iff (hpos : 0 < size) (p q : Int) :
    onRing size p = onRing size q ↔ (size : Int) ∣ p - q := by
  rw [← Int.ofNat_inj, onRing_cast hpos, onRing_cast hpos]
  exact Int.emod_eq_emod_iff_emod_sub_eq_zero.trans Int.dvd_iff_emod_eq_zero.symm

/-- Step `i` writes the place that step `j` reads if and only if it comes `gap` steps earlier, up to
whole laps. -/
theorem meets_iff (hpos : 0 < size) (hdir : direction = 1 ∨ direction = -1)
    (hgap : onRing size (direction * (target - source)) = gap) (i j : Nat) :
    onRing size (target + direction * i) = onRing size (source + direction * j) ↔
      (size : Int) ∣ gap + i - j := by
  have hcast := onRing_cast hpos (direction * ((target : Int) - source))
  rw [hgap] at hcast
  have hlaps := Int.emod_add_mul_ediv (direction * ((target : Int) - source)) size
  rw [← hcast] at hlaps
  rw [onRing_eq_iff hpos]
  generalize direction * ((target : Int) - source) / size = laps at hlaps
  rcases hdir with rfl | rfl
  · constructor
    · rintro ⟨c, hc⟩
      exact ⟨c - laps, by linear_combination hc + hlaps⟩
    · rintro ⟨c, hc⟩
      exact ⟨c + laps, by linear_combination hc - hlaps⟩
  · constructor
    · rintro ⟨c, hc⟩
      exact ⟨-c - laps, by linear_combination hlaps - hc⟩
    · rintro ⟨c, hc⟩
      exact ⟨-c - laps, by linear_combination hlaps - hc⟩

/-- Steps less than a lap apart meet only if one comes exactly `gap` steps before the other. -/
theorem eq_of_meets (hpos : 0 < size) (hdir : direction = 1 ∨ direction = -1)
    (hgap : onRing size (direction * (target - source)) = gap) {i j : Nat}
    (hlow : -(size : Int) < gap + i - j) (hhigh : (gap : Int) + i - j < size)
    (h : onRing size (target + direction * i) = onRing size (source + direction * j)) :
    gap + i = j := by
  have hdvd := (meets_iff hpos hdir hgap i j).mp h
  have hzero := Int.eq_zero_of_abs_lt_dvd hdvd (abs_lt.mpr ⟨hlow, hhigh⟩)
  omega

/-- The byte that a step reads was written `gap` steps before, or not at all. -/
theorem Patterned.read {count : Nat} {first last : Int → Option UInt8} (hpos : 0 < size)
    (hdir : direction = 1 ∨ direction = -1)
    (hgap : onRing size (direction * (target - source)) = gap) (hgappos : 0 < gap)
    (patterned : Patterned size gap source target direction count first last) :
    last (source + direction * count) = first (source + direction * (count % gap : Nat)) := by
  have hlt : gap < size := hgap ▸ onRing_lt hpos _
  rcases Nat.lt_or_ge count gap with hsmall | hlarge
  · rw [Nat.mod_eq_of_lt hsmall]
    apply patterned.kept
    intro j hj hmeet
    have := eq_of_meets hpos hdir hgap (by omega) (by omega) hmeet
    omega
  · have hearlier : (count - gap) % gap = count % gap := (Nat.mod_eq_sub_mod hlarge).symm
    rw [← hearlier]
    refine patterned.written (count - gap) (by omega) _ ?_ ?_
    · rw [meets_iff hpos hdir hgap]
      exact ⟨0, by omega⟩
    · intro i hafter hbefore hmeet
      have := eq_of_meets hpos hdir hgap (by omega) (by omega) hmeet
      omega

/-- The next step adds one byte to the pattern. -/
theorem Patterned.step {count : Nat} {first last next : Int → Option UInt8} (hpos : 0 < size)
    (hdir : direction = 1 ∨ direction = -1)
    (hgap : onRing size (direction * (target - source)) = gap) (hgappos : 0 < gap)
    (patterned : Patterned size gap source target direction count first last)
    (hnext : ∀ position, next position =
      if onRing size (target + direction * count) = onRing size position
      then last (source + direction * count) else last position) :
    Patterned size gap source target direction (count + 1) first next := by
  constructor
  · intro j hj position hwrites hlast
    by_cases hnew : j = count
    · subst hnew
      rw [hnext, if_pos hwrites, patterned.read hpos hdir hgap hgappos]
    · rw [hnext, if_neg (hlast count (by omega) (by omega))]
      exact patterned.written j (by omega) position hwrites
        fun i hafter hbefore => hlast i hafter (by omega)
  · intro position hnone
    rw [hnext, if_neg (hnone count (by omega))]
    exact patterned.kept position fun j hj => hnone j (by omega)

end Ring

section Runs

variable {config : Config} {scene last : Scene} {source target count : Nat} {direction : Int}

/-- What one step of a copy keeps, the whole copy keeps. The induction takes off the last step. -/
theorem copyCells_walk {P : Nat → Scene → Prop} (hsize : scene.memory.size ≤ maxCells)
    (hs : source < scene.memory.size) (ht : target < scene.memory.size)
    (hdir : direction = 1 ∨ direction = -1) (hcount : count ≤ 2 ^ 31) (zero : P 0 scene)
    (step : ∀ done before after, done < count → before.memory.size = scene.memory.size →
      P done before →
      copyCell config before (onRing scene.memory.size (source + direction * done))
        (onRing scene.memory.size (target + direction * done)) = .ok after → P (done + 1) after)
    (h : copyCells config source target direction 0 count scene = .ok last) :
    last.memory.size = scene.memory.size ∧ P count last := by
  induction count generalizing last with
  | zero => cases h; exact ⟨rfl, zero⟩
  | succ count ih =>
    rw [copyCells_snoc, Nat.zero_add] at h
    obtain ⟨before, hb, h⟩ := bind_eq_ok.mp h
    obtain ⟨hsame, hp⟩ := ih (by omega)
      (fun done before after hdone => step done before after (by omega)) hb
    rw [copyStep_eq (hsame ▸ hsize) (hsame ▸ hs) (hsame ▸ ht) hdir (by omega), hsame] at h
    exact ⟨(Move.copy h).moves.size.trans hsame, step count before last (by omega) hsame hp h⟩

/-- What the bytes of a ring keep at one step of a copy, they keep at the whole copy. -/
theorem copyCells_induction {P : Nat → Scene → Prop} (hsize : scene.memory.size ≤ maxCells)
    (hs : source < scene.memory.size) (ht : target < scene.memory.size)
    (hdir : direction = 1 ∨ direction = -1) (hcount : count ≤ 2 ^ 31) (zero : P 0 scene)
    (step : ∀ done before after, before.memory.size = scene.memory.size → P done before →
      (∀ position : Int, after.memory.byteAt position =
        if onRing scene.memory.size (target + direction * done) = onRing scene.memory.size position
        then before.memory.byteAt (source + direction * done)
        else before.memory.byteAt position) → P (done + 1) after)
    (h : copyCells config source target direction 0 count scene = .ok last) :
    last.memory.size = scene.memory.size ∧ P count last := by
  refine copyCells_walk hsize hs ht hdir hcount zero ?_ h
  intro done before after hdone hsame hp hcopy
  have hpos : 0 < before.memory.size := hsame ▸ Nat.zero_lt_of_lt hs
  have hbytes := copyCell_byteAt hpos (hsame ▸ hcopy)
  rw [hsame] at hbytes
  exact step done before after hsame hp hbytes

theorem copyCells_patterned {gap : Nat} (hsize : scene.memory.size ≤ maxCells)
    (hs : source < scene.memory.size) (ht : target < scene.memory.size)
    (hdir : direction = 1 ∨ direction = -1) (hcount : count ≤ 2 ^ 31)
    (hgap : onRing scene.memory.size (direction * (target - source)) = gap) (hgappos : 0 < gap)
    (h : copyCells config source target direction 0 count scene = .ok last) :
    Patterned scene.memory.size gap source target direction count scene.memory.byteAt
      last.memory.byteAt := by
  have hpos : 0 < scene.memory.size := Nat.zero_lt_of_lt hs
  refine (copyCells_induction (P := fun done middle => Patterned scene.memory.size gap source target
    direction done scene.memory.byteAt middle.memory.byteAt) hsize hs ht hdir hcount ?_ ?_ h).2
  · exact ⟨fun j hj => absurd hj (Nat.not_lt_zero j), fun _ _ => rfl⟩
  · intro done before after _ patterned hbytes
    exact patterned.step hpos hdir hgap hgappos hbytes

/-- Bytes are looked up by places below the size. -/
theorem Memory.bytes_eq_of_byteAt {memory other : Memory} (hsize : other.size = memory.size)
    (h : ∀ position, other.byteAt position = memory.byteAt position) :
    other.bytes = memory.bytes := by
  apply List.ext_getElem?
  intro index
  rcases Nat.lt_or_ge index memory.size with hlt | hge
  · have hat := h index
    unfold Memory.byteAt at hat
    rwa [hsize, onRing_of_lt hlt] at hat
  · rw [List.getElem?_eq_none (by rw [Memory.size_bytes]; omega),
      List.getElem?_eq_none (by rw [Memory.size_bytes]; omega)]

/-- A copy onto itself writes back what it reads. -/
theorem copyCells_onto_itself (hsize : scene.memory.size ≤ maxCells)
    (hs : source < scene.memory.size) (hdir : direction = 1 ∨ direction = -1)
    (hcount : count ≤ 2 ^ 31)
    (h : copyCells config source source direction 0 count scene = .ok last) :
    last.memory.bytes = scene.memory.bytes := by
  obtain ⟨hsame, hbytes⟩ := copyCells_induction
    (P := fun _ middle => ∀ position, middle.memory.byteAt position = scene.memory.byteAt position)
    hsize hs hs hdir hcount (fun _ => rfl) (by
      intro done before after hsame hp hnext position
      rw [hnext]
      split
      next heq => rw [← hp position, Memory.byteAt, Memory.byteAt, hsame, heq]
      next => exact hp position) h
  exact Memory.bytes_eq_of_byteAt hsame hbytes

end Runs

theorem popCopyOperands_eq {stack : Stack} {source target length : Int32} {rest : List Int32}
    (h : stack.values = source :: target :: length :: rest) :
    popCopyOperands stack = ({ stack with values := rest }, .ok { source, target, length }) := by
  simp [popCopyOperands, Stack.pop, h]

theorem Thread.reach_lt {size : Nat} (hpos : 0 < size) (thread : Thread) (offset : Int32) :
    thread.reach size offset < size := onRing_lt hpos _

/-- A thread on a copy cell with three operands copies, whatever they are. -/
theorem dispatch_copy_eq (config : Config) {scene : Scene} {thread : Thread} {cell : Cell}
    {source target length : Int32} {rest : List Int32} (hsize : scene.memory.size ≤ maxCells)
    (hcell : scene.memory.get thread.ip = .ok cell) (hbyte : cell.byte = copyByte)
    (hstack : thread.stack.values = source :: target :: length :: rest) :
    dispatch config scene thread =
      (copyCells config (thread.reach scene.memory.size source) (thread.reach scene.memory.size target)
        thread.direction 0 length.toInt.toNat scene >>= fun last =>
          .ok {
            outcome := .running
            thread := { thread with
              ip := onRing scene.memory.size (thread.ip + thread.direction)
              age := saturatingAdd thread.age 1
              stack := { thread.stack with values := rest } }
            scene := last }) := by
  have hmax : maxCells ≤ 2 ^ 62 := by decide
  have hip := Memory.get_lt hcell
  have hdir := thread.direction_eq
  have hsl := source.le_toInt
  have hsu := source.toInt_lt
  have htl := target.le_toInt
  have htu := target.toInt_lt
  have hmove := wrap_eq_onRing (by omega) hip (by omega : -2 ^ 62 ≤ thread.direction) (by omega)
  have hmoved : onRing scene.memory.size (thread.ip + thread.direction) < scene.memory.size :=
    onRing_lt (by omega) _
  have hs := wrap_eq_onRing (by omega) hmoved (by omega : -2 ^ 62 ≤ source.toInt) (by omega)
  have ht := wrap_eq_onRing (by omega) hmoved (by omega : -2 ^ 62 ≤ target.toInt) (by omega)
  have hop : cell.op = .copy := by
    unfold Cell.op
    rw [hbyte]
    rfl
  unfold dispatch Memory.wrap
  simp only [hcell, ok_bind, hmove, hop, runCopy, popCopyOperands_eq hstack, Memory.wrap, hs, ht]
  rfl

/-- A copy of any length, over itself and around the ring as often as it likes. With the target
`gap > 0` steps behind the source, step `j` writes what the ring held, before the copy, `j % gap`
steps from the source; so every place holds in the end what its last step wrote, and what it held
before if no step wrote it. A copy onto itself changes no byte. -/
theorem copy_replicates_pattern (config : Config) {scene : Scene} {thread : Thread} {cell : Cell}
    {sourceOffset targetOffset length : Int32} {rest : List Int32}
    (hsize : scene.memory.size ≤ maxCells) (hcell : scene.memory.get thread.ip = .ok cell)
    (hbyte : cell.byte = copyByte)
    (hstack : thread.stack.values = sourceOffset :: targetOffset :: length :: rest) :
    let size := scene.memory.size
    let direction := thread.direction
    let source := thread.reach size sourceOffset
    let target := thread.reach size targetOffset
    let gap := onRing size (direction * (target - source))
    let count := length.toInt.toNat
    ∃ turn, dispatch config scene thread = .ok turn ∧ turn.outcome = .running ∧
      copyCells config source target direction 0 count scene = .ok turn.scene ∧
      (0 < gap →
        (∀ j < count, ∃ before after,
          copyCells config source target direction 0 j scene = .ok before ∧
          copyStep config source target direction j before = .ok after ∧
          after.memory.byteAt (target + direction * j) =
            scene.memory.byteAt (source + direction * (j % gap : Nat))) ∧
        ∀ place < size,
          (∀ j < count, onRing size (target + direction * j) = place →
            (∀ i, j < i → i < count → onRing size (target + direction * i) ≠ place) →
            turn.scene.memory.bytes[place]? =
              scene.memory.byteAt (source + direction * (j % gap : Nat))) ∧
          ((∀ j < count, onRing size (target + direction * j) ≠ place) →
            turn.scene.memory.bytes[place]? = scene.memory.bytes[place]?)) ∧
      (gap = 0 → turn.scene.memory.bytes = scene.memory.bytes) := by
  intro size direction source target gap count
  have hpos : 0 < size := Nat.zero_lt_of_lt (Memory.get_lt hcell)
  have hs : source < size := thread.reach_lt hpos sourceOffset
  have ht : target < size := thread.reach_lt hpos targetOffset
  have hdir : direction = 1 ∨ direction = -1 := thread.direction_eq
  have hcount : count ≤ 2 ^ 31 := by
    have := length.toInt_lt
    omega
  obtain ⟨last, hlast⟩ := copyCells_exists config hsize hs ht hdir (by omega : 0 + count ≤ 2 ^ 31)
  have hturn := dispatch_copy_eq config hsize hcell hbyte hstack
  rw [hlast, ok_bind] at hturn
  refine ⟨_, hturn, rfl, hlast, ?_, ?_⟩
  · intro hgap
    constructor
    · intro j hj
      obtain ⟨after, ha⟩ := copyCells_exists config hsize hs ht hdir
        (by omega : 0 + (j + 1) ≤ 2 ^ 31)
      have patterned := copyCells_patterned hsize hs ht hdir (by omega) rfl hgap ha
      rw [copyCells_snoc, Nat.zero_add] at ha
      obtain ⟨before, hb, ha⟩ := bind_eq_ok.mp ha
      exact ⟨before, after, hb, ha,
        patterned.written j (by omega) _ rfl fun i hafter hbefore => by omega⟩
    · intro place hplace
      have patterned := copyCells_patterned hsize hs ht hdir hcount rfl hgap hlast
      have hsame : last.memory.size = size := (copyCells_moves hlast).size
      have hring : onRing size place = place := onRing_of_lt hplace
      have hread : last.memory.byteAt place = last.memory.bytes[place]? := by
        rw [Memory.byteAt, hsame, hring]
      have hold : scene.memory.byteAt place = scene.memory.bytes[place]? := by
        rw [Memory.byteAt, hring]
      rw [← hread, ← hold]
      refine ⟨?_, ?_⟩
      · intro j hj hwrites hfinal
        exact patterned.written j hj place (hwrites.trans hring.symm)
          fun i hafter hbefore heq => hfinal i hafter hbefore (heq.trans hring)
      · intro hnone
        exact patterned.kept place fun j hj heq => hnone j hj (heq.trans hring)
  · intro hgap
    have hsame : target = source := by
      have hmeet : onRing size (target + direction * (0 : Nat)) =
          onRing size (source + direction * (0 : Nat)) :=
        (meets_iff hpos hdir rfl 0 0).mpr ⟨0, by omega⟩
      simpa [onRing_of_lt hs, onRing_of_lt ht] using hmeet
    exact copyCells_onto_itself hsize hs hdir hcount (hsame ▸ hlast)

/-- A ring of five cells with a copy cell at place 3. -/
def smallRing : Scene :=
  { memory :=
      { rows := 1
        columns := 5
        cells := #[{ byte := 10 }, { byte := 11 }, { byte := 12 }, { byte := copyByte }, { byte := 14 }]
        dirty := false }
    effects := {} }

/-- Copies seven cells backwards, from place 2 to place 0. -/
def lapping : Thread := { ip := 3, stack := ⟨[0, 3, 7, 9], 4⟩, age := 2, reversed := true }

/-- Seven steps write places 0 and 4 twice each. The bytes 12 and 11 take turns, and the copy
overwrites its own cell. -/
theorem copy_laps_small_ring :
    ∃ turn, dispatch {} smallRing lapping = .ok turn ∧ turn.outcome = .running ∧
      turn.scene.memory.bytes[0]? = some 11 ∧ turn.scene.memory.bytes[3]? = some 12 ∧
      turn.scene.memory.bytes[4]? = some 12 := by
  obtain ⟨turn, hturn, hrunning, _, hpattern, _⟩ := copy_replicates_pattern {}
    (show smallRing.memory.size ≤ maxCells by decide)
    (show smallRing.memory.get lapping.ip = .ok { byte := copyByte } from rfl) rfl rfl
  obtain ⟨_, hplaces⟩ := hpattern (by decide)
  have hlast : ∀ entry ∈ [((0 : Nat), (5 : Nat)), (3, 2), (4, 6)], ∀ i : Nat, i < 7 → entry.2 < i →
      onRing smallRing.memory.size (lapping.reach smallRing.memory.size 3 + lapping.direction * i) ≠
        entry.1 := by decide
  refine ⟨turn, hturn, hrunning, ?_, ?_, ?_⟩
  · rw [(hplaces 0 (by decide)).1 5 (by decide) (by decide)
      fun i hafter hbefore => hlast (0, 5) (by decide) i hbefore hafter]
    decide
  · rw [(hplaces 3 (by decide)).1 2 (by decide) (by decide)
      fun i hafter hbefore => hlast (3, 2) (by decide) i hbefore hafter]
    decide
  · rw [(hplaces 4 (by decide)).1 6 (by decide) (by decide)
      fun i hafter hbefore => hlast (4, 6) (by decide) i hbefore hafter]
    decide

end ThreadSoup
