import ThreadSoup.Proofs.CopyTrace

namespace ThreadSoup

/-- The operation at a place, if the place is on the grid. -/
def Memory.opAt (memory : Memory) (place : Nat) : Option Op := memory.bytes[place]?.map Op.decode

/-- The places whose cells decide what a thread does: its own, and the sources of a copy. -/
def Thread.reads (memory : Memory) (thread : Thread) : List Nat :=
  thread.ip ::
    match memory.opAt thread.ip, thread.stack.values with
    | some .copy, source :: _ :: length :: _ =>
      region memory.size (thread.reach memory.size source) thread.direction length.toInt.toNat
    | _, _ => []

/-- The places whose cells a thread may change: the targets of a copy, or its own if that counts
down. A thread whose stack is too short changes none. -/
def Thread.writes (memory : Memory) (thread : Thread) : List Nat :=
  match memory.opAt thread.ip, thread.stack.values with
  | some .copy, _ :: target :: length :: _ =>
    region memory.size (thread.reach memory.size target) thread.direction length.toInt.toNat
  | some .spawn, _ :: _ => [thread.ip]
  | _, _ => []

/-- A thread after its turn on a ring, with what is then on its stack. -/
def Thread.stepped (thread : Thread) (size : Nat) (values : List Int32) : Thread :=
  { thread with
    ip := onRing size (thread.ip + thread.direction)
    stack := { thread.stack with values }
    age := saturatingAdd thread.age 1 }

/-- The values on a stack after an operation. Operands are gone even if there are too few of them;
what lies below them stays. -/
def Stack.used (stack : Stack) : Op → List Int32
  | .copy => stack.values.drop 3
  | .halt => stack.values
  | .spawn => stack.values.drop 1
  | .push literal =>
    if stack.values.length < stack.capacity then literal :: stack.values else stack.values

/-- All that a turn can be, for a thread that stands on a given cell. -/
inductive Turned (config : Config) (scene : Scene) (thread : Thread) (cell : Cell) : Turn → Prop
  | copy {source target length : Int32} {rest : List Int32} {last : Scene} : cell.op = .copy →
      thread.stack.values = source :: target :: length :: rest →
      copyCells config (thread.reach scene.memory.size source) (thread.reach scene.memory.size target)
        thread.direction 0 length.toInt.toNat scene = .ok last →
      Turned config scene thread cell
        { outcome := .running, thread := thread.stepped scene.memory.size rest, scene := last }
  | copyShort : cell.op = .copy → thread.stack.values.length < 3 →
      Turned config scene thread cell
        { outcome := .failed .underflow, thread := thread.stepped scene.memory.size [], scene }
  | halt : cell.op = .halt →
      Turned config scene thread cell
        { outcome := .halted
          thread := thread.stepped scene.memory.size thread.stack.values
          scene }
  | spawn {value : Int32} {rest : List Int32} {last : Scene} : cell.op = .spawn →
      thread.stack.values = value :: rest → countDown config scene thread.ip = .ok last →
      Turned config scene thread cell
        { outcome := .running, thread := thread.stepped scene.memory.size rest, scene := last }
  | spawnEmpty : cell.op = .spawn → thread.stack.values = [] →
      Turned config scene thread cell
        { outcome := .failed .underflow, thread := thread.stepped scene.memory.size [], scene }
  | push {literal : Int32} : cell.op = .push literal →
      thread.stack.values.length < thread.stack.capacity →
      Turned config scene thread cell
        { outcome := .running
          thread := thread.stepped scene.memory.size (literal :: thread.stack.values)
          scene }
  | pushFull {literal : Int32} : cell.op = .push literal →
      thread.stack.capacity ≤ thread.stack.values.length →
      Turned config scene thread cell
        { outcome := .failed (.overflow thread.stack.capacity)
          thread := thread.stepped scene.memory.size thread.stack.values
          scene }

section Cases

variable {config : Config} {scene : Scene} {thread : Thread} {cell : Cell} {turn : Turn}

theorem popCopyOperands_short {stack : Stack} (h : stack.values.length < 3) :
    popCopyOperands stack = ({ stack with values := [] }, .error .underflow) := by
  obtain ⟨values, capacity⟩ := stack
  match values, h with
  | [], _ => rfl
  | [_], _ => rfl
  | [_, _], _ => rfl

theorem op_eq_copy (h : cell.op = .copy) : cell.byte = copyByte := by
  unfold Cell.op Op.decode at h
  split at h
  next hbyte => exact hbyte
  next =>
    split at h
    next => cases h
    next =>
      split at h
      next => cases h
      next => cases h

/-- A turn moves the pointer and ages the thread before it acts. -/
theorem dispatch_eq (config : Config) (hsize : scene.memory.size ≤ maxCells)
    (hcell : scene.memory.get thread.ip = .ok cell) :
    dispatch config scene thread =
      match cell.op with
      | .copy => runCopy config scene (thread.stepped scene.memory.size thread.stack.values)
      | .halt => .ok {
          outcome := .halted
          thread := thread.stepped scene.memory.size thread.stack.values
          scene }
      | .spawn =>
        runSpawn config scene (thread.stepped scene.memory.size thread.stack.values) thread.ip
      | .push literal =>
        .ok (runPush scene (thread.stepped scene.memory.size thread.stack.values) literal) := by
  have hmax : maxCells ≤ 2 ^ 62 := by decide
  have hdir := thread.direction_eq
  have hip := Memory.get_lt hcell
  have hmove := wrap_eq_onRing (by omega) hip (by omega : -2 ^ 62 ≤ thread.direction) (by omega)
  unfold dispatch Memory.wrap
  simp only [hcell, ok_bind, hmove]
  rfl

/-- On a grid of accepted size this is what a turn is. -/
theorem dispatch_turned (hsize : scene.memory.size ≤ maxCells)
    (hcell : scene.memory.get thread.ip = .ok cell) (hturn : dispatch config scene thread = .ok turn) :
    Turned config scene thread cell turn := by
  have heq := dispatch_eq config hsize hcell
  rw [hturn] at heq
  cases hop : cell.op with
  | copy =>
    rw [hop] at heq
    match hvalues : thread.stack.values with
    | source :: target :: length :: rest =>
      rw [dispatch_copy_eq config hsize hcell (op_eq_copy hop) hvalues] at hturn
      obtain ⟨last, hlast, hturn⟩ := bind_eq_ok.mp hturn
      cases hturn
      exact Turned.copy hop hvalues hlast
    | [] | [_] | [_, _] =>
      have hshort : thread.stack.values.length < 3 := by simp [hvalues]
      have hpop : popCopyOperands (thread.stepped scene.memory.size thread.stack.values).stack = _ :=
        popCopyOperands_short hshort
      simp only [runCopy, hpop] at heq
      cases heq
      exact Turned.copyShort hop hshort
  | halt =>
    rw [hop] at heq
    cases heq
    exact Turned.halt hop
  | spawn =>
    rw [hop] at heq
    cases hvalues : thread.stack.values with
    | nil =>
      simp only [runSpawn, Thread.stepped, Stack.pop, hvalues] at heq
      cases heq
      exact Turned.spawnEmpty hop hvalues
    | cons value rest =>
      simp only [runSpawn, Thread.stepped, Stack.pop, hvalues] at heq
      obtain ⟨last, hlast, heq⟩ := bind_eq_ok.mp heq.symm
      cases heq
      exact Turned.spawn hop hvalues hlast
  | push literal =>
    rw [hop] at heq
    by_cases hfull : thread.stack.capacity ≤ thread.stack.values.length
    · simp only [runPush, Thread.stepped, Stack.push, Stack.isFull, Stack.depth, hfull] at heq
      cases heq
      exact Turned.pushFull hop hfull
    · simp only [runPush, Thread.stepped, Stack.push, Stack.isFull, Stack.depth, hfull] at heq
      cases heq
      exact Turned.push hop (Nat.lt_of_not_le hfull)

end Cases

/-- A cell that has been executed once more: its lifespan is one shorter, and at the end of its
lifespan it is a halt. -/
def Cell.executed (cell : Cell) : Cell :=
  if cell.lifespan = 0 then cell
  else if cell.lifespan = 1 then { byte := haltByte, modified := writeHighlight, lifespan := 0 }
  else { cell with lifespan := cell.lifespan - 1 }

/-- What the countdown of a cell does, as far as it can be seen. -/
theorem countDown_observed {config : Config} {scene next : Scene} {origin : Nat}
    (h : countDown config scene origin = .ok next) :
    ∃ cell, scene.memory.get origin = .ok cell ∧ next.memory.get origin = .ok cell.executed ∧
      (∀ place, place ≠ origin → next.memory.get place = scene.memory.get place) ∧
      next.memory.dirty = (scene.memory.dirty || decide (cell.lifespan = 1)) ∧
      next.effects = if config.useSpawnExpireEffect ∧ cell.lifespan = 1 then
        scene.effects.insert { kind := .zoom, ip := origin } else scene.effects := by
  obtain ⟨cell, hcell, h⟩ := bind_eq_ok.mp h
  refine ⟨cell, hcell, ?_⟩
  unfold Cell.executed
  split at h
  next hzero =>
    cases h
    simp [hzero, hcell]
  next hzero =>
    rw [if_neg hzero]
    split at h
    next hone =>
      obtain ⟨memory, hm, h⟩ := bind_eq_ok.mp h
      obtain ⟨hself, hother⟩ := setOp_observed hm
      cases h
      rw [if_pos hone, decide_eq_true hone, Bool.or_true]
      exact ⟨hself, hother, setOp_dirty hm, by simp [hone]⟩
    next hone =>
      obtain ⟨memory, hput, h⟩ := bind_eq_ok.mp h
      cases h
      rw [if_neg hone, decide_eq_false hone, Bool.or_false]
      refine ⟨Memory.put_get_self hput, fun place hne => Memory.put_get_other hne hput, ?_,
        by simp [hone]⟩
      obtain ⟨_, rfl⟩ := Memory.put_eq_ok.mp hput
      rfl

section Frame

variable {config : Config} {scene : Scene} {thread : Thread} {cell : Cell} {turn : Turn}

theorem Memory.opAt_get {memory : Memory} {place : Nat} (h : memory.get place = .ok cell) :
    memory.opAt place = some cell.op := by
  unfold Memory.opAt
  rw [Memory.bytes_get h]
  rfl

theorem Thread.copy_leaves {source target length : Int32} {last : Scene}
    (hsize : scene.memory.size ≤ maxCells) (hip : thread.ip < scene.memory.size)
    (h : copyCells config (thread.reach scene.memory.size source)
      (thread.reach scene.memory.size target) thread.direction 0 length.toInt.toNat scene = .ok last) :
    CopyLeaves config (region scene.memory.size (thread.reach scene.memory.size target)
      thread.direction length.toInt.toNat) scene last := by
  have hpos : 0 < scene.memory.size := Nat.zero_lt_of_lt hip
  have hlength := length.toInt_lt
  exact copyCells_leaves hsize (thread.reach_lt hpos source) (thread.reach_lt hpos target)
    thread.direction_eq (by omega) h

/-- With three operands a copy goes through. -/
theorem Turned.copies (turned : Turned config scene thread cell turn)
    {source target length : Int32} {rest : List Int32} (hop : cell.op = .copy)
    (hvalues : thread.stack.values = source :: target :: length :: rest) :
    copyCells config (thread.reach scene.memory.size source) (thread.reach scene.memory.size target)
      thread.direction 0 length.toInt.toNat scene = .ok turn.scene := by
  cases turned with
  | copy _ hstack hlast =>
    rw [hvalues] at hstack
    cases hstack
    exact hlast
  | copyShort _ hshort =>
    rw [hvalues] at hshort
    simp only [List.length_cons] at hshort
    omega
  | halt h | spawn h | spawnEmpty h | push h | pushFull h =>
    rw [hop] at h
    cases h

/-- With an operand a countdown goes through. -/
theorem Turned.countsDown (turned : Turned config scene thread cell turn) (hop : cell.op = .spawn)
    (hvalues : thread.stack.values ≠ []) : countDown config scene thread.ip = .ok turn.scene := by
  cases turned with
  | spawn _ _ hlast => exact hlast
  | spawnEmpty _ hempty => exact absurd hempty hvalues
  | copy h | copyShort h | halt h | push h | pushFull h =>
    rw [hop] at h
    cases h

/-- A turn changes no cell but those that it writes. -/
theorem Turned.frame (hsize : scene.memory.size ≤ maxCells)
    (hcell : scene.memory.get thread.ip = .ok cell) (turned : Turned config scene thread cell turn)
    {place : Nat} (h : place ∉ thread.writes scene.memory) :
    turn.scene.memory.get place = scene.memory.get place := by
  have hat := Memory.opAt_get hcell
  cases turned with
  | copy hop hvalues hlast =>
    rw [Thread.writes, hat, hop, hvalues] at h
    exact (Thread.copy_leaves hsize (Memory.get_lt hcell) hlast).kept place h
  | spawn hop hvalues hlast =>
    rw [Thread.writes, hat, hop, hvalues] at h
    obtain ⟨_, _, _, hother, _⟩ := countDown_observed hlast
    exact hother place (List.ne_of_not_mem_cons h)
  | copyShort | halt | spawnEmpty | push | pushFull => rfl

theorem Turned.thread_eq (turned : Turned config scene thread cell turn) :
    turn.thread = thread.stepped scene.memory.size (thread.stack.used cell.op) := by
  cases turned with
  | copy hop hvalues _ => rw [hop, Stack.used, hvalues]; rfl
  | copyShort hop hshort => rw [hop, Stack.used, List.drop_eq_nil_of_le (by omega)]
  | halt hop => rw [hop, Stack.used]
  | spawn hop hvalues _ => rw [hop, Stack.used, hvalues]; rfl
  | spawnEmpty hop hvalues => rw [hop, Stack.used, hvalues]; rfl
  | push hop hroom => rw [hop, Stack.used, if_pos hroom]
  | pushFull hop hfull => rw [hop, Stack.used, if_neg (Nat.not_lt_of_le hfull)]

theorem Turned.failed_iff (turned : Turned config scene thread cell turn) (error : StackError) :
    turn.outcome = .failed error ↔
      (cell.op = .copy ∧ thread.stack.values.length < 3 ∨
        cell.op = .spawn ∧ thread.stack.values = []) ∧ error = .underflow ∨
      (∃ literal, cell.op = .push literal) ∧
        thread.stack.capacity ≤ thread.stack.values.length ∧
        error = .overflow thread.stack.capacity := by
  cases turned with
  | copy hop hvalues _ => simp [hop, hvalues]
  | copyShort hop hshort => simp [hop, hshort, eq_comm]
  | halt hop => simp [hop]
  | spawn hop hvalues _ => simp [hop, hvalues]
  | spawnEmpty hop hvalues => simp [hop, hvalues, eq_comm]
  | push hop hroom => simp [hop, hroom]
  | pushFull hop hfull => simp [hop, hfull, eq_comm]

theorem Turned.halted_iff (turned : Turned config scene thread cell turn) :
    turn.outcome = .halted ↔ cell.op = .halt := by
  cases turned with
  | copy hop | copyShort hop | halt hop | spawn hop | spawnEmpty hop | push hop | pushFull hop =>
    simp [hop]

/-- Only a copy and a countdown touch the scene, and only if they go through. -/
theorem Turned.scene_eq (turned : Turned config scene thread cell turn)
    (h : turn.outcome ≠ .running ∨ ∃ literal, cell.op = .push literal) : turn.scene = scene := by
  cases turned with
  | copy hop => simp [hop] at h
  | spawn hop => simp [hop] at h
  | copyShort | halt | spawnEmpty | push | pushFull => rfl

/-- Counting down queues at most a zoom where the thread stood. -/
theorem Turned.spawn_effects (turned : Turned config scene thread cell turn)
    (hop : cell.op = .spawn) :
    turn.scene.effects = scene.effects ∨
      turn.scene.effects = scene.effects.insert { kind := .zoom, ip := thread.ip } := by
  cases turned with
  | spawn _ _ hlast =>
    obtain ⟨_, _, _, _, _, heffects⟩ := countDown_observed hlast
    split at heffects
    next => exact Or.inr heffects
    next => exact Or.inl heffects
  | spawnEmpty => exact Or.inl rfl
  | copy h | copyShort h | halt h | push h | pushFull h =>
    rw [hop] at h
    cases h

theorem CopyLeaves.new_effects {places : List Nat} {first last : Scene}
    (leaves : CopyLeaves config places first last) :
    ∃ new, last.effects.toList = new ++ first.effects.toList ∧
      ∀ effect ∈ new, ∃ place ∈ places, effect = { kind := .zoom, ip := place } := by
  refine ⟨_, leaves.effects, ?_⟩
  intro effect hmem
  split at hmem
  next =>
    obtain ⟨⟨place, hplace, rfl⟩, _⟩ := mem_newZooms.mp hmem
    exact ⟨place, hplace, rfl⟩
  next => cases hmem

end Frame

/-- One turn of a thread. It fails exactly if operands are missing or the stack is full, and halts
exactly on a halt. If it fails or halts, or pushes, the scene stays as it is; a countdown changes
the cell under the thread alone, and a copy its target cells alone, and new effects are zooms at
such places. In any case the pointer moves by one cell, the age grows, and the stack keeps what
lies below the operands. -/
theorem turn_outcome_and_frame (config : Config) {scene : Scene} {thread : Thread}
    (hsize : scene.memory.size ≤ maxCells) (hip : thread.ip < scene.memory.size) :
    let size := scene.memory.size
    let values := thread.stack.values
    let capacity := thread.stack.capacity
    ∃ cell turn, scene.memory.get thread.ip = .ok cell ∧ dispatch config scene thread = .ok turn ∧
      (∀ error, turn.outcome = .failed error ↔
        (cell.op = .copy ∧ values.length < 3 ∨ cell.op = .spawn ∧ values = []) ∧
          error = .underflow ∨
        (∃ literal, cell.op = .push literal) ∧ capacity ≤ values.length ∧
          error = .overflow capacity) ∧
      (turn.outcome = .halted ↔ cell.op = .halt) ∧
      (turn.outcome ≠ .running → turn.scene = scene) ∧
      ((∃ literal, cell.op = .push literal) → turn.scene = scene) ∧
      (cell.op = .spawn →
        (∀ place, place ≠ thread.ip →
          turn.scene.memory.get place = scene.memory.get place) ∧
        (turn.scene.effects = scene.effects ∨
          turn.scene.effects = scene.effects.insert { kind := .zoom, ip := thread.ip })) ∧
      (∀ source target length rest, cell.op = .copy →
        values = source :: target :: length :: rest →
        (∀ place, (∀ i < length.toInt.toNat,
            onRing size (thread.reach size target + thread.direction * (i : Nat)) ≠ place) →
          turn.scene.memory.get place = scene.memory.get place) ∧
        ∃ new, turn.scene.effects.toList = new ++ scene.effects.toList ∧
          ∀ effect ∈ new, ∃ i < length.toInt.toNat, effect = {
            kind := .zoom
            ip := onRing size (thread.reach size target + thread.direction * (i : Nat)) }) ∧
      turn.scene.memory.shape = scene.memory.shape ∧
      turn.thread = {
        ip := onRing size (thread.ip + thread.direction)
        stack := { values := thread.stack.used cell.op, capacity }
        age := min (thread.age + 1) (2 ^ 32 - 1)
        reversed := thread.reversed } := by
  intro size values capacity
  obtain ⟨cell, hcell⟩ := Memory.get_exists hip
  obtain ⟨turn, hturn⟩ := dispatch_exists config hsize hip
  have turned := dispatch_turned hsize hcell hturn
  refine ⟨cell, turn, hcell, hturn, turned.failed_iff, turned.halted_iff,
    fun h => turned.scene_eq (Or.inl h), fun h => turned.scene_eq (Or.inr h), ?_, ?_,
    (dispatch_moves hturn).shape, turned.thread_eq⟩
  · intro hop
    refine ⟨?_, turned.spawn_effects hop⟩
    intro place hne
    refine turned.frame hsize hcell ?_
    rw [Thread.writes, Memory.opAt_get hcell, hop]
    cases thread.stack.values with
    | nil => exact List.not_mem_nil
    | cons => exact fun hmem => hne (List.mem_singleton.mp hmem)
  · intro source target length rest hop hvalues
    have leaves := Thread.copy_leaves hsize hip (turned.copies hop hvalues)
    refine ⟨fun place hnot => leaves.kept place ?_, ?_⟩
    · intro hmem
      obtain ⟨i, hi, heq⟩ := mem_region.mp hmem
      exact hnot i hi heq
    · obtain ⟨new, heffects, hzooms⟩ := leaves.new_effects
      refine ⟨new, heffects, ?_⟩
      intro effect hmem
      obtain ⟨place, hplace, rfl⟩ := hzooms effect hmem
      obtain ⟨i, hi, rfl⟩ := mem_region.mp hplace
      exact ⟨i, hi, rfl⟩

/-- Stands on the copy cell too, but no length is left. -/
def starved : Thread := { copier with stack := ⟨[0, 2], 4⟩ }

/-- Without a length a copy loses its two operands and changes nothing else. With a length it leaves
the cell before its targets alone. -/
theorem turn_outcome_spawnRing :
    (∃ turn, dispatch {} spawnRing starved = .ok turn ∧
      turn.outcome = .failed .underflow ∧ turn.scene = spawnRing ∧
      turn.thread = { ip := 1, stack := ⟨[], 4⟩, age := 1, reversed := false }) ∧
    ∃ turn, dispatch {} spawnRing copier = .ok turn ∧ turn.outcome ≠ .halted ∧
      turn.scene.memory.get 2 = .ok { byte := 10 } ∧
      turn.thread = { ip := 1, stack := ⟨[], 4⟩, age := 1, reversed := false } := by
  constructor
  · obtain ⟨cell, turn, hcell, hturn, hfailed, _, hscene, _, _, _, _, hthread⟩ :=
      turn_outcome_and_frame {} (show spawnRing.memory.size ≤ maxCells by decide)
        (show starved.ip < spawnRing.memory.size by decide)
    obtain rfl : { byte := copyByte } = cell := Except.ok.inj hcell
    have hshort := (hfailed .underflow).mpr (Or.inl ⟨Or.inl ⟨rfl, by decide⟩, rfl⟩)
    exact ⟨turn, hturn, hshort, hscene (by simp [hshort]), hthread⟩
  · obtain ⟨cell, turn, hcell, hturn, _, hhalted, _, _, _, hcopy, _, hthread⟩ :=
      turn_outcome_and_frame {} (show spawnRing.memory.size ≤ maxCells by decide)
        (show copier.ip < spawnRing.memory.size by decide)
    obtain rfl : { byte := copyByte } = cell := Except.ok.inj hcell
    exact ⟨turn, hturn, mt hhalted.mp (by decide), (hcopy 0 2 3 [] rfl rfl).1 2 (by decide), hthread⟩

end ThreadSoup
