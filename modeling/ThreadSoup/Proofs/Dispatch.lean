import ThreadSoup.Proofs.Scene

namespace ThreadSoup

/-- Pushes and pops keep the capacity and never leave a stack deeper than it allows. -/
structure Stack.Within (before after : Stack) : Prop where
  capacity_eq : after.capacity = before.capacity
  depth_le : after.depth ≤ max before.depth before.capacity

theorem Stack.Within.refl (stack : Stack) : Stack.Within stack stack :=
  ⟨rfl, Nat.le_max_left _ _⟩

theorem Stack.Within.trans {a b c : Stack} (first : Stack.Within a b)
    (second : Stack.Within b c) : Stack.Within a c := by
  refine ⟨second.capacity_eq.trans first.capacity_eq, ?_⟩
  have hb := first.depth_le
  have hc := second.depth_le
  rw [first.capacity_eq] at hc
  omega

theorem Stack.pop_within {stack rest : Stack} {value : Int32}
    (h : stack.pop = .ok (value, rest)) : Stack.Within stack rest := by
  unfold Stack.pop at h
  split at h
  next => cases h
  next head tail hv =>
    cases h
    refine ⟨rfl, ?_⟩
    simp only [Stack.depth, hv, List.length_cons]
    omega

theorem Stack.push_within {stack next : Stack} {value : Int32}
    (h : stack.push value = .ok next) : Stack.Within stack next := by
  unfold Stack.push at h
  split at h
  next => cases h
  next hfull =>
    cases h
    have hroom : stack.values.length < stack.capacity := by
      unfold Stack.isFull Stack.depth at hfull
      exact Nat.lt_of_not_le fun hle => hfull (decide_eq_true hle)
    refine ⟨rfl, ?_⟩
    simp only [Stack.depth, List.length_cons]
    omega

theorem popCopyOperands_within (stack : Stack) :
    Stack.Within stack (popCopyOperands stack).1 := by
  unfold popCopyOperands
  split
  next => exact Stack.Within.refl stack
  next h₁ =>
    split
    next => exact Stack.pop_within h₁
    next h₂ =>
      split
      next => exact (Stack.pop_within h₁).trans (Stack.pop_within h₂)
      next h₃ => exact ((Stack.pop_within h₁).trans (Stack.pop_within h₂)).trans (Stack.pop_within h₃)

/-- How a thread whose pointer has moved acts: it uses its stack and makes moves. -/
structure Acts (config : Config) (scene : Scene) (thread : Thread) (turn : Turn) : Prop where
  thread_eq : turn.thread = { thread with stack := turn.thread.stack }
  stack : Stack.Within thread.stack turn.thread.stack
  moves : Moves config scene turn.scene

theorem copyCells_moves {config : Config} {source target done count : Nat} {direction : Int}
    {scene next : Scene} (h : copyCells config source target direction done count scene = .ok next) :
    Moves config scene next := by
  induction count generalizing done scene with
  | zero => cases h; exact Moves.refl _
  | succ count ih =>
    obtain ⟨offset, _, h⟩ := bind_eq_ok.mp h
    obtain ⟨i, _, h⟩ := bind_eq_ok.mp h
    obtain ⟨j, _, h⟩ := bind_eq_ok.mp h
    obtain ⟨middle, hc, h⟩ := bind_eq_ok.mp h
    exact (Move.copy hc).moves.trans (ih h)

theorem runCopy_acts {config : Config} {scene : Scene} {thread : Thread} {turn : Turn}
    (h : runCopy config scene thread = .ok turn) : Acts config scene thread turn := by
  have hstack := popCopyOperands_within thread.stack
  unfold runCopy at h
  split at h
  next stack e hp =>
    cases h
    rw [hp] at hstack
    exact ⟨rfl, hstack, Moves.refl scene⟩
  next stack operands hp =>
    rw [hp] at hstack
    obtain ⟨source, _, h⟩ := bind_eq_ok.mp h
    obtain ⟨target, _, h⟩ := bind_eq_ok.mp h
    obtain ⟨next, hc, h⟩ := bind_eq_ok.mp h
    cases h
    exact ⟨rfl, hstack, copyCells_moves hc⟩

theorem runSpawn_acts {config : Config} {scene : Scene} {thread : Thread} {origin : Nat} {turn : Turn}
    (h : runSpawn config scene thread origin = .ok turn) : Acts config scene thread turn := by
  unfold runSpawn at h
  split at h
  next => cases h; exact ⟨rfl, Stack.Within.refl _, Moves.refl scene⟩
  next hp =>
    obtain ⟨next, hc, h⟩ := bind_eq_ok.mp h
    cases h
    exact ⟨rfl, Stack.pop_within hp, (Move.countDown hc).moves⟩

theorem runPush_acts (config : Config) (scene : Scene) (thread : Thread) (literal : Int32) :
    Acts config scene thread (runPush scene thread literal) := by
  unfold runPush
  split
  next => exact ⟨rfl, Stack.Within.refl _, Moves.refl scene⟩
  next hp => exact ⟨rfl, Stack.push_within hp, Moves.refl scene⟩

/-- A turn moves the pointer by one cell and ages the thread, whatever its outcome. -/
structure Thread.Steps (size : Nat) (before after : Thread) : Prop where
  ip : wrap before.ip before.direction size = .ok after.ip
  age : after.age = saturatingAdd before.age 1
  reversed : after.reversed = before.reversed
  stack : Stack.Within before.stack after.stack

theorem dispatch_acts {config : Config} {scene : Scene} {thread : Thread} {turn : Turn}
    (h : dispatch config scene thread = .ok turn) :
    ∃ ip, scene.memory.wrap thread.ip thread.direction = .ok ip ∧
      Acts config scene { thread with ip, age := saturatingAdd thread.age 1 } turn := by
  obtain ⟨cell, _, h⟩ := bind_eq_ok.mp h
  obtain ⟨ip, hip, h⟩ := bind_eq_ok.mp h
  refine ⟨ip, hip, ?_⟩
  simp only at h
  split at h
  next => exact runCopy_acts h
  next => cases h; exact ⟨rfl, Stack.Within.refl _, Moves.refl scene⟩
  next => exact runSpawn_acts h
  next literal _ => cases h; exact runPush_acts config scene _ literal

theorem dispatch_moves {config : Config} {scene : Scene} {thread : Thread} {turn : Turn}
    (h : dispatch config scene thread = .ok turn) : Moves config scene turn.scene := by
  obtain ⟨_, _, hacts⟩ := dispatch_acts h
  exact hacts.moves

theorem dispatch_steps {config : Config} {scene : Scene} {thread : Thread} {turn : Turn}
    (h : dispatch config scene thread = .ok turn) : thread.Steps scene.memory.size turn.thread := by
  obtain ⟨ip, hip, hacts⟩ := dispatch_acts h
  have hstack := hacts.stack
  rw [hacts.thread_eq]
  exact ⟨hip, rfl, rfl, hstack⟩

theorem Thread.direction_eq (thread : Thread) : thread.direction = 1 ∨ thread.direction = -1 := by
  unfold Thread.direction
  cases thread.reversed with
  | true => exact Or.inr rfl
  | false => exact Or.inl rfl

/-- No offset of a copy is longer than its length, which fits 32 signed bits. -/
theorem signedMul_direction {done : Nat} {direction : Int} (hdir : direction = 1 ∨ direction = -1)
    (hdone : done ≤ 2 ^ 31) :
    signedMul done direction = .ok (done * direction) ∧ -2 ^ 31 ≤ (done : Int) * direction ∧
      (done : Int) * direction ≤ 2 ^ 31 := by
  have hoffset : -2 ^ 31 ≤ (done : Int) * direction ∧ (done : Int) * direction ≤ 2 ^ 31 := by
    rcases hdir with rfl | rfl <;> omega
  exact ⟨signedMul_eq (by omega) (by omega), hoffset⟩

theorem copyCells_exists {source target done count : Nat} {direction : Int} {scene : Scene}
    (config : Config) (hsize : scene.memory.size ≤ maxCells)
    (hs : source < scene.memory.size) (ht : target < scene.memory.size)
    (hdir : direction = 1 ∨ direction = -1) (hcount : done + count ≤ 2 ^ 31) :
    ∃ next, copyCells config source target direction done count scene = .ok next := by
  have hmax : maxCells ≤ 2 ^ 62 := by decide
  induction count generalizing done scene with
  | zero => exact ⟨scene, rfl⟩
  | succ count ih =>
    obtain ⟨hmul, hlow, hhigh⟩ := signedMul_direction hdir (by omega : done ≤ 2 ^ 31)
    obtain ⟨i, hi, hilt⟩ := wrap_exists (by omega) hs (by omega : -2 ^ 62 ≤ (done : Int) * direction)
      (by omega)
    obtain ⟨j, hj, hjlt⟩ := wrap_exists (by omega) ht (by omega : -2 ^ 62 ≤ (done : Int) * direction)
      (by omega)
    obtain ⟨middle, hm⟩ := copyCell_exists config hilt hjlt
    have hsame := (Move.copy hm).moves.size
    obtain ⟨next, hn⟩ := ih (hsame ▸ hsize) (hsame ▸ hs) (hsame ▸ ht)
      (by omega : done + 1 + count ≤ 2 ^ 31)
    refine ⟨next, ?_⟩
    unfold copyCells Memory.wrap
    rw [hmul, ok_bind, hi, ok_bind, hj, ok_bind, hm, ok_bind, hn]

theorem runCopy_exists {scene : Scene} {thread : Thread} (config : Config)
    (hsize : scene.memory.size ≤ maxCells) (hip : thread.ip < scene.memory.size) :
    ∃ turn, runCopy config scene thread = .ok turn := by
  have hmax : maxCells ≤ 2 ^ 62 := by decide
  unfold runCopy
  split
  next => exact ⟨_, rfl⟩
  next stack operands _ =>
    have hsl := operands.source.le_toInt
    have hsu := operands.source.toInt_lt
    have htl := operands.target.le_toInt
    have htu := operands.target.toInt_lt
    have hlu := operands.length.toInt_lt
    obtain ⟨source, hs, hslt⟩ := wrap_exists (by omega) hip
      (by omega : -2 ^ 62 ≤ operands.source.toInt) (by omega)
    obtain ⟨target, ht, htlt⟩ := wrap_exists (by omega) hip
      (by omega : -2 ^ 62 ≤ operands.target.toInt) (by omega)
    obtain ⟨next, hn⟩ := copyCells_exists config hsize hslt htlt thread.direction_eq
      (by omega : 0 + operands.length.toInt.toNat ≤ 2 ^ 31)
    unfold Memory.wrap
    rw [hs, ok_bind, ht, ok_bind, hn]
    exact ⟨_, rfl⟩

theorem runSpawn_exists {scene : Scene} {thread : Thread} {origin : Nat} (config : Config)
    (h : origin < scene.memory.size) : ∃ turn, runSpawn config scene thread origin = .ok turn := by
  unfold runSpawn
  split
  next => exact ⟨_, rfl⟩
  next =>
    obtain ⟨next, hn⟩ := countDown_exists config h
    rw [hn]
    exact ⟨_, rfl⟩

/-- A thread on a grid of accepted size always has its turn. -/
theorem dispatch_exists {scene : Scene} {thread : Thread} (config : Config)
    (hsize : scene.memory.size ≤ maxCells) (hip : thread.ip < scene.memory.size) :
    ∃ turn, dispatch config scene thread = .ok turn := by
  have hmax : maxCells ≤ 2 ^ 62 := by decide
  obtain ⟨cell, hc⟩ := Memory.get_exists hip
  have hdir := thread.direction_eq
  obtain ⟨ip, hw, hlt⟩ := wrap_exists (by omega) hip (by omega : -2 ^ 62 ≤ thread.direction)
    (by omega)
  unfold dispatch Memory.wrap
  simp only [hc, ok_bind, hw]
  split
  next => exact runCopy_exists config hsize hlt
  next => exact ⟨_, rfl⟩
  next => exact runSpawn_exists config hip
  next => exact ⟨_, rfl⟩

end ThreadSoup
