import ThreadSoup.Proofs.Footprint

namespace ThreadSoup

/-- A turn together with the scene and the thread that it began with. -/
structure Deed where
  scene : Scene
  thread : Thread
  turn : Turn
deriving DecidableEq

namespace Deed

def op (deed : Deed) : Option Op := deed.scene.memory.opAt deed.thread.ip

/-- The turn executes a spawn cell at the place, and it does not fail. -/
def Wears (place : Nat) (deed : Deed) : Prop :=
  deed.thread.ip = place ∧ deed.op = some .spawn ∧ deed.turn.outcome = .running

instance (place : Nat) : DecidablePred (Wears place) :=
  fun deed => inferInstanceAs (Decidable (deed.thread.ip = place ∧ _ ∧ _))

/-- The turn is a copy, and the place is one of its targets. -/
def CopiesOnto (place : Nat) (deed : Deed) : Prop :=
  deed.op = some .copy ∧ place ∈ deed.thread.writes deed.scene.memory

instance (place : Nat) : DecidablePred (CopiesOnto place) :=
  fun deed => inferInstanceAs (Decidable (deed.op = some .copy ∧ _))

end Deed

/-- How often the spawn cell at a place is executed. -/
def wear (place : Nat) (deeds : List Deed) : Nat := deeds.countP (·.Wears place)

/-- Threads have a turn one after the other, each as it is when its turn comes. Gives all turns and
the scene that they leave. -/
def takeTurns (config : Config) : List Thread → Scene → Except Fault (List Deed × Scene)
  | [], scene => .ok ([], scene)
  | thread :: threads, scene => do
    let turn ← dispatch config scene thread
    let (deeds, last) ← takeTurns config threads turn.scene
    return ({ scene, thread, turn } :: deeds, last)

section Turns

variable {config : Config} {scene last : Scene} {threads : List Thread} {deeds : List Deed}
  {deed : Deed} {place : Nat} {cell : Cell}

theorem takeTurns_cons_eq_ok {thread : Thread}
    (h : takeTurns config (thread :: threads) scene = .ok (deeds, last)) :
    ∃ turn rest, dispatch config scene thread = .ok turn ∧
      takeTurns config threads turn.scene = .ok (rest, last) ∧
      deeds = { scene, thread, turn } :: rest := by
  obtain ⟨turn, hturn, h⟩ := bind_eq_ok.mp h
  obtain ⟨⟨rest, final⟩, hrest, h⟩ := bind_eq_ok.mp h
  cases h
  exact ⟨turn, rest, hturn, hrest, rfl⟩

theorem takeTurns_exists (config : Config) (hsize : scene.memory.size ≤ maxCells)
    (hips : ∀ thread ∈ threads, thread.ip < scene.memory.size) :
    ∃ deeds last, takeTurns config threads scene = .ok (deeds, last) := by
  induction threads generalizing scene with
  | nil => exact ⟨[], scene, rfl⟩
  | cons thread threads ih =>
    obtain ⟨turn, hturn⟩ := dispatch_exists config hsize (hips thread (by simp))
    have hsame := (dispatch_moves hturn).size
    obtain ⟨deeds, last, hrest⟩ := ih (hsame ▸ hsize)
      (fun other hmem => hsame ▸ hips other (List.mem_cons_of_mem thread hmem))
    exact ⟨_, last, by rw [takeTurns, hturn, ok_bind, hrest]; rfl⟩

theorem takeTurns_size (h : takeTurns config threads scene = .ok (deeds, last)) :
    last.memory.size = scene.memory.size := by
  induction threads generalizing scene deeds with
  | nil => cases h; rfl
  | cons thread threads ih =>
    obtain ⟨turn, rest, hturn, hrest, _⟩ := takeTurns_cons_eq_ok h
    exact (ih hrest).trans (dispatch_moves hturn).size

/-- The turns before a given one are turns of their own. -/
theorem takeTurns_split {earlier later : List Deed}
    (h : takeTurns config threads scene = .ok (earlier ++ deed :: later, last)) :
    ∃ before, takeTurns config before scene = .ok (earlier, deed.scene) ∧
      dispatch config deed.scene deed.thread = .ok deed.turn := by
  induction earlier generalizing threads scene with
  | nil =>
    cases threads with
    | nil => cases h
    | cons thread threads =>
      obtain ⟨turn, rest, hturn, _, heq⟩ := takeTurns_cons_eq_ok h
      cases heq
      exact ⟨[], rfl, hturn⟩
  | cons first earlier ih =>
    cases threads with
    | nil => cases h
    | cons thread threads =>
      obtain ⟨turn, rest, hturn, hrest, heq⟩ := takeTurns_cons_eq_ok h
      cases heq
      obtain ⟨before, hbefore, hdeed⟩ := ih hrest
      exact ⟨thread :: before, by rw [takeTurns, hturn, ok_bind, hbefore]; rfl, hdeed⟩

theorem Deed.turned (hsize : deed.scene.memory.size ≤ maxCells)
    (hturn : dispatch config deed.scene deed.thread = .ok deed.turn) :
    ∃ own, deed.op = some own.op ∧ deed.scene.memory.get deed.thread.ip = .ok own ∧
      Turned config deed.scene deed.thread own deed.turn := by
  obtain ⟨own, hown, _⟩ := bind_eq_ok.mp hturn
  exact ⟨own, Memory.opAt_get hown, hown, dispatch_turned hsize hown hturn⟩

theorem Deed.Wears.countsDown (wears : deed.Wears place)
    (hsize : deed.scene.memory.size ≤ maxCells)
    (hturn : dispatch config deed.scene deed.thread = .ok deed.turn) :
    countDown config deed.scene place = .ok deed.turn.scene := by
  obtain ⟨hip, hop, hrunning⟩ := wears
  obtain ⟨own, hown, _, turned⟩ := Deed.turned hsize hturn
  have hspawn : own.op = .spawn := Option.some.inj (hown.symm.trans hop)
  rw [← hip]
  refine turned.countsDown hspawn ?_
  intro hempty
  have hfailed := (turned.failed_iff .underflow).mpr (Or.inl ⟨Or.inr ⟨hspawn, hempty⟩, rfl⟩)
  rw [hrunning] at hfailed
  cases hfailed

/-- Any other turn leaves the cell alone, unless it copies onto it. -/
theorem Deed.cell_kept (hsize : deed.scene.memory.size ≤ maxCells)
    (hturn : dispatch config deed.scene deed.thread = .ok deed.turn)
    (hspared : ¬deed.CopiesOnto place) (hwears : ¬deed.Wears place) :
    deed.turn.scene.memory.get place = deed.scene.memory.get place := by
  obtain ⟨scene, thread, turn⟩ := deed
  obtain ⟨own, hop, hown, turned⟩ := Deed.turned hsize hturn
  have hframe : place ∉ thread.writes scene.memory → _ := turned.frame hsize hown
  dsimp only at turned
  cases turned with
  | copy hcopy => exact hframe fun hmem => hspared ⟨hop.trans (congrArg some hcopy), hmem⟩
  | spawn hspawn _ hlast =>
    have hne : place ≠ thread.ip :=
      fun heq => hwears ⟨heq.symm, hop.trans (congrArg some hspawn), rfl⟩
    obtain ⟨_, _, _, hother, _⟩ := countDown_observed hlast
    exact hother place hne
  | copyShort | halt | spawnEmpty | push | pushFull => rfl

/-- What a cell goes through if nothing is copied onto it: a property that says how often the cell
has been executed, and that another execution keeps, holds after all turns. -/
theorem takeTurns_wear {P : Nat → Cell → Prop}
    (step : ∀ count cell, P count cell → cell.op = .spawn → P (count + 1) cell.executed)
    (count : Nat) (hsize : scene.memory.size ≤ maxCells)
    (h : takeTurns config threads scene = .ok (deeds, last))
    (hspared : ∀ deed ∈ deeds, ¬deed.CopiesOnto place)
    (hcell : scene.memory.get place = .ok cell) (hp : P count cell) :
    ∃ now, last.memory.get place = .ok now ∧ P (count + wear place deeds) now := by
  induction threads generalizing scene deeds count cell with
  | nil =>
    cases h
    exact ⟨cell, hcell, hp⟩
  | cons thread threads ih =>
    obtain ⟨turn, rest, hturn, hrest, rfl⟩ := takeTurns_cons_eq_ok h
    have hsame := (dispatch_moves hturn).size
    have hlater : ∀ deed ∈ rest, ¬deed.CopiesOnto place :=
      fun deed hmem => hspared deed (List.mem_cons_of_mem _ hmem)
    have hcount : wear place ({ scene, thread, turn } :: rest) =
        wear place rest + if Deed.Wears place { scene, thread, turn } then 1 else 0 := by
      simp [wear, List.countP_cons]
    rw [hcount]
    -- an execution moves the count on together with the cell, any other turn leaves both
    by_cases hwears : Deed.Wears place { scene, thread, turn }
    · obtain ⟨own, hown, hself, _⟩ := countDown_observed (hwears.countsDown hsize hturn)
      obtain rfl : cell = own := Except.ok.inj (hcell.symm.trans hown)
      have hspawn : cell.op = .spawn := by
        have hop := hwears.2.1
        rw [Deed.op, hwears.1, Memory.opAt_get hcell] at hop
        exact Option.some.inj hop
      rw [if_pos hwears, Nat.add_comm _ 1, ← Nat.add_assoc]
      exact ih (count + 1) (hsame ▸ hsize) hrest hlater hself (step count cell hp hspawn)
    · have hkept := Deed.cell_kept hsize hturn (hspared _ List.mem_cons_self) hwears
      rw [if_neg hwears, Nat.add_zero]
      exact ih count (hsame ▸ hsize) hrest hlater (hkept.trans hcell) hp

end Turns

/-- A spawn cell that has been executed some times. At the end of its lifespan it is a halt. -/
def Cell.worn (cell : Cell) (times : Nat) : Cell :=
  if times < cell.lifespan then { cell with lifespan := cell.lifespan - times }
  else { byte := haltByte, modified := writeHighlight, lifespan := 0 }

section Worn

variable {cell : Cell} {times : Nat}

theorem Cell.worn_of_lt (h : times < cell.lifespan) :
    cell.worn times = { cell with lifespan := cell.lifespan - times } := if_pos h

theorem Cell.worn_out (cell : Cell) :
    cell.worn cell.lifespan = { byte := haltByte, modified := writeHighlight, lifespan := 0 } :=
  if_neg (Nat.lt_irrefl _)

theorem Cell.lt_of_worn_op (h : (cell.worn times).op = .spawn) : times < cell.lifespan := by
  by_contra hout
  rw [Cell.worn, if_neg hout] at h
  cases h

theorem Cell.worn_executed (h : times < cell.lifespan) :
    (cell.worn times).executed = cell.worn (times + 1) := by
  have hleft : cell.lifespan - times ≠ 0 := by omega
  rw [Cell.worn_of_lt h, Cell.executed, if_neg hleft, Cell.worn]
  by_cases hlast : times + 1 < cell.lifespan
  · have hmore : cell.lifespan - times ≠ 1 := by omega
    rw [if_neg hmore, if_pos hlast, Nat.sub_sub]
  · have hone : cell.lifespan - times = 1 := by omega
    rw [if_pos hone, if_neg hlast]

end Worn

section Lifetime

variable {config : Config} {scene last : Scene} {threads : List Thread} {deeds : List Deed}
  {place : Nat} {cell : Cell}

/-- A spawn cell with a lifespan is executed at most as often as that says. -/
theorem takeTurns_worn (hsize : scene.memory.size ≤ maxCells)
    (h : takeTurns config threads scene = .ok (deeds, last))
    (hspared : ∀ deed ∈ deeds, ¬deed.CopiesOnto place)
    (hcell : scene.memory.get place = .ok cell) (hlife : 1 ≤ cell.lifespan) :
    wear place deeds ≤ cell.lifespan ∧
      last.memory.get place = .ok (cell.worn (wear place deeds)) := by
  obtain ⟨now, hnow, hle, rfl⟩ := takeTurns_wear
    (P := fun count now => count ≤ cell.lifespan ∧ now = cell.worn count)
    (by
      rintro count now ⟨_, rfl⟩ hspawn
      have hlt := Cell.lt_of_worn_op hspawn
      exact ⟨hlt, Cell.worn_executed hlt⟩)
    0 hsize h hspared hcell ⟨Nat.zero_le _, (Cell.worn_of_lt hlife).symm⟩
  rw [Nat.zero_add] at hle hnow
  exact ⟨hle, hnow⟩

end Lifetime

/-- The life of a spawn cell, whatever threads have turns in whatever order, if nothing is copied
onto it. Each execution that does not fail takes one from its lifespan. The last one turns it into a
halt and may queue a zoom, and from then on it kills every thread that comes to it. Without a
lifespan it stays as it is. -/
theorem spawn_cell_lifetime (config : Config) {scene : Scene} {place : Nat} {cell : Cell}
    {threads : List Thread} (hsize : scene.memory.size ≤ maxCells)
    (hcell : scene.memory.get place = .ok cell) (hspawn : cell.op = .spawn)
    (hips : ∀ thread ∈ threads, thread.ip < scene.memory.size) :
    ∃ deeds last, takeTurns config threads scene = .ok (deeds, last) ∧
      ((∀ deed ∈ deeds, ¬deed.CopiesOnto place) →
        (cell.lifespan = 0 → last.memory.get place = .ok cell) ∧
        (1 ≤ cell.lifespan →
          wear place deeds ≤ cell.lifespan ∧
          (wear place deeds < cell.lifespan → ∃ now, last.memory.get place = .ok now ∧
            now.op = .spawn ∧ now.lifespan = cell.lifespan - wear place deeds) ∧
          (wear place deeds = cell.lifespan → ∃ now, last.memory.get place = .ok now ∧
            now.op = .halt ∧ now.lifespan = 0) ∧
          ∀ earlier deed later, deeds = earlier ++ deed :: later →
            (wear place earlier = cell.lifespan → deed.thread.ip = place →
              deed.turn.outcome = .halted) ∧
            (deed.Wears place → wear place earlier + 1 = cell.lifespan →
              config.useSpawnExpireEffect = true →
              { kind := .zoom, ip := place } ∈ deed.turn.scene.effects.toList))) := by
  obtain ⟨deeds, last, hturns⟩ := takeTurns_exists config hsize hips
  refine ⟨deeds, last, hturns, ?_⟩
  intro hspared
  refine ⟨?_, ?_⟩
  · intro hzero
    obtain ⟨now, hnow, rfl⟩ := takeTurns_wear (P := fun _ now => now = cell)
      (by
        rintro _ now rfl _
        exact if_pos hzero)
      0 hsize hturns hspared hcell rfl
    exact hnow
  · intro hlife
    obtain ⟨hle, hnow⟩ := takeTurns_worn hsize hturns hspared hcell hlife
    refine ⟨hle, ?_, ?_, ?_⟩
    · intro hlt
      rw [Cell.worn_of_lt hlt] at hnow
      exact ⟨_, hnow, hspawn, rfl⟩
    · intro hall
      rw [hall, Cell.worn_out] at hnow
      exact ⟨_, hnow, rfl, rfl⟩
    · rintro earlier deed later rfl
      -- the turns before this one are a sequence of their own, so the cell that it finds is known
      obtain ⟨before, hbefore, hdeed⟩ := takeTurns_split hturns
      have hsize' : deed.scene.memory.size ≤ maxCells := takeTurns_size hbefore ▸ hsize
      obtain ⟨_, hthen⟩ := takeTurns_worn hsize hbefore
        (fun other hmem => hspared other (List.mem_append_left _ hmem)) hcell hlife
      refine ⟨?_, ?_⟩
      · intro hall hip
        obtain ⟨own, _, hown, turned⟩ := Deed.turned hsize' hdeed
        rw [hip, hthen, hall, Cell.worn_out] at hown
        cases hown
        exact turned.halted_iff.mpr rfl
      · intro hwears hlast hshown
        obtain ⟨own, hown, _, _, _, heffects⟩ :=
          countDown_observed (hwears.countsDown hsize' hdeed)
        rw [hthen, Cell.worn_of_lt (by omega)] at hown
        cases hown
        have hone : cell.lifespan - wear place earlier = 1 := by omega
        rw [heffects, if_pos ⟨hshown, hone⟩, EffectQueue.mem_insert]
        exact Or.inl rfl

/-- A ring of five cells with a spawn cell of two lives at place 1 and one without a lifespan at
place 3. -/
def mortalRing : Scene :=
  { memory :=
      { rows := 1
        columns := 5
        cells := #[{ byte := copyByte }, { byte := spawnByte, lifespan := 2 }, { byte := 9 },
          { byte := spawnByte, modified := 2 }, { byte := 9 }]
        dirty := false }
    effects := {} }

/-- Two executions from both sides with a failure and a copy from the cell between them, one of the
cell without a lifespan, and a thread that comes too late. -/
def visitors : List Thread :=
  [{ ip := 1, stack := ⟨[7], 4⟩, age := 0, reversed := false },
    { ip := 1, stack := ⟨[], 4⟩, age := 3, reversed := false },
    { ip := 0, stack := ⟨[0, 1, 1], 4⟩, age := 0, reversed := false },
    { ip := 3, stack := ⟨[5], 4⟩, age := 0, reversed := false },
    { ip := 1, stack := ⟨[0, 0], 4⟩, age := 1, reversed := true },
    { ip := 1, stack := ⟨[1], 4⟩, age := 2, reversed := false }]

theorem mortalRing_visited :
    let config : Config := { spawnLifeSpan := 8, useSpawnExpireEffect := true }
    ∃ deeds last, takeTurns config visitors mortalRing = .ok (deeds, last) ∧
      deeds.map (·.turn.outcome) =
        [.running, .failed .underflow, .running, .running, .running, .halted] ∧
      wear 1 deeds = 2 ∧
      (∃ now, last.memory.get 1 = .ok now ∧ now.op = .halt ∧ now.lifespan = 0) ∧
      last.memory.get 3 = .ok { byte := spawnByte, modified := 2 } := by
  intro config
  have hrun : (takeTurns config visitors mortalRing).map (fun result =>
      (result.1.map (·.turn.outcome), wear 1 result.1,
        decide (∀ deed ∈ result.1, ¬deed.CopiesOnto 1 ∧ ¬deed.CopiesOnto 3))) =
      .ok ([.running, .failed .underflow, .running, .running, .running, .halted], 2, true) := by
    decide +kernel
  obtain ⟨⟨deeds, last⟩, hturns, hresult⟩ := map_eq_ok.mp hrun
  simp only [Prod.mk.injEq, decide_eq_true_eq] at hresult
  obtain ⟨houtcomes, hwear, hspared⟩ := hresult
  have hips : ∀ thread ∈ visitors, thread.ip < mortalRing.memory.size := by decide
  obtain ⟨deeds₁, last₁, hturns₁, hmortal⟩ := spawn_cell_lifetime config
    (show mortalRing.memory.size ≤ maxCells by decide)
    (show mortalRing.memory.get 1 = .ok { byte := spawnByte, lifespan := 2 } from rfl) rfl hips
  obtain ⟨deeds₃, last₃, hturns₃, himmortal⟩ := spawn_cell_lifetime config
    (show mortalRing.memory.size ≤ maxCells by decide)
    (show mortalRing.memory.get 3 = .ok { byte := spawnByte, modified := 2 } from rfl) rfl hips
  obtain ⟨rfl, rfl⟩ := Prod.mk.inj (Except.ok.inj (hturns.symm.trans hturns₁))
  obtain ⟨rfl, rfl⟩ := Prod.mk.inj (Except.ok.inj (hturns.symm.trans hturns₃))
  refine ⟨deeds, last, hturns, houtcomes, hwear, ?_, ?_⟩
  · obtain ⟨_, hlife⟩ := hmortal fun deed hmem => (hspared deed hmem).1
    obtain ⟨_, _, hout, _⟩ := hlife (by decide)
    exact hout hwear
  · exact (himmortal fun deed hmem => (hspared deed hmem).2).1 rfl

end ThreadSoup
