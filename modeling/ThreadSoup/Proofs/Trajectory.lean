import ThreadSoup.Proofs.Ages

namespace ThreadSoup

/-- How a thread has moved and aged in some turns. -/
structure Thread.Travels (size count : Nat) (before after : Thread) : Prop where
  ip : after.ip = onRing size (before.ip + count * before.direction)
  reversed : after.reversed = before.reversed
  age : after.age = min (before.age + count) counterMax

theorem Thread.Travels.refl {size : Nat} {thread : Thread} (hip : thread.ip < size)
    (hage : thread.age ≤ counterMax) : thread.Travels size 0 thread where
  ip := by
    rw [Nat.cast_zero, Int.zero_mul, Int.add_zero, onRing_of_lt hip]
  reversed := rfl
  age := (Nat.min_eq_left hage).symm

theorem Thread.direction_of_reversed {before after : Thread}
    (h : after.reversed = before.reversed) : after.direction = before.direction := by
  unfold Thread.direction
  rw [h]

/-- One more turn is one more step in the same direction. -/
theorem Thread.Travels.step {size count : Nat} {before middle after : Thread} (hpos : 0 < size)
    (hsize : size ≤ maxCells) (h : before.Travels size count middle)
    (step : middle.Steps size after) : before.Travels size (count + 1) after := by
  have hmax : maxCells ≤ 2 ^ 62 := by decide
  have hdir := before.direction_eq
  have hsame := Thread.direction_of_reversed h.reversed
  have hlt : middle.ip < size := h.ip ▸ onRing_lt hpos _
  have hwrap := step.ip
  rw [hsame, wrap_eq_onRing (by omega) hlt (by omega) (by omega)] at hwrap
  refine ⟨?_, step.reversed.trans h.reversed, ?_⟩
  · have hpath : (before.ip : Int) + count * before.direction + before.direction =
        before.ip + (count + 1 : Nat) * before.direction := by
      rw [Nat.cast_add, Nat.cast_one, Int.add_mul, Int.one_mul, Int.add_assoc]
    rw [← Except.ok.inj hwrap, h.ip, onRing_add hpos, hpath]
  · rw [step.age, saturatingAdd, h.age]
    omega

/-- The entries of a list beside the turns of a pool that belong to the threads that run on. -/
def keepRunning {α : Type} (turns : List Turn) (entries : List α) : List α :=
  ((turns.zip entries).filter fun entry => entry.1.outcome.isRunning).map Prod.snd

theorem keepRunning_sublist {α : Type} (turns : List Turn) (entries : List α) :
    (keepRunning turns entries).Sublist entries := by
  induction turns generalizing entries with
  | nil => exact List.nil_sublist entries
  | cons turn turns ih =>
    cases entries with
    | nil => exact List.nil_sublist []
    | cons entry entries =>
      simp only [keepRunning, List.zip_cons_cons, List.filter_cons]
      split
      next => exact (ih entries).cons_cons entry
      next => exact (ih entries).cons entry

theorem forall₂_survivors {α : Type} {R : Thread → α → Prop} {turns : List Turn} {entries : List α}
    (h : List.Forall₂ (fun turn entry => R turn.thread entry) turns entries) :
    List.Forall₂ R (survivors turns) (keepRunning turns entries) := by
  induction h with
  | nil => exact List.Forall₂.nil
  | @cons turn entry turns entries hr _ ih =>
    simp only [survivors, keepRunning, List.zip_cons_cons, List.filter_cons]
    split
    next => exact List.Forall₂.cons hr ih
    next => exact ih

theorem forall₂_join {α β γ : Type} {R : α → β → Prop} {S : α → γ → Prop} {T : β → γ → Prop}
    (join : ∀ a b c, R a b → S a c → T b c) {as : List α} {bs : List β} {cs : List γ}
    (hr : List.Forall₂ R as bs) (hs : List.Forall₂ S as cs) : List.Forall₂ T bs cs := by
  induction hr generalizing cs with
  | nil => cases hs; exact List.Forall₂.nil
  | cons hab _ ih =>
    cases hs with
    | cons hac hrest => exact List.Forall₂.cons (join _ _ _ hab hac) (ih hrest)

theorem forall₂_getElem? {α β : Type} {R : α → β → Prop} {as : List α} {bs : List β} {a : α} {b : β}
    {i : Nat} (h : List.Forall₂ R as bs) (ha : as[i]? = some a) (hb : bs[i]? = some b) : R a b := by
  obtain ⟨hi, rfl⟩ := List.getElem?_eq_some_iff.mp ha
  obtain ⟨hj, rfl⟩ := List.getElem?_eq_some_iff.mp hb
  exact h.get hi hj

/-- A simulator and, beside its pool, the position of each thread in an earlier pool. A thread that
has started since has none. -/
structure Tracked (σ : Type) where
  sim : Simulator σ
  marks : List (Option Nat)

/-- What a mark says about the thread that bears it, after some cycles. -/
def Marked (pool : List Thread) (size count : Nat) (thread : Thread) : Option Nat → Prop
  | none => thread.age ≤ count
  | some j => ∃ before, pool[j]? = some before ∧ before.Travels size count thread

namespace Simulator

variable {σ : Type}

/-- Marks every thread of the pool with its position. -/
def track (sim : Simulator σ) : Tracked σ :=
  { sim, marks := (List.range sim.threads.length).map some }

end Simulator

namespace Tracked

open Simulator

variable {σ : Type}

/-- Gives the threads their turns. A mark stays if its thread runs on. -/
def turn (tracked : Tracked σ) : Except Fault (Tracked σ) := do
  let next ← dispatchFrom 0 tracked.sim
  let visits ← tracked.sim.threads.foldlM (Visits.visit tracked.sim.config) ⟨tracked.sim.scene, []⟩
  return { sim := next, marks := keepRunning visits.turns tracked.marks }

def spawn (tracked : Tracked σ) (ip : Nat) (reversed : Bool) : Except Fault (Tracked σ) := do
  return { sim := ← tracked.sim.spawnThread ip reversed, marks := none :: tracked.marks }

variable [RandomSource σ]

def inject (tracked : Tracked σ) : Except Fault (Tracked σ) := do
  return { sim := ← tracked.sim.injectThread, marks := none :: tracked.marks }

/-- Removes the next victim of trimming with its mark. -/
def remove (tracked : Tracked σ) : Except Fault (Tracked σ) := do
  let (index, _) ← tracked.sim.victim
  return { sim := ← tracked.sim.removeVictim, marks := tracked.marks.eraseIdx index }

/-- A cycle that carries the marks along. -/
def cycle (tracked : Tracked σ) : Except Fault (Tracked σ) := do
  let noisy ← repeatTimes addNoise tracked.sim.config.randomNoisePerCycle.toNat tracked.sim
  let fed ← repeatTimes inject noisy.config.newThreadsPerCycle.toNat { tracked with sim := noisy }
  let turned ← fed.turn
  let trimmed ← repeatTimes remove
    (turned.sim.threads.length - turned.sim.config.maxThreadCount.toNat) turned
  let memory ← highlight trimmed.sim.memory trimmed.sim.threads
  let cycles ← addTotal trimmed.sim.cycles 1
  return { trimmed with sim := { trimmed.sim with memory, cycles } }

def perform (tracked : Tracked σ) : Command → Except Fault (Tracked σ)
  | .behave ms => do
    let last ← repeatTimes cycle (tracked.sim.due ms.toNat) tracked
    return { last with sim := last.sim.lapse ms (tracked.sim.rest ms.toNat) }
  | .cycle => tracked.cycle
  | .spawn ip reversed => tracked.spawn ip reversed
  | command => do return { tracked with sim := ← tracked.sim.perform command }

def run (tracked : Tracked σ) (commands : List Command) : Except Fault (Tracked σ) :=
  commands.foldlM perform tracked

/-- Marks that belong to the threads beside them, in the order of the earlier pool. -/
structure Faithful (pool : List Thread) (size count : Nat) (tracked : Tracked σ) : Prop where
  size_eq : tracked.sim.size = size
  marked : List.Forall₂ (Marked pool size count) tracked.sim.threads tracked.marks
  ordered : (tracked.marks.filterMap id).Pairwise (· < ·)

/-- A simulator and its tracked form, whose marks belong to its threads. -/
structure Follows (pool : List Thread) (size count : Nat) (sim : Simulator σ)
    (tracked : Tracked σ) : Prop where
  sim_eq : tracked.sim = sim
  faithful : tracked.Faithful pool size count

variable {pool : List Thread} {size count : Nat} {sim next : Simulator σ} {tracked : Tracked σ}

omit [RandomSource σ] in
theorem Faithful.newborn {thread : Thread} {tally : Tally} {source : σ} (hage : thread.age = 0)
    (faithful : tracked.Faithful pool size count) :
    Faithful pool size count
      { sim := { tracked.sim with threads := thread :: tracked.sim.threads, tally, source }
        marks := none :: tracked.marks } where
  size_eq := faithful.size_eq
  marked := List.Forall₂.cons (Nat.le_trans (Nat.le_of_eq hage) (Nat.zero_le count)) faithful.marked
  ordered := faithful.ordered

omit [RandomSource σ] in
theorem spawn_agree (ip : Nat) (reversed : Bool) (h : Follows pool size count sim tracked) :
    Agree (Follows pool size count) (sim.spawnThread ip reversed) (tracked.spawn ip reversed) := by
  obtain ⟨rfl, faithful⟩ := h
  unfold spawn
  cases hs : tracked.sim.spawnThread ip reversed with
  | error e => exact Agree.error e
  | ok next =>
    obtain ⟨thread, tally, hage, rfl⟩ := spawnThread_eq_ok hs
    exact Agree.ok ⟨rfl, faithful.newborn hage⟩

theorem inject_agree (h : Follows pool size count sim tracked) :
    Agree (Follows pool size count) sim.injectThread tracked.inject := by
  obtain ⟨rfl, faithful⟩ := h
  unfold inject
  cases hs : tracked.sim.injectThread with
  | error e => exact Agree.error e
  | ok next =>
    obtain ⟨thread, tally, source, hage, rfl⟩ := injectThread_eq_ok hs
    exact Agree.ok ⟨rfl, faithful.newborn hage⟩

omit [RandomSource σ] in
theorem Marked.step {thread after : Thread} {mark : Option Nat} (hpos : 0 < size)
    (hsize : size ≤ maxCells) (h : Marked pool size count thread mark)
    (step : thread.Steps size after) : Marked pool size (count + 1) after mark := by
  cases mark with
  | none =>
    have hage := step.age
    have hle : thread.age ≤ count := h
    simp only [saturatingAdd] at hage
    simp only [Marked]
    omega
  | some j =>
    obtain ⟨before, hbefore, travels⟩ := h
    exact ⟨before, hbefore, travels.step hpos hsize step⟩

omit [RandomSource σ] in
/-- Every thread has one turn, so every mark counts one more. -/
theorem turn_agree (hpos : 0 < size) (hsize : size ≤ maxCells)
    (h : Follows pool size count sim tracked) :
    Agree (Follows pool size (count + 1)) (dispatchFrom 0 sim) tracked.turn := by
  obtain ⟨rfl, faithful⟩ := h
  unfold turn
  cases hd : dispatchFrom 0 tracked.sim with
  | error e => exact Agree.error e
  | ok next =>
    obtain ⟨turns, scene, hfold, hthreads, _, _, hsteps⟩ := dispatchFrom_turns hd
    simp only [ok_bind, hfold, pure_eq]
    have hsub := keepRunning_sublist turns tracked.marks
    refine Agree.ok ⟨rfl, ?_, ?_, faithful.ordered.sublist (hsub.filterMap id)⟩
    · exact (size_of_fixtures (dispatchFrom_fixtures hd)).trans faithful.size_eq
    · rw [faithful.size_eq] at hsteps
      have hmarked : List.Forall₂ (fun turn mark => Marked pool size (count + 1) turn.thread mark)
          turns tracked.marks := by
        refine forall₂_join ?_ hsteps faithful.marked
        intro thread turn mark step hm
        exact Marked.step hpos hsize hm step
      change List.Forall₂ _ next.threads _
      rw [hthreads]
      exact forall₂_survivors hmarked

theorem remove_agree (h : Follows pool size count sim tracked) :
    Agree (Follows pool size count) sim.removeVictim tracked.remove := by
  obtain ⟨rfl, faithful⟩ := h
  cases hr : tracked.sim.removeVictim with
  | error e =>
    unfold remove
    cases hv : tracked.sim.victim with
    | error e' =>
      unfold removeVictim at hr
      rw [hv] at hr
      cases hr
      exact Agree.error e
    | ok drawn =>
      simp only [ok_bind, hr]
      exact Agree.error e
  | ok next =>
    obtain ⟨index, source, thread, tally, hv, _, _, rfl⟩ := removeVictim_eq_ok hr
    have hsub := List.eraseIdx_sublist tracked.marks index
    unfold remove
    rw [hv, ok_bind]
    simp only [hr, ok_bind, pure_eq]
    exact Agree.ok ⟨rfl, faithful.size_eq, forall₂_eraseIdx faithful.marked index,
      faithful.ordered.sublist (hsub.filterMap id)⟩

theorem noise_agree (h : Follows pool size count sim tracked) (times : Nat) :
    Agree (fun noisy noisy' => Follows pool size count noisy { tracked with sim := noisy' })
      (repeatTimes addNoise times sim) (repeatTimes addNoise times tracked.sim) := by
  obtain ⟨rfl, faithful⟩ := h
  refine (Agree.refl _).mono fun noisy _ hn _ heq => ?_
  subst heq
  have hthreads := (repeatTimes_addNoise_threads hn).1
  have hfixtures := repeatTimes_fixtures (fun _ _ => addNoise_fixtures) hn
  exact ⟨rfl, (size_of_fixtures hfixtures).trans faithful.size_eq, hthreads ▸ faithful.marked,
    faithful.ordered⟩

/-- The cycle that carries marks is the cycle, and its marks belong to its threads. -/
theorem cycle_agree (hpos : 0 < size) (hsize : size ≤ maxCells)
    (h : Follows pool size count sim tracked) :
    Agree (Follows pool size (count + 1)) sim.cycle tracked.cycle := by
  obtain rfl := h.sim_eq
  unfold Simulator.cycle cycle
  simp only [trim_eq_repeatTimes]
  refine (noise_agree h _).bind fun noisy noisy' hnoisy => ?_
  obtain rfl : noisy' = noisy := hnoisy.sim_eq
  refine (repeatTimes_agree (fun _ _ => inject_agree) _ hnoisy).bind fun fed fed' hfed => ?_
  refine (turn_agree hpos hsize hfed).bind fun turned turned' hturned => ?_
  obtain rfl := hturned.sim_eq
  refine (repeatTimes_agree (fun _ _ => remove_agree) _ hturned).bind
    fun trimmed trimmed' htrim => ?_
  obtain ⟨rfl, faithful⟩ := htrim
  cases hlight : highlight trimmed'.sim.memory trimmed'.sim.threads with
  | error e => exact Agree.error e
  | ok memory =>
    simp only [ok_bind]
    refine (Agree.refl (addTotal trimmed'.sim.cycles 1)).bind fun cycles cycles' hcycles => ?_
    subst hcycles
    have hsame := Memory.size_of_shape (highlight_shape hlight)
    exact Agree.ok ⟨rfl, hsame.trans faithful.size_eq, faithful.marked, faithful.ordered⟩

theorem cycles_agree (hpos : 0 < size) (hsize : size ≤ maxCells) (times : Nat)
    (h : Follows pool size count sim tracked) :
    Agree (Follows pool size (count + times)) (repeatTimes Simulator.cycle times sim)
      (repeatTimes cycle times tracked) := by
  induction times generalizing count sim tracked with
  | zero => exact Agree.ok h
  | succ times ih =>
    refine (cycle_agree hpos hsize h).bind fun next next' hn => ?_
    rw [show count + (times + 1) = count + 1 + times by omega]
    exact ih hn

omit [RandomSource σ] in
/-- A command that runs no cycle and starts no thread leaves the marks as they are. -/
theorem idle_agree {result : Except Fault (Simulator σ)} (h : Follows pool size count sim tracked)
    (hkept : ∀ next, result = .ok next → next.threads = sim.threads ∧ next.size = sim.size) :
    Agree (Follows pool size count) result (do return { tracked with sim := ← result }) := by
  obtain ⟨rfl, faithful⟩ := h
  cases result with
  | error e => exact Agree.error e
  | ok next =>
    obtain ⟨hthreads, hsize⟩ := hkept next rfl
    exact Agree.ok ⟨rfl, hsize.trans faithful.size_eq, hthreads ▸ faithful.marked, faithful.ordered⟩

theorem perform_agree {layout : Layout} (command : Command) (wf : sim.WellFormed layout)
    (h : Follows pool layout.size count sim tracked) :
    Agree (Follows pool layout.size (count + (sim.due command.ms + command.cycles)))
      (sim.perform command) (tracked.perform command) := by
  have hpos := layout.size_pos
  have hmax := layout.size_le
  have hdue := wf.due_zero.1
  have hsize : ∀ next, sim.perform command = .ok next → next.size = sim.size := fun next hn =>
    (perform_ledger wf hn).wellFormed.size_eq.trans wf.size_eq.symm
  obtain rfl := h.sim_eq
  cases command with
  | behave ms =>
    simp only [Simulator.perform, perform, Command.ms, Command.cycles, Nat.add_zero]
    rw [behave_eq ms (wf.config_eq ▸ wf.progress_lt), bind_assoc]
    refine (cycles_agree hpos hmax _ h).bind fun last last' hl => ?_
    obtain ⟨rfl, faithful⟩ := hl
    have hsame : (last'.sim.lapse ms (tracked.sim.rest ms.toNat)).size = last'.sim.size := by
      unfold lapse Simulator.size
      split
      next => rfl
      next => rfl
    exact Agree.ok ⟨rfl, hsame.trans faithful.size_eq, faithful.marked, faithful.ordered⟩
  | cycle =>
    simp only [Command.ms, Command.cycles, hdue, Nat.zero_add]
    exact cycle_agree hpos hmax h
  | spawn ip reversed =>
    simp only [Command.ms, Command.cycles, hdue, Nat.add_zero]
    exact spawn_agree ip reversed h
  | finishFrame | clearDirty | print | write index byte | replace index cell =>
    simp only [Command.ms, Command.cycles, hdue, Nat.add_zero]
    exact idle_agree h fun next hn => ⟨(perform_idle hn trivial).1, hsize next hn⟩

/-- The marks after some commands tell where a thread stood as many cycles ago as have run since
the marks were set. -/
theorem run_agree {layout : Layout} {start : Simulator σ} (commands : List Command)
    (wf : sim.WellFormed layout) (hcycles : sim.cycles = start.cycles + count)
    (h : Follows pool layout.size count sim tracked) :
    Agree (fun last marked => ∃ count, last.cycles = start.cycles + count ∧
      Follows pool layout.size count last marked) (sim.run commands) (tracked.run commands) := by
  induction commands generalizing sim tracked count with
  | nil => exact Agree.ok ⟨count, hcycles, h⟩
  | cons command rest ih =>
    unfold Simulator.run run
    rw [List.foldlM_cons, List.foldlM_cons]
    have hstep := (perform_agree command wf h).mono fun next marked hn _ hf =>
      (⟨perform_ledger wf hn, hf⟩ : _ ∧ _)
    refine hstep.bind fun next marked hnext => ?_
    refine ih hnext.1.wellFormed ?_ hnext.2
    rw [hnext.1.cycles_eq, hcycles]
    omega

end Tracked

namespace Simulator

variable {σ : Type} {layout : Layout} {sim : Simulator σ}

theorem track_follows {limit : Nat} (wf : sim.WellFormed layout) (aged : Aged limit sim.threads) :
    Tracked.Follows sim.threads layout.size 0 sim sim.track := by
  refine ⟨rfl, wf.size_eq, ?_, ?_⟩
  · refine List.forall₂_iff_get.mpr ⟨by simp [track], ?_⟩
    intro i hi hmark
    have hmem : sim.threads.get ⟨i, hi⟩ ∈ sim.threads := List.getElem_mem hi
    simp only [track, List.get_eq_getElem, List.getElem_map, List.getElem_range]
    exact ⟨sim.threads[i], List.getElem?_eq_getElem hi,
      Thread.Travels.refl (wf.threads_fit _ hmem).ip_lt (aged.bounded _ hmem).2⟩
  · simp only [track, List.filterMap_map, Function.comp_def, id, List.filterMap_some]
    exact List.pairwise_lt_range

variable [RandomSource σ]

/-- Ages grow from the front of the pool to its back and never exceed the number of cycles. When
the marks of a pool are carried along, a thread that bears the mark of an earlier one has walked in
that one's direction, a cell a cycle, and aged as long. So trimming by age removes the first thread
of the last cohort. -/
theorem ages_and_trajectories {rows columns : Nat} {config : Config} {source : σ}
    {start : Simulator σ} {commands : List Command}
    (hc : create rows columns config source = .ok start) (hr : start.run commands = .ok sim) :
    sim.threads.Pairwise (fun newer older => newer.age ≤ older.age) ∧
    (∀ thread ∈ sim.threads, thread.age ≤ sim.cycles) ∧
    (∀ later (last : Simulator σ), sim.run later = .ok last →
      ∃ (marks : List (Option Nat)) (count : Nat), sim.track.run later = .ok ⟨last, marks⟩ ∧
        last.cycles = sim.cycles + count ∧ marks.length = last.threads.length ∧
        (marks.filterMap id).Pairwise (· < ·) ∧
        (∀ (i : Nat) after, last.threads[i]? = some after → marks[i]? = some none →
          after.age ≤ count) ∧
        ∀ (i : Nat) after j, last.threads[i]? = some after → marks[i]? = some (some j) →
          ∃ before, sim.threads[j]? = some before ∧
            (after.ip : Int) = (before.ip + count * before.direction) % (rows * columns : Nat) ∧
            after.direction = before.direction ∧
            after.age = min (before.age + count) (2 ^ 32 - 1)) ∧
    ∀ turned, sim.turned = .ok turned →
      turned.trim =
        repeatTimes removeVictim (turned.threads.length - config.maxThreadCount.toNat) turned ∧
      (config.threadReductionEnabled = false →
        ∀ removed < turned.threads.length - config.maxThreadCount.toNat, ∀ middle,
          repeatTimes removeVictim removed turned = .ok middle →
          ∃ younger cohort age, middle.threads = younger ++ cohort ∧ cohort ≠ [] ∧
            (∀ thread ∈ younger, thread.age < age) ∧ (∀ thread ∈ cohort, thread.age = age) ∧
            middle.victim = .ok (younger.length, middle.source)) := by
  obtain ⟨layout, rfl, rfl, rfl⟩ := create_layout hc
  have wf := (run_ledger (create_wellFormed hc).1 hr).wellFormed
  have aged := run_aged hc hr
  refine ⟨aged.sorted, fun thread hmem => (aged.bounded thread hmem).1, ?_, ?_⟩
  · intro later last hlast
    have hagree := Tracked.run_agree later wf rfl (track_follows wf aged)
    rw [hlast] at hagree
    obtain ⟨⟨_, marks⟩, hrun, count, hcycles, rfl, faithful⟩ := hagree.of_ok_left
    refine ⟨marks, count, hrun, hcycles, faithful.marked.length_eq.symm, faithful.ordered, ?_, ?_⟩
    · intro i after hafter hmark
      have hage : Marked _ _ count after none := forall₂_getElem? faithful.marked hafter hmark
      exact hage
    · intro i after j hafter hmark
      obtain ⟨before, hbefore, travels⟩ := forall₂_getElem? faithful.marked hafter hmark
      refine ⟨before, hbefore, ?_, Thread.direction_of_reversed travels.reversed, travels.age⟩
      rw [travels.ip, onRing_cast layout.size_pos]
      rfl
  · intro turned hturned
    have hconfig := (turned_wellFormed wf hturned).config_eq
    rw [← hconfig]
    refine ⟨trim_eq_repeatTimes turned, ?_⟩
    intro hoff removed hremoved middle hmiddle
    exact victim_first_of_cohort hoff (turned_aged aged hturned).1 hremoved hmiddle

/-- One new thread a cycle on cells that all push. Three threads may stay. -/
def cohortConfig : Config :=
  { msPerCycle := 10
    maxStackSize := 9
    maxThreadCount := 3
    newThreadsPerCycle := 1
    pushSlice := 1
    randomizeMemoryOnInitialize := true }

/-- Two threads are the oldest. The third cycle trims the one in front, and the other one, which
runs backwards, walks from place 4 to place 3. -/
theorem cohort_loses_its_first :
    ∃ start sim last turned, create 1 5 cohortConfig (⟨[]⟩ : Script) = .ok start ∧
      start.run [.spawn 6 true, .behave 25, .finishFrame] = .ok sim ∧
      sim.run [.cycle, .finishFrame] = .ok last ∧
      sim.track.run [.cycle, .finishFrame] = .ok ⟨last, [none, some 0, some 2]⟩ ∧
      (∃ before after : Thread, sim.threads[2]? = some before ∧ last.threads[2]? = some after ∧
        before.ip = 4 ∧ (after.ip : Int) = (before.ip + 1 * before.direction) % (1 * 5 : Nat) ∧
        after.direction = before.direction ∧ after.age = min (before.age + 1) (2 ^ 32 - 1)) ∧
      sim.turned = .ok turned ∧ turned.threads.map Thread.age = [1, 2, 3, 3] ∧
      ∃ younger cohort age, turned.threads = younger ++ cohort ∧ cohort ≠ [] ∧
        (∀ thread ∈ younger, thread.age < age) ∧ (∀ thread ∈ cohort, thread.age = age) ∧
        turned.victim = .ok (younger.length, turned.source) := by
  have hstart : (create 1 5 cohortConfig (⟨[]⟩ : Script)).map (fun start => start.threads) =
      .ok [] := by decide +kernel
  obtain ⟨start, hc, _⟩ := map_eq_ok.mp hstart
  have hpools : ((create 1 5 cohortConfig (⟨[]⟩ : Script)).toOption.map fun start => do
      let sim ← start.run [.spawn 6 true, .behave 25, .finishFrame]
      let last ← sim.run [.cycle, .finishFrame]
      return (sim.threads.map Thread.ip, last.threads.length, last.cycles - sim.cycles)) =
      some (.ok ([1, 2, 4], 3, 1)) := by decide +kernel
  have hmarks : ((create 1 5 cohortConfig (⟨[]⟩ : Script)).toOption.map fun start => do
      let sim ← start.run [.spawn 6 true, .behave 25, .finishFrame]
      let tracked ← sim.track.run [.cycle, .finishFrame]
      let turned ← sim.turned
      return (tracked.marks, turned.threads.map Thread.age)) =
      some (.ok ([none, some 0, some 2], [1, 2, 3, 3])) := by decide +kernel
  rw [hc] at hpools hmarks
  obtain ⟨sim, hr, hpools⟩ := bind_eq_ok.mp (Option.some.inj hpools)
  obtain ⟨last, hl, hpools⟩ := bind_eq_ok.mp hpools
  obtain ⟨again, hr', hmarks⟩ := bind_eq_ok.mp (Option.some.inj hmarks)
  obtain rfl : sim = again := Except.ok.inj (hr.symm.trans hr')
  obtain ⟨tracked, ht, hmarks⟩ := bind_eq_ok.mp hmarks
  obtain ⟨turned, hturned, hmarks⟩ := bind_eq_ok.mp hmarks
  simp only [pure_eq, Except.ok.injEq, Prod.mk.injEq] at hpools hmarks
  obtain ⟨hips, hlength, hcycles⟩ := hpools
  obtain ⟨hmarks, hages⟩ := hmarks
  obtain ⟨_, _, hpaths, htrims⟩ := ages_and_trajectories hc hr
  obtain ⟨marks, count, ht', hcount, _, _, _, hpath⟩ := hpaths _ last hl
  obtain rfl : marks = [none, some 0, some 2] := by
    rw [ht] at ht'
    rw [Except.ok.inj ht'] at hmarks
    exact hmarks
  obtain rfl : count = 1 := by omega
  have hthird : 2 < last.threads.length := by omega
  obtain ⟨before, hbefore, hip, hdirection, hage⟩ :=
    hpath 2 last.threads[2] 2 (List.getElem?_eq_getElem hthird) rfl
  have hplace : before.ip = 4 := by
    have hget : (sim.threads.map Thread.ip)[2]? = some before.ip := by
      rw [List.getElem?_map, hbefore]
      rfl
    rw [hips] at hget
    exact (Option.some.inj hget).symm
  have hfour : turned.threads.length = 4 := by
    rw [← List.length_map Thread.age, hages]
    rfl
  have hcohort := (htrims turned hturned).2 rfl 0
    (Nat.sub_pos_of_lt (hfour ▸ (by decide : cohortConfig.maxThreadCount.toNat < 4))) turned rfl
  exact ⟨start, sim, last, turned, hc, hr, hl, ht', ⟨before, last.threads[2], hbefore,
    List.getElem?_eq_getElem hthird, hplace, hip, hdirection, hage⟩, hturned, hages, hcohort⟩

end Simulator

end ThreadSoup
