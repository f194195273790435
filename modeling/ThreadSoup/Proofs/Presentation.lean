import ThreadSoup.Proofs.Fixtures
import ThreadSoup.Proofs.PlainMirror
import ThreadSoup.Proofs.Run

namespace ThreadSoup

/-- What drives a simulation, and what its viewer does in between. -/
inductive Event where
  | behave (ms : UInt32)
  | cycle
  | spawn (ip : Nat) (reversed : Bool)
  | finishFrame
  | clearDirty
  | markDirty
  /-- The viewer sets the highlight of a cell. -/
  | light (index modified : Nat)
deriving DecidableEq

namespace Event

def drives : Event → Bool
  | .behave _ | .cycle | .spawn _ _ => true
  | .finishFrame | .clearDirty | .markDirty | .light _ _ => false

/-- A cell that the viewer names is on the grid. -/
def Inside (size : Nat) : Event → Prop
  | .light index _ => index < size
  | _ => True

instance (size : Nat) : DecidablePred (Inside size)
  | .light index _ => inferInstanceAs (Decidable (index < size))
  | .behave _ | .cycle | .spawn _ _ | .finishFrame | .clearDirty | .markDirty =>
    inferInstanceAs (Decidable True)

end Event

open Simulator

theorem Mirror.drain_agree {σ : Type} [RandomSource σ] {config config' : Config}
    {mirror : Mirror config config'} {sim image : Simulator σ} (still : mirror.Still)
    (period budget ran : Nat) (h : mirror.Sims sim image) :
    Agree (fun p q => mirror.Sims p.1 q.1 ∧ p.2 = q.2) (drain period budget ran sim)
      (drain period budget ran image) := by
  induction budget using Nat.strongRecOn generalizing ran sim image with
  | ind budget ih =>
    rw [drain.eq_def _ _ _ sim, drain.eq_def _ _ _ image]
    by_cases hdue : 0 < period ∧ period ≤ budget
    · rw [if_pos hdue, if_pos hdue]
      refine (Mirror.cycle_agree still h).bind fun next next' hnext => ?_
      split
      next => exact ih (budget - period) (by omega) (ran + 1) hnext
      next => exact Agree.error .overflow
    · rw [if_neg hdue, if_neg hdue]
      exact Agree.ok ⟨h, rfl⟩

namespace Simulator

variable {σ : Type} {sim image next : Simulator σ}

/-- Simulators that differ at most in what is there to be looked at: in their highlights, their
flags, their effects and the effects that they choose to show. -/
structure SameCourse (sim image : Simulator σ) : Prop where
  rules : sim.config.rules = image.config.rules
  rows : sim.memory.rows = image.memory.rows
  columns : sim.memory.columns = image.memory.columns
  bytes : sim.memory.bytes = image.memory.bytes
  lifespans : sim.memory.lifespans = image.memory.lifespans
  threads : sim.threads = image.threads
  progress : sim.progress = image.progress
  cycles : sim.cycles = image.cycles
  tally : sim.tally = image.tally
  source : sim.source = image.source

theorem SameCourse.plain (h : sim.SameCourse image) : sim.memory.plain = image.memory.plain :=
  Memory.plain_eq_iff.mpr ⟨h.rows, h.columns, h.bytes, h.lifespans⟩

theorem SameCourse.sims (h : sim.SameCourse image) : (plainMirror h.rules).Sims sim image :=
  ⟨rfl, rfl, h.plain, forall₂_alike_eq.mpr h.threads, h.tally, h.cycles, h.source⟩

theorem SameCourse.of_sims {config config' : Config} (hrules : config.rules = config'.rules)
    (h : (plainMirror hrules).Sims sim image) (hprogress : sim.progress = image.progress) :
    sim.SameCourse image := by
  obtain ⟨hrows, hcolumns, hbytes, hlifespans⟩ := Memory.plain_eq_iff.mp h.scene
  exact ⟨h.rules_eq, hrows, hcolumns, hbytes, hlifespans, forall₂_alike_eq.mp h.threads, hprogress,
    h.cycles, h.tally, h.source⟩

theorem SameCourse.of_memory {memory : Memory} (h : memory.plain = sim.memory.plain) :
    { sim with memory }.SameCourse sim := by
  obtain ⟨hrows, hcolumns, hbytes, hlifespans⟩ := Memory.plain_eq_iff.mp h
  exact ⟨rfl, hrows, hcolumns, hbytes, hlifespans, rfl, rfl, rfl, rfl, rfl⟩

theorem SameCourse.refl (sim : Simulator σ) : sim.SameCourse sim := SameCourse.of_memory rfl

theorem SameCourse.symm (h : sim.SameCourse image) : image.SameCourse sim :=
  ⟨h.rules.symm, h.rows.symm, h.columns.symm, h.bytes.symm, h.lifespans.symm, h.threads.symm,
    h.progress.symm, h.cycles.symm, h.tally.symm, h.source.symm⟩

theorem SameCourse.trans (first : sim.SameCourse image) (second : image.SameCourse next) :
    sim.SameCourse next :=
  ⟨first.rules.trans second.rules, first.rows.trans second.rows,
    first.columns.trans second.columns, first.bytes.trans second.bytes,
    first.lifespans.trans second.lifespans, first.threads.trans second.threads,
    first.progress.trans second.progress, first.cycles.trans second.cycles,
    first.tally.trans second.tally, first.source.trans second.source⟩

theorem lapse_plain (sim : Simulator σ) (ms : UInt32) (progress : Nat) :
    (sim.lapse ms progress).memory.plain = sim.memory.plain := by
  unfold lapse
  split
  next => rfl
  next => rfl

variable [RandomSource σ]

theorem behave_size {ms : UInt32} {after : Simulator σ × Nat} (h : sim.behave ms = .ok after) :
    after.1.size = sim.size := by
  rw [behave_eq_drain] at h
  obtain ⟨budget, _, h⟩ := bind_eq_ok.mp h
  obtain ⟨last, hl, h⟩ := bind_eq_ok.mp h
  cases h
  have hplain := Memory.size_of_plain (lapse_plain last.1 ms last.2.1)
  exact hplain.trans (size_of_fixtures (drain_fixtures hl))

theorem behave_agree (ms : UInt32) (h : sim.SameCourse image) :
    Agree (fun p q => p.1.SameCourse q.1 ∧ p.2 = q.2) (sim.behave ms) (image.behave ms) := by
  have hperiod : sim.config.msPerCycle = image.config.msPerCycle :=
    congrArg (fun c => c.msPerCycle) h.rules
  rw [behave_eq_drain, behave_eq_drain, ← h.progress, ← hperiod]
  refine (Agree.refl _).bind fun budget _ hbudget => ?_
  subst hbudget
  refine (Mirror.drain_agree (plainMirror_still h.rules) _ _ _ h.sims).bind ?_
  rintro ⟨last, progress, ran⟩ ⟨last', _, _⟩ ⟨hs, hrest⟩
  cases hrest
  have hleft := lapse_plain last ms progress
  have hright := lapse_plain last' ms progress
  refine Agree.ok ⟨?_, rfl⟩
  have hscene := hleft.trans (hs.scene.trans hright.symm)
  exact SameCourse.of_sims h.rules ⟨hs.config_eq, hs.image_config_eq, hscene, hs.threads, hs.tally,
    hs.cycles, hs.source⟩ rfl

def follow (sim : Simulator σ) : Event → Except Fault (Simulator σ)
  | .behave ms => do return (← sim.behave ms).1
  | .cycle => sim.cycle
  | .spawn ip reversed => sim.spawnThread ip reversed
  | .finishFrame => .ok sim.finishFrame.1
  | .clearDirty => .ok sim.clearDirty
  | .markDirty => .ok sim.markDirty
  | .light index modified => sim.editMemory (·.setModified index modified)

def followAll (sim : Simulator σ) (events : List Event) : Except Fault (Simulator σ) :=
  events.foldlM follow sim

theorem follow_agree {event : Event} (hdrives : event.drives = true) (h : sim.SameCourse image) :
    Agree SameCourse (sim.follow event) (image.follow event) := by
  cases event with
  | behave ms => exact (behave_agree ms h).bind fun p q hpq => Agree.ok hpq.1
  | cycle =>
    refine (Mirror.cycle_agree (plainMirror_still h.rules) h.sims).mono fun a b ha hb hs => ?_
    have hleft := progress_of_fixtures (cycle_fixtures ha)
    have hright := progress_of_fixtures (cycle_fixtures hb)
    exact SameCourse.of_sims h.rules hs (hleft.trans (h.progress.trans hright.symm))
  | spawn ip reversed =>
    refine (Mirror.spawnThread_agree (plainMirror_still h.rules) ip reversed h.sims).mono
      fun a b ha hb hs => ?_
    have hleft := progress_of_fixtures (spawnThread_fixtures ha)
    have hright := progress_of_fixtures (spawnThread_fixtures hb)
    exact SameCourse.of_sims h.rules hs (hleft.trans (h.progress.trans hright.symm))
  | finishFrame | clearDirty | markDirty | light => cases hdrives

/-- What a viewer does leaves the course alone. -/
theorem follow_glance {event : Event} (hglance : event.drives = false)
    (hinside : event.Inside sim.size) :
    ∃ next, sim.follow event = .ok next ∧ next.SameCourse sim := by
  cases event with
  | behave | cycle | spawn => cases hglance
  | finishFrame =>
    refine ⟨_, rfl, ?_⟩
    unfold finishFrame
    split
    next => exact SameCourse.of_memory (by simp)
    next => exact SameCourse.refl sim
  | clearDirty => exact ⟨_, rfl, SameCourse.of_memory rfl⟩
  | markDirty => exact ⟨_, rfl, SameCourse.of_memory rfl⟩
  | light index modified =>
    obtain ⟨memory, hm, hplain⟩ := setModified_plain modified hinside
    exact ⟨{ sim with memory }, by simp only [follow, editMemory, hm, ok_bind, pure_eq],
      SameCourse.of_memory hplain⟩

theorem follow_size {event : Event} (hdrives : event.drives = true)
    (h : sim.follow event = .ok next) : next.size = sim.size := by
  cases event with
  | behave ms =>
    obtain ⟨after, ha, h⟩ := bind_eq_ok.mp h
    cases h
    exact behave_size ha
  | cycle => exact size_of_fixtures (cycle_fixtures h)
  | spawn ip reversed => exact size_of_fixtures (spawnThread_fixtures h)
  | finishFrame | clearDirty | markDirty | light => cases hdrives

/-- A run takes the course of the steps that drive it. -/
theorem followAll_drives {events : List Event} (hinside : ∀ event ∈ events, event.Inside sim.size)
    (h : sim.SameCourse image) :
    Agree SameCourse (sim.followAll events) (image.followAll (events.filter Event.drives)) := by
  unfold followAll
  induction events generalizing sim image with
  | nil => exact Agree.ok h
  | cons event rest ih =>
    have hevent := hinside event (by simp)
    have hrest : ∀ e ∈ rest, e.Inside sim.size :=
      fun e he => hinside e (List.mem_cons_of_mem event he)
    by_cases hdrives : event.drives = true
    · have hstep := (follow_agree hdrives h).mono fun a b ha _ hab =>
        And.intro hab (follow_size hdrives ha)
      rw [List.filter_cons_of_pos hdrives, List.foldlM_cons, List.foldlM_cons]
      refine hstep.bind fun a b ⟨hab, hsize⟩ => ?_
      exact ih (hsize ▸ hrest) hab
    · obtain ⟨next, hn, hnext⟩ := follow_glance (by simpa using hdrives) hevent
      rw [List.filter_cons_of_neg hdrives, List.foldlM_cons, hn]
      have hsize : next.size = sim.size := Memory.size_of_plain hnext.plain
      exact ih (hsize ▸ hrest) (hnext.trans h)

/-- Two simulators that differ at most in what is there to be looked at, and in the choice of
effects, take the same course as long as the same steps drive them, whatever their viewers do in
between. -/
theorem presentation_never_feeds_back (xs ys : List Event) (h : sim.SameCourse image)
    (hsame : xs.filter Event.drives = ys.filter Event.drives)
    (hxs : ∀ event ∈ xs, event.Inside sim.size) (hys : ∀ event ∈ ys, event.Inside sim.size) :
    Agree SameCourse (sim.followAll xs) (image.followAll ys) := by
  have hsize : sim.size = image.size := Memory.size_of_plain h.plain
  have hleft := followAll_drives hxs h
  have hright := followAll_drives (hsize ▸ hys) (SameCourse.refl image)
  rw [hsame] at hleft
  refine (hleft.join hright).mono ?_
  rintro a b _ _ ⟨c, hac, hbc⟩
  exact hac.trans hbc.symm

theorem scripted_presentation :
    ∃ start a b, create 2 3 Config.screensaver (⟨[7, 0, 0x8000000000000000]⟩ : Script) = .ok start ∧
      start.followAll [.spawn 17 true, .behave 70, .finishFrame, .cycle] = .ok a ∧
      { start with
        config := Config.screensaver.rules
        memory := start.memory.clearDirty
        effects := ⟨[{ kind := .zoom, ip := 3, progress := 40 }]⟩ }.followAll
          [.light 2 9, .spawn 17 true, .clearDirty, .behave 70, .cycle, .markDirty] = .ok b ∧
      a.SameCourse b := by
  obtain ⟨start, hc, hrun⟩ := create_run_exists
    ⟨2, 3, Config.screensaver, by decide, by decide, by decide, by decide⟩
    (Script.reliable ⟨[7, 0, 0x8000000000000000]⟩ (by decide))
  obtain ⟨a, ha, _⟩ := hrun [.spawn 17 true, .behave 70, .finishFrame, .cycle] (by decide)
    (by decide) (by decide)
  have wf := (create_wellFormed hc).1
  have hsize : start.size = 6 := wf.size_eq
  have hrules : start.config.rules = Config.screensaver.rules := congrArg Config.rules wf.config_eq
  have hstart : start.SameCourse { start with
      config := Config.screensaver.rules
      memory := start.memory.clearDirty
      effects := ⟨[{ kind := .zoom, ip := 3, progress := 40 }]⟩ } :=
    ⟨hrules, rfl, rfl, rfl, rfl, rfl, rfl, rfl, rfl, rfl⟩
  have hagree := presentation_never_feeds_back [.spawn 17 true, .behave 70, .finishFrame, .cycle]
    [.light 2 9, .spawn 17 true, .clearDirty, .behave 70, .cycle, .markDirty] hstart (by decide)
    (by rw [hsize]; decide) (by rw [hsize]; decide)
  have hleft : start.followAll [.spawn 17 true, .behave 70, .finishFrame, .cycle] = .ok a := ha
  rw [hleft] at hagree
  obtain ⟨b, hb, hsame⟩ := hagree.of_ok_left
  exact ⟨start, a, b, hc, hleft, hb, hsame⟩

end Simulator

end ThreadSoup
