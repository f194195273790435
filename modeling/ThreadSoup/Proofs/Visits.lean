import ThreadSoup.Proofs.Pool

namespace ThreadSoup

/-- The scene that the next thread finds. A death leaves its effects before that. -/
def Turn.aftermath (config : Config) (turn : Turn) : Scene :=
  if turn.outcome.isRunning then turn.scene
  else { turn.scene with effects := Simulator.mourn config turn.scene.effects turn.thread }

/-- The threads that go on running after their turns. -/
def survivors (turns : List Turn) : List Thread :=
  (turns.filter fun turn => turn.outcome.isRunning).map Turn.thread

/-- The number of turns that end in a death of the given cause. -/
def deathsBy (cause : DeathCause) (turns : List Turn) : Nat :=
  turns.countP fun turn => turn.outcome.death? = some cause

/-- The tally after the deaths of some turns. -/
def Tally.count (tally : Tally) (turns : List Turn) : Tally :=
  { tally with
    halted := tally.halted + deathsBy .halted turns
    faulted := tally.faulted + deathsBy .failed turns }

/-- The counters of deaths by dispatch are 64-bit words. -/
def Tally.Fits (tally : Tally) : Prop := tally.halted < 2 ^ 64 ∧ tally.faulted < 2 ^ 64

instance : DecidablePred Tally.Fits := fun _ => inferInstanceAs (Decidable (_ ∧ _))

/-- The turns that threads have had one after the other, and the scene that they leave. -/
structure Visits where
  scene : Scene
  turns : List Turn
deriving DecidableEq

/-- The next thread has its turn. -/
def Visits.visit (config : Config) (visits : Visits) (thread : Thread) : Except Fault Visits := do
  let turn ← dispatch config visits.scene thread
  return { scene := turn.aftermath config, turns := visits.turns ++ [turn] }

/-- The round that has given these turns to the first threads of a pool. -/
def Visits.round (visits : Visits) (tally : Tally) : Round :=
  { scene := visits.scene, tally := tally.count visits.turns, survivors := survivors visits.turns }

theorem addTotal_full {total delta : Nat} (h : ¬total + delta < 2 ^ 64) :
    addTotal total delta = .error .overflow := if_neg h

theorem Outcome.isRunning_eq (outcome : Outcome) : outcome.isRunning = outcome.death?.isNone := by
  cases outcome with
  | running => rfl
  | halted => rfl
  | failed e => rfl

theorem deathsBy_snoc (cause : DeathCause) (turns : List Turn) (turn : Turn) :
    deathsBy cause (turns ++ [turn]) =
      deathsBy cause turns + if turn.outcome.death? = some cause then 1 else 0 := by
  simp [deathsBy, List.countP_singleton]

theorem survivors_snoc (turns : List Turn) (turn : Turn) :
    survivors (turns ++ [turn]) =
      survivors turns ++ if turn.outcome.death? = none then [turn.thread] else [] := by
  unfold survivors
  rw [List.filter_append, List.map_append, List.filter_singleton, Outcome.isRunning_eq]
  cases turn.outcome.death? with
  | none => rfl
  | some cause => rfl

section Step

variable {config : Config} {visits next : Visits} {thread : Thread} {tally : Tally}
  {turns : List Turn} {turn : Turn} {cause : DeathCause}

theorem Tally.count_running (tally : Tally) (turns : List Turn) (h : turn.outcome.death? = none) :
    tally.count (turns ++ [turn]) = tally.count turns := by
  simp [Tally.count, deathsBy_snoc, h]

/-- A death by dispatch goes to the counter of its cause, if that counter has room. -/
theorem Tally.death_count (hfits : (tally.count turns).Fits)
    (hcause : turn.outcome.death? = some cause) :
    (tally.count turns).death cause =
      if (tally.count (turns ++ [turn])).Fits then .ok (tally.count (turns ++ [turn]))
      else .error .overflow := by
  obtain ⟨hhalted, hfaulted⟩ := hfits
  simp only [Tally.count] at hhalted hfaulted
  unfold Tally.death Tally.Fits Tally.count
  cases cause with
  | halted =>
    have hgrown : deathsBy .halted (turns ++ [turn]) = deathsBy .halted turns + 1 := by
      simp [deathsBy_snoc, hcause]
    have hkept : deathsBy .failed (turns ++ [turn]) = deathsBy .failed turns := by
      simp [deathsBy_snoc, hcause]
    simp only [hgrown, hkept, ← Nat.add_assoc]
    by_cases hroom : tally.halted + deathsBy .halted turns + 1 < 2 ^ 64
    · rw [addTotal_eq hroom, if_pos ⟨hroom, hfaulted⟩]
      rfl
    · rw [addTotal_full hroom, if_neg fun h => hroom h.1]
      rfl
  | failed =>
    have hgrown : deathsBy .failed (turns ++ [turn]) = deathsBy .failed turns + 1 := by
      simp [deathsBy_snoc, hcause]
    have hkept : deathsBy .halted (turns ++ [turn]) = deathsBy .halted turns := by
      simp [deathsBy_snoc, hcause]
    simp only [hgrown, hkept, ← Nat.add_assoc]
    by_cases hroom : tally.faulted + deathsBy .failed turns + 1 < 2 ^ 64
    · rw [addTotal_eq hroom, if_pos ⟨hhalted, hroom⟩]
      rfl
    · rw [addTotal_full hroom, if_neg fun h => hroom h.2]
      rfl
  | trimmed =>
    -- no turn ends in a trimming
    cases ho : turn.outcome with
    | running | halted | failed => simp [Outcome.death?, ho] at hcause

theorem Visits.visit_exists (config : Config) (hsize : visits.scene.memory.size ≤ maxCells)
    (hip : thread.ip < visits.scene.memory.size) :
    ∃ next, visits.visit config thread = .ok next ∧
      next.turns.length = visits.turns.length + 1 ∧
      next.scene.memory.size = visits.scene.memory.size := by
  obtain ⟨turn, ht⟩ := dispatch_exists config hsize hip
  have hmoves := (dispatch_moves ht).size
  refine ⟨⟨turn.aftermath config, visits.turns ++ [turn]⟩, ?_, List.length_append, ?_⟩
  · unfold Visits.visit
    rw [ht]
    rfl
  · unfold Turn.aftermath
    split
    next => exact hmoves
    next => exact hmoves

theorem Visits.foldlM_visit_exists (config : Config) (visits : Visits) {threads : List Thread}
    (hsize : visits.scene.memory.size ≤ maxCells)
    (hips : ∀ thread ∈ threads, thread.ip < visits.scene.memory.size) :
    ∃ last, threads.foldlM (Visits.visit config) visits = .ok last ∧
      last.turns.length = visits.turns.length + threads.length := by
  induction threads generalizing visits with
  | nil => exact ⟨visits, rfl, rfl⟩
  | cons thread rest ih =>
    obtain ⟨next, hn, hlength, hsame⟩ := Visits.visit_exists config hsize (hips thread (by simp))
    obtain ⟨last, hl, hend⟩ := ih next (hsame ▸ hsize)
      (fun t ht => hsame ▸ hips t (List.mem_cons_of_mem thread ht))
    refine ⟨last, ?_, ?_⟩
    · rw [List.foldlM_cons, hn]
      exact hl
    · rw [hend, hlength, List.length_cons]
      omega

/-- A round gives the same turn, unless it cannot count the death. -/
theorem Visits.give_round (hfits : (tally.count visits.turns).Fits)
    (h : visits.visit config thread = .ok next) :
    (visits.round tally).give config thread =
      if (tally.count next.turns).Fits then .ok (next.round tally) else .error .overflow := by
  obtain ⟨turn, ht, h⟩ := bind_eq_ok.mp h
  cases h
  simp only [Round.give, Visits.round, ht, ok_bind, survivors_snoc, Turn.aftermath,
    Outcome.isRunning_eq]
  cases hc : turn.outcome.death? with
  | none => simp [Tally.count_running tally visits.turns hc, hfits]
  | some cause =>
    simp only [Tally.death_count hfits hc]
    by_cases hroom : (tally.count (visits.turns ++ [turn])).Fits
    · simp [hroom]
    · simp [hroom]

/-- Later turns take nothing off the counters. -/
theorem Visits.fits_of_foldlM {threads : List Thread} {last : Visits}
    (h : threads.foldlM (Visits.visit config) visits = .ok last)
    (hlast : (tally.count last.turns).Fits) : (tally.count visits.turns).Fits := by
  have hgrow := foldlM_preserves
    (P := fun _ (v : Visits) => ∀ cause, deathsBy cause visits.turns ≤ deathsBy cause v.turns)
    (fun thread _ before after hb hv cause => by
      obtain ⟨turn, _, hv⟩ := bind_eq_ok.mp hv
      cases hv
      have := hb cause
      rw [deathsBy_snoc]
      omega) (fun _ => Nat.le_refl _) h
  have hh := hgrow .halted
  have hf := hgrow .failed
  simp only [Tally.Fits, Tally.count] at hlast ⊢
  omega

/-- The fold that counts the deaths has the turns of the fold that does not. -/
theorem Visits.foldlM_give {threads : List Thread} {last : Visits}
    (hfits : (tally.count visits.turns).Fits)
    (h : threads.foldlM (Visits.visit config) visits = .ok last) :
    threads.foldlM (Round.give config) (visits.round tally) =
      if (tally.count last.turns).Fits then .ok (last.round tally) else .error .overflow := by
  induction threads generalizing visits with
  | nil =>
    cases h
    rw [if_pos hfits]
    rfl
  | cons thread rest ih =>
    rw [List.foldlM_cons] at h
    obtain ⟨next, hn, h⟩ := bind_eq_ok.mp h
    rw [List.foldlM_cons, Visits.give_round hfits hn]
    by_cases hroom : (tally.count next.turns).Fits
    · rw [if_pos hroom]
      exact ih hroom h
    · have hfull : ¬(tally.count last.turns).Fits :=
        fun hlast => hroom (Visits.fits_of_foldlM h hlast)
      rw [if_neg hroom, if_neg hfull]
      rfl

end Step

namespace Simulator

variable {σ : Type}

/-- The loop that removes the dead in place gives every thread of the pool exactly one turn, from
the first to the last: it ends as the fold over the pool ends that gives each thread its turn on
the scene that the turns and deaths before it leave. The threads that run on stay in order, and
the others are counted by their outcome, unless a counter overflows. -/
theorem dispatch_visits_each_thread_once (sim : Simulator σ) (hsize : sim.memory.size ≤ maxCells)
    (hips : ∀ thread ∈ sim.threads, thread.ip < sim.memory.size)
    (hhalted : sim.tally.halted < 2 ^ 64) (hfaulted : sim.tally.faulted < 2 ^ 64) :
    ∃ scene turns,
      sim.threads.foldlM (Visits.visit sim.config) ⟨sim.scene, []⟩ = .ok ⟨scene, turns⟩ ∧
      turns.length = sim.threads.length ∧
      dispatchFrom 0 sim =
        if sim.tally.halted + deathsBy .halted turns < 2 ^ 64 ∧
            sim.tally.faulted + deathsBy .failed turns < 2 ^ 64 then
          .ok { sim with
            memory := scene.memory
            effects := scene.effects
            threads := survivors turns
            tally := sim.tally.count turns }
        else .error .overflow := by
  have hfits : (sim.tally.count []).Fits := ⟨hhalted, hfaulted⟩
  obtain ⟨⟨scene, turns⟩, hlast, hlength⟩ :=
    Visits.foldlM_visit_exists sim.config ⟨sim.scene, []⟩ hsize hips
  refine ⟨scene, turns, hlast, by simpa using hlength, ?_⟩
  have hfold := Visits.foldlM_give hfits hlast
  have hstart : (⟨sim.scene, []⟩ : Visits).round sim.tally = sim.round [] := rfl
  rw [dispatchFrom_zero, ← hstart, hfold]
  change (if (sim.tally.count turns).Fits then _ else _) >>= _ =
    if (sim.tally.count turns).Fits then _ else _
  split
  next => rfl
  next => rfl

/-- Five threads on a grid of five cells. The first one writes a halt under the second one. -/
def crowd : Simulator Unit :=
  { config := { useThreadDeathEffect := true, maxStackSize := 3 }
    memory :=
      { rows := 1
        columns := 5
        cells := #[{ byte := copyByte }, { byte := 127 }, { byte := haltByte },
          { byte := spawnByte }, { byte := 130 }]
        dirty := false }
    threads :=
      [{ ip := 0, stack := ⟨[1, 0, 1], 3⟩, age := 7, reversed := false },
        Thread.start 1 false 3, Thread.start 2 true 3, Thread.start 4 true 3,
        Thread.start 3 false 3]
    effects := {}
    progress := 0
    cycles := 0
    tally := {}
    source := () }

theorem crowd_dispatched :
    ∃ last, dispatchFrom 0 crowd = .ok last ∧ last.memory.bytes = [1, 2, 2, 3, 130] ∧
      last.threads.map (fun thread => (thread.ip, thread.age)) = [(1, 8), (3, 1)] ∧
      last.effects.toList = [⟨.pulse, 4, 0⟩, ⟨.fallForward, 4, 0⟩, ⟨.pulse, 1, 0⟩,
        ⟨.fallReverse, 1, 0⟩, ⟨.pulse, 2, 0⟩, ⟨.fallForward, 2, 0⟩] ∧
      last.tally.halted = 2 ∧ last.tally.faulted = 1 := by
  obtain ⟨scene, turns, hfold, _, hloop⟩ := dispatch_visits_each_thread_once crowd (by decide)
    (by decide) (by decide) (by decide)
  have hvisits : (crowd.threads.foldlM (Visits.visit crowd.config) ⟨crowd.scene, []⟩).map
      (fun v => (v.scene.memory.bytes, v.scene.effects.toList,
        (survivors v.turns).map fun thread => (thread.ip, thread.age),
        deathsBy .halted v.turns, deathsBy .failed v.turns)) =
      .ok ([1, 2, 2, 3, 130], [⟨.pulse, 4, 0⟩, ⟨.fallForward, 4, 0⟩, ⟨.pulse, 1, 0⟩,
        ⟨.fallReverse, 1, 0⟩, ⟨.pulse, 2, 0⟩, ⟨.fallForward, 2, 0⟩], [(1, 8), (3, 1)], 2, 1) := by
    rfl
  rw [hfold] at hvisits
  simp only [Except.map, Except.ok.injEq, Prod.mk.injEq] at hvisits
  obtain ⟨hbytes, heffects, hthreads, hhalted, hfailed⟩ := hvisits
  rw [hhalted, hfailed, if_pos (by decide)] at hloop
  exact ⟨_, hloop, hbytes, hthreads, heffects, by simp [Tally.count, hhalted, crowd],
    by simp [Tally.count, hfailed, crowd]⟩

end Simulator

end ThreadSoup
