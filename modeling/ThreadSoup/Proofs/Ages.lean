import ThreadSoup.Proofs.Run
import ThreadSoup.Proofs.Schedule
import ThreadSoup.Proofs.Visits

namespace ThreadSoup

/-- New threads stand in front of older ones. -/
structure Aged (limit : Nat) (threads : List Thread) : Prop where
  sorted : threads.Pairwise fun newer older => newer.age ≤ older.age
  bounded : ∀ thread ∈ threads, thread.age ≤ limit ∧ thread.age ≤ counterMax

theorem Aged.sublist {limit : Nat} {threads kept : List Thread} (aged : Aged limit threads)
    (h : kept.Sublist threads) : Aged limit kept :=
  ⟨aged.sorted.sublist h, fun thread hmem => aged.bounded thread (h.subset hmem)⟩

theorem Aged.cons {limit : Nat} {threads : List Thread} {thread : Thread}
    (aged : Aged limit threads) (h : thread.age = 0) : Aged limit (thread :: threads) := by
  refine ⟨List.pairwise_cons.mpr ⟨fun older _ => by omega, aged.sorted⟩, ?_⟩
  intro t hmem
  rcases List.mem_cons.mp hmem with rfl | hold
  · omega
  · exact aged.bounded t hold

/-- A turn for every thread keeps the order of the ages, also of those that cannot grow. -/
theorem Aged.steps {limit size : Nat} {threads after : List Thread} (aged : Aged limit threads)
    (h : List.Forall₂ (Thread.Steps size) threads after) : Aged (limit + 1) after := by
  have hages : after.map Thread.age = threads.map fun thread => saturatingAdd thread.age 1 := by
    induction h with
    | nil => rfl
    | cons step _ ih =>
      rw [List.map_cons, List.map_cons, step.age,
        ih ⟨(List.pairwise_cons.mp aged.sorted).2,
          fun thread hmem => aged.bounded thread (List.mem_cons_of_mem _ hmem)⟩]
  have hsorted : (after.map Thread.age).Pairwise (· ≤ ·) := by
    rw [hages, List.pairwise_map]
    exact aged.sorted.imp fun hle => by simp only [saturatingAdd]; omega
  refine ⟨List.pairwise_map.mp hsorted, ?_⟩
  intro thread hmem
  have hage : thread.age ∈ after.map Thread.age := List.mem_map_of_mem hmem
  rw [hages] at hage
  obtain ⟨old, hold, heq⟩ := List.mem_map.mp hage
  have hbound := aged.bounded old hold
  simp only [saturatingAdd] at heq
  omega

/-- The oldest thread is the first one that no other exceeds. -/
theorem oldest_spec {threads : List Thread} (hne : threads ≠ []) :
    ∃ thread, threads[oldest threads]? = some thread ∧
      (∀ other ∈ threads, other.age ≤ thread.age) ∧
      ∀ other ∈ threads.take (oldest threads), other.age < thread.age := by
  have hlt := oldest_lt (List.length_pos_iff.mpr hne)
  obtain ⟨_, _, hbound⟩ := foldl_max_age threads 0
  have hfound : threads[oldest threads].age =
      threads.foldl (fun age thread => max age thread.age) 0 :=
    eq_of_beq (List.findIdx_getElem (w := hlt))
  rw [← hfound] at hbound
  refine ⟨threads[oldest threads], List.getElem?_eq_getElem hlt, hbound, ?_⟩
  intro other hmem
  obtain ⟨i, hi, rfl⟩ := List.mem_take_iff_getElem.mp hmem
  have hearlier : i < oldest threads := by omega
  have hnot : ¬(threads[i].age == threads.foldl (fun age thread => max age thread.age) 0) = true :=
    Bool.eq_false_iff.mp (List.not_of_lt_findIdx hearlier)
  rw [← hfound, beq_iff_eq] at hnot
  exact Nat.lt_of_le_of_ne (hbound threads[i] (List.getElem_mem _)) hnot

/-- In a pool that is sorted by age the oldest thread is the first one of the last cohort. -/
theorem oldest_of_sorted {threads : List Thread} (hne : threads ≠ [])
    (h : threads.Pairwise fun newer older => newer.age ≤ older.age) :
    ∃ younger cohort age, threads = younger ++ cohort ∧ cohort ≠ [] ∧
      (∀ thread ∈ younger, thread.age < age) ∧ (∀ thread ∈ cohort, thread.age = age) ∧
      oldest threads = younger.length := by
  obtain ⟨thread, hthread, hbound, hyounger⟩ := oldest_spec hne
  obtain ⟨hlt, hget⟩ := List.getElem?_eq_some_iff.mp hthread
  have hcohort : threads.drop (oldest threads) = thread :: threads.drop (oldest threads + 1) := by
    rw [← hget, List.getElem_cons_drop]
  refine ⟨threads.take (oldest threads), threads.drop (oldest threads), thread.age,
    (List.take_append_drop _ _).symm, by rw [hcohort]; exact List.cons_ne_nil _ _, hyounger, ?_, ?_⟩
  · have hsorted := h.sublist (List.drop_sublist (oldest threads) threads)
    intro other hmem
    have hle := hbound other (List.mem_of_mem_drop hmem)
    rw [hcohort] at hmem hsorted
    rcases List.mem_cons.mp hmem with rfl | hafter
    · rfl
    · exact Nat.le_antisymm hle ((List.pairwise_cons.mp hsorted).1 other hafter)
  · rw [List.length_take, Nat.min_eq_left (Nat.le_of_lt hlt)]

theorem survivors_sublist (turns : List Turn) : (survivors turns).Sublist (turns.map Turn.thread) :=
  List.filter_sublist.map Turn.thread

/-- A round gives the turns of the fold that does not count the dead. -/
theorem Visits.foldlM_of_give {config : Config} {threads : List Thread} {round last : Round}
    {visits : Visits} (hscene : visits.scene = round.scene)
    (hsurvivors : round.survivors = survivors visits.turns)
    (h : threads.foldlM (Round.give config) round = .ok last) :
    ∃ turns scene,
      threads.foldlM (Visits.visit config) visits = .ok ⟨scene, visits.turns ++ turns⟩ ∧
      last.survivors = survivors (visits.turns ++ turns) ∧
      List.Forall₂ (fun thread turn => thread.Steps round.scene.memory.size turn.thread)
        threads turns := by
  induction threads generalizing round visits with
  | nil =>
    cases h
    exact ⟨[], visits.scene, by simp, by simpa using hsurvivors, List.Forall₂.nil⟩
  | cons thread rest ih =>
    rw [List.foldlM_cons] at h
    obtain ⟨next, hn, h⟩ := bind_eq_ok.mp h
    obtain ⟨turn, ht, hcases⟩ := Round.give_cases hn
    have hvisit : visits.visit config thread =
        .ok { scene := turn.aftermath config, turns := visits.turns ++ [turn] } := by
      unfold Visits.visit
      rw [hscene, ht]
      rfl
    have hnext : (⟨turn.aftermath config, visits.turns ++ [turn]⟩ : Visits).scene = next.scene ∧
        next.survivors = survivors (visits.turns ++ [turn]) ∧
        next.scene.memory.size = round.scene.memory.size := by
      have hsize := (dispatch_moves ht).size
      unfold Turn.aftermath
      rw [Outcome.isRunning_eq, survivors_snoc, ← hsurvivors]
      rcases hcases with ⟨hdeath, hs, _, hv⟩ | ⟨cause, hdeath, _, hs, hv⟩
      · simp [hdeath, hs, hv, hsize]
      · simp [hdeath, hs, hv, hsize]
    obtain ⟨haftermath, hkept, hsame⟩ := hnext
    obtain ⟨turns, scene, hfold, hlast, hsteps⟩ := ih haftermath hkept h
    simp only [List.append_assoc, List.singleton_append] at hfold hlast
    rw [hsame] at hsteps
    refine ⟨turn :: turns, scene, ?_, hlast, List.Forall₂.cons (dispatch_steps ht) hsteps⟩
    rw [List.foldlM_cons, hvisit]
    exact hfold

/-- A command that neither runs cycles nor starts a thread. -/
def Command.Idle : Command → Prop
  | .behave _ | .cycle | .spawn _ _ => False
  | .finishFrame | .clearDirty | .print | .write _ _ | .replace _ _ => True

namespace Simulator

variable {σ : Type} {sim next : Simulator σ} {limit : Nat}

theorem dispatchFrom_turns (h : dispatchFrom 0 sim = .ok next) :
    ∃ turns scene,
      sim.threads.foldlM (Visits.visit sim.config) ⟨sim.scene, []⟩ = .ok ⟨scene, turns⟩ ∧
      next.threads = survivors turns ∧ next.cycles = sim.cycles ∧ next.config = sim.config ∧
      List.Forall₂ (fun thread turn => thread.Steps sim.size turn.thread) sim.threads turns := by
  rw [dispatchFrom_zero] at h
  obtain ⟨last, hl, h⟩ := bind_eq_ok.mp h
  cases h
  have hscene : (⟨sim.scene, []⟩ : Visits).scene = (sim.round []).scene := rfl
  obtain ⟨turns, scene, hfold, hlast, hsteps⟩ := Visits.foldlM_of_give hscene rfl hl
  exact ⟨turns, scene, hfold, hlast, rfl, rfl, hsteps⟩

theorem dispatchFrom_aged (aged : Aged limit sim.threads) (h : dispatchFrom 0 sim = .ok next) :
    Aged (limit + 1) next.threads := by
  obtain ⟨turns, _, _, hthreads, _, _, hsteps⟩ := dispatchFrom_turns h
  rw [hthreads]
  exact (aged.steps (List.forall₂_map_right_iff.mpr hsteps)).sublist (survivors_sublist turns)

theorem spawnThread_eq_ok {ip : Nat} {reversed : Bool}
    (h : sim.spawnThread ip reversed = .ok next) :
    ∃ thread tally, thread.age = 0 ∧
      next = { sim with threads := thread :: sim.threads, tally } := by
  unfold spawnThread at h
  split at h
  next => cases h
  next =>
    obtain ⟨tally, _, h⟩ := bind_eq_ok.mp h
    cases h
    exact ⟨_, tally, rfl, rfl⟩

variable [RandomSource σ]

theorem addNoise_eq_ok (h : sim.addNoise = .ok next) :
    ∃ memory source, next = { sim with memory, source } := by
  obtain ⟨⟨index, source⟩, _, h⟩ := bind_eq_ok.mp h
  simp only [randomizeCell] at h
  split at h
  next => cases h; exact ⟨sim.memory, source, rfl⟩
  next =>
    obtain ⟨⟨byte, rest⟩, _, h⟩ := bind_eq_ok.mp h
    obtain ⟨memory, _, h⟩ := bind_eq_ok.mp h
    cases h
    exact ⟨memory, rest, rfl⟩

theorem injectThread_eq_ok (h : sim.injectThread = .ok next) :
    ∃ thread tally source, thread.age = 0 ∧
      next = { sim with threads := thread :: sim.threads, tally, source } := by
  obtain ⟨⟨ip, source⟩, _, h⟩ := bind_eq_ok.mp h
  simp only at h
  split at h
  next =>
    obtain ⟨thread, tally, hage, rfl⟩ := spawnThread_eq_ok h
    exact ⟨thread, tally, _, hage, rfl⟩
  next =>
    obtain ⟨thread, tally, hage, rfl⟩ := spawnThread_eq_ok h
    exact ⟨thread, tally, _, hage, rfl⟩

/-- Noise changes neither the pool nor the number of cycles. -/
theorem repeatTimes_addNoise_threads {count : Nat} (h : repeatTimes addNoise count sim = .ok next) :
    next.threads = sim.threads ∧ next.cycles = sim.cycles :=
  repeatTimes_preserves (P := fun a => a.threads = sim.threads ∧ a.cycles = sim.cycles)
    (fun a b ha hb => by
      obtain ⟨memory, source, rfl⟩ := addNoise_eq_ok hb
      exact ha) ⟨rfl, rfl⟩ h

theorem repeatTimes_injectThread_aged {count : Nat} (aged : Aged limit sim.threads)
    (h : repeatTimes injectThread count sim = .ok next) :
    Aged limit next.threads ∧ next.cycles = sim.cycles :=
  repeatTimes_preserves (P := fun a => Aged limit a.threads ∧ a.cycles = sim.cycles)
    (fun a b ⟨ha, hc⟩ hb => by
      obtain ⟨thread, tally, source, hage, rfl⟩ := injectThread_eq_ok hb
      exact ⟨ha.cons hage, hc⟩) ⟨aged, rfl⟩ h

/-- One removal of trimming. -/
def removeVictim (sim : Simulator σ) : Except Fault (Simulator σ) := do
  let (index, source) ← sim.victim
  if h : index < sim.threads.length then
    let tally ← sim.tally.death .trimmed
    return { sim with source }.bury index sim.threads[index] tally
  else throw .outOfRange

theorem removeVictim_eq_ok (h : sim.removeVictim = .ok next) :
    ∃ index source thread tally, sim.victim = .ok (index, source) ∧
      sim.threads[index]? = some thread ∧ sim.tally.death .trimmed = .ok tally ∧
      next = { sim with source }.bury index thread tally := by
  obtain ⟨⟨index, source⟩, hv, h⟩ := bind_eq_ok.mp h
  simp only at h
  split at h
  next hi =>
    obtain ⟨tally, ht, h⟩ := bind_eq_ok.mp h
    cases h
    exact ⟨index, source, sim.threads[index], tally, hv, List.getElem?_eq_getElem hi, ht, rfl⟩
  next => cases h

theorem removeVictim_kept (h : sim.removeVictim = .ok next) :
    next.threads.Sublist sim.threads ∧ next.threads.length + 1 = sim.threads.length ∧
      next.config = sim.config ∧ next.cycles = sim.cycles := by
  obtain ⟨index, source, thread, tally, _, hi, _, rfl⟩ := removeVictim_eq_ok h
  exact ⟨List.eraseIdx_sublist _ _, bury_length { sim with source } tally hi, rfl, rfl⟩

/-- Trimming is as many removals as there are threads too many. -/
theorem trim_eq_repeatTimes (sim : Simulator σ) :
    sim.trim =
      repeatTimes removeVictim (sim.threads.length - sim.config.maxThreadCount.toNat) sim := by
  induction hn : sim.threads.length using Nat.strongRecOn generalizing sim with
  | ind n ih =>
    rw [trim]
    by_cases hlong : sim.config.maxThreadCount.toNat < sim.threads.length
    · obtain ⟨left, hleft⟩ := Nat.exists_eq_add_one_of_ne_zero
        (by omega : n - sim.config.maxThreadCount.toNat ≠ 0)
      rw [if_pos hlong, hleft, repeatTimes]
      unfold removeVictim
      cases sim.victim with
      | error e => rfl
      | ok drawn =>
        simp only [ok_bind]
        split
        next hi =>
          cases sim.tally.death .trimmed with
          | error e => rfl
          | ok tally =>
            have hlen : ({ sim with source := drawn.2 }.bury drawn.1 sim.threads[drawn.1]
                tally).threads.length + 1 = sim.threads.length :=
              bury_length { sim with source := drawn.2 } tally (List.getElem?_eq_getElem hi)
            simp only [ok_bind, pure_eq]
            rw [ih _ (by rw [← hn, ← hlen]; omega) _ rfl]
            congr 1
            change _ - sim.config.maxThreadCount.toNat = left
            omega
        next => rfl
    · rw [if_neg hlong, show n - sim.config.maxThreadCount.toNat = 0 by omega]
      rfl

theorem repeatTimes_removeVictim_kept {count : Nat}
    (h : repeatTimes removeVictim count sim = .ok next) :
    next.threads.Sublist sim.threads ∧ next.threads.length + count = sim.threads.length ∧
      next.config = sim.config ∧ next.cycles = sim.cycles := by
  induction count generalizing sim with
  | zero =>
    cases h
    exact ⟨List.Sublist.refl _, rfl, rfl, rfl⟩
  | succ count ih =>
    obtain ⟨middle, hm, h⟩ := bind_eq_ok.mp h
    obtain ⟨hfirst, hlength, hconfig, hcycles⟩ := removeVictim_kept hm
    obtain ⟨hsub, hleft, hc, hn⟩ := ih h
    exact ⟨hsub.trans hfirst, by omega, hc.trans hconfig, hn.trans hcycles⟩

theorem turned_wellFormed {layout : Layout} (wf : sim.WellFormed layout)
    (h : sim.turned = .ok next) : next.WellFormed layout := by
  obtain ⟨noisy, hnoise, h⟩ := bind_eq_ok.mp h
  obtain ⟨fed, hfed, h⟩ := bind_eq_ok.mp h
  have noise := repeatTimes_phase (fun _ _ => addNoise_phase) wf hnoise
  have feed := repeatTimes_phase (fun _ _ => injectThread_phase) noise.wellFormed hfed
  exact (dispatchFrom_phase feed.wellFormed h).wellFormed

theorem turned_aged (aged : Aged sim.cycles sim.threads) (h : sim.turned = .ok next) :
    Aged (sim.cycles + 1) next.threads ∧ next.cycles = sim.cycles := by
  obtain ⟨noisy, hnoise, h⟩ := bind_eq_ok.mp h
  obtain ⟨fed, hfed, h⟩ := bind_eq_ok.mp h
  obtain ⟨hthreads, hcycles⟩ := repeatTimes_addNoise_threads hnoise
  obtain ⟨hage, hfedcycles⟩ := repeatTimes_injectThread_aged (hthreads ▸ aged) hfed
  obtain ⟨_, _, _, _, hturned, _⟩ := dispatchFrom_turns h
  exact ⟨dispatchFrom_aged hage h, hturned.trans (hfedcycles.trans hcycles)⟩

/-- A cycle as its turns, its removals and its end. -/
theorem cycle_eq_turned (sim : Simulator σ) :
    sim.cycle = (sim.turned >>= fun turned =>
      repeatTimes removeVictim (turned.threads.length - turned.config.maxThreadCount.toNat) turned >>=
        fun trimmed => highlight trimmed.memory trimmed.threads >>= fun memory =>
          addTotal trimmed.cycles 1 >>= fun cycles => .ok { trimmed with memory, cycles }) := by
  unfold turned
  simp only [bind_assoc, ← trim_eq_repeatTimes]
  rfl

theorem cycle_aged (aged : Aged sim.cycles sim.threads) (h : sim.cycle = .ok next) :
    Aged next.cycles next.threads := by
  rw [cycle_eq_turned] at h
  obtain ⟨turned, hturned, h⟩ := bind_eq_ok.mp h
  obtain ⟨trimmed, htrim, h⟩ := bind_eq_ok.mp h
  obtain ⟨memory, _, h⟩ := bind_eq_ok.mp h
  obtain ⟨cycles, hcycles, h⟩ := bind_eq_ok.mp h
  cases h
  obtain ⟨hage, hsame⟩ := turned_aged aged hturned
  obtain ⟨hsub, _, _, hkept⟩ := repeatTimes_removeVictim_kept htrim
  have hcount : cycles = sim.cycles + 1 := by
    rw [addTotal_eq_ok hcycles, hkept, hsame]
  change Aged cycles trimmed.threads
  rw [hcount]
  exact hage.sublist hsub

/-- Trimming by age removes the first thread of the last cohort, however many threads are already
gone. -/
theorem victim_first_of_cohort {turned middle : Simulator σ} {removed : Nat}
    (hoff : turned.config.threadReductionEnabled = false) (aged : Aged limit turned.threads)
    (hr : removed < turned.threads.length - turned.config.maxThreadCount.toNat)
    (h : repeatTimes removeVictim removed turned = .ok middle) :
    ∃ younger cohort age, middle.threads = younger ++ cohort ∧ cohort ≠ [] ∧
      (∀ thread ∈ younger, thread.age < age) ∧ (∀ thread ∈ cohort, thread.age = age) ∧
      middle.victim = .ok (younger.length, middle.source) := by
  obtain ⟨hsub, hlength, hconfig, _⟩ := repeatTimes_removeVictim_kept h
  have hne : middle.threads ≠ [] := List.length_pos_iff.mp (by omega)
  obtain ⟨younger, cohort, age, hsplit, hcohort, hyounger, hsame, holdest⟩ :=
    oldest_of_sorted hne (aged.sublist hsub).sorted
  refine ⟨younger, cohort, age, hsplit, hcohort, hyounger, hsame, ?_⟩
  unfold victim
  rw [hconfig, hoff, holdest]
  rfl

theorem perform_idle {command : Command} (h : sim.perform command = .ok next)
    (hidle : command.Idle) : next.threads = sim.threads ∧ next.cycles = sim.cycles := by
  cases command with
  | behave ms => exact hidle.elim
  | cycle => exact hidle.elim
  | spawn ip reversed => exact hidle.elim
  | finishFrame =>
    cases h
    unfold finishFrame
    split
    next => exact ⟨rfl, rfl⟩
    next => exact ⟨rfl, rfl⟩
  | clearDirty => cases h; exact ⟨rfl, rfl⟩
  | print | write index byte | replace index cell =>
    obtain ⟨_, _, h⟩ := bind_eq_ok.mp h
    cases h
    exact ⟨rfl, rfl⟩

theorem perform_aged {layout : Layout} {command : Command} (wf : sim.WellFormed layout)
    (aged : Aged sim.cycles sim.threads) (h : sim.perform command = .ok next) :
    Aged next.cycles next.threads := by
  cases command with
  | behave ms =>
    obtain ⟨⟨after, ran⟩, hb, h⟩ := bind_eq_ok.mp h
    cases h
    rw [behave_eq ms (wf.config_eq ▸ wf.progress_lt)] at hb
    obtain ⟨last, hl, hb⟩ := bind_eq_ok.mp hb
    cases hb
    exact repeatTimes_preserves (P := fun a => Aged a.cycles a.threads)
      (fun _ _ => cycle_aged) aged hl
  | cycle => exact cycle_aged aged h
  | spawn ip reversed =>
    obtain ⟨thread, tally, hage, rfl⟩ := spawnThread_eq_ok h
    exact aged.cons hage
  | finishFrame | clearDirty | print | write index byte | replace index cell =>
    obtain ⟨hthreads, hcycles⟩ := perform_idle h trivial
    rw [hthreads, hcycles]
    exact aged

theorem run_aged {layout : Layout} {source : σ} {start : Simulator σ} {commands : List Command}
    (hc : create layout.rows layout.columns layout.config source = .ok start)
    (hr : start.run commands = .ok sim) : Aged sim.cycles sim.threads := by
  obtain ⟨wf, _, _, hspawned⟩ := create_wellFormed hc
  have hempty : start.threads = [] := by
    have hbalance := wf.balance
    exact List.length_eq_zero_iff.mp (by omega)
  refine run_preserves (fun _ _ _ _ => perform_aged) wf ?_ hr
  rw [hempty]
  exact ⟨List.Pairwise.nil, by simp⟩

end Simulator

end ThreadSoup
