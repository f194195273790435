import ThreadSoup.Proofs.Dispatch

namespace ThreadSoup

def Tally.deaths (tally : Tally) : Nat := tally.halted + tally.faulted + tally.trimmed

theorem addTotal_eq_ok {total delta next : Nat} (h : addTotal total delta = .ok next) :
    next = total + delta := by
  unfold addTotal at h
  split at h
  next => cases h; rfl
  next => cases h

theorem addTotal_eq {total delta : Nat} (h : total + delta < 2 ^ 64) :
    addTotal total delta = .ok (total + delta) := if_pos h

theorem Tally.death_eq_ok {tally next : Tally} {cause : DeathCause}
    (h : tally.death cause = .ok next) :
    next.spawned = tally.spawned ∧ next.deaths = tally.deaths + 1 := by
  unfold Tally.death at h
  cases cause with
  | halted | failed | trimmed =>
    obtain ⟨total, ht, h⟩ := bind_eq_ok.mp h
    cases h
    have := addTotal_eq_ok ht
    refine ⟨rfl, ?_⟩
    simp only [Tally.deaths]
    omega

theorem Tally.death_exists (tally : Tally) (cause : DeathCause)
    (h : tally.deaths + 1 < 2 ^ 64) : ∃ next, tally.death cause = .ok next := by
  unfold Tally.deaths at h
  unfold Tally.death
  cases cause with
  | halted => rw [addTotal_eq (by omega : tally.halted + 1 < 2 ^ 64)]; exact ⟨_, rfl⟩
  | failed => rw [addTotal_eq (by omega : tally.faulted + 1 < 2 ^ 64)]; exact ⟨_, rfl⟩
  | trimmed => rw [addTotal_eq (by omega : tally.trimmed + 1 < 2 ^ 64)]; exact ⟨_, rfl⟩

/-- Why a turn ends the life of its thread, if it does. -/
def Outcome.death? : Outcome → Option DeathCause
  | .running => none
  | .halted => some .halted
  | .failed _ => some .failed

/-- The turns of a pool so far. -/
structure Round where
  scene : Scene
  tally : Tally
  /-- The threads that still run, in pool order. -/
  survivors : List Thread

/-- The next thread of the pool has its turn. -/
def Round.give (config : Config) (round : Round) (thread : Thread) : Except Fault Round := do
  let turn ← dispatch config round.scene thread
  match turn.outcome.death? with
  | none => return { round with scene := turn.scene, survivors := round.survivors ++ [turn.thread] }
  | some cause =>
    let tally ← round.tally.death cause
    return { round with
      scene := { turn.scene with effects := Simulator.mourn config turn.scene.effects turn.thread }
      tally }

theorem Round.give_cases {config : Config} {round next : Round} {thread : Thread}
    (h : round.give config thread = .ok next) :
    ∃ turn, dispatch config round.scene thread = .ok turn ∧
      (turn.outcome.death? = none ∧ next.scene = turn.scene ∧ next.tally = round.tally ∧
          next.survivors = round.survivors ++ [turn.thread] ∨
        ∃ cause, turn.outcome.death? = some cause ∧ round.tally.death cause = .ok next.tally ∧
          next.scene = { turn.scene with
            effects := Simulator.mourn config turn.scene.effects turn.thread } ∧
          next.survivors = round.survivors) := by
  obtain ⟨turn, ht, h⟩ := bind_eq_ok.mp h
  refine ⟨turn, ht, ?_⟩
  split at h
  next ho => cases h; exact Or.inl ⟨ho, rfl, rfl, rfl⟩
  next cause ho =>
    obtain ⟨tally, hd, h⟩ := bind_eq_ok.mp h
    cases h
    exact Or.inr ⟨cause, ho, hd, rfl, rfl⟩

/-- A pointer on the ring and a stack within its capacity. -/
structure Thread.Fits (size capacity : Nat) (thread : Thread) : Prop where
  ip_lt : thread.ip < size
  capacity_eq : thread.stack.capacity = capacity
  depth_le : thread.stack.depth ≤ capacity

theorem Thread.Fits.steps {size capacity : Nat} {before after : Thread} (hsize : size < 2 ^ 63)
    (fits : before.Fits size capacity) (h : before.Steps size after) : after.Fits size capacity := by
  have hdepth := h.stack.depth_le
  have hbefore := fits.depth_le
  have hcapacity := fits.capacity_eq
  exact ⟨wrap_lt hsize h.ip, h.stack.capacity_eq.trans fits.capacity_eq, by omega⟩

/-- What holds of a round while some threads still wait for their turn: every thread is waiting,
running or counted among the dead. -/
structure Round.Sound (config : Config) (start : Scene) (capacity spawned total : Nat)
    (waiting : List Thread) (round : Round) : Prop where
  moves : Moves config start round.scene
  waiting_fit : ∀ thread ∈ waiting, thread.Fits start.memory.size capacity
  survivors_fit : ∀ thread ∈ round.survivors, thread.Fits start.memory.size capacity
  spawned_eq : round.tally.spawned = spawned
  total_eq : waiting.length + round.survivors.length + round.tally.deaths = total

section Round

variable {config : Config} {start : Scene} {capacity spawned total : Nat} {thread : Thread}
  {waiting : List Thread} {round next : Round}

theorem Round.Sound.give (hsize : start.memory.size < 2 ^ 63)
    (sound : round.Sound config start capacity spawned total (thread :: waiting))
    (h : round.give config thread = .ok next) :
    next.Sound config start capacity spawned total waiting := by
  obtain ⟨turn, ht, hcases⟩ := Round.give_cases h
  have hsame := sound.moves.size
  have hmoves := sound.moves.trans (dispatch_moves ht)
  have hsteps := dispatch_steps ht
  rw [hsame] at hsteps
  have hfits := (sound.waiting_fit thread (by simp)).steps hsize hsteps
  have hwaiting : ∀ t ∈ waiting, t.Fits start.memory.size capacity :=
    fun t hmem => sound.waiting_fit t (List.mem_cons_of_mem thread hmem)
  have htotal := sound.total_eq
  simp only [List.length_cons] at htotal
  rcases hcases with ⟨_, hscene, htally, hsurvivors⟩ | ⟨cause, _, hdeath, hscene, hsurvivors⟩
  · refine ⟨hscene ▸ hmoves, hwaiting, ?_, htally ▸ sound.spawned_eq, ?_⟩
    · intro t hmem
      rw [hsurvivors] at hmem
      rcases List.mem_append.mp hmem with hold | hnew
      · exact sound.survivors_fit t hold
      · rw [List.mem_singleton.mp hnew]
        exact hfits
    · rw [hsurvivors, htally, List.length_append, List.length_singleton]
      omega
  · obtain ⟨hspawned, hdeaths⟩ := Tally.death_eq_ok hdeath
    have hip : turn.thread.ip < turn.scene.memory.size := by
      rw [hmoves.size]
      exact hfits.ip_lt
    refine ⟨?_, hwaiting, hsurvivors ▸ sound.survivors_fit, hspawned.trans sound.spawned_eq, ?_⟩
    · rw [hscene]
      exact hmoves.trans (Move.mourn hip).moves
    · rw [hsurvivors]
      omega

theorem Round.Sound.give_exists (hsize : start.memory.size ≤ maxCells) (htotal : total < 2 ^ 64)
    (sound : round.Sound config start capacity spawned total (thread :: waiting)) :
    ∃ next, round.give config thread = .ok next := by
  have hsame := sound.moves.size
  have hip := (sound.waiting_fit thread (by simp)).ip_lt
  obtain ⟨turn, ht⟩ := dispatch_exists config (hsame ▸ hsize) (hsame ▸ hip)
  have hlength := sound.total_eq
  simp only [List.length_cons] at hlength
  unfold Round.give
  rw [ht, ok_bind]
  split
  next => exact ⟨_, rfl⟩
  next cause _ =>
    obtain ⟨tally, hd⟩ := round.tally.death_exists cause (by omega)
    rw [hd]
    exact ⟨_, rfl⟩

end Round

namespace Simulator

variable {σ : Type}

/-- The round in which the threads before a position have had their turn. -/
def round (sim : Simulator σ) (survivors : List Thread) : Round :=
  { scene := sim.scene, tally := sim.tally, survivors }

def close (sim : Simulator σ) (round : Round) : Simulator σ :=
  { sim with
    memory := round.scene.memory
    effects := round.scene.effects
    threads := round.survivors
    tally := round.tally }

/-- The loop that removes the dead in place gives every thread one turn in pool order. -/
theorem dispatchFrom_eq_foldlM {sim : Simulator σ} {done rest : List Thread}
    (h : sim.threads = done ++ rest) :
    dispatchFrom done.length sim =
      (rest.foldlM (Round.give sim.config) (sim.round done) >>= fun last => .ok (sim.close last)) := by
  induction rest generalizing sim done with
  | nil =>
    rw [dispatchFrom, dif_neg (by simp [h])]
    cases sim
    simp_all [round, close, scene]
  | cons thread rest ih =>
    have hlt : done.length < sim.threads.length := by simp [h]
    have hthread : sim.threads[done.length] = thread := by simp [h]
    rw [dispatchFrom, dif_pos hlt, List.foldlM_cons]
    simp only [hthread, Round.give, round]
    cases hd : dispatch sim.config sim.scene thread with
    | error e => rfl
    | ok turn =>
      have hset : sim.threads.set done.length turn.thread = done ++ turn.thread :: rest := by simp [h]
      have herase : (sim.threads.set done.length turn.thread).eraseIdx done.length = done ++ rest := by
        rw [hset, List.eraseIdx_append_of_length_le (Nat.le_refl _)]
        simp
      simp only [ok_bind]
      cases ho : turn.outcome with
      | running =>
        have hlen : done.length + 1 = (done ++ [turn.thread]).length := by simp
        simp only [hset, Outcome.death?, pure_eq, ok_bind, hlen]
        rw [ih (by simp)]
        rfl
      | halted =>
        simp only [Outcome.death?]
        cases ht : sim.tally.death .halted with
        | error e => rfl
        | ok tally =>
          simp only [ok_bind]
          rw [ih (by simpa only [bury] using herase)]
          rfl
      | failed e =>
        simp only [Outcome.death?]
        cases ht : sim.tally.death .failed with
        | error e => rfl
        | ok tally =>
          simp only [ok_bind]
          rw [ih (by simpa only [bury] using herase)]
          rfl

theorem dispatchFrom_zero (sim : Simulator σ) :
    dispatchFrom 0 sim =
      (sim.threads.foldlM (Round.give sim.config) (sim.round []) >>= fun last =>
        .ok (sim.close last)) :=
  dispatchFrom_eq_foldlM (List.nil_append _).symm

theorem bury_length (sim : Simulator σ) {index : Nat} {thread : Thread} (tally : Tally)
    (h : sim.threads[index]? = some thread) :
    (sim.bury index thread tally).threads.length + 1 = sim.threads.length := by
  obtain ⟨hi, _⟩ := List.getElem?_eq_some_iff.mp h
  simp only [bury, List.length_eraseIdx, hi, if_true]
  omega

variable [RandomSource σ]

theorem trim_eq_ok {sim next : Simulator σ} (h : sim.trim = .ok next) :
    ¬sim.config.maxThreadCount.toNat < sim.threads.length ∧ next = sim ∨
      sim.config.maxThreadCount.toNat < sim.threads.length ∧
        ∃ index source thread tally, sim.victim = .ok (index, source) ∧
          sim.threads[index]? = some thread ∧ sim.tally.death .trimmed = .ok tally ∧
          ({ sim with source }.bury index thread tally).trim = .ok next := by
  rw [trim] at h
  split at h
  next hlong =>
    obtain ⟨⟨index, source⟩, hv, h⟩ := bind_eq_ok.mp h
    simp only at h
    split at h
    next hi =>
      obtain ⟨tally, ht, h⟩ := bind_eq_ok.mp h
      exact Or.inr ⟨hlong, index, source, sim.threads[index], tally, hv,
        List.getElem?_eq_getElem hi, ht, h⟩
    next => cases h
  next hshort => cases h; exact Or.inl ⟨hshort, rfl⟩

/-- What one removal keeps, trimming keeps, and it ends with a pool that is small enough. -/
theorem trim_preserves {P : Simulator σ → Prop}
    (step : ∀ sim index source thread tally, P sim →
      sim.config.maxThreadCount.toNat < sim.threads.length → sim.victim = .ok (index, source) →
      sim.threads[index]? = some thread → sim.tally.death .trimmed = .ok tally →
      P ({ sim with source }.bury index thread tally))
    {sim next : Simulator σ} (hp : P sim) (h : sim.trim = .ok next) :
    P next ∧ ¬next.config.maxThreadCount.toNat < next.threads.length := by
  induction hn : sim.threads.length using Nat.strongRecOn generalizing sim with
  | ind n ih =>
    rcases trim_eq_ok h with ⟨hshort, rfl⟩ | ⟨hlong, index, source, thread, tally, hv, hi, ht, h⟩
    · exact ⟨hp, hshort⟩
    · have hlen := bury_length { sim with source } tally hi
      exact ih _ (by rw [← hn, ← hlen]; omega) (step sim index source thread tally hp hlong hv hi ht) h rfl

theorem trim_exists {P : Simulator σ → Prop}
    (step : ∀ sim, P sim → sim.config.maxThreadCount.toNat < sim.threads.length →
      ∃ index source thread tally, sim.victim = .ok (index, source) ∧
        sim.threads[index]? = some thread ∧ sim.tally.death .trimmed = .ok tally ∧
        P ({ sim with source }.bury index thread tally))
    {sim : Simulator σ} (hp : P sim) : ∃ next, sim.trim = .ok next ∧ P next := by
  induction hn : sim.threads.length using Nat.strongRecOn generalizing sim with
  | ind n ih =>
    by_cases hlong : sim.config.maxThreadCount.toNat < sim.threads.length
    · obtain ⟨index, source, thread, tally, hv, hi, ht, hp'⟩ := step sim hp hlong
      have hlen := bury_length { sim with source } tally hi
      obtain ⟨next, hnext, hq⟩ := ih _ (by rw [← hn, ← hlen]; omega) hp' rfl
      obtain ⟨hlt, hthread⟩ := List.getElem?_eq_some_iff.mp hi
      refine ⟨next, ?_, hq⟩
      rw [trim, if_pos hlong, hv, ok_bind]
      simp only [dif_pos hlt, ht, ok_bind, hthread]
      exact hnext
    · exact ⟨sim, by rw [trim, if_neg hlong], hp⟩

end Simulator

end ThreadSoup
