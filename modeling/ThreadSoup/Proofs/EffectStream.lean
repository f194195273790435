import Mathlib.Data.List.Nodup
import Mathlib.Data.List.Perm.Subperm
import ThreadSoup.Proofs.Invariant

namespace ThreadSoup

/-- Whether a configuration shows effects of a kind. -/
def EffectKind.Shown (config : Config) : EffectKind → Prop
  | .pulse | .fallForward | .fallReverse => config.useThreadDeathEffect = true
  | .zoom => config.useCopyEffect = true ∨ config.useSpawnExpireEffect = true

@[simp] theorem EffectQueue.mem_insert {queue : EffectQueue} {effect new : Effect} :
    effect ∈ (queue.insert new).toList ↔ effect = new ∨ effect ∈ queue.toList := by
  unfold EffectQueue.insert EffectQueue.push
  split
  next hmem =>
    constructor
    · exact Or.inr
    · rintro (rfl | hold)
      · exact hmem
      · exact hold
  next => exact List.mem_cons

theorem EffectKind.lifeSpan_le (kind : EffectKind) : kind.lifeSpan ≤ 1000 := by
  cases kind with
  | pulse | fallForward | fallReverse | zoom => decide

/-- No life is as long as its counter, so the age of what still lives is never cut off. -/
theorem Effect.live_age {effect : Effect} {ms : Nat} :
    (!(effect.age ms).isExpired) = true ↔ effect.progress + ms ≤ effect.lifeSpan := by
  have hmax : counterMax = 2 ^ 32 - 1 := rfl
  have hspan : effect.lifeSpan ≤ 1000 := effect.kind.lifeSpan_le
  have hkept : (effect.age ms).lifeSpan = effect.lifeSpan := rfl
  have hprogress : (effect.age ms).progress = min (effect.progress + ms) counterMax := rfl
  rw [Effect.isExpired, Bool.not_eq_true', decide_eq_false_iff_not, hkept, hprogress]
  omega

theorem Effect.age_of_live {effect : Effect} {ms : Nat}
    (h : effect.progress + ms ≤ effect.lifeSpan) :
    effect.age ms = { effect with progress := effect.progress + ms } := by
  have hmax : counterMax = 2 ^ 32 - 1 := rfl
  have hspan : effect.lifeSpan ≤ 1000 := effect.kind.lifeSpan_le
  have hsum : saturatingAdd effect.progress ms = effect.progress + ms := by
    unfold saturatingAdd
    omega
  unfold Effect.age
  rw [hsum]

theorem EffectQueue.advance_eq (queue : EffectQueue) (ms : Nat) :
    (queue.advance ms).toList =
      (queue.toList.filter fun effect => effect.progress + ms ≤ effect.lifeSpan).map (·.age ms) := by
  have hsame : queue.toList.filter ((fun effect => !effect.isExpired) ∘ (·.age ms)) =
      queue.toList.filter fun effect => effect.progress + ms ≤ effect.lifeSpan := by
    apply List.filter_congr
    intro effect _
    rw [Bool.eq_iff_iff, decide_eq_true_iff]
    exact Effect.live_age
  simp only [EffectQueue.advance, List.filter_map, hsame]

theorem EffectQueue.mem_advance {queue : EffectQueue} {kind : EffectKind} {ip progress : Nat}
    (ms : Nat) :
    ⟨kind, ip, progress⟩ ∈ (queue.advance ms).toList ↔
      ms ≤ progress ∧ progress ≤ kind.lifeSpan ∧ ⟨kind, ip, progress - ms⟩ ∈ queue.toList := by
  rw [EffectQueue.advance_eq, List.mem_map]
  constructor
  · rintro ⟨old, hmem, heq⟩
    obtain ⟨hold, hlive⟩ := List.mem_filter.mp hmem
    have hlive : old.progress + ms ≤ old.lifeSpan := by simpa using hlive
    rw [Effect.age_of_live hlive] at heq
    cases heq
    exact ⟨by omega, hlive, by simpa using hold⟩
  · rintro ⟨hms, hlive, hold⟩
    have hsum : progress - ms + ms = progress := by omega
    have hlive : progress - ms + ms ≤ kind.lifeSpan := by omega
    refine ⟨_, List.mem_filter.mpr ⟨hold, decide_eq_true hlive⟩, ?_⟩
    rw [Effect.age_of_live hlive]
    simp [hsum]

/-- The order of a queue and what belongs together in it. -/
structure EffectQueue.Orderly (config : Config) (size : Nat) (queue : EffectQueue) : Prop where
  sound : ∀ effect ∈ queue.toList, effect.Sound size
  nodup : queue.toList.Nodup
  sorted : queue.toList.Pairwise fun newer older => newer.progress ≤ older.progress
  paired : ∀ ip progress, ⟨.pulse, ip, progress⟩ ∈ queue.toList ↔
    ⟨.fallForward, ip, progress⟩ ∈ queue.toList ∨ ⟨.fallReverse, ip, progress⟩ ∈ queue.toList
  shown : ∀ effect ∈ queue.toList, effect.kind.Shown config

theorem EffectQueue.insert_nodup {queue : EffectQueue} (effect : Effect)
    (h : queue.toList.Nodup) : (queue.insert effect).toList.Nodup := by
  unfold EffectQueue.insert EffectQueue.push
  split
  next => exact h
  next hnew => exact List.nodup_cons.mpr ⟨hnew, h⟩

/-- A new effect has made no progress, so it belongs in front of all others. -/
theorem EffectQueue.insert_sorted {queue : EffectQueue} (kind : EffectKind) (ip : Nat)
    (h : queue.toList.Pairwise fun newer older => newer.progress ≤ older.progress) :
    (queue.insert { kind, ip }).toList.Pairwise
      fun newer older => newer.progress ≤ older.progress := by
  unfold EffectQueue.insert EffectQueue.push
  split
  next => exact h
  next => exact List.pairwise_cons.mpr ⟨fun _ _ => Nat.zero_le _, h⟩

/-- Distinct effects that live on stay distinct. -/
theorem EffectQueue.advance_nodup {queue : EffectQueue} (ms : Nat) (h : queue.toList.Nodup) :
    (queue.advance ms).toList.Nodup := by
  rw [EffectQueue.advance_eq]
  refine List.Nodup.map_on ?_ (h.filter _)
  intro first hfirst second hsecond heq
  have hlive : first.progress + ms ≤ first.lifeSpan := by
    simpa using (List.mem_filter.mp hfirst).2
  have hlive' : second.progress + ms ≤ second.lifeSpan := by
    simpa using (List.mem_filter.mp hsecond).2
  rw [Effect.age_of_live hlive, Effect.age_of_live hlive'] at heq
  simp only [Effect.mk.injEq] at heq
  obtain ⟨hkind, hip, hprogress⟩ := heq
  cases first
  cases second
  simp only [Effect.mk.injEq]
  exact ⟨hkind, hip, Nat.add_right_cancel hprogress⟩

theorem EffectQueue.advance_sorted {queue : EffectQueue} (ms : Nat)
    (h : queue.toList.Pairwise fun newer older => newer.progress ≤ older.progress) :
    (queue.advance ms).toList.Pairwise fun newer older => newer.progress ≤ older.progress := by
  rw [EffectQueue.advance_eq, List.pairwise_map]
  refine (h.filter _).imp ?_
  intro newer older hle
  simp only [Effect.age, saturatingAdd]
  omega

namespace EffectQueue.Orderly

variable {config : Config} {size : Nat} {queue : EffectQueue}

theorem empty (config : Config) (size : Nat) : EffectQueue.Orderly config size {} :=
  ⟨by simp, List.nodup_nil, List.Pairwise.nil, by simp, by simp⟩

theorem insert_zoom {ip : Nat} (orderly : queue.Orderly config size) (hip : ip < size)
    (hshown : EffectKind.zoom.Shown config) :
    (queue.insert { kind := .zoom, ip }).Orderly config size where
  sound := EffectQueue.insert_sound .zoom orderly.sound hip
  nodup := EffectQueue.insert_nodup _ orderly.nodup
  sorted := EffectQueue.insert_sorted .zoom ip orderly.sorted
  paired i progress := by simpa using orderly.paired i progress
  shown := by
    intro effect hmem
    rcases EffectQueue.mem_insert.mp hmem with rfl | hold
    · exact hshown
    · exact orderly.shown effect hold

/-- A death queues its fall and its pulse together. One of them may be queued already, but then its
partner is queued as well. -/
theorem mourn {thread : Thread} (orderly : queue.Orderly config size) (hip : thread.ip < size) :
    (Simulator.mourn config queue thread).Orderly config size := by
  have hsound : ∀ effect ∈ (Simulator.mourn config queue thread).toList, effect.Sound size :=
    mourn_sound orderly.sound hip
  unfold Simulator.mourn at hsound ⊢
  split at hsound
  next hdeath =>
    rw [if_pos hdeath]
    refine ⟨hsound, ?_, ?_, ?_, ?_⟩
    · exact EffectQueue.insert_nodup _ (EffectQueue.insert_nodup _ orderly.nodup)
    · exact EffectQueue.insert_sorted _ _ (EffectQueue.insert_sorted _ _ orderly.sorted)
    · intro ip progress
      have hpaired := orderly.paired ip progress
      cases thread.reversed with
      | true => simp [hpaired]; tauto
      | false => simp [hpaired]; tauto
    · intro effect hmem
      rcases EffectQueue.mem_insert.mp hmem with rfl | hmem
      · exact hdeath
      · rcases EffectQueue.mem_insert.mp hmem with rfl | hold
        · cases thread.reversed with
          | true => exact hdeath
          | false => exact hdeath
        · exact orderly.shown effect hold
  next hdeath =>
    rw [if_neg hdeath]
    exact orderly

/-- Falls and pulses live equally long, so they leave the queue together. -/
theorem advance (ms : Nat) (orderly : queue.Orderly config size) :
    (queue.advance ms).Orderly config size where
  sound := EffectQueue.advance_sound ms orderly.sound
  nodup := EffectQueue.advance_nodup ms orderly.nodup
  sorted := EffectQueue.advance_sorted ms orderly.sorted
  paired ip progress := by
    simp only [EffectQueue.mem_advance, EffectKind.lifeSpan, orderly.paired]
    tauto
  shown := by
    rintro ⟨kind, ip, progress⟩ hmem
    exact orderly.shown ⟨kind, ip, progress - ms⟩ ((EffectQueue.mem_advance ms).mp hmem).2.2

end EffectQueue.Orderly

/-- How many effects of a kind are queued on a cell. -/
def EffectQueue.countAt (queue : EffectQueue) (kind : EffectKind) (ip : Nat) : Nat :=
  queue.toList.countP fun effect => effect.kind = kind ∧ effect.ip = ip

/-- Effects of one kind on one cell are told apart by their progress. -/
theorem EffectQueue.countAt_le {queue : EffectQueue} {size : Nat} (kind : EffectKind) (ip : Nat)
    (hsound : ∀ effect ∈ queue.toList, effect.Sound size) (hnodup : queue.toList.Nodup) :
    queue.countAt kind ip ≤ kind.lifeSpan + 1 := by
  let here := queue.toList.filter fun effect => effect.kind = kind ∧ effect.ip = ip
  have hhere : ∀ effect ∈ here,
      effect ∈ queue.toList ∧ effect.kind = kind ∧ effect.ip = ip := by
    intro effect hmem
    simpa [here] using hmem
  have hdistinct : (here.map Effect.progress).Nodup := by
    refine List.Nodup.map_on ?_ (hnodup.filter _)
    intro first hfirst second hsecond hprogress
    obtain ⟨_, hkind, hip⟩ := hhere first hfirst
    obtain ⟨_, hkind', hip'⟩ := hhere second hsecond
    cases first
    cases second
    simp_all
  have hrange : here.map Effect.progress ⊆ List.range (kind.lifeSpan + 1) := by
    intro progress hmem
    obtain ⟨effect, heffect, rfl⟩ := List.mem_map.mp hmem
    obtain ⟨hqueued, rfl, _⟩ := hhere effect heffect
    exact List.mem_range.mpr (Nat.lt_succ_of_le (hsound effect hqueued).progress_le)
  have hlength := (List.subperm_of_subset hdistinct hrange).length_le
  rw [List.length_map, List.length_range] at hlength
  unfold EffectQueue.countAt
  rw [List.countP_eq_length_filter]
  exact hlength

/-- All effects that a queue over a grid of the given size can hold. -/
def allEffects (size : Nat) : List Effect :=
  [EffectKind.pulse, .fallForward, .fallReverse, .zoom].flatMap fun kind =>
    (List.range size).flatMap fun ip =>
      (List.range (kind.lifeSpan + 1)).map fun progress => { kind, ip, progress }

theorem length_allEffects (size : Nat) : (allEffects size).length = 3504 * size := by
  simp only [allEffects, List.flatMap_cons, List.flatMap_nil, List.length_append, List.length_flatMap,
    List.length_map, List.length_range, List.map_const', List.sum_replicate_nat, EffectKind.lifeSpan,
    List.length_nil]
  omega

theorem Effect.Sound.mem_allEffects {effect : Effect} {size : Nat} (sound : effect.Sound size) :
    effect ∈ allEffects size := by
  have hprogress := Nat.lt_succ_of_le sound.progress_le
  obtain ⟨kind, ip, progress⟩ := effect
  have hip := sound.ip_lt
  refine List.mem_flatMap.mpr ⟨kind, by cases kind <;> simp, ?_⟩
  refine List.mem_flatMap.mpr ⟨ip, List.mem_range.mpr hip, ?_⟩
  exact List.mem_map.mpr ⟨progress, List.mem_range.mpr hprogress, rfl⟩

theorem EffectQueue.length_le {queue : EffectQueue} {size : Nat}
    (hsound : ∀ effect ∈ queue.toList, effect.Sound size) (hnodup : queue.toList.Nodup) :
    queue.length ≤ 3504 * size := by
  have hsubset : queue.toList ⊆ allEffects size :=
    fun effect hmem => (hsound effect hmem).mem_allEffects
  rw [← length_allEffects]
  exact (List.subperm_of_subset hnodup hsubset).length_le

section Moves

variable {config : Config} {scene next : Scene}

/-- The three ways in which effects are queued. -/
theorem Move.effects_cases (move : Move config scene next) :
    next.effects = scene.effects ∨
      (∃ ip < scene.memory.size, EffectKind.zoom.Shown config ∧
        next.effects = scene.effects.insert { kind := .zoom, ip }) ∨
      ∃ thread, thread.ip < scene.memory.size ∧
        next.effects = Simulator.mourn config scene.effects thread := by
  cases move with
  | @copy _ _ _ target h =>
    obtain ⟨_, _, _, _, ht, _, _, heffects⟩ := copyCell_eq_ok h
    by_cases hshown : config.useCopyEffect = true
    · rw [if_pos hshown] at heffects
      exact Or.inr (Or.inl ⟨target, Memory.get_lt ht, Or.inl hshown, heffects⟩)
    · rw [if_neg hshown] at heffects
      exact Or.inl heffects
  | @countDown _ _ origin h =>
    obtain ⟨cell, hc, h⟩ := bind_eq_ok.mp h
    split at h
    next => cases h; exact Or.inl rfl
    next =>
      split at h
      next =>
        obtain ⟨memory, _, h⟩ := bind_eq_ok.mp h
        cases h
        by_cases hshown : config.useSpawnExpireEffect = true
        · exact Or.inr (Or.inl ⟨origin, Memory.get_lt hc, Or.inr hshown, if_pos hshown⟩)
        · exact Or.inl (if_neg hshown)
      next =>
        obtain ⟨memory, _, h⟩ := bind_eq_ok.mp h
        cases h
        exact Or.inl rfl
  | @mourn _ thread hip => exact Or.inr (Or.inr ⟨thread, hip, rfl⟩)
  | noise _ _ => exact Or.inl rfl
  | highlight _ => exact Or.inl rfl

theorem Move.orderly (move : Move config scene next)
    (orderly : scene.effects.Orderly config scene.memory.size) :
    next.effects.Orderly config next.memory.size := by
  rw [move.moves.size]
  rcases move.effects_cases with heq | ⟨ip, hip, hshown, heq⟩ | ⟨thread, hip, heq⟩
  · rw [heq]
    exact orderly
  · rw [heq]
    exact orderly.insert_zoom hip hshown
  · rw [heq]
    exact orderly.mourn hip

theorem Moves.orderly (moves : Moves config scene next)
    (orderly : scene.effects.Orderly config scene.memory.size) :
    next.effects.Orderly config next.memory.size :=
  moves.preserves (P := fun s => s.effects.Orderly config s.memory.size)
    (fun _ _ ha move => move.orderly ha) orderly

end Moves

namespace Simulator

variable {σ : Type} [RandomSource σ] {layout : Layout} {sim next : Simulator σ}

theorem create_orderly {source : σ}
    (h : create layout.rows layout.columns layout.config source = .ok sim) :
    sim.effects.Orderly layout.config sim.size := by
  obtain ⟨filled, hf, rfl⟩ := create_eq_ok h
  rcases fill_cases (blank_wellFormed layout source) hf with phase | ⟨memory, rfl, _, _⟩
  · exact phase.moves.orderly (EffectQueue.Orderly.empty _ _)
  · exact EffectQueue.Orderly.empty _ _

/-- A command that neither runs cycles nor lets time pass leaves the queue alone. -/
theorem perform_orderly {command : Command} (wf : sim.WellFormed layout)
    (orderly : sim.effects.Orderly layout.config sim.size)
    (h : sim.perform command = .ok next) : next.effects.Orderly layout.config next.size := by
  have hsize : next.size = sim.size :=
    (perform_ledger wf h).wellFormed.size_eq.trans wf.size_eq.symm
  cases command with
  | behave ms =>
    obtain ⟨⟨after, ran⟩, hb, h⟩ := bind_eq_ok.mp h
    cases h
    obtain ⟨_, _, last, phase, rfl⟩ := behave_phase wf hb
    have hlast := phase.moves.orderly orderly
    rw [phase.moves.size] at hlast
    rw [hsize]
    exact hlast.advance ms.toNat
  | cycle => exact (cycle_phase wf h).moves.orderly orderly
  | spawn ip reversed => exact (spawnThread_phase wf h).moves.orderly orderly
  | finishFrame =>
    cases h
    rw [hsize]
    unfold finishFrame
    split
    next => exact orderly
    next => exact orderly
  | clearDirty => cases h; exact orderly
  | print =>
    obtain ⟨text, _, h⟩ := bind_eq_ok.mp h
    cases h
    exact orderly
  | write index byte | replace index cell =>
    obtain ⟨memory, _, h⟩ := bind_eq_ok.mp h
    cases h
    rw [hsize]
    exact orderly

/-- In every state that a host can reach the queue holds no effect twice and the youngest ones
first, pulses are queued where and when falls are, only what the configuration shows is queued, and
the queue is bounded by the size of the grid. -/
theorem effect_stream_orderly {rows columns : Nat} {config : Config} {source : σ}
    {start : Simulator σ} {commands : List Command}
    (hc : create rows columns config source = .ok start) (hr : start.run commands = .ok sim) :
    sim.effects.toList.Nodup ∧
    sim.effects.toList.Pairwise (fun newer older => newer.progress ≤ older.progress) ∧
    (∀ ip progress, ⟨.pulse, ip, progress⟩ ∈ sim.effects.toList ↔
      ⟨.fallForward, ip, progress⟩ ∈ sim.effects.toList ∨
        ⟨.fallReverse, ip, progress⟩ ∈ sim.effects.toList) ∧
    (∀ effect ∈ sim.effects.toList,
      (effect.kind = .zoom → config.useCopyEffect = true ∨ config.useSpawnExpireEffect = true) ∧
      (effect.kind ≠ .zoom → config.useThreadDeathEffect = true)) ∧
    (∀ ip, sim.effects.countAt .zoom ip ≤ 501 ∧
      ∀ kind, kind ≠ .zoom → sim.effects.countAt kind ip ≤ 1001) ∧
    sim.effects.length ≤ 3504 * (rows * columns) := by
  obtain ⟨layout, rfl, rfl, rfl⟩ := create_layout hc
  have wf := (create_wellFormed hc).1
  have hsize : sim.size = layout.size := (run_ledger wf hr).wellFormed.size_eq
  have orderly := run_preserves (P := fun a => a.effects.Orderly layout.config a.size)
    (fun _ _ _ _ => perform_orderly) wf (create_orderly hc) hr
  rw [hsize] at orderly
  have hcount := fun kind ip => EffectQueue.countAt_le kind ip orderly.sound orderly.nodup
  refine ⟨orderly.nodup, orderly.sorted, orderly.paired, ?_, ?_,
    EffectQueue.length_le orderly.sound orderly.nodup⟩
  · rintro ⟨kind, ip, progress⟩ hmem
    have hshown := orderly.shown _ hmem
    cases kind with
    | zoom => exact ⟨fun _ => hshown, fun hne => absurd rfl hne⟩
    | pulse | fallForward | fallReverse => exact ⟨fun heq => (by cases heq), fun _ => hshown⟩
  · intro ip
    refine ⟨hcount .zoom ip, ?_⟩
    intro kind _
    exact Nat.le_trans (hcount kind ip) (Nat.succ_le_succ kind.lifeSpan_le)

/-- A fresh row of three halt cells that shows deaths and expiries. -/
def freshRow : Simulator Script :=
  { config :=
      { msPerCycle := 10
        maxStackSize := 2
        maxThreadCount := 4
        spawnLifeSpan := 1
        useThreadDeathEffect := true
        useSpawnExpireEffect := true }
    memory :=
      { rows := 1
        columns := 3
        cells := Array.replicate 3 { byte := haltByte, modified := 1 }
        dirty := true }
    threads := []
    effects := {}
    progress := 0
    cycles := 0
    tally := {}
    source := ⟨[]⟩ }

/-- A spawn cell expires, the thread that executed it dies, and two more die on one cell at the
same time. -/
theorem freshRow_stream :
    create 1 3 freshRow.config freshRow.source = .ok freshRow ∧
      ∃ sim, freshRow.run [.write 0 127, .write 1 spawnByte, .spawn 0 false, .behave 30,
          .spawn 2 true, .spawn 2 true, .behave 10, .finishFrame] = .ok sim ∧
        sim.effects.toList = [⟨.pulse, 1, 10⟩, ⟨.fallReverse, 1, 10⟩, ⟨.pulse, 0, 40⟩,
          ⟨.fallForward, 0, 40⟩, ⟨.zoom, 1, 40⟩] ∧
        sim.effects.toList.Nodup ∧ sim.effects.countAt .zoom 1 ≤ 501 ∧
        sim.effects.length ≤ 3504 * (1 * 3) := by
  have hc : create 1 3 freshRow.config freshRow.source = .ok freshRow := by rfl
  have hrun : (freshRow.run [.write 0 127, .write 1 spawnByte, .spawn 0 false, .behave 30,
      .spawn 2 true, .spawn 2 true, .behave 10, .finishFrame]).map (fun sim => sim.effects.toList) =
        .ok [⟨.pulse, 1, 10⟩, ⟨.fallReverse, 1, 10⟩, ⟨.pulse, 0, 40⟩, ⟨.fallForward, 0, 40⟩,
          ⟨.zoom, 1, 40⟩] := by decide +kernel
  obtain ⟨sim, hr, heffects⟩ := map_eq_ok.mp hrun
  obtain ⟨hnodup, _, _, _, hcount, hlength⟩ := effect_stream_orderly hc hr
  exact ⟨hc, sim, hr, heffects, hnodup, (hcount 1).1, hlength⟩

end Simulator

end ThreadSoup
