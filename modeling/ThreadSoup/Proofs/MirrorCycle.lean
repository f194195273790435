import ThreadSoup.Proofs.Mirror

namespace ThreadSoup

theorem oldest_congr {threads images : List Thread}
    (h : threads.map Thread.age = images.map Thread.age) : oldest threads = oldest images := by
  have hages : ∀ list : List Thread, oldest list =
      (list.map Thread.age).findIdx fun age => age == (list.map Thread.age).foldl max 0 := by
    intro list
    rw [List.findIdx_map, List.foldl_map]
    rfl
  rw [hages, hages, h]

theorem forall₂_eraseIdx {α β : Type} {R : α → β → Prop} {as : List α} {bs : List β}
    (h : List.Forall₂ R as bs) (index : Nat) :
    List.Forall₂ R (as.eraseIdx index) (bs.eraseIdx index) := by
  rw [List.eraseIdx_eq_take_drop_succ, List.eraseIdx_eq_take_drop_succ]
  exact List.rel_append (List.forall₂_take index h) (List.forall₂_drop (index + 1) h)

namespace Simulator

variable {σ : Type} [RandomSource σ]

/-- A cycle after its noise and its new threads. -/
def settle (sim : Simulator σ) : Except Fault (Simulator σ) := do
  let sim ← dispatchFrom 0 sim
  let sim ← sim.trim
  let memory ← highlight sim.memory sim.threads
  let cycles ← addTotal sim.cycles 1
  return { sim with memory, cycles }

theorem cycle_eq (sim : Simulator σ) :
    sim.cycle = repeatTimes addNoise sim.config.randomNoisePerCycle.toNat sim >>= fun noisy =>
      repeatTimes injectThread noisy.config.newThreadsPerCycle.toNat noisy >>= settle := rfl

/-- Noise does not look at the choice of effects. -/
theorem noiseByte_rules (config : Config) (source : σ) :
    noiseByte config source = noiseByte config.rules source := rfl

end Simulator

open Simulator

namespace Mirror

/-- A property of scenes that neither the turns of threads nor their ends can break. -/
structure Kept (config : Config) (P : Scene → Prop) : Prop where
  copy : ∀ {a b : Scene} {source target : Nat}, P a → copyCell config a source target = .ok b → P b
  countDown : ∀ {a b : Scene} {origin : Nat}, P a → ThreadSoup.countDown config a origin = .ok b → P b
  mourn : ∀ {a : Scene} {thread : Thread}, P a →
    P { a with effects := Simulator.mourn config a.effects thread }
  highlight : ∀ {a : Scene} {thread : Thread} {memory : Memory}, P a →
    Simulator.highlightThread a.memory thread = .ok memory → P { a with memory }

/-- A scene is its own image as long as it has such a property. -/
def ofKept {config config' : Config} {P : Scene → Prop} (hconfig : config = config')
    (kept : Kept config P) : Mirror config config' where
  place := Eq
  alike a b := a = b ∧ P a
  rules_eq := congrArg Config.rules hconfig
  wrap := by
    rintro a _ i _ delta ⟨rfl, _⟩ rfl _ _
    exact Agree.refl _
  get := by
    rintro a _ i _ ⟨rfl, _⟩ rfl
    exact (Agree.refl _).mono fun _ _ _ _ hcells => by rw [hcells]
  copy := by
    subst hconfig
    rintro a _ i _ k _ ⟨rfl, h⟩ rfl rfl
    exact (Agree.refl _).mono fun _ _ hc _ hsame => ⟨hsame, kept.copy h hc⟩
  countDown := by
    subst hconfig
    rintro a _ i _ ⟨rfl, h⟩ rfl
    exact (Agree.refl _).mono fun _ _ hc _ hsame => ⟨hsame, kept.countDown h hc⟩
  mourn := by
    subst hconfig
    rintro a _ thread image ⟨rfl, h⟩ ht
    rw [ht.eq]
    exact ⟨rfl, kept.mourn h⟩
  highlight := by
    rintro a _ thread image ⟨rfl, h⟩ ht
    rw [ht.eq]
    exact (Agree.refl _).mono fun _ _ hl _ hsame => ⟨by rw [hsame], kept.highlight h hl⟩

variable {σ : Type} {config config' : Config} {mirror : Mirror config config'}
  {sim image : Simulator σ}

structure Sims (mirror : Mirror config config') (sim image : Simulator σ) : Prop where
  config_eq : sim.config = config
  image_config_eq : image.config = config'
  scene : mirror.alike sim.scene image.scene
  threads : List.Forall₂ (Thread.Alike mirror.place) sim.threads image.threads
  tally : sim.tally = image.tally
  cycles : sim.cycles = image.cycles
  source : sim.source = image.source

theorem Sims.rules_eq (h : mirror.Sims sim image) : sim.config.rules = image.config.rules := by
  rw [h.config_eq, h.image_config_eq]
  exact mirror.rules_eq

theorem dispatchFrom_agree (h : mirror.Sims sim image) :
    Agree mirror.Sims (dispatchFrom 0 sim) (dispatchFrom 0 image) := by
  rw [dispatchFrom_zero, dispatchFrom_zero, h.config_eq, h.image_config_eq]
  have hstart : mirror.Rounds (sim.round []) (image.round []) :=
    ⟨h.scene, h.tally, List.Forall₂.nil⟩
  refine (foldlM_agree h.threads hstart fun _ _ _ _ => give_agree).bind fun last last' hl => ?_
  exact Agree.ok ⟨h.config_eq, h.image_config_eq, hl.scene, hl.survivors, hl.tally, h.cycles, h.source⟩

theorem highlight_agree (h : mirror.Sims sim image) :
    Agree (fun m n => mirror.alike { sim.scene with memory := m } { image.scene with memory := n })
      (Simulator.highlight sim.memory sim.threads)
      (Simulator.highlight image.memory image.threads) :=
  foldlM_agree h.threads h.scene fun _ _ _ _ hmn ht => mirror.highlight hmn ht

theorem bury_sims {index : Nat} {thread thread' : Thread} {tally : Tally} (h : mirror.Sims sim image)
    (ht : thread.Alike mirror.place thread') :
    mirror.Sims (sim.bury index thread tally) (image.bury index thread' tally) := by
  refine ⟨h.config_eq, h.image_config_eq, ?_, forall₂_eraseIdx h.threads index, rfl, h.cycles, h.source⟩
  unfold bury
  rw [h.config_eq, h.image_config_eq]
  exact mirror.mourn h.scene ht

theorem with_source_sims (source : σ) (h : mirror.Sims sim image) :
    mirror.Sims { sim with source } { image with source } :=
  ⟨h.config_eq, h.image_config_eq, h.scene, h.threads, h.tally, h.cycles, rfl⟩

variable [RandomSource σ]

/-- The victim depends on the ages and the number of the threads, not on where they stand. -/
theorem victim_eq (h : mirror.Sims sim image) : sim.victim = image.victim := by
  have hreduce : sim.config.threadReductionEnabled = image.config.threadReductionEnabled :=
    congrArg (fun c => c.threadReductionEnabled) h.rules_eq
  have hages : List.Forall₂ Eq (sim.threads.map Thread.age) (image.threads.map Thread.age) :=
    List.rel_map (fun _ _ ht => ht.age) h.threads
  rw [List.forall₂_eq_eq_eq] at hages
  unfold victim
  rw [hreduce, h.threads.length_eq, h.source, oldest_congr hages]

theorem trim_agree (h : mirror.Sims sim image) : Agree mirror.Sims sim.trim image.trim := by
  induction hn : sim.threads.length using Nat.strongRecOn generalizing sim image with
  | ind n ih =>
    have hcap : sim.config.maxThreadCount = image.config.maxThreadCount :=
      congrArg (fun c => c.maxThreadCount) h.rules_eq
    have hlength := h.threads.length_eq
    rw [trim.eq_def sim, trim.eq_def image, victim_eq h, ← hcap]
    by_cases hlong : sim.config.maxThreadCount.toNat < sim.threads.length
    · rw [if_pos hlong, if_pos (hlength ▸ hlong)]
      refine (Agree.refl _).bind fun drawn drawn' hdrawn => ?_
      subst hdrawn
      obtain ⟨index, source⟩ := drawn
      by_cases hi : index < sim.threads.length
      · have hi' : index < image.threads.length := hlength ▸ hi
        have hdeath : sim.tally.death .trimmed = image.tally.death .trimmed := by rw [h.tally]
        simp only [dif_pos hi, dif_pos hi', hdeath]
        refine (Agree.refl _).bind fun tally tally' htally => ?_
        subst htally
        have hthread := h.threads.get hi hi'
        have hlen := bury_length { sim with source } tally (List.getElem?_eq_getElem hi)
        have hless := Nat.lt_of_lt_of_eq (Nat.lt_succ_self _) (hlen.trans hn)
        exact ih _ hless (bury_sims (with_source_sims source h) hthread) rfl
      · have hi' : ¬index < image.threads.length := hlength ▸ hi
        simp only [dif_neg hi, dif_neg hi']
        exact Agree.error .outOfRange
    · rw [if_neg hlong, if_neg (hlength ▸ hlong)]
      exact Agree.ok h

theorem settle_agree (h : mirror.Sims sim image) : Agree mirror.Sims sim.settle image.settle := by
  unfold settle
  refine (dispatchFrom_agree h).bind fun turned turned' hturned => ?_
  refine (trim_agree hturned).bind fun trimmed trimmed' htrimmed => ?_
  refine (highlight_agree htrimmed).bind fun memory memory' hmemory => ?_
  rw [← htrimmed.cycles]
  refine (Agree.refl _).bind fun cycles cycles' hcycles => ?_
  exact Agree.ok ⟨htrimmed.config_eq, htrimmed.image_config_eq, hmemory, htrimmed.threads,
    htrimmed.tally, hcycles, htrimmed.source⟩

/-- What threads keep, a cycle keeps from its dispatch on. -/
theorem Kept.settle {P : Scene → Prop} {next : Simulator σ} (kept : Kept sim.config P)
    (h : P sim.scene) (hs : sim.settle = .ok next) : next.config = sim.config ∧ P next.scene := by
  have hself : (ofKept rfl kept).Sims sim sim :=
    ⟨rfl, rfl, ⟨rfl, h⟩, forall₂_alike_eq.mpr rfl, rfl, rfl, rfl⟩
  have hagree := settle_agree hself
  rw [hs] at hagree
  obtain ⟨_, _, hlast⟩ := hagree.of_ok_left
  exact ⟨hlast.config_eq, hlast.scene.2⟩

/-- A mirror in which every cell corresponds to itself, so that noise and new threads meet the
same cells. -/
structure Still (mirror : Mirror config config') : Prop where
  place_self : ∀ i, mirror.place i i
  size_eq : ∀ {a b : Scene}, mirror.alike a b → a.memory.size = b.memory.size
  write : ∀ {a b : Scene} (i : Nat) (byte : UInt8), mirror.alike a b →
    Agree (fun m n => mirror.alike { a with memory := m } { b with memory := n })
      (a.memory.setOp i byte config.spawnLifeSpan.toNat)
      (b.memory.setOp i byte config.spawnLifeSpan.toNat)

omit [RandomSource σ] in
theorem spawnThread_agree (still : mirror.Still) (ip : Nat) (reversed : Bool)
    (h : mirror.Sims sim image) :
    Agree mirror.Sims (sim.spawnThread ip reversed) (image.spawnThread ip reversed) := by
  have hsize : sim.size = image.size := still.size_eq h.scene
  have hstack : sim.config.maxStackSize = image.config.maxStackSize :=
    congrArg (fun c => c.maxStackSize) h.rules_eq
  unfold spawnThread
  rw [← hsize, ← h.tally, ← hstack]
  split
  next => exact Agree.error .empty
  next =>
    refine (Agree.refl _).bind fun tally tally' htally => ?_
    have hthread := still.place_self (ip % sim.size)
    exact Agree.ok ⟨h.config_eq, h.image_config_eq, h.scene,
      List.Forall₂.cons ⟨hthread, rfl, rfl, rfl⟩ h.threads, htally, h.cycles, h.source⟩

theorem randomizeCell_agree (still : mirror.Still) (index : Nat) (h : mirror.Sims sim image) :
    Agree mirror.Sims (sim.randomizeCell index) (image.randomizeCell index) := by
  have hweights : sim.config.totalSlice = image.config.totalSlice :=
    congrArg (fun c => c.totalSlice) h.rules_eq
  have hlife : sim.config.spawnLifeSpan = config.spawnLifeSpan := by rw [h.config_eq]
  have hsame : sim.config.spawnLifeSpan = image.config.spawnLifeSpan :=
    congrArg (fun c => c.spawnLifeSpan) h.rules_eq
  unfold randomizeCell
  rw [← hweights, noiseByte_rules sim.config, noiseByte_rules image.config, ← h.rules_eq,
    ← h.source, ← hsame, hlife]
  split
  next => exact Agree.ok h
  next =>
    refine (Agree.refl _).bind fun drawn drawn' hdrawn => ?_
    subst hdrawn
    refine (still.write index drawn.1 h.scene).bind fun memory memory' hmemory => ?_
    exact Agree.ok ⟨h.config_eq, h.image_config_eq, hmemory, h.threads, h.tally, h.cycles, rfl⟩

theorem addNoise_agree (still : mirror.Still) (h : mirror.Sims sim image) :
    Agree mirror.Sims sim.addNoise image.addNoise := by
  have hsize : sim.size = image.size := still.size_eq h.scene
  unfold addNoise
  rw [← hsize, ← h.source]
  refine (Agree.refl _).bind fun drawn drawn' hdrawn => ?_
  subst hdrawn
  exact randomizeCell_agree still drawn.1 (with_source_sims drawn.2 h)

theorem injectThread_agree (still : mirror.Still) (h : mirror.Sims sim image) :
    Agree mirror.Sims sim.injectThread image.injectThread := by
  have hsize : sim.size = image.size := still.size_eq h.scene
  have hreverse : sim.config.reverseEnabled = image.config.reverseEnabled :=
    congrArg (fun c => c.reverseEnabled) h.rules_eq
  unfold injectThread
  rw [← hsize, ← h.source, ← hreverse]
  refine (Agree.refl _).bind fun drawn drawn' hdrawn => ?_
  subst hdrawn
  simp only
  split
  next => exact spawnThread_agree still _ _ (with_source_sims _ h)
  next => exact spawnThread_agree still _ _ (with_source_sims _ h)

theorem cycle_agree (still : mirror.Still) (h : mirror.Sims sim image) :
    Agree mirror.Sims sim.cycle image.cycle := by
  have hnoise : sim.config.randomNoisePerCycle = image.config.randomNoisePerCycle :=
    congrArg (fun c => c.randomNoisePerCycle) h.rules_eq
  rw [cycle_eq, cycle_eq, ← hnoise]
  refine (repeatTimes_agree (fun _ _ => addNoise_agree still) _ h).bind fun noisy noisy' hn => ?_
  have hnew : noisy.config.newThreadsPerCycle = noisy'.config.newThreadsPerCycle :=
    congrArg (fun c => c.newThreadsPerCycle) hn.rules_eq
  rw [← hnew]
  refine (repeatTimes_agree (fun _ _ => injectThread_agree still) _ hn).bind fun fed fed' hf => ?_
  exact settle_agree hf

end Mirror

end ThreadSoup
