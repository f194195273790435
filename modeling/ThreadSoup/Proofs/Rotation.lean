import Mathlib.Data.Nat.ModEq
import ThreadSoup.Proofs.Fixtures
import ThreadSoup.Proofs.MirrorCycle

namespace ThreadSoup

/-- Where a position of a ring of `len` positions ends up when the ring is rotated by `r`. -/
def rotated (len r index : Nat) : Nat := (index + r) % len

def Thread.rotate (len r : Nat) (thread : Thread) : Thread :=
  { thread with ip := rotated len r thread.ip }

def Effect.rotate (len r : Nat) (effect : Effect) : Effect :=
  { effect with ip := rotated len r effect.ip }

section Ring

variable {len r i j : Nat}

theorem rotated_lt (h : i < len) : rotated len r i < len := Nat.mod_lt _ (Nat.zero_lt_of_lt h)

theorem rotated_inj (hi : i < len) (hj : j < len) (h : rotated len r i = rotated len r j) :
    i = j := by
  have hmod : i % len = j % len := Nat.ModEq.add_right_cancel' r h
  rwa [Nat.mod_eq_of_lt hi, Nat.mod_eq_of_lt hj] at hmod

/-- Steps on a rotated ring end at the rotated position. -/
theorem wrap_rotated {delta : Int} (hlen : len ≤ 2 ^ 62) (hi : i < len) (hlow : -2 ^ 62 ≤ delta)
    (hhigh : delta < 2 ^ 62) :
    Agree (fun x y => x < len ∧ y = rotated len r x) (wrap i delta len)
      (wrap (rotated len r i) delta len) := by
  have hlt := rotated_lt (r := r) hi
  have hleft := wrap_eq delta (by omega) (by omega : len < 2 ^ 63) hi
  have hright := wrap_eq delta (by omega) (by omega : len < 2 ^ 63) hlt
  rw [if_pos (by omega)] at hleft hright
  rw [hleft, hright]
  refine Agree.ok ⟨wrap_lt (by omega) hleft, ?_⟩
  have hne : (len : Int) ≠ 0 := by omega
  have hx := Int.emod_nonneg ((i : Int) + delta) hne
  have hy := Int.emod_nonneg ((rotated len r i : Int) + delta) hne
  apply Int.ofNat_inj.mp
  unfold rotated at hy ⊢
  push_cast at hy ⊢
  rw [Int.toNat_of_nonneg hx, Int.toNat_of_nonneg hy]
  rw [Int.emod_add_emod, Int.emod_add_emod]
  congr 1
  omega

end Ring

/-- The second scene is the first one rotated by `r`, with every effect on its ring. -/
structure Scene.Rotated (len r : Nat) (scene image : Scene) : Prop where
  rows : image.memory.rows = scene.memory.rows
  columns : image.memory.columns = scene.memory.columns
  dirty : image.memory.dirty = scene.memory.dirty
  size : scene.memory.size = len
  image_size : image.memory.size = len
  cells : ∀ index < len, image.memory.get (rotated len r index) = scene.memory.get index
  inside : ∀ effect ∈ scene.effects.toList, effect.ip < len
  effects : image.effects.toList = scene.effects.toList.map (Effect.rotate len r)

namespace Scene.Rotated

variable {len r i k : Nat} {a b : Scene}

theorem wrap {delta : Int} (h : a.Rotated len r b) (hlen : len ≤ maxCells) (hi : i < len)
    (hlow : -2 ^ 62 ≤ delta) (hhigh : delta < 2 ^ 62) :
    Agree (fun x y => x < len ∧ y = rotated len r x) (a.memory.wrap i delta)
      (b.memory.wrap (rotated len r i) delta) := by
  have hmax : maxCells ≤ 2 ^ 62 := by decide
  unfold Memory.wrap
  rw [h.size, h.image_size]
  exact wrap_rotated (by omega) hi hlow hhigh

theorem put (cell : Cell) (h : a.Rotated len r b) (hi : i < len) :
    Agree (fun m n => Scene.Rotated len r { a with memory := m } { b with memory := n })
      (a.memory.put i cell) (b.memory.put (rotated len r i) cell) := by
  obtain ⟨m, hm⟩ := Memory.put_exists cell (Nat.lt_of_lt_of_eq hi h.size.symm)
  obtain ⟨n, hn⟩ := Memory.put_exists cell (Nat.lt_of_lt_of_eq (rotated_lt hi) h.image_size.symm)
  have hcells : ∀ index < len, n.get (rotated len r index) = m.get index := by
    intro index hindex
    by_cases heq : index = i
    · rw [heq, Memory.put_get_self hm, Memory.put_get_self hn]
    · have hne : rotated len r index ≠ rotated len r i := fun he => heq (rotated_inj hindex hi he)
      rw [Memory.put_get_other heq hm, Memory.put_get_other hne hn]
      exact h.cells index hindex
  have hsize := (Memory.size_of_shape (Memory.put_shape hm)).trans h.size
  have hsize' := (Memory.size_of_shape (Memory.put_shape hn)).trans h.image_size
  rw [hm, hn]
  obtain ⟨_, rfl⟩ := Memory.put_eq_ok.mp hm
  obtain ⟨_, rfl⟩ := Memory.put_eq_ok.mp hn
  exact Agree.ok ⟨h.rows, h.columns, h.dirty, hsize, hsize', hcells, h.inside, h.effects⟩

theorem markDirty (h : a.Rotated len r b) :
    Scene.Rotated len r { a with memory := a.memory.markDirty }
      { b with memory := b.memory.markDirty } :=
  ⟨h.rows, h.columns, rfl, h.size, h.image_size, h.cells, h.inside, h.effects⟩

/-- A rotated effect is queued twice exactly if the effect itself is. -/
theorem insert (kind : EffectKind) (h : a.Rotated len r b) (hi : i < len) :
    Scene.Rotated len r { a with effects := a.effects.insert { kind, ip := i } }
      { b with effects := b.effects.insert { kind, ip := rotated len r i } } := by
  have hqueued : ({ kind, ip := rotated len r i } : Effect) ∈ b.effects.toList ↔
      ({ kind, ip := i } : Effect) ∈ a.effects.toList := by
    rw [h.effects, List.mem_map]
    constructor
    · rintro ⟨⟨oldKind, ip, progress⟩, hmem, he⟩
      simp only [Effect.rotate, Effect.mk.injEq] at he
      obtain ⟨rfl, hip, rfl⟩ := he
      have hsame := rotated_inj (h.inside _ hmem) hi hip
      subst hsame
      exact hmem
    · intro hmem
      exact ⟨_, hmem, rfl⟩
  unfold EffectQueue.insert EffectQueue.push
  by_cases hmem : ({ kind, ip := i } : Effect) ∈ a.effects.toList
  · rw [if_pos hmem, if_pos (hqueued.mpr hmem)]
    exact h
  · rw [if_neg hmem, if_neg (fun he => hmem (hqueued.mp he))]
    refine ⟨h.rows, h.columns, h.dirty, h.size, h.image_size, h.cells, ?_, ?_⟩
    · intro effect he
      rcases List.mem_cons.mp he with rfl | hold
      · exact hi
      · exact h.inside effect hold
    · simp [h.effects, Effect.rotate]

theorem insert_if (shown : Bool) (kind : EffectKind) (h : a.Rotated len r b) (hi : i < len) :
    Scene.Rotated len r
      { a with effects := if shown then a.effects.insert { kind, ip := i } else a.effects }
      { b with
        effects :=
          if shown then b.effects.insert { kind, ip := rotated len r i } else b.effects } := by
  cases shown with
  | true => exact h.insert kind hi
  | false => exact h

theorem setOp (byte : UInt8) (spawnLifeSpan : Nat) (h : a.Rotated len r b) (hi : i < len) :
    Agree (fun m n => Scene.Rotated len r { a with memory := m } { b with memory := n })
      (a.memory.setOp i byte spawnLifeSpan)
      (b.memory.setOp (rotated len r i) byte spawnLifeSpan) := by
  unfold Memory.setOp
  refine (h.put _ hi).bind fun m n hmn => ?_
  exact Agree.ok hmn.markDirty

theorem copyCell (config : Config) (h : a.Rotated len r b) (hi : i < len) (hk : k < len) :
    Agree (Scene.Rotated len r) (copyCell config a i k)
      (copyCell config b (rotated len r i) (rotated len r k)) := by
  rw [copyCell_eq, copyCell_eq, h.cells i hi, h.cells k hk]
  refine (Agree.refl _).bind fun origin _ ho => ?_
  subst ho
  refine (Agree.refl _).bind fun old _ ho => ?_
  subst ho
  refine (h.put _ hk).bind fun m n hmn => ?_
  apply Agree.ok
  by_cases hb : old.byte = origin.byte
  · rw [if_pos hb, if_pos hb]
    exact hmn.insert_if config.useCopyEffect .zoom hk
  · rw [if_neg hb, if_neg hb]
    exact hmn.markDirty.insert_if config.useCopyEffect .zoom hk

theorem countDown (config : Config) (h : a.Rotated len r b) (hi : i < len) :
    Agree (Scene.Rotated len r) (countDown config a i) (countDown config b (rotated len r i)) := by
  unfold ThreadSoup.countDown
  rw [h.cells i hi]
  refine (Agree.refl _).bind fun cell _ hc => ?_
  subst hc
  split
  next => exact Agree.ok h
  next =>
    split
    next =>
      refine (h.setOp _ _ hi).bind fun m n hmn => ?_
      exact Agree.ok (hmn.insert_if config.useSpawnExpireEffect .zoom hi)
    next => exact (h.put _ hi).bind fun m n hmn => Agree.ok hmn

theorem mourn (config : Config) {thread image : Thread} (h : a.Rotated len r b)
    (hip : thread.ip < len) (himage : image.ip = rotated len r thread.ip)
    (hreversed : thread.reversed = image.reversed) :
    Scene.Rotated len r { a with effects := Simulator.mourn config a.effects thread }
      { b with effects := Simulator.mourn config b.effects image } := by
  unfold Simulator.mourn
  rw [himage, ← hreversed]
  split
  next => exact (h.insert _ hip).insert .pulse hip
  next => exact h

theorem highlightThread {thread image : Thread} (h : a.Rotated len r b) (hip : thread.ip < len)
    (himage : image.ip = rotated len r thread.ip) :
    Agree (fun m n => Scene.Rotated len r { a with memory := m } { b with memory := n })
      (Simulator.highlightThread a.memory thread) (Simulator.highlightThread b.memory image) := by
  have hcell := h.cells thread.ip hip
  unfold Simulator.highlightThread Memory.setModified
  rw [himage, hcell]
  refine (Agree.refl _).bind fun cell _ hc => ?_
  subst hc
  split
  next => exact Agree.ok h
  next =>
    rw [bind_assoc, bind_assoc]
    refine (Agree.refl _).bind fun old _ ho => ?_
    subst ho
    refine (h.put _ hip).bind fun m n hmn => ?_
    exact Agree.ok hmn.markDirty

end Scene.Rotated

/-- Threads at rotated places of a rotated ring act alike. -/
def rotationMirror {config config' : Config} {len : Nat} (r : Nat) (hconfig : config = config')
    (hlen : len ≤ maxCells) : Mirror config config' where
  place i j := i < len ∧ j = rotated len r i
  alike := Scene.Rotated len r
  rules_eq := congrArg Config.rules hconfig
  wrap := by
    rintro a b i _ delta h ⟨hi, rfl⟩ hlow hhigh
    exact h.wrap hlen hi hlow hhigh
  get := by
    rintro a b i _ h ⟨hi, rfl⟩
    rw [h.cells i hi]
    exact (Agree.refl _).mono fun c d _ _ hcd => by rw [hcd]
  copy := by
    rintro a b i _ k _ h ⟨hi, rfl⟩ ⟨hk, rfl⟩
    rw [← hconfig]
    exact h.copyCell config hi hk
  countDown := by
    rintro a b i _ h ⟨hi, rfl⟩
    rw [← hconfig]
    exact h.countDown config hi
  mourn := by
    intro a b thread image h ht
    rw [← hconfig]
    exact h.mourn config ht.ip.1 ht.ip.2 ht.reversed
  highlight := by
    intro a b thread image h ht
    exact h.highlightThread ht.ip.1 ht.ip.2

theorem forall₂_rotated {len r : Nat} {threads images : List Thread}
    (h : List.Forall₂ (Thread.Alike fun i j => i < len ∧ j = rotated len r i) threads images) :
    images = threads.map (Thread.rotate len r) := by
  induction h with
  | nil => rfl
  | @cons thread image _ _ ht _ ih =>
    have himage : image = thread.rotate len r := by
      obtain ⟨⟨_, hip⟩, hstack, hage, hreversed⟩ := ht
      cases thread
      cases image
      simp_all [Thread.rotate]
    rw [himage, ih, List.map_cons]

namespace Simulator

variable {σ : Type} {len r : Nat} {config config' : Config} {sim image : Simulator σ}

/-- The second simulator is the first one with its ring rotated by `r`. -/
structure Rotated (r : Nat) (sim image : Simulator σ) : Prop where
  config : image.config = sim.config
  rows : image.memory.rows = sim.memory.rows
  columns : image.memory.columns = sim.memory.columns
  dirty : image.memory.dirty = sim.memory.dirty
  size : image.size = sim.size
  cells : ∀ index < sim.size, image.memory.get ((index + r) % sim.size) = sim.memory.get index
  threads : image.threads = sim.threads.map (Thread.rotate sim.size r)
  effects : image.effects.toList = sim.effects.toList.map (Effect.rotate sim.size r)
  progress : image.progress = sim.progress
  cycles : image.cycles = sim.cycles
  tally : image.tally = sim.tally
  source : image.source = sim.source

theorem Rotated.sims (h : sim.Rotated r image) (hlen : sim.size ≤ maxCells)
    (hthreads : ∀ thread ∈ sim.threads, thread.ip < sim.size)
    (heffects : ∀ effect ∈ sim.effects.toList, effect.ip < sim.size) :
    (rotationMirror r h.config.symm hlen).Sims sim image := by
  have hscene : sim.scene.Rotated sim.size r image.scene :=
    ⟨h.rows, h.columns, h.dirty, rfl, h.size, h.cells, heffects, h.effects⟩
  refine ⟨rfl, rfl, hscene, ?_, h.tally.symm, h.cycles.symm, h.source.symm⟩
  rw [h.threads, List.forall₂_map_right_iff, List.forall₂_same]
  intro thread hmem
  exact ⟨⟨hthreads thread hmem, rfl⟩, rfl, rfl, rfl⟩

theorem Rotated.of_sims {hconfig : config = config'} {hlen : len ≤ maxCells}
    (h : (rotationMirror r hconfig hlen).Sims sim image)
    (hprogress : image.progress = sim.progress) : sim.Rotated r image := by
  have hscene : sim.scene.Rotated len r image.scene := h.scene
  have hsize : sim.size = len := hscene.size
  subst hsize
  have heq : image.config = sim.config :=
    h.image_config_eq.trans (hconfig.symm.trans h.config_eq.symm)
  exact ⟨heq, hscene.rows, hscene.columns, hscene.dirty, hscene.image_size, hscene.cells,
    forall₂_rotated h.threads, hscene.effects, hprogress, h.cycles.symm, h.tally.symm,
    h.source.symm⟩

variable [RandomSource σ]

theorem cycle_eq_settle (hnoise : sim.config.randomNoisePerCycle = 0)
    (hnew : sim.config.newThreadsPerCycle = 0) : sim.cycle = sim.settle := by
  rw [cycle_eq, hnoise]
  change repeatTimes injectThread sim.config.newThreadsPerCycle.toNat sim >>= settle = _
  rw [hnew]
  rfl

/-- Without noise and new threads nothing in a cycle depends on where the ring begins. -/
theorem cycles_commute_with_rotation (r count : Nat) (hsize : sim.size ≤ maxCells)
    (hnoise : sim.config.randomNoisePerCycle = 0) (hnew : sim.config.newThreadsPerCycle = 0)
    (hthreads : ∀ thread ∈ sim.threads, thread.ip < sim.size)
    (heffects : ∀ effect ∈ sim.effects.toList, effect.ip < sim.size) (h : sim.Rotated r image) :
    Agree (Rotated r) (repeatTimes cycle count sim) (repeatTimes cycle count image) := by
  have hstep : ∀ a b : Simulator σ, (rotationMirror r h.config.symm hsize).Sims a b →
      Agree (rotationMirror r h.config.symm hsize).Sims a.cycle b.cycle := by
    intro a b hab
    have ha : a.cycle = a.settle := cycle_eq_settle (by rw [hab.config_eq, hnoise])
      (by rw [hab.config_eq, hnew])
    have hb : b.cycle = b.settle := cycle_eq_settle (by rw [hab.image_config_eq, h.config, hnoise])
      (by rw [hab.image_config_eq, h.config, hnew])
    rw [ha, hb]
    exact Mirror.settle_agree hab
  refine (repeatTimes_agree hstep count (h.sims hsize hthreads heffects)).mono ?_
  intro a b ha hb hab
  have hleft := progress_of_fixtures (repeatTimes_fixtures (fun _ _ => cycle_fixtures) ha)
  have hright := progress_of_fixtures (repeatTimes_fixtures (fun _ _ => cycle_fixtures) hb)
  exact Rotated.of_sims hab (hright.trans (h.progress.trans hleft.symm))

/-- A backward copy that crosses the seam of its ring. -/
def seam : Simulator Script :=
  { config :=
      { maxStackSize := 4
        maxThreadCount := 1
        spawnLifeSpan := 2
        useCopyEffect := true
        useThreadDeathEffect := true }
    memory :=
      { rows := 1
        columns := 5
        cells := #[{ byte := copyByte }, { byte := haltByte, modified := 2 }, { byte := 130 },
          { byte := spawnByte, lifespan := 2 }, { byte := 127 }]
        dirty := false }
    threads :=
      [{ ip := 0, stack := ⟨[2, -1, 3], 4⟩, age := 7, reversed := true }, Thread.start 3 false 4,
        { ip := 4, stack := ⟨[1, 2, 3], 4⟩, age := 0, reversed := false }, Thread.start 2 true 4]
    effects := ⟨[{ kind := .zoom, ip := 4, progress := 30 }]⟩
    progress := 0
    cycles := 0
    tally := { spawned := 4 }
    source := ⟨[]⟩ }

/-- The same ring, begun elsewhere. -/
def turnedSeam : Simulator Script :=
  { seam with
    memory :=
      { seam.memory with
        cells := #[{ byte := spawnByte, lifespan := 2 }, { byte := 127 }, { byte := copyByte },
          { byte := haltByte, modified := 2 }, { byte := 130 }] }
    threads := seam.threads.map (Thread.rotate 5 7)
    effects := ⟨[{ kind := .zoom, ip := 1, progress := 30 }]⟩ }

theorem seam_rotated :
    ∃ a b, repeatTimes cycle 2 seam = .ok a ∧ repeatTimes cycle 2 turnedSeam = .ok b ∧
      a.Rotated 7 b ∧ a.memory.bytes = [1, 127, 127, 127, 127] ∧ a.threads.map Thread.ip = [1] ∧
      a.tally = { spawned := 4, halted := 1, faulted := 1, trimmed := 1 } := by
  have hstart : seam.Rotated 7 turnedSeam := by
    refine ⟨rfl, rfl, rfl, rfl, rfl, ?_, rfl, rfl, rfl, rfl, rfl, rfl⟩
    decide
  have hagree := cycles_commute_with_rotation 7 2 (by decide) rfl rfl (by decide) (by decide) hstart
  have hrun : (repeatTimes cycle 2 seam).map (fun a =>
      (a.memory.bytes, a.threads.map Thread.ip, a.tally)) =
        .ok ([1, 127, 127, 127, 127], [1],
          { spawned := 4, halted := 1, faulted := 1, trimmed := 1 }) := by
    decide +kernel
  cases ha : repeatTimes cycle 2 seam with
  | error e =>
    rw [ha] at hrun
    cases hrun
  | ok a =>
    rw [ha] at hagree hrun
    simp only [Except.map, Except.ok.injEq, Prod.mk.injEq] at hrun
    obtain ⟨b, hb, hab⟩ := hagree.of_ok_left
    exact ⟨a, b, rfl, hb, hab, hrun⟩

end Simulator

end ThreadSoup
