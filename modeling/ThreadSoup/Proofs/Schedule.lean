import ThreadSoup.Proofs.Fixtures
import ThreadSoup.Proofs.MirrorCycle

namespace ThreadSoup

section Logs

variable {α β : Type}

/-- Repeats a step and lists what it reports. -/
def repeatLogged (f : α → Except Fault (α × β)) : Nat → α → Except Fault (α × List β)
  | 0, a => .ok (a, [])
  | count + 1, a => do
    let (b, entry) ← f a
    let (c, entries) ← repeatLogged f count b
    return (c, entry :: entries)

theorem repeatLogged_fst {f : α → Except Fault (α × β)} {g : α → Except Fault α}
    (step : ∀ a, (f a).map Prod.fst = g a) (count : Nat) (a : α) :
    (repeatLogged f count a).map Prod.fst = repeatTimes g count a := by
  induction count generalizing a with
  | zero => rfl
  | succ count ih =>
    rw [repeatLogged, repeatTimes, ← step a]
    cases f a with
    | error e => rfl
    | ok pair =>
      have hrest := ih pair.1
      simp only [Except.map, ok_bind, ← hrest]
      cases repeatLogged f count pair.1 with
      | error e => rfl
      | ok last => rfl

/-- Two runs of a step report the same if each step keeps a relation under which it does. The
relation may depend on how many steps are left. -/
theorem repeatLogged_same {R : Nat → α → α → Prop} {f : α → Except Fault (α × β)}
    (step : ∀ left a b p q, R (left + 1) a b → f a = .ok p → f b = .ok q →
      R left p.1 q.1 ∧ p.2 = q.2)
    {count : Nat} {a b : α} {p q : α × List β} (h : R count a b)
    (ha : repeatLogged f count a = .ok p) (hb : repeatLogged f count b = .ok q) :
    R 0 p.1 q.1 ∧ p.2 = q.2 := by
  induction count generalizing a b p q with
  | zero => cases ha; cases hb; exact ⟨h, rfl⟩
  | succ count ih =>
    obtain ⟨first, hf, ha⟩ := bind_eq_ok.mp ha
    obtain ⟨rest, hrest, ha⟩ := bind_eq_ok.mp ha
    obtain ⟨first', hf', hb⟩ := bind_eq_ok.mp hb
    obtain ⟨rest', hrest', hb⟩ := bind_eq_ok.mp hb
    obtain ⟨hnext, hentry⟩ := step count a b first first' h hf hf'
    obtain ⟨hlast, hentries⟩ := ih hnext hrest hrest'
    cases ha
    cases hb
    exact ⟨hlast, congrArg₂ List.cons hentry hentries⟩

end Logs

/-- The random choices of a cycle: the cells that noise writes with their bytes, and where the new
threads start and whether they run backwards. -/
structure Choices where
  writes : List (Nat × UInt8)
  births : List (Nat × Bool)
deriving DecidableEq

namespace Simulator

variable {σ : Type} {a b sim next : Simulator σ}

/-- All that a random choice can depend on. -/
def chances (sim : Simulator σ) : Config × Nat × σ := (sim.config, sim.size, sim.source)

theorem chances_eq_iff :
    a.chances = b.chances ↔ a.config = b.config ∧ a.size = b.size ∧ a.source = b.source := by
  unfold chances
  rw [Prod.mk.injEq, Prod.mk.injEq]

theorem chances_of_fixtures (h : next.fixtures = sim.fixtures) (hconfig : next.config = sim.config)
    (hsource : next.source = sim.source) : next.chances = sim.chances :=
  chances_eq_iff.mpr ⟨hconfig, size_of_fixtures h, hsource⟩

/-- Makes a write of noise, if there is one. -/
def applyWrite (sim : Simulator σ) : Option (Nat × UInt8) → Except Fault (Simulator σ)
  | none => .ok sim
  | some (index, byte) => sim.editMemory (·.setOp index byte sim.config.spawnLifeSpan.toNat)

theorem applyWrite_chances {write : Option (Nat × UInt8)} (h : sim.applyWrite write = .ok next) :
    next.chances = sim.chances := by
  cases write with
  | none => cases h; rfl
  | some entry =>
    obtain ⟨memory, hm, h⟩ := bind_eq_ok.mp h
    cases h
    exact chances_of_fixtures (fixtures_of_shape (setOp_shape hm)) rfl rfl

theorem spawnThread_chances {ip : Nat} {reversed : Bool}
    (h : sim.spawnThread ip reversed = .ok next) : next.chances = sim.chances := by
  have hfixtures := spawnThread_fixtures h
  unfold spawnThread at h
  split at h
  next => cases h
  next =>
    obtain ⟨tally, _, h⟩ := bind_eq_ok.mp h
    cases h
    exact chances_of_fixtures hfixtures rfl rfl

theorem dispatchFrom_chances (h : dispatchFrom 0 sim = .ok next) : next.chances = sim.chances := by
  have hfixtures := dispatchFrom_fixtures h
  rw [dispatchFrom_zero] at h
  obtain ⟨last, _, h⟩ := bind_eq_ok.mp h
  cases h
  exact chances_of_fixtures hfixtures rfl rfl

theorem repeatLogged_chances {β : Type} {f : Simulator σ → Except Fault (Simulator σ × β)}
    (step : ∀ a b p q, a.chances = b.chances → f a = .ok p → f b = .ok q →
      p.1.chances = q.1.chances ∧ p.1.config = a.config ∧ p.2 = q.2)
    {count : Nat} {p q : Simulator σ × List β} (h : a.chances = b.chances)
    (ha : repeatLogged f count a = .ok p) (hb : repeatLogged f count b = .ok q) :
    p.1.chances = q.1.chances ∧ p.1.config = a.config ∧ p.2 = q.2 := by
  have hstep : ∀ (left : Nat) x y p q, x.chances = y.chances ∧ x.config = a.config →
      f x = .ok p → f y = .ok q →
      (p.1.chances = q.1.chances ∧ p.1.config = a.config) ∧ p.2 = q.2 := by
    intro _ x y p q ⟨hxy, hconfig⟩ hx hy
    obtain ⟨hnext, hkept, hentry⟩ := step x y p q hxy hx hy
    exact ⟨⟨hnext, hkept.trans hconfig⟩, hentry⟩
  obtain ⟨⟨hlast, hkept⟩, hentries⟩ :=
    repeatLogged_same (R := fun _ x y => x.chances = y.chances ∧ x.config = a.config) hstep
      ⟨h, rfl⟩ ha hb
  exact ⟨hlast, hkept, hentries⟩

variable [RandomSource σ]

/-- The next write of noise. There is none if all weights are zero. -/
def drawWrite (config : Config) (size : Nat) (source : σ) :
    Except Fault (Option (Nat × UInt8) × σ) := do
  let (index, source) ← draw (RandomSource.below size source)
  if config.totalSlice = 0 then return (none, source)
  else
    let (byte, source) ← noiseByte config source
    return (some (index, byte), source)

def drawBirth (config : Config) (size : Nat) (source : σ) : Except Fault ((Nat × Bool) × σ) := do
  let (ip, source) ← draw (RandomSource.below size source)
  if config.reverseEnabled then
    let (reversed, source) := RandomSource.coin source
    return ((ip, reversed), source)
  else return ((ip, false), source)

def loggedNoise (sim : Simulator σ) : Except Fault (Simulator σ × Option (Nat × UInt8)) := do
  let (write, source) ← drawWrite sim.config sim.size sim.source
  let next ← { sim with source }.applyWrite write
  return (next, write)

def loggedBirth (sim : Simulator σ) : Except Fault (Simulator σ × (Nat × Bool)) := do
  let (birth, source) ← drawBirth sim.config sim.size sim.source
  let next ← { sim with source }.spawnThread birth.1 birth.2
  return (next, birth)

/-- A cycle with its random choices. -/
def loggedCycle (sim : Simulator σ) : Except Fault (Simulator σ × Choices) := do
  let (noisy, writes) ← repeatLogged loggedNoise sim.config.randomNoisePerCycle.toNat sim
  let (fed, births) ← repeatLogged loggedBirth noisy.config.newThreadsPerCycle.toNat noisy
  let next ← fed.settle
  return (next, { writes := writes.filterMap id, births })

theorem loggedNoise_fst (sim : Simulator σ) : sim.loggedNoise.map Prod.fst = sim.addNoise := by
  unfold loggedNoise drawWrite addNoise
  cases draw (RandomSource.below sim.size sim.source) with
  | error e => rfl
  | ok drawn =>
    obtain ⟨index, source⟩ := drawn
    simp only [ok_bind, randomizeCell]
    split
    next => rfl
    next =>
      cases noiseByte sim.config source with
      | error e => rfl
      | ok written =>
        simp only [ok_bind, pure_eq, applyWrite, editMemory]
        cases sim.memory.setOp index written.1 sim.config.spawnLifeSpan.toNat with
        | error e => rfl
        | ok memory => rfl

theorem loggedBirth_fst (sim : Simulator σ) : sim.loggedBirth.map Prod.fst = sim.injectThread := by
  unfold loggedBirth drawBirth injectThread
  cases draw (RandomSource.below sim.size sim.source) with
  | error e => rfl
  | ok drawn =>
    obtain ⟨ip, source⟩ := drawn
    simp only [ok_bind]
    split
    next =>
      simp only [pure_eq, ok_bind]
      cases spawnThread { sim with source := (RandomSource.coin source).2 } ip
          (RandomSource.coin source).1 with
      | error e => rfl
      | ok next => rfl
    next =>
      simp only [pure_eq, ok_bind]
      cases spawnThread { sim with source } ip false with
      | error e => rfl
      | ok next => rfl

theorem loggedCycle_fst (sim : Simulator σ) : sim.loggedCycle.map Prod.fst = sim.cycle := by
  rw [cycle_eq, ← repeatLogged_fst loggedNoise_fst]
  unfold loggedCycle
  cases repeatLogged loggedNoise sim.config.randomNoisePerCycle.toNat sim with
  | error e => rfl
  | ok noisy =>
    simp only [ok_bind, Except.map]
    rw [← repeatLogged_fst loggedBirth_fst]
    cases repeatLogged loggedBirth noisy.1.config.newThreadsPerCycle.toNat noisy.1 with
    | error e => rfl
    | ok fed =>
      simp only [ok_bind, Except.map]
      cases fed.1.settle with
      | error e => rfl
      | ok next => rfl

/-- Noise does not look at the cells that it overwrites. -/
theorem loggedNoise_same {p q : Simulator σ × Option (Nat × UInt8)} (h : a.chances = b.chances)
    (ha : a.loggedNoise = .ok p) (hb : b.loggedNoise = .ok q) :
    p.1.chances = q.1.chances ∧ p.1.config = a.config ∧ p.2 = q.2 := by
  obtain ⟨hconfig, hsize, hsource⟩ := chances_eq_iff.mp h
  obtain ⟨⟨write, source⟩, hd, ha⟩ := bind_eq_ok.mp ha
  obtain ⟨⟨write', source'⟩, hd', hb⟩ := bind_eq_ok.mp hb
  obtain ⟨next, hn, ha⟩ := bind_eq_ok.mp ha
  obtain ⟨next', hn', hb⟩ := bind_eq_ok.mp hb
  cases ha
  cases hb
  rw [hconfig, hsize, hsource, hd'] at hd
  cases hd
  refine ⟨?_, (chances_eq_iff.mp (applyWrite_chances hn)).1, rfl⟩
  calc
    next.chances = (a.config, a.size, source) := applyWrite_chances hn
    _ = (b.config, b.size, source) := by rw [hconfig, hsize]
    _ = next'.chances := (applyWrite_chances hn').symm

/-- New threads start wherever the source says, whatever the pool is. -/
theorem loggedBirth_same {p q : Simulator σ × (Nat × Bool)} (h : a.chances = b.chances)
    (ha : a.loggedBirth = .ok p) (hb : b.loggedBirth = .ok q) :
    p.1.chances = q.1.chances ∧ p.1.config = a.config ∧ p.2 = q.2 := by
  obtain ⟨hconfig, hsize, hsource⟩ := chances_eq_iff.mp h
  obtain ⟨⟨birth, source⟩, hd, ha⟩ := bind_eq_ok.mp ha
  obtain ⟨⟨birth', source'⟩, hd', hb⟩ := bind_eq_ok.mp hb
  obtain ⟨next, hn, ha⟩ := bind_eq_ok.mp ha
  obtain ⟨next', hn', hb⟩ := bind_eq_ok.mp hb
  cases ha
  cases hb
  rw [hconfig, hsize, hsource, hd'] at hd
  cases hd
  refine ⟨?_, (chances_eq_iff.mp (spawnThread_chances hn)).1, rfl⟩
  calc
    next.chances = (a.config, a.size, source) := spawnThread_chances hn
    _ = (b.config, b.size, source) := by rw [hconfig, hsize]
    _ = next'.chances := (spawnThread_chances hn').symm

/-- A cycle up to where trimming starts. -/
def turned (sim : Simulator σ) : Except Fault (Simulator σ) := do
  let noisy ← repeatTimes addNoise sim.config.randomNoisePerCycle.toNat sim
  let fed ← repeatTimes injectThread noisy.config.newThreadsPerCycle.toNat noisy
  dispatchFrom 0 fed

/-- Over the next cycles of two runs, pools have equal sizes whenever one of them is trimmed. -/
def TrimsAlike (cycles : Nat) (a b : Simulator σ) : Prop :=
  ∀ k < cycles, ∀ s t, repeatTimes cycle k a >>= turned = .ok s →
    repeatTimes cycle k b >>= turned = .ok t →
    s.config.maxThreadCount.toNat < s.threads.length ∨
      t.config.maxThreadCount.toNat < t.threads.length →
    s.threads.length = t.threads.length

theorem TrimsAlike.now {cycles : Nat} {s t : Simulator σ} (h : TrimsAlike (cycles + 1) a b)
    (hs : a.turned = .ok s) (ht : b.turned = .ok t)
    (hlong : s.config.maxThreadCount.toNat < s.threads.length ∨
      t.config.maxThreadCount.toNat < t.threads.length) :
    s.threads.length = t.threads.length :=
  h 0 (Nat.succ_pos cycles) s t hs ht hlong

theorem TrimsAlike.later {cycles : Nat} {a' b' : Simulator σ} (h : TrimsAlike (cycles + 1) a b)
    (ha : a.cycle = .ok a') (hb : b.cycle = .ok b') : TrimsAlike cycles a' b' := by
  intro k hk s t hs ht
  refine h (k + 1) (Nat.succ_lt_succ hk) s t ?_ ?_
  · rw [repeatTimes, ha]
    exact hs
  · rw [repeatTimes, hb]
    exact ht

/-- Without reduction the oldest thread goes, and nothing is drawn. -/
theorem trim_chances (hoff : sim.config.threadReductionEnabled = false)
    (h : sim.trim = .ok next) : next.chances = sim.chances := by
  refine (trim_preserves (P := fun s => s.chances = sim.chances) ?_ rfl h).1
  intro s index source thread tally hs _ hv _ _
  have hoff' : s.config.threadReductionEnabled = false := by
    rw [(chances_eq_iff.mp hs).1]
    exact hoff
  unfold victim at hv
  rw [hoff'] at hv
  cases hv
  exact hs

theorem victim_source {p q : Nat × σ} (h : a.chances = b.chances)
    (hlength : a.threads.length = b.threads.length) (ha : a.victim = .ok p)
    (hb : b.victim = .ok q) : p.2 = q.2 := by
  obtain ⟨hconfig, _, hsource⟩ := chances_eq_iff.mp h
  unfold victim at ha hb
  rw [hconfig, hlength, hsource] at ha
  split at hb
  next hon =>
    rw [if_pos hon, hb] at ha
    cases ha
    rfl
  next hoff =>
    rw [if_neg hoff] at ha
    cases ha
    cases hb
    rfl

/-- Pools of one size are trimmed by the same draws, whoever is in them. -/
theorem trim_same {a' b' : Simulator σ} (h : a.chances = b.chances)
    (hlength : a.threads.length = b.threads.length) (ha : a.trim = .ok a')
    (hb : b.trim = .ok b') : a'.chances = b'.chances := by
  induction hn : a.threads.length using Nat.strongRecOn generalizing a b with
  | ind n ih =>
    obtain ⟨hconfig, hsize, _⟩ := chances_eq_iff.mp h
    -- equal lengths: both pools are trimmed once more or neither is
    rcases trim_eq_ok ha with ⟨hshort, rfl⟩ | ⟨hlong, i, source, thread, tally, hv, hi, _, ha⟩
    · rcases trim_eq_ok hb with ⟨_, rfl⟩ | ⟨hlong, _⟩
      · exact h
      · rw [hconfig, hlength] at hshort
        exact absurd hlong hshort
    · rcases trim_eq_ok hb with ⟨hshort, rfl⟩ | ⟨_, j, source', thread', tally', hv', hj, _, hb⟩
      · rw [hconfig, hlength] at hlong
        exact absurd hlong hshort
      · have hsource : source = source' := victim_source h hlength hv hv'
        have hleft := bury_length { a with source } tally hi
        have hright := bury_length { b with source := source' } tally' hj
        have hnext : ({ a with source }.bury i thread tally).chances =
            ({ b with source := source' }.bury j thread' tally').chances :=
          chances_eq_iff.mpr ⟨hconfig, hsize, hsource⟩
        simp only at hleft hright
        exact ih _ (by omega) hnext (by omega) ha hb rfl

theorem settle_eq_ok (h : sim.settle = .ok next) :
    ∃ turned trimmed, dispatchFrom 0 sim = .ok turned ∧ turned.trim = .ok trimmed ∧
      next.chances = trimmed.chances ∧ next.config = sim.config := by
  obtain ⟨turned, hturned, h⟩ := bind_eq_ok.mp h
  obtain ⟨trimmed, htrim, h⟩ := bind_eq_ok.mp h
  obtain ⟨memory, hlight, h⟩ := bind_eq_ok.mp h
  obtain ⟨cycles, _, h⟩ := bind_eq_ok.mp h
  cases h
  have hdispatch := (chances_eq_iff.mp (dispatchFrom_chances hturned)).1
  have hkept := (trim_preserves (P := fun s => s.config = turned.config)
    (fun _ _ _ _ _ hs _ _ _ _ => hs) rfl htrim).1
  refine ⟨turned, trimmed, hturned, htrim, ?_, hkept.trans hdispatch⟩
  exact chances_of_fixtures (fixtures_of_shape (highlight_shape hlight)) rfl rfl

theorem settle_same {a' b' : Simulator σ} (h : a.chances = b.chances)
    (htrims : a.config.threadReductionEnabled = false ∨ ∀ s t, dispatchFrom 0 a = .ok s →
      dispatchFrom 0 b = .ok t → s.config.maxThreadCount.toNat < s.threads.length ∨
        t.config.maxThreadCount.toNat < t.threads.length → s.threads.length = t.threads.length)
    (ha : a.settle = .ok a') (hb : b.settle = .ok b') : a'.chances = b'.chances := by
  obtain ⟨s, trimmed, hs, htrim, hnext, _⟩ := settle_eq_ok ha
  obtain ⟨t, trimmed', ht, htrim', hnext', _⟩ := settle_eq_ok hb
  have hturned : s.chances = t.chances :=
    (dispatchFrom_chances hs).trans (h.trans (dispatchFrom_chances ht).symm)
  rw [hnext, hnext']
  rcases htrims with hoff | hlengths
  · have hoff' : b.config.threadReductionEnabled = false := by
      rw [← (chances_eq_iff.mp h).1]
      exact hoff
    rw [← (chances_eq_iff.mp (dispatchFrom_chances hs)).1] at hoff
    rw [← (chances_eq_iff.mp (dispatchFrom_chances ht)).1] at hoff'
    rw [trim_chances hoff htrim, trim_chances hoff' htrim', hturned]
  · by_cases hlong : s.config.maxThreadCount.toNat < s.threads.length ∨
        t.config.maxThreadCount.toNat < t.threads.length
    · exact trim_same hturned (hlengths s t hs ht hlong) htrim htrim'
    · rw [not_or] at hlong
      rcases trim_eq_ok htrim with ⟨_, rfl⟩ | ⟨hs, _⟩
      · rcases trim_eq_ok htrim' with ⟨_, rfl⟩ | ⟨ht, _⟩
        · exact hturned
        · exact absurd ht hlong.2
      · exact absurd hs hlong.1

theorem loggedCycle_eq_ok {p : Simulator σ × Choices} (h : sim.loggedCycle = .ok p) :
    ∃ noisy writes fed births,
      repeatLogged loggedNoise sim.config.randomNoisePerCycle.toNat sim = .ok (noisy, writes) ∧
      repeatLogged loggedBirth noisy.config.newThreadsPerCycle.toNat noisy = .ok (fed, births) ∧
      sim.turned = dispatchFrom 0 fed ∧ fed.settle = .ok p.1 ∧
      p.2 = { writes := writes.filterMap id, births } := by
  obtain ⟨⟨noisy, writes⟩, hnoise, h⟩ := bind_eq_ok.mp h
  obtain ⟨⟨fed, births⟩, hfed, h⟩ := bind_eq_ok.mp h
  obtain ⟨next, hnext, h⟩ := bind_eq_ok.mp h
  cases h
  refine ⟨noisy, writes, fed, births, hnoise, hfed, ?_, hnext, rfl⟩
  unfold turned
  rw [← repeatLogged_fst loggedNoise_fst, hnoise]
  simp only [Except.map, ok_bind]
  rw [← repeatLogged_fst loggedBirth_fst, hfed]
  rfl

/-- What two runs share before a cycle in which they trim alike, they share after it. -/
theorem loggedCycle_same {left : Nat} {p q : Simulator σ × Choices} (h : a.chances = b.chances)
    (htrims : a.config.threadReductionEnabled = false ∨ TrimsAlike (left + 1) a b)
    (ha : a.loggedCycle = .ok p) (hb : b.loggedCycle = .ok q) :
    p.1.chances = q.1.chances ∧ p.1.config = a.config ∧ p.2 = q.2 := by
  obtain ⟨noisy, writes, fed, births, hnoise, hfed, hturned, hsettle, hp⟩ := loggedCycle_eq_ok ha
  obtain ⟨noisy', writes', fed', births', hnoise', hfed', hturned', hsettle', hq⟩ :=
    loggedCycle_eq_ok hb
  rw [← (chances_eq_iff.mp h).1] at hnoise'
  obtain ⟨hn, hnconfig, hwrites⟩ :=
    repeatLogged_chances (fun _ _ _ _ => loggedNoise_same) h hnoise hnoise'
  rw [← (chances_eq_iff.mp hn).1] at hfed'
  obtain ⟨hf, hfconfig, hbirths⟩ :=
    repeatLogged_chances (fun _ _ _ _ => loggedBirth_same) hn hfed hfed'
  obtain ⟨_, _, _, _, _, hkept⟩ := settle_eq_ok hsettle
  refine ⟨settle_same hf ?_ hsettle hsettle', hkept.trans (hfconfig.trans hnconfig), ?_⟩
  · rw [hfconfig, hnconfig]
    refine htrims.imp_right fun hpools s t hs ht => ?_
    exact hpools.now (hturned.trans hs) (hturned'.trans ht)
  · simp only at hwrites hbirths
    rw [hp, hq, hwrites, hbirths]

/-- Noise and new threads do not depend on the programs: from equal sources, runs over different
cells and pools write the same bytes to the same cells and start the same threads. If trimming
draws, it has to trim pools of one size. -/
theorem random_schedule_independent {count : Nat} {a' b' : Simulator σ}
    (hconfig : a.config = b.config) (hsize : a.size = b.size) (hsource : a.source = b.source)
    (htrims : a.config.threadReductionEnabled = false ∨ TrimsAlike count a b)
    (ha : repeatTimes cycle count a = .ok a') (hb : repeatTimes cycle count b = .ok b') :
    a'.source = b'.source ∧
      ∃ choices : List Choices, repeatLogged loggedCycle count a = .ok (a', choices) ∧
        repeatLogged loggedCycle count b = .ok (b', choices) := by
  obtain ⟨⟨_, choices⟩, hlog, rfl⟩ :=
    map_eq_ok.mp ((repeatLogged_fst loggedCycle_fst count a).trans ha)
  obtain ⟨⟨_, choices'⟩, hlog', rfl⟩ :=
    map_eq_ok.mp ((repeatLogged_fst loggedCycle_fst count b).trans hb)
  -- the relation also carries what the cycles that are left still need: that they trim alike
  have hstep : ∀ (left : Nat) (x y : Simulator σ) (p q : Simulator σ × Choices),
      (x.chances = y.chances ∧
        (x.config.threadReductionEnabled = false ∨ TrimsAlike (left + 1) x y)) →
      x.loggedCycle = .ok p → y.loggedCycle = .ok q →
      (p.1.chances = q.1.chances ∧
        (p.1.config.threadReductionEnabled = false ∨ TrimsAlike left p.1 q.1)) ∧ p.2 = q.2 := by
    intro left x y p q ⟨hxy, hpools⟩ hx hy
    obtain ⟨hnext, hkept, hentry⟩ := loggedCycle_same hxy hpools hx hy
    have hx' : x.cycle = .ok p.1 := by rw [← loggedCycle_fst, hx]; rfl
    have hy' : y.cycle = .ok q.1 := by rw [← loggedCycle_fst, hy]; rfl
    rw [hkept]
    exact ⟨⟨hnext, hpools.imp_right fun h => h.later hx' hy'⟩, hentry⟩
  have hstart := chances_eq_iff.mpr ⟨hconfig, hsize, hsource⟩
  obtain ⟨⟨hlast, _⟩, hentries⟩ := repeatLogged_same
    (R := fun left x y => x.chances = y.chances ∧
      (x.config.threadReductionEnabled = false ∨ TrimsAlike left x y))
    hstep ⟨hstart, htrims⟩ hlog hlog'
  have hsame : choices = choices' := hentries
  exact ⟨(chances_eq_iff.mp hlast).2.2, choices, hlog, hsame ▸ hlog'⟩

/-- A ring of cells that push zero, on which trimming draws. -/
def idleRing : Simulator Script :=
  { config :=
      { msPerCycle := 10
        maxStackSize := 3
        maxThreadCount := 1
        randomNoisePerCycle := 1
        newThreadsPerCycle := 1
        copySlice := 1
        haltSlice := 1
        pushSlice := 1
        spawnSlice := 1
        reverseEnabled := true
        threadReductionEnabled := true }
    memory := { rows := 1, columns := 4, cells := Array.replicate 4 { byte := 127 }, dirty := false }
    threads := [Thread.start 0 false 3]
    effects := {}
    progress := 0
    cycles := 0
    tally := { spawned := 1 }
    -- The first word is rejected, and the fourth one gives the literal of a push.
    source :=
      { words := [0x2000000000000000, 0x8000000000000000, 0x8000000000000000, 0xde9bd37b00000000,
          0xc000000000000000, 0x8000000000000000, 0x8000000000000000, 0xc000000000000000,
          0xc000000000000000, 0, 0, 0, 7] } }

/-- Another program and another pool with the same words to draw from. -/
def busyRing : Simulator Script :=
  { idleRing with
    memory :=
      { rows := 2
        columns := 2
        cells := #[{ byte := 128 }, { byte := copyByte }, { byte := 129 }, { byte := 126 }]
        dirty := true }
    threads :=
      [{ ip := 1, stack := { values := [3, 0, 1], capacity := 3 }, age := 9, reversed := true }]
    effects := ⟨[⟨.zoom, 3, 2⟩]⟩
    tally := { spawned := 5, halted := 4 } }

theorem rings_share_schedule :
    ∃ a b choices, repeatLogged loggedCycle 2 idleRing = .ok (a, choices) ∧
      repeatLogged loggedCycle 2 busyRing = .ok (b, choices) ∧ a.source = b.source ∧
      choices = [⟨[(2, 136)], [(3, true)]⟩, ⟨[(3, spawnByte)], [(0, false)]⟩] ∧
      a.source = ⟨[7]⟩ ∧ a.memory.bytes = [127, 127, 136, 3] ∧
      b.memory.bytes = [126, 1, 136, 3] := by
  have hidle : (repeatLogged loggedCycle 2 idleRing).map
      (fun last => (last.1.memory.bytes, last.1.source, last.2)) =
        .ok ([127, 127, 136, 3], ⟨[7]⟩,
          [⟨[(2, 136)], [(3, true)]⟩, ⟨[(3, spawnByte)], [(0, false)]⟩]) := by decide +kernel
  have hbusy : (repeatLogged loggedCycle 2 busyRing).map (fun last => last.1.memory.bytes) =
      .ok [126, 1, 136, 3] := by decide +kernel
  have hpools : TrimsAlike 2 idleRing busyRing := by
    intro k hk s t hs ht _
    have hsize : ∀ k < 2, (repeatTimes cycle k idleRing >>= turned).map
          (fun sim => sim.threads.length) = .ok 2 ∧
        (repeatTimes cycle k busyRing >>= turned).map (fun sim => sim.threads.length) = .ok 2 := by
      decide +kernel
    obtain ⟨hidle, hbusy⟩ := hsize k hk
    rw [hs] at hidle
    rw [ht] at hbusy
    exact Except.ok.inj (hidle.trans hbusy.symm)
  obtain ⟨⟨a, choices⟩, hloga, ha⟩ := map_eq_ok.mp hidle
  obtain ⟨⟨b, choices'⟩, hlogb, hb⟩ := map_eq_ok.mp hbusy
  simp only [Prod.mk.injEq] at ha
  have hruna : repeatTimes cycle 2 idleRing = .ok a := by
    rw [← repeatLogged_fst loggedCycle_fst, hloga]
    rfl
  have hrunb : repeatTimes cycle 2 busyRing = .ok b := by
    rw [← repeatLogged_fst loggedCycle_fst, hlogb]
    rfl
  have hconfig : idleRing.config = busyRing.config := rfl
  obtain ⟨hsource, shared, ha', hb'⟩ :=
    random_schedule_independent hconfig rfl rfl (Or.inr hpools) hruna hrunb
  obtain rfl : choices = shared := by
    rw [hloga] at ha'
    cases ha'
    rfl
  exact ⟨a, b, choices, ha', hb', hsource, ha.2.2, ha.2.1, ha.1, hb⟩

end Simulator

end ThreadSoup
