import Mathlib.Data.List.Nodup
import ThreadSoup.Proofs.Ages
import ThreadSoup.Proofs.EffectStream

namespace ThreadSoup

/-- Which of two threads, each with its position in the pool, is trimmed first: the older one, and of
two equally old ones the one in front. -/
def Senior (first second : Thread × Nat) : Prop :=
  second.1.age < first.1.age ∨ first.1.age = second.1.age ∧ first.2 ≤ second.2

instance : DecidableRel Senior := fun _ _ => inferInstanceAs (Decidable (_ ∨ _))

def bySeniority (entries : List (Thread × Nat)) : List (Thread × Nat) :=
  entries.mergeSort fun first second => decide (Senior first second)

/-- The entries that stay where they are when the first ones by seniority go. -/
def spared (count : Nat) (entries : List (Thread × Nat)) : List (Thread × Nat) :=
  entries.filter fun entry => entry ∉ (bySeniority entries).take count

/-- The threads of a pool that are trimmed first, in the order in which they are trimmed. -/
def eldest (count : Nat) (threads : List Thread) : List Thread :=
  ((bySeniority threads.zipIdx).take count).map Prod.fst

/-- The threads of a pool that stay when its eldest ones are trimmed, in pool order. -/
def younger (count : Nat) (threads : List Thread) : List Thread :=
  (spared count threads.zipIdx).map Prod.fst

section Order

variable {entries : List (Thread × Nat)} {entry : Thread × Nat} {index count : Nat}

theorem Senior.trans {a b c : Thread × Nat} (first : Senior a b) (second : Senior b c) :
    Senior a c := by
  unfold Senior at *
  omega

theorem Senior.total (a b : Thread × Nat) : Senior a b ∨ Senior b a := by
  unfold Senior
  omega

theorem Senior.position_eq {a b : Thread × Nat} (first : Senior a b) (second : Senior b a) :
    a.2 = b.2 := by
  unfold Senior at *
  omega

theorem bySeniority_perm (entries : List (Thread × Nat)) : (bySeniority entries).Perm entries :=
  List.mergeSort_perm _ _

theorem bySeniority_sorted (entries : List (Thread × Nat)) :
    (bySeniority entries).Pairwise Senior := by
  have htrans : ∀ a b c, decide (Senior a b) = true → decide (Senior b c) = true →
      decide (Senior a c) = true := by
    intro a b c hab hbc
    exact decide_eq_true (Senior.trans (of_decide_eq_true hab) (of_decide_eq_true hbc))
  have htotal : ∀ a b, (decide (Senior a b) || decide (Senior b a)) = true := by
    intro a b
    simpa using Senior.total a b
  have hsorted := List.pairwise_mergeSort htrans htotal entries
  exact hsorted.imp of_decide_eq_true

/-- Positions tell the entries of a pool apart. -/
theorem eq_of_position {a b : Thread × Nat} (ranked : entries.Pairwise fun a b => a.2 < b.2)
    (ha : a ∈ entries) (hb : b ∈ entries) (h : a.2 = b.2) : a = b := by
  have hnodup : (entries.map Prod.snd).Nodup :=
    List.pairwise_map.mpr (ranked.imp Nat.ne_of_lt)
  exact List.inj_on_of_nodup_map hnodup ha hb h

/-- An entry that nothing precedes stands first, and the others follow as they would without it. -/
theorem bySeniority_eq_cons (ranked : entries.Pairwise fun a b => a.2 < b.2)
    (hi : entries[index]? = some entry) (hfirst : ∀ other ∈ entries, Senior entry other) :
    bySeniority entries = entry :: bySeniority (entries.eraseIdx index) := by
  obtain ⟨hlt, hget⟩ := List.getElem?_eq_some_iff.mp hi
  have hperm : (entry :: bySeniority (entries.eraseIdx index)).Perm entries := by
    have hrest := (bySeniority_perm (entries.eraseIdx index)).cons entry
    rw [← hget] at hrest ⊢
    exact hrest.trans (List.getElem_cons_eraseIdx_perm hlt)
  have hsorted : (entry :: bySeniority (entries.eraseIdx index)).Pairwise Senior := by
    refine List.pairwise_cons.mpr ⟨?_, bySeniority_sorted _⟩
    intro other hmem
    have hleft := (bySeniority_perm _).mem_iff.mp hmem
    exact hfirst other (List.mem_of_mem_eraseIdx hleft)
  refine List.Perm.eq_of_pairwise ?_ (bySeniority_sorted entries) hsorted
    ((bySeniority_perm entries).trans hperm.symm)
  intro a b ha hb hab hba
  exact eq_of_position ranked ((bySeniority_perm entries).mem_iff.mp ha) (hperm.mem_iff.mp hb)
    (hab.position_eq hba)

theorem nodup_of_ranked (ranked : entries.Pairwise fun a b => a.2 < b.2) : entries.Nodup :=
  ranked.imp fun hlt heq => Nat.ne_of_lt hlt (congrArg Prod.snd heq)

theorem eraseIdx_eq_filter (ranked : entries.Pairwise fun a b => a.2 < b.2)
    (hi : entries[index]? = some entry) :
    entries.eraseIdx index = entries.filter fun other => other != entry := by
  obtain ⟨hlt, hget⟩ := List.getElem?_eq_some_iff.mp hi
  have hnodup := nodup_of_ranked ranked
  rw [← hnodup.erase_getElem index hlt, hget, hnodup.erase_eq_filter]

/-- To spare all but one more is to spare all but that many of those without the first. -/
theorem spared_succ (ranked : entries.Pairwise fun a b => a.2 < b.2)
    (hi : entries[index]? = some entry) (hfirst : ∀ other ∈ entries, Senior entry other) :
    spared (count + 1) entries = spared count (entries.eraseIdx index) := by
  unfold spared
  rw [bySeniority_eq_cons ranked hi hfirst, List.take_succ_cons]
  conv_rhs => rw [eraseIdx_eq_filter ranked hi, List.filter_filter, ← eraseIdx_eq_filter ranked hi]
  apply List.filter_congr
  intro other _
  rw [Bool.eq_iff_iff]
  simp only [List.mem_cons, decide_eq_true_eq, not_or, Bool.and_eq_true, bne_iff_ne, and_comm]

theorem spared_zero (entries : List (Thread × Nat)) : spared 0 entries = entries := by
  simp [spared]

/-- Whoever is not among the first ones by seniority is spared. -/
theorem spared_perm (count : Nat) (ranked : entries.Pairwise fun a b => a.2 < b.2) :
    ((bySeniority entries).take count ++ spared count entries).Perm entries := by
  have hnodup := nodup_of_ranked ranked
  have htaken : ((bySeniority entries).take count).Sublist (bySeniority entries) :=
    List.take_sublist _ _
  have hgone : (entries.filter fun entry => entry ∈ (bySeniority entries).take count).Perm
      ((bySeniority entries).take count) := by
    refine (List.perm_ext_iff_of_nodup (hnodup.filter _)
      (((bySeniority_perm entries).nodup_iff.mpr hnodup).sublist htaken)).mpr ?_
    intro entry
    have hold : entry ∈ (bySeniority entries).take count → entry ∈ entries :=
      fun hmem => (bySeniority_perm entries).mem_iff.mp (htaken.subset hmem)
    rw [List.mem_filter, decide_eq_true_iff, and_iff_right_of_imp hold]
  have hsplit := List.filter_append_perm (fun entry => entry ∈ (bySeniority entries).take count) entries
  refine (hgone.symm.append_right _).trans ?_
  simpa only [spared, decide_not] using hsplit

/-- The oldest thread of a pool precedes all others. -/
theorem oldest_senior (ranked : entries.Pairwise fun a b => a.2 < b.2) (hne : entries ≠ []) :
    ∃ entry, entries[oldest (entries.map Prod.fst)]? = some entry ∧
      ∀ other ∈ entries, Senior entry other := by
  have hpool : entries.map Prod.fst ≠ [] := by simpa using hne
  obtain ⟨thread, hthread, hbound, hearlier⟩ := oldest_spec hpool
  generalize oldest (entries.map Prod.fst) = index at hthread hearlier ⊢
  rw [List.getElem?_map, Option.map_eq_some_iff] at hthread
  obtain ⟨entry, hentry, rfl⟩ := hthread
  obtain ⟨hi, hget⟩ := List.getElem?_eq_some_iff.mp hentry
  refine ⟨entry, hentry, ?_⟩
  intro other hmem
  obtain ⟨j, hj, hother⟩ := List.getElem_of_mem hmem
  have hage := hbound other.1 (List.mem_map_of_mem hmem)
  rcases Nat.lt_or_ge j index with hfront | hback
  · -- whoever stands in front is strictly younger
    have hfirst : other ∈ entries.take index :=
      List.mem_take_iff_getElem.mpr ⟨j, by omega, hother⟩
    have hyounger := hearlier other.1 (by rw [← List.map_take]; exact List.mem_map_of_mem hfirst)
    exact Or.inl hyounger
  · have hposition : entry.2 ≤ other.2 := by
      rcases Nat.lt_or_eq_of_le hback with hlt | heq
      · have hbehind := List.pairwise_iff_getElem.mp ranked index j hi hj hlt
        rw [hget, hother] at hbehind
        exact Nat.le_of_lt hbehind
      · subst heq
        rw [← hget, ← hother]
    unfold Senior
    omega

theorem zipIdx_ranked (threads : List Thread) :
    threads.zipIdx.Pairwise fun a b => a.2 < b.2 := by
  have hpositions : (threads.zipIdx.map Prod.snd).Pairwise (· < ·) := by
    rw [List.zipIdx_map_snd]
    exact List.pairwise_lt_range'
  exact List.pairwise_map.mp hpositions

theorem eldest_append_younger_perm (count : Nat) (threads : List Thread) :
    (eldest count threads ++ younger count threads).Perm threads := by
  have hentries := (spared_perm count (zipIdx_ranked threads)).map Prod.fst
  rwa [List.map_append, List.zipIdx_map_fst] at hentries

theorem length_eldest {threads : List Thread} (h : count ≤ threads.length) :
    (eldest count threads).length = count := by
  have hall := (bySeniority_perm threads.zipIdx).length_eq
  rw [List.length_zipIdx] at hall
  rw [eldest, List.length_map, List.length_take, hall, Nat.min_eq_left h]

theorem younger_sublist (count : Nat) (threads : List Thread) :
    (younger count threads).Sublist threads := by
  have hentries := (List.filter_sublist (l := threads.zipIdx)
    (p := fun entry => entry ∉ (bySeniority threads.zipIdx).take count)).map Prod.fst
  rwa [List.zipIdx_map_fst] at hentries

end Order

theorem Tally.death_trimmed (tally : Tally) :
    tally.death .trimmed =
      if tally.trimmed + 1 < 2 ^ 64 then .ok { tally with trimmed := tally.trimmed + 1 }
      else .error .overflow := by
  change (addTotal tally.trimmed 1 >>= fun total => .ok { tally with trimmed := total }) = _
  split
  next hroom => rw [addTotal_eq hroom]; rfl
  next hfull => rw [addTotal_full hfull]; rfl

/-- A random source that gives a position in range whenever it is asked for one, now and later. -/
def Picks {σ : Type} [RandomSource σ] (source : σ) : Prop :=
  ∃ states : σ → Prop, states source ∧ ∀ current bound, states current → 0 < bound →
    ∃ n rest, RandomSource.below bound current = some (n, rest) ∧ n < bound ∧ states rest

theorem Picks.below {σ : Type} [RandomSource σ] {source : σ} {bound : Nat} (h : Picks source)
    (hb : 0 < bound) :
    ∃ n rest, RandomSource.below bound source = some (n, rest) ∧ n < bound ∧ Picks rest := by
  obtain ⟨states, hs, hdraw⟩ := h
  obtain ⟨n, rest, hbelow, hn, hrest⟩ := hdraw source bound hs hb
  exact ⟨n, rest, hbelow, hn, states, hrest, hdraw⟩

theorem Reliable.picks {σ : Type} [RandomSource σ] {source : σ} (h : Reliable source) :
    Picks source := by
  obtain ⟨states, draws, hs⟩ := h
  exact ⟨states, hs, draws.below⟩

namespace Simulator

variable {σ : Type}

theorem mem_mourn {config : Config} {queue : EffectQueue} {effect : Effect} (thread : Thread)
    (h : effect ∈ queue.toList) : effect ∈ (mourn config queue thread).toList := by
  unfold mourn
  split
  next => exact EffectQueue.mem_insert.mpr (Or.inr (EffectQueue.mem_insert.mpr (Or.inr h)))
  next => exact h

theorem mem_foldl_mourn {config : Config} {queue : EffectQueue} {effect : Effect}
    (threads : List Thread) (h : effect ∈ queue.toList) :
    effect ∈ (threads.foldl (mourn config) queue).toList := by
  induction threads generalizing queue with
  | nil => exact h
  | cons thread rest ih => exact ih (mem_mourn thread h)

/-- Whoever has died is mourned, whoever else dies later. -/
theorem mourned {config : Config} {queue : EffectQueue} {thread : Thread} {threads : List Thread}
    (hshown : config.useThreadDeathEffect = true) (h : thread ∈ threads) :
    { kind := if thread.reversed then .fallReverse else .fallForward, ip := thread.ip } ∈
        (threads.foldl (mourn config) queue).toList ∧
      { kind := .pulse, ip := thread.ip } ∈ (threads.foldl (mourn config) queue).toList := by
  induction threads generalizing queue with
  | nil => cases h
  | cons head rest ih =>
    rcases List.mem_cons.mp h with rfl | hrest
    · rw [List.foldl_cons]
      refine ⟨mem_foldl_mourn rest ?_, mem_foldl_mourn rest ?_⟩
      · simp [mourn, hshown]
      · simp [mourn, hshown]
    · exact ih hrest

/-- The simulator once some of its threads are trimmed, one after the other, and others are left. -/
def trimmedTo (sim : Simulator σ) (removed kept : List Thread) (source : σ) : Simulator σ :=
  { sim with
    threads := kept
    effects := removed.foldl (mourn sim.config) sim.effects
    tally := { sim.tally with trimmed := sim.tally.trimmed + removed.length }
    source }

theorem trimmedTo_trimmedTo (sim : Simulator σ) (first second middle last : List Thread)
    (source rest : σ) :
    (sim.trimmedTo first middle source).trimmedTo second last rest =
      sim.trimmedTo (first ++ second) last rest := by
  simp [trimmedTo, Nat.add_assoc]

variable [RandomSource σ] {sim : Simulator σ} {count : Nat}

/-- One removal counts and mourns its thread and takes it out of the pool. -/
theorem removeVictim_eq {index : Nat} {source : σ} {thread : Thread}
    (hv : sim.victim = .ok (index, source)) (hi : sim.threads[index]? = some thread) :
    sim.removeVictim =
      if sim.tally.trimmed + 1 < 2 ^ 64 then
        .ok (sim.trimmedTo [thread] (sim.threads.eraseIdx index) source)
      else .error .overflow := by
  obtain ⟨hlt, hget⟩ := List.getElem?_eq_some_iff.mp hi
  unfold removeVictim
  simp only [hv, ok_bind, dif_pos hlt, hget, Tally.death_trimmed]
  split
  next => rfl
  next => rfl

theorem victim_by_age (hoff : sim.config.threadReductionEnabled = false) :
    sim.victim = .ok (oldest sim.threads, sim.source) := by
  unfold victim
  rw [hoff]
  rfl

theorem removeVictim_picks (hpicks : sim.config.threadReductionEnabled = true → Picks sim.source)
    (hpos : 0 < sim.threads.length) :
    ∃ index source thread, sim.threads[index]? = some thread ∧
      (sim.config.threadReductionEnabled = true → Picks source) ∧
      sim.removeVictim =
        if sim.tally.trimmed + 1 < 2 ^ 64 then
          .ok (sim.trimmedTo [thread] (sim.threads.eraseIdx index) source)
        else .error .overflow := by
  cases hmode : sim.config.threadReductionEnabled with
  | true =>
    obtain ⟨index, source, hdraw, hlt, hs⟩ := (hpicks hmode).below hpos
    have hv : sim.victim = .ok (index, source) := by
      unfold victim
      rw [if_pos hmode, hdraw]
      rfl
    have hi := List.getElem?_eq_getElem hlt
    exact ⟨index, source, _, hi, fun _ => hs, removeVictim_eq hv hi⟩
  | false =>
    have hi := List.getElem?_eq_getElem (oldest_lt hpos)
    exact ⟨_, _, _, hi, by simp, removeVictim_eq (victim_by_age hmode) hi⟩

theorem removals_overflow (hpicks : sim.config.threadReductionEnabled = true → Picks sim.source)
    (hcount : count ≤ sim.threads.length) (hword : sim.tally.trimmed < 2 ^ 64)
    (hfull : 2 ^ 64 ≤ sim.tally.trimmed + count) :
    repeatTimes removeVictim count sim = .error .overflow := by
  induction count generalizing sim with
  | zero => omega
  | succ count ih =>
    obtain ⟨index, source, thread, hi, hlater, hstep⟩ := removeVictim_picks hpicks (by omega)
    obtain ⟨hlt, _⟩ := List.getElem?_eq_some_iff.mp hi
    rw [repeatTimes, hstep]
    split
    next hroom =>
      refine ih hlater ?_ hroom ?_
      · simp only [trimmedTo, List.length_eraseIdx_of_lt hlt]
        omega
      · simp only [trimmedTo, List.length_singleton]
        omega
    next => rfl

/-- However the victims are chosen, those left keep their order. -/
theorem removals_sublist (hpicks : sim.config.threadReductionEnabled = true → Picks sim.source)
    (hcount : count ≤ sim.threads.length) (hroom : sim.tally.trimmed + count < 2 ^ 64) :
    ∃ removed kept source,
      repeatTimes removeVictim count sim = .ok (sim.trimmedTo removed kept source) ∧
      removed.length = count ∧ kept.Sublist sim.threads ∧ (removed ++ kept).Perm sim.threads := by
  induction count generalizing sim with
  | zero => exact ⟨[], sim.threads, sim.source, rfl, rfl, List.Sublist.refl _, List.Perm.refl _⟩
  | succ count ih =>
    obtain ⟨index, source, thread, hi, hlater, hstep⟩ := removeVictim_picks hpicks (by omega)
    obtain ⟨hlt, hget⟩ := List.getElem?_eq_some_iff.mp hi
    rw [if_pos (by omega)] at hstep
    have hshorter :
        count ≤ (sim.trimmedTo [thread] (sim.threads.eraseIdx index) source).threads.length := by
      simp only [trimmedTo, List.length_eraseIdx_of_lt hlt]
      omega
    obtain ⟨removed, kept, last, hrest, hlength, hsub, hperm⟩ := ih hlater hshorter
      (by simp only [trimmedTo, List.length_singleton]; omega)
    rw [trimmedTo_trimmedTo] at hrest
    refine ⟨thread :: removed, kept, last, ?_, by rw [List.length_cons, hlength],
      hsub.trans (List.eraseIdx_sublist _ _), ?_⟩
    · rw [repeatTimes, hstep]
      exact hrest
    · rw [List.cons_append, ← hget]
      exact (hperm.cons _).trans (List.getElem_cons_eraseIdx_perm hlt)

/-- Trimming by age takes the threads by seniority. The entries carry the positions that the threads
had at first, which the pool forgets as it shrinks. -/
theorem removals_by_age {entries : List (Thread × Nat)}
    (hoff : sim.config.threadReductionEnabled = false)
    (hpool : sim.threads = entries.map Prod.fst)
    (ranked : entries.Pairwise fun a b => a.2 < b.2) (hcount : count ≤ entries.length)
    (hroom : sim.tally.trimmed + count < 2 ^ 64) :
    repeatTimes removeVictim count sim =
      .ok (sim.trimmedTo (((bySeniority entries).take count).map Prod.fst)
        ((spared count entries).map Prod.fst) sim.source) := by
  induction count generalizing sim entries with
  | zero =>
    rw [spared_zero, ← hpool]
    rfl
  | succ count ih =>
    have hne : entries ≠ [] := List.length_pos_iff.mp (by omega)
    obtain ⟨entry, hentry, hfirst⟩ := oldest_senior ranked hne
    obtain ⟨hlt, _⟩ := List.getElem?_eq_some_iff.mp hentry
    have hi : sim.threads[oldest sim.threads]? = some entry.1 := by
      rw [hpool, List.getElem?_map, hentry]
      rfl
    have hrest : sim.threads.eraseIdx (oldest sim.threads) =
        (entries.eraseIdx (oldest (entries.map Prod.fst))).map Prod.fst := by
      rw [hpool, List.eraseIdx_map]
    have hstep := removeVictim_eq (victim_by_age hoff) hi
    rw [if_pos (by omega), hrest] at hstep
    rw [repeatTimes, hstep, ok_bind]
    refine (ih ?_ rfl (ranked.eraseIdx _) ?_ ?_).trans ?_
    · exact hoff
    · rw [List.length_eraseIdx_of_lt hlt]
      omega
    · simp only [trimmedTo, List.length_singleton]
      omega
    · rw [trimmedTo_trimmedTo, spared_succ ranked hentry hfirst,
        bySeniority_eq_cons ranked hentry hfirst]
      rfl

/-- Trimming removes as many threads as there are too many, counts and mourns them and changes
nothing else, unless their number does not fit its counter. Trimming by age removes the threads
that come first by seniority, one after the other in this order; trimming at random may remove any.
Those that stay keep their order. -/
theorem trim_takes_the_eldest (sim : Simulator σ) (hword : sim.tally.trimmed < 2 ^ 64)
    (hpicks : sim.config.threadReductionEnabled = true → Picks sim.source) :
    let limit := sim.config.maxThreadCount.toNat
    let excess := sim.threads.length - limit
    sim.trim = repeatTimes removeVictim excess sim ∧
    (2 ^ 64 ≤ sim.tally.trimmed + excess → sim.trim = .error .overflow) ∧
    (sim.tally.trimmed + excess < 2 ^ 64 → ∃ removed kept source,
      sim.trim = .ok { sim with
        threads := kept
        effects := removed.foldl (mourn sim.config) sim.effects
        tally := { sim.tally with trimmed := sim.tally.trimmed + excess }
        source } ∧
      removed.length = excess ∧ kept.length = min sim.threads.length limit ∧
      kept.Sublist sim.threads ∧ (removed ++ kept).Perm sim.threads ∧
      (sim.config.threadReductionEnabled = false →
        removed = eldest excess sim.threads ∧ kept = younger excess sim.threads ∧
        source = sim.source ∧
        ∀ count ≤ excess, repeatTimes removeVictim count sim =
          .ok (sim.trimmedTo (eldest count sim.threads) (younger count sim.threads) sim.source)) ∧
      (sim.config.useThreadDeathEffect = true → ∀ thread ∈ removed,
        { kind := if thread.reversed then .fallReverse else .fallForward, ip := thread.ip } ∈
            (removed.foldl (mourn sim.config) sim.effects).toList ∧
          { kind := .pulse, ip := thread.ip } ∈
            (removed.foldl (mourn sim.config) sim.effects).toList)) := by
  intro limit excess
  have hexcess : excess ≤ sim.threads.length := Nat.sub_le _ _
  have htrim : sim.trim = repeatTimes removeVictim excess sim := trim_eq_repeatTimes sim
  refine ⟨htrim, fun hfull => htrim.trans (removals_overflow hpicks hexcess hword hfull), ?_⟩
  intro hroom
  cases hmode : sim.config.threadReductionEnabled with
  | true =>
    obtain ⟨removed, kept, source, hrun, hlength, hsub, hperm⟩ :=
      removals_sublist hpicks hexcess hroom
    have htotal := hperm.length_eq
    rw [List.length_append] at htotal
    refine ⟨removed, kept, source, ?_, hlength, by omega, hsub, hperm, by simp,
      fun hshown thread hmem => mourned hshown hmem⟩
    rw [htrim, hrun, trimmedTo, hlength]
  | false =>
    have hruns : ∀ count ≤ excess, repeatTimes removeVictim count sim =
        .ok (sim.trimmedTo (eldest count sim.threads) (younger count sim.threads) sim.source) := by
      intro count hcount
      exact removals_by_age hmode (List.zipIdx_map_fst 0 sim.threads).symm
        (zipIdx_ranked sim.threads) (by rw [List.length_zipIdx]; omega) (by omega)
    have hlength := length_eldest hexcess
    have hperm := eldest_append_younger_perm excess sim.threads
    have htotal := hperm.length_eq
    rw [List.length_append] at htotal
    refine ⟨_, _, sim.source, ?_, hlength, by omega, younger_sublist excess sim.threads, hperm,
      fun _ => ⟨rfl, rfl, rfl, hruns⟩, fun hshown thread hmem => mourned hshown hmem⟩
    rw [htrim, hruns excess (Nat.le_refl _), trimmedTo, hlength]

/-- Five threads, of which two may stay. Two of them are as old as a counter allows. -/
def veterans : Simulator Script :=
  { config := { maxThreadCount := 2, useThreadDeathEffect := true }
    memory := { rows := 1, columns := 5, cells := Array.replicate 5 {}, dirty := false }
    threads :=
      [{ Thread.start 0 false 1 with age := 3 }, { Thread.start 1 true 1 with age := counterMax },
        { Thread.start 2 true 1 with age := 3 }, { Thread.start 3 false 1 with age := counterMax },
        { Thread.start 4 false 1 with age := 7 }]
    effects := ⟨[{ kind := .pulse, ip := 3 }]⟩
    progress := 0
    cycles := 0
    tally := { spawned := 5 }
    source := ⟨[7]⟩ }

/-- By age the two oldest go, the one in front first, and then the next oldest. At random somebody
goes. -/
theorem veterans_trimmed :
    (∃ last, veterans.trim = .ok last ∧ last.threads = younger 3 veterans.threads ∧
      last.threads.map Thread.ip = [0, 2] ∧
      last.tally = { spawned := 5, trimmed := 3 } ∧
      last.effects.toList = [⟨.pulse, 4, 0⟩, ⟨.fallForward, 4, 0⟩, ⟨.fallForward, 3, 0⟩,
        ⟨.pulse, 1, 0⟩, ⟨.fallReverse, 1, 0⟩, ⟨.pulse, 3, 0⟩]) ∧
    ∃ last, { veterans with
        config := { veterans.config with threadReductionEnabled := true } }.trim = .ok last ∧
      last.threads.Sublist veterans.threads ∧ last.threads.length = 2 := by
  constructor
  · obtain ⟨hsteps, _, htrim⟩ := trim_takes_the_eldest veterans (by decide)
      fun hon => absurd hon (by decide)
    obtain ⟨removed, kept, source, hlast, _, _, _, _, hage, _⟩ := htrim (by decide)
    obtain ⟨rfl, rfl, rfl, _⟩ := hage rfl
    have hrun : (repeatTimes removeVictim 3 veterans).map (fun last =>
        (last.threads.map Thread.ip, last.effects.toList)) =
          .ok ([0, 2], [⟨.pulse, 4, 0⟩, ⟨.fallForward, 4, 0⟩, ⟨.fallForward, 3, 0⟩,
            ⟨.pulse, 1, 0⟩, ⟨.fallReverse, 1, 0⟩, ⟨.pulse, 3, 0⟩]) := by decide +kernel
    rw [← show veterans.trim = repeatTimes removeVictim 3 veterans from hsteps, hlast] at hrun
    obtain ⟨hips, heffects⟩ := Prod.mk.inj (Except.ok.inj hrun)
    exact ⟨_, hlast, rfl, hips, rfl, heffects⟩
  · obtain ⟨_, _, htrim⟩ := trim_takes_the_eldest
      { veterans with config := { veterans.config with threadReductionEnabled := true } }
      (by decide) fun _ => (Script.reliable _ (by decide)).picks
    obtain ⟨removed, kept, source, hlast, _, hlength, hsub, _⟩ := htrim (by decide)
    exact ⟨_, hlast, hsub, hlength⟩

end Simulator

end ThreadSoup
