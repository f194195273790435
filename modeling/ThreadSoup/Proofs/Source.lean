import Mathlib.Algebra.Order.Ring.Int
import ThreadSoup.Op
import ThreadSoup.Random

namespace ThreadSoup

section Reliable

variable {σ : Type} [RandomSource σ]

/-- A set of states of a random source that no draw leaves, and in which every draw gives a number
in its range. -/
structure Draws (states : σ → Prop) : Prop where
  below : ∀ source bound, states source → 0 < bound →
    ∃ n rest, RandomSource.below bound source = some (n, rest) ∧ n < bound ∧ states rest
  within : ∀ source, states source →
    ∃ n rest, RandomSource.within noiseRadius source = some (n, rest) ∧
      -(noiseRadius : Int) ≤ n ∧ n ≤ noiseRadius ∧ states rest
  coin : ∀ source, states source → states (RandomSource.coin source).2

/-- A source that gives a number in its range at every draw, now and later. -/
def Reliable (source : σ) : Prop := ∃ states : σ → Prop, Draws states ∧ states source

theorem Reliable.below {source : σ} {bound : Nat} (h : Reliable source) (hb : 0 < bound) :
    ∃ n rest, RandomSource.below bound source = some (n, rest) ∧ n < bound ∧ Reliable rest := by
  obtain ⟨states, draws, hs⟩ := h
  obtain ⟨n, rest, hdraw, hn, hrest⟩ := draws.below source bound hs hb
  exact ⟨n, rest, hdraw, hn, states, draws, hrest⟩

theorem Reliable.within {source : σ} (h : Reliable source) :
    ∃ n rest, RandomSource.within noiseRadius source = some (n, rest) ∧
      -(noiseRadius : Int) ≤ n ∧ n ≤ noiseRadius ∧ Reliable rest := by
  obtain ⟨states, draws, hs⟩ := h
  obtain ⟨n, rest, hdraw, hlow, hhigh, hrest⟩ := draws.within source hs
  exact ⟨n, rest, hdraw, hlow, hhigh, states, draws, hrest⟩

theorem Reliable.coin {source : σ} (h : Reliable source) :
    Reliable (RandomSource.coin source).2 := by
  obtain ⟨states, draws, hs⟩ := h
  exact ⟨states, draws, draws.coin source hs⟩

end Reliable

theorem scaleWord_lt {bits range word n : Nat} (hw : word < 2 ^ bits)
    (h : scaleWord bits range word = some n) : n < range := by
  unfold scaleWord at h
  simp only at h
  split at h
  next haccept =>
    cases h
    have hpos : 0 < range := by
      apply Nat.pos_of_ne_zero
      rintro rfl
      simp at haccept
    rw [Nat.shiftRight_eq_div_pow]
    apply Nat.div_lt_of_lt_mul
    exact Nat.mul_lt_mul_of_pos_right hw hpos
  next => cases h

/-- A source that never gives a number out of range. It may give none. -/
class LawfulRandomSource (σ : Type) [RandomSource σ] : Prop where
  below_lt : ∀ {bound n : Nat} {source rest : σ},
    RandomSource.below bound source = some (n, rest) → n < bound
  within_le : ∀ {radius : Nat} {n : Int} {source rest : σ},
    RandomSource.within radius source = some (n, rest) → -(radius : Int) ≤ n ∧ n ≤ radius

theorem highHalf_lt (word : UInt64) : highHalf word < 2 ^ 32 := by
  have hsize : UInt32.size = 2 ^ 32 := rfl
  have hlt := word.toNat_lt
  unfold highHalf
  rw [hsize]
  omega

theorem firstAccepted_eq_some {σ α : Type} [WordSource σ] {accept : UInt64 → Option α}
    {tries : Nat} {source rest : σ} {a : α}
    (h : firstAccepted accept tries source = some (a, rest)) : ∃ word, accept word = some a := by
  induction tries generalizing source with
  | zero => cases h
  | succ tries ih =>
    simp only [firstAccepted] at h
    split at h
    next a' ha => cases h; exact ⟨_, ha⟩
    next => exact ih h

/-- Whatever the words are, scaling brings them into range. -/
instance {σ : Type} [WordSource σ] : LawfulRandomSource σ where
  below_lt := by
    intro bound n source rest h
    change (if bound = 0 then none else
      firstAccepted (fun word => scaleWord 64 bound word.toNat) maxTries source) = _ at h
    split at h
    next => cases h
    next =>
      obtain ⟨word, hword⟩ := firstAccepted_eq_some h
      exact scaleWord_lt word.toNat_lt hword
  within_le := by
    intro radius n source rest h
    obtain ⟨word, hword⟩ := firstAccepted_eq_some h
    obtain ⟨m, hm, rfl⟩ := Option.map_eq_some_iff.mp hword
    have hlt := scaleWord_lt (highHalf_lt word) hm
    exact ⟨by omega, by omega⟩

/-- Zero is accepted for every range, so a scripted source that has run out always answers. -/
theorem scaleWord_zero {bits range : Nat} (h : 0 < range) : scaleWord bits range 0 = some 0 := by
  have hne : range ≠ 0 := Nat.ne_of_gt h
  simp [scaleWord, hne]

theorem firstAccepted_script {α : Type} (accept : UInt64 → Option α) {zero : α}
    (hzero : accept 0 = some zero) {tries : Nat} {script : Script}
    (h : script.words.length < tries) :
    ∃ a word rest, firstAccepted accept tries script = some (a, rest) ∧ accept word = some a ∧
      rest.words.length ≤ script.words.length := by
  obtain ⟨words⟩ := script
  induction words generalizing tries with
  | nil =>
    obtain ⟨left, rfl⟩ := Nat.exists_eq_add_one_of_ne_zero (Nat.ne_of_gt h)
    exact ⟨zero, 0, ⟨[]⟩, by simp [firstAccepted, WordSource.next, hzero], hzero, Nat.le_refl _⟩
  | cons word words ih =>
    obtain ⟨left, rfl⟩ := Nat.exists_eq_add_one_of_ne_zero (Nat.ne_of_gt (Nat.zero_lt_of_lt h))
    simp only [List.length_cons] at h
    cases ha : accept word with
    | some a =>
      exact ⟨a, word, ⟨words⟩, by simp [firstAccepted, WordSource.next, ha], ha, Nat.le_succ _⟩
    | none =>
      obtain ⟨a, found, rest, hf, hacc, hlen⟩ := ih (by omega : words.length < left)
      refine ⟨a, found, rest, ?_, hacc, Nat.le_succ_of_le hlen⟩
      simpa [firstAccepted, WordSource.next, ha] using hf

theorem Script.reliable (script : Script) (h : script.words.length < maxTries) :
    Reliable script := by
  refine ⟨fun s => s.words.length < maxTries, ⟨?_, ?_, ?_⟩, h⟩
  · intro source bound hs hb
    obtain ⟨n, word, rest, hf, hacc, hlen⟩ :=
      firstAccepted_script (fun word => scaleWord 64 bound word.toNat) (scaleWord_zero hb) hs
    exact ⟨n, rest, (if_neg (Nat.ne_of_gt hb)).trans hf, scaleWord_lt word.toNat_lt hacc,
      Nat.lt_of_le_of_lt hlen hs⟩
  · intro source hs
    obtain ⟨n, word, rest, hf, hacc, hlen⟩ := firstAccepted_script
      (fun word => (scaleWord 32 (2 * noiseRadius + 1) (highHalf word)).map
        fun n : Nat => (n : Int) - noiseRadius)
      (congrArg (Option.map _) (scaleWord_zero (by decide))) hs
    obtain ⟨m, hm, rfl⟩ := Option.map_eq_some_iff.mp hacc
    have hlt := scaleWord_lt (highHalf_lt word) hm
    exact ⟨_, rest, hf, by omega, by omega, Nat.lt_of_le_of_lt hlen hs⟩
  · intro source hs
    obtain ⟨words⟩ := source
    cases words with
    | nil => exact hs
    | cons word words => exact Nat.lt_of_succ_lt hs

end ThreadSoup
