import Mathlib.Data.Int.ModEq
import Mathlib.Logic.Equiv.Defs
import ThreadSoup.Proofs.Ring

namespace ThreadSoup

section Ring

variable {len index place : Nat}

theorem eq_of_modEq_len (hi : index < len) (hp : place < len)
    (h : (index : Int) ≡ place [ZMOD len]) : index = place :=
  (Int.natCast_modEq_iff.mp h).eq_of_lt_of_lt hi hp

theorem onRing_modEq (hpos : 0 < len) (position : Int) :
    (onRing len position : Int) ≡ position [ZMOD len] := by
  rw [onRing_cast hpos]
  exact Int.mod_modEq position len

/-- The place of a position is the only one that is congruent to it. -/
theorem onRing_eq_iff_modEq {position : Int} (hp : place < len) :
    onRing len position = place ↔ (place : Int) ≡ position [ZMOD len] := by
  have hpos : 0 < len := Nat.zero_lt_of_lt hp
  have hplace := onRing_modEq hpos position
  constructor
  · rintro rfl
    exact hplace
  · intro h
    exact eq_of_modEq_len (onRing_lt hpos position) hp (hplace.trans h.symm)

/-- All places `delta` steps further on. Taking the steps back is the inverse. -/
def rotation (len : Nat) (delta : Int) : Equiv.Perm (Fin len) where
  toFun place := ⟨onRing len (place + delta), onRing_lt (Nat.zero_lt_of_lt place.isLt) _⟩
  -- not `wrap` itself: the opposite of the least word fits no word
  invFun place := ⟨onRing len (place + -delta), onRing_lt (Nat.zero_lt_of_lt place.isLt) _⟩
  left_inv place := by
    apply Fin.ext
    simp only
    rw [onRing_add (Nat.zero_lt_of_lt place.isLt), Int.add_neg_cancel_right,
      onRing_of_lt place.isLt]
  right_inv place := by
    apply Fin.ext
    simp only
    rw [onRing_add (Nat.zero_lt_of_lt place.isLt), Int.neg_add_cancel_right,
      onRing_of_lt place.isLt]

end Ring

section Wrap

variable {len index middle next : Nat} {a b delta : Int}

theorem wrap_of_not_fits (hlen : len < 2 ^ 63) (hi : index < len)
    (hfits : ¬FitsSigned (index + delta)) : wrap index delta len = .error .overflow := by
  rw [wrap_eq delta (Nat.zero_lt_of_lt hi) hlen hi]
  exact if_neg hfits

theorem wrap_eq_ok_iff (hlen : len < 2 ^ 63) (hi : index < len) :
    wrap index delta len = .ok next ↔
      FitsSigned (index + delta) ∧ next < len ∧ (next : Int) ≡ index + delta [ZMOD len] := by
  by_cases hfits : FitsSigned (index + delta)
  · rw [wrap_of_fits hlen hi hfits]
    constructor
    · intro h
      obtain rfl := Except.ok.inj h
      exact ⟨hfits, onRing_lt (Nat.zero_lt_of_lt hi) _, onRing_modEq (Nat.zero_lt_of_lt hi) _⟩
    · rintro ⟨_, hnext, hmod⟩
      rw [(onRing_eq_iff_modEq hnext).mpr hmod]
  · rw [wrap_of_not_fits hlen hi hfits]
    constructor
    · intro h
      cases h
    · rintro ⟨h, _⟩
      exact absurd h hfits

theorem wrap_faults_iff (hlen : len < 2 ^ 63) (hi : index < len) :
    (∃ fault, wrap index delta len = .error fault) ↔ ¬FitsSigned (index + delta) := by
  constructor
  · rintro ⟨fault, hfault⟩ hfits
    rw [wrap_of_fits hlen hi hfits] at hfault
    cases hfault
  · intro hfits
    exact ⟨.overflow, wrap_of_not_fits hlen hi hfits⟩

/-- The direct way needs its own bound, since its sum can exceed the word where no part does. -/
theorem wrap_wrap (hlen : len < 2 ^ 63) (hi : index < len) (hfirst : wrap index a len = .ok middle)
    (hsecond : FitsSigned (middle + b)) (hdirect : FitsSigned (index + (a + b))) :
    ∃ last, wrap middle b len = .ok last ∧ wrap index (a + b) len = .ok last := by
  obtain ⟨_, hmiddle, hmod⟩ := (wrap_eq_ok_iff hlen hi).mp hfirst
  have hlast := wrap_of_fits hlen hmiddle hsecond
  obtain ⟨_, hlt, hend⟩ := (wrap_eq_ok_iff hlen hmiddle).mp hlast
  refine ⟨_, hlast, (wrap_eq_ok_iff hlen hi).mpr ⟨hdirect, hlt, ?_⟩⟩
  rw [← Int.add_assoc]
  exact hend.trans (hmod.add_right b)

theorem wrap_back (hlen : len < 2 ^ 63) (hi : index < len) (hmove : wrap index a len = .ok middle)
    (hback : FitsSigned (middle + -a)) : wrap middle (-a) len = .ok index := by
  obtain ⟨_, hmiddle, hmod⟩ := (wrap_eq_ok_iff hlen hi).mp hmove
  refine (wrap_eq_ok_iff hlen hmiddle).mpr ⟨hback, hi, ?_⟩
  have hreturn := (hmod.add_right (-a)).symm
  rwa [Int.add_neg_cancel_right] at hreturn

/-- No two places lead to the same one, even if the steps are too many for other places. -/
theorem wrap_inj (hlen : len < 2 ^ 63) {i j : Nat} (hi : i < len) (hj : j < len)
    (hleft : wrap i delta len = .ok next) (hright : wrap j delta len = .ok next) : i = j := by
  obtain ⟨_, _, hmodi⟩ := (wrap_eq_ok_iff hlen hi).mp hleft
  obtain ⟨_, _, hmodj⟩ := (wrap_eq_ok_iff hlen hj).mp hright
  exact eq_of_modEq_len hi hj ((hmodi.symm.trans hmodj).add_right_cancel' delta)

/-- On a ring whose size fits a signed word, steps have no result exactly if the sum does not fit
such a word. Otherwise they end at the one place that is congruent to the sum. So steps add up,
steps taken back cancel, and no two places lead to the same one. Steps that are possible from every
place permute the ring. -/
theorem wrap_adds_on_ring (hlen : len < 2 ^ 63) :
    (∀ index < len, ∀ delta : Int,
      ((∃ fault, wrap index delta len = .error fault) ↔ ¬FitsSigned (index + delta)) ∧
      (FitsSigned (index + delta) →
        ∃ next, wrap index delta len = .ok next ∧ next < len ∧
          (next : Int) ≡ index + delta [ZMOD len] ∧
          ∀ other < len, (other : Int) ≡ index + delta [ZMOD len] → other = next)) ∧
    (∀ index < len, ∀ a b : Int, FitsSigned (index + a) →
      ∃ middle, wrap index a len = .ok middle ∧
        (FitsSigned (middle + b) → FitsSigned (index + (a + b)) →
          ∃ last, wrap middle b len = .ok last ∧ wrap index (a + b) len = .ok last) ∧
        (FitsSigned (middle + -a) → wrap middle (-a) len = .ok index)) ∧
    ∀ delta : Int,
      (∀ i < len, ∀ j < len, ∀ next,
        wrap i delta len = .ok next → wrap j delta len = .ok next → i = j) ∧
      ((∀ index < len, FitsSigned (index + delta)) →
        ∃ turn : Equiv.Perm (Fin len), ∀ place : Fin len,
          wrap place delta len = .ok (turn place).val) := by
  refine ⟨?_, ?_, ?_⟩
  · intro index hi delta
    refine ⟨wrap_faults_iff hlen hi, ?_⟩
    intro hfits
    have hnext := wrap_of_fits hlen hi hfits
    obtain ⟨_, hlt, hmod⟩ := (wrap_eq_ok_iff hlen hi).mp hnext
    refine ⟨_, hnext, hlt, hmod, ?_⟩
    intro other hother hsame
    exact ((onRing_eq_iff_modEq hother).mpr hsame).symm
  · intro index hi a b hfits
    have hmiddle := wrap_of_fits hlen hi hfits
    exact ⟨_, hmiddle, wrap_wrap hlen hi hmiddle, wrap_back hlen hi hmiddle⟩
  · intro delta
    refine ⟨?_, ?_⟩
    · intro i hi j hj next hleft hright
      exact wrap_inj hlen hi hj hleft hright
    · intro hfits
      refine ⟨rotation len delta, ?_⟩
      intro place
      exact wrap_of_fits hlen place.isLt (hfits place place.isLt)

/-- From the last place of the widest ring one step leads to the first place, and two exceed the
word. The longest way back is open to every place, although its opposite fits no word. -/
theorem widest_ring_wraps :
    (∃ fault, wrap (2 ^ 63 - 2) 2 (2 ^ 63 - 1) = .error fault) ∧
    (∃ last, wrap 0 (-2 ^ 63) (2 ^ 63 - 1) = .ok last ∧
      wrap (2 ^ 63 - 2) (1 + -2 ^ 63) (2 ^ 63 - 1) = .ok last) ∧
    wrap 0 (-1) (2 ^ 63 - 1) = .ok (2 ^ 63 - 2) ∧
    ∃ turn : Equiv.Perm (Fin (2 ^ 63 - 1)), ∀ place : Fin (2 ^ 63 - 1),
      wrap place (-2 ^ 63) (2 ^ 63 - 1) = .ok (turn place).val := by
  obtain ⟨hsteps, hadd, hturn⟩ := wrap_adds_on_ring (show 2 ^ 63 - 1 < 2 ^ 63 by decide)
  have hseam : wrap (2 ^ 63 - 2) 1 (2 ^ 63 - 1) = .ok 0 := by decide
  obtain ⟨middle, hmiddle, htwice, hback⟩ :=
    hadd (2 ^ 63 - 2) (by decide) 1 (-2 ^ 63) (by decide)
  obtain rfl : 0 = middle := Except.ok.inj (hseam.symm.trans hmiddle)
  refine ⟨(hsteps (2 ^ 63 - 2) (by decide) 2).1.mpr (by decide), htwice (by decide) (by decide),
    hback (by decide), (hturn (-2 ^ 63)).2 ?_⟩
  intro index hindex
  unfold FitsSigned
  omega

end Wrap

end ThreadSoup
