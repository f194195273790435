import Mathlib.Algebra.Order.Ring.Int
import ThreadSoup.Ring

namespace ThreadSoup

theorem signLimit_eq : signLimit = 2 ^ 63 := rfl

theorem signed_of_lt {n : Nat} (h : n < 2 ^ 63) : signed n = n := if_pos h

/-- On a ring of positive signed length the only fault is a sum that does not fit its word. -/
theorem wrap_eq {index len : Nat} (delta : Int) (hpos : 0 < len) (hlen : len < 2 ^ 63)
    (hi : index < len) :
    wrap index delta len =
      if -2 ^ 63 ≤ index + delta ∧ index + delta < 2 ^ 63 then .ok ((index + delta) % len).toNat
      else .error .overflow := by
  have hindex : signed index = index := signed_of_lt (by omega)
  have hsize : signed len = len := signed_of_lt hlen
  have hne : ¬(len : Int) = -1 := by omega
  have hlimit := signLimit_eq
  simp only [wrap, hindex, hsize, hne, and_false, if_false, if_neg (Nat.ne_of_gt hpos)]
  split
  next h => rw [if_neg (by omega)]
  next h => rw [if_pos (by omega)]

theorem wrap_lt {index len next : Nat} {delta : Int} (hlen : len < 2 ^ 63)
    (h : wrap index delta len = .ok next) : next < len := by
  unfold wrap at h
  simp only at h
  split at h
  next => cases h
  next hpos =>
    split at h
    next => cases h
    next =>
      split at h
      next => cases h
      next =>
        cases h
        have hne : (len : Int) ≠ 0 := by omega
        have hlow := Int.emod_nonneg (signed index + delta) hne
        have hhigh := Int.emod_lt_of_pos (signed index + delta) (by omega : (0 : Int) < len)
        rw [signed_of_lt hlen]
        omega

/-- The place on a ring that a position stands for, which may be negative or too large. -/
def onRing (len : Nat) (position : Int) : Nat := (position % len).toNat

theorem onRing_lt {len : Nat} (hpos : 0 < len) (position : Int) : onRing len position < len := by
  have hhigh := Int.emod_lt_of_pos position (by omega : (0 : Int) < len)
  unfold onRing
  omega

theorem onRing_cast {len : Nat} (hpos : 0 < len) (position : Int) :
    (onRing len position : Int) = position % len :=
  Int.toNat_of_nonneg (Int.emod_nonneg position (by omega))

theorem onRing_of_lt {len index : Nat} (h : index < len) : onRing len index = index := by
  have hmod : (index : Int) % len = index := Int.emod_eq_of_lt (by omega) (by omega)
  unfold onRing
  rw [hmod, Int.toNat_natCast]

/-- Steps may start from the place of a position as well as from the position itself. -/
theorem onRing_add {len : Nat} (hpos : 0 < len) (position delta : Int) :
    onRing len (onRing len position + delta) = onRing len (position + delta) := by
  rw [onRing, onRing_cast hpos, Int.emod_add_emod, onRing]

/-- A number that a 64-bit word with a sign can hold. -/
def FitsSigned (n : Int) : Prop := -2 ^ 63 ≤ n ∧ n < 2 ^ 63

instance (n : Int) : Decidable (FitsSigned n) :=
  inferInstanceAs (Decidable (-2 ^ 63 ≤ n ∧ n < 2 ^ 63))

theorem wrap_of_fits {index len : Nat} {delta : Int} (hlen : len < 2 ^ 63) (hi : index < len)
    (hfits : FitsSigned (index + delta)) :
    wrap index delta len = .ok (onRing len (index + delta)) := by
  rw [wrap_eq delta (by omega) hlen hi]
  exact if_pos hfits

/-- On a ring of accepted size no step of 32 bits overflows. -/
theorem wrap_eq_onRing {index len : Nat} {delta : Int} (hlen : len ≤ 2 ^ 62) (hi : index < len)
    (hlow : -2 ^ 62 ≤ delta) (hhigh : delta < 2 ^ 62) :
    wrap index delta len = .ok (onRing len (index + delta)) :=
  wrap_of_fits (by omega) hi ⟨by omega, by omega⟩

/-- Steps shorter than a quarter of the signed range never overflow on a ring that is no longer. -/
theorem wrap_exists {index len : Nat} {delta : Int} (hlen : len ≤ 2 ^ 62)
    (hi : index < len) (hlow : -2 ^ 62 ≤ delta) (hhigh : delta < 2 ^ 62) :
    ∃ next, wrap index delta len = .ok next ∧ next < len :=
  ⟨_, wrap_eq_onRing hlen hi hlow hhigh, onRing_lt (by omega) _⟩

theorem signedMul_eq {a b : Int} (hlow : -2 ^ 63 ≤ a * b) (hhigh : a * b < 2 ^ 63) :
    signedMul a b = .ok (a * b) := if_pos ⟨hlow, hhigh⟩

end ThreadSoup
