import Mathlib.Algebra.Order.Ring.Int
import Mathlib.Data.List.Forall2
import ThreadSoup.Simulator.Basic

namespace ThreadSoup

variable {α β γ δ : Type}

@[simp] theorem ok_bind (a : α) (f : α → Except Fault β) : (Except.ok a >>= f) = f a := rfl

@[simp] theorem error_bind (e : Fault) (f : α → Except Fault β) :
    (Except.error e >>= f) = Except.error e := rfl

@[simp] theorem pure_eq (a : α) : (pure a : Except Fault α) = Except.ok a := rfl

theorem bind_eq_ok {x : Except Fault α} {f : α → Except Fault β} {b : β} :
    x >>= f = .ok b ↔ ∃ a, x = .ok a ∧ f a = .ok b := by
  cases x with
  | error e => simp
  | ok a => simp

theorem map_eq_ok {ε : Type} {f : α → β} {x : Except ε α} {b : β} :
    x.map f = .ok b ↔ ∃ a, x = .ok a ∧ f a = b := by
  cases x with
  | error e => simp [Except.map]
  | ok a => simp [Except.map]

/-- The fold of a step that takes one member of the list off an invariant keeps the invariant. -/
theorem foldlM_preserves {P : List α → β → Prop} {f : β → α → Except Fault β}
    (step : ∀ a rest b c, P (a :: rest) b → f b a = .ok c → P rest c)
    {list : List α} {b c : β} (hb : P list b) (h : list.foldlM f b = .ok c) : P [] c := by
  induction list generalizing b with
  | nil => cases h; exact hb
  | cons a rest ih =>
    rw [List.foldlM_cons] at h
    obtain ⟨d, hd, h⟩ := bind_eq_ok.mp h
    exact ih (step a rest b d hb hd) h

theorem foldlM_exists {P : List α → β → Prop} {f : β → α → Except Fault β}
    (step : ∀ a rest b, P (a :: rest) b → ∃ c, f b a = .ok c ∧ P rest c)
    (list : List α) {b : β} (hb : P list b) : ∃ c, list.foldlM f b = .ok c ∧ P [] c := by
  induction list generalizing b with
  | nil => exact ⟨b, rfl, hb⟩
  | cons a rest ih =>
    obtain ⟨d, hd, hp⟩ := step a rest b hb
    obtain ⟨c, hc, hq⟩ := ih hp
    exact ⟨c, by rw [List.foldlM_cons, hd, ok_bind, hc], hq⟩

theorem repeatTimes_preserves {P : α → Prop} {f : α → Except Fault α}
    (step : ∀ a b, P a → f a = .ok b → P b) {count : Nat} {a b : α} (ha : P a)
    (h : repeatTimes f count a = .ok b) : P b := by
  induction count generalizing a with
  | zero => cases h; exact ha
  | succ count ih =>
    obtain ⟨middle, hm, h⟩ := bind_eq_ok.mp h
    exact ih (step a middle ha hm) h

theorem repeatTimes_add (f : α → Except Fault α) (m n : Nat) (a : α) :
    repeatTimes f (m + n) a = repeatTimes f m a >>= repeatTimes f n := by
  induction m generalizing a with
  | zero => simp [repeatTimes]
  | succ m ih =>
    rw [show m + 1 + n = m + n + 1 by omega, repeatTimes, repeatTimes]
    cases f a with
    | error e => rfl
    | ok b => exact ih b

end ThreadSoup
