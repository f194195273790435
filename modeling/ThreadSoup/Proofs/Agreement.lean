import ThreadSoup.Proofs.Fault

namespace ThreadSoup

variable {α β γ δ : Type}

/-- Two computations fail with the same fault or give related results. -/
inductive Agree (R : α → β → Prop) : Except Fault α → Except Fault β → Prop
  | ok {a : α} {b : β} : R a b → Agree R (.ok a) (.ok b)
  | error (e : Fault) : Agree R (.error e) (.error e)

theorem Agree.refl (x : Except Fault α) : Agree Eq x x := by
  cases x with
  | error e => exact Agree.error e
  | ok a => exact Agree.ok rfl

theorem Agree.mono {R S : α → β → Prop} {x : Except Fault α} {y : Except Fault β}
    (h : Agree R x y) (himp : ∀ a b, x = .ok a → y = .ok b → R a b → S a b) : Agree S x y := by
  cases h with
  | error e => exact Agree.error e
  | ok hr => exact Agree.ok (himp _ _ rfl rfl hr)

theorem Agree.bind {R : α → β → Prop} {S : γ → δ → Prop} {x : Except Fault α}
    {y : Except Fault β} {f : α → Except Fault γ} {g : β → Except Fault δ} (h : Agree R x y)
    (next : ∀ a b, R a b → Agree S (f a) (g b)) : Agree S (x >>= f) (y >>= g) := by
  cases h with
  | error e => exact Agree.error e
  | ok hr => exact next _ _ hr

theorem Agree.exists_left {R : α → β → Prop} {x : Except Fault α} {b : β}
    (h : Agree R x (.ok b)) : ∃ a, x = .ok a := by
  cases h with
  | ok hr => exact ⟨_, rfl⟩

theorem Agree.of_ok_left {R : α → β → Prop} {a : α} {y : Except Fault β}
    (h : Agree R (.ok a) y) : ∃ b, y = .ok b ∧ R a b := by
  cases h with
  | ok hr => exact ⟨_, rfl, hr⟩

/-- Two computations that agree with a third one agree with each other. -/
theorem Agree.join {R : α → γ → Prop} {S : β → γ → Prop} {x : Except Fault α}
    {y : Except Fault β} {z : Except Fault γ} (hx : Agree R x z) (hy : Agree S y z) :
    Agree (fun a b => ∃ c, R a c ∧ S b c) x y := by
  cases hx with
  | error e => cases hy with | error => exact Agree.error e
  | ok hr => cases hy with | ok hs => exact Agree.ok ⟨_, hr, hs⟩

theorem foldlM_agree {P : α → β → Prop} {R : γ → δ → Prop} {f : γ → α → Except Fault γ}
    {g : δ → β → Except Fault δ} {as : List α} {bs : List β} {c : γ} {d : δ}
    (hl : List.Forall₂ P as bs) (h : R c d)
    (step : ∀ c d a b, R c d → P a b → Agree R (f c a) (g d b)) :
    Agree R (as.foldlM f c) (bs.foldlM g d) := by
  induction hl generalizing c d with
  | nil => exact Agree.ok h
  | cons hp _ ih =>
    rw [List.foldlM_cons, List.foldlM_cons]
    exact (step _ _ _ _ h hp).bind fun _ _ hr => ih hr

theorem repeatTimes_agree {R : α → β → Prop} {f : α → Except Fault α} {g : β → Except Fault β}
    (step : ∀ a b, R a b → Agree R (f a) (g b)) (count : Nat) {a : α} {b : β} (h : R a b) :
    Agree R (repeatTimes f count a) (repeatTimes g count b) := by
  induction count generalizing a b with
  | zero => exact Agree.ok h
  | succ count ih => exact (step a b h).bind fun _ _ hr => ih hr

end ThreadSoup
