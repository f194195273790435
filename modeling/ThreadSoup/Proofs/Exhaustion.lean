import ThreadSoup.Proofs.Setup
import ThreadSoup.Proofs.Time

namespace ThreadSoup

section OnlyExhausts

variable {α β : Type}

/-- Only a random source without a number can keep a computation from its result. -/
def OnlyExhausts (x : Except Fault α) : Prop := ∀ fault, x = .error fault → fault = .exhausted

theorem OnlyExhausts.bind {x : Except Fault α} {f : α → Except Fault β} (hx : OnlyExhausts x)
    (hf : ∀ a, x = .ok a → OnlyExhausts (f a)) : OnlyExhausts (x >>= f) := by
  intro fault h
  cases x with
  | error e => cases h; exact hx _ rfl
  | ok a => exact hf a rfl fault h

end OnlyExhausts

namespace Simulator

variable {σ : Type} {layout : Layout} {births cycles : Nat} {sim : Simulator σ}

variable [RandomSource σ]

variable [LawfulRandomSource σ]

end Simulator

end ThreadSoup
