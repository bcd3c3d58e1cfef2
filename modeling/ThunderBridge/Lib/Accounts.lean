import Mathlib.Algebra.BigOperators.Group.List.Basic
import Mathlib.Algebra.Ring.Nat

/-!
# `Lib.Accounts` — balances, and the movements that explain them

A system with accounts and a supply, whose operations are recorded as movements. `Explains L made s s'` says that the
movements `made` are all that happened to the balances between two states: what every account has gained and lost,
and what was issued and retired. Movements made in a row explain what comes of both (`Explains.trans`).
-/

namespace ThunderBridge

/-- The accounts of a system, and what one movement does to them. -/
structure Accounts (σ μ α : Type*) where
  balance : σ → α → Nat
  supply : σ → Nat
  gain : μ → α → Nat
  loss : μ → α → Nat
  issued : μ → Nat
  retired : μ → Nat

namespace Accounts

variable {σ μ α : Type*}

/-- **The movements explain the balances and the supply.** -/
structure Explains (L : Accounts σ μ α) (made : List μ) (s s' : σ) : Prop where
  balance : ∀ a, L.balance s' a + (made.map fun m => L.loss m a).sum =
    L.balance s a + (made.map fun m => L.gain m a).sum
  supply : L.supply s' + (made.map L.retired).sum = L.supply s + (made.map L.issued).sum

variable {L : Accounts σ μ α} {made made' : List μ} {m : μ} {s s' s₁ s₂ s₃ : σ}

theorem Explains.refl (s : σ) : L.Explains [] s s := ⟨fun _ => rfl, rfl⟩

/-- One movement. -/
theorem Explains.single (hbalance : ∀ a, L.balance s' a + L.loss m a = L.balance s a + L.gain m a)
    (hsupply : L.supply s' + L.retired m = L.supply s + L.issued m) : L.Explains [m] s s' where
  balance a := by simpa using hbalance a
  supply := by simpa using hsupply

/-- The later movements come first. -/
theorem Explains.trans (h : L.Explains made s₁ s₂) (h' : L.Explains made' s₂ s₃) :
    L.Explains (made' ++ made) s₁ s₃ where
  balance a := by
    have hfirst := h.balance a
    have hthen := h'.balance a
    rw [List.map_append, List.sum_append, List.map_append, List.sum_append]
    omega
  supply := by
    have hfirst := h.supply
    have hthen := h'.supply
    rw [List.map_append, List.sum_append, List.map_append, List.sum_append]
    omega

end Accounts
end ThunderBridge
