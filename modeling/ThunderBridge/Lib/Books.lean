import ThunderBridge.Lib.Calls
import Mathlib.Algebra.Order.Group.Nat

/-!
# `Lib.Books` — assets and debts that change together

A system that is to keep its debts covered by its assets. `Short B n s s'` says that between two states the books
fell short by at most `n`: the part of a transition that pays before it is accounted for, or owes before it is
paid. Shortfalls of parts add up (`Short.trans`); what makes up for one is another part (`Short.settle`). A
transition that is complete is `Kept`, and a run of such transitions keeps a solvent system solvent.

`Lib.Vault` counts what a reserve paid out. Here both sides count: a debt may grow if an asset does.
-/

namespace ThunderBridge

/-- What a system has, and what it owes. -/
structure Books (σ : Type*) where
  assets : σ → Nat
  debts : σ → Nat

namespace Books

variable {σ : Type*} {B : Books σ} {s s' s₁ s₂ s₃ : σ} {n m : Nat}

/-- The books fell short by at most `n`. -/
def Short (B : Books σ) (n : Nat) (s s' : σ) : Prop :=
  B.assets s + B.debts s' ≤ B.assets s' + B.debts s + n

/-- Whatever was added to the debts, or taken from the assets, was made up for. -/
abbrev Kept (B : Books σ) : σ → σ → Prop := B.Short 0

theorem Short.of_same (hassets : B.assets s' = B.assets s) (hdebts : B.debts s' = B.debts s) : B.Kept s s' := by
  show B.assets s + B.debts s' ≤ B.assets s' + B.debts s + 0
  rw [hassets, hdebts]
  exact Nat.le_add_right _ _

theorem Kept.refl (s : σ) : B.Kept s s := .of_same rfl rfl

theorem Short.mono (h : B.Short n s s') (hle : n ≤ m) : B.Short m s s' := by
  unfold Short at h ⊢
  omega

theorem Short.trans (h : B.Short n s₁ s₂) (h' : B.Short m s₂ s₃) : B.Short (n + m) s₁ s₃ := by
  unfold Short at h h' ⊢
  omega

theorem Kept.trans (h : B.Kept s₁ s₂) (h' : B.Kept s₂ s₃) : B.Kept s₁ s₃ := Short.trans h h'

/-- **A shortfall is settled** by what enters the books afterwards. -/
theorem Short.settle (h : B.Short n s₁ s₂) (hgain : B.assets s₂ + n + B.debts s₃ ≤ B.assets s₃ + B.debts s₂) :
    B.Kept s₁ s₃ := by
  unfold Short at h
  show B.assets s₁ + B.debts s₃ ≤ B.assets s₃ + B.debts s₁ + 0
  omega

/-! ## Solvency -/

/-- The assets cover the debts. -/
def Solvent (B : Books σ) (s : σ) : Prop := B.debts s ≤ B.assets s

theorem Solvent.kept (h : B.Solvent s) (hkept : B.Kept s s') : B.Solvent s' := by
  have hbooks : B.assets s + B.debts s' ≤ B.assets s' + B.debts s + 0 := hkept
  unfold Solvent at h ⊢
  omega

/-- **A system whose steps keep the books stays solvent.** -/
theorem Solvent.run {step : σ → σ → Prop} (hstep : ∀ s s', step s s' → B.Kept s s') (h : B.Solvent s)
    (hrun : Relation.ReflTransGen step s s') : B.Solvent s' :=
  Calls.steps_invariant (P := B.Solvent) (fun _ _ hs hstep' => hs.kept (hstep _ _ hstep')) hrun h

end Books
end ThunderBridge
