import Mathlib.Algebra.BigOperators.Ring.Finset
import ThunderBridge.Lib.Calls

/-!
# `Lib.Vault` — a reserve and the payouts that may lower it

A system that holds a reserve and keeps a list of approved payouts, newest first. `Loses V n s s'` says that
between two states the reserve lost no more than the payouts approved in between, and `n`: the loss of one part of a
transition, not yet approved. Losses of parts add up (`Loses.trans`), and an approval makes up for what was paid
before it (`Loses.approve`). A transition that is complete is `Covered`.

`Custody` says it of a system: whatever was paid out is approved, and nothing but payouts lowers the reserve. An
invariant that implies the approvals, and the cover of each step, give it (`Custody.of_invariant`).
-/

namespace ThunderBridge

/-- What a system holds, and what it approved to pay. -/
structure Vault (σ α : Type*) where
  held : σ → Nat
  payouts : σ → List α
  amount : α → Nat

namespace Vault

variable {σ α : Type*} {V : Vault σ α} {s s' s₁ s₂ s₃ : σ} {n m : Nat}

/-- The reserve lost at most the payouts in between, and `n`. -/
def Loses (V : Vault σ α) (n : Nat) (s s' : σ) : Prop :=
  ∃ new, V.payouts s' = new ++ V.payouts s ∧ V.held s ≤ V.held s' + (new.map V.amount).sum + n

/-- Whatever the reserve lost was approved. -/
abbrev Covered (V : Vault σ α) : σ → σ → Prop := V.Loses 0

/-- No payout, and a loss of at most `n`. -/
theorem Loses.of_held (hpayouts : V.payouts s' = V.payouts s) (hheld : V.held s ≤ V.held s' + n) :
    V.Loses n s s' :=
  ⟨[], hpayouts, hheld⟩

/-- What neither pays nor touches the reserve. -/
theorem Loses.of_same (hpayouts : V.payouts s' = V.payouts s) (hheld : V.held s' = V.held s) : V.Covered s s' :=
  .of_held hpayouts (Nat.le_of_eq hheld.symm)

theorem Covered.refl (s : σ) : V.Covered s s := .of_same rfl rfl

theorem Loses.mono (h : V.Loses n s s') (hle : n ≤ m) : V.Loses m s s' := by
  obtain ⟨new, hnew, hheld⟩ := h
  exact ⟨new, hnew, by omega⟩

theorem Loses.trans (h : V.Loses n s₁ s₂) (h' : V.Loses m s₂ s₃) : V.Loses (n + m) s₁ s₃ := by
  obtain ⟨new, hnew, hheld⟩ := h
  obtain ⟨new', hnew', hheld'⟩ := h'
  refine ⟨new' ++ new, ?_, ?_⟩
  · rw [hnew', hnew, List.append_assoc]
  · rw [List.map_append, List.sum_append]
    omega

theorem Covered.trans (h : V.Covered s₁ s₂) (h' : V.Covered s₂ s₃) : V.Covered s₁ s₃ := Loses.trans h h'

/-- A covered part before or after adds no loss. -/
theorem Covered.then (h : V.Covered s₁ s₂) (h' : V.Loses n s₂ s₃) : V.Loses n s₁ s₃ :=
  (Loses.trans h h').mono (Nat.le_of_eq (Nat.zero_add n))

theorem Loses.then (h : V.Loses n s₁ s₂) (h' : V.Covered s₂ s₃) : V.Loses n s₁ s₃ := Loses.trans h h'

/-- **An approval** of what was lost. -/
theorem Loses.approve {x : α} (h : V.Loses (V.amount x) s₁ s₂) (hpayouts : V.payouts s₃ = x :: V.payouts s₂)
    (hheld : V.held s₃ = V.held s₂) : V.Covered s₁ s₃ := by
  obtain ⟨new, hnew, hle⟩ := h
  refine ⟨x :: new, ?_, ?_⟩
  · rw [hpayouts, hnew, List.cons_append]
  · rw [hheld, List.map_cons, List.sum_cons]
    omega

/-- **Without a payout** the reserve is not lowered. -/
theorem Covered.held_le (h : V.Covered s s') (hnone : V.payouts s' = V.payouts s) : V.held s ≤ V.held s' := by
  obtain ⟨new, hnew, hheld⟩ := h
  rw [hnone] at hnew
  have hnil : new = [] := List.append_cancel_right (hnew.symm.trans (List.nil_append _).symm)
  rw [hnil] at hheld
  exact hheld

/-! ## Systems -/

/-- **Custody**: of the runs of `step` from a `start`, and of the calls made on the way. -/
structure Custody (V : Vault σ α) (start : σ → Prop) (step : σ → σ → Prop) (call : Nat → σ → σ → Prop)
    (approved : σ → α → Prop) : Prop where
  /-- Every payout is approved. -/
  approved : ∀ s₀ s, start s₀ → Relation.ReflTransGen step s₀ s → ∀ x ∈ V.payouts s, approved s x
  /-- However the run goes on, the reserve loses no more than is paid out. -/
  covered : ∀ s₀ s s', start s₀ → Relation.ReflTransGen step s₀ s → Relation.ReflTransGen step s s' → V.Covered s s'
  /-- Nor in a call, whatever state it is made in and whatever calls it makes. -/
  calls : ∀ n s s', call n s s' → V.Covered s s'

theorem Custody.of_invariant {start P : σ → Prop} {step : σ → σ → Prop} {call : Nat → σ → σ → Prop}
    {approved : σ → α → Prop} (hstart : ∀ s, start s → P s) (hkeep : ∀ s s', P s → step s s' → P s')
    (happroved : ∀ s, P s → ∀ x ∈ V.payouts s, approved s x) (hstep : ∀ s s', step s s' → V.Covered s s')
    (hcalls : ∀ n s s', call n s s' → V.Covered s s') : V.Custody start step call approved where
  approved s₀ s h₀ hrun := happroved s (Calls.steps_invariant hkeep hrun (hstart s₀ h₀))
  covered _ _ _ _ _ hrun := Calls.steps_rel Covered.refl (fun _ _ _ => Covered.trans) hstep hrun
  calls := hcalls

end Vault
end ThunderBridge
