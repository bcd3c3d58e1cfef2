import Mathlib.Algebra.BigOperators.Group.List.Basic
import Mathlib.Algebra.Order.BigOperators.Group.List
import Mathlib.Data.List.Perm.Subperm
import Mathlib.Data.List.Dedup
import Mathlib.Algebra.BigOperators.Ring.Finset
import ThunderBridge.Contracts.Evm

/-!
# `Contracts.Erc20` — a token as the bridges see it

`Erc20 W` reads a token off the state of its chain: balances and `Transfer` events. `Moves` is a transfer of
exactly the amount, to oneself included; `Elsewhere self` is anything that somebody other than `self` can do
to the token. Either way an account holds what was transferred to it less what it transferred away.

`tally` sums the amounts of records, and no record backs two of them (`tally_le_of_nodup`).
-/

namespace ThunderBridge

/-! ## Sums -/

section Tally

variable {α β : Type*}

/-- The sum of the amounts of some records. -/
def tally (amount : α → Nat) (records : List α) : Nat := (records.map amount).sum

@[simp] theorem tally_nil (amount : α → Nat) : tally amount [] = 0 := rfl

@[simp] theorem tally_cons (amount : α → Nat) (x : α) (xs : List α) :
    tally amount (x :: xs) = amount x + tally amount xs := by
  simp [tally]

@[simp] theorem tally_append (amount : α → Nat) (xs ys : List α) :
    tally amount (xs ++ ys) = tally amount xs + tally amount ys := by
  simp [tally]

theorem tally_map (amount : β → Nat) (f : α → β) (xs : List α) :
    tally amount (xs.map f) = tally (amount ∘ f) xs := by
  simp [tally]

theorem tally_perm {amount : α → Nat} {xs ys : List α} (h : xs.Perm ys) :
    tally amount xs = tally amount ys := (h.map amount).sum_eq

theorem tally_eq_zero_iff {amount : α → Nat} {xs : List α} :
    tally amount xs = 0 ↔ ∀ x ∈ xs, amount x = 0 := by
  unfold tally
  rw [List.sum_eq_zero_iff]
  simp

/-- Records with positive amounts come to the same without repetitions only if there are none. -/
theorem tally_dedup_eq_iff [DecidableEq α] {amount : α → Nat} : ∀ {xs : List α}, (∀ x ∈ xs, 0 < amount x) →
    (tally amount xs.dedup = tally amount xs ↔ xs.Nodup) := by
  intro xs
  induction xs with
  | nil => simp
  | cons x xs ih =>
      intro hpos
      have hrest := ih fun y hy => hpos y (List.mem_cons_of_mem x hy)
      by_cases hx : x ∈ xs
      · have hle : tally amount xs.dedup ≤ tally amount xs :=
          ((List.dedup_sublist xs).map amount).sum_le_sum fun _ _ => Nat.zero_le _
        have hgain := hpos x List.mem_cons_self
        rw [List.dedup_cons_of_mem hx, tally_cons]
        constructor
        · intro he
          omega
        · intro hnd
          exact absurd hx (List.nodup_cons.mp hnd).1
      · rw [List.dedup_cons_of_notMem hx, tally_cons, tally_cons, List.nodup_cons, Nat.add_left_cancel_iff, hrest]
        exact ⟨fun hnd => ⟨hx, hnd⟩, And.right⟩

/-- Distinct records among others come to no more than the others. -/
theorem tally_le_of_nodup {amount : α → Nat} {xs ys : List α} (hnd : xs.Nodup) (hsub : xs ⊆ ys) :
    tally amount xs ≤ tally amount ys := by
  obtain ⟨zs, hperm, hsublist⟩ := List.Nodup.subperm hnd hsub
  calc tally amount xs = tally amount zs := (hperm.map amount).sum_eq.symm
    _ ≤ tally amount ys := (hsublist.map amount).sum_le_sum fun _ _ => Nat.zero_le _

/-- Records sorted by a key come to the same. -/
theorem sum_tally_filter {κ : Type*} [Fintype κ] [DecidableEq κ] (amount : α → Nat) (key : α → κ)
    (p : α → Prop) [DecidablePred p] (xs : List α) :
    ∑ k, tally amount (xs.filter fun x => p x ∧ key x = k) = tally amount (xs.filter fun x => p x) := by
  induction xs with
  | nil => simp
  | cons x xs ih =>
      have hcons : ∀ k, tally amount ((x :: xs).filter fun x => p x ∧ key x = k) =
          (if p x ∧ key x = k then amount x else 0) + tally amount (xs.filter fun x => p x ∧ key x = k) := by
        intro k
        by_cases h : p x ∧ key x = k <;> simp [h]
      simp only [hcons, Finset.sum_add_distrib, ih]
      by_cases h : p x <;> simp [h]

end Tally

/-! ## Tokens -/

/-- A `Transfer` event, with the hash of its transaction. -/
structure Transfer where
  source : Address
  target : Address
  value : UInt256
  transactionHash : Bytes32
deriving DecidableEq, Repr

def Transfer.amount (t : Transfer) : Nat := t.value.toNat

/-- A token in the state of its chain. -/
structure Erc20 (W : Type) where
  balanceOf : W → Address → Nat
  /-- Newest first. -/
  transfers : W → List Transfer

namespace Erc20

variable {W : Type} (T : Erc20 W)

/-- The `Transfer` events to an account. -/
def transfersTo (w : W) (a : Address) : List Transfer := (T.transfers w).filter fun t => t.target = a

/-- Exactly `value` moves from `source` to `target`. -/
structure Moves (source target : Address) (value : UInt256) (w w' : W) : Prop where
  enough : value.toNat ≤ T.balanceOf w source
  balanceOf : ∀ a, T.balanceOf w' a =
    T.balanceOf w a - (if a = source then value.toNat else 0) + (if a = target then value.toNat else 0)
  transfers : ∃ transactionHash, T.transfers w' = ⟨source, target, value, transactionHash⟩ :: T.transfers w

/-- What others than `self` do to the token: transfers, or what does not touch `self`. -/
inductive Elsewhere (self : Address) (w w' : W) : Prop where
  | transfer (source target : Address) (value : UInt256) (hsource : source ≠ self)
      (h : T.Moves source target value w w')
  | other (hbalance : T.balanceOf w' self = T.balanceOf w self)
      (htransfers : T.transfersTo w' self = T.transfersTo w self)

variable {T} {w w' : W} {self source target : Address} {value : UInt256}

theorem Moves.transfersTo (h : T.Moves source target value w w') (a : Address) :
    ∃ new, T.transfersTo w' a = new ++ T.transfersTo w a ∧
      tally Transfer.amount new = if a = target then value.toNat else 0 := by
  obtain ⟨transactionHash, hlog⟩ := h.transfers
  by_cases ha : a = target
  · refine ⟨[⟨source, target, value, transactionHash⟩], ?_, ?_⟩
    · simp [Erc20.transfersTo, hlog, ha]
    · simp [ha, Transfer.amount]
  · refine ⟨[], ?_, ?_⟩
    · simp [Erc20.transfersTo, hlog, Ne.symm ha]
    · simp [ha]

/-- What an account holds after a transfer of its own: the events to it make up for a transfer to itself. -/
theorem Moves.own (h : T.Moves self target value w w') :
    T.balanceOf w' self + value.toNat + tally Transfer.amount (T.transfersTo w self) =
      T.balanceOf w self + tally Transfer.amount (T.transfersTo w' self) := by
  obtain ⟨new, hnew, htally⟩ := h.transfersTo self
  have henough := h.enough
  rw [hnew, tally_append, htally, h.balanceOf self, if_pos rfl]
  omega

/-- What an account holds after what others did. -/
theorem Elsewhere.held (h : T.Elsewhere self w w') :
    T.balanceOf w' self + tally Transfer.amount (T.transfersTo w self) =
      T.balanceOf w self + tally Transfer.amount (T.transfersTo w' self) := by
  cases h with
  | transfer source target value hsource h =>
      obtain ⟨new, hnew, htally⟩ := h.transfersTo self
      rw [hnew, tally_append, htally, h.balanceOf self, if_neg (Ne.symm hsource)]
      omega
  | other hbalance htransfers => rw [hbalance, htransfers]

theorem Elsewhere.suffix (h : T.Elsewhere self w w') : T.transfersTo w self <:+ T.transfersTo w' self := by
  cases h with
  | transfer source target value _ h =>
      obtain ⟨new, hnew, _⟩ := h.transfersTo self
      exact ⟨new, hnew.symm⟩
  | other _ htransfers => rw [htransfers]

end Erc20
end ThunderBridge
