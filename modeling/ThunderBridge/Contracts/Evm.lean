import ThunderBridge.Lib.Digest
import Mathlib.Data.Nat.Basic
import Mathlib.Data.Fintype.Card

/-!
# `Contracts.Evm` — words, `require` and `SafeMath`

The value types the contracts share and the two ways a transaction can stop. A function of a contract is a
Lean function into `Option`: `none` is a transaction that reverts (a failed `require`, a failed `assert`,
a call that itself reverted), so it leaves the state before it untouched.

`SafeMath` is the repository's own library (`libraries/SafeMath.sol`), over 256-bit words.
-/

namespace ThunderBridge

abbrev UInt256 := BitVec 256
abbrev Bytes32 := BitVec 256
abbrev Address := BitVec 160
abbrev Bytes := List Byte

/-- `require(p)` and `assert(p)`: a false condition reverts the transaction. -/
def require (p : Prop) [Decidable p] : Option Unit := if p then some () else none

@[simp] theorem require_eq_some {p : Prop} [Decidable p] {u : Unit} : require p = some u ↔ p := by
  unfold require
  by_cases h : p <;> simp [h]

theorem require_pos {p : Prop} [Decidable p] (h : p) : require p = some () := if_pos h

/-- `if (amount != 0) f`, in a transaction. -/
def whenNonzero {S : Type} (amount : UInt256) (f : S → Option S) (s : S) : Option S :=
  if amount ≠ 0 then f s else some s

/-! ## `abi.encodePacked` -/

def packAddress (a : Address) : Bytes := Bytes.ofWord (n := 20) a

def packWord (v : UInt256) : Bytes := Bytes.ofWord (n := 32) v

@[simp] theorem length_packAddress (a : Address) : (packAddress a).length = 20 := Bytes.length_ofWord _

@[simp] theorem length_packWord (v : UInt256) : (packWord v).length = 32 := Bytes.length_ofWord _

theorem packAddress_injective : Function.Injective packAddress :=
  fun _ _ h => Bytes.ofWord_injective (n := 20) h

theorem packWord_injective : Function.Injective packWord :=
  fun _ _ h => Bytes.ofWord_injective (n := 32) h

/-- There are only so many addresses. -/
theorem length_le_of_nodup {as : List Address} (h : as.Nodup) : as.length ≤ 2 ^ 160 := by
  have hinj : Function.Injective (BitVec.toFin : Address → Fin (2 ^ 160)) :=
    fun _ _ he => BitVec.eq_of_toFin_eq he
  have hcard := (h.map hinj).length_le_card
  rwa [List.length_map, Fintype.card_fin] at hcard

/-- Of more distinct addresses than a set has, one lies outside. -/
theorem exists_notMem_of_card_lt {as : List Address} {D : Finset Address} (h : as.Nodup)
    (hlt : D.card < as.length) : ∃ a ∈ as, a ∉ D := by
  by_contra hall
  push Not at hall
  have hsub : as.toFinset ⊆ D := fun a ha => hall a (List.mem_toFinset.mp ha)
  have hle := Finset.card_le_card hsub
  rw [List.toFinset_card_of_nodup h] at hle
  exact absurd hlt (Nat.not_lt.mpr hle)

/-! ## Words of time and checked arithmetic -/

/-- A day of block time, in seconds (`1 days`). -/
def days : UInt256 := 86400

namespace SafeMath

def mul (a b : UInt256) : Option UInt256 :=
  if a = 0 then some 0
  else do
    let c := a * b
    require (c / a = b)
    pure c

/-- Solidity itself stops on a division by zero. -/
def div (a b : UInt256) : Option UInt256 := do
  require (b ≠ 0)
  pure (a / b)

def sub (a b : UInt256) : Option UInt256 := do
  require (b ≤ a)
  pure (a - b)

def add (a b : UInt256) : Option UInt256 := do
  let c := a + b
  require (a ≤ c)
  pure c

/-! ## What each operation computes, as numbers -/

theorem add_eq_some {a b c : UInt256} : add a b = some c ↔ c.toNat = a.toNat + b.toNat := by
  have ha := a.isLt; have hb := b.isLt; have hc := c.isLt
  simp only [add, Option.bind_eq_bind, Option.bind_eq_some_iff, require_eq_some, exists_const,
    Option.pure_def, Option.some.injEq, BitVec.le_def,
    ← BitVec.toNat_inj, BitVec.toNat_add]
  omega

theorem sub_eq_some {a b c : UInt256} : sub a b = some c ↔ c.toNat + b.toNat = a.toNat := by
  have ha := a.isLt; have hb := b.isLt; have hc := c.isLt
  simp only [sub, Option.bind_eq_bind, Option.bind_eq_some_iff, require_eq_some, exists_const,
    Option.pure_def, Option.some.injEq, BitVec.le_def,
    ← BitVec.toNat_inj, BitVec.toNat_sub]
  omega

theorem div_eq_some {a b c : UInt256} :
    div a b = some c ↔ 0 < b.toNat ∧ c.toNat = a.toNat / b.toNat := by
  simp only [div, Option.bind_eq_bind, Option.bind_eq_some_iff, require_eq_some, exists_const,
    Option.pure_def, Option.some.injEq, ne_eq,
    ← BitVec.toNat_inj, BitVec.toNat_udiv]
  simp only [BitVec.ofNat_eq_ofNat, BitVec.toNat_ofNat, Nat.zero_mod]
  constructor
  · rintro ⟨h, he⟩; exact ⟨Nat.pos_of_ne_zero h, he.symm⟩
  · rintro ⟨h, he⟩; exact ⟨Nat.pos_iff_ne_zero.mp h, he.symm⟩

theorem mul_eq_some {a b c : UInt256} : mul a b = some c ↔ c.toNat = a.toNat * b.toNat := by
  have hc := c.isLt
  unfold mul
  by_cases h0 : a = 0
  · subst h0
    simp [← BitVec.toNat_inj, eq_comm]
  · have hpos : 0 < a.toNat := Nat.pos_of_ne_zero fun h => h0 (BitVec.eq_of_toNat_eq (by simpa using h))
    simp only [h0, if_false, Option.bind_eq_bind, Option.bind_eq_some_iff, require_eq_some, exists_const,
    Option.pure_def, Option.some.injEq,
      ← BitVec.toNat_inj, BitVec.toNat_udiv, BitVec.toNat_mul]
    constructor
    · rintro ⟨hdiv, hmod⟩
      rw [← hmod]
      -- the quotient gives back `b` only when nothing was cut off
      have hle : a.toNat * b.toNat ≤ a.toNat * b.toNat % 2 ^ 256 := by
        calc a.toNat * b.toNat = a.toNat * (a.toNat * b.toNat % 2 ^ 256 / a.toNat) := by rw [hdiv]
          _ ≤ a.toNat * b.toNat % 2 ^ 256 := Nat.mul_div_le _ _
      exact Nat.le_antisymm (Nat.mod_le _ _) hle
    · intro he
      have hlt : a.toNat * b.toNat < 2 ^ 256 := he ▸ hc
      rw [Nat.mod_eq_of_lt hlt]
      exact ⟨Nat.mul_div_cancel_left _ hpos, he.symm⟩

end SafeMath
end ThunderBridge
