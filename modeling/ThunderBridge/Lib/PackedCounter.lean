import Mathlib.Data.Nat.Bitwise

/-!
# `Lib.PackedCounter` — a counter and a flag in one machine word

A word of width `w + 1` whose low `w` bits are a counter and whose top bit is a flag. Code that uses such
a word counts up while the flag is down and then raises it once; the lemmas say that the two parts do not
disturb one another as long as the counter stays below `2 ^ w`.
-/

namespace ThunderBridge
namespace PackedCounter

variable {w : Nat}

/-- The word with only the flag bit set. -/
def flag (w : Nat) : BitVec (w + 1) := BitVec.twoPow (w + 1) w

/-- The counter part: the low `w` bits. -/
def count (v : BitVec (w + 1)) : Nat := v.toNat % 2 ^ w

theorem toNat_flag : (flag w).toNat = 2 ^ w := by
  unfold flag
  rw [BitVec.toNat_twoPow_of_lt (Nat.lt_succ_self w)]

theorem count_lt (v : BitVec (w + 1)) : count v < 2 ^ w :=
  Nat.mod_lt _ (Nat.two_pow_pos w)

@[simp] theorem count_zero : count (0 : BitVec (w + 1)) = 0 := by
  simp [count]

/-- The usual test `v & flag = flag` reads the top bit. -/
theorem and_flag_eq_iff (v : BitVec (w + 1)) : v &&& flag w = flag w ↔ v.msb = true := by
  unfold flag
  rw [BitVec.and_twoPow, BitVec.msb_eq_getLsbD_last, Nat.add_sub_cancel]
  by_cases h : v.getLsbD w = true
  · rw [if_pos h]; exact ⟨fun _ => h, fun _ => rfl⟩
  · have hne : (0 : BitVec (w + 1)) ≠ BitVec.twoPow (w + 1) w := by
      intro he
      have := congrArg BitVec.toNat he
      rw [BitVec.toNat_twoPow_of_lt (Nat.lt_succ_self w)] at this
      simp only [BitVec.ofNat_eq_ofNat, BitVec.toNat_ofNat, Nat.zero_mod] at this
      exact absurd this.symm (Nat.two_pow_pos w).ne'
    rw [if_neg h]
    exact ⟨fun he => absurd he hne, fun he => absurd he h⟩

@[simp] theorem msb_or_flag (v : BitVec (w + 1)) : (v ||| flag w).msb = true := by
  unfold flag
  rw [BitVec.msb_or, BitVec.msb_twoPow]
  simp

@[simp] theorem count_or_flag (v : BitVec (w + 1)) : count (v ||| flag w) = count v := by
  unfold count
  rw [BitVec.toNat_or, toNat_flag, Nat.or_mod_two_pow, Nat.mod_self, Nat.or_zero]

theorem toNat_eq_count {v : BitVec (w + 1)} (h : v.msb = false) : v.toNat = count v := by
  have hlt : v.toNat < 2 ^ w := by
    by_contra hge
    rw [BitVec.msb_eq_decide] at h
    simp only [Nat.add_sub_cancel, decide_eq_false_iff_not] at h
    exact hge (Nat.lt_of_not_le h)
  exact (Nat.mod_eq_of_lt hlt).symm

/-- Counting up with the flag down: neither a wrap nor a carry into the flag below `2 ^ w`. -/
theorem toNat_succ {v : BitVec (w + 1)} (h : v.msb = false) (hlt : count v + 1 < 2 ^ w) :
    (v + 1).toNat = count v + 1 := by
  have hpow : 2 ^ w < 2 ^ (w + 1) := Nat.pow_lt_pow_right (by decide) (Nat.lt_succ_self w)
  have hone : (1 : BitVec (w + 1)).toNat = 1 := by
    simp only [BitVec.ofNat_eq_ofNat, BitVec.toNat_ofNat]
    exact Nat.mod_eq_of_lt (by omega)
  rw [BitVec.toNat_add, hone, toNat_eq_count h]
  exact Nat.mod_eq_of_lt (by omega)

theorem msb_succ {v : BitVec (w + 1)} (h : v.msb = false) (hlt : count v + 1 < 2 ^ w) :
    (v + 1).msb = false := by
  rw [BitVec.msb_eq_decide, toNat_succ h hlt]
  simpa using hlt

theorem count_succ {v : BitVec (w + 1)} (h : v.msb = false) (hlt : count v + 1 < 2 ^ w) :
    count (v + 1) = count v + 1 := by
  rw [count, toNat_succ h hlt, Nat.mod_eq_of_lt hlt]

end PackedCounter
end ThunderBridge
