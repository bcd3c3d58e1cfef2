import Mathlib.Data.List.Basic
import Mathlib.Tactic.Ring
import Mathlib.Tactic.Linarith

/-!
# `Lib.Bytes` — big-endian byte strings and 32-byte memory reads

`beBytes n v` writes a number on `n` bytes, most significant first; `ofBytes` reads it back if it is below
`256 ^ n`. Fixed-width fields laid end to end can so be told apart again, which is what makes packed encodings
injective.
-/

namespace ThunderBridge

abbrev Byte := BitVec 8

namespace Bytes

/-- The number a big-endian byte string denotes. -/
def ofBytes : List Byte → Nat
  | [] => 0
  | b :: bs => b.toNat * 256 ^ bs.length + ofBytes bs

/-- The low `n` bytes of a number, most significant first. -/
def beBytes : Nat → Nat → List Byte
  | 0, _ => []
  | n + 1, v => BitVec.ofNat 8 (v / 256 ^ n) :: beBytes n v

@[simp] theorem length_beBytes (n v : Nat) : (beBytes n v).length = n := by
  induction n with
  | zero => rfl
  | succ n ih => simp [beBytes, ih]

theorem ofBytes_beBytes (n v : Nat) : ofBytes (beBytes n v) = v % 256 ^ n := by
  induction n with
  | zero => simp [beBytes, ofBytes, Nat.mod_one]
  | succ n ih =>
      have hhead : (BitVec.ofNat 8 (v / 256 ^ n)).toNat = v / 256 ^ n % 256 := by
        simp [BitVec.toNat_ofNat]
      rw [beBytes, ofBytes, length_beBytes, ih, hhead, Nat.mod_pow_succ]
      ring

theorem ofBytes_append (xs ys : List Byte) :
    ofBytes (xs ++ ys) = ofBytes xs * 256 ^ ys.length + ofBytes ys := by
  induction xs with
  | nil => simp [ofBytes]
  | cons x xs ih =>
      rw [List.cons_append, ofBytes, ofBytes, ih, List.length_append]
      ring

/-- What is above the bytes written does not count. -/
theorem beBytes_mul_add (n k v : Nat) : beBytes n (k * 256 ^ n + v) = beBytes n v := by
  induction n generalizing k with
  | zero => rfl
  | succ n ih =>
      have hshift : k * 256 ^ (n + 1) + v = k * 256 * 256 ^ n + v := by ring
      have hhead : BitVec.ofNat 8 ((k * 256 * 256 ^ n + v) / 256 ^ n) = BitVec.ofNat 8 (v / 256 ^ n) := by
        have hpos : 0 < 256 ^ n := Nat.pow_pos (by decide)
        apply BitVec.eq_of_toNat_eq
        rw [Nat.add_comm, Nat.add_mul_div_right _ _ hpos, BitVec.toNat_ofNat, BitVec.toNat_ofNat]
        exact Nat.add_mul_mod_self_right _ _ _
      rw [hshift, beBytes, beBytes, ih, hhead]

theorem ofBytes_lt (bs : List Byte) : ofBytes bs < 256 ^ bs.length := by
  induction bs with
  | nil => simp [ofBytes]
  | cons b bs ih =>
      have hb : b.toNat < 256 := b.isLt
      rw [ofBytes, List.length_cons, Nat.pow_succ]
      nlinarith

/-- **Writing what was read** gives the bytes back. -/
theorem beBytes_ofBytes (bs : List Byte) : beBytes bs.length (ofBytes bs) = bs := by
  induction bs with
  | nil => rfl
  | cons b bs ih =>
      have hpos : 0 < 256 ^ bs.length := Nat.pow_pos (by decide)
      have hquot : (b.toNat * 256 ^ bs.length + ofBytes bs) / 256 ^ bs.length = b.toNat := by
        rw [Nat.add_comm, Nat.add_mul_div_right _ _ hpos, Nat.div_eq_of_lt (ofBytes_lt bs), Nat.zero_add]
      rw [List.length_cons, ofBytes, beBytes, hquot, beBytes_mul_add, ih, BitVec.ofNat_toNat]
      exact congrArg (· :: bs) (BitVec.setWidth_eq b)

/-! ## Words -/

/-- A word as `8 * n` bits on `n` bytes. -/
def ofWord {n : Nat} (v : BitVec (8 * n)) : List Byte := beBytes n v.toNat

@[simp] theorem length_ofWord {n : Nat} (v : BitVec (8 * n)) : (ofWord v).length = n :=
  length_beBytes _ _

theorem ofBytes_ofWord {n : Nat} (v : BitVec (8 * n)) : ofBytes (ofWord v) = v.toNat := by
  have hlt : v.toNat < 256 ^ n := by
    have := v.isLt
    rwa [Nat.pow_mul] at this
  rw [ofWord, ofBytes_beBytes, Nat.mod_eq_of_lt hlt]

theorem ofWord_injective {n : Nat} : Function.Injective (ofWord (n := n)) := by
  intro v v' h
  apply BitVec.eq_of_toNat_eq
  rw [← ofBytes_ofWord v, ← ofBytes_ofWord v', h]

/-- Bytes of the right number are the word they denote, written out. -/
theorem ofWord_ofBytes {n : Nat} {bs : List Byte} (hlen : bs.length = n) :
    ofWord (n := n) (BitVec.ofNat (8 * n) (ofBytes bs)) = bs := by
  have hlt : ofBytes bs < 2 ^ (8 * n) := by
    rw [Nat.pow_mul, ← hlen]
    exact ofBytes_lt bs
  rw [ofWord, BitVec.toNat_ofNat, Nat.mod_eq_of_lt hlt, ← hlen, beBytes_ofBytes]

/-- The 32-byte word at an offset of a memory area; bytes past its end read as zero. -/
def mload (mem : List Byte) (offset : Nat) : BitVec 256 :=
  BitVec.ofNat 256 (ofBytes (((mem.drop offset) ++ List.replicate 32 0).take 32))

/-- A read that falls inside the area is the number of those 32 bytes. -/
theorem mload_eq {mem pre word post : List Byte} (hmem : mem = pre ++ (word ++ post))
    (hword : word.length = 32) : mload mem pre.length = BitVec.ofNat 256 (ofBytes word) := by
  subst hmem
  rw [mload, List.drop_left, List.append_assoc, ← hword, List.take_left]

end Bytes
end ThunderBridge
