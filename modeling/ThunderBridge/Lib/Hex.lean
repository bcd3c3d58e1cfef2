import ThunderBridge.Lib.Bytes

/-!
# `Lib.Hex` — bytes written as hexadecimal digits

`encode` writes two lower-case digits for each byte, high half first; `decode` and `parse` read digits of
either case. Two digits make a byte, so cutting a written string at an even place cuts the bytes, and that is
all a reader with fixed offsets needs (`encode_append`, `length_encode`).
-/

namespace ThunderBridge
namespace Hex

def digits : List Char :=
  ['0', '1', '2', '3', '4', '5', '6', '7', '8', '9', 'a', 'b', 'c', 'd', 'e', 'f']

/-- The digit of a number below 16. -/
def digit (n : Nat) : Char := digits.getD n '0'

/-- The number a digit stands for. -/
def value (c : Char) : Option Nat := digits.findIdx? (· = c.toLower)

/-- The two digits of a byte. -/
def pair (b : Byte) : List Char := [digit (b.toNat / 16), digit (b.toNat % 16)]

def encode : List Byte → List Char
  | [] => []
  | b :: bs => pair b ++ encode bs

/-- Two digits for each byte; `none` on anything else. -/
def decode : List Char → Option (List Byte)
  | [] => some []
  | [_] => none
  | c :: c' :: cs => do
      let high ← value c
      let low ← value c'
      let bs ← decode cs
      pure (BitVec.ofNat 8 (16 * high + low) :: bs)

/-- The number the leading digits of a string denote, read on from `n`. -/
def parseFrom (n : Nat) : List Char → Nat
  | [] => n
  | c :: cs =>
      match value c with
      | some d => parseFrom (16 * n + d) cs
      | none => n

/-- The number that digits of base `b` denote, read on from `n`; `none` on anything else. -/
def numberFrom (b n : Nat) : List Char → Option Nat
  | [] => some n
  | c :: cs => do
      let d ← value c
      if d < b then numberFrom b (b * n + d) cs else none

/-- The number a string of digits of base `b` denotes. -/
def number (b : Nat) (cs : List Char) : Option Nat := numberFrom b 0 cs

/-- A number in digits of base 16, without leading zeros. -/
def numeral (n : Nat) : List Char :=
  if n < 16 then [digit n] else numeral (n / 16) ++ [digit (n % 16)]

/-! ## Reading what was written -/

theorem value_digit {n : Nat} (h : n < 16) : value (digit n) = some n := by
  have hall : ∀ k ∈ List.range 16, value (digit k) = some k := by decide
  exact hall n (List.mem_range.mpr h)

theorem halves (b : Byte) : 16 * (b.toNat / 16) + b.toNat % 16 = b.toNat := Nat.div_add_mod _ _

theorem high_lt (b : Byte) : b.toNat / 16 < 16 := by
  have hb : b.toNat < 256 := b.isLt
  omega

theorem low_lt (b : Byte) : b.toNat % 16 < 16 := Nat.mod_lt _ (by decide)

/-- **A written string reads back** as the bytes it was written from. -/
theorem decode_encode (bs : List Byte) : decode (encode bs) = some bs := by
  induction bs with
  | nil => rfl
  | cons b bs ih =>
      show decode (digit (b.toNat / 16) :: digit (b.toNat % 16) :: encode bs) = _
      have hbyte : BitVec.ofNat 8 (16 * (b.toNat / 16) + b.toNat % 16) = b := by
        rw [halves, BitVec.ofNat_toNat]
        exact BitVec.setWidth_eq b
      simp only [decode, value_digit (high_lt b), value_digit (low_lt b), ih, Option.bind_eq_bind,
        Option.bind_some, Option.pure_def, hbyte]

theorem parseFrom_pair (b : Byte) : parseFrom 0 (pair b) = b.toNat := by
  have hhalves := halves b
  simp only [pair, parseFrom, value_digit (high_lt b), value_digit (low_lt b)]
  omega

@[simp] theorem length_encode (bs : List Byte) : (encode bs).length = 2 * bs.length := by
  induction bs with
  | nil => rfl
  | cons b bs ih =>
      have hpair : (pair b).length = 2 := rfl
      rw [encode, List.length_append, hpair, ih, List.length_cons]
      omega

theorem encode_append (xs ys : List Byte) : encode (xs ++ ys) = encode xs ++ encode ys := by
  induction xs with
  | nil => rfl
  | cons x xs ih => rw [List.cons_append, encode, encode, ih, List.append_assoc]

theorem encode_injective : Function.Injective encode := by
  intro xs ys h
  have hdecode := congrArg decode h
  rw [decode_encode, decode_encode] at hdecode
  exact Option.some.inj hdecode

/-- Cutting a written string at an even place. -/
theorem take_encode (k : Nat) (bs : List Byte) : (encode bs).take (2 * k) = encode (bs.take k) := by
  induction bs generalizing k with
  | nil => rw [encode, List.take_nil, List.take_nil, encode]
  | cons b bs ih =>
      cases k with
      | zero => rfl
      | succ k =>
          show pair b ++ (encode bs).take (2 * k) = _
          rw [ih, List.take_succ_cons, encode]

theorem drop_encode (k : Nat) (bs : List Byte) : (encode bs).drop (2 * k) = encode (bs.drop k) := by
  induction bs generalizing k with
  | nil => rw [encode, List.drop_nil, List.drop_nil, encode]
  | cons b bs ih =>
      cases k with
      | zero => rfl
      | succ k =>
          show (encode bs).drop (2 * k) = _
          rw [ih, List.drop_succ_cons]

/-! ## Cutting and joining strings of digits -/

theorem decode_length : ∀ {cs : List Char} {bs : List Byte}, decode cs = some bs → cs.length = 2 * bs.length := by
  intro cs
  induction cs using decode.induct with
  | case1 =>
      intro bs h
      obtain rfl : [] = bs := Option.some.inj h
      rfl
  | case2 c => intro bs h; cases h
  | case3 c c' cs ih =>
      intro bs h
      simp only [decode, Option.bind_eq_bind, Option.bind_eq_some_iff, Option.pure_def, Option.some.injEq] at h
      obtain ⟨_, _, _, _, bs', hbs', rfl⟩ := h
      rw [List.length_cons, List.length_cons, ih hbs', List.length_cons]
      omega

theorem decode_append : ∀ {cs : List Char} {bs : List Byte} {ds : List Char} {es : List Byte},
    decode cs = some bs → decode ds = some es → decode (cs ++ ds) = some (bs ++ es) := by
  intro cs
  induction cs using decode.induct with
  | case1 =>
      intro bs ds es h hds
      obtain rfl : [] = bs := Option.some.inj h
      exact hds
  | case2 c => intro bs ds es h _; cases h
  | case3 c c' cs ih =>
      intro bs ds es h hds
      simp only [decode, Option.bind_eq_bind, Option.bind_eq_some_iff, Option.pure_def, Option.some.injEq] at h
      obtain ⟨high, hhigh, low, hlow, bs', hbs', rfl⟩ := h
      simp only [List.cons_append, decode, hhigh, hlow, ih hbs' hds, Option.bind_eq_bind, Option.bind_some,
        Option.pure_def]

/-- **Cutting after two digits for each byte** cuts the bytes. -/
theorem decode_take_drop : ∀ {k : Nat} {cs : List Char} {bs : List Byte}, decode cs = some bs →
    decode (cs.take (2 * k)) = some (bs.take k) ∧ decode (cs.drop (2 * k)) = some (bs.drop k) := by
  intro k
  induction k with
  | zero =>
      intro cs bs h
      exact ⟨rfl, h⟩
  | succ k ih =>
      intro cs bs h
      match cs, h with
      | [], h =>
          obtain rfl : [] = bs := Option.some.inj h
          exact ⟨rfl, rfl⟩
      | c :: c' :: cs, h =>
          simp only [decode, Option.bind_eq_bind, Option.bind_eq_some_iff, Option.pure_def, Option.some.injEq] at h
          obtain ⟨high, hhigh, low, hlow, bs', hbs', rfl⟩ := h
          obtain ⟨htake, hdrop⟩ := ih hbs'
          refine ⟨?_, hdrop⟩
          show decode (c :: c' :: cs.take (2 * k)) = _
          simp only [decode, hhigh, hlow, htake, Option.bind_eq_bind, Option.bind_some, Option.pure_def,
            List.take_succ_cons]

/-! ## Strings of digits as numbers -/

theorem numberFrom_append {b n m : Nat} : ∀ {cs ds : List Char}, numberFrom b n cs = some m →
    numberFrom b n (cs ++ ds) = numberFrom b m ds := by
  intro cs
  induction cs generalizing n with
  | nil =>
      intro ds h
      obtain rfl : n = m := Option.some.inj h
      rfl
  | cons c cs ih =>
      intro ds h
      simp only [numberFrom, Option.bind_eq_bind, Option.bind_eq_some_iff] at h
      obtain ⟨d, hd, h⟩ := h
      simp only [List.cons_append, numberFrom, hd, Option.bind_eq_bind, Option.bind_some]
      split
      · rename_i hlt
        rw [if_pos hlt] at h
        exact ih h
      · rename_i hge
        rw [if_neg hge] at h
        cases h

theorem number_numeral (n : Nat) : number 16 (numeral n) = some n := by
  induction n using Nat.strongRecOn with
  | ind n ih =>
      unfold numeral
      split
      · rename_i hlt
        simp [number, numberFrom, value_digit hlt, hlt]
      · rename_i hge
        have hsmaller : n / 16 < n := Nat.div_lt_self (by omega) (by omega)
        have hlow : n % 16 < 16 := Nat.mod_lt _ (by decide)
        have hhigh := ih (n / 16) hsmaller
        rw [number] at hhigh ⊢
        rw [numberFrom_append hhigh]
        simp [numberFrom, value_digit hlow, hlow, Nat.div_add_mod]

/-- Leading zeros do not count. -/
theorem number_replicate_append (k : Nat) (cs : List Char) :
    number 16 (List.replicate k '0' ++ cs) = number 16 cs := by
  induction k with
  | zero => rfl
  | succ k ih =>
      have hzero : value '0' = some 0 := by decide
      rw [List.replicate_succ, List.cons_append]
      simpa [number, numberFrom, hzero] using ih

theorem length_numeral_le {n k : Nat} (hk : 0 < k) (h : n < 16 ^ k) : (numeral n).length ≤ k := by
  induction k generalizing n with
  | zero => omega
  | succ k ih =>
      unfold numeral
      split
      · simp
      · rename_i hge
        have hpos : 0 < k := by
          by_contra hzero
          obtain rfl : k = 0 := by omega
          omega
        have hdiv : n / 16 < 16 ^ k := by
          rw [Nat.div_lt_iff_lt_mul (by decide), ← Nat.pow_succ]
          exact h
        rw [List.length_append, List.length_singleton]
        exact Nat.succ_le_succ (ih hpos hdiv)

/-- **The bytes of a string of digits** are those of the number it denotes. -/
theorem decode_of_number : ∀ {m : Nat} {cs : List Char} {n acc : Nat}, cs.length = 2 * m →
    numberFrom 16 acc cs = some n → ∃ bs, decode cs = some bs ∧ bs.length = m ∧
      n = acc * 256 ^ m + Bytes.ofBytes bs := by
  intro m
  induction m with
  | zero =>
      intro cs n acc hlen h
      obtain rfl := List.length_eq_zero_iff.mp hlen
      obtain rfl : acc = n := Option.some.inj h
      exact ⟨[], rfl, rfl, by simp [Bytes.ofBytes]⟩
  | succ m ih =>
      intro cs n acc hlen h
      -- two digits more for one byte more
      obtain ⟨c, c', cs, rfl⟩ : ∃ c c' ds, cs = c :: c' :: ds := by
        cases cs with
        | nil => simp at hlen
        | cons c cs =>
            cases cs with
            | nil =>
                simp only [List.length_singleton] at hlen
                omega
            | cons c' cs => exact ⟨c, c', cs, rfl⟩
      simp only [numberFrom, Option.bind_eq_bind, Option.bind_eq_some_iff] at h
      obtain ⟨high, hhigh, h⟩ := h
      split at h
      · rename_i hhigh16
        rw [Option.bind_eq_some_iff] at h
        obtain ⟨low, hlow, h⟩ := h
        split at h
        · rename_i hlow16
          have hlen' : cs.length = 2 * m := by
            simp only [List.length_cons] at hlen
            omega
          obtain ⟨bs, hbs, hm, hn⟩ := ih hlen' h
          refine ⟨BitVec.ofNat 8 (16 * high + low) :: bs, ?_, ?_, ?_⟩
          · simp only [decode, hhigh, hlow, hbs, Option.bind_eq_bind, Option.bind_some, Option.pure_def]
          · rw [List.length_cons, hm]
          · have hbyte : (BitVec.ofNat 8 (16 * high + low)).toNat = 16 * high + low := by
              rw [BitVec.toNat_ofNat]
              exact Nat.mod_eq_of_lt (by omega)
            rw [hn, Bytes.ofBytes, hbyte, hm]
            ring
        · cases h
      · cases h

theorem value_lt {c : Char} {d : Nat} (h : value c = some d) : d < 16 := by
  unfold value at h
  rw [List.findIdx?_eq_some_iff_getElem] at h
  exact h.1

/-- And the other way round. -/
theorem number_of_decode : ∀ {cs : List Char} {bs : List Byte} {acc : Nat}, decode cs = some bs →
    numberFrom 16 acc cs = some (acc * 256 ^ bs.length + Bytes.ofBytes bs) := by
  intro cs
  induction cs using decode.induct with
  | case1 =>
      intro bs acc h
      obtain rfl : [] = bs := Option.some.inj h
      simp [numberFrom, Bytes.ofBytes]
  | case2 c => intro bs acc h; cases h
  | case3 c c' cs ih =>
      intro bs acc h
      simp only [decode, Option.bind_eq_bind, Option.bind_eq_some_iff, Option.pure_def, Option.some.injEq] at h
      obtain ⟨high, hhigh, low, hlow, bs', hbs', rfl⟩ := h
      have hhigh16 := value_lt hhigh
      have hlow16 := value_lt hlow
      have hbyte : (BitVec.ofNat 8 (16 * high + low)).toNat = 16 * high + low := by
        rw [BitVec.toNat_ofNat]
        exact Nat.mod_eq_of_lt (by omega)
      simp only [numberFrom, hhigh, hlow, Option.bind_eq_bind, Option.bind_some, if_pos hhigh16,
        if_pos hlow16]
      rw [ih hbs', Bytes.ofBytes, hbyte, List.length_cons]
      congr 1
      ring

end Hex
end ThunderBridge
