import ThunderBridge.Lib.Bytes

/-!
# `Lib.Digest` — packed data and a collision-free hash

A hash function onto words of fixed length is never injective, so "collision-free" is stated over
symbolic digests: the digests are some type `H`, packed data is a list of `Chunk`s (raw bytes, or a whole
digest that stays one symbol), and `CollisionFree H` is a hash from packed data to `H` together with the
proof that it never collides. `serialHash` is one such hash, so the assumption can be met.
-/

namespace ThunderBridge

/-- A piece of packed data. -/
inductive Chunk (H : Type) where
  | byte (b : Byte)
  | digest (h : H)
deriving DecidableEq, Repr

/-- A hash of packed data that never collides. -/
structure CollisionFree (H : Type) where
  hash : List (Chunk H) → H
  injective : Function.Injective hash

namespace Chunk

variable {H : Type}

/-- Raw bytes as packed data. -/
def raw (bs : List Byte) : List (Chunk H) := bs.map byte

@[simp] theorem length_raw (bs : List Byte) : (raw bs : List (Chunk H)).length = bs.length := by
  simp [raw]

theorem raw_injective : Function.Injective (raw : List Byte → List (Chunk H)) :=
  List.map_injective_iff.mpr fun _ _ h => by injection h

end Chunk

/-! ## A hash that meets the assumption

Digests are byte strings of any length. A raw byte `b` is written `0 b`; a digest is written byte by byte
with a `1` before each and a `2` at the end, so that the next chunk can be found again. -/

namespace SerialHash

/-- A digest inside packed data. -/
def putDigest : List Byte → List Byte
  | [] => [2]
  | b :: bs => 1 :: b :: putDigest bs

def putChunk : Chunk (List Byte) → List Byte
  | .byte b => [0, b]
  | .digest h => putDigest h

def put : List (Chunk (List Byte)) → List Byte
  | [] => []
  | c :: cs => putChunk c ++ put cs

theorem putDigest_ne_nil (h : List Byte) : putDigest h ≠ [] := by
  cases h <;> simp [putDigest]

/-- A written digest is found again whatever follows it. -/
theorem putDigest_append_inj : ∀ {h h' xs xs' : List Byte},
    putDigest h ++ xs = putDigest h' ++ xs' → h = h' ∧ xs = xs'
  | [], [], _, _, he => by simpa [putDigest] using he
  | [], _ :: _, _, _, he => by simp [putDigest] at he
  | _ :: _, [], _, _, he => by simp [putDigest] at he
  | b :: bs, b' :: bs', _, _, he => by
      simp only [putDigest, List.cons_append, List.cons.injEq, true_and] at he
      obtain ⟨hb, hrest⟩ := he
      obtain ⟨hbs, hxs⟩ := putDigest_append_inj hrest
      exact ⟨by rw [hb, hbs], hxs⟩

theorem putChunk_append_inj {c c' : Chunk (List Byte)} {xs xs' : List Byte}
    (he : putChunk c ++ xs = putChunk c' ++ xs') : c = c' ∧ xs = xs' := by
  cases c with
  | byte b =>
      cases c' with
      | byte b' =>
          simp only [putChunk, List.cons_append, List.nil_append, List.cons.injEq, true_and] at he
          exact ⟨by rw [he.1], he.2⟩
      | digest h' => cases h' <;> simp [putChunk, putDigest] at he
  | digest h =>
      cases c' with
      | byte b' => cases h <;> simp [putChunk, putDigest] at he
      | digest h' =>
          obtain ⟨hh, hxs⟩ := putDigest_append_inj he
          exact ⟨by rw [hh], hxs⟩

theorem putChunk_ne_nil (c : Chunk (List Byte)) : putChunk c ≠ [] := by
  cases c with
  | byte b => simp [putChunk]
  | digest h => exact putDigest_ne_nil h

theorem put_injective : Function.Injective put := by
  intro cs
  induction cs with
  | nil =>
      intro cs' he
      cases cs' with
      | nil => rfl
      | cons c' cs' =>
          have : putChunk c' = [] := (List.append_eq_nil_iff.mp he.symm).1
          exact absurd this (putChunk_ne_nil c')
  | cons c cs ih =>
      intro cs' he
      cases cs' with
      | nil =>
          have : putChunk c = [] := (List.append_eq_nil_iff.mp he).1
          exact absurd this (putChunk_ne_nil c)
      | cons c' cs' =>
          obtain ⟨hc, hcs⟩ := putChunk_append_inj he
          rw [hc, ih hcs]

end SerialHash

/-- The serialisation itself, taken as the digest. -/
def serialHash : CollisionFree (List Byte) := ⟨SerialHash.put, SerialHash.put_injective⟩

end ThunderBridge
