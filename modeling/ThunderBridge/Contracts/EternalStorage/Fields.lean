import ThunderBridge.Contracts.Message
import ThunderBridge.Lib.Packed

/-!
# `EternalStorage.Fields` — the logical fields of the contracts, and the keys they are stored under

`EternalStorage` has one mapping for each type of value; the contracts keep a field in one of them under
`keccak256(abi.encodePacked(name))` or `keccak256(abi.encodePacked(name, argument))`. The four field types
list what the home bridges, the foreign bridges and `BridgeValidators` keep in each mapping.

Many a name starts another (`messages`, `messagesSigned`), so names alone do not tell the fields apart. What
does is `Field.apart`: the packed sizes differ, or the names part somewhere. It speaks about names only, so
it is decided once for each table, and holds of the keys for all arguments.

`Packing` is how `abi.encodePacked` writes bytes and words. `Packing.bytes` is the one of the compiler;
`Packing.chunks` keeps a digest whole, for the hash that never collides.
-/

namespace ThunderBridge

/-! ## Packing -/

/-- How bytes and 32-byte words of type `W` are written, over symbols of type `α`. -/
structure Packing (W α : Type) where
  byte : Byte → α
  word : W → List α
  weight : α → Nat
  byte_injective : Function.Injective byte
  word_injective : Function.Injective word
  weight_pos : ∀ x, 0 < weight x
  weight_byte : ∀ b, weight (byte b) = 1
  size_word : ∀ w, Packed.size weight (word w) = 32

/-- A 32-byte word as the symbolic hash sees it: plain, or a digest. -/
inductive Word (H : Type) where
  | plain (w : Bytes32)
  | digest (h : H)
deriving DecidableEq, Repr

namespace Chunk

variable {H : Type}

/-- The bytes a chunk stands for. -/
def weight : Chunk H → Nat
  | .byte _ => 1
  | .digest _ => 32

theorem weight_pos (c : Chunk H) : 0 < c.weight := by
  cases c with
  | byte _ => exact Nat.one_pos
  | digest _ => exact Nat.succ_pos 31

theorem byte_injective : Function.Injective (byte : Byte → Chunk H) :=
  fun _ _ h => by injection h

theorem size_raw (bs : List Byte) : Packed.size weight (raw bs : List (Chunk H)) = bs.length := by
  induction bs with
  | nil => rfl
  | cons b bs ih =>
      have hsize : Packed.size weight (raw (b :: bs) : List (Chunk H)) =
          1 + Packed.size weight (raw bs : List (Chunk H)) := by
        simp [Packed.size, raw, weight]
      rw [hsize, ih, List.length_cons, Nat.add_comm]

end Chunk

namespace Word

variable {H : Type}

/-- A word as packed data. -/
def pack : Word H → List (Chunk H)
  | .plain w => Chunk.raw (packWord w)
  | .digest h => [Chunk.digest h]

theorem size_pack (w : Word H) : Packed.size Chunk.weight w.pack = 32 := by
  cases w with
  | plain w => rw [pack, Chunk.size_raw, length_packWord]
  | digest h => rfl

theorem pack_injective : Function.Injective (pack : Word H → List (Chunk H)) := by
  intro w w' h
  cases w with
  | plain w =>
      cases w' with
      | plain w' => rw [packWord_injective (Chunk.raw_injective h)]
      | digest h' =>
          have hlen := congrArg List.length h
          simp [pack] at hlen
  | digest h =>
      cases w' with
      | plain w' =>
          have hlen := congrArg List.length h
          simp [pack] at hlen
      | digest h' => simpa [pack] using h

end Word

namespace Packing

/-- `abi.encodePacked`. -/
def bytes : Packing Bytes32 Byte where
  byte b := b
  word := packWord
  weight _ := 1
  byte_injective := Function.injective_id
  word_injective := packWord_injective
  weight_pos _ := Nat.one_pos
  weight_byte _ := rfl
  size_word w := by simp [Packed.size]

/-- The same, with digests kept whole. -/
def chunks (H : Type) : Packing (Word H) (Chunk H) where
  byte := Chunk.byte
  word := Word.pack
  weight := Chunk.weight
  byte_injective := Chunk.byte_injective
  word_injective := Word.pack_injective
  weight_pos := Chunk.weight_pos
  weight_byte _ := rfl
  size_word := Word.size_pack

variable {W α : Type} (P : Packing W α)

/-- Bytes, written out. -/
def raw (bs : Bytes) : List α := bs.map P.byte

@[simp] theorem raw_bytes (bs : Bytes) : bytes.raw bs = bs := List.map_id bs

theorem size_raw (bs : Bytes) : Packed.size P.weight (P.raw bs) = bs.length := by
  simp [Packed.size, raw, Function.comp_def, P.weight_byte]

theorem raw_injective : Function.Injective P.raw := List.map_injective_iff.mpr P.byte_injective

/-- The key of a collected signature: `abi.encodePacked(hash, index)`. -/
def signIdx (hash index : W) : List α := P.word hash ++ P.word index

/-- The key of a signer: `abi.encodePacked(msg.sender, hash)`. -/
def hashSender (sender : Address) (hash : W) : List α := P.raw (packAddress sender) ++ P.word hash

theorem signIdx_injective : Function.Injective2 P.signIdx := by
  intro h h' i i' he
  have hsize : Packed.size P.weight (P.word h) = Packed.size P.weight (P.word h') := by
    rw [P.size_word, P.size_word]
  obtain ⟨hhash, hindex⟩ := Packed.append_inj_of_size_eq P.weight_pos he hsize
  exact ⟨P.word_injective hhash, P.word_injective hindex⟩

theorem hashSender_injective : Function.Injective2 P.hashSender := by
  intro a a' h h' he
  have hsize : Packed.size P.weight (P.raw (packAddress a)) = Packed.size P.weight (P.raw (packAddress a')) := by
    rw [P.size_raw, P.size_raw, length_packAddress, length_packAddress]
  obtain ⟨hsender, hhash⟩ := Packed.append_inj_of_size_eq P.weight_pos he hsize
  exact ⟨packAddress_injective (P.raw_injective hsender), P.word_injective hhash⟩

end Packing

/-! ## Arguments -/

/-- What stands behind the name of a field. -/
inductive ArgKind where
  | nothing
  | address
  | word
deriving DecidableEq, Repr

namespace ArgKind

/-- The bytes it takes. -/
def size : ArgKind → Nat
  | nothing => 0
  | address => 20
  | word => 32

/-- The values it has, where words are of type `W`. -/
abbrev Arg (W : Type) : ArgKind → Type
  | nothing => Unit
  | address => Address
  | word => W

/-- An argument, written out. -/
def pack {W α : Type} (P : Packing W α) : (kind : ArgKind) → kind.Arg W → List α
  | nothing, _ => []
  | address, a => P.raw (packAddress a)
  | word, w => P.word w

theorem size_pack {W α : Type} (P : Packing W α) (kind : ArgKind) (a : kind.Arg W) :
    Packed.size P.weight (kind.pack P a) = kind.size := by
  cases kind with
  | nothing => rfl
  | address => rw [pack, P.size_raw, length_packAddress, size]
  | word => exact P.size_word a

theorem pack_injective {W α : Type} (P : Packing W α) (kind : ArgKind) :
    Function.Injective (kind.pack P) := by
  intro a b h
  cases kind with
  | nothing => rfl
  | address => exact packAddress_injective (P.raw_injective h)
  | word => exact P.word_injective h

end ArgKind

/-! ## The fields of one mapping -/

/-- A table of fields: their names and what stands behind each, and that no two of them can meet. -/
class Field (F : Type) where
  fields : List F
  complete : ∀ f, f ∈ fields
  name : F → String
  argument : F → ArgKind
  apart : ∀ f ∈ fields, ∀ g ∈ fields, f ≠ g →
    (ascii (name f)).length + (argument f).size ≠ (ascii (name g)).length + (argument g).size ∨
      (¬ ascii (name f) <+: ascii (name g) ∧ ¬ ascii (name g) <+: ascii (name f))

namespace Field

/-- A field with its argument. -/
abbrev Key (W F : Type) [Field F] : Type := Σ f : F, (argument f).Arg W

variable {W α F : Type} [Field F] (P : Packing W α)

/-- The table, over the symbols of a packing. -/
abbrev layout (F : Type) [Field F] : Packed.Layout F α where
  weight := P.weight
  name f := P.raw (ascii (name f))
  Arg f := (argument f).Arg W
  arg f := (argument f).pack P
  argSize f := (argument f).size
  size_arg f := (argument f).size_pack P
  arg_injective f := (argument f).pack_injective P
  apart f g hne := by
    rw [P.size_raw, P.size_raw]
    refine (apart f (complete f) g (complete g) hne).imp_right ?_
    rintro ⟨hfg, hgf⟩
    exact ⟨fun hp => hfg ((List.prefix_map_iff_of_injective P.byte_injective).mp hp),
      fun hp => hgf ((List.prefix_map_iff_of_injective P.byte_injective).mp hp)⟩

/-- `abi.encodePacked(name)`, or `abi.encodePacked(name, argument)`. -/
def preimage (k : Key W F) : List α := (layout P F).preimage k

theorem preimage_injective : Function.Injective (preimage P : Key W F → List α) :=
  (layout P F).preimage_injective

/-- Over bytes: the name in ASCII, then the argument. -/
theorem preimage_bytes (k : Key Bytes32 F) :
    preimage .bytes k = ascii (name k.1) ++ (argument k.1).pack .bytes k.2 := by
  show Packing.bytes.raw (ascii (name k.1)) ++ (argument k.1).pack .bytes k.2 = _
  rw [Packing.raw_bytes]

end Field

/-! ## The four tables -/

/-- What is kept in `uintStorage`. -/
inductive UintField where
  | gasPrice
  | requiredBlockConfirmations
  | deployedAtBlock
  | minPerTx
  | maxPerTx
  | executionMaxPerTx
  | dailyLimit
  | executionDailyLimit
  | totalSpentPerDay
  | totalExecutedPerDay
  | numAffirmationsSigned
  | numMessagesSigned
  | outOfLimitAmount
  | txOutOfLimitValue
  | feePercent
  | withdrawFixedFee
  | withdrawFeePercent
  | depositFixedFee
  | depositFeePercent
  | requiredSignatures
  | validatorCount
deriving DecidableEq, Repr

/-- What is kept in `addressStorage`. -/
inductive AddressField where
  | owner
  | validatorContract
  | erc677token
  | erc20token
  | minterBurner
  | fallbackRecipient
  | feeReceiver
  | txOutOfLimitRecipient
  | validatorsList
deriving DecidableEq, Repr

/-- What is kept in `bytesStorage`. -/
inductive BytesField where
  | messages
  | signatures
deriving DecidableEq, Repr

/-- What is kept in `boolStorage`. -/
inductive BoolField where
  | isInitialized
  | affirmationsSigned
  | messagesSigned
  | fixedAssets
  | relayedMessages
  | validators
deriving DecidableEq, Repr

namespace UintField

def name : UintField → String
  | gasPrice => "gasPrice"
  | requiredBlockConfirmations => "requiredBlockConfirmations"
  | deployedAtBlock => "deployedAtBlock"
  | minPerTx => "minPerTx"
  | maxPerTx => "maxPerTx"
  | executionMaxPerTx => "executionMaxPerTx"
  | dailyLimit => "dailyLimit"
  | executionDailyLimit => "executionDailyLimit"
  | totalSpentPerDay => "totalSpentPerDay"
  | totalExecutedPerDay => "totalExecutedPerDay"
  | numAffirmationsSigned => "numAffirmationsSigned"
  | numMessagesSigned => "numMessagesSigned"
  | outOfLimitAmount => "outOfLimitAmount"
  | txOutOfLimitValue => "txOutOfLimitValue"
  | feePercent => "feePercent"
  | withdrawFixedFee => "withdrawFixedFee"
  | withdrawFeePercent => "withdrawFeePercent"
  | depositFixedFee => "depositFixedFee"
  | depositFeePercent => "depositFeePercent"
  | requiredSignatures => "requiredSignatures"
  | validatorCount => "validatorCount"

abbrev argument : UintField → ArgKind
  | totalSpentPerDay | totalExecutedPerDay => .word
  | numAffirmationsSigned | numMessagesSigned => .word
  | txOutOfLimitValue => .word
  | _ => .nothing

instance : Field UintField where
  fields := [gasPrice, requiredBlockConfirmations, deployedAtBlock, minPerTx, maxPerTx, executionMaxPerTx,
    dailyLimit, executionDailyLimit, totalSpentPerDay, totalExecutedPerDay, numAffirmationsSigned,
    numMessagesSigned, outOfLimitAmount, txOutOfLimitValue, feePercent, withdrawFixedFee, withdrawFeePercent,
    depositFixedFee, depositFeePercent, requiredSignatures, validatorCount]
  complete f := by cases f <;> decide
  name := name
  argument := argument
  apart := by decide +kernel

example (day : Bytes32) : Field.preimage .bytes ⟨totalSpentPerDay, day⟩ = ascii "totalSpentPerDay" ++ packWord day :=
  Field.preimage_bytes _

end UintField

namespace AddressField

def name : AddressField → String
  | owner => "owner"
  | validatorContract => "validatorContract"
  | erc677token => "erc677token"
  | erc20token => "erc20token"
  | minterBurner => "minterBurner"
  | fallbackRecipient => "fallbackRecipient"
  | feeReceiver => "feeReceiver"
  | txOutOfLimitRecipient => "txOutOfLimitRecipient"
  | validatorsList => "validatorsList"

abbrev argument : AddressField → ArgKind
  | txOutOfLimitRecipient | validatorsList => .word
  | _ => .nothing

instance : Field AddressField where
  fields := [owner, validatorContract, erc677token, erc20token, minterBurner, fallbackRecipient, feeReceiver,
    txOutOfLimitRecipient, validatorsList]
  complete f := by cases f <;> decide
  name := name
  argument := argument
  apart := by decide +kernel

end AddressField

namespace BytesField

def name : BytesField → String
  | messages => "messages"
  | signatures => "signatures"

instance : Field BytesField where
  fields := [messages, signatures]
  complete f := by cases f <;> decide
  name := name
  argument _ := .word
  apart := by decide +kernel

end BytesField

namespace BoolField

def name : BoolField → String
  | isInitialized => "isInitialized"
  | affirmationsSigned => "affirmationsSigned"
  | messagesSigned => "messagesSigned"
  | fixedAssets => "fixedAssets"
  | relayedMessages => "relayedMessages"
  | validators => "validators"

abbrev argument : BoolField → ArgKind
  | isInitialized => .nothing
  | validators => .address
  | affirmationsSigned | messagesSigned | fixedAssets | relayedMessages => .word

instance : Field BoolField where
  fields := [isInitialized, affirmationsSigned, messagesSigned, fixedAssets, relayedMessages, validators]
  complete f := by cases f <;> decide
  name := name
  argument := argument
  apart := by decide +kernel

end BoolField
end ThunderBridge
