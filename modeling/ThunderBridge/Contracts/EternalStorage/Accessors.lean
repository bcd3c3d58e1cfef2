import ThunderBridge.Contracts.EternalStorage.Fields

/-!
# `EternalStorage.Accessors` — the four mappings, the getters and the setters

A `Slot` is a field of one of the mappings with its argument; `get` and `set` are the storage accesses the
compiler makes for it. Every getter is a `get` and every setter a checked `set`, each at its own slot.

`Keccak256 W D` is a hash over some packing. Nothing is asked of it beforehand: the frame lemmas need it to be
injective on what is `hashed`, the packed data in use, which a hash onto 32-byte words can be.
-/

namespace ThunderBridge

/-! ## Slots -/

/-- A hash of packed data onto digests of type `D`, each of which is also a 32-byte word. -/
structure Keccak256 (W D : Type) where
  Symbol : Type
  packing : Packing W Symbol
  hash : List Symbol → D
  word : D → W
  word_injective : Function.Injective word

/-- The hash function of the chain, over bytes. -/
def Keccak256.ofBytes (keccak256 : Bytes → Bytes32) : Keccak256 Bytes32 Bytes32 :=
  ⟨Byte, .bytes, keccak256, id, Function.injective_id⟩

/-- The symbolic hash. -/
def CollisionFree.keccak256 {H : Type} (K : CollisionFree H) : Keccak256 (Word H) H :=
  ⟨Chunk H, .chunks H, K.hash, Word.digest, fun _ _ h => by injection h⟩

namespace Keccak256

variable {W D : Type} (K : Keccak256 W D)

/-- `keccak256(abi.encodePacked(hash, index))`. -/
def signIdx (hash index : W) : W := K.word (K.hash (K.packing.signIdx hash index))

/-- `keccak256(abi.encodePacked(msg.sender, hash))`. -/
def hashSender (sender : Address) (hash : W) : W := K.word (K.hash (K.packing.hashSender sender hash))

variable {K} {hashed : Set (List K.Symbol)}

theorem signIdx_inj (hK : Set.InjOn K.hash hashed) {h h' i i' : W} (hi : K.packing.signIdx h i ∈ hashed)
    (hi' : K.packing.signIdx h' i' ∈ hashed) (he : K.signIdx h i = K.signIdx h' i') : h = h' ∧ i = i' :=
  K.packing.signIdx_injective (hK hi hi' (K.word_injective he))

theorem hashSender_inj (hK : Set.InjOn K.hash hashed) {a a' : Address} {h h' : W}
    (ha : K.packing.hashSender a h ∈ hashed) (ha' : K.packing.hashSender a' h' ∈ hashed)
    (he : K.hashSender a h = K.hashSender a' h') : a = a' ∧ h = h' :=
  K.packing.hashSender_injective (hK ha ha' (K.word_injective he))

end Keccak256

/-- An entry of one of the mappings. -/
inductive Slot (W : Type) where
  | uint (key : Field.Key W UintField)
  | address (key : Field.Key W AddressField)
  | bytes (key : Field.Key W BytesField)
  | bool (key : Field.Key W BoolField)

namespace Slot

variable {W : Type}

/-- What the entry holds. -/
abbrev Value : Slot W → Type
  | uint _ => UInt256
  | address _ => Address
  | bytes _ => Bytes
  | bool _ => Bool

/-- What is hashed for it. -/
def preimage {α : Type} (P : Packing W α) : Slot W → List α
  | uint k => Field.preimage P k
  | address k => Field.preimage P k
  | bytes k => Field.preimage P k
  | bool k => Field.preimage P k

end Slot

/-- `EternalStorage`, the mappings the contracts use. -/
structure EternalStorage (D : Type) where
  uintStorage : D → UInt256
  addressStorage : D → Address
  bytesStorage : D → Bytes
  boolStorage : D → Bool

namespace EternalStorage

/-- The storage of a contract just deployed. -/
def blank {D : Type} : EternalStorage D := ⟨fun _ => 0, fun _ => 0, fun _ => [], fun _ => false⟩

variable {W D : Type} (K : Keccak256 W D) (s : EternalStorage D)

def get : (x : Slot W) → x.Value
  | .uint k => (Field.layout K.packing UintField).read K.hash s.uintStorage k
  | .address k => (Field.layout K.packing AddressField).read K.hash s.addressStorage k
  | .bytes k => (Field.layout K.packing BytesField).read K.hash s.bytesStorage k
  | .bool k => (Field.layout K.packing BoolField).read K.hash s.boolStorage k

def set [DecidableEq D] : (x : Slot W) → x.Value → EternalStorage D
  | .uint k, v =>
      { s with uintStorage := (Field.layout K.packing UintField).write K.hash s.uintStorage k v }
  | .address k, v =>
      { s with addressStorage := (Field.layout K.packing AddressField).write K.hash s.addressStorage k v }
  | .bytes k, v =>
      { s with bytesStorage := (Field.layout K.packing BytesField).write K.hash s.bytesStorage k v }
  | .bool k, v =>
      { s with boolStorage := (Field.layout K.packing BoolField).write K.hash s.boolStorage k v }

variable {K}

/-- A slot reads as what was last written to it. -/
theorem get_set_self [DecidableEq D] (x : Slot W) (v : x.Value) : (s.set K x v).get K x = v := by
  cases x with
  | uint k | address k | bytes k | bool k => exact Packed.Layout.read_write_self _ K.hash

/-- **A write to one slot leaves every other slot alone.** -/
theorem get_set_of_ne [DecidableEq D] {hashed : Set (List K.Symbol)} (hK : Set.InjOn K.hash hashed) {x y : Slot W}
    (hx : x.preimage K.packing ∈ hashed) (hy : y.preimage K.packing ∈ hashed) (hne : y ≠ x) (v : x.Value) :
    (s.set K x v).get K y = s.get K y := by
  -- another mapping is not touched; within the mapping the keys differ
  cases x with
  | uint k =>
      cases y with
      | uint k' => exact Packed.Layout.read_write_of_ne _ hK hx hy fun he => hne (congrArg _ he)
      | address _ | bytes _ | bool _ => rfl
  | address k =>
      cases y with
      | address k' => exact Packed.Layout.read_write_of_ne _ hK hx hy fun he => hne (congrArg _ he)
      | uint _ | bytes _ | bool _ => rfl
  | bytes k =>
      cases y with
      | bytes k' => exact Packed.Layout.read_write_of_ne _ hK hx hy fun he => hne (congrArg _ he)
      | uint _ | address _ | bool _ => rfl
  | bool k =>
      cases y with
      | bool k' => exact Packed.Layout.read_write_of_ne _ hK hx hy fun he => hne (congrArg _ he)
      | uint _ | address _ | bytes _ => rfl

/-! ## The getters -/

section Getters

variable (K)

/-! `Ownable`, `Validatable`. -/

def owner : Address := s.get K (.address ⟨.owner, ()⟩)
def validatorContract : Address := s.get K (.address ⟨.validatorContract, ()⟩)

/-! `BasicBridge`. -/

def gasPrice : UInt256 := s.get K (.uint ⟨.gasPrice, ()⟩)
def requiredBlockConfirmations : UInt256 := s.get K (.uint ⟨.requiredBlockConfirmations, ()⟩)
def deployedAtBlock : UInt256 := s.get K (.uint ⟨.deployedAtBlock, ()⟩)
def totalSpentPerDay (day : W) : UInt256 := s.get K (.uint ⟨.totalSpentPerDay, day⟩)
def totalExecutedPerDay (day : W) : UInt256 := s.get K (.uint ⟨.totalExecutedPerDay, day⟩)
def minPerTx : UInt256 := s.get K (.uint ⟨.minPerTx, ()⟩)
def maxPerTx : UInt256 := s.get K (.uint ⟨.maxPerTx, ()⟩)
def executionMaxPerTx : UInt256 := s.get K (.uint ⟨.executionMaxPerTx, ()⟩)
def isInitialized : Bool := s.get K (.bool ⟨.isInitialized, ()⟩)
def dailyLimit : UInt256 := s.get K (.uint ⟨.dailyLimit, ()⟩)
def executionDailyLimit : UInt256 := s.get K (.uint ⟨.executionDailyLimit, ()⟩)

/-! `BasicHomeBridge`. -/

def numAffirmationsSigned (withdrawal : W) : UInt256 := s.get K (.uint ⟨.numAffirmationsSigned, withdrawal⟩)
def affirmationsSigned (withdrawal : W) : Bool := s.get K (.bool ⟨.affirmationsSigned, withdrawal⟩)
def messagesSigned (message : W) : Bool := s.get K (.bool ⟨.messagesSigned, message⟩)
def messages (hash : W) : Bytes := s.get K (.bytes ⟨.messages, hash⟩)
def signatures (hash : W) : Bytes := s.get K (.bytes ⟨.signatures, hash⟩)
def message (hash : W) : Bytes := s.messages K hash
def signature (hash index : W) : Bytes := s.signatures K (K.signIdx hash index)
def numMessagesSigned (message : W) : UInt256 := s.get K (.uint ⟨.numMessagesSigned, message⟩)

/-! `OverdrawManagement`. -/

def outOfLimitAmount : UInt256 := s.get K (.uint ⟨.outOfLimitAmount, ()⟩)
def fixedAssets (txHash : W) : Bool := s.get K (.bool ⟨.fixedAssets, txHash⟩)
def txAboveLimits (txHash : W) : Address × UInt256 :=
  (s.get K (.address ⟨.txOutOfLimitRecipient, txHash⟩), s.get K (.uint ⟨.txOutOfLimitValue, txHash⟩))

/-! `FeeManager`, `DepositWithdrawFeeManager`. -/

def feePercent : UInt256 := s.get K (.uint ⟨.feePercent, ()⟩)
def feeReceiver : Address := s.get K (.address ⟨.feeReceiver, ()⟩)
def withdrawFixedFee : UInt256 := s.get K (.uint ⟨.withdrawFixedFee, ()⟩)
def withdrawFeePercent : UInt256 := s.get K (.uint ⟨.withdrawFeePercent, ()⟩)
def depositFixedFee : UInt256 := s.get K (.uint ⟨.depositFixedFee, ()⟩)
def depositFeePercent : UInt256 := s.get K (.uint ⟨.depositFeePercent, ()⟩)

/-! `ERC677Bridge` and the bridges themselves. -/

def erc677token : Address := s.get K (.address ⟨.erc677token, ()⟩)
def erc20token : Address := s.get K (.address ⟨.erc20token, ()⟩)
def minterBurner : Address := s.get K (.address ⟨.minterBurner, ()⟩)
def fallbackRecipient : Address := s.get K (.address ⟨.fallbackRecipient, ()⟩)
def relayedMessages (txHash : W) : Bool := s.get K (.bool ⟨.relayedMessages, txHash⟩)

/-! `BridgeValidators`. -/

def requiredSignatures : UInt256 := s.get K (.uint ⟨.requiredSignatures, ()⟩)
def validatorCount : UInt256 := s.get K (.uint ⟨.validatorCount, ()⟩)
def validators (validator : Address) : Bool := s.get K (.bool ⟨.validators, validator⟩)
/-- A slot of `validatorsList`. -/
def validatorsList (index : W) : Address := s.get K (.address ⟨.validatorsList, index⟩)

end Getters

/-! ## The setters

An internal setter writes; a public one checks the sender and the value first. -/

/-- What a call of a contract knows of its surroundings. -/
structure Env where
  sender : Address
  self : Address
  isContract : Address → Bool

section Setters

variable (K) [DecidableEq D]

/-- `require(guard)` and the write. -/
def checked (guard : Prop) [Decidable guard] (x : Slot W) (v : x.Value) : Option (EternalStorage D) := do
  require guard
  pure (s.set K x v)

/-- A write by the owner. -/
def ownerSets (e : Env) (guard : Prop) [Decidable guard] (x : Slot W) (v : x.Value) :
    Option (EternalStorage D) :=
  s.checked K (e.sender = s.owner K ∧ guard) x v

/-! `Ownable`. -/

def setOwner (newOwner : Address) : EternalStorage D := s.set K (.address ⟨.owner, ()⟩) newOwner

def transferOwnership (e : Env) (newOwner : Address) : Option (EternalStorage D) := do
  require (e.sender = s.owner K)
  require (newOwner ≠ 0)
  pure (s.setOwner K newOwner)

/-! `BasicBridge`. -/

def setGasPrice (e : Env) (gasPrice : UInt256) : Option (EternalStorage D) :=
  s.ownerSets K e (0 < gasPrice) (.uint ⟨.gasPrice, ()⟩) gasPrice

def setRequiredBlockConfirmations (e : Env) (blockConfirmations : UInt256) : Option (EternalStorage D) :=
  s.ownerSets K e (0 < blockConfirmations) (.uint ⟨.requiredBlockConfirmations, ()⟩) blockConfirmations

def setTotalSpentPerDay (day : W) (value : UInt256) : EternalStorage D :=
  s.set K (.uint ⟨.totalSpentPerDay, day⟩) value

def setTotalExecutedPerDay (day : W) (value : UInt256) : EternalStorage D :=
  s.set K (.uint ⟨.totalExecutedPerDay, day⟩) value

def setInitialize (status : Bool) : EternalStorage D := s.set K (.bool ⟨.isInitialized, ()⟩) status

def setDailyLimit (e : Env) (dailyLimit : UInt256) : Option (EternalStorage D) :=
  s.ownerSets K e True (.uint ⟨.dailyLimit, ()⟩) dailyLimit

def setExecutionDailyLimit (e : Env) (dailyLimit : UInt256) : Option (EternalStorage D) :=
  s.ownerSets K e True (.uint ⟨.executionDailyLimit, ()⟩) dailyLimit

def setExecutionMaxPerTx (e : Env) (maxPerTx : UInt256) : Option (EternalStorage D) :=
  s.ownerSets K e (maxPerTx < s.executionDailyLimit K) (.uint ⟨.executionMaxPerTx, ()⟩) maxPerTx

def setMaxPerTx (e : Env) (maxPerTx : UInt256) : Option (EternalStorage D) :=
  s.ownerSets K e (maxPerTx < s.dailyLimit K) (.uint ⟨.maxPerTx, ()⟩) maxPerTx

def setMinPerTx (e : Env) (minPerTx : UInt256) : Option (EternalStorage D) :=
  s.ownerSets K e (minPerTx < s.dailyLimit K ∧ minPerTx < s.maxPerTx K) (.uint ⟨.minPerTx, ()⟩) minPerTx

/-! `BasicHomeBridge`. -/

def setMessagesSigned (hash : W) (status : Bool) : EternalStorage D :=
  s.set K (.bool ⟨.messagesSigned, hash⟩) status

def setAffirmationsSigned (withdrawal : W) (status : Bool) : EternalStorage D :=
  s.set K (.bool ⟨.affirmationsSigned, withdrawal⟩) status

def setNumAffirmationsSigned (withdrawal : W) (number : UInt256) : EternalStorage D :=
  s.set K (.uint ⟨.numAffirmationsSigned, withdrawal⟩) number

def setSignatures (hash : W) (signature : Bytes) : EternalStorage D :=
  s.set K (.bytes ⟨.signatures, hash⟩) signature

def setMessages (hash : W) (message : Bytes) : EternalStorage D :=
  s.set K (.bytes ⟨.messages, hash⟩) message

def setNumMessagesSigned (message : W) (number : UInt256) : EternalStorage D :=
  s.set K (.uint ⟨.numMessagesSigned, message⟩) number

/-! `OverdrawManagement`. -/

def setOutOfLimitAmount (value : UInt256) : EternalStorage D := s.set K (.uint ⟨.outOfLimitAmount, ()⟩) value

def setTxAboveLimits (recipient : Address) (value : UInt256) (txHash : W) : EternalStorage D :=
  (s.set K (.address ⟨.txOutOfLimitRecipient, txHash⟩) recipient).set K (.uint ⟨.txOutOfLimitValue, txHash⟩)
    value

def setFixedAssets (txHash : W) (status : Bool) : EternalStorage D :=
  s.set K (.bool ⟨.fixedAssets, txHash⟩) status

/-! `FeeManager`, `DepositWithdrawFeeManager`. -/

def setFeePercent (e : Env) (feePercent : UInt256) : Option (EternalStorage D) :=
  s.ownerSets K e (feePercent < 10000) (.uint ⟨.feePercent, ()⟩) feePercent

def setFeeReceiver (e : Env) (receiver : Address) : Option (EternalStorage D) :=
  s.ownerSets K e True (.address ⟨.feeReceiver, ()⟩) receiver

def setWithdrawFixedFee (e : Env) (fixedFee : UInt256) : Option (EternalStorage D) :=
  s.ownerSets K e True (.uint ⟨.withdrawFixedFee, ()⟩) fixedFee

def setWithdrawFeePercent (e : Env) (feePercent : UInt256) : Option (EternalStorage D) :=
  s.ownerSets K e (feePercent < 10000) (.uint ⟨.withdrawFeePercent, ()⟩) feePercent

def setDepositFixedFee (e : Env) (fixedFee : UInt256) : Option (EternalStorage D) :=
  s.ownerSets K e True (.uint ⟨.depositFixedFee, ()⟩) fixedFee

def setDepositFeePercent (e : Env) (feePercent : UInt256) : Option (EternalStorage D) :=
  s.ownerSets K e (feePercent < 10000) (.uint ⟨.depositFeePercent, ()⟩) feePercent

/-! `ERC677Bridge` and the bridges themselves. -/

def setErc677token (e : Env) (token : Address) : Option (EternalStorage D) :=
  s.checked K (token ≠ 0 ∧ e.isContract token = true) (.address ⟨.erc677token, ()⟩) token

/-- The override of `HomeBridgeNativeToErcWithFee`: the bridge is the token. -/
def setErc677tokenNative (e : Env) (token : Address) : Option (EternalStorage D) :=
  s.checked K (token = 0) (.address ⟨.erc677token, ()⟩) e.self

def setErc20token (e : Env) (token : Address) : Option (EternalStorage D) :=
  s.checked K (token ≠ 0 ∧ e.isContract token = true) (.address ⟨.erc20token, ()⟩) token

def setMinterBurner (e : Env) (minterBurner : Address) : Option (EternalStorage D) :=
  s.ownerSets K e True (.address ⟨.minterBurner, ()⟩) minterBurner

def setFallbackRecipient (e : Env) (recipient : Address) : Option (EternalStorage D) :=
  s.ownerSets K e (recipient ≠ 0) (.address ⟨.fallbackRecipient, ()⟩) recipient

def setRelayedMessages (txHash : W) (status : Bool) : EternalStorage D :=
  s.set K (.bool ⟨.relayedMessages, txHash⟩) status

/-! `BridgeValidators`. -/

def setRequiredSignatures (e : Env) (requiredSignatures : UInt256) : Option (EternalStorage D) :=
  s.ownerSets K e (requiredSignatures ≤ s.validatorCount K ∧ requiredSignatures ≠ 0)
    (.uint ⟨.requiredSignatures, ()⟩) requiredSignatures

def setValidatorCount (validatorCount : UInt256) : EternalStorage D :=
  s.set K (.uint ⟨.validatorCount, ()⟩) validatorCount

def setValidator (validator : Address) (status : Bool) : EternalStorage D :=
  s.set K (.bool ⟨.validators, validator⟩) status

def putValidatorToList (validator : Address) (index : W) : EternalStorage D :=
  s.set K (.address ⟨.validatorsList, index⟩) validator

end Setters

/-! ## Any setter -/

/-- A write statement: `initialize` and the loops of `BridgeValidators` also write without a setter. -/
structure Write (W : Type) where
  slot : Slot W
  value : slot.Value

/-- A setter with its arguments. -/
inductive Setter (W : Type) where
  | setOwner (newOwner : Address)
  | transferOwnership (newOwner : Address)
  | setGasPrice (gasPrice : UInt256)
  | setRequiredBlockConfirmations (blockConfirmations : UInt256)
  | setTotalSpentPerDay (day : W) (value : UInt256)
  | setTotalExecutedPerDay (day : W) (value : UInt256)
  | setInitialize (status : Bool)
  | setDailyLimit (dailyLimit : UInt256)
  | setExecutionDailyLimit (dailyLimit : UInt256)
  | setExecutionMaxPerTx (maxPerTx : UInt256)
  | setMaxPerTx (maxPerTx : UInt256)
  | setMinPerTx (minPerTx : UInt256)
  | setMessagesSigned (hash : W) (status : Bool)
  | setAffirmationsSigned (withdrawal : W) (status : Bool)
  | setNumAffirmationsSigned (withdrawal : W) (number : UInt256)
  | setSignatures (hash : W) (signature : Bytes)
  | setMessages (hash : W) (message : Bytes)
  | setNumMessagesSigned (message : W) (number : UInt256)
  | setOutOfLimitAmount (value : UInt256)
  | setTxAboveLimits (recipient : Address) (value : UInt256) (txHash : W)
  | setFixedAssets (txHash : W) (status : Bool)
  | setFeePercent (feePercent : UInt256)
  | setFeeReceiver (receiver : Address)
  | setWithdrawFixedFee (fixedFee : UInt256)
  | setWithdrawFeePercent (feePercent : UInt256)
  | setDepositFixedFee (fixedFee : UInt256)
  | setDepositFeePercent (feePercent : UInt256)
  | setErc677token (token : Address)
  | setErc677tokenNative (token : Address)
  | setErc20token (token : Address)
  | setMinterBurner (minterBurner : Address)
  | setFallbackRecipient (recipient : Address)
  | setRelayedMessages (txHash : W) (status : Bool)
  | setRequiredSignatures (requiredSignatures : UInt256)
  | setValidatorCount (validatorCount : UInt256)
  | setValidator (validator : Address) (status : Bool)
  | putValidatorToList (validator : Address) (index : W)
  | statement (write : Write W)

namespace Setter

/-- The fields a setter is of, with its argument. -/
def slots : Setter W → List (Slot W)
  | .setOwner _ | .transferOwnership _ => [.address ⟨.owner, ()⟩]
  | .setGasPrice _ => [.uint ⟨.gasPrice, ()⟩]
  | .setRequiredBlockConfirmations _ => [.uint ⟨.requiredBlockConfirmations, ()⟩]
  | .setTotalSpentPerDay day _ => [.uint ⟨.totalSpentPerDay, day⟩]
  | .setTotalExecutedPerDay day _ => [.uint ⟨.totalExecutedPerDay, day⟩]
  | .setInitialize _ => [.bool ⟨.isInitialized, ()⟩]
  | .setDailyLimit _ => [.uint ⟨.dailyLimit, ()⟩]
  | .setExecutionDailyLimit _ => [.uint ⟨.executionDailyLimit, ()⟩]
  | .setExecutionMaxPerTx _ => [.uint ⟨.executionMaxPerTx, ()⟩]
  | .setMaxPerTx _ => [.uint ⟨.maxPerTx, ()⟩]
  | .setMinPerTx _ => [.uint ⟨.minPerTx, ()⟩]
  | .setMessagesSigned hash _ => [.bool ⟨.messagesSigned, hash⟩]
  | .setAffirmationsSigned withdrawal _ => [.bool ⟨.affirmationsSigned, withdrawal⟩]
  | .setNumAffirmationsSigned withdrawal _ => [.uint ⟨.numAffirmationsSigned, withdrawal⟩]
  | .setSignatures hash _ => [.bytes ⟨.signatures, hash⟩]
  | .setMessages hash _ => [.bytes ⟨.messages, hash⟩]
  | .setNumMessagesSigned message _ => [.uint ⟨.numMessagesSigned, message⟩]
  | .setOutOfLimitAmount _ => [.uint ⟨.outOfLimitAmount, ()⟩]
  | .setTxAboveLimits _ _ txHash =>
      [.address ⟨.txOutOfLimitRecipient, txHash⟩, .uint ⟨.txOutOfLimitValue, txHash⟩]
  | .setFixedAssets txHash _ => [.bool ⟨.fixedAssets, txHash⟩]
  | .setFeePercent _ => [.uint ⟨.feePercent, ()⟩]
  | .setFeeReceiver _ => [.address ⟨.feeReceiver, ()⟩]
  | .setWithdrawFixedFee _ => [.uint ⟨.withdrawFixedFee, ()⟩]
  | .setWithdrawFeePercent _ => [.uint ⟨.withdrawFeePercent, ()⟩]
  | .setDepositFixedFee _ => [.uint ⟨.depositFixedFee, ()⟩]
  | .setDepositFeePercent _ => [.uint ⟨.depositFeePercent, ()⟩]
  | .setErc677token _ | .setErc677tokenNative _ => [.address ⟨.erc677token, ()⟩]
  | .setErc20token _ => [.address ⟨.erc20token, ()⟩]
  | .setMinterBurner _ => [.address ⟨.minterBurner, ()⟩]
  | .setFallbackRecipient _ => [.address ⟨.fallbackRecipient, ()⟩]
  | .setRelayedMessages txHash _ => [.bool ⟨.relayedMessages, txHash⟩]
  | .setRequiredSignatures _ => [.uint ⟨.requiredSignatures, ()⟩]
  | .setValidatorCount _ => [.uint ⟨.validatorCount, ()⟩]
  | .setValidator validator _ => [.bool ⟨.validators, validator⟩]
  | .putValidatorToList _ index => [.address ⟨.validatorsList, index⟩]
  | .statement w => [w.slot]

variable (K) [DecidableEq D]

/-- A call of the setter; `none` when it reverts. -/
def run (e : Env) : Setter W → Option (EternalStorage D)
  | .setOwner newOwner => some (s.setOwner K newOwner)
  | .transferOwnership newOwner => s.transferOwnership K e newOwner
  | .setGasPrice n => s.setGasPrice K e n
  | .setRequiredBlockConfirmations n => s.setRequiredBlockConfirmations K e n
  | .setTotalSpentPerDay day n => some (s.setTotalSpentPerDay K day n)
  | .setTotalExecutedPerDay day n => some (s.setTotalExecutedPerDay K day n)
  | .setInitialize status => some (s.setInitialize K status)
  | .setDailyLimit n => s.setDailyLimit K e n
  | .setExecutionDailyLimit n => s.setExecutionDailyLimit K e n
  | .setExecutionMaxPerTx n => s.setExecutionMaxPerTx K e n
  | .setMaxPerTx n => s.setMaxPerTx K e n
  | .setMinPerTx n => s.setMinPerTx K e n
  | .setMessagesSigned hash status => some (s.setMessagesSigned K hash status)
  | .setAffirmationsSigned withdrawal status => some (s.setAffirmationsSigned K withdrawal status)
  | .setNumAffirmationsSigned withdrawal n => some (s.setNumAffirmationsSigned K withdrawal n)
  | .setSignatures hash signature => some (s.setSignatures K hash signature)
  | .setMessages hash message => some (s.setMessages K hash message)
  | .setNumMessagesSigned message n => some (s.setNumMessagesSigned K message n)
  | .setOutOfLimitAmount n => some (s.setOutOfLimitAmount K n)
  | .setTxAboveLimits recipient n txHash => some (s.setTxAboveLimits K recipient n txHash)
  | .setFixedAssets txHash status => some (s.setFixedAssets K txHash status)
  | .setFeePercent n => s.setFeePercent K e n
  | .setFeeReceiver receiver => s.setFeeReceiver K e receiver
  | .setWithdrawFixedFee n => s.setWithdrawFixedFee K e n
  | .setWithdrawFeePercent n => s.setWithdrawFeePercent K e n
  | .setDepositFixedFee n => s.setDepositFixedFee K e n
  | .setDepositFeePercent n => s.setDepositFeePercent K e n
  | .setErc677token token => s.setErc677token K e token
  | .setErc677tokenNative token => s.setErc677tokenNative K e token
  | .setErc20token token => s.setErc20token K e token
  | .setMinterBurner minterBurner => s.setMinterBurner K e minterBurner
  | .setFallbackRecipient recipient => s.setFallbackRecipient K e recipient
  | .setRelayedMessages txHash status => some (s.setRelayedMessages K txHash status)
  | .setRequiredSignatures n => s.setRequiredSignatures K e n
  | .setValidatorCount n => some (s.setValidatorCount K n)
  | .setValidator validator status => some (s.setValidator K validator status)
  | .putValidatorToList validator index => some (s.putValidatorToList K validator index)
  | .statement w => some (s.set K w.slot w.value)

end Setter

/-! ## What a setter writes -/

section Frame

variable {s} [DecidableEq D] {s' : EternalStorage D} {e : Env} {setter : Setter W}
  {hashed : Set (List K.Symbol)}

theorem checked_eq_some {guard : Prop} [Decidable guard] {x : Slot W} {v : x.Value} :
    s.checked K guard x v = some s' ↔ guard ∧ s.set K x v = s' := by
  simp only [checked, Option.bind_eq_bind, Option.bind_eq_some_iff, require_eq_some, exists_const,
    Option.pure_def, Option.some.injEq]

variable (K s) in
/-- Writes, one after the other. -/
def apply (ws : List (Write W)) : EternalStorage D := ws.foldl (fun s w => s.set K w.slot w.value) s

/-- **A setter writes its own fields**, and nothing else. -/
theorem Setter.run_cases (h : setter.run K s e = some s') :
    ∃ ws : List (Write W), ws.map Write.slot = setter.slots ∧ s' = s.apply K ws := by
  cases setter with
  | setOwner _ | setTotalSpentPerDay _ _ | setTotalExecutedPerDay _ _ | setInitialize _
  | setMessagesSigned _ _ | setAffirmationsSigned _ _ | setNumAffirmationsSigned _ _ | setSignatures _ _
  | setMessages _ _ | setNumMessagesSigned _ _ | setOutOfLimitAmount _ | setFixedAssets _ _
  | setRelayedMessages _ _ | setValidatorCount _ | setValidator _ _ | putValidatorToList _ _ =>
      obtain rfl := Option.some.inj h
      exact ⟨[⟨_, _⟩], rfl, rfl⟩
  | setTxAboveLimits _ _ _ =>
      obtain rfl := Option.some.inj h
      exact ⟨[⟨_, _⟩, ⟨_, _⟩], rfl, rfl⟩
  | statement w =>
      obtain rfl := Option.some.inj h
      exact ⟨[w], rfl, rfl⟩
  | transferOwnership _ =>
      simp only [run, EternalStorage.transferOwnership, Option.bind_eq_bind, Option.bind_eq_some_iff,
        require_eq_some, exists_const, Option.pure_def, Option.some.injEq] at h
      obtain ⟨_, _, rfl⟩ := h
      exact ⟨[⟨_, _⟩], rfl, rfl⟩
  | setGasPrice _ | setRequiredBlockConfirmations _ | setDailyLimit _ | setExecutionDailyLimit _
  | setExecutionMaxPerTx _ | setMaxPerTx _ | setMinPerTx _ | setFeePercent _ | setFeeReceiver _
  | setWithdrawFixedFee _ | setWithdrawFeePercent _ | setDepositFixedFee _ | setDepositFeePercent _
  | setErc677token _ | setErc677tokenNative _ | setErc20token _ | setMinterBurner _ | setFallbackRecipient _
  | setRequiredSignatures _ =>
      obtain ⟨_, rfl⟩ := checked_eq_some.mp h
      exact ⟨[⟨_, _⟩], rfl, rfl⟩

theorem get_apply (hK : Set.InjOn K.hash hashed) {y : Slot W} (hy : y.preimage K.packing ∈ hashed) :
    ∀ {ws : List (Write W)} {s : EternalStorage D}, (∀ w ∈ ws, w.slot.preimage K.packing ∈ hashed) →
      y ∉ ws.map Write.slot → (s.apply K ws).get K y = s.get K y := by
  intro ws
  induction ws with
  | nil =>
      intro s _ _
      rfl
  | cons w ws ih =>
      intro s hhashed hnot
      obtain ⟨hw, hws⟩ := List.forall_mem_cons.mp hhashed
      rw [List.map_cons, List.mem_cons, not_or] at hnot
      have hrest : ((s.set K w.slot w.value).apply K ws).get K y = (s.set K w.slot w.value).get K y :=
        ih hws hnot.2
      exact hrest.trans (s.get_set_of_ne hK hw hy hnot.1 w.value)

/-- One setter leaves the getters of all other fields, and its own with another argument. -/
theorem Setter.run_frame (hK : Set.InjOn K.hash hashed) (h : setter.run K s e = some s')
    (hhashed : ∀ x ∈ setter.slots, x.preimage K.packing ∈ hashed) {y : Slot W} (hy : y.preimage K.packing ∈ hashed)
    (hnot : y ∉ setter.slots) : s'.get K y = s.get K y := by
  obtain ⟨ws, hslots, rfl⟩ := Setter.run_cases h
  refine get_apply hK hy (fun w hw => hhashed _ ?_) ?_
  · rw [← hslots]
    exact List.mem_map_of_mem hw
  · rwa [hslots]

end Frame

/-! ## Runs -/

section Runs

variable [DecidableEq D]

variable (K) in
/-- Calls of setters, one after the other; a call that reverts changes nothing. -/
def runAll (s : EternalStorage D) : List (Env × Setter W) → EternalStorage D
  | [] => s
  | (e, setter) :: calls => runAll ((setter.run K s e).getD s) calls

/-- A field nobody sets keeps its value. -/
theorem get_runAll {hashed : Set (List K.Symbol)} (hK : Set.InjOn K.hash hashed) {y : Slot W}
    (hy : y.preimage K.packing ∈ hashed) : ∀ {calls : List (Env × Setter W)} {s : EternalStorage D},
      (∀ c ∈ calls, ∀ x ∈ c.2.slots, x.preimage K.packing ∈ hashed ∧ y ≠ x) →
        (s.runAll K calls).get K y = s.get K y := by
  intro calls
  induction calls with
  | nil =>
      intro s _
      rfl
  | cons c calls ih =>
      intro s hcalls
      obtain ⟨hc, hrest⟩ := List.forall_mem_cons.mp hcalls
      rw [runAll, ih hrest]
      cases hrun : c.2.run K s c.1 with
      | none => rfl
      | some s' =>
          exact Setter.run_frame hK hrun (fun x hx => (hc x hx).1) hy fun hmem => (hc y hmem).2 rfl

end Runs

/-! ## Separation -/

variable (K) in
/-- Where the signature of a message with an index is kept. -/
def signatureSlot (hash index : W) : Slot W := .bytes ⟨.signatures, K.signIdx hash index⟩

/-- No access of one field meets another one, as long as only what is `hashed` gets hashed. -/
structure Separated [DecidableEq D] (K : Keccak256 W D) (hashed : Set (List K.Symbol)) : Prop where
  /-- What a slot was set to is what it reads as. -/
  self : ∀ (s : EternalStorage D) (x : Slot W) (v : x.Value), (s.set K x v).get K x = v
  /-- No other slot reads differently. -/
  others : ∀ (s : EternalStorage D) (x y : Slot W) (v : x.Value), x.preimage K.packing ∈ hashed →
    y.preimage K.packing ∈ hashed → y ≠ x → (s.set K x v).get K y = s.get K y
  /-- A setter that went through leaves every field it is not of. -/
  setter : ∀ (s s' : EternalStorage D) (e : Env) (setter : Setter W), setter.run K s e = some s' →
    (∀ x ∈ setter.slots, x.preimage K.packing ∈ hashed) → ∀ y : Slot W, y.preimage K.packing ∈ hashed →
      y ∉ setter.slots → s'.get K y = s.get K y
  /-- A field no call of a run is of reads at the end as at the start. -/
  run : ∀ (s : EternalStorage D) (calls : List (Env × Setter W)) (y : Slot W), y.preimage K.packing ∈ hashed →
    (∀ c ∈ calls, ∀ x ∈ c.2.slots, x.preimage K.packing ∈ hashed ∧ y ≠ x) →
      (s.runAll K calls).get K y = s.get K y
  /-- The signature slots of other messages, and of other indices, have other keys. -/
  signIdx : ∀ h h' i i' : W, K.packing.signIdx h i ∈ hashed → K.packing.signIdx h' i' ∈ hashed →
    K.signIdx h i = K.signIdx h' i' → h = h' ∧ i = i'
  /-- And so have the flags of other signers, and of other messages. -/
  hashSender : ∀ (a a' : Address) (h h' : W), K.packing.hashSender a h ∈ hashed →
    K.packing.hashSender a' h' ∈ hashed → K.hashSender a h = K.hashSender a' h' → a = a' ∧ h = h'
  /-- A signature put into its slot is nobody else's. -/
  signature : ∀ (s : EternalStorage D) (h h' i i' : W) (signature : Bytes), K.packing.signIdx h i ∈ hashed →
    K.packing.signIdx h' i' ∈ hashed → (signatureSlot K h i).preimage K.packing ∈ hashed →
      (signatureSlot K h' i').preimage K.packing ∈ hashed → ¬ (h' = h ∧ i' = i) →
        (s.setSignatures K (K.signIdx h i) signature).signature K h' i' = s.signature K h' i'

theorem signature_setSignatures_of_ne [DecidableEq D] {hashed : Set (List K.Symbol)} (hK : Set.InjOn K.hash hashed)
    {h h' i i' : W} (signature : Bytes) (hi : K.packing.signIdx h i ∈ hashed)
    (hi' : K.packing.signIdx h' i' ∈ hashed) (hslot : (signatureSlot K h i).preimage K.packing ∈ hashed)
    (hslot' : (signatureSlot K h' i').preimage K.packing ∈ hashed) (hne : ¬ (h' = h ∧ i' = i)) :
    (s.setSignatures K (K.signIdx h i) signature).signature K h' i' = s.signature K h' i' := by
  have hother : signatureSlot K h' i' ≠ signatureSlot K h i := by
    intro he
    simp only [signatureSlot, Slot.bytes.injEq, Sigma.mk.injEq, heq_eq_eq, true_and] at he
    exact hne (Keccak256.signIdx_inj hK hi' hi he)
  exact s.get_set_of_ne hK hslot hslot' hother signature

theorem separated [DecidableEq D] {hashed : Set (List K.Symbol)} (hK : Set.InjOn K.hash hashed) :
    Separated K hashed where
  self s x v := s.get_set_self x v
  others s _ _ v hx hy hne := s.get_set_of_ne hK hx hy hne v
  setter _ _ _ _ hrun hhashed _ hy hnot := Setter.run_frame hK hrun hhashed hy hnot
  run _ _ _ hy hcalls := get_runAll hK hy hcalls
  signIdx _ _ _ _ hi hi' he := Keccak256.signIdx_inj hK hi hi' he
  hashSender _ _ _ _ ha ha' he := Keccak256.hashSender_inj hK ha ha' he
  signature s _ _ _ _ signature hi hi' hslot hslot' hne :=
    s.signature_setSignatures_of_ne hK signature hi hi' hslot hslot' hne

/-- **The fields of `EternalStorage` do not meet.** In each mapping `abi.encodePacked` tells all fields with
    all arguments apart, and so it does the keys of signatures and of signers. Where the hash does not
    collide, no setter therefore moves what another getter reads, or its own with another argument. -/
theorem eternal_storage_separated :
    Function.Injective (Field.preimage .bytes : Field.Key Bytes32 UintField → Bytes) ∧
    Function.Injective (Field.preimage .bytes : Field.Key Bytes32 AddressField → Bytes) ∧
    Function.Injective (Field.preimage .bytes : Field.Key Bytes32 BytesField → Bytes) ∧
    Function.Injective (Field.preimage .bytes : Field.Key Bytes32 BoolField → Bytes) ∧
    Function.Injective2 Packing.bytes.signIdx ∧
    Function.Injective2 Packing.bytes.hashSender ∧
    ∀ (W D : Type) [DecidableEq D] (K : Keccak256 W D) (hashed : Set (List K.Symbol)),
      Set.InjOn K.hash hashed → Separated K hashed := by
  refine ⟨?_, ?_, ?_, ?_, ?_, ?_, ?_⟩
  · exact Field.preimage_injective .bytes
  · exact Field.preimage_injective .bytes
  · exact Field.preimage_injective .bytes
  · exact Field.preimage_injective .bytes
  · exact Packing.signIdx_injective .bytes
  · exact Packing.hashSender_injective .bytes
  · intro W D _ K hashed hK
    exact separated hK

/-- The count of one day does not move with that of another. -/
theorem another_day_unmoved :
    let K := serialHash.keccak256
    (blank.setTotalSpentPerDay K (.plain 1) 5).totalSpentPerDay K (.plain 2) =
      (blank : EternalStorage (List Byte)).totalSpentPerDay K (.plain 2) := by
  have hday : (Word.plain 2 : Word (List Byte)) ≠ Word.plain 1 := by decide
  have hne : (Slot.uint ⟨.totalSpentPerDay, .plain 2⟩ : Slot (Word (List Byte))) ≠
      .uint ⟨.totalSpentPerDay, .plain 1⟩ := by
    simp only [ne_eq, Slot.uint.injEq, Sigma.mk.injEq, heq_eq_eq, true_and]
    exact hday
  obtain ⟨_, _, _, _, _, _, hall⟩ := eternal_storage_separated
  have hseparated := hall _ _ serialHash.keccak256 Set.univ serialHash.injective.injOn
  exact hseparated.others blank (.uint ⟨.totalSpentPerDay, .plain 1⟩) _ 5 (Set.mem_univ _) (Set.mem_univ _) hne

end EternalStorage
end ThunderBridge
