import ThunderBridge.Contracts.HomeBridge.Affirmation
import ThunderBridge.Contracts.Message

/-!
# `HomeBridge.Withdrawal` — withdrawals: `onTokenTransfer` and `submitSignature`

A withdrawal starts with tokens sent to the bridge: the token calls `onTokenTransfer`, which takes the
fee, burns the rest and emits `UserRequestForSignature`. The native bridge is paid in coin instead, by
`transferAndCall`. The validators then sign the message of the withdrawal, and `submitSignature` collects
the signatures in numbered slots until enough are there.
-/

namespace ThunderBridge
namespace Home

variable {H W : Type}

/-! ## Starting a withdrawal -/

/-- `setTotalSpentPerDay(today, totalSpentPerDay(today).add(value))`. -/
def addSpent (s : Home H W) (value : UInt256) : Option (Home H W) := do
  let total ← SafeMath.add (s.bridge.basic.totalSpentPerDay s.getCurrentDay) value
  pure (s.setBasic (s.bridge.basic.setTotalSpentPerDay s.getCurrentDay total))

theorem addSpent_eq_some {s s' : Home H W} {value : UInt256} : s.addSpent value = some s' ↔
    ∃ total, SafeMath.add (s.bridge.basic.totalSpentPerDay s.getCurrentDay) value = some total ∧
      s.setBasic (s.bridge.basic.setTotalSpentPerDay s.getCurrentDay total) = s' := by
  simp only [addSpent, Option.bind_eq_bind, Option.bind_eq_some_iff, Option.pure_def, Option.some.injEq]

/-- `ERC677Bridge.onTokenTransfer`: no fee, everything is burned. -/
def onTokenTransferErcToErc (call : Callee (Home H W)) (s : Home H W) (sender source : Address)
    (value : UInt256) : Option (Home H W) := do
  require (sender = s.bridge.erc677token)
  let within ← s.bridge.basic.withinLimit s.getCurrentDay value
  require (within = true)
  let s ← s.addSpent value
  let s ← call.plain (.burn s.bridge.erc677token value) s
  pure (s.emit (.UserRequestForSignature source value))

/-- What the bridges with a withdrawal fee share: the limits, the fee to `feeReceiver` by `payFee`, and
    the rest by `release` (burned, or kept by the bridge). -/
def withdrawWithFee (payFee release : Home H W → UInt256 → Option (Home H W)) (s : Home H W)
    (source : Address) (value : UInt256) : Option (Home H W) := do
  let within ← s.bridge.basic.withinLimit s.getCurrentDay value
  require (within = true)
  require (s.bridge.fees.withdrawFixedFee < value)
  let fee ← s.bridge.fees.withdrawFee value
  let s ← whenNonzero fee (fun s => payFee s fee) s
  let rest ← SafeMath.sub value fee
  let s ← s.addSpent rest
  let s ← release s rest
  pure (s.emit (.UserRequestForSignature source rest))

/-- `require(erc677token().transfer(feeReceiver(), fee))`. -/
def payFeeInToken (call : Callee (Home H W)) (s : Home H W) (fee : UInt256) : Option (Home H W) := do
  let (s, ok) ← call.bool (.transfer s.bridge.erc677token s.bridge.fees.feeReceiver fee) s
  require (ok = true)
  pure s

/-- `HomeBridgeErcToErcWithFee.onTokenTransfer`. -/
def onTokenTransferWithFee (call : Callee (Home H W)) (s : Home H W) (sender source : Address)
    (value : UInt256) : Option (Home H W) := do
  require (sender = s.bridge.erc677token)
  withdrawWithFee (payFeeInToken call)
    (fun s rest => call.plain (.burn s.bridge.erc677token rest) s) s source value

/-- `HomeBridgeErcToErcWithFeeV2.onTokenTransfer`. -/
def onTokenTransferWithFeeV2 (call : Callee (Home H W)) (s : Home H W) (sender source : Address)
    (value : UInt256) : Option (Home H W) := do
  require (sender = s.bridge.erc677token)
  withdrawWithFee (payFeeInToken call)
    (fun s rest => call.plain (.minterBurnerBurn s.bridge.minterBurner s.bridge.self rest) s) s source value

/-- `HomeBridgeErc677ToErc677WithFee.onTokenTransfer`: the bridge keeps the tokens. -/
def onTokenTransferErc677 (call : Callee (Home H W)) (s : Home H W) (sender source : Address)
    (value : UInt256) : Option (Home H W) := do
  require (sender = s.bridge.erc677token)
  withdrawWithFee (payFeeInToken call) (fun s _ => pure s) s source value

/-- `onTokenTransfer` of each contract; the native bridge inherits the one with fee. -/
def onTokenTransfer (V : HomeVariant) (call : Callee (Home H W)) (s : Home H W) (sender source : Address)
    (value : UInt256) : Option (Home H W) :=
  match V with
  | .ercToErc => onTokenTransferErcToErc call s sender source value
  | .ercToErcWithFee => onTokenTransferWithFee call s sender source value
  | .ercToErcWithFeeV2 => onTokenTransferWithFeeV2 call s sender source value
  | .erc677ToErc677WithFee => onTokenTransferErc677 call s sender source value
  | .nativeToErcWithFee => onTokenTransferWithFee call s sender source value

/-- `HomeBridgeNativeToErcWithFee.transferAndCall`, paid `msgValue` coins. The fallback function is
    `transferAndCall(this, msg.value, "0x")`. -/
def transferAndCall (call : Callee (Home H W)) (s : Home H W) (sender target : Address)
    (value msgValue : UInt256) : Option (Home H W) := do
  require (target = s.bridge.self)
  require (value = msgValue)
  withdrawWithFee
    (fun s fee => do
      let (s, sent) := tokenTransferNative call s s.bridge.fees.feeReceiver fee
      require (sent = true)
      pure s)
    (fun s _ => pure s) s sender value

/-! ## Collecting signatures -/

def numMessagesSigned (s : Home H W) (h : H) : UInt256 := s.bridge.ledger.numMessagesSigned h

def messagesSigned (s : Home H W) (h : H) : Bool := s.bridge.ledger.messagesSigned h

/-- `message(hash)`. -/
def message (s : Home H W) (h : H) : Bytes := s.bridge.ledger.messages h

/-- The key of a signature slot: `keccak256(abi.encodePacked(hash, index))`. -/
def signIdx (K : CollisionFree H) (h : H) (index : UInt256) : H :=
  K.hash ([Chunk.digest h] ++ Chunk.raw (packWord index))

/-- `signature(hash, index)`. -/
def signature (K : CollisionFree H) (s : Home H W) (h : H) (index : UInt256) : Bytes :=
  s.bridge.ledger.signatures (signIdx K h index)

section Writes

variable [DecidableEq H]

def setNumMessagesSigned (s : Home H W) (h : H) (n : UInt256) : Home H W :=
  s.setLedger { s.bridge.ledger with
    numMessagesSigned := Function.update s.bridge.ledger.numMessagesSigned h n }

def setMessagesSigned (s : Home H W) (h : H) (status : Bool) : Home H W :=
  s.setLedger { s.bridge.ledger with
    messagesSigned := Function.update s.bridge.ledger.messagesSigned h status }

def setMessages (s : Home H W) (h : H) (m : Bytes) : Home H W :=
  s.setLedger { s.bridge.ledger with messages := Function.update s.bridge.ledger.messages h m }

def setSignatures (s : Home H W) (h : H) (sig : Bytes) : Home H W :=
  s.setLedger { s.bridge.ledger with signatures := Function.update s.bridge.ledger.signatures h sig }

/-- The digest under which a message is collected. -/
def messageHash (K : CollisionFree H) (m : Bytes) : H := K.hash (Chunk.raw m)

/-- `BasicHomeBridge.submitSignature`, called by `sender`. -/
def submitSignature (K : CollisionFree H) (ecrecover : Ecrecover H) (s : Home H W) (sender : Address)
    (signature message : Bytes) : Option (Home H W) := do
  require (s.validators.isValidator sender = true)
  require (Message.isMessageValid message = true)
  let signer ← Message.recoverAddressFromSignedMessage K ecrecover signature message
  require (sender = signer)
  let h := messageHash K message
  let hs := hashSender K sender h
  let signed := s.numMessagesSigned h
  require (isAlreadyProcessed signed = false)
  let signed := signed + 1
  -- duplicated signatures; the first one is not looked up
  require (1 < signed → s.messagesSigned hs = false)
  let s := if 1 < signed then s else s.setMessages h message
  let s := s.setMessagesSigned hs true
  -- the slots are numbered from zero
  let s := s.setSignatures (signIdx K h (signed - 1)) signature
  let s := s.setNumMessagesSigned h signed
  let s := s.emit (.SignedForUserRequest sender h)
  let reqSigs := s.validators.requiredSignatures
  if reqSigs ≤ signed then
    pure ((s.setNumMessagesSigned h (markAsProcessed signed)).emit (.CollectedSignatures sender h reqSigs))
  else pure s

end Writes
end Home
end ThunderBridge
