import ThunderBridge.Contracts.HomeBridge.State

/-!
# `HomeBridge.Affirmation` — deposits: `executeAffirmation` and the overdraw ledger

`BasicHomeBridge.executeAffirmation` with the overrides of `HomeBridgeErcToErc` (`affirmationWithinLimits`,
`onFailedAffirmation`), the five implementations of `onExecuteAffirmation`, and
`OverdrawManagement.fixAssetsAboveLimits`.

`HomeVariant` names the deployed contract; what Solidity resolves by inheritance is resolved by it.
-/

namespace ThunderBridge

/-- The home bridge contracts of the repository. -/
inductive HomeVariant where
  | ercToErc
  | ercToErcWithFee
  | ercToErcWithFeeV2
  | erc677ToErc677WithFee
  | nativeToErcWithFee
deriving DecidableEq, Repr

variable {H W : Type}

/-! ## Digests -/

/-- `keccak256(abi.encodePacked(recipient, value, transactionHash))`. -/
def hashMsg (K : CollisionFree H) (recipient : Address) (value : UInt256) (transactionHash : Bytes32) : H :=
  K.hash (Chunk.raw (packAddress recipient ++ packWord value ++ packWord transactionHash))

/-- `keccak256(abi.encodePacked(msg.sender, hashMsg))`. -/
def hashSender (K : CollisionFree H) (sender : Address) (h : H) : H :=
  K.hash (Chunk.raw (packAddress sender) ++ [Chunk.digest h])

/-- The digest of a deposit. -/
def depositHash (K : CollisionFree H) (d : Deposit) : H := hashMsg K d.1 d.2.1 d.2.2

theorem depositHash_injective (K : CollisionFree H) : Function.Injective (depositHash K) := by
  rintro ⟨r, v, t⟩ ⟨r', v', t'⟩ h
  have hraw := Chunk.raw_injective (K.injective h)
  obtain ⟨hrv, ht⟩ := List.append_inj hraw (by simp)
  obtain ⟨hr, hv⟩ := List.append_inj hrv (by simp)
  exact Prod.ext (packAddress_injective hr) (Prod.ext (packWord_injective hv) (packWord_injective ht))

theorem hashSender_injective (K : CollisionFree H) {a a' : Address} {h h' : H}
    (he : hashSender K a h = hashSender K a' h') : a = a' ∧ h = h' := by
  obtain ⟨ha, hh⟩ := List.append_inj (K.injective he) (by simp)
  refine ⟨packAddress_injective (Chunk.raw_injective ha), ?_⟩
  simpa using hh

/-! ## The packed word -/

/-- `markAsProcessed`: `v | 2 ** 255`. -/
def markAsProcessed (v : UInt256) : UInt256 := v ||| BitVec.twoPow 256 255

/-- `isAlreadyProcessed`: `v & 2 ** 255 == 2 ** 255`. -/
def isAlreadyProcessed (v : UInt256) : Bool := v &&& BitVec.twoPow 256 255 == BitVec.twoPow 256 255

namespace Home

/-! ## Reads and writes of the affirmation ledger -/

def numAffirmationsSigned (s : Home H W) (h : H) : UInt256 := s.bridge.ledger.numAffirmationsSigned h

def affirmationsSigned (s : Home H W) (h : H) : Bool := s.bridge.ledger.affirmationsSigned h

def setNumAffirmationsSigned [DecidableEq H] (s : Home H W) (h : H) (n : UInt256) : Home H W :=
  s.setLedger { s.bridge.ledger with
    numAffirmationsSigned := Function.update s.bridge.ledger.numAffirmationsSigned h n }

def setAffirmationsSigned [DecidableEq H] (s : Home H W) (h : H) (status : Bool) : Home H W :=
  s.setLedger { s.bridge.ledger with
    affirmationsSigned := Function.update s.bridge.ledger.affirmationsSigned h status }

/-! ## Settling an affirmation -/

/-- `setTotalExecutedPerDay(today, totalExecutedPerDay(today).add(value))`. -/
def addExecuted (s : Home H W) (value : UInt256) : Option (Home H W) := do
  let total ← SafeMath.add (s.bridge.basic.totalExecutedPerDay s.getCurrentDay) value
  pure (s.setBasic (s.bridge.basic.setTotalExecutedPerDay s.getCurrentDay total))

theorem addExecuted_eq_some {s s' : Home H W} {value : UInt256} : s.addExecuted value = some s' ↔
    ∃ total, SafeMath.add (s.bridge.basic.totalExecutedPerDay s.getCurrentDay) value = some total ∧
      s.setBasic (s.bridge.basic.setTotalExecutedPerDay s.getCurrentDay total) = s' := by
  simp only [addExecuted, Option.bind_eq_bind, Option.bind_eq_some_iff, Option.pure_def, Option.some.injEq]

/-- `subtractFee`. -/
def subtractFee (s : Home H W) (value : UInt256) : Option UInt256 :=
  FeeManager.subtractFee s.bridge.feePercent value

/-- Mints the same amount to each of the given addresses, whatever the token answers. -/
def mintEach (call : Callee (Home H W)) (amount : UInt256) : List Address → Home H W → Option (Home H W)
  | [], s => some s
  | a :: as, s => do
      let s ← call.unchecked (.mint s.bridge.erc677token a amount) s
      mintEach call amount as s

/-- `HomeBridgeErcToErc.onExecuteAffirmation`: the fee is split among the validators. -/
def onExecuteAffirmationErcToErc (call : Callee (Home H W)) (s : Home H W) (recipient : Address)
    (value : UInt256) : Option (Home H W × Bool) := do
  let s ← s.addExecuted value
  if s.bridge.feePercent = 0 then
    call.bool (.mint s.bridge.erc677token recipient value) s
  else do
    let userValue ← s.subtractFee value
    let validators := s.validators.validatorsArray
    let entireValidatorValue ← SafeMath.sub value userValue
    let particularValidatorValue ← SafeMath.div entireValidatorValue (BitVec.ofNat 256 validators.length)
    let s ← mintEach call particularValidatorValue (validators.take (validators.length - 1)) s
    -- the last validator gets what rounding left over
    let others ← SafeMath.sub (BitVec.ofNat 256 validators.length) 1
    let paid ← SafeMath.mul particularValidatorValue others
    let lastValidatorValue ← SafeMath.sub entireValidatorValue paid
    let s ← mintEach call lastValidatorValue (validators.drop (validators.length - 1)) s
    call.bool (.mint s.bridge.erc677token recipient userValue) s

/-- What the three token bridges with deposit fee share: the fee to `feeReceiver`, the rest to the
    recipient, each paid by one call `pay target amount` whose boolean answer is dropped. -/
def settleWithFee (call : Callee (Home H W)) (pay : Home H W → Address → UInt256 → ExtCall) (s : Home H W)
    (recipient : Address) (value : UInt256) : Option (Home H W × Bool) := do
  let s ← s.addExecuted value
  let fee ← s.bridge.fees.depositFee value
  -- a fee that covers the value takes all of it
  if value ≤ fee then do
    let s ← call.unchecked (pay s s.bridge.fees.feeReceiver value) s
    pure (s, true)
  else do
    let s ← whenNonzero fee (fun s => call.unchecked (pay s s.bridge.fees.feeReceiver fee) s) s
    let rest ← SafeMath.sub value fee
    let s ← whenNonzero rest (fun s => call.unchecked (pay s recipient rest) s) s
    pure (s, true)

/-- `HomeBridgeErcToErcWithFee.onExecuteAffirmation`: minted by the token. -/
def onExecuteAffirmationWithFee (call : Callee (Home H W)) (s : Home H W) (recipient : Address)
    (value : UInt256) : Option (Home H W × Bool) :=
  settleWithFee call (fun s target amount => .mint s.bridge.erc677token target amount) s recipient value

/-- `HomeBridgeErcToErcWithFeeV2.onExecuteAffirmation`: minted through `minterBurner`. -/
def onExecuteAffirmationWithFeeV2 (call : Callee (Home H W)) (s : Home H W) (recipient : Address)
    (value : UInt256) : Option (Home H W × Bool) :=
  settleWithFee call (fun s target amount => .minterBurnerMint s.bridge.minterBurner target amount) s
    recipient value

/-- `HomeBridgeErc677ToErc677WithFee.onExecuteAffirmation`: transferred from the bridge's own tokens. -/
def onExecuteAffirmationErc677 (call : Callee (Home H W)) (s : Home H W) (recipient : Address)
    (value : UInt256) : Option (Home H W × Bool) :=
  settleWithFee call (fun s target amount => .transfer s.bridge.erc677token target amount) s recipient value

/-- `HomeBridgeNativeToErcWithFee.tokenTransfer`: `send`, true when it went through. -/
def tokenTransferNative (call : Callee (Home H W)) (s : Home H W) (target : Address) (value : UInt256) :
    Home H W × Bool :=
  let (s, data) := call.lowLevel (.send target value) s
  (s, data.isSome)

/-- `HomeBridgeNativeToErcWithFee.onExecuteAffirmation`: native coin, with a fallback recipient. -/
def onExecuteAffirmationNative (call : Callee (Home H W)) (s : Home H W) (recipient : Address)
    (value : UInt256) : Option (Home H W × Bool) := do
  let s ← s.addExecuted value
  let fee ← s.bridge.fees.depositFee value
  -- nobody looks whether a fee arrived
  if value ≤ fee then
    pure ((tokenTransferNative call s s.bridge.fees.feeReceiver value).1, true)
  else do
    let s := if fee ≠ 0 then (tokenTransferNative call s s.bridge.fees.feeReceiver fee).1 else s
    let rest ← SafeMath.sub value fee
    if rest = 0 then pure (s, true)
    else
      -- the recipient may refuse coin
      let (s, sent) := tokenTransferNative call s recipient rest
      if sent then pure (s, true)
      else do
        let fallbackRecipient := s.bridge.fallbackRecipient
        require (fallbackRecipient ≠ 0)
        let s ← call.plain (.send fallbackRecipient rest) s
        pure (s.emit (.RecipientRedirected recipient fallbackRecipient), true)

def onExecuteAffirmation (V : HomeVariant) (call : Callee (Home H W)) (s : Home H W) (recipient : Address)
    (value : UInt256) : Option (Home H W × Bool) :=
  match V with
  | .ercToErc => onExecuteAffirmationErcToErc call s recipient value
  | .ercToErcWithFee => onExecuteAffirmationWithFee call s recipient value
  | .ercToErcWithFeeV2 => onExecuteAffirmationWithFeeV2 call s recipient value
  | .erc677ToErc677WithFee => onExecuteAffirmationErc677 call s recipient value
  | .nativeToErcWithFee => onExecuteAffirmationNative call s recipient value

/-! ## The overdraw ledger -/

/-- `onFailedAffirmation`: an affirmation above the limits is recorded once for its transaction hash. -/
def onFailedAffirmation (s : Home H W) (recipient : Address) (value : UInt256) (txHash : Bytes32) :
    Option (Home H W) := do
  let o := s.bridge.overdraw
  require (o.txOutOfLimitRecipient txHash = 0 ∧ o.txOutOfLimitValue txHash = 0)
  let total ← SafeMath.add o.outOfLimitAmount value
  let s := s.setOverdraw { o with
    outOfLimitAmount := total
    txOutOfLimitRecipient := Function.update o.txOutOfLimitRecipient txHash recipient
    txOutOfLimitValue := Function.update o.txOutOfLimitValue txHash value }
  pure (s.emit (.AmountLimitExceeded recipient value txHash))

theorem onFailedAffirmation_cases {s s' : Home H W} {recipient : Address} {value : UInt256} {t : Bytes32}
    (h : s.onFailedAffirmation recipient value t = some s') :
    s.bridge.overdraw.txOutOfLimitRecipient t = 0 ∧ ∃ total,
      SafeMath.add s.bridge.overdraw.outOfLimitAmount value = some total ∧
      s' = (s.setOverdraw { s.bridge.overdraw with
        outOfLimitAmount := total
        txOutOfLimitRecipient := Function.update s.bridge.overdraw.txOutOfLimitRecipient t recipient
        txOutOfLimitValue := Function.update s.bridge.overdraw.txOutOfLimitValue t value }).emit
          (.AmountLimitExceeded recipient value t) := by
  simp only [onFailedAffirmation, Option.bind_eq_bind, Option.bind_eq_some_iff, require_eq_some, exists_const,
    Option.pure_def, Option.some.injEq] at h
  obtain ⟨⟨hfree, _⟩, total, htotal, rfl⟩ := h
  exact ⟨hfree, total, htotal, rfl⟩

/-- `OverdrawManagement.fixAssetsAboveLimits`. -/
def fixAssetsAboveLimits (s : Home H W) (sender : Address) (txHash : Bytes32) (unlockOnForeign : Bool) :
    Option (Home H W) := do
  require (sender = s.bridge.proxyOwner)
  let o := s.bridge.overdraw
  require (o.fixedAssets txHash = false)
  let recipient := o.txOutOfLimitRecipient txHash
  let value := o.txOutOfLimitValue txHash
  require (recipient ≠ 0 ∧ 0 < value)
  let rest ← SafeMath.sub o.outOfLimitAmount value
  let s := s.setOverdraw { o with outOfLimitAmount := rest }
  let s := if unlockOnForeign then s.emit (.UserRequestForSignature recipient value) else s
  let s := s.setOverdraw { s.bridge.overdraw with
    fixedAssets := Function.update s.bridge.overdraw.fixedAssets txHash true }
  pure (s.mark (.fixed (recipient, value, txHash)))

/-- A fix writes the overdraw ledger and the trail; an unlock is also on the log. -/
theorem fixAssetsAboveLimits_cases {s s' : Home H W} {sender : Address} {t : Bytes32} {unlockOnForeign : Bool}
    (h : s.fixAssetsAboveLimits sender t unlockOnForeign = some s') :
    let o := s.bridge.overdraw
    let recipient := o.txOutOfLimitRecipient t
    let value := o.txOutOfLimitValue t
    recipient ≠ 0 ∧ ∃ rest, SafeMath.sub o.outOfLimitAmount value = some rest ∧
      s' = { s with bridge := { s.bridge with
        overdraw := { o with
          outOfLimitAmount := rest
          fixedAssets := Function.update o.fixedAssets t true }
        log := (if unlockOnForeign then [(s.txHash, .UserRequestForSignature recipient value)] else []) ++
          s.bridge.log
        trail := .fixed (recipient, value, t) :: s.bridge.trail } } := by
  simp only [fixAssetsAboveLimits, Option.bind_eq_bind, Option.bind_eq_some_iff, require_eq_some, exists_const,
    Option.pure_def, Option.some.injEq] at h
  obtain ⟨_, _, ⟨hrecipient, _⟩, rest, hrest, rfl⟩ := h
  refine ⟨hrecipient, rest, hrest, ?_⟩
  cases unlockOnForeign with
  | true => rfl
  | false => rfl

/-! ## `executeAffirmation` -/

/-- `BasicHomeBridge.executeAffirmation`, called by `sender`. -/
def executeAffirmation [DecidableEq H] (K : CollisionFree H) (V : HomeVariant) (call : Callee (Home H W))
    (s : Home H W) (sender recipient : Address) (value : UInt256) (transactionHash : Bytes32) :
    Option (Home H W) := do
  require (s.validators.isValidator sender = true)
  let within ← s.bridge.basic.withinExecutionLimit s.getCurrentDay value
  if within then do
    let h := hashMsg K recipient value transactionHash
    let hs := hashSender K sender h
    -- duplicated affirmations
    require (s.affirmationsSigned hs = false)
    let s := s.setAffirmationsSigned hs true
    let signed := s.numAffirmationsSigned h
    require (isAlreadyProcessed signed = false)
    let signed := signed + 1
    let s := s.setNumAffirmationsSigned h signed
    let s := s.emit (.SignedForAffirmation sender transactionHash)
    let s := s.mark (.signed sender (recipient, value, transactionHash) s.validators)
    if s.validators.requiredSignatures ≤ signed then do
      -- before the payment, so that a callee that comes back finds the deposit processed
      let s := s.setNumAffirmationsSigned h (markAsProcessed signed)
      let (s, ok) ← onExecuteAffirmation V call s recipient value
      require (ok = true)
      let s := s.mark (.executed (recipient, value, transactionHash) (s.numAffirmationsSigned h) s.validators)
      pure (s.emit (.AffirmationCompleted recipient value transactionHash))
    else pure s
  else s.onFailedAffirmation recipient value transactionHash

end Home
end ThunderBridge
