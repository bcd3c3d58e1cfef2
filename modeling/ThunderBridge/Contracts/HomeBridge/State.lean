import ThunderBridge.Contracts.BasicBridge

/-!
# `HomeBridge.State` — what a home bridge stores, and the chain around it

The storage of the home bridges, one record for each contract of the inheritance chain
(`BasicBridge`, `BasicHomeBridge`, `OverdrawManagement`, `DepositWithdrawFeeManager`), with one field for
each logical entry of `EternalStorage`. `Home H W` is the home chain: the validator contract, the bridge,
the block time, and a `world` of type `W` for everything outside the two contracts.

`trail` is a ghost: no function reads it. It records the moments the properties speak about, each with
the validator contract as it stood then.
-/

namespace ThunderBridge

/-! ## Storage -/

/-- The storage of `BasicHomeBridge`: affirmations and collected signatures, by digest. -/
structure BasicHomeBridge (H : Type) where
  numAffirmationsSigned : H → UInt256
  affirmationsSigned : H → Bool
  numMessagesSigned : H → UInt256
  messagesSigned : H → Bool
  messages : H → Bytes
  signatures : H → Bytes

/-- The storage of `OverdrawManagement`, by foreign transaction hash. -/
structure OverdrawManagement where
  outOfLimitAmount : UInt256
  txOutOfLimitRecipient : Bytes32 → Address
  txOutOfLimitValue : Bytes32 → UInt256
  fixedAssets : Bytes32 → Bool

/-- The storage of `DepositWithdrawFeeManager`. -/
structure DepositWithdrawFeeManager where
  feeReceiver : Address
  withdrawFixedFee : UInt256
  withdrawFeePercent : UInt256
  depositFixedFee : UInt256
  depositFeePercent : UInt256

/-- The larger of a fixed fee and a percentage fee. -/
def maxFee (minFee feePercent value : UInt256) : Option UInt256 := do
  let fee ← percentageFee value feePercent
  pure (if fee < minFee then minFee else fee)

namespace DepositWithdrawFeeManager

def withdrawFee (f : DepositWithdrawFeeManager) (value : UInt256) : Option UInt256 :=
  maxFee f.withdrawFixedFee f.withdrawFeePercent value

def depositFee (f : DepositWithdrawFeeManager) (value : UInt256) : Option UInt256 :=
  maxFee f.depositFixedFee f.depositFeePercent value

end DepositWithdrawFeeManager

/-- The events of the home bridges. -/
inductive HomeEvent (H : Type) where
  | UserRequestForSignature (recipient : Address) (value : UInt256)
  | AffirmationCompleted (recipient : Address) (value : UInt256) (transactionHash : Bytes32)
  | SignedForUserRequest (signer : Address) (messageHash : H)
  | SignedForAffirmation (signer : Address) (transactionHash : Bytes32)
  | CollectedSignatures (authorityResponsibleForRelay : Address) (messageHash : H)
      (NumberOfCollectedSignatures : UInt256)
  | AmountLimitExceeded (recipient : Address) (value : UInt256) (transactionHash : Bytes32)
  | RecipientRedirected (source target : Address)
deriving DecidableEq, Repr

/-- A foreign deposit as the validators affirm it: recipient, value, foreign transaction hash. -/
abbrev Deposit := Address × UInt256 × Bytes32

/-- A moment of the bridge's history, with the validator contract as it was then. -/
inductive Mark where
  /-- `signer` signed the affirmation of the deposit. -/
  | signed (signer : Address) (deposit : Deposit) (validators : BridgeValidators)
  /-- `onExecuteAffirmation` succeeded for the deposit, its count standing at `word`. -/
  | executed (deposit : Deposit) (word : UInt256) (validators : BridgeValidators)
  /-- `fixAssetsAboveLimits` succeeded on the entry recorded for the deposit. -/
  | fixed (deposit : Deposit)

/-- The storage of a home bridge behind its proxy, and the events it emitted (newest first, each with
    the hash of its transaction). -/
structure HomeBridge (H : Type) where
  self : Address
  proxyOwner : Address
  basic : BasicBridge
  ledger : BasicHomeBridge H
  overdraw : OverdrawManagement
  feePercent : UInt256
  fees : DepositWithdrawFeeManager
  erc677token : Address
  minterBurner : Address
  fallbackRecipient : Address
  log : List (Bytes32 × HomeEvent H)
  trail : List Mark

/-- The home chain. -/
structure Home (H W : Type) where
  validators : BridgeValidators
  bridge : HomeBridge H
  /-- Time of the current block. -/
  now : UInt256
  /-- Hash of the transaction being executed. -/
  txHash : Bytes32
  world : W

namespace Home

variable {H W : Type}

def getCurrentDay (s : Home H W) : UInt256 := s.now / days

def emit (s : Home H W) (e : HomeEvent H) : Home H W :=
  { s with bridge := { s.bridge with log := (s.txHash, e) :: s.bridge.log } }

def mark (s : Home H W) (m : Mark) : Home H W :=
  { s with bridge := { s.bridge with trail := m :: s.bridge.trail } }

def setBasic (s : Home H W) (b : BasicBridge) : Home H W :=
  { s with bridge := { s.bridge with basic := b } }

def setLedger (s : Home H W) (l : BasicHomeBridge H) : Home H W :=
  { s with bridge := { s.bridge with ledger := l } }

def setOverdraw (s : Home H W) (o : OverdrawManagement) : Home H W :=
  { s with bridge := { s.bridge with overdraw := o } }

section Frame

variable (s : Home H W) (e : HomeEvent H) (o : OverdrawManagement)

@[simp] theorem emit_overdraw : (s.emit e).bridge.overdraw = s.bridge.overdraw := rfl
@[simp] theorem setOverdraw_overdraw : (s.setOverdraw o).bridge.overdraw = o := rfl

end Frame

end Home
end ThunderBridge
