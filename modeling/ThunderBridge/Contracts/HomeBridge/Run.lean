import ThunderBridge.Contracts.HomeBridge.Withdrawal
import ThunderBridge.Lib.Calls

/-!
# `HomeBridge.Run` — the home chain as a transition system

`BridgeTx` is one call of the bridge by anybody and `exec` what it does. While it runs, the contracts and
accounts it calls may call the bridge back, in any way and to any depth: `Invoke` is one such call over
what its outgoing calls may do, and `Calls.Nested` closes it up. `Step` is one step of the chain: a call of
the bridge from outside, a transaction to the validator contract, a new block, or anything that happens
elsewhere.
-/

namespace ThunderBridge

/-- The settings only the owner changes. -/
inductive OwnerSetting where
  | basic (setting : BasicBridge.Setting)
  | setFeePercent (feePercent : UInt256)
  | setFeeReceiver (receiver : Address)
  | setWithdrawFixedFee (fixedFee : UInt256)
  | setWithdrawFeePercent (feePercent : UInt256)
  | setDepositFixedFee (fixedFee : UInt256)
  | setDepositFeePercent (feePercent : UInt256)
  | setMinterBurner (minterBurner : Address)
  | setFallbackRecipient (recipient : Address)
deriving Repr

/-- One call of a home bridge. -/
inductive BridgeTx where
  | executeAffirmation (sender recipient : Address) (value : UInt256) (transactionHash : Bytes32)
  | fixAssetsAboveLimits (sender : Address) (txHash : Bytes32) (unlockOnForeign : Bool)
  | onTokenTransfer (sender source : Address) (value : UInt256)
  | transferAndCall (sender target : Address) (value msgValue : UInt256)
  | submitSignature (sender : Address) (signature message : Bytes)
  | setting (sender : Address) (setting : OwnerSetting)
deriving Repr

namespace Home

variable {H W : Type}

/-! ## Owner settings -/

def setFees (s : Home H W) (f : DepositWithdrawFeeManager) : Home H W :=
  { s with bridge := { s.bridge with fees := f } }

/-- The contracts that have the deposit and withdrawal fees of `DepositWithdrawFeeManager`. -/
def hasDepositWithdrawFee (V : HomeVariant) : Prop := V ≠ .ercToErc

instance (V : HomeVariant) : Decidable (hasDepositWithdrawFee V) :=
  inferInstanceAs (Decidable (V ≠ .ercToErc))

/-- A setter called by the owner. A contract without it reverts, and so does a setter it deprecated. -/
def applySetting (V : HomeVariant) (s : Home H W) : OwnerSetting → Option (Home H W)
  | .basic setting => do
      let b ← s.bridge.basic.applySetting setting
      pure (s.setBasic b)
  | .setFeePercent n => do
      require (V = .ercToErc)
      require (n < 10000)
      pure { s with bridge := { s.bridge with feePercent := n } }
  | .setFeeReceiver a => do
      require (hasDepositWithdrawFee V)
      pure (s.setFees { s.bridge.fees with feeReceiver := a })
  | .setWithdrawFixedFee n => do
      require (hasDepositWithdrawFee V)
      pure (s.setFees { s.bridge.fees with withdrawFixedFee := n })
  | .setWithdrawFeePercent n => do
      require (hasDepositWithdrawFee V)
      require (n < 10000)
      pure (s.setFees { s.bridge.fees with withdrawFeePercent := n })
  | .setDepositFixedFee n => do
      require (hasDepositWithdrawFee V)
      pure (s.setFees { s.bridge.fees with depositFixedFee := n })
  | .setDepositFeePercent n => do
      require (hasDepositWithdrawFee V)
      require (n < 10000)
      pure (s.setFees { s.bridge.fees with depositFeePercent := n })
  | .setMinterBurner a => do
      require (V = .ercToErcWithFeeV2)
      pure { s with bridge := { s.bridge with minterBurner := a } }
  | .setFallbackRecipient a => do
      require (V = .nativeToErcWithFee)
      require (a ≠ 0)
      pure { s with bridge := { s.bridge with fallbackRecipient := a } }

/-- A setting writes the limits, or the parameters of the fees and of the payments. -/
theorem applySetting_cases {V : HomeVariant} {s s' : Home H W} {setting : OwnerSetting}
    (h : applySetting V s setting = some s') :
    (∃ b basic, s.bridge.basic.applySetting b = some basic ∧ s' = s.setBasic basic) ∨
    ∃ feePercent fees minterBurner fallbackRecipient, s' = { s with bridge := { s.bridge with
      feePercent := feePercent
      fees := fees
      minterBurner := minterBurner
      fallbackRecipient := fallbackRecipient } } := by
  cases setting <;>
    simp only [applySetting, Option.bind_eq_bind, Option.bind_eq_some_iff, require_eq_some, exists_const,
      Option.pure_def, Option.some.injEq] at h
  case basic b =>
    obtain ⟨basic, hb, rfl⟩ := h
    exact .inl ⟨b, basic, hb, rfl⟩
  case setFeeReceiver | setWithdrawFixedFee | setDepositFixedFee | setMinterBurner =>
    obtain ⟨_, rfl⟩ := h
    exact .inr ⟨_, _, _, _, rfl⟩
  case setFeePercent | setWithdrawFeePercent | setDepositFeePercent | setFallbackRecipient =>
    obtain ⟨_, _, rfl⟩ := h
    exact .inr ⟨_, _, _, _, rfl⟩

/-! ## One call of the bridge -/

variable [DecidableEq H]

/-- A call of the bridge, the calls it makes answered by `call`; `none` when it reverts. -/
def exec (K : CollisionFree H) (ecrecover : Ecrecover H) (V : HomeVariant) (call : Callee (Home H W))
    (s : Home H W) : BridgeTx → Option (Home H W)
  | .executeAffirmation sender recipient value transactionHash =>
      executeAffirmation K V call s sender recipient value transactionHash
  | .fixAssetsAboveLimits sender txHash unlockOnForeign =>
      s.fixAssetsAboveLimits sender txHash unlockOnForeign
  | .onTokenTransfer sender source value => onTokenTransfer V call s sender source value
  | .transferAndCall sender target value msgValue => do
      require (V = .nativeToErcWithFee)
      transferAndCall call s sender target value msgValue
  | .submitSignature sender signature message => submitSignature K ecrecover s sender signature message
  | .setting sender setting => do
      require (sender = s.bridge.basic.owner)
      applySetting V s setting

/-! ## Runs -/

/-- A callee whose every answer changes the state as `out` allows. -/
def Within (out : Home H W → Home H W → Prop) (call : Callee (Home H W)) : Prop :=
  ∀ c s s' data, call c s = some (s', data) → out s s'

/-- One call of the bridge that `allowed` admits, over what its outgoing calls may do. -/
def Invoke (K : CollisionFree H) (ecrecover : Ecrecover H) (V : HomeVariant)
    (allowed : Home H W → BridgeTx → Prop) (out : Home H W → Home H W → Prop) (s s' : Home H W) : Prop :=
  ∃ call tx, allowed s tx ∧ Within out call ∧ exec K ecrecover V call s tx = some s'

/-- Anything that happens outside the two contracts. -/
def Elsewhere (s s' : Home H W) : Prop := ∃ w, s' = { s with world := w }

/-- A call of the bridge whose callees call it back at most `n` deep, `allowed` admitting every one of
    these calls in the state it is made in. -/
abbrev Call (K : CollisionFree H) (ecrecover : Ecrecover H) (V : HomeVariant)
    (allowed : Home H W → BridgeTx → Prop) (n : Nat) : Home H W → Home H W → Prop :=
  Calls.Nested (Invoke K ecrecover V allowed) Elsewhere n

/-- One step of the home chain, with the calls of the bridge that `allowed` admits. -/
inductive StepWhen (K : CollisionFree H) (ecrecover : Ecrecover H) (V : HomeVariant)
    (allowed : Home H W → BridgeTx → Prop) : Home H W → Home H W → Prop where
  /-- A call of the bridge succeeds. -/
  | bridge {s s' : Home H W} (n : Nat) (h : Call K ecrecover V allowed n s s') :
      StepWhen K ecrecover V allowed s s'
  /-- A transaction to the validator contract succeeds. -/
  | validators {s : Home H W} {v : BridgeValidators} (h : s.validators.Step v) :
      StepWhen K ecrecover V allowed s { s with validators := v }
  /-- A new transaction, in this block or a later one. -/
  | tick {s : Home H W} (now : UInt256) (txHash : Bytes32) (h : s.now ≤ now) :
      StepWhen K ecrecover V allowed s { s with now := now, txHash := txHash }
  /-- The rest of the chain moves. -/
  | elsewhere {s s' : Home H W} (h : Elsewhere s s') : StepWhen K ecrecover V allowed s s'

/-- A run in which every call of the bridge is admitted. -/
abbrev RunWhen (K : CollisionFree H) (ecrecover : Ecrecover H) (V : HomeVariant)
    (allowed : Home H W → BridgeTx → Prop) : Home H W → Home H W → Prop :=
  Relation.ReflTransGen (StepWhen K ecrecover V allowed)

/-- A run of the home chain: any call of the bridge, by anybody. -/
abbrev Run (K : CollisionFree H) (ecrecover : Ecrecover H) (V : HomeVariant) :
    Home H W → Home H W → Prop :=
  RunWhen K ecrecover V fun _ _ => True

/-- A chain just deployed: nothing signed, nothing recorded, no validators; the settings are free. -/
structure Fresh (s : Home H W) : Prop where
  validators : s.validators = BridgeValidators.blank
  numAffirmationsSigned : ∀ h, s.bridge.ledger.numAffirmationsSigned h = 0
  affirmationsSigned : ∀ h, s.bridge.ledger.affirmationsSigned h = false
  numMessagesSigned : ∀ h, s.bridge.ledger.numMessagesSigned h = 0
  messagesSigned : ∀ h, s.bridge.ledger.messagesSigned h = false
  txOutOfLimitRecipient : ∀ t, s.bridge.overdraw.txOutOfLimitRecipient t = 0
  txOutOfLimitValue : ∀ t, s.bridge.overdraw.txOutOfLimitValue t = 0
  fixedAssets : ∀ t, s.bridge.overdraw.fixedAssets t = false
  outOfLimitAmount : s.bridge.overdraw.outOfLimitAmount = 0
  log : s.bridge.log = []
  trail : s.bridge.trail = []

/-- The chain on which a bridge with the given addresses and settings was just deployed. -/
def deploy (self proxyOwner erc677token : Address) (basic : BasicBridge) (fees : DepositWithdrawFeeManager)
    (feePercent : UInt256) (minterBurner fallbackRecipient : Address) (world : W) : Home H W where
  validators := BridgeValidators.blank
  bridge :=
    { self := self
      proxyOwner := proxyOwner
      basic := basic
      ledger :=
        { numAffirmationsSigned := fun _ => 0
          affirmationsSigned := fun _ => false
          numMessagesSigned := fun _ => 0
          messagesSigned := fun _ => false
          messages := fun _ => []
          signatures := fun _ => [] }
      overdraw :=
        { outOfLimitAmount := 0
          txOutOfLimitRecipient := fun _ => 0
          txOutOfLimitValue := fun _ => 0
          fixedAssets := fun _ => false }
      feePercent := feePercent
      fees := fees
      erc677token := erc677token
      minterBurner := minterBurner
      fallbackRecipient := fallbackRecipient
      log := []
      trail := [] }
  now := 0
  txHash := 0
  world := world

omit [DecidableEq H] in
theorem deploy_fresh (self proxyOwner erc677token : Address) (basic : BasicBridge)
    (fees : DepositWithdrawFeeManager) (feePercent : UInt256) (minterBurner fallbackRecipient : Address)
    (world : W) :
    Fresh (deploy self proxyOwner erc677token basic fees feePercent minterBurner fallbackRecipient world :
      Home H W) where
  validators := rfl
  numAffirmationsSigned _ := rfl
  affirmationsSigned _ := rfl
  numMessagesSigned _ := rfl
  messagesSigned _ := rfl
  txOutOfLimitRecipient _ := rfl
  txOutOfLimitValue _ := rfl
  fixedAssets _ := rfl
  outOfLimitAmount := rfl
  log := rfl
  trail := rfl

/-- A call from outside whose callees leave the chain alone. -/
theorem step_of_exec {K : CollisionFree H} {ecrecover : Ecrecover H} {V : HomeVariant}
    {allowed : Home H W → BridgeTx → Prop} {call : Callee (Home H W)} {tx : BridgeTx} {s s' : Home H W}
    (hallowed : allowed s tx) (hcall : Within Elsewhere call)
    (h : exec K ecrecover V call s tx = some s') : StepWhen K ecrecover V allowed s s' :=
  .bridge 1 ⟨call, tx, hallowed,
    fun _ _ _ _ hc => Relation.ReflTransGen.single (Or.inl (hcall _ _ _ _ hc)), h⟩

/-! ## A deployment to evaluate -/

/-- 1000 a day and 500 at once, in both directions; owner 9. -/
def sampleLimits : BasicBridge where
  owner := 9
  dailyLimit := 1000
  maxPerTx := 500
  minPerTx := 1
  executionDailyLimit := 1000
  executionMaxPerTx := 500
  totalSpentPerDay _ := 0
  totalExecutedPerDay _ := 0

/-- No fees; proxy owner 6, token 5, fee receiver 8. -/
def sampleHome (world : W) : Home (List Byte) W :=
  deploy 7 6 5 sampleLimits ⟨8, 0, 0, 0, 0⟩ 0 4 3 world

/-- Every call succeeds and answers true. -/
def obliging : Callee (Home (List Byte) W) := fun _ s => some (s, packWord 1)

theorem obliging_within : Within Elsewhere (obliging : Callee (Home (List Byte) W)) := by
  intro c s s' data h
  obtain ⟨rfl, _⟩ := Prod.mk.inj (Option.some.inj h)
  exact ⟨s.world, rfl⟩

/-- No signature is valid. -/
def noSigner : Ecrecover (List Byte) := fun _ _ _ _ => 0

end Home
end ThunderBridge
