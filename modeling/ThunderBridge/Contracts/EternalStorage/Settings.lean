import ThunderBridge.Contracts.EternalStorage.Records
import ThunderBridge.Contracts.ForeignBridge.Erc677
import ThunderBridge.Lib.Traces

/-!
# `EternalStorage.Settings` — `initialize` and the settings of the owner

Every bridge contract writes its settings in two ways: `initialize`, which anybody may call once, and the setters
of the owner, each of which checks the value it writes and nothing else. The writes are modelled on the
storage, for all bridge contracts; behind a proxy the contract may be another one at every call, the storage is
the same.

`BridgeSettings` are the settings alone and `Move` what a call can do to them; `exec_move` is the simulation.
`bridge_setup` says what holds of the settings in every run, and `limits_ordered_iff` which runs keep
`minPerTx < maxPerTx < dailyLimit`: `setDailyLimit` and `setMaxPerTx` do not look at the limit below.
-/

namespace ThunderBridge

/-! ## The contracts -/

/-- The bridge contracts. -/
inductive BridgeContract where
  | home (V : HomeVariant)
  | foreign (V : ForeignVariant)
  | foreignErc677 (V : Erc677Variant)
  | foreignWithNativeToken
deriving DecidableEq

namespace BridgeContract

def isHome : BridgeContract → Bool
  | home _ => true
  | _ => false

/-- The contracts with a `fallbackRecipient`. -/
def hasFallbackRecipient : BridgeContract → Bool
  | home V => V == .nativeToErcWithFee
  | foreign V => V == .ercToErcV3
  | foreignErc677 V => V == .erc677ToErc677
  | foreignWithNativeToken => true

/-- The contracts with the fees of `DepositWithdrawFeeManager`. -/
def hasDepositWithdrawFee : BridgeContract → Bool
  | home V => V != .ercToErc
  | _ => false

/-- The setters of the owner that the contract has and did not deprecate. -/
def declares {W : Type} (c : BridgeContract) : EternalStorage.Setter W → Bool
  | .transferOwnership _ | .setGasPrice _ | .setRequiredBlockConfirmations _ | .setDailyLimit _
  | .setExecutionMaxPerTx _ | .setMaxPerTx _ | .setMinPerTx _ => true
  | .setExecutionDailyLimit _ => c.isHome || c == .foreign .ercToErc
  | .setFeePercent _ => c == .home .ercToErc || c == .foreign .ercToErc
  | .setFeeReceiver _ | .setWithdrawFixedFee _ | .setWithdrawFeePercent _ | .setDepositFixedFee _
  | .setDepositFeePercent _ => c.hasDepositWithdrawFee
  | .setMinterBurner _ => c == .home .ercToErcWithFeeV2
  | .setFallbackRecipient _ => c.hasFallbackRecipient
  | _ => false

end BridgeContract

/-- The arguments of `initialize` of a home bridge. -/
structure HomeSetup where
  validatorContract : Address
  dailyLimit : UInt256
  maxPerTx : UInt256
  minPerTx : UInt256
  homeGasPrice : UInt256
  requiredBlockConfirmations : UInt256
  erc677token : Address
  foreignDailyLimit : UInt256
  foreignMaxPerTx : UInt256
  owner : Address
  feePercent : UInt256

/-- The arguments of `initialize` of a foreign bridge. -/
structure ForeignSetup where
  validatorContract : Address
  erc20token : Address
  requiredBlockConfirmations : UInt256
  gasPrice : UInt256
  maxPerTx : UInt256
  homeDailyLimit : UInt256
  homeMaxPerTx : UInt256
  owner : Address
  feePercent : UInt256

/-- A call of `initialize`. The contracts with a fallback recipient have a second one, with that argument more. -/
inductive Setup where
  | home (a : HomeSetup) (fallbackRecipient : Option Address)
  | foreign (a : ForeignSetup) (fallbackRecipient : Option Address)

namespace EternalStorage

variable {H : Type} (K : CollisionFree H) (s : EternalStorage H)

section Calls

variable [DecidableEq H]

/-! ## `initialize` -/

/-- The setter of the token that `initialize` calls, as the contract overrides it. -/
def setToken (c : BridgeContract) (e : Env) (token : Address) : Option (EternalStorage H) :=
  match c with
  | .home .nativeToErcWithFee => s.setErc677tokenNative K.keccak256 e token
  | .home _ => s.setErc677token K.keccak256 e token
  | .foreignErc677 _ => s.setErc677token K.keccak256 e token
  | .foreign _ | .foreignWithNativeToken => s.setErc20token K.keccak256 e token

/-- `HomeBridgeErcToErc.initialize`, in block `number`. -/
def initializeHome (c : BridgeContract) (number : UInt256) (e : Env) (a : HomeSetup) :
    Option (EternalStorage H) := do
  require (s.isInitialized K.keccak256 = false)
  require (a.validatorContract ≠ 0 ∧ e.isContract a.validatorContract = true)
  require (0 < a.homeGasPrice)
  require (0 < a.requiredBlockConfirmations)
  require (0 < a.minPerTx ∧ a.minPerTx < a.maxPerTx ∧ a.maxPerTx < a.dailyLimit)
  require (a.foreignMaxPerTx < a.foreignDailyLimit)
  require (a.owner ≠ 0)
  require (a.feePercent < 10000)
  let s := s.set K.keccak256 (.address ⟨.validatorContract, ()⟩) a.validatorContract
  let s := s.set K.keccak256 (.uint ⟨.deployedAtBlock, ()⟩) number
  let s := s.set K.keccak256 (.uint ⟨.dailyLimit, ()⟩) a.dailyLimit
  let s := s.set K.keccak256 (.uint ⟨.maxPerTx, ()⟩) a.maxPerTx
  let s := s.set K.keccak256 (.uint ⟨.minPerTx, ()⟩) a.minPerTx
  let s := s.set K.keccak256 (.uint ⟨.gasPrice, ()⟩) a.homeGasPrice
  let s := s.set K.keccak256 (.uint ⟨.requiredBlockConfirmations, ()⟩) a.requiredBlockConfirmations
  let s := s.set K.keccak256 (.uint ⟨.executionDailyLimit, ()⟩) a.foreignDailyLimit
  let s := s.set K.keccak256 (.uint ⟨.executionMaxPerTx, ()⟩) a.foreignMaxPerTx
  let s := s.set K.keccak256 (.uint ⟨.feePercent, ()⟩) a.feePercent
  let s := s.setOwner K.keccak256 a.owner
  let s := s.setInitialize K.keccak256 true
  s.setToken K c e a.erc677token

/-- `ForeignBridgeErcToErc.initialize`. -/
def initializeForeign (c : BridgeContract) (number : UInt256) (e : Env) (a : ForeignSetup) :
    Option (EternalStorage H) := do
  require (s.isInitialized K.keccak256 = false)
  require (a.validatorContract ≠ 0 ∧ e.isContract a.validatorContract = true)
  require (a.requiredBlockConfirmations ≠ 0)
  require (0 < a.gasPrice)
  require (a.homeMaxPerTx < a.homeDailyLimit)
  require (a.owner ≠ 0)
  require (a.feePercent < 10000)
  let s := s.set K.keccak256 (.address ⟨.validatorContract, ()⟩) a.validatorContract
  let s ← s.setToken K c e a.erc20token
  let s := s.set K.keccak256 (.uint ⟨.deployedAtBlock, ()⟩) number
  let s := s.set K.keccak256 (.uint ⟨.requiredBlockConfirmations, ()⟩) a.requiredBlockConfirmations
  let s := s.set K.keccak256 (.uint ⟨.gasPrice, ()⟩) a.gasPrice
  let s := s.set K.keccak256 (.uint ⟨.maxPerTx, ()⟩) a.maxPerTx
  let s := s.set K.keccak256 (.uint ⟨.executionDailyLimit, ()⟩) a.homeDailyLimit
  let s := s.set K.keccak256 (.uint ⟨.executionMaxPerTx, ()⟩) a.homeMaxPerTx
  let s := s.set K.keccak256 (.uint ⟨.feePercent, ()⟩) a.feePercent
  let s := s.setOwner K.keccak256 a.owner
  pure (s.setInitialize K.keccak256 true)

/-- `_setFallbackRecipient`, if the call of `initialize` has that argument. -/
def assignFallbackRecipient (c : BridgeContract) : Option Address → Option (EternalStorage H)
  | none => some s
  | some recipient => do
      require (c.hasFallbackRecipient = true)
      s.checked K.keccak256 (recipient ≠ 0) (.address ⟨.fallbackRecipient, ()⟩) recipient

def initializeWith (c : BridgeContract) (number : UInt256) (e : Env) : Setup → Option (EternalStorage H)
  | .home a fallbackRecipient => do
      require (c.isHome = true)
      let s ← s.assignFallbackRecipient K c fallbackRecipient
      s.initializeHome K c number e a
  | .foreign a fallbackRecipient => do
      require (c.isHome = false)
      let s ← s.assignFallbackRecipient K c fallbackRecipient
      s.initializeForeign K c number e a

/-! ## Calls -/

/-- The setters that the other functions of the contracts use: counters, signatures, recorded and relayed
    transfers. -/
def Setter.records {W : Type} : Setter W → Bool
  | .setTotalSpentPerDay _ _ | .setTotalExecutedPerDay _ _ | .setMessagesSigned _ _ | .setAffirmationsSigned _ _
  | .setNumAffirmationsSigned _ _ | .setSignatures _ _ | .setMessages _ _ | .setNumMessagesSigned _ _
  | .setOutOfLimitAmount _ | .setTxAboveLimits _ _ _ | .setFixedAssets _ _ | .setRelayedMessages _ _ => true
  | _ => false

/-- A call that writes. -/
inductive BridgeWrite (H : Type) where
  | initializeWith (a : Setup)
  | set (setter : Setter (Word H))
  | record (setter : Setter (Word H))

/-- A call of a contract: by whom, in which block, and which contract it is that time. -/
structure BridgeCall (H : Type) where
  contract : BridgeContract
  number : UInt256
  env : Env
  write : BridgeWrite H

/-- What the call does; `none` when it reverts. -/
def exec (call : BridgeCall H) : Option (EternalStorage H) :=
  match call.write with
  | .initializeWith a => s.initializeWith K call.contract call.number call.env a
  | .set setter => do
      require (call.contract.declares setter = true)
      setter.run K.keccak256 s call.env
  | .record setter => do
      require (setter.records = true)
      setter.run K.keccak256 s call.env

end Calls

/-- A call that reverts changes nothing. -/
def transact [DecidableEq H] (s : EternalStorage H) (call : BridgeCall H) : EternalStorage H :=
  (s.exec K call).getD s

end EternalStorage

/-! ## The settings alone -/

/-- The settings of a bridge that its calls check. -/
@[ext] structure BridgeSettings where
  isInitialized : Bool
  owner : Address
  validatorContract : Address
  deployedAtBlock : UInt256
  erc677token : Address
  erc20token : Address
  gasPrice : UInt256
  requiredBlockConfirmations : UInt256
  dailyLimit : UInt256
  maxPerTx : UInt256
  minPerTx : UInt256
  executionDailyLimit : UInt256
  executionMaxPerTx : UInt256
  feePercent : UInt256
  withdrawFeePercent : UInt256
  depositFeePercent : UInt256

namespace BridgeSettings

/-- What a setter of the owner checks. -/
def Checked {W : Type} (t : BridgeSettings) : EternalStorage.Setter W → Prop
  | .transferOwnership a => a ≠ 0
  | .setGasPrice n | .setRequiredBlockConfirmations n => 0 < n
  | .setMaxPerTx n => n < t.dailyLimit
  | .setMinPerTx n => n < t.dailyLimit ∧ n < t.maxPerTx
  | .setExecutionMaxPerTx n => n < t.executionDailyLimit
  | .setFeePercent n | .setWithdrawFeePercent n | .setDepositFeePercent n => n < 10000
  | _ => True

/-- What it writes. -/
def adjust {W : Type} (t : BridgeSettings) : EternalStorage.Setter W → BridgeSettings
  | .transferOwnership a => { t with owner := a }
  | .setGasPrice n => { t with gasPrice := n }
  | .setRequiredBlockConfirmations n => { t with requiredBlockConfirmations := n }
  | .setDailyLimit n => { t with dailyLimit := n }
  | .setMaxPerTx n => { t with maxPerTx := n }
  | .setMinPerTx n => { t with minPerTx := n }
  | .setExecutionDailyLimit n => { t with executionDailyLimit := n }
  | .setExecutionMaxPerTx n => { t with executionMaxPerTx := n }
  | .setFeePercent n => { t with feePercent := n }
  | .setWithdrawFeePercent n => { t with withdrawFeePercent := n }
  | .setDepositFeePercent n => { t with depositFeePercent := n }
  | _ => t

/-- **A bridge set up.** -/
structure SetUp (t : BridgeSettings) : Prop where
  owner : t.owner ≠ 0
  validatorContract : t.validatorContract ≠ 0
  gasPrice : 0 < t.gasPrice
  requiredBlockConfirmations : 0 < t.requiredBlockConfirmations
  feePercent : t.feePercent < 10000
  withdrawFeePercent : t.withdrawFeePercent < 10000
  depositFeePercent : t.depositFeePercent < 10000

/-- What a call of `sender` can do to the settings. -/
inductive Move (W : Type) (sender : Address) (t : BridgeSettings) : BridgeSettings → Prop where
  | initializeWith {t' : BridgeSettings} (hfresh : t.isInitialized = false) (hdone : t'.isInitialized = true)
      (hwithdraw : t'.withdrawFeePercent = t.withdrawFeePercent)
      (hdeposit : t'.depositFeePercent = t.depositFeePercent)
      (hsetup : t.withdrawFeePercent < 10000 → t.depositFeePercent < 10000 → SetUp t') : Move W sender t t'
  | adjust (setter : EternalStorage.Setter W) (howner : sender = t.owner) (h : t.Checked setter) :
      Move W sender t (t.adjust setter)
  | stay : Move W sender t t

/-- What only `initialize` writes. -/
structure Constant (t t' : BridgeSettings) : Prop where
  isInitialized : t'.isInitialized = t.isInitialized
  validatorContract : t'.validatorContract = t.validatorContract
  deployedAtBlock : t'.deployedAtBlock = t.deployedAtBlock
  erc677token : t'.erc677token = t.erc677token
  erc20token : t'.erc20token = t.erc20token

theorem Constant.trans {t₁ t₂ t₃ : BridgeSettings} (h : Constant t₁ t₂) (h' : Constant t₂ t₃) : Constant t₁ t₃ :=
  ⟨h'.isInitialized.trans h.isInitialized, h'.validatorContract.trans h.validatorContract,
    h'.deployedAtBlock.trans h.deployedAtBlock, h'.erc677token.trans h.erc677token, h'.erc20token.trans h.erc20token⟩

section Adjust

variable {W : Type} {setter : EternalStorage.Setter W} {t t' : BridgeSettings}

theorem adjust_constant : Constant t (t.adjust setter) := by
  cases setter <;> exact ⟨rfl, rfl, rfl, rfl, rfl⟩

theorem SetUp.adjust (ht : SetUp t) (h : t.Checked setter) : SetUp (t.adjust setter) := by
  cases setter with
  | transferOwnership _ => exact { ht with owner := h }
  | setGasPrice _ => exact { ht with gasPrice := h }
  | setRequiredBlockConfirmations _ => exact { ht with requiredBlockConfirmations := h }
  | setFeePercent _ => exact { ht with feePercent := h }
  | setWithdrawFeePercent _ => exact { ht with withdrawFeePercent := h }
  | setDepositFeePercent _ => exact { ht with depositFeePercent := h }
  | _ => exact ⟨ht.owner, ht.validatorContract, ht.gasPrice, ht.requiredBlockConfirmations, ht.feePercent,
      ht.withdrawFeePercent, ht.depositFeePercent⟩

end Adjust

/-- Nothing is set before `initialize`, and the bridge is set up after it. -/
structure Sound (t : BridgeSettings) : Prop where
  before : t.isInitialized = false → t.owner = 0
  after : t.isInitialized = true → SetUp t
  withdrawFeePercent : t.withdrawFeePercent < 10000
  depositFeePercent : t.depositFeePercent < 10000

section Moves

variable {W : Type} {sender : Address} {t t' : BridgeSettings}

/-- **One call.** -/
theorem Move.sound (h : Move W sender t t') (hsender : sender ≠ 0) (ht : Sound t) : Sound t' := by
  cases h with
  | initializeWith hfresh hdone hwithdraw hdeposit hsetup =>
      refine ⟨?_, ?_, ?_, ?_⟩
      · intro hnot
        rw [hdone] at hnot
        exact absurd hnot (by decide)
      · intro _
        exact hsetup ht.withdrawFeePercent ht.depositFeePercent
      · rw [hwithdraw]
        exact ht.withdrawFeePercent
      · rw [hdeposit]
        exact ht.depositFeePercent
  | adjust setter howner h =>
      -- before `initialize` there is no owner, so the bridge is set up
      have hdone : t.isInitialized = true := by
        by_contra hnot
        exact hsender (howner.trans (ht.before (Bool.eq_false_iff.mpr hnot)))
      have hsetup := (ht.after hdone).adjust h
      refine ⟨?_, fun _ => hsetup, hsetup.withdrawFeePercent, hsetup.depositFeePercent⟩
      intro hnot
      rw [adjust_constant.isInitialized, hdone] at hnot
      exact absurd hnot (by decide)
  | stay => exact ht

/-- After `initialize`, what only `initialize` writes stays. -/
theorem Move.constant (h : Move W sender t t') (hdone : t.isInitialized = true) : Constant t t' := by
  cases h with
  | initializeWith hfresh _ _ _ _ =>
      rw [hdone] at hfresh
      exact absurd hfresh (by decide)
  | adjust setter _ _ => exact adjust_constant
  | stay => exact ⟨rfl, rfl, rfl, rfl, rfl⟩

end Moves

/-! ## The order of the limits -/

/-- The limits of both directions are in order. -/
structure Ordered (t : BridgeSettings) : Prop where
  perTx : t.minPerTx < t.maxPerTx
  daily : t.maxPerTx < t.dailyLimit
  execution : t.executionMaxPerTx < t.executionDailyLimit

/-- The value is above the limit below, which the setter does not look at. -/
def Above {W : Type} (t : BridgeSettings) : EternalStorage.Setter W → Prop
  | .setDailyLimit n => t.maxPerTx < n
  | .setMaxPerTx n => t.minPerTx < n
  | .setExecutionDailyLimit n => t.executionMaxPerTx < n
  | _ => True

theorem ordered_adjust_iff {W : Type} {setter : EternalStorage.Setter W} {t : BridgeSettings} (ht : Ordered t)
    (h : t.Checked setter) : Ordered (t.adjust setter) ↔ t.Above setter := by
  cases setter with
  | setDailyLimit n => exact ⟨fun ho => ho.daily, fun ha => ⟨ht.perTx, ha, ht.execution⟩⟩
  | setMaxPerTx n => exact ⟨fun ho => ho.perTx, fun ha => ⟨ha, h, ht.execution⟩⟩
  | setExecutionDailyLimit n => exact ⟨fun ho => ho.execution, fun ha => ⟨ht.perTx, ht.daily, ha⟩⟩
  | setMinPerTx n => exact ⟨fun _ => trivial, fun _ => ⟨h.2, ht.daily, ht.execution⟩⟩
  | setExecutionMaxPerTx n => exact ⟨fun _ => trivial, fun _ => ⟨ht.perTx, ht.daily, h⟩⟩
  | _ => exact ⟨fun _ => trivial, fun _ => ⟨ht.perTx, ht.daily, ht.execution⟩⟩

end BridgeSettings

/-! ## The simulation -/

namespace EternalStorage

variable {H : Type} {K : CollisionFree H} {s s' : EternalStorage H}

variable (K s) in
/-- The settings in the storage. -/
def settings : BridgeSettings where
  isInitialized := s.isInitialized K.keccak256
  owner := s.owner K.keccak256
  validatorContract := s.validatorContract K.keccak256
  deployedAtBlock := s.deployedAtBlock K.keccak256
  erc677token := s.erc677token K.keccak256
  erc20token := s.erc20token K.keccak256
  gasPrice := s.gasPrice K.keccak256
  requiredBlockConfirmations := s.requiredBlockConfirmations K.keccak256
  dailyLimit := s.dailyLimit K.keccak256
  maxPerTx := s.maxPerTx K.keccak256
  minPerTx := s.minPerTx K.keccak256
  executionDailyLimit := s.executionDailyLimit K.keccak256
  executionMaxPerTx := s.executionMaxPerTx K.keccak256
  feePercent := s.feePercent K.keccak256
  withdrawFeePercent := s.withdrawFeePercent K.keccak256
  depositFeePercent := s.depositFeePercent K.keccak256

/-- The fields `settings` reads. -/
def settingSlots {W : Type} : List (Slot W) :=
  [.bool ⟨.isInitialized, ()⟩, .address ⟨.owner, ()⟩, .address ⟨.validatorContract, ()⟩,
    .uint ⟨.deployedAtBlock, ()⟩, .address ⟨.erc677token, ()⟩, .address ⟨.erc20token, ()⟩, .uint ⟨.gasPrice, ()⟩,
    .uint ⟨.requiredBlockConfirmations, ()⟩, .uint ⟨.dailyLimit, ()⟩, .uint ⟨.maxPerTx, ()⟩, .uint ⟨.minPerTx, ()⟩,
    .uint ⟨.executionDailyLimit, ()⟩, .uint ⟨.executionMaxPerTx, ()⟩, .uint ⟨.feePercent, ()⟩,
    .uint ⟨.withdrawFeePercent, ()⟩, .uint ⟨.depositFeePercent, ()⟩]

/-- The settings are what those fields hold. -/
theorem settings_congr (h : ∀ x ∈ (settingSlots : List (Slot (Word H))),
    s'.get K.keccak256 x = s.get K.keccak256 x) : s'.settings K = s.settings K := by
  simp only [settingSlots, List.forall_mem_cons, List.not_mem_nil, false_implies, implies_true, and_true] at h
  obtain ⟨h₁, h₂, h₃, h₄, h₅, h₆, h₇, h₈, h₉, h₁₀, h₁₁, h₁₂, h₁₃, h₁₄, h₁₅, h₁₆⟩ := h
  exact BridgeSettings.ext h₁ h₂ h₃ h₄ h₅ h₆ h₇ h₈ h₉ h₁₀ h₁₁ h₁₂ h₁₃ h₁₄ h₁₅ h₁₆

variable [DecidableEq H]

section Writes

attribute [local simp] settings owner validatorContract deployedAtBlock gasPrice requiredBlockConfirmations minPerTx
  maxPerTx executionMaxPerTx isInitialized dailyLimit executionDailyLimit feePercent withdrawFeePercent
  depositFeePercent erc677token erc20token setOwner setInitialize

/-- **A setter of the owner** checks and writes the settings. -/
theorem declared_settings {c : BridgeContract} {e : Env} {setter : Setter (Word H)} (hc : c.declares setter = true)
    (h : setter.run K.keccak256 s e = some s') : e.sender = (s.settings K).owner ∧
      (s.settings K).Checked setter ∧ s'.settings K = (s.settings K).adjust setter := by
  cases setter with
  | transferOwnership a =>
      simp only [Setter.run, EternalStorage.transferOwnership, Option.bind_eq_bind, Option.bind_eq_some_iff,
        require_eq_some, exists_const, Option.pure_def, Option.some.injEq] at h
      obtain ⟨howner, hne, rfl⟩ := h
      exact ⟨howner, hne, by simp [BridgeSettings.adjust]⟩
  | setGasPrice _ | setRequiredBlockConfirmations _ | setExecutionMaxPerTx _ | setMaxPerTx _ | setMinPerTx _
  | setFeePercent _ | setWithdrawFeePercent _ | setDepositFeePercent _ =>
      obtain ⟨⟨howner, hchecked⟩, rfl⟩ := checked_eq_some.mp h
      exact ⟨howner, hchecked, by simp [BridgeSettings.adjust]⟩
  | setDailyLimit _ | setExecutionDailyLimit _ | setFeeReceiver _ | setWithdrawFixedFee _ | setDepositFixedFee _
  | setMinterBurner _ | setFallbackRecipient _ =>
      obtain ⟨⟨howner, _⟩, rfl⟩ := checked_eq_some.mp h
      exact ⟨howner, trivial, by simp [BridgeSettings.adjust]⟩
  | _ => exact absurd hc (by simp [BridgeContract.declares])

/-- The other functions of the contracts leave the settings alone. -/
theorem records_settings {e : Env} {setter : Setter (Word H)} (hr : setter.records = true)
    (h : setter.run K.keccak256 s e = some s') : s'.settings K = s.settings K := by
  apply settings_congr
  intro y hy
  refine Setter.run_frame K.injective.injOn h (fun _ _ => Set.mem_univ _) (Set.mem_univ _) ?_
  have hapart : ∀ x ∈ setter.slots, x ∉ (settingSlots : List (Slot (Word H))) := by
    cases setter <;> simp [Setter.records, Setter.slots, settingSlots] at hr ⊢
  exact fun hmem => hapart y hmem hy

/-! `initialize`. -/

/-- Of the settings, the token alone is written. -/
theorem setToken_settings {c : BridgeContract} {e : Env} {token : Address} (h : s.setToken K c e token = some s') :
    ∃ erc677token erc20token, s'.settings K =
      { s.settings K with erc677token := erc677token, erc20token := erc20token } := by
  have hslot : ∃ a, s' = s.set K.keccak256 (.address ⟨.erc677token, ()⟩) a ∨
      s' = s.set K.keccak256 (.address ⟨.erc20token, ()⟩) a := by
    unfold setToken at h
    split at h
    all_goals
      obtain ⟨_, rfl⟩ := checked_eq_some.mp h
      first
      | exact ⟨_, .inl rfl⟩
      | exact ⟨_, .inr rfl⟩
  obtain ⟨a, rfl | rfl⟩ := hslot
  · exact ⟨a, s.erc20token K.keccak256, by simp⟩
  · exact ⟨s.erc677token K.keccak256, a, by simp⟩

theorem assignFallbackRecipient_settings {c : BridgeContract} {fallbackRecipient : Option Address}
    (h : s.assignFallbackRecipient K c fallbackRecipient = some s') : s'.settings K = s.settings K := by
  cases fallbackRecipient with
  | none =>
      obtain rfl := Option.some.inj h
      rfl
  | some recipient =>
      simp only [assignFallbackRecipient, Option.bind_eq_bind, Option.bind_eq_some_iff, require_eq_some,
        exists_const] at h
      obtain ⟨_, h⟩ := h
      obtain ⟨_, rfl⟩ := checked_eq_some.mp h
      simp

/-- What `initialize` of a home bridge checks and writes. -/
theorem initializeHome_settings {c : BridgeContract} {number : UInt256} {e : Env} {a : HomeSetup}
    (h : s.initializeHome K c number e a = some s') :
    (s.settings K).isInitialized = false ∧ a.validatorContract ≠ 0 ∧ 0 < a.homeGasPrice ∧
    0 < a.requiredBlockConfirmations ∧ (a.minPerTx < a.maxPerTx ∧ a.maxPerTx < a.dailyLimit) ∧
    a.foreignMaxPerTx < a.foreignDailyLimit ∧ a.owner ≠ 0 ∧ a.feePercent < 10000 ∧
    ∃ erc677token erc20token, s'.settings K = { s.settings K with
      isInitialized := true
      owner := a.owner
      validatorContract := a.validatorContract
      deployedAtBlock := number
      erc677token := erc677token
      erc20token := erc20token
      gasPrice := a.homeGasPrice
      requiredBlockConfirmations := a.requiredBlockConfirmations
      dailyLimit := a.dailyLimit
      maxPerTx := a.maxPerTx
      minPerTx := a.minPerTx
      executionDailyLimit := a.foreignDailyLimit
      executionMaxPerTx := a.foreignMaxPerTx
      feePercent := a.feePercent } := by
  simp only [initializeHome, Option.bind_eq_bind, Option.bind_eq_some_iff, require_eq_some, exists_const] at h
  obtain ⟨hfresh, ⟨hvalidators, _⟩, hgas, hblocks, ⟨_, horder⟩, hexecution, howner, hfee, h⟩ := h
  obtain ⟨erc677token, erc20token, hsettings⟩ := setToken_settings h
  refine ⟨hfresh, hvalidators, hgas, hblocks, horder, hexecution, howner, hfee, erc677token, erc20token, ?_⟩
  rw [hsettings]
  simp

/-- And of a foreign bridge. -/
theorem initializeForeign_settings {c : BridgeContract} {number : UInt256} {e : Env} {a : ForeignSetup}
    (h : s.initializeForeign K c number e a = some s') :
    (s.settings K).isInitialized = false ∧ a.validatorContract ≠ 0 ∧ 0 < a.gasPrice ∧
    0 < a.requiredBlockConfirmations ∧ a.homeMaxPerTx < a.homeDailyLimit ∧ a.owner ≠ 0 ∧ a.feePercent < 10000 ∧
    ∃ erc677token erc20token, s'.settings K = { s.settings K with
      isInitialized := true
      owner := a.owner
      validatorContract := a.validatorContract
      deployedAtBlock := number
      erc677token := erc677token
      erc20token := erc20token
      gasPrice := a.gasPrice
      requiredBlockConfirmations := a.requiredBlockConfirmations
      maxPerTx := a.maxPerTx
      executionDailyLimit := a.homeDailyLimit
      executionMaxPerTx := a.homeMaxPerTx
      feePercent := a.feePercent } := by
  simp only [initializeForeign, Option.bind_eq_bind, Option.bind_eq_some_iff, require_eq_some, exists_const,
    Option.pure_def, Option.some.injEq] at h
  obtain ⟨hfresh, ⟨hvalidators, _⟩, hblocks, hgas, hexecution, howner, hfee, s₁, h, rfl⟩ := h
  obtain ⟨erc677token, erc20token, hsettings⟩ := setToken_settings h
  refine ⟨hfresh, hvalidators, hgas, (BitVec.pos_iff_ne_zero _).mpr hblocks, hexecution, howner, hfee, erc677token,
    erc20token, ?_⟩
  simp only [settings, BridgeSettings.mk.injEq] at hsettings
  simp_all

end Writes

/-! ## Runs -/

section Runs

variable {call : BridgeCall H}

/-- `initialize` goes through on a fresh bridge only, and sets it up. -/
theorem initializeWith_settings {c : BridgeContract} {number : UInt256} {e : Env} {a : Setup}
    (h : s.initializeWith K c number e a = some s') :
    (s.settings K).isInitialized = false ∧ (s'.settings K).isInitialized = true ∧
    (s'.settings K).withdrawFeePercent = (s.settings K).withdrawFeePercent ∧
    (s'.settings K).depositFeePercent = (s.settings K).depositFeePercent ∧
    ((s.settings K).withdrawFeePercent < 10000 → (s.settings K).depositFeePercent < 10000 →
      (s'.settings K).SetUp) := by
  cases a with
  | home a fallbackRecipient =>
      simp only [initializeWith, Option.bind_eq_bind, Option.bind_eq_some_iff, require_eq_some, exists_const] at h
      obtain ⟨_, s₁, hassign, h⟩ := h
      obtain ⟨hfresh, hvalidators, hgas, hblocks, _, _, howner, hfee, _, _, hsettings⟩ := initializeHome_settings h
      rw [assignFallbackRecipient_settings hassign] at hfresh hsettings
      rw [hsettings]
      exact ⟨hfresh, rfl, rfl, rfl, fun hw hd => ⟨howner, hvalidators, hgas, hblocks, hfee, hw, hd⟩⟩
  | foreign a fallbackRecipient =>
      simp only [initializeWith, Option.bind_eq_bind, Option.bind_eq_some_iff, require_eq_some, exists_const] at h
      obtain ⟨_, s₁, hassign, h⟩ := h
      obtain ⟨hfresh, hvalidators, hgas, hblocks, _, howner, hfee, _, _, hsettings⟩ := initializeForeign_settings h
      rw [assignFallbackRecipient_settings hassign] at hfresh hsettings
      rw [hsettings]
      exact ⟨hfresh, rfl, rfl, rfl, fun hw hd => ⟨howner, hvalidators, hgas, hblocks, hfee, hw, hd⟩⟩

/-- **A call does to the settings what a `Move` allows.** -/
theorem exec_move (h : s.exec K call = some s') :
    (s.settings K).Move (Word H) call.env.sender (s'.settings K) := by
  unfold exec at h
  split at h
  · obtain ⟨hfresh, hdone, hwithdraw, hdeposit, hsetup⟩ := initializeWith_settings h
    exact .initializeWith hfresh hdone hwithdraw hdeposit hsetup
  · simp only [Option.bind_eq_bind, Option.bind_eq_some_iff, require_eq_some, exists_const] at h
    obtain ⟨howner, hchecked, hsettings⟩ := declared_settings h.1 h.2
    rw [hsettings]
    exact .adjust _ howner hchecked
  · simp only [Option.bind_eq_bind, Option.bind_eq_some_iff, require_eq_some, exists_const] at h
    rw [records_settings h.1 h.2]
    exact .stay

theorem transact_move : (s.settings K).Move (Word H) call.env.sender ((s.transact K call).settings K) := by
  unfold transact
  cases h : s.exec K call with
  | none => exact .stay
  | some s' => exact exec_move h

omit [DecidableEq H] in
theorem blank_sound : ((blank : EternalStorage H).settings K).Sound := by
  refine ⟨fun _ => rfl, ?_, ?_, ?_⟩
  · intro hdone
    exact absurd hdone Bool.false_ne_true
  · show (0 : UInt256) < 10000
    decide
  · show (0 : UInt256) < 10000
    decide

/-- The state after some calls. -/
abbrev afterCalls (K : CollisionFree H) (s : EternalStorage H) (calls : List (BridgeCall H)) : EternalStorage H :=
  Traces.after (transact K) s calls

theorem after_sound {calls : List (BridgeCall H)} (hsenders : ∀ call ∈ calls, call.env.sender ≠ 0)
    (hs : (s.settings K).Sound) : ((s.afterCalls K calls).settings K).Sound :=
  Traces.throughout_of_invariant (I := fun t : EternalStorage H => (t.settings K).Sound)
    (fun _ ht call hcall => transact_move.sound (hsenders call hcall) ht) (fun _ ht => ht) hs calls
      List.prefix_rfl

theorem after_constant : ∀ {calls : List (BridgeCall H)} {s : EternalStorage H}, (s.settings K).isInitialized = true →
    (s.settings K).Constant ((s.afterCalls K calls).settings K) := by
  intro calls
  induction calls with
  | nil => exact fun _ => ⟨rfl, rfl, rfl, rfl, rfl⟩
  | cons call calls ih =>
      intro s hdone
      have hmove : (s.settings K).Constant ((s.transact K call).settings K) := transact_move.constant hdone
      exact hmove.trans (ih (hmove.isInitialized.trans hdone))

/-- **Setting a bridge up.** In every run of calls by anybody, of whichever bridge contracts the proxy has at the
    time: until `initialize` went through, every setter of the owner reverts. From then on `initialize` reverts;
    the validator contract, the token and the block of the deployment stay as they are; there is an owner, and the gas
    price, the confirmations and the fee percentages are in their ranges. -/
theorem bridge_setup {calls : List (BridgeCall H)} (hsenders : ∀ call ∈ calls, call.env.sender ≠ 0)
    (hs : s = (blank : EternalStorage H).afterCalls K calls) :
    ((s.settings K).isInitialized = false → ∀ call setter, call.write = .set setter → call.env.sender ≠ 0 →
      s.exec K call = none) ∧
    ((s.settings K).isInitialized = true → (s.settings K).SetUp ∧
      (∀ call a, call.write = .initializeWith a → s.exec K call = none) ∧
      ∀ more, (s.settings K).Constant ((s.afterCalls K more).settings K)) := by
  have hsound : (s.settings K).Sound := hs ▸ after_sound hsenders blank_sound
  refine ⟨?_, ?_⟩
  · intro hfresh call setter hwrite hsender
    cases h : s.exec K call with
    | none => rfl
    | some s' =>
        simp only [exec, hwrite, Option.bind_eq_bind, Option.bind_eq_some_iff, require_eq_some, exists_const] at h
        obtain ⟨howner, _, _⟩ := declared_settings h.1 h.2
        exact absurd (howner.trans (hsound.before hfresh)) hsender
  · intro hdone
    refine ⟨hsound.after hdone, ?_, fun more => after_constant hdone⟩
    intro call a hwrite
    cases h : s.exec K call with
    | none => rfl
    | some s' =>
        simp only [exec, hwrite] at h
        rw [(initializeWith_settings h).1] at hdone
        exact absurd hdone Bool.false_ne_true

/-- A call is fit if the limit it sets, should it go through, is above the limit below. -/
def FitLimit (K : CollisionFree H) (s : EternalStorage H) (call : BridgeCall H) : Prop :=
  ∀ setter, call.write = .set setter → (s.exec K call).isSome → (s.settings K).Above setter

theorem ordered_transact_iff (hdone : (s.settings K).isInitialized = true) (ho : (s.settings K).Ordered) :
    ((s.transact K call).settings K).Ordered ↔ FitLimit K s call := by
  unfold transact
  cases h : s.exec K call with
  | none =>
      refine ⟨fun _ setter _ hsome => ?_, fun _ => ho⟩
      rw [h] at hsome
      exact absurd hsome (by simp)
  | some s' =>
      show (s'.settings K).Ordered ↔ _
      cases hwrite : call.write with
      | initializeWith a =>
          simp only [exec, hwrite] at h
          rw [(initializeWith_settings h).1] at hdone
          exact absurd hdone Bool.false_ne_true
      | record setter =>
          have hexec := h
          simp only [exec, hwrite, Option.bind_eq_bind, Option.bind_eq_some_iff, require_eq_some,
            exists_const] at hexec
          rw [records_settings hexec.1 hexec.2]
          refine ⟨fun _ setter' hset => ?_, fun _ => ho⟩
          rw [hwrite] at hset
          cases hset
      | set setter =>
          have hexec := h
          simp only [exec, hwrite, Option.bind_eq_bind, Option.bind_eq_some_iff, require_eq_some,
            exists_const] at hexec
          obtain ⟨_, hchecked, hsettings⟩ := declared_settings hexec.1 hexec.2
          rw [hsettings, BridgeSettings.ordered_adjust_iff ho hchecked]
          constructor
          · intro habove setter' hset _
            rw [hwrite] at hset
            cases hset
            exact habove
          · intro hfit
            exact hfit setter hwrite (by rw [h]; rfl)

/-- **Which runs keep the limits in order.** After `initialize` of a home bridge, `minPerTx < maxPerTx < dailyLimit`
    and `executionMaxPerTx < executionDailyLimit` hold, and they hold in all states of a run exactly when every
    `setDailyLimit`, `setExecutionDailyLimit` and `setMaxPerTx` that goes through sets a value above the limit
    below it. -/
theorem limits_ordered_iff {call : BridgeCall H} {a : HomeSetup} {fallbackRecipient : Option Address}
    (hwrite : call.write = .initializeWith (.home a fallbackRecipient)) (h : s.exec K call = some s')
    (calls : List (BridgeCall H)) :
    Traces.Throughout (transact K) (fun t => (t.settings K).Ordered) s' calls ↔
      Traces.EachInput (transact K) (FitLimit K) s' calls := by
  simp only [exec, hwrite, initializeWith, Option.bind_eq_bind, Option.bind_eq_some_iff, require_eq_some,
    exists_const] at h
  obtain ⟨_, s₁, _, h⟩ := h
  obtain ⟨_, _, _, _, ⟨hperTx, hdaily⟩, hexecution, _, _, _, _, hsettings⟩ := initializeHome_settings h
  apply Traces.throughout_iff_eachInput (I := fun t : EternalStorage H => (t.settings K).isInitialized = true)
  · intro t ht call _
    exact (transact_move.constant ht).isInitialized.trans ht
  · intro t ht ho call _
    exact ordered_transact_iff ht ho
  · show (s'.settings K).isInitialized = true
    rw [hsettings]
  · show (s'.settings K).Ordered
    rw [hsettings]
    exact ⟨hperTx, hdaily, hexecution⟩

end Runs

/-! ## A home bridge set up -/

/-- Account 9 sets up a home bridge 7 of token 5 with limits of 1000 a day and 500 at once, and is its owner. -/
def sampleSetup : BridgeCall (List Byte) where
  contract := .home .ercToErcWithFee
  number := 1
  env := ⟨9, 7, fun a => a != 0⟩
  write := .initializeWith (.home ⟨6, 1000, 500, 1, 10, 8, 5, 1000, 500, 9, 0⟩ none)

/-- The owner changes the daily limit. -/
def sampleLimit (n : UInt256) : BridgeCall (List Byte) where
  contract := .home .ercToErcWithFee
  number := 2
  env := ⟨9, 7, fun a => a != 0⟩
  write := .set (.setDailyLimit n)

theorem bridge_setup_sample : ∃ s : EternalStorage (List Byte), (s.settings serialHash).isInitialized = true ∧
    (s.settings serialHash).SetUp ∧ s.exec serialHash sampleSetup = none := by
  have hdone : (((blank : EternalStorage (List Byte)).afterCalls serialHash
      [sampleSetup, sampleLimit 400]).settings serialHash).isInitialized = true := by
    decide +kernel
  have hsenders : ∀ call ∈ [sampleSetup, sampleLimit 400], call.env.sender ≠ 0 := by
    simp [sampleSetup, sampleLimit]
  obtain ⟨hsetup, hagain, _⟩ := (bridge_setup hsenders rfl).2 hdone
  exact ⟨_, hdone, hsetup, hagain sampleSetup _ rfl⟩

/-- A daily limit of 400 is below what may be sent at once. -/
theorem limits_ordered_iff_sample : ∃ s : EternalStorage (List Byte), blank.exec serialHash sampleSetup = some s ∧
    ¬ Traces.Throughout (transact serialHash) (fun t => (t.settings serialHash).Ordered) s [sampleLimit 400] := by
  have hsome : ((blank : EternalStorage (List Byte)).exec serialHash sampleSetup).isSome = true := by decide +kernel
  obtain ⟨s, hs⟩ := Option.isSome_iff_exists.mp hsome
  refine ⟨s, hs, ?_⟩
  rw [limits_ordered_iff rfl hs]
  intro hfit
  have hset : (s.exec serialHash (sampleLimit 400)).isSome = true ∧ (s.settings serialHash).maxPerTx = 500 := by
    have heval : (do
        let t ← (blank : EternalStorage (List Byte)).exec serialHash sampleSetup
        pure ((t.exec serialHash (sampleLimit 400)).isSome, (t.settings serialHash).maxPerTx)) =
          some (true, (500 : UInt256)) := by
      decide +kernel
    rw [hs] at heval
    exact Prod.mk.inj (Option.some.inj heval)
  have habove : (s.settings serialHash).maxPerTx < 400 := hfit [] (sampleLimit 400) List.prefix_rfl _ rfl hset.1
  rw [hset.2] at habove
  exact absurd habove (by decide)

end EternalStorage
end ThunderBridge
