import ThunderBridge.Contracts.EternalStorage.Accessors
import ThunderBridge.Contracts.HomeBridge.Run
import ThunderBridge.Contracts.ForeignBridge.State

/-!
# `EternalStorage.Records` — the records of the bridges are views of their storage

The bridges are modelled with one record for each contract, a field for each logical field. Here the records
are read off the storage through the getters, under the hash that never collides: `onHome` puts what a home
bridge stores into the home chain, `onForeign` and `onValidators` do the same for the other contracts.

A setter of the storage is then the update of its field in the record, all other fields untouched: each
`onHome_…` says so for one setter, and `run_setting` for the settings of the owner, with what they check.
-/

namespace ThunderBridge
namespace EternalStorage

variable {H W : Type} (K : CollisionFree H) (s : EternalStorage H)

/-! ## The views -/

def basicBridge : BasicBridge where
  owner := s.owner K.keccak256
  dailyLimit := s.dailyLimit K.keccak256
  maxPerTx := s.maxPerTx K.keccak256
  minPerTx := s.minPerTx K.keccak256
  executionDailyLimit := s.executionDailyLimit K.keccak256
  executionMaxPerTx := s.executionMaxPerTx K.keccak256
  totalSpentPerDay day := s.totalSpentPerDay K.keccak256 (.plain day)
  totalExecutedPerDay day := s.totalExecutedPerDay K.keccak256 (.plain day)

def basicHomeBridge : BasicHomeBridge H where
  numAffirmationsSigned h := s.numAffirmationsSigned K.keccak256 (.digest h)
  affirmationsSigned h := s.affirmationsSigned K.keccak256 (.digest h)
  numMessagesSigned h := s.numMessagesSigned K.keccak256 (.digest h)
  messagesSigned h := s.messagesSigned K.keccak256 (.digest h)
  messages h := s.messages K.keccak256 (.digest h)
  signatures h := s.signatures K.keccak256 (.digest h)

def overdrawManagement : OverdrawManagement where
  outOfLimitAmount := s.outOfLimitAmount K.keccak256
  txOutOfLimitRecipient txHash := (s.txAboveLimits K.keccak256 (.plain txHash)).1
  txOutOfLimitValue txHash := (s.txAboveLimits K.keccak256 (.plain txHash)).2
  fixedAssets txHash := s.fixedAssets K.keccak256 (.plain txHash)

def depositWithdrawFeeManager : DepositWithdrawFeeManager where
  feeReceiver := s.feeReceiver K.keccak256
  withdrawFixedFee := s.withdrawFixedFee K.keccak256
  withdrawFeePercent := s.withdrawFeePercent K.keccak256
  depositFixedFee := s.depositFixedFee K.keccak256
  depositFeePercent := s.depositFeePercent K.keccak256

/-- The home chain whose bridge stores `s`, the rest taken from `t`. -/
def onHome (t : Home H W) : Home H W :=
  { t with bridge := { t.bridge with
    basic := s.basicBridge K
    ledger := s.basicHomeBridge K
    overdraw := s.overdrawManagement K
    feePercent := s.feePercent K.keccak256
    fees := s.depositWithdrawFeeManager K
    erc677token := s.erc677token K.keccak256
    minterBurner := s.minterBurner K.keccak256
    fallbackRecipient := s.fallbackRecipient K.keccak256 } }

/-- The foreign chain whose bridge stores `s`, the rest taken from `t`. -/
def onForeign (t : Foreign W) : Foreign W :=
  { t with bridge := { t.bridge with
    basic := s.basicBridge K
    erc20token := s.erc20token K.keccak256
    feePercent := s.feePercent K.keccak256
    fallbackRecipient := s.fallbackRecipient K.keccak256
    relayedMessages := fun txHash => s.relayedMessages K.keccak256 (.plain txHash) } }

/-- The validator contract that stores `s`, with the given log. -/
def onValidators (log : List ValidatorsEvent) : BridgeValidators where
  isInitialized := s.isInitialized K.keccak256
  owner := s.owner K.keccak256
  requiredSignatures := s.requiredSignatures K.keccak256
  validatorCount := s.validatorCount K.keccak256
  validators v := s.validators K.keccak256 v
  validatorsList i := s.validatorsList K.keccak256 (.plain i)
  log := log

/-! The keys the bridges compute themselves. -/

theorem signIdx_eq (h : H) (index : UInt256) :
    K.keccak256.signIdx (.digest h) (.plain index) = .digest (Home.signIdx K h index) := rfl

theorem hashSender_eq (sender : Address) (h : H) :
    K.keccak256.hashSender sender (.digest h) = .digest (ThunderBridge.hashSender K sender h) := rfl

theorem onHome_signature (t : Home H W) (h : H) (index : UInt256) :
    Home.signature K (s.onHome K t) h index = s.signature K.keccak256 (.digest h) (.plain index) := by
  rw [signature, signIdx_eq]
  rfl

/-! ## Reading after a write -/

section Reads

variable {K s} [DecidableEq H] {x y : Slot (Word H)} {v : x.Value}

@[simp] theorem get_set : (s.set K.keccak256 x v).get K.keccak256 x = v := s.get_set_self x v

@[simp] theorem get_set_ne (hne : y ≠ x) :
    (s.set K.keccak256 x v).get K.keccak256 y = s.get K.keccak256 y :=
  s.get_set_of_ne K.injective.injOn (Set.mem_univ _) (Set.mem_univ _) hne v

variable (K s) in
/-- A field with an argument is a function, and a write updates it at one point. -/
theorem get_set_update {ι : Type} [DecidableEq ι] (slot : ι → Slot (Word H)) (hslot : Function.Injective slot)
    (i : ι) (v : (slot i).Value) :
    (fun j => (s.set K.keccak256 (slot i) v).get K.keccak256 (slot j)) =
      Function.update (fun j => s.get K.keccak256 (slot j)) i v := by
  funext j
  by_cases hj : j = i
  · subst hj
    rw [Function.update_self, get_set]
  · rw [Function.update_of_ne hj, get_set_ne (hslot.ne hj)]

end Reads

/-! ## Setters are updates of the records -/

section Updates

variable {K s} [DecidableEq H]

@[simp] theorem require_true : require True = some () := require_pos trivial

theorem map_ownerSets {β : Type} (f : EternalStorage H → β) {e : Env} {guard : Prop} [Decidable guard]
    {x : Slot (Word H)} {v : x.Value} : (s.ownerSets K.keccak256 e guard x v).map f = (do
      require (e.sender = s.owner K.keccak256)
      require guard
      pure (f (s.set K.keccak256 x v))) := by
  by_cases howner : e.sender = s.owner K.keccak256
  · by_cases hguard : guard
    · simp [ownerSets, checked, require, howner, hguard]
    · simp [ownerSets, checked, require, howner, hguard]
  · simp [ownerSets, checked, require, howner]

attribute [local simp] basicBridge basicHomeBridge overdrawManagement depositWithdrawFeeManager onHome onForeign
  onValidators owner totalSpentPerDay totalExecutedPerDay minPerTx maxPerTx executionMaxPerTx isInitialized dailyLimit
  executionDailyLimit numAffirmationsSigned affirmationsSigned messagesSigned messages signatures numMessagesSigned
  outOfLimitAmount fixedAssets txAboveLimits feePercent feeReceiver withdrawFixedFee withdrawFeePercent
  depositFixedFee depositFeePercent erc677token erc20token minterBurner fallbackRecipient relayedMessages
  requiredSignatures validatorCount validators validatorsList

attribute [local simp] setOwner setInitialize setTotalSpentPerDay setTotalExecutedPerDay setNumAffirmationsSigned
  setAffirmationsSigned setNumMessagesSigned setMessagesSigned setMessages setSignatures setOutOfLimitAmount
  setTxAboveLimits setFixedAssets setRelayedMessages setValidatorCount setValidator putValidatorToList
  BasicBridge.setTotalSpentPerDay BasicBridge.setTotalExecutedPerDay Home.setBasic Home.setLedger Home.setOverdraw
  Home.setFees Home.setNumAffirmationsSigned Home.setAffirmationsSigned Home.setNumMessagesSigned
  Home.setMessagesSigned Home.setMessages Home.setSignatures Foreign.setBasic Foreign.setRelayedMessages
  BridgeValidators.setValidatorCount BridgeValidators.setValidator BridgeValidators.putValidatorToList

/-! The daily counters. -/

theorem basicBridge_setTotalSpentPerDay (day n : UInt256) :
    (s.setTotalSpentPerDay K.keccak256 (.plain day) n).basicBridge K =
      (s.basicBridge K).setTotalSpentPerDay day n := by
  have hmap := get_set_update K s (fun d : UInt256 => .uint ⟨.totalSpentPerDay, .plain d⟩)
    (fun _ _ h => by cases h; rfl) day n
  simp [hmap]

theorem basicBridge_setTotalExecutedPerDay (day n : UInt256) :
    (s.setTotalExecutedPerDay K.keccak256 (.plain day) n).basicBridge K =
      (s.basicBridge K).setTotalExecutedPerDay day n := by
  have hmap := get_set_update K s (fun d : UInt256 => .uint ⟨.totalExecutedPerDay, .plain d⟩)
    (fun _ _ h => by cases h; rfl) day n
  simp [hmap]

section Home

variable (t : Home H W)

theorem onHome_setTotalSpentPerDay (day n : UInt256) :
    (s.setTotalSpentPerDay K.keccak256 (.plain day) n).onHome K t =
      (s.onHome K t).setBasic ((s.onHome K t).bridge.basic.setTotalSpentPerDay day n) := by
  have hbasic := basicBridge_setTotalSpentPerDay (K := K) (s := s) day n
  rw [onHome, hbasic]
  simp

theorem onHome_setTotalExecutedPerDay (day n : UInt256) :
    (s.setTotalExecutedPerDay K.keccak256 (.plain day) n).onHome K t =
      (s.onHome K t).setBasic ((s.onHome K t).bridge.basic.setTotalExecutedPerDay day n) := by
  have hbasic := basicBridge_setTotalExecutedPerDay (K := K) (s := s) day n
  rw [onHome, hbasic]
  simp

/-! The ledgers of affirmations and signatures. -/

theorem onHome_setNumAffirmationsSigned (h : H) (n : UInt256) :
    (s.setNumAffirmationsSigned K.keccak256 (.digest h) n).onHome K t =
      (s.onHome K t).setNumAffirmationsSigned h n := by
  have hmap := get_set_update K s (fun h : H => .uint ⟨.numAffirmationsSigned, .digest h⟩)
    (fun _ _ h => by cases h; rfl) h n
  simp [hmap]

theorem onHome_setAffirmationsSigned (h : H) (status : Bool) :
    (s.setAffirmationsSigned K.keccak256 (.digest h) status).onHome K t =
      (s.onHome K t).setAffirmationsSigned h status := by
  have hmap := get_set_update K s (fun h : H => .bool ⟨.affirmationsSigned, .digest h⟩)
    (fun _ _ h => by cases h; rfl) h status
  simp [hmap]

theorem onHome_setNumMessagesSigned (h : H) (n : UInt256) :
    (s.setNumMessagesSigned K.keccak256 (.digest h) n).onHome K t =
      (s.onHome K t).setNumMessagesSigned h n := by
  have hmap := get_set_update K s (fun h : H => .uint ⟨.numMessagesSigned, .digest h⟩)
    (fun _ _ h => by cases h; rfl) h n
  simp [hmap]

theorem onHome_setMessagesSigned (h : H) (status : Bool) :
    (s.setMessagesSigned K.keccak256 (.digest h) status).onHome K t =
      (s.onHome K t).setMessagesSigned h status := by
  have hmap := get_set_update K s (fun h : H => .bool ⟨.messagesSigned, .digest h⟩)
    (fun _ _ h => by cases h; rfl) h status
  simp [hmap]

theorem onHome_setMessages (h : H) (message : Bytes) :
    (s.setMessages K.keccak256 (.digest h) message).onHome K t = (s.onHome K t).setMessages h message := by
  have hmap := get_set_update K s (fun h : H => .bytes ⟨.messages, .digest h⟩)
    (fun _ _ h => by cases h; rfl) h message
  simp [hmap]

theorem onHome_setSignatures (h : H) (signature : Bytes) :
    (s.setSignatures K.keccak256 (.digest h) signature).onHome K t =
      (s.onHome K t).setSignatures h signature := by
  have hmap := get_set_update K s (fun h : H => .bytes ⟨.signatures, .digest h⟩)
    (fun _ _ h => by cases h; rfl) h signature
  simp [hmap]

/-! The overdraw ledger. -/

theorem onHome_setOutOfLimitAmount (n : UInt256) :
    (s.setOutOfLimitAmount K.keccak256 n).onHome K t =
      (s.onHome K t).setOverdraw { (s.onHome K t).bridge.overdraw with outOfLimitAmount := n } := by
  simp

theorem onHome_setTxAboveLimits (recipient : Address) (value : UInt256) (txHash : Bytes32) :
    (s.setTxAboveLimits K.keccak256 recipient value (.plain txHash)).onHome K t =
      (s.onHome K t).setOverdraw { (s.onHome K t).bridge.overdraw with
        txOutOfLimitRecipient :=
          Function.update (s.onHome K t).bridge.overdraw.txOutOfLimitRecipient txHash recipient
        txOutOfLimitValue := Function.update (s.onHome K t).bridge.overdraw.txOutOfLimitValue txHash value } := by
  have hrecipient := get_set_update K s (fun h : Bytes32 => .address ⟨.txOutOfLimitRecipient, .plain h⟩)
    (fun _ _ h => by cases h; rfl) txHash recipient
  have hvalue := get_set_update K
    (s.set K.keccak256 (.address ⟨.txOutOfLimitRecipient, .plain txHash⟩) recipient)
    (fun h : Bytes32 => .uint ⟨.txOutOfLimitValue, .plain h⟩) (fun _ _ h => by cases h; rfl) txHash value
  simp [hrecipient, hvalue]

theorem onHome_setFixedAssets (txHash : Bytes32) (status : Bool) :
    (s.setFixedAssets K.keccak256 (.plain txHash) status).onHome K t =
      (s.onHome K t).setOverdraw { (s.onHome K t).bridge.overdraw with
        fixedAssets := Function.update (s.onHome K t).bridge.overdraw.fixedAssets txHash status } := by
  have hmap := get_set_update K s (fun h : Bytes32 => .bool ⟨.fixedAssets, .plain h⟩)
    (fun _ _ h => by cases h; rfl) txHash status
  simp [hmap]

end Home

/-! The foreign bridge. -/

theorem onForeign_setRelayedMessages (t : Foreign W) (txHash : Bytes32) (status : Bool) :
    (s.setRelayedMessages K.keccak256 (.plain txHash) status).onForeign K t =
      (s.onForeign K t).setRelayedMessages txHash status := by
  have hmap := get_set_update K s (fun h : Bytes32 => .bool ⟨.relayedMessages, .plain h⟩)
    (fun _ _ h => by cases h; rfl) txHash status
  simp [hmap]

theorem onForeign_setTotalExecutedPerDay (t : Foreign W) (day n : UInt256) :
    (s.setTotalExecutedPerDay K.keccak256 (.plain day) n).onForeign K t =
      (s.onForeign K t).setBasic ((s.onForeign K t).bridge.basic.setTotalExecutedPerDay day n) := by
  have hbasic := basicBridge_setTotalExecutedPerDay (K := K) (s := s) day n
  rw [onForeign, hbasic]
  simp

/-! `BridgeValidators`. -/

section Validators

variable (log : List ValidatorsEvent)

theorem onValidators_setValidatorCount (n : UInt256) :
    (s.setValidatorCount K.keccak256 n).onValidators K log = (s.onValidators K log).setValidatorCount n := by
  simp

theorem onValidators_setValidator (v : Address) (status : Bool) :
    (s.setValidator K.keccak256 v status).onValidators K log = (s.onValidators K log).setValidator v status := by
  have hmap := get_set_update K s (fun v : Address => .bool ⟨.validators, v⟩)
    (fun _ _ h => by cases h; rfl) v status
  simp [hmap]

theorem onValidators_putValidatorToList (v : Address) (index : UInt256) :
    (s.putValidatorToList K.keccak256 v (.plain index)).onValidators K log =
      (s.onValidators K log).putValidatorToList v index := by
  have hmap := get_set_update K s (fun i : UInt256 => .address ⟨.validatorsList, .plain i⟩)
    (fun _ _ h => by cases h; rfl) index v
  simp [hmap]

theorem onValidators_setOwner (a : Address) :
    (s.setOwner K.keccak256 a).onValidators K log = { s.onValidators K log with owner := a } := by
  simp

theorem onValidators_setInitialize (status : Bool) :
    (s.setInitialize K.keccak256 status).onValidators K log =
      { s.onValidators K log with isInitialized := status } := by
  simp

theorem onValidators_requiredSignatures (n : UInt256) :
    (s.set K.keccak256 (.uint ⟨.requiredSignatures, ()⟩) n).onValidators K log =
      { s.onValidators K log with requiredSignatures := n } := by
  simp

theorem onValidators_deployedAtBlock (number : UInt256) :
    (s.set K.keccak256 (.uint ⟨.deployedAtBlock, ()⟩) number).onValidators K log = s.onValidators K log := by
  simp

end Validators

/-! ## The settings of the owner -/

/-- The setter of the storage. -/
def settingSetter : BasicBridge.Setting → Setter (Word H)
  | .setDailyLimit n => .setDailyLimit n
  | .setExecutionDailyLimit n => .setExecutionDailyLimit n
  | .setExecutionMaxPerTx n => .setExecutionMaxPerTx n
  | .setMaxPerTx n => .setMaxPerTx n
  | .setMinPerTx n => .setMinPerTx n
  | .transferOwnership a => .transferOwnership a

/-- **A setting of the owner** does to the record what its setter does to the storage. -/
theorem run_setting (e : Env) (setting : BasicBridge.Setting) (t : Home H W) :
    ((settingSetter setting).run K.keccak256 s e).map (onHome K · t) = (do
      require (e.sender = (s.onHome K t).bridge.basic.owner)
      let b ← (s.onHome K t).bridge.basic.applySetting setting
      pure ((s.onHome K t).setBasic b)) := by
  cases setting with
  | setDailyLimit n | setExecutionDailyLimit n =>
      refine (map_ownerSets _).trans (bind_congr fun _ => ?_)
      simp [BasicBridge.applySetting]
  | setExecutionMaxPerTx n | setMaxPerTx n | setMinPerTx n =>
      refine (map_ownerSets _).trans (bind_congr fun _ => ?_)
      simp only [BasicBridge.applySetting, bind_assoc, pure_bind]
      refine bind_congr fun _ => ?_
      simp
  | transferOwnership a =>
      -- the setter of the owner calls another one, so it is not an `ownerSets`
      show (s.transferOwnership K.keccak256 e a).map _ = _
      simp only [EternalStorage.transferOwnership, BasicBridge.applySetting, Option.bind_eq_bind,
        Option.bind_assoc, Option.map_bind, Function.comp_def, Option.pure_def, Option.map_some, Option.bind_some]
      refine Option.bind_congr fun _ _ => Option.bind_congr fun _ _ => ?_
      simp

/-- The setter of the storage, for each setting of a home bridge. -/
def ownerSetter : OwnerSetting → Setter (Word H)
  | .basic setting => settingSetter setting
  | .setFeePercent n => .setFeePercent n
  | .setFeeReceiver a => .setFeeReceiver a
  | .setWithdrawFixedFee n => .setWithdrawFixedFee n
  | .setWithdrawFeePercent n => .setWithdrawFeePercent n
  | .setDepositFixedFee n => .setDepositFixedFee n
  | .setDepositFeePercent n => .setDepositFeePercent n
  | .setMinterBurner a => .setMinterBurner a
  | .setFallbackRecipient a => .setFallbackRecipient a

/-- The contract has the setter, and did not deprecate it. -/
def Declares (V : HomeVariant) : OwnerSetting → Prop
  | .basic _ => True
  | .setFeePercent _ => V = .ercToErc
  | .setFeeReceiver _ | .setWithdrawFixedFee _ | .setWithdrawFeePercent _ | .setDepositFixedFee _
  | .setDepositFeePercent _ => Home.hasDepositWithdrawFee V
  | .setMinterBurner _ => V = .ercToErcWithFeeV2
  | .setFallbackRecipient _ => V = .nativeToErcWithFee

/-- **A setting of a home bridge** does to the chain what its setter does to the storage of the bridge. -/
theorem run_ownerSetting {V : HomeVariant} (e : Env) {setting : OwnerSetting} (hV : Declares V setting)
    (t : Home H W) : ((ownerSetter setting).run K.keccak256 s e).map (onHome K · t) = (do
      require (e.sender = (s.onHome K t).bridge.basic.owner)
      (s.onHome K t).applySetting V setting) := by
  cases setting with
  | basic setting => exact run_setting e setting t
  | setFeeReceiver a | setWithdrawFixedFee n | setDepositFixedFee n | setWithdrawFeePercent n
  | setDepositFeePercent n =>
      have hdeclared : require (Home.hasDepositWithdrawFee V) = some () := require_pos hV
      refine (map_ownerSets _).trans (bind_congr fun _ => ?_)
      simp [Home.applySetting, hdeclared]
  | setFeePercent n =>
      have hdeclared : require (V = .ercToErc) = some () := require_pos hV
      refine (map_ownerSets _).trans (bind_congr fun _ => ?_)
      simp [Home.applySetting, hdeclared]
  | setMinterBurner a =>
      have hdeclared : require (V = .ercToErcWithFeeV2) = some () := require_pos hV
      refine (map_ownerSets _).trans (bind_congr fun _ => ?_)
      simp [Home.applySetting, hdeclared]
  | setFallbackRecipient a =>
      have hdeclared : require (V = .nativeToErcWithFee) = some () := require_pos hV
      refine (map_ownerSets _).trans (bind_congr fun _ => ?_)
      simp [Home.applySetting, hdeclared]

end Updates

end EternalStorage
end ThunderBridge
