import ThunderBridge.Contracts.BasicBridge
import ThunderBridge.Contracts.Message
import ThunderBridge.Lib.Calls

/-!
# `ForeignBridge.State` — the foreign bridges of an ERC-20 token, and the chain around them

`ForeignBridgeErcToErc` with its successors V2 and V3: `executeSignatures` releases tokens of the bridge
for a message signed by enough validators. `Foreign W` is the foreign chain, `ForeignTx` a call of the
bridge by anybody, and `Step` one step of the chain; a token that is called may call the bridge back.

`trail` is a ghost, as on the home chain: one entry for each relayed message, with the signatures it
came with and the validator contract as it was then.
-/

namespace ThunderBridge

/-- The foreign bridge contracts of an ERC-20 token. -/
inductive ForeignVariant where
  | ercToErc
  | ercToErcV2
  | ercToErcV3
deriving DecidableEq, Repr

/-- The events of the foreign bridges. -/
inductive ForeignEvent where
  | RelayedMessage (recipient : Address) (value : UInt256) (transactionHash : Bytes32)
  | RecipientRedirected (source target : Address)
deriving DecidableEq, Repr

/-- A relayed message, the signatures it came with, and the validators who were to have signed it. -/
structure Relay where
  message : Bytes
  parsed : ParsedMessage
  vs : List Byte
  rs : List Bytes32
  ss : List Bytes32
  validators : BridgeValidators

/-- The storage of a foreign bridge behind its proxy, and the events it emitted (newest first). -/
structure ForeignBridge where
  self : Address
  basic : BasicBridge
  erc20token : Address
  feePercent : UInt256
  fallbackRecipient : Address
  relayedMessages : Bytes32 → Bool
  log : List ForeignEvent
  trail : List Relay

/-- The foreign chain. -/
structure Foreign (W : Type) where
  validators : BridgeValidators
  bridge : ForeignBridge
  /-- Time of the current block. -/
  now : UInt256
  world : W

/-- The settings only the owner changes. -/
inductive ForeignSetting where
  | basic (setting : BasicBridge.Setting)
  | setFeePercent (feePercent : UInt256)
  | setFallbackRecipient (recipient : Address)
deriving Repr

/-- One call of a foreign bridge. -/
inductive ForeignTx where
  | executeSignatures (vs : List Byte) (rs ss : List Bytes32) (message : Bytes)
  | setting (sender : Address) (setting : ForeignSetting)
deriving Repr

namespace Foreign

variable {H W : Type}

def getCurrentDay (s : Foreign W) : UInt256 := s.now / days

def emit (s : Foreign W) (e : ForeignEvent) : Foreign W :=
  { s with bridge := { s.bridge with log := e :: s.bridge.log } }

def mark (s : Foreign W) (r : Relay) : Foreign W :=
  { s with bridge := { s.bridge with trail := r :: s.bridge.trail } }

def setBasic (s : Foreign W) (b : BasicBridge) : Foreign W :=
  { s with bridge := { s.bridge with basic := b } }

def relayedMessages (s : Foreign W) (txHash : Bytes32) : Bool := s.bridge.relayedMessages txHash

def setRelayedMessages (s : Foreign W) (txHash : Bytes32) (status : Bool) : Foreign W :=
  { s with bridge :=
    { s.bridge with relayedMessages := Function.update s.bridge.relayedMessages txHash status } }

/-! ## Paying out -/

/-- `ForeignBridgeErcToErc.tokenTransfer`: whether the low-level call went through. -/
def tokenTransfer (call : Callee (Foreign W)) (s : Foreign W) (recipient : Address) (amount : UInt256) :
    Foreign W × Bool :=
  let (s', data) := call.lowLevel (.transfer s.bridge.erc20token recipient amount) s
  (s', data.isSome)

/-- `ForeignBridgeErcToErcV3.tokenTransfer`: also reads the data the token returns. No data at all is
    taken for success, one word for a `bool`, anything else reverts. -/
def tokenTransferV3 (call : Callee (Foreign W)) (s : Foreign W) (recipient : Address) (amount : UInt256) :
    Option (Foreign W × Bool) :=
  match call.lowLevel (.transfer s.bridge.erc20token recipient amount) s with
  | (s', none) => some (s', false)
  | (s', some data) =>
      if data.length = 0 then some (s', true)
      else if data.length = 32 then some (s', Bytes.mload data 0 != 0)
      else none

/-- `result = result && tokenTransfer(target, amount)` for each of the given addresses. -/
def transferEach (call : Callee (Foreign W)) (amount : UInt256) :
    List Address → Foreign W → Bool → Foreign W × Bool
  | [], s, result => (s, result)
  | a :: as, s, result =>
      let (s, result) := if result then tokenTransfer call s a amount else (s, false)
      transferEach call amount as s result

/-- `ForeignBridgeErcToErc.onExecuteMessage`: the fee is split among the validators. -/
def onExecuteMessageErcToErc (call : Callee (Foreign W)) (s : Foreign W) (recipient : Address)
    (amount : UInt256) : Option (Foreign W × Bool) := do
  let spent ← SafeMath.add (s.bridge.basic.totalExecutedPerDay s.getCurrentDay) amount
  let s := s.setBasic (s.bridge.basic.setTotalExecutedPerDay s.getCurrentDay spent)
  if s.bridge.feePercent = 0 then pure (tokenTransfer call s recipient amount)
  else do
    let userValue ← FeeManager.subtractFee s.bridge.feePercent amount
    let validators := s.validators.validatorsArray
    let entireValidatorValue ← SafeMath.sub amount userValue
    let particularValidatorValue ← SafeMath.div entireValidatorValue (BitVec.ofNat 256 validators.length)
    let (s, result) :=
      transferEach call particularValidatorValue (validators.take (validators.length - 1)) s true
    -- the last validator gets what rounding left over
    let others ← SafeMath.sub (BitVec.ofNat 256 validators.length) 1
    let paid ← SafeMath.mul particularValidatorValue others
    let lastValidatorValue ← SafeMath.sub entireValidatorValue paid
    let (s, result) :=
      transferEach call lastValidatorValue (validators.drop (validators.length - 1)) s result
    pure (transferEach call userValue [recipient] s result)

/-- `ForeignBridgeErcToErcV3.onExecuteMessage`: a failed transfer is redirected. The second transfer is
    made for its effect; its result is not looked at. -/
def onExecuteMessageV3 (call : Callee (Foreign W)) (s : Foreign W) (recipient : Address)
    (amount : UInt256) : Option (Foreign W × Bool) := do
  let (s, ok) ← tokenTransferV3 call s recipient amount
  if ok then pure (s, true)
  else do
    let fallbackRecipient := s.bridge.fallbackRecipient
    require (fallbackRecipient ≠ 0)
    let (s, _) ← tokenTransferV3 call s fallbackRecipient amount
    pure (s.emit (.RecipientRedirected recipient fallbackRecipient), true)

def onExecuteMessage (V : ForeignVariant) (call : Callee (Foreign W)) (s : Foreign W) (recipient : Address)
    (amount : UInt256) : Option (Foreign W × Bool) :=
  match V with
  | .ercToErc => onExecuteMessageErcToErc call s recipient amount
  | .ercToErcV2 => pure (tokenTransfer call s recipient amount)
  | .ercToErcV3 => onExecuteMessageV3 call s recipient amount

/-! ## `executeSignatures` -/

/-- `messageWithinLimits`; V2 and V3 have no such check. -/
def messageWithinLimits (V : ForeignVariant) (s : Foreign W) (amount : UInt256) : Option Bool :=
  match V with
  | .ercToErc => s.bridge.basic.withinExecutionLimit s.getCurrentDay amount
  | .ercToErcV2 | .ercToErcV3 => some true

/-- `executeSignatures`. A message above the limits goes to `onFailedMessage`, which reverts. -/
def executeSignatures (K : CollisionFree H) (ecrecover : Ecrecover H) (V : ForeignVariant)
    (call : Callee (Foreign W)) (s : Foreign W) (vs : List Byte) (rs ss : List Bytes32) (message : Bytes) :
    Option (Foreign W) := do
  Message.hasEnoughValidSignatures K ecrecover message vs rs ss s.validators
  let m ← Message.parseMessage message
  let within ← messageWithinLimits V s m.amount
  require (within = true)
  require (m.contractAddress = s.bridge.self)
  require (s.relayedMessages m.txHash = false)
  -- before the token is called, which may come back
  let s := s.setRelayedMessages m.txHash true
  let (s, ok) ← onExecuteMessage V call s m.recipient m.amount
  require (ok = true)
  let s := s.mark ⟨message, m, vs, rs, ss, s.validators⟩
  pure (s.emit (.RelayedMessage m.recipient m.amount m.txHash))

/-! ## Runs -/

/-- A setter called by the owner. V2 and V3 deprecated two of them. -/
def applySetting (V : ForeignVariant) (s : Foreign W) : ForeignSetting → Option (Foreign W)
  | .basic (.setExecutionDailyLimit n) => do
      require (V = .ercToErc)
      let b ← s.bridge.basic.applySetting (.setExecutionDailyLimit n)
      pure (s.setBasic b)
  | .basic setting => do
      let b ← s.bridge.basic.applySetting setting
      pure (s.setBasic b)
  | .setFeePercent n => do
      require (V = .ercToErc)
      require (n < 10000)
      pure { s with bridge := { s.bridge with feePercent := n } }
  | .setFallbackRecipient a => do
      require (V = .ercToErcV3)
      require (a ≠ 0)
      pure { s with bridge := { s.bridge with fallbackRecipient := a } }

/-- A setting writes the limits and the parameters of the payments. -/
theorem applySetting_cases {V : ForeignVariant} {s s' : Foreign W} {setting : ForeignSetting}
    (h : applySetting V s setting = some s') :
    ∃ basic feePercent fallbackRecipient, s' = { s with bridge := { s.bridge with
      basic := basic
      feePercent := feePercent
      fallbackRecipient := fallbackRecipient } } := by
  cases setting with
  | basic b =>
      cases b <;>
        simp only [applySetting, Option.bind_eq_bind, Option.bind_eq_some_iff, require_eq_some, exists_const,
          Option.pure_def, Option.some.injEq] at h
      case setExecutionDailyLimit =>
        obtain ⟨_, basic, _, rfl⟩ := h
        exact ⟨basic, _, _, rfl⟩
      all_goals
        obtain ⟨basic, _, rfl⟩ := h
        exact ⟨basic, _, _, rfl⟩
  | setFeePercent n =>
      simp only [applySetting, Option.bind_eq_bind, Option.bind_eq_some_iff, require_eq_some, exists_const,
        Option.pure_def, Option.some.injEq] at h
      obtain ⟨_, _, rfl⟩ := h
      exact ⟨_, n, _, rfl⟩
  | setFallbackRecipient a =>
      simp only [applySetting, Option.bind_eq_bind, Option.bind_eq_some_iff, require_eq_some, exists_const,
        Option.pure_def, Option.some.injEq] at h
      obtain ⟨_, _, rfl⟩ := h
      exact ⟨_, _, a, rfl⟩

/-- A call of the bridge, the calls it makes answered by `call`; `none` when it reverts. -/
def exec (K : CollisionFree H) (ecrecover : Ecrecover H) (V : ForeignVariant) (call : Callee (Foreign W))
    (s : Foreign W) : ForeignTx → Option (Foreign W)
  | .executeSignatures vs rs ss message => executeSignatures K ecrecover V call s vs rs ss message
  | .setting sender setting => do
      require (sender = s.bridge.basic.owner)
      applySetting V s setting

/-- A callee whose every answer changes the state as `out` allows. -/
def Within (out : Foreign W → Foreign W → Prop) (call : Callee (Foreign W)) : Prop :=
  ∀ c s s' data, call c s = some (s', data) → out s s'

/-- One call of the bridge that `allowed` admits, over what its outgoing calls may do. -/
def Invoke (K : CollisionFree H) (ecrecover : Ecrecover H) (V : ForeignVariant)
    (allowed : Foreign W → ForeignTx → Prop) (out : Foreign W → Foreign W → Prop) (s s' : Foreign W) :
    Prop :=
  ∃ call tx, allowed s tx ∧ Within out call ∧ exec K ecrecover V call s tx = some s'

/-- Anything that happens outside the two contracts. -/
def Elsewhere (s s' : Foreign W) : Prop := ∃ w, s' = { s with world := w }

/-- A call of the bridge whose callees call it back at most `n` deep. -/
abbrev Call (K : CollisionFree H) (ecrecover : Ecrecover H) (V : ForeignVariant)
    (allowed : Foreign W → ForeignTx → Prop) (n : Nat) : Foreign W → Foreign W → Prop :=
  Calls.Nested (Invoke K ecrecover V allowed) Elsewhere n

/-- One step of the foreign chain, with the calls of the bridge that `allowed` admits. -/
inductive StepWhen (K : CollisionFree H) (ecrecover : Ecrecover H) (V : ForeignVariant)
    (allowed : Foreign W → ForeignTx → Prop) : Foreign W → Foreign W → Prop where
  /-- A call of the bridge succeeds. -/
  | bridge {s s' : Foreign W} (n : Nat) (h : Call K ecrecover V allowed n s s') :
      StepWhen K ecrecover V allowed s s'
  /-- A transaction to the validator contract succeeds. -/
  | validators {s : Foreign W} {v : BridgeValidators} (h : s.validators.Step v) :
      StepWhen K ecrecover V allowed s { s with validators := v }
  /-- A later block. -/
  | tick {s : Foreign W} (now : UInt256) (h : s.now ≤ now) :
      StepWhen K ecrecover V allowed s { s with now := now }
  /-- The rest of the chain moves. -/
  | elsewhere {s s' : Foreign W} (h : Elsewhere s s') : StepWhen K ecrecover V allowed s s'

/-- A run of the foreign chain: any call of the bridge, by anybody. -/
abbrev Run (K : CollisionFree H) (ecrecover : Ecrecover H) (V : ForeignVariant) :
    Foreign W → Foreign W → Prop :=
  Relation.ReflTransGen (StepWhen K ecrecover V fun _ _ => True)

/-- A chain just deployed: the validator contract initialised, nothing relayed; the settings are free. -/
structure Fresh (s : Foreign W) : Prop where
  validators : ∃ n vs owner, BridgeValidators.blank.initializeWith n vs owner = some s.validators
  relayedMessages : ∀ t, s.bridge.relayedMessages t = false
  log : s.bridge.log = []
  trail : s.bridge.trail = []

/-- The chain on which a bridge was just deployed over the given validator contract. -/
def deploy (validators : BridgeValidators) (self erc20token : Address) (basic : BasicBridge)
    (feePercent : UInt256) (fallbackRecipient : Address) (world : W) : Foreign W where
  validators := validators
  bridge :=
    { self := self
      basic := basic
      erc20token := erc20token
      feePercent := feePercent
      fallbackRecipient := fallbackRecipient
      relayedMessages := fun _ => false
      log := []
      trail := [] }
  now := 0
  world := world

theorem deploy_fresh {validators : BridgeValidators} {n : UInt256} {vs : List Address} {owner : Address}
    (h : BridgeValidators.blank.initializeWith n vs owner = some validators) (self erc20token : Address)
    (basic : BasicBridge) (feePercent : UInt256) (fallbackRecipient : Address) (world : W) :
    Fresh (deploy validators self erc20token basic feePercent fallbackRecipient world) where
  validators := ⟨n, vs, owner, h⟩
  relayedMessages _ := rfl
  log := rfl
  trail := rfl

/-- A call from outside whose callees leave the chain alone. -/
theorem step_of_exec {K : CollisionFree H} {ecrecover : Ecrecover H} {V : ForeignVariant}
    {allowed : Foreign W → ForeignTx → Prop} {call : Callee (Foreign W)} {tx : ForeignTx}
    {s s' : Foreign W} (hallowed : allowed s tx) (hcall : Within Elsewhere call)
    (h : exec K ecrecover V call s tx = some s') : StepWhen K ecrecover V allowed s s' :=
  .bridge 1 ⟨call, tx, hallowed,
    fun _ _ _ _ hc => Relation.ReflTransGen.single (Or.inl (hcall _ _ _ _ hc)), h⟩

/-! ## A deployment to evaluate -/

/-- Bridge 7 of token 5, with limits of 1000 a day and 500 at once; fallback recipient 3. -/
def sampleForeign (validators : BridgeValidators) (world : W) : Foreign W :=
  deploy validators 7 5 ⟨9, 1000, 500, 1, 1000, 500, fun _ => 0, fun _ => 0⟩ 0 3 world

/-- Every call succeeds and answers true. -/
def obliging : Callee (Foreign W) := fun _ s => some (s, packWord 1)

theorem obliging_within : Within Elsewhere (obliging : Callee (Foreign W)) := by
  intro c s s' data h
  obtain ⟨rfl, _⟩ := Prod.mk.inj (Option.some.inj h)
  exact ⟨s.world, rfl⟩

/-- The signature with parts `v`, `r`, `s` is one by the address `v`. -/
def signerV : Ecrecover (List Byte) := fun _ v _ _ => v.setWidth 160

/-- A message to recipient 33 about an amount of 100 and the transaction 77, for bridge 7. -/
def sampleMessage : ParsedMessage := ⟨33, 100, 77, 7⟩

end Foreign
end ThunderBridge
