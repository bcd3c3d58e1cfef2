import ThunderBridge.Contracts.HomeBridge.Run
import ThunderBridge.Contracts.MinterBurnerProxy
import ThunderBridge.Lib.Accounts

/-!
# `Contracts.BridgeToken` — the home tokens, and the hook of the bridge

`ERC677BridgeToken`, `ERC677MultiBridgeToken` and `ERC677InitializableBridgeToken` put two functions in front of
OpenZeppelin's token: `transfer` and `transferAndCall` call `onTokenTransfer` of a recipient that is a bridge, and
fail if that fails. `mint` only funds the recipient with coin. Everything else is inherited.

OpenZeppelin's token is a parameter (`StandardToken`), and so is what a payment of coin with the stipend of `send`
does. `bridgeCallee` closes the circle: what the bridge calls of its token, or of the `MinterBurnerProxy` that owns
the token, is the token here, which may call the bridge again.

Four lists of `TokenWorld` are ghosts, that no function reads: what OpenZeppelin's token was successfully asked to
move, what was credited to the bridge while it was registered, what its `onTokenTransfer` was successfully called
with, and what `fundReceiver` did.
-/

namespace ThunderBridge

/-! ## Storage -/

inductive TokenVariant where
  /-- `ERC677BridgeToken`: one bridge, and every contract is called. -/
  | bridgeToken
  /-- `ERC677MultiBridgeToken`. -/
  | multiBridgeToken
  /-- `ERC677InitializableBridgeToken`. -/
  | initializableBridgeToken
deriving DecidableEq, Repr

structure FundingRules where
  periodLength : UInt256
  maxPeriodFunds : UInt256
  threshold : UInt256
  amount : UInt256

/-- The storage of a home token: OpenZeppelin's, and its own. -/
structure BridgeToken (B : Type) where
  base : B
  bridgeContract : Address
  validBridgeContract : Address → Bool
  fundingRules : FundingRules
  lastFundingPeriod : UInt256
  totalPeriodFundedAmount : UInt256

inductive TokenEvent where
  | Transfer (source target : Address) (value : UInt256) (data : Bytes)
  | ContractFallbackCallFailed (source target : Address) (value : UInt256)
deriving DecidableEq, Repr

/-- What moved tokens. -/
inductive Movement where
  | move (source target : Address) (value : UInt256)
  | mint (target : Address) (value : UInt256)
  | burn (source : Address) (value : UInt256)
  /-- No movement of the token: another contract than its own `MinterBurnerProxy` was to burn it, and accepted. -/
  | entrusted (burner who : Address) (value : UInt256)
deriving DecidableEq, Repr

namespace Movement

def gain : Movement → Address → Nat
  | .move _ target value, a | .mint target value, a => if a = target then value.toNat else 0
  | .burn _ _, _ | .entrusted _ _ _, _ => 0

def loss : Movement → Address → Nat
  | .move source _ value, a | .burn source value, a => if a = source then value.toNat else 0
  | .mint _ _, _ | .entrusted _ _ _, _ => 0

def issued : Movement → Nat
  | .mint _ value => value.toNat
  | _ => 0

def retired : Movement → Nat
  | .burn _ value => value.toNat
  | _ => 0

end Movement

/-- The functions that credit an account. -/
inductive Entry where
  | transfer
  | transferAndCall
  | transferFrom
  | mint
deriving DecidableEq, Repr

/-- A credit of the bridge. -/
structure Credit where
  entry : Entry
  source : Address
  value : UInt256
deriving DecidableEq, Repr

/-- How a function credits its target. -/
def Entry.movement (source target : Address) (value : UInt256) : Entry → Movement
  | .transfer | .transferAndCall | .transferFrom => .move source target value
  | .mint => .mint target value

/-- A call of the bridge's `onTokenTransfer`, and who received its fees then. -/
structure Notice where
  source : Address
  value : UInt256
  feeReceiver : Address
deriving DecidableEq, Repr

/-- What happened to the funding of receivers. -/
inductive FundingEntry where
  | rules (rules : FundingRules)
  /-- A new period, and its `maxPeriodFunds`. -/
  | reset (maxPeriodFunds : UInt256)
  /-- A `send` that went through, and the counter before it. -/
  | paid (target : Address) (amount total : UInt256)

/-- A home token on its chain. -/
structure TokenWorld (B W : Type) where
  token : BridgeToken B
  /-- The owner of a V2 token. -/
  minterBurner : MinterBurnerProxy
  /-- Newest first. -/
  log : List TokenEvent
  /-- `extcodesize` is positive; the bridge itself is not looked up. -/
  hasCode : Address → Bool
  blockNumber : UInt256
  coins : W
  movements : List Movement
  credits : List Credit
  notices : List Notice
  funding : List FundingEntry

/-! ## Code outside the repository -/

/-- OpenZeppelin's token: `StandardToken`, `BurnableToken` and `MintableToken`, or their successors. A function that
    returns false is not told from one that reverts, as every caller here requires true. -/
structure StandardToken (B : Type) where
  owner : B → Address
  totalSupply : B → UInt256
  balanceOf : B → Address → UInt256
  transfer : B → Address → Address → UInt256 → Option B
  /-- The spender, the source, the target. -/
  transferFrom : B → Address → Address → Address → UInt256 → Option B
  mint : B → Address → UInt256 → Option B
  burn : B → Address → UInt256 → Option B
  approve : B → Address → Address → UInt256 → Option B
  transferOwnership : B → Address → Address → Option B

/-- The accounts of a token. -/
def StandardToken.accounts {B : Type} (base : StandardToken B) : Accounts B Movement Address where
  balance b a := (base.balanceOf b a).toNat
  supply b := (base.totalSupply b).toNat
  gain := Movement.gain
  loss := Movement.loss
  issued := Movement.issued
  retired := Movement.retired

/-- Every function moves what it is asked to, and nothing else. -/
structure StandardToken.Lawful {B : Type} (base : StandardToken B) : Prop where
  transfer : ∀ b source target value b', base.transfer b source target value = some b' →
    base.accounts.Explains [.move source target value] b b'
  transferFrom : ∀ b spender source target value b', base.transferFrom b spender source target value = some b' →
    base.accounts.Explains [.move source target value] b b'
  mint : ∀ b target value b', base.mint b target value = some b' → base.accounts.Explains [.mint target value] b b'
  burn : ∀ b who value b', base.burn b who value = some b' → base.accounts.Explains [.burn who value] b b'
  approve : ∀ b source spender value b', base.approve b source spender value = some b' →
    base.accounts.Explains [] b b'
  transferOwnership : ∀ b sender newOwner b', base.transferOwnership b sender newOwner = some b' →
    base.accounts.Explains [] b b'

/-- What a deployed token runs on. -/
structure TokenCode (B W : Type) where
  variant : TokenVariant
  /-- `ERC677MultiBridgeTokenV2` and `ERC677InitializableBridgeTokenV2`. -/
  v2 : Bool
  address : Address
  /-- Where its `MinterBurnerProxy` is. -/
  minterBurner : Address
  base : StandardToken B
  balance : W → Address → UInt256
  /-- `send`, whose stipend pays for no write. -/
  send : W → Address → UInt256 → Option W

/-- The contracts other than the token and the bridge. -/
structure Outside (S : Type) where
  call : Callee S
  /-- The recipient, the sender, the value and the data. -/
  onTokenTransfer : Address → Address → UInt256 → Bytes → S → Option S

/-! ## The program -/

/-- One call of the token. -/
inductive TokenTx where
  | transfer (sender target : Address) (value : UInt256)
  | transferAndCall (sender target : Address) (value : UInt256) (data : Bytes)
  | transferFrom (sender source target : Address) (value : UInt256)
  | mint (sender target : Address) (amount : UInt256)
  | burn (sender : Address) (value : UInt256)
  | burnOf (sender who : Address) (value : UInt256)
  | approve (sender spender : Address) (value : UInt256)
  | transferOwnership (sender newOwner : Address)
  | setFundingRules (sender : Address) (rules : FundingRules)
  | setBridgeContract (sender bridgeContract : Address)
  | addBridgeContract (sender bridgeContract : Address)
  | removeBridgeContract (sender bridgeContract : Address)

/-- The home chain with its token. -/
abbrev TokenHome (H B W : Type) := Home H (TokenWorld B W)

namespace TokenCode

variable {H B W : Type} (T : TokenCode B W)

def setToken (s : TokenHome H B W) (t : BridgeToken B) : TokenHome H B W :=
  { s with world := { s.world with token := t } }

def setBase (s : TokenHome H B W) (b : B) : TokenHome H B W := setToken s { s.world.token with base := b }

/-- Records what moved. -/
def moved (s : TokenHome H B W) (m : Movement) : TokenHome H B W :=
  { s with world := { s.world with movements := m :: s.world.movements } }

/-- Records what happened to the funding. -/
def funded (s : TokenHome H B W) (e : FundingEntry) : TokenHome H B W :=
  { s with world := { s.world with funding := e :: s.world.funding } }

def emit (s : TokenHome H B W) (e : TokenEvent) : TokenHome H B W :=
  { s with world := { s.world with log := e :: s.world.log } }

/-- A bridge that the owner registered. -/
def isBridge (t : BridgeToken B) (a : Address) : Prop :=
  match T.variant with
  | .bridgeToken => a = t.bridgeContract
  | .multiBridgeToken | .initializableBridgeToken => t.validBridgeContract a = true

instance (t : BridgeToken B) (a : Address) : Decidable (T.isBridge t a) := by
  unfold isBridge
  split <;> infer_instance

def isContract (s : TokenHome H B W) (a : Address) : Prop := a = s.bridge.self ∨ s.world.hasCode a = true

instance (s : TokenHome H B W) (a : Address) : Decidable (isContract s a) := by
  unfold isContract
  infer_instance

/-- Whether `transfer` and `transferAndCall` call their recipient. -/
def callsBack (s : TokenHome H B W) (a : Address) : Prop :=
  match T.variant with
  | .bridgeToken => isContract s a
  | .multiBridgeToken | .initializableBridgeToken => s.world.token.validBridgeContract a = true

instance (s : TokenHome H B W) (a : Address) : Decidable (T.callsBack s a) := by
  unfold callsBack
  split <;> infer_instance

/-- Records a credit of the bridge. -/
def credit (s : TokenHome H B W) (entry : Entry) (source target : Address) (value : UInt256) : TokenHome H B W :=
  if target = s.bridge.self ∧ T.isBridge s.world.token target ∧ value ≠ 0 then
    { s with world := { s.world with credits := ⟨entry, source, value⟩ :: s.world.credits } }
  else s

/-- Records a successful call of `onTokenTransfer` of the bridge, from `s` to `s'`. -/
def notice (s s' : TokenHome H B W) (source : Address) (value : UInt256) : TokenHome H B W :=
  if T.isBridge s.world.token s.bridge.self ∧ value ≠ 0 then
    { s' with world := { s'.world with
      notices := ⟨source, value, s.bridge.fees.feeReceiver⟩ :: s'.world.notices } }
  else s'

/-- A new funding period, once the last one is over; the sum may wrap. -/
def resetFundingPeriod (s : TokenHome H B W) : TokenHome H B W :=
  let t := s.world.token
  if t.fundingRules.periodLength + t.lastFundingPeriod < s.world.blockNumber then
    funded (setToken s { t with lastFundingPeriod := s.world.blockNumber, totalPeriodFundedAmount := 0 })
      (.reset t.fundingRules.maxPeriodFunds)
  else s

/-- `fundReceiver`: coin for a recipient that is short of it. -/
def fundReceiver (s : TokenHome H B W) (target : Address) : TokenHome H B W :=
  let s := resetFundingPeriod s
  let t := s.world.token
  if T.balance s.world.coins target < t.fundingRules.threshold ∧
      t.fundingRules.amount + t.totalPeriodFundedAmount ≤ t.fundingRules.maxPeriodFunds then
    match T.send s.world.coins target t.fundingRules.amount with
    | some coins =>
        funded { s with world := { s.world with
          token := { t with totalPeriodFundedAmount := t.totalPeriodFundedAmount + t.fundingRules.amount }
          coins := coins } } (.paid target t.fundingRules.amount t.totalPeriodFundedAmount)
    | none => s
  else s

/-- `superTransfer`, recorded for the function that calls it. -/
def superTransfer (s : TokenHome H B W) (entry : Entry) (sender target : Address) (value : UInt256) :
    Option (TokenHome H B W) := do
  let base ← T.base.transfer s.world.token.base sender target value
  pure (T.credit (moved (setBase s base) (.move sender target value)) entry sender target value)

/-- What a call of the bridge's `onTokenTransfer` by the token does. -/
abbrev Hook (H B W : Type) := TokenHome H B W → Address → UInt256 → Option (TokenHome H B W)

/-- `contractFallback`: a low-level call of `onTokenTransfer(sender, value, data)`. -/
def contractFallback (hook : Hook H B W) (outside : Outside (TokenHome H B W)) (s : TokenHome H B W)
    (sender target : Address) (value : UInt256) (data : Bytes) : TokenHome H B W × Bool :=
  if target = s.bridge.self then
    match hook s sender value with
    | some s' => (T.notice s s' sender value, true)
    | none => (s, false)
  else
    match outside.onTokenTransfer target sender value data s with
    | some s' => (s', true)
    | none => (s, false)

/-- `transfer`. Only `ERC677BridgeToken` lets a recipient fail that is not its bridge. -/
def transfer (hook : Hook H B W) (outside : Outside (TokenHome H B W)) (s : TokenHome H B W)
    (sender target : Address) (value : UInt256) : Option (TokenHome H B W) := do
  let s ← T.superTransfer s .transfer sender target value
  let s := T.fundReceiver s target
  if T.callsBack s target then
    let (s, ok) := T.contractFallback hook outside s sender target value []
    if ok then pure s
    else if T.variant = .bridgeToken ∧ target ≠ s.world.token.bridgeContract then
      pure (emit s (.ContractFallbackCallFailed sender target value))
    else none
  else pure s

/-- `transferAndCall`. -/
def transferAndCall (hook : Hook H B W) (outside : Outside (TokenHome H B W)) (s : TokenHome H B W)
    (sender target : Address) (value : UInt256) (data : Bytes) : Option (TokenHome H B W) := do
  require (target ≠ 0 ∧ target ≠ T.address)
  let s ← T.superTransfer s .transferAndCall sender target value
  let s := T.fundReceiver s target
  let s := emit s (.Transfer sender target value data)
  if T.callsBack s target then
    let (s, ok) := T.contractFallback hook outside s sender target value data
    require (ok = true)
    pure s
  else pure s

/-- `transferFrom`, inherited. -/
def transferFrom (s : TokenHome H B W) (sender source target : Address) (value : UInt256) :
    Option (TokenHome H B W) := do
  let base ← T.base.transferFrom s.world.token.base sender source target value
  pure (T.credit (moved (setBase s base) (.move source target value)) .transferFrom source target value)

/-- `mint`. -/
def mint (s : TokenHome H B W) (sender target : Address) (amount : UInt256) : Option (TokenHome H B W) := do
  require (sender = T.base.owner s.world.token.base)
  let s := T.fundReceiver s target
  let base ← T.base.mint s.world.token.base target amount
  pure (T.credit (moved (setBase s base) (.mint target amount)) .mint 0 target amount)

/-- `burn`, inherited. -/
def burn (s : TokenHome H B W) (sender : Address) (value : UInt256) : Option (TokenHome H B W) := do
  let base ← T.base.burn s.world.token.base sender value
  pure (moved (setBase s base) (.burn sender value))

/-- `burn` of the V2 tokens, for the owner. The others do not have it, and take the call for a payment. -/
def burnOf (s : TokenHome H B W) (sender who : Address) (value : UInt256) : Option (TokenHome H B W) :=
  if T.v2 then do
    require (sender = T.base.owner s.world.token.base)
    T.burn s who value
  else pure s

/-- The checks of the setters of a bridge. -/
def checkBridge (s : TokenHome H B W) (sender bridgeContract : Address) : Option Unit := do
  require (sender = T.base.owner s.world.token.base)
  require (bridgeContract ≠ 0 ∧ isContract s bridgeContract)

/-- A call of the token; `none` when it reverts. -/
def exec (hook : Hook H B W) (outside : Outside (TokenHome H B W)) (s : TokenHome H B W) :
    TokenTx → Option (TokenHome H B W)
  | .transfer sender target value => T.transfer hook outside s sender target value
  | .transferAndCall sender target value data => T.transferAndCall hook outside s sender target value data
  | .transferFrom sender source target value => T.transferFrom s sender source target value
  | .mint sender target amount => T.mint s sender target amount
  | .burn sender value => T.burn s sender value
  | .burnOf sender who value => T.burnOf s sender who value
  | .approve sender spender value => do
      let base ← T.base.approve s.world.token.base sender spender value
      pure (setBase s base)
  | .transferOwnership sender newOwner => do
      let base ← T.base.transferOwnership s.world.token.base sender newOwner
      pure (setBase s base)
  | .setFundingRules sender rules => do
      require (sender = T.base.owner s.world.token.base)
      pure (funded (setToken s { s.world.token with fundingRules := rules }) (.rules rules))
  | .setBridgeContract sender bridgeContract => do
      T.checkBridge s sender bridgeContract
      pure (setToken s { s.world.token with bridgeContract := bridgeContract })
  | .addBridgeContract sender bridgeContract => do
      require (T.variant ≠ .bridgeToken)
      T.checkBridge s sender bridgeContract
      pure (setToken s { s.world.token with
        validBridgeContract := Function.update s.world.token.validBridgeContract bridgeContract true })
  | .removeBridgeContract sender bridgeContract => do
      require (T.variant ≠ .bridgeToken)
      T.checkBridge s sender bridgeContract
      pure (setToken s { s.world.token with
        validBridgeContract := Function.update s.world.token.validBridgeContract bridgeContract false })

/-! ## The proxy that owns the token -/

def setMinterBurner (s : TokenHome H B W) (p : MinterBurnerProxy) : TokenHome H B W :=
  { s with world := { s.world with minterBurner := p } }

/-- `thunderBridgeSupply` of the proxy, after the bridge or another operator used it. -/
def suppliedBy (p : MinterBurnerProxy) (operator : Address) (supply : UInt256) : MinterBurnerProxy :=
  if operator = p.thunderBridge then { p with thunderBridgeSupply := supply } else p

/-- `mint` of the `MinterBurnerProxy`. -/
def proxyMint (s : TokenHome H B W) (operator target : Address) (value : UInt256) : Option (TokenHome H B W) := do
  require (s.world.minterBurner.operators operator = true)
  require (s.world.minterBurner.mints.allows operator s.getCurrentDay value)
  let s ← T.mint s T.minterBurner target value
  let p := suppliedBy s.world.minterBurner operator (s.world.minterBurner.thunderBridgeSupply + value)
  pure (setMinterBurner s { p with mints := p.mints.use operator s.getCurrentDay value })

/-- `burn` of the `MinterBurnerProxy`. -/
def proxyBurn (s : TokenHome H B W) (operator who : Address) (value : UInt256) : Option (TokenHome H B W) := do
  require (s.world.minterBurner.operators operator = true)
  require (s.world.minterBurner.burns.allows operator s.getCurrentDay value)
  let s ← T.burnOf s T.minterBurner who value
  let p := suppliedBy s.world.minterBurner operator (s.world.minterBurner.thunderBridgeSupply - value)
  pure (setMinterBurner s { p with burns := p.burns.use operator s.getCurrentDay value })

/-! ## The bridge calls its token -/

section Bridge

variable [DecidableEq H] (K : CollisionFree H) (ecrecover : Ecrecover H) (V : HomeVariant)

/-- The hook of a bridge whose own calls `call` answers. -/
def bridgeHook (call : Callee (TokenHome H B W)) : Hook H B W := fun s source value =>
  Home.exec K ecrecover V call s (.onTokenTransfer T.address source value)

/-- The proxy burns the token. -/
def burnsThrough (burner : Address) : Prop := T.v2 = true ∧ burner = T.minterBurner

instance (burner : Address) : Decidable (T.burnsThrough burner) := by
  unfold burnsThrough
  infer_instance

/-- What answers the calls of the bridge: the token for the token, as deep as the call stack allows. -/
def bridgeCallee (outside : Outside (TokenHome H B W)) : Nat → Callee (TokenHome H B W)
  | 0 => fun _ _ => none
  | depth + 1 => fun c s =>
      match c with
      | .transfer token target amount =>
          if token = T.address then
            (T.transfer (T.bridgeHook K ecrecover V (bridgeCallee outside depth)) outside s s.bridge.self target
              amount).map fun s' => (s', packWord 1)
          else outside.call c s
      | .mint token target amount =>
          if token = T.address then (T.mint s s.bridge.self target amount).map fun s' => (s', packWord 1)
          else outside.call c s
      | .burn token amount =>
          if token = T.address then (T.burn s s.bridge.self amount).map fun s' => (s', [])
          else outside.call c s
      | .minterBurnerMint proxy target amount =>
          if proxy = T.minterBurner then (T.proxyMint s s.bridge.self target amount).map fun s' => (s', packWord 1)
          else outside.call c s
      | .minterBurnerBurn proxy who amount =>
          if T.burnsThrough proxy then (T.proxyBurn s s.bridge.self who amount).map fun s' => (s', [])
          else (outside.call c s).map fun (s', data) => (moved s' (.entrusted proxy who amount), data)
      | .send _ _ => outside.call c s

end Bridge
end TokenCode

/-! ## A token to evaluate -/

/-- Balances, allowances and an owner. -/
structure PlainToken where
  token : CheckedToken
  allowed : Address → Address → UInt256
  owner : Address

def plainToken : StandardToken PlainToken where
  owner b := b.owner
  totalSupply b := b.token.totalSupply
  balanceOf b := b.token.balanceOf
  transfer b source target value := do
    require (target ≠ 0)
    let token ← b.token.transfer source target value
    pure { b with token := token }
  transferFrom b spender source target value := do
    require (target ≠ 0)
    let left ← SafeMath.sub (b.allowed source spender) value
    let token ← b.token.transfer source target value
    pure { b with
      token := token
      allowed := Function.update b.allowed source (Function.update (b.allowed source) spender left) }
  mint b target value := do
    let token ← b.token.mint target value
    pure { b with token := token }
  burn b who value := do
    let token ← b.token.burn who value
    pure { b with token := token }
  approve b source spender value :=
    some { b with allowed := Function.update b.allowed source (Function.update (b.allowed source) spender value) }
  transferOwnership b sender newOwner := do
    require (sender = b.owner ∧ newOwner ≠ 0)
    pure { b with owner := newOwner }

theorem plainToken_moves {b b' : PlainToken} {source target : Address} {value : UInt256}
    (h : b.token.transfer source target value = some b'.token) :
    plainToken.accounts.Explains [.move source target value] b b' := by
  simp only [CheckedToken.transfer, Option.bind_eq_bind, Option.bind_eq_some_iff, Option.pure_def,
    Option.some.injEq, SafeMath.sub_eq_some, SafeMath.add_eq_some] at h
  obtain ⟨left, hleft, sum, hsum, htoken⟩ := h
  refine .single ?_ ?_
  · intro a
    show (b'.token.balanceOf a).toNat + Movement.loss (.move source target value) a =
      (b.token.balanceOf a).toNat + Movement.gain (.move source target value) a
    rw [← htoken, Movement.loss, Movement.gain]
    simp only [Function.update_apply] at hsum ⊢
    grind
  · show b'.token.totalSupply.toNat = b.token.totalSupply.toNat
    rw [← htoken]

theorem plainToken_lawful : plainToken.Lawful where
  transfer b source target value b' h := by
    simp only [plainToken, Option.bind_eq_bind, Option.bind_eq_some_iff, require_eq_some, exists_const,
      Option.pure_def, Option.some.injEq] at h
    obtain ⟨_, token, htransfer, rfl⟩ := h
    exact plainToken_moves htransfer
  transferFrom b spender source target value b' h := by
    simp only [plainToken, Option.bind_eq_bind, Option.bind_eq_some_iff, require_eq_some, exists_const,
      Option.pure_def, Option.some.injEq] at h
    obtain ⟨_, _, _, token, htransfer, rfl⟩ := h
    exact plainToken_moves htransfer
  mint b target value b' h := by
    simp only [plainToken, CheckedToken.mint, Option.bind_eq_bind, Option.bind_eq_some_iff, Option.pure_def,
      Option.some.injEq, SafeMath.add_eq_some] at h
    obtain ⟨_, ⟨supply, hsupply, sum, hsum, rfl⟩, rfl⟩ := h
    refine .single ?_ hsupply
    intro a
    show (Function.update b.token.balanceOf target sum a).toNat + 0 =
      (b.token.balanceOf a).toNat + Movement.gain (.mint target value) a
    rw [Movement.gain, Function.update_apply]
    grind
  burn b who value b' h := by
    simp only [plainToken, CheckedToken.burn, Option.bind_eq_bind, Option.bind_eq_some_iff, Option.pure_def,
      Option.some.injEq, SafeMath.sub_eq_some] at h
    obtain ⟨_, ⟨left, hleft, supply, hsupply, rfl⟩, rfl⟩ := h
    refine .single ?_ hsupply
    intro a
    show (Function.update b.token.balanceOf who left a).toNat + Movement.loss (.burn who value) a =
      (b.token.balanceOf a).toNat + 0
    rw [Movement.loss, Function.update_apply]
    grind
  approve b source spender value b' h := by
    obtain rfl := Option.some.inj h
    exact ⟨fun _ => rfl, rfl⟩
  transferOwnership b sender newOwner b' h := by
    simp only [plainToken, Option.bind_eq_bind, Option.bind_eq_some_iff, require_eq_some, exists_const,
      Option.pure_def, Option.some.injEq] at h
    obtain ⟨_, rfl⟩ := h
    exact ⟨fun _ => rfl, rfl⟩

/-- An `ERC677MultiBridgeToken` at the address 5 that funds nobody. -/
def sampleCode : TokenCode PlainToken Unit where
  variant := .multiBridgeToken
  v2 := false
  address := 5
  minterBurner := 6
  base := plainToken
  balance _ _ := 0
  send _ _ _ := none

/-- Account 33 has 100 and allows 34 to spend them; the bridge 7 is registered; the owner is 9. -/
def sampleTokens : TokenWorld PlainToken Unit where
  token :=
    { base := ⟨⟨100, fun a => if a = 33 then 100 else 0⟩, fun a b => if a = 33 ∧ b = 34 then 100 else 0, 9⟩
      bridgeContract := 7
      validBridgeContract := fun a => a == 7
      fundingRules := ⟨0, 0, 0, 0⟩
      lastFundingPeriod := 0
      totalPeriodFundedAmount := 0 }
  minterBurner := Minting.sampleMinting.proxy
  log := []
  hasCode _ := false
  blockNumber := 0
  coins := ()
  movements := []
  credits := []
  notices := []
  funding := []

/-- No contract outside accepts anything. -/
def refusing {S : Type} : Outside S := ⟨fun _ _ => none, fun _ _ _ _ _ => none⟩

end ThunderBridge
