import ThunderBridge.Contracts.ForeignBridge.Relay

/-!
# `ForeignBridge.Erc677` — the foreign bridges that mint what they release

`ForeignBridgeERC677ToNative` and `ForeignBridgeErc677ToErc677` stand on the foreign side of a home bridge that locks
coin or tokens. They inherit from V2 and V3 and replace the payment: `tokenTransfer` mints, and tokens that arrive
are burned by `onTokenTransfer`. No event tells of that, since `fireEventOnTokenTransfer` is empty here; the
validators watch the `Transfer` events of the token.

`setErc20token` stores the address as `erc677token`, and `erc20token()` reads it back: it is the field `erc20token`.
-/

namespace ThunderBridge

/-- The foreign bridges of a token that they mint. -/
inductive Erc677Variant where
  /-- `ForeignBridgeERC677ToNative`. -/
  | erc677ToNative
  /-- `ForeignBridgeErc677ToErc677`. -/
  | erc677ToErc677
deriving DecidableEq, Repr

/-- The contract it inherits from. -/
def Erc677Variant.base : Erc677Variant → ForeignVariant
  | .erc677ToNative => .ercToErcV2
  | .erc677ToErc677 => .ercToErcV3

/-- One call of the bridge. -/
inductive Erc677Tx where
  | executeSignatures (vs : List Byte) (rs ss : List Bytes32) (message : Bytes)
  | onTokenTransfer (sender source : Address) (value : UInt256)
  | setting (sender : Address) (setting : ForeignSetting)
deriving Repr

namespace Foreign
namespace Erc677

variable {H W : Type}

/-! ## The program -/

/-- `tokenTransfer`: `erc677token().mint(_recipient, _amount)`. -/
def tokenTransfer (call : Callee (Foreign W)) (s : Foreign W) (recipient : Address) (amount : UInt256) :
    Option (Foreign W × Bool) :=
  call.bool (.mint s.bridge.erc20token recipient amount) s

/-- `onExecuteMessage`, as V2 and V3 have it over `tokenTransfer`. -/
def onExecuteMessage (V : Erc677Variant) (call : Callee (Foreign W)) (s : Foreign W) (recipient : Address)
    (amount : UInt256) : Option (Foreign W × Bool) :=
  match V with
  | .erc677ToNative => tokenTransfer call s recipient amount
  | .erc677ToErc677 => do
      let (s, ok) ← tokenTransfer call s recipient amount
      if ok then pure (s, true)
      else do
        let fallbackRecipient := s.bridge.fallbackRecipient
        require (fallbackRecipient ≠ 0)
        let (s, _) ← tokenTransfer call s fallbackRecipient amount
        pure (s.emit (.RecipientRedirected recipient fallbackRecipient), true)

/-- `executeSignatures` of `ForeignBridgeErcToErcV2`. -/
def executeSignatures (K : CollisionFree H) (ecrecover : Ecrecover H) (V : Erc677Variant)
    (call : Callee (Foreign W)) (s : Foreign W) (vs : List Byte) (rs ss : List Bytes32) (message : Bytes) :
    Option (Foreign W) := do
  Message.hasEnoughValidSignatures K ecrecover message vs rs ss s.validators
  let m ← Message.parseMessage message
  require (m.contractAddress = s.bridge.self)
  require (s.relayedMessages m.txHash = false)
  let s := s.setRelayedMessages m.txHash true
  let (s, ok) ← onExecuteMessage V call s m.recipient m.amount
  require (ok = true)
  let s := s.mark ⟨message, m, vs, rs, ss, s.validators⟩
  pure (s.emit (.RelayedMessage m.recipient m.amount m.txHash))

/-- `onTokenTransfer`: what arrived is burned. -/
def onTokenTransfer (call : Callee (Foreign W)) (s : Foreign W) (sender : Address) (value : UInt256) :
    Option (Foreign W) := do
  require (sender = s.bridge.erc20token)
  call.plain (.burn s.bridge.erc20token value) s

/-- A call of the bridge; `none` when it reverts. -/
def exec (K : CollisionFree H) (ecrecover : Ecrecover H) (V : Erc677Variant) (call : Callee (Foreign W))
    (s : Foreign W) : Erc677Tx → Option (Foreign W)
  | .executeSignatures vs rs ss message => executeSignatures K ecrecover V call s vs rs ss message
  | .onTokenTransfer sender _ value => onTokenTransfer call s sender value
  | .setting sender setting => do
      require (sender = s.bridge.basic.owner)
      applySetting V.base s setting

/-! ## What a call does -/

section Cases

variable {V : Erc677Variant} {call : Callee (Foreign W)} {s s' : Foreign W} {recipient sender : Address}
  {amount value : UInt256} {ok : Bool} {K : CollisionFree H} {ecrecover : Ecrecover H} {vs : List Byte}
  {rs ss : List Bytes32} {message : Bytes}

/-- What a release does: one call of `mint` that is answered, or a refusal and another call. -/
inductive Released (call : Callee (Foreign W)) (s : Foreign W) (recipient : Address) (amount : UInt256) :
    Foreign W → Prop where
  | minted {s₁ : Foreign W} (h : call.bool (.mint s.bridge.erc20token recipient amount) s = some (s₁, true)) :
      Released call s recipient amount s₁
  | redirected {s₁ s₂ : Foreign W} {ok : Bool}
      (refused : call.bool (.mint s.bridge.erc20token recipient amount) s = some (s₁, false))
      (h : call.bool (.mint s₁.bridge.erc20token s₁.bridge.fallbackRecipient amount) s₁ = some (s₂, ok)) :
      Released call s recipient amount (s₂.emit (.RecipientRedirected recipient s₁.bridge.fallbackRecipient))

theorem onExecuteMessage_released (h : onExecuteMessage V call s recipient amount = some (s', true)) :
    Released call s recipient amount s' := by
  cases V with
  | erc677ToNative => exact .minted h
  | erc677ToErc677 =>
      simp only [onExecuteMessage, tokenTransfer, Option.bind_eq_bind, Option.bind_eq_some_iff] at h
      obtain ⟨⟨s₁, ok⟩, hfirst, h⟩ := h
      cases ok with
      | true =>
          obtain rfl := congrArg Prod.fst (Option.some.inj h)
          exact .minted hfirst
      | false =>
          simp only [Bool.false_eq_true, if_false, Option.bind_eq_some_iff, require_eq_some, exists_const,
            Option.pure_def, Option.some.injEq, Prod.mk.injEq] at h
          obtain ⟨_, ⟨s₂, ok⟩, hsecond, rfl, _⟩ := h
          exact .redirected hfirst hsecond

/-- **What a successful `executeSignatures` does.** -/
theorem executeSignatures_cases (h : executeSignatures K ecrecover V call s vs rs ss message = some s') :
    ∃ m s₁, Message.hasEnoughValidSignatures K ecrecover message vs rs ss s.validators = some () ∧
      Message.parseMessage message = some m ∧ m.contractAddress = s.bridge.self ∧
      s.relayedMessages m.txHash = false ∧
      Released call (s.setRelayedMessages m.txHash true) m.recipient m.amount s₁ ∧
      s' = s₁.relay vs rs ss message m := by
  simp only [executeSignatures, Option.bind_eq_bind, Option.bind_eq_some_iff, require_eq_some, exists_const,
    Option.pure_def, Option.some.injEq] at h
  obtain ⟨_, henough, m, hm, haddr, hfresh, ⟨s₁, ok⟩, hexec, rfl, rfl⟩ := h
  exact ⟨m, s₁, henough, hm, haddr, hfresh, onExecuteMessage_released hexec, rfl⟩

theorem onTokenTransfer_cases (h : onTokenTransfer call s sender value = some s') :
    sender = s.bridge.erc20token ∧ ∃ data, call (.burn s.bridge.erc20token value) s = some (s', data) := by
  simp only [onTokenTransfer, Option.bind_eq_bind, Option.bind_eq_some_iff, require_eq_some, exists_const] at h
  exact ⟨h.1, Callee.answered_of_plain h.2⟩

end Cases

/-! ## The relayed messages -/

section Relaying

variable {K : CollisionFree H} {ecrecover : Ecrecover H} {s s' : Foreign W}

/-- A relay after a payment keeps the relayed messages backed, and each transaction hash relayed once. -/
theorem relay_relaying {m : ParsedMessage} {vs : List Byte} {rs ss : List Bytes32} {message : Bytes}
    (henough : Message.hasEnoughValidSignatures K ecrecover message vs rs ss s.validators = some ())
    (hm : Message.parseMessage message = some m) (haddr : m.contractAddress = s.bridge.self)
    (hfresh : s.relayedMessages m.txHash = false)
    (hpaid : Relaying K ecrecover (s.setRelayedMessages m.txHash true) s') :
    Relaying K ecrecover s (s'.relay vs rs ss message m) := by
  refine ⟨hpaid.validators, hpaid.self, ?_⟩
  intro P hP
  have hpending := hpaid.relayed _ (hP.setRelayedMessages hfresh)
  refine hpending.relay ?_ ?_
  · intro hmem
    have hraised := hP.once.raised m.txHash hmem
    exact absurd (hraised.symm.trans hfresh) (by decide)
  · have hbacked := backed_of_accepted hP henough hm haddr
    rw [hpaid.validators, hpaid.self]
    exact hbacked

end Relaying

end Erc677
end Foreign
end ThunderBridge
