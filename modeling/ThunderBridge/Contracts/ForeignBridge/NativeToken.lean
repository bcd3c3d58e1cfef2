import ThunderBridge.Contracts.Erc20
import ThunderBridge.Contracts.ForeignBridge.Relay

/-!
# `ForeignBridge.NativeToken` — a foreign bridge that is its own token

`ForeignBridgeWithNativeToken` locks native coin. It has no token to watch, so it emits the `Transfer` events
itself: of a deposit, made by `transfer` or by a plain payment, and of a release, to the recipient or to the fallback
recipient. The validators mint on the home chain for every `Transfer` to the bridge.

A release is a `send`. To another account it may start anything; to the bridge itself it is a plain payment, and
enters the fallback function when its stipend suffices. `payments` and `releases` are ghosts: what arrived, and what
was released to whom.

`Booked` is what every call of the bridge keeps, and `deposits_backed_iff` what it leaves: the deposits on the log
are what others paid exactly when the bridge released nothing to itself. Such a release is logged twice.
-/

namespace ThunderBridge

/-- A release: to the recipient if the `send` went through, and else to the fallback recipient. -/
structure Release where
  recipient : Address
  fallbackRecipient : Address
  sent : Bool
  amount : UInt256
deriving DecidableEq, Repr

/-- Who was paid. -/
def Release.target (r : Release) : Address := if r.sent then r.recipient else r.fallbackRecipient

/-- What the foreign chain has besides the contracts: the `Transfer` events of the bridge, newest first, and the
    transaction. -/
structure NativeWorld (W : Type) where
  transfers : List Transfer
  txHash : Bytes32
  payments : List (Address × UInt256)
  releases : List Release
  rest : W

/-- One call of the bridge. -/
inductive NativeTx where
  | transfer (sender target : Address) (value msgValue : UInt256)
  /-- A plain payment, to the fallback function. -/
  | pay (sender : Address) (msgValue : UInt256)
  | executeSignatures (vs : List Byte) (rs ss : List Bytes32) (message : Bytes)
  | setting (sender : Address) (setting : ForeignSetting)

/-- Who pays for a call. -/
def NativeTx.payer : NativeTx → Option Address
  | .transfer sender _ _ _ => some sender
  | .pay sender _ => some sender
  | _ => none

namespace Foreign
namespace Native

variable {H W : Type}

/-! ## The program -/

/-- `emit Transfer(source, target, value)`. -/
def emitTransfer (s : Foreign (NativeWorld W)) (source target : Address) (value : UInt256) :
    Foreign (NativeWorld W) :=
  { s with world := { s.world with transfers := ⟨source, target, value, s.world.txHash⟩ :: s.world.transfers } }

/-- Records a payment. -/
def receive (s : Foreign (NativeWorld W)) (sender : Address) (msgValue : UInt256) : Foreign (NativeWorld W) :=
  { s with world := { s.world with payments := (sender, msgValue) :: s.world.payments } }

/-- Records a release. -/
def release (s : Foreign (NativeWorld W)) (r : Release) : Foreign (NativeWorld W) :=
  { s with world := { s.world with releases := r :: s.world.releases } }

/-- `transfer`, paid `msgValue`. -/
def transfer (s : Foreign (NativeWorld W)) (sender target : Address) (value msgValue : UInt256) :
    Option (Foreign (NativeWorld W)) := do
  require (target = s.bridge.self)
  require (value = msgValue)
  pure (emitTransfer (receive s sender msgValue) sender s.bridge.self msgValue)

/-- The fallback function, paid `msgValue`. -/
def fallback (s : Foreign (NativeWorld W)) (sender : Address) (msgValue : UInt256) : Foreign (NativeWorld W) :=
  emitTransfer (receive s sender msgValue) sender s.bridge.self msgValue

/-- Where the payments of the bridge go: its own fallback function, if the stipend suffices, or outside. -/
def payee (outside : Callee (Foreign (NativeWorld W))) (stipend : Foreign (NativeWorld W) → UInt256 → Bool) :
    Callee (Foreign (NativeWorld W)) := fun c s =>
  match c with
  | .send target amount =>
      if target = s.bridge.self then
        if stipend s amount then some (fallback s s.bridge.self amount, []) else none
      else outside (.send target amount) s
  | c => outside c s

/-- `tokenTransfer`: `_recipient.send(_amount)`. -/
def tokenTransfer (call : Callee (Foreign (NativeWorld W))) (s : Foreign (NativeWorld W)) (recipient : Address)
    (amount : UInt256) : Foreign (NativeWorld W) × Bool :=
  let (s, data) := call.lowLevel (.send recipient amount) s
  (s, data.isSome)

/-- `onExecuteMessage`. -/
def onExecuteMessage (call : Callee (Foreign (NativeWorld W))) (s : Foreign (NativeWorld W)) (recipient : Address)
    (amount : UInt256) : Option (Foreign (NativeWorld W) × Bool) := do
  let (s, sent) := tokenTransfer call s recipient amount
  if sent then
    let s := release s ⟨recipient, s.bridge.fallbackRecipient, true, amount⟩
    pure (emitTransfer s s.bridge.self recipient amount, true)
  else do
    let fallbackRecipient := s.bridge.fallbackRecipient
    require (fallbackRecipient ≠ 0)
    let s ← call.plain (.send fallbackRecipient amount) s
    let s := release s ⟨recipient, fallbackRecipient, false, amount⟩
    let s := s.emit (.RecipientRedirected recipient fallbackRecipient)
    pure (emitTransfer s s.bridge.self fallbackRecipient amount, true)

/-- `executeSignatures` of `ForeignBridgeErcToErcV2`. -/
def executeSignatures (K : CollisionFree H) (ecrecover : Ecrecover H) (call : Callee (Foreign (NativeWorld W)))
    (s : Foreign (NativeWorld W)) (vs : List Byte) (rs ss : List Bytes32) (message : Bytes) :
    Option (Foreign (NativeWorld W)) := do
  Message.hasEnoughValidSignatures K ecrecover message vs rs ss s.validators
  let m ← Message.parseMessage message
  require (m.contractAddress = s.bridge.self)
  require (s.relayedMessages m.txHash = false)
  let s := s.setRelayedMessages m.txHash true
  let (s, ok) ← onExecuteMessage call s m.recipient m.amount
  require (ok = true)
  let s := s.mark ⟨message, m, vs, rs, ss, s.validators⟩
  pure (s.emit (.RelayedMessage m.recipient m.amount m.txHash))

/-- A setter called by the owner: those of V2, and the fallback recipient. -/
def applySetting (s : Foreign (NativeWorld W)) : ForeignSetting → Option (Foreign (NativeWorld W))
  | .setFallbackRecipient a => do
      require (a ≠ 0)
      pure { s with bridge := { s.bridge with fallbackRecipient := a } }
  | setting => Foreign.applySetting .ercToErcV2 s setting

/-- A setting writes the limits and the parameters of the payments. -/
theorem applySetting_cases {s s' : Foreign (NativeWorld W)} {setting : ForeignSetting}
    (h : applySetting s setting = some s') :
    ∃ basic feePercent fallbackRecipient, s' = { s with bridge := { s.bridge with
      basic := basic
      feePercent := feePercent
      fallbackRecipient := fallbackRecipient } } := by
  cases setting with
  | setFallbackRecipient a =>
      simp only [applySetting, Option.bind_eq_bind, Option.bind_eq_some_iff, require_eq_some, exists_const,
        Option.pure_def, Option.some.injEq] at h
      obtain ⟨_, rfl⟩ := h
      exact ⟨_, _, a, rfl⟩
  | basic b =>
      have hbasic : Foreign.applySetting .ercToErcV2 s (.basic b) = some s' := h
      exact Foreign.applySetting_cases hbasic
  | setFeePercent n =>
      have hfee : Foreign.applySetting .ercToErcV2 s (.setFeePercent n) = some s' := h
      exact Foreign.applySetting_cases hfee

/-- A call of the bridge; `none` when it reverts. -/
def exec (K : CollisionFree H) (ecrecover : Ecrecover H) (call : Callee (Foreign (NativeWorld W)))
    (s : Foreign (NativeWorld W)) : NativeTx → Option (Foreign (NativeWorld W))
  | .transfer sender target value msgValue => transfer s sender target value msgValue
  | .pay sender msgValue => some (fallback s sender msgValue)
  | .executeSignatures vs rs ss message => executeSignatures K ecrecover call s vs rs ss message
  | .setting sender setting => do
      require (sender = s.bridge.basic.owner)
      applySetting s setting

/-! ## Runs -/

section Runs

variable (K : CollisionFree H) (ecrecover : Ecrecover H)

/-- One call of the bridge. The bridge calls itself only by a release. -/
def Invoke (out : Foreign (NativeWorld W) → Foreign (NativeWorld W) → Prop) (s s' : Foreign (NativeWorld W)) :
    Prop :=
  ∃ outside stipend tx, Within out outside ∧ (∀ a, tx.payer = some a → a ≠ s.bridge.self) ∧
    exec K ecrecover (payee outside stipend) s tx = some s'

/-- Anything outside the two contracts. -/
def Outdoors (s s' : Foreign (NativeWorld W)) : Prop := ∃ w, s' = { s with world := { s.world with rest := w } }

/-- A call of the bridge whose callees call it back at most `n` deep. -/
abbrev NestedCall (n : Nat) : Foreign (NativeWorld W) → Foreign (NativeWorld W) → Prop :=
  Calls.Nested (Invoke K ecrecover) Outdoors n

/-- One step of the foreign chain. -/
inductive Step : Foreign (NativeWorld W) → Foreign (NativeWorld W) → Prop where
  | call {s s' : Foreign (NativeWorld W)} (n : Nat) (h : NestedCall K ecrecover n s s') : Step s s'
  | validators {s : Foreign (NativeWorld W)} {v : BridgeValidators} (h : s.validators.Step v) :
      Step s { s with validators := v }
  | tick {s : Foreign (NativeWorld W)} (now : UInt256) (txHash : Bytes32) (h : s.now ≤ now) :
      Step s { s with now := now, world := { s.world with txHash := txHash } }
  | outdoors {s s' : Foreign (NativeWorld W)} (h : Outdoors s s') : Step s s'

abbrev Run : Foreign (NativeWorld W) → Foreign (NativeWorld W) → Prop := Relation.ReflTransGen (Step K ecrecover)

end Runs

/-! ## The books -/

/-- The values of the `Transfer` events to the bridge. -/
def deposited (s : Foreign (NativeWorld W)) : Nat :=
  tally Transfer.amount (s.world.transfers.filter fun t => t.target = s.bridge.self)

/-- What other accounts paid to the bridge. -/
def received (s : Foreign (NativeWorld W)) : Nat :=
  tally (fun p => p.2.toNat) (s.world.payments.filter fun p => p.1 ≠ s.bridge.self)

/-- What the bridge released to itself. -/
def returned (s : Foreign (NativeWorld W)) : Nat :=
  tally (fun r => r.amount.toNat) (s.world.releases.filter fun r => r.target = s.bridge.self)

/-- **The books**: a deposit event for every payment of others, and two for every release to the bridge. -/
structure Booked (s s' : Foreign (NativeWorld W)) : Prop where
  self : s'.bridge.self = s.bridge.self
  books : deposited s' + received s + 2 * returned s = deposited s + received s' + 2 * returned s'

section Booked

variable {s s' s₁ s₂ s₃ : Foreign (NativeWorld W)} {sender source target recipient : Address}
  {amount msgValue : UInt256}

theorem Booked.refl (s : Foreign (NativeWorld W)) : Booked s s := ⟨rfl, rfl⟩

theorem Booked.trans (h : Booked s₁ s₂) (h' : Booked s₂ s₃) : Booked s₁ s₃ := by
  have hfirst := h.books
  have hsecond := h'.books
  exact ⟨h'.self.trans h.self, by omega⟩

/-- Nothing that counts has changed. -/
theorem booked_of_same (hself : s'.bridge.self = s.bridge.self) (htransfers : s'.world.transfers = s.world.transfers)
    (hpayments : s'.world.payments = s.world.payments) (hreleases : s'.world.releases = s.world.releases) :
    Booked s s' := by
  refine ⟨hself, ?_⟩
  unfold deposited received returned
  rw [hself, htransfers, hpayments, hreleases]

theorem deposited_emitTransfer : deposited (emitTransfer s source target amount) =
    (if target = s.bridge.self then amount.toNat else 0) + deposited s := by
  unfold deposited emitTransfer
  by_cases h : target = s.bridge.self <;> simp [h, Transfer.amount]

theorem received_receive : received (receive s sender msgValue) =
    (if sender = s.bridge.self then 0 else msgValue.toNat) + received s := by
  unfold received receive
  by_cases h : sender = s.bridge.self <;> simp [h]

theorem returned_release (r : Release) : returned (release s r) =
    (if r.target = s.bridge.self then r.amount.toNat else 0) + returned s := by
  unfold returned release
  by_cases h : r.target = s.bridge.self <;> simp [h]

/-- What a payment to the bridge books. -/
theorem fallback_books (s : Foreign (NativeWorld W)) (sender : Address) (msgValue : UInt256) :
    deposited (fallback s sender msgValue) = msgValue.toNat + deposited s ∧
      received (fallback s sender msgValue) = (if sender = s.bridge.self then 0 else msgValue.toNat) + received s ∧
      returned (fallback s sender msgValue) = returned s := by
  refine ⟨?_, ?_, rfl⟩
  · show deposited (emitTransfer (receive s sender msgValue) sender s.bridge.self msgValue) = _
    rw [deposited_emitTransfer, if_pos (show s.bridge.self = (receive s sender msgValue).bridge.self from rfl)]
    rfl
  · show received (receive s sender msgValue) = _
    exact received_receive

/-- A payment of another account. -/
theorem fallback_booked (h : sender ≠ s.bridge.self) : Booked s (fallback s sender msgValue) := by
  obtain ⟨hdeposited, hreceived, hreturned⟩ := fallback_books s sender msgValue
  rw [if_neg h] at hreceived
  exact ⟨rfl, by omega⟩

/-- What a payment of the bridge does: whatever the payee does, or the fallback function. -/
inductive Paid (out : Foreign (NativeWorld W) → Foreign (NativeWorld W) → Prop) (target : Address)
    (amount : UInt256) (s : Foreign (NativeWorld W)) : Foreign (NativeWorld W) → Prop where
  | outside {s' : Foreign (NativeWorld W)} (htarget : target ≠ s.bridge.self) (h : out s s') :
      Paid out target amount s s'
  | toSelf (htarget : target = s.bridge.self) : Paid out target amount s (fallback s s.bridge.self amount)

variable {out : Foreign (NativeWorld W) → Foreign (NativeWorld W) → Prop} {outside : Callee (Foreign (NativeWorld W))}
  {stipend : Foreign (NativeWorld W) → UInt256 → Bool} {data : Bytes}

theorem payee_paid (hcall : Within out outside)
    (h : payee outside stipend (.send target amount) s = some (s', data)) : Paid out target amount s s' := by
  unfold payee at h
  by_cases htarget : target = s.bridge.self
  · simp only [if_pos htarget] at h
    split at h
    · obtain ⟨rfl, _⟩ := Prod.mk.inj (Option.some.inj h)
      exact .toSelf htarget
    · cases h
  · simp only [if_neg htarget] at h
    exact .outside htarget (hcall _ _ _ _ h)

/-- **A release**, with its record and its event, keeps the books. -/
theorem Paid.booked (h : Paid Booked target amount s s') (r : Release) (htarget : r.target = target)
    (hamount : r.amount = amount) : Booked s (emitTransfer (release s' r) s'.bridge.self target amount) := by
  have hdeposited : deposited (emitTransfer (release s' r) s'.bridge.self target amount) =
      (if target = s'.bridge.self then amount.toNat else 0) + deposited s' :=
    deposited_emitTransfer
  have hreceived : received (emitTransfer (release s' r) s'.bridge.self target amount) = received s' := rfl
  have hreturned : returned (emitTransfer (release s' r) s'.bridge.self target amount) =
      (if target = s'.bridge.self then amount.toNat else 0) + returned s' := by
    rw [← htarget, ← hamount]
    show returned (release s' r) = _
    exact returned_release r
  cases h with
  | outside htarget h =>
      have hother : target ≠ s'.bridge.self := by
        rw [h.self]
        exact htarget
      rw [if_neg hother] at hdeposited hreturned
      have hbooks := h.books
      exact ⟨h.self, by omega⟩
  | toSelf htarget =>
      -- one event of the fallback function, one of the release
      obtain ⟨hdeposited', hreceived', hreturned'⟩ := fallback_books s s.bridge.self amount
      have hself : target = (fallback s s.bridge.self amount).bridge.self := htarget
      rw [if_pos hself] at hdeposited hreturned
      rw [if_pos rfl] at hreceived'
      exact ⟨rfl, by omega⟩

theorem onExecuteMessage_booked (hcall : Within Booked outside) {ok : Bool}
    (h : onExecuteMessage (payee outside stipend) s recipient amount = some (s', ok)) : Booked s s' := by
  simp only [onExecuteMessage, tokenTransfer, Callee.lowLevel] at h
  cases hsend : payee outside stipend (.send recipient amount) s with
  | some answer =>
      obtain ⟨t, data⟩ := answer
      simp only [hsend, Option.isSome_some, if_true, Option.pure_def, Option.some.injEq, Prod.mk.injEq] at h
      obtain ⟨rfl, _⟩ := h
      exact (payee_paid hcall hsend).booked ⟨recipient, t.bridge.fallbackRecipient, true, amount⟩ rfl rfl
  | none =>
      simp only [hsend, Option.isSome_none, Bool.false_eq_true, if_false, Option.bind_eq_bind,
        Option.bind_eq_some_iff, require_eq_some, exists_const, Option.pure_def, Option.some.injEq,
        Prod.mk.injEq] at h
      obtain ⟨_, t, hpay, rfl, _⟩ := h
      obtain ⟨data, hc⟩ := Callee.answered_of_plain hpay
      have hbooked := (payee_paid hcall hc).booked ⟨recipient, s.bridge.fallbackRecipient, false, amount⟩ rfl rfl
      exact hbooked.trans (booked_of_same rfl rfl rfl rfl)

variable {K : CollisionFree H} {ecrecover : Ecrecover H}

theorem executeSignatures_booked (hcall : Within Booked outside) {vs : List Byte} {rs ss : List Bytes32}
    {message : Bytes} (h : executeSignatures K ecrecover (payee outside stipend) s vs rs ss message = some s') :
    Booked s s' := by
  simp only [executeSignatures, Option.bind_eq_bind, Option.bind_eq_some_iff, require_eq_some, exists_const,
    Option.pure_def, Option.some.injEq] at h
  obtain ⟨_, _, m, _, _, _, ⟨t, ok⟩, hpaid, _, rfl⟩ := h
  have hmarked : Booked s (s.setRelayedMessages m.txHash true) := booked_of_same rfl rfl rfl rfl
  exact hmarked.trans ((onExecuteMessage_booked hcall hpaid).trans (booked_of_same rfl rfl rfl rfl))

theorem applySetting_booked {setting : ForeignSetting} (h : applySetting s setting = some s') : Booked s s' := by
  obtain ⟨_, _, _, rfl⟩ := applySetting_cases h
  exact booked_of_same rfl rfl rfl rfl

/-- **One call of the bridge.** -/
theorem invoke_booked (hout : ∀ s s', out s s' → Booked s s') (h : Invoke K ecrecover out s s') : Booked s s' := by
  obtain ⟨outside, stipend, tx, hcall, hpayer, h⟩ := h
  have hwithin : Within Booked outside := fun _ _ _ _ hc => hout _ _ (hcall _ _ _ _ hc)
  cases tx with
  | transfer sender target value msgValue =>
      simp only [exec, transfer, Option.bind_eq_bind, Option.bind_eq_some_iff, require_eq_some, exists_const,
        Option.pure_def, Option.some.injEq] at h
      obtain ⟨_, _, rfl⟩ := h
      exact fallback_booked (hpayer sender rfl)
  | pay sender msgValue =>
      obtain rfl := Option.some.inj h
      exact fallback_booked (hpayer sender rfl)
  | executeSignatures vs rs ss message => exact executeSignatures_booked hwithin h
  | setting sender setting =>
      simp only [exec, Option.bind_eq_bind, Option.bind_eq_some_iff, require_eq_some, exists_const] at h
      exact applySetting_booked h.2

theorem outdoors_booked (h : Outdoors s s') : Booked s s' := by
  obtain ⟨w, rfl⟩ := h
  exact booked_of_same rfl rfl rfl rfl

theorem step_booked (h : Step K ecrecover s s') : Booked s s' := by
  cases h with
  | call n h =>
      exact Calls.nested_rel Booked.refl (fun _ _ _ => Booked.trans) (fun _ _ => outdoors_booked)
        (fun _ hout _ _ => invoke_booked hout) n _ _ h
  | validators h => exact booked_of_same rfl rfl rfl rfl
  | tick now txHash h => exact booked_of_same rfl rfl rfl rfl
  | outdoors h => exact outdoors_booked h

theorem run_booked (h : Run K ecrecover s s') : Booked s s' :=
  Calls.steps_rel Booked.refl (fun _ _ _ => Booked.trans) (fun _ _ => step_booked) h

end Booked

/-! ## Deposits that others paid -/

section Backed

variable {K : CollisionFree H} {ecrecover : Ecrecover H} {s₀ s : Foreign (NativeWorld W)}

/-- A bridge to which and by which nothing was paid yet. -/
structure Unpaid (s : Foreign (NativeWorld W)) : Prop where
  transfers : s.world.transfers = []
  payments : s.world.payments = []
  releases : s.world.releases = []

/-- **Deposits are backed, and when.** In every run, the `Transfer` events to the bridge come to what other accounts
    paid to it exactly when none of its releases paid anything to the bridge itself. -/
theorem deposits_backed_iff (hunpaid : Unpaid s₀) (h : Run K ecrecover s₀ s) :
    deposited s = received s ↔ ∀ r ∈ s.world.releases, r.target = s.bridge.self → r.amount = 0 := by
  have hbooks := (run_booked h).books
  have hstart : deposited s₀ = 0 ∧ received s₀ = 0 ∧ returned s₀ = 0 := by
    unfold deposited received returned
    rw [hunpaid.transfers, hunpaid.payments, hunpaid.releases]
    exact ⟨rfl, rfl, rfl⟩
  obtain ⟨hdeposited, hreceived, hreturned⟩ := hstart
  have hnone : deposited s = received s ↔ returned s = 0 := by omega
  rw [hnone, returned, tally_eq_zero_iff]
  constructor
  · intro hall r hr htarget
    exact BitVec.eq_of_toNat_eq (hall r (List.mem_filter.mpr ⟨hr, by simpa using htarget⟩))
  · intro hall r hr
    obtain ⟨hmem, htarget⟩ := List.mem_filter.mp hr
    rw [hall r hmem (by simpa using htarget)]
    rfl

/-- A call from outside, with contracts outside that leave the chain alone. -/
theorem run_call {outside : Callee (Foreign (NativeWorld W))} {stipend : Foreign (NativeWorld W) → UInt256 → Bool}
    {s' : Foreign (NativeWorld W)} {tx : NativeTx} (hrun : Run K ecrecover s₀ s)
    (hcall : ∀ c s s' data, outside c s = some (s', data) → s' = s)
    (hpayer : ∀ a, tx.payer = some a → a ≠ s.bridge.self)
    (h : exec K ecrecover (payee outside stipend) s tx = some s') : Run K ecrecover s₀ s' := by
  refine hrun.tail (.call 1 ⟨outside, stipend, tx, ?_, hpayer, h⟩)
  intro c t t' data hc
  obtain rfl := hcall c t t' data hc
  exact Relation.ReflTransGen.refl

theorem obliging_same (c : ExtCall) (s s' : Foreign (NativeWorld W)) (data : Bytes)
    (h : (obliging : Callee (Foreign (NativeWorld W))) c s = some (s', data)) : s' = s :=
  (Prod.mk.inj (Option.some.inj h)).1.symm

/-- Nothing has happened yet on the chain of `sampleForeign`. -/
def sampleNative (validators : BridgeValidators) : Foreign (NativeWorld Unit) :=
  sampleForeign validators ⟨[], 0, [], [], ()⟩

theorem sampleNative_unpaid (validators : BridgeValidators) : Unpaid (sampleNative validators) := ⟨rfl, rfl, rfl⟩

/-- A deposit of account 33, and then a message that two validators signed. -/
theorem sampleNative_run {v : BridgeValidators} {s₁ s₂ : Foreign (NativeWorld Unit)} {message : Bytes}
    (h₁ : exec serialHash signerV (payee obliging fun _ _ => true) (sampleNative v) (.transfer 33 7 100 100) =
      some s₁)
    (h₂ : exec serialHash signerV (payee obliging fun _ _ => true) s₁
      (.executeSignatures [2, 1] [0, 0] [0, 0] message) = some s₂) :
    Run serialHash signerV (sampleNative v) s₂ := by
  have hdeposit : Run serialHash signerV (sampleNative v) s₁ := by
    refine run_call Relation.ReflTransGen.refl obliging_same ?_ h₁
    intro a ha
    obtain rfl := Option.some.inj ha
    show (33 : Address) ≠ 7
    decide
  refine run_call hdeposit obliging_same ?_ h₂
  intro a ha
  cases ha

/-- Account 33 deposits 100 and gets them back. -/
theorem deposits_backed_two : ∃ (validators : BridgeValidators) (s : Foreign (NativeWorld Unit)),
    Run serialHash signerV (sampleNative validators) s ∧ s.world.releases ≠ [] ∧ deposited s = received s := by
  have heval : (do
      let v ← BridgeValidators.blank.initializeWith 2 [1, 2] 9
      let s₁ ← exec serialHash signerV (payee obliging fun _ _ => true) (sampleNative v) (.transfer 33 7 100 100)
      let s₂ ← exec serialHash signerV (payee obliging fun _ _ => true) s₁
        (.executeSignatures [2, 1] [0, 0] [0, 0] (Message.encode sampleMessage))
      pure (s₂.bridge.self, s₂.world.releases)) = some (7, [⟨33, 3, true, 100⟩]) := by
    decide +kernel
  simp only [Option.bind_eq_bind, Option.bind_eq_some_iff, Option.pure_def, Option.some.injEq,
    Prod.mk.injEq] at heval
  obtain ⟨v, _, s₁, h₁, s₂, h₂, hself, hreleases⟩ := heval
  have hrun := sampleNative_run h₁ h₂
  refine ⟨v, s₂, hrun, ?_, (deposits_backed_iff (sampleNative_unpaid v) hrun).mpr ?_⟩
  · rw [hreleases]
    exact List.cons_ne_nil _ _
  · intro r hr htarget
    rw [hreleases] at hr
    rw [List.mem_singleton.mp hr, hself] at htarget
    exact absurd htarget (by decide)

/-- Account 33 deposits 100; a message releases 100 to the bridge itself, and the log has deposits of 300. -/
theorem deposits_of_a_release : ∃ (validators : BridgeValidators) (s : Foreign (NativeWorld Unit)),
    Unpaid (sampleNative validators) ∧ Run serialHash signerV (sampleNative validators) s ∧
      deposited s = 300 ∧ received s = 100 := by
  have heval : (do
      let v ← BridgeValidators.blank.initializeWith 2 [1, 2] 9
      let s₁ ← exec serialHash signerV (payee obliging fun _ _ => true) (sampleNative v) (.transfer 33 7 100 100)
      let s₂ ← exec serialHash signerV (payee obliging fun _ _ => true) s₁
        (.executeSignatures [2, 1] [0, 0] [0, 0] (Message.encode ⟨7, 100, 77, 7⟩))
      pure (deposited s₂, received s₂)) = some (300, 100) := by
    decide +kernel
  simp only [Option.bind_eq_bind, Option.bind_eq_some_iff, Option.pure_def, Option.some.injEq,
    Prod.mk.injEq] at heval
  obtain ⟨v, _, s₁, h₁, s₂, h₂, hdeposited, hreceived⟩ := heval
  have hrun := sampleNative_run h₁ h₂
  exact ⟨v, s₂, sampleNative_unpaid v, hrun, hdeposited, hreceived⟩

end Backed

end Native
end Foreign
end ThunderBridge
