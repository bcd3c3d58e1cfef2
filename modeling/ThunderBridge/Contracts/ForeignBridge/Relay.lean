import ThunderBridge.Contracts.ForeignBridge.State
import ThunderBridge.Lib.Once

/-!
# `ForeignBridge.Relay` — what a relayed message is backed by

`executeSignatures` raises `relayedMessages(txHash)`, pays, and emits `RelayedMessage`. `Relayed P` is the
invariant: the flags are up for the relayed hashes and for those in `P`, which are being paid right now;
and every relayed message was signed by enough distinct validators (`Backed`). As on the home chain, the
calls a token makes back into the bridge see the hash in `P` and keep the invariant for every `P`.
-/

namespace ThunderBridge

/-- The validators whose signatures a relayed message came with. -/
def Relay.signers {H : Type} (K : CollisionFree H) (ecrecover : Ecrecover H) (r : Relay) : List Address :=
  Message.recoveredSigners ecrecover (Message.hashMessage K r.message) r.vs r.rs r.ss
    r.validators.requiredSignatures.toNat

/-- **Backed**: a message of 104 bytes that names the bridge, signed by at least one and by as many
    distinct validators as were required when it was relayed. -/
structure Backed {H : Type} (K : CollisionFree H) (ecrecover : Ecrecover H) (self : Address) (r : Relay) : Prop where
  length : r.message.length = 104
  required : 1 ≤ r.validators.requiredSignatures.toNat
  signers : (r.signers K ecrecover).length = r.validators.requiredSignatures.toNat
  distinct : (r.signers K ecrecover).Nodup
  validator : ∀ a ∈ r.signers K ecrecover, r.validators.isValidator a = true
  parsed : Message.parseMessage r.message = some r.parsed
  address : r.parsed.contractAddress = self

namespace Foreign

variable {H W : Type}

/-- The event of a relayed message. -/
def relayedEvent : ForeignEvent → Option (Address × UInt256 × Bytes32)
  | .RelayedMessage recipient value transactionHash => some (recipient, value, transactionHash)
  | .RecipientRedirected _ _ => none

/-- The `RelayedMessage` events of a log. -/
def relayedEvents (log : List ForeignEvent) : List (Address × UInt256 × Bytes32) :=
  log.filterMap relayedEvent

/-- The invariant, with the transaction hashes in `P` being paid. -/
structure Relayed (K : CollisionFree H) (ecrecover : Ecrecover H) (P : Finset Bytes32) (s : Foreign W) :
    Prop where
  /-- The flags are up for the relayed hashes and those in `P`; none is relayed twice. -/
  once : Once P s.bridge.relayedMessages (s.bridge.trail.map fun r => r.parsed.txHash)
  /-- Every relayed message is backed. -/
  backed : ∀ r ∈ s.bridge.trail, Backed K ecrecover s.bridge.self r
  /-- The events are those of the relayed messages. -/
  events : relayedEvents s.bridge.log =
    s.bridge.trail.map fun r => (r.parsed.recipient, r.parsed.amount, r.parsed.txHash)
  /-- The validator contract is initialised and sound. -/
  sound : s.validators.Sound
  initialized : s.validators.isInitialized = true

/-! ## What a call can change -/

/-- Validators, address, flags, trail and relay events are the same; anything else may differ. -/
structure SameRelays (s s' : Foreign W) : Prop where
  validators : s'.validators = s.validators
  self : s'.bridge.self = s.bridge.self
  relayedMessages : s'.bridge.relayedMessages = s.bridge.relayedMessages
  trail : s'.bridge.trail = s.bridge.trail
  events : relayedEvents s'.bridge.log = relayedEvents s.bridge.log

/-- A relation that the outgoing calls keep and that does not look past the relays. -/
structure Keeps (out R : Foreign W → Foreign W → Prop) : Prop where
  refl : ∀ s, R s s
  trans : ∀ s₁ s₂ s₃, R s₁ s₂ → R s₂ s₃ → R s₁ s₃
  same : ∀ s s', SameRelays s s' → R s s'
  calls : ∀ s s', out s s' → R s s'

/-- Only what is outside the two contracts has changed. -/
theorem SameRelays.of_bridge {s s' : Foreign W} (hvalidators : s'.validators = s.validators)
    (hbridge : s'.bridge = s.bridge) : SameRelays s s' := by
  constructor
  · exact hvalidators
  all_goals rw [hbridge]

theorem elsewhere_sameRelays {s s' : Foreign W} (h : Elsewhere s s') : SameRelays s s' := by
  obtain ⟨w, rfl⟩ := h
  exact .of_bridge rfl rfl

theorem applySetting_sameRelays {V : ForeignVariant} {s s' : Foreign W} {setting : ForeignSetting}
    (h : applySetting V s setting = some s') : SameRelays s s' := by
  obtain ⟨_, _, _, rfl⟩ := applySetting_cases h
  exact ⟨rfl, rfl, rfl, rfl, rfl⟩

section Paying

variable {out R : Foreign W → Foreign W → Prop} {call : Callee (Foreign W)} {s s' : Foreign W}
  {recipient : Address} {amount : UInt256} {ok : Bool}

theorem lowLevel_keeps (hR : Keeps out R) (hcall : Within out call) (c : ExtCall) (s : Foreign W) :
    R s (call.lowLevel c s).1 := by
  unfold Callee.lowLevel
  cases hc : call c s with
  | none => exact hR.refl s
  | some p => exact hR.calls _ _ (hcall _ _ _ _ hc)

theorem tokenTransfer_keeps (hR : Keeps out R) (hcall : Within out call) (s : Foreign W)
    (recipient : Address) (amount : UInt256) : R s (tokenTransfer call s recipient amount).1 :=
  lowLevel_keeps hR hcall _ s

theorem tokenTransferV3_keeps (hR : Keeps out R) (hcall : Within out call)
    (h : tokenTransferV3 call s recipient amount = some (s', ok)) : R s s' := by
  have hlow := lowLevel_keeps hR hcall (.transfer s.bridge.erc20token recipient amount) s
  unfold tokenTransferV3 at h
  rcases hl : call.lowLevel (.transfer s.bridge.erc20token recipient amount) s with ⟨t, data⟩
  rw [hl] at h hlow
  cases data with
  | none =>
      obtain ⟨rfl, _⟩ := Prod.mk.inj (Option.some.inj h)
      exact hlow
  | some data =>
      simp only at h
      split at h
      · obtain ⟨rfl, _⟩ := Prod.mk.inj (Option.some.inj h)
        exact hlow
      · split at h
        · obtain ⟨rfl, _⟩ := Prod.mk.inj (Option.some.inj h)
          exact hlow
        · exact absurd h (by simp)

theorem transferEach_keeps (hR : Keeps out R) (hcall : Within out call) (amount : UInt256) :
    ∀ (as : List Address) (s : Foreign W) (result : Bool), R s (transferEach call amount as s result).1 := by
  intro as
  induction as with
  | nil => intro s result; exact hR.refl s
  | cons a as ih =>
      intro s result
      cases result with
      | false => exact ih s false
      | true => exact hR.trans _ _ _ (tokenTransfer_keeps hR hcall s a amount) (ih _ _)

theorem setBasic_sameRelays (s : Foreign W) (b : BasicBridge) : SameRelays s (s.setBasic b) :=
  ⟨rfl, rfl, rfl, rfl, rfl⟩

/-- **Paying out** keeps every such relation, in each contract. -/
theorem onExecuteMessage_keeps (hR : Keeps out R) (hcall : Within out call) {V : ForeignVariant}
    (h : onExecuteMessage V call s recipient amount = some (s', ok)) : R s s' := by
  cases V with
  | ercToErc =>
      simp only [onExecuteMessage, onExecuteMessageErcToErc, Option.bind_eq_bind,
        Option.bind_eq_some_iff] at h
      obtain ⟨spent, _, h⟩ := h
      have hstart := hR.same _ _ (setBasic_sameRelays s
        (s.bridge.basic.setTotalExecutedPerDay s.getCurrentDay spent))
      split at h
      · obtain rfl := congrArg Prod.fst (Option.some.inj h)
        exact hR.trans _ _ _ hstart (tokenTransfer_keeps hR hcall _ _ _)
      · simp only [Option.bind_eq_some_iff, Option.pure_def] at h
        obtain ⟨_, _, _, _, _, _, _, _, _, _, _, _, h⟩ := h
        obtain rfl := congrArg Prod.fst (Option.some.inj h)
        exact hR.trans _ _ _ hstart (hR.trans _ _ _ (transferEach_keeps hR hcall _ _ _ _)
          (hR.trans _ _ _ (transferEach_keeps hR hcall _ _ _ _) (transferEach_keeps hR hcall _ _ _ _)))
  | ercToErcV2 =>
      obtain rfl := congrArg Prod.fst (Option.some.inj h)
      exact tokenTransfer_keeps hR hcall _ _ _
  | ercToErcV3 =>
      simp only [onExecuteMessage, onExecuteMessageV3, Option.bind_eq_bind, Option.bind_eq_some_iff] at h
      obtain ⟨⟨s₁, b₁⟩, h₁, h⟩ := h
      have hfirst := tokenTransferV3_keeps hR hcall h₁
      split at h
      · obtain rfl := congrArg Prod.fst (Option.some.inj h)
        exact hfirst
      · simp only [Option.bind_eq_some_iff, require_eq_some, exists_const, Option.pure_def] at h
        obtain ⟨_, ⟨s₂, b₂⟩, h₂, h⟩ := h
        obtain rfl := congrArg Prod.fst (Option.some.inj h)
        exact hR.trans _ _ _ hfirst (hR.trans _ _ _ (tokenTransferV3_keeps hR hcall h₂)
          (hR.same _ _ ⟨rfl, rfl, rfl, rfl, rfl⟩))

end Paying

/-! ## `executeSignatures` -/

/-- The state after a message was relayed. -/
def relay (s : Foreign W) (vs : List Byte) (rs ss : List Bytes32) (message : Bytes) (m : ParsedMessage) :
    Foreign W :=
  (s.mark ⟨message, m, vs, rs, ss, s.validators⟩).emit (.RelayedMessage m.recipient m.amount m.txHash)

section Relaying

variable {K : CollisionFree H} {ecrecover : Ecrecover H} {V : ForeignVariant} {call : Callee (Foreign W)}
  {P : Finset Bytes32} {s s' : Foreign W} {vs : List Byte} {rs ss : List Bytes32} {message : Bytes}

/-- **What a successful `executeSignatures` does.** -/
theorem executeSignatures_cases (h : executeSignatures K ecrecover V call s vs rs ss message = some s') :
    ∃ m s₁, Message.hasEnoughValidSignatures K ecrecover message vs rs ss s.validators = some () ∧
      Message.parseMessage message = some m ∧ messageWithinLimits V s m.amount = some true ∧
      m.contractAddress = s.bridge.self ∧ s.relayedMessages m.txHash = false ∧
      onExecuteMessage V call (s.setRelayedMessages m.txHash true) m.recipient m.amount = some (s₁, true) ∧
      s' = s₁.relay vs rs ss message m := by
  simp only [executeSignatures, Option.bind_eq_bind, Option.bind_eq_some_iff, require_eq_some,
    exists_const, Option.pure_def, Option.some.injEq] at h
  obtain ⟨_, henough, m, hm, _, hwithin, rfl, haddr, hfresh, ⟨s₁, ok⟩, hexec, rfl, rfl⟩ := h
  exact ⟨m, s₁, henough, hm, hwithin, haddr, hfresh, hexec, rfl⟩

theorem Relayed.same (h : Relayed K ecrecover P s) (he : SameRelays s s') : Relayed K ecrecover P s' := by
  refine ⟨?_, ?_, ?_, ?_, ?_⟩
  · rw [he.relayedMessages, he.trail]; exact h.once
  · rw [he.trail, he.self]; exact h.backed
  · rw [he.events, he.trail]; exact h.events
  · rw [he.validators]; exact h.sound
  · rw [he.validators]; exact h.initialized

/-- Raising the flag makes the hash pending. -/
theorem Relayed.setRelayedMessages (h : Relayed K ecrecover P s) {t : Bytes32}
    (hfresh : s.relayedMessages t = false) :
    Relayed K ecrecover (insert t P) (s.setRelayedMessages t true) :=
  ⟨h.once.raise hfresh fun _ => Function.update_apply .., h.backed, h.events, h.sound, h.initialized⟩

/-- A message that `hasEnoughValidSignatures` accepts in a sound state is backed. -/
theorem backed_of_accepted {m : ParsedMessage} (hs : Relayed K ecrecover P s)
    (henough : Message.hasEnoughValidSignatures K ecrecover message vs rs ss s.validators = some ())
    (hm : Message.parseMessage message = some m) (haddr : m.contractAddress = s.bridge.self) :
    Backed K ecrecover s.bridge.self ⟨message, m, vs, rs, ss, s.validators⟩ := by
  obtain ⟨hlen, hvs, hrs, hss, hnd, hval⟩ := (Message.hasEnoughValidSignatures_iff hs.sound).mp henough
  refine ⟨hlen, ?_, Message.length_recoveredSigners hvs hrs hss, hnd, hval, hm, haddr⟩
  exact Nat.pos_of_ne_zero (toNat_ne_zero (hs.sound.one_le_required hs.initialized))

/-- The relay takes the hash out of the pending ones. -/
theorem Relayed.relay {m : ParsedMessage} (h : Relayed K ecrecover (insert m.txHash P) s)
    (hP : m.txHash ∉ P) (hbacked : Backed K ecrecover s.bridge.self ⟨message, m, vs, rs, ss, s.validators⟩) :
    Relayed K ecrecover P (s.relay vs rs ss message m) := by
  refine ⟨h.once.settle hP, ?_, ?_, h.sound, h.initialized⟩
  · intro r hr
    rcases List.mem_cons.mp hr with rfl | hold
    · exact hbacked
    · exact h.backed r hold
  · show (m.recipient, m.amount, m.txHash) :: relayedEvents s.bridge.log = _
    rw [h.events]
    rfl

/-- What a call keeps: validators, address, and the invariant with any set of pending hashes. -/
structure Relaying (K : CollisionFree H) (ecrecover : Ecrecover H) (s s' : Foreign W) : Prop where
  validators : s'.validators = s.validators
  self : s'.bridge.self = s.bridge.self
  relayed : ∀ P, Relayed K ecrecover P s → Relayed K ecrecover P s'

theorem Relaying.trans {s₁ s₂ s₃ : Foreign W} (h : Relaying K ecrecover s₁ s₂)
    (h' : Relaying K ecrecover s₂ s₃) : Relaying K ecrecover s₁ s₃ :=
  ⟨h'.validators.trans h.validators, h'.self.trans h.self, fun P hP => h'.relayed P (h.relayed P hP)⟩

theorem Relaying.of_same (h : SameRelays s s') : Relaying K ecrecover s s' :=
  ⟨h.validators, h.self, fun _ hP => hP.same h⟩

theorem Relaying.of_bridge (hvalidators : s'.validators = s.validators) (hbridge : s'.bridge = s.bridge) :
    Relaying K ecrecover s s' := .of_same (.of_bridge hvalidators hbridge)

/-- **One call of the bridge.** -/
theorem invoke_relaying {allowed : Foreign W → ForeignTx → Prop} {out : Foreign W → Foreign W → Prop}
    (hout : ∀ s s', out s s' → Relaying K ecrecover s s') {s s' : Foreign W}
    (h : Invoke K ecrecover V allowed out s s') : Relaying K ecrecover s s' := by
  obtain ⟨call, tx, _, hcall, h⟩ := h
  have hkeeps : Keeps out (Relaying K ecrecover) :=
    ⟨fun _ => ⟨rfl, rfl, fun _ hP => hP⟩, fun _ _ _ => Relaying.trans, fun _ _ => Relaying.of_same, hout⟩
  cases tx with
  | setting sender setting =>
      simp only [exec, Option.bind_eq_bind, Option.bind_eq_some_iff, require_eq_some, exists_const] at h
      exact Relaying.of_same (applySetting_sameRelays h.2)
  | executeSignatures vs rs ss message =>
      obtain ⟨m, s₁, henough, hm, _, haddr, hfresh, hexec, rfl⟩ := executeSignatures_cases h
      have hpaid : Relaying K ecrecover (s.setRelayedMessages m.txHash true) s₁ :=
        onExecuteMessage_keeps hkeeps hcall hexec
      refine ⟨hpaid.validators, hpaid.self, ?_⟩
      intro P hP
      have hpending := hpaid.relayed _ (hP.setRelayedMessages hfresh)
      refine hpending.relay ?_ ?_
      · intro hmem
        have hraised := hP.once.raised m.txHash hmem
        exact absurd (hraised.symm.trans hfresh) (by decide)
      · have hbacked := backed_of_accepted hP henough hm haddr
        rw [hpaid.validators, hpaid.self]
        exact hbacked

/-! ## Runs -/

theorem relayed_fresh (h : Fresh s) : Relayed K ecrecover ∅ s := by
  obtain ⟨n, vs, owner, hinit⟩ := h.validators
  have hrun : BridgeValidators.blank.run (.initializeWith n vs owner) = some s.validators := hinit
  refine ⟨?_, ?_, ?_, BridgeValidators.run_sound hrun BridgeValidators.blank_sound,
    BridgeValidators.initializeWith_isInitialized hinit⟩
  · rw [h.trail]
    exact Once.empty.congr_flag h.relayedMessages
  · intro r hr
    rw [h.trail] at hr
    exact absurd hr List.not_mem_nil
  · rw [h.trail, h.log]
    rfl

/-- A transaction to the validator contract. -/
theorem Relayed.manage (h : Relayed K ecrecover P s) {v : BridgeValidators} (hv : s.validators.Step v) :
    Relayed K ecrecover P { s with validators := v } := by
  obtain ⟨op, hop⟩ := hv
  exact ⟨h.once, h.backed, h.events, BridgeValidators.run_sound hop h.sound,
    BridgeValidators.run_isInitialized hop h.initialized⟩

theorem step_relayed {allowed : Foreign W → ForeignTx → Prop} (hs : Relayed K ecrecover ∅ s)
    (h : StepWhen K ecrecover V allowed s s') : Relayed K ecrecover ∅ s' := by
  cases h with
  | bridge n h =>
      have hrel : Relaying K ecrecover s s' :=
        Calls.nested_rel (R := Relaying K ecrecover) (fun _ => ⟨rfl, rfl, fun _ hP => hP⟩)
          (fun _ _ _ => Relaying.trans) (fun _ _ he => Relaying.of_same (elsewhere_sameRelays he))
          (fun _ hout _ _ h => invoke_relaying hout h) n s s' h
      exact hrel.relayed ∅ hs
  | validators hv => exact hs.manage hv
  | tick now _ => exact hs.same (.of_bridge rfl rfl)
  | elsewhere h => exact hs.same (elsewhere_sameRelays h)

theorem run_relayed {s₀ : Foreign W} (hfresh : Fresh s₀) (h : Run K ecrecover V s₀ s) :
    Relayed K ecrecover ∅ s :=
  Calls.steps_invariant (P := Relayed K ecrecover ∅) (fun _ _ => step_relayed) h (relayed_fresh hfresh)

/-- **Foreign release authorisation.** In every reachable state, `hasEnoughValidSignatures` accepts
    exactly the messages of 104 bytes that come with enough signatures by distinct validators; every
    `RelayedMessage` so far was backed by such signatures, at least one, when it was emitted; and no
    transaction hash was relayed twice. -/
theorem foreign_release_authorisation {s₀ : Foreign W} (hfresh : Fresh s₀) (hrun : Run K ecrecover V s₀ s) :
    (∀ (message : Bytes) (vs : List Byte) (rs ss : List Bytes32),
      Message.hasEnoughValidSignatures K ecrecover message vs rs ss s.validators = some () ↔
        message.length = 104 ∧
        s.validators.requiredSignatures.toNat ≤ vs.length ∧
        s.validators.requiredSignatures.toNat ≤ rs.length ∧
        s.validators.requiredSignatures.toNat ≤ ss.length ∧
        (Message.recoveredSigners ecrecover (Message.hashMessage K message) vs rs ss
          s.validators.requiredSignatures.toNat).Nodup ∧
        ∀ a ∈ Message.recoveredSigners ecrecover (Message.hashMessage K message) vs rs ss
          s.validators.requiredSignatures.toNat, s.validators.isValidator a = true) ∧
    relayedEvents s.bridge.log =
      (s.bridge.trail.map fun r => (r.parsed.recipient, r.parsed.amount, r.parsed.txHash)) ∧
    (∀ r ∈ s.bridge.trail, Backed K ecrecover s.bridge.self r) ∧
    (s.bridge.trail.map fun r => r.parsed.txHash).Nodup := by
  have hs := run_relayed hfresh hrun
  exact ⟨fun message vs rs ss => Message.hasEnoughValidSignatures_iff hs.sound, hs.events, hs.backed,
    hs.once.nodup⟩

end Relaying

/-- Two validators sign the message, in either order; a third entry of the arrays is not looked at. -/
theorem foreign_release_authorisation_two_signers :
    ∃ s₀ s : Foreign Unit, Run serialHash signerV .ercToErcV2 s₀ s ∧
      relayedEvents s.bridge.log = [(33, 100, 77)] ∧
      (∀ r ∈ s.bridge.trail, Backed serialHash signerV s.bridge.self r) := by
  have heval : (do
      let v ← BridgeValidators.blank.initializeWith 2 [1, 2] 9
      let s ← exec serialHash signerV .ercToErcV2 obliging (sampleForeign v ())
        (.executeSignatures [2, 1, 1] [0, 0, 0] [0, 0] (Message.encode sampleMessage))
      pure (relayedEvents s.bridge.log)) = some [(33, 100, 77)] := by
    decide +kernel
  simp only [Option.bind_eq_bind, Option.bind_eq_some_iff, Option.pure_def, Option.some.injEq] at heval
  obtain ⟨v, hv, s, hcall, he⟩ := heval
  have hrun : Run serialHash signerV .ercToErcV2 (sampleForeign v ()) s :=
    Relation.ReflTransGen.single (step_of_exec trivial obliging_within hcall)
  exact ⟨_, s, hrun, he, (foreign_release_authorisation (deploy_fresh hv ..) hrun).2.2.1⟩

end Foreign
end ThunderBridge
