import ThunderBridge.Contracts.ForeignBridge.Relay

/-!
# `ForeignBridge.Delivery` — a relayed message and the tokens that left the bridge

The world is the list of transfers that moved tokens, and the token answers every `transfer` of the bridge
in one of five ways (`TokenAnswer`); only an answer *true* or no data at all moves the amount. When the
transfer to the recipient fails, `ForeignBridgeErcToErcV3` tries the fallback recipient and does not look
at the result, so a message can be relayed without a payment (`relayed_without_payment`).

`LosesWithdrawal` says when that is; in every other case the amount leaves the bridge or the whole
transaction reverts (`delivers_or_rolls_back_iff`).
-/

namespace ThunderBridge

/-- How a token answers a call of `transfer`. -/
inductive TokenAnswer where
  | revert
  | returnsFalse
  | returnsTrue
  /-- No return data: a token that is not standard. -/
  | returnsNothing
  /-- Return data that is neither empty nor one word. -/
  | returnsOther (data : Bytes) (h : data.length ≠ 0 ∧ data.length ≠ 32)

namespace TokenAnswer

/-- The answers on which the token moved the amount. -/
def Moves : TokenAnswer → Prop
  | returnsTrue | returnsNothing => True
  | _ => False

/-- The answers that the bridge takes for a failed transfer. -/
def Fails : TokenAnswer → Prop
  | revert | returnsFalse => True
  | _ => False

end TokenAnswer

namespace Foreign

variable {H : Type}

/-- The state after some transfers moved tokens. -/
def pay (s : Foreign Payments) (ps : Payments) : Foreign Payments := { s with world := ps ++ s.world }

/-- A token that answers as `answer` says. -/
def answering (answer : ExtCall → Foreign Payments → TokenAnswer) : Callee (Foreign Payments) := fun c s =>
  match answer c s with
  | .revert => none
  | .returnsFalse => some (s, packWord 0)
  | .returnsTrue => some (s.pay c.payments, packWord 1)
  | .returnsNothing => some (s.pay c.payments, [])
  | .returnsOther data _ => some (s, data)

/-- **Delivery or rollback** of one call: if it succeeds, the hash is relayed, `RelayedMessage` is emitted,
    and exactly the amount of the message left the bridge, to the recipient or the fallback recipient. -/
def DeliversOrRollsBack (K : CollisionFree H) (ecrecover : Ecrecover H) (call : Callee (Foreign Payments))
    (s : Foreign Payments) (vs : List Byte) (rs ss : List Bytes32) (message : Bytes) : Prop :=
  ∀ s', executeSignatures K ecrecover .ercToErcV3 call s vs rs ss message = some s' →
    ∃ m ps, Message.parseMessage message = some m ∧ s'.relayedMessages m.txHash = true ∧
      s'.bridge.log.head? = some (.RelayedMessage m.recipient m.amount m.txHash) ∧
      s'.world = ps ++ s.world ∧ total ps = m.amount.toNat ∧
      ∀ p ∈ ps, p.1 = m.recipient ∨ p.1 = s.bridge.fallbackRecipient

/-- The message gets as far as the payment. -/
structure Accepts (K : CollisionFree H) (ecrecover : Ecrecover H) (s : Foreign Payments) (vs : List Byte)
    (rs ss : List Bytes32) (message : Bytes) (m : ParsedMessage) : Prop where
  signed : Message.hasEnoughValidSignatures K ecrecover message vs rs ss s.validators = some ()
  parsed : Message.parseMessage message = some m
  address : m.contractAddress = s.bridge.self
  unrelayed : s.relayedMessages m.txHash = false

/-- Both transfers fail, and there is a fallback recipient to which the second one was made. -/
def LosesWithdrawal (answer : ExtCall → Foreign Payments → TokenAnswer) (s₁ : Foreign Payments)
    (m : ParsedMessage) : Prop :=
  m.amount ≠ 0 ∧
  (answer (.transfer s₁.bridge.erc20token m.recipient m.amount) s₁).Fails ∧
  s₁.bridge.fallbackRecipient ≠ 0 ∧
  (answer (.transfer s₁.bridge.erc20token s₁.bridge.fallbackRecipient m.amount) s₁).Fails

/-! ## The transfers under an answer -/

section Answers

variable {answer : ExtCall → Foreign Payments → TokenAnswer} {s s' : Foreign Payments}
  {recipient : Address} {amount : UInt256} {ok : Bool}

/-- **One transfer** either moves the amount and is taken for success, or fails and moves nothing, or
    reverts the transaction. -/
theorem tokenTransferV3_answering :
    tokenTransferV3 (answering answer) s recipient amount = some (s', ok) ↔
      ((answer (.transfer s.bridge.erc20token recipient amount) s).Moves ∧
        s' = s.pay [(recipient, amount)] ∧ ok = true) ∨
      ((answer (.transfer s.bridge.erc20token recipient amount) s).Fails ∧ s' = s ∧ ok = false) := by
  have hyes : (Bytes.mload (packWord 1#256) 0 != 0#256) = true := by decide +kernel
  have hno : (Bytes.mload (packWord 0#256) 0 != 0#256) = false := by decide +kernel
  unfold tokenTransferV3 Callee.lowLevel answering
  cases ha : answer (.transfer s.bridge.erc20token recipient amount) s with
  | revert => simp [TokenAnswer.Moves, TokenAnswer.Fails, eq_comm]
  | returnsFalse => simp [TokenAnswer.Moves, TokenAnswer.Fails, hno, eq_comm]
  | returnsTrue => simp [TokenAnswer.Moves, TokenAnswer.Fails, hyes, ExtCall.payments, eq_comm]
  | returnsNothing => simp [TokenAnswer.Moves, TokenAnswer.Fails, ExtCall.payments, eq_comm]
  | returnsOther data h =>
      have hne : data ≠ [] := fun he => h.1 (by simp [he])
      simp [TokenAnswer.Moves, TokenAnswer.Fails, hne, h.2]

/-- **Paying a withdrawal**: to the recipient; or, that failing, to a fallback recipient, whatever becomes
    of the second transfer. -/
theorem onExecuteMessageV3_answering :
    onExecuteMessageV3 (answering answer) s recipient amount = some (s', ok) ↔
      ok = true ∧
      (((answer (.transfer s.bridge.erc20token recipient amount) s).Moves ∧
          s' = s.pay [(recipient, amount)]) ∨
        ((answer (.transfer s.bridge.erc20token recipient amount) s).Fails ∧
          s.bridge.fallbackRecipient ≠ 0 ∧
          (((answer (.transfer s.bridge.erc20token s.bridge.fallbackRecipient amount) s).Moves ∧
              s' = (s.pay [(s.bridge.fallbackRecipient, amount)]).emit
                (.RecipientRedirected recipient s.bridge.fallbackRecipient)) ∨
            ((answer (.transfer s.bridge.erc20token s.bridge.fallbackRecipient amount) s).Fails ∧
              s' = s.emit (.RecipientRedirected recipient s.bridge.fallbackRecipient))))) := by
  simp only [onExecuteMessageV3, Option.bind_eq_bind, Option.bind_eq_some_iff, Prod.exists,
    tokenTransferV3_answering]
  constructor
  · rintro ⟨s₁, b, ⟨hmoves, rfl, rfl⟩ | ⟨hfails, rfl, rfl⟩, h⟩
    · obtain ⟨rfl, rfl⟩ := Prod.mk.inj (Option.some.inj h)
      exact ⟨rfl, Or.inl ⟨hmoves, rfl⟩⟩
    · simp only [Bool.false_eq_true, if_false, Option.bind_eq_some_iff, require_eq_some, exists_const,
        Option.pure_def, Option.some.injEq, Prod.mk.injEq, Prod.exists, tokenTransferV3_answering] at h
      obtain ⟨hfallback, s₂, b₂, h₂, rfl, rfl⟩ := h
      refine ⟨rfl, Or.inr ⟨hfails, hfallback, ?_⟩⟩
      rcases h₂ with ⟨hmoves, rfl, _⟩ | ⟨hfails', rfl, _⟩
      · exact Or.inl ⟨hmoves, rfl⟩
      · exact Or.inr ⟨hfails', rfl⟩
  · rintro ⟨rfl, ⟨hmoves, rfl⟩ | ⟨hfails, hfallback, hsecond⟩⟩
    · exact ⟨_, true, Or.inl ⟨hmoves, rfl, rfl⟩, rfl⟩
    · refine ⟨s, false, Or.inr ⟨hfails, rfl, rfl⟩, ?_⟩
      simp only [Bool.false_eq_true, if_false, require_pos hfallback, Option.bind_some,
        Option.bind_eq_some_iff, Prod.exists, tokenTransferV3_answering, Option.pure_def, Option.some.injEq,
        Prod.mk.injEq]
      rcases hsecond with ⟨hmoves, rfl⟩ | ⟨hfails', rfl⟩
      · exact ⟨_, true, Or.inl ⟨hmoves, rfl, rfl⟩, rfl, trivial⟩
      · exact ⟨s, false, Or.inr ⟨hfails', rfl, rfl⟩, rfl, trivial⟩

end Answers

/-! ## Delivery -/

section Delivery

variable {K : CollisionFree H} {ecrecover : Ecrecover H}
  {answer : ExtCall → Foreign Payments → TokenAnswer} {s s₁ : Foreign Payments} {vs : List Byte}
  {rs ss : List Bytes32} {message : Bytes} {m : ParsedMessage}

/-- An accepted message is relayed whenever its payment goes through. -/
theorem executeSignatures_of_accepts {call : Callee (Foreign Payments)}
    (h : Accepts K ecrecover s vs rs ss message m)
    (hpaid : onExecuteMessageV3 call (s.setRelayedMessages m.txHash true) m.recipient m.amount =
      some (s₁, true)) :
    executeSignatures K ecrecover .ercToErcV3 call s vs rs ss message =
      some (s₁.relay vs rs ss message m) := by
  simp only [executeSignatures, h.signed, h.parsed, messageWithinLimits, onExecuteMessage, hpaid,
    require_pos h.address, require_pos h.unrelayed, require_pos, Option.bind_eq_bind, Option.bind_some,
    Option.pure_def]
  rfl

/-- **V3 delivery or rollback.** In every state, for every message, all signatures and all answers of the
    token: the call delivers or rolls back if and only if no accepted message loses its withdrawal. -/
theorem delivers_or_rolls_back_iff (K : CollisionFree H) (ecrecover : Ecrecover H)
    (answer : ExtCall → Foreign Payments → TokenAnswer) (s : Foreign Payments) (vs : List Byte)
    (rs ss : List Bytes32) (message : Bytes) :
    DeliversOrRollsBack K ecrecover (answering answer) s vs rs ss message ↔
      ∀ m, Accepts K ecrecover s vs rs ss message m →
        ¬ LosesWithdrawal answer (s.setRelayedMessages m.txHash true) m := by
  constructor
  · intro hdelivers m haccepts hloses
    obtain ⟨hamount, hfails, hfallback, hfails'⟩ := hloses
    have hpaid := onExecuteMessageV3_answering.mpr
      ⟨rfl, Or.inr ⟨hfails, hfallback, Or.inr ⟨hfails', rfl⟩⟩⟩
    obtain ⟨m', ps, hm', _, _, hworld, htotal, _⟩ := hdelivers _ (executeSignatures_of_accepts haccepts hpaid)
    obtain rfl : m = m' := Option.some.inj (haccepts.parsed.symm.trans hm')
    -- nothing was moved, so the amount is zero
    have hnil : ps = [] := by
      have hsame : s.world = ps ++ s.world := hworld
      exact List.append_cancel_right (hsame.symm.trans (List.nil_append _).symm)
    rw [hnil, total_nil] at htotal
    exact toNat_ne_zero hamount htotal.symm
  · intro hcond s' h
    obtain ⟨m, s₁, hsigned, hparsed, _, haddress, hunrelayed, hpaid, rfl⟩ := executeSignatures_cases h
    have hnotlost := hcond m ⟨hsigned, hparsed, haddress, hunrelayed⟩
    obtain ⟨_, hcases⟩ := onExecuteMessageV3_answering.mp hpaid
    have hrelayed : (s.setRelayedMessages m.txHash true).relayedMessages m.txHash = true :=
      Function.update_self ..
    rcases hcases with ⟨_, rfl⟩ | ⟨hfails, hfallback, ⟨_, rfl⟩ | ⟨hfails', rfl⟩⟩
    · refine ⟨m, [(m.recipient, m.amount)], hparsed, hrelayed, rfl, rfl, by simp, ?_⟩
      intro p hp
      rw [List.mem_singleton.mp hp]
      exact Or.inl rfl
    · refine ⟨m, [(s.bridge.fallbackRecipient, m.amount)], hparsed, hrelayed, rfl, rfl, by simp,
        ?_⟩
      intro p hp
      rw [List.mem_singleton.mp hp]
      exact Or.inr rfl
    · -- both transfers failed: only an amount of zero is then no loss
      have hzero : m.amount = 0 := by
        by_contra hne
        exact hnotlost ⟨hne, hfails, hfallback, hfails'⟩
      exact ⟨m, [], hparsed, hrelayed, rfl, rfl, by rw [hzero]; rfl, fun p hp => absurd hp List.not_mem_nil⟩

/-- **Relayed without payment.** The token reverts both transfers; the message about an amount of 100 is
    marked relayed, `RelayedMessage` is emitted, and no token moved. -/
theorem relayed_without_payment :
    ¬ ∀ (s : Foreign Payments) (answer : ExtCall → Foreign Payments → TokenAnswer) (vs : List Byte)
        (rs ss : List Bytes32) (message : Bytes),
        DeliversOrRollsBack serialHash signerV (answering answer) s vs rs ss message := by
  have heval : (do
      let v ← BridgeValidators.blank.initializeWith 2 [1, 2] 9
      let s' ← executeSignatures serialHash signerV .ercToErcV3 (answering fun _ _ => .revert)
        (sampleForeign v []) [2, 1] [0, 0] [0, 0] (Message.encode sampleMessage)
      pure s'.world) = some [] := by
    decide +kernel
  simp only [Option.bind_eq_bind, Option.bind_eq_some_iff, Option.pure_def, Option.some.injEq] at heval
  obtain ⟨v, hv, s', hcall, hworld⟩ := heval
  intro hclaim
  obtain ⟨m, ps, hm, _, _, hps, htotal, _⟩ := hclaim _ _ _ _ _ _ s' hcall
  rw [Message.parseMessage_encode] at hm
  obtain rfl := Option.some.inj hm
  have hnil : ps = [] := (List.append_eq_nil_iff.mp (hps.symm.trans hworld)).1
  rw [hnil, total_nil] at htotal
  exact absurd htotal (by decide)

end Delivery
end Foreign
end ThunderBridge
