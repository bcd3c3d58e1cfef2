import ThunderBridge.Contracts.HomeBridge.Threshold

/-!
# `HomeBridge.Settlement` — what a settled deposit pays out

The world is the list of payments that went through, and every call of the bridge to a token or an account
has an outcome, whatever the caller of the transaction arranged: it moves exactly the amount, it reverts,
or it answers `false` and moves nothing. The four contracts with a deposit fee drop that answer, so they
complete deposits they did not pay (`completed_without_payment`).

`LosesPayment` says on which outcomes. On all others the fee receiver and the recipient together get
exactly the affirmed value, and nothing is completed unpaid (`settlement_exact_iff`).
-/

namespace ThunderBridge

/-- How a call of the bridge ends. -/
inductive Outcome where
  /-- The amount is moved. -/
  | success
  /-- The callee reverts. -/
  | revert
  /-- The callee answers `false`; a `send` has no such answer and fails. -/
  | returnsFalse
deriving DecidableEq, Repr

/-- A plain payment of coin, which has no answer. -/
def ExtCall.isSend : ExtCall → Bool
  | .send _ _ => true
  | _ => false

namespace Home

variable {H : Type}

/-- The state after some payments went through. -/
def pay (s : Home H Payments) (ps : Payments) : Home H Payments := { s with world := ps ++ s.world }

/-- The state after a successful call. -/
def receive (s : Home H Payments) (c : ExtCall) : Home H Payments := s.pay c.payments

/-- The tokens and accounts outside, answering as `outcome` says. -/
def answering (outcome : ExtCall → Home H Payments → Outcome) : Callee (Home H Payments) := fun c s =>
  match outcome c s with
  | .success => some (s.receive c, packWord 1)
  | .revert => none
  | .returnsFalse => if c.isSend then none else some (s, packWord 0)

/-- What an outcome leaves when the answer is dropped. -/
def afterCall (outcome : ExtCall → Home H Payments → Outcome) (c : ExtCall) (s : Home H Payments) :
    Option (Home H Payments) :=
  match outcome c s with
  | .success => some (s.receive c)
  | .revert => none
  | .returnsFalse => some s

/-! ## The settled value -/

/-- The call ended with the completion of the deposit. -/
def Completed (s s' : Home H Payments) (d : Deposit) : Prop :=
  s'.bridge.log.head? = some (s.txHash, .AffirmationCompleted d.1 d.2.1 d.2.2)

/-- The payments go to the fee receiver, the recipient, or the fallback recipient of the native bridge. -/
def ToParties (V : HomeVariant) (s : Home H Payments) (recipient : Address) (ps : Payments) : Prop :=
  ∀ p ∈ ps, p.1 = s.bridge.fees.feeReceiver ∨ p.1 = recipient ∨
    V = .nativeToErcWithFee ∧ p.1 = s.bridge.fallbackRecipient

/-- Between the two states the fee receiver and the recipient (in the native bridge, or the fallback
    recipient) received exactly the value of the deposit. -/
def ReceivedExactly (V : HomeVariant) (s s' : Home H Payments) (d : Deposit) : Prop :=
  ∃ ps, s'.world = ps ++ s.world ∧ ToParties V s d.1 ps ∧ total ps = d.2.1.toNat

section Property

variable [DecidableEq H]

/-- **Settlement exactness** of one affirmation: a completed deposit is processed and was paid exactly; a
    call that did not complete it paid nothing and left its processed bit alone. -/
def SettlesExactly (K : CollisionFree H) (V : HomeVariant) (call : Callee (Home H Payments))
    (s : Home H Payments) (sender : Address) (d : Deposit) : Prop :=
  ∀ s', executeAffirmation K V call s sender d.1 d.2.1 d.2.2 = some s' →
    (Completed s s' d → isAlreadyProcessed (s'.numAffirmationsSigned (depositHash K d)) = true ∧
      ReceivedExactly V s s' d) ∧
    (¬ Completed s s' d → s'.world = s.world ∧
      isAlreadyProcessed (s'.numAffirmationsSigned (depositHash K d)) =
        isAlreadyProcessed (s.numAffirmationsSigned (depositHash K d)))

/-- The affirmation comes to settle its deposit: `s₁` is the state in which the first payment is made,
    and `fee` the fee. -/
structure Reaches (K : CollisionFree H) (s : Home H Payments) (sender : Address) (d : Deposit)
    (s₁ : Home H Payments) (fee : UInt256) : Prop where
  validator : s.validators.isValidator sender = true
  limit : s.bridge.basic.withinExecutionLimit s.getCurrentDay d.2.1 = some true
  unsigned : s.affirmationsSigned (hashSender K sender (depositHash K d)) = false
  unprocessed : isAlreadyProcessed (s.numAffirmationsSigned (depositHash K d)) = false
  enough : s.validators.requiredSignatures ≤ s.numAffirmationsSigned (depositHash K d) + 1
  start : ((s.affirm K sender d).markProcessed K d).addExecuted d.2.1 = some s₁
  depositFee : s₁.bridge.fees.depositFee d.2.1 = some fee

end Property

/-! ## The outcomes that lose a payment -/

/-- The token call by which a contract pays. -/
def payment (V : HomeVariant) (s : Home H Payments) (target : Address) (amount : UInt256) : ExtCall :=
  match V with
  | .ercToErc | .ercToErcWithFee => .mint s.bridge.erc677token target amount
  | .ercToErcWithFeeV2 => .minterBurnerMint s.bridge.minterBurner target amount
  | .erc677ToErc677WithFee => .transfer s.bridge.erc677token target amount
  | .nativeToErcWithFee => .send target amount

/-- The state in which the second payment is made. -/
def afterFee (outcome : ExtCall → Home H Payments → Outcome) (s₁ : Home H Payments) (c : ExtCall) :
    Home H Payments :=
  if outcome c s₁ = .success then s₁.receive c else s₁

/-- Some payment of the settlement does not go through and no failure stops the transaction. -/
def LosesPayment (V : HomeVariant) (outcome : ExtCall → Home H Payments → Outcome) (s₁ : Home H Payments)
    (recipient : Address) (value fee : UInt256) : Prop :=
  let toReceiver := payment V s₁ s₁.bridge.fees.feeReceiver
  let toRecipient := payment V s₁ recipient (value - fee)
  let toFallback := payment V s₁ s₁.bridge.fallbackRecipient (value - fee)
  if V = .nativeToErcWithFee then
    if value ≤ fee then value ≠ 0 ∧ outcome (toReceiver value) s₁ ≠ .success
    else fee ≠ 0 ∧ outcome (toReceiver fee) s₁ ≠ .success ∧
      (outcome toRecipient s₁ = .success ∨
        s₁.bridge.fallbackRecipient ≠ 0 ∧ outcome toFallback s₁ = .success)
  else
    if value ≤ fee then value ≠ 0 ∧ outcome (toReceiver value) s₁ = .returnsFalse
    else if fee = 0 then outcome toRecipient s₁ = .returnsFalse
    else outcome (toReceiver fee) s₁ ≠ .revert ∧
      outcome toRecipient (afterFee outcome s₁ (toReceiver fee)) ≠ .revert ∧
      (outcome (toReceiver fee) s₁ = .returnsFalse ∨
        outcome toRecipient (afterFee outcome s₁ (toReceiver fee)) = .returnsFalse)

/-! ## The calls under an outcome -/

section Answers

variable {outcome : ExtCall → Home H Payments → Outcome} {c : ExtCall} {s : Home H Payments}

theorem unchecked_answering (hc : c.isSend = false) :
    (answering outcome).unchecked c s = afterCall outcome c s := by
  unfold Callee.unchecked Callee.bool answering afterCall
  cases outcome c s with
  | success => simp [require_pos]
  | revert => rfl
  | returnsFalse => simp [hc, require_pos]

theorem send_lowLevel (target : Address) (amount : UInt256) :
    tokenTransferNative (answering outcome) s target amount =
      if outcome (.send target amount) s = .success then (s.pay [(target, amount)], true)
      else (s, false) := by
  unfold tokenTransferNative Callee.lowLevel answering
  cases h : outcome (.send target amount) s with
  | success => simp [receive, ExtCall.payments]
  | revert => simp
  | returnsFalse => simp [ExtCall.isSend]

theorem send_plain (target : Address) (amount : UInt256) :
    (answering outcome).plain (.send target amount) s =
      if outcome (.send target amount) s = .success then some (s.pay [(target, amount)]) else none := by
  unfold Callee.plain answering
  cases h : outcome (.send target amount) s with
  | success => simp [receive, ExtCall.payments]
  | revert => simp
  | returnsFalse => simp [ExtCall.isSend]

theorem payment_payments {V : HomeVariant} (target : Address) (amount : UInt256) :
    (payment V s target amount).payments = [(target, amount)] := by
  cases V <;> rfl

theorem payment_isSend {V : HomeVariant} (hV : V ≠ .nativeToErcWithFee) (target : Address)
    (amount : UInt256) : (payment V s target amount).isSend = false := by
  cases V with
  | nativeToErcWithFee => exact absurd rfl hV
  | _ => rfl

/-- Where a contract pays does not depend on what was paid so far. -/
theorem payment_pay {V : HomeVariant} (ps : Payments) :
    payment V (s.pay ps) = payment V s := by
  cases V <;> rfl

end Answers

/-- A payment whose answer is dropped is made, or answered `false`. -/
theorem afterCall_eq_some {outcome : ExtCall → Home H Payments → Outcome} {V : HomeVariant}
    {s₀ s s' : Home H Payments} {target : Address} {amount : UInt256} :
    afterCall outcome (payment V s₀ target amount) s = some s' ↔
      (outcome (payment V s₀ target amount) s = .success ∧ s' = s.pay [(target, amount)]) ∨
      (outcome (payment V s₀ target amount) s = .returnsFalse ∧ s' = s) := by
  unfold afterCall
  cases ho : outcome (payment V s₀ target amount) s with
  | success => simp [receive, payment_payments, eq_comm]
  | revert => simp
  | returnsFalse => simp [eq_comm]

/-! ## What a settlement pays -/

section Settlements

variable {outcome : ExtCall → Home H Payments → Outcome} {s s₁ s₂ : Home H Payments}
  {recipient : Address} {value fee : UInt256} {ok : Bool}

/-- The rest after the fee, as a number. -/
theorem sub_of_not_le (h : ¬ value ≤ fee) :
    SafeMath.sub value fee = some (value - fee) ∧ value - fee ≠ 0 ∧
      fee.toNat + (value - fee).toNat = value.toNat := by
  have hlt : fee.toNat < value.toNat := by
    rw [BitVec.le_def] at h
    omega
  have hsub : (value - fee).toNat = value.toNat - fee.toNat :=
    BitVec.toNat_sub_of_le (BitVec.le_def.mpr hlt.le)
  refine ⟨SafeMath.sub_eq_some.mpr (by omega), ?_, by omega⟩
  intro h0
  have := congrArg BitVec.toNat h0
  rw [hsub] at this
  simp only [BitVec.ofNat_eq_ofNat, BitVec.toNat_ofNat, Nat.zero_mod] at this
  omega

/-- Two nested dropped answers of a token contract, as the two outcomes decide. -/
theorem settleWithFee_answering {V : HomeVariant} (hV : V ≠ .nativeToErcWithFee)
    (hstart : s.addExecuted value = some s₁) (hfee : s₁.bridge.fees.depositFee value = some fee) :
    settleWithFee (answering outcome) (payment V) s recipient value =
      if value ≤ fee then
        (afterCall outcome (payment V s₁ s₁.bridge.fees.feeReceiver value) s₁).map (·, true)
      else
        (whenNonzero fee (afterCall outcome (payment V s₁ s₁.bridge.fees.feeReceiver fee)) s₁).bind
          fun s₂ => (afterCall outcome (payment V s₂ recipient (value - fee)) s₂).map (·, true) := by
  simp only [settleWithFee, hstart, hfee, Option.bind_eq_bind, Option.bind_some]
  by_cases hle : value ≤ fee
  · simp only [if_pos hle, unchecked_answering (payment_isSend hV _ _)]
    cases afterCall outcome (payment V s₁ s₁.bridge.fees.feeReceiver value) s₁ <;> rfl
  · obtain ⟨hsub, hrest, _⟩ := sub_of_not_le hle
    simp only [if_neg hle, hsub, Option.bind_some, unchecked_answering (payment_isSend hV _ _),
      whenNonzero, ne_eq, hrest, not_false_eq_true, if_true, Option.map_eq_bind, Function.comp_def,
      Option.pure_def]

/-- `s₂` is `s₁` after the payments `ps`, and perhaps the event of a redirection. -/
def Paid (s₁ : Home H Payments) (ps : Payments) (s₂ : Home H Payments) : Prop :=
  s₂ = s₁.pay ps ∨ ∃ source target, s₂ = (s₁.pay ps).emit (.RecipientRedirected source target)

section Parties

variable {V : HomeVariant} {ps : Payments}

theorem toParties_nil : ToParties V s₁ recipient [] := fun _ hp => absurd hp List.not_mem_nil

theorem ToParties.toReceiver (h : ToParties V s₁ recipient ps) (amount : UInt256) :
    ToParties V s₁ recipient ((s₁.bridge.fees.feeReceiver, amount) :: ps) :=
  List.forall_mem_cons.mpr ⟨Or.inl rfl, h⟩

theorem ToParties.toRecipient (h : ToParties V s₁ recipient ps) (amount : UInt256) :
    ToParties V s₁ recipient ((recipient, amount) :: ps) :=
  List.forall_mem_cons.mpr ⟨Or.inr (Or.inl rfl), h⟩

theorem ToParties.toFallback (h : ToParties .nativeToErcWithFee s₁ recipient ps) (amount : UInt256) :
    ToParties .nativeToErcWithFee s₁ recipient ((s₁.bridge.fallbackRecipient, amount) :: ps) :=
  List.forall_mem_cons.mpr ⟨Or.inr (Or.inr ⟨rfl, rfl⟩), h⟩

end Parties

/-- The payment of a deposit that the fee takes whole. -/
theorem whole_pays {V : HomeVariant} (hV : V ≠ .nativeToErcWithFee) (hle : value ≤ fee)
    (h : afterCall outcome (payment V s₁ s₁.bridge.fees.feeReceiver value) s₁ = some s₂) :
    ∃ ps, s₂ = s₁.pay ps ∧ ToParties V s₁ recipient ps ∧
      (total ps = value.toNat ↔ ¬ LosesPayment V outcome s₁ recipient value fee) := by
  unfold LosesPayment
  simp only [if_neg hV, if_pos hle]
  rcases afterCall_eq_some.mp h with ⟨ho, rfl⟩ | ⟨ho, rfl⟩
  · refine ⟨[(s₁.bridge.fees.feeReceiver, value)], rfl, toParties_nil.toReceiver _, ?_⟩
    simp [ho]
  · refine ⟨[], rfl, toParties_nil, ?_⟩
    rw [total_nil, ho]
    by_cases hv : value = 0
    · simp [hv]
    · exact ⟨fun h0 => absurd h0.symm (toNat_ne_zero hv), fun hn => absurd ⟨hv, rfl⟩ hn⟩

/-- The payment of a deposit without fee. -/
theorem free_pays {V : HomeVariant} (hV : V ≠ .nativeToErcWithFee) (hlt : ¬ value ≤ 0)
    (h : afterCall outcome (payment V s₁ recipient (value - 0)) s₁ = some s₂) :
    ∃ ps, s₂ = s₁.pay ps ∧ ToParties V s₁ recipient ps ∧
      (total ps = value.toNat ↔ ¬ LosesPayment V outcome s₁ recipient value 0) := by
  obtain ⟨_, hrest, hsum⟩ := sub_of_not_le hlt
  unfold LosesPayment
  simp only [if_neg hV, if_neg hlt, if_true]
  rcases afterCall_eq_some.mp h with ⟨ho, rfl⟩ | ⟨ho, rfl⟩
  · refine ⟨[(recipient, value - 0)], rfl, toParties_nil.toRecipient _, ?_⟩
    rw [ho]
    simp
  · refine ⟨[], rfl, toParties_nil, ?_⟩
    have hrest' := toNat_ne_zero hrest
    rw [total_nil, ho]
    exact ⟨fun h0 => absurd (by omega) hrest', fun hn => absurd rfl hn⟩

/-- The two payments of a deposit with a fee. -/
theorem shared_pays {V : HomeVariant} (hV : V ≠ .nativeToErcWithFee) (hlt : ¬ value ≤ fee) (hfee : fee ≠ 0)
    {s₃ : Home H Payments}
    (hreceiver : afterCall outcome (payment V s₁ s₁.bridge.fees.feeReceiver fee) s₁ = some s₃)
    (hrecipient : afterCall outcome (payment V s₃ recipient (value - fee)) s₃ = some s₂) :
    ∃ ps, s₂ = s₁.pay ps ∧ ToParties V s₁ recipient ps ∧
      (total ps = value.toNat ↔ ¬ LosesPayment V outcome s₁ recipient value fee) := by
  obtain ⟨_, hrest, hsum⟩ := sub_of_not_le hlt
  have hrest' := toNat_ne_zero hrest
  have hfee' := toNat_ne_zero hfee
  unfold LosesPayment
  simp only [if_neg hV, if_neg hlt, if_neg hfee]
  rcases afterCall_eq_some.mp hreceiver with ⟨hofee, rfl⟩ | ⟨hofee, rfl⟩
  · -- the fee is paid: everything depends on the second payment
    have hstate : afterFee outcome s₁ (payment V s₁ s₁.bridge.fees.feeReceiver fee) =
        s₁.pay [(s₁.bridge.fees.feeReceiver, fee)] := by
      unfold afterFee
      rw [hofee, if_pos rfl, receive, payment_payments]
    rw [hstate, hofee]
    rw [payment_pay] at hrecipient
    rcases afterCall_eq_some.mp hrecipient with ⟨ho, rfl⟩ | ⟨ho, rfl⟩
    · refine ⟨[(recipient, value - fee), (s₁.bridge.fees.feeReceiver, fee)], rfl,
        (toParties_nil.toReceiver _).toRecipient _, ?_⟩
      rw [ho, total_cons, total_cons, total_nil]
      exact ⟨fun _ hn => hn.2.2.elim (by decide) (by decide), fun _ => by omega⟩
    · refine ⟨[(s₁.bridge.fees.feeReceiver, fee)], rfl, toParties_nil.toReceiver _, ?_⟩
      rw [ho, total_cons, total_nil]
      exact ⟨fun h0 => absurd (by omega) hrest', fun hn => absurd ⟨by decide, by decide, Or.inr rfl⟩ hn⟩
  · -- the fee is lost already
    have hstate : afterFee outcome s₃ (payment V s₃ s₃.bridge.fees.feeReceiver fee) = s₃ := by
      unfold afterFee
      rw [hofee, if_neg (by decide)]
    rw [hstate, hofee]
    rcases afterCall_eq_some.mp hrecipient with ⟨ho, rfl⟩ | ⟨ho, rfl⟩
    · refine ⟨[(recipient, value - fee)], rfl, toParties_nil.toRecipient _, ?_⟩
      rw [ho, total_cons, total_nil]
      exact ⟨fun h0 => absurd (by omega) hfee', fun hn => absurd ⟨by decide, by decide, Or.inl rfl⟩ hn⟩
    · refine ⟨[], rfl, toParties_nil, ?_⟩
      rw [ho, total_nil]
      exact ⟨fun h0 => absurd (by omega) hfee', fun hn => absurd ⟨by decide, by decide, Or.inl rfl⟩ hn⟩

/-- **A settlement in tokens** pays the whole value unless an answer `false` loses a payment. -/
theorem settleWithFee_pays {V : HomeVariant} (hV : V ≠ .nativeToErcWithFee)
    (hstart : s.addExecuted value = some s₁) (hfee : s₁.bridge.fees.depositFee value = some fee)
    (h : settleWithFee (answering outcome) (payment V) s recipient value = some (s₂, ok)) :
    ∃ ps, s₂ = s₁.pay ps ∧ ToParties V s₁ recipient ps ∧
      (total ps = value.toNat ↔ ¬ LosesPayment V outcome s₁ recipient value fee) := by
  rw [settleWithFee_answering hV hstart hfee] at h
  by_cases hle : value ≤ fee
  · simp only [if_pos hle, Option.map_eq_some_iff, Prod.mk.injEq] at h
    obtain ⟨s₃, hcall, rfl, _⟩ := h
    exact whole_pays hV hle hcall
  · simp only [if_neg hle, Option.bind_eq_some_iff, Option.map_eq_some_iff, Prod.mk.injEq] at h
    obtain ⟨s₃, hreceiver, s₄, hrecipient, rfl, _⟩ := h
    by_cases hzero : fee = 0
    · subst hzero
      obtain rfl : s₁ = s₃ := by simpa [whenNonzero] using hreceiver
      exact free_pays hV hle hrecipient
    · rw [whenNonzero, if_pos hzero] at hreceiver
      exact shared_pays hV hle hzero hreceiver hrecipient

/-- Lost payments stop nothing: the settlement in tokens goes through. -/
theorem settleWithFee_of_loses {V : HomeVariant} (hV : V ≠ .nativeToErcWithFee)
    (hstart : s.addExecuted value = some s₁) (hfee : s₁.bridge.fees.depositFee value = some fee)
    (hloses : LosesPayment V outcome s₁ recipient value fee) :
    ∃ s₂, settleWithFee (answering outcome) (payment V) s recipient value = some (s₂, true) := by
  have hafter : ∀ (c : ExtCall) (t : Home H Payments), outcome c t ≠ .revert →
      afterCall outcome c t = some (afterFee outcome t c) := by
    intro c t hne
    unfold afterCall afterFee
    cases ho : outcome c t with
    | success => simp
    | revert => exact absurd ho hne
    | returnsFalse => simp
  rw [settleWithFee_answering hV hstart hfee]
  unfold LosesPayment at hloses
  simp only [if_neg hV] at hloses
  by_cases hle : value ≤ fee
  · simp only [if_pos hle] at hloses ⊢
    rw [hafter _ _ (by rw [hloses.2]; decide)]
    exact ⟨_, rfl⟩
  · simp only [if_neg hle] at hloses ⊢
    by_cases hzero : fee = 0
    · subst hzero
      simp only [if_true] at hloses
      simp only [whenNonzero, ne_eq, not_true_eq_false, if_false, Option.bind_some]
      rw [hafter _ _ (by rw [hloses]; decide)]
      exact ⟨_, rfl⟩
    · simp only [if_neg hzero] at hloses
      rw [whenNonzero, if_pos hzero, hafter _ _ hloses.1, Option.bind_some]
      have hpay : payment V (afterFee outcome s₁ (payment V s₁ s₁.bridge.fees.feeReceiver fee)) =
          payment V s₁ := by
        unfold afterFee
        split
        · exact payment_pay _
        · rfl
      rw [hpay, hafter _ _ hloses.2.1]
      exact ⟨_, rfl⟩

/-! ## Settlements in coin -/

/-- The state after the fee of a native settlement was sent, or failed to be sent. -/
def afterNativeFee (outcome : ExtCall → Home H Payments → Outcome) (s₁ : Home H Payments) (fee : UInt256) :
    Home H Payments :=
  if fee ≠ 0 ∧ outcome (.send s₁.bridge.fees.feeReceiver fee) s₁ = .success then
    s₁.pay [(s₁.bridge.fees.feeReceiver, fee)]
  else s₁

theorem afterNativeFee_bridge (fee : UInt256) :
    (afterNativeFee outcome s₁ fee).bridge = s₁.bridge := by
  unfold afterNativeFee
  split <;> rfl

/-- The native settlement, as the outcomes decide. -/
theorem native_answering (hstart : s.addExecuted value = some s₁)
    (hfee : s₁.bridge.fees.depositFee value = some fee) :
    onExecuteAffirmationNative (answering outcome) s recipient value =
      if value ≤ fee then
        some (if outcome (.send s₁.bridge.fees.feeReceiver value) s₁ = .success then
          s₁.pay [(s₁.bridge.fees.feeReceiver, value)] else s₁, true)
      else if outcome (.send recipient (value - fee)) (afterNativeFee outcome s₁ fee) = .success then
        some ((afterNativeFee outcome s₁ fee).pay [(recipient, value - fee)], true)
      else if s₁.bridge.fallbackRecipient ≠ 0 ∧ outcome (.send s₁.bridge.fallbackRecipient (value - fee))
          (afterNativeFee outcome s₁ fee) = .success then
        some (((afterNativeFee outcome s₁ fee).pay [(s₁.bridge.fallbackRecipient, value - fee)]).emit
          (.RecipientRedirected recipient s₁.bridge.fallbackRecipient), true)
      else none := by
  simp only [onExecuteAffirmationNative, hstart, hfee, Option.bind_eq_bind, Option.bind_some]
  by_cases hle : value ≤ fee
  · simp only [if_pos hle, send_lowLevel]
    split <;> rfl
  · obtain ⟨hsub, hrest, _⟩ := sub_of_not_le hle
    have hfeeState : (if fee ≠ 0 then
        (tokenTransferNative (answering outcome) s₁ s₁.bridge.fees.feeReceiver fee).1 else s₁) =
          afterNativeFee outcome s₁ fee := by
      unfold afterNativeFee
      rw [send_lowLevel]
      by_cases hz : fee = 0 <;> by_cases ho : outcome (.send s₁.bridge.fees.feeReceiver fee) s₁ = .success <;>
        simp [hz, ho]
    simp only [if_neg hle, hfeeState, hsub, Option.bind_some, if_neg hrest]
    simp only [send_lowLevel, send_plain]
    by_cases ho : outcome (.send recipient (value - fee)) (afterNativeFee outcome s₁ fee) = .success
    · simp [ho]
    · simp only [if_neg ho, afterNativeFee_bridge, Bool.false_eq_true, if_false]
      by_cases hz : s₁.bridge.fallbackRecipient = 0
      · have hnone : require (s₁.bridge.fallbackRecipient ≠ 0) = none := if_neg fun hc => hc hz
        rw [hnone, if_neg fun hc : s₁.bridge.fallbackRecipient ≠ 0 ∧ _ => hc.1 hz]
        rfl
      · rw [require_pos hz, Option.bind_some]
        by_cases hf : outcome (.send s₁.bridge.fallbackRecipient (value - fee))
            (afterNativeFee outcome s₁ fee) = .success
        · rw [if_pos hf, if_pos ⟨hz, hf⟩]
          rfl
        · rw [if_neg hf, if_neg (fun hc => hf hc.2)]
          rfl

/-- The fee of a native settlement is paid, or lost without a trace. -/
theorem afterNativeFee_eq (outcome : ExtCall → Home H Payments → Outcome) (s₁ : Home H Payments)
    (recipient : Address) (fee : UInt256) :
    ∃ ps, afterNativeFee outcome s₁ fee = s₁.pay ps ∧ ToParties .nativeToErcWithFee s₁ recipient ps ∧
      ((fee ≠ 0 ∧ outcome (.send s₁.bridge.fees.feeReceiver fee) s₁ ≠ .success ∧ total ps ≠ fee.toNat ∧
          afterNativeFee outcome s₁ fee = s₁) ∨
        (¬ (fee ≠ 0 ∧ outcome (.send s₁.bridge.fees.feeReceiver fee) s₁ ≠ .success) ∧
          total ps = fee.toNat)) := by
  unfold afterNativeFee
  by_cases hz : fee = 0
  · refine ⟨[], ?_, toParties_nil, Or.inr ⟨fun hc => hc.1 hz, by simp [hz]⟩⟩
    rw [if_neg fun hc => hc.1 hz]
    rfl
  · by_cases ho : outcome (.send s₁.bridge.fees.feeReceiver fee) s₁ = .success
    · refine ⟨[(s₁.bridge.fees.feeReceiver, fee)], ?_, toParties_nil.toReceiver _,
        Or.inr ⟨fun hc => hc.2 ho, by simp⟩⟩
      rw [if_pos ⟨hz, ho⟩]
    · rw [if_neg fun hc => ho hc.2]
      exact ⟨[], rfl, toParties_nil, Or.inl ⟨hz, ho, Ne.symm (toNat_ne_zero hz), rfl⟩⟩

/-- **A settlement in coin** pays the whole value unless a failed `send` to the fee receiver is ignored. -/
theorem native_pays (hstart : s.addExecuted value = some s₁)
    (hfee : s₁.bridge.fees.depositFee value = some fee)
    (h : onExecuteAffirmationNative (answering outcome) s recipient value = some (s₂, ok)) :
    ∃ ps, Paid s₁ ps s₂ ∧ ToParties .nativeToErcWithFee s₁ recipient ps ∧
      (total ps = value.toNat ↔ ¬ LosesPayment .nativeToErcWithFee outcome s₁ recipient value fee) := by
  rw [native_answering hstart hfee] at h
  unfold LosesPayment
  simp only [if_true, payment]
  by_cases hle : value ≤ fee
  · simp only [if_pos hle, Option.some.injEq, Prod.mk.injEq] at h ⊢
    by_cases ho : outcome (.send s₁.bridge.fees.feeReceiver value) s₁ = .success
    · rw [if_pos ho] at h
      refine ⟨[(s₁.bridge.fees.feeReceiver, value)], Or.inl h.1.symm, toParties_nil.toReceiver _, ?_⟩
      rw [total_cons, total_nil]
      exact ⟨fun _ hn => hn.2 ho, fun _ => by omega⟩
    · rw [if_neg ho] at h
      refine ⟨[], Or.inl h.1.symm, toParties_nil, ?_⟩
      rw [total_nil]
      by_cases hv : value = 0
      · exact ⟨fun _ hn => hn.1 hv, fun _ => by rw [hv]; rfl⟩
      · exact ⟨fun h0 => absurd h0.symm (toNat_ne_zero hv), fun hn => absurd ⟨hv, ho⟩ hn⟩
  · obtain ⟨_, _, hsum⟩ := sub_of_not_le hle
    obtain ⟨ps, hstate, hparties, hpaid⟩ := afterNativeFee_eq outcome s₁ recipient fee
    simp only [if_neg hle] at h ⊢
    -- the rest goes to one of the two recipients; the sum is right when the fee was paid
    have hsum' : ∀ target, total ((target, value - fee) :: ps) = value.toNat ↔ total ps = fee.toNat := by
      intro target
      rw [total_cons]
      omega
    by_cases ho : outcome (.send recipient (value - fee)) (afterNativeFee outcome s₁ fee) = .success
    · rw [if_pos ho, Option.some.injEq, Prod.mk.injEq] at h
      refine ⟨(recipient, value - fee) :: ps, Or.inl ?_, hparties.toRecipient _, ?_⟩
      · rw [← h.1, hstate]
        rfl
      · rw [hsum']
        rcases hpaid with ⟨hz, hofee, hne, hsame⟩ | ⟨hnot, heq⟩
        · rw [hsame] at ho
          exact ⟨fun heq => absurd heq hne, fun hn => absurd ⟨hz, hofee, Or.inl ho⟩ hn⟩
        · exact ⟨fun _ hn => hnot ⟨hn.1, hn.2.1⟩, fun _ => heq⟩
    · rw [if_neg ho] at h
      by_cases hf : s₁.bridge.fallbackRecipient ≠ 0 ∧
          outcome (.send s₁.bridge.fallbackRecipient (value - fee)) (afterNativeFee outcome s₁ fee) = .success
      · rw [if_pos hf, Option.some.injEq, Prod.mk.injEq] at h
        refine ⟨(s₁.bridge.fallbackRecipient, value - fee) :: ps, Or.inr
          ⟨recipient, s₁.bridge.fallbackRecipient, ?_⟩, hparties.toFallback _, ?_⟩
        · rw [← h.1, hstate]
          rfl
        · rw [hsum']
          rcases hpaid with ⟨hz, hofee, hne, hsame⟩ | ⟨hnot, heq⟩
          · rw [hsame] at hf
            exact ⟨fun heq => absurd heq hne, fun hn => absurd ⟨hz, hofee, Or.inr hf⟩ hn⟩
          · exact ⟨fun _ hn => hnot ⟨hn.1, hn.2.1⟩, fun _ => heq⟩
      · rw [if_neg hf] at h
        exact absurd h (by simp)

/-- A lost fee stops nothing: the settlement in coin goes through. -/
theorem native_of_loses (hstart : s.addExecuted value = some s₁)
    (hfee : s₁.bridge.fees.depositFee value = some fee)
    (hloses : LosesPayment .nativeToErcWithFee outcome s₁ recipient value fee) :
    ∃ s₂, onExecuteAffirmationNative (answering outcome) s recipient value = some (s₂, true) := by
  rw [native_answering hstart hfee]
  unfold LosesPayment at hloses
  simp only [if_true, payment] at hloses
  by_cases hle : value ≤ fee
  · rw [if_pos hle]
    exact ⟨_, rfl⟩
  · simp only [if_neg hle] at hloses ⊢
    obtain ⟨hz, hofee, hrest⟩ := hloses
    have hsame : afterNativeFee outcome s₁ fee = s₁ := if_neg fun hc => hofee hc.2
    rw [hsame]
    by_cases ho : outcome (.send recipient (value - fee)) s₁ = .success
    · rw [if_pos ho]
      exact ⟨_, rfl⟩
    · rw [if_neg ho, if_pos (hrest.resolve_left ho)]
      exact ⟨_, rfl⟩

/-! ## Each contract -/

/-- The three token bridges with a deposit fee differ only in the call they pay by. -/
theorem onExecuteAffirmation_eq {V : HomeVariant} (hV : hasDepositWithdrawFee V)
    (hN : V ≠ .nativeToErcWithFee) (call : Callee (Home H Payments)) :
    onExecuteAffirmation V call s recipient value = settleWithFee call (payment V) s recipient value := by
  cases V with
  | ercToErc => exact absurd rfl hV
  | nativeToErcWithFee => exact absurd rfl hN
  | ercToErcWithFee => rfl
  | ercToErcWithFeeV2 => rfl
  | erc677ToErc677WithFee => rfl

/-- **What a settlement pays**, in the four contracts with a deposit fee. -/
theorem settlement_pays {V : HomeVariant} (hV : hasDepositWithdrawFee V)
    (hstart : s.addExecuted value = some s₁) (hfee : s₁.bridge.fees.depositFee value = some fee)
    (h : onExecuteAffirmation V (answering outcome) s recipient value = some (s₂, ok)) :
    ∃ ps, Paid s₁ ps s₂ ∧ ToParties V s₁ recipient ps ∧
      (total ps = value.toNat ↔ ¬ LosesPayment V outcome s₁ recipient value fee) := by
  by_cases hN : V = .nativeToErcWithFee
  · subst hN
    exact native_pays hstart hfee h
  · rw [onExecuteAffirmation_eq hV hN] at h
    obtain ⟨ps, he, hps⟩ := settleWithFee_pays hN hstart hfee h
    exact ⟨ps, Or.inl he, hps⟩

theorem settlement_of_loses {V : HomeVariant} (hV : hasDepositWithdrawFee V)
    (hstart : s.addExecuted value = some s₁) (hfee : s₁.bridge.fees.depositFee value = some fee)
    (hloses : LosesPayment V outcome s₁ recipient value fee) :
    ∃ s₂, onExecuteAffirmation V (answering outcome) s recipient value = some (s₂, true) := by
  by_cases hN : V = .nativeToErcWithFee
  · subst hN
    exact native_of_loses hstart hfee hloses
  · rw [onExecuteAffirmation_eq hV hN]
    exact settleWithFee_of_loses hN hstart hfee hloses

/-- What a settlement reads before its first payment. -/
theorem onExecuteAffirmation_start {V : HomeVariant} (hV : hasDepositWithdrawFee V)
    {call : Callee (Home H Payments)} (h : onExecuteAffirmation V call s recipient value = some (s₂, ok)) :
    ∃ s₁ fee, s.addExecuted value = some s₁ ∧ s₁.bridge.fees.depositFee value = some fee := by
  by_cases hN : V = .nativeToErcWithFee
  · subst hN
    simp only [onExecuteAffirmation, onExecuteAffirmationNative, Option.bind_eq_bind,
      Option.bind_eq_some_iff] at h
    obtain ⟨s₁, h₁, fee, hfee, _⟩ := h
    exact ⟨s₁, fee, h₁, hfee⟩
  · rw [onExecuteAffirmation_eq hV hN] at h
    simp only [settleWithFee, Option.bind_eq_bind, Option.bind_eq_some_iff] at h
    obtain ⟨s₁, h₁, fee, hfee, _⟩ := h
    exact ⟨s₁, fee, h₁, hfee⟩

end Settlements

/-! ## Affirmations -/

section Affirmations

variable [DecidableEq H] {K : CollisionFree H} {ecrecover : Ecrecover H} {V : HomeVariant}
  {outcome : ExtCall → Home H Payments → Outcome} {s₀ s s₁ s₂ : Home H Payments} {sender : Address}
  {d : Deposit} {fee : UInt256}

/-- The state of the first payment is the state before the call in everything a payment reads. -/
theorem start_frame (h : ((s.affirm K sender d).markProcessed K d).addExecuted d.2.1 = some s₁) :
    s₁.world = s.world ∧ s₁.txHash = s.txHash ∧ s₁.bridge.fees = s.bridge.fees ∧
      s₁.bridge.fallbackRecipient = s.bridge.fallbackRecipient ∧
      s₁.numAffirmationsSigned (depositHash K d) =
        markAsProcessed (s.numAffirmationsSigned (depositHash K d) + 1) := by
  have hword := affirm_markProcessed_word (K := K) s sender d
  obtain ⟨_, _, rfl⟩ := addExecuted_eq_some.mp h
  exact ⟨rfl, rfl, rfl, rfl, hword⟩

/-- A deposit completed with the payments `ps`. -/
theorem complete_spec {ps : Payments}
    (hstart : ((s.affirm K sender d).markProcessed K d).addExecuted d.2.1 = some s₁)
    (hpaid : Paid s₁ ps s₂) :
    Completed s (s₂.complete K d) d ∧ (s₂.complete K d).world = ps ++ s.world ∧
      isAlreadyProcessed ((s₂.complete K d).numAffirmationsSigned (depositHash K d)) = true := by
  obtain ⟨hworld, htx, _, _, hword⟩ := start_frame hstart
  have hprocessed : isAlreadyProcessed (s₁.numAffirmationsSigned (depositHash K d)) = true := by
    rw [hword]
    exact isAlreadyProcessed_markAsProcessed _
  rcases hpaid with rfl | ⟨source, target, rfl⟩
  · refine ⟨?_, ?_, hprocessed⟩
    · show some (s₁.txHash, HomeEvent.AffirmationCompleted d.1 d.2.1 d.2.2) = _
      rw [htx]
    · show ps ++ s₁.world = _
      rw [hworld]
  · refine ⟨?_, ?_, hprocessed⟩
    · show some (s₁.txHash, HomeEvent.AffirmationCompleted d.1 d.2.1 d.2.2) = _
      rw [htx]
    · show ps ++ s₁.world = _
      rw [hworld]

theorem toParties_start {ps : Payments}
    (hstart : ((s.affirm K sender d).markProcessed K d).addExecuted d.2.1 = some s₁)
    (h : ToParties V s₁ d.1 ps) : ToParties V s d.1 ps := by
  obtain ⟨_, _, hfees, hfallback, _⟩ := start_frame hstart
  unfold ToParties at h ⊢
  rw [hfees, hfallback] at h
  exact h

/-- **Home settlement exactness.** In every reachable state, for every affirmation and all outcomes of
    the calls: the affirmation settles exactly if and only if, when it comes to settle, no payment is
    lost by a dropped answer. -/
theorem settlement_exact_iff (hV : hasDepositWithdrawFee V) (hfresh : Fresh s₀)
    (hrun : Run K ecrecover V s₀ s) (outcome : ExtCall → Home H Payments → Outcome) (sender : Address)
    (d : Deposit) :
    SettlesExactly K V (answering outcome) s sender d ↔
      ∀ s₁ fee, Reaches K s sender d s₁ fee → ¬ LosesPayment V outcome s₁ d.1 d.2.1 fee := by
  constructor
  · intro hexact s₁ fee hreach hloses
    obtain ⟨s₂, hsettled⟩ := settlement_of_loses hV hreach.start hreach.depositFee hloses
    obtain ⟨ps, hpaid, _, htotal⟩ := settlement_pays hV hreach.start hreach.depositFee hsettled
    obtain ⟨hcompleted, hworld, _⟩ := complete_spec hreach.start hpaid
    have hcall := executeAffirmation_of_settled hreach.validator hreach.limit hreach.unsigned
      hreach.unprocessed hreach.enough hsettled
    obtain ⟨ps', hworld', _, htotal'⟩ := ((hexact _ hcall).1 hcompleted).2
    have hps : ps' = ps := List.append_cancel_right (hworld'.symm.trans hworld)
    exact htotal.mp (hps ▸ htotal') hloses
  · intro hcond s' h
    obtain ⟨hval, haff⟩ := executeAffirmation_cases d h
    cases haff with
    | recorded _ h =>
        obtain ⟨_, _, _, rfl⟩ := onFailedAffirmation_cases h
        refine ⟨?_, fun _ => ⟨rfl, rfl⟩⟩
        intro hc
        have := (Prod.mk.inj (Option.some.inj hc)).2
        exact absurd this (by simp)
    | signed _ _ hopen _ =>
        refine ⟨?_, fun _ => ⟨rfl, ?_⟩⟩
        · intro hc
          have := (Prod.mk.inj (Option.some.inj hc)).2
          exact absurd this (by simp)
        · rw [affirm_numAffirmationsSigned, if_pos rfl, hopen]
          exact (signedCount_succ hopen ((run_threshold hfresh hrun).count_lt _)).1
    | @settled s₂ hlimit hunsigned hopen henough hsettled =>
        obtain ⟨s₁, fee, hstart, hfee⟩ := onExecuteAffirmation_start hV hsettled
        obtain ⟨ps, hpaid, hparties, htotal⟩ := settlement_pays hV hstart hfee hsettled
        obtain ⟨hcompleted, hworld, hprocessed⟩ := complete_spec hstart hpaid
        refine ⟨fun _ => ⟨hprocessed, ps, hworld, toParties_start hstart hparties, ?_⟩,
          fun hn => absurd hcompleted hn⟩
        exact htotal.mpr (hcond s₁ fee ⟨hval, hlimit, hunsigned, hopen, henough, hstart, hfee⟩)

end Affirmations

instance [DecidableEq H] (s s' : Home H Payments) (d : Deposit) : Decidable (Completed s s' d) :=
  inferInstanceAs (Decidable (s'.bridge.log.head? = some (s.txHash, .AffirmationCompleted d.1 d.2.1 d.2.2)))

/-- With a minter that moves every amount, the deposit of 100 is completed and paid. -/
theorem settlement_exact_paid :
    ∃ s s' : Home (List Byte) Payments,
      Run serialHash noSigner .ercToErcWithFeeV2 (sampleHome []) s ∧
      executeAffirmation serialHash .ercToErcWithFeeV2 (answering fun _ _ => .success) s 1 33 100 77 =
        some s' ∧
      Completed s s' (33, 100, 77) ∧ ReceivedExactly .ercToErcWithFeeV2 s s' (33, 100, 77) := by
  have heval : (do
      let v ← BridgeValidators.blank.initializeWith 1 [1] 9
      let s : Home (List Byte) Payments := { sampleHome [] with validators := v }
      let s' ← executeAffirmation serialHash .ercToErcWithFeeV2 (answering fun _ _ => .success) s 1 33 100 77
      require (Completed s s' (33, 100, 77))) = some () := by
    decide +kernel
  simp only [Option.bind_eq_bind, Option.bind_eq_some_iff, require_eq_some] at heval
  obtain ⟨v, hv, s', hcall, hcompleted⟩ := heval
  have hrun : Run serialHash noSigner .ercToErcWithFeeV2 (sampleHome [])
      { sampleHome ([] : Payments) with validators := v } :=
    Relation.ReflTransGen.single (.validators ⟨.initializeWith 1 [1] 9, hv⟩)
  have hexact := (settlement_exact_iff (by decide) (deploy_fresh ..) hrun (fun _ _ => .success) 1
    (33, 100, 77)).mpr fun s₁ fee _ hloses => by
      unfold LosesPayment at hloses
      simp at hloses
  exact ⟨_, s', hrun, hcall, hcompleted, ((hexact s' hcall).1 hcompleted).2⟩

/-- **Completed without payment.** The minter answers `false`, as `MinterBurnerProxy` does when its token
    does; the deposit of 100 is marked processed and completed, and nobody received anything. -/
theorem completed_without_payment :
    ¬ ∀ (s₀ s : Home (List Byte) Payments) (outcome : ExtCall → Home (List Byte) Payments → Outcome)
        (sender : Address) (d : Deposit), Fresh s₀ → Run serialHash noSigner .ercToErcWithFeeV2 s₀ s →
        SettlesExactly serialHash .ercToErcWithFeeV2 (answering outcome) s sender d := by
  have heval : (do
      let v ← BridgeValidators.blank.initializeWith 1 [1] 9
      let s : Home (List Byte) Payments := { sampleHome [] with validators := v }
      let s' ← executeAffirmation serialHash .ercToErcWithFeeV2 (answering fun _ _ => .returnsFalse) s
        1 33 100 77
      require (Completed s s' (33, 100, 77) ∧ s'.world = [])) = some () := by
    decide +kernel
  simp only [Option.bind_eq_bind, Option.bind_eq_some_iff, require_eq_some] at heval
  obtain ⟨v, hv, s', hcall, hcompleted, hworld⟩ := heval
  intro hclaim
  have hrun : Run serialHash noSigner .ercToErcWithFeeV2 (sampleHome [])
      { sampleHome ([] : Payments) with validators := v } :=
    Relation.ReflTransGen.single (.validators ⟨.initializeWith 1 [1] 9, hv⟩)
  have hexact := hclaim _ _ (fun _ _ => .returnsFalse) 1 (33, 100, 77) (deploy_fresh ..) hrun
  obtain ⟨ps, hps, _, htotal⟩ := ((hexact s' hcall).1 hcompleted).2
  rw [hworld] at hps
  have hnil : ps = [] := (List.append_eq_nil_iff.mp hps.symm).1
  rw [hnil, total_nil] at htotal
  exact absurd htotal (by decide)

end Home
end ThunderBridge
