import ThunderBridge.Contracts.FeeSplit

/-!
# `HomeBridge.FeeArithmetic` — the deposit and withdrawal fee

`DepositWithdrawFeeManager` charges the larger of a fixed fee and a percentage of the value. The guard of a
withdrawal looks at the fixed fee only; a percentage below 10000 leaves something of every value, so the larger of
the two stays below the value as well (`feeOf_lt`), and what is left grows with the value (`feeOf_step`: one more
costs at most one more).

* Withdrawals: the fee is paid, the rest released and requested; the subtraction cannot fail.
* Deposits: the fee receiver is sent the fee, at most the value, and the recipient the rest. `directs` says which
  calls are made, whatever they do; `deposit_pays` what they pay when no payment is lost by a dropped answer.

In coin the recipient may refuse, and then the fallback recipient is paid (`rest_redirected`).
-/

namespace ThunderBridge

/-! ## The fee as a number -/

/-- The larger of a fixed fee and a floored percentage. -/
def feeOf (minFee feePercent value : Nat) : Nat := max minFee (value * feePercent / 10000)

section Numbers

variable {minFee feePercent v w : Nat}

theorem feeOf_lt (hpercent : feePercent < 10000) (h : minFee < v) : feeOf minFee feePercent v < v := by
  have hpercentage : v * feePercent / 10000 < v := by
    apply Nat.div_lt_of_lt_mul
    rw [Nat.mul_comm 10000 v]
    exact Nat.mul_lt_mul_of_pos_left hpercent (Nat.zero_lt_of_lt h)
  exact Nat.max_lt.mpr ⟨h, hpercentage⟩

/-- A larger value pays at most what it is larger by. -/
theorem feeOf_step (minFee : Nat) (hpercent : feePercent < 10000) (h : v ≤ w) :
    feeOf minFee feePercent w ≤ feeOf minFee feePercent v + (w - v) := by
  have hpercentage : w * feePercent / 10000 ≤ v * feePercent / 10000 + (w - v) := by
    calc w * feePercent / 10000 = (v * feePercent + (w - v) * feePercent) / 10000 := by
          rw [← Nat.add_mul, Nat.add_sub_cancel' h]
      _ ≤ (v * feePercent + (w - v) * 10000) / 10000 :=
          Nat.div_le_div_right (Nat.add_le_add_left (Nat.mul_le_mul_left _ hpercent.le) _)
      _ = v * feePercent / 10000 + (w - v) := Nat.add_mul_div_right _ _ (by decide)
  unfold feeOf
  omega

/-- **What is left grows with the value**, also across the point where the percentage overtakes the fixed fee. -/
theorem net_mono (minFee : Nat) (hpercent : feePercent < 10000) (h : v ≤ w) :
    v - feeOf minFee feePercent v ≤ w - feeOf minFee feePercent w := by
  have hstep := feeOf_step minFee hpercent h
  omega

end Numbers

theorem maxFee_of_lt (minFee : UInt256) {feePercent value : UInt256} (h : value.toNat * feePercent.toNat < 2 ^ 256) :
    ∃ fee, maxFee minFee feePercent value = some fee ∧
      fee.toNat = feeOf minFee.toNat feePercent.toNat value.toNat := by
  obtain ⟨percentage, hpercentage, hvalue⟩ := percentageFee_of_lt h
  refine ⟨if percentage < minFee then minFee else percentage, ?_, ?_⟩
  · unfold maxFee
    rw [hpercentage]
    rfl
  · unfold feeOf
    rw [← hvalue]
    split
    · rename_i hlt
      rw [BitVec.lt_def] at hlt
      exact (Nat.max_eq_left hlt.le).symm
    · rename_i hle
      rw [BitVec.lt_def] at hle
      exact (Nat.max_eq_right (Nat.not_lt.mp hle)).symm

/-- A fee that was computed did not overflow. -/
theorem maxFee_eq_some {minFee feePercent value fee : UInt256} (h : maxFee minFee feePercent value = some fee) :
    value.toNat * feePercent.toNat < 2 ^ 256 ∧
      fee.toNat = feeOf minFee.toNat feePercent.toNat value.toNat := by
  have hproduct : value.toNat * feePercent.toNat < 2 ^ 256 := by
    simp only [maxFee, percentageFee, Option.bind_eq_bind, Option.bind_eq_some_iff] at h
    obtain ⟨_, ⟨product, hmul, _⟩, _⟩ := h
    rw [← SafeMath.mul_eq_some.mp hmul]
    exact product.isLt
  obtain ⟨fee', hfee', hvalue⟩ := maxFee_of_lt minFee hproduct
  obtain rfl := Option.some.inj (h.symm.trans hfee')
  exact ⟨hproduct, hvalue⟩

namespace Home

variable {H W : Type}

/-! ## Withdrawals -/

/-- What a withdrawal of `value` is divided into. -/
structure NetOfFee (fixedFee feePercent value fee net : UInt256) : Prop where
  fee_eq : fee.toNat = feeOf fixedFee.toNat feePercent.toNat value.toNat
  fee_lt : fee.toNat < value.toNat
  net_pos : 0 < net.toNat
  exact : fee.toNat + net.toNat = value.toNat

/-- **The subtraction cannot fail**: past the guard the fee leaves something. -/
theorem netOfFee_exists (f : DepositWithdrawFeeManager) {value : UInt256} (hguard : f.withdrawFixedFee < value)
    (hpercent : f.withdrawFeePercent.toNat < 10000)
    (hproduct : value.toNat * f.withdrawFeePercent.toNat < 2 ^ 256) :
    ∃ fee net, f.withdrawFee value = some fee ∧ SafeMath.sub value fee = some net ∧
      NetOfFee f.withdrawFixedFee f.withdrawFeePercent value fee net := by
  rw [BitVec.lt_def] at hguard
  obtain ⟨fee, hfee, hvalue⟩ := maxFee_of_lt f.withdrawFixedFee hproduct
  have hlt : fee.toNat < value.toNat := hvalue ▸ feeOf_lt hpercent hguard
  obtain ⟨net, hnet, hsum⟩ := SafeMath.sub_of_le hlt.le
  exact ⟨fee, net, hfee, hnet, hvalue, hlt, by omega, by omega⟩

/-- A withdrawal charged with its fee: `payFee` the fee, count and `release` the net amount, and request it. -/
def WithdrawsNet (payFee release : Home H W → UInt256 → Option (Home H W)) (s : Home H W) (source : Address)
    (value : UInt256) (s' : Home H W) : Prop :=
  ∃ fee net s₁ s₂ s₃,
    NetOfFee s.bridge.fees.withdrawFixedFee s.bridge.fees.withdrawFeePercent value fee net ∧
    whenNonzero fee (fun s => payFee s fee) s = some s₁ ∧ s₁.addSpent net = some s₂ ∧ release s₂ net = some s₃ ∧
    s' = s₃.emit (.UserRequestForSignature source net)

section Withdrawals

variable {call : Callee (Home H W)} {s s' : Home H W} {sender source : Address} {value : UInt256}

theorem withdrawWithFee_net {payFee release : Home H W → UInt256 → Option (Home H W)}
    (hpercent : s.bridge.fees.withdrawFeePercent.toNat < 10000)
    (h : withdrawWithFee payFee release s source value = some s') : WithdrawsNet payFee release s source value s' := by
  simp only [withdrawWithFee, Option.bind_eq_bind, Option.bind_eq_some_iff, require_eq_some, exists_const,
    Option.pure_def, Option.some.injEq] at h
  obtain ⟨_, _, _, hguard, fee', hfee', s₁, h₁, net', hnet', s₂, h₂, s₃, h₃, rfl⟩ := h
  obtain ⟨fee, net, hfee, hnet, hamounts⟩ :=
    netOfFee_exists s.bridge.fees hguard hpercent (maxFee_eq_some hfee').1
  obtain rfl := Option.some.inj (hfee.symm.trans hfee')
  obtain rfl := Option.some.inj (hnet.symm.trans hnet')
  exact ⟨fee, net, s₁, s₂, s₃, hamounts, h₁, h₂, h₃, rfl⟩

theorem onTokenTransfer_net {V : HomeVariant} (hV : hasDepositWithdrawFee V)
    (hpercent : s.bridge.fees.withdrawFeePercent.toNat < 10000)
    (h : onTokenTransfer V call s sender source value = some s') :
    WithdrawsNet (payFeeInToken call) (release V call) s source value s' := by
  cases V with
  | ercToErc => exact absurd rfl hV
  | ercToErcWithFee | nativeToErcWithFee =>
      simp only [onTokenTransfer, onTokenTransferWithFee, Option.bind_eq_bind, Option.bind_eq_some_iff,
        require_eq_some, exists_const] at h
      exact withdrawWithFee_net hpercent h.2
  | ercToErcWithFeeV2 =>
      simp only [onTokenTransfer, onTokenTransferWithFeeV2, Option.bind_eq_bind, Option.bind_eq_some_iff,
        require_eq_some, exists_const] at h
      exact withdrawWithFee_net hpercent h.2
  | erc677ToErc677WithFee =>
      simp only [onTokenTransfer, onTokenTransferErc677, Option.bind_eq_bind, Option.bind_eq_some_iff,
        require_eq_some, exists_const] at h
      exact withdrawWithFee_net hpercent h.2

theorem transferAndCall_net {target : Address} {msgValue : UInt256}
    (hpercent : s.bridge.fees.withdrawFeePercent.toNat < 10000)
    (h : transferAndCall call s sender target value msgValue = some s') :
    WithdrawsNet (payFeeInCoin call) (fun s _ => some s) s sender value s' := by
  simp only [transferAndCall, Option.bind_eq_bind, Option.bind_eq_some_iff, require_eq_some, exists_const] at h
  exact withdrawWithFee_net hpercent h.2.2

end Withdrawals

/-! ## What a deposit is divided into -/

/-- What the fee takes of the value. -/
def feePart (value fee : UInt256) : UInt256 := if value ≤ fee then value else fee

theorem feePart_toNat (value fee : UInt256) : (feePart value fee).toNat = min value.toNat fee.toNat := by
  unfold feePart
  split
  · rename_i hle
    exact (Nat.min_eq_left (BitVec.le_def.mp hle)).symm
  · rename_i hlt
    rw [BitVec.le_def] at hlt
    exact (Nat.min_eq_right (Nat.le_of_not_le hlt)).symm

theorem rest_toNat (value fee : UInt256) :
    (value - feePart value fee).toNat = value.toNat - min value.toNat fee.toNat := by
  have hle : feePart value fee ≤ value := by
    rw [BitVec.le_def, feePart_toNat]
    exact Nat.min_le_left _ _
  rw [BitVec.toNat_sub_of_le hle, feePart_toNat]

/-- The payments of something. -/
def nonzero (ps : Payments) : Payments := ps.filter fun p => p.2 ≠ 0

/-- The payments of a deposit, in the order in which they are made. -/
def depositPayments (receiver recipient : Address) (value fee : UInt256) : Payments :=
  if value ≤ fee then [(receiver, value)]
  else (if fee = 0 then [] else [(receiver, fee)]) ++ [(recipient, value - fee)]

section Payments

variable {receiver recipient : Address} {value fee : UInt256} {ps qs : Payments}

theorem nonzero_cons (p : Address × UInt256) (ps : Payments) :
    nonzero (p :: ps) = if p.2 = 0 then nonzero ps else p :: nonzero ps := by
  unfold nonzero
  rw [List.filter_cons]
  by_cases h : p.2 = 0
  · rw [if_pos h, if_neg (by simp [h])]
  · rw [if_neg h, if_pos (by simpa using h)]

/-- Leaving out payments of nothing, they are the part of the fee and the rest. -/
theorem nonzero_depositPayments :
    nonzero (depositPayments receiver recipient value fee) =
      nonzero [(receiver, feePart value fee), (recipient, value - feePart value fee)] := by
  unfold depositPayments feePart
  by_cases hle : value ≤ fee
  · have hrest : value - value = 0 := BitVec.sub_self value
    rw [if_pos hle, if_pos hle, nonzero_cons, nonzero_cons _ [_], nonzero_cons (recipient, value - value),
      if_pos hrest]
  · rw [if_neg hle, if_neg hle]
    by_cases hfee : fee = 0
    · rw [if_pos hfee, List.nil_append, nonzero_cons _ [_], if_pos hfee]
    · rw [if_neg hfee, List.singleton_append]

theorem total_depositPayments : total (depositPayments receiver recipient value fee) = value.toNat := by
  unfold depositPayments
  by_cases hle : value ≤ fee
  · rw [if_pos hle, total_cons, total_nil, Nat.add_zero]
  · obtain ⟨_, _, hsum⟩ := sub_of_not_le hle
    rw [if_neg hle, total_append]
    by_cases hfee : fee = 0
    · have hzero : fee.toNat = 0 := congrArg BitVec.toNat hfee
      rw [if_pos hfee, total_nil, total_cons, total_nil]
      omega
    · rw [if_neg hfee, total_cons, total_cons, total_nil]
      omega

theorem nonzero_reverse (ps : Payments) : nonzero ps.reverse = (nonzero ps).reverse := List.filter_reverse

theorem total_reverse (ps : Payments) : total ps.reverse = total ps := by
  unfold total
  rw [List.map_reverse, List.sum_reverse]

theorem total_le_of_sublist (h : ps.Sublist qs) : total ps ≤ total qs := by
  induction h with
  | slnil => exact Nat.le_refl _
  | cons p _ ih =>
      rw [total_cons]
      omega
  | cons_cons p _ ih =>
      rw [total_cons, total_cons]
      omega

/-- What is left out of a list without changing its sum is nothing. -/
theorem nonzero_eq_of_sublist (h : ps.Sublist qs) (htotal : total ps = total qs) : nonzero ps = nonzero qs := by
  induction h with
  | slnil => rfl
  | @cons ps qs p hsub ih =>
      have hle := total_le_of_sublist hsub
      rw [total_cons] at htotal
      have hzero : p.2 = 0 := BitVec.eq_of_toNat_eq (by
        show p.2.toNat = 0
        omega)
      rw [nonzero_cons, if_pos hzero]
      exact ih (by omega)
  | cons_cons p _ ih =>
      rw [total_cons, total_cons] at htotal
      rw [nonzero_cons, nonzero_cons, ih (by omega)]

end Payments

/-! ## The calls of a deposit -/

section Calls

variable {call : Callee (Home H Payments)} {s s₁ : Home H Payments} {recipient : Address} {value fee : UInt256}

/-- Makes each of the payments in the way of the contract, whatever the token answers. -/
def payAll (call : Callee (Home H Payments)) (V : HomeVariant) :
    Payments → Home H Payments → Option (Home H Payments)
  | [], s => some s
  | (a, amount) :: ps, s => do
      let s ← call.unchecked (payment V s a amount) s
      payAll call V ps s

theorem payAll_singleton (V : HomeVariant) (a : Address) (amount : UInt256) :
    payAll call V [(a, amount)] s = call.unchecked (payment V s a amount) s := by
  simp only [payAll, Option.bind_eq_bind]
  exact Option.bind_fun_some _

/-- A token bridge makes the payments of the deposit and no other call. -/
theorem settleWithFee_directs {V : HomeVariant} (hstart : s.addExecuted value = some s₁)
    (hfee : s₁.bridge.fees.depositFee value = some fee) :
    settleWithFee call (payment V) s recipient value =
      (payAll call V (depositPayments s₁.bridge.fees.feeReceiver recipient value fee) s₁).map (·, true) := by
  simp only [settleWithFee, hstart, hfee, Option.bind_eq_bind, Option.bind_some, Option.pure_def]
  unfold depositPayments
  by_cases hle : value ≤ fee
  · rw [if_pos hle, if_pos hle, payAll_singleton, Option.map_eq_bind]
    rfl
  · obtain ⟨hsub, hrest, _⟩ := sub_of_not_le hle
    rw [if_neg hle, if_neg hle, hsub]
    simp only [Option.bind_some, whenNonzero, if_pos hrest]
    by_cases hzero : fee = 0
    · rw [if_neg (not_not_intro hzero), if_pos hzero, List.nil_append, payAll_singleton, Option.bind_some,
        Option.map_eq_bind]
      rfl
    · rw [if_pos hzero, if_neg hzero, List.singleton_append, payAll]
      simp only [payAll_singleton, Option.bind_eq_bind, Option.map_eq_bind, Option.bind_assoc]
      rfl

/-- Sends the rest in coin: to the recipient, and if the recipient refuses it to the fallback recipient. -/
def sendRest (call : Callee (Home H Payments)) (s : Home H Payments) (recipient : Address) (rest : UInt256) :
    Option (Home H Payments × Bool) := do
  let (s, sent) := tokenTransferNative call s recipient rest
  if sent then pure (s, true)
  else do
    let fallbackRecipient := s.bridge.fallbackRecipient
    require (fallbackRecipient ≠ 0)
    let s ← call.plain (.send fallbackRecipient rest) s
    pure (s.emit (.RecipientRedirected recipient fallbackRecipient), true)

/-- The native bridge sends the part of the fee, whatever comes of it, and then the rest. -/
def sendDeposit (call : Callee (Home H Payments)) (s₁ : Home H Payments) (recipient : Address)
    (value fee : UInt256) : Option (Home H Payments × Bool) :=
  let part := feePart value fee
  let s₂ := if part = 0 ∧ value ≠ 0 then s₁ else (tokenTransferNative call s₁ s₁.bridge.fees.feeReceiver part).1
  if value - part = 0 then some (s₂, true) else sendRest call s₂ recipient (value - part)

theorem onExecuteAffirmationNative_directs (hstart : s.addExecuted value = some s₁)
    (hfee : s₁.bridge.fees.depositFee value = some fee) :
    onExecuteAffirmationNative call s recipient value = sendDeposit call s₁ recipient value fee := by
  simp only [onExecuteAffirmationNative, hstart, hfee, Option.bind_eq_bind, Option.bind_some, Option.pure_def]
  unfold sendDeposit feePart
  by_cases hle : value ≤ fee
  · have hrest : value - value = 0 := BitVec.sub_self value
    simp only [if_pos hle, if_pos hrest]
    rw [if_neg fun h => h.2 h.1]
  · obtain ⟨hsub, hrest, _⟩ := sub_of_not_le hle
    have hvalue : value ≠ 0 := fun h0 => hle (BitVec.le_def.mpr (h0 ▸ Nat.zero_le _))
    simp only [if_neg hle, hsub, Option.bind_some, if_neg hrest, sendRest]
    by_cases hzero : fee = 0
    · simp only [hzero, ne_eq, not_true_eq_false, if_false, hvalue, not_false_eq_true, and_self, if_true]
      rfl
    · simp only [hzero, ne_eq, not_false_eq_true, if_true, false_and, if_false]
      rfl

/-- What a contract with a deposit fee does with a value: count it, and make its payments. -/
def Directs (V : HomeVariant) (s : Home H Payments) (recipient : Address) (value : UInt256) : Prop :=
  ∃ s₁ fee, s.addExecuted value = some s₁ ∧
    fee.toNat = feeOf s.bridge.fees.depositFixedFee.toNat s.bridge.fees.depositFeePercent.toNat value.toNat ∧
    ∀ call, onExecuteAffirmation V call s recipient value =
      if V = .nativeToErcWithFee then sendDeposit call s₁ recipient value fee
      else (payAll call V (depositPayments s₁.bridge.fees.feeReceiver recipient value fee) s₁).map (·, true)

/-- **No operation of a settlement can fail**, and these are its calls. -/
theorem directs {V : HomeVariant} (hV : hasDepositWithdrawFee V)
    (hlimit : s.bridge.basic.withinExecutionLimit s.getCurrentDay value = some true)
    (hproduct : value.toNat * s.bridge.fees.depositFeePercent.toNat < 2 ^ 256) : Directs V s recipient value := by
  simp only [BasicBridge.withinExecutionLimit, Option.bind_eq_bind, Option.bind_eq_some_iff] at hlimit
  obtain ⟨total, htotal, _⟩ := hlimit
  have hstart := addExecuted_eq_some.mpr ⟨total, htotal, rfl⟩
  generalize hs₁ : s.setBasic (s.bridge.basic.setTotalExecutedPerDay s.getCurrentDay total) = s₁ at hstart
  have hfees : s₁.bridge.fees = s.bridge.fees := hs₁ ▸ rfl
  obtain ⟨fee, hfee, hvalue⟩ := maxFee_of_lt s.bridge.fees.depositFixedFee hproduct
  have hfee' : s₁.bridge.fees.depositFee value = some fee := hfees ▸ hfee
  refine ⟨s₁, fee, hstart, hvalue, ?_⟩
  intro call
  by_cases hN : V = .nativeToErcWithFee
  · rw [if_pos hN, hN]
    exact onExecuteAffirmationNative_directs hstart hfee'
  · rw [if_neg hN, onExecuteAffirmation_eq hV hN]
    exact settleWithFee_directs hstart hfee'

end Calls

/-! ## What the calls pay -/

section Paying

variable {outcome : ExtCall → Home H Payments → Outcome} {s s₁ s₂ : Home H Payments} {recipient : Address}
  {value fee : UInt256} {ok : Bool} {V : HomeVariant}

/-- Some of the payments may be lost, no other is made. -/
theorem payAll_pays (hV : V ≠ .nativeToErcWithFee) (qs : Payments) : ∀ s₁ : Home H Payments,
    payAll (answering outcome) V qs s₁ = some s₂ → ∃ ps, s₂ = s₁.pay ps ∧ ps.Sublist qs.reverse := by
  induction qs with
  | nil =>
      intro s₁ h
      obtain rfl := Option.some.inj h
      exact ⟨[], rfl, .slnil⟩
  | cons q qs ih =>
      intro s₁ h
      obtain ⟨a, amount⟩ := q
      simp only [payAll, unchecked_answering (payment_isSend hV _ _), Option.bind_eq_bind,
        Option.bind_eq_some_iff] at h
      obtain ⟨t, hcall, hrest⟩ := h
      obtain ⟨ps, rfl, hsub⟩ := ih t hrest
      rw [List.reverse_cons]
      rcases afterCall_eq_some.mp hcall with ⟨_, rfl⟩ | ⟨_, rfl⟩
      · refine ⟨ps ++ [(a, amount)], ?_, hsub.append (.refl _)⟩
        simp [pay]
      · exact ⟨ps, rfl, hsub.trans (List.sublist_append_left _ _)⟩

/-- Who gets the rest: in coin the fallback recipient, when the recipient refuses it. -/
def restTarget (V : HomeVariant) (outcome : ExtCall → Home H Payments → Outcome) (s₁ : Home H Payments)
    (recipient : Address) (value fee : UInt256) : Address :=
  if V = .nativeToErcWithFee ∧ outcome (.send recipient (value - fee)) (afterNativeFee outcome s₁ fee) ≠ .success
  then s₁.bridge.fallbackRecipient else recipient

theorem afterNativeFee_pays (outcome : ExtCall → Home H Payments → Outcome) (s₁ : Home H Payments) (fee : UInt256) :
    ∃ ps, afterNativeFee outcome s₁ fee = s₁.pay ps ∧
      ps.Sublist (if fee = 0 then [] else [(s₁.bridge.fees.feeReceiver, fee)]) := by
  unfold afterNativeFee
  by_cases hzero : fee = 0
  · rw [if_neg fun h => h.1 hzero, if_pos hzero]
    exact ⟨[], rfl, .slnil⟩
  · rw [if_neg hzero]
    by_cases ho : outcome (.send s₁.bridge.fees.feeReceiver fee) s₁ = .success
    · rw [if_pos ⟨hzero, ho⟩]
      exact ⟨_, rfl, .refl _⟩
    · rw [if_neg fun h => ho h.2]
      exact ⟨[], rfl, List.nil_sublist _⟩

theorem native_sublist (hstart : s.addExecuted value = some s₁)
    (hfee : s₁.bridge.fees.depositFee value = some fee)
    (h : onExecuteAffirmationNative (answering outcome) s recipient value = some (s₂, ok)) :
    ∃ ps, Paid s₁ ps s₂ ∧ ps.Sublist (depositPayments s₁.bridge.fees.feeReceiver
      (restTarget .nativeToErcWithFee outcome s₁ recipient value fee) value fee).reverse := by
  rw [native_answering hstart hfee] at h
  unfold depositPayments restTarget
  by_cases hle : value ≤ fee
  · rw [if_pos hle] at h ⊢
    simp only [Option.some.injEq, Prod.mk.injEq] at h
    obtain ⟨rfl, _⟩ := h
    split
    · exact ⟨_, Or.inl rfl, .refl _⟩
    · exact ⟨[], Or.inl rfl, List.nil_sublist _⟩
  · obtain ⟨ps, hstate, hsub⟩ := afterNativeFee_pays outcome s₁ fee
    rw [if_neg hle] at h ⊢
    rw [List.reverse_append, List.reverse_singleton, List.singleton_append]
    have hreverse : ps.Sublist (if fee = 0 then [] else [(s₁.bridge.fees.feeReceiver, fee)]).reverse := by
      by_cases hzero : fee = 0
      · rwa [if_pos hzero] at hsub ⊢
      · rwa [if_neg hzero] at hsub ⊢
    by_cases ho : outcome (.send recipient (value - fee)) (afterNativeFee outcome s₁ fee) = .success
    · rw [if_pos ho, Option.some.injEq, Prod.mk.injEq] at h
      rw [if_neg fun hc => hc.2 ho]
      refine ⟨(recipient, value - fee) :: ps, Or.inl ?_, hreverse.cons_cons _⟩
      rw [← h.1, hstate]
      rfl
    · rw [if_neg ho] at h
      rw [if_pos ⟨rfl, ho⟩]
      split at h
      · rw [Option.some.injEq, Prod.mk.injEq] at h
        refine ⟨(s₁.bridge.fallbackRecipient, value - fee) :: ps, Or.inr ⟨recipient, s₁.bridge.fallbackRecipient, ?_⟩,
          hreverse.cons_cons _⟩
        rw [← h.1, hstate]
        rfl
      · exact absurd h (by simp)

/-- A settlement makes payments of its deposit, and no others. -/
theorem settlement_sublist (hV : hasDepositWithdrawFee V) (hstart : s.addExecuted value = some s₁)
    (hfee : s₁.bridge.fees.depositFee value = some fee)
    (h : onExecuteAffirmation V (answering outcome) s recipient value = some (s₂, ok)) :
    ∃ ps, Paid s₁ ps s₂ ∧ ps.Sublist (depositPayments s₁.bridge.fees.feeReceiver
      (restTarget V outcome s₁ recipient value fee) value fee).reverse := by
  by_cases hN : V = .nativeToErcWithFee
  · subst hN
    exact native_sublist hstart hfee h
  · rw [onExecuteAffirmation_eq hV hN, settleWithFee_directs hstart hfee, Option.map_eq_some_iff] at h
    obtain ⟨t, hpaid, he⟩ := h
    obtain ⟨rfl, _⟩ := Prod.mk.inj he
    obtain ⟨ps, hps, hsub⟩ := payAll_pays hN _ s₁ hpaid
    rw [restTarget, if_neg fun hc => hN hc.1]
    exact ⟨ps, Or.inl hps, hsub⟩

theorem Paid.world {ps : Payments} (h : Paid s₁ ps s₂) : s₂.world = ps ++ s₁.world := by
  rcases h with rfl | ⟨_, _, rfl⟩
  · rfl
  · rfl

/-- When none is lost it makes all of them. -/
theorem settlement_pays_all (hV : hasDepositWithdrawFee V) (hstart : s.addExecuted value = some s₁)
    (hfee : s₁.bridge.fees.depositFee value = some fee)
    (h : onExecuteAffirmation V (answering outcome) s recipient value = some (s₂, ok))
    (hkept : ¬ LosesPayment V outcome s₁ recipient value fee) :
    ∃ ps, Paid s₁ ps s₂ ∧ nonzero ps = nonzero (depositPayments s₁.bridge.fees.feeReceiver
      (restTarget V outcome s₁ recipient value fee) value fee).reverse := by
  obtain ⟨ps, hpaid, hsub⟩ := settlement_sublist hV hstart hfee h
  obtain ⟨ps', hpaid', _, htotal⟩ := settlement_pays hV hstart hfee h
  have hsame : ps' = ps := List.append_cancel_right (hpaid'.world.symm.trans hpaid.world)
  refine ⟨ps, hpaid, nonzero_eq_of_sublist hsub ?_⟩
  rw [total_reverse, total_depositPayments, ← hsame]
  exact htotal.mpr hkept

end Paying

/-! ## Executed deposits -/

section Executed

variable [DecidableEq H] {K : CollisionFree H} {outcome : ExtCall → Home H Payments → Outcome}
  {s s' : Home H Payments} {sender : Address} {d : Deposit} {V : HomeVariant}

/-- Between the two states the fee receiver got the part of the fee, and `target` the rest. -/
def PaysShares (s s' : Home H Payments) (target : Address) (value fee : UInt256) : Prop :=
  ∃ ps, s'.world = ps ++ s.world ∧
    nonzero ps = nonzero [(target, value - feePart value fee), (s.bridge.fees.feeReceiver, feePart value fee)]

/-- **An executed deposit** pays the part of the fee and the rest, when no payment is lost by a dropped answer. -/
theorem deposit_pays (hV : hasDepositWithdrawFee V)
    (h : executeAffirmation K V (answering outcome) s sender d.1 d.2.1 d.2.2 = some s') (hdone : Completed s s' d) :
    ∃ s₁ fee, Reaches K s sender d s₁ fee ∧
      fee.toNat = feeOf s.bridge.fees.depositFixedFee.toNat s.bridge.fees.depositFeePercent.toNat d.2.1.toNat ∧
      (¬ LosesPayment V outcome s₁ d.1 d.2.1 fee →
        PaysShares s s' (restTarget V outcome s₁ d.1 d.2.1 fee) d.2.1 fee) := by
  obtain ⟨hval, haff⟩ := executeAffirmation_cases d h
  cases haff with
  | recorded _ h =>
      obtain ⟨_, _, _, rfl⟩ := onFailedAffirmation_cases h
      have he := (Prod.mk.inj (Option.some.inj hdone)).2
      exact absurd he (by simp)
  | signed _ _ _ _ =>
      have he := (Prod.mk.inj (Option.some.inj hdone)).2
      exact absurd he (by simp)
  | @settled s₂ hlimit hunsigned hopen henough hsettled =>
      obtain ⟨s₁, fee, hstart, hfee⟩ := onExecuteAffirmation_start hV hsettled
      obtain ⟨_, _, hfees, _, _⟩ := start_frame hstart
      refine ⟨s₁, fee, ⟨hval, hlimit, hunsigned, hopen, henough, hstart, hfee⟩, ?_, ?_⟩
      · rw [hfees] at hfee
        exact (maxFee_eq_some hfee).2
      · intro hkept
        obtain ⟨ps, hpaid, hpayments⟩ := settlement_pays_all hV hstart hfee hsettled hkept
        obtain ⟨_, hworld, _⟩ := complete_spec hstart hpaid
        refine ⟨ps, hworld, ?_⟩
        rw [hpayments, nonzero_reverse, nonzero_depositPayments, ← nonzero_reverse, hfees]
        rfl

end Executed

/-! ## Both directions -/

/-- For fixed settings a larger value leaves a larger net amount, withdrawn or deposited. -/
theorem net_amounts_mono (f : DepositWithdrawFeeManager) {v w : UInt256} (hle : v ≤ w) :
    (f.withdrawFeePercent.toNat < 10000 → ∀ fee net fee' net',
      NetOfFee f.withdrawFixedFee f.withdrawFeePercent v fee net →
      NetOfFee f.withdrawFixedFee f.withdrawFeePercent w fee' net' → net ≤ net') ∧
    (f.depositFeePercent.toNat < 10000 → ∀ fee fee', f.depositFee v = some fee → f.depositFee w = some fee' →
      v - feePart v fee ≤ w - feePart w fee') := by
  rw [BitVec.le_def] at hle
  refine ⟨?_, ?_⟩
  · intro hpercent fee net fee' net' hnet hnet'
    have hmono := net_mono f.withdrawFixedFee.toNat hpercent hle
    rw [← hnet.fee_eq, ← hnet'.fee_eq] at hmono
    have hv := hnet.exact
    have hw := hnet'.exact
    rw [BitVec.le_def]
    omega
  · intro hpercent fee fee' hfee hfee'
    have hmono := net_mono f.depositFixedFee.toNat hpercent hle
    rw [← (maxFee_eq_some hfee).2, ← (maxFee_eq_some hfee').2] at hmono
    rw [BitVec.le_def, rest_toNat, rest_toNat]
    omega

/-- **Deposit and withdrawal fee arithmetic**, in the contracts that have the fees. -/
theorem fee_arithmetic [DecidableEq H] (K : CollisionFree H) {V : HomeVariant} (hV : hasDepositWithdrawFee V) :
    (∀ (f : DepositWithdrawFeeManager) (value : UInt256), f.withdrawFixedFee < value →
      f.withdrawFeePercent.toNat < 10000 → value.toNat * f.withdrawFeePercent.toNat < 2 ^ 256 →
      ∃ fee net, f.withdrawFee value = some fee ∧ SafeMath.sub value fee = some net ∧
        NetOfFee f.withdrawFixedFee f.withdrawFeePercent value fee net) ∧
    (∀ (call : Callee (Home H W)) (s s' : Home H W) (sender source : Address) (value : UInt256),
      s.bridge.fees.withdrawFeePercent.toNat < 10000 → onTokenTransfer V call s sender source value = some s' →
      WithdrawsNet (payFeeInToken call) (release V call) s source value s') ∧
    (∀ (call : Callee (Home H W)) (s s' : Home H W) (sender target : Address) (value msgValue : UInt256),
      s.bridge.fees.withdrawFeePercent.toNat < 10000 →
      transferAndCall call s sender target value msgValue = some s' →
      WithdrawsNet (payFeeInCoin call) (fun s _ => some s) s sender value s') ∧
    (∀ (s : Home H Payments) (recipient : Address) (value : UInt256),
      s.bridge.basic.withinExecutionLimit s.getCurrentDay value = some true →
      value.toNat * s.bridge.fees.depositFeePercent.toNat < 2 ^ 256 → Directs V s recipient value) ∧
    (∀ (outcome : ExtCall → Home H Payments → Outcome) (s s' : Home H Payments) (sender : Address) (d : Deposit),
      executeAffirmation K V (answering outcome) s sender d.1 d.2.1 d.2.2 = some s' → Completed s s' d →
      ∃ s₁ fee, Reaches K s sender d s₁ fee ∧
        fee.toNat = feeOf s.bridge.fees.depositFixedFee.toNat s.bridge.fees.depositFeePercent.toNat d.2.1.toNat ∧
        (¬ LosesPayment V outcome s₁ d.1 d.2.1 fee →
          PaysShares s s' (restTarget V outcome s₁ d.1 d.2.1 fee) d.2.1 fee)) ∧
    (∀ (f : DepositWithdrawFeeManager) (v w : UInt256), v ≤ w →
      (f.withdrawFeePercent.toNat < 10000 → ∀ fee net fee' net',
        NetOfFee f.withdrawFixedFee f.withdrawFeePercent v fee net →
        NetOfFee f.withdrawFixedFee f.withdrawFeePercent w fee' net' → net ≤ net') ∧
      (f.depositFeePercent.toNat < 10000 → ∀ fee fee', f.depositFee v = some fee → f.depositFee w = some fee' →
        v - feePart v fee ≤ w - feePart w fee')) := by
  refine ⟨fun f value => netOfFee_exists f, ?_, ?_, ?_, ?_, fun f v w => net_amounts_mono f⟩
  · intro call s s' sender source value hpercent h
    exact onTokenTransfer_net hV hpercent h
  · intro call s s' sender target value msgValue hpercent h
    exact transferAndCall_net hpercent h
  · intro s recipient value hlimit hproduct
    exact directs hV hlimit hproduct
  · intro outcome s s' sender d h hdone
    exact deposit_pays hV h hdone

/-- A bridge in coin with validator 1 and, both ways, a fee of 4 % but at least 5. -/
def sampleCoin (v : BridgeValidators) : Home (List Byte) Payments :=
  let s := sampleHome []
  { s with validators := v, bridge := { s.bridge with fees := ⟨8, 5, 400, 5, 400⟩ } }

/-- Of 200, withdrawn or deposited, 4 % are 8. -/
theorem fee_arithmetic_coin : ∃ (v : BridgeValidators) (withdrawn deposited : Home (List Byte) Payments),
    transferAndCall (answering fun _ _ => .success) (sampleCoin v) 33 7 200 200 = some withdrawn ∧
    withdrawn.world = [(8, 8)] ∧
    executeAffirmation serialHash .nativeToErcWithFee (answering fun _ _ => .success) (sampleCoin v) 1 33 200 77 =
      some deposited ∧
    deposited.world = [(33, 192), (8, 8)] ∧
    WithdrawsNet (payFeeInCoin (answering fun _ _ => .success)) (fun s _ => some s) (sampleCoin v) 33 200 withdrawn ∧
    ∃ fee, fee.toNat = feeOf 5 400 200 ∧ PaysShares (sampleCoin v) deposited 33 200 fee := by
  have heval : (do
      let v ← BridgeValidators.blank.initializeWith 1 [1] 9
      let withdrawn ← transferAndCall (answering fun _ _ => .success) (sampleCoin v) 33 7 200 200
      let deposited ← executeAffirmation serialHash .nativeToErcWithFee (answering fun _ _ => .success)
        (sampleCoin v) 1 33 200 77
      require (withdrawn.world = [(8, 8)] ∧ deposited.world = [(33, 192), (8, 8)] ∧
        Completed (sampleCoin v) deposited (33, 200, 77))) = some () := by
    decide +kernel
  simp only [Option.bind_eq_bind, Option.bind_eq_some_iff, require_eq_some] at heval
  obtain ⟨v, _, withdrawn, hw, deposited, hd, hworld, hworld', hdone⟩ := heval
  obtain ⟨_, _, hcoin, _, hpays, _⟩ := fee_arithmetic (W := Payments) serialHash
    (V := .nativeToErcWithFee) (by decide)
  obtain ⟨s₁, fee, _, hfee, hpaid⟩ := hpays _ _ _ _ (33, 200, 77) hd hdone
  have hkept : ¬ LosesPayment .nativeToErcWithFee (fun _ _ => .success) s₁ 33 200 fee := by
    unfold LosesPayment
    simp
  refine ⟨v, withdrawn, deposited, hw, hworld, hd, hworld',
    hcoin _ _ _ _ _ _ _ (by decide : (400 : UInt256).toNat < 10000) hw, fee, hfee, ?_⟩
  simpa [restTarget] using hpaid hkept

/-- **The rest is redirected.** Account 33 refuses coin: its deposit of 200 is executed, the fee receiver gets 8, and
    the rest of 192 goes to the fallback recipient 3. -/
theorem rest_redirected : ∃ (outcome : ExtCall → Home (List Byte) Payments → Outcome)
    (s s' : Home (List Byte) Payments),
    executeAffirmation serialHash .nativeToErcWithFee (answering outcome) s 1 33 200 77 = some s' ∧
    Completed s s' (33, 200, 77) ∧ s.world = [] ∧ s'.world = [(3, 192), (8, 8)] := by
  have heval : (do
      let v ← BridgeValidators.blank.initializeWith 1 [1] 9
      let s' ← executeAffirmation serialHash .nativeToErcWithFee
        (answering fun c _ => if c = .send 33 192 then .revert else .success) (sampleCoin v) 1 33 200 77
      require (Completed (sampleCoin v) s' (33, 200, 77) ∧ s'.world = [(3, 192), (8, 8)])) = some () := by
    decide +kernel
  simp only [Option.bind_eq_bind, Option.bind_eq_some_iff, require_eq_some] at heval
  obtain ⟨v, _, s', hcall, hdone, hworld⟩ := heval
  exact ⟨_, _, s', hcall, hdone, rfl, hworld⟩

end Home
end ThunderBridge
