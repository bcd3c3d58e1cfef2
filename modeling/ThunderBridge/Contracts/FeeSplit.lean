import ThunderBridge.Contracts.ForeignBridge.State
import ThunderBridge.Contracts.HomeBridge.Settlement

/-!
# `Contracts.FeeSplit` — the fee of a settled value, split among the validators

`HomeBridgeErcToErc.onExecuteAffirmation` and `ForeignBridgeErcToErc.onExecuteMessage` take a percentage of the
value and pay it to the validators: the same share to each, and to the last one what the division left over. The
rest goes to the user.

`Split` is what the amounts add up to, and `split_exists` that none of the `SafeMath` operations on the way can
fail. With it each of the two functions is the list of its payments and nothing else (`Home.splitsFee`,
`Foreign.splitsFee`). Without a fee the user gets the whole value in one payment, and the validators nothing.
-/

namespace ThunderBridge

/-! ## Arithmetic -/

namespace SafeMath

variable {a b : UInt256}

theorem mul_of_lt (h : a.toNat * b.toNat < 2 ^ 256) : ∃ c, mul a b = some c ∧ c.toNat = a.toNat * b.toNat := by
  have hc : (BitVec.ofNat 256 (a.toNat * b.toNat)).toNat = a.toNat * b.toNat := Nat.mod_eq_of_lt h
  exact ⟨_, mul_eq_some.mpr hc, hc⟩

theorem sub_of_le (h : b.toNat ≤ a.toNat) : ∃ c, sub a b = some c ∧ c.toNat + b.toNat = a.toNat := by
  have hc : (a - b).toNat + b.toNat = a.toNat := by
    rw [BitVec.toNat_sub_of_le (BitVec.le_def.mpr h)]
    omega
  exact ⟨_, sub_eq_some.mpr hc, hc⟩

theorem div_of_pos (h : 0 < b.toNat) : ∃ c, div a b = some c ∧ c.toNat = a.toNat / b.toNat :=
  ⟨a / b, div_eq_some.mpr ⟨h, BitVec.toNat_udiv⟩, BitVec.toNat_udiv⟩

end SafeMath

theorem percentageFee_of_lt {value feePercent : UInt256} (h : value.toNat * feePercent.toNat < 2 ^ 256) :
    ∃ fee, percentageFee value feePercent = some fee ∧ fee.toNat = value.toNat * feePercent.toNat / 10000 := by
  obtain ⟨product, hproduct, hvalue⟩ := SafeMath.mul_of_lt h
  obtain ⟨fee, hfee, hdiv⟩ := SafeMath.div_of_pos (a := product) (b := 10000) (by decide)
  refine ⟨fee, ?_, ?_⟩
  · unfold percentageFee
    rw [hproduct]
    exact hfee
  · rw [hdiv, hvalue]
    rfl

/-- A percentage below 10000 leaves the value room. -/
theorem percentage_le {value feePercent : Nat} (h : feePercent < 10000) : value * feePercent / 10000 ≤ value :=
  Nat.div_le_of_le_mul (Nat.mul_comm 10000 value ▸ Nat.mul_le_mul_left value h.le)

theorem subtractFee_of_lt {value feePercent : UInt256} (hpercent : feePercent.toNat < 10000)
    (h : value.toNat * feePercent.toNat < 2 ^ 256) :
    ∃ userValue, FeeManager.subtractFee feePercent value = some userValue ∧
      userValue.toNat + value.toNat * feePercent.toNat / 10000 = value.toNat := by
  obtain ⟨fee, hfee, hvalue⟩ := percentageFee_of_lt h
  obtain ⟨userValue, hsub, hsum⟩ := SafeMath.sub_of_le (a := value) (b := fee)
    (hvalue ▸ percentage_le hpercent)
  refine ⟨userValue, ?_, hvalue ▸ hsum⟩
  unfold FeeManager.subtractFee
  rw [hfee]
  exact hsub

/-! ## The shares -/

/-- A value split into `n - 1` shares, the last share and what the user gets. -/
structure Split (feePercent value : UInt256) (n : Nat) (share lastShare userValue : UInt256) : Prop where
  user : userValue.toNat = value.toNat - value.toNat * feePercent.toNat / 10000
  exact : (n - 1) * share.toNat + lastShare.toNat + userValue.toNat = value.toNat
  least : share.toNat ≤ lastShare.toNat
  most : lastShare.toNat ≤ share.toNat + (n - 1)

/-- `q` is `e / n`, and `last` what `n - 1` times `q` leaves of `e`. -/
theorem last_share {e n q last : Nat} (hn : 0 < n) (hq : q = e / n) (hlast : last + q * (n - 1) = e) :
    q ≤ last ∧ last ≤ q + (n - 1) := by
  have hdiv : q * n + e % n = e := by
    rw [hq, Nat.mul_comm]
    exact Nat.div_add_mod e n
  have hmod : e % n < n := Nat.mod_lt e hn
  have hn' : q * n = q * (n - 1) + q := by
    rw [← Nat.mul_succ, Nat.succ_eq_add_one, Nat.sub_add_cancel hn]
  omega

/-- **No operation of the split can fail.** -/
theorem split_exists {feePercent value : UInt256} {n : Nat} (hn : 0 < n) (hsize : n < 2 ^ 256)
    (hpercent : feePercent.toNat < 10000) (hproduct : value.toNat * feePercent.toNat < 2 ^ 256) :
    ∃ userValue entire share others paid lastShare,
      FeeManager.subtractFee feePercent value = some userValue ∧
      SafeMath.sub value userValue = some entire ∧
      SafeMath.div entire (BitVec.ofNat 256 n) = some share ∧
      SafeMath.sub (BitVec.ofNat 256 n) 1 = some others ∧
      SafeMath.mul share others = some paid ∧
      SafeMath.sub entire paid = some lastShare ∧
      Split feePercent value n share lastShare userValue := by
  have hcount : (BitVec.ofNat 256 n).toNat = n := Nat.mod_eq_of_lt hsize
  obtain ⟨userValue, huser, huserSum⟩ := subtractFee_of_lt hpercent hproduct
  obtain ⟨entire, hentire, hentireSum⟩ := SafeMath.sub_of_le (a := value) (b := userValue) (by omega)
  obtain ⟨share, hshare, hshareDiv⟩ := SafeMath.div_of_pos (a := entire) (b := BitVec.ofNat 256 n) (by omega)
  rw [hcount] at hshareDiv
  obtain ⟨others, hothers, hothersSum⟩ := SafeMath.sub_of_le (a := BitVec.ofNat 256 n) (b := 1) (by
    rw [hcount]
    exact hn)
  have hothersEq : others.toNat = n - 1 := by
    have hone : (1 : UInt256).toNat = 1 := rfl
    omega
  have hpaidLe : share.toNat * (n - 1) ≤ entire.toNat := by
    calc share.toNat * (n - 1) ≤ share.toNat * n := Nat.mul_le_mul_left _ (Nat.sub_le n 1)
      _ = entire.toNat / n * n := by rw [hshareDiv]
      _ ≤ entire.toNat := Nat.div_mul_le_self _ _
  obtain ⟨paid, hpaid, hpaidMul⟩ := SafeMath.mul_of_lt (a := share) (b := others) (by
    rw [hothersEq]
    exact Nat.lt_of_le_of_lt hpaidLe entire.isLt)
  rw [hothersEq] at hpaidMul
  obtain ⟨lastShare, hlast, hlastSum⟩ := SafeMath.sub_of_le (a := entire) (b := paid) (by omega)
  rw [hpaidMul] at hlastSum
  obtain ⟨hleast, hmost⟩ := last_share hn hshareDiv hlastSum
  refine ⟨userValue, entire, share, others, paid, lastShare, huser, hentire, hshare, hothers, hpaid, hlast, ?_⟩
  exact ⟨by omega, by rw [Nat.mul_comm]; omega, hleast, hmost⟩

/-- The payments to the validators, in the order in which they are made. -/
def splitPayments (validators : List Address) (share lastShare : UInt256) : List (Address × UInt256) :=
  (validators.take (validators.length - 1)).map (·, share) ++
    (validators.drop (validators.length - 1)).map (·, lastShare)

@[simp] theorem length_splitPayments (validators : List Address) (share lastShare : UInt256) :
    (splitPayments validators share lastShare).length = validators.length := by
  unfold splitPayments
  rw [List.length_append, List.length_map, List.length_map, List.length_take, List.length_drop]
  omega

theorem total_append (ps qs : List (Address × UInt256)) : total (ps ++ qs) = total ps + total qs := by
  simp [total]

theorem total_map_const (as : List Address) (amount : UInt256) :
    total (as.map (·, amount)) = as.length * amount.toNat := by
  induction as with
  | nil => simp
  | cons a as ih => rw [List.map_cons, total_cons, ih, List.length_cons, Nat.succ_mul, Nat.add_comm]

theorem Split.total_payments {feePercent value share lastShare userValue : UInt256} {validators : List Address}
    (hn : validators ≠ []) (h : Split feePercent value validators.length share lastShare userValue) :
    total (splitPayments validators share lastShare) + userValue.toNat = value.toNat := by
  have hpos := List.length_pos_iff.mpr hn
  have htake : (validators.take (validators.length - 1)).length = validators.length - 1 := by
    rw [List.length_take]
    omega
  have hdrop : (validators.drop (validators.length - 1)).length = 1 := by
    rw [List.length_drop]
    omega
  unfold splitPayments
  rw [total_append, total_map_const, total_map_const, htake, hdrop, Nat.one_mul]
  exact h.exact

theorem BridgeValidators.length_validatorsArray_lt (v : BridgeValidators) : v.validatorsArray.length < 2 ^ 256 := by
  unfold validatorsArray
  rw [List.length_map, List.length_range]
  exact v.validatorCount.isLt

/-! ## On Home -/

namespace Home

variable {H W : Type}

/-- Mints each of the amounts, whatever the token answers. -/
def mintAll (call : Callee (Home H W)) : List (Address × UInt256) → Home H W → Option (Home H W)
  | [], s => some s
  | (a, amount) :: ps, s => do
      let s ← call.unchecked (.mint s.bridge.erc677token a amount) s
      mintAll call ps s

variable {call : Callee (Home H W)} {s : Home H W} {recipient : Address} {value : UInt256}

theorem mintEach_eq (amount : UInt256) (as : List Address) : ∀ s : Home H W,
    mintEach call amount as s = mintAll call (as.map (·, amount)) s := by
  induction as with
  | nil => exact fun _ => rfl
  | cons a as ih =>
      intro s
      simp only [mintEach, List.map_cons, mintAll, ih]

theorem mintAll_append (ps qs : List (Address × UInt256)) : ∀ s : Home H W,
    mintAll call (ps ++ qs) s = (mintAll call ps s).bind (mintAll call qs) := by
  induction ps with
  | nil => exact fun _ => rfl
  | cons p ps ih =>
      intro s
      simp only [List.cons_append, mintAll, Option.bind_eq_bind, ih, Option.bind_assoc]

/-- What `onExecuteAffirmation` does with a value the caller found within the limits: it counts the value and makes
    its payments. With a fee these are one to each validator and one to the recipient, and they add up to the
    value; without, one of the whole value. -/
def SplitsFee (s : Home H W) (recipient : Address) (value : UInt256) : Prop :=
  ∃ s₁ share lastShare userValue, s.addExecuted value = some s₁ ∧
    Split s.bridge.feePercent value s.validators.validatorsArray.length share lastShare userValue ∧
    total (splitPayments s.validators.validatorsArray share lastShare) + userValue.toNat = value.toNat ∧
    ∀ call, onExecuteAffirmationErcToErc call s recipient value =
      if s.bridge.feePercent = 0 then call.bool (.mint s₁.bridge.erc677token recipient value) s₁
      else (mintAll call (splitPayments s.validators.validatorsArray share lastShare) s₁).bind fun s₂ =>
        call.bool (.mint s₂.bridge.erc677token recipient userValue) s₂

theorem splitsFee (hlimit : s.bridge.basic.withinExecutionLimit s.getCurrentDay value = some true)
    (hn : s.validators.validatorsArray ≠ []) (hpercent : s.bridge.feePercent.toNat < 10000)
    (hproduct : value.toNat * s.bridge.feePercent.toNat < 2 ^ 256) : s.SplitsFee recipient value := by
  obtain ⟨userValue, entire, share, others, paid, lastShare, huser, hentire, hshare, hothers, hpaid, hlast, hsplit⟩ :=
    split_exists (List.length_pos_iff.mpr hn) s.validators.length_validatorsArray_lt hpercent hproduct
  simp only [BasicBridge.withinExecutionLimit, Option.bind_eq_bind, Option.bind_eq_some_iff] at hlimit
  obtain ⟨total, htotal, _⟩ := hlimit
  have hstart := addExecuted_eq_some.mpr ⟨total, htotal, rfl⟩
  generalize hs₁ : s.setBasic (s.bridge.basic.setTotalExecutedPerDay s.getCurrentDay total) = s₁ at hstart
  have hfee : s₁.bridge.feePercent = s.bridge.feePercent := hs₁ ▸ rfl
  have hvalidators : s₁.validators = s.validators := hs₁ ▸ rfl
  have huser' : s₁.subtractFee value = some userValue := by
    unfold subtractFee
    rw [hfee, huser]
  refine ⟨s₁, share, lastShare, userValue, hstart, hsplit, hsplit.total_payments hn, ?_⟩
  intro call
  simp only [onExecuteAffirmationErcToErc, hstart, Option.bind_eq_bind, Option.bind_some, hfee]
  by_cases h0 : s.bridge.feePercent = 0
  · rw [if_pos h0, if_pos h0]
  · simp only [if_neg h0, huser', hvalidators, hentire, hshare, hothers, hpaid, hlast, Option.bind_some,
      mintEach_eq, splitPayments, mintAll_append, Option.bind_assoc]

end Home

/-! ## On the foreign chain -/

namespace Foreign

variable {W : Type}

/-- `result = result && tokenTransfer(target, amount)` for each of the payments: the first that fails is the last
    one that is tried. -/
def transferAll (call : Callee (Foreign W)) :
    List (Address × UInt256) → Foreign W → Bool → Foreign W × Bool
  | [], s, result => (s, result)
  | (a, amount) :: ps, s, result =>
      let (s, result) := if result then tokenTransfer call s a amount else (s, false)
      transferAll call ps s result

variable {call : Callee (Foreign W)} {s : Foreign W} {recipient : Address} {amount : UInt256}

theorem transferEach_eq (amount : UInt256) (as : List Address) : ∀ (s : Foreign W) (result : Bool),
    transferEach call amount as s result = transferAll call (as.map (·, amount)) s result := by
  induction as with
  | nil => exact fun _ _ => rfl
  | cons a as ih =>
      intro s result
      simp only [transferEach, List.map_cons, transferAll, ih]

theorem transferAll_append (ps qs : List (Address × UInt256)) : ∀ (s : Foreign W) (result : Bool),
    transferAll call (ps ++ qs) s result =
      transferAll call qs (transferAll call ps s result).1 (transferAll call ps s result).2 := by
  induction ps with
  | nil => exact fun _ _ => rfl
  | cons p ps ih =>
      intro s result
      simp only [List.cons_append, transferAll, ih]

/-- What `onExecuteMessage` does with a value the caller found within the limits; it never reverts by itself. -/
def SplitsFee (s : Foreign W) (recipient : Address) (amount : UInt256) : Prop :=
  ∃ spent share lastShare userValue,
    SafeMath.add (s.bridge.basic.totalExecutedPerDay s.getCurrentDay) amount = some spent ∧
    Split s.bridge.feePercent amount s.validators.validatorsArray.length share lastShare userValue ∧
    total (splitPayments s.validators.validatorsArray share lastShare) + userValue.toNat = amount.toNat ∧
    ∀ call, onExecuteMessageErcToErc call s recipient amount = some (
      let s₁ := s.setBasic (s.bridge.basic.setTotalExecutedPerDay s.getCurrentDay spent)
      if s.bridge.feePercent = 0 then tokenTransfer call s₁ recipient amount
      else transferAll call (splitPayments s.validators.validatorsArray share lastShare ++ [(recipient, userValue)])
        s₁ true)

theorem splitsFee (hlimit : s.bridge.basic.withinExecutionLimit s.getCurrentDay amount = some true)
    (hn : s.validators.validatorsArray ≠ []) (hpercent : s.bridge.feePercent.toNat < 10000)
    (hproduct : amount.toNat * s.bridge.feePercent.toNat < 2 ^ 256) : s.SplitsFee recipient amount := by
  obtain ⟨userValue, entire, share, others, paid, lastShare, huser, hentire, hshare, hothers, hpaid, hlast, hsplit⟩ :=
    split_exists (List.length_pos_iff.mpr hn) s.validators.length_validatorsArray_lt hpercent hproduct
  simp only [BasicBridge.withinExecutionLimit, Option.bind_eq_bind, Option.bind_eq_some_iff] at hlimit
  obtain ⟨spent, hspent, _⟩ := hlimit
  refine ⟨spent, share, lastShare, userValue, hspent, hsplit, hsplit.total_payments hn, ?_⟩
  intro call
  generalize hs₁ : s.setBasic (s.bridge.basic.setTotalExecutedPerDay s.getCurrentDay spent) = s₁
  have hfee : s₁.bridge.feePercent = s.bridge.feePercent := hs₁ ▸ rfl
  have hvalidators : s₁.validators = s.validators := hs₁ ▸ rfl
  simp only [onExecuteMessageErcToErc, hspent, Option.bind_eq_bind, Option.bind_some, hs₁, hfee]
  by_cases h0 : s.bridge.feePercent = 0
  · rw [if_pos h0, if_pos h0]
    rfl
  · simp only [if_neg h0, huser, hvalidators, hentire, hshare, hothers, hpaid, hlast, Option.bind_some,
      transferEach_eq, splitPayments, transferAll_append, List.map_cons, List.map_nil, Option.pure_def]

end Foreign

/-- **The validator fee split**, of both bridges. -/
theorem validator_fee_split {H W W' : Type} (home : Home H W) (foreign : Foreign W') (recipient : Address)
    (value : UInt256) :
    (home.bridge.basic.withinExecutionLimit home.getCurrentDay value = some true →
      home.validators.validatorsArray ≠ [] → home.bridge.feePercent.toNat < 10000 →
      value.toNat * home.bridge.feePercent.toNat < 2 ^ 256 → home.SplitsFee recipient value) ∧
    (foreign.bridge.basic.withinExecutionLimit foreign.getCurrentDay value = some true →
      foreign.validators.validatorsArray ≠ [] → foreign.bridge.feePercent.toNat < 10000 →
      value.toNat * foreign.bridge.feePercent.toNat < 2 ^ 256 → foreign.SplitsFee recipient value) :=
  ⟨Home.splitsFee, Foreign.splitsFee⟩

/-- A home bridge with a fee of 4 %. -/
def Home.sampleWithFee (v : BridgeValidators) : Home (List Byte) Payments :=
  let s := Home.sampleHome []
  { s with validators := v, bridge := { s.bridge with feePercent := 400 } }

/-- A foreign bridge with a fee of 4 %. -/
def Foreign.sampleWithFee (v : BridgeValidators) : Foreign Payments :=
  let s := Foreign.sampleForeign v []
  { s with bridge := { s.bridge with feePercent := 400 } }

/-- 4 % of 400 are 16: shares of 5, 5 and 6, and 384 for the recipient. -/
theorem validator_fee_split_three : ∃ v : BridgeValidators, v.validatorsArray = [1, 2, 3] ∧
    (Home.onExecuteAffirmationErcToErc (Home.answering fun _ _ => .success) (Home.sampleWithFee v) 33 400).map
      (fun p => p.1.world) = some [(33, 384), (3, 6), (2, 5), (1, 5)] ∧
    (Home.sampleWithFee v).SplitsFee 33 400 ∧ (Foreign.sampleWithFee v).SplitsFee 33 400 := by
  have heval : (do
      let v ← BridgeValidators.blank.initializeWith 2 [1, 2, 3] 9
      let paid ← Home.onExecuteAffirmationErcToErc (Home.answering fun _ _ => .success) (Home.sampleWithFee v) 33 400
      pure (v.validatorsArray, paid.1.world)) = some ([1, 2, 3], [(33, 384), (3, 6), (2, 5), (1, 5)]) := by
    decide +kernel
  simp only [Option.bind_eq_bind, Option.bind_eq_some_iff, Option.pure_def, Option.some.injEq,
    Prod.mk.injEq] at heval
  obtain ⟨v, _, paid, hpaid, hv, hworld⟩ := heval
  have hlimit : Home.sampleLimits.withinExecutionLimit (0 / days) 400 = some true := by decide +kernel
  have hne : v.validatorsArray ≠ [] := by simp [hv]
  obtain ⟨hhome, hforeign⟩ := validator_fee_split (Home.sampleWithFee v) (Foreign.sampleWithFee v) 33 400
  refine ⟨v, hv, ?_, ?_, ?_⟩
  · rw [hpaid, Option.map_some, hworld]
  · exact hhome hlimit hne (by decide : (400 : UInt256).toNat < 10000) (by decide : 400 * 400 < 2 ^ 256)
  · exact hforeign hlimit hne (by decide : (400 : UInt256).toNat < 10000) (by decide : 400 * 400 < 2 ^ 256)

/-- Without a fee there is one payment, to the recipient; the two validators get none. -/
theorem no_fee_no_shares : ∃ s s' : Home (List Byte) Payments,
    s.validators.validatorsArray = [1, 2] ∧ s.bridge.feePercent = 0 ∧
      Home.onExecuteAffirmationErcToErc (Home.answering fun _ _ => .success) s 33 100 = some (s', true) ∧
      s.world = [] ∧ s'.world = [(33, 100)] := by
  have heval : (do
      let v ← BridgeValidators.blank.initializeWith 2 [1, 2] 9
      let paid ← Home.onExecuteAffirmationErcToErc (Home.answering fun _ _ => .success)
        ({ Home.sampleHome [] with validators := v } : Home (List Byte) Payments) 33 100
      pure (v.validatorsArray, paid.1.world, paid.2)) = some ([1, 2], [(33, 100)], true) := by
    decide +kernel
  simp only [Option.bind_eq_bind, Option.bind_eq_some_iff, Option.pure_def, Option.some.injEq,
    Prod.mk.injEq] at heval
  obtain ⟨v, _, ⟨s', ok⟩, hpaid, hv, hworld, rfl⟩ := heval
  exact ⟨_, s', hv, rfl, hpaid, rfl, hworld⟩

end ThunderBridge
