import ThunderBridge.Contracts.HomeBridge.DailyLimits
import ThunderBridge.Contracts.HomeBridge.FeeArithmetic
import ThunderBridge.Solvency.CrossChain
import ThunderBridge.Validator.RecipientOverride
import Mathlib.Algebra.Order.Floor.Ring
import Mathlib.Data.Rat.Floor
import Mathlib.Tactic.FieldSimp
import Mathlib.Tactic.Ring

/-!
# `Ui.BridgeForm` — the form of the user interface

An amount is typed in tokens. `onTransfer` of `Bridge.js` shows what will arrive after the fee; once that is
confirmed, `_sendToHome` checks the amount against the limits of the home bridge and the balance, and sends it. The
stores hold decimals (`fromDecimals`), the contracts whole numbers, and `BigNumber` divides to twenty places.

* `withdrawal_iff`: the form sends the amounts that the bridge accepts, and shows what the bridge requests.
* `released_as_confirmed`: what the foreign bridge releases for the transaction is what was confirmed, to the address
  that was typed.
-/

namespace ThunderBridge

/-! ## Decimals -/

/-- `BigNumber` with its defaults: `DECIMAL_PLACES` is 20, and a half is rounded away from zero. -/
def BigNumber.round (q : ℚ) : ℚ :=
  if q < 0 then -(⌊-q * 10 ^ 20 + 1 / 2⌋ / 10 ^ 20) else ⌊q * 10 ^ 20 + 1 / 2⌋ / 10 ^ 20

/-- Also `deDecimals` of the store. -/
def fromDecimals (number : Int) (decimals : Nat) : ℚ := BigNumber.round (number / 10 ^ decimals)

/-- A `BigNumber` made to a given base is rounded; a product is exact. -/
def toDecimals (number : ℚ) (decimals : Nat) : ℚ := BigNumber.round number * 10 ^ decimals

/-- A number as an argument of a call. -/
def encodeUint256 (q : ℚ) : Option UInt256 :=
  if q.den = 1 ∧ 0 ≤ q.num ∧ q.num < 2 ^ 256 then some (BitVec.ofInt 256 q.num) else none

namespace BigNumber

theorem round_eq {q : ℚ} {n : Int} (h : q * 10 ^ 20 = n) : round q = q := by
  have hhalf (m : Int) : ⌊(m : ℚ) + 1 / 2⌋ = m := by
    rw [Int.floor_intCast_add]
    norm_num
  unfold round
  split
  · have hneg : -q * 10 ^ 20 = ((-n : Int) : ℚ) := by
      rw [neg_mul, h]
      push_cast
      rfl
    rw [hneg, hhalf, ← hneg]
    field_simp
  · rw [h, hhalf, ← h]
    field_simp

end BigNumber

/-- Twenty places are enough. -/
theorem BigNumber.round_whole {decimals : Nat} (hdecimals : decimals ≤ 20) {q : ℚ} {n : Int}
    (h : q * 10 ^ decimals = n) : BigNumber.round q = q := by
  apply BigNumber.round_eq (n := n * 10 ^ (20 - decimals))
  have hsplit : (10 : ℚ) ^ 20 = 10 ^ decimals * 10 ^ (20 - decimals) := by
    rw [← pow_add]
    congr 1
    omega
  rw [hsplit, ← mul_assoc, h]
  push_cast
  rfl

theorem fromDecimals_eq {decimals : Nat} (hdecimals : decimals ≤ 20) (number : Int) :
    fromDecimals number decimals = number / 10 ^ decimals := by
  apply BigNumber.round_whole hdecimals
  field_simp

theorem toDecimals_eq {number : ℚ} {decimals : Nat} (hdecimals : decimals ≤ 20) {value : UInt256}
    (h : number * 10 ^ decimals = value.toNat) : toDecimals number decimals = value.toNat := by
  unfold toDecimals
  rw [BigNumber.round_whole hdecimals (n := value.toNat) (by rw [h, Int.cast_natCast]), h]

theorem encodeUint256_eq_some {q : ℚ} {value : UInt256} : encodeUint256 q = some value ↔ q = value.toNat := by
  unfold encodeUint256
  constructor
  · intro h
    split at h
    · rename_i hcond
      obtain ⟨hden, hnonneg, hlt⟩ := hcond
      obtain ⟨n, rfl⟩ : ∃ n : Nat, q = n := by
        obtain ⟨n, hn⟩ := Int.eq_ofNat_of_zero_le hnonneg
        have hq : (q.num : ℚ) = q := (Rat.den_eq_one_iff q).mp hden
        exact ⟨n, by rw [← hq, hn, Int.cast_natCast]⟩
      rw [Rat.num_natCast] at h hlt
      obtain rfl := Option.some.inj h
      rw [BitVec.ofInt_natCast, BitVec.toNat_ofNat, Nat.mod_eq_of_lt (by omega)]
    · cases h
  · rintro rfl
    have hlt : value.toNat < 2 ^ 256 := value.isLt
    rw [if_pos ⟨Rat.den_natCast _, by simp, by rw [Rat.num_natCast]; omega⟩, Rat.num_natCast, BitVec.ofInt_natCast,
      BitVec.ofNat_toNat, BitVec.setWidth_eq]

theorem encodeUint256_toDecimals {number : ℚ} {decimals : Nat} (hdecimals : decimals ≤ 20) {value : UInt256}
    (h : number * 10 ^ decimals = value.toNat) : encodeUint256 (toDecimals number decimals) = some value := by
  rw [toDecimals_eq hdecimals h]
  exact encodeUint256_eq_some.mpr rfl

/-! ## The form -/

namespace BridgeForm

variable {H W F : Type}

/-- What a store holds of its bridge and of the account of the wallet, in tokens. -/
structure Limits where
  minPerTx : ℚ
  maxPerTx : ℚ
  maxCurrentDeposit : ℚ
  balance : ℚ

/-- `getMinPerTxLimit`, `getMaxPerTxLimit`, `getCurrentLimit` and `getBalance` of `HomeStore`. -/
def homeStore (s : Home H W) (balance : UInt256) (tokenDecimals : Nat) : Limits where
  minPerTx := fromDecimals s.bridge.basic.minPerTx.toNat tokenDecimals
  maxPerTx := fromDecimals s.bridge.basic.maxPerTx.toNat tokenDecimals
  maxCurrentDeposit := fromDecimals
    (s.bridge.basic.dailyLimit.toNat - (s.bridge.basic.totalSpentPerDay s.getCurrentDay).toNat) tokenDecimals
  balance := fromDecimals balance.toNat tokenDecimals

/-- The same of `ForeignStore`: the foreign bridge has limits for one transfer, but does not count transfers to it. -/
def foreignStore (f : Foreign F) (s : Home H W) (balance : UInt256) (tokenDecimals : Nat) : Limits where
  minPerTx := fromDecimals f.bridge.basic.minPerTx.toNat tokenDecimals
  maxPerTx := fromDecimals f.bridge.basic.maxPerTx.toNat tokenDecimals
  maxCurrentDeposit := fromDecimals
    (s.bridge.basic.executionDailyLimit.toNat - (s.bridge.basic.totalExecutedPerDay s.getCurrentDay).toNat)
    tokenDecimals
  balance := fromDecimals balance.toNat tokenDecimals

inductive FormError where
  | switchNetwork
  | minAmountPerTxError (minPerTx : ℚ)
  | maxAmountPerTxError (maxPerTx : ℚ)
  | depositDailyLimitError (maxCurrentDeposit : ℚ)
  | withdrawalDailyLimitError (maxCurrentDeposit : ℚ)
  | insufficientBalance
  | insufficientBalance2 (balance : ℚ)
  | minFeeError (fee : ℚ)
  /-- A call that the library refuses to encode, or that reverts. -/
  | call
deriving DecidableEq, Repr

/-- What `_sendToHome` and `_sendToForeign` check, and the value they send. -/
def send (overDailyLimit overBalance : ℚ → FormError) (metamaskNet net : Nat) (l : Limits) (tokenDecimals : Nat)
    (amount : ℚ) : Except FormError UInt256 :=
  if metamaskNet ≠ net then .error .switchNetwork
  else if amount < l.minPerTx then .error (.minAmountPerTxError l.minPerTx)
  else if l.maxPerTx < amount then .error (.maxAmountPerTxError l.maxPerTx)
  else if l.maxCurrentDeposit < amount then .error (overDailyLimit l.maxCurrentDeposit)
  else if l.balance < amount then .error (overBalance l.balance)
  else match encodeUint256 (toDecimals amount tokenDecimals) with
    | some value => .ok value
    | none => .error .call

def sendToHome : (metamaskNet homeNet : Nat) → Limits → (tokenDecimals : Nat) → ℚ → Except FormError UInt256 :=
  send .depositDailyLimitError fun _ => .insufficientBalance

def sendToForeign : (metamaskNet foreignNet : Nat) → Limits → (tokenDecimals : Nat) → ℚ → Except FormError UInt256 :=
  send .withdrawalDailyLimitError .insufficientBalance2

/-- The fee of an amount, in tokens. -/
def fee (ask : UInt256 → Option UInt256) (amount : ℚ) (decimals : Nat) : Option ℚ := do
  let value ← encodeUint256 (amount * 10 ^ decimals)
  let fee ← ask value
  pure (fromDecimals fee.toNat decimals)

def getWithdrawFee (s : Home H W) : ℚ → Nat → Option ℚ := fee s.bridge.fees.withdrawFee

def getDepositFee (s : Home H W) : ℚ → Nat → Option ℚ := fee s.bridge.fees.depositFee

/-- What the user is asked to confirm. -/
structure ConfirmationData where
  fromAmount : ℚ
  toAmount : ℚ
  fee : ℚ
deriving DecidableEq, Repr

/-- `reverse` is from the foreign to the home chain. -/
def onTransfer (s : Home H W) (decimals : Nat) (reverse : Bool) (amount : ℚ) : Except FormError ConfirmationData :=
  match if reverse then getDepositFee s amount decimals else getWithdrawFee s amount decimals with
  | none => .error .call
  | some fee =>
      let finalAmount := amount - fee
      if finalAmount ≤ 0 then .error (.minFeeError fee) else .ok ⟨amount, finalAmount, fee⟩

/-! ## Whole numbers -/

section Whole

variable {amount : ℚ} {decimals : Nat} {value : UInt256} (hdecimals : decimals ≤ 20)
  (hamount : amount * 10 ^ decimals = value.toNat)
include hdecimals hamount

theorem lt_fromDecimals_iff {n : Int} : amount < fromDecimals n decimals ↔ (value.toNat : Int) < n := by
  have hpos : (0 : ℚ) < 10 ^ decimals := by positivity
  rw [fromDecimals_eq hdecimals, lt_div_iff₀ hpos, hamount]
  exact_mod_cast Iff.rfl

theorem fromDecimals_lt_iff {n : Int} : fromDecimals n decimals < amount ↔ n < (value.toNat : Int) := by
  have hpos : (0 : ℚ) < 10 ^ decimals := by positivity
  rw [fromDecimals_eq hdecimals, div_lt_iff₀ hpos, hamount]
  exact_mod_cast Iff.rfl

/-- The checks are those of the whole numbers. -/
theorem send_eq_ok {overDailyLimit overBalance : ℚ → FormError} {net : Nat} {minPerTx maxPerTx balance : UInt256}
    {maxCurrentDeposit : Int} {value' : UInt256} :
    send overDailyLimit overBalance net net ⟨fromDecimals minPerTx.toNat decimals, fromDecimals maxPerTx.toNat decimals,
      fromDecimals maxCurrentDeposit decimals, fromDecimals balance.toNat decimals⟩ decimals amount = .ok value' ↔
    value = value' ∧ minPerTx.toNat ≤ value.toNat ∧ value.toNat ≤ maxPerTx.toNat ∧
      (value.toNat : Int) ≤ maxCurrentDeposit ∧ value.toNat ≤ balance.toNat := by
  simp only [send, lt_fromDecimals_iff hdecimals hamount, fromDecimals_lt_iff hdecimals hamount,
    encodeUint256_toDecimals hdecimals hamount, ne_eq, not_true, if_false]
  split_ifs with hmin hmax hdaily hbalance
  · simp; omega
  · simp; omega
  · simp; omega
  · simp; omega
  · simp; omega

theorem toAmount_eq_iff {fee net : UInt256} :
    (amount - fromDecimals fee.toNat decimals) * 10 ^ decimals = net.toNat ↔ net.toNat + fee.toNat = value.toNat := by
  have hpow : (10 : ℚ) ^ decimals ≠ 0 := by positivity
  rw [sub_mul, hamount, fromDecimals_eq hdecimals, div_mul_cancel₀ _ hpow, sub_eq_iff_eq_add, eq_comm]
  exact_mod_cast Iff.rfl

/-- What is shown is the value less its fee. -/
theorem onTransfer_whole {s : Home H W} {reverse : Bool} {data : ConfirmationData} :
    onTransfer s decimals reverse amount = .ok data ↔
      ∃ fee, (if reverse then s.bridge.fees.depositFee value else s.bridge.fees.withdrawFee value) = some fee ∧
        fee.toNat < value.toNat ∧
        data = ⟨amount, amount - fromDecimals fee.toNat decimals, fromDecimals fee.toNat decimals⟩ := by
  have hencoded : encodeUint256 (amount * 10 ^ decimals) = some value := encodeUint256_eq_some.mpr hamount
  have hfee : (if reverse then getDepositFee s amount decimals else getWithdrawFee s amount decimals) =
      (if reverse then s.bridge.fees.depositFee value else s.bridge.fees.withdrawFee value).map
        fun fee => fromDecimals fee.toNat decimals := by
    cases reverse <;> simp [getDepositFee, getWithdrawFee, fee, hencoded, Option.map_eq_bind]
  unfold onTransfer
  rw [hfee]
  cases (if reverse then s.bridge.fees.depositFee value else s.bridge.fees.withdrawFee value) with
  | none => simp
  | some fee =>
      have hpositive : amount - fromDecimals fee.toNat decimals ≤ 0 ↔ ¬ fee.toNat < value.toNat := by
        rw [sub_nonpos, ← not_lt, fromDecimals_lt_iff hdecimals hamount, Int.ofNat_lt]
      simp only [Option.map_some, Option.some.injEq, exists_eq_left', hpositive]
      by_cases hlt : fee.toNat < value.toNat
      · simp [hlt, eq_comm]
      · simp [hlt]

end Whole

/-- What is sent is what was typed. -/
theorem value_of_send {overDailyLimit overBalance : ℚ → FormError} {metamaskNet net decimals : Nat} {l : Limits}
    {amount : ℚ} {value value' : UInt256} (hdecimals : decimals ≤ 20)
    (hamount : amount * 10 ^ decimals = value.toNat)
    (h : send overDailyLimit overBalance metamaskNet net l decimals amount = .ok value') : value = value' := by
  simp only [send, encodeUint256_toDecimals hdecimals hamount] at h
  split_ifs at h
  exact Except.ok.inj h

/-- Only whole numbers can be asked about. -/
theorem onTransfer_amount {s : Home H W} {decimals : Nat} {reverse : Bool} {amount : ℚ} {data : ConfirmationData}
    (h : onTransfer s decimals reverse amount = .ok data) :
    ∃ value : UInt256, amount * 10 ^ decimals = value.toNat := by
  unfold onTransfer at h
  have hfee : ∃ ask, (if reverse then getDepositFee s amount decimals else getWithdrawFee s amount decimals) =
      fee ask amount decimals := by
    cases reverse
    · exact ⟨s.bridge.fees.withdrawFee, rfl⟩
    · exact ⟨s.bridge.fees.depositFee, rfl⟩
  obtain ⟨ask, hask⟩ := hfee
  rw [hask] at h
  cases hencoded : encodeUint256 (amount * 10 ^ decimals) with
  | none => simp [fee, hencoded] at h
  | some value => exact ⟨value, encodeUint256_eq_some.mp hencoded⟩

/-! ## What the bridge accepts -/

theorem add_of_lt {a b : UInt256} (h : a.toNat + b.toNat < 2 ^ 256) : ∃ c, SafeMath.add a b = some c := by
  refine ⟨BitVec.ofNat 256 (a.toNat + b.toNat), SafeMath.add_eq_some.mpr ?_⟩
  rw [BitVec.toNat_ofNat, Nat.mod_eq_of_lt h]

theorem withinLimit_iff {b : BasicBridge} {today amount : UInt256} : b.withinLimit today amount = some true ↔
    (b.totalSpentPerDay today).toNat + amount.toNat ≤ b.dailyLimit.toNat ∧ b.minPerTx ≤ amount ∧
      amount ≤ b.maxPerTx := by
  refine ⟨Home.withinLimit_eq_true, ?_⟩
  rintro ⟨hdaily, hmin, hmax⟩
  obtain ⟨next, hnext⟩ := add_of_lt (Nat.lt_of_le_of_lt hdaily b.dailyLimit.isLt)
  have hle : next ≤ b.dailyLimit := by
    rw [BitVec.le_def, SafeMath.add_eq_some.mp hnext]
    exact hdaily
  simp [BasicBridge.withinLimit, hnext, hle, hmin, hmax]

/-- The token does all that it is asked to do. -/
def Obliges (call : Callee (Home H W)) : Prop := ∀ c s, ∃ w, call c s = some ({ s with world := w }, packWord 1)

section Accepted

variable {call : Callee (Home H W)} {V : HomeVariant} {s s' : Home H W} {source : Address} {value net : UInt256}

theorem Obliges.plain (hcall : Obliges call) (c : ExtCall) (s : Home H W) :
    ∃ w, call.plain c s = some { s with world := w } := by
  obtain ⟨w, hw⟩ := hcall c s
  exact ⟨w, by rw [Callee.plain, hw]; rfl⟩

theorem Obliges.payFeeInToken (hcall : Obliges call) (s : Home H W) (fee : UInt256) :
    ∃ w, Home.payFeeInToken call s fee = some { s with world := w } := by
  obtain ⟨w, hw⟩ := hcall (.transfer s.bridge.erc677token s.bridge.fees.feeReceiver fee) s
  have hanswer : (Bytes.mload (packWord 1) 0 != 0) = true := by decide
  refine ⟨w, ?_⟩
  simp only [Home.payFeeInToken, Callee.bool, hw, Option.bind_eq_bind, Option.bind_some, length_packWord,
    require_pos (Nat.le_refl 32), hanswer, require_pos trivial, Option.pure_def]

theorem Obliges.release (hcall : Obliges call) (V : HomeVariant) (s : Home H W) (rest : UInt256) :
    ∃ w, Home.release V call s rest = some { s with world := w } := by
  cases V with
  | ercToErc | ercToErcWithFee | nativeToErcWithFee | ercToErcWithFeeV2 => exact hcall.plain _ s
  | erc677ToErc677WithFee => exact ⟨s.world, rfl⟩

theorem onTokenTransfer_eq (hV : Home.hasDepositWithdrawFee V) :
    Home.onTokenTransfer V call s s.bridge.erc677token source value =
      Home.withdrawWithFee (Home.payFeeInToken call) (Home.release V call) s source value := by
  cases V with
  | ercToErc => exact absurd rfl hV
  | ercToErcWithFee | nativeToErcWithFee =>
      simp only [Home.onTokenTransfer, Home.onTokenTransferWithFee]
      rfl
  | ercToErcWithFeeV2 =>
      simp only [Home.onTokenTransfer, Home.onTokenTransferWithFeeV2]
      rfl
  | erc677ToErc677WithFee =>
      simp only [Home.onTokenTransfer, Home.onTokenTransferErc677]
      rfl

/-- **What an obliging token gets**: the fee, the counter and the release cannot fail after the checks. -/
theorem withdrawWithFee_iff (hcall : Obliges call) :
    (∃ s', Home.withdrawWithFee (Home.payFeeInToken call) (Home.release V call) s source value = some s' ∧
      s'.requests = (source, net, s.txHash) :: s.requests) ↔
    s.bridge.basic.withinLimit s.getCurrentDay value = some true ∧ s.bridge.fees.withdrawFixedFee < value ∧
      ∃ fee, s.bridge.fees.withdrawFee value = some fee ∧ SafeMath.sub value fee = some net := by
  constructor
  · rintro ⟨s', h, hrequests⟩
    simp only [Home.withdrawWithFee, Option.bind_eq_bind, Option.bind_eq_some_iff, require_eq_some, exists_const,
      Option.pure_def, Option.some.injEq] at h
    obtain ⟨_, hlimit, rfl, habove, fee, hfee, _, _, rest, hrest, _, _, s₃, _, rfl⟩ := h
    rw [Home.requests_emit] at hrequests
    have hrequest : (source, rest, s₃.txHash) = (source, net, s.txHash) := List.head_eq_of_cons_eq hrequests
    obtain rfl : rest = net := congrArg (fun w => w.2.1) hrequest
    exact ⟨hlimit, habove, fee, hfee, hrest⟩
  · rintro ⟨hlimit, habove, fee, hfee, hrest⟩
    obtain ⟨w, hpaid⟩ : ∃ w, whenNonzero fee (fun s => Home.payFeeInToken call s fee) s =
        some { s with world := w } := by
      unfold whenNonzero
      split
      · exact hcall.payFeeInToken s fee
      · exact ⟨s.world, rfl⟩
    -- the daily limit is no more than a word
    obtain ⟨hdaily, _, _⟩ := Home.withinLimit_eq_true hlimit
    have hle := SafeMath.sub_eq_some.mp hrest
    have hbound := s.bridge.basic.dailyLimit.isLt
    obtain ⟨total, htotal⟩ := add_of_lt (a := s.bridge.basic.totalSpentPerDay s.getCurrentDay) (b := net)
      (by omega)
    obtain ⟨s₂, hcounted⟩ : ∃ s₂, ({ s with world := w } : Home H W).addSpent net = some s₂ ∧
        s₂.requests = s.requests ∧ s₂.txHash = s.txHash :=
      ⟨_, Home.addSpent_eq_some.mpr ⟨total, htotal, rfl⟩, rfl, rfl⟩
    obtain ⟨w', hreleased⟩ := hcall.release V s₂ net
    refine ⟨({ s₂ with world := w' } : Home H W).emit (.UserRequestForSignature source net), ?_, ?_⟩
    · simp only [Home.withdrawWithFee, hlimit, require_pos habove, hfee, hpaid, hrest, hcounted.1, hreleased,
        Option.bind_eq_bind, Option.bind_some, Option.pure_def]
      rfl
    · rw [Home.requests_emit, ← hcounted.2.1, ← hcounted.2.2]
      rfl
/-! ## The form and the bridge -/

/-- **The form and the bridge agree.** With what the stores read of the bridge, the form has `net` confirmed and sends
    `value` if and only if the bridge accepts the value from the token, and requests `net` for it. -/
theorem withdrawal_iff (hV : Home.hasDepositWithdrawFee V) (hcall : Obliges call) {decimals : Nat}
    (hdecimals : decimals ≤ 20) {balance : UInt256} {homeNet : Nat} {amount : ℚ} :
    (∃ data, onTransfer s decimals false amount = .ok data ∧ data.toAmount * 10 ^ decimals = net.toNat ∧
      sendToHome homeNet homeNet (homeStore s balance decimals) decimals amount = .ok value) ↔
    amount * 10 ^ decimals = value.toNat ∧ value ≤ balance ∧ net ≠ 0 ∧
      ∃ s', Home.onTokenTransfer V call s s.bridge.erc677token source value = some s' ∧
        s'.requests = (source, net, s.txHash) :: s.requests := by
  rw [onTokenTransfer_eq hV, withdrawWithFee_iff hcall, withinLimit_iff]
  constructor
  · rintro ⟨data, hshown, hnet, hsent⟩
    obtain ⟨value', hamount⟩ := onTransfer_amount hshown
    obtain ⟨fee, hfee, hlt, rfl⟩ := (onTransfer_whole hdecimals hamount).mp hshown
    obtain ⟨rfl, hmin, hmax, hdaily, hbalance⟩ := (send_eq_ok hdecimals hamount).mp hsent
    have hsum := (toAmount_eq_iff hdecimals hamount).mp hnet
    have hfixed : s.bridge.fees.withdrawFixedFee.toNat ≤ fee.toNat := by
      rw [(maxFee_eq_some hfee).2]
      exact Nat.le_max_left _ _
    have hpositive : net ≠ 0 := by
      rintro rfl
      simp at hsum
      omega
    refine ⟨hamount, hbalance, hpositive, ⟨by omega, hmin, hmax⟩, ?_, fee, hfee, SafeMath.sub_eq_some.mpr hsum⟩
    rw [BitVec.lt_def]
    omega
  · rintro ⟨hamount, hbalance, hpositive, ⟨hdaily, hmin, hmax⟩, _, fee, hfee, hnet⟩
    have hsum := SafeMath.sub_eq_some.mp hnet
    have hlt : fee.toNat < value.toNat := by
      have := toNat_ne_zero hpositive
      omega
    refine ⟨_, (onTransfer_whole hdecimals hamount).mpr ⟨fee, hfee, hlt, rfl⟩,
      (toAmount_eq_iff hdecimals hamount).mpr hsum, ?_⟩
    exact (send_eq_ok hdecimals hamount).mpr ⟨rfl, hmin, hmax, by omega, hbalance⟩

end Accepted

/-- A home bridge that takes 3% of a withdrawal, and at least 5. -/
def sampleHome {W : Type} (world : W) : Home (List Byte) W :=
  Home.deploy 7 6 5 Home.sampleLimits ⟨8, 5, 300, 0, 0⟩ 0 4 3 world

/-- With two decimals, 1 token is sent as 100, and 0.95 are shown. -/
theorem withdrawal_iff_fixed_fee : ∃ data, onTransfer (sampleHome ()) 2 false 1 = .ok data ∧
    data.toAmount * 10 ^ 2 = (95 : UInt256).toNat ∧
    sendToHome 100 100 (homeStore (sampleHome ()) 500 2) 2 1 = .ok 100 := by
  have heval : (Home.onTokenTransfer .ercToErcWithFee Home.obliging (sampleHome ()) 5 33 100).map Home.requests =
      some [(33, 95, 0)] := by
    decide +kernel
  obtain ⟨s', hcall, hrequests⟩ := Option.map_eq_some_iff.mp heval
  have hobliges : Obliges (Home.obliging : Callee (Home (List Byte) Unit)) := fun _ s => ⟨s.world, rfl⟩
  have hwhole : (1 : ℚ) * 10 ^ 2 = (100 : UInt256).toNat := by decide +kernel
  exact (withdrawal_iff (V := .ercToErcWithFee) (by decide) hobliges (by decide)).mpr
    ⟨hwhole, by decide, by decide, s', hcall, hrequests⟩

/-! ## Deposits -/

section Deposits

variable {s : Home H W} {f : Foreign F} {decimals : Nat} {amount : ℚ} {data : ConfirmationData} {value : UInt256}

/-- A deposit that is sent is within the limits of the home bridge, if the foreign bridge allows no more at once. -/
theorem deposit_withinExecutionLimit (hdecimals : decimals ≤ 20) {foreignNet : Nat} {balance : UInt256}
    (hmax : f.bridge.basic.maxPerTx ≤ s.bridge.basic.executionMaxPerTx)
    (hamount : amount * 10 ^ decimals = value.toNat)
    (hsent : sendToForeign foreignNet foreignNet (foreignStore f s balance decimals) decimals amount = .ok value) :
    s.bridge.basic.withinExecutionLimit s.getCurrentDay value = some true := by
  obtain ⟨_, _, hforeign, hdaily, _⟩ := (send_eq_ok hdecimals hamount).mp hsent
  rw [BitVec.le_def] at hmax
  have hbound := s.bridge.basic.executionDailyLimit.isLt
  obtain ⟨next, hnext⟩ := add_of_lt (a := s.bridge.basic.totalExecutedPerDay s.getCurrentDay) (b := value) (by omega)
  have hsum := SafeMath.add_eq_some.mp hnext
  have hlimit : next ≤ s.bridge.basic.executionDailyLimit := by
    rw [BitVec.le_def]
    omega
  have honce : value ≤ s.bridge.basic.executionMaxPerTx := by
    rw [BitVec.le_def]
    omega
  simp [BasicBridge.withinExecutionLimit, hnext, hlimit, honce]

/-- **A deposit** that is completed with the fees that were shown pays what was confirmed, unless a payment is lost by
    a dropped answer. -/
theorem deposit_pays_as_confirmed {K : CollisionFree H} [DecidableEq H] {V : HomeVariant}
    (hV : Home.hasDepositWithdrawFee V) (hdecimals : decimals ≤ 20)
    (hshown : onTransfer s decimals true amount = .ok data) (hamount : amount * 10 ^ decimals = value.toNat)
    {outcome : ExtCall → Home H Payments → Outcome} {t t' : Home H Payments} {sender recipient : Address}
    {transactionHash : Bytes32} (hfees : t.bridge.fees = s.bridge.fees)
    (h : Home.executeAffirmation K V (Home.answering outcome) t sender recipient value transactionHash = some t')
    (hdone : Home.Completed t t' (recipient, value, transactionHash)) :
    ∃ t₁ fee, Home.Reaches K t sender (recipient, value, transactionHash) t₁ fee ∧
      (¬ Home.LosesPayment V outcome t₁ recipient value fee →
        ∃ net ps, t'.world = ps ++ t.world ∧
          Home.nonzero ps = Home.nonzero [(Home.restTarget V outcome t₁ recipient value fee, net),
            (t.bridge.fees.feeReceiver, fee)] ∧
          (net.toNat : ℚ) = data.toAmount * 10 ^ decimals) := by
  obtain ⟨t₁, fee, hreaches, hcharged, hpays⟩ := Home.deposit_pays (d := (recipient, value, transactionHash)) hV h hdone
  refine ⟨t₁, fee, hreaches, fun hkept => ?_⟩
  obtain ⟨ps, hworld, hpayments⟩ := hpays hkept
  -- the fee that is charged is the one that was shown
  obtain ⟨fee', hfee', hlt, rfl⟩ := (onTransfer_whole hdecimals hamount).mp hshown
  obtain rfl : fee = fee' := by
    apply BitVec.eq_of_toNat_eq
    rw [hcharged, (maxFee_eq_some hfee').2, hfees]
  have hpart : Home.feePart value fee = fee := by
    apply BitVec.eq_of_toNat_eq
    rw [Home.feePart_toNat]
    omega
  have hnet : (value - fee).toNat + fee.toNat = value.toNat := by
    rw [BitVec.toNat_sub_of_le (BitVec.le_def.mpr hlt.le)]
    omega
  refine ⟨value - fee, ps, hworld, ?_, ((toAmount_eq_iff hdecimals hamount).mpr hnet).symm⟩
  rw [hpayments, hpart]

end Deposits

/-! ## What arrives -/

section Arrival

variable {c : Bridges.Setting H W F} {b₀ b b' : Bridges H W F} {call : Callee (Home H W)} {home : Home H W}
  {source : Address} {value : UInt256}

/-- The withdrawal of a call in which nothing leaves the transaction. -/
theorem requests_of_onTokenTransfer
    (hsame : ∀ x s s' data, call x s = some (s', data) → s'.txHash = s.txHash)
    {s s' : Home H W} {token : Address}
    (h : Home.onTokenTransfer .ercToErcWithFee call s token source value = some s') :
    ∃ fee net, s.bridge.fees.withdrawFee value = some fee ∧ SafeMath.sub value fee = some net ∧
      (source, net, s.txHash) ∈ s'.requests := by
  simp only [Home.onTokenTransfer, Home.onTokenTransferWithFee, Home.withdrawWithFee, Option.bind_eq_bind,
    Option.bind_eq_some_iff, require_eq_some, exists_const, Option.pure_def, Option.some.injEq] at h
  obtain ⟨_, _, _, rfl, _, fee, hfee, s₁, hpaid, net, hnet, s₂, hcounted, s₃, hreleased, rfl⟩ := h
  have hfirst : s₁.txHash = s.txHash := by
    unfold whenNonzero at hpaid
    split at hpaid
    · simp only [Home.payFeeInToken, Option.bind_eq_bind, Option.bind_eq_some_iff, require_eq_some, exists_const,
        Option.pure_def, Option.some.injEq] at hpaid
      obtain ⟨_, hpay, _, rfl⟩ := hpaid
      obtain ⟨_, hc⟩ := Callee.answered_of_bool hpay
      exact hsame _ _ _ _ hc
    · exact congrArg Home.txHash (Option.some.inj hpaid).symm
  obtain ⟨_, _, rfl⟩ := Home.addSpent_eq_some.mp hcounted
  obtain ⟨_, hc⟩ := Callee.answered_of_plain hreleased
  have hlast : s₃.txHash = s.txHash := (hsame _ _ _ _ hc).trans hfirst
  refine ⟨fee, net, hfee, hnet, ?_⟩
  rw [Home.requests_emit, ← hlast]
  exact List.mem_append_left _ (List.mem_singleton.mpr rfl)

section Run

variable [DecidableEq H]

/-- A withdrawal that was requested stays requested. -/
theorem requests_of_run (hrun : Relation.ReflTransGen (Bridges.Step c) b b') :
    b.home.requests ⊆ b'.home.requests := by
  intro w hw
  refine Calls.steps_invariant (P := fun x : Bridges H W F => w ∈ x.home.requests) ?_ hrun hw
  intro x x' hx hstep
  cases hstep with
  | home h => exact (Home.tokenStep_accounted (fun _ _ _ _ hadmits => hadmits) h).requests.subset hx
  | foreign _ => exact hx

open RecipientOverride in
/-- **What was confirmed is what arrives**, through `HomeBridgeErcToErcWithFee` and `ForeignBridgeErcToErcV2`. Somebody
    confirms `data`, for a recipient other than zero; the bridge accepts what the form sends, with the fees that were
    shown. Whatever else happens, the foreign bridge releases for this transaction nothing but the amount that was
    confirmed, to the recipient that was typed. -/
theorem released_as_confirmed (hfresh : Bridges.Fresh c b₀) (hrun : Relation.ReflTransGen (Bridges.Step c) b₀ b)
    -- the form
    {shown : Home H W} {decimals : Nat} (hdecimals : decimals ≤ 20) {amount : ℚ} {data : ConfirmationData}
    (hshown : onTransfer shown decimals false amount = .ok data) {metamaskNet homeNet : Nat} {limits : Limits}
    (hsent : sendToHome metamaskNet homeNet limits decimals amount = .ok value)
    -- the transaction
    (hfees : b.home.bridge.fees = shown.bridge.fees)
    (hsame : ∀ x s s' data, call x s = some (s', data) → s'.txHash = s.txHash)
    (hcall : Home.onTokenTransfer .ercToErcWithFee call b.home b.home.bridge.erc677token source value = some home)
    (hstep : Bridges.Step c b { b with home := home })
    (hrun' : Relation.ReflTransGen (Bridges.Step c) { b with home := home } b')
    (hone : ∀ w ∈ b'.home.requests, ∀ w' ∈ b'.home.requests,
      w.2.2 = b.home.txHash → w'.2.2 = b.home.txHash → w = w')
    {web3 : Web3Abi} {bridge recipient : Address} (hrecipient : recipient ≠ 0)
    (hinput : Written web3 .transferAndCall bridge recipient (c.homeInput b.home.txHash)) :
    ∀ w ∈ b'.foreign.released, w.2.2 = b.home.txHash →
      w.1 = recipient ∧ (w.2.1.toNat : ℚ) = data.toAmount * 10 ^ decimals := by
  intro w hw hhash
  have hinv := Bridges.run_solvent hfresh ((hrun.tail hstep).trans hrun')
  -- what is released was requested
  have hevents : b'.foreign.released = b'.foreign.bridge.trail.map Foreign.Relay.withdrawal := hinv.relayed.events
  rw [hevents] at hw
  obtain ⟨r, hr, rfl⟩ := List.mem_map.mp hw
  obtain ⟨q, hq, he⟩ := List.mem_map.mp (hinv.withdrawal_mem hr)
  rw [← he] at hhash ⊢
  -- and the request is the one of the transaction
  obtain ⟨fee, net, hfee, hnet, hrequest⟩ := requests_of_onTokenTransfer hsame hcall
  obtain rfl := hone q hq _ (requests_of_run hrun' hrequest) hhash rfl
  refine ⟨hinput.recipient_eq hrecipient source, ?_⟩
  obtain ⟨value', hamount⟩ := onTransfer_amount hshown
  obtain rfl := value_of_send hdecimals hamount hsent
  obtain ⟨fee', hfee', _, rfl⟩ := (onTransfer_whole hdecimals hamount).mp hshown
  rw [hfees] at hfee
  obtain rfl := Option.some.inj (hfee.symm.trans hfee')
  exact ((toAmount_eq_iff hdecimals hamount).mpr (SafeMath.sub_eq_some.mp hnet)).symm

end Run

end Arrival

theorem supplyToken_txHash (x : ExtCall) (s s' : Home H Nat) (data : Bytes)
    (h : Bridges.supplyToken x s = some (s', data)) : s'.txHash = s.txHash := by
  cases x with
  | burn token amount =>
      simp only [Bridges.supplyToken] at h
      split at h
      · obtain ⟨rfl, _⟩ := Prod.mk.inj (Option.some.inj h)
        rfl
      · cases h
  | mint _ _ _ | transfer _ _ _ | minterBurnerMint _ _ _ | minterBurnerBurn _ _ _ | send _ _ =>
      obtain ⟨rfl, _⟩ := Prod.mk.inj (Option.some.inj h)
      rfl

open Bridges RecipientOverride in
/-- Account 33 has 100 on the home chain and sends them to account 34: 0.95 are confirmed, and 95 released. -/
theorem released_as_confirmed_fixed_fee :
    ∃ (c : Setting (List Byte) Nat Ledger) (b₀ b : Bridges (List Byte) Nat Ledger),
      Relation.ReflTransGen (Step c) b₀ b ∧ (34, 95, 0) ∈ b.foreign.released ∧
      ((95 : UInt256).toNat : ℚ) = 19 / 20 * 10 ^ 2 := by
  have heval : (do
      let v ← BridgeValidators.blank.initializeWith 2 [1, 2] 9
      let h₁ : Home (List Byte) Nat := { sampleHome 0 with validators := v }
      let f₁ : Foreign Ledger :=
        { Foreign.sampleForeign v sampleLedger with world := sampleLedger.move 33 7 100 77 }
      let h₂ ← Home.exec serialHash Foreign.signerV .ercToErcWithFee supplyToken h₁
        (.executeAffirmation 1 33 100 77)
      let h₃ ← Home.exec serialHash Foreign.signerV .ercToErcWithFee supplyToken h₂
        (.executeAffirmation 2 33 100 77)
      let h₄ ← Home.onTokenTransfer .ercToErcWithFee supplyToken h₃ h₃.bridge.erc677token 33 100
      let f₂ ← Foreign.exec serialHash Foreign.signerV .ercToErcV2 ledgerToken f₁
        (.executeSignatures [1, 2] [0, 0] [0, 0] (createMessage 34 95 0 7))
      require (realDeposits sampleSetting ⟨h₁, f₁⟩ = [(33, 100, 77)])
      require (signable { sampleSetting with homeInput := fun _ => encoding .transferAndCall 7 100 34 } ⟨h₄, f₁⟩ =
        [createMessage 34 95 0 7])
      require (onTransfer h₃ 2 false 1 = .ok ⟨1, 19 / 20, 1 / 20⟩)
      require (sendToHome 100 100 (homeStore h₃ 100 2) 2 1 = .ok 100)
      require (h₄.requests = [(33, 95, 0)])
      require (f₂.released = [(34, 95, 0)])
      require (h₃.txHash = 0)
      pure [v.requiredSignatures.toNat, h₂.validators.requiredSignatures.toNat]) = some [2, 2] := by
    decide +kernel
  simp only [Option.bind_eq_bind, Option.bind_eq_some_iff, require_eq_some, exists_const, Option.pure_def,
    Option.some.injEq, List.cons.injEq, and_true] at heval
  obtain ⟨v, hv, h₂, hsecond, h₃, hthird, h₄, hcall, f₂, hrelay, hreal, hsign, hshown, hsent, hrequests, hreleased,
    hhash, hrequired, hrequired'⟩ := heval
  let c : Setting (List Byte) Nat Ledger :=
    { sampleSetting with homeInput := fun _ => encoding .transferAndCall 7 100 34 }
  let h₁ : Home (List Byte) Nat := { sampleHome 0 with validators := v }
  let f₀ : Foreign Ledger := Foreign.sampleForeign v sampleLedger
  let f₁ : Foreign Ledger := { f₀ with world := sampleLedger.move 33 7 100 77 }
  have hcard : ({2} : Finset Address).card < 2 := by decide
  have hmem : (33, 100, 77) ∈ realDeposits c ⟨h₁, f₁⟩ := hreal ▸ List.mem_singleton.mpr rfl
  have hmessage : createMessage 34 95 0 7 ∈ signable c ⟨h₄, f₁⟩ := hsign ▸ List.mem_singleton.mpr rfl
  have htoken {tx : BridgeTx} {s s' : Home (List Byte) Nat} {f : Foreign Ledger}
      (hadmits : Home.Admits {2} (realDeposits c ⟨s, f⟩) s tx)
      (h : Home.exec serialHash Foreign.signerV .ercToErcWithFee supplyToken s tx = some s') :
      Step c ⟨s, f⟩ ⟨s', f⟩ :=
    .home (.bridge 1 ⟨supplyToken, tx, hadmits, supplyToken_within fun _ => .refl, h⟩)
  -- the deployment is completed, a deposit, two affirmations, the withdrawal, its release
  have hinit : Step c ⟨sampleHome 0, f₀⟩ ⟨h₁, f₀⟩ := .home (.validators ⟨.initializeWith 2 [1, 2] 9, hv⟩)
  have hdeposit : Step c ⟨h₁, f₀⟩ ⟨h₁, f₁⟩ := by
    have hsource : (33 : Address) ≠ 7 := by decide
    have henough : (100 : UInt256).toNat ≤ sampleLedger.balances 33 := by decide
    exact .foreign (.elsewhere ⟨_, rfl, .transfer 33 7 100 hsource (Ledger.move_moves 77 henough)⟩)
  have hsigned₁ : Step c ⟨h₁, f₁⟩ ⟨h₂, f₁⟩ := by
    refine htoken ?_ hsecond
    exact ⟨hrequired ▸ hcard, fun _ => hmem⟩
  have hsigned₂ : Step c ⟨h₂, f₁⟩ ⟨h₃, f₁⟩ := by
    refine htoken ?_ hthird
    exact ⟨hrequired' ▸ hcard, fun _ => hmem⟩
  have hwithdrawn : Step c ⟨h₃, f₁⟩ ⟨h₄, f₁⟩ := by
    have hexec : Home.exec serialHash Foreign.signerV .ercToErcWithFee supplyToken h₃
        (.onTokenTransfer h₃.bridge.erc677token 33 100) = some h₄ := hcall
    refine htoken ?_ hexec
    exact trivial
  have hrelayed : Step c ⟨h₄, f₁⟩ ⟨h₄, f₂⟩ := by
    refine .foreign (.bridge 1 ⟨ledgerToken, _, ?_, ledgerToken_within fun _ => .refl, hrelay⟩)
    exact ⟨hrequired ▸ hcard, fun _ _ _ => hmessage⟩
  have hfresh : Fresh c ⟨sampleHome 0, f₀⟩ := ⟨Home.deploy_fresh .., Foreign.deploy_fresh hv .., rfl, rfl⟩
  have hrun := (((Relation.ReflTransGen.single hinit).tail hdeposit).tail hsigned₁).tail hsigned₂
  have hone : ∀ w ∈ h₄.requests, ∀ w' ∈ h₄.requests, w.2.2 = h₃.txHash → w'.2.2 = h₃.txHash → w = w' := by
    rw [hrequests]
    intro w hw w' hw' _ _
    exact (List.mem_singleton.mp hw).trans (List.mem_singleton.mp hw').symm
  have hwritten : Written plainAbi .transferAndCall 7 34 (c.homeInput h₃.txHash) := written_iff.mpr ⟨100, rfl⟩
  have hmem' : (34, 95, 0) ∈ f₂.released := hreleased ▸ List.mem_singleton.mpr rfl
  obtain ⟨_, hvalue⟩ := released_as_confirmed hfresh hrun (by decide) hshown hsent rfl supplyToken_txHash hcall
    hwithdrawn (.single hrelayed) hone (by decide) hwritten _ hmem' hhash.symm
  exact ⟨c, _, _, (hrun.tail hwithdrawn).tail hrelayed, hmem', hvalue⟩

end BridgeForm
end ThunderBridge
