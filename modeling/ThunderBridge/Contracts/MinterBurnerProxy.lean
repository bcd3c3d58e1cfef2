import Mathlib.Data.FinEnum
import Mathlib.Algebra.Order.BigOperators.Group.Finset
import ThunderBridge.Contracts.Erc20
import ThunderBridge.Lib.Traces

/-!
# `Contracts.MinterBurnerProxy` — several minters of one token, each within its limits

`MinterBurnerProxy.sol` owns the token. Its operators, the bridge among them, mint and burn through it, and it
limits what goes through: a call, an operator's day, everybody's day.

Mints and burns are limited alike, so both have a `Quota`. Everything is added with plain `+`, which wraps. A
mint of nearly `2 ^ 256` needs a token whose supply has room for it, and burning makes that room again; so a
day's sum can wrap to a small number. `caps_hold_iff` says that this is the only way to pass the limits.
-/

namespace ThunderBridge

/-! ## The program -/

/-- The limits on mints (or on burns) and what was used of them: `perMintLimit`, `dailyMintLimit`,
    `operatorDailyMintLimit`, `totalDailyMinted`, `operatorDailyMinted`. A limit of zero is none. -/
structure Quota where
  perLimit : UInt256
  dailyLimit : UInt256
  operatorDailyLimit : Address → UInt256
  totalDaily : UInt256 → UInt256
  operatorDaily : Address → UInt256 → UInt256

namespace Quota

/-- The checks at the head of `mint` and `burn`. -/
def allows (q : Quota) (operator : Address) (today value : UInt256) : Prop :=
  (0 < q.perLimit → value ≤ q.perLimit) ∧
    (0 < q.operatorDailyLimit operator →
      value + q.operatorDaily operator today ≤ q.operatorDailyLimit operator) ∧
    (0 < q.dailyLimit → value + q.totalDaily today ≤ q.dailyLimit)

instance (q : Quota) (operator : Address) (today value : UInt256) :
    Decidable (q.allows operator today value) := by
  unfold allows
  infer_instance

/-- The two additions at their end. -/
def use (q : Quota) (operator : Address) (today value : UInt256) : Quota :=
  { q with
    totalDaily := Function.update q.totalDaily today (q.totalDaily today + value)
    operatorDaily := Function.update q.operatorDaily operator
      (Function.update (q.operatorDaily operator) today (q.operatorDaily operator today + value)) }

section Use

variable (q : Quota) (operator : Address) (today value : UInt256)

@[simp] theorem use_perLimit : (q.use operator today value).perLimit = q.perLimit := rfl

@[simp] theorem use_dailyLimit : (q.use operator today value).dailyLimit = q.dailyLimit := rfl

@[simp] theorem use_operatorDailyLimit :
    (q.use operator today value).operatorDailyLimit = q.operatorDailyLimit := rfl

@[simp] theorem use_totalDaily (day : UInt256) : (q.use operator today value).totalDaily day =
    if day = today then q.totalDaily today + value else q.totalDaily day := by
  simp [use, Function.update_apply]

@[simp] theorem use_operatorDaily (a : Address) (day : UInt256) :
    (q.use operator today value).operatorDaily a day =
      if a = operator ∧ day = today then q.operatorDaily operator today + value else q.operatorDaily a day := by
  by_cases ha : a = operator
  · subst ha
    simp [use, Function.update_apply]
  · simp [use, ha]

end Use

end Quota

/-- The storage of `MinterBurnerProxy`. -/
structure MinterBurnerProxy where
  owner : Address
  token : Address
  thunderBridge : Address
  thunderBridgeSupply : UInt256
  operators : Address → Bool
  mints : Quota
  burns : Quota

/-- The token the proxy owns, with checked arithmetic. -/
structure CheckedToken where
  totalSupply : UInt256
  balanceOf : Address → UInt256

namespace CheckedToken

def mint (t : CheckedToken) (target : Address) (value : UInt256) : Option CheckedToken := do
  let totalSupply ← SafeMath.add t.totalSupply value
  let balance ← SafeMath.add (t.balanceOf target) value
  pure ⟨totalSupply, Function.update t.balanceOf target balance⟩

def burn (t : CheckedToken) (who : Address) (value : UInt256) : Option CheckedToken := do
  let balance ← SafeMath.sub (t.balanceOf who) value
  let totalSupply ← SafeMath.sub t.totalSupply value
  pure ⟨totalSupply, Function.update t.balanceOf who balance⟩

def transfer (t : CheckedToken) (source target : Address) (value : UInt256) : Option CheckedToken := do
  let balance ← SafeMath.sub (t.balanceOf source) value
  let t : CheckedToken := ⟨t.totalSupply, Function.update t.balanceOf source balance⟩
  let balance ← SafeMath.add (t.balanceOf target) value
  pure ⟨t.totalSupply, Function.update t.balanceOf target balance⟩

end CheckedToken

/-- What a successful mint or burn leaves behind. -/
inductive Side where
  | mint
  | burn
deriving DecidableEq, Repr

structure Receipt where
  side : Side
  day : UInt256
  operator : Address
  value : UInt256
deriving DecidableEq, Repr

def Receipt.amount (r : Receipt) : Nat := r.value.toNat

/-- The proxy, its token and the block time. -/
structure Minting where
  proxy : MinterBurnerProxy
  token : CheckedToken
  now : UInt256
  /-- What went through so far, newest first; no function reads it. -/
  receipts : List Receipt

/-- The functions of the owner. -/
inductive ProxySetting where
  | addOperator (addr : Address)
  | removeOperator (addr : Address)
  | setThunderBridgeSupply (amount : UInt256)
  | setDailyMintLimit (amount : UInt256)
  | setPerMintLimit (amount : UInt256)
  | setOperatorDailyMintLimit (amount : UInt256) (operator : Address)
  | setDailyBurnLimit (amount : UInt256)
  | setPerBurnLimit (amount : UInt256)
  | setOperatorDailyBurnLimit (amount : UInt256) (operator : Address)
deriving DecidableEq, Repr

/-- What happens to the proxy and its token. -/
inductive ProxyTx where
  /-- `answer` is what the token's `mint` returns. -/
  | mint (sender target : Address) (value : UInt256) (answer : Bool)
  | burn (sender who : Address) (value : UInt256)
  | setting (sender : Address) (setting : ProxySetting)
  /-- `callToken`: the owner calls the token in the proxy's name; `none` when the token reverts. -/
  | callToken (sender : Address) (reply : Option CheckedToken)
  /-- A holder of the token transfers some. -/
  | transfer (source target : Address) (value : UInt256)
  | tick (now : UInt256)

namespace Minting

def getCurrentDay (m : Minting) : UInt256 := m.now / days

def setProxy (m : Minting) (p : MinterBurnerProxy) : Minting := { m with proxy := p }

def setToken (m : Minting) (t : CheckedToken) : Minting := { m with token := t }

/-- `mint`, the token answering `answer`. -/
def mint (m : Minting) (sender target : Address) (value : UInt256) (answer : Bool) : Option Minting := do
  require (m.proxy.operators sender = true)
  require (m.proxy.mints.allows sender m.getCurrentDay value)
  if answer then do
    let token ← m.token.mint target value
    let p := m.proxy
    let p := if sender = p.thunderBridge then
      { p with thunderBridgeSupply := p.thunderBridgeSupply + value } else p
    let p := { p with mints := p.mints.use sender m.getCurrentDay value }
    pure { m with
      proxy := p
      token := token
      receipts := ⟨.mint, m.getCurrentDay, sender, value⟩ :: m.receipts }
  -- the proxy counts nothing and returns false itself
  else pure m

/-- `burn`. -/
def burn (m : Minting) (sender who : Address) (value : UInt256) : Option Minting := do
  require (m.proxy.operators sender = true)
  require (m.proxy.burns.allows sender m.getCurrentDay value)
  let token ← m.token.burn who value
  let p := m.proxy
  let p := if sender = p.thunderBridge then
    { p with thunderBridgeSupply := p.thunderBridgeSupply - value } else p
  let p := { p with burns := p.burns.use sender m.getCurrentDay value }
  pure { m with
    proxy := p
    token := token
    receipts := ⟨.burn, m.getCurrentDay, sender, value⟩ :: m.receipts }

def applySetting (p : MinterBurnerProxy) : ProxySetting → MinterBurnerProxy
  | .addOperator addr => { p with operators := Function.update p.operators addr true }
  | .removeOperator addr => { p with operators := Function.update p.operators addr false }
  | .setThunderBridgeSupply amount => { p with thunderBridgeSupply := amount }
  | .setDailyMintLimit amount => { p with mints := { p.mints with dailyLimit := amount } }
  | .setPerMintLimit amount => { p with mints := { p.mints with perLimit := amount } }
  | .setOperatorDailyMintLimit amount operator =>
      { p with mints := { p.mints with
        operatorDailyLimit := Function.update p.mints.operatorDailyLimit operator amount } }
  | .setDailyBurnLimit amount => { p with burns := { p.burns with dailyLimit := amount } }
  | .setPerBurnLimit amount => { p with burns := { p.burns with perLimit := amount } }
  | .setOperatorDailyBurnLimit amount operator =>
      { p with burns := { p.burns with
        operatorDailyLimit := Function.update p.burns.operatorDailyLimit operator amount } }

/-- One transaction; `none` when it reverts. -/
def exec (m : Minting) : ProxyTx → Option Minting
  | .mint sender target value answer => m.mint sender target value answer
  | .burn sender who value => m.burn sender who value
  | .setting sender setting => do
      require (sender = m.proxy.owner)
      pure (m.setProxy (applySetting m.proxy setting))
  | .callToken sender reply => do
      require (sender = m.proxy.owner)
      let token ← reply
      pure (m.setToken token)
  | .transfer source target value => do
      let token ← m.token.transfer source target value
      pure (m.setToken token)
  | .tick now => do
      require (m.now ≤ now)
      pure { m with now := now }

/-- A transaction that reverts changes nothing. -/
def step (m : Minting) (tx : ProxyTx) : Minting := (m.exec tx).getD m

/-! ## What a transaction does to the two quotas -/

def quota (m : Minting) : Side → Quota
  | .mint => m.proxy.mints
  | .burn => m.proxy.burns

/-- `thunderBridgeSupply` after a mint or burn of the bridge. -/
def supplyAfter (supply value : UInt256) : Side → UInt256
  | .mint => supply + value
  | .burn => supply - value

/-- A mint or burn of `value` by `operator` went through. -/
structure Charged (side : Side) (operator : Address) (value : UInt256) (m m' : Minting) : Prop where
  allowed : (m.quota side).allows operator m.getCurrentDay value
  quota : m'.quota side = (m.quota side).use operator m.getCurrentDay value
  other : ∀ side', side' ≠ side → m'.quota side' = m.quota side'
  receipts : m'.receipts = ⟨side, m.getCurrentDay, operator, value⟩ :: m.receipts
  bridge : m'.proxy.thunderBridge = m.proxy.thunderBridge
  supply : m'.proxy.thunderBridgeSupply = if operator = m.proxy.thunderBridge then
    supplyAfter m.proxy.thunderBridgeSupply value side else m.proxy.thunderBridgeSupply

/-- The limits stay as they are. -/
def KeepsLimits : ProxyTx → Prop
  | .setting _ (.addOperator _) => True
  | .setting _ (.removeOperator _) => True
  | .setting _ (.setThunderBridgeSupply _) => True
  | .setting _ _ => False
  | _ => True

/-- The owner does not overwrite the supply. -/
def KeepsSupply : ProxyTx → Prop
  | .setting _ (.setThunderBridgeSupply _) => False
  | _ => True

/-- Nothing was minted or burned through the proxy. -/
structure Uncharged (tx : ProxyTx) (m m' : Minting) : Prop where
  receipts : m'.receipts = m.receipts
  bridge : m'.proxy.thunderBridge = m.proxy.thunderBridge
  quota : KeepsLimits tx → ∀ side, m'.quota side = m.quota side
  supply : KeepsSupply tx → m'.proxy.thunderBridgeSupply = m.proxy.thunderBridgeSupply

theorem Uncharged.refl (tx : ProxyTx) (m : Minting) : Uncharged tx m m :=
  ⟨rfl, rfl, fun _ _ => rfl, fun _ => rfl⟩

/-- What the transaction is to charge to whom: a mint that the token answers with true, or a burn. -/
def charge : ProxyTx → Option (Side × Address × UInt256)
  | .mint sender _ value true => some (.mint, sender, value)
  | .burn sender _ value => some (.burn, sender, value)
  | _ => none

/-- The checks of the proxy and of the token. -/
def accepts (m : Minting) : ProxyTx → Prop
  | .mint sender target value _ =>
      m.proxy.operators sender = true ∧ m.proxy.mints.allows sender m.getCurrentDay value ∧
        (m.token.mint target value).isSome
  | .burn sender who value =>
      m.proxy.operators sender = true ∧ m.proxy.burns.allows sender m.getCurrentDay value ∧
        (m.token.burn who value).isSome
  | _ => True

variable {m m' : Minting} {sender target who operator : Address} {value : UInt256} {tx : ProxyTx}

theorem mint_charged (h : m.mint sender target value true = some m') :
    Charged .mint sender value m m' := by
  simp only [mint, if_true, Option.bind_eq_bind, Option.bind_eq_some_iff, require_eq_some, exists_const,
    Option.pure_def, Option.some.injEq] at h
  obtain ⟨_, hallows, _, _, rfl⟩ := h
  refine ⟨hallows, ?_, ?_, rfl, ?_, ?_⟩
  · show Quota.use _ _ _ _ = Quota.use _ _ _ _
    split <;> rfl
  · intro side hside
    cases side with
    | mint => exact absurd rfl hside
    | burn =>
        show MinterBurnerProxy.burns (ite _ _ _) = _
        split <;> rfl
  · show MinterBurnerProxy.thunderBridge (ite _ _ _) = _
    split <;> rfl
  · show MinterBurnerProxy.thunderBridgeSupply (ite _ _ _) = _
    split <;> rfl

theorem burn_charged (h : m.burn sender who value = some m') : Charged .burn sender value m m' := by
  simp only [burn, Option.bind_eq_bind, Option.bind_eq_some_iff, require_eq_some, exists_const,
    Option.pure_def, Option.some.injEq] at h
  obtain ⟨_, hallows, _, _, rfl⟩ := h
  refine ⟨hallows, ?_, ?_, rfl, ?_, ?_⟩
  · show Quota.use _ _ _ _ = Quota.use _ _ _ _
    split <;> rfl
  · intro side hside
    cases side with
    | mint =>
        show MinterBurnerProxy.mints (ite _ _ _) = _
        split <;> rfl
    | burn => exact absurd rfl hside
  · show MinterBurnerProxy.thunderBridge (ite _ _ _) = _
    split <;> rfl
  · show MinterBurnerProxy.thunderBridgeSupply (ite _ _ _) = _
    split <;> rfl

/-- What is charged goes through exactly when the proxy and the token accept it. -/
theorem exec_isSome_iff {c : Side × Address × UInt256} (h : charge tx = some c) :
    (m.exec tx).isSome ↔ m.accepts tx := by
  cases tx with
  | mint sender target value answer =>
      cases answer with
      | true =>
          simp [exec, mint, accepts, Option.isSome_iff_exists, Option.bind_eq_some_iff]
      | false => cases h
  | burn sender who value =>
      simp [exec, burn, accepts, Option.isSome_iff_exists, Option.bind_eq_some_iff]
  | setting sender setting => cases h
  | callToken sender reply => cases h
  | transfer source target value => cases h
  | tick now => cases h

/-- Whatever else goes through charges nothing. -/
theorem exec_uncharged (hcharge : charge tx = none) (h : m.exec tx = some m') : Uncharged tx m m' := by
  cases tx with
  | mint sender target value answer =>
      cases answer with
      | true => cases hcharge
      | false =>
          simp only [exec, mint, Option.bind_eq_bind, Option.bind_eq_some_iff, require_eq_some, exists_const,
            Option.pure_def, Option.some.injEq, Bool.false_eq_true, if_false] at h
          obtain ⟨_, _, rfl⟩ := h
          exact Uncharged.refl _ m
  | burn sender who value => cases hcharge
  | setting sender setting =>
      simp only [exec, Option.bind_eq_bind, Option.bind_eq_some_iff, require_eq_some, exists_const,
        Option.pure_def, Option.some.injEq] at h
      obtain ⟨_, rfl⟩ := h
      refine ⟨rfl, by cases setting <;> rfl, ?_, ?_⟩
      · -- the settings that change a limit are excluded
        intro hkeeps
        cases setting <;> first | exact hkeeps.elim | (rintro (_ | _) <;> rfl)
      · intro hkeeps
        cases setting <;> first | exact hkeeps.elim | rfl
  | callToken sender reply =>
      simp only [exec, Option.bind_eq_bind, Option.bind_eq_some_iff, require_eq_some, exists_const,
        Option.pure_def, Option.some.injEq] at h
      obtain ⟨_, _, _, rfl⟩ := h
      exact ⟨rfl, rfl, fun _ => by rintro (_ | _) <;> rfl, fun _ => rfl⟩
  | transfer source target value =>
      simp only [exec, Option.bind_eq_bind, Option.bind_eq_some_iff, Option.pure_def, Option.some.injEq] at h
      obtain ⟨_, _, rfl⟩ := h
      exact ⟨rfl, rfl, fun _ => by rintro (_ | _) <;> rfl, fun _ => rfl⟩
  | tick now =>
      simp only [exec, Option.bind_eq_bind, Option.bind_eq_some_iff, require_eq_some, exists_const,
        Option.pure_def, Option.some.injEq] at h
      obtain ⟨_, rfl⟩ := h
      exact ⟨rfl, rfl, fun _ => by rintro (_ | _) <;> rfl, fun _ => rfl⟩

theorem exec_charged {side : Side} (hcharge : charge tx = some (side, operator, value))
    (h : m.exec tx = some m') : Charged side operator value m m' := by
  cases tx with
  | mint sender target value answer =>
      cases answer with
      | true =>
          obtain ⟨rfl, rfl, rfl⟩ := by simpa [charge] using hcharge
          exact mint_charged h
      | false => cases hcharge
  | burn sender who value =>
      obtain ⟨rfl, rfl, rfl⟩ := by simpa [charge] using hcharge
      exact burn_charged h
  | setting sender setting => cases hcharge
  | callToken sender reply => cases hcharge
  | transfer source target value => cases hcharge
  | tick now => cases hcharge

/-- **One transaction** charges one mint or burn that was accepted, or nothing. -/
theorem step_cases (m : Minting) (tx : ProxyTx) :
    (∃ side operator value, charge tx = some (side, operator, value) ∧ m.accepts tx ∧
      Charged side operator value m (m.step tx)) ∨
    ((charge tx = none ∨ ¬ m.accepts tx) ∧ Uncharged tx m (m.step tx)) := by
  unfold step
  cases hexec : m.exec tx with
  | none =>
      refine .inr ⟨?_, Uncharged.refl tx m⟩
      cases hcharge : charge tx with
      | none => exact .inl rfl
      | some c =>
          right
          rw [← exec_isSome_iff hcharge, hexec]
          exact Bool.false_ne_true
  | some m' =>
      cases hcharge : charge tx with
      | none => exact .inr ⟨.inl rfl, exec_uncharged hcharge hexec⟩
      | some c =>
          obtain ⟨side, operator, value⟩ := c
          refine .inl ⟨side, operator, value, rfl, ?_, exec_charged hcharge hexec⟩
          rw [← exec_isSome_iff hcharge, hexec]
          rfl

/-! ## The totals of a day -/

/-- What went through on a day. -/
def used (rs : List Receipt) (side : Side) (day : UInt256) : Nat :=
  tally Receipt.amount (rs.filter fun r => r.side = side ∧ r.day = day)

/-- What went through on a day for an operator. -/
def usedBy (rs : List Receipt) (side : Side) (operator : Address) (day : UInt256) : Nat :=
  tally Receipt.amount (rs.filter fun r => (r.side = side ∧ r.day = day) ∧ r.operator = operator)

/-- The sum of the operators' counters. -/
def operatorsTotal (q : Quota) (day : UInt256) : Nat := ∑ a : Address, (q.operatorDaily a day).toNat

theorem used_cons (r : Receipt) (rs : List Receipt) (side : Side) (day : UInt256) :
    used (r :: rs) side day = (if r.side = side ∧ r.day = day then r.amount else 0) + used rs side day := by
  unfold used
  by_cases h : r.side = side ∧ r.day = day <;> simp [h]

theorem usedBy_cons (r : Receipt) (rs : List Receipt) (side : Side) (operator : Address) (day : UInt256) :
    usedBy (r :: rs) side operator day =
      (if (r.side = side ∧ r.day = day) ∧ r.operator = operator then r.amount else 0) +
        usedBy rs side operator day := by
  unfold usedBy
  by_cases h : (r.side = side ∧ r.day = day) ∧ r.operator = operator <;> simp [h]

/-- The operators' shares of a day make up the day. -/
theorem sum_usedBy (rs : List Receipt) (side : Side) (day : UInt256) :
    ∑ a : Address, usedBy rs side a day = used rs side day :=
  sum_tally_filter Receipt.amount Receipt.operator (fun r => r.side = side ∧ r.day = day) rs

theorem usedBy_le_used (rs : List Receipt) (side : Side) (operator : Address) (day : UInt256) :
    usedBy rs side operator day ≤ used rs side day := by
  rw [← sum_usedBy]
  exact Finset.single_le_sum_of_canonicallyOrdered (f := fun a => usedBy rs side a day)
    (Finset.mem_univ operator)

/-- **The limits hold on one side**: the counters are the sums of what went through, and no sum of a day is
    above a positive limit. -/
structure WithinCaps (m : Minting) (side : Side) : Prop where
  total_exact : ∀ day, ((m.quota side).totalDaily day).toNat = used m.receipts side day
  operator_exact : ∀ a day, ((m.quota side).operatorDaily a day).toNat = usedBy m.receipts side a day
  operators_sum : ∀ day, operatorsTotal (m.quota side) day = ((m.quota side).totalDaily day).toNat
  total_capped : 0 < (m.quota side).dailyLimit → ∀ day,
    used m.receipts side day ≤ (m.quota side).dailyLimit.toNat
  operator_capped : ∀ a, 0 < (m.quota side).operatorDailyLimit a → ∀ day,
    usedBy m.receipts side a day ≤ ((m.quota side).operatorDailyLimit a).toNat

theorem operatorsTotal_eq {q : Quota} {rs : List Receipt} {side : Side} {day : UInt256}
    (h : ∀ a, (q.operatorDaily a day).toNat = usedBy rs side a day) : operatorsTotal q day = used rs side day := by
  unfold operatorsTotal
  rw [← sum_usedBy]
  exact Finset.sum_congr rfl fun a _ => h a

/-- Only quotas and receipts count. -/
theorem WithinCaps.congr {side : Side} (hm : WithinCaps m side) (hquota : m'.quota side = m.quota side)
    (hused : ∀ day, used m'.receipts side day = used m.receipts side day)
    (husedBy : ∀ a day, usedBy m'.receipts side a day = usedBy m.receipts side a day) :
    WithinCaps m' side where
  total_exact day := by rw [hquota, hused, hm.total_exact]
  operator_exact a day := by rw [hquota, husedBy, hm.operator_exact]
  operators_sum day := by rw [hquota, hm.operators_sum]
  total_capped hlimit day := by
    rw [hquota] at hlimit ⊢
    rw [hused]
    exact hm.total_capped hlimit day
  operator_capped a hlimit day := by
    rw [hquota] at hlimit ⊢
    rw [husedBy]
    exact hm.operator_capped a hlimit day

theorem Uncharged.withinCaps {side : Side} (h : Uncharged tx m m') (hkeeps : KeepsLimits tx)
    (hm : WithinCaps m side) : WithinCaps m' side :=
  hm.congr (h.quota hkeeps side) (fun day => by rw [h.receipts]) (fun a day => by rw [h.receipts])

/-- The other side does not notice a charge. -/
theorem Charged.withinCaps_other {side side' : Side} (h : Charged side operator value m m')
    (hne : side' ≠ side) (hm : WithinCaps m side') : WithinCaps m' side' := by
  apply hm.congr (h.other side' hne)
  · intro day
    rw [h.receipts, used_cons, if_neg (fun hr => hne hr.1.symm), Nat.zero_add]
  · intro a day
    rw [h.receipts, usedBy_cons, if_neg (fun hr => hne hr.1.1.symm), Nat.zero_add]

/-- **A charge keeps the limits exactly when the day's sum does not wrap.** -/
theorem Charged.withinCaps_iff {side : Side} (h : Charged side operator value m m')
    (hm : WithinCaps m side) :
    WithinCaps m' side ↔
      value.toNat + ((m.quota side).totalDaily m.getCurrentDay).toNat < 2 ^ 256 := by
  have husedToday : used m'.receipts side m.getCurrentDay =
      value.toNat + used m.receipts side m.getCurrentDay := by
    rw [h.receipts, used_cons, if_pos ⟨rfl, rfl⟩]
    rfl
  have hused : ∀ day, day ≠ m.getCurrentDay → used m'.receipts side day = used m.receipts side day := by
    intro day hday
    rw [h.receipts, used_cons, if_neg (fun hr => hday hr.2.symm), Nat.zero_add]
  have husedByToday : usedBy m'.receipts side operator m.getCurrentDay =
      value.toNat + usedBy m.receipts side operator m.getCurrentDay := by
    rw [h.receipts, usedBy_cons, if_pos ⟨⟨rfl, rfl⟩, rfl⟩]
    rfl
  have husedBy : ∀ a day, ¬ (a = operator ∧ day = m.getCurrentDay) →
      usedBy m'.receipts side a day = usedBy m.receipts side a day := by
    intro a day hne
    rw [h.receipts, usedBy_cons, if_neg (fun hr => hne ⟨hr.2.symm, hr.1.2.symm⟩), Nat.zero_add]
  constructor
  · intro hm'
    have hexact := hm'.total_exact m.getCurrentDay
    rw [h.quota, husedToday, ← hm.total_exact] at hexact
    have hlt := ((m.quota side).use operator m.getCurrentDay value).totalDaily m.getCurrentDay |>.isLt
    omega
  · intro hfits
    -- no counter wraps: an operator's is not above everybody's
    have hshare := usedBy_le_used m.receipts side operator m.getCurrentDay
    rw [← hm.total_exact, ← hm.operator_exact] at hshare
    have htotal : ∀ day, ((m'.quota side).totalDaily day).toNat = used m'.receipts side day := by
      intro day
      rw [h.quota, Quota.use_totalDaily]
      by_cases hday : day = m.getCurrentDay
      · rw [if_pos hday, hday, husedToday, ← hm.total_exact, BitVec.toNat_add, Nat.mod_eq_of_lt (by omega),
          Nat.add_comm]
      · rw [if_neg hday, hused day hday, hm.total_exact]
    have hoperator : ∀ a day, ((m'.quota side).operatorDaily a day).toNat = usedBy m'.receipts side a day := by
      intro a day
      rw [h.quota, Quota.use_operatorDaily]
      by_cases hne : a = operator ∧ day = m.getCurrentDay
      · obtain ⟨rfl, rfl⟩ := hne
        rw [if_pos ⟨rfl, rfl⟩, husedByToday, ← hm.operator_exact, BitVec.toNat_add,
          Nat.mod_eq_of_lt (by omega), Nat.add_comm]
      · rw [if_neg hne, husedBy a day hne, hm.operator_exact]
    refine ⟨htotal, hoperator, fun day => (operatorsTotal_eq fun a => hoperator a day).trans (htotal day).symm,
      ?_, ?_⟩
    · intro hlimit day
      rw [h.quota, Quota.use_dailyLimit] at hlimit ⊢
      by_cases hday : day = m.getCurrentDay
      · have hallowed := BitVec.le_def.mp (h.allowed.2.2 hlimit)
        rw [BitVec.toNat_add, Nat.mod_eq_of_lt hfits] at hallowed
        rw [hday, husedToday, ← hm.total_exact]
        exact hallowed
      · rw [hused day hday]
        exact hm.total_capped hlimit day
    · intro a hlimit day
      rw [h.quota, Quota.use_operatorDailyLimit] at hlimit ⊢
      by_cases hne : a = operator ∧ day = m.getCurrentDay
      · obtain ⟨rfl, rfl⟩ := hne
        have hallowed := BitVec.le_def.mp (h.allowed.2.1 hlimit)
        rw [BitVec.toNat_add, Nat.mod_eq_of_lt (by omega)] at hallowed
        rw [husedByToday, ← hm.operator_exact]
        exact hallowed
      · rw [husedBy a day hne]
        exact hm.operator_capped a hlimit day

/-! ## Runs -/

/-- A proxy that has counted nothing yet; its limits are free. -/
structure Fresh (m : Minting) : Prop where
  total : ∀ side day, (m.quota side).totalDaily day = 0
  operator : ∀ side a day, (m.quota side).operatorDaily a day = 0
  receipts : m.receipts = []

theorem Fresh.withinCaps (h : Fresh m) (side : Side) : WithinCaps m side := by
  have hused : ∀ day, used m.receipts side day = 0 := by
    intro day
    rw [h.receipts]
    rfl
  have husedBy : ∀ a day, usedBy m.receipts side a day = 0 := by
    intro a day
    rw [h.receipts]
    rfl
  have hoperator : ∀ a day, ((m.quota side).operatorDaily a day).toNat = usedBy m.receipts side a day := by
    intro a day
    rw [h.operator, husedBy]
    rfl
  have htotal : ∀ day, ((m.quota side).totalDaily day).toNat = used m.receipts side day := by
    intro day
    rw [h.total, hused]
    rfl
  refine ⟨htotal, hoperator, fun day => (operatorsTotal_eq fun a => hoperator a day).trans (htotal day).symm,
    ?_, ?_⟩
  · intro _ day
    rw [hused]
    exact Nat.zero_le _
  · intro a _ day
    rw [husedBy]
    exact Nat.zero_le _

/-- The day's sum has room for what the transaction charges, if it is accepted. -/
def FitsDay (m : Minting) (tx : ProxyTx) : Prop :=
  ∀ side operator value, charge tx = some (side, operator, value) → m.accepts tx →
    value.toNat + ((m.quota side).totalDaily m.getCurrentDay).toNat < 2 ^ 256

theorem step_withinCaps_iff (hkeeps : KeepsLimits tx) (hm : ∀ side, WithinCaps m side) :
    (∀ side, WithinCaps (m.step tx) side) ↔ FitsDay m tx := by
  rcases step_cases m tx with ⟨side, operator, value, hcharge, haccepts, h⟩ | ⟨hnone, h⟩
  · constructor
    · intro hm' side' operator' value' hcharge' _
      obtain ⟨rfl, rfl, rfl⟩ := by simpa [hcharge] using hcharge'
      exact (h.withinCaps_iff (hm side)).mp (hm' side)
    · intro hfits side'
      by_cases hside : side' = side
      · rw [hside]
        exact (h.withinCaps_iff (hm side)).mpr (hfits side operator value hcharge haccepts)
      · exact h.withinCaps_other hside (hm side')
  · constructor
    · intro _ side operator value hcharge haccepts
      rcases hnone with hnone | hnone
      · rw [hnone] at hcharge
        cases hcharge
      · exact absurd haccepts hnone
    · intro _ side
      exact h.withinCaps hkeeps (hm side)

/-- **Caps.** In every run of the proxy with fixed limits, the limits hold and the counters are exact in all
    states exactly when no accepted mint or burn makes the sum of its day reach `2 ^ 256`. -/
theorem caps_hold_iff {m₀ : Minting} (hfresh : Fresh m₀) {txs : List ProxyTx}
    (hkeeps : ∀ tx ∈ txs, KeepsLimits tx) :
    Traces.Throughout step (fun m => ∀ side, WithinCaps m side) m₀ txs ↔
      Traces.EachInput step FitsDay m₀ txs := by
  apply Traces.throughout_iff_eachInput (I := fun _ => True)
  · intro _ _ _ _
    trivial
  · intro m _ hm tx htx
    exact step_withinCaps_iff (hkeeps tx htx) hm
  · trivial
  · exact hfresh.withinCaps

/-! ## A proxy to evaluate -/

/-- Owner 9, token 5, bridge 7 and a second operator 2; 100 may be minted a day. -/
def sampleMinting : Minting where
  proxy :=
    { owner := 9
      token := 5
      thunderBridge := 7
      thunderBridgeSupply := 0
      operators := fun a => a = 7 ∨ a = 2
      mints := ⟨0, 100, fun _ => 0, fun _ => 0, fun _ _ => 0⟩
      burns := ⟨0, 0, fun _ => 0, fun _ => 0, fun _ _ => 0⟩ }
  token := ⟨0, fun _ => 0⟩
  now := 0
  receipts := []

theorem sampleMinting_fresh : Fresh sampleMinting :=
  ⟨by rintro (_ | _) _ <;> rfl, by rintro (_ | _) _ _ <;> rfl, rfl⟩

/-- The two operators share the day. -/
theorem caps_hold_two : Traces.Throughout step (fun m => ∀ side, WithinCaps m side) sampleMinting
    [.mint 7 33 60 true, .mint 2 34 40 true] := by
  rw [caps_hold_iff sampleMinting_fresh (by simp [KeepsLimits]), Traces.eachInput_cons, Traces.eachInput_cons]
  refine ⟨?_, ?_, Traces.eachInput_nil⟩
  · intro side operator value hcharge _
    obtain ⟨rfl, rfl, rfl⟩ := by simpa [charge] using hcharge
    decide +kernel
  · intro side operator value hcharge _
    obtain ⟨rfl, rfl, rfl⟩ := by simpa [charge] using hcharge
    decide +kernel

/-- 60 are minted and burned again, and then the bridge mints `2 ^ 256 - 60`: the day's sum is zero again, and
    the token has room. -/
theorem cap_passed_by_wrapping :
    Fresh sampleMinting ∧
    (∀ tx ∈ [ProxyTx.mint 7 33 60 true, .burn 7 33 60, .mint 7 33 (0 - 60) true], KeepsLimits tx) ∧
    (Traces.after step sampleMinting
      [.mint 7 33 60 true, .burn 7 33 60, .mint 7 33 (0 - 60) true]).proxy.mints.dailyLimit = 100 ∧
    used (Traces.after step sampleMinting
      [.mint 7 33 60 true, .burn 7 33 60, .mint 7 33 (0 - 60) true]).receipts .mint 0 = 2 ^ 256 ∧
    (Traces.after step sampleMinting
      [.mint 7 33 60 true, .burn 7 33 60, .mint 7 33 (0 - 60) true]).proxy.mints.totalDaily 0 = 0 := by
  refine ⟨sampleMinting_fresh, by simp [KeepsLimits], ?_, ?_, ?_⟩ <;> decide +kernel

end Minting
end ThunderBridge
