import ThunderBridge.Contracts.BridgeValidators

/-!
# `Contracts.BasicBridge` — what the bridges of both chains share

A call out of a bridge is an `ExtCall`; a `Callee` is what answers it. It sees the whole chain, may change
it (also by calling the bridge back), and either reverts or returns data. `BasicBridge` is the storage of
the limits, with one field for each logical entry of `EternalStorage`.

`Payments` are the amounts that successful calls moved, which is what the properties about money count.
-/

namespace ThunderBridge

/-! ## Calls out of a contract -/

/-- The calls the bridges make to contracts and accounts outside. -/
inductive ExtCall where
  | mint (token target : Address) (amount : UInt256)
  | burn (token : Address) (amount : UInt256)
  | transfer (token target : Address) (amount : UInt256)
  | minterBurnerMint (proxy target : Address) (amount : UInt256)
  | minterBurnerBurn (proxy who : Address) (amount : UInt256)
  | send (target : Address) (amount : UInt256)
deriving DecidableEq, Repr

/-- What the callee does to the state and the data it returns; `none` when it reverts. -/
abbrev Callee (S : Type) := ExtCall → S → Option (S × Bytes)

namespace Callee

variable {S : Type} (call : Callee S)

/-- A call of a function declared to return nothing. -/
def plain (c : ExtCall) (s : S) : Option S := (call c s).map Prod.fst

/-- A call of a function declared to return a `bool`: less than a word of return data reverts. -/
def bool (c : ExtCall) (s : S) : Option (S × Bool) := do
  let (s', data) ← call c s
  require (32 ≤ data.length)
  pure (s', Bytes.mload data 0 != 0)

/-- The same, with the answer not looked at. -/
def unchecked (c : ExtCall) (s : S) : Option S := (call.bool c s).map Prod.fst

/-- A low-level call (`.call`, `.send`): the caller goes on when the callee reverts. -/
def lowLevel (c : ExtCall) (s : S) : S × Option Bytes :=
  match call c s with
  | none => (s, none)
  | some (s', data) => (s', some data)

/-! What went through was answered. -/

section Answered

variable {call : Callee S} {c : ExtCall} {s s' : S}

theorem answered_of_plain (h : call.plain c s = some s') : ∃ data, call c s = some (s', data) := by
  simp only [plain, Option.map_eq_some_iff] at h
  obtain ⟨⟨t, data⟩, hc, rfl⟩ := h
  exact ⟨data, hc⟩

theorem answered_of_bool {b : Bool} (h : call.bool c s = some (s', b)) : ∃ data, call c s = some (s', data) := by
  simp only [bool, Option.bind_eq_bind, Option.bind_eq_some_iff, require_eq_some, exists_const,
    Option.pure_def, Option.some.injEq, Prod.mk.injEq] at h
  obtain ⟨⟨t, data⟩, hc, _, rfl, _⟩ := h
  exact ⟨data, hc⟩

theorem answered_of_unchecked (h : call.unchecked c s = some s') : ∃ data, call c s = some (s', data) := by
  simp only [unchecked, Option.map_eq_some_iff] at h
  obtain ⟨⟨t, b⟩, hb, rfl⟩ := h
  exact answered_of_bool hb

end Answered

/-- A low-level call leaves what the callee left, or what was there. -/
theorem answered_of_lowLevel (c : ExtCall) (s : S) :
    (call.lowLevel c s).1 = s ∨ ∃ data, call c s = some ((call.lowLevel c s).1, data) := by
  unfold lowLevel
  cases hc : call c s with
  | none => exact .inl rfl
  | some p => exact .inr ⟨p.2, rfl⟩

end Callee

/-! ## Storage of `BasicBridge` -/

/-- The storage of `Ownable` and `BasicBridge`. -/
structure BasicBridge where
  owner : Address
  dailyLimit : UInt256
  maxPerTx : UInt256
  minPerTx : UInt256
  executionDailyLimit : UInt256
  executionMaxPerTx : UInt256
  totalSpentPerDay : UInt256 → UInt256
  totalExecutedPerDay : UInt256 → UInt256

namespace BasicBridge

/-- `withinLimit` on the given day. -/
def withinLimit (b : BasicBridge) (today amount : UInt256) : Option Bool := do
  let nextLimit ← SafeMath.add (b.totalSpentPerDay today) amount
  pure (nextLimit ≤ b.dailyLimit && amount ≤ b.maxPerTx && b.minPerTx ≤ amount)

/-- `withinExecutionLimit` on the given day. -/
def withinExecutionLimit (b : BasicBridge) (today amount : UInt256) : Option Bool := do
  let nextLimit ← SafeMath.add (b.totalExecutedPerDay today) amount
  pure (nextLimit ≤ b.executionDailyLimit && amount ≤ b.executionMaxPerTx)

def setTotalSpentPerDay (b : BasicBridge) (day value : UInt256) : BasicBridge :=
  { b with totalSpentPerDay := Function.update b.totalSpentPerDay day value }

def setTotalExecutedPerDay (b : BasicBridge) (day value : UInt256) : BasicBridge :=
  { b with totalExecutedPerDay := Function.update b.totalExecutedPerDay day value }

/-- The setters of `Ownable` and `BasicBridge`, called by the owner. -/
inductive Setting where
  | setDailyLimit (dailyLimit : UInt256)
  | setExecutionDailyLimit (dailyLimit : UInt256)
  | setExecutionMaxPerTx (maxPerTx : UInt256)
  | setMaxPerTx (maxPerTx : UInt256)
  | setMinPerTx (minPerTx : UInt256)
  | transferOwnership (newOwner : Address)
deriving DecidableEq, Repr

def applySetting (b : BasicBridge) : Setting → Option BasicBridge
  | .setDailyLimit n => pure { b with dailyLimit := n }
  | .setExecutionDailyLimit n => pure { b with executionDailyLimit := n }
  | .setExecutionMaxPerTx n => do
      require (n < b.executionDailyLimit)
      pure { b with executionMaxPerTx := n }
  | .setMaxPerTx n => do
      require (n < b.dailyLimit)
      pure { b with maxPerTx := n }
  | .setMinPerTx n => do
      require (n < b.dailyLimit ∧ n < b.maxPerTx)
      pure { b with minPerTx := n }
  | .transferOwnership a => do
      require (a ≠ 0)
      pure { b with owner := a }

/-- No setting moves a daily counter. -/
theorem applySetting_counters {b b' : BasicBridge} {setting : Setting} (h : b.applySetting setting = some b') :
    b'.totalSpentPerDay = b.totalSpentPerDay ∧ b'.totalExecutedPerDay = b.totalExecutedPerDay := by
  cases setting with
  | setDailyLimit _ | setExecutionDailyLimit _ =>
      obtain rfl := Option.some.inj h
      exact ⟨rfl, rfl⟩
  | setExecutionMaxPerTx _ | setMaxPerTx _ | setMinPerTx _ | transferOwnership _ =>
      simp only [applySetting, Option.bind_eq_bind, Option.bind_eq_some_iff, require_eq_some, exists_const,
        Option.pure_def, Option.some.injEq] at h
      obtain ⟨_, rfl⟩ := h
      exact ⟨rfl, rfl⟩

end BasicBridge

/-! ## Claiming -/

namespace BasicBridge

variable {S : Type}

/-- `claimTokens`, where `coin` is `address(this).balance`, and `balanceOf` asks a token what the bridge holds of it. -/
def claimTokens (call : Callee S) (balanceOf : Address → S → Option (S × UInt256)) (proxyOwner : Address)
    (coin : UInt256) (s : S) (sender token target : Address) : Option S := do
  require (sender = proxyOwner)
  require (target ≠ 0)
  if token = 0 then call.plain (.send target coin) s
  else do
    let (s, balance) ← balanceOf token s
    let (s, ok) ← call.bool (.transfer token target balance) s
    require (ok = true)
    pure s

/-- A claim that goes through sent all coin, or transferred what the bridge held of a token. -/
theorem claimTokens_cases {call : Callee S} {balanceOf : Address → S → Option (S × UInt256)} {proxyOwner : Address}
    {coin : UInt256} {s s' : S} {sender token target : Address}
    (h : claimTokens call balanceOf proxyOwner coin s sender token target = some s') :
    sender = proxyOwner ∧
    ((token = 0 ∧ ∃ data, call (.send target coin) s = some (s', data)) ∨
      (token ≠ 0 ∧ ∃ s₁ balance data, balanceOf token s = some (s₁, balance) ∧
        call (.transfer token target balance) s₁ = some (s', data))) := by
  simp only [claimTokens, Option.bind_eq_bind, Option.bind_eq_some_iff, require_eq_some, exists_const] at h
  obtain ⟨hsender, _, h⟩ := h
  refine ⟨hsender, ?_⟩
  split at h
  · rename_i hcoin
    exact .inl ⟨hcoin, Callee.answered_of_plain h⟩
  · rename_i htoken
    simp only [Option.bind_eq_some_iff, require_eq_some, exists_const, Option.pure_def, Option.some.injEq] at h
    obtain ⟨⟨s₁, balance⟩, hbalance, ⟨t, ok⟩, htransfer, _, rfl⟩ := h
    obtain ⟨data, hc⟩ := Callee.answered_of_bool htransfer
    exact .inr ⟨htoken, s₁, balance, data, hbalance, hc⟩

end BasicBridge

/-! ## Fees -/

/-- `value * feePercent / 10000`, in `SafeMath`. -/
def percentageFee (value feePercent : UInt256) : Option UInt256 := do
  let product ← SafeMath.mul value feePercent
  SafeMath.div product 10000

/-- `FeeManager.subtractFee`, for a given fee percentage. -/
def FeeManager.subtractFee (feePercent value : UInt256) : Option UInt256 := do
  let fee ← percentageFee value feePercent
  SafeMath.sub value fee

/-! ## Payments -/

/-- The payments that went through, newest first. -/
abbrev Payments := List (Address × UInt256)

/-- The payments a successful call makes. -/
def ExtCall.payments : ExtCall → Payments
  | .mint _ target amount => [(target, amount)]
  | .transfer _ target amount => [(target, amount)]
  | .minterBurnerMint _ target amount => [(target, amount)]
  | .send target amount => [(target, amount)]
  | .burn _ _ => []
  | .minterBurnerBurn _ _ _ => []

/-- The coin a call carries. -/
def ExtCall.coins : ExtCall → Nat
  | .send _ amount => amount.toNat
  | _ => 0

/-- The sum of some payments. -/
def total (ps : Payments) : Nat := (ps.map fun p => p.2.toNat).sum

@[simp] theorem total_nil : total [] = 0 := rfl

@[simp] theorem total_cons (a : Address) (n : UInt256) (ps : Payments) :
    total ((a, n) :: ps) = n.toNat + total ps := by
  simp [total]

theorem toNat_ne_zero {v : UInt256} (h : v ≠ 0) : v.toNat ≠ 0 :=
  fun h0 => h (BitVec.eq_of_toNat_eq h0)

end ThunderBridge
