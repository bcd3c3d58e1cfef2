import ThunderBridge.Contracts.HomeBridge.Collection
import ThunderBridge.Contracts.HomeBridge.Outline
import ThunderBridge.Validator.Events

/-!
# `Solvency.HomeSupply` — the supply of the home token

`HomeBridgeErcToErcWithFee` over a token that only the bridge mints and burns: its total supply is what settled
deposits minted less what withdrawals burned. `TokenCall` is that assumption about the token, `TokenStep` a step
of the home chain under it; the token's `transfer` may still call anybody, the bridge included.

`Accounted` is what every call of the bridge keeps, however deep its callbacks. Minting and burning do not call
back, so both happen within one call of the bridge, next to the settlement or the event that accounts for them.
-/

namespace ThunderBridge
namespace Home

variable {H W : Type}

/-! ## Withdrawals on the log -/

/-- The withdrawal of a `UserRequestForSignature`, with the hash of its transaction. -/
def requestOf : Bytes32 × HomeEvent H → Option Withdrawal
  | (transactionHash, .UserRequestForSignature recipient value) => some (recipient, value, transactionHash)
  | _ => none

/-- The withdrawals requested so far. -/
def requests (s : Home H W) : List Withdrawal := s.bridge.log.filterMap requestOf

/-- The settled deposits. -/
def executed (s : Home H W) : List Deposit := executedDeposits s.bridge.trail

theorem requests_emit (s : Home H W) (e : HomeEvent H) :
    (s.emit e).requests = (requestOf (s.txHash, e)).toList ++ s.requests := by
  cases h : requestOf (s.txHash, e) <;> simp [requests, emit, h]

/-! ## The token -/

section Token

variable (totalSupply : W → Nat)

/-- **The home token.** `mint` and `burn` change the supply by exactly the amount and call nobody; what any
    other call does is in `out`. The bridge calls no other token. -/
def TokenCall (out : Home H W → Home H W → Prop) : ExtCall → Home H W → Home H W → Prop
  | .mint _ _ amount, s, s' =>
      (∃ w, s' = { s with world := w }) ∧ totalSupply s'.world = totalSupply s.world + amount.toNat
  | .burn _ amount, s, s' =>
      (∃ w, s' = { s with world := w }) ∧ totalSupply s'.world + amount.toNat = totalSupply s.world
  | _, s, s' => out s s'

/-- A callee that answers for such a token. -/
def TokenWithin (out : Home H W → Home H W → Prop) (call : Callee (Home H W)) : Prop :=
  ∀ c s s' data, call c s = some (s', data) → TokenCall totalSupply out c s s'

/-- Anything outside the two contracts that leaves the supply alone. -/
def SupplyKept (s s' : Home H W) : Prop :=
  ∃ w, s' = { s with world := w } ∧ totalSupply w = totalSupply s.world

variable [DecidableEq H] (K : CollisionFree H) (ecrecover : Ecrecover H)
  (allowed : Home H W → BridgeTx → Prop)

/-- One call of the bridge that `allowed` admits. -/
def TokenInvoke (out : Home H W → Home H W → Prop) (s s' : Home H W) : Prop :=
  ∃ call tx, allowed s tx ∧ TokenWithin totalSupply out call ∧
    exec K ecrecover .ercToErcWithFee call s tx = some s'

/-- A call of the bridge whose callees call it back at most `n` deep. -/
abbrev TokenNested (n : Nat) : Home H W → Home H W → Prop :=
  Calls.Nested (TokenInvoke totalSupply K ecrecover allowed) (SupplyKept totalSupply) n

/-- One step of the home chain. -/
inductive TokenStep : Home H W → Home H W → Prop where
  /-- A call of the bridge succeeds. -/
  | bridge {s s' : Home H W} (n : Nat) (h : TokenNested totalSupply K ecrecover allowed n s s') : TokenStep s s'
  /-- A transaction to the validator contract succeeds. -/
  | validators {s : Home H W} {v : BridgeValidators} (h : s.validators.Step v) :
      TokenStep s { s with validators := v }
  /-- A new transaction, in this block or a later one. -/
  | tick {s : Home H W} (now : UInt256) (txHash : Bytes32) (h : s.now ≤ now) :
      TokenStep s { s with now := now, txHash := txHash }
  /-- The rest of the chain moves, the token included. -/
  | elsewhere {s s' : Home H W} (h : SupplyKept totalSupply s s') : TokenStep s s'

variable {totalSupply K ecrecover allowed}

omit [DecidableEq H] in
theorem supplyKept_elsewhere {s s' : Home H W} (h : SupplyKept totalSupply s s') : Elsewhere s s' := by
  obtain ⟨w, rfl, _⟩ := h
  exact ⟨w, rfl⟩

omit [DecidableEq H] in
theorem TokenWithin.within {out out' : Home H W → Home H W → Prop} {call : Callee (Home H W)}
    (h : TokenWithin totalSupply out call) (hout : ∀ s s', out s s' → out' s s')
    (henv : ∀ s s', Elsewhere s s' → out' s s') : Within out' call := by
  intro c s s' data hc
  have hcall := h c s s' data hc
  cases c with
  | mint token target amount => exact henv _ _ hcall.1
  | burn token amount => exact henv _ _ hcall.1
  | transfer _ _ _ | minterBurnerMint _ _ _ | minterBurnerBurn _ _ _ | send _ _ => exact hout _ _ hcall

theorem TokenNested.call {n : Nat} {s s' : Home H W}
    (h : TokenNested totalSupply K ecrecover allowed n s s') :
    Call K ecrecover .ercToErcWithFee allowed n s s' := by
  refine Calls.nested_mono (fun _ _ => supplyKept_elsewhere) ?_ n s s' h
  rintro out out' hout henv _ t t' ⟨call, tx, hallowed, hcall, hexec⟩
  exact ⟨call, tx, hallowed, hcall.within hout henv, hexec⟩

/-- Every step over the token is a step of the home chain. -/
theorem TokenStep.step {s s' : Home H W} (h : TokenStep totalSupply K ecrecover allowed s s') :
    StepWhen K ecrecover .ercToErcWithFee allowed s s' := by
  cases h with
  | bridge n h => exact .bridge n h.call
  | validators h => exact .validators h
  | tick now txHash h => exact .tick now txHash h
  | elsewhere h => exact .elsewhere (supplyKept_elsewhere h)

end Token

/-! ## Minting -/

section Minting

variable (totalSupply : W → Nat)

/-- The supply grew by `n`, and nothing was requested or settled. -/
structure Minted (n : Nat) (s s' : Home H W) : Prop where
  supply : totalSupply s'.world = totalSupply s.world + n
  requests : s'.requests = s.requests
  trail : s'.bridge.trail = s.bridge.trail

variable {totalSupply} {out : Home H W → Home H W → Prop} {call : Callee (Home H W)} {s s' : Home H W}

theorem Minted.refl (s : Home H W) : Minted totalSupply 0 s s := ⟨rfl, rfl, rfl⟩

theorem Minted.trans {n n' : Nat} {s₁ s₂ s₃ : Home H W} (h : Minted totalSupply n s₁ s₂)
    (h' : Minted totalSupply n' s₂ s₃) : Minted totalSupply (n + n') s₁ s₃ where
  supply := by rw [h'.supply, h.supply, Nat.add_assoc]
  requests := h'.requests.trans h.requests
  trail := h'.trail.trans h.trail

theorem minted_of_world {n : Nat} (h : ∃ w, s' = { s with world := w })
    (hsupply : totalSupply s'.world = totalSupply s.world + n) : Minted totalSupply n s s' := by
  obtain ⟨w, rfl⟩ := h
  exact ⟨hsupply, rfl, rfl⟩

theorem addExecuted_minted {value : UInt256} (h : s.addExecuted value = some s') :
    Minted totalSupply 0 s s' := by
  obtain ⟨_, _, rfl⟩ := addExecuted_eq_some.mp h
  exact ⟨rfl, rfl, rfl⟩

theorem addSpent_minted {value : UInt256} (h : s.addSpent value = some s') : Minted totalSupply 0 s s' := by
  obtain ⟨_, _, rfl⟩ := addSpent_eq_some.mp h
  exact ⟨rfl, rfl, rfl⟩

theorem mint_minted (hcall : TokenWithin totalSupply out call) {token target : Address} {amount : UInt256}
    (h : call.unchecked (.mint token target amount) s = some s') : Minted totalSupply amount.toNat s s' := by
  obtain ⟨_, hc⟩ := Callee.answered_of_unchecked h
  obtain ⟨hworld, hsupply⟩ := hcall _ _ _ _ hc
  exact minted_of_world hworld hsupply

/-- Minting nothing is not called for. -/
theorem whenNonzero_minted {amount : UInt256} {f : Home H W → Option (Home H W)}
    (hf : ∀ s s', f s = some s' → Minted totalSupply amount.toNat s s')
    (h : whenNonzero amount f s = some s') : Minted totalSupply amount.toNat s s' := by
  unfold whenNonzero at h
  split at h
  · exact hf s s' h
  · rename_i hzero
    obtain rfl := Option.some.inj h
    rw [ne_eq, not_not] at hzero
    rw [hzero]
    exact Minted.refl s

/-- **Settling a deposit** mints its value, the fee included. -/
theorem onExecuteAffirmation_minted (hcall : TokenWithin totalSupply out call) {recipient : Address}
    {value : UInt256} {ok : Bool}
    (h : onExecuteAffirmation .ercToErcWithFee call s recipient value = some (s', ok)) :
    Minted totalSupply value.toNat s s' := by
  simp only [onExecuteAffirmation, onExecuteAffirmationWithFee, settleWithFee, Option.bind_eq_bind,
    Option.bind_eq_some_iff] at h
  obtain ⟨s₁, h₁, fee, _, h⟩ := h
  have hstart : Minted totalSupply 0 s s₁ := addExecuted_minted h₁
  split at h
  · simp only [Option.bind_eq_some_iff, Option.pure_def, Option.some.injEq, Prod.mk.injEq] at h
    obtain ⟨t, hpay, rfl, _⟩ := h
    have hall := hstart.trans (mint_minted hcall hpay)
    rwa [Nat.zero_add] at hall
  · simp only [Option.bind_eq_some_iff, Option.pure_def, Option.some.injEq, Prod.mk.injEq] at h
    obtain ⟨s₂, hfee, rest, hrest, s₃, hpay, rfl, _⟩ := h
    have hfee' : Minted totalSupply fee.toNat s₁ s₂ :=
      whenNonzero_minted (fun _ _ => mint_minted hcall) hfee
    have hpay' : Minted totalSupply rest.toNat s₂ s₃ :=
      whenNonzero_minted (fun _ _ => mint_minted hcall) hpay
    -- `rest` is a checked difference, so the two payments add up to the value
    have hsum : 0 + (fee.toNat + rest.toNat) = value.toNat := by
      have hsub := SafeMath.sub_eq_some.mp hrest
      omega
    exact hsum ▸ hstart.trans (hfee'.trans hpay')

end Minting

/-! ## Burning -/

section Burning

variable {totalSupply : W → Nat} {out : Home H W → Home H W → Prop} {call : Callee (Home H W)}
  {s s' : Home H W} {sender source : Address} {value : UInt256}

theorem payFeeInToken_calls (hcall : TokenWithin totalSupply out call) {fee : UInt256}
    (h : payFeeInToken call s fee = some s') : out s s' := by
  simp only [payFeeInToken, Option.bind_eq_bind, Option.bind_eq_some_iff, require_eq_some, exists_const,
    Option.pure_def, Option.some.injEq] at h
  obtain ⟨_, hpay, _, rfl⟩ := h
  obtain ⟨_, hc⟩ := Callee.answered_of_bool hpay
  exact hcall _ _ _ _ hc

/-- **A withdrawal** pays its fee, which may call anybody, and then burns exactly the value it requests. -/
theorem onTokenTransfer_burns (hcall : TokenWithin totalSupply out call)
    (h : onTokenTransfer .ercToErcWithFee call s sender source value = some s') :
    ∃ (rest : UInt256) (s₁ s₂ : Home H W), (s₁ = s ∨ out s s₁) ∧
      totalSupply s₂.world + rest.toNat = totalSupply s₁.world ∧
      s₂.requests = s₁.requests ∧ s₂.bridge.trail = s₁.bridge.trail ∧
      s' = s₂.emit (.UserRequestForSignature source rest) := by
  obtain ⟨_, hwithdrawing⟩ := onTokenTransfer_withdrawing h
  cases hwithdrawing with
  | @requested s₁ s₂ s₃ fee rest _ _ paid counted released =>
      have hpaid : s₁ = s ∨ out s s₁ := by
        unfold whenNonzero at paid
        split at paid
        · exact .inr (payFeeInToken_calls hcall paid)
        · exact .inl (Option.some.inj paid).symm
      have hspent : Minted totalSupply 0 s₁ s₂ := addSpent_minted counted
      obtain ⟨_, hc⟩ := Callee.answered_of_plain released
      obtain ⟨⟨w, rfl⟩, hsupply⟩ := hcall _ _ _ _ hc
      exact ⟨rest, s₁, _, hpaid, hsupply.trans hspent.supply, hspent.requests, hspent.trail, rfl⟩

end Burning

/-! ## The accounts -/

section Accounts

variable (totalSupply : W → Nat)

/-- What the bridge keeps: the supply, the requested withdrawals and the settled deposits change together, and
    no request disappears. -/
structure Accounted (s s' : Home H W) : Prop where
  supply : totalSupply s'.world + tally amountOf s'.requests + tally amountOf s.executed =
    totalSupply s.world + tally amountOf s.requests + tally amountOf s'.executed
  requests : s.requests <:+ s'.requests

variable {totalSupply} {out : Home H W → Home H W → Prop} {call : Callee (Home H W)} {s s' : Home H W}

theorem Accounted.refl (s : Home H W) : Accounted totalSupply s s := ⟨rfl, List.suffix_refl _⟩

theorem Accounted.trans {s₁ s₂ s₃ : Home H W} (h : Accounted totalSupply s₁ s₂)
    (h' : Accounted totalSupply s₂ s₃) : Accounted totalSupply s₁ s₃ := by
  have hfirst := h.supply
  have hsecond := h'.supply
  exact ⟨by omega, h.requests.trans h'.requests⟩

theorem Minted.accounted (h : Minted totalSupply 0 s s') : Accounted totalSupply s s' := by
  refine ⟨?_, ?_⟩
  · rw [h.requests, executed, executed, h.trail, h.supply, Nat.add_zero]
  · rw [h.requests]

theorem supplyKept_accounted (h : SupplyKept totalSupply s s') : Accounted totalSupply s s' := by
  obtain ⟨w, rfl, hw⟩ := h
  exact Minted.accounted ⟨hw, rfl, rfl⟩

theorem applySetting_minted {V : HomeVariant} {setting : OwnerSetting}
    (h : applySetting V s setting = some s') : Minted totalSupply 0 s s' := by
  obtain ⟨_, _, _, rfl⟩ | ⟨_, _, _, _, rfl⟩ := applySetting_cases h
  · exact ⟨rfl, rfl, rfl⟩
  · exact ⟨rfl, rfl, rfl⟩

theorem onTokenTransfer_accounted (hout : ∀ s s', out s s' → Accounted totalSupply s s')
    (hcall : TokenWithin totalSupply out call) {sender source : Address} {value : UInt256}
    (h : onTokenTransfer .ercToErcWithFee call s sender source value = some s') :
    Accounted totalSupply s s' := by
  obtain ⟨rest, s₁, s₂, hpaid, hburn, hrequests, htrail, rfl⟩ := onTokenTransfer_burns hcall h
  have hfee : Accounted totalSupply s s₁ := by
    rcases hpaid with rfl | hpaid
    · exact Accounted.refl _
    · exact hout _ _ hpaid
  have hlog : (s₂.emit (.UserRequestForSignature source rest)).requests =
      (source, rest, s₂.txHash) :: s₁.requests := by
    rw [requests_emit, hrequests]
    rfl
  apply hfee.trans
  constructor
  · rw [hlog, tally_cons]
    show totalSupply s₂.world + (rest.toNat + _) + _ = _ + tally amountOf (executedDeposits s₂.bridge.trail)
    rw [htrail, ← hburn]
    show _ = _ + tally amountOf s₁.executed
    omega
  · rw [hlog]
    exact List.suffix_cons _ _

variable [DecidableEq H] {K : CollisionFree H} {ecrecover : Ecrecover H}
  {allowed : Home H W → BridgeTx → Prop}

theorem announce_minted (s : Home H W) (sender : Address) (h : H) (word n : UInt256) :
    Minted totalSupply 0 s (s.announce sender h word n) := by
  refine ⟨rfl, ?_, rfl⟩
  unfold announce
  rw [requests_emit]
  rfl

/-- A collected signature moves no tokens. -/
theorem submitSignature_minted {sender : Address} {signature message : Bytes}
    (h : submitSignature K ecrecover s sender signature message = some s') : Minted totalSupply 0 s s' := by
  obtain ⟨_, _, _, _, _, hlast⟩ := submitSignature_cases h
  -- the first signature also stores the message
  have hcollect : Minted totalSupply 0 s (s.collect K sender signature message) := by
    refine ⟨?_, by rw [requests, collect_log]; rfl, ?_⟩ <;>
      · unfold collect
        split <;> rfl
  rcases hlast with ⟨_, rfl⟩ | ⟨_, rfl⟩
  · exact hcollect
  · exact hcollect.trans (announce_minted _ _ _ _ _)

/-- **An affirmation** mints the value of the deposit if it settles it, and nothing otherwise. -/
theorem affirmed_accounted (hcall : TokenWithin totalSupply out call) {sender : Address} {d : Deposit}
    (h : Affirmed K .ercToErcWithFee call s sender d s') :
    Accounted totalSupply s s' ∧ totalSupply s'.world ≤ totalSupply s.world + d.2.1.toNat := by
  cases h with
  | recorded _ h =>
      obtain ⟨_, total, _, rfl⟩ := onFailedAffirmation_cases h
      refine ⟨Minted.accounted ⟨rfl, rfl, rfl⟩, Nat.le_add_right _ _⟩
  | signed _ _ _ _ => exact ⟨⟨rfl, List.suffix_refl _⟩, Nat.le_add_right _ _⟩
  | @settled s₂ _ _ _ _ h =>
      obtain ⟨hsupply, hrequests, htrail⟩ := onExecuteAffirmation_minted hcall h
      refine ⟨⟨?_, ?_⟩, Nat.le_of_eq hsupply⟩
      · have hexecuted : (s₂.complete K d).executed = d :: s.executed := by
          show d :: executedDeposits s₂.bridge.trail = _
          rw [htrail]
          rfl
        have hlog : (s₂.complete K d).requests = s.requests := hrequests
        rw [hexecuted, hlog, tally_cons]
        show totalSupply s₂.world + _ + _ = _ + (d.2.1.toNat + _)
        rw [hsupply]
        show totalSupply s.world + d.2.1.toNat + _ + _ = _
        omega
      · have hlog : (s₂.complete K d).requests = s.requests := hrequests
        rw [hlog]

/-- **One call of the bridge** that is no `fixAssetsAboveLimits`. -/
theorem tokenInvoke_accounted
    (hallowed : ∀ s sender t unlock, ¬ allowed s (.fixAssetsAboveLimits sender t unlock))
    (hout : ∀ s s', out s s' → Accounted totalSupply s s')
    (h : TokenInvoke totalSupply K ecrecover allowed out s s') : Accounted totalSupply s s' := by
  obtain ⟨call, tx, hadmitted, hcall, h⟩ := h
  cases tx with
  | executeAffirmation sender recipient value t =>
      exact (affirmed_accounted hcall (executeAffirmation_cases (recipient, value, t) h).2).1
  | fixAssetsAboveLimits sender t unlock => exact absurd hadmitted (hallowed _ _ _ _)
  | onTokenTransfer sender source value => exact onTokenTransfer_accounted hout hcall h
  | transferAndCall sender target value msgValue =>
      simp only [exec, Option.bind_eq_bind, Option.bind_eq_some_iff, require_eq_some, exists_const] at h
      exact absurd h.1 (by decide)
  | submitSignature sender sig m => exact (submitSignature_minted h).accounted
  | setting sender setting =>
      simp only [exec, Option.bind_eq_bind, Option.bind_eq_some_iff, require_eq_some, exists_const] at h
      exact (applySetting_minted h.2).accounted

/-- **One step of the home chain.** -/
theorem tokenStep_accounted
    (hallowed : ∀ s sender t unlock, ¬ allowed s (.fixAssetsAboveLimits sender t unlock))
    (h : TokenStep totalSupply K ecrecover allowed s s') : Accounted totalSupply s s' := by
  cases h with
  | bridge n h =>
      exact Calls.nested_rel (R := Accounted totalSupply) Accounted.refl (fun _ _ _ => Accounted.trans)
        (fun _ _ => supplyKept_accounted) (fun _ hout _ _ => tokenInvoke_accounted hallowed hout) n s s' h
  | validators h => exact ⟨rfl, List.suffix_refl _⟩
  | tick now txHash h => exact ⟨rfl, List.suffix_refl _⟩
  | elsewhere h => exact supplyKept_accounted h

end Accounts

end Home
end ThunderBridge
