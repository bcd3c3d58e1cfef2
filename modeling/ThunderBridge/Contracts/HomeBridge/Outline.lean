import ThunderBridge.Contracts.HomeBridge.Run

/-!
# `HomeBridge.Outline` — where a call of the bridge hands over

What a settlement and a withdrawal do, with the outgoing calls left open. `out` is what such a call may do to the
chain: nothing but the world outside (`Elsewhere`), or anything at all that is kept by the calls that come back.

* `Settling`: the counter first, then the payments.
* `Withdrawing`: the limits, the fee, the counter, the release, the request; with the states between them.

What the bridge keeps is derived from these two; nothing else unfolds the ten functions behind them.
-/

namespace ThunderBridge
namespace Home

variable {H W : Type}

/-! ## Outgoing calls -/

/-- Several calls in a row may do what one may do. -/
structure Chains (out : Home H W → Home H W → Prop) : Prop where
  refl : ∀ s, out s s
  trans : ∀ s₁ s₂ s₃, out s₁ s₂ → out s₂ s₃ → out s₁ s₃

theorem elsewhere_chains : Chains (Elsewhere (H := H) (W := W)) where
  refl s := ⟨s.world, rfl⟩
  trans := by
    rintro s₁ _ _ ⟨w, rfl⟩ ⟨w', rfl⟩
    exact ⟨w', rfl⟩

section Outgoing

variable {out : Home H W → Home H W → Prop} {call : Callee (Home H W)} {c : ExtCall} {s s' : Home H W}

theorem bool_out (hcall : Within out call) {b : Bool} (h : call.bool c s = some (s', b)) : out s s' := by
  obtain ⟨data, hc⟩ := Callee.answered_of_bool h
  exact hcall _ _ _ _ hc

theorem unchecked_out (hcall : Within out call) (h : call.unchecked c s = some s') : out s s' := by
  obtain ⟨data, hc⟩ := Callee.answered_of_unchecked h
  exact hcall _ _ _ _ hc

theorem plain_out (hcall : Within out call) (h : call.plain c s = some s') : out s s' := by
  obtain ⟨data, hc⟩ := Callee.answered_of_plain h
  exact hcall _ _ _ _ hc

theorem lowLevel_out (hout : Chains out) (hcall : Within out call) : out s (call.lowLevel c s).1 := by
  rcases Callee.answered_of_lowLevel call c s with hnone | ⟨data, hc⟩
  · rw [hnone]
    exact hout.refl s
  · exact hcall _ _ _ _ hc

theorem whenNonzero_out (hout : Chains out) {amount : UInt256} {f : Home H W → Option (Home H W)}
    (hf : ∀ s s', f s = some s' → out s s') (h : whenNonzero amount f s = some s') : out s s' := by
  unfold whenNonzero at h
  split at h
  · exact hf _ _ h
  · obtain rfl := Option.some.inj h
    exact hout.refl s

theorem mintEach_out (hout : Chains out) (hcall : Within out call) {amount : UInt256} {as : List Address}
    (h : mintEach call amount as s = some s') : out s s' := by
  induction as generalizing s with
  | nil =>
      obtain rfl := Option.some.inj h
      exact hout.refl s
  | cons a as ih =>
      simp only [mintEach, Option.bind_eq_bind, Option.bind_eq_some_iff] at h
      obtain ⟨t, hmint, hrest⟩ := h
      exact hout.trans _ _ _ (unchecked_out hcall hmint) (ih hrest)

end Outgoing

/-! ## Settling -/

section Settling

variable {out : Home H W → Home H W → Prop} {call : Callee (Home H W)} {s s' : Home H W}
  {recipient : Address} {value : UInt256} {ok : Bool}

/-- The counter first, then calls; the native bridge may report another recipient at the end. -/
inductive Settling (out : Home H W → Home H W → Prop) (s : Home H W) (value : UInt256) : Home H W → Prop where
  | paid {s₁ t : Home H W} (counted : s.addExecuted value = some s₁) (calls : out s₁ t) : Settling out s value t
  | redirected {s₁ t : Home H W} (source target : Address) (counted : s.addExecuted value = some s₁)
      (calls : out s₁ t) : Settling out s value (t.emit (.RecipientRedirected source target))

theorem settleWithFee_settling (hout : Chains out) (hcall : Within out call)
    {pay : Home H W → Address → UInt256 → ExtCall}
    (h : settleWithFee call pay s recipient value = some (s', ok)) : Settling out s value s' := by
  simp only [settleWithFee, Option.bind_eq_bind, Option.bind_eq_some_iff] at h
  obtain ⟨s₁, h₁, fee, _, h⟩ := h
  split at h
  · simp only [Option.bind_eq_some_iff, Option.pure_def, Option.some.injEq, Prod.mk.injEq] at h
    obtain ⟨t, hpay, rfl, _⟩ := h
    exact .paid h₁ (unchecked_out hcall hpay)
  · simp only [Option.bind_eq_some_iff, Option.pure_def, Option.some.injEq, Prod.mk.injEq] at h
    obtain ⟨s₂, hfee, rest, _, s₃, hrest, rfl, _⟩ := h
    have hfee' : out s₁ s₂ := whenNonzero_out hout (fun _ _ => unchecked_out hcall) hfee
    have hrest' : out s₂ s₃ := whenNonzero_out hout (fun _ _ => unchecked_out hcall) hrest
    exact .paid h₁ (hout.trans _ _ _ hfee' hrest')

theorem onExecuteAffirmationErcToErc_settling (hout : Chains out) (hcall : Within out call)
    (h : onExecuteAffirmationErcToErc call s recipient value = some (s', ok)) : Settling out s value s' := by
  simp only [onExecuteAffirmationErcToErc, Option.bind_eq_bind, Option.bind_eq_some_iff] at h
  obtain ⟨s₁, h₁, h⟩ := h
  split at h
  · exact .paid h₁ (bool_out hcall h)
  · simp only [Option.bind_eq_some_iff] at h
    obtain ⟨_, _, _, _, _, _, s₂, h₂, _, _, _, _, _, _, s₃, h₃, hlast⟩ := h
    exact .paid h₁ (hout.trans _ _ _ (mintEach_out hout hcall h₂)
      (hout.trans _ _ _ (mintEach_out hout hcall h₃) (bool_out hcall hlast)))

theorem onExecuteAffirmationNative_settling (hout : Chains out) (hcall : Within out call)
    (h : onExecuteAffirmationNative call s recipient value = some (s', ok)) : Settling out s value s' := by
  simp only [onExecuteAffirmationNative, Option.bind_eq_bind, Option.bind_eq_some_iff] at h
  obtain ⟨s₁, h₁, fee, _, h⟩ := h
  split at h
  · simp only [Option.pure_def, Option.some.injEq, Prod.mk.injEq] at h
    obtain ⟨rfl, _⟩ := h
    exact .paid h₁ (lowLevel_out hout hcall)
  · simp only [Option.bind_eq_some_iff] at h
    obtain ⟨rest, _, h⟩ := h
    generalize hs₂ : (if fee ≠ 0 then (tokenTransferNative call s₁ s₁.bridge.fees.feeReceiver fee).1
      else s₁) = s₂ at h
    have hfee : out s₁ s₂ := by
      rw [← hs₂]
      split
      · exact lowLevel_out hout hcall
      · exact hout.refl _
    split at h
    · simp only [Option.pure_def, Option.some.injEq, Prod.mk.injEq] at h
      exact h.1 ▸ .paid h₁ hfee
    · have hsend : out s₁ (tokenTransferNative call s₂ recipient rest).1 :=
        hout.trans _ _ _ hfee (lowLevel_out hout hcall)
      split at h
      · simp only [Option.pure_def, Option.some.injEq, Prod.mk.injEq] at h
        exact h.1 ▸ .paid h₁ hsend
      · simp only [Option.bind_eq_some_iff, require_eq_some, exists_const, Option.pure_def,
          Option.some.injEq, Prod.mk.injEq] at h
        obtain ⟨_, s₃, h₃, rfl, _⟩ := h
        exact .redirected _ _ h₁ (hout.trans _ _ _ hsend (plain_out hcall h₃))

/-- **Settling an affirmation**, in each contract. -/
theorem onExecuteAffirmation_settling (hout : Chains out) (hcall : Within out call) {V : HomeVariant}
    (h : onExecuteAffirmation V call s recipient value = some (s', ok)) : Settling out s value s' := by
  cases V with
  | ercToErc => exact onExecuteAffirmationErcToErc_settling hout hcall h
  | ercToErcWithFee => exact settleWithFee_settling hout hcall h
  | ercToErcWithFeeV2 => exact settleWithFee_settling hout hcall h
  | erc677ToErc677WithFee => exact settleWithFee_settling hout hcall h
  | nativeToErcWithFee => exact onExecuteAffirmationNative_settling hout hcall h

end Settling

/-! ## Withdrawing -/

section Withdrawing

variable {call : Callee (Home H W)} {s s' : Home H W} {sender source : Address} {value : UInt256}

/-- A withdrawal of `gross`: a fee by `payFee`, the rest by `release`, and the request. -/
inductive Withdrawing (payFee release : Home H W → UInt256 → Option (Home H W)) (s : Home H W) (source : Address)
    (gross : UInt256) : Home H W → Prop where
  | requested {s₁ s₂ s₃ : Home H W} (fee rest : UInt256)
      (limit : s.bridge.basic.withinLimit s.getCurrentDay gross = some true)
      (hsum : rest.toNat + fee.toNat = gross.toNat) (paid : whenNonzero fee (fun s => payFee s fee) s = some s₁)
      (counted : s₁.addSpent rest = some s₂) (released : release s₂ rest = some s₃) :
      Withdrawing payFee release s source gross (s₃.emit (.UserRequestForSignature source rest))

theorem withdrawWithFee_withdrawing {payFee release : Home H W → UInt256 → Option (Home H W)}
    (h : withdrawWithFee payFee release s source value = some s') :
    Withdrawing payFee release s source value s' := by
  simp only [withdrawWithFee, Option.bind_eq_bind, Option.bind_eq_some_iff, require_eq_some, exists_const,
    Option.pure_def, Option.some.injEq] at h
  obtain ⟨_, hlimit, rfl, _, fee, _, s₁, h₁, rest, hrest, s₂, h₂, s₃, h₃, rfl⟩ := h
  exact .requested fee rest hlimit (SafeMath.sub_eq_some.mp hrest) h₁ h₂ h₃

/-- What each contract does with what is left after the fee. -/
def release (V : HomeVariant) (call : Callee (Home H W)) (s : Home H W) (rest : UInt256) : Option (Home H W) :=
  match V with
  | .ercToErc | .ercToErcWithFee | .nativeToErcWithFee => call.plain (.burn s.bridge.erc677token rest) s
  | .ercToErcWithFeeV2 => call.plain (.minterBurnerBurn s.bridge.minterBurner s.bridge.self rest) s
  | .erc677ToErc677WithFee => some s

/-- **A withdrawal of tokens**, in each contract. -/
theorem onTokenTransfer_withdrawing {V : HomeVariant} (h : onTokenTransfer V call s sender source value = some s') :
    sender = s.bridge.erc677token ∧ Withdrawing (payFeeInToken call) (release V call) s source value s' := by
  cases V with
  | ercToErc =>
      simp only [onTokenTransfer, onTokenTransferErcToErc, Option.bind_eq_bind, Option.bind_eq_some_iff,
        require_eq_some, exists_const, Option.pure_def, Option.some.injEq] at h
      obtain ⟨hsender, _, hlimit, rfl, s₁, h₁, s₂, h₂, rfl⟩ := h
      -- no fee
      exact ⟨hsender, .requested 0 value hlimit rfl rfl h₁ h₂⟩
  | ercToErcWithFee | nativeToErcWithFee =>
      simp only [onTokenTransfer, onTokenTransferWithFee, Option.bind_eq_bind, Option.bind_eq_some_iff,
        require_eq_some, exists_const] at h
      exact ⟨h.1, withdrawWithFee_withdrawing h.2⟩
  | ercToErcWithFeeV2 =>
      simp only [onTokenTransfer, onTokenTransferWithFeeV2, Option.bind_eq_bind, Option.bind_eq_some_iff,
        require_eq_some, exists_const] at h
      exact ⟨h.1, withdrawWithFee_withdrawing h.2⟩
  | erc677ToErc677WithFee =>
      simp only [onTokenTransfer, onTokenTransferErc677, Option.bind_eq_bind, Option.bind_eq_some_iff,
        require_eq_some, exists_const] at h
      exact ⟨h.1, withdrawWithFee_withdrawing h.2⟩

/-- The fee of the native bridge, sent in coin. -/
def payFeeInCoin (call : Callee (Home H W)) (s : Home H W) (fee : UInt256) : Option (Home H W) := do
  let (s, sent) := tokenTransferNative call s s.bridge.fees.feeReceiver fee
  require (sent = true)
  pure s

theorem transferAndCall_withdrawing {target : Address} {msgValue : UInt256}
    (h : transferAndCall call s sender target value msgValue = some s') :
    Withdrawing (payFeeInCoin call) (fun s _ => some s) s sender value s' := by
  simp only [transferAndCall, Option.bind_eq_bind, Option.bind_eq_some_iff, require_eq_some,
    exists_const] at h
  exact withdrawWithFee_withdrawing h.2.2

variable {out : Home H W → Home H W → Prop}

theorem payFeeInToken_out (hcall : Within out call) {fee : UInt256} (h : payFeeInToken call s fee = some s') :
    out s s' := by
  simp only [payFeeInToken, Option.bind_eq_bind, Option.bind_eq_some_iff, require_eq_some, exists_const,
    Option.pure_def, Option.some.injEq] at h
  obtain ⟨⟨t, b⟩, hpay, _, rfl⟩ := h
  exact bool_out hcall hpay

theorem payFeeInCoin_out (hout : Chains out) (hcall : Within out call) {fee : UInt256}
    (h : payFeeInCoin call s fee = some s') : out s s' := by
  simp only [payFeeInCoin, Option.bind_eq_bind, Option.bind_eq_some_iff, require_eq_some, exists_const,
    Option.pure_def, Option.some.injEq] at h
  obtain ⟨_, rfl⟩ := h
  exact lowLevel_out hout hcall

theorem release_out (hout : Chains out) (hcall : Within out call) {V : HomeVariant} {rest : UInt256}
    (h : release V call s rest = some s') : out s s' := by
  cases V with
  | ercToErc | ercToErcWithFee | nativeToErcWithFee | ercToErcWithFeeV2 => exact plain_out hcall h
  | erc677ToErc677WithFee =>
      obtain rfl := Option.some.inj h
      exact hout.refl s

end Withdrawing

end Home
end ThunderBridge
