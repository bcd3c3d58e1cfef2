import ThunderBridge.Contracts.HomeBridge.Collection
import ThunderBridge.Contracts.HomeBridge.Outline
import ThunderBridge.Contracts.HomeBridge.Threshold

/-!
# `HomeBridge.Completions` — `AffirmationCompleted` and the settled deposits

Whoever watches the home bridge from outside sees its events only. `executeAffirmation` emits `AffirmationCompleted`
after it has paid, so calls that come back during the payment may settle other deposits and emit theirs first. In
every run the events are the settled deposits in the order in which they were settled (`completions_of_run`).

The outgoing calls keep the two lists equal, if those that come back do; so `Settling` and `Withdrawing` are used with
that as what an outgoing call may do.
-/

namespace ThunderBridge
namespace Home

variable {H W : Type}

/-- The deposit of an `AffirmationCompleted`. -/
def completedOf : HomeEvent H → Option Deposit
  | .AffirmationCompleted recipient value transactionHash => some (recipient, value, transactionHash)
  | _ => none

/-- The deposits that the log reports, the latest first. -/
def completions (s : Home H W) : List Deposit := s.bridge.log.filterMap fun entry => completedOf entry.2

/-- The log is right. -/
def Matched (s : Home H W) : Prop := s.completions = executedDeposits s.bridge.trail

/-- What the bridge keeps. -/
def KeepsMatched (s s' : Home H W) : Prop := Matched s → Matched s'

variable {s s' : Home H W}

theorem completions_emit (s : Home H W) (e : HomeEvent H) :
    (s.emit e).completions = (completedOf e).toList ++ s.completions := by
  cases h : completedOf e <;> simp [completions, emit, h]

theorem KeepsMatched.of_eq (hlog : s'.completions = s.completions)
    (htrail : executedDeposits s'.bridge.trail = executedDeposits s.bridge.trail) : KeepsMatched s s' := by
  intro hs
  rw [Matched, hlog, htrail]
  exact hs

theorem keepsMatched_chains : Chains (KeepsMatched (H := H) (W := W)) where
  refl _ hs := hs
  trans _ _ _ h h' hs := h' (h hs)

/-- Another event. -/
theorem emit_keepsMatched (s : Home H W) {e : HomeEvent H} (h : completedOf e = none) :
    KeepsMatched s (s.emit e) := by
  apply KeepsMatched.of_eq
  · rw [completions_emit, h]
    rfl
  · rfl

theorem addExecuted_keepsMatched {value : UInt256} (h : s.addExecuted value = some s') : KeepsMatched s s' := by
  obtain ⟨_, _, rfl⟩ := addExecuted_eq_some.mp h
  exact .of_eq rfl rfl

theorem addSpent_keepsMatched {value : UInt256} (h : s.addSpent value = some s') : KeepsMatched s s' := by
  obtain ⟨_, _, rfl⟩ := addSpent_eq_some.mp h
  exact .of_eq rfl rfl

theorem fixAssetsAboveLimits_keepsMatched {sender : Address} {t : Bytes32} {unlock : Bool}
    (h : fixAssetsAboveLimits s sender t unlock = some s') : KeepsMatched s s' := by
  obtain ⟨_, _, _, rfl⟩ := fixAssetsAboveLimits_cases h
  cases unlock <;> exact .of_eq rfl rfl

theorem elsewhere_keepsMatched (h : Elsewhere s s') : KeepsMatched s s' := by
  obtain ⟨w, rfl⟩ := h
  exact .of_eq rfl rfl

theorem matched_fresh (h : Fresh s) : Matched s := by
  rw [Matched, completions, h.log, h.trail]
  rfl

theorem withdrawing_keepsMatched {payFee release : Home H W → UInt256 → Option (Home H W)} {source : Address}
    {gross : UInt256} (hfee : ∀ u u' fee, payFee u fee = some u' → KeepsMatched u u')
    (hrelease : ∀ u u' rest, release u rest = some u' → KeepsMatched u u')
    (h : Withdrawing payFee release s source gross s') : KeepsMatched s s' := by
  cases h with
  | requested fee rest _ _ paid counted released =>
      intro hs
      have hpaid := whenNonzero_out keepsMatched_chains (fun u u' => hfee u u' fee) paid hs
      exact emit_keepsMatched _ rfl (hrelease _ _ _ released (addSpent_keepsMatched counted hpaid))

section Calls

variable {call : Callee (Home H W)} (hcall : Within KeepsMatched call)
include hcall

theorem onExecuteAffirmation_keepsMatched {V : HomeVariant} {recipient : Address} {value : UInt256} {ok : Bool}
    (h : onExecuteAffirmation V call s recipient value = some (s', ok)) : KeepsMatched s s' := by
  cases onExecuteAffirmation_settling keepsMatched_chains hcall h with
  | paid counted calls => exact fun hs => calls (addExecuted_keepsMatched counted hs)
  | redirected source target counted calls =>
      exact fun hs => emit_keepsMatched _ rfl (calls (addExecuted_keepsMatched counted hs))

variable [DecidableEq H] {K : CollisionFree H} {V : HomeVariant}

/-- **An affirmation** that settles its deposit reports it last; what the calls settled meanwhile is below. -/
theorem affirmed_keepsMatched {sender : Address} {d : Deposit} (h : Affirmed K V call s sender d s') :
    KeepsMatched s s' := by
  cases h with
  | recorded _ h =>
      obtain ⟨_, _, _, rfl⟩ := onFailedAffirmation_cases h
      exact .of_eq rfl rfl
  | signed _ _ _ _ => exact .of_eq rfl rfl
  | @settled s₂ _ _ _ _ h =>
      intro hs
      have hstart : Matched ((s.affirm K sender d).markProcessed K d) := hs
      have hpaid : s₂.completions = executedDeposits s₂.bridge.trail :=
        onExecuteAffirmation_keepsMatched hcall h hstart
      show d :: s₂.completions = d :: executedDeposits s₂.bridge.trail
      rw [hpaid]

end Calls

section Runs

variable [DecidableEq H] {K : CollisionFree H} {ecrecover : Ecrecover H} {V : HomeVariant}
  {allowed : Home H W → BridgeTx → Prop}

theorem submitSignature_keepsMatched {sender : Address} {sig m : Bytes}
    (h : submitSignature K ecrecover s sender sig m = some s') : KeepsMatched s s' := by
  obtain ⟨_, _, _, _, _, hlast⟩ := submitSignature_cases h
  have hcollect : KeepsMatched s (s.collect K sender sig m) := by
    apply KeepsMatched.of_eq
    · rw [completions, collect_log]
      rfl
    · unfold collect
      split <;> rfl
  rcases hlast with ⟨_, rfl⟩ | ⟨_, rfl⟩
  · exact hcollect
  · intro hs
    exact emit_keepsMatched _ rfl (KeepsMatched.of_eq rfl rfl (hcollect hs))

/-- **One call of the bridge.** -/
theorem invoke_keepsMatched {out : Home H W → Home H W → Prop} (hout : ∀ s s', out s s' → KeepsMatched s s')
    (h : Invoke K ecrecover V allowed out s s') : KeepsMatched s s' := by
  obtain ⟨call, tx, _, hwithin, h⟩ := h
  have hcall : Within KeepsMatched call := fun c u u' data hc => hout u u' (hwithin c u u' data hc)
  cases tx with
  | executeAffirmation sender recipient value t =>
      exact affirmed_keepsMatched hcall (executeAffirmation_cases (recipient, value, t) h).2
  | fixAssetsAboveLimits sender t unlock => exact fixAssetsAboveLimits_keepsMatched h
  | onTokenTransfer sender source value =>
      exact withdrawing_keepsMatched (fun _ _ _ => payFeeInToken_out hcall)
        (fun _ _ _ => release_out keepsMatched_chains hcall) (onTokenTransfer_withdrawing h).2
  | transferAndCall sender target value msgValue =>
      simp only [exec, Option.bind_eq_bind, Option.bind_eq_some_iff, require_eq_some, exists_const] at h
      refine withdrawing_keepsMatched (fun _ _ _ => payFeeInCoin_out keepsMatched_chains hcall) ?_
        (transferAndCall_withdrawing h.2)
      intro u u' rest hrest
      obtain rfl := Option.some.inj hrest
      exact keepsMatched_chains.refl u
  | submitSignature sender sig m => exact submitSignature_keepsMatched h
  | setting sender setting =>
      simp only [exec, Option.bind_eq_bind, Option.bind_eq_some_iff, require_eq_some, exists_const] at h
      obtain ⟨_, _, _, rfl⟩ | ⟨_, _, _, _, rfl⟩ := applySetting_cases h.2
      · exact .of_eq rfl rfl
      · exact .of_eq rfl rfl

theorem step_keepsMatched (h : StepWhen K ecrecover V allowed s s') : KeepsMatched s s' := by
  cases h with
  | bridge n h =>
      exact Calls.nested_rel keepsMatched_chains.refl keepsMatched_chains.trans
        (fun _ _ => elsewhere_keepsMatched) (fun _ hout _ _ => invoke_keepsMatched hout) n s s' h
  | validators _ => exact .of_eq rfl rfl
  | tick now txHash _ => exact .of_eq rfl rfl
  | elsewhere h => exact elsewhere_keepsMatched h

/-- **The events report the settled deposits**, in their order. -/
theorem completions_of_run {s₀ : Home H W} (hfresh : Fresh s₀) (hrun : RunWhen K ecrecover V allowed s₀ s) :
    s.completions = executedDeposits s.bridge.trail :=
  Calls.steps_invariant (P := Matched) (fun _ _ hs hstep => step_keepsMatched hstep hs) hrun (matched_fresh hfresh)

end Runs

end Home
end ThunderBridge
