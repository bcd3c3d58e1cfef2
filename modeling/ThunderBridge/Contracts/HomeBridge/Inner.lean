import ThunderBridge.Contracts.HomeBridge.Collection

/-!
# `HomeBridge.Inner` — what the bridge changes itself

A call of the bridge is made of changes to its own storage and of outgoing calls. `Inner` is such a change: the world
is the same, and so are the address and the token, and the log only grows. A relation that the outgoing calls keep,
and that these changes keep, is kept by every call of the bridge (`exec_out`).
-/

namespace ThunderBridge
namespace Home

variable {H W : Type}

/-! ## The bridge's own changes -/

/-- A change of the bridge's own storage; nothing is taken off its log. -/
structure Inner (s s' : Home H W) : Prop where
  world : s'.world = s.world
  self : s'.bridge.self = s.bridge.self
  erc677token : s'.bridge.erc677token = s.bridge.erc677token
  log : s.bridge.log <:+ s'.bridge.log

section Inner

variable {s s' : Home H W}

theorem emit_inner (s : Home H W) (e : HomeEvent H) : Inner s (s.emit e) := ⟨rfl, rfl, rfl, List.suffix_cons _ _⟩

theorem Inner.trans {s₁ s₂ s₃ : Home H W} (h : Inner s₁ s₂) (h' : Inner s₂ s₃) : Inner s₁ s₃ :=
  ⟨h'.world.trans h.world, h'.self.trans h.self, h'.erc677token.trans h.erc677token, h.log.trans h'.log⟩

theorem addExecuted_inner {value : UInt256} (h : s.addExecuted value = some s') : Inner s s' := by
  obtain ⟨_, _, rfl⟩ := addExecuted_eq_some.mp h
  exact ⟨rfl, rfl, rfl, List.suffix_refl _⟩

theorem addSpent_inner {value : UInt256} (h : s.addSpent value = some s') : Inner s s' := by
  obtain ⟨_, _, rfl⟩ := addSpent_eq_some.mp h
  exact ⟨rfl, rfl, rfl, List.suffix_refl _⟩

theorem applySetting_inner {V : HomeVariant} {setting : OwnerSetting} (h : applySetting V s setting = some s') :
    Inner s s' := by
  obtain ⟨_, _, _, rfl⟩ | ⟨_, _, _, _, rfl⟩ := applySetting_cases h
  · exact ⟨rfl, rfl, rfl, List.suffix_refl _⟩
  · exact ⟨rfl, rfl, rfl, List.suffix_refl _⟩

theorem fixAssetsAboveLimits_inner {sender : Address} {txHash : Bytes32} {unlockOnForeign : Bool}
    (h : s.fixAssetsAboveLimits sender txHash unlockOnForeign = some s') : Inner s s' := by
  obtain ⟨_, _, _, rfl⟩ := fixAssetsAboveLimits_cases h
  exact ⟨rfl, rfl, rfl, List.suffix_append _ _⟩

variable [DecidableEq H] {K : CollisionFree H} {ecrecover : Ecrecover H} {V : HomeVariant}

theorem announce_inner (s : Home H W) (sender : Address) (h : H) (word n : UInt256) :
    Inner s (s.announce sender h word n) := ⟨rfl, rfl, rfl, List.suffix_cons _ _⟩

theorem submitSignature_inner {sender : Address} {sig m : Bytes}
    (h : submitSignature K ecrecover s sender sig m = some s') : Inner s s' := by
  obtain ⟨_, _, _, _, _, hlast⟩ := submitSignature_cases h
  have hcollect : Inner s (s.collect K sender sig m) := by
    refine ⟨?_, ?_, ?_, by rw [collect_log]; exact List.suffix_cons _ _⟩ <;>
      · unfold collect
        split <;> rfl
  rcases hlast with ⟨_, rfl⟩ | ⟨_, rfl⟩
  · exact hcollect
  · exact hcollect.trans (announce_inner _ _ _ _ _)

variable {out : Home H W → Home H W → Prop} {call : Callee (Home H W)} {value : UInt256} {source sender : Address}

omit [DecidableEq H] in
theorem Settling.out_of (hout : Chains out) (hinner : ∀ s s', Inner s s' → out s s')
    (h : Settling out s value s') : out s s' := by
  cases h with
  | paid counted calls => exact hout.trans _ _ _ (hinner _ _ (addExecuted_inner counted)) calls
  | redirected source target counted calls =>
      exact hout.trans _ _ _ (hinner _ _ (addExecuted_inner counted))
        (hout.trans _ _ _ calls (hinner _ _ (emit_inner _ _)))

omit [DecidableEq H] in
theorem Withdrawing.out_of (hout : Chains out) (hinner : ∀ s s', Inner s s' → out s s')
    {payFee release : Home H W → UInt256 → Option (Home H W)}
    (hfee : ∀ s s' fee, payFee s fee = some s' → out s s')
    (hrelease : ∀ s s' rest, release s rest = some s' → out s s')
    (h : Withdrawing payFee release s source value s') : out s s' := by
  cases h with
  | requested fee rest limit hsum paid counted released =>
      have hpaid := whenNonzero_out hout (fun _ _ => hfee _ _ _) paid
      have hcounted := hinner _ _ (addSpent_inner counted)
      exact hout.trans _ _ _ hpaid (hout.trans _ _ _ hcounted
        (hout.trans _ _ _ (hrelease _ _ _ released) (hinner _ _ (emit_inner _ _))))

theorem Affirmed.out_of (hout : Chains out) (hinner : ∀ s s', Inner s s' → out s s') (hcall : Within out call)
    {d : Deposit} (h : Affirmed K V call s sender d s') : out s s' := by
  cases h with
  | recorded _ h =>
      obtain ⟨_, total, _, rfl⟩ := onFailedAffirmation_cases h
      exact hinner _ _ ⟨rfl, rfl, rfl, List.suffix_cons _ _⟩
  | signed _ _ _ _ => exact hinner _ _ ⟨rfl, rfl, rfl, List.suffix_cons _ _⟩
  | settled _ _ _ _ h =>
      have hsigned : Inner s ((s.affirm K sender d).markProcessed K d) :=
        ⟨rfl, rfl, rfl, List.suffix_cons _ _⟩
      have hpaid := (onExecuteAffirmation_settling hout hcall h).out_of hout hinner
      exact hout.trans _ _ _ (hinner _ _ hsigned) (hout.trans _ _ _ hpaid
        (hinner _ _ ⟨rfl, rfl, rfl, List.suffix_cons _ _⟩))

/-- **One call of the bridge** keeps what its own changes and its outgoing calls keep. -/
theorem exec_out (hout : Chains out) (hinner : ∀ s s', Inner s s' → out s s') (hcall : Within out call)
    {tx : BridgeTx} (h : exec K ecrecover V call s tx = some s') : out s s' := by
  cases tx with
  | executeAffirmation sender recipient value transactionHash =>
      exact (executeAffirmation_cases (recipient, value, transactionHash) h).2.out_of hout hinner hcall
  | fixAssetsAboveLimits sender txHash unlockOnForeign => exact hinner _ _ (fixAssetsAboveLimits_inner h)
  | onTokenTransfer sender source value =>
      exact (onTokenTransfer_withdrawing h).2.out_of hout hinner (fun _ _ _ => payFeeInToken_out hcall)
        (fun _ _ _ => release_out hout hcall)
  | transferAndCall sender target value msgValue =>
      simp only [exec, Option.bind_eq_bind, Option.bind_eq_some_iff, require_eq_some, exists_const] at h
      exact (transferAndCall_withdrawing h.2).out_of hout hinner (fun _ _ _ => payFeeInCoin_out hout hcall)
        (fun s _ _ hs => Option.some.inj hs ▸ hout.refl s)
  | submitSignature sender signature message => exact hinner _ _ (submitSignature_inner h)
  | setting sender setting =>
      simp only [exec, Option.bind_eq_bind, Option.bind_eq_some_iff, require_eq_some, exists_const] at h
      exact hinner _ _ (applySetting_inner h.2)

end Inner

end Home
end ThunderBridge
