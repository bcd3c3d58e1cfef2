import Mathlib.Data.FinEnum
import ThunderBridge.Contracts.HomeBridge.Overdraw

/-!
# `HomeBridge.OverdrawLedger` — the sum of what is recorded and not fixed

`outOfLimitAmount` is a running total over the entries of `txAboveLimits`: recording an entry adds its value,
fixing it subtracts it. The two entry points guard differently. An entry is written where recipient and value are
both zero, and fixed where both are not. One with only one of them is neither overwritten nor fixed, and its value
stays in the total.

`OverdrawLedger` is the invariant, and `Recorded` what every call keeps, however deep its callbacks.
-/

namespace ThunderBridge
namespace Home

variable {H W : Type} {s s' : Home H W}

/-- The sum of the recorded values over all transaction hashes that are not fixed. -/
def outstanding (s : Home H W) : Nat :=
  openSum s.bridge.overdraw.fixedAssets fun t => (s.bridge.overdraw.txOutOfLimitValue t).toNat

/-- The transaction hashes the owner fixed, the newest first. -/
def fixedHashes (s : Home H W) : List Bytes32 := (fixedDeposits s.bridge.trail).map fun d => d.2.2

/-- An entry that is not blank. -/
def HasEntry (s : Home H W) (t : Bytes32) : Prop :=
  s.bridge.overdraw.txOutOfLimitRecipient t ≠ 0 ∨ s.bridge.overdraw.txOutOfLimitValue t ≠ 0

structure OverdrawLedger (s : Home H W) : Prop where
  total : s.bridge.overdraw.outOfLimitAmount.toNat = s.outstanding
  /-- A blank entry is not fixed. -/
  entry : ∀ t, s.bridge.overdraw.fixedAssets t = true → s.bridge.overdraw.txOutOfLimitRecipient t ≠ 0
  once : Once ∅ s.bridge.overdraw.fixedAssets s.fixedHashes

/-- What a call keeps: the ledger, what is fixed, and the entries. -/
structure Recorded (s s' : Home H W) : Prop where
  ledger : OverdrawLedger s → OverdrawLedger s'
  fixed : ∀ t, s.bridge.overdraw.fixedAssets t = true → s'.bridge.overdraw.fixedAssets t = true
  entries : ∀ t, s.HasEntry t → s'.recordedDeposit t = s.recordedDeposit t

theorem overdrawLedger_fresh (h : Fresh s) : OverdrawLedger s := by
  have hflag : s.bridge.overdraw.fixedAssets = fun _ => false := funext h.fixedAssets
  refine ⟨?_, ?_, ?_⟩
  · rw [h.outOfLimitAmount]
    unfold outstanding openSum
    rw [Finset.sum_eq_zero]
    · rfl
    · intro t _
      dsimp only
      rw [h.fixedAssets, h.txOutOfLimitValue]
      rfl
  · intro t ht
    exact absurd ((h.fixedAssets t).symm.trans ht) Bool.false_ne_true
  · unfold fixedHashes
    rw [h.trail, hflag]
    exact Once.empty

theorem Recorded.refl (s : Home H W) : Recorded s s := ⟨id, fun _ => id, fun _ _ => rfl⟩

theorem HasEntry.congr {t : Bytes32} (h : s.HasEntry t) (he : s'.recordedDeposit t = s.recordedDeposit t) :
    s'.HasEntry t := by
  obtain ⟨hrecipient, hrest⟩ := Prod.mk.inj he
  unfold HasEntry
  rw [hrecipient, (Prod.mk.inj hrest).1]
  exact h

theorem Recorded.trans {s₁ s₂ s₃ : Home H W} (h : Recorded s₁ s₂) (h' : Recorded s₂ s₃) : Recorded s₁ s₃ where
  ledger := h'.ledger ∘ h.ledger
  fixed t := h'.fixed t ∘ h.fixed t
  entries t ht := (h'.entries t (ht.congr (h.entries t ht))).trans (h.entries t ht)

theorem Recorded.of_same (hoverdraw : s'.bridge.overdraw = s.bridge.overdraw)
    (hfixed : s'.fixedHashes = s.fixedHashes) : Recorded s s' where
  ledger h := by
    refine ⟨?_, ?_, ?_⟩
    · unfold outstanding
      rw [hoverdraw]
      exact h.total
    · rw [hoverdraw]
      exact h.entry
    · rw [hoverdraw, hfixed]
      exact h.once
  fixed t ht := by rwa [hoverdraw]
  entries t _ := by
    unfold recordedDeposit
    rw [hoverdraw]

/-! ## Recording -/

variable {recipient sender : Address} {value : UInt256} {t : Bytes32} {unlockOnForeign : Bool}

/-- Only a blank entry is written. -/
theorem onFailedAffirmation_blank (h : s.onFailedAffirmation recipient value t = some s') : ¬ s.HasEntry t := by
  simp only [onFailedAffirmation, Option.bind_eq_bind, Option.bind_eq_some_iff, require_eq_some, exists_const] at h
  obtain ⟨hblank, _⟩ := h
  rintro (hrecipient | hvalue)
  · exact hrecipient hblank.1
  · exact hvalue hblank.2

theorem recorded_onFailedAffirmation (h : s.onFailedAffirmation recipient value t = some s') : Recorded s s' := by
  have hblank := onFailedAffirmation_blank h
  obtain ⟨hfree, total, htotal, rfl⟩ := onFailedAffirmation_cases h
  refine ⟨?_, fun _ => id, ?_⟩
  · intro hledger
    have hopen : s.bridge.overdraw.fixedAssets t = false := by
      rw [← Bool.not_eq_true]
      exact fun hfixed => hledger.entry t hfixed hfree
    have hempty : (s.bridge.overdraw.txOutOfLimitValue t).toNat = 0 := by
      unfold HasEntry at hblank
      rw [not_or, not_not, not_not] at hblank
      rw [hblank.2]
      rfl
    refine ⟨?_, ?_, hledger.once⟩
    · show total.toNat = openSum s.bridge.overdraw.fixedAssets fun t' =>
        (Function.update s.bridge.overdraw.txOutOfLimitValue t value t').toNat
      have hvalues : (fun t' => (Function.update s.bridge.overdraw.txOutOfLimitValue t value t').toNat) =
          Function.update (fun t' => (s.bridge.overdraw.txOutOfLimitValue t').toNat) t value.toNat :=
        funext fun t' => Function.apply_update (fun _ => BitVec.toNat) _ t value t'
      rw [hvalues, openSum_enter hopen hempty, SafeMath.add_eq_some.mp htotal, hledger.total]
      rfl
    · intro t' ht'
      have hne : t' ≠ t := by
        rintro rfl
        exact absurd (hopen.symm.trans ht') Bool.false_ne_true
      show Function.update s.bridge.overdraw.txOutOfLimitRecipient t recipient t' ≠ 0
      rw [Function.update_of_ne hne]
      exact hledger.entry t' ht'
  · intro t' ht'
    have hne : t' ≠ t := by
      rintro rfl
      exact hblank ht'
    unfold recordedDeposit
    simp only [emit_overdraw, setOverdraw_overdraw, Function.update_of_ne hne]

/-! ## Fixing -/

/-- Only an entry that is not fixed is fixed. -/
theorem fixAssetsAboveLimits_open (h : s.fixAssetsAboveLimits sender t unlockOnForeign = some s') :
    s.bridge.overdraw.fixedAssets t = false := by
  simp only [fixAssetsAboveLimits, Option.bind_eq_bind, Option.bind_eq_some_iff, require_eq_some, exists_const] at h
  exact h.2.1

theorem recorded_fixAssetsAboveLimits (h : s.fixAssetsAboveLimits sender t unlockOnForeign = some s') :
    Recorded s s' := by
  have hopen := fixAssetsAboveLimits_open h
  obtain ⟨hrecipient, rest, hrest, rfl⟩ := fixAssetsAboveLimits_cases h
  refine ⟨?_, ?_, fun _ _ => rfl⟩
  · intro hledger
    refine ⟨?_, ?_, ?_⟩
    · show rest.toNat = openSum (Function.update s.bridge.overdraw.fixedAssets t true) fun t' =>
        (s.bridge.overdraw.txOutOfLimitValue t').toNat
      have hclose := openSum_close (f := fun t' => (s.bridge.overdraw.txOutOfLimitValue t').toNat) hopen
      have hsub := SafeMath.sub_eq_some.mp hrest
      have htotal : _ = openSum s.bridge.overdraw.fixedAssets _ := hledger.total
      omega
    · intro t' ht'
      by_cases he : t' = t
      · exact he ▸ hrecipient
      · refine hledger.entry t' ?_
        rwa [← Function.update_of_ne he true s.bridge.overdraw.fixedAssets]
    · show Once ∅ (Function.update s.bridge.overdraw.fixedAssets t true) (t :: s.fixedHashes)
      apply (hledger.once.raise hopen _).settle (Finset.notMem_empty t)
      intro t'
      rw [Function.update_apply]
  · intro t' ht'
    show Function.update s.bridge.overdraw.fixedAssets t true t' = true
    rw [Function.update_apply, ht', ite_self]

/-- The subtraction has room: an entry that is not fixed is part of the total. -/
theorem OverdrawLedger.sub_value (h : OverdrawLedger s) (hopen : s.bridge.overdraw.fixedAssets t = false) :
    ∃ rest, SafeMath.sub s.bridge.overdraw.outOfLimitAmount (s.bridge.overdraw.txOutOfLimitValue t) = some rest := by
  have hle : (s.bridge.overdraw.txOutOfLimitValue t).toNat ≤ s.outstanding :=
    le_openSum (f := fun t => (s.bridge.overdraw.txOutOfLimitValue t).toNat) hopen
  have hroom : s.bridge.overdraw.txOutOfLimitValue t ≤ s.bridge.overdraw.outOfLimitAmount := by
    rw [BitVec.le_def, h.total]
    exact hle
  refine ⟨s.bridge.overdraw.outOfLimitAmount - s.bridge.overdraw.txOutOfLimitValue t, ?_⟩
  unfold SafeMath.sub
  rw [require_pos hroom]
  rfl

/-- An entry with a recipient and a value that is not fixed can be. -/
theorem OverdrawLedger.fixable (h : OverdrawLedger s) (hopen : s.bridge.overdraw.fixedAssets t = false)
    (hrecipient : s.bridge.overdraw.txOutOfLimitRecipient t ≠ 0)
    (hvalue : s.bridge.overdraw.txOutOfLimitValue t ≠ 0) (unlockOnForeign : Bool) :
    ∃ s', s.fixAssetsAboveLimits s.bridge.proxyOwner t unlockOnForeign = some s' ∧
      s'.bridge.overdraw.fixedAssets t = true := by
  obtain ⟨rest, hrest⟩ := h.sub_value hopen
  have hpos : 0 < s.bridge.overdraw.txOutOfLimitValue t :=
    BitVec.lt_def.mpr (Nat.pos_of_ne_zero fun hzero => hvalue (BitVec.eq_of_toNat_eq hzero))
  cases hfix : s.fixAssetsAboveLimits s.bridge.proxyOwner t unlockOnForeign with
  | none =>
      have hboth : s.bridge.overdraw.txOutOfLimitRecipient t ≠ 0 ∧ 0 < s.bridge.overdraw.txOutOfLimitValue t :=
        ⟨hrecipient, hpos⟩
      simp only [fixAssetsAboveLimits, Option.bind_eq_bind, require_pos hopen, require_pos hboth,
        hrest, Option.bind_some, Option.pure_def] at hfix
      exact absurd hfix (by simp)
  | some s' =>
      obtain ⟨_, _, _, rfl⟩ := fixAssetsAboveLimits_cases hfix
      exact ⟨_, rfl, Function.update_self ..⟩

theorem fixAssetsAboveLimits_of_fixed (hfixed : s.bridge.overdraw.fixedAssets t = true) :
    s.fixAssetsAboveLimits sender t unlockOnForeign = none := by
  cases h : s.fixAssetsAboveLimits sender t unlockOnForeign with
  | none => rfl
  | some s' => exact absurd ((fixAssetsAboveLimits_open h).symm.trans hfixed) Bool.false_ne_true

/-! ## Calls of any depth -/

section Calls

variable [DecidableEq H] {K : CollisionFree H} {ecrecover : Ecrecover H} {V : HomeVariant}
  {allowed : Home H W → BridgeTx → Prop}

omit [DecidableEq H] in
theorem recorded_keeps {out : Home H W → Home H W → Prop} (hout : ∀ s s', out s s' → Recorded s s') :
    Keeps out Recorded := by
  refine ⟨Recorded.refl, fun _ _ _ => Recorded.trans, ?_, hout⟩
  intro s s' hq
  refine Recorded.of_same hq.overdraw ?_
  unfold fixedHashes
  rw [hq.trail]

theorem recorded_affirmed {out : Home H W → Home H W → Prop} {call : Callee (Home H W)}
    (hkeeps : Keeps out Recorded) (hcall : Within out call) {d : Deposit} (h : Affirmed K V call s sender d s') :
    Recorded s s' := by
  cases h with
  | recorded _ h => exact recorded_onFailedAffirmation h
  | signed _ _ _ _ => exact Recorded.of_same rfl rfl
  | @settled s₂ _ _ _ _ h =>
      have hmarked : Recorded s ((s.affirm K sender d).markProcessed K d) := Recorded.of_same rfl rfl
      have hcalls : Recorded ((s.affirm K sender d).markProcessed K d) s₂ :=
        onExecuteAffirmation_keeps hkeeps hcall h
      have hcomplete : Recorded s₂ (s₂.complete K d) := Recorded.of_same rfl rfl
      exact (hmarked.trans hcalls).trans hcomplete

theorem keptByCalls_recorded : KeptByCalls K ecrecover V allowed (Recorded (H := H) (W := W)) where
  refl := Recorded.refl
  trans _ _ _ := Recorded.trans
  same := (recorded_keeps fun _ _ => id).same
  affirmed _ _ hkeeps hcall _ _ _ _ _ _ h := recorded_affirmed hkeeps hcall h
  fixed _ _ _ _ _ _ h := recorded_fixAssetsAboveLimits h
  submitted _ _ _ _ _ h := by
    have hsame := submitSignature_sameDeposits h
    refine Recorded.of_same hsame.overdraw ?_
    unfold fixedHashes
    rw [hsame.trail]

/-! ## Runs -/

theorem step_recorded (h : StepWhen K ecrecover V allowed s s') : Recorded s s' := by
  cases h with
  | bridge n h => exact call_keeps keptByCalls_recorded n s s' h
  | validators _ => exact Recorded.of_same rfl rfl
  | tick _ _ _ => exact Recorded.of_same rfl rfl
  | elsewhere h =>
      obtain ⟨w, rfl⟩ := h
      exact Recorded.of_same rfl rfl

theorem run_recorded (h : RunWhen K ecrecover V allowed s s') : Recorded s s' :=
  Calls.steps_rel Recorded.refl (fun _ _ _ => Recorded.trans) (fun _ _ => step_recorded) h

/-- **The overdraw ledger.** In every run: the total is the sum over what is recorded and not fixed, so the
    subtraction of a fix has room; an entry with a recipient and a value can be fixed, and every hash was fixed
    once or not at all; a fixed one is never fixed again, and an entry that is not blank never changes. -/
theorem overdraw_ledger {s₀ : Home H W} (hfresh : Fresh s₀) (hrun : Run K ecrecover V s₀ s) :
    s.bridge.overdraw.outOfLimitAmount.toNat = s.outstanding ∧
    (∀ t, s.bridge.overdraw.fixedAssets t = false → ∃ rest,
      SafeMath.sub s.bridge.overdraw.outOfLimitAmount (s.bridge.overdraw.txOutOfLimitValue t) = some rest) ∧
    (∀ t unlockOnForeign, s.bridge.overdraw.fixedAssets t = false →
      s.bridge.overdraw.txOutOfLimitRecipient t ≠ 0 → s.bridge.overdraw.txOutOfLimitValue t ≠ 0 →
      ∃ s', s.fixAssetsAboveLimits s.bridge.proxyOwner t unlockOnForeign = some s' ∧
        s'.bridge.overdraw.fixedAssets t = true) ∧
    (∀ t, s.fixedHashes.count t = if s.bridge.overdraw.fixedAssets t = true then 1 else 0) ∧
    ∀ s', Run K ecrecover V s s' → ∀ t,
      (s.bridge.overdraw.fixedAssets t = true →
        ∀ sender unlockOnForeign, s'.fixAssetsAboveLimits sender t unlockOnForeign = none) ∧
      (s.HasEntry t → s'.recordedDeposit t = s.recordedDeposit t) := by
  have hledger := (run_recorded hrun).ledger (overdrawLedger_fresh hfresh)
  refine ⟨hledger.total, fun t => hledger.sub_value, ?_, ?_, ?_⟩
  · intro t unlockOnForeign hopen hrecipient hvalue
    exact hledger.fixable hopen hrecipient hvalue unlockOnForeign
  · intro t
    rw [hledger.once.count t]
    simp
  · intro s' hrun' t
    have hkept := run_recorded hrun'
    refine ⟨?_, hkept.entries t⟩
    intro hfixed sender unlockOnForeign
    exact fixAssetsAboveLimits_of_fixed (hkept.fixed t hfixed)

/-- A deposit of 600 above the limit of 500, recorded and then fixed. -/
theorem overdraw_ledger_fixed : ∃ s : Home (List Byte) Unit,
    s.bridge.overdraw.outOfLimitAmount = 600 ∧ s.recordedDeposit 77 = (33, 600, 77) ∧ s.outstanding = 600 ∧
      ∃ s', s.fixAssetsAboveLimits 6 77 true = some s' ∧ s'.bridge.overdraw.fixedAssets 77 = true := by
  have heval : (do
      let v ← BridgeValidators.blank.initializeWith 2 [1, 2] 9
      let s ← exec serialHash noSigner .ercToErcWithFee obliging { sampleHome () with validators := v }
        (.executeAffirmation 1 33 600 77)
      pure (s.bridge.overdraw.outOfLimitAmount, s.recordedDeposit 77, s.bridge.overdraw.fixedAssets 77,
        s.bridge.proxyOwner)) = some ((600, (33, 600, 77), false, 6) : UInt256 × Deposit × Bool × Address) := by
    decide +kernel
  simp only [Option.bind_eq_bind, Option.bind_eq_some_iff, Option.pure_def, Option.some.injEq,
    Prod.mk.injEq] at heval
  obtain ⟨v, hv, s, hs, hamount, hentry, hopen, howner⟩ := heval
  have hrun : Run serialHash noSigner .ercToErcWithFee (sampleHome ()) s :=
    (Relation.ReflTransGen.single (.validators ⟨.initializeWith 2 [1, 2] 9, hv⟩)).tail
      (step_of_exec trivial obliging_within hs)
  obtain ⟨htotal, _, hfix, _⟩ := overdraw_ledger (deploy_fresh ..) hrun
  refine ⟨s, hamount, hentry, ?_, ?_⟩
  · rw [← htotal, hamount]
    rfl
  · obtain ⟨hrecipient, hrest⟩ := Prod.mk.inj hentry
    have hvalue : s.bridge.overdraw.txOutOfLimitValue 77 = 600 := (Prod.mk.inj hrest).1
    rw [← howner]
    exact hfix 77 true hopen (by rw [hrecipient]; decide) (by rw [hvalue]; decide)

end Calls
end Home
end ThunderBridge
