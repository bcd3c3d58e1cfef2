import ThunderBridge.Contracts.HomeBridge.Outline

/-!
# `HomeBridge.Effects` — what one call of the bridge can change

Every invariant of the home bridge is derived from the lemmas here; none unfolds the contract again.

* `executeAffirmation_cases`: a successful affirmation records the deposit as over the limit, signs it, or
  signs and settles it, and the calls it makes lie between `markProcessed` and `complete`.
* `onExecuteAffirmation_keeps`, `onTokenTransfer_keeps`: the rest of the contract keeps every relation `R`
  that the outgoing calls keep, as long as `R` does not look past what the signatures decide (`Quiet`).
* `call_keeps`: what a call of any depth keeps (`KeptByCalls`).
-/

namespace ThunderBridge
namespace Home

variable {H W : Type}

/-! ## The deposit state -/

/-- Validators, affirmations, overdraw ledger and trail are the same; anything else may differ. -/
structure SameDeposits (s s' : Home H W) : Prop where
  validators : s'.validators = s.validators
  numAffirmationsSigned : s'.bridge.ledger.numAffirmationsSigned = s.bridge.ledger.numAffirmationsSigned
  affirmationsSigned : s'.bridge.ledger.affirmationsSigned = s.bridge.ledger.affirmationsSigned
  overdraw : s'.bridge.overdraw = s.bridge.overdraw
  trail : s'.bridge.trail = s.bridge.trail

theorem SameDeposits.refl (s : Home H W) : SameDeposits s s := ⟨rfl, rfl, rfl, rfl, rfl⟩

theorem SameDeposits.trans {s₁ s₂ s₃ : Home H W} (h : SameDeposits s₁ s₂) (h' : SameDeposits s₂ s₃) :
    SameDeposits s₁ s₃ :=
  ⟨h'.validators.trans h.validators, h'.numAffirmationsSigned.trans h.numAffirmationsSigned,
    h'.affirmationsSigned.trans h.affirmationsSigned, h'.overdraw.trans h.overdraw, h'.trail.trans h.trail⟩

theorem emit_sameDeposits (s : Home H W) (e : HomeEvent H) : SameDeposits s (s.emit e) :=
  ⟨rfl, rfl, rfl, rfl, rfl⟩

/-! ## What the signatures decide -/

/-- The digest and the count a `CollectedSignatures` event reports. -/
def collectionOf : HomeEvent H → Option (H × UInt256)
  | .CollectedSignatures _ h n => some (h, n)
  | _ => none

/-- The collections announced so far. -/
def collections (s : Home H W) : List (H × UInt256) :=
  s.bridge.log.filterMap fun e => collectionOf e.2

/-- Nothing that signatures decide has changed: validators, affirmations and messages, overdraw ledger,
    announced collections. -/
structure Quiet (s s' : Home H W) : Prop where
  validators : s'.validators = s.validators
  ledger : s'.bridge.ledger = s.bridge.ledger
  overdraw : s'.bridge.overdraw = s.bridge.overdraw
  trail : s'.bridge.trail = s.bridge.trail
  collections : s'.collections = s.collections

theorem Quiet.sameDeposits {s s' : Home H W} (h : Quiet s s') : SameDeposits s s' where
  validators := h.validators
  numAffirmationsSigned := by rw [h.ledger]
  affirmationsSigned := by rw [h.ledger]
  overdraw := h.overdraw
  trail := h.trail

/-- A relation that the outgoing calls keep and that does not look past what the signatures decide. -/
structure Keeps (out R : Home H W → Home H W → Prop) : Prop where
  refl : ∀ s, R s s
  trans : ∀ s₁ s₂ s₃, R s₁ s₂ → R s₂ s₃ → R s₁ s₃
  same : ∀ s s', Quiet s s' → R s s'
  calls : ∀ s s', out s s' → R s s'

theorem collections_emit (s : Home H W) (e : HomeEvent H) :
    (s.emit e).collections = (collectionOf e).toList ++ s.collections := by
  cases h : collectionOf e <;> simp [collections, emit, h]

theorem emit_quiet (s : Home H W) {e : HomeEvent H} (h : collectionOf e = none) : Quiet s (s.emit e) :=
  ⟨rfl, rfl, rfl, rfl, by rw [collections_emit, h]; rfl⟩

theorem setBasic_quiet (s : Home H W) (b : BasicBridge) : Quiet s (s.setBasic b) :=
  ⟨rfl, rfl, rfl, rfl, rfl⟩

theorem elsewhere_quiet {s s' : Home H W} (h : Elsewhere s s') : Quiet s s' := by
  obtain ⟨w, rfl⟩ := h
  exact ⟨rfl, rfl, rfl, rfl, rfl⟩

theorem addExecuted_quiet {s s' : Home H W} {value : UInt256} (h : s.addExecuted value = some s') :
    Quiet s s' := by
  obtain ⟨_, _, rfl⟩ := addExecuted_eq_some.mp h
  exact setBasic_quiet _ _

theorem addSpent_quiet {s s' : Home H W} {value : UInt256} (h : s.addSpent value = some s') :
    Quiet s s' := by
  obtain ⟨_, _, rfl⟩ := addSpent_eq_some.mp h
  exact setBasic_quiet _ _

theorem applySetting_quiet {V : HomeVariant} {s s' : Home H W} {setting : OwnerSetting}
    (h : applySetting V s setting = some s') : Quiet s s' := by
  obtain ⟨_, _, _, rfl⟩ | ⟨_, _, _, _, rfl⟩ := applySetting_cases h
  · exact ⟨rfl, rfl, rfl, rfl, rfl⟩
  · exact ⟨rfl, rfl, rfl, rfl, rfl⟩

/-! ## Settlements and withdrawals -/

section Outlines

variable {out R : Home H W → Home H W → Prop} {call : Callee (Home H W)} {s s' : Home H W}
  {sender source recipient : Address} {value : UInt256} {ok : Bool}

theorem Keeps.chains (hR : Keeps out R) : Chains R := ⟨hR.refl, hR.trans⟩

theorem Keeps.within (hR : Keeps out R) (hcall : Within out call) : Within R call :=
  fun _ _ _ _ hc => hR.calls _ _ (hcall _ _ _ _ hc)

/-- **Settling an affirmation** keeps every such relation, in each contract. -/
theorem onExecuteAffirmation_keeps (hR : Keeps out R) (hcall : Within out call) {V : HomeVariant}
    (h : onExecuteAffirmation V call s recipient value = some (s', ok)) : R s s' := by
  cases onExecuteAffirmation_settling hR.chains (hR.within hcall) h with
  | paid counted calls => exact hR.trans _ _ _ (hR.same _ _ (addExecuted_quiet counted)) calls
  | redirected source target counted calls =>
      have hpaid := hR.trans _ _ _ (hR.same _ _ (addExecuted_quiet counted)) calls
      exact hR.trans _ _ _ hpaid (hR.same _ _ (emit_quiet _ rfl))

theorem withdrawing_keeps (hR : Keeps out R) {payFee release : Home H W → UInt256 → Option (Home H W)}
    (hfee : ∀ s s' fee, payFee s fee = some s' → R s s')
    (hrelease : ∀ s s' rest, release s rest = some s' → R s s')
    (h : Withdrawing payFee release s source value s') : R s s' := by
  cases h with
  | @requested s₁ s₂ s₃ fee rest limit hsum paid counted released =>
      have hpaid : R s s₁ := whenNonzero_out hR.chains (fun _ _ => hfee _ _ _) paid
      have hspent : R s₁ s₂ := hR.same _ _ (addSpent_quiet counted)
      exact hR.trans _ _ _ hpaid (hR.trans _ _ _ hspent
        (hR.trans _ _ _ (hrelease _ _ _ released) (hR.same _ _ (emit_quiet _ rfl))))

theorem onTokenTransfer_keeps (hR : Keeps out R) (hcall : Within out call) {V : HomeVariant}
    (h : onTokenTransfer V call s sender source value = some s') : R s s' := by
  apply withdrawing_keeps hR _ _ (onTokenTransfer_withdrawing h).2
  · intro s s' fee
    exact payFeeInToken_out (hR.within hcall)
  · intro s s' rest
    exact release_out hR.chains (hR.within hcall)

theorem transferAndCall_keeps (hR : Keeps out R) (hcall : Within out call) {target : Address}
    {msgValue : UInt256} (h : transferAndCall call s sender target value msgValue = some s') : R s s' := by
  apply withdrawing_keeps hR _ _ (transferAndCall_withdrawing h)
  · intro s s' fee
    exact payFeeInCoin_out hR.chains (hR.within hcall)
  · intro s s' rest hs
    obtain rfl := Option.some.inj hs
    exact hR.refl s

section Signatures

variable [DecidableEq H]

theorem setMessages_sameDeposits (s : Home H W) (h : H) (m : Bytes) : SameDeposits s (s.setMessages h m) :=
  ⟨rfl, rfl, rfl, rfl, rfl⟩

theorem setMessagesSigned_sameDeposits (s : Home H W) (h : H) (b : Bool) :
    SameDeposits s (s.setMessagesSigned h b) := ⟨rfl, rfl, rfl, rfl, rfl⟩

theorem setSignatures_sameDeposits (s : Home H W) (h : H) (sig : Bytes) :
    SameDeposits s (s.setSignatures h sig) := ⟨rfl, rfl, rfl, rfl, rfl⟩

theorem setNumMessagesSigned_sameDeposits (s : Home H W) (h : H) (n : UInt256) :
    SameDeposits s (s.setNumMessagesSigned h n) := ⟨rfl, rfl, rfl, rfl, rfl⟩

/-- A collected signature writes the message half of the ledger only. -/
theorem submitSignature_sameDeposits {K : CollisionFree H} {ecrecover : Ecrecover H}
    {signature message : Bytes} (h : submitSignature K ecrecover s sender signature message = some s') :
    SameDeposits s s' := by
  simp only [submitSignature, Option.bind_eq_bind, Option.bind_eq_some_iff, require_eq_some,
    exists_const] at h
  obtain ⟨_, _, _, _, _, _, _, h⟩ := h
  generalize hs₁ : (if 1 < s.numMessagesSigned (messageHash K message) + 1 then s
    else s.setMessages (messageHash K message) message) = s₁ at h
  have hfirst : SameDeposits s s₁ := by
    rw [← hs₁]
    split
    · exact SameDeposits.refl s
    · exact setMessages_sameDeposits _ _ _
  have hsigned := hfirst.trans ((setMessagesSigned_sameDeposits s₁ (hashSender K sender
    (messageHash K message)) true).trans (setSignatures_sameDeposits _ (signIdx K (messageHash K message)
      (s.numMessagesSigned (messageHash K message) + 1 - 1)) signature))
  have hcounted := hsigned.trans ((setNumMessagesSigned_sameDeposits _ (messageHash K message)
    (s.numMessagesSigned (messageHash K message) + 1)).trans
      (emit_sameDeposits _ (.SignedForUserRequest sender (messageHash K message))))
  split at h
  · obtain rfl := Option.some.inj h
    exact hcounted.trans ((setNumMessagesSigned_sameDeposits _ _ _).trans (emit_sameDeposits _ _))
  · obtain rfl := Option.some.inj h
    exact hcounted

end Signatures
end Outlines

/-! ## Affirmations -/

section Affirmations

variable [DecidableEq H] (K : CollisionFree H)

/-- The state after `sender` signed the affirmation of a deposit. -/
def affirm (s : Home H W) (sender : Address) (d : Deposit) : Home H W :=
  (((s.setAffirmationsSigned (hashSender K sender (depositHash K d)) true).setNumAffirmationsSigned
    (depositHash K d) (s.numAffirmationsSigned (depositHash K d) + 1)).emit
      (.SignedForAffirmation sender d.2.2)).mark (.signed sender d s.validators)

/-- The state in which a deposit is settled: its word already carries the processed bit. -/
def markProcessed (s : Home H W) (d : Deposit) : Home H W :=
  s.setNumAffirmationsSigned (depositHash K d) (markAsProcessed (s.numAffirmationsSigned (depositHash K d)))

/-- The state after a deposit was settled. -/
def complete (s : Home H W) (d : Deposit) : Home H W :=
  (s.mark (.executed d (s.numAffirmationsSigned (depositHash K d)) s.validators)).emit
    (.AffirmationCompleted d.1 d.2.1 d.2.2)

omit [DecidableEq H] in
@[simp] theorem emit_numAffirmationsSigned (s : Home H W) (e : HomeEvent H) (h : H) :
    (s.emit e).numAffirmationsSigned h = s.numAffirmationsSigned h := rfl

omit [DecidableEq H] in
@[simp] theorem mark_numAffirmationsSigned (s : Home H W) (m : Mark) (h : H) :
    (s.mark m).numAffirmationsSigned h = s.numAffirmationsSigned h := rfl

@[simp] theorem setAffirmationsSigned_numAffirmationsSigned (s : Home H W) (h h' : H) (b : Bool) :
    (s.setAffirmationsSigned h b).numAffirmationsSigned h' = s.numAffirmationsSigned h' := rfl

@[simp] theorem setNumAffirmationsSigned_numAffirmationsSigned (s : Home H W) (h h' : H) (n : UInt256) :
    (s.setNumAffirmationsSigned h n).numAffirmationsSigned h' =
      if h' = h then n else s.numAffirmationsSigned h' :=
  Function.update_apply _ _ _ _

/-- The word of every deposit after a signature. -/
theorem affirm_numAffirmationsSigned (s : Home H W) (sender : Address) (d d' : Deposit) :
    (s.affirm K sender d).numAffirmationsSigned (depositHash K d') =
      if d' = d then s.numAffirmationsSigned (depositHash K d) + 1
      else s.numAffirmationsSigned (depositHash K d') := by
  simp [affirm, (depositHash_injective K).eq_iff]

/-- What a successful `executeAffirmation` does with a deposit. -/
inductive Affirmed (V : HomeVariant) (call : Callee (Home H W)) (s : Home H W) (sender : Address)
    (d : Deposit) : Home H W → Prop where
  /-- Above the limits: recorded. -/
  | recorded {s' : Home H W}
      (limit : s.bridge.basic.withinExecutionLimit s.getCurrentDay d.2.1 = some false)
      (h : s.onFailedAffirmation d.1 d.2.1 d.2.2 = some s') : Affirmed V call s sender d s'
  /-- One signature more, still too few. -/
  | signed (limit : s.bridge.basic.withinExecutionLimit s.getCurrentDay d.2.1 = some true)
      (unsigned : s.affirmationsSigned (hashSender K sender (depositHash K d)) = false)
      (unprocessed : isAlreadyProcessed (s.numAffirmationsSigned (depositHash K d)) = false)
      (few : ¬ s.validators.requiredSignatures ≤ s.numAffirmationsSigned (depositHash K d) + 1) :
      Affirmed V call s sender d (s.affirm K sender d)
  /-- The last signature: settled. -/
  | settled {s' : Home H W}
      (limit : s.bridge.basic.withinExecutionLimit s.getCurrentDay d.2.1 = some true)
      (unsigned : s.affirmationsSigned (hashSender K sender (depositHash K d)) = false)
      (unprocessed : isAlreadyProcessed (s.numAffirmationsSigned (depositHash K d)) = false)
      (enough : s.validators.requiredSignatures ≤ s.numAffirmationsSigned (depositHash K d) + 1)
      (h : onExecuteAffirmation V call ((s.affirm K sender d).markProcessed K d) d.1 d.2.1 =
        some (s', true)) :
      Affirmed V call s sender d (s'.complete K d)

variable {K} {V : HomeVariant} {call : Callee (Home H W)} {s s' : Home H W}

/-- **What one affirmation can do.** -/
theorem executeAffirmation_cases {sender : Address} (d : Deposit)
    (h : executeAffirmation K V call s sender d.1 d.2.1 d.2.2 = some s') :
    s.validators.isValidator sender = true ∧ Affirmed K V call s sender d s' := by
  simp only [executeAffirmation, Option.bind_eq_bind, Option.bind_eq_some_iff, require_eq_some,
    exists_const] at h
  obtain ⟨hval, within, hwithin, h⟩ := h
  refine ⟨hval, ?_⟩
  cases within with
  | false => exact .recorded hwithin h
  | true =>
      simp only [if_true, Option.bind_eq_some_iff, require_eq_some, exists_const] at h
      obtain ⟨hunsigned, hunprocessed, h⟩ := h
      split at h
      · rename_i henough
        simp only [Option.bind_eq_some_iff, require_eq_some, exists_const] at h
        obtain ⟨⟨t, ok⟩, hexec, rfl, h⟩ := h
        obtain rfl := Option.some.inj h
        refine .settled hwithin hunsigned hunprocessed henough ?_
        rw [markProcessed, affirm_numAffirmationsSigned, if_pos rfl]
        exact hexec
      · rename_i hfew
        obtain rfl := Option.some.inj h
        exact .signed hwithin hunsigned hunprocessed hfew

/-- An affirmation that is to settle its deposit does so whenever the settlement goes through. -/
theorem executeAffirmation_of_settled {sender : Address} {d : Deposit}
    (hval : s.validators.isValidator sender = true)
    (hlimit : s.bridge.basic.withinExecutionLimit s.getCurrentDay d.2.1 = some true)
    (hunsigned : s.affirmationsSigned (hashSender K sender (depositHash K d)) = false)
    (hopen : isAlreadyProcessed (s.numAffirmationsSigned (depositHash K d)) = false)
    (henough : s.validators.requiredSignatures ≤ s.numAffirmationsSigned (depositHash K d) + 1)
    (h : onExecuteAffirmation V call ((s.affirm K sender d).markProcessed K d) d.1 d.2.1 = some (s', true)) :
    executeAffirmation K V call s sender d.1 d.2.1 d.2.2 = some (s'.complete K d) := by
  rw [markProcessed, affirm_numAffirmationsSigned, if_pos rfl] at h
  have hunsigned' : require (s.affirmationsSigned (hashSender K sender (hashMsg K d.1 d.2.1 d.2.2)) =
      false) = some () := require_pos hunsigned
  have hopen' : require (isAlreadyProcessed
      ((s.setAffirmationsSigned (hashSender K sender (hashMsg K d.1 d.2.1 d.2.2)) true).numAffirmationsSigned
        (hashMsg K d.1 d.2.1 d.2.2)) = false) = some () := require_pos hopen
  simp only [executeAffirmation, Option.bind_eq_bind, require_pos hval, hlimit, Option.bind_some, if_true,
    hunsigned', hopen']
  split
  · show (onExecuteAffirmation V call ((s.affirm K sender d).setNumAffirmationsSigned (depositHash K d)
      (markAsProcessed (s.numAffirmationsSigned (depositHash K d) + 1))) d.1 d.2.1).bind _ = _
    rw [h]
    rfl
  · rename_i hfew
    exact absurd henough hfew

end Affirmations

/-! ## Calls of any depth -/

section Rule

variable [DecidableEq H] {K : CollisionFree H} {ecrecover : Ecrecover H} {V : HomeVariant}
  {allowed : Home H W → BridgeTx → Prop}

/-- What has to be shown of a relation for every admitted call of the bridge to keep it. -/
structure KeptByCalls (K : CollisionFree H) (ecrecover : Ecrecover H) (V : HomeVariant)
    (allowed : Home H W → BridgeTx → Prop) (R : Home H W → Home H W → Prop) : Prop where
  refl : ∀ s, R s s
  trans : ∀ s₁ s₂ s₃, R s₁ s₂ → R s₂ s₃ → R s₁ s₃
  same : ∀ s s', Quiet s s' → R s s'
  affirmed : ∀ (out : Home H W → Home H W → Prop) (call : Callee (Home H W)), Keeps out R →
    Within out call → ∀ s s' sender d, allowed s (.executeAffirmation sender d.1 d.2.1 d.2.2) →
      s.validators.isValidator sender = true → Affirmed K V call s sender d s' → R s s'
  fixed : ∀ s s' sender t unlock, allowed s (.fixAssetsAboveLimits sender t unlock) →
    fixAssetsAboveLimits s sender t unlock = some s' → R s s'
  submitted : ∀ s s' sender sig m, submitSignature K ecrecover s sender sig m = some s' → R s s'

theorem invoke_keeps {R out : Home H W → Home H W → Prop} (hR : KeptByCalls K ecrecover V allowed R)
    (hout : ∀ s s', out s s' → R s s') {s s' : Home H W}
    (h : Invoke K ecrecover V allowed out s s') : R s s' := by
  obtain ⟨call, tx, hallowed, hcall, h⟩ := h
  have hkeeps : Keeps out R := ⟨hR.refl, hR.trans, hR.same, hout⟩
  cases tx with
  | executeAffirmation sender recipient value t =>
      obtain ⟨hval, haff⟩ := executeAffirmation_cases (recipient, value, t) h
      exact hR.affirmed _ _ hkeeps hcall _ _ _ _ hallowed hval haff
  | fixAssetsAboveLimits sender t unlock => exact hR.fixed _ _ _ _ _ hallowed h
  | onTokenTransfer sender source value => exact onTokenTransfer_keeps hkeeps hcall h
  | transferAndCall sender target value msgValue =>
      simp only [exec, Option.bind_eq_bind, Option.bind_eq_some_iff, require_eq_some, exists_const] at h
      exact transferAndCall_keeps hkeeps hcall h.2
  | submitSignature sender sig m => exact hR.submitted _ _ _ _ _ h
  | setting sender setting =>
      simp only [exec, Option.bind_eq_bind, Option.bind_eq_some_iff, require_eq_some, exists_const] at h
      exact hR.same _ _ (applySetting_quiet h.2)

/-- **A call of any depth** keeps every such relation. -/
theorem call_keeps {R : Home H W → Home H W → Prop} (hR : KeptByCalls K ecrecover V allowed R) :
    ∀ n s s', Call K ecrecover V allowed n s s' → R s s' :=
  Calls.nested_rel hR.refl hR.trans (fun _ _ h => hR.same _ _ (elsewhere_quiet h))
    (fun _ hout _ _ h => invoke_keeps hR hout h)

/-- So does whatever a callee does that may call the bridge back. -/
theorem callback_keeps {R : Home H W → Home H W → Prop} (hR : KeptByCalls K ecrecover V allowed R) {n : Nat}
    {s s' : Home H W} (h : Calls.Callback Elsewhere (Call K ecrecover V allowed n) s s') : R s s' :=
  Calls.callback_rel hR.refl hR.trans (fun _ _ h => hR.same _ _ (elsewhere_quiet h)) (call_keeps hR n) h

end Rule
end Home
end ThunderBridge
