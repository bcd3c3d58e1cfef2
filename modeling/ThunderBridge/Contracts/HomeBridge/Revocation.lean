import ThunderBridge.Contracts.HomeBridge.Threshold

/-!
# `HomeBridge.Revocation` — votes of removed validators

`executeAffirmation` asks whether the sender is a validator when it signs, and counts. It never looks again at the
signers it counted: a vote outlives the removal of its validator. `hasEnoughValidSignatures` on the foreign side
asks of every signer whether it is a validator at that moment.

`SignedByCurrent` is what the foreign side guarantees, for the home side: whenever a deposit was settled, enough of
the signers counted for it were validators then. A call keeps it exactly when, if it settles a deposit, the votes
that became stale are not needed for the threshold (`CountsCurrent`).
-/

namespace ThunderBridge
namespace Home

variable {H W : Type}

/-! ## Stale votes -/

/-- The votes on a deposit whose validators were removed since. -/
def staleVotes (K : CollisionFree H) (s : Home H W) (d : Deposit) : Set Address :=
  {a | s.affirmationsSigned (hashSender K a (depositHash K d)) = true ∧ s.validators.isValidator a = false}

/-- How many of the signers are validators. -/
def currentVotes (v : BridgeValidators) (signers : List Address) : Nat := signers.countP v.isValidator

/-- Whenever a deposit was settled, enough of its signers so far were validators at that moment. -/
def SignedByCurrent (s : Home H W) : Prop :=
  ∀ d w v past, Mark.executed d w v :: past <:+ s.bridge.trail →
    v.requiredSignatures.toNat ≤ currentVotes v (signersOf d past)

/-- The affirmation is the one that settles its deposit. -/
structure SettlesNext (K : CollisionFree H) (s : Home H W) (sender : Address) (d : Deposit) : Prop where
  validator : s.validators.isValidator sender = true
  limit : s.bridge.basic.withinExecutionLimit s.getCurrentDay d.2.1 = some true
  unsigned : s.affirmationsSigned (hashSender K sender (depositHash K d)) = false
  unprocessed : isAlreadyProcessed (s.numAffirmationsSigned (depositHash K d)) = false
  enough : s.validators.requiredSignatures ≤ s.numAffirmationsSigned (depositHash K d) + 1

/-- If the call settles a deposit, it has as many signatures beyond the threshold as stale votes. -/
def CountsCurrent (K : CollisionFree H) (s : Home H W) : BridgeTx → Prop
  | .executeAffirmation sender recipient value t =>
      SettlesNext K s sender (recipient, value, t) →
        s.validators.requiredSignatures.toNat + (staleVotes K s (recipient, value, t)).ncard ≤
          (s.numAffirmationsSigned (depositHash K (recipient, value, t))).toNat + 1
  | _ => True

/-! ## The trail -/

section Trail

variable {s s' : Home H W}

theorem SignedByCurrent.congr (h : SignedByCurrent s) (htrail : s'.bridge.trail = s.bridge.trail) :
    SignedByCurrent s' := by
  intro d w v past hsuffix
  rw [htrail] at hsuffix
  exact h d w v past hsuffix

/-- A mark that settles nothing. -/
theorem SignedByCurrent.other (h : SignedByCurrent s) {m : Mark} (hm : executedBy m = none)
    (htrail : s'.bridge.trail = m :: s.bridge.trail) : SignedByCurrent s' := by
  intro d w v past hsuffix
  rw [htrail, List.suffix_cons_iff] at hsuffix
  rcases hsuffix with heq | hold
  · obtain ⟨rfl, _⟩ := List.cons.inj heq
    exact absurd hm (by simp [executedBy])
  · exact h d w v past hold

/-- A settlement: only the new one is to be looked at. -/
theorem signedByCurrent_settled {d : Deposit} {w : UInt256} {v : BridgeValidators} (h : SignedByCurrent s)
    (htrail : s'.bridge.trail = .executed d w v :: s.bridge.trail) :
    SignedByCurrent s' ↔ v.requiredSignatures.toNat ≤ currentVotes v (signersOf d s.bridge.trail) := by
  constructor
  · intro hall
    apply hall d w v s.bridge.trail
    rw [htrail]
  · intro henough d' w' v' past hsuffix
    rw [htrail, List.suffix_cons_iff] at hsuffix
    rcases hsuffix with heq | hold
    · obtain ⟨hmark, rfl⟩ := List.cons.inj heq
      obtain ⟨rfl, rfl, rfl⟩ := Mark.executed.inj hmark
      exact henough
    · exact h d' w' v' past hold

end Trail

/-! ## Counting -/

section Counting

variable {K : CollisionFree H} {P : Finset Deposit} {s s₂ : Home H W} {d : Deposit}

/-- Every counted signer is a validator or a stale vote. -/
theorem Threshold.current_add_stale (hP : Threshold K P s) (d : Deposit) :
    currentVotes s.validators (signersOf d s.bridge.trail) + (staleVotes K s d).ncard =
      signedCount (s.numAffirmationsSigned (depositHash K d)) := by
  have hstale : staleVotes K s d =
      (((signersOf d s.bridge.trail).filter fun a => !s.validators.isValidator a).toFinset : Set Address) := by
    ext a
    rw [Finset.mem_coe, List.mem_toFinset, List.mem_filter, ← hP.flag d a, Bool.not_eq_true']
    rfl
  rw [hstale, Set.ncard_coe_finset, List.toFinset_card_of_nodup ((hP.distinct d).filter _), hP.count d,
    ← List.countP_eq_length_filter, currentVotes]
  have hsplit := List.length_eq_countP_add_countP s.validators.isValidator (l := signersOf d s.bridge.trail)
  simp only [Bool.not_eq_true, Bool.decide_eq_false] at hsplit
  exact hsplit.symm

variable [DecidableEq H] {sender : Address}

/-- **The votes of a settlement.** Whatever its callees do, the signers counted are the earlier ones and the
    sender. -/
theorem settled_votes (hP : Threshold K P s) (hval : s.validators.isValidator sender = true)
    (hunsigned : s.affirmationsSigned (hashSender K sender (depositHash K d)) = false)
    (hopen : isAlreadyProcessed (s.numAffirmationsSigned (depositHash K d)) = false)
    (hcalls : Settled K ((s.affirm K sender d).markProcessed K d) s₂) :
    currentVotes s.validators (signersOf d s₂.bridge.trail) + (staleVotes K s d).ncard =
      (s.numAffirmationsSigned (depositHash K d)).toNat + 1 := by
  have hpending := hP.pending hval hunsigned hopen
  have hdone := hcalls.threshold _ hpending
  have hprocessed : isAlreadyProcessed
      (((s.affirm K sender d).markProcessed K d).numAffirmationsSigned (depositHash K d)) = true := by
    rw [affirm_markProcessed_word]
    exact isAlreadyProcessed_markAsProcessed _
  -- the flags are frozen, so the signers after the callees are those before
  have hperm : (signersOf d s₂.bridge.trail).Perm (sender :: signersOf d s.bridge.trail) := by
    have hsigned : signersOf d ((s.affirm K sender d).markProcessed K d).bridge.trail =
        sender :: signersOf d s.bridge.trail := by
      show signersOf d (s.affirm K sender d).bridge.trail = _
      rw [signersOf_affirm, if_pos rfl]
    rw [← hsigned]
    apply (List.perm_ext_iff_of_nodup (hdone.distinct d) (hpending.distinct d)).mpr
    intro a
    rw [← hdone.flag d a, ← hpending.flag d a, (hcalls.frozen d hprocessed).2 a]
  have hcount := hP.current_add_stale d
  have hnat : (s.numAffirmationsSigned (depositHash K d)).toNat =
      signedCount (s.numAffirmationsSigned (depositHash K d)) := by
    apply PackedCounter.toNat_eq_count
    rw [Bool.eq_false_iff, Ne, ← isAlreadyProcessed_iff, hopen]
    exact Bool.false_ne_true
  unfold currentVotes at hcount ⊢
  rw [hperm.countP_eq, List.countP_cons_of_pos hval]
  omega

end Counting

/-! ## What a call keeps -/

/-- What an admitted call keeps: the counting, and the votes of all settlements. -/
structure KeepsCurrent (K : CollisionFree H) (s s' : Home H W) : Prop where
  settled : Settled K s s'
  current : ∀ P, Threshold K P s → SignedByCurrent s → SignedByCurrent s'

section Calls

variable {K : CollisionFree H} {s s' : Home H W}

theorem KeepsCurrent.of_trail (hsettled : Settled K s s') (htrail : s'.bridge.trail = s.bridge.trail) :
    KeepsCurrent K s s' :=
  ⟨hsettled, fun _ _ h => h.congr htrail⟩

theorem KeepsCurrent.of_same (h : SameDeposits s s') : KeepsCurrent K s s' :=
  .of_trail (Settled.of_same h) h.trail

theorem KeepsCurrent.trans {s₁ s₂ s₃ : Home H W} (h : KeepsCurrent K s₁ s₂) (h' : KeepsCurrent K s₂ s₃) :
    KeepsCurrent K s₁ s₃ := by
  refine ⟨h.settled.trans h'.settled, ?_⟩
  intro P hP hs
  exact h'.current P (h.settled.threshold P hP) (h.current P hP hs)

variable [DecidableEq H] {V : HomeVariant} {out : Home H W → Home H W → Prop} {call : Callee (Home H W)}
  {sender : Address} {d : Deposit} {P : Finset Deposit}

/-- **One affirmation** keeps the votes of all settlements exactly when it needs no stale vote. -/
theorem affirmed_current_iff (hkeeps : Keeps out (KeepsCurrent K)) (hcall : Within out call)
    (hval : s.validators.isValidator sender = true) (h : Affirmed K V call s sender d s')
    (hP : Threshold K P s) (hs : SignedByCurrent s) :
    SignedByCurrent s' ↔ CountsCurrent K s (.executeAffirmation sender d.1 d.2.1 d.2.2) := by
  cases h with
  | recorded limit h =>
      obtain ⟨_, _, _, rfl⟩ := onFailedAffirmation_cases h
      have hnext : CountsCurrent K s (.executeAffirmation sender d.1 d.2.1 d.2.2) := by
        intro hsettles
        rw [hsettles.limit] at limit
        exact absurd limit (by decide)
      exact ⟨fun _ => hnext, fun _ => hs.congr rfl⟩
  | signed _ _ _ few =>
      exact ⟨fun _ hsettles => absurd hsettles.enough few, fun _ => hs.other rfl rfl⟩
  | @settled s₂ limit unsigned unprocessed enough h =>
      have hcalls : KeepsCurrent K ((s.affirm K sender d).markProcessed K d) s₂ :=
        onExecuteAffirmation_keeps hkeeps hcall h
      have hbefore : SignedByCurrent ((s.affirm K sender d).markProcessed K d) := hs.other rfl rfl
      have hafter := hcalls.current _ (hP.pending hval unsigned unprocessed) hbefore
      have hvotes := settled_votes hP hval unsigned unprocessed hcalls.settled
      have hvalidators : s₂.validators = s.validators := hcalls.settled.validators
      rw [signedByCurrent_settled hafter rfl, hvalidators]
      show _ ↔ (SettlesNext K s sender d → s.validators.requiredSignatures.toNat + (staleVotes K s d).ncard ≤
        (s.numAffirmationsSigned (depositHash K d)).toNat + 1)
      constructor
      · intro henough _
        omega
      · intro hnext
        have hroom := hnext ⟨hval, limit, unsigned, unprocessed, enough⟩
        omega

omit [DecidableEq H] in
theorem keepsCurrent_keeps (hout : ∀ t t', out t t' → KeepsCurrent K t t') : Keeps out (KeepsCurrent K) where
  refl t := .of_trail (Settled.refl K t) rfl
  trans _ _ _ := KeepsCurrent.trans
  same _ _ hq := .of_same hq.sameDeposits
  calls := hout

/-- **Every admitted call**, however deep its callbacks. -/
theorem keptByCalls_current {ecrecover : Ecrecover H} :
    KeptByCalls K ecrecover V (CountsCurrent K) (KeepsCurrent (W := W) K) where
  refl s := .of_trail (Settled.refl K s) rfl
  trans _ _ _ := KeepsCurrent.trans
  same _ _ hq := .of_same hq.sameDeposits
  submitted _ _ _ _ _ h := .of_same (submitSignature_sameDeposits h)
  affirmed _ _ hkeeps hcall _ _ _ _ hallowed hval h := by
    refine ⟨settled_affirmed (settled_keeps fun t t' hout => (hkeeps.calls t t' hout).settled) hcall hval h, ?_⟩
    intro P hP hs
    exact (affirmed_current_iff hkeeps hcall hval h hP hs).mpr hallowed
  fixed _ _ _ _ _ _ h := by
    refine ⟨settled_fixed h, ?_⟩
    intro P _ hs
    obtain ⟨_, _, _, rfl⟩ := fixAssetsAboveLimits_cases h
    exact hs.other rfl rfl

end Calls

/-! ## Runs -/

section Runs

variable [DecidableEq H] {K : CollisionFree H} {ecrecover : Ecrecover H} {V : HomeVariant} {s₀ s s' : Home H W}

omit [DecidableEq H] in
theorem signedByCurrent_fresh (hfresh : Fresh s₀) : SignedByCurrent s₀ := by
  intro d w v past hsuffix
  rw [hfresh.trail] at hsuffix
  exact absurd (List.suffix_nil.mp hsuffix) (by simp)

theorem step_current (h : StepWhen K ecrecover V (CountsCurrent K) s s') (hP : Threshold K ∅ s)
    (hs : SignedByCurrent s) : SignedByCurrent s' := by
  cases h with
  | bridge n h => exact (call_keeps keptByCalls_current n s s' h).current ∅ hP hs
  | validators _ => exact hs.congr rfl
  | tick now txHash _ => exact hs.congr rfl
  | elsewhere h =>
      obtain ⟨w, rfl⟩ := h
      exact hs.congr rfl

theorem run_current (hfresh : Fresh s₀) (hrun : RunWhen K ecrecover V (CountsCurrent K) s₀ s) :
    Threshold K ∅ s ∧ SignedByCurrent s := by
  refine Calls.steps_invariant (P := fun t => Threshold K ∅ t ∧ SignedByCurrent t) ?_ hrun
    ⟨threshold_fresh hfresh, signedByCurrent_fresh hfresh⟩
  rintro t t' ⟨hP, ht⟩ hstep
  exact ⟨(step_threshold hstep).1 hP, step_current hstep hP ht⟩

/-- **Revocation on Home.** In every run of calls that need no stale votes, whenever a deposit was settled enough of
    its signers were validators at that moment; and such a run goes on so, with a call whose callbacks need none,
    exactly when the call needs none itself. -/
theorem revocation_effective_iff (hfresh : Fresh s₀) (hrun : RunWhen K ecrecover V (CountsCurrent K) s₀ s) :
    SignedByCurrent s ∧
    ∀ n call tx s', Within (Calls.Callback Elsewhere (Call K ecrecover V (CountsCurrent K) n)) call →
      exec K ecrecover V call s tx = some s' → (SignedByCurrent s' ↔ CountsCurrent K s tx) := by
  obtain ⟨hP, hs⟩ := run_current hfresh hrun
  refine ⟨hs, ?_⟩
  intro n call tx s' hcall h
  have hcallbacks : ∀ t t' : Home H W, Calls.Callback Elsewhere (Call K ecrecover V (CountsCurrent K) n) t t' →
      KeepsCurrent K t t' := fun t t' hout => callback_keeps keptByCalls_current hout
  by_cases hafter : CountsCurrent K s tx
  · have hkept : KeepsCurrent K s s' := invoke_keeps keptByCalls_current hcallbacks ⟨call, tx, hafter, hcall, h⟩
    exact ⟨fun _ => hafter, fun _ => hkept.current ∅ hP hs⟩
  · cases tx with
    | executeAffirmation sender recipient value t =>
        obtain ⟨hval, haff⟩ := executeAffirmation_cases (recipient, value, t) h
        exact affirmed_current_iff (keepsCurrent_keeps hcallbacks) hcall hval haff hP hs
    | _ => exact absurd trivial hafter

/-- Validators 1 and 2 of three sign, and nobody is removed. -/
theorem revocation_effective_two_signers : ∃ s : Home (List Byte) Unit,
    RunWhen serialHash noSigner .ercToErcWithFee (CountsCurrent serialHash) (sampleHome ()) s ∧
      executedDeposits s.bridge.trail = [(33, 100, 77)] ∧ SignedByCurrent s := by
  let word (s : Home (List Byte) Unit) := s.numAffirmationsSigned (depositHash serialHash (33, 100, 77))
  have heval : (do
      let v ← BridgeValidators.blank.initializeWith 2 [1, 2, 3] 9
      let s := { sampleHome () with validators := v }
      let s₁ ← exec serialHash noSigner .ercToErcWithFee obliging s (.executeAffirmation 1 33 100 77)
      let s₂ ← exec serialHash noSigner .ercToErcWithFee obliging s₁ (.executeAffirmation 2 33 100 77)
      require (¬ s.validators.requiredSignatures ≤ word s + 1 ∧ s₁.validators.requiredSignatures = 2 ∧
        word s₁ = 1 ∧ signersOf (33, 100, 77) s₁.bridge.trail = [1] ∧ s₁.validators.isValidator 1 = true)
      pure (executedDeposits s₂.bridge.trail)) = some [(33, 100, 77)] := by
    decide +kernel
  simp only [Option.bind_eq_bind, Option.bind_eq_some_iff, require_eq_some, exists_const, Option.pure_def,
    Option.some.injEq] at heval
  obtain ⟨v, hv, s₁, h₁, s₂, h₂, ⟨hfew, hrequired, hword, hsigners, hvalid⟩, hexecuted⟩ := heval
  have hfirst : RunWhen serialHash noSigner .ercToErcWithFee (CountsCurrent serialHash) (sampleHome ()) s₁ := by
    refine (Relation.ReflTransGen.single (.validators ⟨.initializeWith 2 [1, 2, 3] 9, hv⟩)).tail
      (step_of_exec ?_ obliging_within h₁)
    intro hnext
    exact absurd hnext.enough hfew
  have hnone : staleVotes serialHash s₁ (33, 100, 77) = ∅ := by
    apply Set.eq_empty_of_forall_notMem
    rintro a ⟨hflag, hgone⟩
    have hsigner := ((run_threshold (deploy_fresh ..) hfirst).flag _ _).mp hflag
    rw [hsigners, List.mem_singleton] at hsigner
    rw [hsigner, hvalid] at hgone
    exact absurd hgone (by decide)
  have hcounts : CountsCurrent serialHash s₁ (.executeAffirmation 2 33 100 77) := by
    intro _
    rw [hnone, Set.ncard_empty, hrequired]
    show 2 ≤ (word s₁).toNat + 1
    rw [hword]
    decide
  have hrun := hfirst.tail (step_of_exec hcounts obliging_within h₂)
  exact ⟨s₂, hrun, hexecuted, (revocation_effective_iff (deploy_fresh ..) hrun).1⟩

/-- **A removed validator settles a deposit.** Two of three signatures are needed: validator 1 signs and is removed,
    validator 2 signs, and the deposit is settled with one validator's signature. -/
theorem settled_by_removed : ∃ s : Home (List Byte) Unit,
    Run serialHash noSigner .ercToErcWithFee (sampleHome ()) s ∧
      executedDeposits s.bridge.trail = [(33, 100, 77)] ∧ ¬ SignedByCurrent s := by
  have heval : (do
      let v ← BridgeValidators.blank.initializeWith 2 [1, 2, 3] 9
      let s ← exec serialHash noSigner .ercToErcWithFee obliging { sampleHome () with validators := v }
        (.executeAffirmation 1 33 100 77)
      let w ← s.validators.run (.removeValidator 9 1)
      let s ← exec serialHash noSigner .ercToErcWithFee obliging { s with validators := w }
        (.executeAffirmation 2 33 100 77)
      match s.bridge.trail with
      | .executed d _ v :: past => pure (executedDeposits s.bridge.trail, d, v.requiredSignatures,
          currentVotes v (signersOf d past))
      | [] | .signed _ _ _ :: _ | .fixed _ :: _ => none) = some ([(33, 100, 77)], (33, 100, 77), 2, 1) := by
    decide +kernel
  simp only [Option.bind_eq_bind, Option.bind_eq_some_iff] at heval
  obtain ⟨v, hv, s₁, h₁, w, hw, s₂, h₂, htrail⟩ := heval
  split at htrail
  · rename_i d word v' past hmarks
    simp only [Option.pure_def, Option.some.injEq, Prod.mk.injEq] at htrail
    obtain ⟨hexecuted, rfl, hrequired, hvotes⟩ := htrail
    have hrun : Run serialHash noSigner .ercToErcWithFee (sampleHome ()) s₂ :=
      (((Relation.ReflTransGen.single (.validators ⟨.initializeWith 2 [1, 2, 3] 9, hv⟩)).tail
        (step_of_exec trivial obliging_within h₁)).tail (.validators ⟨_, hw⟩)).tail
          (step_of_exec trivial obliging_within h₂)
    refine ⟨s₂, hrun, hmarks ▸ hexecuted, ?_⟩
    intro hcurrent
    have henough := hcurrent _ word v' past (by rw [hmarks])
    rw [hrequired, hvotes] at henough
    exact absurd henough (by decide)
  all_goals exact absurd htrail (by simp)

end Runs
end Home
end ThunderBridge
