import ThunderBridge.Contracts.HomeBridge.Threshold

/-!
# `HomeBridge.Overdraw` — a deposit fixed by the owner and settled by the validators

A deposit has two ways out of the bridge. Affirmed within the limits it is settled by
`executeAffirmation`; affirmed above them it is recorded, and the proxy owner fixes it by
`fixAssetsAboveLimits`. Each way guards against its own repetition and neither looks at the other's
ledger, so a deposit that one validator finds above the limits and others within them takes both
(`recorded_then_settled_then_fixed`).

`Unsettled` is the check the two functions leave out, as a condition on the state before a call. With it
the two ways exclude one another in every run (`overdraw_exclusivity`).
-/

namespace ThunderBridge
namespace Home

variable {H W : Type}

/-- The deposit recorded as above the limits for a transaction hash. -/
def recordedDeposit (s : Home H W) (t : Bytes32) : Deposit :=
  (s.bridge.overdraw.txOutOfLimitRecipient t, s.bridge.overdraw.txOutOfLimitValue t, t)

/-- The deposit, if the mark is a fix. -/
def fixedBy : Mark → Option Deposit
  | .fixed d => some d
  | _ => none

/-- The deposits the owner fixed. -/
def fixedDeposits (trail : List Mark) : List Deposit := trail.filterMap fixedBy

theorem mem_fixedDeposits {d : Deposit} {trail : List Mark} :
    d ∈ fixedDeposits trail ↔ Mark.fixed d ∈ trail := by
  unfold fixedDeposits
  rw [List.mem_filterMap]
  constructor
  · rintro ⟨m, hm, he⟩
    cases m with
    | signed a d' v => exact absurd he (by simp [fixedBy])
    | executed d' w v => exact absurd he (by simp [fixedBy])
    | fixed d' =>
        obtain rfl := Option.some.inj he
        exact hm
  · intro hm
    exact ⟨_, hm, rfl⟩

/-- Both ways were taken for the deposit. -/
def SettledTwice (s : Home H W) (d : Deposit) : Prop :=
  d ∈ fixedDeposits s.bridge.trail ∧ d ∈ executedDeposits s.bridge.trail

instance (s : Home H W) (d : Deposit) : Decidable (SettledTwice s d) :=
  inferInstanceAs (Decidable (d ∈ fixedDeposits s.bridge.trail ∧ d ∈ executedDeposits s.bridge.trail))

/-- **The missing check.** `fixAssetsAboveLimits` is called only for an entry whose affirmations are not
    processed, and an affirmation that is to settle its deposit (within the limits, threshold reached)
    only for a deposit whose entry is not fixed. -/
def Unsettled (K : CollisionFree H) (s : Home H W) : BridgeTx → Prop
  | .fixAssetsAboveLimits _ t _ =>
      isAlreadyProcessed (s.numAffirmationsSigned (depositHash K (s.recordedDeposit t))) = false
  | .executeAffirmation _ recipient value t =>
      s.bridge.basic.withinExecutionLimit s.getCurrentDay value = some true →
      s.validators.requiredSignatures ≤
        s.numAffirmationsSigned (hashMsg K recipient value t) + 1 →
      s.bridge.overdraw.fixedAssets t = true → s.recordedDeposit t ≠ (recipient, value, t)
  | _ => True

/-! ## The invariant -/

/-- A fixed deposit stays recorded under its hash and is not processed. -/
structure Exclusive (K : CollisionFree H) (s : Home H W) : Prop where
  recorded : ∀ d, Mark.fixed d ∈ s.bridge.trail →
    s.bridge.overdraw.fixedAssets d.2.2 = true ∧ s.recordedDeposit d.2.2 = d ∧ d.1 ≠ 0
  unprocessed : ∀ d, Mark.fixed d ∈ s.bridge.trail →
    isAlreadyProcessed (s.numAffirmationsSigned (depositHash K d)) = false

theorem exclusive_fresh {K : CollisionFree H} {s : Home H W} (h : Fresh s) : Exclusive K s := by
  refine ⟨?_, ?_⟩
  · intro d hm
    rw [h.trail] at hm; exact absurd hm List.not_mem_nil
  · intro d hm
    rw [h.trail] at hm; exact absurd hm List.not_mem_nil

/-- What a call keeps: the ledger of affirmations with any pending deposits, and exclusivity on top. -/
structure Excluding (K : CollisionFree H) (s s' : Home H W) : Prop where
  settled : Settled K s s'
  exclusive : ∀ P, Threshold K P s → Exclusive K s → Exclusive K s'

section Calls

variable {K : CollisionFree H} {V : HomeVariant} {s s' : Home H W}

theorem Exclusive.congr (h : Exclusive K s) (hover : s'.bridge.overdraw = s.bridge.overdraw)
    (hnum : s'.bridge.ledger.numAffirmationsSigned = s.bridge.ledger.numAffirmationsSigned)
    (hfix : ∀ d, Mark.fixed d ∈ s'.bridge.trail → Mark.fixed d ∈ s.bridge.trail) : Exclusive K s' := by
  refine ⟨?_, ?_⟩
  · intro d hm
    unfold recordedDeposit
    rw [hover]
    exact h.recorded d (hfix d hm)
  · intro d hm
    show isAlreadyProcessed (s'.bridge.ledger.numAffirmationsSigned _) = false
    rw [hnum]
    exact h.unprocessed d (hfix d hm)

theorem Excluding.trans {s₁ s₂ s₃ : Home H W} (h : Excluding K s₁ s₂) (h' : Excluding K s₂ s₃) :
    Excluding K s₁ s₃ :=
  ⟨h.settled.trans h'.settled, fun P hP he =>
    h'.exclusive P (h.settled.threshold P hP) (h.exclusive P hP he)⟩

theorem Excluding.of_same (h : SameDeposits s s') : Excluding K s s' :=
  ⟨Settled.of_same h, fun _ _ he =>
    he.congr h.overdraw h.numAffirmationsSigned fun _ hm => h.trail ▸ hm⟩

/-- An entry already fixed is not overwritten: it has a recipient. -/
theorem Exclusive.onFailedAffirmation (h : Exclusive K s) {recipient : Address} {value : UInt256}
    {t : Bytes32} (hs : s.onFailedAffirmation recipient value t = some s') : Exclusive K s' := by
  obtain ⟨hfree, _, _, rfl⟩ := onFailedAffirmation_cases hs
  refine ⟨?_, h.unprocessed⟩
  intro d hm
  obtain ⟨hfixed, hrec, hrcpt⟩ := h.recorded d hm
  have hne : d.2.2 ≠ t := by
    rintro rfl
    exact hrcpt ((congrArg Prod.fst hrec).symm.trans hfree)
  refine ⟨hfixed, ?_, hrcpt⟩
  rw [← hrec]
  unfold recordedDeposit
  simp only [emit_overdraw, setOverdraw_overdraw, Function.update_of_ne hne]

/-- Fixing an entry whose affirmations are not processed. -/
theorem Exclusive.fixAssetsAboveLimits (h : Exclusive K s) {sender : Address} {t : Bytes32}
    {unlockOnForeign : Bool}
    (hopen : isAlreadyProcessed (s.numAffirmationsSigned (depositHash K (s.recordedDeposit t))) = false)
    (hs : s.fixAssetsAboveLimits sender t unlockOnForeign = some s') : Exclusive K s' := by
  obtain ⟨hrcpt, rest, _, rfl⟩ := fixAssetsAboveLimits_cases hs
  refine ⟨?_, ?_⟩
  · intro d hm
    simp only [List.mem_cons, Mark.fixed.injEq] at hm
    rcases hm with rfl | hold
    · exact ⟨Function.update_self .., rfl, hrcpt⟩
    · obtain ⟨hfixed, hrec, hrcpt'⟩ := h.recorded d hold
      refine ⟨?_, hrec, hrcpt'⟩
      show Function.update s.bridge.overdraw.fixedAssets t true d.2.2 = true
      rw [Function.update_apply, hfixed, ite_self]
  · intro d hm
    simp only [List.mem_cons, Mark.fixed.injEq] at hm
    rcases hm with rfl | hold
    · exact hopen
    · exact h.unprocessed d hold

variable [DecidableEq H]

theorem Exclusive.affirm {P : Finset Deposit} (h : Exclusive K s) (hP : Threshold K P s) (sender : Address)
    (d : Deposit) (hopen : isAlreadyProcessed (s.numAffirmationsSigned (depositHash K d)) = false) :
    Exclusive K (s.affirm K sender d) := by
  have hold : ∀ d', Mark.fixed d' ∈ (s.affirm K sender d).bridge.trail → Mark.fixed d' ∈ s.bridge.trail := by
    intro d' hm
    rcases List.mem_cons.mp hm with he | hm
    · exact absurd he (by simp)
    · exact hm
  refine ⟨fun d' hm => h.recorded d' (hold d' hm), ?_⟩
  intro d' hm
  rw [affirm_numAffirmationsSigned]
  by_cases hd : d' = d
  · rw [if_pos hd]
    exact (signedCount_succ hopen (hP.count_lt _)).1
  · rw [if_neg hd]
    exact h.unprocessed d' (hold d' hm)

theorem Exclusive.markProcessed (h : Exclusive K s) {d : Deposit}
    (hd : Mark.fixed d ∉ s.bridge.trail) : Exclusive K (s.markProcessed K d) := by
  refine ⟨h.recorded, ?_⟩
  intro d' hm
  have hne : d' ≠ d := by
    rintro rfl
    exact hd hm
  rw [markProcessed_numAffirmationsSigned, if_neg hne]
  exact h.unprocessed d' hm

theorem excluding_affirmed {out : Home H W → Home H W → Prop} {call : Callee (Home H W)}
    (hkeeps : Keeps out (Excluding K)) (hcall : Within out call) {sender : Address} {d : Deposit}
    (hallowed : Unsettled K s (.executeAffirmation sender d.1 d.2.1 d.2.2))
    (hval : s.validators.isValidator sender = true) (h : Affirmed K V call s sender d s') :
    Excluding K s s' := by
  have hkeeps' : Keeps out (Settled K) := settled_keeps fun t t' ho => (hkeeps.calls t t' ho).settled
  refine ⟨settled_affirmed hkeeps' hcall hval h, ?_⟩
  intro P hP he
  cases h with
  | recorded _ h => exact he.onFailedAffirmation h
  | signed _ _ hopen _ => exact he.affirm hP sender d hopen
  | @settled s₂ hlimit hunsigned hopen henough h =>
      -- the check the source leaves out: a deposit fixed before is not settled now
      have hnotfixed : Mark.fixed d ∉ s.bridge.trail := by
        intro hm
        obtain ⟨hfixed, hrec, _⟩ := he.recorded d hm
        exact hallowed hlimit henough hfixed hrec
      have hpending : Threshold K (insert d P) ((s.affirm K sender d).markProcessed K d) :=
        hP.pending hval hunsigned hopen
      have hmarked : Exclusive K ((s.affirm K sender d).markProcessed K d) := by
        apply (he.affirm hP sender d hopen).markProcessed
        intro hm
        rcases List.mem_cons.mp hm with heq | hm
        · exact absurd heq (by simp)
        · exact hnotfixed hm
      have hcalls : Excluding K ((s.affirm K sender d).markProcessed K d) s₂ :=
        onExecuteAffirmation_keeps hkeeps hcall h
      refine (hcalls.exclusive _ hpending hmarked).congr rfl rfl ?_
      intro d' hm
      rcases List.mem_cons.mp hm with heq | hm
      · exact absurd heq (by simp)
      · exact hm

/-- **Every checked call**, however deep its callbacks. -/
theorem keptByCalls_excluding : KeptByCalls K ecrecover V (Unsettled K) (Excluding (W := W) K) where
  refl s := ⟨Settled.refl K s, fun _ _ he => he⟩
  trans _ _ _ := Excluding.trans
  same _ _ hq := Excluding.of_same hq.sameDeposits
  submitted _ _ _ _ _ h := Excluding.of_same (submitSignature_sameDeposits h)
  affirmed _ _ hkeeps hcall _ _ _ _ hallowed hval h := excluding_affirmed hkeeps hcall hallowed hval h
  fixed _ _ _ _ _ hallowed h :=
    ⟨settled_fixed h, fun _ _ he => he.fixAssetsAboveLimits hallowed h⟩

end Calls

/-! ## Runs -/

section Runs

variable [DecidableEq H] {K : CollisionFree H} {ecrecover : Ecrecover H} {V : HomeVariant}

theorem step_exclusive {s s' : Home H W} (hP : Threshold K ∅ s) (he : Exclusive K s)
    (h : StepWhen K ecrecover V (Unsettled K) s s') : Exclusive K s' := by
  cases h with
  | bridge n h => exact (call_keeps keptByCalls_excluding n s s' h).exclusive ∅ hP he
  | validators _ => exact he.congr rfl rfl fun _ hm => hm
  | tick now txHash _ => exact he.congr rfl rfl fun _ hm => hm
  | elsewhere h => exact (Excluding.of_same (elsewhere_quiet h).sameDeposits).exclusive ∅ hP he

theorem run_exclusive {s₀ s : Home H W} (hfresh : Fresh s₀)
    (h : RunWhen K ecrecover V (Unsettled K) s₀ s) : Exclusive K s := by
  have hboth : Threshold K ∅ s ∧ Exclusive K s :=
    Calls.steps_invariant (P := fun s => Threshold K ∅ s ∧ Exclusive K s)
      (fun _ _ hs hstep => ⟨(step_threshold hstep).1 hs.1, step_exclusive hs.1 hs.2 hstep⟩) h
      ⟨threshold_fresh hfresh, exclusive_fresh hfresh⟩
  exact hboth.2

/-- **Overdraw exclusivity.** In every run whose calls, nested ones included, pass the missing check, no
    deposit is both fixed by the owner and settled by the validators. -/
theorem overdraw_exclusivity {s₀ s : Home H W} (hfresh : Fresh s₀)
    (hrun : RunWhen K ecrecover V (Unsettled K) s₀ s) (d : Deposit) : ¬ SettledTwice s d := by
  rintro ⟨hfixed, hexe⟩
  have hopen := (run_exclusive hfresh hrun).unprocessed d (mem_fixedDeposits.mp hfixed)
  have hprocessed := (run_threshold hfresh hrun).once.mem_iff.mp hexe
  exact absurd (hprocessed.symm.trans hopen) (by decide)

/-- A deposit of 600 is recorded as above the limit of 500, and the owner fixes it. -/
theorem overdraw_exclusivity_fixed :
    ∃ s : Home (List Byte) Unit,
      RunWhen serialHash noSigner .ercToErcWithFee (Unsettled serialHash) (sampleHome ()) s ∧
      (33, 600, 77) ∈ fixedDeposits s.bridge.trail ∧ ¬ SettledTwice s (33, 600, 77) := by
  have heval : (do
      let v ← BridgeValidators.blank.initializeWith 2 [1, 2] 9
      let s₁ ← exec serialHash noSigner .ercToErcWithFee obliging { sampleHome () with validators := v }
        (.executeAffirmation 1 33 600 77)
      require (isAlreadyProcessed (s₁.numAffirmationsSigned
        (depositHash serialHash (s₁.recordedDeposit 77))) = false)
      let s₂ ← exec serialHash noSigner .ercToErcWithFee obliging s₁ (.fixAssetsAboveLimits 6 77 true)
      pure (fixedDeposits s₂.bridge.trail)) = some [(33, 600, 77)] := by
    decide +kernel
  simp only [Option.bind_eq_bind, Option.bind_eq_some_iff, Option.pure_def, Option.some.injEq,
    require_eq_some, exists_const] at heval
  obtain ⟨v, hv, s₁, h₁, hopen, s₂, h₂, he⟩ := heval
  have hfix : Unsettled serialHash s₁ (.fixAssetsAboveLimits 6 77 true) := hopen
  have hrun : RunWhen serialHash noSigner .ercToErcWithFee (Unsettled serialHash) (sampleHome ()) s₂ :=
    ((Relation.ReflTransGen.single (.validators ⟨.initializeWith 2 [1, 2] 9, hv⟩)).tail
      (step_of_exec (fun _ _ hfixed => absurd hfixed Bool.false_ne_true) obliging_within h₁)).tail
        (step_of_exec hfix obliging_within h₂)
  refine ⟨s₂, hrun, ?_, overdraw_exclusivity (deploy_fresh ..) hrun (33, 600, 77)⟩
  rw [he]
  exact List.mem_cons_self

/-- **Settled twice.** One validator finds the deposit of 600 above the limit of 500 and it is recorded;
    the owner raises the limit; both validators affirm the deposit and it is settled; then the owner fixes
    the recorded entry. -/
theorem recorded_then_settled_then_fixed :
    ¬ ∀ (s₀ s : Home (List Byte) Unit) (d : Deposit), Fresh s₀ →
      Run serialHash noSigner .ercToErcWithFee s₀ s → ¬ SettledTwice s d := by
  have heval : (do
      let v ← BridgeValidators.blank.initializeWith 2 [1, 2] 9
      let s₁ ← exec serialHash noSigner .ercToErcWithFee obliging { sampleHome () with validators := v }
        (.executeAffirmation 1 33 600 77)
      let s₂ ← exec serialHash noSigner .ercToErcWithFee obliging s₁ 
        (.setting 9 (.basic (.setExecutionMaxPerTx 700)))
      let s₃ ← exec serialHash noSigner .ercToErcWithFee obliging s₂ (.executeAffirmation 1 33 600 77)
      let s₄ ← exec serialHash noSigner .ercToErcWithFee obliging s₃ (.executeAffirmation 2 33 600 77)
      let s₅ ← exec serialHash noSigner .ercToErcWithFee obliging s₄ (.fixAssetsAboveLimits 6 77 true)
      require (SettledTwice s₅ (33, 600, 77))) = some () := by
    decide +kernel
  simp only [Option.bind_eq_bind, Option.bind_eq_some_iff, require_eq_some] at heval
  obtain ⟨v, hv, s₁, h₁, s₂, h₂, s₃, h₃, s₄, h₄, s₅, h₅, htwice⟩ := heval
  intro hclaim
  have hstep : ∀ {s s' : Home (List Byte) Unit} {tx : BridgeTx},
      exec serialHash noSigner .ercToErcWithFee obliging s tx = some s' →
      StepWhen serialHash noSigner .ercToErcWithFee (fun _ _ => True) s s' :=
    fun h => step_of_exec trivial obliging_within h
  have hrun : Run serialHash noSigner .ercToErcWithFee (sampleHome ()) s₅ :=
    (((((Relation.ReflTransGen.single (.validators ⟨.initializeWith 2 [1, 2] 9, hv⟩)).tail
      (hstep h₁)).tail (hstep h₂)).tail (hstep h₃)).tail (hstep h₄)).tail (hstep h₅)
  exact hclaim _ _ _ (deploy_fresh ..) hrun htwice

end Runs
end Home
end ThunderBridge
