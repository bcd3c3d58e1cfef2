import ThunderBridge.Contracts.HomeBridge.Threshold

/-!
# `Solvency.HonestValidators` — settled deposits are real

Validators outside the set `dishonest` affirm only deposits that were really made (`real`), and fewer are
dishonest than signatures are required. `Authentic` is what follows of the trail: honest signatures are on real
deposits, and so every settled deposit is real, since one of its distinct signers is honest.
-/

namespace ThunderBridge
namespace Home

variable {H W : Type}

/-- **The calls of the home bridge that are made**, with the deposits in `real` made on the foreign chain. -/
def Admits (dishonest : Finset Address) (real : List Deposit) (s : Home H W) : BridgeTx → Prop
  | .executeAffirmation sender recipient value transactionHash =>
      dishonest.card < s.validators.requiredSignatures.toNat ∧
        (sender ∉ dishonest → (recipient, value, transactionHash) ∈ real)
  | .fixAssetsAboveLimits _ _ _ => False
  | _ => True

/-- What the trail says about real deposits. -/
structure Authentic (dishonest : Finset Address) (real : List Deposit) (s : Home H W) : Prop where
  signed : ∀ a d v, Mark.signed a d v ∈ s.bridge.trail → a ∉ dishonest → d ∈ real
  executed : ∀ d ∈ executedDeposits s.bridge.trail, d ∈ real

section Authentic

variable {dishonest : Finset Address} {real : List Deposit} {s s' : Home H W}

theorem Authentic.congr (h : Authentic dishonest real s) (htrail : s'.bridge.trail = s.bridge.trail) :
    Authentic dishonest real s' := by
  constructor
  · rw [htrail]
    exact h.signed
  · rw [htrail]
    exact h.executed

theorem authentic_fresh (h : Fresh s) : Authentic dishonest real s := by
  constructor
  · intro a d v hm
    rw [h.trail] at hm
    exact absurd hm List.not_mem_nil
  · intro d hd
    rw [h.trail] at hd
    exact absurd hd List.not_mem_nil

/-- Real deposits stay real. -/
theorem Authentic.mono {real' : List Deposit} (h : Authentic dishonest real s) (hsub : real ⊆ real') :
    Authentic dishonest real' s :=
  ⟨fun a d v hm ha => hsub (h.signed a d v hm ha), fun d hd => hsub (h.executed d hd)⟩

variable {K : CollisionFree H}

/-- **A deposit with enough signatures is real.** -/
theorem Authentic.real_of_enough {P : Finset Deposit} (h : Authentic dishonest real s) {d : Deposit}
    (hthreshold : Threshold K P s)
    (henough : dishonest.card < signedCount (s.numAffirmationsSigned (depositHash K d))) : d ∈ real := by
  rw [hthreshold.count d] at henough
  obtain ⟨a, ha, hhonest⟩ := exists_notMem_of_card_lt (hthreshold.distinct d) henough
  obtain ⟨v, hm⟩ := mem_signersOf.mp ha
  exact h.signed a d v hm hhonest

theorem Authentic.complete (h : Authentic dishonest real s) {d : Deposit} (hd : d ∈ real) :
    Authentic dishonest real (s.complete K d) := by
  constructor
  · intro a d' v hm ha
    rcases List.mem_cons.mp hm with he | hold
    · cases he
    · exact h.signed a d' v hold ha
  · intro d' hd'
    rcases List.mem_cons.mp hd' with rfl | hold
    · exact hd
    · exact h.executed d' hold

variable [DecidableEq H]

theorem Authentic.affirm (h : Authentic dishonest real s) {sender : Address} {d : Deposit}
    (hreal : sender ∉ dishonest → d ∈ real) : Authentic dishonest real (s.affirm K sender d) := by
  constructor
  · intro a d' v hm ha
    rcases List.mem_cons.mp hm with he | hold
    · injection he with hsender hd _
      exact hd ▸ hreal (hsender ▸ ha)
    · exact h.signed a d' v hold ha
  · exact h.executed

/-! ## What a call keeps -/

/-- The signatures are kept as before, and with them what the trail says. -/
structure Honest (dishonest : Finset Address) (real : List Deposit) (K : CollisionFree H) (s s' : Home H W) :
    Prop where
  settled : Settled K s s'
  authentic : ∀ P, Threshold K P s → Authentic dishonest real s → Authentic dishonest real s'

theorem honest_affirmed {out : Home H W → Home H W → Prop} {call : Callee (Home H W)}
    (hkeeps : Keeps out (Honest dishonest real K)) (hcall : Within out call) {V : HomeVariant}
    {sender : Address} {d : Deposit} (hadmits : Admits dishonest real s (.executeAffirmation sender d.1 d.2.1 d.2.2))
    (hval : s.validators.isValidator sender = true) (h : Affirmed K V call s sender d s') :
    Honest dishonest real K s s' := by
  have hkeeps' : Keeps out (Settled K) := settled_keeps fun t t' ho => (hkeeps.calls t t' ho).settled
  refine ⟨settled_affirmed hkeeps' hcall hval h, ?_⟩
  intro P hP ha
  cases h with
  | recorded _ h =>
      obtain ⟨_, _, _, rfl⟩ := onFailedAffirmation_cases h
      exact ha.congr rfl
  | signed _ _ _ _ => exact ha.affirm hadmits.2
  | @settled s₂ _ hunsigned hopen henough h =>
      have hsigned : Threshold K P (s.affirm K sender d) := hP.affirm hval hunsigned hopen
      have haffirm : Authentic dishonest real (s.affirm K sender d) := ha.affirm hadmits.2
      have hword : (s.affirm K sender d).numAffirmationsSigned (depositHash K d) =
          s.numAffirmationsSigned (depositHash K d) + 1 := by
        rw [affirm_numAffirmationsSigned, if_pos rfl]
      obtain ⟨_, hnat, _⟩ := signedCount_succ hopen (hP.count_lt d)
      -- more signers than there are dishonest validators: one of them saw the deposit
      have hreal : d ∈ real := by
        apply haffirm.real_of_enough hsigned
        rw [hword, ← hnat]
        exact Nat.lt_of_lt_of_le hadmits.1 (BitVec.le_def.mp henough)
      have hpaid := onExecuteAffirmation_keeps hkeeps hcall h
      exact (hpaid.authentic (insert d P) (hP.pending hval hunsigned hopen) (haffirm.congr rfl)).complete hreal

theorem keptByCalls_honest {ecrecover : Ecrecover H} {V : HomeVariant} :
    KeptByCalls K ecrecover V (Admits (W := W) dishonest real) (Honest dishonest real K) where
  refl s := ⟨Settled.refl K s, fun _ _ ha => ha⟩
  trans _ _ _ h h' := ⟨h.settled.trans h'.settled,
    fun P hP ha => h'.authentic P (h.settled.threshold P hP) (h.authentic P hP ha)⟩
  same _ _ hq := ⟨Settled.of_same hq.sameDeposits, fun _ _ ha => ha.congr hq.trail⟩
  submitted _ _ _ _ _ h :=
    ⟨Settled.of_same (submitSignature_sameDeposits h),
      fun _ _ ha => ha.congr (submitSignature_sameDeposits h).trail⟩
  affirmed _ _ hkeeps hcall _ _ _ _ hadmits hval h := honest_affirmed hkeeps hcall hadmits hval h
  fixed _ _ _ _ _ hadmits _ := hadmits.elim

/-- **One step of the home chain.** -/
theorem step_authentic {ecrecover : Ecrecover H} {V : HomeVariant} (hP : Threshold K ∅ s)
    (ha : Authentic dishonest real s) (h : StepWhen K ecrecover V (Admits dishonest real) s s') :
    Authentic dishonest real s' := by
  cases h with
  | bridge n h => exact (call_keeps keptByCalls_honest n s s' h).authentic ∅ hP ha
  | validators _ => exact ha.congr rfl
  | tick now txHash _ => exact ha.congr rfl
  | elsewhere h => exact ha.congr (elsewhere_quiet h).trail

end Authentic

end Home
end ThunderBridge
