import ThunderBridge.Contracts.HomeBridge.Polling

/-!
# `HomeBridge.Liveness` — when a deposit or a message gets stuck

A signature is counted and compared with the threshold in one call, and nothing else looks at the threshold.
So an item that all current validators have signed must be processed already, or it never will be: nobody
is left who may sign it. `Unstuck` says that there is no such item.

In the poll that the chain is, this is `Poll.Live`, and the rule of the poll carries over: votes, new
validators and new thresholds keep the chain unstuck, and a removal does unless the removed validator is the
one whose signature an unprocessed item still waits for (`CarefulRemoval`). `unstuck_iff_careful` is the
statement about whole runs.
-/

namespace ThunderBridge
namespace Home

variable {H W : Type}

section Steps

variable {K : CollisionFree H} {s s' : Home H W}

/-! ## One step -/

/-- Every deposit and every message that all current validators have signed is processed. -/
structure Unstuck (K : CollisionFree H) (s : Home H W) : Prop where
  affirmation : ∀ d, (∀ a, s.validators.isValidator a = true →
    s.affirmationsSigned (hashSender K a (depositHash K d)) = true) →
      isAlreadyProcessed (s.numAffirmationsSigned (depositHash K d)) = true
  message : ∀ h, (∀ a, s.validators.isValidator a = true → s.messagesSigned (hashSender K a h) = true) →
    isAlreadyProcessed (s.numMessagesSigned h) = true

/-- If the step removes a validator, no unprocessed deposit or message is signed by all the others. -/
def CarefulRemoval (K : CollisionFree H) (s s' : Home H W) : Prop :=
  ∀ v, s.validators.isValidator v = true → s'.validators.isValidator v = false →
    (∀ d, (∀ a, s.validators.isValidator a = true → a ≠ v →
      s.affirmationsSigned (hashSender K a (depositHash K d)) = true) →
        isAlreadyProcessed (s.numAffirmationsSigned (depositHash K d)) = true) ∧
    ∀ h, (∀ a, s.validators.isValidator a = true → a ≠ v → s.messagesSigned (hashSender K a h) = true) →
      isAlreadyProcessed (s.numMessagesSigned h) = true

/-- Whatever is not processed waits for a current validator who has not signed it. -/
structure Waiting (K : CollisionFree H) (s : Home H W) : Prop where
  affirmation : ∀ d, isAlreadyProcessed (s.numAffirmationsSigned (depositHash K d)) = false →
    ∃ a, s.validators.isValidator a = true ∧ s.affirmationsSigned (hashSender K a (depositHash K d)) = false
  message : ∀ h, isAlreadyProcessed (s.numMessagesSigned h) = false →
    ∃ a, s.validators.isValidator a = true ∧ s.messagesSigned (hashSender K a h) = false

theorem live_iff_unstuck (hs : s.validators.Represented) : Poll.Live (pollOf K s) ↔ Unstuck K s := by
  constructor
  · intro h
    exact ⟨fun d => h.decided (.inl d), fun x => h.decided (.inr x)⟩
  · intro h
    refine ⟨required_le_ncard hs, ?_⟩
    rintro (d | x) hi
    · exact h.affirmation d hi
    · exact h.message x hi

theorem careful_iff : Poll.Careful (pollOf K s) (pollOf K s') ↔ CarefulRemoval K s s' := by
  constructor
  · intro h v hv hgone
    have hgone' : v ∉ (pollOf K s').members := Bool.eq_false_iff.mp hgone
    exact ⟨fun d => h v hv hgone' (.inl d), fun x => h v hv hgone' (.inr x)⟩
  · intro h v hv hgone i hothers
    obtain ⟨haffirmation, hmessage⟩ := h v hv (Bool.eq_false_iff.mpr hgone)
    cases i with
    | inl d => exact haffirmation d hothers
    | inr x => exact hmessage x hothers

/-- A current validator may sign whatever an unstuck state has not processed. -/
theorem Unstuck.waiting (h : Unstuck K s) : Waiting K s := by
  refine ⟨?_, ?_⟩
  · intro d hd
    by_contra hnone
    push Not at hnone
    have hall := h.affirmation d fun a ha => (Bool.not_eq_false _).mp (hnone a ha)
    exact Bool.false_ne_true (hd.symm.trans hall)
  · intro x hx
    by_contra hnone
    push Not at hnone
    have hall := h.message x fun a ha => (Bool.not_eq_false _).mp (hnone a ha)
    exact Bool.false_ne_true (hx.symm.trans hall)

variable [DecidableEq H] {ecrecover : Ecrecover H} {V : HomeVariant} {allowed : Home H W → BridgeTx → Prop}

/-- **One step leaves nothing stuck exactly when its removal is careful.** -/
theorem unstuck_step_iff (h : StepWhen K ecrecover V allowed s s') (hs : Polling K s) (hlive : Unstuck K s) :
    Unstuck K s' ↔ CarefulRemoval K s s' := by
  obtain ⟨hs', hstep⟩ := step_polling h hs
  rw [← live_iff_unstuck hs'.represented, ← careful_iff]
  exact Poll.live_step_iff ((live_iff_unstuck hs.represented).mpr hlive) hstep

end Steps

/-! ## Runs -/

section Runs

variable [DecidableEq H] {K : CollisionFree H} {ecrecover : Ecrecover H} {V : HomeVariant}
  {allowed : Home H W → BridgeTx → Prop}

/-- Along a run, one state after the other. -/
theorem unstuck_chain_iff : ∀ {states : List (Home H W)} {s : Home H W}, Polling K s → Unstuck K s →
    List.IsChain (StepWhen K ecrecover V allowed) (s :: states) →
      ((∀ t ∈ states, Unstuck K t) ↔ List.IsChain (CarefulRemoval K) (s :: states)) := by
  intro states
  induction states with
  | nil =>
      intro s _ _ _
      simp
  | cons t states ih =>
      intro s hs hunstuck hrun
      obtain ⟨hstep, hrest⟩ := List.isChain_cons_cons.mp hrun
      have ht := (step_polling hstep hs).1
      rw [List.forall_mem_cons, List.isChain_cons_cons, unstuck_step_iff hstep hs hunstuck]
      constructor
      · rintro ⟨hcareful, hall⟩
        exact ⟨hcareful, (ih ht ((unstuck_step_iff hstep hs hunstuck).mpr hcareful) hrest).mp hall⟩
      · rintro ⟨hcareful, hall⟩
        exact ⟨hcareful, (ih ht ((unstuck_step_iff hstep hs hunstuck).mpr hcareful) hrest).mpr hall⟩

/-- A run of any length without careless removals. -/
theorem run_unstuck {s s' : Home H W} (hs : Polling K s) (hunstuck : Unstuck K s)
    (hrun : Relation.ReflTransGen (fun t t' => StepWhen K ecrecover V allowed t t' ∧ CarefulRemoval K t t') s s') :
    Polling K s' ∧ Unstuck K s' := by
  refine Calls.steps_invariant (P := fun t => Polling K t ∧ Unstuck K t) ?_ hrun ⟨hs, hunstuck⟩
  rintro t t' ⟨ht, hlive⟩ ⟨hstep, hcareful⟩
  exact ⟨(step_polling hstep ht).1, (unstuck_step_iff hstep ht hlive).mpr hcareful⟩

omit [DecidableEq H] in
theorem unstuck_fresh {s : Home H W} (hfresh : Fresh s) {n : UInt256} {vs : List Address} {owner : Address}
    {v : BridgeValidators} (hinit : BridgeValidators.blank.initializeWith n vs owner = some v) :
    Unstuck K { s with validators := v } :=
  (live_iff_unstuck (BridgeValidators.initializeWith_represented hinit)).mp (polling_fresh hfresh hinit).2

/-- **Stuck-freedom under validator management.** From the initialisation of the validators on, in every
    run: every deposit and every message that all current validators have signed is processed, and an
    unprocessed one waits for a current validator, in all states of the run exactly when no step removes
    a validator whose signature is the last one missing from an unprocessed deposit or message. -/
theorem unstuck_iff_careful {s₀ : Home H W} (hfresh : Fresh s₀) {n : UInt256} {vs : List Address}
    {owner : Address} {v : BridgeValidators}
    (hinit : BridgeValidators.blank.initializeWith n vs owner = some v) {states : List (Home H W)}
    (hrun : List.IsChain (StepWhen K ecrecover V fun _ _ => True) ({ s₀ with validators := v } :: states)) :
    (∀ s ∈ states, Unstuck K s ∧ Waiting K s) ↔
      List.IsChain (CarefulRemoval K) ({ s₀ with validators := v } :: states) := by
  rw [← unstuck_chain_iff (polling_fresh hfresh hinit).1 (unstuck_fresh hfresh hinit) hrun]
  constructor
  · intro h s hs
    exact (h s hs).1
  · intro h s hs
    exact ⟨h s hs, (h s hs).waiting⟩

/-- Two validators, both needed, and both sign. -/
theorem unstuck_iff_careful_two :
    ∃ (v : BridgeValidators) (states : List (Home (List Byte) Unit)), states.length = 2 ∧
      ((∀ s ∈ states, Unstuck serialHash s ∧ Waiting serialHash s) ↔
        List.IsChain (CarefulRemoval serialHash) ({ sampleHome () with validators := v } :: states)) := by
  have heval : (do
      let v ← BridgeValidators.blank.initializeWith 2 [1, 2] 9
      let s ← exec serialHash noSigner .ercToErcWithFee obliging { sampleHome () with validators := v }
        (.executeAffirmation 1 33 100 77)
      let s ← exec serialHash noSigner .ercToErcWithFee obliging s (.executeAffirmation 2 33 100 77)
      pure (isAlreadyProcessed (s.numAffirmationsSigned (depositHash serialHash (33, 100, 77))))) =
        some true := by
    decide +kernel
  simp only [Option.bind_eq_bind, Option.bind_eq_some_iff, Option.pure_def, Option.some.injEq] at heval
  obtain ⟨v, hv, s₁, h₁, s₂, h₂, _⟩ := heval
  have hrun : List.IsChain (StepWhen serialHash noSigner .ercToErcWithFee fun _ _ => True)
      [{ sampleHome () with validators := v }, s₁, s₂] := by
    refine List.isChain_cons_cons.mpr ⟨step_of_exec trivial obliging_within h₁, ?_⟩
    exact List.isChain_cons_cons.mpr ⟨step_of_exec trivial obliging_within h₂, .singleton _⟩
  exact ⟨v, [s₁, s₂], rfl, unstuck_iff_careful (deploy_fresh ..) hv hrun⟩

/-- Of two validators, both needed, the first signs; then one signature is enough, and the second is
    removed. The deposit is signed by the only validator left, and it is not processed. -/
theorem stuck_after_removal :
    ∃ (v : BridgeValidators) (s : Home (List Byte) Unit),
      BridgeValidators.blank.initializeWith 2 [1, 2] 9 = some v ∧
      Run serialHash noSigner .ercToErcWithFee { sampleHome () with validators := v } s ∧
      (∀ a, s.validators.isValidator a = true →
        s.affirmationsSigned (hashSender serialHash a (depositHash serialHash (33, 100, 77))) = true) ∧
      isAlreadyProcessed (s.numAffirmationsSigned (depositHash serialHash (33, 100, 77))) = false := by
  have heval : (do
      let v ← BridgeValidators.blank.initializeWith 2 [1, 2] 9
      let s ← exec serialHash noSigner .ercToErcWithFee obliging { sampleHome () with validators := v }
        (.executeAffirmation 1 33 100 77)
      let w ← s.validators.run (.setRequiredSignatures 9 1)
      let w ← w.run (.removeValidator 9 2)
      pure (w.validatorsArray,
        s.affirmationsSigned (hashSender serialHash 1 (depositHash serialHash (33, 100, 77))),
        isAlreadyProcessed (s.numAffirmationsSigned (depositHash serialHash (33, 100, 77))))) =
          some ([1], true, false) := by
    decide +kernel
  simp only [Option.bind_eq_bind, Option.bind_eq_some_iff, Option.pure_def, Option.some.injEq,
    Prod.mk.injEq] at heval
  obtain ⟨v, hv, s, hs, w₁, hw₁, w₂, hw₂, harray, hsigned, hopen⟩ := heval
  have hrun : Run serialHash noSigner .ercToErcWithFee { sampleHome () with validators := v }
      { s with validators := w₂ } :=
    ((Relation.ReflTransGen.single (step_of_exec trivial obliging_within hs)).tail
      (.validators ⟨_, hw₁⟩)).tail (.validators (s := { s with validators := w₁ }) ⟨_, hw₂⟩)
  refine ⟨v, _, hv, hrun, ?_, hopen⟩
  intro a ha
  -- the validators are those of the list, and that is `[1]`
  have hrep : w₂.Represented := by
    have hkept := exec_validators obliging_within hs
    rw [hkept] at hw₁
    apply BridgeValidators.run_represented hw₂
    exact BridgeValidators.run_represented hw₁ (BridgeValidators.initializeWith_represented hv)
  obtain ⟨vs, hvs⟩ := hrep.listed
  rw [BridgeValidators.isValidator_eq] at ha
  have hmem : a ∈ vs := (hvs.flags a).mp ha
  rw [← hvs.validatorsArray_eq, harray, List.mem_singleton] at hmem
  rw [hmem]
  exact hsigned

end Runs
end Home
end ThunderBridge
