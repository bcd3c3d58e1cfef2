import ThunderBridge.Contracts.HomeBridge.Collection
import ThunderBridge.Contracts.ValidatorSet
import ThunderBridge.Lib.Poll
import Mathlib.Data.FinEnum

/-!
# `HomeBridge.Polling` — the home chain is a poll

Affirmations and withdrawal messages are the two kinds of item of one `Poll`: the validators are its members,
a signature is a vote, the processed bit says that the item is decided. `pollOf` reads it off the chain.

A call of the bridge, however deep its callbacks, is a sequence of votes (`Polled`): the signature that
settles a deposit raises the bit before the first callee runs, so its vote is complete by then. A transaction
to the validator contract is a change of members or threshold. What the poll rests on is that each counter
counts the flags and that the count of validators is their number (`Polling`).
-/

namespace ThunderBridge
namespace Home

variable {H W : Type}

/-- Deposits and messages as items of a poll among the validators. -/
def pollOf (K : CollisionFree H) (s : Home H W) : Poll Address (Deposit ⊕ H) where
  members := {a | s.validators.isValidator a = true}
  required := s.validators.requiredSignatures.toNat
  voters
    | .inl d => {a | s.affirmationsSigned (hashSender K a (depositHash K d)) = true}
    | .inr h => {a | s.messagesSigned (hashSender K a h) = true}
  decided
    | .inl d => isAlreadyProcessed (s.numAffirmationsSigned (depositHash K d)) = true
    | .inr h => isAlreadyProcessed (s.numMessagesSigned h) = true

/-- The counter of every message counts its flags. -/
def MessagesCounted (K : CollisionFree H) (s : Home H W) : Prop :=
  ∀ h, signedCount (s.numMessagesSigned h) = ((pollOf K s).voters (.inr h)).ncard

section Votes

variable {K : CollisionFree H} {P : Finset Deposit} {s s' : Home H W} {sender : Address} {d : Deposit}

theorem pollOf_congr (hv : s'.validators = s.validators) (hl : s'.bridge.ledger = s.bridge.ledger) :
    pollOf K s' = pollOf K s := by
  simp only [pollOf, affirmationsSigned, numAffirmationsSigned, messagesSigned, numMessagesSigned, hv, hl]

theorem messagesCounted_congr (hnum : s'.bridge.ledger.numMessagesSigned = s.bridge.ledger.numMessagesSigned)
    (hflag : s'.bridge.ledger.messagesSigned = s.bridge.ledger.messagesSigned) (hM : MessagesCounted K s) :
    MessagesCounted K s' := by
  intro h
  have hM' := hM h
  simp only [pollOf, messagesSigned, numMessagesSigned] at hM' ⊢
  rw [hnum, hflag]
  exact hM'

/-- There are only so many addresses. -/
theorem ncard_addresses_le (as : Set Address) : as.ncard ≤ 2 ^ 160 := by
  have hfin : as.Finite := Set.toFinite as
  rw [Set.ncard_eq_toFinset_card as hfin, ← Finset.length_toList]
  exact length_le_of_nodup (Finset.nodup_toList _)

/-- The threshold is compared with the number of signers, the new one among them. -/
theorem reached_iff {v n : UInt256} (hopen : isAlreadyProcessed v = false) (hlt : signedCount v + 1 < 2 ^ 255) :
    n ≤ v + 1 ↔ n.toNat ≤ signedCount v + 1 := by
  obtain ⟨_, hnat, hcount⟩ := signedCount_succ hopen hlt
  rw [BitVec.le_def, hnat, hcount]

theorem Threshold.ncard_voters (hP : Threshold K P s) (d : Deposit) :
    ((pollOf K s).voters (.inl d)).ncard = signedCount (s.numAffirmationsSigned (depositHash K d)) := by
  rw [hP.count d]
  exact hP.ncard_signers d

/-- A new signature on a deposit is a vote, in any state that has the flag up and the bit up if enough
    have signed. -/
theorem vote_deposit (hP : Threshold K P s) (hval : s.validators.isValidator sender = true)
    (hunsigned : s.affirmationsSigned (hashSender K sender (depositHash K d)) = false)
    (hopen : isAlreadyProcessed (s.numAffirmationsSigned (depositHash K d)) = false)
    (hv : s'.validators = s.validators)
    (hflag : ∀ a d', s'.affirmationsSigned (hashSender K a (depositHash K d')) =
      if a = sender ∧ d' = d then true else s.affirmationsSigned (hashSender K a (depositHash K d')))
    (hother : ∀ d', d' ≠ d → s'.numAffirmationsSigned (depositHash K d') =
      s.numAffirmationsSigned (depositHash K d'))
    (hdone : isAlreadyProcessed (s'.numAffirmationsSigned (depositHash K d)) = true ↔
      s.validators.requiredSignatures ≤ s.numAffirmationsSigned (depositHash K d) + 1)
    (hmsg : s'.bridge.ledger.messagesSigned = s.bridge.ledger.messagesSigned)
    (hnum : s'.bridge.ledger.numMessagesSigned = s.bridge.ledger.numMessagesSigned) :
    Poll.Vote (pollOf K s) (pollOf K s') sender (.inl d) := by
  have hfresh : sender ∉ (pollOf K s).voters (.inl d) := by
    show ¬ s.affirmationsSigned _ = true
    rw [hunsigned]
    exact Bool.false_ne_true
  have hself : (pollOf K s').voters (.inl d) = insert sender ((pollOf K s).voters (.inl d)) := by
    ext a
    show s'.affirmationsSigned _ = true ↔ a = sender ∨ s.affirmationsSigned _ = true
    rw [hflag]
    by_cases ha : a = sender <;> simp [ha]
  refine ⟨hval, hfresh, ?_, ?_, ?_, hself, ?_, ?_, ?_⟩
  · show ¬ isAlreadyProcessed _ = true
    rw [hopen]
    exact Bool.false_ne_true
  · show {a | s'.validators.isValidator a = true} = {a | s.validators.isValidator a = true}
    rw [hv]
  · show s'.validators.requiredSignatures.toNat = s.validators.requiredSignatures.toNat
    rw [hv]
  · rintro (d' | h) hne
    · ext a
      show s'.affirmationsSigned _ = true ↔ s.affirmationsSigned _ = true
      rw [hflag, if_neg fun hc => hne (congrArg Sum.inl hc.2)]
    · show {a | s'.bridge.ledger.messagesSigned _ = true} = {a | s.bridge.ledger.messagesSigned _ = true}
      rw [hmsg]
  · rw [hself, Set.ncard_insert_of_notMem hfresh, hP.ncard_voters]
    exact hdone.trans (reached_iff hopen (hP.count_lt d))
  · rintro (d' | h) hne
    · show isAlreadyProcessed _ = true ↔ isAlreadyProcessed _ = true
      rw [hother d' fun he => hne (congrArg Sum.inl he)]
    · show isAlreadyProcessed (s'.bridge.ledger.numMessagesSigned h) = true ↔
        isAlreadyProcessed (s.bridge.ledger.numMessagesSigned h) = true
      rw [hnum]

variable [DecidableEq H]

/-- The signature of a deposit that stays open. -/
theorem affirm_vote (hP : Threshold K P s) (hval : s.validators.isValidator sender = true)
    (hunsigned : s.affirmationsSigned (hashSender K sender (depositHash K d)) = false)
    (hopen : isAlreadyProcessed (s.numAffirmationsSigned (depositHash K d)) = false)
    (hfew : ¬ s.validators.requiredSignatures ≤ s.numAffirmationsSigned (depositHash K d) + 1) :
    Poll.Vote (pollOf K s) (pollOf K (s.affirm K sender d)) sender (.inl d) := by
  refine vote_deposit hP hval hunsigned hopen rfl ?_ ?_ ?_ rfl rfl
  · intro a d'
    exact affirm_affirmationsSigned s sender a d d'
  · intro d' hne
    rw [affirm_numAffirmationsSigned, if_neg hne]
  · rw [affirm_numAffirmationsSigned, if_pos rfl, (signedCount_succ hopen (hP.count_lt d)).1]
    exact ⟨fun hf => absurd hf Bool.false_ne_true, fun henough => absurd henough hfew⟩

/-- The signature that settles a deposit, before the first callee runs. -/
theorem affirm_markProcessed_vote (hP : Threshold K P s) (hval : s.validators.isValidator sender = true)
    (hunsigned : s.affirmationsSigned (hashSender K sender (depositHash K d)) = false)
    (hopen : isAlreadyProcessed (s.numAffirmationsSigned (depositHash K d)) = false)
    (henough : s.validators.requiredSignatures ≤ s.numAffirmationsSigned (depositHash K d) + 1) :
    Poll.Vote (pollOf K s) (pollOf K ((s.affirm K sender d).markProcessed K d)) sender (.inl d) := by
  refine vote_deposit hP hval hunsigned hopen rfl ?_ ?_ ?_ rfl rfl
  · intro a d'
    exact affirm_affirmationsSigned s sender a d d'
  · intro d' hne
    rw [markProcessed_numAffirmationsSigned, if_neg hne, affirm_numAffirmationsSigned, if_neg hne]
  · rw [affirm_markProcessed_word]
    exact ⟨fun _ => henough, fun _ => isAlreadyProcessed_markAsProcessed _⟩

omit [DecidableEq H] in
theorem MessagesCounted.count_lt (hM : MessagesCounted K s) (h : H) :
    signedCount (s.numMessagesSigned h) + 1 < 2 ^ 255 := by
  have hle := ncard_addresses_le ((pollOf K s).voters (.inr h))
  rw [hM h]
  omega

/-- A new signature on a message is a vote, and the counter goes on counting the flags. -/
theorem vote_message (hM : MessagesCounted K s) {h : H} (hval : s.validators.isValidator sender = true)
    (hopen : isAlreadyProcessed (s.numMessagesSigned h) = false)
    (hunsigned : s.messagesSigned (hashSender K sender h) = false)
    (hsame : SameDeposits s s')
    (hflag : ∀ a h', s'.messagesSigned (hashSender K a h') =
      if a = sender ∧ h' = h then true else s.messagesSigned (hashSender K a h'))
    (hother : ∀ h', h' ≠ h → s'.numMessagesSigned h' = s.numMessagesSigned h')
    (hcount : signedCount (s'.numMessagesSigned h) = signedCount (s.numMessagesSigned h) + 1)
    (hdone : isAlreadyProcessed (s'.numMessagesSigned h) = true ↔
      s.validators.requiredSignatures ≤ s.numMessagesSigned h + 1) :
    MessagesCounted K s' ∧ Poll.Vote (pollOf K s) (pollOf K s') sender (.inr h) := by
  have hfresh : sender ∉ (pollOf K s).voters (.inr h) := by
    show ¬ s.messagesSigned _ = true
    rw [hunsigned]
    exact Bool.false_ne_true
  have hself : (pollOf K s').voters (.inr h) = insert sender ((pollOf K s).voters (.inr h)) := by
    ext a
    show s'.messagesSigned _ = true ↔ a = sender ∨ s.messagesSigned _ = true
    rw [hflag]
    by_cases ha : a = sender <;> simp [ha]
  have hvoters (h' : H) (hne : h' ≠ h) : (pollOf K s').voters (.inr h') = (pollOf K s).voters (.inr h') := by
    ext a
    show s'.messagesSigned _ = true ↔ s.messagesSigned _ = true
    rw [hflag, if_neg fun hc => hne hc.2]
  refine ⟨?_, hval, hfresh, ?_, ?_, ?_, hself, ?_, ?_, ?_⟩
  · intro h'
    by_cases he : h' = h
    · subst he
      rw [hself, Set.ncard_insert_of_notMem hfresh, hcount, hM h']
    · rw [hvoters h' he, hother h' he, hM h']
  · show ¬ isAlreadyProcessed _ = true
    rw [hopen]
    exact Bool.false_ne_true
  · show {a | s'.validators.isValidator a = true} = {a | s.validators.isValidator a = true}
    rw [hsame.validators]
  · show s'.validators.requiredSignatures.toNat = s.validators.requiredSignatures.toNat
    rw [hsame.validators]
  · rintro (d | h') hne
    · show {a | s'.bridge.ledger.affirmationsSigned _ = true} = {a | s.bridge.ledger.affirmationsSigned _ = true}
      rw [hsame.affirmationsSigned]
    · exact hvoters h' fun he => hne (congrArg Sum.inr he)
  · rw [hself, Set.ncard_insert_of_notMem hfresh, ← hM h]
    exact hdone.trans (reached_iff hopen (hM.count_lt h))
  · rintro (d | h') hne
    · show isAlreadyProcessed (s'.bridge.ledger.numAffirmationsSigned _) = true ↔
        isAlreadyProcessed (s.bridge.ledger.numAffirmationsSigned _) = true
      rw [hsame.numAffirmationsSigned]
    · show isAlreadyProcessed _ = true ↔ isAlreadyProcessed _ = true
      rw [hother h' fun he => hne (congrArg Sum.inr he)]

/-- **One `submitSignature` is one vote.** -/
theorem submitSignature_vote {ecrecover : Ecrecover H} {sig m : Bytes} (hM : MessagesCounted K s)
    (h : submitSignature K ecrecover s sender sig m = some s') :
    MessagesCounted K s' ∧ Poll.Vote (pollOf K s) (pollOf K s') sender (.inr (messageHash K m)) := by
  obtain ⟨hval, _, _, hopen, hdup, hlast⟩ := submitSignature_cases h
  obtain ⟨hopen', hnat, hcount⟩ := signedCount_succ hopen (hM.count_lt _)
  -- the duplicate check is skipped for the first signature only, when no flag is up
  have hunsigned : s.messagesSigned (hashSender K sender (messageHash K m)) = false := by
    by_contra hup
    rw [Bool.not_eq_false] at hup
    have hpos : 0 < ((pollOf K s).voters (.inr (messageHash K m))).ncard :=
      (Set.ncard_pos).mpr ⟨sender, hup⟩
    have hlater : 1 < s.numMessagesSigned (messageHash K m) + 1 := by
      have hone : (1 : UInt256).toNat = 1 := rfl
      rw [BitVec.lt_def, hnat, hcount, hM, hone]
      omega
    rw [hdup hlater] at hup
    exact Bool.false_ne_true hup
  have hsame := submitSignature_sameDeposits h
  rcases hlast with ⟨hfew, rfl⟩ | ⟨henough, rfl⟩
  · refine vote_message hM hval hopen hunsigned hsame ?_ ?_ ?_ ?_
    · intro a h'
      exact collect_messagesSigned a h'
    · intro h' hne
      rw [collect_numMessagesSigned, if_neg hne]
    · rw [collect_numMessagesSigned, if_pos rfl, hcount]
    · rw [collect_numMessagesSigned, if_pos rfl, hopen']
      exact ⟨fun hf => absurd hf Bool.false_ne_true, fun henough => absurd henough hfew⟩
  · refine vote_message hM hval hopen hunsigned hsame ?_ ?_ ?_ ?_
    · intro a h'
      rw [announce_messagesSigned]
      exact collect_messagesSigned a h'
    · intro h' hne
      rw [announce_numMessagesSigned, if_neg hne, collect_numMessagesSigned, if_neg hne]
    · rw [announce_numMessagesSigned, if_pos rfl, signedCount_markAsProcessed, hcount]
    · rw [announce_numMessagesSigned, if_pos rfl]
      exact ⟨fun _ => henough, fun _ => isAlreadyProcessed_markAsProcessed _⟩

end Votes

/-! ## What a call keeps -/

/-- A call of the bridge is some votes, and keeps the counting. -/
structure Polled (K : CollisionFree H) (s s' : Home H W) : Prop where
  settled : Settled K s s'
  votes : ∀ P, Threshold K P s → MessagesCounted K s →
    MessagesCounted K s' ∧ Relation.ReflTransGen Poll.Voting (pollOf K s) (pollOf K s')

section Calls

variable {K : CollisionFree H} {s s' : Home H W}

theorem Polled.of_same (hsettled : Settled K s s') (hledger : s'.bridge.ledger = s.bridge.ledger) :
    Polled K s s' := by
  refine ⟨hsettled, ?_⟩
  intro P _ hM
  rw [pollOf_congr hsettled.validators hledger]
  exact ⟨messagesCounted_congr (by rw [hledger]) (by rw [hledger]) hM, .refl⟩

theorem Polled.trans {s₁ s₂ s₃ : Home H W} (h : Polled K s₁ s₂) (h' : Polled K s₂ s₃) : Polled K s₁ s₃ := by
  refine ⟨h.settled.trans h'.settled, ?_⟩
  intro P hP hM
  obtain ⟨hM₂, hvotes⟩ := h.votes P hP hM
  obtain ⟨hM₃, hvotes'⟩ := h'.votes P (h.settled.threshold P hP) hM₂
  exact ⟨hM₃, hvotes.trans hvotes'⟩

/-- Callees that vote at most keep `Polled`. -/
theorem polled_keeps {out : Home H W → Home H W → Prop} (hout : ∀ t t', out t t' → Polled K t t') :
    Keeps out (Polled K) where
  refl t := Polled.of_same (Settled.refl K t) rfl
  trans _ _ _ := Polled.trans
  same _ _ hq := Polled.of_same (Settled.of_same hq.sameDeposits) hq.ledger
  calls := hout

variable [DecidableEq H] {V : HomeVariant}

/-- **One affirmation** is one vote, and then whatever its callees vote. -/
theorem polled_affirmed {out : Home H W → Home H W → Prop} {call : Callee (Home H W)}
    (hkeeps : Keeps out (Polled K)) (hcall : Within out call) {sender : Address} {d : Deposit}
    (hval : s.validators.isValidator sender = true) (h : Affirmed K V call s sender d s') : Polled K s s' := by
  have hsettled : Settled K s s' :=
    settled_affirmed (settled_keeps fun t t' hout => (hkeeps.calls t t' hout).settled) hcall hval h
  cases h with
  | recorded _ h =>
      obtain ⟨_, _, _, rfl⟩ := onFailedAffirmation_cases h
      exact Polled.of_same hsettled rfl
  | signed _ hunsigned hopen hfew =>
      refine ⟨hsettled, ?_⟩
      intro P hP hM
      exact ⟨messagesCounted_congr rfl rfl hM, .single ⟨_, _, affirm_vote hP hval hunsigned hopen hfew⟩⟩
  | @settled s₂ _ hunsigned hopen henough h =>
      refine ⟨hsettled, ?_⟩
      intro P hP hM
      have hvote := affirm_markProcessed_vote hP hval hunsigned hopen henough
      have hcalls : Polled K ((s.affirm K sender d).markProcessed K d) s₂ :=
        onExecuteAffirmation_keeps hkeeps hcall h
      obtain ⟨hM₂, hvotes⟩ := hcalls.votes _ (hP.pending hval hunsigned hopen)
        (messagesCounted_congr rfl rfl hM)
      -- recording the settlement touches no ledger
      have hsame : pollOf K (s₂.complete K d) = pollOf K s₂ := pollOf_congr rfl rfl
      rw [hsame]
      exact ⟨messagesCounted_congr rfl rfl hM₂, .head ⟨_, _, hvote⟩ hvotes⟩

/-- **Every call of the bridge**, however deep its callbacks. -/
theorem keptByCalls_polled {ecrecover : Ecrecover H} {allowed : Home H W → BridgeTx → Prop} :
    KeptByCalls K ecrecover V allowed (Polled (W := W) K) where
  refl s := Polled.of_same (Settled.refl K s) rfl
  trans _ _ _ := Polled.trans
  same _ _ hq := Polled.of_same (Settled.of_same hq.sameDeposits) hq.ledger
  submitted _ _ _ _ _ h := by
    refine ⟨Settled.of_same (submitSignature_sameDeposits h), ?_⟩
    intro P _ hM
    obtain ⟨hM', hvote⟩ := submitSignature_vote hM h
    exact ⟨hM', .single ⟨_, _, hvote⟩⟩
  affirmed _ _ hkeeps hcall _ _ _ _ _ hval h := polled_affirmed hkeeps hcall hval h
  fixed _ _ _ _ _ _ h := by
    refine Polled.of_same (settled_fixed h) ?_
    obtain ⟨_, _, _, rfl⟩ := fixAssetsAboveLimits_cases h
    rfl

end Calls

/-! ## Steps of the chain -/

/-- What the poll rests on, between transactions. -/
structure Polling (K : CollisionFree H) (s : Home H W) : Prop where
  threshold : Threshold K ∅ s
  counted : MessagesCounted K s
  represented : s.validators.Represented

section Steps

variable {K : CollisionFree H} {s s' : Home H W}

/-- There are enough validators for the threshold. -/
theorem required_le_ncard (h : s.validators.Represented) :
    (pollOf K s).required ≤ (pollOf K s).members.ncard := by
  obtain ⟨vs, hvs⟩ := h.listed
  have hmembers : (pollOf K s).members = (vs.toFinset : Set Address) := by
    ext a
    show s.validators.isValidator a = true ↔ _
    rw [BridgeValidators.isValidator_eq, hvs.flags a, Finset.mem_coe, List.mem_toFinset]
  rw [hmembers, Set.ncard_coe_finset, List.toFinset_card_of_nodup hvs.distinct, ← hvs.count]
  exact h.required_le_count

/-- A transaction to the validator contract changes the members or the threshold. -/
theorem managed_validators {v : BridgeValidators} (h : s.validators.Step v) (hs : s.validators.Represented) :
    v.Represented ∧ Poll.Managed (pollOf K s) (pollOf K { s with validators := v }) := by
  obtain ⟨op, hop⟩ := h
  have hv := BridgeValidators.run_represented hop hs
  refine ⟨hv, rfl, rfl, ?_, required_le_ncard (s := { s with validators := v }) hv⟩
  show (∀ a, s.validators.isValidator a = true → v.isValidator a = true) ∨ _
  rcases BridgeValidators.run_cases hop with ⟨_, _, hnot, _⟩ | ⟨w, _, _, _, _, hval⟩ |
    ⟨w, hw, _, _, hval⟩ | ⟨_, _, _, _, hval⟩
  · rw [hs.isInitialized] at hnot
    exact absurd hnot (by decide)
  · left
    intro a ha
    rw [BridgeValidators.isValidator_eq] at ha ⊢
    rw [hval, Function.update_apply, ha, ite_self]
  · right
    refine ⟨w, ?_, ?_⟩
    · show s.validators.isValidator w = true
      rw [BridgeValidators.isValidator_eq, hw]
    · ext a
      show v.isValidator a = true ↔ s.validators.isValidator a = true ∧ a ≠ w
      rw [BridgeValidators.isValidator_eq, BridgeValidators.isValidator_eq, hval, Function.update_apply]
      by_cases ha : a = w <;> simp [ha]
  · left
    intro a ha
    rw [BridgeValidators.isValidator_eq] at ha ⊢
    rw [hval, ha]

variable [DecidableEq H] {ecrecover : Ecrecover H} {V : HomeVariant} {allowed : Home H W → BridgeTx → Prop}

/-- **One step of the chain** is some votes, or one change of members or threshold. -/
theorem step_polling (h : StepWhen K ecrecover V allowed s s') (hs : Polling K s) :
    Polling K s' ∧ (Relation.ReflTransGen Poll.Voting (pollOf K s) (pollOf K s') ∨
      Poll.Managed (pollOf K s) (pollOf K s')) := by
  have hthreshold := (step_threshold h).1 hs.threshold
  cases h with
  | bridge n h =>
      have hcall := call_keeps keptByCalls_polled n s s' h
      obtain ⟨hM, hvotes⟩ := hcall.votes ∅ hs.threshold hs.counted
      exact ⟨⟨hthreshold, hM, hcall.settled.validators ▸ hs.represented⟩, .inl hvotes⟩
  | @validators v h =>
      obtain ⟨hv, hmanaged⟩ := managed_validators (K := K) h hs.represented
      exact ⟨⟨hthreshold, messagesCounted_congr rfl rfl hs.counted, hv⟩, .inr hmanaged⟩
  | tick now txHash _ => exact ⟨⟨hthreshold, messagesCounted_congr rfl rfl hs.counted, hs.represented⟩, .inl .refl⟩
  | elsewhere h =>
      obtain ⟨w, rfl⟩ := h
      exact ⟨⟨hthreshold, messagesCounted_congr rfl rfl hs.counted, hs.represented⟩, .inl .refl⟩

omit [DecidableEq H] in
/-- A chain just deployed whose validator contract was then initialised. -/
theorem polling_fresh (hfresh : Fresh s) {n : UInt256} {vs : List Address} {owner : Address}
    {v : BridgeValidators} (hinit : BridgeValidators.blank.initializeWith n vs owner = some v) :
    Polling K { s with validators := v } ∧ Poll.Live (pollOf K { s with validators := v }) := by
  have hrep := BridgeValidators.initializeWith_represented hinit
  have hnoflag (a : Address) (h : H) : s.messagesSigned (hashSender K a h) = false := hfresh.messagesSigned _
  refine ⟨⟨(threshold_fresh hfresh).of_bridge rfl, ?_, hrep⟩,
    required_le_ncard (s := { s with validators := v }) hrep, ?_⟩
  · intro h
    have hnum : s.numMessagesSigned h = 0 := hfresh.numMessagesSigned h
    show signedCount (s.numMessagesSigned h) = Set.ncard {a | s.messagesSigned (hashSender K a h) = true}
    have hnone : {a | s.messagesSigned (hashSender K a h) = true} = ∅ := by
      ext a
      simp [hnoflag a h]
    rw [hnum, hnone, Set.ncard_empty]
    exact PackedCounter.count_zero
  · -- nobody signed anything, and there is a validator
    intro i hi
    exfalso
    have hpos : 0 < (pollOf K { s with validators := v }).members.ncard :=
      (Nat.lt_of_lt_of_le hrep.one_le_required (required_le_ncard (s := { s with validators := v }) hrep))
    obtain ⟨a, ha⟩ := (Set.ncard_pos).mp hpos
    have hvoted := hi ha
    cases i with
    | inl d => exact Bool.false_ne_true ((hfresh.affirmationsSigned _).symm.trans hvoted)
    | inr h => exact Bool.false_ne_true ((hfresh.messagesSigned _).symm.trans hvoted)

end Steps
end Home
end ThunderBridge
