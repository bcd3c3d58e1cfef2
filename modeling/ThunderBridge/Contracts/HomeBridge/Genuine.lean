import ThunderBridge.Contracts.HomeBridge.Polling

/-!
# `HomeBridge.Genuine` — what is collected was asked for

Validators outside `dishonest` sign the messages in `ms` only, and fewer are dishonest than signatures are required
(`AdmitsSigning`). Then every digest announced by `CollectedSignatures` is that of a message in `ms`, and the message
is stored under it (`Genuine`): among the signers that reached the threshold is an honest one.

The first signature on a digest stores the message and the later ones do not, but a digest has one message only, so
it makes no difference whose signature was the first. Validators may come and go meanwhile.
-/

namespace ThunderBridge
namespace Home

variable {H W : Type}

/-- **The signatures that are submitted.** -/
def AdmitsSigning (dishonest : Finset Address) (ms : List Bytes) (s : Home H W) : BridgeTx → Prop
  | .submitSignature sender _ m =>
      dishonest.card < s.validators.requiredSignatures.toNat ∧ (sender ∉ dishonest → m ∈ ms)
  | _ => True

variable [DecidableEq H]

/-- What the message half of the ledger and the announcements say about the messages in `ms`. -/
structure Genuine (K : CollisionFree H) (dishonest : Finset Address) (ms : List Bytes) (s : Home H W) : Prop where
  once : Once ∅ (fun h => isAlreadyProcessed (s.numMessagesSigned h)) (s.collections.map Prod.fst)
  stored : ∀ a h, s.messagesSigned (hashSender K a h) = true → messageHash K (s.message h) = h
  signed : ∀ a h, s.messagesSigned (hashSender K a h) = true → a ∉ dishonest → s.message h ∈ ms
  collected : ∀ h, isAlreadyProcessed (s.numMessagesSigned h) = true →
    messageHash K (s.message h) = h ∧ s.message h ∈ ms

variable {K : CollisionFree H} {dishonest : Finset Address} {ms : List Bytes} {s s' : Home H W}

theorem genuine_fresh (hfresh : Fresh s) : Genuine K dishonest ms s := by
  have hflag (h : H) : s.messagesSigned h = false := hfresh.messagesSigned h
  have hopen := not_processed_zero hfresh
  have hnone : s.collections = [] := by rw [collections, hfresh.log]; rfl
  refine ⟨?_, ?_, ?_, ?_⟩
  · rw [hnone]
    exact Once.empty.congr_flag hopen
  · intro a h hup
    rw [hflag] at hup
    exact absurd hup Bool.false_ne_true
  · intro a h hup
    rw [hflag] at hup
    exact absurd hup Bool.false_ne_true
  · intro h hup
    rw [hopen] at hup
    exact absurd hup Bool.false_ne_true

/-- More messages may be asked for. -/
theorem Genuine.mono {ms' : List Bytes} (hg : Genuine K dishonest ms s) (hsub : ms ⊆ ms') :
    Genuine K dishonest ms' s where
  once := hg.once
  stored := hg.stored
  signed a h hup ha := hsub (hg.signed a h hup ha)
  collected h hup := ⟨(hg.collected h hup).1, hsub (hg.collected h hup).2⟩

theorem Genuine.same (hg : Genuine K dishonest ms s) (h : SameMessages s s') : Genuine K dishonest ms s' := by
  have hnum : s'.numMessagesSigned = s.numMessagesSigned := h.numMessagesSigned
  have hflag : s'.messagesSigned = s.messagesSigned := h.messagesSigned
  have hmsg : s'.message = s.message := h.messages
  refine ⟨?_, ?_, ?_, ?_⟩
  · rw [hnum, h.collections]
    exact hg.once
  · rw [hflag, hmsg]
    exact hg.stored
  · rw [hflag, hmsg]
    exact hg.signed
  · rw [hnum, hmsg]
    exact hg.collected

/-! ## One signature -/

section Submit

variable {ecrecover : Ecrecover H} {sender : Address} {sig m : Bytes}

omit [DecidableEq H] in
/-- A digest on which somebody's signature was counted has a signer. -/
theorem MessagesCounted.signer (hM : MessagesCounted K s) {h : H} (hpos : 0 < signedCount (s.numMessagesSigned h)) :
    ∃ a, s.messagesSigned (hashSender K a h) = true := by
  rw [hM h] at hpos
  exact (Set.ncard_pos).mp hpos

/-- Whoever signed first, the message is the one under the digest. -/
theorem Genuine.collect_message (hg : Genuine K dishonest ms s) (hM : MessagesCounted K s)
    (hopen : isAlreadyProcessed (s.numMessagesSigned (messageHash K m)) = false) :
    (s.collect K sender sig m).message (messageHash K m) = m := by
  rw [Home.collect_message]
  split
  · rfl
  · rename_i hlater
    obtain ⟨_, hnat, hcount⟩ := signedCount_succ hopen (hM.count_lt _)
    have hone : (1 : UInt256).toNat = 1 := rfl
    have hpos : 0 < signedCount (s.numMessagesSigned (messageHash K m)) := by
      by_contra hzero
      apply hlater
      refine ⟨rfl, ?_⟩
      rw [BitVec.lt_def, hnat, hcount, hone]
      omega
    obtain ⟨a, ha⟩ := hM.signer hpos
    exact Chunk.raw_injective (K.injective (hg.stored a _ ha))

/-- The signature stored and counted. -/
theorem Genuine.collect (hg : Genuine K dishonest ms s) (hM : MessagesCounted K s)
    (hopen : isAlreadyProcessed (s.numMessagesSigned (messageHash K m)) = false)
    (hm : sender ∉ dishonest → m ∈ ms) : Genuine K dishonest ms (s.collect K sender sig m) := by
  have hself : (s.collect K sender sig m).message (messageHash K m) = m := hg.collect_message hM hopen
  have hother (h : H) (hne : h ≠ messageHash K m) :
      (s.collect K sender sig m).message h = s.message h := by
    rw [Home.collect_message, if_neg fun hc => hne hc.1]
  have hprocessed (h : H) : isAlreadyProcessed ((s.collect K sender sig m).numMessagesSigned h) =
      isAlreadyProcessed (s.numMessagesSigned h) := by
    rw [collect_numMessagesSigned]
    split
    · rename_i he
      rw [he, (signedCount_succ hopen (hM.count_lt _)).1, hopen]
    · rfl
  -- a flag that is up after the signature: the digest signed now, or an older one
  have hflags (a : Address) (h : H) (hup : (s.collect K sender sig m).messagesSigned (hashSender K a h) = true)
      (hne : h ≠ messageHash K m) : s.messagesSigned (hashSender K a h) = true := by
    rw [collect_messagesSigned, if_neg fun hc => hne hc.2] at hup
    exact hup
  refine ⟨?_, ?_, ?_, ?_⟩
  · rw [collect_collections]
    exact hg.once.congr_flag hprocessed
  · intro a h hup
    by_cases he : h = messageHash K m
    · rw [he, hself]
    · rw [hother h he]
      exact hg.stored a h (hflags a h hup he)
  · intro a h hup ha
    by_cases he : h = messageHash K m
    · rw [he, hself]
      subst he
      by_cases hnow : a = sender
      · exact hm (hnow ▸ ha)
      · -- an honest validator who signed the digest before was asked for its message
        rw [collect_messagesSigned, if_neg fun hc => hnow hc.1] at hup
        have hold : s.message (messageHash K m) = m :=
          Chunk.raw_injective (K.injective (hg.stored a _ hup))
        exact hold ▸ hg.signed a _ hup ha
    · rw [hother h he]
      exact hg.signed a h (hflags a h hup he) ha
  · intro h hup
    rw [hprocessed] at hup
    have hne : h ≠ messageHash K m := by
      rintro rfl
      rw [hopen] at hup
      exact Bool.false_ne_true hup
    rw [hother h hne]
    exact hg.collected h hup

/-- **The announcement**: the signers are more than the dishonest validators. -/
theorem Genuine.announce (hg : Genuine K dishonest ms s) {h : H} {n : UInt256}
    (hopen : isAlreadyProcessed (s.numMessagesSigned h) = false)
    (henough : dishonest.card < ((pollOf K s).voters (.inr h)).ncard) :
    Genuine K dishonest ms (s.announce sender h (s.numMessagesSigned h) n) := by
  obtain ⟨a, ha, hhonest⟩ : ∃ a ∈ (pollOf K s).voters (.inr h), a ∉ dishonest := by
    by_contra hall
    push Not at hall
    have hle : ((pollOf K s).voters (.inr h)).ncard ≤ (dishonest : Set Address).ncard :=
      Set.ncard_le_ncard hall
    rw [Set.ncard_coe_finset] at hle
    omega
  have hnum (h' : H) : isAlreadyProcessed
      ((s.announce sender h (s.numMessagesSigned h) n).numMessagesSigned h') =
        if h' = h then true else isAlreadyProcessed (s.numMessagesSigned h') := by
    rw [announce_numMessagesSigned]
    split
    · exact isAlreadyProcessed_markAsProcessed _
    · rfl
  refine ⟨?_, fun a h' => hg.stored a h', fun a h' => hg.signed a h', ?_⟩
  · rw [announce_collections, List.map_cons]
    exact (hg.once.raise hopen hnum).settle (Finset.notMem_empty _)
  · intro h' hup
    rw [hnum] at hup
    by_cases he : h' = h
    · rw [he]
      exact ⟨hg.stored a h ha, hg.signed a h ha hhonest⟩
    · rw [if_neg he] at hup
      exact hg.collected h' hup

/-- Announcing raises no flag. -/
theorem announce_voters (s : Home H W) (h : H) (word n : UInt256) (k : Deposit ⊕ H) :
    (pollOf K (s.announce sender h word n)).voters k = (pollOf K s).voters k := rfl

/-- **One `submitSignature`.** -/
theorem Genuine.submitted (hg : Genuine K dishonest ms s) (hM : MessagesCounted K s)
    (hadmits : AdmitsSigning dishonest ms s (.submitSignature sender sig m))
    (h : submitSignature K ecrecover s sender sig m = some s') : Genuine K dishonest ms s' := by
  obtain ⟨hM', hvote⟩ := submitSignature_vote hM h
  obtain ⟨_, _, _, hopen, _, hlast⟩ := submitSignature_cases h
  have hcollect : Genuine K dishonest ms (s.collect K sender sig m) := hg.collect hM hopen hadmits.2
  rcases hlast with ⟨_, rfl⟩ | ⟨henough, rfl⟩
  · exact hcollect
  · obtain ⟨hopen', hnat, hcount⟩ := signedCount_succ hopen (hM.count_lt _)
    have hword : (s.collect K sender sig m).numMessagesSigned (messageHash K m) =
        s.numMessagesSigned (messageHash K m) + 1 := by rw [collect_numMessagesSigned, if_pos rfl]
    have hmore : dishonest.card < ((pollOf K (s.collect K sender sig m)).voters (.inr (messageHash K m))).ncard :=
      calc dishonest.card < s.validators.requiredSignatures.toNat := hadmits.1
        _ ≤ (s.numMessagesSigned (messageHash K m) + 1).toNat := BitVec.le_def.mp henough
        _ = ((pollOf K s).voters (.inr (messageHash K m))).ncard + 1 := by rw [hnat, hcount, hM]
        _ = (insert sender ((pollOf K s).voters (.inr (messageHash K m)))).ncard :=
            (Set.ncard_insert_of_notMem hvote.fresh).symm
        _ = ((pollOf K (s.collect K sender sig m)).voters (.inr (messageHash K m))).ncard := by
            rw [← hvote.voters_self, announce_voters]
    rw [← hword] at hopen' ⊢
    exact hcollect.announce hopen' hmore

end Submit

/-! ## What a call keeps -/

/-- A call votes at most, and what is collected stays genuine. -/
structure Truthful (dishonest : Finset Address) (ms : List Bytes) (K : CollisionFree H) (s s' : Home H W) : Prop where
  polled : Polled K s s'
  genuine : ∀ P, Threshold K P s → MessagesCounted K s → Genuine K dishonest ms s → Genuine K dishonest ms s'

theorem Truthful.of_same (hpolled : Polled K s s') (h : SameMessages s s') : Truthful dishonest ms K s s' :=
  ⟨hpolled, fun _ _ _ hg => hg.same h⟩

theorem Truthful.trans {s₁ s₂ s₃ : Home H W} (h : Truthful dishonest ms K s₁ s₂)
    (h' : Truthful dishonest ms K s₂ s₃) : Truthful dishonest ms K s₁ s₃ := by
  refine ⟨h.polled.trans h'.polled, ?_⟩
  intro P hP hM hg
  exact h'.genuine P (h.polled.settled.threshold P hP) (h.polled.votes P hP hM).1 (h.genuine P hP hM hg)

theorem Truthful.refl (s : Home H W) : Truthful dishonest ms K s s :=
  .of_same (.of_same (Settled.refl K s) rfl) ⟨fun _ ha => ha, rfl, rfl, rfl, rfl, rfl⟩

theorem Truthful.of_quiet (h : Quiet s s') : Truthful dishonest ms K s s' :=
  .of_same (.of_same (Settled.of_same h.sameDeposits) h.ledger) h.sameMessages

/-- Callees that keep it. -/
theorem truthful_keeps {out : Home H W → Home H W → Prop} (hout : ∀ t t', out t t' → Truthful dishonest ms K t t') :
    Keeps out (Truthful dishonest ms K) :=
  ⟨Truthful.refl, fun _ _ _ => Truthful.trans, fun _ _ => Truthful.of_quiet, hout⟩

variable {ecrecover : Ecrecover H} {V : HomeVariant}

/-- **One affirmation** signs no message. -/
theorem affirmed_genuine {out : Home H W → Home H W → Prop} {call : Callee (Home H W)}
    (hkeeps : Keeps out (Truthful dishonest ms K)) (hcall : Within out call) {sender : Address} {d : Deposit}
    (hval : s.validators.isValidator sender = true) (h : Affirmed K V call s sender d s') {P : Finset Deposit}
    (hP : Threshold K P s) (hM : MessagesCounted K s) (hg : Genuine K dishonest ms s) :
    Genuine K dishonest ms s' := by
  have haffirm : Genuine K dishonest ms (s.affirm K sender d) := hg.same (affirm_sameMessages K s sender d)
  cases h with
  | recorded _ h => exact hg.same (onFailedAffirmation_sameMessages h).2
  | signed _ _ _ _ => exact haffirm
  | settled _ hunsigned hopen _ h =>
      have hmark : Genuine K dishonest ms ((s.affirm K sender d).markProcessed K d) :=
        haffirm.same ⟨fun _ ha => ha, rfl, rfl, rfl, rfl, rfl⟩
      have hpaid := onExecuteAffirmation_keeps hkeeps hcall h
      have hcalls := hpaid.genuine (insert d P) (hP.pending hval hunsigned hopen)
        (messagesCounted_congr rfl rfl hM) hmark
      exact hcalls.same (complete_sameMessages K _ d)

theorem invoke_truthful {out : Home H W → Home H W → Prop}
    (hout : ∀ t t', out t t' → Truthful dishonest ms K t t')
    (h : Invoke K ecrecover V (AdmitsSigning dishonest ms) out s s') : Truthful dishonest ms K s s' := by
  have hkeeps := truthful_keeps hout
  have hpolled := invoke_keeps (R := Polled K) keptByCalls_polled (fun t t' ho => (hout t t' ho).polled) h
  refine ⟨hpolled, ?_⟩
  intro P hP hM hg
  obtain ⟨call, tx, hadmits, hcall, h⟩ := h
  cases tx with
  | executeAffirmation sender recipient value t =>
      obtain ⟨hval, haffirmed⟩ := executeAffirmation_cases (recipient, value, t) h
      exact affirmed_genuine hkeeps hcall hval haffirmed hP hM hg
  | fixAssetsAboveLimits sender t unlock => exact hg.same (fixAssetsAboveLimits_sameMessages h).2
  | onTokenTransfer sender source value => exact (onTokenTransfer_keeps hkeeps hcall h).genuine P hP hM hg
  | transferAndCall sender target value msgValue =>
      simp only [exec, Option.bind_eq_bind, Option.bind_eq_some_iff, require_eq_some, exists_const] at h
      exact (transferAndCall_keeps hkeeps hcall h.2).genuine P hP hM hg
  | submitSignature sender sig m => exact hg.submitted hM hadmits h
  | setting sender setting =>
      simp only [exec, Option.bind_eq_bind, Option.bind_eq_some_iff, require_eq_some, exists_const] at h
      exact hg.same (applySetting_quiet h.2).sameMessages

/-- **Every call of the bridge**, however deep its callbacks. -/
theorem call_truthful : ∀ n s s', Call K ecrecover V (AdmitsSigning (W := W) dishonest ms) n s s' →
    Truthful dishonest ms K s s' :=
  Calls.nested_rel Truthful.refl (fun _ _ _ => Truthful.trans) (fun _ _ h => Truthful.of_quiet (elsewhere_quiet h))
    (fun _ hout _ _ h => invoke_truthful hout h)

/-- **One step of the chain**, validators removed or not. -/
theorem step_genuine (h : StepWhen K ecrecover V (AdmitsSigning dishonest ms) s s') (hs : Polling K s)
    (hg : Genuine K dishonest ms s) : Genuine K dishonest ms s' := by
  cases h with
  | bridge n h => exact (call_truthful n s s' h).genuine ∅ hs.threshold hs.counted hg
  | validators _ => exact ⟨hg.once, hg.stored, hg.signed, hg.collected⟩
  | tick now txHash _ => exact ⟨hg.once, hg.stored, hg.signed, hg.collected⟩
  | elsewhere h => exact hg.same (elsewhere_quiet h).sameMessages

end Home
end ThunderBridge
