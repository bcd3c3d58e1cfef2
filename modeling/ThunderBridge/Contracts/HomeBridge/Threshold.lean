import ThunderBridge.Contracts.HomeBridge.Effects
import ThunderBridge.Lib.Once
import ThunderBridge.Lib.PackedCounter
import Mathlib.Data.Set.Card

/-!
# `HomeBridge.Threshold` — affirmations count their signers and settle once

The word `numAffirmationsSigned(h)` packs a counter and a processed bit; the signers are flags under
`keccak(signer, h)`. `Threshold K P` ties both to the trail: the counter is the number of `signed` marks of
the deposit, the flags are up for exactly those signers, and the processed bit is up for the deposits with
an `executed` mark and for those in `P`, which are being settled right now.

While a deposit is settled the token may call the bridge back. The calls it makes see the deposit in `P`
with its bit up, so they can neither sign nor settle it again; `Settled` is what they keep.
-/

namespace ThunderBridge

/-- `isAlreadyProcessed` reads bit 255. -/
theorem isAlreadyProcessed_iff (v : UInt256) : isAlreadyProcessed v = true ↔ v.msb = true := by
  unfold isAlreadyProcessed
  rw [beq_iff_eq]
  exact PackedCounter.and_flag_eq_iff v

theorem isAlreadyProcessed_markAsProcessed (v : UInt256) : isAlreadyProcessed (markAsProcessed v) = true :=
  (isAlreadyProcessed_iff _).mpr (PackedCounter.msb_or_flag v)

/-- The counter part of a word of the affirmation ledger: its low 255 bits. -/
def signedCount (v : UInt256) : Nat := PackedCounter.count v

theorem signedCount_markAsProcessed (v : UInt256) : signedCount (markAsProcessed v) = signedCount v :=
  PackedCounter.count_or_flag v

/-- Counting a word up does not reach the processed bit. -/
theorem signedCount_succ {v : UInt256} (hopen : isAlreadyProcessed v = false)
    (hlt : signedCount v + 1 < 2 ^ 255) :
    isAlreadyProcessed (v + 1) = false ∧ (v + 1).toNat = signedCount (v + 1) ∧
      signedCount (v + 1) = signedCount v + 1 := by
  have hmsb : v.msb = false := by
    rw [Bool.eq_false_iff, Ne, ← isAlreadyProcessed_iff, hopen]
    exact Bool.false_ne_true
  have hmsb' := PackedCounter.msb_succ hmsb hlt
  refine ⟨?_, PackedCounter.toNat_eq_count hmsb', PackedCounter.count_succ hmsb hlt⟩
  rw [Bool.eq_false_iff, Ne, isAlreadyProcessed_iff, hmsb']
  exact Bool.false_ne_true

namespace Home

variable {H W : Type}

/-! ## What the trail says -/

/-- The signer, if the mark is a signature on the deposit. -/
def signerOn (d : Deposit) : Mark → Option Address
  | .signed a d' _ => if d' = d then some a else none
  | _ => none

/-- The deposit, if the mark is a settlement. -/
def executedBy : Mark → Option Deposit
  | .executed d _ _ => some d
  | _ => none

/-- The signers of a deposit. -/
def signersOf (d : Deposit) (trail : List Mark) : List Address := trail.filterMap (signerOn d)

/-- The settled deposits. -/
def executedDeposits (trail : List Mark) : List Deposit := trail.filterMap executedBy

theorem signerOn_eq_some {d : Deposit} {a : Address} {m : Mark} :
    signerOn d m = some a ↔ ∃ v, m = .signed a d v := by
  cases m with
  | signed a' d' v =>
      show (if d' = d then some a' else none) = some a ↔ _
      by_cases hd : d' = d
      · simp [hd]
      · simp [hd]
  | executed d' w v => simp [signerOn]
  | fixed d' => simp [signerOn]

theorem executedBy_eq_some {d : Deposit} {m : Mark} :
    executedBy m = some d ↔ ∃ w v, m = .executed d w v := by
  cases m <;> simp [executedBy]

theorem mem_signersOf {d : Deposit} {a : Address} {trail : List Mark} :
    a ∈ signersOf d trail ↔ ∃ v, Mark.signed a d v ∈ trail := by
  unfold signersOf
  rw [List.mem_filterMap]
  constructor
  · rintro ⟨m, hm, he⟩
    obtain ⟨v, rfl⟩ := signerOn_eq_some.mp he
    exact ⟨v, hm⟩
  · rintro ⟨v, hm⟩
    exact ⟨_, hm, signerOn_eq_some.mpr ⟨v, rfl⟩⟩

theorem mem_executedDeposits {d : Deposit} {trail : List Mark} :
    d ∈ executedDeposits trail ↔ ∃ w v, Mark.executed d w v ∈ trail := by
  unfold executedDeposits
  rw [List.mem_filterMap]
  constructor
  · rintro ⟨m, hm, he⟩
    obtain ⟨w, v, rfl⟩ := executedBy_eq_some.mp he
    exact ⟨w, v, hm⟩
  · rintro ⟨w, v, hm⟩
    exact ⟨_, hm, executedBy_eq_some.mpr ⟨w, v, rfl⟩⟩

/-! ## The invariant -/

/-- The affirmation ledger says what the trail says, with the deposits in `P` being settled. -/
structure Threshold (K : CollisionFree H) (P : Finset Deposit) (s : Home H W) : Prop where
  /-- The processed bit is up exactly for the settled deposits and those in `P`; none is settled twice. -/
  once : Once P (fun d => isAlreadyProcessed (s.numAffirmationsSigned (depositHash K d)))
    (executedDeposits s.bridge.trail)
  /-- The counter counts the signers. -/
  count : ∀ d, signedCount (s.numAffirmationsSigned (depositHash K d)) =
    (signersOf d s.bridge.trail).length
  /-- The flags are up for the signers. -/
  flag : ∀ d a, s.affirmationsSigned (hashSender K a (depositHash K d)) = true ↔
    a ∈ signersOf d s.bridge.trail
  /-- Nobody signs a deposit twice. -/
  distinct : ∀ d, (signersOf d s.bridge.trail).Nodup
  /-- Each signer was a validator when it signed. -/
  validator : ∀ a d v, Mark.signed a d v ∈ s.bridge.trail → v.isValidator a = true
  /-- Enough had signed when the deposit was settled. -/
  enough : ∀ d w v, Mark.executed d w v ∈ s.bridge.trail → v.requiredSignatures.toNat ≤ signedCount w

section Invariant

variable {K : CollisionFree H} {P : Finset Deposit} {s s' : Home H W}

/-- The invariant reads the affirmation words, the flags and the `signed` and `executed` marks only. -/
theorem Threshold.congr (h : Threshold K P s)
    (hnum : s'.bridge.ledger.numAffirmationsSigned = s.bridge.ledger.numAffirmationsSigned)
    (hflag : s'.bridge.ledger.affirmationsSigned = s.bridge.ledger.affirmationsSigned)
    (hsig : ∀ d, signersOf d s'.bridge.trail = signersOf d s.bridge.trail)
    (hexe : executedDeposits s'.bridge.trail = executedDeposits s.bridge.trail)
    (hval : ∀ a d v, Mark.signed a d v ∈ s'.bridge.trail → Mark.signed a d v ∈ s.bridge.trail)
    (hen : ∀ d w v, Mark.executed d w v ∈ s'.bridge.trail → Mark.executed d w v ∈ s.bridge.trail) :
    Threshold K P s' := by
  have hnum' : s'.numAffirmationsSigned = s.numAffirmationsSigned := hnum
  have hflag' : s'.affirmationsSigned = s.affirmationsSigned := hflag
  refine ⟨?_, ?_, ?_, ?_, fun a d v hm => h.validator a d v (hval a d v hm),
    fun d w v hm => h.enough d w v (hen d w v hm)⟩
  · rw [hexe, hnum']; exact h.once
  · intro d
    rw [hnum', hsig]; exact h.count d
  · intro d a
    rw [hflag', hsig]; exact h.flag d a
  · intro d
    rw [hsig]; exact h.distinct d

theorem Threshold.same (h : Threshold K P s) (he : SameDeposits s s') : Threshold K P s' :=
  h.congr he.numAffirmationsSigned he.affirmationsSigned (fun d => by rw [he.trail])
    (by rw [he.trail]) (fun a d v hm => he.trail ▸ hm) (fun d w v hm => he.trail ▸ hm)

/-- It reads nothing outside the bridge. -/
theorem Threshold.of_bridge (h : Threshold K P s) (hbridge : s'.bridge = s.bridge) : Threshold K P s' := by
  apply h.congr
  · rw [hbridge]
  · rw [hbridge]
  · intro d
    rw [hbridge]
  · rw [hbridge]
  · intro a d v hm
    exact hbridge ▸ hm
  · intro d w v hm
    exact hbridge ▸ hm

/-- A chain just deployed. -/
theorem threshold_fresh (h : Fresh s) : Threshold K ∅ s := by
  have hnum : ∀ d, s.numAffirmationsSigned (depositHash K d) = 0 := fun d => h.numAffirmationsSigned _
  have hflag : ∀ d a, s.affirmationsSigned (hashSender K a (depositHash K d)) = false :=
    fun d a => h.affirmationsSigned _
  have hzero : isAlreadyProcessed 0 = false := by decide
  refine ⟨?_, ?_, ?_, ?_, ?_, ?_⟩
  · rw [h.trail]
    exact Once.empty.congr_flag fun d => by rw [hnum d, hzero]
  · intro d
    rw [hnum d, h.trail]
    exact PackedCounter.count_zero 
  · intro d a
    rw [hflag d a, h.trail]
    exact ⟨fun hf => absurd hf (by decide), fun hm => absurd hm (List.not_mem_nil)⟩
  · intro d
    rw [h.trail]; exact List.nodup_nil
  · intro a d v hm
    rw [h.trail] at hm; exact absurd hm List.not_mem_nil
  · intro d w v hm
    rw [h.trail] at hm; exact absurd hm List.not_mem_nil

variable [DecidableEq H]

omit [DecidableEq H] in
/-- The count stays far below the processed bit: there are only `2 ^ 160` addresses. -/
theorem Threshold.count_lt (h : Threshold K P s) (d : Deposit) :
    signedCount (s.numAffirmationsSigned (depositHash K d)) + 1 < 2 ^ 255 := by
  have hle := length_le_of_nodup (h.distinct d)
  rw [h.count d]
  omega

theorem signersOf_affirm (s : Home H W) (sender : Address) (d d' : Deposit) :
    signersOf d' (s.affirm K sender d).bridge.trail =
      if d = d' then sender :: signersOf d' s.bridge.trail else signersOf d' s.bridge.trail := by
  have htrail : (s.affirm K sender d).bridge.trail = .signed sender d s.validators :: s.bridge.trail := rfl
  rw [htrail, signersOf, List.filterMap_cons]
  by_cases hd : d = d'
  · simp [signerOn, hd, signersOf]
  · simp [signerOn, hd, signersOf]

theorem affirm_affirmationsSigned (s : Home H W) (sender a : Address) (d d' : Deposit) :
    (s.affirm K sender d).affirmationsSigned (hashSender K a (depositHash K d')) =
      if a = sender ∧ d' = d then true
      else s.affirmationsSigned (hashSender K a (depositHash K d')) := by
  have hkey : hashSender K a (depositHash K d') = hashSender K sender (depositHash K d) ↔
      a = sender ∧ d' = d := by
    constructor
    · intro he
      obtain ⟨ha, hd⟩ := hashSender_injective K he
      exact ⟨ha, depositHash_injective K hd⟩
    · rintro ⟨rfl, rfl⟩; rfl
  show Function.update s.bridge.ledger.affirmationsSigned _ true _ = _
  rw [Function.update_apply]
  simp only [hkey]
  rfl

/-- A signature that is new, by a validator, on a deposit not settled. -/
theorem Threshold.affirm (h : Threshold K P s) {sender : Address} {d : Deposit}
    (hval : s.validators.isValidator sender = true)
    (hunsigned : s.affirmationsSigned (hashSender K sender (depositHash K d)) = false)
    (hopen : isAlreadyProcessed (s.numAffirmationsSigned (depositHash K d)) = false) :
    Threshold K P (s.affirm K sender d) := by
  have hnew : sender ∉ signersOf d s.bridge.trail := by
    intro hm
    rw [(h.flag d sender).mpr hm] at hunsigned
    exact absurd hunsigned (by decide)
  obtain ⟨hopen', _, hcount⟩ := signedCount_succ hopen (h.count_lt d)
  refine ⟨h.once.congr_flag ?_, ?_, ?_, ?_,
    ?_, ?_⟩
  · intro d'
    rw [affirm_numAffirmationsSigned]
    by_cases hd : d' = d
    · subst hd
      rw [if_pos rfl, hopen, hopen']
    · rw [if_neg hd]
  · intro d'
    rw [affirm_numAffirmationsSigned, signersOf_affirm]
    by_cases hd : d' = d
    · subst hd
      rw [if_pos rfl, if_pos rfl, List.length_cons, ← h.count d']
      exact hcount
    · rw [if_neg hd, if_neg (Ne.symm hd)]
      exact h.count d'
  · intro d' a
    rw [affirm_affirmationsSigned, signersOf_affirm]
    by_cases hd : d' = d
    · subst hd
      rw [if_pos rfl, List.mem_cons]
      by_cases ha : a = sender
      · simp [ha]
      · simp only [ha, false_and, if_false, false_or]
        exact h.flag d' a
    · rw [if_neg (fun hc => hd hc.2), if_neg (Ne.symm hd)]
      exact h.flag d' a
  · intro d'
    rw [signersOf_affirm]
    by_cases hd : d = d'
    · subst hd
      rw [if_pos rfl]
      exact List.nodup_cons.mpr ⟨hnew, h.distinct d⟩
    · rw [if_neg hd]
      exact h.distinct d'
  · intro a d' v hm
    rcases List.mem_cons.mp hm with he | hold
    · injection he with ha hd hv
      rw [ha, hv]
      exact hval
    · exact h.validator a d' v hold
  · intro d' w v hm
    rcases List.mem_cons.mp hm with he | hold
    · exact absurd he (by simp)
    · exact h.enough d' w v hold

theorem markProcessed_numAffirmationsSigned (s : Home H W) (d d' : Deposit) :
    (s.markProcessed K d).numAffirmationsSigned (depositHash K d') =
      if d' = d then markAsProcessed (s.numAffirmationsSigned (depositHash K d))
      else s.numAffirmationsSigned (depositHash K d') := by
  simp [markProcessed, (depositHash_injective K).eq_iff]

/-- Raising the processed bit makes the deposit pending. -/
theorem Threshold.markProcessed (h : Threshold K P s) {d : Deposit}
    (hopen : isAlreadyProcessed (s.numAffirmationsSigned (depositHash K d)) = false) :
    Threshold K (insert d P) (s.markProcessed K d) := by
  refine ⟨h.once.raise hopen ?_, ?_, h.flag, h.distinct, h.validator, h.enough⟩
  · intro d'
    rw [markProcessed_numAffirmationsSigned]
    by_cases hd : d' = d
    · rw [if_pos hd, if_pos hd]
      exact isAlreadyProcessed_markAsProcessed _
    · rw [if_neg hd, if_neg hd]
  · intro d'
    rw [markProcessed_numAffirmationsSigned]
    by_cases hd : d' = d
    · subst hd
      rw [if_pos rfl, signedCount_markAsProcessed]
      exact h.count d'
    · rw [if_neg hd]
      exact h.count d'

omit [DecidableEq H] in
/-- Recording the settlement takes the deposit out of the pending ones. -/
theorem Threshold.complete {d : Deposit} (h : Threshold K (insert d P) s) (hd : d ∉ P)
    (henough : s.validators.requiredSignatures.toNat ≤
      signedCount (s.numAffirmationsSigned (depositHash K d))) :
    Threshold K P (s.complete K d) := by
  refine ⟨h.once.settle hd, h.count, h.flag, h.distinct, ?_, ?_⟩
  · intro a d' v hm
    rcases List.mem_cons.mp hm with he | hold
    · exact absurd he (by simp)
    · exact h.validator a d' v hold
  · intro d' w v hm
    rcases List.mem_cons.mp hm with he | hold
    · injection he with _ hw hv
      rw [hw, hv]
      exact henough
    · exact h.enough d' w v hold

end Invariant

/-! ## What a call keeps -/

/-- A processed deposit is frozen: neither its word nor any of its flags changes. -/
def Frozen (K : CollisionFree H) (s s' : Home H W) : Prop :=
  ∀ d, isAlreadyProcessed (s.numAffirmationsSigned (depositHash K d)) = true →
    s'.numAffirmationsSigned (depositHash K d) = s.numAffirmationsSigned (depositHash K d) ∧
    ∀ a, s'.affirmationsSigned (hashSender K a (depositHash K d)) =
      s.affirmationsSigned (hashSender K a (depositHash K d))

theorem Frozen.refl (K : CollisionFree H) (s : Home H W) : Frozen K s s :=
  fun _ _ => ⟨rfl, fun _ => rfl⟩

theorem Frozen.trans {K : CollisionFree H} {s₁ s₂ s₃ : Home H W} (h : Frozen K s₁ s₂)
    (h' : Frozen K s₂ s₃) : Frozen K s₁ s₃ := by
  intro d hd
  obtain ⟨hnum, hflag⟩ := h d hd
  obtain ⟨hnum', hflag'⟩ := h' d (hnum ▸ hd)
  exact ⟨hnum'.trans hnum, fun a => (hflag' a).trans (hflag a)⟩

theorem Frozen.of_eq {K : CollisionFree H} {s s' : Home H W}
    (hnum : s'.bridge.ledger.numAffirmationsSigned = s.bridge.ledger.numAffirmationsSigned)
    (hflag : s'.bridge.ledger.affirmationsSigned = s.bridge.ledger.affirmationsSigned) :
    Frozen K s s' :=
  fun _ _ => ⟨congrFun hnum _, fun _ => congrFun hflag _⟩

/-- What a call of the bridge keeps: the validators, the invariant with any set of pending deposits, and
    everything about processed deposits. -/
structure Settled (K : CollisionFree H) (s s' : Home H W) : Prop where
  validators : s'.validators = s.validators
  threshold : ∀ P, Threshold K P s → Threshold K P s'
  frozen : Frozen K s s'

theorem Settled.refl (K : CollisionFree H) (s : Home H W) : Settled K s s :=
  ⟨rfl, fun _ hP => hP, Frozen.refl K s⟩

theorem Settled.trans {K : CollisionFree H} {s₁ s₂ s₃ : Home H W} (h : Settled K s₁ s₂)
    (h' : Settled K s₂ s₃) : Settled K s₁ s₃ :=
  ⟨h'.validators.trans h.validators, fun P hP => h'.threshold P (h.threshold P hP), h.frozen.trans h'.frozen⟩

theorem Settled.of_same {K : CollisionFree H} {s s' : Home H W} (h : SameDeposits s s') : Settled K s s' :=
  ⟨h.validators, fun _ hP => hP.same h, Frozen.of_eq h.numAffirmationsSigned h.affirmationsSigned⟩

/-- Callees that keep more than `Settled` keep `Settled`. -/
theorem settled_keeps {K : CollisionFree H} {out : Home H W → Home H W → Prop}
    (hout : ∀ s s', out s s' → Settled K s s') : Keeps out (Settled K) where
  refl := Settled.refl K
  trans _ _ _ := Settled.trans
  same _ _ hq := Settled.of_same hq.sameDeposits
  calls := hout

section Calls

variable [DecidableEq H] {K : CollisionFree H} {V : HomeVariant}

omit [DecidableEq H] in
/-- A change to an open deposit alone moves no processed one. -/
theorem Frozen.of_other {s s' : Home H W} {d : Deposit}
    (hopen : isAlreadyProcessed (s.numAffirmationsSigned (depositHash K d)) = false)
    (hnum : ∀ d' ≠ d, s'.numAffirmationsSigned (depositHash K d') =
      s.numAffirmationsSigned (depositHash K d'))
    (hflag : ∀ d' ≠ d, ∀ a, s'.affirmationsSigned (hashSender K a (depositHash K d')) =
      s.affirmationsSigned (hashSender K a (depositHash K d'))) : Frozen K s s' := by
  intro d' hd'
  have hne : d' ≠ d := by
    rintro rfl
    rw [hd'] at hopen
    exact absurd hopen (by decide)
  exact ⟨hnum d' hne, hflag d' hne⟩

theorem affirm_frozen {s : Home H W} {sender : Address} {d : Deposit}
    (hopen : isAlreadyProcessed (s.numAffirmationsSigned (depositHash K d)) = false) :
    Frozen K s (s.affirm K sender d) := by
  refine Frozen.of_other hopen ?_ ?_
  · intro d' hne
    rw [affirm_numAffirmationsSigned, if_neg hne]
  · intro d' hne a
    rw [affirm_affirmationsSigned, if_neg fun hc => hne hc.2]

theorem affirm_markProcessed_frozen {s : Home H W} {sender : Address} {d : Deposit}
    (hopen : isAlreadyProcessed (s.numAffirmationsSigned (depositHash K d)) = false) :
    Frozen K s ((s.affirm K sender d).markProcessed K d) := by
  refine Frozen.of_other hopen ?_ ?_
  · intro d' hne
    rw [markProcessed_numAffirmationsSigned, if_neg hne, affirm_numAffirmationsSigned, if_neg hne]
  · intro d' hne a
    show (s.affirm K sender d).affirmationsSigned _ = _
    rw [affirm_affirmationsSigned, if_neg fun hc => hne hc.2]

/-- The word of a deposit while it is settled. -/
theorem affirm_markProcessed_word (s : Home H W) (sender : Address) (d : Deposit) :
    ((s.affirm K sender d).markProcessed K d).numAffirmationsSigned (depositHash K d) =
      markAsProcessed (s.numAffirmationsSigned (depositHash K d) + 1) := by
  rw [markProcessed_numAffirmationsSigned, if_pos rfl, affirm_numAffirmationsSigned, if_pos rfl]

/-- What the callees of a settlement find: the new signature is counted and the deposit is pending. -/
theorem Threshold.pending {P : Finset Deposit} {s : Home H W} (hP : Threshold K P s) {sender : Address}
    {d : Deposit} (hval : s.validators.isValidator sender = true)
    (hunsigned : s.affirmationsSigned (hashSender K sender (depositHash K d)) = false)
    (hopen : isAlreadyProcessed (s.numAffirmationsSigned (depositHash K d)) = false) :
    Threshold K (insert d P) ((s.affirm K sender d).markProcessed K d) := by
  apply (hP.affirm hval hunsigned hopen).markProcessed
  rw [affirm_numAffirmationsSigned, if_pos rfl]
  exact (signedCount_succ hopen (hP.count_lt d)).1

/-- **One affirmation.** The callees find the deposit pending and leave it so; the bridge then takes it
    out of the pending ones. -/
theorem settled_affirmed {out : Home H W → Home H W → Prop} {call : Callee (Home H W)}
    (hkeeps : Keeps out (Settled K)) (hcall : Within out call) {s s' : Home H W} {sender : Address}
    {d : Deposit} (hval : s.validators.isValidator sender = true)
    (h : Affirmed K V call s sender d s') : Settled K s s' := by
  cases h with
  | recorded _ h =>
      obtain ⟨_, _, _, rfl⟩ := onFailedAffirmation_cases h
      exact ⟨rfl, fun P hP => hP.congr rfl rfl (fun _ => rfl) rfl (fun _ _ _ hm => hm) fun _ _ _ hm => hm,
        Frozen.of_eq rfl rfl⟩
  | signed _ hunsigned hopen _ =>
      exact ⟨rfl, fun P hP => hP.affirm hval hunsigned hopen, affirm_frozen hopen⟩
  | @settled s₂ _ hunsigned hopen henough h =>
      have hcalls : Settled K ((s.affirm K sender d).markProcessed K d) s₂ :=
        onExecuteAffirmation_keeps hkeeps hcall h
      -- the callees cannot touch the word of `d`: its bit is up before the first of them runs
      have hword : s₂.numAffirmationsSigned (depositHash K d) =
          markAsProcessed (s.numAffirmationsSigned (depositHash K d) + 1) := by
        rw [← affirm_markProcessed_word s sender d]
        apply (hcalls.frozen d _).1
        rw [affirm_markProcessed_word]
        exact isAlreadyProcessed_markAsProcessed _
      refine ⟨hcalls.validators, ?_, ?_⟩
      · intro P hP
        obtain ⟨_, hnat, _⟩ := signedCount_succ hopen (hP.count_lt d)
        have hpending : Threshold K (insert d P) s₂ :=
          hcalls.threshold _ (hP.pending hval hunsigned hopen)
        refine hpending.complete ?_ ?_
        · -- a deposit already pending has its bit up, and `d` was open
          intro hd
          have hraised := hP.once.raised d hd
          rw [hopen] at hraised
          exact absurd hraised (by decide)
        · rw [hcalls.validators, hword, signedCount_markAsProcessed, ← hnat]
          exact BitVec.le_def.mp henough
      · exact (affirm_markProcessed_frozen hopen).trans (hcalls.frozen.trans (Frozen.of_eq rfl rfl))

omit [DecidableEq H] in
/-- A fix leaves the affirmations alone. -/
theorem settled_fixed {s s' : Home H W} {sender : Address} {t : Bytes32} {unlock : Bool}
    (h : fixAssetsAboveLimits s sender t unlock = some s') : Settled K s s' := by
  obtain ⟨_, _, _, rfl⟩ := fixAssetsAboveLimits_cases h
  refine ⟨rfl, fun P hP => hP.congr rfl rfl (fun _ => rfl) rfl ?_ ?_, Frozen.of_eq rfl rfl⟩
  · intro a d v hm
    rcases List.mem_cons.mp hm with he | hold
    · exact absurd he (by simp)
    · exact hold
  · intro d w v hm
    rcases List.mem_cons.mp hm with he | hold
    · exact absurd he (by simp)
    · exact hold

/-- **Every call of the bridge**, however deep its callbacks. -/
theorem keptByCalls_settled {allowed : Home H W → BridgeTx → Prop} :
    KeptByCalls K ecrecover V allowed (Settled K) where
  refl := Settled.refl K
  trans _ _ _ := Settled.trans
  same _ _ hq := Settled.of_same hq.sameDeposits
  submitted _ _ _ _ _ h := Settled.of_same (submitSignature_sameDeposits h)
  affirmed _ _ hkeeps hcall _ _ _ _ _ hval h := settled_affirmed hkeeps hcall hval h
  fixed _ _ _ _ _ _ h := settled_fixed h

end Calls

/-! ## Runs -/

section Runs

variable [DecidableEq H] {K : CollisionFree H} {ecrecover : Ecrecover H} {V : HomeVariant}
  {allowed : Home H W → BridgeTx → Prop}

/-- One step of the chain keeps the invariant and every processed deposit. -/
theorem step_threshold {s s' : Home H W} (h : StepWhen K ecrecover V allowed s s') :
    (Threshold K ∅ s → Threshold K ∅ s') ∧ Frozen K s s' := by
  cases h with
  | bridge n h =>
      have hcall := call_keeps keptByCalls_settled n s s' h
      exact ⟨hcall.threshold ∅, hcall.frozen⟩
  | validators _ => exact ⟨fun hP => hP.of_bridge rfl, Frozen.of_eq rfl rfl⟩
  | tick now txHash _ => exact ⟨fun hP => hP.of_bridge rfl, Frozen.of_eq rfl rfl⟩
  | elsewhere h =>
      have hsame := Settled.of_same (K := K) (elsewhere_quiet h).sameDeposits
      exact ⟨hsame.threshold ∅, hsame.frozen⟩

theorem run_threshold {s₀ s : Home H W} (hfresh : Fresh s₀) (h : RunWhen K ecrecover V allowed s₀ s) :
    Threshold K ∅ s :=
  Calls.steps_invariant (P := Threshold K ∅) (fun _ _ hP hstep => (step_threshold hstep).1 hP) h
    (threshold_fresh hfresh)

theorem run_frozen {s s' : Home H W} (h : RunWhen K ecrecover V allowed s s') : Frozen K s s' :=
  Calls.steps_rel (Frozen.refl K) (fun _ _ _ => Frozen.trans) (fun _ _ hstep => (step_threshold hstep).2) h

omit [DecidableEq H] in
/-- The signers of a deposit are the addresses whose flag is up. -/
theorem Threshold.ncard_signers {P : Finset Deposit} {s : Home H W} (h : Threshold K P s) (d : Deposit) :
    Set.ncard {a | s.affirmationsSigned (hashSender K a (depositHash K d)) = true} =
      (signersOf d s.bridge.trail).length := by
  have hset : {a | s.affirmationsSigned (hashSender K a (depositHash K d)) = true} =
      ((signersOf d s.bridge.trail).toFinset : Set Address) := by
    ext a
    rw [Set.mem_ofPred_eq, h.flag d a, Finset.mem_coe, List.mem_toFinset]
  rw [hset, Set.ncard_coe_finset, List.toFinset_card_of_nodup (h.distinct d)]

/-- **Home affirmation threshold safety.** In every state between transactions of every run, for every
    deposit: the counter counts the distinct signers, each a validator when it signed; the processed bit
    says whether the deposit was settled; it is settled at most once, with enough signatures at that
    moment; and once it is processed neither its word nor its flags change any more. -/
theorem affirmation_threshold_safety {s₀ s : Home H W} (hfresh : Fresh s₀) (hrun : Run K ecrecover V s₀ s)
    (d : Deposit) :
    (s.numAffirmationsSigned (depositHash K d)).toNat % 2 ^ 255 =
      Set.ncard {a | s.affirmationsSigned (hashSender K a (depositHash K d)) = true} ∧
    (∀ a, s.affirmationsSigned (hashSender K a (depositHash K d)) = true →
      ∃ v, Mark.signed a d v ∈ s.bridge.trail ∧ v.isValidator a = true) ∧
    ((s.numAffirmationsSigned (depositHash K d)).msb = true ↔
      ∃ w v, Mark.executed d w v ∈ s.bridge.trail) ∧
    (executedDeposits s.bridge.trail).Nodup ∧
    (∀ w v, Mark.executed d w v ∈ s.bridge.trail → v.requiredSignatures.toNat ≤ w.toNat % 2 ^ 255) ∧
    ((s.numAffirmationsSigned (depositHash K d)).msb = true → ∀ s', Run K ecrecover V s s' →
      s'.numAffirmationsSigned (depositHash K d) = s.numAffirmationsSigned (depositHash K d) ∧
      ∀ a, s'.affirmationsSigned (hashSender K a (depositHash K d)) =
        s.affirmationsSigned (hashSender K a (depositHash K d))) := by
  have hinv := run_threshold hfresh hrun
  refine ⟨?_, ?_, ?_, hinv.once.nodup, fun w v hm => hinv.enough d w v hm,
    fun hmsb s' hrun' => run_frozen hrun' d ((isAlreadyProcessed_iff _).mpr hmsb)⟩
  · rw [hinv.ncard_signers d]
    exact hinv.count d
  · intro a ha
    obtain ⟨v, hm⟩ := mem_signersOf.mp ((hinv.flag d a).mp ha)
    exact ⟨v, hm, hinv.validator a d v hm⟩
  · rw [← isAlreadyProcessed_iff, ← mem_executedDeposits]
    exact hinv.once.mem_iff.symm

/-- Two validators affirm the deposit of 100 for recipient 33: it is settled with both signatures. -/
theorem affirmation_threshold_safety_two_signers :
    ∃ s : Home (List Byte) Unit, Run serialHash noSigner .ercToErcWithFee (sampleHome ()) s ∧
      executedDeposits s.bridge.trail = [(33, 100, 77)] ∧
      (s.numAffirmationsSigned (depositHash serialHash (33, 100, 77))).toNat % 2 ^ 255 =
        Set.ncard {a | s.affirmationsSigned
          (hashSender serialHash a (depositHash serialHash (33, 100, 77))) = true} := by
  have heval : (do
      let v ← BridgeValidators.blank.initializeWith 2 [1, 2] 9
      let s ← exec serialHash noSigner .ercToErcWithFee obliging { sampleHome () with validators := v }
        (.executeAffirmation 1 33 100 77)
      let s ← exec serialHash noSigner .ercToErcWithFee obliging s (.executeAffirmation 2 33 100 77)
      pure (executedDeposits s.bridge.trail)) = some [(33, 100, 77)] := by
    decide +kernel
  simp only [Option.bind_eq_bind, Option.bind_eq_some_iff, Option.pure_def, Option.some.injEq] at heval
  obtain ⟨v, hv, s₁, h₁, s₂, h₂, he⟩ := heval
  have hrun : Run serialHash noSigner .ercToErcWithFee (sampleHome ()) s₂ :=
    ((Relation.ReflTransGen.single (.validators ⟨.initializeWith 2 [1, 2] 9, hv⟩)).tail
      (step_of_exec trivial obliging_within h₁)).tail (step_of_exec trivial obliging_within h₂)
  exact ⟨s₂, hrun, he, (affirmation_threshold_safety (deploy_fresh ..) hrun (33, 100, 77)).1⟩

end Runs
end Home
end ThunderBridge
