import ThunderBridge.Contracts.HomeBridge.Threshold

/-!
# `HomeBridge.Collection` — collected signatures fill numbered slots

`submitSignature` counts the signatures on a message and stores the `i`-th one in slot `i`. `Slots` ties
the three ledgers of a digest to one list of signers, in slot order: the counter is its length, the flags
are up for its members, slot `i` recovers to its `i`-th member, and the stored message is the one that
hashes to the digest. The duplicate check is skipped for the first signature only, where the list is empty.

`Collecting` adds the announcements: a digest is announced once, when its processed bit goes up, with a
count no larger than the number of slots. From then on nothing of the digest changes (`Sealed`).
-/

namespace ThunderBridge
namespace Home

variable {H W : Type}

/-! ## The invariant -/

theorem signIdx_injective (K : CollisionFree H) {h h' : H} {i i' : UInt256}
    (he : signIdx K h i = signIdx K h' i') : h = h' ∧ i = i' := by
  obtain ⟨hh, hi⟩ := List.append_inj (K.injective he) rfl
  refine ⟨by simpa using hh, ?_⟩
  exact packWord_injective (Chunk.raw_injective hi)

/-- The ledgers of the digest `h` say that `signers` signed its message, in this order. -/
structure Slots (K : CollisionFree H) (ecrecover : Ecrecover H) (s : Home H W) (h : H)
    (signers : List Address) : Prop where
  distinct : signers.Nodup
  trusted : ∀ a ∈ signers, s.validators.isValidator a = true
  count : signedCount (s.numMessagesSigned h) = signers.length
  flag : ∀ a, s.messagesSigned (hashSender K a h) = true ↔ a ∈ signers
  slot : ∀ i a, signers[i]? = some a → Message.recoverAddressFromSignedMessage K ecrecover
    (s.signature K h (BitVec.ofNat 256 i)) (s.message h) = some a
  hashed : signers ≠ [] → (s.message h).length = 104 ∧ messageHash K (s.message h) = h

/-- A digest that was announced keeps its message and its signatures. -/
def Sealed (K : CollisionFree H) (s s' : Home H W) : Prop :=
  ∀ h, isAlreadyProcessed (s.numMessagesSigned h) = true →
    s'.numMessagesSigned h = s.numMessagesSigned h ∧ s'.message h = s.message h ∧
      ∀ i, s'.signature K h i = s.signature K h i

theorem Sealed.refl (K : CollisionFree H) (s : Home H W) : Sealed K s s :=
  fun _ _ => ⟨rfl, rfl, fun _ => rfl⟩

theorem Sealed.trans {K : CollisionFree H} {s₁ s₂ s₃ : Home H W} (h : Sealed K s₁ s₂)
    (h' : Sealed K s₂ s₃) : Sealed K s₁ s₃ := by
  intro x hx
  obtain ⟨hnum, hmsg, hsig⟩ := h x hx
  have hx' : isAlreadyProcessed (s₂.numMessagesSigned x) = true := by rw [hnum]; exact hx
  obtain ⟨hnum', hmsg', hsig'⟩ := h' x hx'
  exact ⟨hnum'.trans hnum, hmsg'.trans hmsg, fun i => (hsig' i).trans (hsig i)⟩

/-! ## Steps that collect nothing -/

/-- The message half of the ledger and the announcements are the same, and no validator is gone. -/
structure SameMessages (s s' : Home H W) : Prop where
  validators : ∀ a, s.validators.isValidator a = true → s'.validators.isValidator a = true
  numMessagesSigned : s'.bridge.ledger.numMessagesSigned = s.bridge.ledger.numMessagesSigned
  messagesSigned : s'.bridge.ledger.messagesSigned = s.bridge.ledger.messagesSigned
  messages : s'.bridge.ledger.messages = s.bridge.ledger.messages
  signatures : s'.bridge.ledger.signatures = s.bridge.ledger.signatures
  collections : s'.collections = s.collections

section Same

variable {K : CollisionFree H} {ecrecover : Ecrecover H} {s s' : Home H W}

theorem Quiet.sameMessages (h : Quiet s s') : SameMessages s s' where
  validators a ha := by rw [h.validators]; exact ha
  numMessagesSigned := by rw [h.ledger]
  messagesSigned := by rw [h.ledger]
  messages := by rw [h.ledger]
  signatures := by rw [h.ledger]
  collections := h.collections

theorem SameMessages.sealed (h : SameMessages s s') : Sealed K s s' := by
  intro x _
  exact ⟨congrFun h.numMessagesSigned x, congrFun h.messages x, fun i => congrFun h.signatures _⟩

end Same

variable [DecidableEq H]

/-- Every digest has its list of signers, and the announcements match the processed bits. -/
structure Collecting (K : CollisionFree H) (ecrecover : Ecrecover H) (s : Home H W) : Prop where
  slots : ∀ h, ∃ signers, Slots K ecrecover s h signers
  once : Once ∅ (fun h => isAlreadyProcessed (s.numMessagesSigned h)) (s.collections.map Prod.fst)
  enough : ∀ c ∈ s.collections, c.2.toNat ≤ signedCount (s.numMessagesSigned c.1)
  signed : ∀ c ∈ s.collections, 0 < signedCount (s.numMessagesSigned c.1)

variable {K : CollisionFree H} {ecrecover : Ecrecover H} {s s' : Home H W}

theorem Collecting.same (hs : Collecting K ecrecover s) (h : SameMessages s s') :
    Collecting K ecrecover s' := by
  have hnum : s'.numMessagesSigned = s.numMessagesSigned := h.numMessagesSigned
  have hflag : s'.messagesSigned = s.messagesSigned := h.messagesSigned
  have hmsg : s'.message = s.message := h.messages
  have hsig : s'.signature K = s.signature K := by
    funext x i
    exact congrFun h.signatures _
  refine ⟨?_, ?_, ?_, ?_⟩
  · intro x
    obtain ⟨signers, hx⟩ := hs.slots x
    refine ⟨signers, hx.distinct, fun a ha => h.validators a (hx.trusted a ha), ?_, ?_, ?_, ?_⟩
    · rw [hnum]; exact hx.count
    · rw [hflag]; exact hx.flag
    · rw [hsig, hmsg]; exact hx.slot
    · rw [hmsg]; exact hx.hashed
  · rw [hnum, h.collections]; exact hs.once
  · rw [hnum, h.collections]; exact hs.enough
  · rw [hnum, h.collections]; exact hs.signed

/-! ## One signature -/

section Submit

variable {sender : Address} {sig m : Bytes}

/-- The state after the signature of `sender` on `m` was stored and counted. -/
def collect (K : CollisionFree H) (s : Home H W) (sender : Address) (sig m : Bytes) : Home H W :=
  ((((if 1 < s.numMessagesSigned (messageHash K m) + 1 then s
      else s.setMessages (messageHash K m) m).setMessagesSigned (hashSender K sender (messageHash K m))
        true).setSignatures (signIdx K (messageHash K m)
          (s.numMessagesSigned (messageHash K m) + 1 - 1)) sig).setNumMessagesSigned (messageHash K m)
            (s.numMessagesSigned (messageHash K m) + 1)).emit (.SignedForUserRequest sender (messageHash K m))

/-- The state after the last signature: the digest processed and announced with `n`. -/
def announce (s : Home H W) (sender : Address) (h : H) (word n : UInt256) : Home H W :=
  (s.setNumMessagesSigned h (markAsProcessed word)).emit (.CollectedSignatures sender h n)

/-- **What one `submitSignature` can do.** -/
theorem submitSignature_cases (h : submitSignature K ecrecover s sender sig m = some s') :
    s.validators.isValidator sender = true ∧ m.length = 104 ∧
    Message.recoverAddressFromSignedMessage K ecrecover sig m = some sender ∧
    isAlreadyProcessed (s.numMessagesSigned (messageHash K m)) = false ∧
    (1 < s.numMessagesSigned (messageHash K m) + 1 →
      s.messagesSigned (hashSender K sender (messageHash K m)) = false) ∧
    (¬ s.validators.requiredSignatures ≤ s.numMessagesSigned (messageHash K m) + 1 ∧
        s' = s.collect K sender sig m ∨
      s.validators.requiredSignatures ≤ s.numMessagesSigned (messageHash K m) + 1 ∧
      s' = (s.collect K sender sig m).announce sender (messageHash K m)
        (s.numMessagesSigned (messageHash K m) + 1) s.validators.requiredSignatures) := by
  simp only [submitSignature, Option.bind_eq_bind, Option.bind_eq_some_iff, require_eq_some,
    exists_const] at h
  obtain ⟨hval, hvalid, signer, hrec, rfl, hopen, hdup, h⟩ := h
  refine ⟨hval, by simpa [Message.isMessageValid, Message.requiredMessageLength] using hvalid, hrec,
    hopen, hdup, ?_⟩
  -- the message is stored with the first signature only
  generalize hs₁ : (if 1 < s.numMessagesSigned (messageHash K m) + 1 then s
      else s.setMessages (messageHash K m) m) = s₁ at h
  have hvalidators : s₁.validators = s.validators := by
    rw [← hs₁]
    split <;> rfl
  rw [collect, hs₁, ← hvalidators]
  split at h
  · rename_i henough
    exact .inr ⟨henough, (Option.some.inj h).symm⟩
  · rename_i hfew
    exact .inl ⟨hfew, (Option.some.inj h).symm⟩

/-! What it leaves in each ledger. -/

theorem collect_numMessagesSigned (h : H) :
    (s.collect K sender sig m).numMessagesSigned h =
      if h = messageHash K m then s.numMessagesSigned (messageHash K m) + 1 else s.numMessagesSigned h := by
  have hupdate : (s.collect K sender sig m).numMessagesSigned h = Function.update
      s.numMessagesSigned (messageHash K m) (s.numMessagesSigned (messageHash K m) + 1) h := by
    unfold collect
    split <;> rfl
  rw [hupdate, Function.update_apply]

theorem collect_messagesSigned (a : Address) (h : H) :
    (s.collect K sender sig m).messagesSigned (hashSender K a h) =
      if a = sender ∧ h = messageHash K m then true else s.messagesSigned (hashSender K a h) := by
  have hupdate : (s.collect K sender sig m).messagesSigned (hashSender K a h) = Function.update
      s.messagesSigned (hashSender K sender (messageHash K m)) true (hashSender K a h) := by
    unfold collect
    split <;> rfl
  have hkey : hashSender K a h = hashSender K sender (messageHash K m) ↔
      a = sender ∧ h = messageHash K m := by
    constructor
    · exact hashSender_injective K
    · rintro ⟨rfl, rfl⟩
      rfl
  rw [hupdate, Function.update_apply]
  simp only [hkey]

theorem collect_message (h : H) :
    (s.collect K sender sig m).message h =
      if h = messageHash K m ∧ ¬ 1 < s.numMessagesSigned (messageHash K m) + 1 then m else s.message h := by
  unfold collect
  by_cases hfirst : 1 < s.numMessagesSigned (messageHash K m) + 1
  · rw [if_pos hfirst, if_neg fun hc => hc.2 hfirst]
    rfl
  · rw [if_neg hfirst]
    show Function.update s.message (messageHash K m) m h = _
    rw [Function.update_apply]
    simp only [hfirst, not_false_eq_true, and_true]

theorem collect_signature (h : H) (i : UInt256) :
    (s.collect K sender sig m).signature K h i =
      if h = messageHash K m ∧ i = s.numMessagesSigned (messageHash K m) then sig
      else s.signature K h i := by
  have hupdate : (s.collect K sender sig m).signature K h i = Function.update s.bridge.ledger.signatures
      (signIdx K (messageHash K m) (s.numMessagesSigned (messageHash K m) + 1 - 1)) sig
      (signIdx K h i) := by
    unfold collect
    split <;> rfl
  have hkey : signIdx K h i = signIdx K (messageHash K m) (s.numMessagesSigned (messageHash K m)) ↔
      h = messageHash K m ∧ i = s.numMessagesSigned (messageHash K m) := by
    constructor
    · exact signIdx_injective K
    · rintro ⟨rfl, rfl⟩
      rfl
  rw [hupdate, BitVec.add_sub_cancel, Function.update_apply]
  simp only [hkey]
  rfl

theorem collect_validators : (s.collect K sender sig m).validators = s.validators := by
  unfold collect
  split <;> rfl

theorem collect_collections : (s.collect K sender sig m).collections = s.collections := by
  unfold collect
  rw [collections_emit]
  split <;> rfl

theorem collect_log : (s.collect K sender sig m).bridge.log =
    (s.txHash, .SignedForUserRequest sender (messageHash K m)) :: s.bridge.log := by
  unfold collect
  split <;> rfl

theorem announce_numMessagesSigned (h h' : H) (word n : UInt256) :
    (s.announce sender h word n).numMessagesSigned h' =
      if h' = h then markAsProcessed word else s.numMessagesSigned h' :=
  Function.update_apply _ _ _ _

theorem announce_messagesSigned (h h' : H) (word n : UInt256) :
    (s.announce sender h word n).messagesSigned h' = s.messagesSigned h' := rfl

theorem announce_validators (h : H) (word n : UInt256) :
    (s.announce sender h word n).validators = s.validators := rfl

theorem announce_collections (h : H) (word n : UInt256) :
    (s.announce sender h word n).collections = (h, n) :: s.collections := by
  unfold announce
  rw [collections_emit]
  rfl

/-! What it does to the lists of signers. -/

omit [DecidableEq H] in
/-- There are fewer signers than the counter can count. -/
theorem Slots.count_lt {h : H} {signers : List Address} (hs : Slots K ecrecover s h signers) :
    signedCount (s.numMessagesSigned h) + 1 < 2 ^ 255 := by
  have hle := length_le_of_nodup hs.distinct
  rw [hs.count]
  omega

omit [DecidableEq H] in
/-- Nobody signed yet exactly when the signature counted now is the first. -/
theorem Slots.first_iff {h : H} {signers : List Address} (hs : Slots K ecrecover s h signers)
    (hopen : isAlreadyProcessed (s.numMessagesSigned h) = false) :
    ¬ 1 < s.numMessagesSigned h + 1 ↔ signers = [] := by
  obtain ⟨_, hnat, hcount⟩ := signedCount_succ hopen hs.count_lt
  rw [BitVec.lt_def, hnat, hcount, hs.count, ← List.length_eq_zero_iff]
  have hone : (1 : UInt256).toNat = 1 := rfl
  omega

/-- Another digest keeps its list. -/
theorem Slots.collect_other {h : H} {signers : List Address} (hs : Slots K ecrecover s h signers)
    (hne : h ≠ messageHash K m) : Slots K ecrecover (s.collect K sender sig m) h signers := by
  refine ⟨hs.distinct, ?_, ?_, ?_, ?_, ?_⟩
  · rw [collect_validators]
    exact hs.trusted
  · rw [collect_numMessagesSigned, if_neg hne]
    exact hs.count
  · intro a
    rw [collect_messagesSigned, if_neg fun hc => hne hc.2]
    exact hs.flag a
  · intro i a ha
    rw [collect_signature, if_neg fun hc => hne hc.1, collect_message, if_neg fun hc => hne hc.1]
    exact hs.slot i a ha
  · intro hnil
    rw [collect_message, if_neg fun hc => hne hc.1]
    exact hs.hashed hnil

omit [DecidableEq H] in
/-- While the digest is open, its counter is the number of its signers. -/
theorem Slots.word {h : H} {signers : List Address} (hs : Slots K ecrecover s h signers)
    (hopen : isAlreadyProcessed (s.numMessagesSigned h) = false) :
    s.numMessagesSigned h = BitVec.ofNat 256 signers.length := by
  have hmsb : (s.numMessagesSigned h).msb = false := by
    rw [Bool.eq_false_iff, Ne, ← isAlreadyProcessed_iff, hopen]
    exact Bool.false_ne_true
  rw [← hs.count, signedCount, ← PackedCounter.toNat_eq_count hmsb, BitVec.ofNat_toNat]
  exact (BitVec.setWidth_eq _).symm

omit [DecidableEq H] in
/-- The duplicate check is skipped only when there is nothing to compare with. -/
theorem Slots.not_mem {h : H} {signers : List Address} (hs : Slots K ecrecover s h signers)
    (hopen : isAlreadyProcessed (s.numMessagesSigned h) = false)
    (hdup : 1 < s.numMessagesSigned h + 1 → s.messagesSigned (hashSender K sender h) = false) :
    sender ∉ signers := by
  intro hmem
  have hlater : 1 < s.numMessagesSigned h + 1 := by
    by_contra hnot
    rw [(hs.first_iff hopen).mp hnot] at hmem
    exact List.not_mem_nil hmem
  have hflag := hdup hlater
  rw [(hs.flag sender).mpr hmem] at hflag
  exact absurd hflag (by decide)

/-- **The signed digest** gets its new signer at the end of the list, in the next free slot. -/
theorem Slots.collect {signers : List Address} (hs : Slots K ecrecover s (messageHash K m) signers)
    (hval : s.validators.isValidator sender = true) (hlen : m.length = 104)
    (hrec : Message.recoverAddressFromSignedMessage K ecrecover sig m = some sender)
    (hopen : isAlreadyProcessed (s.numMessagesSigned (messageHash K m)) = false)
    (hdup : 1 < s.numMessagesSigned (messageHash K m) + 1 →
      s.messagesSigned (hashSender K sender (messageHash K m)) = false) :
    Slots K ecrecover (s.collect K sender sig m) (messageHash K m) (signers ++ [sender]) := by
  have hfirst := hs.first_iff hopen
  obtain ⟨hopen', hnat, hcount⟩ := signedCount_succ hopen hs.count_lt
  have hnew : sender ∉ signers := hs.not_mem hopen hdup
  -- the digest determines the message, so later signatures are on the stored one
  have hstored : signers ≠ [] → s.message (messageHash K m) = m :=
    fun hnil => Chunk.raw_injective (K.injective (hs.hashed hnil).2)
  have hmessage : (s.collect K sender sig m).message (messageHash K m) = m := by
    rw [collect_message]
    by_cases hnil : signers = []
    · rw [if_pos ⟨rfl, hfirst.mpr hnil⟩]
    · rw [if_neg fun hc => hnil (hfirst.mp hc.2)]
      exact hstored hnil
  have hword := hs.word hopen
  have hbound := length_le_of_nodup hs.distinct
  refine ⟨?_, ?_, ?_, ?_, ?_, ?_⟩
  · rw [List.nodup_append]
    refine ⟨hs.distinct, List.nodup_singleton _, ?_⟩
    intro a ha b hb hab
    rw [List.mem_singleton.mp hb] at hab
    exact hnew (hab ▸ ha)
  · intro a ha
    rw [collect_validators]
    rcases List.mem_append.mp ha with hold | hnow
    · exact hs.trusted a hold
    · rw [List.mem_singleton.mp hnow]
      exact hval
  · rw [collect_numMessagesSigned, if_pos rfl, hcount, hs.count, List.length_append,
      List.length_singleton]
  · intro a
    rw [collect_messagesSigned, List.mem_append, List.mem_singleton]
    by_cases ha : a = sender
    · simp [ha]
    · rw [if_neg fun hc => ha hc.1, hs.flag a]
      simp [ha]
  · intro i a ha
    rw [hmessage, collect_signature]
    rcases Nat.lt_trichotomy i signers.length with hi | hi | hi
    · -- a slot filled before
      have hold : signers[i]? = some a := by rwa [List.getElem?_append_left hi] at ha
      have hne : BitVec.ofNat 256 i ≠ s.numMessagesSigned (messageHash K m) := by
        rw [hword]
        intro he
        have hi' := congrArg BitVec.toNat he
        rw [BitVec.toNat_ofNat, BitVec.toNat_ofNat, Nat.mod_eq_of_lt (by omega),
          Nat.mod_eq_of_lt (by omega)] at hi'
        omega
      have hnil : signers ≠ [] := by
        rintro rfl
        exact Nat.not_lt_zero _ hi
      have hslot := hs.slot i a hold
      rw [hstored hnil] at hslot
      rw [if_neg fun hc => hne hc.2]
      exact hslot
    · -- the slot filled now
      subst hi
      rw [List.getElem?_append_right (Nat.le_refl _), Nat.sub_self] at ha
      rw [if_pos ⟨rfl, hword.symm⟩, hrec]
      simpa using ha
    · rw [List.getElem?_eq_none (by rw [List.length_append, List.length_singleton]; omega)] at ha
      exact absurd ha (by simp)
  · intro _
    rw [hmessage]
    exact ⟨hlen, rfl⟩

/-- Announcing a digest leaves every list as it is. -/
theorem Slots.announce {h : H} {signers : List Address} (hs : Slots K ecrecover s h signers) (h' : H)
    (n : UInt256) :
    Slots K ecrecover (s.announce sender h' (s.numMessagesSigned h') n) h signers := by
  refine ⟨hs.distinct, hs.trusted, ?_, hs.flag, hs.slot, hs.hashed⟩
  rw [announce_numMessagesSigned]
  by_cases he : h = h'
  · rw [if_pos he, signedCount_markAsProcessed, ← he]
    exact hs.count
  · rw [if_neg he]
    exact hs.count

/-! ## What a call keeps -/

/-- What a call of the bridge keeps: the validators, the invariant, and every announced digest. -/
structure Gathers (K : CollisionFree H) (ecrecover : Ecrecover H) (s s' : Home H W) : Prop where
  validators : s'.validators = s.validators
  collecting : Collecting K ecrecover s → Collecting K ecrecover s'
  frozen : Collecting K ecrecover s → Sealed K s s'

theorem Gathers.trans {s₁ s₂ s₃ : Home H W} (h : Gathers K ecrecover s₁ s₂)
    (h' : Gathers K ecrecover s₂ s₃) : Gathers K ecrecover s₁ s₃ :=
  ⟨h'.validators.trans h.validators, fun hs => h'.collecting (h.collecting hs),
    fun hs => (h.frozen hs).trans (h'.frozen (h.collecting hs))⟩

theorem Gathers.same (hv : s'.validators = s.validators) (h : SameMessages s s') :
    Gathers K ecrecover s s' := ⟨hv, fun hs => hs.same h, fun _ => h.sealed⟩

/-- The digest that is signed now is not announced yet; another one is not touched. -/
theorem collect_sealed (hopen : isAlreadyProcessed (s.numMessagesSigned (messageHash K m)) = false) :
    Sealed K s (s.collect K sender sig m) := by
  intro h hh
  have hne : h ≠ messageHash K m := by
    rintro rfl
    rw [hopen] at hh
    exact absurd hh (by decide)
  refine ⟨?_, ?_, ?_⟩
  · rw [collect_numMessagesSigned, if_neg hne]
  · rw [collect_message, if_neg fun hc => hne hc.1]
  · intro i
    rw [collect_signature, if_neg fun hc => hne hc.1]

theorem announce_sealed {h : H} {word n : UInt256}
    (hopen : isAlreadyProcessed (s.numMessagesSigned h) = false) :
    Sealed K s (s.announce sender h word n) := by
  intro h' hh'
  have hne : h' ≠ h := by
    rintro rfl
    rw [hopen] at hh'
    exact absurd hh' (by decide)
  refine ⟨?_, rfl, fun i => rfl⟩
  rw [announce_numMessagesSigned, if_neg hne]

/-- Storing and counting one signature. -/
theorem Collecting.collect (hs : Collecting K ecrecover s) (hval : s.validators.isValidator sender = true)
    (hlen : m.length = 104) (hrec : Message.recoverAddressFromSignedMessage K ecrecover sig m = some sender)
    (hopen : isAlreadyProcessed (s.numMessagesSigned (messageHash K m)) = false)
    (hdup : 1 < s.numMessagesSigned (messageHash K m) + 1 →
      s.messagesSigned (hashSender K sender (messageHash K m)) = false) :
    Collecting K ecrecover (s.collect K sender sig m) := by
  obtain ⟨signers, hsigners⟩ := hs.slots (messageHash K m)
  obtain ⟨hopen', _, hcount⟩ := signedCount_succ hopen hsigners.count_lt
  have hgrows : ∀ h, signedCount (s.numMessagesSigned h) ≤
      signedCount ((s.collect K sender sig m).numMessagesSigned h) := by
    intro h
    rw [collect_numMessagesSigned]
    by_cases hne : h = messageHash K m
    · rw [if_pos hne, hcount, hne]
      exact Nat.le_succ _
    · rw [if_neg hne]
  refine ⟨?_, ?_, ?_, ?_⟩
  · intro h
    by_cases hne : h = messageHash K m
    · subst hne
      exact ⟨_, hsigners.collect hval hlen hrec hopen hdup⟩
    · obtain ⟨others, hothers⟩ := hs.slots h
      exact ⟨others, hothers.collect_other hne⟩
  · rw [collect_collections]
    refine hs.once.congr_flag ?_
    intro h
    rw [collect_numMessagesSigned]
    by_cases hne : h = messageHash K m
    · rw [if_pos hne, hne, hopen, hopen']
    · rw [if_neg hne]
  · intro c hc
    rw [collect_collections] at hc
    exact (hs.enough c hc).trans (hgrows c.1)
  · intro c hc
    rw [collect_collections] at hc
    exact (hs.signed c hc).trans_le (hgrows c.1)

/-- Announcing a digest with a count that its signatures cover. -/
theorem Collecting.announce (hs : Collecting K ecrecover s) {h : H} {n : UInt256}
    (hopen : isAlreadyProcessed (s.numMessagesSigned h) = false)
    (hn : n.toNat ≤ signedCount (s.numMessagesSigned h)) (hpos : 0 < signedCount (s.numMessagesSigned h)) :
    Collecting K ecrecover (s.announce sender h (s.numMessagesSigned h) n) := by
  have hcount : ∀ h', signedCount ((s.announce sender h (s.numMessagesSigned h) n).numMessagesSigned h') =
      signedCount (s.numMessagesSigned h') := by
    intro h'
    rw [announce_numMessagesSigned]
    by_cases he : h' = h
    · rw [if_pos he, signedCount_markAsProcessed, he]
    · rw [if_neg he]
  refine ⟨?_, ?_, ?_, ?_⟩
  · intro h'
    obtain ⟨signers, hsigners⟩ := hs.slots h'
    exact ⟨signers, hsigners.announce h n⟩
  · -- the bit goes up and the event is emitted in one call, so nothing stays pending
    rw [announce_collections, List.map_cons]
    refine (hs.once.raise hopen ?_).settle (Finset.notMem_empty _)
    intro h'
    rw [announce_numMessagesSigned]
    by_cases he : h' = h
    · rw [if_pos he, if_pos he]
      exact isAlreadyProcessed_markAsProcessed _
    · rw [if_neg he, if_neg he]
  · intro c hc
    rw [announce_collections] at hc
    rw [hcount]
    rcases List.mem_cons.mp hc with hnow | hold
    · rw [hnow]
      exact hn
    · exact hs.enough c hold
  · intro c hc
    rw [announce_collections] at hc
    rw [hcount]
    rcases List.mem_cons.mp hc with hnow | hold
    · rw [hnow]
      exact hpos
    · exact hs.signed c hold

/-- **One `submitSignature`.** -/
theorem gathers_submitted (h : submitSignature K ecrecover s sender sig m = some s') :
    Gathers K ecrecover s s' := by
  obtain ⟨hval, hlen, hrec, hopen, hdup, hlast⟩ := submitSignature_cases h
  rcases hlast with ⟨_, rfl⟩ | ⟨henough, rfl⟩
  · exact ⟨collect_validators, fun hs => hs.collect hval hlen hrec hopen hdup,
      fun _ => collect_sealed hopen⟩
  · -- the counter after this signature, before the processed bit goes up
    have hword : (s.collect K sender sig m).numMessagesSigned (messageHash K m) =
        s.numMessagesSigned (messageHash K m) + 1 := by rw [collect_numMessagesSigned, if_pos rfl]
    rw [← hword]
    have hcounted (hs : Collecting K ecrecover s) :
        isAlreadyProcessed ((s.collect K sender sig m).numMessagesSigned (messageHash K m)) = false ∧
        s.validators.requiredSignatures.toNat ≤
          signedCount ((s.collect K sender sig m).numMessagesSigned (messageHash K m)) ∧
        0 < signedCount ((s.collect K sender sig m).numMessagesSigned (messageHash K m)) := by
      obtain ⟨signers, hsigners⟩ := hs.slots (messageHash K m)
      obtain ⟨hopen', hnat, hcount⟩ := signedCount_succ hopen hsigners.count_lt
      rw [hword]
      refine ⟨hopen', ?_, ?_⟩
      · rw [← hnat]
        exact BitVec.le_def.mp henough
      · rw [hcount]
        exact Nat.succ_pos _
    refine ⟨?_, ?_, ?_⟩
    · rw [announce_validators, collect_validators]
    · intro hs
      obtain ⟨hopen', hn, hpos⟩ := hcounted hs
      exact (hs.collect hval hlen hrec hopen hdup).announce hopen' hn hpos
    · intro hs
      exact (collect_sealed hopen).trans (announce_sealed (hcounted hs).1)

end Submit

/-! ## The rest of the bridge -/

section Calls

variable {out : Home H W → Home H W → Prop} {call : Callee (Home H W)} {s s' : Home H W}

theorem affirm_sameMessages (K : CollisionFree H) (s : Home H W) (sender : Address) (d : Deposit) :
    SameMessages s (s.affirm K sender d) := by
  refine ⟨fun _ ha => ha, rfl, rfl, rfl, rfl, ?_⟩
  show ((s.setAffirmationsSigned _ _).setNumAffirmationsSigned _ _ |>.emit _).collections = _
  rw [collections_emit]
  rfl

omit [DecidableEq H] in
theorem complete_sameMessages (K : CollisionFree H) (s : Home H W) (d : Deposit) :
    SameMessages s (s.complete K d) := by
  refine ⟨fun _ ha => ha, rfl, rfl, rfl, rfl, ?_⟩
  unfold complete
  rw [collections_emit]
  rfl

omit [DecidableEq H] in
theorem onFailedAffirmation_sameMessages {recipient : Address} {value : UInt256} {t : Bytes32}
    (h : s.onFailedAffirmation recipient value t = some s') :
    s'.validators = s.validators ∧ SameMessages s s' := by
  obtain ⟨_, _, _, rfl⟩ := onFailedAffirmation_cases h
  refine ⟨rfl, fun _ ha => ha, rfl, rfl, rfl, rfl, ?_⟩
  rw [collections_emit]
  rfl

omit [DecidableEq H] in
theorem fixAssetsAboveLimits_sameMessages {sender : Address} {t : Bytes32} {unlock : Bool}
    (h : s.fixAssetsAboveLimits sender t unlock = some s') :
    s'.validators = s.validators ∧ SameMessages s s' := by
  obtain ⟨_, _, _, rfl⟩ := fixAssetsAboveLimits_cases h
  cases unlock
  all_goals exact ⟨rfl, fun _ ha => ha, rfl, rfl, rfl, rfl, rfl⟩

/-- **Every call of the bridge**, however deep its callbacks. -/
theorem keptByCalls_gathers {K : CollisionFree H} {ecrecover : Ecrecover H} {V : HomeVariant}
    {allowed : Home H W → BridgeTx → Prop} : KeptByCalls K ecrecover V allowed (Gathers K ecrecover) where
  refl s := ⟨rfl, fun hs => hs, fun _ => Sealed.refl K s⟩
  trans _ _ _ := Gathers.trans
  same _ _ hq := .same hq.validators hq.sameMessages
  submitted _ _ _ _ _ h := gathers_submitted h
  fixed _ _ _ _ _ _ h := .same (fixAssetsAboveLimits_sameMessages h).1 (fixAssetsAboveLimits_sameMessages h).2
  affirmed _ _ hkeeps hcall s _ sender d _ _ h := by
    have haffirm : Gathers K ecrecover s (s.affirm K sender d) := .same rfl (affirm_sameMessages K s sender d)
    cases h with
    | recorded _ h =>
        exact .same (onFailedAffirmation_sameMessages h).1 (onFailedAffirmation_sameMessages h).2
    | signed _ _ _ _ => exact haffirm
    | settled _ _ _ _ h =>
        have hmark : Gathers K ecrecover (s.affirm K sender d) ((s.affirm K sender d).markProcessed K d) :=
          .same rfl ⟨fun _ ha => ha, rfl, rfl, rfl, rfl, rfl⟩
        have hexec := onExecuteAffirmation_keeps hkeeps hcall h
        exact haffirm.trans (hmark.trans (hexec.trans (.same rfl (complete_sameMessages K _ d))))

end Calls

/-! ## Runs without removals -/

section Runs

variable {K : CollisionFree H} {ecrecover : Ecrecover H} {V : HomeVariant} {s₀ s s' : Home H W}

/-- A step of the chain that removes no validator. -/
def StepGrowing (K : CollisionFree H) (ecrecover : Ecrecover H) (V : HomeVariant) (s s' : Home H W) : Prop :=
  StepWhen K ecrecover V (fun _ _ => True) s s' ∧
    ∀ a, s.validators.isValidator a = true → s'.validators.isValidator a = true

theorem exec_validators {call : Callee (Home H W)} {tx : BridgeTx} (hcall : Within Elsewhere call)
    (h : exec K ecrecover V call s tx = some s') : s'.validators = s.validators := by
  have hkept : KeptByCalls K ecrecover V (fun (_ : Home H W) _ => True) (Gathers K ecrecover) :=
    keptByCalls_gathers
  have hkeeps : Gathers K ecrecover s s' := by
    refine invoke_keeps hkept ?_ ⟨call, tx, trivial, hcall, h⟩
    intro t t' he
    have hquiet := elsewhere_quiet he
    exact .same hquiet.validators hquiet.sameMessages
  exact hkeeps.validators

theorem growing_of_exec {call : Callee (Home H W)} {tx : BridgeTx} (hcall : Within Elsewhere call)
    (h : exec K ecrecover V call s tx = some s') : StepGrowing K ecrecover V s s' := by
  refine ⟨step_of_exec trivial hcall h, ?_⟩
  intro a ha
  rw [exec_validators hcall h]
  exact ha

omit [DecidableEq H] in
theorem not_processed_zero (hfresh : Fresh s) (h : H) :
    isAlreadyProcessed (s.numMessagesSigned h) = false := by
  have hzero : s.numMessagesSigned h = 0 := hfresh.numMessagesSigned h
  rw [hzero]
  decide

theorem collecting_fresh (hfresh : Fresh s) : Collecting K ecrecover s := by
  have hnone : s.collections = [] := by rw [collections, hfresh.log]; rfl
  refine ⟨fun h => ⟨[], List.nodup_nil, fun a ha => absurd ha List.not_mem_nil, ?_, ?_,
    fun i a ha => absurd ha (by simp), fun hnil => absurd rfl hnil⟩, ?_, ?_, ?_⟩
  · have hzero : s.numMessagesSigned h = 0 := hfresh.numMessagesSigned h
    rw [hzero]
    exact PackedCounter.count_zero
  · intro a
    have hflag : s.messagesSigned (hashSender K a h) = false := hfresh.messagesSigned _
    rw [hflag]
    simp
  · rw [hnone]
    exact Once.empty.congr_flag fun h => not_processed_zero hfresh h
  · rw [hnone]
    exact fun c hc => absurd hc List.not_mem_nil
  · rw [hnone]
    exact fun c hc => absurd hc List.not_mem_nil

theorem step_collecting (h : StepGrowing K ecrecover V s s') (hs : Collecting K ecrecover s) :
    Collecting K ecrecover s' ∧ Sealed K s s' := by
  obtain ⟨hstep, hgrow⟩ := h
  cases hstep with
  | bridge n h =>
      have hcall := call_keeps keptByCalls_gathers n s s' h
      exact ⟨hcall.collecting hs, hcall.frozen hs⟩
  | validators _ =>
      have hsame : SameMessages s { s with validators := _ } := ⟨hgrow, rfl, rfl, rfl, rfl, rfl⟩
      exact ⟨hs.same hsame, hsame.sealed⟩
  | tick now txHash _ =>
      have hsame : SameMessages s { s with now := now, txHash := txHash } := ⟨hgrow, rfl, rfl, rfl, rfl, rfl⟩
      exact ⟨hs.same hsame, hsame.sealed⟩
  | elsewhere h =>
      have hsame := (elsewhere_quiet h).sameMessages
      exact ⟨hs.same hsame, hsame.sealed⟩

theorem run_collecting (hfresh : Fresh s₀) (hrun : Relation.ReflTransGen (StepGrowing K ecrecover V) s₀ s) :
    Collecting K ecrecover s :=
  Calls.steps_invariant (P := Collecting K ecrecover) (fun _ _ hs hstep => (step_collecting hstep hs).1) hrun
    (collecting_fresh hfresh)

end Runs
end Home
end ThunderBridge
