import ThunderBridge.Contracts.ForeignBridge.State
import ThunderBridge.Contracts.HomeBridge.Genuine
import ThunderBridge.Contracts.HomeBridge.Inner
import ThunderBridge.Solvency.Crediting
import ThunderBridge.Solvency.HomeSupply

/-!
# `Solvency.Signing` — which withdrawals are collected

Every validator runs `processSignatureRequests` on every `UserRequestForSignature` of the home bridge: it signs
the message of the withdrawal, estimates the gas of `submitSignature`, and sends it; when the estimate fails because
the message is signed or processed already, the event is done. `Signing` is the home chain with what the
validators have sent and what they are done with.

**Nothing is left unexplained** (`processSignatureRequests_eq`): a submission with the validator's own signature
fails for these two reasons only, so a validator never throws on a request.

**Nothing is left out** (`collected_perm`): a validator that is done with a request has signed it or found it
processed, and neither is taken back. As long as the threshold is not lowered, a message with enough
signatures is processed (`Poll.Prompt`). So once enough validators are done with every request, the collected
messages are those of the requests, each once, in whatever order they worked and whoever was removed meanwhile.
-/

namespace ThunderBridge

/-- The transaction that submits the signature of a message. -/
def submission (sign : Address → Bytes → Bytes) (address : Address) (m : Bytes) : BridgeTx :=
  .submitSignature address (sign address m) m

namespace SignatureRequests

variable {H W : Type} [DecidableEq H] (K : CollisionFree H) (ecrecover : Ecrecover H) (V : HomeVariant)

/-- `processSignatureRequests/estimateGas`: the call is tried, and its failure explained. -/
def estimateGas (call : Callee (Home H W)) (sign : Address → Bytes → Bytes) (s : Home H W) (address : Address)
    (m : Bytes) : Except EstimateGasError Unit :=
  if (Home.exec K ecrecover V call s (submission sign address m)).isSome then .ok ()
  else if isAlreadyProcessed (s.numMessagesSigned (Home.messageHash K m)) then .error .AlreadyProcessedError
  else if s.messagesSigned (hashSender K address (Home.messageHash K m)) then .error .AlreadySignedError
  else if s.validators.isValidator address = false then .error .InvalidValidatorError
  else .error .unknown

/-- `processSignatureRequests`: the transactions to send; `none` when it throws. `sign` signs with the key of a
    validator, as `eth.accounts.sign` does. -/
def processSignatureRequests (call : Callee (Home H W)) (sign : Address → Bytes → Bytes) (input : Bytes32 → Bytes)
    (foreignBridgeAddress : Address) (s : Home H W) (address : Address) : List Withdrawal → Option (List BridgeTx)
  | [] => some []
  | request :: requests => do
      let m := processSignatureRequest input foreignBridgeAddress request
      let txToSend ← processSignatureRequests call sign input foreignBridgeAddress s address requests
      match estimateGas K ecrecover V call sign s address m with
      | .ok _ => some (submission sign address m :: txToSend)
      | .error .AlreadySignedError => some txToSend
      | .error .AlreadyProcessedError => some txToSend
      -- the process stops on an invalid validator
      | .error .InvalidValidatorError => none
      | .error .unknown => none

end SignatureRequests

/-! ## The system -/

/-- The home chain and the validators. -/
structure Signing (H W : Type) where
  home : Home H W
  /-- The transactions sent, each with the request it is for. -/
  sent : List (Address × Withdrawal)
  /-- The requests a validator is done with. -/
  processed : List (Address × Withdrawal)

/-- The messages of the withdrawals requested so far. -/
def Home.requestedMessages {H W : Type} (input : Bytes32 → Bytes) (foreignBridgeAddress : Address) (s : Home H W) :
    List Bytes :=
  s.requests.map (processSignatureRequest input foreignBridgeAddress)

/-- What the validators are set up with. -/
structure SigningSetting (H : Type) where
  K : CollisionFree H
  ecrecover : Ecrecover H
  V : HomeVariant
  sign : Address → Bytes → Bytes
  input : Bytes32 → Bytes
  foreignBridgeAddress : Address
  dishonest : Finset Address

section System

variable {H W : Type} [DecidableEq H] (c : SigningSetting H)

/-- One step. A transaction that reverts changes nothing: its request is processed anew. -/
inductive SignStep (x : Signing H W) : Signing H W → Prop where
  /-- The gas of a submission was estimated, and it is sent. -/
  | estimated {call : Callee (Home H W)} {address : Address} {r : Withdrawal} (hr : r ∈ x.home.requests)
      (h : SignatureRequests.processSignatureRequests c.K c.ecrecover c.V call c.sign c.input
        c.foreignBridgeAddress x.home address [r] =
          some [submission c.sign address (processSignatureRequest c.input c.foreignBridgeAddress r)]) :
      SignStep x { x with sent := (address, r) :: x.sent }
  /-- There is nothing to send. -/
  | ignored {call : Callee (Home H W)} {address : Address} {r : Withdrawal} (hr : r ∈ x.home.requests)
      (h : SignatureRequests.processSignatureRequests c.K c.ecrecover c.V call c.sign c.input
        c.foreignBridgeAddress x.home address [r] = some []) :
      SignStep x { x with processed := (address, r) :: x.processed }
  /-- A submission that was sent is executed. -/
  | executed {call : Callee (Home H W)} {address : Address} {r : Withdrawal} {home : Home H W}
      (hsent : (address, r) ∈ x.sent) (hcall : Home.Within Home.Elsewhere call)
      (hfew : c.dishonest.card < x.home.validators.requiredSignatures.toNat)
      (h : Home.exec c.K c.ecrecover c.V call x.home
        (submission c.sign address (processSignatureRequest c.input c.foreignBridgeAddress r)) = some home) :
      SignStep x { x with home := home, processed := (address, r) :: x.processed }
  /-- Anything else on the home chain that does not lower the threshold; honest validators sign the messages
      of requests only. -/
  | other {home : Home H W}
      (h : Home.StepWhen c.K c.ecrecover c.V
        (Home.AdmitsSigning c.dishonest (x.home.requestedMessages c.input c.foreignBridgeAddress)) x.home home)
      (hrequired : x.home.validators.requiredSignatures ≤ home.validators.requiredSignatures) :
      SignStep x { x with home := home }

end System

namespace Home

variable {H W : Type} {K : CollisionFree H} {s s' : Home H W}

/-! ## What is asked for stays asked for -/

section Requests

theorem requests_subset (h : s.bridge.log <:+ s'.bridge.log) : s.requests ⊆ s'.requests :=
  (h.filterMap _).subset

variable [DecidableEq H] {ecrecover : Ecrecover H} {V : HomeVariant} {allowed : Home H W → BridgeTx → Prop}

/-- A step of the chain takes nothing off the log. -/
theorem step_log (h : StepWhen K ecrecover V allowed s s') : s.bridge.log <:+ s'.bridge.log := by
  have hchains : Chains fun t t' : Home H W => t.bridge.log <:+ t'.bridge.log :=
    ⟨fun _ => List.suffix_refl _, fun _ _ _ h h' => h.trans h'⟩
  cases h with
  | bridge n h =>
      refine Calls.nested_rel (R := fun t t' : Home H W => t.bridge.log <:+ t'.bridge.log) hchains.refl hchains.trans
        ?_ ?_ n s s' h
      · rintro t t' ⟨w, rfl⟩
        exact List.suffix_refl _
      · rintro out hout t t' ⟨call, tx, _, hcall, h⟩
        exact exec_out hchains (fun _ _ hi => hi.log) (fun _ _ _ _ hc => hout _ _ (hcall _ _ _ _ hc)) h
  | validators _ => exact List.suffix_refl _
  | tick now txHash _ => exact List.suffix_refl _
  | elsewhere h =>
      obtain ⟨w, rfl⟩ := h
      exact List.suffix_refl _

theorem requestedMessages_subset {input : Bytes32 → Bytes} {foreignBridgeAddress : Address}
    (h : StepWhen K ecrecover V allowed s s') :
    s.requestedMessages input foreignBridgeAddress ⊆ s'.requestedMessages input foreignBridgeAddress :=
  List.map_subset _ (requests_subset (step_log h))

end Requests

/-! ## When a submission is accepted -/

section Accepted

variable [DecidableEq H] {ecrecover : Ecrecover H} {V : HomeVariant} {call : Callee (Home H W)}
  {sign : Address → Bytes → Bytes} {address : Address} {m : Bytes}

/-- **A validator's own signature is accepted** as long as the message is neither processed nor signed by it. -/
theorem submission_isSome_iff (hM : MessagesCounted K s) (hval : s.validators.isValidator address = true)
    (hlen : m.length = 104)
    (hsign : Message.recoverAddressFromSignedMessage K ecrecover (sign address m) m = some address) :
    (exec K ecrecover V call s (submission sign address m)).isSome ↔
      isAlreadyProcessed (s.numMessagesSigned (messageHash K m)) = false ∧
        s.messagesSigned (hashSender K address (messageHash K m)) = false := by
  constructor
  · intro hsome
    obtain ⟨s', h⟩ := Option.isSome_iff_exists.mp hsome
    obtain ⟨_, hvote⟩ := submitSignature_vote hM h
    exact ⟨Bool.eq_false_iff.mpr hvote.undecided, Bool.eq_false_iff.mpr hvote.fresh⟩
  · rintro ⟨hopen, hunsigned⟩
    have hvalid : Message.isMessageValid m = true := by
      simp [Message.isMessageValid, Message.requiredMessageLength, hlen]
    show (submitSignature K ecrecover s address (sign address m) m).isSome
    simp only [submitSignature, hsign, hval, hvalid, hopen, hunsigned, require, if_true, implies_true,
      Option.bind_eq_bind, Option.bind_some]
    split <;> split <;> rfl

/-- The estimate of a validator fails for a processed message and for one it signed, and for nothing else. -/
theorem estimateGas_eq (hM : MessagesCounted K s) (hval : s.validators.isValidator address = true)
    (hlen : m.length = 104)
    (hsign : Message.recoverAddressFromSignedMessage K ecrecover (sign address m) m = some address) :
    SignatureRequests.estimateGas K ecrecover V call sign s address m =
      if isAlreadyProcessed (s.numMessagesSigned (messageHash K m)) = true then .error .AlreadyProcessedError
      else if s.messagesSigned (hashSender K address (messageHash K m)) = true then .error .AlreadySignedError
      else .ok () := by
  have haccepted : (exec K ecrecover V call s (submission sign address m)).isSome ↔
      isAlreadyProcessed (s.numMessagesSigned (messageHash K m)) = false ∧
        s.messagesSigned (hashSender K address (messageHash K m)) = false :=
    submission_isSome_iff hM hval hlen hsign
  rw [SignatureRequests.estimateGas]
  by_cases hprocessed : isAlreadyProcessed (s.numMessagesSigned (messageHash K m)) = true
  · rw [if_neg fun hsome => absurd (haccepted.mp hsome).1 (by rw [hprocessed]; decide), if_pos hprocessed,
      if_pos hprocessed]
  · by_cases hsigned : s.messagesSigned (hashSender K address (messageHash K m)) = true
    · rw [if_neg fun hsome => absurd (haccepted.mp hsome).2 (by rw [hsigned]; decide), if_neg hprocessed,
        if_pos hsigned, if_neg hprocessed, if_pos hsigned]
    · rw [if_pos (haccepted.mpr ⟨Bool.eq_false_iff.mpr hprocessed, Bool.eq_false_iff.mpr hsigned⟩),
        if_neg hprocessed, if_neg hsigned]

/-- **No validator throws on a request**: for any list of them, what is sent are the submissions of the messages
    that are neither processed nor signed by it. -/
theorem processSignatureRequests_eq {s₀ : Home H W} (hfresh : Fresh s₀) {n : UInt256} {vs : List Address}
    {owner : Address} {v : BridgeValidators}
    (hinit : BridgeValidators.blank.initializeWith n vs owner = some v)
    (hrun : Run K ecrecover V { s₀ with validators := v } s) (hval : s.validators.isValidator address = true)
    (hsign : ∀ m : Bytes, m.length = 104 →
      Message.recoverAddressFromSignedMessage K ecrecover (sign address m) m = some address)
    (input : Bytes32 → Bytes) (foreignBridgeAddress : Address) (rs : List Withdrawal) :
    SignatureRequests.processSignatureRequests K ecrecover V call sign input foreignBridgeAddress s address rs =
      some (((rs.map (processSignatureRequest input foreignBridgeAddress)).filter fun m =>
        !isAlreadyProcessed (s.numMessagesSigned (messageHash K m)) &&
          !s.messagesSigned (hashSender K address (messageHash K m))).map (submission sign address)) := by
  have hpolling : Polling K s := Calls.steps_invariant (P := Polling K)
    (fun _ _ hs hstep => (step_polling hstep hs).1) hrun (polling_fresh hfresh hinit).1
  induction rs with
  | nil => rfl
  | cons r rs ih =>
      have hlen : (processSignatureRequest input foreignBridgeAddress r).length = 104 := Message.length_encode
        ⟨(redirect input r).1, r.2.1, r.2.2, foreignBridgeAddress⟩
      have hestimate (m : Bytes) (hlen : m.length = 104) :
          SignatureRequests.estimateGas K ecrecover V call sign s address m =
            if isAlreadyProcessed (s.numMessagesSigned (messageHash K m)) = true then .error .AlreadyProcessedError
            else if s.messagesSigned (hashSender K address (messageHash K m)) = true then .error .AlreadySignedError
            else .ok () :=
        estimateGas_eq hpolling.counted hval hlen (hsign m hlen)
      simp only [SignatureRequests.processSignatureRequests, ih, hestimate _ hlen, Option.bind_eq_bind, Option.bind_some,
        List.map_cons, List.filter_cons]
      by_cases hprocessed : isAlreadyProcessed (s.numMessagesSigned
          (messageHash K (processSignatureRequest input foreignBridgeAddress r))) = true
      · simp [hprocessed]
      · by_cases hsigned : s.messagesSigned (hashSender K address
            (messageHash K (processSignatureRequest input foreignBridgeAddress r))) = true
        · simp [hprocessed, hsigned]
        · simp [hprocessed, hsigned]

end Accepted

/-! ## What a validator is done with -/

/-- The message is signed by `address`, or processed. -/
def DoneSigning (K : CollisionFree H) (s : Home H W) (address : Address) (m : Bytes) : Prop :=
  address ∈ (pollOf K s).voters (.inr (messageHash K m)) ∨ (pollOf K s).decided (.inr (messageHash K m))

theorem DoneSigning.grows {address : Address} {m : Bytes} (h : DoneSigning K s address m)
    (hstep : Relation.ReflTransGen Poll.Voting (pollOf K s) (pollOf K s') ∨
      Poll.Managed (pollOf K s) (pollOf K s')) : DoneSigning K s' address m := by
  obtain ⟨hvoters, hdecided⟩ := Poll.grows hstep (.inr (messageHash K m))
  exact h.imp (fun hv => hvoters hv) hdecided

section Done

variable [DecidableEq H] {ecrecover : Ecrecover H} {V : HomeVariant} {call : Callee (Home H W)}
  {sign : Address → Bytes → Bytes} {address : Address} {m : Bytes}

theorem doneSigning_already {e : EstimateGasError}
    (h : SignatureRequests.estimateGas K ecrecover V call sign s address m = .error e)
    (he : e = .AlreadySignedError ∨ e = .AlreadyProcessedError) : DoneSigning K s address m := by
  by_cases hprocessed : isAlreadyProcessed (s.numMessagesSigned (messageHash K m)) = true
  · exact .inr hprocessed
  · by_cases hsigned : s.messagesSigned (hashSender K address (messageHash K m)) = true
    · exact .inl hsigned
    · -- any other failure is none of the two
      rw [SignatureRequests.estimateGas, if_neg hprocessed, if_neg hsigned] at h
      rcases he with rfl | rfl
      · split at h
        · cases h
        · split at h <;> cases h
      · split at h
        · cases h
        · split at h <;> cases h

/-- A request with nothing to send is done. -/
theorem doneSigning_ignored {input : Bytes32 → Bytes} {foreignBridgeAddress : Address} {r : Withdrawal}
    (h : SignatureRequests.processSignatureRequests K ecrecover V call sign input foreignBridgeAddress s address [r] =
      some []) : DoneSigning K s address (processSignatureRequest input foreignBridgeAddress r) := by
  simp only [SignatureRequests.processSignatureRequests, Option.bind_eq_bind, Option.bind_some] at h
  split at h
  · cases h
  · rename_i hestimate
    exact doneSigning_already hestimate (.inl rfl)
  · rename_i hestimate
    exact doneSigning_already hestimate (.inr rfl)
  · cases h
  · cases h

/-- A message whose submission was executed is done. -/
theorem doneSigning_executed (hM : MessagesCounted K s)
    (h : exec K ecrecover V call s (submission sign address m) = some s') : DoneSigning K s' address m := by
  obtain ⟨_, hvote⟩ := submitSignature_vote hM h
  left
  rw [hvote.voters_self]
  exact Set.mem_insert _ _

end Done

/-! ## Runs -/

section Runs

variable [DecidableEq H] {c : SigningSetting H} {x x' : Signing H W}

/-- What holds in every state of a run. -/
structure Signed (c : SigningSetting H) (x : Signing H W) : Prop where
  polling : Polling c.K x.home
  prompt : Poll.Prompt (pollOf c.K x.home)
  genuine : Genuine c.K c.dishonest (x.home.requestedMessages c.input c.foreignBridgeAddress) x.home
  asked : ∀ address r, (address, r) ∈ x.sent → r ∈ x.home.requests
  done : ∀ address r, (address, r) ∈ x.processed →
    DoneSigning c.K x.home address (processSignatureRequest c.input c.foreignBridgeAddress r)

/-- A step of the home chain that does not lower the threshold. -/
theorem Signed.home (hx : Signed c x) {home : Home H W}
    (h : StepWhen c.K c.ecrecover c.V
      (AdmitsSigning c.dishonest (x.home.requestedMessages c.input c.foreignBridgeAddress)) x.home home)
    (hrequired : x.home.validators.requiredSignatures ≤ home.validators.requiredSignatures) :
    Signed c { x with home := home } := by
  obtain ⟨hpolling, hstep⟩ := step_polling h hx.polling
  exact ⟨hpolling, hx.prompt.step hstep (BitVec.le_def.mp hrequired),
    (step_genuine h hx.polling hx.genuine).mono (requestedMessages_subset h),
    fun address r hm => requests_subset (step_log h) (hx.asked address r hm),
    fun address r hm => (hx.done address r hm).grows hstep⟩

/-- **One step.** -/
theorem step_signed (hx : Signed c x) (h : SignStep c x x') : Signed c x' := by
  cases h with
  | estimated hr _ =>
      refine ⟨hx.polling, hx.prompt, hx.genuine, ?_, hx.done⟩
      intro address' r' hm
      rcases List.mem_cons.mp hm with he | hold
      · cases he
        exact hr
      · exact hx.asked address' r' hold
  | ignored _ h =>
      refine ⟨hx.polling, hx.prompt, hx.genuine, hx.asked, ?_⟩
      intro address' r' hm
      rcases List.mem_cons.mp hm with he | hold
      · cases he
        exact doneSigning_ignored h
      · exact hx.done address' r' hold
  | @executed call address r home hsent hcall hfew h =>
      have hadmits : AdmitsSigning c.dishonest (x.home.requestedMessages c.input c.foreignBridgeAddress) x.home
          (submission c.sign address (processSignatureRequest c.input c.foreignBridgeAddress r)) :=
        ⟨hfew, fun _ => List.mem_map_of_mem (hx.asked address r hsent)⟩
      have hhome : Signed c { x with home := home } := by
        refine hx.home (step_of_exec hadmits hcall h) ?_
        rw [exec_validators hcall h]
        exact BitVec.le_refl _
      refine ⟨hhome.polling, hhome.prompt, hhome.genuine, hhome.asked, ?_⟩
      intro address' r' hm
      rcases List.mem_cons.mp hm with he | hold
      · cases he
        exact doneSigning_executed hx.polling.counted h
      · exact hhome.done address' r' hold
  | other h hrequired => exact hx.home h hrequired

omit [DecidableEq H] in
/-- After the validators were initialised nobody has signed, and somebody must. -/
theorem prompt_fresh (hfresh : Fresh s) {n : UInt256} {vs : List Address} {owner : Address} {v : BridgeValidators}
    (hinit : BridgeValidators.blank.initializeWith n vs owner = some v) :
    Poll.Prompt (pollOf K { s with validators := v }) := by
  have hpos := (BridgeValidators.initializeWith_represented hinit).one_le_required
  intro i hi
  exfalso
  have hnone : (pollOf K { s with validators := v }).voters i = ∅ := by
    ext a
    cases i with
    | inl d =>
        show s.affirmationsSigned _ = true ↔ False
        rw [show s.affirmationsSigned _ = false from hfresh.affirmationsSigned _]
        simp
    | inr h =>
        show s.messagesSigned _ = true ↔ False
        rw [show s.messagesSigned _ = false from hfresh.messagesSigned _]
        simp
  rw [hnone, Set.ncard_empty] at hi
  exact Nat.not_lt.mpr hi hpos

/-- The home chain just deployed, its validators initialised, and nothing sent yet. -/
theorem signed_fresh (hfresh : Fresh s) {n : UInt256} {vs : List Address} {owner : Address} {v : BridgeValidators}
    (hinit : BridgeValidators.blank.initializeWith n vs owner = some v) :
    Signed c ⟨{ s with validators := v }, [], []⟩ := by
  have hg : Genuine c.K c.dishonest (s.requestedMessages c.input c.foreignBridgeAddress) s := genuine_fresh hfresh
  exact ⟨(polling_fresh hfresh hinit).1, prompt_fresh hfresh hinit,
    ⟨hg.once, hg.stored, hg.signed, hg.collected⟩, fun _ _ hm => absurd hm List.not_mem_nil,
    fun _ _ hm => absurd hm List.not_mem_nil⟩

/-- The messages collected so far, as they are stored. -/
def collectedMessages (s : Home H W) : List Bytes := s.collections.map fun p => s.message p.1

/-- Each collected message is that of a request, and none is collected twice. -/
theorem Signed.collected (hx : Signed c x) : x.home.collectedMessages.Nodup ∧
    ∀ m, m ∈ x.home.collectedMessages ↔ m ∈ x.home.requestedMessages c.input c.foreignBridgeAddress ∧
      isAlreadyProcessed (x.home.numMessagesSigned (messageHash c.K m)) = true := by
  have hannounced (p : H × UInt256) (hp : p ∈ x.home.collections) :
      isAlreadyProcessed (x.home.numMessagesSigned p.1) = true :=
    hx.genuine.once.mem_iff.mp (List.mem_map_of_mem hp)
  refine ⟨?_, ?_⟩
  · -- the digests of the messages are those announced, which are distinct
    apply List.Nodup.of_map (messageHash c.K)
    have hdigests : x.home.collectedMessages.map (messageHash c.K) = x.home.collections.map Prod.fst := by
      rw [collectedMessages, List.map_map]
      apply List.map_congr_left
      intro p hp
      exact (hx.genuine.collected p.1 (hannounced p hp)).1
    rw [hdigests]
    exact hx.genuine.once.nodup
  · intro m
    constructor
    · intro hm
      obtain ⟨p, hp, rfl⟩ := List.mem_map.mp hm
      obtain ⟨hhash, hmem⟩ := hx.genuine.collected p.1 (hannounced p hp)
      rw [hhash]
      exact ⟨hmem, hannounced p hp⟩
    · rintro ⟨_, hprocessed⟩
      obtain ⟨p, hp, he⟩ := List.mem_map.mp (hx.genuine.once.mem_iff.mpr hprocessed)
      refine List.mem_map.mpr ⟨p, hp, ?_⟩
      rw [he]
      exact Chunk.raw_injective (c.K.injective (hx.genuine.collected _ hprocessed).1)

/-- **Which withdrawals are collected.** Fewer validators are dishonest than signatures required, and the
    threshold is never lowered. Then in every state that is reached, the collected messages are messages of requests,
    none of them twice; and once each request is done with by as many validators as signatures are required,
    they are those of all requests. -/
theorem collected_perm {s₀ : Home H W} (hfresh : Fresh s₀) {n : UInt256} {vs : List Address} {owner : Address}
    {v : BridgeValidators} (hinit : BridgeValidators.blank.initializeWith n vs owner = some v)
    (hrun : Relation.ReflTransGen (SignStep c) ⟨{ s₀ with validators := v }, [], []⟩ x) :
    x.home.collectedMessages.Nodup ∧
    x.home.collectedMessages.Subperm (x.home.requestedMessages c.input c.foreignBridgeAddress) ∧
    ((∀ r ∈ x.home.requests,
        x.home.validators.requiredSignatures.toNat ≤ {a | (a, r) ∈ x.processed}.ncard) →
      x.home.collectedMessages.Perm (x.home.requestedMessages c.input c.foreignBridgeAddress).dedup) := by
  have hx : Signed c x := Calls.steps_invariant (P := Signed c) (fun _ _ hx hstep => step_signed hx hstep) hrun
    (signed_fresh hfresh hinit)
  obtain ⟨hnodup, hmem⟩ := hx.collected
  refine ⟨hnodup, List.subperm_of_subset hnodup fun m hm => ((hmem m).mp hm).1, ?_⟩
  intro hall
  rw [List.perm_ext_iff_of_nodup hnodup (List.nodup_dedup _)]
  intro m
  rw [List.mem_dedup, hmem]
  refine ⟨fun hm => hm.1, ?_⟩
  intro hm
  refine ⟨hm, ?_⟩
  obtain ⟨r, hr, rfl⟩ := List.mem_map.mp hm
  by_contra hopen
  -- whoever is done with the request has signed it, and they are enough
  apply hopen
  apply hx.prompt (.inr _)
  refine (hall r hr).trans (Set.ncard_le_ncard ?_)
  intro a ha
  rcases hx.done a r ha with hsigned | hprocessed
  · exact hsigned
  · exact absurd hprocessed hopen

end Runs

/-! ## Three validators -/

/-- The signature of a validator, as `Foreign.signerV` recovers it. -/
def sampleSign (address : Address) (_ : Bytes) : Bytes := List.replicate 64 0 ++ [address.setWidth 8]

theorem sampleSign_recovers (m : Bytes) :
    Message.recoverAddressFromSignedMessage serialHash Foreign.signerV (sampleSign 1 m) m = some 1 := by
  have hv : (Bytes.mload (Message.memory (List.replicate 64 0 ++ [1])) 0x60).extractLsb' 248 8 = (1 : Byte) := by
    decide +kernel
  show some ((Bytes.mload (Message.memory (List.replicate 64 0 ++ [1])) 0x60).extractLsb' 248 8 |>.setWidth 160) = _
  rw [hv]
  rfl

/-- Foreign bridge 7; validator 3 is dishonest. -/
def sampleSigning : SigningSetting (List Byte) :=
  ⟨serialHash, Foreign.signerV, .ercToErcWithFee, sampleSign, plainInput, 7, {3}⟩

/-- Account 33 withdraws 100, and validator 1 signs. -/
theorem processSignatureRequests_eq_one : ∃ s : Home (List Byte) Unit, s.requests = [(33, 100, 0)] ∧
    SignatureRequests.processSignatureRequests serialHash Foreign.signerV .ercToErcWithFee obliging sampleSign
      plainInput 7 s 1 s.requests = some [submission sampleSign 1 (createMessage 33 100 0 7)] := by
  have heval : (do
      let v ← BridgeValidators.blank.initializeWith 2 [1, 2, 3] 9
      let s ← exec serialHash Foreign.signerV .ercToErcWithFee obliging { sampleHome () with validators := v }
        (.onTokenTransfer 5 33 100)
      require (s.requests = [(33, 100, 0)] ∧ s.validators.isValidator 1 = true)
      pure ((s.requests.map (processSignatureRequest plainInput 7)).filter fun m =>
        !isAlreadyProcessed (s.numMessagesSigned (messageHash serialHash m)) &&
          !s.messagesSigned (hashSender serialHash 1 (messageHash serialHash m)))) =
        some [createMessage 33 100 0 7] := by
    decide +kernel
  simp only [Option.bind_eq_bind, Option.bind_eq_some_iff, require_eq_some, exists_const, Option.pure_def,
    Option.some.injEq] at heval
  obtain ⟨v, hv, s, hs, ⟨hr, hval⟩, hopen⟩ := heval
  refine ⟨s, hr, ?_⟩
  have hrun : Run serialHash Foreign.signerV .ercToErcWithFee { sampleHome () with validators := v } s :=
    .single (step_of_exec trivial obliging_within hs)
  rw [processSignatureRequests_eq (deploy_fresh ..) hv hrun hval (fun m _ => sampleSign_recovers m), hopen]
  rfl

/-- A validator that estimates the gas of a submission and sends it. -/
theorem signStep_sent {x : Signing (List Byte) Unit} {home : Home (List Byte) Unit} {a : Address} {r : Withdrawal}
    (hr : r ∈ x.home.requests) (hfew : 1 < x.home.validators.requiredSignatures.toNat)
    (h : exec serialHash Foreign.signerV .ercToErcWithFee obliging x.home
      (submission sampleSign a (processSignatureRequest plainInput 7 r)) = some home) :
    Relation.ReflTransGen (SignStep sampleSigning) x ⟨home, (a, r) :: x.sent, (a, r) :: x.processed⟩ := by
  have hestimate : SignatureRequests.processSignatureRequests serialHash Foreign.signerV .ercToErcWithFee obliging
      sampleSign plainInput 7 x.home a [r] =
        some [submission sampleSign a (processSignatureRequest plainInput 7 r)] := by
    simp only [SignatureRequests.processSignatureRequests, SignatureRequests.estimateGas, h, Option.isSome_some,
      if_true, Option.bind_eq_bind, Option.bind_some]
  refine (Relation.ReflTransGen.single (.estimated hr hestimate)).tail ?_
  exact .executed (x := { x with sent := (a, r) :: x.sent }) List.mem_cons_self obliging_within hfew h

/-- Account 33 withdraws 100; validators 1 and 2 sign, and their message is the one collected. -/
theorem collected_perm_two : ∃ x₀ x : Signing (List Byte) Unit, Relation.ReflTransGen (SignStep sampleSigning) x₀ x ∧
    x.home.requestedMessages plainInput 7 = [createMessage 33 100 0 7] ∧ x.home.collectedMessages.Nodup ∧
    x.home.collectedMessages.Perm (x.home.requestedMessages plainInput 7).dedup := by
  have heval : (do
      let v ← BridgeValidators.blank.initializeWith 2 [1, 2, 3] 9
      let s ← exec serialHash Foreign.signerV .ercToErcWithFee obliging { sampleHome () with validators := v }
        (.onTokenTransfer 5 33 100)
      let s₁ ← exec serialHash Foreign.signerV .ercToErcWithFee obliging s
        (submission sampleSign 1 (processSignatureRequest plainInput 7 (33, 100, 0)))
      let s₂ ← exec serialHash Foreign.signerV .ercToErcWithFee obliging s₁
        (submission sampleSign 2 (processSignatureRequest plainInput 7 (33, 100, 0)))
      require (s.requests = [(33, 100, 0)] ∧ s₁.requests = [(33, 100, 0)] ∧ s₂.requests = [(33, 100, 0)])
      pure v.requiredSignatures) = some 2 := by
    decide +kernel
  simp only [Option.bind_eq_bind, Option.bind_eq_some_iff, require_eq_some, exists_const, Option.pure_def,
    Option.some.injEq] at heval
  obtain ⟨v, hv, s, hs, s₁, h₁, s₂, h₂, ⟨hr, hr₁, hr₂⟩, hreq⟩ := heval
  have hkept : s.validators = v := exec_validators obliging_within hs
  have hkept₁ : s₁.validators = v := (exec_validators obliging_within h₁).trans hkept
  have hkept₂ : s₂.validators = v := (exec_validators obliging_within h₂).trans hkept₁
  have hrequested : Relation.ReflTransGen (SignStep sampleSigning) ⟨{ sampleHome () with validators := v }, [], []⟩
      ⟨s, [], []⟩ := by
    have hstep : StepWhen serialHash Foreign.signerV .ercToErcWithFee (AdmitsSigning {3}
        (requestedMessages plainInput 7 { sampleHome () with validators := v }))
        { sampleHome () with validators := v } s := by
      refine step_of_exec ?_ obliging_within hs
      exact trivial
    refine .single (.other hstep ?_)
    rw [hkept]
    exact BitVec.le_refl _
  have hfirst : Relation.ReflTransGen (SignStep sampleSigning) ⟨s, [], []⟩
      ⟨s₁, [(1, (33, 100, 0))], [(1, (33, 100, 0))]⟩ :=
    signStep_sent (by rw [hr]; exact List.mem_singleton.mpr rfl) (by rw [hkept, hreq]; decide) h₁
  have hsecond : Relation.ReflTransGen (SignStep sampleSigning)
      ⟨s₁, [(1, (33, 100, 0))], [(1, (33, 100, 0))]⟩
      ⟨s₂, [(2, (33, 100, 0)), (1, (33, 100, 0))], [(2, (33, 100, 0)), (1, (33, 100, 0))]⟩ :=
    signStep_sent (by rw [hr₁]; exact List.mem_singleton.mpr rfl) (by rw [hkept₁, hreq]; decide) h₂
  have hrun := hrequested.trans (hfirst.trans hsecond)
  obtain ⟨hnodup, _, hperm⟩ := collected_perm (c := sampleSigning) (deploy_fresh ..) hv hrun
  refine ⟨_, _, hrun, ?_, hnodup, hperm ?_⟩
  · show s₂.requests.map _ = _
    rw [hr₂]
    decide +kernel
  · intro r hmem
    rw [show s₂.requests = _ from hr₂, List.mem_singleton] at hmem
    subst hmem
    have htwo : ({1, 2} : Set Address).ncard = 2 := Set.ncard_pair (by decide)
    show s₂.validators.requiredSignatures.toNat ≤ _
    rw [hkept₂, hreq, show (2 : UInt256).toNat = 2 from rfl, ← htwo]
    refine Set.ncard_le_ncard ?_
    rintro a (rfl | rfl)
    · exact List.mem_cons_of_mem _ List.mem_cons_self
    · exact List.mem_cons_self

end Home
end ThunderBridge
