import ThunderBridge.Contracts.HomeBridge.Liveness
import ThunderBridge.Validator.Events

/-!
# `Solvency.Crediting` — which deposits are credited

Every validator runs `processTransfers` on every `Transfer` to the foreign bridge. For each it estimates the gas
of `executeAffirmation`; when that fails because the deposit is signed or processed already, the event is done.
`Crediting` is the home chain with what the validators have sent and what they are done with, and
`CreditStep` one step of it.

**The argument.** A validator that is done with an event has signed its deposit or found it processed, and
neither is ever taken back. When all validators are done, every deposit is signed by all of them or
processed, and the chain is unstuck, so it is processed: the deposits executed are those of the events, each once.
They come to as much as the events exactly when no two events make the same deposit (`credited_iff`).
-/

namespace ThunderBridge

/-! ## `processTransfers` -/

/-- How `estimateGas` fails, with the node at hand. -/
inductive EstimateGasError where
  | AlreadyProcessedError
  | AlreadySignedError
  | InvalidValidatorError
  | unknown
deriving DecidableEq, Repr

/-- The transaction that affirms a deposit. -/
def affirmation (address : Address) (d : Deposit) : BridgeTx := .executeAffirmation address d.1 d.2.1 d.2.2

section Validators

variable {H W : Type} [DecidableEq H] (K : CollisionFree H) (ecrecover : Ecrecover H) (V : HomeVariant)

/-- `processAffirmationRequests/estimateGas`: the call is tried, and its failure explained. -/
def estimateGas (call : Callee (Home H W)) (s : Home H W) (address : Address) (d : Deposit) :
    Except EstimateGasError Unit :=
  if (Home.exec K ecrecover V call s (affirmation address d)).isSome then .ok ()
  else if isAlreadyProcessed (s.numAffirmationsSigned (depositHash K d)) then .error .AlreadyProcessedError
  else if s.affirmationsSigned (hashSender K address (depositHash K d)) then .error .AlreadySignedError
  else if s.validators.isValidator address = false then .error .InvalidValidatorError
  else .error .unknown

/-- `processTransfers`: the transactions to send; `none` when it throws. -/
def processTransfers (call : Callee (Home H W)) (input : Bytes32 → Bytes) (s : Home H W) (address : Address) :
    List Transfer → Option (List BridgeTx)
  | [] => some []
  | transfer :: transfers => do
      let d := processTransfer input transfer
      let txToSend ← processTransfers call input s address transfers
      match estimateGas K ecrecover V call s address d with
      | .ok _ => some (affirmation address d :: txToSend)
      | .error .AlreadySignedError => some txToSend
      | .error .AlreadyProcessedError => some txToSend
      -- the process stops on an invalid validator
      | .error .InvalidValidatorError => none
      | .error .unknown => none

/-! ## The system -/

/-- The home chain and the validators. -/
structure Crediting (H W : Type) where
  home : Home H W
  /-- The transactions sent, each with the event it is for. -/
  sent : List (Address × Transfer)
  /-- The events a validator is done with. -/
  processed : List (Address × Transfer)

/-- Only the deposits in `deposits` are affirmed, and never above the limits. -/
def WithinLimits (deposits : List Deposit) (s : Home H W) : BridgeTx → Prop
  | .executeAffirmation _ recipient value transactionHash =>
      (recipient, value, transactionHash) ∈ deposits ∧
        s.bridge.basic.withinExecutionLimit s.getCurrentDay value = some true
  | _ => True

/-- One step, with the events `ts`. A transaction that reverts changes nothing: its event is processed anew. -/
inductive CreditStep (input : Bytes32 → Bytes) (ts : List Transfer) (c : Crediting H W) :
    Crediting H W → Prop where
  /-- The gas of an affirmation was estimated, and it is sent. -/
  | estimated {call : Callee (Home H W)} {address : Address} {t : Transfer} (ht : t ∈ ts)
      (h : processTransfers K ecrecover V call input c.home address [t] =
        some [affirmation address (processTransfer input t)]) :
      CreditStep input ts c { c with sent := (address, t) :: c.sent }
  /-- There is nothing to send. -/
  | ignored {call : Callee (Home H W)} {address : Address} {t : Transfer} (ht : t ∈ ts)
      (h : processTransfers K ecrecover V call input c.home address [t] = some []) :
      CreditStep input ts c { c with processed := (address, t) :: c.processed }
  /-- An affirmation that was sent is executed. -/
  | executed (n : Nat) {call : Callee (Home H W)} {address : Address} {t : Transfer} {home : Home H W}
      (ht : t ∈ ts) (hsent : (address, t) ∈ c.sent)
      (hlimit : WithinLimits (ts.map (processTransfer input)) c.home
        (affirmation address (processTransfer input t)))
      (hcall : Home.Within (Calls.Callback Home.Elsewhere
        (Home.Call K ecrecover V (WithinLimits (ts.map (processTransfer input))) n)) call)
      (h : Home.exec K ecrecover V call c.home (affirmation address (processTransfer input t)) = some home) :
      CreditStep input ts c { c with home := home, processed := (address, t) :: c.processed }
  /-- Anything else on the home chain that removes no validator. -/
  | other {home : Home H W}
      (h : Home.StepWhen K ecrecover V (WithinLimits (ts.map (processTransfer input))) c.home home)
      (hkept : ∀ a, c.home.validators.isValidator a = true → home.validators.isValidator a = true) :
      CreditStep input ts c { c with home := home }

end Validators

namespace Home

variable {H W : Type} {K : CollisionFree H} {s s' : Home H W}

/-! ## What a validator is done with -/

/-- The deposit is signed by `address`, or processed. -/
def DoneWith (K : CollisionFree H) (s : Home H W) (address : Address) (d : Deposit) : Prop :=
  address ∈ (pollOf K s).voters (.inl d) ∨ (pollOf K s).decided (.inl d)

theorem DoneWith.grows {address : Address} {d : Deposit} (h : DoneWith K s address d)
    (hstep : Relation.ReflTransGen Poll.Voting (pollOf K s) (pollOf K s') ∨
      Poll.Managed (pollOf K s) (pollOf K s')) : DoneWith K s' address d := by
  obtain ⟨hvoters, hdecided⟩ := Poll.grows hstep (.inl d)
  exact h.imp (fun hv => hvoters hv) hdecided

variable [DecidableEq H] {ecrecover : Ecrecover H} {V : HomeVariant}

/-- A deposit that is signed or processed already is done. -/
theorem doneWith_already {call : Callee (Home H W)} {address : Address} {d : Deposit} {e : EstimateGasError}
    (h : estimateGas K ecrecover V call s address d = .error e)
    (he : e = .AlreadySignedError ∨ e = .AlreadyProcessedError) : DoneWith K s address d := by
  by_cases hprocessed : isAlreadyProcessed (s.numAffirmationsSigned (depositHash K d)) = true
  · exact .inr hprocessed
  · by_cases hsigned : s.affirmationsSigned (hashSender K address (depositHash K d)) = true
    · exact .inl hsigned
    · -- any other failure is none of the two
      rw [estimateGas, if_neg hprocessed, if_neg hsigned] at h
      rcases he with rfl | rfl
      · split at h
        · cases h
        · split at h <;> cases h
      · split at h
        · cases h
        · split at h <;> cases h

/-- An event with nothing to send is done. -/
theorem doneWith_ignored {call : Callee (Home H W)} {input : Bytes32 → Bytes} {address : Address} {t : Transfer}
    (h : processTransfers K ecrecover V call input s address [t] = some []) :
    DoneWith K s address (processTransfer input t) := by
  simp only [processTransfers, Option.bind_eq_bind, Option.bind_some] at h
  split at h
  · cases h
  · rename_i hestimate
    exact doneWith_already hestimate (.inl rfl)
  · rename_i hestimate
    exact doneWith_already hestimate (.inr rfl)
  · cases h
  · cases h

/-- A deposit whose affirmation within the limits was executed is done. -/
theorem doneWith_executed {P : Finset Deposit} {out : Home H W → Home H W → Prop} {call : Callee (Home H W)}
    (hout : ∀ t t', out t t' → Polled K t t') (hcall : Within out call) (hP : Threshold K P s)
    (hM : MessagesCounted K s) {address : Address} {d : Deposit}
    (hlimit : s.bridge.basic.withinExecutionLimit s.getCurrentDay d.2.1 = some true)
    (h : exec K ecrecover V call s (affirmation address d) = some s') : DoneWith K s' address d := by
  obtain ⟨hval, haffirmed⟩ := executeAffirmation_cases d h
  cases haffirmed with
  | recorded hover _ =>
      rw [hlimit] at hover
      cases hover
  | signed _ _ _ _ =>
      left
      show (s.affirm K address d).affirmationsSigned (hashSender K address (depositHash K d)) = true
      rw [affirm_affirmationsSigned, if_pos ⟨rfl, rfl⟩]
  | @settled s₂ _ hunsigned hopen henough hexec =>
      right
      -- the bit is up before the callees run, and stays up
      have hcalls : Polled K ((s.affirm K address d).markProcessed K d) s₂ :=
        onExecuteAffirmation_keeps (polled_keeps hout) hcall hexec
      obtain ⟨_, hvotes⟩ := hcalls.votes _ (hP.pending hval hunsigned hopen) (messagesCounted_congr rfl rfl hM)
      apply (Poll.grows (.inl hvotes) (.inl d)).2
      show isAlreadyProcessed (((s.affirm K address d).markProcessed K d).numAffirmationsSigned _) = true
      rw [affirm_markProcessed_word]
      exact isAlreadyProcessed_markAsProcessed _

/-! ## Only deposits of the events are executed -/

/-- A call leaves nothing executed but what is in `deposits`. -/
def ExecutesOnly (deposits : List Deposit) (s s' : Home H W) : Prop :=
  executedDeposits s.bridge.trail ⊆ deposits → executedDeposits s'.bridge.trail ⊆ deposits

omit [DecidableEq H] in
theorem ExecutesOnly.of_trail {deposits : List Deposit} (h : s'.bridge.trail = s.bridge.trail) :
    ExecutesOnly deposits s s' := by
  intro hs
  rw [h]
  exact hs

theorem keptByCalls_executesOnly {deposits : List Deposit} :
    KeptByCalls K ecrecover V (WithinLimits (W := W) deposits) (ExecutesOnly deposits) where
  refl _ hs := hs
  trans _ _ _ h h' hs := h' (h hs)
  same _ _ hq := ExecutesOnly.of_trail hq.trail
  submitted _ _ _ _ _ h := ExecutesOnly.of_trail (submitSignature_sameDeposits h).trail
  fixed _ _ _ _ _ _ h := by
    obtain ⟨_, _, _, rfl⟩ := fixAssetsAboveLimits_cases h
    exact fun hs => hs
  affirmed _ _ hkeeps hcall s _ _ d hallowed _ h := by
    intro hs
    cases h with
    | recorded _ h =>
        obtain ⟨_, _, _, rfl⟩ := onFailedAffirmation_cases h
        exact hs
    | signed _ _ _ _ => exact hs
    | settled _ _ _ _ h =>
        have hcalls := onExecuteAffirmation_keeps hkeeps hcall h
        exact List.cons_subset.mpr ⟨hallowed.1, hcalls hs⟩

/-! ## Runs -/

/-- What holds in every state of a run. -/
structure Credited (K : CollisionFree H) (input : Bytes32 → Bytes) (ts : List Transfer) (c : Crediting H W) :
    Prop where
  polling : Polling K c.home
  unstuck : Unstuck K c.home
  done : ∀ address t, (address, t) ∈ c.processed → DoneWith K c.home address (processTransfer input t)
  executed : executedDeposits c.home.bridge.trail ⊆ ts.map (processTransfer input)

/-- A step of the home chain that removes nobody. -/
theorem Credited.home {input : Bytes32 → Bytes} {ts : List Transfer} {c : Crediting H W}
    (hc : Credited K input ts c)
    (h : StepWhen K ecrecover V (WithinLimits (ts.map (processTransfer input))) c.home s')
    (hkept : ∀ a, c.home.validators.isValidator a = true → s'.validators.isValidator a = true) :
    Credited K input ts { c with home := s' } := by
  obtain ⟨hpolling, hstep⟩ := step_polling h hc.polling
  have hcareful : CarefulRemoval K c.home s' := careful_iff.mp (Poll.careful_of_subset hkept)
  refine ⟨hpolling, (unstuck_step_iff h hc.polling hc.unstuck).mpr hcareful,
    fun address t hm => (hc.done address t hm).grows hstep, ?_⟩
  cases h with
  | bridge n h => exact call_keeps keptByCalls_executesOnly n _ _ h hc.executed
  | validators _ => exact hc.executed
  | tick now txHash _ => exact hc.executed
  | elsewhere h =>
      rw [(elsewhere_quiet h).trail]
      exact hc.executed

/-- **One step.** -/
theorem credited_step {input : Bytes32 → Bytes} {ts : List Transfer} {c c' : Crediting H W}
    (hc : Credited K input ts c) (h : CreditStep K ecrecover V input ts c c') : Credited K input ts c' := by
  cases h with
  | estimated _ _ => exact ⟨hc.polling, hc.unstuck, hc.done, hc.executed⟩
  | ignored _ h =>
      refine ⟨hc.polling, hc.unstuck, ?_, hc.executed⟩
      intro address t hm
      rcases List.mem_cons.mp hm with he | hold
      · cases he
        exact doneWith_ignored h
      · exact hc.done address t hold
  | @executed n call address t home ht hsent hlimit hcall h =>
      have hbridge : Call K ecrecover V (WithinLimits (ts.map (processTransfer input))) (n + 1) c.home home :=
        ⟨call, _, hlimit, hcall, h⟩
      have hstep := StepWhen.bridge (n + 1) hbridge
      have hvalidators : home.validators = c.home.validators :=
        (call_keeps (keptByCalls_polled (K := K)) (n + 1) _ _ hbridge).settled.validators
      have hhome : Credited K input ts { c with home := home } :=
        hc.home hstep fun a ha => hvalidators ▸ ha
      refine ⟨hhome.polling, hhome.unstuck, ?_, hhome.executed⟩
      intro address' t' hm
      rcases List.mem_cons.mp hm with he | hold
      · cases he
        exact doneWith_executed (fun _ _ => callback_keeps keptByCalls_polled) hcall hc.polling.threshold
          hc.polling.counted hlimit.2 h
      · exact hhome.done address' t' hold
  | other h hkept => exact ⟨(hc.home h hkept).polling, (hc.home h hkept).unstuck, (hc.home h hkept).done,
      (hc.home h hkept).executed⟩

omit [DecidableEq H] in
/-- The home chain just deployed, its validators initialised, and nothing processed yet. -/
theorem credited_fresh {input : Bytes32 → Bytes} {ts : List Transfer} (hfresh : Fresh s) {n : UInt256}
    {vs : List Address} {owner : Address} {v : BridgeValidators}
    (hinit : BridgeValidators.blank.initializeWith n vs owner = some v) :
    Credited K input ts ⟨{ s with validators := v }, [], []⟩ := by
  refine ⟨(polling_fresh hfresh hinit).1, unstuck_fresh hfresh hinit, fun _ _ hm => absurd hm List.not_mem_nil, ?_⟩
  show executedDeposits s.bridge.trail ⊆ _
  rw [hfresh.trail]
  exact List.nil_subset _

omit [DecidableEq H] in
/-- When all validators are done with all events, the deposits of the events are executed, each once. -/
theorem Credited.perm {input : Bytes32 → Bytes} {ts : List Transfer} {c : Crediting H W}
    (hc : Credited K input ts c)
    (hall : ∀ a, c.home.validators.isValidator a = true → ∀ t ∈ ts, (a, t) ∈ c.processed) :
    (executedDeposits c.home.bridge.trail).Perm (ts.map (processTransfer input)).dedup := by
  have honce := hc.polling.threshold.once
  rw [List.perm_ext_iff_of_nodup honce.nodup (List.nodup_dedup _)]
  intro d
  rw [List.mem_dedup]
  refine ⟨fun hd => hc.executed hd, ?_⟩
  intro hd
  obtain ⟨t, ht, rfl⟩ := List.mem_map.mp hd
  rw [honce.mem_iff]
  by_contra hopen
  -- every validator has signed it, or found it processed
  apply hopen
  apply hc.unstuck.affirmation
  intro a ha
  rcases hc.done a t (hall a ha t ht) with hsigned | hprocessed
  · exact hsigned
  · exact absurd hprocessed hopen

/-- **Which deposits are credited.** Whatever the events, the callbacks and the order in which the validators
    process them, with no validator removed and the limits never exceeded: when every validator is done with
    every event, the value executed is that of the events exactly when no two of them have the same
    transaction hash, value and recipient. -/
theorem credited_iff {s₀ : Home H W} (hfresh : Fresh s₀) {n : UInt256} {vs : List Address} {owner : Address}
    {v : BridgeValidators} (hinit : BridgeValidators.blank.initializeWith n vs owner = some v)
    {input : Bytes32 → Bytes} {ts : List Transfer} (hpos : ∀ t ∈ ts, 0 < t.value) {c : Crediting H W}
    (hrun : Relation.ReflTransGen (CreditStep K ecrecover V input ts) ⟨{ s₀ with validators := v }, [], []⟩ c)
    (hall : ∀ a, c.home.validators.isValidator a = true → ∀ t ∈ ts, (a, t) ∈ c.processed) :
    tally amountOf (executedDeposits c.home.bridge.trail) = tally Transfer.amount ts ↔
      (ts.map (processTransfer input)).Nodup := by
  have hc : Credited K input ts c := Calls.steps_invariant (P := Credited K input ts)
    (fun _ _ hc hstep => credited_step hc hstep) hrun (credited_fresh hfresh hinit)
  rw [tally_perm (hc.perm hall), ← tally_processTransfer input ts]
  apply tally_dedup_eq_iff
  intro d hd
  obtain ⟨t, ht, rfl⟩ := List.mem_map.mp hd
  exact BitVec.lt_def.mp (hpos t ht)

/-! ## Two deposits -/

/-- A validator that estimates the gas of an affirmation and sends it, with callees that leave the chain alone. -/
theorem creditStep_sent {input : Bytes32 → Bytes} {ts : List Transfer} {c : Crediting H W} {home : Home H W}
    {call : Callee (Home H W)} {a : Address} {t : Transfer} (ht : t ∈ ts) (hcall : Within Elsewhere call)
    (hlimit : c.home.bridge.basic.withinExecutionLimit c.home.getCurrentDay t.value = some true)
    (h : exec K ecrecover V call c.home (affirmation a (processTransfer input t)) = some home) :
    Relation.ReflTransGen (CreditStep K ecrecover V input ts) c
      ⟨home, (a, t) :: c.sent, (a, t) :: c.processed⟩ := by
  have hestimate : processTransfers K ecrecover V call input c.home a [t] =
      some [affirmation a (processTransfer input t)] := by
    simp [processTransfers, estimateGas, h]
  refine (Relation.ReflTransGen.single (.estimated ht hestimate)).tail ?_
  refine .executed (c := { c with sent := (a, t) :: c.sent }) 0 ht List.mem_cons_self
    ⟨List.mem_map_of_mem ht, hlimit⟩ ?_ h
  intro x u u' data hc
  exact Relation.ReflTransGen.single (.inl (hcall x u u' data hc))

omit [DecidableEq H] in
/-- The only initial validator stays the only one while nobody manages the validators. -/
theorem only_validator {n : UInt256} {a owner : Address} {v : BridgeValidators}
    (hinit : BridgeValidators.blank.initializeWith n [a] owner = some v) (hs : s.validators = v) {b : Address}
    (hb : s.validators.isValidator b = true) : b = a := by
  rw [hs, BridgeValidators.isValidator_eq] at hb
  exact List.mem_singleton.mp (((BridgeValidators.initializeWith_listed hinit).1.flags b).mp hb)

/-- Account 33 transfers `value` to the foreign bridge 7, in transaction 77. -/
def sampleTransfer (value : UInt256) : Transfer := ⟨33, 7, value, 77⟩

/-- Deposits of 100 and of 200 in one transaction: both are credited. -/
theorem credited_iff_two : ∃ c : Crediting (List Byte) Unit,
    tally amountOf (executedDeposits c.home.bridge.trail) = 300 ∧
    (tally amountOf (executedDeposits c.home.bridge.trail) =
      tally Transfer.amount [sampleTransfer 100, sampleTransfer 200] ↔
        ([sampleTransfer 100, sampleTransfer 200].map (processTransfer plainInput)).Nodup) := by
  have heval : (do
      let v ← BridgeValidators.blank.initializeWith 1 [1] 9
      let s := { sampleHome () with validators := v }
      let limit ← s.bridge.basic.withinExecutionLimit s.getCurrentDay 100
      let s₁ ← exec serialHash noSigner .ercToErcWithFee obliging s (affirmation 1 (33, 100, 77))
      let limit₁ ← s₁.bridge.basic.withinExecutionLimit s₁.getCurrentDay 200
      let s₂ ← exec serialHash noSigner .ercToErcWithFee obliging s₁ (affirmation 1 (33, 200, 77))
      pure (limit, limit₁, tally amountOf (executedDeposits s₂.bridge.trail))) = some (true, true, 300) := by
    decide +kernel
  simp only [Option.bind_eq_bind, Option.bind_eq_some_iff, Option.pure_def, Option.some.injEq,
    Prod.mk.injEq] at heval
  obtain ⟨v, hv, limit, hlimit, s₁, h₁, limit₁, hlimit₁, s₂, h₂, rfl, rfl, htotal⟩ := heval
  have hfirst : Relation.ReflTransGen (CreditStep serialHash noSigner .ercToErcWithFee plainInput
      [sampleTransfer 100, sampleTransfer 200]) ⟨{ sampleHome () with validators := v }, [], []⟩
        ⟨s₁, [(1, sampleTransfer 100)], [(1, sampleTransfer 100)]⟩ :=
    creditStep_sent List.mem_cons_self obliging_within hlimit h₁
  have hsecond : Relation.ReflTransGen (CreditStep serialHash noSigner .ercToErcWithFee plainInput
      [sampleTransfer 100, sampleTransfer 200]) ⟨s₁, [(1, sampleTransfer 100)], [(1, sampleTransfer 100)]⟩
        ⟨s₂, [(1, sampleTransfer 200), (1, sampleTransfer 100)],
          [(1, sampleTransfer 200), (1, sampleTransfer 100)]⟩ :=
    creditStep_sent (by simp) obliging_within hlimit₁ h₂
  refine ⟨_, htotal, credited_iff (deploy_fresh ..) hv (by decide) (hfirst.trans hsecond) ?_⟩
  intro a ha t ht
  have hkept : s₂.validators = v :=
    (exec_validators obliging_within h₂).trans (exec_validators obliging_within h₁)
  rw [only_validator hv hkept ha]
  rcases List.mem_cons.mp ht with rfl | ht'
  · exact List.mem_cons_of_mem _ List.mem_cons_self
  · rw [List.mem_singleton.mp ht']
    exact List.mem_cons_self

/-- Two deposits of 100 of one sender in one transaction: the second one looks processed already, and the
    validator is done with it. -/
theorem twin_deposit_lost : ∃ (v : BridgeValidators) (c : Crediting (List Byte) Unit),
    BridgeValidators.blank.initializeWith 1 [1] 9 = some v ∧
    Relation.ReflTransGen (CreditStep serialHash noSigner .ercToErcWithFee plainInput
      [sampleTransfer 100, sampleTransfer 100]) ⟨{ sampleHome () with validators := v }, [], []⟩ c ∧
    c.processed = [(1, sampleTransfer 100), (1, sampleTransfer 100)] ∧
    (∀ a, c.home.validators.isValidator a = true → a = 1) ∧
    tally amountOf (executedDeposits c.home.bridge.trail) = 100 ∧
    tally Transfer.amount [sampleTransfer 100, sampleTransfer 100] = 200 := by
  have heval : (do
      let v ← BridgeValidators.blank.initializeWith 1 [1] 9
      let s := { sampleHome () with validators := v }
      let limit ← s.bridge.basic.withinExecutionLimit s.getCurrentDay 100
      let s₁ ← exec serialHash noSigner .ercToErcWithFee obliging s (affirmation 1 (33, 100, 77))
      let txs ← processTransfers serialHash noSigner .ercToErcWithFee obliging plainInput s₁ 1 [sampleTransfer 100]
      pure (limit, txs.length, tally amountOf (executedDeposits s₁.bridge.trail))) = some (true, 0, 100) := by
    decide +kernel
  simp only [Option.bind_eq_bind, Option.bind_eq_some_iff, Option.pure_def, Option.some.injEq,
    Prod.mk.injEq] at heval
  obtain ⟨v, hv, limit, hlimit, s₁, h₁, txs, htxs, rfl, hnone, htotal⟩ := heval
  rw [List.length_eq_zero_iff] at hnone
  subst hnone
  have hfirst : Relation.ReflTransGen (CreditStep serialHash noSigner .ercToErcWithFee plainInput
      [sampleTransfer 100, sampleTransfer 100]) ⟨{ sampleHome () with validators := v }, [], []⟩
        ⟨s₁, [(1, sampleTransfer 100)], [(1, sampleTransfer 100)]⟩ :=
    creditStep_sent List.mem_cons_self obliging_within hlimit h₁
  refine ⟨v, _, hv, hfirst.tail (.ignored List.mem_cons_self htxs), rfl, ?_, htotal, rfl⟩
  intro a ha
  exact only_validator hv (exec_validators obliging_within h₁) ha

end Home
end ThunderBridge
