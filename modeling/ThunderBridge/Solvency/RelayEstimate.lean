import ThunderBridge.Solvency.Relayable
import ThunderBridge.Validator.CollectedSignatures

/-!
# `Solvency.RelayEstimate` — which announced messages the responsible validator sends

Once the signatures of an announced message are read, `processCollectedSignatures` estimates the gas of
`executeSignatures` on the foreign chain. When that fails it looks for the reason: a message already relayed, too few
signatures, or a signer who is no validator there is logged and dropped, anything else is thrown, and the event
is tried again later. A dropped event is never looked at again, and no other validator is responsible for it.

The bridge checks as many signatures as it requires, in the order in which their reads completed; the search for
a reason goes through all of them. `relay_outcome` says which messages are sent, dropped and thrown, and
`relay_sends` that over a token that pays none is thrown.
-/

namespace ThunderBridge

/-- How `estimateGas` fails. -/
inductive RelayError where
  | AlreadyProcessedError
  | IncompatibleContractError
  | InvalidValidatorError
  | unknown
deriving DecidableEq, Repr

namespace CollectedSignatures

variable {H W : Type} (K : CollisionFree H) (ecrecover : Ecrecover H)

/-! ## The program -/

/-- `web3.eth.accounts.recover`: who signed the message; it throws when nobody did. -/
def recover (message : Bytes) (x : Byte × Bytes32 × Bytes32) : Option Address := do
  let address := ecrecover (Message.hashMessage K message) x.1 x.2.1 x.2.2
  require (address ≠ 0)
  pure address

/-- The loop over the signatures, then the error that is left. -/
def checkSigners (validatorContract : BridgeValidators) (message : Bytes) :
    List (Byte × Bytes32 × Bytes32) → RelayError
  | [] => .unknown
  | x :: xs =>
      match recover K ecrecover message x with
      | none => .unknown
      | some address =>
          if validatorContract.isValidator address = true then checkSigners validatorContract message xs
          else .InvalidValidatorError

/-- `processCollectedSignatures/estimateGas`: the call is tried, and its failure explained. -/
def estimateGas (V : ForeignVariant) (call : Callee (Foreign W)) (s : Foreign W) (vs : List Byte)
    (rs ss : List Bytes32) (message : Bytes) (numberOfCollectedSignatures : UInt256) : Except RelayError Unit :=
  if (Foreign.executeSignatures K ecrecover V call s vs rs ss message).isSome then .ok ()
  else
    match Message.parseMessage message with
    | none => .error .unknown
    | some m =>
        if s.relayedMessages m.txHash = true then .error .AlreadyProcessedError
        else if numberOfCollectedSignatures < s.validators.requiredSignatures then .error .IncompatibleContractError
        else .error (checkSigners K ecrecover s.validators message (vs.zip (rs.zip ss)))

/-- What `processCollectedSignatures` does for an event whose signatures are read: the transaction to send, if any;
    `none` when it throws. -/
def processCollectedSignatures (coder : AbiCoder) (V : ForeignVariant) (call : Callee (Foreign W)) (s : Foreign W)
    (g : Gathering H) (numberOfCollectedSignatures : UInt256) : Option (Option ForeignTx) := do
  let (v, r, ss, message) ← Relayer.encodeABI coder g
  match estimateGas K ecrecover V call s v r ss message numberOfCollectedSignatures with
  | .ok _ => some (some (.executeSignatures v r ss message))
  | .error .AlreadyProcessedError => some none
  | .error .IncompatibleContractError => some none
  | .error .InvalidValidatorError => some none
  | .error .unknown => none

variable {K ecrecover}

/-! ## The reason that is found -/

section Reasons

variable {validatorContract : BridgeValidators} {message : Bytes} {V : ForeignVariant} {call : Callee (Foreign W)}
  {s : Foreign W} {vs : List Byte} {rs ss : List Bytes32} {n : UInt256} {m : ParsedMessage}

/-- The signers of a list of signatures. -/
def signersOf (K : CollisionFree H) (ecrecover : Ecrecover H) (message : Bytes)
    (xs : List (Byte × Bytes32 × Bytes32)) : List Address :=
  xs.map fun x => ecrecover (Message.hashMessage K message) x.1 x.2.1 x.2.2

/-- With signatures that all have a signer, the loop finds whether one of them is no validator. -/
theorem checkSigners_eq {xs : List (Byte × Bytes32 × Bytes32)}
    (hsigned : ∀ a ∈ signersOf K ecrecover message xs, a ≠ 0) :
    checkSigners K ecrecover validatorContract message xs =
      if ∀ a ∈ signersOf K ecrecover message xs, validatorContract.isValidator a = true then .unknown
      else .InvalidValidatorError := by
  induction xs with
  | nil =>
      rw [checkSigners, if_pos]
      intro a ha
      exact absurd ha List.not_mem_nil
  | cons x xs ih =>
      have hcons : signersOf K ecrecover message (x :: xs) =
          ecrecover (Message.hashMessage K message) x.1 x.2.1 x.2.2 :: signersOf K ecrecover message xs := rfl
      rw [hcons, List.forall_mem_cons] at hsigned
      obtain ⟨hfirst, hrest⟩ := hsigned
      have hrecover : recover K ecrecover message x =
          some (ecrecover (Message.hashMessage K message) x.1 x.2.1 x.2.2) := by
        simp only [recover, require_pos hfirst, Option.bind_eq_bind, Option.bind_some, Option.pure_def]
      simp only [checkSigners, hrecover, hcons, List.forall_mem_cons, ih hrest]
      by_cases hval : validatorContract.isValidator
          (ecrecover (Message.hashMessage K message) x.1 x.2.1 x.2.2) = true
      · simp only [hval, if_true, true_and]
      · rw [if_neg hval, if_neg fun hall => hval hall.1]

/-- **What the estimate finds.** -/
theorem estimateGas_eq (hm : Message.parseMessage message = some m)
    (hsigned : ∀ a ∈ signersOf K ecrecover message (vs.zip (rs.zip ss)), a ≠ 0) :
    estimateGas K ecrecover V call s vs rs ss message n =
      if (Foreign.executeSignatures K ecrecover V call s vs rs ss message).isSome then .ok ()
      else if s.relayedMessages m.txHash = true then .error .AlreadyProcessedError
      else if n < s.validators.requiredSignatures then .error .IncompatibleContractError
      else if ∀ a ∈ signersOf K ecrecover message (vs.zip (rs.zip ss)), s.validators.isValidator a = true then
        .error .unknown
      else .error .InvalidValidatorError := by
  rw [estimateGas, hm, checkSigners_eq hsigned]
  split
  · rfl
  · show (if _ then _ else if _ then _ else Except.error (if _ then _ else _)) = _
    split
    · rfl
    · split
      · rfl
      · split <;> rfl

/-- **What is done with the arrays.** -/
theorem processCollectedSignatures_eq {coder : AbiCoder} {g : Gathering H}
    (hencode : Relayer.encodeABI coder g = some (vs, rs, ss, message))
    (hm : Message.parseMessage message = some m)
    (hsigned : ∀ a ∈ signersOf K ecrecover message (vs.zip (rs.zip ss)), a ≠ 0) :
    processCollectedSignatures K ecrecover coder V call s g n =
      if (Foreign.executeSignatures K ecrecover V call s vs rs ss message).isSome then
        some (some (.executeSignatures vs rs ss message))
      else if s.relayedMessages m.txHash = false ∧ s.validators.requiredSignatures ≤ n ∧
          ∀ a ∈ signersOf K ecrecover message (vs.zip (rs.zip ss)), s.validators.isValidator a = true then none
      else some none := by
  simp only [processCollectedSignatures, hencode, Option.bind_eq_bind, Option.bind_some, estimateGas_eq hm hsigned]
  by_cases hexec : (Foreign.executeSignatures K ecrecover V call s vs rs ss message).isSome = true
  · rw [if_pos hexec, if_pos hexec]
  · rw [if_neg hexec, if_neg hexec]
    by_cases hrelayed : s.relayedMessages m.txHash = true
    · rw [if_pos hrelayed, if_neg fun hall => absurd (hrelayed.symm.trans hall.1) (by decide)]
    · rw [if_neg hrelayed]
      by_cases hfew : n < s.validators.requiredSignatures
      · rw [if_pos hfew, if_neg fun hall => absurd hfew (BitVec.not_lt.mpr hall.2.1)]
      · rw [if_neg hfew]
        by_cases hval : ∀ a ∈ signersOf K ecrecover message (vs.zip (rs.zip ss)),
            s.validators.isValidator a = true
        · rw [if_pos hval, if_pos ⟨Bool.eq_false_iff.mpr hrelayed, BitVec.not_lt.mp hfew, hval⟩]
        · rw [if_neg hval, if_neg fun hall => hval hall.2.2]

/-- The contract looks at the first of them. -/
theorem recoveredSigners_eq (k : Nat) : Message.recoveredSigners ecrecover (Message.hashMessage K message) vs rs ss k =
    (signersOf K ecrecover message (vs.zip (rs.zip ss))).take k := List.map_take

end Reasons

/-! ## An announced message -/

section Announced

variable [DecidableEq H] {coder : AbiCoder} {V : HomeVariant} {validator authority : Address} {s₀ s s' : Home H W}
  {tx : Bytes32} {h : H} {n : UInt256} {g : Gathering H}

/-- The validators of the home chain stay sound while the process runs. -/
theorem step_sound {x y : Home H W × Relayer H} (hstep : Relayer.Step K ecrecover V coder validator x y)
    (hx : x.1.validators.Sound) : y.1.validators.Sound := by
  cases hstep with
  | chain h =>
      obtain ⟨hchain, _⟩ := h
      cases hchain with
      | bridge k h =>
          have hsettled := Home.call_keeps Home.keptByCalls_settled k _ _ h
          rw [hsettled.validators]
          exact hx
      | validators hv => exact hv.elim fun _ hop => BridgeValidators.run_sound hop hx
      | tick _ _ _ => exact hx
      | elsewhere h =>
          rw [(Home.elsewhere_quiet h).sameDeposits.validators]
          exact hx
  | notResponsible _ => exact hx
  | message => exact hx
  | signature _ => exact hx

/-- **What was read**: as many signatures as were announced, by distinct validators of the home chain. -/
theorem Underway.signatures (hx : Underway K ecrecover coder h n (s, .gathering g)) (hdone : g.pending = []) :
    ∃ vs rs ss, Relayer.encodeABI coder g = some (vs, rs, ss, s.message h) ∧ (s.message h).length = 104 ∧
      vs.length = n.toNat ∧ rs.length = n.toNat ∧ ss.length = n.toNat ∧
      (signersOf K ecrecover (s.message h) (vs.zip (rs.zip ss))).Nodup ∧
      ∀ a ∈ signersOf K ecrecover (s.message h) (vs.zip (rs.zip ss)), s.validators.isValidator a = true := by
  obtain ⟨hcoll, hann, finished, hg⟩ := hx
  obtain ⟨signers, hslots⟩ := hcoll.slots h
  have hperm : finished.Perm (List.range n.toNat) := by
    have hindexes := hg.indexes
    rwa [hdone, List.append_nil] at hindexes
  have hcount : finished.length = n.toNat := by rw [hperm.length_eq, List.length_range]
  have hsigner : ∀ i ∈ finished, ∃ a, signers[i]? = some a ∧ s.validators.isValidator a = true ∧
      slotSigner K ecrecover s h i = a := by
    intro i hi
    have hindex : i < n.toNat := List.mem_range.mp (hperm.mem_iff.mp hi)
    obtain ⟨a, hget, hval, hrec⟩ := hann.signature hslots hindex
    exact ⟨a, hget, hval, (recover_eq_some hrec).2⟩
  have hsigners : signersOf K ecrecover (s.message h)
      ((finished.map fun i => loadedV (s.signature K h (BitVec.ofNat 256 i))).zip
        ((finished.map fun i => loadedR (s.signature K h (BitVec.ofNat 256 i))).zip
          (finished.map fun i => loadedS (s.signature K h (BitVec.ofNat 256 i))))) =
      finished.map (slotSigner K ecrecover s h) := by
    rw [signersOf, List.zip_map', List.zip_map', List.map_map]
    rfl
  refine ⟨finished.map fun i => loadedV (s.signature K h (BitVec.ofNat 256 i)),
    finished.map fun i => loadedR (s.signature K h (BitVec.ofNat 256 i)),
    finished.map fun i => loadedS (s.signature K h (BitVec.ofNat 256 i)), ?_, (hann.message hslots).1, ?_, ?_, ?_, ?_⟩
  · simp only [Relayer.encodeABI, hg.v, hg.r, hg.s, hg.message, Option.bind_eq_bind, Option.bind_some]
    rfl
  · rw [List.length_map, hcount]
  · rw [List.length_map, hcount]
  · rw [List.length_map, hcount]
  · rw [hsigners]
    refine ⟨?_, ?_⟩
    · apply List.Nodup.map_on _ (hperm.nodup_iff.mpr List.nodup_range)
      intro i hi j hj heq
      obtain ⟨a, hgeti, _, hai⟩ := hsigner i hi
      obtain ⟨b, hgetj, _, hbj⟩ := hsigner j hj
      have hab : a = b := by rw [← hai, ← hbj]; exact heq
      have hlt : i < signers.length := (List.getElem?_eq_some_iff.mp hgeti).1
      apply (List.getElem?_inj hlt hslots.distinct).mp
      rw [hgeti, hgetj, hab]
    · intro a ha
      obtain ⟨i, hi, rfl⟩ := List.mem_map.mp ha
      obtain ⟨a, _, hval, hrec⟩ := hsigner i hi
      rw [hrec]
      exact hval

/-- The messages that are announced are messages, and their signers are somebody. -/
theorem announced_signatures (hfresh : Home.Fresh s₀)
    (hrun : Relation.ReflTransGen (Home.StepGrowing K ecrecover V) s₀ s)
    (hevent : (tx, HomeEvent.CollectedSignatures authority h n) ∈ s.bridge.log)
    (hsteps : Relation.ReflTransGen (Relayer.Step K ecrecover V coder validator) (s, .notified authority h n)
      (s', .gathering g)) (hdone : g.pending = []) :
    ∃ vs rs ss m, Relayer.encodeABI coder g = some (vs, rs, ss, s'.message h) ∧
      Message.parseMessage (s'.message h) = some m ∧ (s'.message h).length = 104 ∧
      vs.length = n.toNat ∧ rs.length = n.toNat ∧ ss.length = n.toNat ∧
      (signersOf K ecrecover (s'.message h) (vs.zip (rs.zip ss))).Nodup ∧
      ∀ a ∈ signersOf K ecrecover (s'.message h) (vs.zip (rs.zip ss)), a ≠ 0 := by
  have hcoll := Home.run_collecting hfresh hrun
  have hstart : Underway K ecrecover coder h n (s, .notified authority h n) :=
    ⟨hcoll, hcoll.announced (Home.collections_of_log hevent), rfl, rfl⟩
  have hend : Underway K ecrecover coder h n (s', .gathering g) :=
    Calls.steps_invariant (P := Underway K ecrecover coder h n) (fun _ _ hx hstep => step_underway hx hstep)
      hsteps hstart
  -- the run before the event is one of the process on no event
  have hbefore : Relation.ReflTransGen (Relayer.Step K ecrecover V coder validator) (s₀, .skipped) (s, .skipped) :=
    hrun.lift (fun t => (t, Relayer.skipped)) fun _ _ hstep => .chain hstep
  have hblank : s₀.validators.Sound := hfresh.validators ▸ BridgeValidators.blank_sound
  have hsound₁ : s.validators.Sound :=
    Calls.steps_invariant (P := fun x : Home H W × Relayer H => x.1.validators.Sound)
      (fun _ _ hx hstep => step_sound hstep hx) hbefore hblank
  have hsound : s'.validators.Sound :=
    Calls.steps_invariant (P := fun x : Home H W × Relayer H => x.1.validators.Sound)
      (fun _ _ hx hstep => step_sound hstep hx) hsteps hsound₁
  obtain ⟨vs, rs, ss, hencode, hlen, hvs, hrs, hss, hnd, hval⟩ := Underway.signatures hend hdone
  obtain ⟨m, hm⟩ : ∃ m, Message.parseMessage (s'.message h) = some m := by
    have hvalid : Message.isMessageValid (s'.message h) = true := by
      simp [Message.isMessageValid, Message.requiredMessageLength, hlen]
    exact ⟨_, by rw [Message.parseMessage, require_pos hvalid]; rfl⟩
  refine ⟨vs, rs, ss, m, hencode, hm, hlen, hvs, hrs, hss, hnd, ?_⟩
  rintro a ha rfl
  have hzero := hval 0 ha
  rw [BridgeValidators.isValidator_eq, hsound.zero_not_validator] at hzero
  exact Bool.false_ne_true hzero

variable {W' : Type} {V' : ForeignVariant} {call : Callee (Foreign W')} {f₀ f : Foreign W'}

/-- **What becomes of an announced message.** In every run of the home chain without removals, however the reads fall
    between its steps, and for a foreign bridge in any state: the transaction is sent if it would go through; if
    not, the event is thrown when the message is not relayed, enough signatures were announced, and all their
    signers are validators there; otherwise it is dropped. -/
theorem relay_outcome (hfresh : Home.Fresh s₀)
    (hrun : Relation.ReflTransGen (Home.StepGrowing K ecrecover V) s₀ s)
    (hevent : (tx, HomeEvent.CollectedSignatures authority h n) ∈ s.bridge.log)
    (hsteps : Relation.ReflTransGen (Relayer.Step K ecrecover V coder validator) (s, .notified authority h n)
      (s', .gathering g)) (hdone : g.pending = []) :
    ∃ vs rs ss m, Relayer.encodeABI coder g = some (vs, rs, ss, s'.message h) ∧
      Message.parseMessage (s'.message h) = some m ∧
      processCollectedSignatures K ecrecover coder V' call f g n =
        if (Foreign.executeSignatures K ecrecover V' call f vs rs ss (s'.message h)).isSome then
          some (some (.executeSignatures vs rs ss (s'.message h)))
        else if f.relayedMessages m.txHash = false ∧ f.validators.requiredSignatures ≤ n ∧
            ∀ a ∈ signersOf K ecrecover (s'.message h) (vs.zip (rs.zip ss)), f.validators.isValidator a = true then
          none
        else some none := by
  obtain ⟨vs, rs, ss, m, hencode, hm, _, _, _, _, _, hsigned⟩ :=
    announced_signatures hfresh hrun hevent hsteps hdone
  exact ⟨vs, rs, ss, m, hencode, hm, processCollectedSignatures_eq hencode hm hsigned⟩

/-- **Which announced messages are sent**, by a bridge of V2 or V3 over a token that pays what the bridge has. Of those
    that name the bridge and an amount it has: those not yet relayed, with as many signatures announced as the bridge
    requires, the first of them in the order of the reads by its validators. The others are dropped, and none is
    thrown. -/
theorem relay_sends {T : Erc20 W'} {m : ParsedMessage} (hfresh : Home.Fresh s₀)
    (hrun : Relation.ReflTransGen (Home.StepGrowing K ecrecover V) s₀ s)
    (hevent : (tx, HomeEvent.CollectedSignatures authority h n) ∈ s.bridge.log)
    (hsteps : Relation.ReflTransGen (Relayer.Step K ecrecover V coder validator) (s, .notified authority h n)
      (s', .gathering g)) (hdone : g.pending = [])
    (hforeign : Foreign.Fresh f₀) (hrun' : Foreign.Run K ecrecover V' f₀ f) (hV : V' ≠ .ercToErc)
    (hpays : Foreign.Pays T call) (hm : Message.parseMessage (s'.message h) = some m)
    (haddress : m.contractAddress = f.bridge.self) (henough : m.amount.toNat ≤ T.balanceOf f.world f.bridge.self) :
    ∃ vs rs ss, Relayer.encodeABI coder g = some (vs, rs, ss, s'.message h) ∧
      processCollectedSignatures K ecrecover coder V' call f g n =
        some (if f.relayedMessages m.txHash = false ∧ f.validators.requiredSignatures ≤ n ∧
            ∀ a ∈ (signersOf K ecrecover (s'.message h) (vs.zip (rs.zip ss))).take
              f.validators.requiredSignatures.toNat, f.validators.isValidator a = true then
          some (.executeSignatures vs rs ss (s'.message h))
        else none) := by
  obtain ⟨vs, rs, ss, m', hencode, hm', hlen, hvs, hrs, hss, hnd, hsigned⟩ :=
    announced_signatures hfresh hrun hevent hsteps hdone
  obtain rfl : m = m' := Option.some.inj (hm.symm.trans hm')
  have hsound : f.validators.Sound := (Foreign.run_relayed hforeign hrun').sound
  -- the bridge accepts the signatures if enough of the first ones are by its validators
  have haccepts : Message.hasEnoughValidSignatures K ecrecover (s'.message h) vs rs ss f.validators = some () ↔
      f.validators.requiredSignatures ≤ n ∧
        ∀ a ∈ (signersOf K ecrecover (s'.message h) (vs.zip (rs.zip ss))).take
          f.validators.requiredSignatures.toNat, f.validators.isValidator a = true := by
    rw [Message.hasEnoughValidSignatures_iff hsound, recoveredSigners_eq, hvs, hrs, hss, BitVec.le_def]
    constructor
    · rintro ⟨_, hle, _, _, _, hval⟩
      exact ⟨hle, hval⟩
    · rintro ⟨hle, hval⟩
      exact ⟨hlen, hle, hle, hle, hnd.sublist (List.take_sublist _ _), hval⟩
  have hexecutes : (Foreign.executeSignatures K ecrecover V' call f vs rs ss (s'.message h)).isSome ↔
      f.relayedMessages m.txHash = false ∧ f.validators.requiredSignatures ≤ n ∧
        ∀ a ∈ (signersOf K ecrecover (s'.message h) (vs.zip (rs.zip ss))).take
          f.validators.requiredSignatures.toNat, f.validators.isValidator a = true := by
    rw [← haccepts]
    constructor
    · intro hsome
      obtain ⟨f', hf'⟩ := Option.isSome_iff_exists.mp hsome
      obtain ⟨m', _, hsignatures, hparsed, _, _, hopen, _⟩ := Foreign.executeSignatures_cases hf'
      obtain rfl : m = m' := Option.some.inj (hm.symm.trans hparsed)
      exact ⟨hopen, hsignatures⟩
    · rintro ⟨hopen, hsignatures⟩
      obtain ⟨f', hf', _⟩ := Foreign.executeSignatures_of_pays hV hpays hsignatures hm haddress hopen henough
      rw [hf']
      rfl
  refine ⟨vs, rs, ss, hencode, ?_⟩
  rw [processCollectedSignatures_eq hencode hm hsigned]
  by_cases hexec : (Foreign.executeSignatures K ecrecover V' call f vs rs ss (s'.message h)).isSome = true
  · rw [if_pos hexec, if_pos (hexecutes.mp hexec)]
  · rw [if_neg hexec, if_neg fun hall => hexec (hexecutes.mpr hall)]
    -- signers who are all validators include the first of them
    rw [if_neg]
    rintro ⟨hopen, hle, hval⟩
    exact hexec (hexecutes.mpr ⟨hopen, hle, fun a ha => hval a (List.mem_of_mem_take ha)⟩)

end Announced

/-! ## Two signatures -/

open Bridges (Ledger ledgerToken)

/-- Validators 1 and 2 of the home chain sign the message, and 2 is responsible; on the foreign chain 1 is the only
    validator. The reads of the signatures complete in one order or the other. -/
theorem sample_collected : ∃ (s : Home (List Byte) Unit) (h : List Byte) (g g' : Gathering (List Byte))
    (v : BridgeValidators),
    Relation.ReflTransGen (Home.StepGrowing serialHash Foreign.signerV .ercToErcWithFee) (Home.sampleHome ()) s ∧
    (0, HomeEvent.CollectedSignatures 2 h 2) ∈ s.bridge.log ∧
    Relation.ReflTransGen (Relayer.Step serialHash Foreign.signerV .ercToErcWithFee hexCoder 2)
      (s, .notified 2 h 2) (s, .gathering g) ∧ g.pending = [] ∧
    Relation.ReflTransGen (Relayer.Step serialHash Foreign.signerV .ercToErcWithFee hexCoder 2)
      (s, .notified 2 h 2) (s, .gathering g') ∧ g'.pending = [] ∧
    Message.parseMessage (s.message h) = some Foreign.sampleMessage ∧
    Relayer.encodeABI hexCoder g = some ([1, 2], [0, 0], [0, 0], s.message h) ∧
    Relayer.encodeABI hexCoder g' = some ([2, 1], [0, 0], [0, 0], s.message h) ∧
    BridgeValidators.blank.initializeWith 1 [1] 9 = some v ∧ v.requiredSignatures = 1 ∧
    v.isValidator 1 = true ∧ v.isValidator 2 = false ∧
    Message.hasEnoughValidSignatures serialHash Foreign.signerV (s.message h) [1, 2] [0, 0] [0, 0] v = some () := by
  have heval : (do
      let contract ← BridgeValidators.blank.initializeWith 2 [1, 2] 9
      let s₁ ← Home.exec serialHash Foreign.signerV .ercToErcWithFee Home.obliging
        { Home.sampleHome () with validators := contract }
        (.submitSignature 1 (signatureBy 1) (Message.encode Foreign.sampleMessage))
      let s₂ ← Home.exec serialHash Foreign.signerV .ercToErcWithFee Home.obliging s₁
        (.submitSignature 2 (signatureBy 2) (Message.encode Foreign.sampleMessage))
      let h := Home.messageHash serialHash (Message.encode Foreign.sampleMessage)
      let g₀ ← (Relayer.readMessage hexCoder s₂ h 2).underway
      let g₁ ← (Relayer.readSignature hexCoder serialHash s₂ g₀ 0).underway
      let g₂ ← (Relayer.readSignature hexCoder serialHash s₂ g₁ 1).underway
      let g₁' ← (Relayer.readSignature hexCoder serialHash s₂ g₀ 1).underway
      let g₂' ← (Relayer.readSignature hexCoder serialHash s₂ g₁' 0).underway
      let v ← BridgeValidators.blank.initializeWith 1 [1] 9
      require (0 ∈ g₀.pending ∧ 1 ∈ g₁.pending ∧ g₂.pending = [] ∧ 1 ∈ g₀.pending ∧ 0 ∈ g₁'.pending ∧ g₂'.pending = [])
      require (s₂.bridge.log.head? = some (0, .CollectedSignatures 2 h 2) ∧
        Message.parseMessage (s₂.message h) = some Foreign.sampleMessage)
      require (Relayer.encodeABI hexCoder g₂ = some ([1, 2], [0, 0], [0, 0], s₂.message h) ∧
        Relayer.encodeABI hexCoder g₂' = some ([2, 1], [0, 0], [0, 0], s₂.message h))
      require (v.requiredSignatures = 1 ∧ v.isValidator 1 = true ∧ v.isValidator 2 = false)
      Message.hasEnoughValidSignatures serialHash Foreign.signerV (s₂.message h) [1, 2] [0, 0] [0, 0] v
      pure ()) = some () := by
    decide +kernel
  obtain ⟨contract, hcontract, heval⟩ := Option.bind_eq_some_iff.mp heval
  obtain ⟨s₁, h₁, heval⟩ := Option.bind_eq_some_iff.mp heval
  obtain ⟨s₂, h₂, heval⟩ := Option.bind_eq_some_iff.mp heval
  obtain ⟨g₀, hg₀, heval⟩ := Option.bind_eq_some_iff.mp heval
  obtain ⟨g₁, hg₁, heval⟩ := Option.bind_eq_some_iff.mp heval
  obtain ⟨g₂, hg₂, heval⟩ := Option.bind_eq_some_iff.mp heval
  obtain ⟨g₁', hg₁', heval⟩ := Option.bind_eq_some_iff.mp heval
  obtain ⟨g₂', hg₂', heval⟩ := Option.bind_eq_some_iff.mp heval
  obtain ⟨v, hv, heval⟩ := Option.bind_eq_some_iff.mp heval
  obtain ⟨_, hpending, heval⟩ := Option.bind_eq_some_iff.mp heval
  obtain ⟨_, hevent, heval⟩ := Option.bind_eq_some_iff.mp heval
  obtain ⟨_, hread, heval⟩ := Option.bind_eq_some_iff.mp heval
  obtain ⟨_, hcontract', heval⟩ := Option.bind_eq_some_iff.mp heval
  obtain ⟨_, henough, _⟩ := Option.bind_eq_some_iff.mp heval
  obtain ⟨hi₀, hi₁, hdone, hj₁, hj₀, hdone'⟩ := require_eq_some.mp hpending
  obtain ⟨hlog, hparse⟩ := require_eq_some.mp hevent
  obtain ⟨hargs, hargs'⟩ := require_eq_some.mp hread
  obtain ⟨hreq, hone, htwo⟩ := require_eq_some.mp hcontract'
  rw [Relayer.underway_eq_some] at hg₀ hg₁ hg₂ hg₁' hg₂'
  have hrun : Relation.ReflTransGen (Home.StepGrowing serialHash Foreign.signerV .ercToErcWithFee)
      (Home.sampleHome ()) s₂ := by
    refine .tail (.tail (.single ⟨.validators ⟨.initializeWith 2 [1, 2] 9, hcontract⟩, ?_⟩)
      (Home.growing_of_exec Home.obliging_within h₁)) (Home.growing_of_exec Home.obliging_within h₂)
    intro a ha
    rw [BridgeValidators.isValidator_eq] at ha
    exact absurd ha Bool.false_ne_true
  have hmessage : Relation.ReflTransGen (Relayer.Step serialHash Foreign.signerV .ercToErcWithFee hexCoder 2)
      (s₂, .notified 2 (Home.messageHash serialHash (Message.encode Foreign.sampleMessage)) 2) (s₂, .gathering g₀) := by
    rw [← hg₀]
    exact .single .message
  refine ⟨s₂, _, g₂, g₂', v, hrun, List.mem_of_mem_head? hlog, ?_, hdone, ?_, hdone', hparse,
    hargs, hargs', hv, hreq, hone, htwo, henough⟩
  · rw [← hg₂]
    refine .tail ?_ (.signature hi₁)
    rw [← hg₁]
    exact hmessage.tail (.signature hi₀)
  · rw [← hg₂']
    refine .tail ?_ (.signature hj₀)
    rw [← hg₁']
    exact hmessage.tail (.signature hj₁)

/-- The order of the reads decides: with the signature of 1 first the message is sent, with that of 2 first it is
    dropped. -/
theorem relay_sends_by_order : ∃ (g g' : Gathering (List Byte)) (f : Foreign Ledger) (message : Bytes),
    processCollectedSignatures serialHash Foreign.signerV hexCoder .ercToErcV2 ledgerToken f g 2 =
      some (some (.executeSignatures [1, 2] [0, 0] [0, 0] message)) ∧
    processCollectedSignatures serialHash Foreign.signerV hexCoder .ercToErcV2 ledgerToken f g' 2 = some none := by
  obtain ⟨s, h, g, g', v, hrun, hevent, hsteps, hdone, hsteps', hdone', hparse, hargs, hargs', hv, hreq, hone, htwo,
    _⟩ := sample_collected
  have hV : ForeignVariant.ercToErcV2 ≠ .ercToErc := by decide
  have hfresh : Foreign.Fresh (Foreign.reserveOf v) := Foreign.deploy_fresh hv ..
  have hrequired : (Foreign.reserveOf v).validators.requiredSignatures.toNat = 1 := by
    show v.requiredSignatures.toNat = 1
    rw [hreq]
    rfl
  obtain ⟨_, _, _, hencode, hsent⟩ := relay_sends (Home.deploy_fresh ..) hrun hevent hsteps hdone hfresh .refl
    hV Foreign.ledgerToken_pays hparse rfl (Nat.le_refl 100)
  obtain ⟨_, _, _, hencode', hdropped⟩ := relay_sends (Home.deploy_fresh ..) hrun hevent hsteps' hdone' hfresh .refl
    hV Foreign.ledgerToken_pays hparse rfl (Nat.le_refl 100)
  obtain ⟨rfl, rfl, rfl, _⟩ := Option.some.inj (hargs.symm.trans hencode)
  obtain ⟨rfl, rfl, rfl, _⟩ := Option.some.inj (hargs'.symm.trans hencode')
  refine ⟨g, g', Foreign.reserveOf v, s.message h, ?_, ?_⟩
  · rw [hsent, if_pos]
    refine ⟨rfl, ?_, ?_⟩
    · show v.requiredSignatures ≤ 2
      rw [hreq]
      decide
    · rw [hrequired]
      intro a ha
      obtain rfl : a = 1 := List.mem_singleton.mp ha
      exact hone
  · rw [hdropped, if_neg]
    rintro ⟨_, _, hval⟩
    rw [hrequired] at hval
    have hsecond : v.isValidator 2 = true := hval 2 (List.mem_singleton.mpr rfl)
    rw [htwo] at hsecond
    exact Bool.false_ne_true hsecond

/-- While the token is paused the message is dropped, though the bridge requires the first signature only; with the
    token at work it would have been sent. -/
theorem relay_outcome_paused : ∃ (g : Gathering (List Byte)) (f : Foreign Ledger) (message : Bytes),
    processCollectedSignatures serialHash Foreign.signerV hexCoder .ercToErcV2 (fun _ _ => none) f g 2 = some none ∧
    (Foreign.executeSignatures serialHash Foreign.signerV .ercToErcV2 ledgerToken f [1, 2] [0, 0] [0, 0]
      message).isSome := by
  obtain ⟨s, h, g, _, v, hrun, hevent, hsteps, hdone, _, _, hparse, hargs, _, _, _, _, htwo, henough⟩ :=
    sample_collected
  obtain ⟨vs, rs, ss, m, hencode, hm, houtcome⟩ := relay_outcome (Home.deploy_fresh ..) hrun hevent hsteps hdone
  obtain ⟨rfl, rfl, rfl, _⟩ := Option.some.inj (hargs.symm.trans hencode)
  refine ⟨g, Foreign.reserveOf v, s.message h, ?_, ?_⟩
  · rw [houtcome, if_neg, if_neg]
    · rintro ⟨_, _, hval⟩
      have hsecond : v.isValidator 2 = true := hval 2 (List.mem_cons_of_mem _ (List.mem_singleton.mpr rfl))
      rw [htwo] at hsecond
      exact Bool.false_ne_true hsecond
    · intro hsome
      obtain ⟨f', hf'⟩ := Option.isSome_iff_exists.mp hsome
      obtain ⟨_, _, _, _, _, _, _, hpaid, _⟩ := Foreign.executeSignatures_cases hf'
      exact Bool.false_ne_true (congrArg Prod.snd (Option.some.inj hpaid))
  · have hV : ForeignVariant.ercToErcV2 ≠ .ercToErc := by decide
    obtain ⟨f', hf', _⟩ := Foreign.executeSignatures_of_pays (s := Foreign.reserveOf v) hV Foreign.ledgerToken_pays
      henough hparse rfl rfl (Nat.le_refl 100)
    rw [hf']
    rfl

end CollectedSignatures
end ThunderBridge
