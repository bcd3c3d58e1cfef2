import ThunderBridge.Contracts.HomeBridge.Threshold
import ThunderBridge.Contracts.HomeBridge.Inner
import ThunderBridge.Lib.Vault

/-!
# `HomeBridge.Custody` — the coin `HomeBridgeNativeToErcWithFee` holds

The native home bridge is its own token and holds the coin that backs the tokens on the other chain. Besides the calls
of every home bridge (`BridgeTx`) it has `callToken`, by which the owner has it call itself, and `claimTokens`,
inherited from `BasicBridge` without an override: for the token zero it sends all coin.

`Loses n` is what a part of a call keeps: the coin falls by `n` more than the deposits that were settled. A settlement
costs its value and is then recorded; a withdrawal costs its fee, which is part of the coin it was paid. So a whole
call keeps `Loses 0`, whatever calls it back, as long as nobody claims coin (`Careful`).
-/

namespace ThunderBridge

/-- Who makes a call. -/
def BridgeTx.sender : BridgeTx → Address
  | .executeAffirmation sender _ _ _ | .fixAssetsAboveLimits sender _ _ | .onTokenTransfer sender _ _ => sender
  | .transferAndCall sender _ _ _ | .submitSignature sender _ _ | .setting sender _ => sender

/-- The coin a call is paid; only `transferAndCall` is payable. -/
def BridgeTx.msgValue : BridgeTx → UInt256
  | .transferAndCall _ _ _ msgValue => msgValue
  | _ => 0

/-- One call of `HomeBridgeNativeToErcWithFee`. -/
inductive CoinTx where
  | call (tx : BridgeTx)
  | claimTokens (sender token target : Address)
  | transferProxyOwnership (sender newOwner : Address)
  /-- The owner has the bridge call its token with the given data. -/
  | callToken (sender : Address) (msgValue : UInt256) (data : CoinTx)

def CoinTx.sender : CoinTx → Address
  | .call tx => tx.sender
  | .claimTokens sender _ _ | .transferProxyOwnership sender _ | .callToken sender _ _ => sender

def CoinTx.msgValue : CoinTx → UInt256
  | .call tx => tx.msgValue
  | .claimTokens _ _ _ | .transferProxyOwnership _ _ => 0
  | .callToken _ msgValue _ => msgValue

namespace Home

variable {H W : Type}

/-! ## Approved settlements -/

section Approved

/-- **Approved**: as many distinct validators signed the deposit as were required when it was settled. -/
structure Approved (s : Home H W) (d : Deposit) : Prop where
  distinct : (signersOf d s.bridge.trail).Nodup
  validator : ∀ a ∈ signersOf d s.bridge.trail, ∃ v, Mark.signed a d v ∈ s.bridge.trail ∧ v.isValidator a = true
  enough : ∃ w v, Mark.executed d w v ∈ s.bridge.trail ∧
    v.requiredSignatures.toNat ≤ (signersOf d s.bridge.trail).length

/-- The word of every settled deposit is the one it was settled with. -/
def WordsKept (K : CollisionFree H) (s : Home H W) : Prop :=
  ∀ d w v, Mark.executed d w v ∈ s.bridge.trail → s.numAffirmationsSigned (depositHash K d) = w

variable {K : CollisionFree H} {s s' s₁ s₂ s₃ : Home H W} {P : Finset Deposit} {d : Deposit}

theorem Threshold.approved (hP : Threshold K P s) (hwords : WordsKept K s)
    (hd : d ∈ executedDeposits s.bridge.trail) : Approved s d := by
  obtain ⟨w, v, hm⟩ := mem_executedDeposits.mp hd
  refine ⟨hP.distinct d, ?_, w, v, hm, ?_⟩
  · intro a ha
    obtain ⟨v, hsigned⟩ := mem_signersOf.mp ha
    exact ⟨v, hsigned, hP.validator a d v hsigned⟩
  · rw [← hP.count d, hwords d w v hm]
    exact hP.enough d w v hm

/-- Settled deposits are frozen, so their words stay. -/
theorem WordsKept.of_frozen (h : WordsKept K s) (hP : Threshold K P s) (hfrozen : Frozen K s s')
    (hmarks : ∀ d w v, Mark.executed d w v ∈ s'.bridge.trail → Mark.executed d w v ∈ s.bridge.trail) :
    WordsKept K s' := by
  intro d w v hm
  have hold := hmarks d w v hm
  have hlogged : d ∈ executedDeposits s.bridge.trail := mem_executedDeposits.mpr ⟨w, v, hold⟩
  rw [(hfrozen d (hP.once.raised_of_mem hlogged)).1]
  exact h d w v hold

theorem wordsKept_fresh (h : Fresh s) : WordsKept K s := by
  intro d w v hm
  rw [h.trail] at hm
  exact absurd hm List.not_mem_nil

/-- What a call keeps: the counting of the signatures, and the words of the settled deposits. -/
structure Authorised (K : CollisionFree H) (s s' : Home H W) : Prop where
  settled : Settled K s s'
  words : ∀ P, Threshold K P s → WordsKept K s → WordsKept K s'

theorem Authorised.of_marks (hsettled : Settled K s s')
    (hmarks : ∀ d w v, Mark.executed d w v ∈ s'.bridge.trail → Mark.executed d w v ∈ s.bridge.trail) :
    Authorised K s s' :=
  ⟨hsettled, fun _ hP h => h.of_frozen hP hsettled.frozen hmarks⟩

theorem Authorised.of_same (h : SameDeposits s s') : Authorised K s s' :=
  .of_marks (Settled.of_same h) fun _ _ _ hm => h.trail ▸ hm

theorem Authorised.refl (s : Home H W) : Authorised K s s := .of_same (SameDeposits.refl s)

theorem Authorised.trans (h : Authorised K s₁ s₂) (h' : Authorised K s₂ s₃) : Authorised K s₁ s₃ := by
  refine ⟨h.settled.trans h'.settled, ?_⟩
  intro P hP hwords
  exact h'.words P (h.settled.threshold P hP) (h.words P hP hwords)

variable [DecidableEq H] {V : HomeVariant} {ecrecover : Ecrecover H}

/-- **One affirmation.** -/
theorem affirmed_authorised {out : Home H W → Home H W → Prop} {call : Callee (Home H W)}
    (hkeeps : Keeps out (Authorised K)) (hcall : Within out call) {sender : Address}
    (hval : s.validators.isValidator sender = true) (h : Affirmed K V call s sender d s') : Authorised K s s' := by
  have hsettled : Settled K s s' :=
    settled_affirmed (settled_keeps fun _ _ ho => (hkeeps.calls _ _ ho).settled) hcall hval h
  cases h with
  | recorded _ h =>
      obtain ⟨_, _, _, rfl⟩ := onFailedAffirmation_cases h
      exact .of_marks hsettled fun _ _ _ hm => hm
  | signed _ _ _ _ =>
      apply Authorised.of_marks hsettled
      intro d' w v hm
      rcases List.mem_cons.mp hm with he | hold
      · exact absurd he (by simp)
      · exact hold
  | @settled s₂ _ hunsigned hopen _ h =>
      refine ⟨hsettled, ?_⟩
      intro P hP hwords
      have hcalls : Authorised K ((s.affirm K sender d).markProcessed K d) s₂ :=
        onExecuteAffirmation_keeps hkeeps hcall h
      have hpending := hP.pending hval hunsigned hopen
      have hbefore : WordsKept K ((s.affirm K sender d).markProcessed K d) := by
        apply hwords.of_frozen hP (affirm_markProcessed_frozen hopen)
        intro d' w v hm
        rcases List.mem_cons.mp hm with he | hold
        · exact absurd he (by simp)
        · exact hold
      have hafter := hcalls.words _ hpending hbefore
      intro d' w v hm
      rcases List.mem_cons.mp hm with he | hold
      · -- the mark of this settlement has the word as it is now
        obtain ⟨rfl, rfl, _⟩ := Mark.executed.inj he
        rfl
      · exact hafter d' w v hold

/-- **Every call of a home bridge**, however deep its callbacks. -/
theorem keptByCalls_authorised : KeptByCalls K ecrecover V (fun _ _ => True) (Authorised (W := W) K) where
  refl := Authorised.refl
  trans _ _ _ := Authorised.trans
  same _ _ hq := .of_same hq.sameDeposits
  submitted _ _ _ _ _ h := .of_same (submitSignature_sameDeposits h)
  affirmed _ _ hkeeps hcall _ _ _ _ _ hval h := affirmed_authorised hkeeps hcall hval h
  fixed _ _ _ _ _ _ h := by
    apply Authorised.of_marks (settled_fixed h)
    obtain ⟨_, _, _, rfl⟩ := fixAssetsAboveLimits_cases h
    intro d w v hm
    rcases List.mem_cons.mp hm with he | hold
    · exact absurd he (by simp)
    · exact hold

/-- One step of the chain of a home bridge. -/
theorem step_wordsKept (h : StepWhen K ecrecover V (fun _ _ => True) s s') (hP : Threshold K ∅ s)
    (hwords : WordsKept K s) : WordsKept K s' := by
  cases h with
  | bridge n h => exact (call_keeps keptByCalls_authorised n s s' h).words ∅ hP hwords
  | validators _ => exact hwords
  | tick now txHash _ => exact hwords
  | elsewhere h => exact (Authorised.of_same (elsewhere_quiet h).sameDeposits).words ∅ hP hwords

end Approved

/-! ## The program -/

/-- Where the calls of the bridge go. A `send` to itself fails: the fallback function writes storage, for which its
    stipend is too small. Other calls of its token find no such function and enter the fallback function, unpaid. -/
def ownCalls (outside : Callee (Home H W)) : Callee (Home H W) := fun c s =>
  match c with
  | .send target _ => if target = s.bridge.self then none else outside c s
  | .mint token _ _ | .burn token _ | .transfer token _ _ =>
      if token = s.bridge.self then (transferAndCall outside s s.bridge.self s.bridge.self 0 0).map (·, [])
      else outside c s
  | .minterBurnerMint _ _ _ | .minterBurnerBurn _ _ _ => outside c s

section Coin

variable (held : W → Nat)

/-- `transferProxyOwnership` of the proxy. -/
def transferProxyOwnership (s : Home H W) (sender newOwner : Address) : Option (Home H W) := do
  require (sender = s.bridge.proxyOwner)
  require (newOwner ≠ 0)
  pure { s with bridge := { s.bridge with proxyOwner := newOwner } }

/-- One call of the bridge; `none` when it reverts. -/
def execCoin [DecidableEq H] (K : CollisionFree H) (ecrecover : Ecrecover H) (outside : Callee (Home H W))
    (balanceOf : Address → Home H W → Option (Home H W × UInt256)) : CoinTx → Home H W → Option (Home H W)
  | .call tx, s => exec K ecrecover .nativeToErcWithFee (ownCalls outside) s tx
  | .claimTokens sender token target, s =>
      BasicBridge.claimTokens (ownCalls outside) balanceOf s.bridge.proxyOwner (BitVec.ofNat 256 (held s.world)) s
        sender token target
  | .transferProxyOwnership sender newOwner, s => transferProxyOwnership s sender newOwner
  | .callToken sender msgValue data, s => do
      require (sender = s.bridge.basic.owner)
      -- the token is the bridge, which passes on what it was paid
      require (data.sender = s.bridge.self ∧ data.msgValue = msgValue)
      execCoin K ecrecover outside balanceOf data s

/-! ## Runs -/

/-- **The accounts and contracts outside.** A call costs the bridge the coin it carries, and no other takes any. -/
def CoinWithin (out : Home H W → Home H W → Prop) (outside : Callee (Home H W)) : Prop :=
  ∀ c s s' data, outside c s = some (s', data) →
    ∃ w, held s.world ≤ held w + c.coins ∧ out { s with world := w } s'

/-- A `balanceOf` whose every answer changes the state as `out` allows. -/
def BalanceWithin (out : Home H W → Home H W → Prop)
    (balanceOf : Address → Home H W → Option (Home H W × UInt256)) : Prop :=
  ∀ token s s' balance, balanceOf token s = some (s', balance) → out s s'

/-- Anything outside the two contracts. Nobody else takes coin of the bridge. -/
def CoinElsewhere (s s' : Home H W) : Prop := ∃ w, s' = { s with world := w } ∧ held s.world ≤ held w

/-- **Coin is not claimed** while the bridge holds any. -/
def Careful (s : Home H W) : CoinTx → Prop
  | .claimTokens _ token _ => token = 0 → held s.world = 0
  | .callToken _ _ data => Careful s data
  | .call _ | .transferProxyOwnership _ _ => True

variable [DecidableEq H] (K : CollisionFree H) (ecrecover : Ecrecover H) (allowed : Home H W → CoinTx → Prop)

/-- One call of the bridge that `allowed` admits, by anybody else. Its value is paid before it starts. -/
def CoinInvoke (out : Home H W → Home H W → Prop) (s s' : Home H W) : Prop :=
  ∃ outside balanceOf tx w, CoinWithin held out outside ∧ BalanceWithin out balanceOf ∧
    tx.sender ≠ s.bridge.self ∧ held w = held s.world + tx.msgValue.toNat ∧ allowed { s with world := w } tx ∧
    execCoin held K ecrecover outside balanceOf tx { s with world := w } = some s'

/-- A call of the bridge whose callees call it back at most `n` deep. -/
abbrev CoinCall (n : Nat) : Home H W → Home H W → Prop :=
  Calls.Nested (CoinInvoke held K ecrecover allowed) (CoinElsewhere held) n

/-- One step of the home chain, with the calls of the bridge that `allowed` admits. -/
inductive CoinStep : Home H W → Home H W → Prop where
  /-- A call of the bridge succeeds. -/
  | bridge {s s' : Home H W} (n : Nat) (h : CoinCall held K ecrecover allowed n s s') : CoinStep s s'
  /-- A transaction to the validator contract succeeds. -/
  | validators {s : Home H W} {v : BridgeValidators} (h : s.validators.Step v) : CoinStep s { s with validators := v }
  /-- A new transaction, in this block or a later one. -/
  | tick {s : Home H W} (now : UInt256) (txHash : Bytes32) (h : s.now ≤ now) :
      CoinStep s { s with now := now, txHash := txHash }
  /-- The rest of the chain moves. -/
  | elsewhere {s s' : Home H W} (h : CoinElsewhere held s s') : CoinStep s s'

abbrev CoinRun : Home H W → Home H W → Prop := Relation.ReflTransGen (CoinStep held K ecrecover allowed)

end Coin

/-- The coin, and the settled deposits. -/
def vault (held : W → Nat) : Vault (Home H W) Deposit where
  held s := held s.world
  payouts s := executedDeposits s.bridge.trail
  amount d := d.2.1.toNat

/-! ## What the payments cost -/

section Payments

variable {held : W → Nat} {call outside : Callee (Home H W)} {s s' : Home H W} {target recipient source : Address}
  {value : UInt256} {n : Nat}

/-- A call costs the coin it carries. -/
def Costs (held : W → Nat) (call : Callee (Home H W)) : Prop :=
  ∀ c s s' data, call c s = some (s', data) → (vault held).Loses c.coins s s'

/-- The fallback function refuses to be entered unpaid. -/
theorem transferAndCall_unpaid (sender : Address) : transferAndCall call s sender target 0 0 = none := by
  rw [Option.eq_none_iff_forall_ne_some]
  intro t h
  simp only [transferAndCall, withdrawWithFee, Option.bind_eq_bind, Option.bind_eq_some_iff, require_eq_some,
    exists_const] at h
  obtain ⟨_, _, _, _, _, hfee, _⟩ := h
  exact absurd hfee (BitVec.not_lt_zero)

/-- What the bridge's own calls answer, the outside answered. -/
theorem ownCalls_outside {c : ExtCall} {data : Bytes} (h : ownCalls outside c s = some (s', data)) :
    outside c s = some (s', data) := by
  cases c with
  | send target amount =>
      simp only [ownCalls] at h
      split at h
      · cases h
      · exact h
  | mint _ _ _ | burn _ _ | transfer _ _ _ =>
      simp only [ownCalls, transferAndCall_unpaid, Option.map_none] at h
      split at h
      · cases h
      · exact h
  | minterBurnerMint _ _ _ | minterBurnerBurn _ _ _ => exact h

theorem ownCalls_costs {out : Home H W → Home H W → Prop} (hout : ∀ s s', out s s' → (vault held).Covered s s')
    (hcall : CoinWithin held out outside) : Costs held (ownCalls outside) := by
  intro c s s' data h
  obtain ⟨w, hpaid, hafter⟩ := hcall _ _ _ _ (ownCalls_outside h)
  have hmoved : (vault held).Loses c.coins s { s with world := w } := .of_held rfl hpaid
  exact hmoved.then (hout _ _ hafter)

theorem tokenTransferNative_loses (hcall : Costs held call) (s : Home H W) (target : Address) (value : UInt256) :
    (vault held).Loses value.toNat s (tokenTransferNative call s target value).1 := by
  show (vault held).Loses value.toNat s (call.lowLevel (.send target value) s).1
  rcases Callee.answered_of_lowLevel call (.send target value) s with hnone | ⟨data, hc⟩
  · rw [hnone]
    exact (Vault.Covered.refl s).mono (Nat.zero_le _)
  · exact hcall _ _ _ _ hc

/-- A `send` that fails costs nothing. -/
theorem tokenTransferNative_failed {t : Home H W} (h : tokenTransferNative call s target value = (t, false)) :
    t = s := by
  unfold tokenTransferNative Callee.lowLevel at h
  cases hc : call (.send target value) s with
  | none =>
      rw [hc] at h
      exact (Prod.mk.inj h).1.symm
  | some answer =>
      rw [hc] at h
      exact absurd (Prod.mk.inj h).2 (by simp)

/-- **A settlement** costs at most its value. -/
theorem onExecuteAffirmationNative_loses (hcall : Costs held call) {ok : Bool}
    (h : onExecuteAffirmationNative call s recipient value = some (s', ok)) :
    (vault held).Loses value.toNat s s' := by
  simp only [onExecuteAffirmationNative, Option.bind_eq_bind, Option.bind_eq_some_iff] at h
  obtain ⟨s₁, h₁, fee, _, h⟩ := h
  have hcounted : (vault held).Covered s s₁ := by
    obtain ⟨_, _, rfl⟩ := addExecuted_eq_some.mp h₁
    exact .of_same rfl rfl
  refine hcounted.then ?_
  split at h
  · obtain rfl := congrArg Prod.fst (Option.some.inj h)
    exact tokenTransferNative_loses hcall _ _ _
  · simp only [Option.bind_eq_some_iff] at h
    obtain ⟨rest, hrest, h⟩ := h
    have hsum := SafeMath.sub_eq_some.mp hrest
    generalize hs₂ : (if fee ≠ 0 then (tokenTransferNative call s₁ s₁.bridge.fees.feeReceiver fee).1
      else s₁) = s₂ at h
    have hfee : (vault held).Loses fee.toNat s₁ s₂ := by
      rw [← hs₂]
      split
      · exact tokenTransferNative_loses hcall _ _ _
      · exact (Vault.Covered.refl s₁).mono (Nat.zero_le _)
    -- the rest is sent once: to the recipient, or to the fallback recipient
    have hwhole : (vault held).Loses rest.toNat s₂ s' → (vault held).Loses value.toNat s₁ s' :=
      fun hlast => (hfee.trans hlast).mono (by omega)
    split at h
    · obtain rfl := congrArg Prod.fst (Option.some.inj h)
      exact hwhole ((Vault.Covered.refl s₂).mono (Nat.zero_le _))
    · rcases hsend : tokenTransferNative call s₂ recipient rest with ⟨t, sent⟩
      have hpaid := tokenTransferNative_loses hcall s₂ recipient rest
      rw [hsend] at h hpaid
      cases sent with
      | true =>
          obtain rfl := congrArg Prod.fst (Option.some.inj h)
          exact hwhole hpaid
      | false =>
          obtain rfl := tokenTransferNative_failed hsend
          simp only [Bool.false_eq_true, if_false, Option.bind_eq_some_iff, require_eq_some, exists_const,
            Option.pure_def, Option.some.injEq, Prod.mk.injEq] at h
          obtain ⟨_, s₃, hplain, rfl, _⟩ := h
          obtain ⟨data, hc⟩ := Callee.answered_of_plain hplain
          have hlast : (vault held).Loses rest.toNat t s₃ := hcall _ _ _ _ hc
          exact hwhole (hlast.then (.of_same rfl rfl))

/-- **A withdrawal** costs what its fee and its release cost. -/
theorem withdrawing_loses {payFee release : Home H W → UInt256 → Option (Home H W)}
    (hfee : ∀ s s' fee, fee.toNat ≤ value.toNat → payFee s fee = some s' → (vault held).Loses n s s')
    (hrelease : ∀ s s' rest, release s rest = some s' → (vault held).Covered s s')
    (h : Withdrawing payFee release s source value s') : (vault held).Loses n s s' := by
  cases h with
  | @requested s₁ s₂ s₃ fee rest limit hsum paid counted released =>
      have hpaid : (vault held).Loses n s s₁ := by
        unfold whenNonzero at paid
        split at paid
        · exact hfee _ _ _ (by omega) paid
        · obtain rfl := Option.some.inj paid
          exact (Vault.Covered.refl s).mono (Nat.zero_le _)
      have hcounted : (vault held).Covered s₁ s₂ := by
        obtain ⟨_, _, rfl⟩ := addSpent_eq_some.mp counted
        exact .of_same rfl rfl
      exact ((hpaid.then hcounted).then (hrelease _ _ _ released)).then (.of_same rfl rfl)

end Payments

/-! ## Calls -/

section Calls

variable [DecidableEq H] {held : W → Nat} {K : CollisionFree H} {ecrecover : Ecrecover H}
  {call outside : Callee (Home H W)} {out : Home H W → Home H W → Prop} {s s' s₁ s₂ s₃ : Home H W}

/-- **An affirmation** that settles a deposit pays it first and then records it. -/
theorem affirmed_covered (hcall : Costs held call) {sender : Address} {d : Deposit}
    (h : Affirmed K .nativeToErcWithFee call s sender d s') : (vault held).Covered s s' := by
  cases h with
  | recorded _ h =>
      obtain ⟨_, _, _, rfl⟩ := onFailedAffirmation_cases h
      exact .of_same rfl rfl
  | signed _ _ _ _ => exact .of_same rfl rfl
  | @settled s₂ _ _ _ _ h =>
      have hpaid : (vault held).Loses d.2.1.toNat ((s.affirm K sender d).markProcessed K d) s₂ :=
        onExecuteAffirmationNative_loses hcall h
      have hall : (vault held).Loses d.2.1.toNat s s₂ := Vault.Covered.then (.of_same rfl rfl) hpaid
      exact Vault.Loses.approve (x := d) hall rfl rfl

/-- **One call** costs at most the coin it was paid. -/
theorem exec_loses (hcall : Costs held call) {tx : BridgeTx}
    (h : exec K ecrecover .nativeToErcWithFee call s tx = some s') :
    (vault held).Loses tx.msgValue.toNat s s' := by
  cases tx with
  | executeAffirmation sender recipient value t =>
      exact affirmed_covered hcall (executeAffirmation_cases (recipient, value, t) h).2
  | fixAssetsAboveLimits sender t unlock =>
      obtain ⟨_, _, _, rfl⟩ := fixAssetsAboveLimits_cases h
      exact .of_same rfl rfl
  | onTokenTransfer sender source value =>
      have htransfer : onTokenTransfer .nativeToErcWithFee call s sender source value = some s' := h
      -- the calls of the token carry no coin
      apply withdrawing_loses _ _ (onTokenTransfer_withdrawing htransfer).2
      · intro t t' fee _ hfee
        simp only [payFeeInToken, Option.bind_eq_bind, Option.bind_eq_some_iff, require_eq_some, exists_const,
          Option.pure_def, Option.some.injEq] at hfee
        obtain ⟨⟨_, _⟩, hpay, _, rfl⟩ := hfee
        obtain ⟨data, hc⟩ := Callee.answered_of_bool hpay
        exact hcall _ _ _ _ hc
      · intro t t' rest hrelease
        obtain ⟨data, hc⟩ := Callee.answered_of_plain hrelease
        exact hcall _ _ _ _ hc
  | transferAndCall sender target value msgValue =>
      simp only [exec, Option.bind_eq_bind, Option.bind_eq_some_iff, require_eq_some, exists_const] at h
      have hwithdrawing := transferAndCall_withdrawing h.2
      simp only [transferAndCall, Option.bind_eq_bind, Option.bind_eq_some_iff, require_eq_some,
        exists_const] at h
      obtain ⟨_, _, rfl, _⟩ := h
      apply withdrawing_loses _ _ hwithdrawing
      · intro t t' fee hle hfee
        simp only [payFeeInCoin, Option.bind_eq_bind, Option.bind_eq_some_iff, require_eq_some, exists_const,
          Option.pure_def, Option.some.injEq] at hfee
        obtain ⟨_, rfl⟩ := hfee
        exact (tokenTransferNative_loses hcall t t.bridge.fees.feeReceiver fee).mono hle
      · intro t t' rest hrelease
        obtain rfl := Option.some.inj hrelease
        exact Vault.Covered.refl t
  | submitSignature sender sig m =>
      have hsame := submitSignature_sameDeposits h
      have hworld := (submitSignature_inner h).world
      exact .of_same (congrArg executedDeposits hsame.trail) (congrArg held hworld)
  | setting sender setting =>
      simp only [exec, Option.bind_eq_bind, Option.bind_eq_some_iff, require_eq_some, exists_const] at h
      obtain ⟨_, _, _, rfl⟩ | ⟨_, _, _, _, rfl⟩ := applySetting_cases h.2
      · exact .of_same rfl rfl
      · exact .of_same rfl rfl

/-- What a call keeps: what was settled is approved, and nothing else was paid. -/
structure InCustody (held : W → Nat) (K : CollisionFree H) (n : Nat) (s s' : Home H W) : Prop where
  authorised : Authorised K s s'
  loses : (vault held).Loses n s s'

omit [DecidableEq H] in
theorem InCustody.refl (s : Home H W) : InCustody held K 0 s s := ⟨.refl s, Vault.Covered.refl s⟩

omit [DecidableEq H] in
theorem InCustody.trans (h : InCustody held K 0 s₁ s₂) (h' : InCustody held K 0 s₂ s₃) : InCustody held K 0 s₁ s₃ :=
  ⟨h.authorised.trans h'.authorised, h.loses.trans h'.loses⟩

omit [DecidableEq H] in
theorem world_authorised (s : Home H W) (w : W) : Authorised K s { s with world := w } :=
  .of_same ⟨rfl, rfl, rfl, rfl, rfl⟩

omit [DecidableEq H] in
theorem coinElsewhere_inCustody (h : CoinElsewhere held s s') : InCustody held K 0 s s' := by
  obtain ⟨w, rfl, hheld⟩ := h
  exact ⟨world_authorised s w, .of_held rfl hheld⟩

omit [DecidableEq H] in
/-- The contracts outside leave the settlements to the calls they make. -/
theorem ownCalls_authorised (hout : ∀ s s', out s s' → Authorised K s s') (hcall : CoinWithin held out outside) :
    Within (Authorised K) (ownCalls outside) := by
  intro c s s' data h
  obtain ⟨w, _, hafter⟩ := hcall _ _ _ _ (ownCalls_outside h)
  exact (world_authorised s w).trans (hout _ _ hafter)

omit [DecidableEq H] in
/-- **A careful claim** is of a token, or of no coin. -/
theorem claimTokens_inCustody (hout : ∀ s s', out s s' → InCustody held K 0 s s')
    (hcall : CoinWithin held out outside) {balanceOf : Address → Home H W → Option (Home H W × UInt256)}
    (hbalance : BalanceWithin out balanceOf) {sender token target : Address}
    (hcareful : token = 0 → held s.world = 0)
    (h : BasicBridge.claimTokens (ownCalls outside) balanceOf s.bridge.proxyOwner (BitVec.ofNat 256 (held s.world)) s
      sender token target = some s') : InCustody held K 0 s s' := by
  have hcosts := ownCalls_costs (fun _ _ ho => (hout _ _ ho).loses) hcall
  have hauthorised := ownCalls_authorised (fun _ _ ho => (hout _ _ ho).authorised) hcall
  obtain ⟨_, ⟨hcoin, data, hc⟩ | ⟨_, s₁, balance, data, hread, hc⟩⟩ := BasicBridge.claimTokens_cases h
  · refine ⟨hauthorised _ _ _ _ hc, ?_⟩
    have hnone := hcosts _ _ _ _ hc
    rw [hcareful hcoin] at hnone
    exact hnone
  · exact (hout _ _ (hbalance _ _ _ _ hread)).trans ⟨hauthorised _ _ _ _ hc, hcosts _ _ _ _ hc⟩

/-- **One call of the bridge**; a call by which the bridge calls itself is the call it makes. -/
theorem execCoin_inCustody (hout : ∀ s s', out s s' → InCustody held K 0 s s') (hcall : CoinWithin held out outside)
    {balanceOf : Address → Home H W → Option (Home H W × UInt256)} (hbalance : BalanceWithin out balanceOf) :
    ∀ {tx : CoinTx}, Careful held s tx → execCoin held K ecrecover outside balanceOf tx s = some s' →
      InCustody held K tx.msgValue.toNat s s' := by
  intro tx
  induction tx with
  | call tx =>
      intro _ h
      refine ⟨?_, exec_loses (ownCalls_costs (fun _ _ ho => (hout _ _ ho).loses) hcall) h⟩
      apply invoke_keeps (keptByCalls_authorised (V := .nativeToErcWithFee)) fun _ _ ha => ha
      exact ⟨ownCalls outside, tx, trivial, ownCalls_authorised (fun _ _ ho => (hout _ _ ho).authorised) hcall, h⟩
  | claimTokens sender token target =>
      intro hcareful h
      exact claimTokens_inCustody hout hcall hbalance hcareful h
  | transferProxyOwnership sender newOwner =>
      intro _ h
      simp only [execCoin, transferProxyOwnership, Option.bind_eq_bind, Option.bind_eq_some_iff, require_eq_some,
        exists_const, Option.pure_def, Option.some.injEq] at h
      obtain ⟨_, _, rfl⟩ := h
      exact ⟨.of_same ⟨rfl, rfl, rfl, rfl, rfl⟩, .of_same rfl rfl⟩
  | callToken sender msgValue data ih =>
      intro hcareful h
      simp only [execCoin, Option.bind_eq_bind, Option.bind_eq_some_iff, require_eq_some, exists_const] at h
      obtain ⟨_, ⟨_, hvalue⟩, h⟩ := h
      have hinner := ih hcareful h
      rw [hvalue] at hinner
      exact hinner

theorem coinInvoke_inCustody (hout : ∀ s s', out s s' → InCustody held K 0 s s')
    (h : CoinInvoke held K ecrecover (Careful held) out s s') : InCustody held K 0 s s' := by
  obtain ⟨outside, balanceOf, tx, w, hcall, hbalance, _, hpaid, hcareful, h⟩ := h
  have hexec := execCoin_inCustody hout hcall hbalance hcareful h
  refine ⟨(world_authorised s w).trans hexec.authorised, ?_⟩
  -- the value was paid before
  obtain ⟨new, hnew, hheld⟩ := hexec.loses
  refine ⟨new, hnew, ?_⟩
  show held s.world ≤ _
  have hcredited : held w ≤ (vault held).held s' + (new.map (vault (H := H) held).amount).sum + tx.msgValue.toNat := hheld
  omega

/-- **A call of any depth**, in any state. -/
theorem coinCall_inCustody :
    ∀ n s s', CoinCall held K ecrecover (Careful held) n s s' → InCustody held K 0 s s' :=
  Calls.nested_rel InCustody.refl (fun _ _ _ => InCustody.trans) (fun _ _ => coinElsewhere_inCustody)
    fun _ hout _ _ => coinInvoke_inCustody hout

/-! ## Runs -/

/-- **One step of the home chain** lowers what the bridge holds by what it settles, and no more. -/
theorem coinStep_covered (h : CoinStep held K ecrecover (Careful held) s s') : (vault held).Covered s s' := by
  cases h with
  | bridge n h => exact (coinCall_inCustody n s s' h).loses
  | validators _ => exact .of_same rfl rfl
  | tick now txHash _ => exact .of_same rfl rfl
  | elsewhere h => exact (coinElsewhere_inCustody (K := K) h).loses

theorem coinStep_threshold (hs : Threshold K ∅ s ∧ WordsKept K s)
    (h : CoinStep held K ecrecover (Careful held) s s') : Threshold K ∅ s' ∧ WordsKept K s' := by
  have hkept : Authorised K s s' → Threshold K ∅ s' ∧ WordsKept K s' :=
    fun ha => ⟨ha.settled.threshold ∅ hs.1, ha.words ∅ hs.1 hs.2⟩
  cases h with
  | bridge n h => exact hkept (coinCall_inCustody n s s' h).authorised
  | elsewhere h => exact hkept (coinElsewhere_inCustody h).authorised
  | validators _ => exact ⟨hs.1.of_bridge rfl, hs.2⟩
  | tick now txHash _ => exact ⟨hs.1.of_bridge rfl, hs.2⟩

/-- **The native home bridge keeps its coin**, as long as nobody claims any. -/
theorem coin_custody : (vault held).Custody Fresh (CoinStep held K ecrecover (Careful held))
    (CoinCall held K ecrecover (Careful held)) Approved := by
  apply Vault.Custody.of_invariant (P := fun s : Home H W => Threshold K ∅ s ∧ WordsKept K s)
  · exact fun s hfresh => ⟨threshold_fresh hfresh, wordsKept_fresh hfresh⟩
  · exact fun _ _ => coinStep_threshold
  · exact fun _ hs d hd => hs.1.approved hs.2 hd
  · exact fun _ _ => coinStep_covered
  · exact fun n s s' h => (coinCall_inCustody n s s' h).loses

/-! ## Claims of coin -/

/-- Accounts that keep what they are sent. -/
def KeepsCoin (held : W → Nat) (outside : Callee (Home H W)) : Prop :=
  ∀ c s s' data, outside c s = some (s', data) → ∃ w, s' = { s with world := w } ∧ held w + c.coins = held s.world

/-- **A claim of coin** that nobody pays back lowers what the bridge holds, unless it holds nothing. -/
theorem claim_covered_iff (hcall : KeepsCoin held outside) (hword : held s.world < 2 ^ 256)
    {balanceOf : Address → Home H W → Option (Home H W × UInt256)} {sender target : Address}
    (h : execCoin held K ecrecover outside balanceOf (.claimTokens sender 0 target) s = some s') :
    (vault held).Covered s s' ↔ Careful held s (.claimTokens sender 0 target) := by
  obtain ⟨_, ⟨_, data, hc⟩ | ⟨hcoin, _⟩⟩ := BasicBridge.claimTokens_cases h
  · obtain ⟨w, rfl, hpaid⟩ := hcall _ _ _ _ (ownCalls_outside hc)
    have hall : (ExtCall.send target (BitVec.ofNat 256 (held s.world))).coins = held s.world := Nat.mod_eq_of_lt hword
    rw [hall] at hpaid
    constructor
    · intro hcovered _
      have hle : held s.world ≤ held w := hcovered.held_le rfl
      omega
    · intro hcareful
      have hnone := hcareful rfl
      exact .of_held rfl (show held s.world ≤ held w + 0 by omega)
  · exact absurd rfl hcoin

/-- A call from outside, with accounts that leave the bridge alone. -/
theorem coinStep_of_exec {allowed : Home H W → CoinTx → Prop} {tx : CoinTx} {w : W} (hcall : KeepsCoin held outside)
    (hsender : tx.sender ≠ s.bridge.self) (hpaid : held w = held s.world + tx.msgValue.toNat)
    (hallowed : allowed { s with world := w } tx)
    (h : execCoin held K ecrecover outside (fun _ _ => none) tx { s with world := w } = some s') :
    CoinStep held K ecrecover allowed s s' := by
  refine .bridge 1 ⟨outside, fun _ _ => none, tx, w, ?_, ?_, hsender, hpaid, hallowed, h⟩
  · intro c t t' data hc
    obtain ⟨w', rfl, hkept⟩ := hcall c t t' data hc
    exact ⟨w', by omega, Relation.ReflTransGen.refl⟩
  · intro token t t' balance hbalance
    cases hbalance

end Calls

end Home
end ThunderBridge
