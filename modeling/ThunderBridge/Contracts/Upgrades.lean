import ThunderBridge.Contracts.Proxy
import ThunderBridge.Contracts.ForeignBridge.Relay
import ThunderBridge.Contracts.HomeBridge.Custody

/-!
# `Contracts.Upgrades` — bridges that are upgraded while they run

Both bridges stand behind an `EternalStorageProxy`. Here the owner of the proxy may install another one of the bridge
contracts at any time, also in the middle of a payment. The implementations keep everything in the mappings of
`EternalStorage` and write no slot of the proxy; the proxy is part of the world outside them.

What the bridges promise does not depend on which contract is installed: a message is relayed once and with enough
signatures (`relayed_across_upgrades`), a deposit settled once and with enough affirmations
(`settled_across_upgrades`).
-/

namespace ThunderBridge

/-- The world of a chain with a proxy. -/
structure Proxied (W : Type) where
  storage : UpgradeabilityStorage
  rest : W

/-- The same with the owner of the proxy, for a bridge that has no other place for it. -/
structure OwnedProxied (W : Type) extends Proxied W where
  upgradeabilityOwner : Address

/-! ## The foreign chain -/

namespace Foreign

variable {H W : Type}

/-! ### What the bridge leaves alone -/

/-- A relation that the outgoing calls keep, and every change that leaves the world alone. -/
structure Frames (out Q : Foreign W → Foreign W → Prop) : Prop where
  refl : ∀ s, Q s s
  trans : ∀ s₁ s₂ s₃, Q s₁ s₂ → Q s₂ s₃ → Q s₁ s₃
  inner : ∀ s s', s'.world = s.world → Q s s'
  calls : ∀ s s', out s s' → Q s s'

section Frames

variable {out Q : Foreign W → Foreign W → Prop} {call : Callee (Foreign W)} {s s' : Foreign W}
  {recipient : Address} {amount : UInt256} {ok : Bool}

theorem lowLevel_frames (hQ : Frames out Q) (hcall : Within out call) (c : ExtCall) (s : Foreign W) :
    Q s (call.lowLevel c s).1 := by
  unfold Callee.lowLevel
  cases hc : call c s with
  | none => exact hQ.refl s
  | some p => exact hQ.calls _ _ (hcall _ _ _ _ hc)

theorem tokenTransferV3_frames (hQ : Frames out Q) (hcall : Within out call)
    (h : tokenTransferV3 call s recipient amount = some (s', ok)) : Q s s' := by
  have hlow := lowLevel_frames hQ hcall (.transfer s.bridge.erc20token recipient amount) s
  unfold tokenTransferV3 at h
  rcases hl : call.lowLevel (.transfer s.bridge.erc20token recipient amount) s with ⟨t, data⟩
  rw [hl] at h hlow
  have hsame : s' = t := by
    cases data with
    | none => exact (congrArg Prod.fst (Option.some.inj h)).symm
    | some data =>
        simp only at h
        split at h
        · exact (congrArg Prod.fst (Option.some.inj h)).symm
        · split at h
          · exact (congrArg Prod.fst (Option.some.inj h)).symm
          · exact absurd h (by simp)
  rw [hsame]
  exact hlow

theorem transferEach_frames (hQ : Frames out Q) (hcall : Within out call) (amount : UInt256) :
    ∀ (as : List Address) (s : Foreign W) (result : Bool), Q s (transferEach call amount as s result).1 := by
  intro as
  induction as with
  | nil => intro s result; exact hQ.refl s
  | cons a as ih =>
      intro s result
      cases result with
      | false => exact ih s false
      | true => exact hQ.trans _ _ _ (lowLevel_frames hQ hcall _ s) (ih _ _)

theorem onExecuteMessage_frames (hQ : Frames out Q) (hcall : Within out call) {V : ForeignVariant}
    (h : onExecuteMessage V call s recipient amount = some (s', ok)) : Q s s' := by
  cases V with
  | ercToErc =>
      simp only [onExecuteMessage, onExecuteMessageErcToErc, Option.bind_eq_bind, Option.bind_eq_some_iff] at h
      obtain ⟨spent, _, h⟩ := h
      have hstart := hQ.inner s
        (s.setBasic (s.bridge.basic.setTotalExecutedPerDay s.getCurrentDay spent)) rfl
      split at h
      · obtain rfl := congrArg Prod.fst (Option.some.inj h)
        exact hQ.trans _ _ _ hstart (lowLevel_frames hQ hcall _ _)
      · simp only [Option.bind_eq_some_iff, Option.pure_def] at h
        obtain ⟨_, _, _, _, _, _, _, _, _, _, _, _, h⟩ := h
        obtain rfl := congrArg Prod.fst (Option.some.inj h)
        exact hQ.trans _ _ _ hstart (hQ.trans _ _ _ (transferEach_frames hQ hcall _ _ _ _)
          (hQ.trans _ _ _ (transferEach_frames hQ hcall _ _ _ _) (transferEach_frames hQ hcall _ _ _ _)))
  | ercToErcV2 =>
      obtain rfl := congrArg Prod.fst (Option.some.inj h)
      exact lowLevel_frames hQ hcall _ _
  | ercToErcV3 =>
      simp only [onExecuteMessage, onExecuteMessageV3, Option.bind_eq_bind, Option.bind_eq_some_iff] at h
      obtain ⟨⟨s₁, b₁⟩, h₁, h⟩ := h
      have hfirst := tokenTransferV3_frames hQ hcall h₁
      split at h
      · obtain rfl := congrArg Prod.fst (Option.some.inj h)
        exact hfirst
      · simp only [Option.bind_eq_some_iff, require_eq_some, exists_const, Option.pure_def] at h
        obtain ⟨_, ⟨s₂, b₂⟩, h₂, h⟩ := h
        obtain rfl := congrArg Prod.fst (Option.some.inj h)
        exact hQ.trans _ _ _ hfirst (hQ.trans _ _ _ (tokenTransferV3_frames hQ hcall h₂) (hQ.inner _ _ rfl))

/-- **One call of the bridge** reaches the world through its outgoing calls only. -/
theorem invoke_frames {K : CollisionFree H} {ecrecover : Ecrecover H} {V : ForeignVariant}
    {allowed : Foreign W → ForeignTx → Prop} (hQ : Frames out Q) (h : Invoke K ecrecover V allowed out s s') :
    Q s s' := by
  obtain ⟨call, tx, _, hcall, h⟩ := h
  cases tx with
  | setting sender setting =>
      simp only [exec, Option.bind_eq_bind, Option.bind_eq_some_iff, require_eq_some, exists_const] at h
      obtain ⟨_, _, _, rfl⟩ := applySetting_cases h.2
      exact hQ.inner _ _ rfl
  | executeSignatures vs rs ss message =>
      obtain ⟨m, s₁, _, _, _, _, _, hexec, rfl⟩ := executeSignatures_cases h
      have hraised : Q s (s.setRelayedMessages m.txHash true) := hQ.inner _ _ rfl
      have hpaid : Q (s.setRelayedMessages m.txHash true) s₁ := onExecuteMessage_frames hQ hcall hexec
      exact hQ.trans _ _ _ hraised (hQ.trans _ _ _ hpaid (hQ.inner _ _ rfl))

end Frames

/-! ### Upgrades -/

/-- What happens between the calls of the proxy. -/
inductive Between : Foreign (OwnedProxied W) → Foreign (OwnedProxied W) → Prop where
  | validators {s : Foreign (OwnedProxied W)} {v : BridgeValidators} (h : s.validators.Step v) :
      Between s { s with validators := v }
  | tick {s : Foreign (OwnedProxied W)} (now : UInt256) (h : s.now ≤ now) : Between s { s with now := now }
  | elsewhere {s : Foreign (OwnedProxied W)} (w : W) : Between s { s with world := { s.world with rest := w } }

/-- The foreign chain, with the bridge contracts at the addresses that `code` says; there is no code elsewhere, and
    to delegate to nothing does nothing. -/
def proxied (K : CollisionFree H) (ecrecover : Ecrecover H) (code : Address → Option ForeignVariant) :
    ProxiedChain (Foreign (OwnedProxied W)) where
  proxyOwner s := s.world.upgradeabilityOwner
  setUpgradeabilityOwner s a := { s with world := { s.world with upgradeabilityOwner := a } }
  storage s := s.world.storage
  setStorage s p := { s with world := { s.world with storage := p } }
  delegatecall a out s s' :=
    match code a with
    | some V => Invoke K ecrecover V (fun _ _ => True) out s s'
    | none => s' = s
  elsewhere s s' := ∃ w, s' = { s with world := { s.world with rest := w } }
  between := Between
  storage_setStorage _ _ := rfl
  storage_setUpgradeabilityOwner _ _ := rfl
  storage_elsewhere := by
    rintro s _ ⟨w, rfl⟩
    rfl
  storage_between := by
    intro s s' h
    cases h with
    | validators _ => rfl
    | tick _ _ => rfl
    | elsewhere _ => rfl
  frame := by
    intro R hrefl htrans out hout a s s' h
    split at h
    · exact invoke_frames (Q := fun s s' => R s.world.storage s'.world.storage)
        ⟨fun _ => hrefl _, fun _ _ _ => htrans _ _ _, fun s s' hw => hw ▸ hrefl s.world.storage, hout⟩ h
    · rw [h]
      exact hrefl _

section Upgrades

variable {K : CollisionFree H} {ecrecover : Ecrecover H} {code : Address → Option ForeignVariant}
  {s₀ s s' : Foreign (OwnedProxied W)}

/-- A call of the proxy, whatever is installed and whatever becomes of it meanwhile. -/
theorem proxied_relaying : ∀ n s s', (proxied K ecrecover code (W := W)).Call n s s' → Relaying K ecrecover s s' := by
  refine ProxiedChain.call_rel (fun _ => .of_bridge rfl rfl) (fun _ _ _ => Relaying.trans)
    (fun _ _ _ => .of_bridge rfl rfl) (fun _ _ => .of_bridge rfl rfl) ?_ ?_
  · rintro s _ ⟨w, rfl⟩
    exact .of_bridge rfl rfl
  · intro out hout a s s' h
    simp only [proxied] at h
    split at h
    · exact invoke_relaying hout h
    · rw [h]
      exact .of_bridge rfl rfl

/-- **Relays across upgrades.** The owner of the proxy may install other foreign bridge contracts at any time, also while
    a message is being paid, and anybody may call anything: every relayed message was backed by the signatures of
    enough distinct validators, and no transaction hash is relayed twice. -/
theorem relayed_across_upgrades (hfresh : Fresh s₀) (h : (proxied K ecrecover code).Run s₀ s) :
    Relayed K ecrecover ∅ s := by
  refine Calls.steps_invariant (P := Relayed K ecrecover ∅) ?_ h (relayed_fresh hfresh)
  intro s s' hs hstep
  cases hstep with
  | call n h => exact (proxied_relaying n s s' h).relayed ∅ hs
  | between h =>
      cases h with
      | validators hv => exact hs.manage hv
      | tick now _ => exact hs.same (.of_bridge rfl rfl)
      | elsewhere w => exact hs.same (.of_bridge rfl rfl)

end Upgrades

/-! ### An upgrade during a payment -/

/-- V2 at address 100, V3 at 101. -/
def sampleCode (a : Address) : Option ForeignVariant :=
  if a = 100 then some .ercToErcV2 else if a = 101 then some .ercToErcV3 else none

/-- Whoever is called gets the owner 9 of the proxy to install V3. -/
def upgrading : Callee (Foreign (OwnedProxied Unit)) := fun _ s => do
  let s ← (proxied serialHash signerV sampleCode).upgradeTo s 9 2 101
  pure (s, packWord 1)

/-- V2 pays a message while V3 is installed; V3 pays the next one. -/
theorem sample_upgrades : ∃ s₀ s s' : Foreign (OwnedProxied Unit), Fresh s₀ ∧ s₀.world.storage = .blank ∧
    (proxied serialHash signerV sampleCode).Run s₀ s ∧ (proxied serialHash signerV sampleCode).Run s s' ∧
    relayedEvents s'.bridge.log = [(33, 50, 78), (33, 100, 77)] ∧ s'.world.storage.version = 2 := by
  have heval : (do
      let v ← BridgeValidators.blank.initializeWith 2 [1, 2] 9
      let s₁ ← (proxied serialHash signerV sampleCode).upgradeTo
        (sampleForeign v ⟨⟨.blank, ()⟩, 9⟩ : Foreign (OwnedProxied Unit)) 9 1 100
      let s₂ ← exec serialHash signerV .ercToErcV2 upgrading s₁
        (.executeSignatures [2, 1] [0, 0] [0, 0] (Message.encode sampleMessage))
      let s₃ ← exec serialHash signerV .ercToErcV3 obliging s₂
        (.executeSignatures [1, 2] [0, 0] [0, 0] (Message.encode ⟨33, 50, 78, 7⟩))
      require (s₁.world.storage.implementation = 100 ∧ s₂.world.storage.implementation = 101)
      pure (relayedEvents s₃.bridge.log, s₃.world.storage.version)) =
        some ([(33, 50, 78), (33, 100, 77)], (2 : UInt256)) := by
    decide +kernel
  simp only [Option.bind_eq_bind, Option.bind_eq_some_iff, require_eq_some, exists_const, Option.pure_def,
    Option.some.injEq, Prod.mk.injEq] at heval
  obtain ⟨v, hv, s₁, h₁, s₂, h₂, s₃, h₃, ⟨himpl₁, himpl₂⟩, hlog, hversion⟩ := heval
  have hinstalled : (proxied serialHash signerV sampleCode).Step (sampleForeign v ⟨⟨.blank, ()⟩, 9⟩) s₁ :=
    .call 1 (.upgradeTo 9 1 100 h₁)
  have hpaid : (proxied serialHash signerV sampleCode).Step s₁ s₂ := by
    refine .call 2 (.fallback (himpl₁ ▸ by decide) ?_)
    show (proxied serialHash signerV sampleCode).delegatecall s₁.world.storage.implementation _ s₁ s₂
    rw [himpl₁]
    refine ⟨upgrading, _, trivial, ?_, h₂⟩
    intro c s s' data hc
    simp only [upgrading, Option.bind_eq_bind, Option.bind_eq_some_iff, Option.pure_def, Option.some.injEq,
      Prod.mk.injEq] at hc
    obtain ⟨_, hup, rfl, _⟩ := hc
    exact .single (.inr (.upgradeTo 9 2 101 hup))
  have hnext : (proxied serialHash signerV sampleCode).Step s₂ s₃ := by
    refine .call 1 (.fallback (himpl₂ ▸ by decide) ?_)
    show (proxied serialHash signerV sampleCode).delegatecall s₂.world.storage.implementation _ s₂ s₃
    rw [himpl₂]
    refine ⟨obliging, _, trivial, ?_, h₃⟩
    intro c s s' data hc
    obtain ⟨rfl, _⟩ := Prod.mk.inj (Option.some.inj hc)
    exact .refl
  exact ⟨_, s₁, s₃, deploy_fresh hv .., rfl, .single hinstalled, (Relation.ReflTransGen.single hpaid).tail hnext,
    hlog, hversion⟩

theorem versions_of_run_sample : ∃ s s' : Foreign (OwnedProxied Unit),
    s'.world.storage.Versioned ∧ s.world.storage.version ≤ s'.world.storage.version := by
  obtain ⟨s₀, s, s', _, hblank, hrun, hlater, _⟩ := sample_upgrades
  obtain ⟨hversioned, _, hle, _⟩ := ProxiedChain.versions_of_run hblank hrun hlater
  exact ⟨s, s', hversioned, hle⟩

theorem relayed_across_upgrades_sample : ∃ s : Foreign (OwnedProxied Unit), Relayed serialHash signerV ∅ s ∧
    relayedEvents s.bridge.log = [(33, 50, 78), (33, 100, 77)] ∧ s.world.storage.version = 2 := by
  obtain ⟨_, s, s', hfresh, _, hrun, hlater, hlog, hversion⟩ := sample_upgrades
  exact ⟨s', relayed_across_upgrades hfresh (hrun.trans hlater), hlog, hversion⟩

end Foreign

/-! ## The home chain -/

namespace Home

variable {H W : Type}

/-- What happens between the calls of the proxy. -/
inductive Between : Home H (Proxied W) → Home H (Proxied W) → Prop where
  | validators {s : Home H (Proxied W)} {v : BridgeValidators} (h : s.validators.Step v) :
      Between s { s with validators := v }
  | tick {s : Home H (Proxied W)} (now : UInt256) (txHash : Bytes32) (h : s.now ≤ now) :
      Between s { s with now := now, txHash := txHash }
  | elsewhere {s : Home H (Proxied W)} (w : W) : Between s { s with world := { s.world with rest := w } }

variable [DecidableEq H]

/-- The home chain, with the bridge contracts at the addresses that `code` says. -/
def proxied (K : CollisionFree H) (ecrecover : Ecrecover H) (code : Address → Option HomeVariant) :
    ProxiedChain (Home H (Proxied W)) where
  proxyOwner s := s.bridge.proxyOwner
  setUpgradeabilityOwner s a := { s with bridge := { s.bridge with proxyOwner := a } }
  storage s := s.world.storage
  setStorage s p := { s with world := { s.world with storage := p } }
  delegatecall a out s s' :=
    match code a with
    | some V => Invoke K ecrecover V (fun _ _ => True) out s s'
    | none => s' = s
  elsewhere s s' := ∃ w, s' = { s with world := { s.world with rest := w } }
  between := Between
  storage_setStorage _ _ := rfl
  storage_setUpgradeabilityOwner _ _ := rfl
  storage_elsewhere := by
    rintro s _ ⟨w, rfl⟩
    rfl
  storage_between := by
    intro s s' h
    cases h with
    | validators _ => rfl
    | tick _ _ _ => rfl
    | elsewhere _ => rfl
  frame := by
    intro R hrefl htrans out hout a s s' h
    split at h
    · obtain ⟨call, tx, _, hcall, h⟩ := h
      have hchains : Chains fun s s' : Home H (Proxied W) => R s.world.storage s'.world.storage :=
        ⟨fun _ => hrefl _, fun _ _ _ => htrans _ _ _⟩
      exact exec_out hchains (fun s s' hi => hi.world ▸ hrefl s.world.storage)
        (fun c s s' data hc => hout s s' (hcall c s s' data hc)) h
    · rw [h]
      exact hrefl _

section Upgrades

variable {K : CollisionFree H} {ecrecover : Ecrecover H} {code : Address → Option HomeVariant}
  {s₀ s s' : Home H (Proxied W)}

theorem proxied_settled : ∀ n s s', (proxied K ecrecover code (W := W)).Call n s s' → Settled K s s' := by
  have hworld (s : Home H (Proxied W)) (w : Proxied W) : Settled K s { s with world := w } :=
    .of_same (elsewhere_quiet ⟨w, rfl⟩).sameDeposits
  refine ProxiedChain.call_rel (Settled.refl K) (fun _ _ _ => Settled.trans) (fun s p _ => hworld s _) ?_ ?_ ?_
  · intro s a
    exact .of_same ⟨rfl, rfl, rfl, rfl, rfl⟩
  · rintro s _ ⟨w, rfl⟩
    exact hworld s _
  · intro out hout a s s' h
    simp only [proxied] at h
    split at h
    · exact invoke_keeps keptByCalls_settled hout h
    · rw [h]
      exact Settled.refl K s

theorem proxied_step_settled (h : (proxied K ecrecover code).Step s s') :
    (Threshold K ∅ s → Threshold K ∅ s') ∧ Frozen K s s' := by
  cases h with
  | call n h => exact ⟨(proxied_settled n s s' h).threshold ∅, (proxied_settled n s s' h).frozen⟩
  | between h =>
      cases h with
      | validators _ => exact ⟨fun hP => hP.of_bridge rfl, Frozen.of_eq rfl rfl⟩
      | tick _ _ _ => exact ⟨fun hP => hP.of_bridge rfl, Frozen.of_eq rfl rfl⟩
      | elsewhere _ => exact ⟨fun hP => hP.of_bridge rfl, Frozen.of_eq rfl rfl⟩

/-- **Settlements across upgrades.** The same on the home chain: the affirmation ledger agrees with what was signed and
    settled, under whichever contracts; no deposit is settled twice or without enough signatures, and what is
    settled under one contract stays so under the next ones. -/
theorem settled_across_upgrades (hfresh : Fresh s₀) (h : (proxied K ecrecover code).Run s₀ s)
    (h' : (proxied K ecrecover code).Run s s') : Threshold K ∅ s' ∧ Frozen K s s' := by
  refine ⟨?_, ?_⟩
  · exact Calls.steps_invariant (P := Threshold K ∅) (fun _ _ hP hstep => (proxied_step_settled hstep).1 hP)
      (h.trans h') (threshold_fresh hfresh)
  · exact Calls.steps_rel (Frozen.refl K) (fun _ _ _ => Frozen.trans)
      (fun _ _ hstep => (proxied_step_settled hstep).2) h'

end Upgrades

/-- The first home bridge at address 100, the one with fees and a minter-burner at 101. -/
def sampleCode (a : Address) : Option HomeVariant :=
  if a = 100 then some .ercToErc else if a = 101 then some .ercToErcWithFeeV2 else none

/-- Two validators affirm a deposit, one before an upgrade and one after it. -/
theorem settled_across_upgrades_sample : ∃ s s' : Home (List Byte) (Proxied Unit),
    Threshold serialHash ∅ s' ∧ Frozen serialHash s s' ∧ executedDeposits s'.bridge.trail = [(33, 100, 77)] ∧
      s'.world.storage.version = 2 := by
  have heval : (do
      let v ← BridgeValidators.blank.initializeWith 2 [1, 2] 9
      let s₁ ← (proxied serialHash noSigner sampleCode).upgradeTo
        { (sampleHome ⟨.blank, ()⟩ : Home (List Byte) (Proxied Unit)) with validators := v } 6 1 100
      let s₂ ← exec serialHash noSigner .ercToErc obliging s₁ (.executeAffirmation 1 33 100 77)
      let s₃ ← (proxied serialHash noSigner sampleCode).upgradeTo s₂ 6 2 101
      let s₄ ← exec serialHash noSigner .ercToErcWithFeeV2 obliging s₃ (.executeAffirmation 2 33 100 77)
      require (s₁.world.storage.implementation = 100 ∧ s₃.world.storage.implementation = 101)
      pure (executedDeposits s₄.bridge.trail, s₄.world.storage.version)) =
        some ([(33, 100, 77)], (2 : UInt256)) := by
    decide +kernel
  simp only [Option.bind_eq_bind, Option.bind_eq_some_iff, require_eq_some, exists_const, Option.pure_def,
    Option.some.injEq, Prod.mk.injEq] at heval
  obtain ⟨v, hv, s₁, h₁, s₂, h₂, s₃, h₃, s₄, h₄, ⟨himpl₁, himpl₃⟩, htrail, hversion⟩ := heval
  have hwithin {out : Home (List Byte) (Proxied Unit) → Home (List Byte) (Proxied Unit) → Prop}
      (hout : ∀ s, out s s) : Within out obliging := by
    intro c s s' data hc
    obtain ⟨rfl, _⟩ := Prod.mk.inj (Option.some.inj hc)
    exact hout s
  have hfirst : (proxied serialHash noSigner sampleCode).Step s₁ s₂ := by
    refine .call 1 (.fallback (himpl₁ ▸ by decide) ?_)
    show (proxied serialHash noSigner sampleCode).delegatecall s₁.world.storage.implementation _ s₁ s₂
    rw [himpl₁]
    exact ⟨obliging, _, trivial, hwithin fun _ => .refl, h₂⟩
  have hsecond : (proxied serialHash noSigner sampleCode).Step s₃ s₄ := by
    refine .call 1 (.fallback (himpl₃ ▸ by decide) ?_)
    show (proxied serialHash noSigner sampleCode).delegatecall s₃.world.storage.implementation _ s₃ s₄
    rw [himpl₃]
    exact ⟨obliging, _, trivial, hwithin fun _ => .refl, h₄⟩
  have hbefore : (proxied serialHash noSigner sampleCode).Run (sampleHome ⟨.blank, ()⟩) s₂ :=
    ((Relation.ReflTransGen.single (.between (.validators ⟨.initializeWith 2 [1, 2] 9, hv⟩))).tail
      (.call 1 (.upgradeTo 6 1 100 h₁))).tail hfirst
  have hafter : (proxied serialHash noSigner sampleCode).Run s₂ s₄ :=
    (Relation.ReflTransGen.single (.call 1 (.upgradeTo 6 2 101 h₃))).tail hsecond
  obtain ⟨hthreshold, hfrozen⟩ := settled_across_upgrades (deploy_fresh ..) hbefore hafter
  exact ⟨s₂, s₄, hthreshold, hfrozen, htrail, hversion⟩

end Home
end ThunderBridge
