import ThunderBridge.Contracts.HomeBridge.Run
import ThunderBridge.Contracts.MinterBurnerProxy

/-!
# `Solvency.BridgeSupply` — what the bridge has minted and not burned

`thunderBridgeSupply` of `MinterBurnerProxy` is added to when the bridge mints and subtracted from when it
burns, both without checks; the monitor compares it with the tokens locked on the foreign side. But tokens do
not remember who minted them. A holder can send the bridge what another operator minted, and
`HomeBridgeErcToErcWithFeeV2.onTokenTransfer` burns it in the name of the bridge.

`supply_exact_iff` says when the counter is what the monitor takes it for; `onTokenTransfer_world` is what a
withdrawal does to the proxy.
-/

namespace ThunderBridge
namespace Minting

variable {m m' : Minting} {operator : Address} {value : UInt256} {side : Side} {tx : ProxyTx}

/-! ## The counter -/

/-- What the bridge minted (or burned) through the proxy. -/
def byBridge (m : Minting) (side : Side) : Nat :=
  tally Receipt.amount (m.receipts.filter fun r => r.side = side ∧ r.operator = m.proxy.thunderBridge)

/-- `thunderBridgeSupply` is what the bridge minted less what it burned. -/
structure SupplyExact (m : Minting) : Prop where
  exact : m.proxy.thunderBridgeSupply.toNat = m.byBridge .mint - m.byBridge .burn
  covered : m.byBridge .burn ≤ m.byBridge .mint

theorem Uncharged.byBridge (h : Uncharged tx m m') (side : Side) : m'.byBridge side = m.byBridge side := by
  unfold Minting.byBridge
  rw [h.receipts, h.bridge]

theorem Charged.byBridge (h : Charged side operator value m m') (side' : Side) :
    m'.byBridge side' =
      (if side = side' ∧ operator = m.proxy.thunderBridge then value.toNat else 0) + m.byBridge side' := by
  unfold Minting.byBridge
  rw [h.receipts, h.bridge]
  by_cases hr : side = side' ∧ operator = m.proxy.thunderBridge
  · simp [hr, Receipt.amount]
  · simp [hr]

/-- The counter has room for a mint, or covers a burn. -/
def FitsCounter (supply value : UInt256) : Side → Prop
  | .mint => supply.toNat + value.toNat < 2 ^ 256
  | .burn => value ≤ supply

/-- Whatever of the bridge is accepted fits the counter. -/
def FitsSupply (m : Minting) (tx : ProxyTx) : Prop :=
  ∀ side operator value, charge tx = some (side, operator, value) → m.accepts tx →
    operator = m.proxy.thunderBridge → FitsCounter m.proxy.thunderBridgeSupply value side

/-- **A charge keeps the counter exact** exactly when it fits. -/
theorem Charged.supplyExact_iff (h : Charged side operator value m m') (hm : SupplyExact m) :
    SupplyExact m' ↔
      (operator = m.proxy.thunderBridge → FitsCounter m.proxy.thunderBridgeSupply value side) := by
  have hminted := h.byBridge .mint
  have hburned := h.byBridge .burn
  have hsupply := h.supply
  obtain ⟨hexact, hcovered⟩ := hm
  have hlt := m'.proxy.thunderBridgeSupply.isLt
  have hlt₀ := m.proxy.thunderBridgeSupply.isLt
  have hvalue := value.isLt
  by_cases hop : operator = m.proxy.thunderBridge
  · rw [if_pos hop] at hsupply
    cases side with
    | mint =>
        have hnat := congrArg BitVec.toNat hsupply
        rw [supplyAfter, BitVec.toNat_add] at hnat
        simp only [hop, and_true, if_true, reduceCtorEq, if_false, Nat.zero_add] at hminted hburned
        unfold FitsCounter
        constructor
        · rintro ⟨hexact', _⟩ _
          omega
        · intro hfits
          have hroom := hfits hop
          exact ⟨by omega, by omega⟩
    | burn =>
        have hnat := congrArg BitVec.toNat hsupply
        rw [supplyAfter, BitVec.toNat_sub] at hnat
        simp only [hop, and_true, if_true, reduceCtorEq, if_false, Nat.zero_add] at hminted hburned
        unfold FitsCounter
        simp only [BitVec.le_def]
        constructor
        · rintro ⟨hexact', _⟩ _
          omega
        · intro hfits
          have hcover := hfits hop
          exact ⟨by omega, by omega⟩
  · rw [if_neg hop] at hsupply
    simp only [hop, and_false, if_false, Nat.zero_add] at hminted hburned
    constructor
    · intro _ hop'
      exact absurd hop' hop
    · intro _
      exact ⟨by rw [hsupply, hminted, hburned, hexact], by rw [hminted, hburned]; exact hcovered⟩

theorem step_supplyExact_iff (hkeeps : KeepsSupply tx) (hm : SupplyExact m) :
    SupplyExact (m.step tx) ↔ FitsSupply m tx := by
  rcases step_cases m tx with ⟨side, operator, value, hcharge, haccepts, h⟩ | ⟨hnone, h⟩
  · rw [h.supplyExact_iff hm]
    constructor
    · intro hfits side' operator' value' hcharge' _
      obtain ⟨rfl, rfl, rfl⟩ := by simpa [hcharge] using hcharge'
      exact hfits
    · intro hfits
      exact hfits side operator value hcharge haccepts
  · constructor
    · intro _ side operator value hcharge haccepts
      rcases hnone with hnone | hnone
      · rw [hnone] at hcharge
        cases hcharge
      · exact absurd haccepts hnone
    · intro _
      refine ⟨?_, ?_⟩
      · rw [h.supply hkeeps, h.byBridge, h.byBridge, hm.exact]
      · rw [h.byBridge, h.byBridge]
        exact hm.covered

/-- A proxy through which the bridge has minted and burned nothing yet. -/
structure Unminted (m : Minting) : Prop where
  supply : m.proxy.thunderBridgeSupply = 0
  receipts : m.receipts = []

theorem Unminted.supplyExact (h : Unminted m) : SupplyExact m := by
  have hnone : ∀ side, m.byBridge side = 0 := by
    intro side
    unfold Minting.byBridge
    rw [h.receipts]
    rfl
  constructor
  · rw [h.supply, hnone, hnone]
    rfl
  · rw [hnone, hnone]

/-- **The supply is exact.** In every run of the proxy without `setThunderBridgeSupply`, the counter is what the
    bridge minted less what it burned, in all states, exactly when no burn of the bridge is above the counter
    and no mint of the bridge makes it reach `2 ^ 256`. -/
theorem supply_exact_iff {m₀ : Minting} (hunminted : Unminted m₀) {txs : List ProxyTx}
    (hkeeps : ∀ tx ∈ txs, KeepsSupply tx) :
    Traces.Throughout step SupplyExact m₀ txs ↔ Traces.EachInput step FitsSupply m₀ txs := by
  apply Traces.throughout_iff_eachInput (I := fun _ => True)
  · intro _ _ _ _
    trivial
  · intro m _ hm tx htx
    exact step_supplyExact_iff (hkeeps tx htx) hm
  · trivial
  · exact hunminted.supplyExact

theorem sampleMinting_unminted : Unminted sampleMinting := ⟨rfl, rfl⟩

/-- The bridge burns what it minted. -/
theorem supply_exact_two : Traces.Throughout step SupplyExact sampleMinting
    [.mint 7 33 60 true, .transfer 33 7 60, .burn 7 7 60] := by
  rw [supply_exact_iff sampleMinting_unminted (by simp [KeepsSupply]), Traces.eachInput_cons,
    Traces.eachInput_cons, Traces.eachInput_cons]
  refine ⟨?_, ?_, ?_, Traces.eachInput_nil⟩
  · intro side operator value hcharge _ _
    obtain ⟨rfl, rfl, rfl⟩ := by simpa [charge] using hcharge
    show _ < _
    decide +kernel
  · intro side operator value hcharge _ _
    cases hcharge
  · intro side operator value hcharge _ _
    obtain ⟨rfl, rfl, rfl⟩ := by simpa [charge] using hcharge
    show _ ≤ _
    decide +kernel

end Minting

/-! ## The bridge as an operator -/

namespace Home

variable {H : Type}

/-- The calls of a bridge whose token and whose `minterBurner` are those of the proxy. -/
def viaProxy : Callee (Home H Minting)
  | .minterBurnerMint _ target amount, s => do
      let m ← s.world.exec (.mint s.bridge.self target amount true)
      pure ({ s with world := m }, packWord 1)
  | .minterBurnerBurn _ who amount, s => do
      let m ← s.world.exec (.burn s.bridge.self who amount)
      pure ({ s with world := m }, [])
  | .transfer _ target amount, s => do
      let m ← s.world.exec (.transfer s.bridge.self target amount)
      pure ({ s with world := m }, packWord 1)
  | _, _ => none

variable {s s' : Home H Minting} {sender source : Address} {value fee : UInt256}

theorem step_of_exec_world {m m' : Minting} {tx : ProxyTx} (h : m.exec tx = some m') : m.step tx = m' := by
  unfold Minting.step
  rw [h]
  rfl

/-- Paying the fee is a transfer of the bridge. -/
theorem payFee_world (h : whenNonzero fee (fun s => payFeeInToken viaProxy s fee) s = some s') :
    s'.world = Traces.after Minting.step s.world
        (if fee = 0 then [] else [.transfer s.bridge.self s.bridge.fees.feeReceiver fee]) ∧
      s'.bridge = s.bridge := by
  unfold whenNonzero at h
  split at h
  · rename_i hfee
    simp only [payFeeInToken, Callee.bool, viaProxy, Option.bind_eq_bind, Option.bind_eq_some_iff,
      require_eq_some, exists_const, Option.pure_def, Option.some.injEq] at h
    obtain ⟨_, ⟨_, ⟨m, hm, rfl⟩, _, rfl⟩, _, rfl⟩ := h
    rw [if_neg hfee]
    exact ⟨(step_of_exec_world hm).symm, rfl⟩
  · rename_i hfee
    obtain rfl := Option.some.inj h
    rw [if_pos (not_not.mp hfee)]
    exact ⟨rfl, rfl⟩

/-- **A withdrawal at the proxy**: the fee leaves, and what is left is burned in the name of the bridge. -/
theorem onTokenTransfer_world
    (h : onTokenTransfer .ercToErcWithFeeV2 viaProxy s sender source value = some s') :
    ∃ fee rest, s.bridge.fees.withdrawFee value = some fee ∧ rest.toNat + fee.toNat = value.toNat ∧
      s'.world = Traces.after Minting.step s.world
        ((if fee = 0 then [] else [.transfer s.bridge.self s.bridge.fees.feeReceiver fee]) ++
          [.burn s.bridge.self s.bridge.self rest]) := by
  simp only [onTokenTransfer, onTokenTransferWithFeeV2, withdrawWithFee, Option.bind_eq_bind,
    Option.bind_eq_some_iff, require_eq_some, exists_const, Option.pure_def, Option.some.injEq] at h
  obtain ⟨_, _, _, _, _, fee, hfee, s₁, h₁, rest, hrest, s₂, h₂, s₃, h₃, rfl⟩ := h
  obtain ⟨hworld, hbridge⟩ := payFee_world h₁
  refine ⟨fee, rest, hfee, SafeMath.sub_eq_some.mp hrest, ?_⟩
  obtain ⟨_, _, rfl⟩ := addSpent_eq_some.mp h₂
  simp only [Callee.plain, viaProxy, Option.bind_eq_bind, Option.map_eq_some_iff, Option.bind_eq_some_iff,
    Option.pure_def, Option.some.injEq] at h₃
  obtain ⟨_, ⟨m, hm, rfl⟩, rfl⟩ := h₃
  rw [Traces.after_append, ← hworld]
  have hself : s₁.bridge.self = s.bridge.self := by rw [hbridge]
  rw [← hself]
  exact (step_of_exec_world hm).symm

/-- Operator 2 mints 100 to account 33, who sends them to the bridge 7: the bridge burns what it never
    minted, and the counter wraps. -/
theorem foreign_tokens_burned : ∃ s' : Home (List Byte) Minting,
    exec serialHash noSigner .ercToErcWithFeeV2 viaProxy
      (sampleHome (Traces.after Minting.step Minting.sampleMinting [.mint 2 33 100 true, .transfer 33 7 100]))
      (.onTokenTransfer 5 33 100) = some s' ∧
    s'.world = Traces.after Minting.step Minting.sampleMinting
      [.mint 2 33 100 true, .transfer 33 7 100, .burn 7 7 100] ∧
    s'.world.byBridge .mint = 0 ∧ s'.world.byBridge .burn = 100 ∧
    s'.world.proxy.thunderBridgeSupply = 0 - 100 ∧ ¬ Minting.SupplyExact s'.world := by
  have heval : (exec serialHash noSigner .ercToErcWithFeeV2 viaProxy
      (sampleHome (Traces.after Minting.step Minting.sampleMinting [.mint 2 33 100 true, .transfer 33 7 100]))
      (.onTokenTransfer 5 33 100)).map (fun s' => (s'.world.byBridge .mint, s'.world.byBridge .burn,
        s'.world.proxy.thunderBridgeSupply)) = some (0, 100, 0 - 100) := by
    decide +kernel
  obtain ⟨s', hs', hvalues⟩ := Option.map_eq_some_iff.mp heval
  obtain ⟨hminted, hburned, hsupply⟩ := by simpa only [Prod.mk.injEq] using hvalues
  refine ⟨s', hs', ?_, hminted, hburned, hsupply, ?_⟩
  · obtain ⟨fee, rest, hfee, hrest, hworld⟩ := onTokenTransfer_world hs'
    have hnone : DepositWithdrawFeeManager.withdrawFee ⟨8, 0, 0, 0, 0⟩ 100 = some 0 := by decide
    obtain rfl : 0 = fee := Option.some.inj (hnone.symm.trans hfee)
    obtain rfl : rest = 100 := BitVec.eq_of_toNat_eq hrest
    exact hworld
  · intro hexact
    have hcovered := hexact.covered
    rw [hminted, hburned] at hcovered
    omega

end Home
end ThunderBridge
