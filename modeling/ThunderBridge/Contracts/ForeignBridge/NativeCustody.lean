import ThunderBridge.Contracts.ForeignBridge.Custody
import ThunderBridge.Contracts.ForeignBridge.NativeToken

/-!
# `ForeignBridge.NativeCustody` — the coin `ForeignBridgeWithNativeToken` holds

The bridge is its own token, so what it holds is its balance. `transfer` and the fallback function are paid in coin,
`executeSignatures` sends coin, and `claimTokens` would send all of it for the token zero: the override refuses that
one, and the inherited check refuses the bridge itself.

`held` reads the coin off the rest of the world. A payment to the bridge adds its value before the call starts; a
`send` takes its amount before the payee runs. The vault, and what a call keeps, are those of the token bridges.
-/

namespace ThunderBridge

/-- The coin a call is paid. -/
def NativeTx.msgValue : NativeTx → UInt256
  | .transfer _ _ _ msgValue => msgValue
  | .pay _ msgValue => msgValue
  | .executeSignatures _ _ _ _ | .setting _ _ => 0

namespace Foreign
namespace Native

variable {H W : Type}

/-! ## The program -/

/-- `claimTokens`. The token of the bridge is the bridge itself. -/
def claimTokens (call : Callee (Foreign (NativeWorld W)))
    (balanceOf : Address → Foreign (NativeWorld W) → Option (Foreign (NativeWorld W) × UInt256))
    (proxyOwner : Address) (coin : UInt256) (s : Foreign (NativeWorld W)) (sender token target : Address) :
    Option (Foreign (NativeWorld W)) := do
  require (sender = proxyOwner)
  -- for the token zero all coin would be sent
  require (token ≠ 0)
  Foreign.claimTokens call balanceOf proxyOwner s.bridge.self coin s sender token target

/-! ## The coin -/

/-- The rest of the world becomes another. -/
def setRest (s : Foreign (NativeWorld W)) (w : W) : Foreign (NativeWorld W) :=
  { s with world := { s.world with rest := w } }

section Coin

variable (held : W → Nat)

/-- **The accounts and contracts outside.** A call costs the bridge the coin it carries, and no other takes any. -/
def CoinWithin (out : Foreign (NativeWorld W) → Foreign (NativeWorld W) → Prop)
    (outside : Callee (Foreign (NativeWorld W))) : Prop :=
  ∀ c s s' data, outside c s = some (s', data) → ∃ w, held s.world.rest ≤ held w + c.coins ∧ out (setRest s w) s'

/-- Anything outside the two contracts. Nobody else takes coin of the bridge. -/
def CoinOutdoors (s s' : Foreign (NativeWorld W)) : Prop := ∃ w, s' = setRest s w ∧ held s.world.rest ≤ held w

variable (K : CollisionFree H) (ecrecover : Ecrecover H)

/-- One call of the bridge, by anybody, whoever owns the proxy. -/
inductive CoinInvoke (out : Foreign (NativeWorld W) → Foreign (NativeWorld W) → Prop)
    (s s' : Foreign (NativeWorld W)) : Prop where
  | tx (outside : Callee (Foreign (NativeWorld W))) (stipend : Foreign (NativeWorld W) → UInt256 → Bool)
      (tx : NativeTx) (w : W) (hcall : CoinWithin held out outside)
      (hpayer : ∀ a, tx.payer = some a → a ≠ s.bridge.self)
      (hpaid : held w = held s.world.rest + tx.msgValue.toNat)
      (h : exec K ecrecover (payee outside stipend) (setRest s w) tx = some s')
  | claimTokens (outside : Callee (Foreign (NativeWorld W))) (stipend : Foreign (NativeWorld W) → UInt256 → Bool)
      (balanceOf : Address → Foreign (NativeWorld W) → Option (Foreign (NativeWorld W) × UInt256))
      (proxyOwner : Address) (coin : UInt256) (sender token target : Address) (hcall : CoinWithin held out outside)
      (hbalance : BalanceWithin out balanceOf)
      (h : claimTokens (payee outside stipend) balanceOf proxyOwner coin s sender token target = some s')

/-- A call of the bridge whose callees call it back at most `n` deep. -/
abbrev CoinCall (n : Nat) : Foreign (NativeWorld W) → Foreign (NativeWorld W) → Prop :=
  Calls.Nested (CoinInvoke held K ecrecover) (CoinOutdoors held) n

/-- One step of the foreign chain. -/
inductive CoinStep : Foreign (NativeWorld W) → Foreign (NativeWorld W) → Prop where
  | call {s s' : Foreign (NativeWorld W)} (n : Nat) (h : CoinCall held K ecrecover n s s') : CoinStep s s'
  | validators {s : Foreign (NativeWorld W)} {v : BridgeValidators} (h : s.validators.Step v) :
      CoinStep s { s with validators := v }
  | tick {s : Foreign (NativeWorld W)} (now : UInt256) (txHash : Bytes32) (h : s.now ≤ now) :
      CoinStep s { s with now := now, world := { s.world with txHash := txHash } }
  | outdoors {s s' : Foreign (NativeWorld W)} (h : CoinOutdoors held s s') : CoinStep s s'

abbrev CoinRun : Foreign (NativeWorld W) → Foreign (NativeWorld W) → Prop :=
  Relation.ReflTransGen (CoinStep held K ecrecover)

/-- What the bridge holds. -/
def purse (w : NativeWorld W) : Nat := held w.rest

end Coin

/-! ## One payment -/

section Payments

variable {held : W → Nat} {out : Foreign (NativeWorld W) → Foreign (NativeWorld W) → Prop}
  {call outside : Callee (Foreign (NativeWorld W))} {stipend : Foreign (NativeWorld W) → UInt256 → Bool}
  {s s' : Foreign (NativeWorld W)} {recipient : Address} {amount : UInt256} {ok : Bool}

/-- **Paying out a message** is one `send` of its amount that goes through, and what is noted of it. -/
theorem onExecuteMessage_cases (h : onExecuteMessage call s recipient amount = some (s', ok)) :
    ∃ t target data, call (.send target amount) s = some (t, data) ∧ SameRelays t s' ∧
      s'.bridge.erc20token = t.bridge.erc20token ∧ s'.world.rest = t.world.rest := by
  simp only [onExecuteMessage, tokenTransfer, Callee.lowLevel] at h
  cases hsend : call (.send recipient amount) s with
  | some answer =>
      obtain ⟨t, data⟩ := answer
      simp only [hsend, Option.isSome_some, if_true, Option.pure_def, Option.some.injEq, Prod.mk.injEq] at h
      obtain ⟨rfl, _⟩ := h
      exact ⟨t, recipient, data, hsend, ⟨rfl, rfl, rfl, rfl, rfl⟩, rfl, rfl⟩
  | none =>
      simp only [hsend, Option.isSome_none, Bool.false_eq_true, if_false, Option.bind_eq_bind,
        Option.bind_eq_some_iff, require_eq_some, exists_const, Option.pure_def, Option.some.injEq,
        Prod.mk.injEq] at h
      obtain ⟨_, t, hpay, rfl, _⟩ := h
      obtain ⟨data, hc⟩ := Callee.answered_of_plain hpay
      exact ⟨t, s.bridge.fallbackRecipient, data, hc, ⟨rfl, rfl, rfl, rfl, rfl⟩, rfl, rfl⟩

/-- The fallback function costs nothing. -/
theorem fallback_spends (s : Foreign (NativeWorld W)) (sender : Address) (msgValue : UInt256) :
    Spends (purse held) 0 s (fallback s sender msgValue) :=
  ⟨rfl, .of_same rfl rfl⟩

theorem setRest_spends {w : W} {n : Nat} (h : held s.world.rest ≤ held w + n) :
    Spends (purse held) n s (setRest s w) :=
  ⟨rfl, .of_held rfl h⟩

/-- A call costs the coin it carries, and none if it comes back to the bridge. -/
theorem payee_spends (hout : ∀ s s', out s s' → Spends (purse held) 0 s s') (hcall : CoinWithin held out outside)
    {c : ExtCall} {data : Bytes} (h : payee outside stipend c s = some (s', data)) :
    Spends (purse held) c.coins s s' := by
  have houtside : outside c s = some (s', data) → Spends (purse held) c.coins s s' := by
    intro hc
    obtain ⟨w, hpaid, hafter⟩ := hcall c s s' data hc
    exact (setRest_spends hpaid).trans (hout _ _ hafter)
  cases c with
  | send target amount =>
      simp only [payee] at h
      split at h
      · split at h
        · obtain ⟨rfl, _⟩ := Prod.mk.inj (Option.some.inj h)
          exact (fallback_spends s s.bridge.self amount).mono (Nat.zero_le _)
        · cases h
      · exact houtside h
  | mint _ _ _ | burn _ _ | transfer _ _ _ | minterBurnerMint _ _ _ | minterBurnerBurn _ _ _ => exact houtside h

variable {K : CollisionFree H} {ecrecover : Ecrecover H}

/-- The payees leave the relays to the calls they make. -/
theorem payee_relaying (hout : ∀ s s', out s s' → Relaying K ecrecover s s') (hcall : CoinWithin held out outside) :
    Within (Relaying K ecrecover) (payee outside stipend) := by
  intro c s s' data h
  have houtside : outside c s = some (s', data) → Relaying K ecrecover s s' := by
    intro hc
    obtain ⟨w, _, hafter⟩ := hcall c s s' data hc
    have hmoved : Relaying K ecrecover s (setRest s w) := .of_bridge rfl rfl
    exact hmoved.trans (hout _ _ hafter)
  cases c with
  | send target amount =>
      simp only [payee] at h
      split at h
      · split at h
        · obtain ⟨rfl, _⟩ := Prod.mk.inj (Option.some.inj h)
          exact .of_bridge rfl rfl
        · cases h
      · exact houtside h
  | mint _ _ _ | burn _ _ | transfer _ _ _ | minterBurnerMint _ _ _ | minterBurnerBurn _ _ _ => exact houtside h

end Payments

/-! ## Calls -/

section Calls

variable {held : W → Nat} {K : CollisionFree H} {ecrecover : Ecrecover H}
  {out : Foreign (NativeWorld W) → Foreign (NativeWorld W) → Prop} {call outside : Callee (Foreign (NativeWorld W))}
  {stipend : Foreign (NativeWorld W) → UInt256 → Bool} {s s' : Foreign (NativeWorld W)}

theorem coinOutdoors_inCustody (h : CoinOutdoors held s s') : InCustody (purse held) K ecrecover s s' := by
  obtain ⟨w, rfl, hheld⟩ := h
  exact ⟨.of_bridge rfl rfl, setRest_spends hheld⟩

/-- **A message** is paid and then relayed, by enough signatures. -/
theorem executeSignatures_inCustody (hout : ∀ s s', out s s' → InCustody (purse held) K ecrecover s s')
    (hcall : CoinWithin held out outside) {vs : List Byte} {rs ss : List Bytes32} {message : Bytes}
    (h : executeSignatures K ecrecover (payee outside stipend) s vs rs ss message = some s') :
    InCustody (purse held) K ecrecover s s' := by
  simp only [executeSignatures, Option.bind_eq_bind, Option.bind_eq_some_iff, require_eq_some, exists_const,
    Option.pure_def, Option.some.injEq] at h
  obtain ⟨_, henough, m, hm, haddr, hfresh, ⟨s₁, ok⟩, hexec, _, rfl⟩ := h
  obtain ⟨t, target, data, hc, hsame, htoken, hrest⟩ := onExecuteMessage_cases hexec
  have hpaid : Relaying K ecrecover (s.setRelayedMessages m.txHash true) s₁ :=
    (payee_relaying (fun _ _ ho => (hout _ _ ho).relaying) hcall _ _ _ _ hc).trans (Relaying.of_same hsame)
  have hspends := payee_spends (fun _ _ ho => (hout _ _ ho).spends) hcall hc
  constructor
  · refine ⟨hpaid.validators, hpaid.self, ?_⟩
    intro P hP
    have hpending := hpaid.relayed _ (hP.setRelayedMessages hfresh)
    refine hpending.relay ?_ ?_
    · intro hmem
      have hraised := hP.once.raised m.txHash hmem
      exact absurd (hraised.symm.trans hfresh) (by decide)
    · have hbacked := backed_of_accepted hP henough hm haddr
      rw [hpaid.validators, hpaid.self]
      exact hbacked
  · refine ⟨htoken.trans hspends.erc20token, ?_⟩
    have hloses : (vault (purse held)).Loses m.amount.toNat s t := Vault.Covered.then (.of_same rfl rfl) hspends.loses
    apply Vault.Loses.approve (x := ⟨message, m, vs, rs, ss, s₁.validators⟩) hloses
    · exact congrArg (List.cons _) hsame.trail
    · exact congrArg held hrest

/-- **A claim** is of a token other than the bridge. -/
theorem claimTokens_inCustody (hout : ∀ s s', out s s' → InCustody (purse held) K ecrecover s s')
    (hcall : CoinWithin held out outside)
    {balanceOf : Address → Foreign (NativeWorld W) → Option (Foreign (NativeWorld W) × UInt256)}
    (hbalance : BalanceWithin out balanceOf) {proxyOwner sender token target : Address} {coin : UInt256}
    (h : claimTokens (payee outside stipend) balanceOf proxyOwner coin s sender token target = some s') :
    InCustody (purse held) K ecrecover s s' := by
  simp only [claimTokens, Foreign.claimTokens, Option.bind_eq_bind, Option.bind_eq_some_iff, require_eq_some,
    exists_const] at h
  obtain ⟨_, htoken, _, _, h⟩ := h
  obtain ⟨_, ⟨hzero, _⟩ | ⟨_, s₁, balance, data, hread, hc⟩⟩ := BasicBridge.claimTokens_cases h
  · exact absurd hzero htoken
  · have hbefore := hout _ _ (hbalance _ _ _ _ hread)
    have hspends : Spends (purse held) 0 s₁ s' := payee_spends (fun _ _ ho => (hout _ _ ho).spends) hcall hc
    have hrelaying := payee_relaying (fun _ _ ho => (hout _ _ ho).relaying) hcall _ _ _ _ hc
    exact hbefore.trans ⟨hrelaying, hspends⟩

/-- **One call of the bridge.** -/
theorem coinInvoke_inCustody (hout : ∀ s s', out s s' → InCustody (purse held) K ecrecover s s')
    (h : CoinInvoke held K ecrecover out s s') : InCustody (purse held) K ecrecover s s' := by
  cases h with
  | claimTokens outside stipend balanceOf proxyOwner coin sender token target hcall hbalance h =>
      exact claimTokens_inCustody hout hcall hbalance h
  | tx outside stipend tx w hcall hpayer hpaid h =>
      have hcredited : InCustody (purse held) K ecrecover s (setRest s w) :=
        ⟨.of_bridge rfl rfl, setRest_spends (by omega)⟩
      refine hcredited.trans ?_
      cases tx with
      | transfer sender target value msgValue =>
          simp only [exec, transfer, Option.bind_eq_bind, Option.bind_eq_some_iff, require_eq_some, exists_const,
            Option.pure_def, Option.some.injEq] at h
          obtain ⟨_, _, rfl⟩ := h
          exact ⟨.of_bridge rfl rfl, fallback_spends _ sender msgValue⟩
      | pay sender msgValue =>
          obtain rfl := Option.some.inj h
          exact ⟨.of_bridge rfl rfl, fallback_spends _ sender msgValue⟩
      | executeSignatures vs rs ss message => exact executeSignatures_inCustody hout hcall h
      | setting sender setting =>
          simp only [exec, Option.bind_eq_bind, Option.bind_eq_some_iff, require_eq_some, exists_const] at h
          obtain ⟨_, _, _, rfl⟩ := applySetting_cases h.2
          exact ⟨Relaying.of_same ⟨rfl, rfl, rfl, rfl, rfl⟩, .of_same rfl rfl rfl⟩

/-- **A call of any depth**, in any state. -/
theorem coinCall_inCustody : ∀ n s s', CoinCall held K ecrecover n s s' → InCustody (purse held) K ecrecover s s' :=
  Calls.nested_rel InCustody.refl (fun _ _ _ => InCustody.trans) (fun _ _ => coinOutdoors_inCustody)
    fun _ hout _ _ => coinInvoke_inCustody hout

/-! ## Runs -/

/-- **One step of the foreign chain** lowers what the bridge holds by what it relays, and no more. -/
theorem coinStep_covered (h : CoinStep held K ecrecover s s') : (vault (purse held)).Covered s s' := by
  cases h with
  | call n h => exact (coinCall_inCustody n s s' h).spends.loses
  | validators h => exact .of_same rfl rfl
  | tick now txHash h => exact .of_same rfl rfl
  | outdoors h =>
      have hcustody : InCustody (purse held) K ecrecover s s' := coinOutdoors_inCustody h
      exact hcustody.spends.loses

theorem coinStep_relayed (hs : Relayed K ecrecover ∅ s) (h : CoinStep held K ecrecover s s') :
    Relayed K ecrecover ∅ s' := by
  cases h with
  | call n h => exact (coinCall_inCustody n s s' h).relaying.relayed ∅ hs
  | validators hv => exact hs.manage hv
  | tick now txHash _ => exact hs.same (.of_bridge rfl rfl)
  | outdoors h => exact (coinOutdoors_inCustody h).relaying.relayed ∅ hs

/-- **The native bridge keeps its coin.** -/
theorem coin_custody : (vault (purse held)).Custody Fresh (CoinStep held K ecrecover) (CoinCall held K ecrecover)
    fun s r => Backed K ecrecover s.bridge.self r := by
  apply Vault.Custody.of_invariant (P := Relayed K ecrecover ∅)
  · exact fun _ => relayed_fresh
  · exact fun _ _ => coinStep_relayed
  · exact fun _ hs => hs.backed
  · exact fun _ _ => coinStep_covered
  · exact fun n s s' h => (coinCall_inCustody n s s' h).spends.loses

end Calls

end Native
end Foreign
end ThunderBridge
