import ThunderBridge.Contracts.ForeignBridge.NativeCustody
import ThunderBridge.Contracts.HomeBridge.Custody

/-!
# `Solvency.Custody` — who can take the collateral

Five bridges hold what backs the tokens on the other chain: the three foreign bridges of a token, the foreign bridge
of the native coin, and the native home bridge. `collateral_custody` puts their custody side by side.

Each exposes `claimTokens` as its line of inheritance left it. The foreign bridges override it to refuse what they
hold; the home bridge inherits it from `BasicBridge` as it is, and there the owner of the proxy can claim the coin.
-/

namespace ThunderBridge

section Custody

variable {H W₁ W₂ W₃ : Type} [DecidableEq H]

/-- **Collateral custody.** The foreign bridges pay out what they hold for relayed messages only, each with enough
    signatures. The native home bridge pays out its coin for approved deposits only, as long as no coin is claimed;
    and a claim of coin that nobody pays back is covered exactly when there is none. -/
theorem collateral_custody (K : CollisionFree H) (ecrecover : Ecrecover H) (heldTokens : W₁ → Nat)
    (heldForeign : W₂ → Nat) (heldHome : W₃ → Nat) :
    (∀ V, (Foreign.vault heldTokens).Custody Foreign.Fresh (Foreign.AssetStep heldTokens K ecrecover V)
      (Foreign.AssetCall heldTokens K ecrecover V) fun s r => Backed K ecrecover s.bridge.self r) ∧
    (Foreign.vault (Foreign.Native.purse heldForeign)).Custody Foreign.Fresh
      (Foreign.Native.CoinStep heldForeign K ecrecover) (Foreign.Native.CoinCall heldForeign K ecrecover)
      (fun s r => Backed K ecrecover s.bridge.self r) ∧
    (Home.vault heldHome).Custody Home.Fresh (Home.CoinStep heldHome K ecrecover (Home.Careful heldHome))
      (Home.CoinCall heldHome K ecrecover (Home.Careful heldHome)) Home.Approved ∧
    ∀ outside balanceOf sender target (s s' : Home H W₃), Home.KeepsCoin heldHome outside →
      heldHome s.world < 2 ^ 256 →
      Home.execCoin heldHome K ecrecover outside balanceOf (.claimTokens sender 0 target) s = some s' →
      ((Home.vault heldHome).Covered s s' ↔ Home.Careful heldHome s (.claimTokens sender 0 target)) := by
  refine ⟨fun V => Foreign.asset_custody, Foreign.Native.coin_custody, Home.coin_custody, ?_⟩
  intro outside balanceOf sender target s s' hcall hword h
  exact Home.claim_covered_iff hcall hword h

end Custody

/-! ## Chains to evaluate -/

namespace Foreign

/-- A token that moves what it is told to; the world is what the bridge holds. -/
def teller : Callee (Foreign Nat) := fun c s =>
  match c with
  | .transfer token _ amount =>
      if token = s.bridge.erc20token ∧ amount.toNat ≤ s.world then
        some ({ s with world := s.world - amount.toNat }, packWord 1)
      else none
  | _ => none

theorem teller_within {out : Foreign Nat → Foreign Nat → Prop} (hrefl : ∀ s, out s s) :
    AssetWithin id out teller := by
  intro c s s' data h
  cases c with
  | transfer token target amount =>
      simp only [teller] at h
      split at h
      · rename_i hpaid
        obtain ⟨rfl, rfl⟩ := Prod.mk.inj (Option.some.inj h)
        have hcost : cost s (packWord 1) (.transfer token target amount) = amount.toNat :=
          if_pos ⟨hpaid.1, by decide +kernel⟩
        refine ⟨s, s.world - amount.toNat, hrefl s, ?_, hrefl _⟩
        rw [hcost]
        exact Nat.le_of_eq (Nat.sub_add_cancel hpaid.2).symm
      · cases h
  | mint _ _ _ | burn _ _ | minterBurnerMint _ _ _ | minterBurnerBurn _ _ _ | send _ _ => cases h

/-- Two validators sign the message, and V3 pays 100 of its 150 tokens. -/
theorem teller_run : ∃ s₀ s : Foreign Nat, Fresh s₀ ∧ AssetRun id serialHash signerV .ercToErcV3 s₀ s ∧
    s₀.world = 150 ∧ s.world = 50 ∧ s.bridge.trail ≠ [] := by
  have heval : (do
      let v ← BridgeValidators.blank.initializeWith 2 [1, 2] 9
      let s ← exec serialHash signerV .ercToErcV3 teller (sampleForeign v 150)
        (.executeSignatures [2, 1] [0, 0] [0, 0] (Message.encode sampleMessage))
      pure (s.world, s.bridge.trail.length)) = some (50, 1) := by
    decide +kernel
  simp only [Option.bind_eq_bind, Option.bind_eq_some_iff, Option.pure_def, Option.some.injEq,
    Prod.mk.injEq] at heval
  obtain ⟨v, hv, s, hcall, hworld, htrail⟩ := heval
  refine ⟨sampleForeign v 150, s, deploy_fresh hv .., ?_, rfl, hworld, ?_⟩
  · apply Relation.ReflTransGen.single
    exact .bridge 1 (.tx teller _ (teller_within fun _ => Relation.ReflTransGen.refl) hcall)
  · exact List.ne_nil_of_length_pos (htrail ▸ Nat.one_pos)

end Foreign

namespace Home


/-- Accounts that keep the coin they are sent; the world is what the bridge holds. -/
def cashiers : Callee (Home (List Byte) Nat) := fun c s =>
  if c.coins ≤ s.world then some ({ s with world := s.world - c.coins }, packWord 1) else none

theorem cashiers_keep : KeepsCoin id cashiers := by
  intro c s s' data h
  unfold cashiers at h
  split at h
  · obtain ⟨rfl, _⟩ := Prod.mk.inj (Option.some.inj h)
    exact ⟨_, rfl, Nat.sub_add_cancel ‹_›⟩
  · cases h

/-- Native home bridge 7 with proxy owner 6, which holds nothing yet. -/
def sampleCoinHome : Home (List Byte) Nat := deploy 7 6 7 sampleLimits ⟨8, 0, 0, 0, 0⟩ 0 4 3 0

/-- A call of the sample bridge, with its value paid. -/
def sampleCall (tx : CoinTx) (s : Home (List Byte) Nat) : Option (Home (List Byte) Nat) :=
  execCoin id serialHash noSigner cashiers (fun _ _ => none) tx { s with world := s.world + tx.msgValue.toNat }

theorem sampleCall_step {allowed : Home (List Byte) Nat → CoinTx → Prop} {tx : CoinTx}
    {s s' : Home (List Byte) Nat} (hsender : tx.sender ≠ s.bridge.self)
    (hallowed : allowed { s with world := s.world + tx.msgValue.toNat } tx) (h : sampleCall tx s = some s') :
    CoinStep id serialHash noSigner allowed s s' :=
  coinStep_of_exec cashiers_keep hsender rfl hallowed h

/-- V3 pays 100 tokens for a message. Account 33 pays 100 to the native home bridge; two validators affirm a deposit
    of 60, and the bridge pays it. -/
theorem collateral_custody_settlement :
    (∃ s₀ s : Foreign Nat, s₀.world = 150 ∧ s.world = 50 ∧ s.bridge.trail ≠ [] ∧ (Foreign.vault id).Covered s₀ s ∧
      ∀ r ∈ s.bridge.trail, Backed serialHash Foreign.signerV s.bridge.self r) ∧
    ∃ s s' : Home (List Byte) Nat, CoinRun id serialHash noSigner (Careful id) sampleCoinHome s ∧
      CoinStep id serialHash noSigner (Careful id) s s' ∧ s.world = 100 ∧ s'.world = 40 ∧
      (vault id).Covered s s' ∧ Approved s' (33, 60, 77) := by
  obtain ⟨t₀, t, hfresh, hrun, hworld₀, hworldt, htrail⟩ := Foreign.teller_run
  obtain ⟨htokens, _, _, _⟩ := collateral_custody serialHash Foreign.signerV (id : Nat → Nat) (id : Nat → Nat)
    (id : Nat → Nat)
  refine ⟨⟨t₀, t, hworld₀, hworldt, htrail, ?_, ?_⟩, ?_⟩
  · exact (htokens .ercToErcV3).covered _ _ _ hfresh .refl hrun
  · exact (htokens .ercToErcV3).approved _ _ hfresh hrun
  have heval : (do
      let v ← BridgeValidators.blank.initializeWith 2 [1, 2] 9
      let s₁ ← sampleCall (.call (.transferAndCall 33 7 100 100)) { sampleCoinHome with validators := v }
      let s₂ ← sampleCall (.call (.executeAffirmation 1 33 60 77)) s₁
      let s₃ ← sampleCall (.call (.executeAffirmation 2 33 60 77)) s₂
      require (s₁.bridge.self = 7 ∧ s₂.bridge.self = 7 ∧ executedDeposits s₃.bridge.trail = [(33, 60, 77)])
      pure (s₂.world, s₃.world)) = some (100, 40) := by
    decide +kernel
  simp only [Option.bind_eq_bind, Option.bind_eq_some_iff, require_eq_some, exists_const, Option.pure_def,
    Option.some.injEq, Prod.mk.injEq] at heval
  obtain ⟨v, hv, s₁, h₁, s₂, h₂, s₃, h₃, ⟨hself₁, hself₂, hexecuted⟩, hworld, hworld'⟩ := heval
  have hpaid : CoinStep id serialHash noSigner (Careful id) { sampleCoinHome with validators := v } s₁ := by
    apply sampleCall_step _ trivial h₁
    show (33 : Address) ≠ 7
    decide
  have hsigned : CoinStep id serialHash noSigner (Careful id) s₁ s₂ := by
    apply sampleCall_step _ trivial h₂
    rw [hself₁]
    show (1 : Address) ≠ 7
    decide
  have hfirst : CoinRun id serialHash noSigner (Careful id) sampleCoinHome s₂ :=
    ((Relation.ReflTransGen.single (.validators ⟨.initializeWith 2 [1, 2] 9, hv⟩)).tail hpaid).tail hsigned
  have hlast : CoinStep id serialHash noSigner (Careful id) s₂ s₃ := by
    apply sampleCall_step _ trivial h₃
    rw [hself₂]
    show (2 : Address) ≠ 7
    decide
  obtain ⟨_, _, hcustody, _⟩ := collateral_custody serialHash noSigner (id : Nat → Nat) (id : Nat → Nat) (id : Nat → Nat)
  refine ⟨s₂, s₃, hfirst, hlast, hworld, hworld', ?_, ?_⟩
  · exact hcustody.covered _ _ _ (deploy_fresh ..) hfirst (Relation.ReflTransGen.single hlast)
  · apply hcustody.approved _ _ (deploy_fresh ..) (hfirst.tail hlast)
    show (33, 60, 77) ∈ executedDeposits s₃.bridge.trail
    rw [hexecuted]
    exact List.mem_singleton_self _

/-- **The collateral claimed.** Account 33 pays 100 to the bridge for tokens on the other chain; the owner of the proxy
    claims the coin for account 66. The bridge holds nothing, and has settled no deposit. -/
theorem collateral_claimed : ∃ s s' : Home (List Byte) Nat, Fresh sampleCoinHome ∧
    CoinRun id serialHash noSigner (fun _ _ => True) sampleCoinHome s ∧
      sampleCall (.claimTokens 6 0 66) s = some s' ∧ CoinStep id serialHash noSigner (fun _ _ => True) s s' ∧
      s.world = 100 ∧ s'.world = 0 ∧ executedDeposits s'.bridge.trail = [] ∧ ¬ (vault id).Covered s s' := by
  have heval : (do
      let s₁ ← sampleCall (.call (.transferAndCall 33 7 100 100)) sampleCoinHome
      let s₂ ← sampleCall (.claimTokens 6 0 66) s₁
      require (s₁.bridge.self = 7 ∧ executedDeposits s₁.bridge.trail = [] ∧ executedDeposits s₂.bridge.trail = [])
      pure (s₁.world, s₂.world)) = some (100, 0) := by
    decide +kernel
  simp only [Option.bind_eq_bind, Option.bind_eq_some_iff, require_eq_some, exists_const, Option.pure_def,
    Option.some.injEq, Prod.mk.injEq] at heval
  obtain ⟨s₁, h₁, s₂, h₂, ⟨hself, hnone, hnone'⟩, hworld, hworld'⟩ := heval
  refine ⟨s₁, s₂, deploy_fresh .., ?_, h₂, ?_, hworld, hworld', hnone', ?_⟩
  · apply Relation.ReflTransGen.single
    apply sampleCall_step _ trivial h₁
    show (33 : Address) ≠ 7
    decide
  · apply sampleCall_step _ trivial h₂
    rw [hself]
    show (6 : Address) ≠ 7
    decide
  · intro hcovered
    have hle : s₁.world ≤ s₂.world := hcovered.held_le (hnone'.trans hnone.symm)
    rw [hworld, hworld'] at hle
    exact absurd hle (by decide)

end Home
end ThunderBridge
