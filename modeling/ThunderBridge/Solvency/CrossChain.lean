import ThunderBridge.Solvency.HomeSupply
import ThunderBridge.Solvency.HonestValidators
import ThunderBridge.Solvency.ForeignReserve

/-!
# `Solvency.CrossChain` — the foreign reserve covers the home supply

`HomeBridgeErcToErcWithFee` and `ForeignBridgeErcToErcV2` as one system. The chains move independently; what
crosses from one to the other are affirmations and signatures, which anybody may submit at any time, again and
again or never. Honest validators affirm the deposits of `Transfer` events to the foreign bridge
(`realDeposits`) and sign the messages of `UserRequestForSignature` events (`signable`).

**The argument.** With `D` deposited, `R` released, `M` minted and `B` requested so far, the foreign bridge
holds `D - R` and the home supply is `M - B`. Each settled deposit is a real one of its own, so `M ≤ D`; each
release is of a request of its own, so `R ≤ B`. A release to the foreign bridge itself counts in `R` and in `D`.
-/

namespace ThunderBridge

/-- The two chains. -/
structure Bridges (H W F : Type) where
  home : Home H W
  foreign : Foreign F

namespace Bridges

variable {H W F : Type}

/-- The tokens, the dishonest validators, and the call data of the transactions. -/
structure Setting (H W F : Type) where
  K : CollisionFree H
  ecrecover : Ecrecover H
  totalSupply : W → Nat
  token : Erc20 F
  dishonest : Finset Address
  homeInput : Bytes32 → Bytes
  foreignInput : Bytes32 → Bytes

/-- The deposits that honest validators affirm. -/
def realDeposits (c : Setting H W F) (b : Bridges H W F) : List Deposit :=
  (Foreign.deposits c.token b.foreign).map (processTransfer c.foreignInput)

/-- The messages that honest validators sign. -/
def signable (c : Setting H W F) (b : Bridges H W F) : List Bytes :=
  b.home.requests.map (processSignatureRequest c.homeInput b.foreign.bridge.self)

/-- One of the chains makes a step. -/
inductive Step [DecidableEq H] (c : Setting H W F) (b : Bridges H W F) : Bridges H W F → Prop where
  | home {home : Home H W} (h : Home.TokenStep c.totalSupply c.K c.ecrecover
      (Home.Admits c.dishonest (b.realDeposits c)) b.home home) : Step c b { b with home := home }
  | foreign {foreign : Foreign F} (h : Foreign.TokenStep c.token c.K c.ecrecover c.dishonest (b.signable c)
      b.foreign foreign) : Step c b { b with foreign := foreign }

/-- Both bridges just deployed: no home tokens, and nothing transferred to the foreign bridge. -/
structure Fresh (c : Setting H W F) (b : Bridges H W F) : Prop where
  home : b.home.Fresh
  foreign : b.foreign.Fresh
  totalSupply : c.totalSupply b.home.world = 0
  deposits : Foreign.deposits c.token b.foreign = []

/-! ## The invariant -/

/-- The accounts of the two chains, and what ties them to each other. -/
structure Solvent (c : Setting H W F) (b : Bridges H W F) : Prop where
  threshold : Home.Threshold c.K ∅ b.home
  authentic : Home.Authentic c.dishonest (b.realDeposits c) b.home
  supply : c.totalSupply b.home.world + tally amountOf b.home.requests = tally amountOf b.home.executed
  relayed : Foreign.Relayed c.K c.ecrecover ∅ b.foreign
  signed : ∀ r ∈ b.foreign.bridge.trail, r.message ∈ b.signable c
  reserve : tally Transfer.amount (Foreign.deposits c.token b.foreign) ≤
    Foreign.held c.token b.foreign + tally amountOf b.foreign.released

section Invariant

variable {c : Setting H W F} {b b' : Bridges H W F}

theorem solvent_fresh (h : Fresh c b) : Solvent c b where
  threshold := Home.threshold_fresh h.home
  authentic := Home.authentic_fresh h.home
  supply := by
    rw [h.totalSupply, Home.requests, h.home.log, Home.executed, h.home.trail]
    rfl
  relayed := Foreign.relayed_fresh h.foreign
  signed := by
    intro r hr
    rw [h.foreign.trail] at hr
    exact absurd hr List.not_mem_nil
  reserve := by
    rw [h.deposits]
    exact Nat.zero_le _

variable [DecidableEq H]

/-- **One step of either chain.** -/
theorem step_solvent (hb : Solvent c b) (h : Step c b b') : Solvent c b' := by
  cases h with
  | @home home' h =>
      -- only the home accounts move, and a withdrawal once requested stays requested
      have haccounts := Home.tokenStep_accounted (fun _ _ _ _ hadmits => hadmits) h
      have hsupply := haccounts.supply
      have hold := hb.supply
      refine ⟨(Home.step_threshold h.step).1 hb.threshold, ?_, ?_, hb.relayed, ?_, hb.reserve⟩
      · exact Home.step_authentic hb.threshold hb.authentic h.step
      · show c.totalSupply home'.world + tally amountOf home'.requests = tally amountOf home'.executed
        omega
      · intro r hr
        obtain ⟨q, hq, he⟩ := List.mem_map.mp (hb.signed r hr)
        exact List.mem_map.mpr ⟨q, haccounts.requests.subset hq, he⟩
  | @foreign foreign' h =>
      -- only the reserve moves; a transfer once made stays real, and what is relayed now was requested
      obtain ⟨hheld, hself, hdeposits, htrail⟩ := Foreign.tokenStep_reserve h
      have hold := hb.reserve
      refine ⟨hb.threshold, ?_, hb.supply, Foreign.step_relayed hb.relayed h.step, ?_, ?_⟩
      · apply hb.authentic.mono
        intro d hd
        obtain ⟨t, ht, he⟩ := List.mem_map.mp hd
        exact List.mem_map.mpr ⟨t, hdeposits.subset ht, he⟩
      · intro r hr
        show r.message ∈ b.home.requests.map (processSignatureRequest c.homeInput foreign'.bridge.self)
        rw [hself]
        rcases htrail hb.relayed.sound r hr with hr | hr
        · exact hb.signed r hr
        · exact hr
      · show tally Transfer.amount (Foreign.deposits c.token foreign') ≤
          Foreign.held c.token foreign' + tally amountOf foreign'.released
        omega

theorem run_solvent {b₀ : Bridges H W F} (hfresh : Fresh c b₀)
    (hrun : Relation.ReflTransGen (Step c) b₀ b) : Solvent c b :=
  Calls.steps_invariant (P := Solvent c) (fun _ _ => step_solvent) hrun (solvent_fresh hfresh)

omit [DecidableEq H]

/-- What was minted was deposited. -/
theorem Solvent.executed_le (h : Solvent c b) :
    tally amountOf b.home.executed ≤ tally Transfer.amount (Foreign.deposits c.token b.foreign) :=
  calc tally amountOf b.home.executed ≤ tally amountOf (b.realDeposits c) :=
        tally_le_of_nodup h.threshold.once.nodup h.authentic.executed
    _ = tally Transfer.amount (Foreign.deposits c.token b.foreign) := tally_processTransfer ..

/-- A relayed message is of a requested withdrawal. -/
theorem Solvent.withdrawal_mem (h : Solvent c b) {r : Relay} (hr : r ∈ b.foreign.bridge.trail) :
    Foreign.Relay.withdrawal r ∈ b.home.requests.map (redirect c.homeInput) := by
  obtain ⟨q, hq, he⟩ := List.mem_map.mp (h.signed r hr)
  obtain ⟨_, _, _, _, _, hparsed, _⟩ := h.relayed.backed r hr
  rw [← he, parse_processSignatureRequest] at hparsed
  refine List.mem_map.mpr ⟨q, hq, ?_⟩
  rw [Foreign.Relay.withdrawal, ← Option.some.inj hparsed]
  rfl

/-- What was released was requested. -/
theorem Solvent.released_le (h : Solvent c b) :
    tally amountOf b.foreign.released ≤ tally amountOf b.home.requests := by
  have hevents : b.foreign.released = b.foreign.bridge.trail.map Foreign.Relay.withdrawal := h.relayed.events
  -- two releases differ in their transaction hash
  have hnodup : b.foreign.released.Nodup := by
    apply List.Nodup.of_map (fun w : Withdrawal => w.2.2)
    rw [hevents, List.map_map]
    exact h.relayed.once.nodup
  have hsub : b.foreign.released ⊆ b.home.requests.map (redirect c.homeInput) := by
    intro w hw
    rw [hevents] at hw
    obtain ⟨r, hr, rfl⟩ := List.mem_map.mp hw
    exact h.withdrawal_mem hr
  calc tally amountOf b.foreign.released ≤ tally amountOf (b.home.requests.map (redirect c.homeInput)) :=
        tally_le_of_nodup hnodup hsub
    _ = tally amountOf b.home.requests := tally_redirect ..

end Invariant

/-! ## Solvency -/

section Solvency

variable [DecidableEq H]

/-- **Cross-chain solvency.** In every reachable state the foreign bridge holds at least the home tokens in
    circulation and the withdrawals requested but not released; every `executeAffirmation` mints no more than
    its value; and every `onTokenTransfer` burns exactly the value it requests. -/
theorem cross_chain_solvency {c : Setting H W F} {b₀ b : Bridges H W F} (hfresh : Fresh c b₀)
    (hrun : Relation.ReflTransGen (Step c) b₀ b) :
    tally amountOf b.foreign.released ≤ tally amountOf b.home.requests ∧
    c.totalSupply b.home.world + (tally amountOf b.home.requests - tally amountOf b.foreign.released) ≤
      Foreign.held c.token b.foreign ∧
    (∀ (out : Home H W → Home H W → Prop) (call : Callee (Home H W)) (s s' : Home H W)
      (sender recipient : Address) (value : UInt256) (transactionHash : Bytes32),
      Home.TokenWithin c.totalSupply out call →
      Home.executeAffirmation c.K .ercToErcWithFee call s sender recipient value transactionHash = some s' →
      c.totalSupply s'.world ≤ c.totalSupply s.world + value.toNat) ∧
    (∀ (out : Home H W → Home H W → Prop) (call : Callee (Home H W)) (s s' : Home H W)
      (sender source : Address) (value : UInt256), Home.TokenWithin c.totalSupply out call →
      Home.onTokenTransfer .ercToErcWithFee call s sender source value = some s' →
      ∃ (rest : UInt256) (s₁ s₂ : Home H W), (s₁ = s ∨ out s s₁) ∧
        c.totalSupply s₂.world + rest.toNat = c.totalSupply s₁.world ∧ s₂.requests = s₁.requests ∧
        s' = s₂.emit (.UserRequestForSignature source rest)) := by
  have hinv := run_solvent hfresh hrun
  have hminted := hinv.executed_le
  have hreleased := hinv.released_le
  have hsupply := hinv.supply
  have hreserve := hinv.reserve
  refine ⟨hreleased, by omega, ?_, ?_⟩
  · intro out call s s' sender recipient value transactionHash hcall h
    exact (Home.affirmed_accounted hcall
      (Home.executeAffirmation_cases (recipient, value, transactionHash) h).2).2
  · intro out call s s' sender source value hcall h
    obtain ⟨rest, s₁, s₂, hpaid, hburn, hrequests, _, he⟩ := Home.onTokenTransfer_burns hcall h
    exact ⟨rest, s₁, s₂, hpaid, hburn, hrequests, he⟩

end Solvency

/-! ## A pair of bridges to evaluate -/

/-- The balances and the events of a token. -/
structure Ledger where
  balances : Address → Nat
  log : List Transfer

def Ledger.erc20 : Erc20 Ledger := ⟨Ledger.balances, Ledger.log⟩

/-- `transfer`, in the transaction `transactionHash`. -/
def Ledger.move (l : Ledger) (source target : Address) (value : UInt256) (transactionHash : Bytes32) : Ledger where
  balances a := l.balances a - (if a = source then value.toNat else 0) + (if a = target then value.toNat else 0)
  log := ⟨source, target, value, transactionHash⟩ :: l.log

theorem Ledger.move_moves {l : Ledger} {source target : Address} {value : UInt256} (transactionHash : Bytes32)
    (h : value.toNat ≤ l.balances source) :
    Ledger.erc20.Moves source target value l (l.move source target value transactionHash) :=
  ⟨h, fun _ => rfl, ⟨transactionHash, rfl⟩⟩

/-- The home token keeps its supply; a transfer of it calls nobody. -/
def supplyToken {H : Type} : Callee (Home H Nat)
  | .mint _ _ amount, s => some ({ s with world := s.world + amount.toNat }, packWord 1)
  | .burn _ amount, s =>
      if amount.toNat ≤ s.world then some ({ s with world := s.world - amount.toNat }, []) else none
  | _, s => some (s, packWord 1)

theorem supplyToken_within {H : Type} {out : Home H Nat → Home H Nat → Prop} (hrefl : ∀ s, out s s) :
    Home.TokenWithin id out (supplyToken (H := H)) := by
  intro c s s' data h
  cases c with
  | mint token target amount =>
      obtain ⟨rfl, _⟩ := Prod.mk.inj (Option.some.inj h)
      exact ⟨⟨_, rfl⟩, rfl⟩
  | burn token amount =>
      simp only [supplyToken] at h
      split at h
      · rename_i hle
        obtain ⟨rfl, _⟩ := Prod.mk.inj (Option.some.inj h)
        exact ⟨⟨_, rfl⟩, Nat.sub_add_cancel hle⟩
      · cases h
  | transfer _ _ _ | minterBurnerMint _ _ _ | minterBurnerBurn _ _ _ | send _ _ =>
      obtain ⟨rfl, _⟩ := Prod.mk.inj (Option.some.inj h)
      exact hrefl _

/-- The foreign token moves the amount in the transaction 99. -/
def ledgerToken : Callee (Foreign Ledger)
  | .transfer _ target amount, s =>
      if amount.toNat ≤ s.world.balances s.bridge.self then
        some ({ s with world := s.world.move s.bridge.self target amount 99 }, packWord 1)
      else none
  | _, s => some (s, packWord 1)

theorem ledgerToken_within {out : Foreign Ledger → Foreign Ledger → Prop} (hrefl : ∀ s, out s s) :
    Foreign.TokenWithin Ledger.erc20 out ledgerToken := by
  intro c s s' data h
  cases c with
  | transfer token target amount =>
      simp only [ledgerToken] at h
      split at h
      · rename_i hle
        obtain ⟨rfl, _⟩ := Prod.mk.inj (Option.some.inj h)
        exact ⟨s, _, hrefl s, Ledger.move_moves 99 hle, hrefl _⟩
      · cases h
  | mint _ _ _ | burn _ _ | minterBurnerMint _ _ _ | minterBurnerBurn _ _ _ | send _ _ =>
      obtain ⟨rfl, _⟩ := Prod.mk.inj (Option.some.inj h)
      exact hrefl _

/-- Validator 2 is dishonest. -/
def sampleSetting : Setting (List Byte) Nat Ledger where
  K := serialHash
  ecrecover := Foreign.signerV
  totalSupply := id
  token := Ledger.erc20
  dishonest := {2}
  homeInput := fun _ => []
  foreignInput := fun _ => []

/-- A call of the home bridge in which the token calls nobody back. -/
theorem step_of_home {b : Bridges (List Byte) Nat Ledger} {tx : BridgeTx} {home : Home (List Byte) Nat}
    (hadmits : Home.Admits {2} (b.realDeposits sampleSetting) b.home tx)
    (h : Home.exec serialHash Foreign.signerV .ercToErcWithFee supplyToken b.home tx = some home) :
    Step sampleSetting b { b with home := home } :=
  .home (.bridge 1 ⟨supplyToken, tx, hadmits, supplyToken_within fun _ => .refl, h⟩)

/-- A call of the foreign bridge in which the token calls nobody back. -/
theorem step_of_foreign {b : Bridges (List Byte) Nat Ledger} {tx : ForeignTx} {foreign : Foreign Ledger}
    (hadmits : Foreign.Admits serialHash Foreign.signerV {2} (b.signable sampleSetting) b.foreign tx)
    (h : Foreign.exec serialHash Foreign.signerV .ercToErcV2 ledgerToken b.foreign tx = some foreign) :
    Step sampleSetting b { b with foreign := foreign } :=
  .foreign (.bridge 1 ⟨ledgerToken, tx, hadmits, ledgerToken_within fun _ => .refl, h⟩)

/-- Account 33 has 100 foreign tokens. -/
def sampleLedger : Ledger := ⟨fun a => if a = 33 then 100 else 0, []⟩

/-- Account 33 transfers 100 to the foreign bridge and withdraws 40 of them again: 60 stay on both sides. -/
theorem cross_chain_solvency_withdrawal :
    ∃ b₀ b : Bridges (List Byte) Nat Ledger, Relation.ReflTransGen (Step sampleSetting) b₀ b ∧
      b.home.world = 60 ∧ Foreign.held Ledger.erc20 b.foreign = 60 ∧ b.foreign.released = [(33, 40, 0)] ∧
      sampleSetting.totalSupply b.home.world +
        (tally amountOf b.home.requests - tally amountOf b.foreign.released) ≤
          Foreign.held sampleSetting.token b.foreign := by
  have heval : (do
      let v ← BridgeValidators.blank.initializeWith 2 [1, 2] 9
      let h₁ : Home (List Byte) Nat := { Home.sampleHome 0 with validators := v }
      let f₀ : Foreign Ledger := Foreign.sampleForeign v sampleLedger
      let f₁ : Foreign Ledger := { f₀ with world := sampleLedger.move 33 7 100 77 }
      let h₂ ← Home.exec serialHash Foreign.signerV .ercToErcWithFee supplyToken h₁
        (.executeAffirmation 1 33 100 77)
      let h₃ ← Home.exec serialHash Foreign.signerV .ercToErcWithFee supplyToken h₂
        (.executeAffirmation 2 33 100 77)
      let h₄ ← Home.exec serialHash Foreign.signerV .ercToErcWithFee supplyToken h₃
        (.onTokenTransfer 5 33 40)
      let f₂ ← Foreign.exec serialHash Foreign.signerV .ercToErcV2 ledgerToken f₁
        (.executeSignatures [1, 2] [0, 0] [0, 0] (createMessage 33 40 0 7))
      require (realDeposits sampleSetting ⟨h₁, f₁⟩ = [(33, 100, 77)])
      require (signable sampleSetting ⟨h₄, f₁⟩ = [createMessage 33 40 0 7])
      require (f₂.released = [(33, 40, 0)])
      pure [v.requiredSignatures.toNat, h₂.validators.requiredSignatures.toNat, h₄.world,
        Foreign.held Ledger.erc20 f₂]) = some [2, 2, 60, 60] := by
    decide +kernel
  simp only [Option.bind_eq_bind, Option.bind_eq_some_iff, require_eq_some, exists_const, Option.pure_def,
    Option.some.injEq, List.cons.injEq, and_true] at heval
  obtain ⟨v, hv, h₂, hsecond, h₃, hthird, h₄, hfourth, f₂, hrelay, hreal, hsign, hreleased, hrequired, hrequired',
    hworld, hheld⟩ := heval
  let h₁ : Home (List Byte) Nat := { Home.sampleHome 0 with validators := v }
  let f₁ : Foreign Ledger :=
    { Foreign.sampleForeign v sampleLedger with world := sampleLedger.move 33 7 100 77 }
  have hcard : ({2} : Finset Address).card < 2 := by decide
  have hmem : (33, 100, 77) ∈ realDeposits sampleSetting ⟨h₁, f₁⟩ := hreal ▸ List.mem_singleton.mpr rfl
  have hmessage : createMessage 33 40 0 7 ∈ signable sampleSetting ⟨h₄, f₁⟩ :=
    hsign ▸ List.mem_singleton.mpr rfl
  -- the six steps: the deployment is completed, a deposit, two affirmations, a withdrawal, its release
  have hinit : Step sampleSetting ⟨Home.sampleHome 0, Foreign.sampleForeign v sampleLedger⟩
      ⟨h₁, Foreign.sampleForeign v sampleLedger⟩ := .home (.validators ⟨.initializeWith 2 [1, 2] 9, hv⟩)
  have hdeposit : Step sampleSetting ⟨h₁, Foreign.sampleForeign v sampleLedger⟩ ⟨h₁, f₁⟩ := by
    have hsource : (33 : Address) ≠ 7 := by decide
    have henough : (100 : UInt256).toNat ≤ sampleLedger.balances 33 := by decide
    exact .foreign (.elsewhere ⟨_, rfl, .transfer 33 7 100 hsource (Ledger.move_moves 77 henough)⟩)
  have hsigned₁ : Step sampleSetting ⟨h₁, f₁⟩ ⟨h₂, f₁⟩ := by
    refine step_of_home ?_ hsecond
    exact ⟨hrequired ▸ hcard, fun _ => hmem⟩
  have hsigned₂ : Step sampleSetting ⟨h₂, f₁⟩ ⟨h₃, f₁⟩ := by
    refine step_of_home ?_ hthird
    exact ⟨hrequired' ▸ hcard, fun _ => hmem⟩
  have hburned : Step sampleSetting ⟨h₃, f₁⟩ ⟨h₄, f₁⟩ := by
    refine step_of_home ?_ hfourth
    exact trivial
  have hrelayed : Step sampleSetting ⟨h₄, f₁⟩ ⟨h₄, f₂⟩ := by
    refine step_of_foreign ?_ hrelay
    exact ⟨hrequired ▸ hcard, fun _ _ _ => hmessage⟩
  have hrun := (((((Relation.ReflTransGen.single hinit).tail hdeposit).tail hsigned₁).tail hsigned₂).tail
    hburned).tail hrelayed
  have hfresh : Fresh sampleSetting ⟨Home.sampleHome 0, Foreign.sampleForeign v sampleLedger⟩ :=
    ⟨Home.deploy_fresh .., Foreign.deploy_fresh hv .., rfl, rfl⟩
  exact ⟨_, _, hrun, hworld, hheld, hreleased, (cross_chain_solvency hfresh hrun).2.1⟩

end Bridges
end ThunderBridge
