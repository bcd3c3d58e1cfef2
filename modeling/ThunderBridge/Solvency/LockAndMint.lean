import ThunderBridge.Solvency.Custody
import ThunderBridge.Solvency.CrossChain
import ThunderBridge.Solvency.HomeReserve
import ThunderBridge.Solvency.MintedSupply

/-!
# `Solvency.LockAndMint` — the home bridge covers what the foreign bridge minted

The other direction of `Solvency.CrossChain`: the home bridge locks coin or tokens, and the foreign bridge mints.
`HomeBridgeNativeToErcWithFee` stands against `ForeignBridgeERC677ToNative`, and `HomeBridgeErc677ToErc677WithFee`
against `ForeignBridgeErc677ToErc677`. The chains move independently and the validators carry events across, honest
ones only what happened.

**The argument.** With `B` requested and `M` settled at home, `R` released and `D` transferred to the bridge on the
other side, the home bridge holds `B - M` and what circulates there is `R - D`. Releases are of requests of their own
and settlements of transfers of their own, so `R ≤ B` and `M ≤ D`: what is locked covers what circulates, with the
requests and the transfers that are still on their way.
-/

namespace ThunderBridge

/-! ## The home side -/

/-- A home bridge that locks, with the steps of its chain for the deposits that were really made. -/
structure LockingHome (H W : Type) (K : CollisionFree H) (dishonest : Finset Address) where
  variant : HomeVariant
  lock : W → Address → Nat
  Step : List Deposit → Home H W → Home H W → Prop
  locked : ∀ real s s', Step real s s' → Home.Locked variant lock dishonest real K s s'

namespace LockingHome

variable {H W : Type} [DecidableEq H] {K : CollisionFree H} {dishonest : Finset Address}

/-- `HomeBridgeNativeToErcWithFee` and its coin. -/
def native (ecrecover : Ecrecover H) (held : W → Nat) : LockingHome H W K dishonest where
  variant := .nativeToErcWithFee
  lock := Home.coin held
  Step real := Home.CoinStep held K ecrecover (Home.CoinAdmits held dishonest real)
  locked _ _ _ := Home.coinStep_locked

/-- `HomeBridgeErc677ToErc677WithFee` and its token; the owner calls the token with data that `spares` has. -/
def erc677 (ecrecover : Ecrecover H) (lock : W → Address → Nat) (spares : Bytes → Prop) :
    LockingHome H W K dishonest where
  variant := .erc677ToErc677WithFee
  lock := lock
  Step real := Home.LockStep lock K ecrecover spares (Home.LockAdmits spares dishonest real)
  locked _ _ _ := Home.lockStep_locked

end LockingHome

/-! ## The two chains -/

namespace LockAndMint

variable {H W F : Type}

/-- The bridges, the foreign token, and the call data of the transactions. -/
structure Setting (H W F : Type) where
  K : CollisionFree H
  ecrecover : Ecrecover H
  dishonest : Finset Address
  home : LockingHome H W K dishonest
  variant : Erc677Variant
  token : MintedErc20 F
  homeInput : Bytes32 → Bytes
  foreignInput : Bytes32 → Bytes

/-- The deposits that honest validators affirm. -/
def realDeposits (c : Setting H W F) (b : Bridges H W F) : List Deposit :=
  (Foreign.deposits c.token.toErc20 b.foreign).map (processTransfer c.foreignInput)

/-- The messages that honest validators sign. -/
def signable (c : Setting H W F) (b : Bridges H W F) : List Bytes :=
  b.home.requests.map (processSignatureRequest c.homeInput b.foreign.bridge.self)

/-- One of the chains makes a step. -/
inductive Step (c : Setting H W F) (b : Bridges H W F) : Bridges H W F → Prop where
  | home {home : Home H W} (h : c.home.Step (realDeposits c b) b.home home) : Step c b { b with home := home }
  | foreign {foreign : Foreign F}
      (h : Foreign.Erc677.Step c.token c.K c.ecrecover c.variant c.dishonest (signable c b) b.foreign foreign) :
      Step c b { b with foreign := foreign }

/-- Both bridges just deployed, the native one as its own token; nothing minted, nothing transferred. -/
structure Fresh (c : Setting H W F) (b : Bridges H W F) : Prop where
  home : b.home.Fresh
  wired : Home.Wired c.home.variant b.home
  foreign : b.foreign.Fresh
  /-- The zero address has no code. -/
  self : b.foreign.bridge.self ≠ 0
  totalSupply : c.token.totalSupply b.foreign.world = 0
  deposits : Foreign.deposits c.token.toErc20 b.foreign = []

/-! ## The invariant -/

/-- The accounts of the two chains, and what ties them to each other. -/
structure Solvent (c : Setting H W F) (b : Bridges H W F) : Prop where
  threshold : Home.Threshold c.K ∅ b.home
  authentic : Home.Authentic c.dishonest (realDeposits c b) b.home
  wired : Home.Wired c.home.variant b.home
  locked : (Home.books c.home.lock).Solvent b.home
  relayed : Foreign.Relayed c.K c.ecrecover ∅ b.foreign
  signed : ∀ r ∈ b.foreign.bridge.trail, r.message ∈ signable c b
  self : b.foreign.bridge.self ≠ 0
  minted : (Foreign.Erc677.books c.token).Solvent b.foreign

section Invariant

variable {c : Setting H W F} {b b' : Bridges H W F}

theorem solvent_fresh (h : Fresh c b) : Solvent c b where
  threshold := Home.threshold_fresh h.home
  authentic := Home.authentic_fresh h.home
  wired := h.wired
  locked := by
    show tally amountOf b.home.requests ≤ _
    rw [Home.requests, h.home.log]
    exact Nat.zero_le _
  relayed := Foreign.relayed_fresh h.foreign
  signed := by
    intro r hr
    rw [h.foreign.trail] at hr
    exact absurd hr List.not_mem_nil
  self := h.self
  minted := by
    show c.token.totalSupply b.foreign.world + tally Transfer.amount (Foreign.deposits c.token.toErc20 b.foreign) ≤ _
    rw [h.totalSupply, h.deposits]
    exact Nat.zero_le _

/-- **One step of either chain.** -/
theorem step_solvent (hb : Solvent c b) (h : Step c b b') : Solvent c b' := by
  cases h with
  | @home home' h =>
      -- what was requested stays requested, so what was signed stays signable
      have hlocked := c.home.locked _ _ _ h
      refine ⟨hlocked.threshold hb.threshold, hlocked.authentic hb.threshold hb.authentic,
        hb.wired.congr hlocked.backs.self hlocked.backs.erc677token,
        hb.locked.kept (hlocked.backs.short hb.wired), hb.relayed, ?_, hb.self, hb.minted⟩
      intro r hr
      obtain ⟨q, hq, he⟩ := List.mem_map.mp (hb.signed r hr)
      exact List.mem_map.mpr ⟨q, hlocked.backs.requests.subset hq, he⟩
  | @foreign foreign' h =>
      -- what was transferred stays transferred, so what was real stays real
      have hkept := Foreign.Erc677.step_kept h
      refine ⟨hb.threshold, ?_, hb.wired, hb.locked, hkept.relayed hb.relayed, ?_, ?_,
        hb.minted.kept (hkept.books hb.self)⟩
      · apply hb.authentic.mono
        intro d hd
        obtain ⟨t, ht, he⟩ := List.mem_map.mp hd
        exact List.mem_map.mpr ⟨t, hkept.deposits.subset ht, he⟩
      · intro r hr
        show r.message ∈ b.home.requests.map (processSignatureRequest c.homeInput foreign'.bridge.self)
        rw [hkept.self]
        rcases hkept.signed hb.relayed.sound r hr with hr | hr
        · exact hb.signed r hr
        · exact hr
      · show foreign'.bridge.self ≠ 0
        rw [hkept.self]
        exact hb.self

theorem run_solvent {b₀ : Bridges H W F} (hfresh : Fresh c b₀) (hrun : Relation.ReflTransGen (Step c) b₀ b) :
    Solvent c b :=
  Calls.steps_invariant (P := Solvent c) (fun _ _ => step_solvent) hrun (solvent_fresh hfresh)

/-- What was settled at home was transferred to the foreign bridge. -/
theorem Solvent.executed_le (h : Solvent c b) :
    tally amountOf b.home.executed ≤ tally Transfer.amount (Foreign.deposits c.token.toErc20 b.foreign) :=
  calc tally amountOf b.home.executed ≤ tally amountOf (realDeposits c b) :=
        tally_le_of_nodup h.threshold.once.nodup h.authentic.executed
    _ = tally Transfer.amount (Foreign.deposits c.token.toErc20 b.foreign) := tally_processTransfer ..

/-- A relayed message is of a requested withdrawal. -/
theorem Solvent.withdrawal_mem (h : Solvent c b) {r : Relay} (hr : r ∈ b.foreign.bridge.trail) :
    Foreign.Relay.withdrawal r ∈ b.home.requests.map (redirect c.homeInput) := by
  obtain ⟨q, hq, he⟩ := List.mem_map.mp (h.signed r hr)
  obtain ⟨_, _, _, _, _, hparsed, _⟩ := h.relayed.backed r hr
  rw [← he, parse_processSignatureRequest] at hparsed
  refine List.mem_map.mpr ⟨q, hq, ?_⟩
  rw [Foreign.Relay.withdrawal, ← Option.some.inj hparsed]
  rfl

/-- What was released was requested. -/
theorem Solvent.released_le (h : Solvent c b) :
    tally amountOf b.foreign.released ≤ tally amountOf b.home.requests := by
  have hevents : b.foreign.released = b.foreign.bridge.trail.map Foreign.Relay.withdrawal := h.relayed.events
  have hnodup : b.foreign.released.Nodup := by
    apply List.Nodup.of_map (fun w : Withdrawal => w.2.2)
    rw [hevents, List.map_map]
    exact h.relayed.once.nodup
  have hsub : b.foreign.released ⊆ b.home.requests.map (redirect c.homeInput) := by
    intro w hw
    rw [hevents] at hw
    obtain ⟨r, hr, rfl⟩ := List.mem_map.mp hw
    exact h.withdrawal_mem hr
  calc tally amountOf b.foreign.released ≤ tally amountOf (b.home.requests.map (redirect c.homeInput)) :=
        tally_le_of_nodup hnodup hsub
    _ = tally amountOf b.home.requests := tally_redirect ..

/-- **Covered**: what is locked covers what circulates outside the foreign bridge, the requests that were not
    released, and the transfers that were not settled. -/
def Covered (c : Setting H W F) (b : Bridges H W F) : Prop :=
  tally amountOf b.foreign.released ≤ tally amountOf b.home.requests ∧
  tally amountOf b.home.executed ≤ tally Transfer.amount (Foreign.deposits c.token.toErc20 b.foreign) ∧
  c.token.totalSupply b.foreign.world + (tally amountOf b.home.requests - tally amountOf b.foreign.released) +
      (tally Transfer.amount (Foreign.deposits c.token.toErc20 b.foreign) - tally amountOf b.home.executed) ≤
    c.home.lock b.home.world b.home.bridge.self + Foreign.held c.token.toErc20 b.foreign

theorem Solvent.covered (h : Solvent c b) : Covered c b := by
  have hreleased := h.released_le
  have hexecuted := h.executed_le
  have hlocked : tally amountOf b.home.requests ≤
    c.home.lock b.home.world b.home.bridge.self + tally amountOf b.home.executed := h.locked
  have hminted : c.token.totalSupply b.foreign.world +
      tally Transfer.amount (Foreign.deposits c.token.toErc20 b.foreign) ≤
    tally amountOf b.foreign.released + Foreign.held c.token.toErc20 b.foreign := h.minted
  exact ⟨hreleased, hexecuted, by omega⟩

end Invariant

/-! ## Solvency -/

section Solvency

variable [DecidableEq H] (K : CollisionFree H) (ecrecover : Ecrecover H) (dishonest : Finset Address)
  (token : MintedErc20 F) (homeInput foreignInput : Bytes32 → Bytes)

/-- `HomeBridgeNativeToErcWithFee` and `ForeignBridgeERC677ToNative`. -/
def coinSetting (held : W → Nat) : Setting H W F :=
  ⟨K, ecrecover, dishonest, .native ecrecover held, .erc677ToNative, token, homeInput, foreignInput⟩

/-- `HomeBridgeErc677ToErc677WithFee` and `ForeignBridgeErc677ToErc677`. -/
def tokenSetting (lock : W → Address → Nat) (spares : Bytes → Prop) : Setting H W F :=
  ⟨K, ecrecover, dishonest, .erc677 ecrecover lock spares, .erc677ToErc677, token, homeInput, foreignInput⟩

variable {K ecrecover dishonest token homeInput foreignInput}

/-- **The coin at home covers what was minted**, in every reachable state of the two chains. -/
theorem coin_covers_minted {held : W → Nat} {b₀ b : Bridges H W F}
    (hfresh : Fresh (coinSetting K ecrecover dishonest token homeInput foreignInput held) b₀)
    (hrun : Relation.ReflTransGen (Step (coinSetting K ecrecover dishonest token homeInput foreignInput held)) b₀ b) :
    Covered (coinSetting K ecrecover dishonest token homeInput foreignInput held) b :=
  (run_solvent hfresh hrun).covered

/-- **The tokens locked at home cover what was minted**, in every reachable state of the two chains, whatever the owner
    has the bridge call of the token that spares what is locked. -/
theorem tokens_cover_minted {lock : W → Address → Nat} {spares : Bytes → Prop} {b₀ b : Bridges H W F}
    (hfresh : Fresh (tokenSetting K ecrecover dishonest token homeInput foreignInput lock spares) b₀)
    (hrun : Relation.ReflTransGen (Step (tokenSetting K ecrecover dishonest token homeInput foreignInput lock spares))
      b₀ b) :
    Covered (tokenSetting K ecrecover dishonest token homeInput foreignInput lock spares) b :=
  (run_solvent hfresh hrun).covered

end Solvency

/-! ## Two pairs of bridges to evaluate -/

/-- A token that keeps its supply. -/
structure MintedLedger where
  ledger : Bridges.Ledger
  supply : Nat

namespace MintedLedger

def erc20 : MintedErc20 MintedLedger := ⟨⟨fun l => l.ledger.balances, fun l => l.ledger.log⟩, MintedLedger.supply⟩

/-- `mint`, in the transaction 99. -/
def mint (l : MintedLedger) (target : Address) (value : UInt256) : MintedLedger where
  ledger :=
    { balances := fun a => l.ledger.balances a + (if a = target then value.toNat else 0)
      log := ⟨0, target, value, 99⟩ :: l.ledger.log }
  supply := l.supply + value.toNat

/-- `burn`, in the transaction 99. -/
def burn (l : MintedLedger) (source : Address) (value : UInt256) : MintedLedger where
  ledger :=
    { balances := fun a => l.ledger.balances a - (if a = source then value.toNat else 0)
      log := ⟨source, 0, value, 99⟩ :: l.ledger.log }
  supply := l.supply - value.toNat

def transfer (l : MintedLedger) (source target : Address) (value : UInt256) (transactionHash : Bytes32) :
    MintedLedger :=
  { l with ledger := l.ledger.move source target value transactionHash }

theorem transfer_elsewhere {l : MintedLedger} {bridge source target : Address} {value : UInt256}
    (transactionHash : Bytes32) (hsource : source ≠ bridge) (h : value.toNat ≤ l.ledger.balances source) :
    erc20.Elsewhere bridge l (l.transfer source target value transactionHash) :=
  ⟨.transfer source target value hsource ⟨h, fun _ => rfl, ⟨transactionHash, rfl⟩⟩, Nat.le_refl _⟩

end MintedLedger

/-- The token mints and burns for the bridge, and calls nobody. -/
def mintingToken : Callee (Foreign MintedLedger)
  | .mint token target amount, s =>
      if token = s.bridge.erc20token then some ({ s with world := s.world.mint target amount }, packWord 1) else none
  | .burn token amount, s =>
      if token = s.bridge.erc20token ∧ amount.toNat ≤ s.world.ledger.balances s.bridge.self ∧
          amount.toNat ≤ s.world.supply then
        some ({ s with world := s.world.burn s.bridge.self amount }, [])
      else none
  | _, _ => none

theorem mintingToken_within {out : Foreign MintedLedger → Foreign MintedLedger → Prop} (hrefl : ∀ s, out s s) :
    Foreign.Erc677.TokenWithin MintedLedger.erc20 out mintingToken := by
  intro c s s' data h
  cases c with
  | mint token target amount =>
      simp only [mintingToken] at h
      split at h
      · rename_i htoken
        obtain ⟨rfl, rfl⟩ := Prod.mk.inj (Option.some.inj h)
        have htrue : Bytes.mload (packWord 1) 0 ≠ 0 := by decide +kernel
        simp only [Foreign.Erc677.TokenCall, htoken, htrue, ne_eq, not_false_eq_true, and_self, if_true]
        exact ⟨s, _, hrefl s, ⟨rfl, fun _ => rfl, ⟨99, rfl⟩⟩, hrefl _⟩
      · cases h
  | burn token amount =>
      simp only [mintingToken] at h
      split at h
      · rename_i hle
        obtain ⟨rfl, _⟩ := Prod.mk.inj (Option.some.inj h)
        simp only [Foreign.Erc677.TokenCall, hle.1, if_true]
        refine ⟨s, s.world.burn s.bridge.self amount, hrefl s, ⟨hle.2.1, ?_, fun _ => rfl, ⟨99, rfl⟩⟩, hrefl _⟩
        exact Nat.sub_add_cancel hle.2.2
      · cases h
  | transfer _ _ _ | minterBurnerMint _ _ _ | minterBurnerBurn _ _ _ | send _ _ => cases h

/-- Nobody has any tokens. -/
def unminted : MintedLedger := ⟨⟨fun _ => 0, []⟩, 0⟩

/-- A call of the foreign bridge in which the token calls nobody back. -/
theorem step_of_foreign {W : Type} {c : Setting (List Byte) W MintedLedger} {b : Bridges (List Byte) W MintedLedger}
    {tx : Erc677Tx} {foreign : Foreign MintedLedger} (htoken : c.token = MintedLedger.erc20)
    (hadmits : Foreign.Erc677.Admits c.K c.ecrecover c.dishonest (signable c b) b.foreign tx)
    (h : Foreign.Erc677.exec c.K c.ecrecover c.variant mintingToken b.foreign tx = some foreign) :
    Step c b { b with foreign := foreign } := by
  refine .foreign (.bridge 1 (.tx mintingToken tx ?_ hadmits h))
  rw [htoken]
  exact mintingToken_within fun _ => .refl

/-- A transfer of another account to the foreign bridge. -/
theorem step_of_transfer {W : Type} {c : Setting (List Byte) W MintedLedger} {b : Bridges (List Byte) W MintedLedger}
    {source : Address} {value : UInt256} (transactionHash : Bytes32) (htoken : c.token = MintedLedger.erc20)
    (hsource : source ≠ b.foreign.bridge.self) (h : value.toNat ≤ b.foreign.world.ledger.balances source) :
    let world := b.foreign.world.transfer source b.foreign.bridge.self value transactionHash
    Step c b { b with foreign := { b.foreign with world := world } } := by
  refine .foreign (.elsewhere ⟨_, rfl, ?_⟩)
  rw [htoken]
  exact MintedLedger.transfer_elsewhere transactionHash hsource h

/-- Validator 2 is dishonest; the chains have the coin of `Home.cashiers` and the token of `mintingToken`. -/
def sampleCoins : Setting (List Byte) Nat MintedLedger :=
  coinSetting serialHash Foreign.signerV {2} MintedLedger.erc20 plainInput plainInput id

/-- A call of the native bridge, with its value paid. -/
def callHome (tx : BridgeTx) (s : Home (List Byte) Nat) : Option (Home (List Byte) Nat) :=
  Home.execCoin id serialHash Foreign.signerV Home.cashiers (fun _ _ => none) (.call tx)
    { s with world := s.world + tx.msgValue.toNat }

theorem step_of_home {b : Bridges (List Byte) Nat MintedLedger} {tx : BridgeTx} {home : Home (List Byte) Nat}
    (hsender : tx.sender ≠ b.home.bridge.self)
    (hadmits : Home.Admits {2} (realDeposits sampleCoins b)
      { b.home with world := b.home.world + tx.msgValue.toNat } tx)
    (h : callHome tx b.home = some home) : Step sampleCoins b { b with home := home } := by
  have hother : (CoinTx.call tx).sender ≠ b.home.bridge.self := hsender
  exact .home (Home.coinStep_of_exec Home.cashiers_keep hother rfl hadmits h)

/-- Account 33 pays 100 coins to the home bridge and gets 100 tokens; it transfers 40 of them back, which are burned,
    and gets 40 coins. 60 stay on both sides. -/
theorem coin_covers_minted_round : ∃ b₀ b : Bridges (List Byte) Nat MintedLedger,
    Relation.ReflTransGen (Step sampleCoins) b₀ b ∧ b.home.world = 60 ∧ b.foreign.world.supply = 60 ∧
      b.foreign.released = [(33, 100, 0)] ∧ b.home.executed = [(33, 40, 88)] ∧ Covered sampleCoins b := by
  have heval : (do
      let v ← BridgeValidators.blank.initializeWith 2 [1, 2] 9
      let h₁ : Home (List Byte) Nat := { Home.sampleCoinHome with validators := v }
      let f₁ : Foreign MintedLedger := Foreign.sampleForeign v unminted
      let h₂ ← callHome (.transferAndCall 33 7 100 100) h₁
      let f₂ ← Foreign.Erc677.exec serialHash Foreign.signerV .erc677ToNative mintingToken f₁
        (.executeSignatures [1, 2] [0, 0] [0, 0] (createMessage 33 100 0 7))
      let f₃ : Foreign MintedLedger := { f₂ with world := f₂.world.transfer 33 f₂.bridge.self 40 88 }
      let f₄ ← Foreign.Erc677.exec serialHash Foreign.signerV .erc677ToNative mintingToken f₃
        (.onTokenTransfer 5 33 40)
      let h₃ ← callHome (.executeAffirmation 1 33 40 88) h₂
      let h₄ ← callHome (.executeAffirmation 2 33 40 88) h₃
      require (signable sampleCoins ⟨h₂, f₁⟩ = [createMessage 33 100 0 7])
      require (realDeposits sampleCoins ⟨h₂, f₄⟩ = [(33, 40, 88)] ∧ realDeposits sampleCoins ⟨h₃, f₄⟩ = [(33, 40, 88)])
      require (f₂.bridge.self = 7 ∧ f₂.world.ledger.balances 33 = 100 ∧ h₂.bridge.self = 7 ∧ h₃.bridge.self = 7)
      require (f₄.released = [(33, 100, 0)] ∧ h₄.executed = [(33, 40, 88)])
      pure [v.requiredSignatures.toNat, h₂.validators.requiredSignatures.toNat, h₃.validators.requiredSignatures.toNat,
        h₄.world, f₄.world.supply]) = some [2, 2, 2, 60, 60] := by
    decide +kernel
  simp only [Option.bind_eq_bind, Option.bind_eq_some_iff, require_eq_some, exists_const, Option.pure_def,
    Option.some.injEq, List.cons.injEq, and_true] at heval
  obtain ⟨v, hv, h₂, hpaid, f₂, hrelay, f₄, hburn, h₃, hfirst, h₄, hsecond, hsign, ⟨hreal, hreal'⟩,
    ⟨hself, hbalance, hself₂, hself₃⟩, ⟨hreleased, hexecuted⟩, hrequired, hrequired₂, hrequired₃, hworld, hsupply⟩ :=
    heval
  let h₁ : Home (List Byte) Nat := { Home.sampleCoinHome with validators := v }
  let f₁ : Foreign MintedLedger := Foreign.sampleForeign v unminted
  let f₃ : Foreign MintedLedger := { f₂ with world := f₂.world.transfer 33 f₂.bridge.self 40 88 }
  have hcard : ({2} : Finset Address).card < 2 := by decide
  have hmessage : createMessage 33 100 0 7 ∈ signable sampleCoins ⟨h₂, f₁⟩ := hsign ▸ List.mem_singleton.mpr rfl
  have hmem : (33, 40, 88) ∈ realDeposits sampleCoins ⟨h₂, f₄⟩ := hreal ▸ List.mem_singleton.mpr rfl
  have hmem' : (33, 40, 88) ∈ realDeposits sampleCoins ⟨h₃, f₄⟩ := hreal' ▸ List.mem_singleton.mpr rfl
  have hinit : Step sampleCoins ⟨Home.sampleCoinHome, f₁⟩ ⟨h₁, f₁⟩ :=
    .home (.validators ⟨.initializeWith 2 [1, 2] 9, hv⟩)
  have hrequested : Step sampleCoins ⟨h₁, f₁⟩ ⟨h₂, f₁⟩ := by
    refine step_of_home ?_ ?_ hpaid
    · show (33 : Address) ≠ 7
      decide
    · exact trivial
  have hrelayed : Step sampleCoins ⟨h₂, f₁⟩ ⟨h₂, f₂⟩ := by
    refine step_of_foreign rfl ?_ hrelay
    exact ⟨hrequired ▸ hcard, fun _ _ _ => hmessage⟩
  have htransferred : Step sampleCoins ⟨h₂, f₂⟩ ⟨h₂, f₃⟩ := by
    refine step_of_transfer (c := sampleCoins) 88 rfl ?_ ?_
    · show (33 : Address) ≠ f₂.bridge.self
      rw [hself]
      decide
    · show 40 ≤ f₂.world.ledger.balances 33
      rw [hbalance]
      decide
  have hburned : Step sampleCoins ⟨h₂, f₃⟩ ⟨h₂, f₄⟩ := by
    refine step_of_foreign rfl ?_ hburn
    exact trivial
  have haffirmed : Step sampleCoins ⟨h₂, f₄⟩ ⟨h₃, f₄⟩ := by
    refine step_of_home ?_ ?_ hfirst
    · show (1 : Address) ≠ h₂.bridge.self
      rw [hself₂]
      decide
    · exact ⟨hrequired₂ ▸ hcard, fun _ => hmem⟩
  have hsettled : Step sampleCoins ⟨h₃, f₄⟩ ⟨h₄, f₄⟩ := by
    refine step_of_home ?_ ?_ hsecond
    · show (2 : Address) ≠ h₃.bridge.self
      rw [hself₃]
      decide
    · exact ⟨hrequired₃ ▸ hcard, fun _ => hmem'⟩
  have hrun := ((((((Relation.ReflTransGen.single hinit).tail hrequested).tail hrelayed).tail htransferred).tail
    hburned).tail haffirmed).tail hsettled
  have hself₁ : (7 : Address) ≠ 0 := by decide
  have hfresh : Fresh sampleCoins ⟨Home.sampleCoinHome, f₁⟩ :=
    ⟨Home.deploy_fresh .., fun _ => rfl, Foreign.deploy_fresh hv .., hself₁, rfl, rfl⟩
  exact ⟨_, _, hrun, hworld, hsupply, hreleased, hexecuted, coin_covers_minted hfresh hrun⟩

/-- A home token that moves what it is told to; the world is what the bridge holds. -/
def homeTeller : Callee (Home (List Byte) Nat) := fun c s =>
  if Home.tokenCost s c ≤ s.world then some ({ s with world := s.world - Home.tokenCost s c }, packWord 1) else none

theorem homeTeller_within {out : Home (List Byte) Nat → Home (List Byte) Nat → Prop} (hrefl : ∀ s, out s s) :
    Home.LockWithin (fun w _ => w) out homeTeller := by
  intro c s s' data h
  unfold homeTeller at h
  split at h
  · obtain ⟨rfl, _⟩ := Prod.mk.inj (Option.some.inj h)
    refine ⟨s.world - Home.tokenCost s c, ?_, hrefl _⟩
    show s.world ≤ s.world - Home.tokenCost s c + Home.tokenCost s c
    omega
  · cases h

/-- Called with no data the token does nothing; with other data it may take all. -/
def homeFallback (_ : Address) (_ : UInt256) (data : Bytes) (s : Home (List Byte) Nat) : Option (Home (List Byte) Nat) :=
  some (if data = [] then s else { s with world := 0 })

theorem homeFallback_within {out : Home (List Byte) Nat → Home (List Byte) Nat → Prop} (hrefl : ∀ s, out s s) :
    Home.DataWithin (fun w _ => w) (· = []) out homeFallback := by
  intro token value data s s' h
  obtain rfl := Option.some.inj h
  refine ⟨(if data = [] then s else { s with world := 0 }).world, ?_, ?_⟩
  · intro hempty
    rw [if_pos hempty]
  · split
    · exact hrefl s
    · exact hrefl { s with world := 0 }

/-- The same validators; the home bridge locks the token of `homeTeller`. -/
def sampleTokens : Setting (List Byte) Nat MintedLedger :=
  tokenSetting serialHash Foreign.signerV {2} MintedLedger.erc20 plainInput plainInput (fun w _ => w) (· = [])

/-- A call of the home bridge, with its tokens credited. -/
def callLocking (tx : Home.LockTx) (s : Home (List Byte) Nat) : Option (Home (List Byte) Nat) :=
  Home.execLock serialHash Foreign.signerV homeTeller (fun _ _ => none) homeFallback 0 tx
    { s with world := s.world + tx.credited }

theorem step_of_locking {b : Bridges (List Byte) Nat MintedLedger} {tx : Home.LockTx} {home : Home (List Byte) Nat}
    (hadmits : Home.LockAdmits (· = []) {2} (realDeposits sampleTokens b)
      { b.home with world := b.home.world + tx.credited } tx)
    (h : callLocking tx b.home = some home) : Step sampleTokens b { b with home := home } := by
  refine .home (.bridge 1 ⟨homeTeller, fun _ _ => none, homeFallback, 0, tx, b.home.world + tx.credited,
    homeTeller_within fun _ => .refl, ?_, homeFallback_within fun _ => .refl, rfl, hadmits, h⟩)
  intro token s s' balance h
  cases h

/-- Account 33 transfers 100 to the home bridge, and 100 are minted; the owner calls the token. -/
theorem tokens_cover_minted_release : ∃ b₀ b : Bridges (List Byte) Nat MintedLedger,
    Relation.ReflTransGen (Step sampleTokens) b₀ b ∧ b.home.world = 100 ∧ b.foreign.world.supply = 100 ∧
      b.foreign.released = [(33, 100, 0)] ∧ Covered sampleTokens b := by
  have heval : (do
      let v ← BridgeValidators.blank.initializeWith 2 [1, 2] 9
      let h₁ : Home (List Byte) Nat := { Home.sampleHome 0 with validators := v }
      let f₁ : Foreign MintedLedger := Foreign.sampleForeign v unminted
      let h₂ ← callLocking (.call (.onTokenTransfer 5 33 100)) h₁
      let f₂ ← Foreign.Erc677.exec serialHash Foreign.signerV .erc677ToErc677 mintingToken f₁
        (.executeSignatures [1, 2] [0, 0] [0, 0] (createMessage 33 100 0 7))
      let h₃ ← callLocking (.callToken 9 0 []) h₂
      require (signable sampleTokens ⟨h₂, f₁⟩ = [createMessage 33 100 0 7])
      require (f₂.released = [(33, 100, 0)])
      pure [v.requiredSignatures.toNat, h₃.world, f₂.world.supply]) = some [2, 100, 100] := by
    decide +kernel
  simp only [Option.bind_eq_bind, Option.bind_eq_some_iff, require_eq_some, exists_const, Option.pure_def,
    Option.some.injEq, List.cons.injEq, and_true] at heval
  obtain ⟨v, hv, h₂, hpaid, f₂, hrelay, h₃, hcalled, hsign, hreleased, hrequired, hworld, hsupply⟩ := heval
  let h₁ : Home (List Byte) Nat := { Home.sampleHome 0 with validators := v }
  let f₁ : Foreign MintedLedger := Foreign.sampleForeign v unminted
  have hcard : ({2} : Finset Address).card < 2 := by decide
  have hmessage : createMessage 33 100 0 7 ∈ signable sampleTokens ⟨h₂, f₁⟩ := hsign ▸ List.mem_singleton.mpr rfl
  have hinit : Step sampleTokens ⟨Home.sampleHome 0, f₁⟩ ⟨h₁, f₁⟩ :=
    .home (.validators ⟨.initializeWith 2 [1, 2] 9, hv⟩)
  have hrequested : Step sampleTokens ⟨h₁, f₁⟩ ⟨h₂, f₁⟩ := by
    refine step_of_locking ?_ hpaid
    exact trivial
  have hrelayed : Step sampleTokens ⟨h₂, f₁⟩ ⟨h₂, f₂⟩ := by
    refine step_of_foreign rfl ?_ hrelay
    exact ⟨hrequired ▸ hcard, fun _ _ _ => hmessage⟩
  have howner : Step sampleTokens ⟨h₂, f₂⟩ ⟨h₃, f₂⟩ := by
    refine step_of_locking ?_ hcalled
    exact rfl
  have hrun := (((Relation.ReflTransGen.single hinit).tail hrequested).tail hrelayed).tail howner
  have hself : (7 : Address) ≠ 0 := by decide
  have hwired : Home.Wired sampleTokens.home.variant (Home.sampleHome 0 : Home (List Byte) Nat) :=
    fun hV => absurd hV (by decide)
  have hfresh : Fresh sampleTokens ⟨Home.sampleHome 0, f₁⟩ :=
    ⟨Home.deploy_fresh .., hwired, Foreign.deploy_fresh hv .., hself, rfl, rfl⟩
  exact ⟨_, _, hrun, hworld, hsupply, hreleased, tokens_cover_minted hfresh hrun⟩

end LockAndMint
end ThunderBridge
