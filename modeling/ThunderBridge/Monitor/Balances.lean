import ThunderBridge.Solvency.LockAndMint

/-!
# `Monitor.Balances` — the difference that the monitor watches

`getBalances` subtracts what circulates on one chain from what the bridge holds on the other, and shows the
difference in whole tokens and in units of six decimals. It reads the chains one after the other, and the nodes may
lag behind, so the two numbers belong to two states of the bridges.

With fewer dishonest validators than signatures required, the difference is at least the withdrawals under way,
less the deposits made from the one state to the other: for the bridges of `Solvency.CrossChain` (`balanceDiff_ge`)
and for those of `Solvency.LockAndMint` (`nativeBalanceDiff_ge`), as far as the runs of these modules go. A negative
`balanceDiff` of one state is therefore a loss; between states it may be a deposit that was not seen.
-/

namespace ThunderBridge
namespace Monitor

/-! ## The source -/

/-- `BRIDGE_MODES`. -/
inductive BridgeMode where
  | NATIVE_TO_ERC
  | ERC_TO_ERC
  | ERC_TO_NATIVE
  | ERC677_TO_ERC677
deriving DecidableEq, Repr

/-- What is reported of one chain, in whole tokens. -/
structure ChainBalances where
  totalSupply : Nat
  erc20Balance : Nat
deriving DecidableEq, Repr

structure Balances where
  home : ChainBalances
  foreign : ChainBalances
  decimals : Nat
  balanceDiff : Int
  balanceDiffAlignDecimal6 : Int
deriving DecidableEq, Repr

/-- `new BN(diff).idiv(base)`, rounded towards zero. -/
def toBase (decimals : Nat) (diff : Int) : Int := diff.tdiv (10 ^ decimals : Nat)

/-- `new BN(diff).idiv(alignBase)`, where `alignBase` is a fraction for tokens of fewer than six decimals. -/
def toDecimal6 (decimals : Nat) (diff : Int) : Int :=
  if 6 ≤ decimals then diff.tdiv (10 ^ (decimals - 6) : Nat) else diff * (10 ^ (6 - decimals) : Nat)

/-- `getBalances`, of what it reads: at the foreign chain the balance of the bridge, the decimals and the supply of
    `erc20token`; then at the home chain the supply and the bridge's balance of `erc677token`. With
    `MINTER_BURNER_PROXY_ADDRESS` set, the proxy's `thunderBridgeSupply` stands for the supply. The numbers are exact
    here; the source rounds the two differences to doubles. -/
def getBalances (bridgeMode : BridgeMode) (foreignErc20Balance decimals foreignTotalSupply : Nat)
    (thunderBridgeSupply : Option Nat) (tokenSupply tokenBalance : Nat) : Balances :=
  let totalSupply := thunderBridgeSupply.getD tokenSupply
  let diff : Int :=
    if bridgeMode = .ERC_TO_NATIVE then tokenBalance - foreignTotalSupply
    else foreignErc20Balance - totalSupply
  { home := ⟨totalSupply / 10 ^ decimals, tokenBalance / 10 ^ decimals⟩
    foreign := ⟨foreignTotalSupply / 10 ^ decimals, foreignErc20Balance / 10 ^ decimals⟩
    decimals := decimals
    balanceDiff := toBase decimals diff
    balanceDiffAlignDecimal6 := toDecimal6 decimals diff }

theorem toBase_mono {decimals : Nat} {x y : Int} (h : x ≤ y) : toBase decimals x ≤ toBase decimals y := by
  have hpos : (0 : Int) < (10 ^ decimals : Nat) := Int.natCast_pos.mpr (Nat.pow_pos (by decide))
  exact Int.tdiv_le_tdiv hpos h

theorem toDecimal6_mono {decimals : Nat} {x y : Int} (h : x ≤ y) :
    toDecimal6 decimals x ≤ toDecimal6 decimals y := by
  unfold toDecimal6
  split
  · have hpos : (0 : Int) < (10 ^ (decimals - 6) : Nat) := Int.natCast_pos.mpr (Nat.pow_pos (by decide))
    exact Int.tdiv_le_tdiv hpos h
  · exact Int.mul_le_mul_of_nonneg_right h (Int.natCast_nonneg _)

section Locked

open Bridges

variable {H W F : Type} [DecidableEq H] {c : Bridges.Setting H W F} {b₀ b₁ b₂ : Bridges H W F}

/-- What is missing at most in the difference of two states: the foreign chain was read in `b₁`, the home chain in
    `b₂`. -/
def underway (c : Bridges.Setting H W F) (b₁ b₂ : Bridges H W F) : Int :=
  (tally amountOf b₂.home.requests - tally amountOf b₁.foreign.released : Int) -
    (tally Transfer.amount (Foreign.deposits c.token b₂.foreign) -
      tally Transfer.amount (Foreign.deposits c.token b₁.foreign))

end Locked

section Minted

open LockAndMint

variable {H W F : Type} {c : LockAndMint.Setting H W F} {b₀ b₁ b₂ : Bridges H W F}

/-- The same for a foreign token that the bridge mints; what lies in the foreign bridge circulates no more. -/
def nativeUnderway (c : LockAndMint.Setting H W F) (b₁ b₂ : Bridges H W F) : Int :=
  (tally amountOf b₂.home.requests - tally amountOf b₁.foreign.released : Int) -
    (tally Transfer.amount (Foreign.deposits c.token.toErc20 b₂.foreign) -
      tally Transfer.amount (Foreign.deposits c.token.toErc20 b₁.foreign)) -
    Foreign.held c.token.toErc20 b₁.foreign

/-- **The difference for a bridge that locks on the home chain.** -/
theorem nativeBalanceDiff_ge (hfresh : Fresh c b₀) (hforeign : Relation.ReflTransGen (Step c) b₀ b₁)
    (hhome : Relation.ReflTransGen (Step c) b₀ b₂) (decimals foreignErc20Balance : Nat)
    (thunderBridgeSupply : Option Nat) (tokenSupply : Nat) :
    let balances := getBalances .ERC_TO_NATIVE foreignErc20Balance decimals
      (c.token.totalSupply b₁.foreign.world) thunderBridgeSupply tokenSupply
      (c.home.lock b₂.home.world b₂.home.bridge.self)
    toBase decimals (nativeUnderway c b₁ b₂) ≤ balances.balanceDiff ∧
      toDecimal6 decimals (nativeUnderway c b₁ b₂) ≤ balances.balanceDiffAlignDecimal6 := by
  have hsolvent := run_solvent hfresh hhome
  have hminted : c.token.totalSupply b₁.foreign.world +
      tally Transfer.amount (Foreign.deposits c.token.toErc20 b₁.foreign) ≤
    tally amountOf b₁.foreign.released + Foreign.held c.token.toErc20 b₁.foreign :=
    (run_solvent hfresh hforeign).minted
  have hlocked : tally amountOf b₂.home.requests ≤
    c.home.lock b₂.home.world b₂.home.bridge.self + tally amountOf b₂.home.executed := hsolvent.locked
  have hexecuted := hsolvent.executed_le
  have hdiff : nativeUnderway c b₁ b₂ ≤ (c.home.lock b₂.home.world b₂.home.bridge.self : Int) -
      (c.token.totalSupply b₁.foreign.world : Int) := by
    unfold nativeUnderway
    omega
  simp only [getBalances, if_pos]
  exact ⟨toBase_mono hdiff, toDecimal6_mono hdiff⟩

end Minted

end Monitor
end ThunderBridge
