import ThunderBridge.Contracts.ForeignBridge.Custody
import ThunderBridge.Contracts.ForeignBridge.Erc677
import ThunderBridge.Lib.Books
import ThunderBridge.Solvency.ForeignReserve

/-!
# `Solvency.MintedSupply` — what the foreign bridge minted

The bridges of `ForeignBridge.Erc677` over a token that nobody else mints. The books have what was released and what
the bridge itself holds on one side, and the supply and what was transferred to the bridge on the other: what
circulates outside the bridge, and what the home bridge still has to pay out, was released.

A `Transfer` to the bridge counts whether `onTokenTransfer` burns it or, after a `transferFrom`, it stays; a release
to the bridge itself is minted, and is one more `Transfer` to it. `Minted` is what every call keeps.
-/

namespace ThunderBridge

/-- A token with its supply. -/
structure MintedErc20 (W : Type) extends Erc20 W where
  totalSupply : W → Nat

namespace MintedErc20

variable {W : Type} (T : MintedErc20 W)

/-- `mint` of exactly `value`, with its `Transfer` from nobody. -/
structure Mints (target : Address) (value : UInt256) (w w' : W) : Prop where
  totalSupply : T.totalSupply w' = T.totalSupply w + value.toNat
  balanceOf : ∀ a, T.balanceOf w' a = T.balanceOf w a + (if a = target then value.toNat else 0)
  transfers : ∃ transactionHash, T.transfers w' = ⟨0, target, value, transactionHash⟩ :: T.transfers w

/-- `burn` of exactly `value`, with its `Transfer` to nobody. -/
structure Burns (source : Address) (value : UInt256) (w w' : W) : Prop where
  enough : value.toNat ≤ T.balanceOf w source
  totalSupply : T.totalSupply w' + value.toNat = T.totalSupply w
  balanceOf : ∀ a, T.balanceOf w' a = T.balanceOf w a - (if a = source then value.toNat else 0)
  transfers : ∃ transactionHash, T.transfers w' = ⟨source, 0, value, transactionHash⟩ :: T.transfers w

/-- What others than the bridge do: they transfer, they burn, but they do not mint. -/
structure Elsewhere (bridge : Address) (w w' : W) : Prop where
  moves : T.toErc20.Elsewhere bridge w w'
  totalSupply : T.totalSupply w' ≤ T.totalSupply w

variable {T} {w w' : W} {self target : Address} {value : UInt256}

/-- The `Transfer` events to an account after a mint. -/
theorem Mints.transfersTo (h : T.Mints target value w w') (a : Address) :
    ∃ new, T.transfersTo w' a = new ++ T.transfersTo w a ∧
      tally Transfer.amount new = if a = target then value.toNat else 0 := by
  obtain ⟨transactionHash, hlog⟩ := h.transfers
  by_cases ha : a = target
  · refine ⟨[⟨0, target, value, transactionHash⟩], ?_, ?_⟩
    · simp [Erc20.transfersTo, hlog, ha]
    · simp [ha, Transfer.amount]
  · refine ⟨[], ?_, ?_⟩
    · simp [Erc20.transfersTo, hlog, Ne.symm ha]
    · simp [ha]

/-- A burn is no `Transfer` to an account, which has another address than zero. -/
theorem Burns.transfersTo (h : T.Burns self value w w') {a : Address} (ha : a ≠ 0) :
    T.transfersTo w' a = T.transfersTo w a := by
  obtain ⟨transactionHash, hlog⟩ := h.transfers
  rw [Erc20.transfersTo, hlog, List.filter_cons_of_neg (by simpa using Ne.symm ha)]
  rfl

end MintedErc20

namespace Foreign
namespace Erc677

variable {H W : Type}

/-! ## The books -/

/-- What was released and what the bridge holds; the supply, and what was transferred to the bridge. -/
def books (T : MintedErc20 W) : Books (Foreign W) where
  assets s := tally amountOf s.released + held T.toErc20 s
  debts s := T.totalSupply s.world + tally Transfer.amount (deposits T.toErc20 s)

section Books

variable {T : MintedErc20 W} {s s' : Foreign W} {w : W} {target : Address} {value : UInt256}

/-- The books read the released messages, the token and the address of the bridge. -/
theorem books_same (hself : s'.bridge.self = s.bridge.self) (hworld : s'.world = s.world)
    (hreleased : s'.released = s.released) : (books T).Kept s s' := by
  apply Books.Short.of_same
  · show tally amountOf s'.released + T.balanceOf s'.world s'.bridge.self = _
    rw [hself, hworld, hreleased]
    rfl
  · show T.totalSupply s'.world + tally Transfer.amount (T.transfersTo s'.world s'.bridge.self) = _
    rw [hself, hworld]
    rfl

/-- **A mint** is owed, twice if it is to the bridge, which then holds it. -/
theorem books_mints (h : T.Mints target value s.world w) : (books T).Short value.toNat s { s with world := w } := by
  obtain ⟨new, hnew, htally⟩ := h.transfersTo s.bridge.self
  have hsupply := h.totalSupply
  have hbalance := h.balanceOf s.bridge.self
  show tally amountOf s.released + T.balanceOf s.world s.bridge.self +
      (T.totalSupply w + tally Transfer.amount (T.transfersTo w s.bridge.self)) ≤
    tally amountOf s.released + T.balanceOf w s.bridge.self +
      (T.totalSupply s.world + tally Transfer.amount (T.transfersTo s.world s.bridge.self)) + value.toNat
  rw [hnew, tally_append, htally]
  omega

/-- **A burn of the bridge** takes from its balance and from the supply. -/
theorem books_burns (hself : s.bridge.self ≠ 0) (h : T.Burns s.bridge.self value s.world w) :
    (books T).Kept s { s with world := w } := by
  have hlog := h.transfersTo hself
  have hsupply := h.totalSupply
  have hbalance := h.balanceOf s.bridge.self
  have henough := h.enough
  rw [if_pos rfl] at hbalance
  show tally amountOf s.released + T.balanceOf s.world s.bridge.self +
      (T.totalSupply w + tally Transfer.amount (T.transfersTo w s.bridge.self)) ≤
    tally amountOf s.released + T.balanceOf w s.bridge.self +
      (T.totalSupply s.world + tally Transfer.amount (T.transfersTo s.world s.bridge.self)) + 0
  rw [hlog]
  omega

/-- **What others do** makes the bridge hold what they transfer to it. -/
theorem books_elsewhere (h : T.Elsewhere s.bridge.self s.world w) : (books T).Kept s { s with world := w } := by
  have hheld := h.moves.held
  have hsupply := h.totalSupply
  show tally amountOf s.released + T.balanceOf s.world s.bridge.self +
      (T.totalSupply w + tally Transfer.amount (T.transfersTo w s.bridge.self)) ≤
    tally amountOf s.released + T.balanceOf w s.bridge.self +
      (T.totalSupply s.world + tally Transfer.amount (T.transfersTo s.world s.bridge.self)) + 0
  omega

end Books

/-! ## The chain -/

section Chain

variable (T : MintedErc20 W)

/-- **The token of the bridge.** A `mint` that answers true mints exactly the amount, and one that answers false
    mints nothing; a `burn` burns exactly the amount. The contracts that are called may call the bridge back. -/
def TokenCall (out : Foreign W → Foreign W → Prop) (data : Bytes) : ExtCall → Foreign W → Foreign W → Prop
  | .mint token target amount, s, s' =>
      if token = s.bridge.erc20token ∧ Bytes.mload data 0 ≠ 0 then
        ∃ s₁ w, out s s₁ ∧ T.Mints target amount s₁.world w ∧ out { s₁ with world := w } s'
      else out s s'
  | .burn token amount, s, s' =>
      if token = s.bridge.erc20token then
        ∃ s₁ w, out s s₁ ∧ T.Burns s₁.bridge.self amount s₁.world w ∧ out { s₁ with world := w } s'
      else out s s'
  | .transfer token _ _, s, s' => token ≠ s.bridge.erc20token → out s s'
  | _, s, s' => out s s'

/-- A callee that answers for such a token. -/
def TokenWithin (out : Foreign W → Foreign W → Prop) (call : Callee (Foreign W)) : Prop :=
  ∀ c s s' data, call c s = some (s', data) → TokenCall T out data c s s'

/-- Anything outside the two contracts. -/
def TokenElsewhere (s s' : Foreign W) : Prop :=
  ∃ w, s' = { s with world := w } ∧ T.Elsewhere s.bridge.self s.world w

/-- **The calls of the bridge that are made.** No one else can sign for an honest validator. -/
def Admits (K : CollisionFree H) (ecrecover : Ecrecover H) (dishonest : Finset Address) (signable : List Bytes)
    (s : Foreign W) : Erc677Tx → Prop
  | .executeSignatures vs rs ss message =>
      Foreign.Admits K ecrecover dishonest signable s (.executeSignatures vs rs ss message)
  | .onTokenTransfer _ _ _ | .setting _ _ => True

variable (K : CollisionFree H) (ecrecover : Ecrecover H) (V : Erc677Variant) (dishonest : Finset Address)
  (signable : List Bytes)

/-- One call of the bridge, by anybody, whoever owns the proxy. -/
inductive Invoke (out : Foreign W → Foreign W → Prop) (s s' : Foreign W) : Prop where
  | tx (call : Callee (Foreign W)) (tx : Erc677Tx) (hcall : TokenWithin T out call)
      (hadmits : Admits K ecrecover dishonest signable s tx) (h : exec K ecrecover V call s tx = some s')
  | claimTokens (call : Callee (Foreign W)) (balanceOf : Address → Foreign W → Option (Foreign W × UInt256))
      (proxyOwner : Address) (coin : UInt256) (sender token target : Address) (hcall : TokenWithin T out call)
      (hbalance : BalanceWithin out balanceOf)
      (h : claimTokens call balanceOf proxyOwner s.bridge.erc20token coin s sender token target = some s')

/-- A call of the bridge whose callees call it back at most `n` deep. -/
abbrev Call (n : Nat) : Foreign W → Foreign W → Prop :=
  Calls.Nested (Invoke T K ecrecover V dishonest signable) (TokenElsewhere T) n

/-- One step of the foreign chain. -/
inductive Step : Foreign W → Foreign W → Prop where
  /-- A call of the bridge succeeds. -/
  | bridge {s s' : Foreign W} (n : Nat) (h : Call T K ecrecover V dishonest signable n s s') : Step s s'
  /-- A transaction to the validator contract succeeds. -/
  | validators {s : Foreign W} {v : BridgeValidators} (h : s.validators.Step v) : Step s { s with validators := v }
  /-- A later block. -/
  | tick {s : Foreign W} (now : UInt256) (h : s.now ≤ now) : Step s { s with now := now }
  /-- The rest of the chain moves, the token included. -/
  | elsewhere {s s' : Foreign W} (h : TokenElsewhere T s s') : Step s s'

end Chain

/-! ## What a call keeps -/

section Minted

/-- What a call keeps: the relayed messages, of which the new ones were signable; the token and its deposits; and the
    books, which fall short by at most `n`. -/
structure Minted (T : MintedErc20 W) (K : CollisionFree H) (ecrecover : Ecrecover H) (signable : List Bytes) (n : Nat)
    (s s' : Foreign W) : Prop where
  relaying : Relaying K ecrecover s s'
  erc20token : s'.bridge.erc20token = s.bridge.erc20token
  deposits : deposits T.toErc20 s <:+ deposits T.toErc20 s'
  signed : s.validators.Sound → ∀ r ∈ s'.bridge.trail, r ∈ s.bridge.trail ∨ r.message ∈ signable
  short : s.bridge.self ≠ 0 → (books T).Short n s s'

variable {T : MintedErc20 W} {K : CollisionFree H} {ecrecover : Ecrecover H} {signable : List Bytes}
  {s s' s₁ s₂ s₃ : Foreign W} {n m : Nat}

theorem Minted.trans (h : Minted T K ecrecover signable n s₁ s₂) (h' : Minted T K ecrecover signable m s₂ s₃) :
    Minted T K ecrecover signable (n + m) s₁ s₃ where
  relaying := h.relaying.trans h'.relaying
  erc20token := h'.erc20token.trans h.erc20token
  deposits := h.deposits.trans h'.deposits
  signed := by
    intro hsound r hr
    rcases h'.signed (h.relaying.validators ▸ hsound) r hr with hr | hr
    · exact h.signed hsound r hr
    · exact .inr hr
  short hself := (h.short hself).trans (h'.short (h.relaying.self ▸ hself))

theorem Minted.mono (h : Minted T K ecrecover signable n s s') (hle : n ≤ m) : Minted T K ecrecover signable m s s' :=
  ⟨h.relaying, h.erc20token, h.deposits, h.signed, fun hself => (h.short hself).mono hle⟩

/-- Neither the relays nor the world have changed. -/
theorem Minted.of_same (h : SameRelays s s') (htoken : s'.bridge.erc20token = s.bridge.erc20token)
    (hworld : s'.world = s.world) : Minted T K ecrecover signable 0 s s' where
  relaying := .of_same h
  erc20token := htoken
  deposits := by
    rw [Foreign.deposits, Foreign.deposits, hworld, h.self]
  signed _ r hr := .inl (h.trail ▸ hr)
  short _ := books_same h.self hworld h.events

theorem Minted.refl (s : Foreign W) : Minted T K ecrecover signable 0 s s :=
  .of_same (.of_bridge rfl rfl) rfl rfl

/-- The world has changed, and in it the token. -/
theorem Minted.of_world {w : W} (hdeposits : T.transfersTo s.world s.bridge.self <:+ T.transfersTo w s.bridge.self)
    (hshort : s.bridge.self ≠ 0 → (books T).Short n s { s with world := w }) :
    Minted T K ecrecover signable n s { s with world := w } where
  relaying := .of_bridge rfl rfl
  erc20token := rfl
  deposits := hdeposits
  signed _ _ hr := .inl hr
  short := hshort

theorem tokenElsewhere_minted (h : TokenElsewhere T s s') : Minted T K ecrecover signable 0 s s' := by
  obtain ⟨w, rfl, hw⟩ := h
  exact .of_world hw.moves.suffix fun _ => books_elsewhere hw

section Calls

variable {out : Foreign W → Foreign W → Prop} {call : Callee (Foreign W)} {token target recipient : Address}
  {amount : UInt256} {data : Bytes}

/-- What a `mint` does that is answered. -/
theorem mint_minted (hout : ∀ s s', out s s' → Minted T K ecrecover signable 0 s s') (hcall : TokenWithin T out call)
    (h : call (.mint token target amount) s = some (s', data)) :
    Minted T K ecrecover signable (if Bytes.mload data 0 ≠ 0 then amount.toNat else 0) s s' := by
  have htoken : TokenCall T out data (.mint token target amount) s s' := hcall _ _ _ _ h
  simp only [TokenCall] at htoken
  split at htoken
  · rename_i htrue
    obtain ⟨s₁, w, hbefore, hmints, hafter⟩ := htoken
    obtain ⟨new, hnew, _⟩ := hmints.transfersTo s₁.bridge.self
    have hmoved : Minted T K ecrecover signable amount.toNat s₁ { s₁ with world := w } :=
      .of_world ⟨new, hnew.symm⟩ fun _ => books_mints hmints
    rw [if_pos htrue.2]
    exact (((hout _ _ hbefore).trans hmoved).trans (hout _ _ hafter)).mono (by omega)
  · exact (hout _ _ htoken).mono (Nat.zero_le _)

/-- **A release** mints the amount once. -/
theorem released_minted (hout : ∀ s s', out s s' → Minted T K ecrecover signable 0 s s')
    (hcall : TokenWithin T out call) (h : Released call s recipient amount s') :
    Minted T K ecrecover signable amount.toNat s s' := by
  cases h with
  | minted h =>
      obtain ⟨data, hc⟩ := Callee.answered_of_bool h
      refine (mint_minted hout hcall hc).mono ?_
      split <;> omega
  | @redirected s₁ s₂ ok refused h =>
      -- the answer false: nothing was minted yet
      simp only [Callee.bool, Option.bind_eq_bind, Option.bind_eq_some_iff, require_eq_some, exists_const,
        Option.pure_def, Option.some.injEq, Prod.mk.injEq] at refused
      obtain ⟨⟨t, data⟩, hc, _, rfl, hfalse⟩ := refused
      have hfirst := mint_minted hout hcall hc
      rw [if_neg (by simpa using hfalse)] at hfirst
      obtain ⟨data', hc'⟩ := Callee.answered_of_bool h
      have hsecond : Minted T K ecrecover signable amount.toNat t s₂ := by
        refine (mint_minted hout hcall hc').mono ?_
        split <;> omega
      have hlast : Minted T K ecrecover signable 0 s₂
          (s₂.emit (.RecipientRedirected recipient t.bridge.fallbackRecipient)) :=
        .of_same ⟨rfl, rfl, rfl, rfl, rfl⟩ rfl rfl
      exact ((hfirst.trans hsecond).trans hlast).mono (by omega)

/-- A `burn` of the bridge, of its own token or of none. -/
theorem burn_minted (hout : ∀ s s', out s s' → Minted T K ecrecover signable 0 s s') (hcall : TokenWithin T out call)
    (h : call (.burn token amount) s = some (s', data)) : Minted T K ecrecover signable 0 s s' := by
  have htoken : TokenCall T out data (.burn token amount) s s' := hcall _ _ _ _ h
  simp only [TokenCall] at htoken
  split at htoken
  · obtain ⟨s₁, w, hbefore, hburns, hafter⟩ := htoken
    -- the deposits of the zero address are not looked at
    have hmoved : Minted T K ecrecover signable 0 s₁ { s₁ with world := w } := by
      refine .of_world ?_ fun hself => books_burns hself hburns
      obtain ⟨transactionHash, hlog⟩ := hburns.transfers
      rw [Erc20.transfersTo, Erc20.transfersTo, hlog]
      exact (List.suffix_cons _ _).filter _
    exact ((hout _ _ hbefore).trans hmoved).trans (hout _ _ hafter)
  · exact hout _ _ htoken

variable {V : Erc677Variant} {dishonest : Finset Address}

/-- **A relay** takes what was minted into the books. -/
theorem relay_minted {m : ParsedMessage} {vs : List Byte} {rs ss : List Bytes32} {message : Bytes}
    (hadmits : Foreign.Admits K ecrecover dishonest signable s (.executeSignatures vs rs ss message))
    (henough : Message.hasEnoughValidSignatures K ecrecover message vs rs ss s.validators = some ())
    (hm : Message.parseMessage message = some m) (haddr : m.contractAddress = s.bridge.self)
    (hfresh : s.relayedMessages m.txHash = false)
    (hpaid : Minted T K ecrecover signable m.amount.toNat (s.setRelayedMessages m.txHash true) s') :
    Minted T K ecrecover signable 0 s (s'.relay vs rs ss message m) := by
  constructor
  · exact relay_relaying henough hm haddr hfresh hpaid.relaying
  · exact hpaid.erc20token
  · exact hpaid.deposits
  · intro hsound r hr
    rcases List.mem_cons.mp hr with rfl | hr
    · exact .inr (signable_of_accepted hadmits henough hsound)
    · exact hpaid.signed hsound r hr
  · intro hself
    have hshort : (books T).Short m.amount.toNat s s' := hpaid.short hself
    refine hshort.settle ?_
    have hreleased : (s'.relay vs rs ss message m).released = (m.recipient, m.amount, m.txHash) :: s'.released := rfl
    show tally amountOf s'.released + held T.toErc20 s' + m.amount.toNat + _ ≤
      tally amountOf (s'.relay vs rs ss message m).released + held T.toErc20 s' + _
    rw [hreleased, tally_cons]
    show _ + _ + m.amount.toNat + ((books T).debts s') ≤ m.amount.toNat + _ + _ + ((books T).debts s')
    omega

/-- **One call of the bridge.** -/
theorem invoke_minted (hout : ∀ s s', out s s' → Minted T K ecrecover signable 0 s s')
    (h : Invoke T K ecrecover V dishonest signable out s s') : Minted T K ecrecover signable 0 s s' := by
  cases h with
  | tx call tx hcall hadmits h =>
      cases tx with
      | executeSignatures vs rs ss message =>
          obtain ⟨m, s₁, henough, hm, haddr, hfresh, hreleased, rfl⟩ := executeSignatures_cases h
          exact relay_minted hadmits henough hm haddr hfresh (released_minted hout hcall hreleased)
      | onTokenTransfer sender source value =>
          obtain ⟨_, data, hc⟩ := onTokenTransfer_cases h
          exact burn_minted hout hcall hc
      | setting sender setting =>
          simp only [exec, Option.bind_eq_bind, Option.bind_eq_some_iff, require_eq_some, exists_const] at h
          obtain ⟨_, _, _, rfl⟩ := applySetting_cases h.2
          exact .of_same ⟨rfl, rfl, rfl, rfl, rfl⟩ rfl rfl
  | claimTokens call balanceOf proxyOwner coin sender token target hcall hbalance h =>
      simp only [claimTokens, Option.bind_eq_bind, Option.bind_eq_some_iff, require_eq_some, exists_const] at h
      obtain ⟨_, hother, h⟩ := h
      obtain ⟨_, ⟨_, data, hc⟩ | ⟨_, s₁, balance, data, hread, hc⟩⟩ := BasicBridge.claimTokens_cases h
      · have hsent : out s s' := hcall _ _ _ _ hc
        exact hout _ _ hsent
      · have hread' := hout _ _ (hbalance _ _ _ _ hread)
        have htransfer : token ≠ s₁.bridge.erc20token → out s₁ s' := hcall _ _ _ _ hc
        rw [hread'.erc20token] at htransfer
        exact hread'.trans (hout _ _ (htransfer hother))

/-- **A call of any depth.** -/
theorem call_minted :
    ∀ n s s', Call T K ecrecover V dishonest signable n s s' → Minted T K ecrecover signable 0 s s' :=
  Calls.nested_rel Minted.refl (fun _ _ _ => Minted.trans) (fun _ _ => tokenElsewhere_minted)
    fun _ hout _ _ => invoke_minted hout

end Calls

/-! ## Steps -/

/-- What one step of the foreign chain keeps. -/
structure Kept (T : MintedErc20 W) (K : CollisionFree H) (ecrecover : Ecrecover H) (signable : List Bytes)
    (s s' : Foreign W) : Prop where
  self : s'.bridge.self = s.bridge.self
  relayed : Relayed K ecrecover ∅ s → Relayed K ecrecover ∅ s'
  deposits : Foreign.deposits T.toErc20 s <:+ Foreign.deposits T.toErc20 s'
  signed : s.validators.Sound → ∀ r ∈ s'.bridge.trail, r ∈ s.bridge.trail ∨ r.message ∈ signable
  books : s.bridge.self ≠ 0 → (Erc677.books T).Kept s s'

theorem Minted.kept (h : Minted T K ecrecover signable 0 s s') : Kept T K ecrecover signable s s' :=
  ⟨h.relaying.self, h.relaying.relayed ∅, h.deposits, h.signed, h.short⟩

/-- **One step of the foreign chain.** -/
theorem step_kept {V : Erc677Variant} {dishonest : Finset Address}
    (h : Step T K ecrecover V dishonest signable s s') : Kept T K ecrecover signable s s' := by
  cases h with
  | bridge n h => exact (call_minted n s s' h).kept
  | validators h =>
      exact ⟨rfl, fun hs => hs.manage h, List.suffix_refl _, fun _ _ hr => .inl hr, fun _ => books_same rfl rfl rfl⟩
  | tick now h =>
      exact ⟨rfl, fun hs => hs.same (.of_bridge rfl rfl), List.suffix_refl _, fun _ _ hr => .inl hr,
        fun _ => books_same rfl rfl rfl⟩
  | elsewhere h =>
      have hminted : Minted T K ecrecover signable 0 s s' := tokenElsewhere_minted h
      exact hminted.kept

end Minted

end Erc677
end Foreign
end ThunderBridge
