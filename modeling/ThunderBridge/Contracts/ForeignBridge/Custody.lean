import ThunderBridge.Contracts.FeeSplit
import ThunderBridge.Contracts.ForeignBridge.Relay
import ThunderBridge.Lib.Vault

/-!
# `ForeignBridge.Custody` — the tokens a foreign bridge holds

`ForeignBridgeErcToErc`, V2 and V3 hold the tokens that back those on the home chain. They pay by `transfer`, from
two places: `executeSignatures`, and `claimTokens`, which is for any other token. `held` reads what the bridge holds
off the world, and `AssetWithin` is what is assumed of the contracts that are called: a call costs the bridge the
amount if it is a `transfer` of the bridged token that is not answered by `false`, and nothing otherwise.

`Spends held n` is what a part of a call keeps: it costs `n` more than what was relayed. A message costs its amount
and is then relayed, so a whole call keeps `Spends held 0`, whatever calls it back.
-/

namespace ThunderBridge
namespace Foreign

variable {H W : Type}

/-! ## The program -/

/-- `claimTokens` of `ForeignBridgeErcToErc`, given what `erc20token()` returns. The successors inherit it. -/
def claimTokens (call : Callee (Foreign W)) (balanceOf : Address → Foreign W → Option (Foreign W × UInt256))
    (proxyOwner erc20token : Address) (coin : UInt256) (s : Foreign W) (sender token target : Address) :
    Option (Foreign W) := do
  require (sender = proxyOwner)
  require (token ≠ erc20token)
  BasicBridge.claimTokens call balanceOf proxyOwner coin s sender token target

/-! ## The token -/

/-- The answer `false`. -/
def refused (data : Bytes) : Prop := data.length = 32 ∧ Bytes.mload data 0 = 0

instance (data : Bytes) : Decidable (refused data) := inferInstanceAs (Decidable (_ ∧ _))

/-- What an answered call costs the bridge. -/
def cost (s : Foreign W) (data : Bytes) : ExtCall → Nat
  | .transfer token _ amount => if token = s.bridge.erc20token ∧ ¬ refused data then amount.toNat else 0
  | _ => 0

section Asset

variable (held : W → Nat)

/-- **The contracts outside.** A call costs the bridge no more than that; whoever is called may call the bridge back
    before and after. -/
def AssetWithin (out : Foreign W → Foreign W → Prop) (call : Callee (Foreign W)) : Prop :=
  ∀ c s s' data, call c s = some (s', data) →
    ∃ s₁ w, out s s₁ ∧ held s₁.world ≤ held w + cost s data c ∧ out { s₁ with world := w } s'

/-- A `balanceOf` whose every answer changes the state as `out` allows. -/
def BalanceWithin (out : Foreign W → Foreign W → Prop)
    (balanceOf : Address → Foreign W → Option (Foreign W × UInt256)) : Prop :=
  ∀ token s s' balance, balanceOf token s = some (s', balance) → out s s'

/-- Anything outside the two contracts. Nobody else takes tokens of the bridge, which never approves any. -/
def AssetElsewhere (s s' : Foreign W) : Prop := ∃ w, s' = { s with world := w } ∧ held s.world ≤ held w

variable (K : CollisionFree H) (ecrecover : Ecrecover H) (V : ForeignVariant)

/-- One call of the bridge, by anybody, whoever owns the proxy. -/
inductive AssetInvoke (out : Foreign W → Foreign W → Prop) (s s' : Foreign W) : Prop where
  | tx (call : Callee (Foreign W)) (tx : ForeignTx) (hcall : AssetWithin held out call)
      (h : exec K ecrecover V call s tx = some s')
  | claimTokens (call : Callee (Foreign W)) (balanceOf : Address → Foreign W → Option (Foreign W × UInt256))
      (proxyOwner : Address) (coin : UInt256) (sender token target : Address) (hcall : AssetWithin held out call)
      (hbalance : BalanceWithin out balanceOf)
      (h : claimTokens call balanceOf proxyOwner s.bridge.erc20token coin s sender token target = some s')

/-- A call of the bridge whose callees call it back at most `n` deep. -/
abbrev AssetCall (n : Nat) : Foreign W → Foreign W → Prop :=
  Calls.Nested (AssetInvoke held K ecrecover V) (AssetElsewhere held) n

/-- One step of the foreign chain. -/
inductive AssetStep : Foreign W → Foreign W → Prop where
  /-- A call of the bridge succeeds. -/
  | bridge {s s' : Foreign W} (n : Nat) (h : AssetCall held K ecrecover V n s s') : AssetStep s s'
  /-- A transaction to the validator contract succeeds. -/
  | validators {s : Foreign W} {v : BridgeValidators} (h : s.validators.Step v) :
      AssetStep s { s with validators := v }
  /-- A later block. -/
  | tick {s : Foreign W} (now : UInt256) (h : s.now ≤ now) : AssetStep s { s with now := now }
  /-- The rest of the chain moves. -/
  | elsewhere {s s' : Foreign W} (h : AssetElsewhere held s s') : AssetStep s s'

abbrev AssetRun : Foreign W → Foreign W → Prop := Relation.ReflTransGen (AssetStep held K ecrecover V)

/-- The bridged tokens, and the relayed messages. -/
def vault : Vault (Foreign W) Relay where
  held s := held s.world
  payouts s := s.bridge.trail
  amount r := r.parsed.amount.toNat

/-- The bridge loses at most what was relayed, and `n`; the token is the same. -/
structure Spends (n : Nat) (s s' : Foreign W) : Prop where
  erc20token : s'.bridge.erc20token = s.bridge.erc20token
  loses : (vault held).Loses n s s'

end Asset

/-! ## What the payments cost -/

section Payments

variable {held : W → Nat} {out : Foreign W → Foreign W → Prop} {call : Callee (Foreign W)} {n m : Nat}
  {s s' s₁ s₂ s₃ : Foreign W} {recipient : Address} {amount : UInt256} {ok : Bool}

theorem Spends.trans (h : Spends held n s₁ s₂) (h' : Spends held m s₂ s₃) : Spends held (n + m) s₁ s₃ :=
  ⟨h'.erc20token.trans h.erc20token, h.loses.trans h'.loses⟩

theorem Spends.mono (h : Spends held n s s') (hle : n ≤ m) : Spends held m s s' := ⟨h.erc20token, h.loses.mono hle⟩

/-- Neither the relays nor the world have changed. -/
theorem Spends.of_same (htrail : s'.bridge.trail = s.bridge.trail) (hworld : s'.world = s.world)
    (htoken : s'.bridge.erc20token = s.bridge.erc20token) : Spends held 0 s s' :=
  ⟨htoken, .of_same htrail (congrArg held hworld)⟩

theorem Spends.refl (s : Foreign W) : Spends held 0 s s := .of_same rfl rfl rfl

theorem assetElsewhere_spends (h : AssetElsewhere held s s') : Spends held 0 s s' := by
  obtain ⟨w, rfl, hheld⟩ := h
  exact ⟨rfl, .of_held rfl hheld⟩

theorem call_spends (hout : ∀ s s', out s s' → Spends held 0 s s') (hcall : AssetWithin held out call)
    {c : ExtCall} {data : Bytes} (h : call c s = some (s', data)) : Spends held (cost s data c) s s' := by
  obtain ⟨s₁, w, hbefore, hpaid, hafter⟩ := hcall c s s' data h
  have hmoved : Spends held (cost s data c) s₁ { s₁ with world := w } := ⟨rfl, .of_held rfl hpaid⟩
  have hall := ((hout _ _ hbefore).trans hmoved).trans (hout _ _ hafter)
  exact hall.mono (by omega)

/-- A payment costs at most the amount, whatever the answer. -/
theorem cost_le (s : Foreign W) (data : Bytes) (token target : Address) (amount : UInt256) :
    cost s data (.transfer token target amount) ≤ amount.toNat := by
  show (if token = s.bridge.erc20token ∧ ¬ refused data then amount.toNat else 0) ≤ amount.toNat
  split
  · exact Nat.le_refl _
  · exact Nat.zero_le _

theorem tokenTransfer_spends (hout : ∀ s s', out s s' → Spends held 0 s s') (hcall : AssetWithin held out call)
    (s : Foreign W) (recipient : Address) (amount : UInt256) :
    Spends held amount.toNat s (tokenTransfer call s recipient amount).1 := by
  show Spends held amount.toNat s (call.lowLevel (.transfer s.bridge.erc20token recipient amount) s).1
  rcases Callee.answered_of_lowLevel call (.transfer s.bridge.erc20token recipient amount) s with
    hnone | ⟨data, hc⟩
  · rw [hnone]
    exact (Spends.refl s).mono (Nat.zero_le _)
  · exact (call_spends hout hcall hc).mono (cost_le ..)

/-- **V3 looks at the answer**: a payment that it takes for failed cost nothing. -/
theorem tokenTransferV3_spends (hout : ∀ s s', out s s' → Spends held 0 s s') (hcall : AssetWithin held out call)
    (h : tokenTransferV3 call s recipient amount = some (s', ok)) :
    Spends held (if ok then amount.toNat else 0) s s' := by
  simp only [tokenTransferV3, Callee.lowLevel] at h
  cases hc : call (.transfer s.bridge.erc20token recipient amount) s with
  | none =>
      rw [hc] at h
      obtain ⟨rfl, rfl⟩ := Prod.mk.inj (Option.some.inj h)
      exact Spends.refl s
  | some answer =>
      obtain ⟨t, data⟩ := answer
      simp only [hc] at h
      have hspends := call_spends hout hcall hc
      split at h
      · obtain ⟨rfl, rfl⟩ := Prod.mk.inj (Option.some.inj h)
        exact hspends.mono (cost_le ..)
      · split at h
        · rename_i hword
          obtain ⟨rfl, rfl⟩ := Prod.mk.inj (Option.some.inj h)
          by_cases hzero : Bytes.mload data 0 = 0
          · -- the answer is `false`
            have hcost : cost s data (.transfer s.bridge.erc20token recipient amount) = 0 :=
              if_neg fun hpaid => hpaid.2 ⟨hword, hzero⟩
            rw [hcost] at hspends
            exact hspends.mono (Nat.zero_le _)
          · rw [if_pos (bne_iff_ne.mpr hzero)]
            exact hspends.mono (cost_le ..)
        · cases h

theorem transferEach_spends (hout : ∀ s s', out s s' → Spends held 0 s s') (hcall : AssetWithin held out call)
    (amount : UInt256) : ∀ (as : List Address) (s : Foreign W) (result : Bool),
      Spends held (as.length * amount.toNat) s (transferEach call amount as s result).1 := by
  intro as
  induction as with
  | nil =>
      intro s result
      exact (Spends.refl s).mono (Nat.zero_le _)
  | cons a as ih =>
      intro s result
      rw [List.length_cons, Nat.succ_mul]
      cases result with
      | false => exact (ih s false).mono (Nat.le_add_right _ _)
      | true =>
          have hall := (tokenTransfer_spends hout hcall s a amount).trans (ih _ (tokenTransfer call s a amount).2)
          exact hall.mono (Nat.le_of_eq (Nat.add_comm _ _))

/-- If the split of an amount goes through, its shares come to the amount. -/
theorem split_total {as : List Address} (hlt : as.length < 2 ^ 256)
    {amount user entire share others paid last : UInt256} (hentire : SafeMath.sub amount user = some entire)
    (hshare : SafeMath.div entire (BitVec.ofNat 256 as.length) = some share)
    (hothers : SafeMath.sub (BitVec.ofNat 256 as.length) 1 = some others)
    (hpaid : SafeMath.mul share others = some paid) (hlast : SafeMath.sub entire paid = some last) :
    (as.take (as.length - 1)).length * share.toNat +
      ((as.drop (as.length - 1)).length * last.toNat + user.toNat) = amount.toNat := by
  have hlength : (BitVec.ofNat 256 as.length).toNat = as.length := Nat.mod_eq_of_lt hlt
  have hpos := (SafeMath.div_eq_some.mp hshare).1
  have hone : (1 : UInt256).toNat = 1 := rfl
  have hothers' := SafeMath.sub_eq_some.mp hothers
  rw [hlength] at hpos hothers'
  rw [hone] at hothers'
  have hentire' := SafeMath.sub_eq_some.mp hentire
  have hpaid' := SafeMath.mul_eq_some.mp hpaid
  have hlast' := SafeMath.sub_eq_some.mp hlast
  have htake : (as.take (as.length - 1)).length = others.toNat := by
    rw [List.length_take]
    omega
  have hdrop : (as.drop (as.length - 1)).length = 1 := by
    rw [List.length_drop]
    omega
  rw [htake, hdrop, Nat.one_mul, Nat.mul_comm others.toNat]
  omega

/-- The three payments of `ForeignBridgeErcToErc` come to the amount. -/
theorem onExecuteMessageErcToErc_spends (hout : ∀ s s', out s s' → Spends held 0 s s')
    (hcall : AssetWithin held out call)
    (h : onExecuteMessageErcToErc call s recipient amount = some (s', ok)) : Spends held amount.toNat s s' := by
  simp only [onExecuteMessageErcToErc, Option.bind_eq_bind, Option.bind_eq_some_iff] at h
  obtain ⟨spent, _, h⟩ := h
  have hcounted : Spends held 0 s
      (s.setBasic (s.bridge.basic.setTotalExecutedPerDay s.getCurrentDay spent)) := .of_same rfl rfl rfl
  split at h
  · obtain rfl := congrArg Prod.fst (Option.some.inj h)
    exact (hcounted.trans (tokenTransfer_spends hout hcall _ _ _)).mono (by omega)
  · simp only [Option.bind_eq_some_iff, Option.pure_def] at h
    obtain ⟨user, _, entire, hentire, share, hshare, others, hothers, paid, hpaid, last, hlast, h⟩ := h
    obtain rfl := congrArg Prod.fst (Option.some.inj h)
    have htotal := split_total (BridgeValidators.length_validatorsArray_lt _) hentire hshare hothers hpaid hlast
    have hothers := transferEach_spends hout hcall share
    have hlast := transferEach_spends hout hcall last
    have huser := transferEach_spends hout hcall user [recipient]
    rw [List.length_singleton, Nat.one_mul] at huser
    exact (hcounted.trans ((hothers _ _ _).trans ((hlast _ _ _).trans (huser _ _)))).mono (by omega)

/-- **Paying out a message** costs at most its amount, in each contract. -/
theorem onExecuteMessage_spends (hout : ∀ s s', out s s' → Spends held 0 s s') (hcall : AssetWithin held out call)
    {V : ForeignVariant} (h : onExecuteMessage V call s recipient amount = some (s', ok)) :
    Spends held amount.toNat s s' := by
  cases V with
  | ercToErc => exact onExecuteMessageErcToErc_spends hout hcall h
  | ercToErcV2 =>
      obtain rfl := congrArg Prod.fst (Option.some.inj h)
      exact tokenTransfer_spends hout hcall _ _ _
  | ercToErcV3 =>
      simp only [onExecuteMessage, onExecuteMessageV3, Option.bind_eq_bind, Option.bind_eq_some_iff] at h
      obtain ⟨⟨s₁, paid⟩, h₁, h⟩ := h
      have hfirst := tokenTransferV3_spends hout hcall h₁
      split at h
      · rename_i hpaid
        obtain rfl := congrArg Prod.fst (Option.some.inj h)
        rw [if_pos hpaid] at hfirst
        exact hfirst
      · rename_i hpaid
        simp only [Option.bind_eq_some_iff, require_eq_some, exists_const, Option.pure_def] at h
        obtain ⟨_, ⟨s₂, paid'⟩, h₂, h⟩ := h
        obtain rfl := congrArg Prod.fst (Option.some.inj h)
        -- the first payment failed and cost nothing
        rw [if_neg hpaid] at hfirst
        have hsecond := tokenTransferV3_spends hout hcall h₂
        have hemitted : Spends held 0 s₂
            (s₂.emit (.RecipientRedirected recipient s₁.bridge.fallbackRecipient)) := .of_same rfl rfl rfl
        refine ((hfirst.trans hsecond).trans hemitted).mono ?_
        split <;> omega

end Payments

/-! ## Calls -/

section Calls

variable {held : W → Nat} {K : CollisionFree H} {ecrecover : Ecrecover H} {V : ForeignVariant}
  {out : Foreign W → Foreign W → Prop} {call : Callee (Foreign W)} {s s' s₁ s₂ s₃ : Foreign W}

/-- What a call keeps: what was relayed is backed, and nothing else was paid. -/
structure InCustody (held : W → Nat) (K : CollisionFree H) (ecrecover : Ecrecover H) (s s' : Foreign W) : Prop where
  relaying : Relaying K ecrecover s s'
  spends : Spends held 0 s s'

theorem InCustody.refl (s : Foreign W) : InCustody held K ecrecover s s :=
  ⟨⟨rfl, rfl, fun _ hP => hP⟩, .refl s⟩

theorem InCustody.trans (h : InCustody held K ecrecover s₁ s₂) (h' : InCustody held K ecrecover s₂ s₃) :
    InCustody held K ecrecover s₁ s₃ :=
  ⟨h.relaying.trans h'.relaying, h.spends.trans h'.spends⟩

theorem assetElsewhere_inCustody (h : AssetElsewhere held s s') : InCustody held K ecrecover s s' := by
  refine ⟨?_, assetElsewhere_spends h⟩
  obtain ⟨w, rfl, _⟩ := h
  exact .of_bridge rfl rfl

/-- The contracts outside leave the relays to the calls they make. -/
theorem AssetWithin.relaying (hout : ∀ s s', out s s' → Relaying K ecrecover s s')
    (hcall : AssetWithin held out call) : Within (Relaying K ecrecover) call := by
  intro c s s' data hc
  obtain ⟨s₁, w, hbefore, _, hafter⟩ := hcall c s s' data hc
  have hmoved : Relaying K ecrecover s₁ { s₁ with world := w } := .of_bridge rfl rfl
  exact ((hout _ _ hbefore).trans hmoved).trans (hout _ _ hafter)

/-- **A message** is paid and then relayed. -/
theorem executeSignatures_spends (hout : ∀ s s', out s s' → Spends held 0 s s')
    (hcall : AssetWithin held out call) {vs : List Byte} {rs ss : List Bytes32} {message : Bytes}
    (h : executeSignatures K ecrecover V call s vs rs ss message = some s') : Spends held 0 s s' := by
  obtain ⟨m, s₁, _, _, _, _, _, hexec, rfl⟩ := executeSignatures_cases h
  have hpaid : Spends held m.amount.toNat (s.setRelayedMessages m.txHash true) s₁ :=
    onExecuteMessage_spends hout hcall hexec
  have hloses : (vault held).Loses m.amount.toNat s s₁ :=
    Vault.Covered.then (.of_same rfl rfl) hpaid.loses
  exact ⟨hpaid.erc20token,
    Vault.Loses.approve (x := ⟨message, m, vs, rs, ss, s₁.validators⟩) hloses rfl rfl⟩

/-- **A claim** is of another token. -/
theorem claimTokens_spends (hout : ∀ s s', out s s' → Spends held 0 s s') (hcall : AssetWithin held out call)
    {balanceOf : Address → Foreign W → Option (Foreign W × UInt256)} (hbalance : BalanceWithin out balanceOf)
    {proxyOwner sender token target : Address} {coin : UInt256}
    (h : claimTokens call balanceOf proxyOwner s.bridge.erc20token coin s sender token target = some s') :
    Spends held 0 s s' := by
  simp only [claimTokens, Option.bind_eq_bind, Option.bind_eq_some_iff, require_eq_some, exists_const] at h
  obtain ⟨_, hother, h⟩ := h
  obtain ⟨_, ⟨_, data, hc⟩ | ⟨_, s₁, balance, data, hread, hc⟩⟩ := BasicBridge.claimTokens_cases h
  · exact call_spends hout hcall hc
  · have hbefore := hout _ _ (hbalance _ _ _ _ hread)
    have hcost : cost s₁ data (.transfer token target balance) = 0 :=
      if_neg fun hpaid => hother (hpaid.1.trans hbefore.erc20token)
    have hafter := call_spends hout hcall hc
    rw [hcost] at hafter
    exact hbefore.trans hafter

/-- **One call of the bridge.** -/
theorem assetInvoke_inCustody (hout : ∀ s s', out s s' → InCustody held K ecrecover s s')
    (h : AssetInvoke held K ecrecover V out s s') : InCustody held K ecrecover s s' := by
  have hspends : ∀ s s', out s s' → Spends held 0 s s' := fun s s' ho => (hout s s' ho).spends
  have hrelaying : ∀ s s', out s s' → Relaying K ecrecover s s' := fun s s' ho => (hout s s' ho).relaying
  cases h with
  | tx call tx hcall h =>
      constructor
      · have hinvoke : Invoke K ecrecover V (fun _ _ => True) (Relaying K ecrecover) s s' :=
          ⟨call, tx, trivial, hcall.relaying hrelaying, h⟩
        exact invoke_relaying (fun _ _ hr => hr) hinvoke
      · cases tx with
        | executeSignatures vs rs ss message => exact executeSignatures_spends hspends hcall h
        | setting sender setting =>
            simp only [exec, Option.bind_eq_bind, Option.bind_eq_some_iff, require_eq_some, exists_const] at h
            obtain ⟨_, _, _, rfl⟩ := applySetting_cases h.2
            exact .of_same rfl rfl rfl
  | claimTokens call balanceOf proxyOwner coin sender token target hcall hbalance h =>
      refine ⟨?_, claimTokens_spends hspends hcall hbalance h⟩
      simp only [claimTokens, Option.bind_eq_bind, Option.bind_eq_some_iff, require_eq_some, exists_const] at h
      have hwithin := hcall.relaying hrelaying
      obtain ⟨_, ⟨_, data, hc⟩ | ⟨_, s₁, balance, data, hread, hc⟩⟩ := BasicBridge.claimTokens_cases h.2.2
      · exact hwithin _ _ _ _ hc
      · exact (hrelaying _ _ (hbalance _ _ _ _ hread)).trans (hwithin _ _ _ _ hc)

/-- **A call of any depth**, in any state. -/
theorem assetCall_inCustody : ∀ n s s', AssetCall held K ecrecover V n s s' → InCustody held K ecrecover s s' :=
  Calls.nested_rel InCustody.refl (fun _ _ _ => InCustody.trans) (fun _ _ => assetElsewhere_inCustody)
    fun _ hout _ _ => assetInvoke_inCustody hout

/-! ## Runs -/

/-- **One step of the foreign chain** lowers what the bridge holds by what it relays, and no more. -/
theorem assetStep_covered (h : AssetStep held K ecrecover V s s') : (vault held).Covered s s' := by
  cases h with
  | bridge n h => exact (assetCall_inCustody n s s' h).spends.loses
  | validators h => exact .of_same rfl rfl
  | tick now h => exact .of_same rfl rfl
  | elsewhere h => exact (assetElsewhere_spends h).loses

theorem assetStep_relayed (hs : Relayed K ecrecover ∅ s) (h : AssetStep held K ecrecover V s s') :
    Relayed K ecrecover ∅ s' := by
  cases h with
  | bridge n h => exact (assetCall_inCustody n s s' h).relaying.relayed ∅ hs
  | validators hv => exact hs.manage hv
  | tick now _ => exact hs.same (.of_bridge rfl rfl)
  | elsewhere h => exact (assetElsewhere_inCustody h).relaying.relayed ∅ hs

/-- **The token bridges keep their tokens.** -/
theorem asset_custody : (vault held).Custody Fresh (AssetStep held K ecrecover V) (AssetCall held K ecrecover V)
    fun s r => Backed K ecrecover s.bridge.self r := by
  apply Vault.Custody.of_invariant (P := Relayed K ecrecover ∅)
  · exact fun _ => relayed_fresh
  · exact fun _ _ => assetStep_relayed
  · exact fun _ hs => hs.backed
  · exact fun _ _ => assetStep_covered
  · exact fun n s s' h => (assetCall_inCustody n s s' h).spends.loses

end Calls

end Foreign
end ThunderBridge
