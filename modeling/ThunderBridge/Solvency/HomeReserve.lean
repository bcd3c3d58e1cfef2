import ThunderBridge.Contracts.HomeBridge.Custody
import ThunderBridge.Lib.Books
import ThunderBridge.Solvency.HomeSupply
import ThunderBridge.Solvency.HonestValidators

/-!
# `Solvency.HomeReserve` — what a home bridge holds for the withdrawals it requested

Two home bridges lock what the other chain mints: `HomeBridgeNativeToErcWithFee` coin, and
`HomeBridgeErc677ToErc677WithFee` its token. Their `books` have what is locked and what was settled on one side, and
what was requested on the other. A withdrawal is paid first and then requested, less the fee; a settlement pays and
is then recorded; so a call falls short by at most what it was paid (`exec_backs`), whatever calls it back.

`Locked` is what the other chain needs to know of such a bridge, and both are shown to be it: the native one with the
calls of `HomeBridge.Custody` and coin that is not claimed, the other with a token that credits before it calls and
that the owners neither claim nor have the bridge give away (`LockAdmits`).
-/

namespace ThunderBridge
namespace Home

variable {H W : Type}

/-! ## The books -/

/-- What the bridge locks and what it settled; what it requested. -/
def books (lock : W → Address → Nat) : Books (Home H W) where
  assets s := lock s.world s.bridge.self + tally amountOf s.executed
  debts s := tally amountOf s.requests

/-- The native bridge is its own token: its `setErc677token` stores the bridge. -/
def Wired (V : HomeVariant) (s : Home H W) : Prop := V = .nativeToErcWithFee → s.bridge.erc677token = s.bridge.self

/-- The books fall short by at most `n`; the bridge and its token are the same, and no request disappears. -/
structure Backs (V : HomeVariant) (lock : W → Address → Nat) (n : Nat) (s s' : Home H W) : Prop where
  self : s'.bridge.self = s.bridge.self
  erc677token : s'.bridge.erc677token = s.bridge.erc677token
  requests : s.requests <:+ s'.requests
  short : Wired V s → (books lock).Short n s s'

section Backs

variable {V : HomeVariant} {lock : W → Address → Nat} {s s' s₁ s₂ s₃ : Home H W} {n m : Nat}

theorem Wired.congr (h : Wired V s) (hself : s'.bridge.self = s.bridge.self)
    (htoken : s'.bridge.erc677token = s.bridge.erc677token) : Wired V s' := by
  intro hV
  rw [hself, htoken]
  exact h hV

theorem Backs.trans (h : Backs V lock n s₁ s₂) (h' : Backs V lock m s₂ s₃) : Backs V lock (n + m) s₁ s₃ where
  self := h'.self.trans h.self
  erc677token := h'.erc677token.trans h.erc677token
  requests := h.requests.trans h'.requests
  short hw := (h.short hw).trans (h'.short (hw.congr h.self h.erc677token))

theorem Backs.mono (h : Backs V lock n s s') (hle : n ≤ m) : Backs V lock m s s' :=
  ⟨h.self, h.erc677token, h.requests, fun hw => (h.short hw).mono hle⟩

/-- A change of the bridge's own storage that requests and settles nothing. -/
theorem Backs.of_inner (h : Inner s s') (hrequests : s'.requests = s.requests) (hexecuted : s'.executed = s.executed) :
    Backs V lock 0 s s' := by
  refine ⟨h.self, h.erc677token, ?_, ?_⟩
  · rw [hrequests]
  · intro _
    apply Books.Short.of_same
    · show lock s'.world s'.bridge.self + tally amountOf s'.executed = _
      rw [h.world, h.self, hexecuted]
      rfl
    · show tally amountOf s'.requests = _
      rw [hrequests]
      rfl

/-- A change that moves nothing. -/
theorem Backs.of_minted (h : Inner s s') (hminted : Minted (fun _ => 0) 0 s s') : Backs V lock 0 s s' :=
  .of_inner h hminted.requests (congrArg executedDeposits hminted.trail)

theorem Backs.refl (s : Home H W) : Backs V lock 0 s s :=
  .of_inner ⟨rfl, rfl, rfl, List.suffix_refl _⟩ rfl rfl

theorem backs_chains : Chains (Backs V lock 0 : Home H W → Home H W → Prop) := ⟨Backs.refl, fun _ _ _ => Backs.trans⟩

theorem Backs.zero_trans (h : Backs V lock 0 s₁ s₂) (h' : Backs V lock n s₂ s₃) : Backs V lock n s₁ s₃ :=
  (h.trans h').mono (Nat.le_of_eq (Nat.zero_add n))

/-- Anything outside that leaves the lock at most `n` smaller. -/
theorem Backs.of_world {w : W} (h : lock s.world s.bridge.self ≤ lock w s.bridge.self + n) :
    Backs V lock n s { s with world := w } := by
  refine ⟨rfl, rfl, List.suffix_refl _, ?_⟩
  intro _
  show lock s.world s.bridge.self + _ + _ ≤ lock w s.bridge.self + _ + _ + n
  show _ + tally amountOf s.executed + tally amountOf s.requests ≤
    _ + tally amountOf s.executed + tally amountOf s.requests + n
  omega

/-- **A request** is owed from now on. -/
theorem request_backs (s : Home H W) (source : Address) (rest : UInt256) :
    Backs V lock rest.toNat s (s.emit (.UserRequestForSignature source rest)) := by
  have hlog : (s.emit (.UserRequestForSignature source rest)).requests = (source, rest, s.txHash) :: s.requests := by
    rw [requests_emit]
    rfl
  refine ⟨rfl, rfl, ?_, ?_⟩
  · rw [hlog]
    exact List.suffix_cons _ _
  · intro _
    show lock s.world s.bridge.self + tally amountOf s.executed +
        tally amountOf (s.emit (.UserRequestForSignature source rest)).requests ≤
      lock s.world s.bridge.self + tally amountOf s.executed + tally amountOf s.requests + rest.toNat
    rw [hlog, tally_cons]
    show _ + (rest.toNat + _) ≤ _
    omega

/-- **A settlement** makes up for what it paid. -/
theorem complete_backs {K : CollisionFree H} {d : Deposit} (h : Backs V lock d.2.1.toNat s s') :
    Backs V lock 0 s (s'.complete K d) := by
  have hrequests : (s'.complete K d).requests = s'.requests := by
    unfold complete
    rw [requests_emit]
    rfl
  refine ⟨h.self, h.erc677token, ?_, ?_⟩
  · rw [hrequests]
    exact h.requests
  · intro hw
    refine (h.short hw).settle ?_
    show lock s'.world s'.bridge.self + tally amountOf s'.executed + d.2.1.toNat +
        tally amountOf (s'.complete K d).requests ≤
      lock s'.world s'.bridge.self + tally amountOf (d :: s'.executed) + tally amountOf s'.requests
    rw [hrequests, tally_cons]
    show _ ≤ _ + (d.2.1.toNat + _) + _
    omega

end Backs

/-! ## The payments -/

section Payments

variable {V : HomeVariant} {lock : W → Address → Nat} {call : Callee (Home H W)} {s s' : Home H W}
  {recipient source : Address} {value : UInt256} {ok : Bool}

theorem addExecuted_backs (h : s.addExecuted value = some s') : Backs V lock 0 s s' :=
  .of_minted (addExecuted_inner h) (addExecuted_minted h)

theorem addSpent_backs (h : s.addSpent value = some s') : Backs V lock 0 s s' :=
  .of_minted (addSpent_inner h) (addSpent_minted h)

theorem whenNonzero_backs {amount : UInt256} {f : Home H W → Option (Home H W)}
    (hf : ∀ s s', f s = some s' → Backs V lock amount.toNat s s') (h : whenNonzero amount f s = some s') :
    Backs V lock amount.toNat s s' := by
  unfold whenNonzero at h
  split at h
  · exact hf _ _ h
  · obtain rfl := Option.some.inj h
    exact (Backs.refl s).mono (Nat.zero_le _)

/-- **Settling by payments of the given kind** costs the value. -/
theorem settleWithFee_backs {pay : Home H W → Address → UInt256 → ExtCall}
    (hpay : ∀ s t s' target amount, call.unchecked (pay t target amount) s = some s' →
      t.bridge.erc677token = s.bridge.erc677token → Backs V lock amount.toNat s s')
    (h : settleWithFee call pay s recipient value = some (s', ok)) : Backs V lock value.toNat s s' := by
  simp only [settleWithFee, Option.bind_eq_bind, Option.bind_eq_some_iff] at h
  obtain ⟨s₁, h₁, fee, _, h⟩ := h
  refine (addExecuted_backs h₁).zero_trans ?_
  split at h
  · simp only [Option.bind_eq_some_iff, Option.pure_def, Option.some.injEq, Prod.mk.injEq] at h
    obtain ⟨t, ht, rfl, _⟩ := h
    exact hpay _ _ _ _ _ ht rfl
  · simp only [Option.bind_eq_some_iff, Option.pure_def, Option.some.injEq, Prod.mk.injEq] at h
    obtain ⟨s₂, hfee, rest, hrest, s₃, hlast, rfl, _⟩ := h
    have hsum := SafeMath.sub_eq_some.mp hrest
    have hfirst : Backs V lock fee.toNat s₁ s₂ :=
      whenNonzero_backs (fun _ _ hu => hpay _ _ _ _ _ hu rfl) hfee
    have hsecond : Backs V lock rest.toNat s₂ s₃ :=
      whenNonzero_backs (fun _ _ hu => hpay _ _ _ _ _ hu rfl) hlast
    exact (hfirst.trans hsecond).mono (by omega)

/-- **Settling in coin** costs the value. -/
theorem onExecuteAffirmationNative_backs
    (hsend : ∀ s s' target amount data, call (.send target amount) s = some (s', data) →
      Backs V lock amount.toNat s s')
    (h : onExecuteAffirmationNative call s recipient value = some (s', ok)) : Backs V lock value.toNat s s' := by
  have htransfer : ∀ s target amount, Backs V lock amount.toNat s (tokenTransferNative call s target amount).1 := by
    intro s target amount
    show Backs V lock amount.toNat s (call.lowLevel (.send target amount) s).1
    rcases Callee.answered_of_lowLevel call (.send target amount) s with hnone | ⟨data, hc⟩
    · rw [hnone]
      exact (Backs.refl s).mono (Nat.zero_le _)
    · exact hsend _ _ _ _ _ hc
  simp only [onExecuteAffirmationNative, Option.bind_eq_bind, Option.bind_eq_some_iff] at h
  obtain ⟨s₁, h₁, fee, _, h⟩ := h
  refine (addExecuted_backs h₁).zero_trans ?_
  split at h
  · obtain rfl := congrArg Prod.fst (Option.some.inj h)
    exact htransfer _ _ _
  · simp only [Option.bind_eq_some_iff] at h
    obtain ⟨rest, hrest, h⟩ := h
    have hsum := SafeMath.sub_eq_some.mp hrest
    generalize hs₂ : (if fee ≠ 0 then (tokenTransferNative call s₁ s₁.bridge.fees.feeReceiver fee).1
      else s₁) = s₂ at h
    have hfee : Backs V lock fee.toNat s₁ s₂ := by
      rw [← hs₂]
      split
      · exact htransfer _ _ _
      · exact (Backs.refl s₁).mono (Nat.zero_le _)
    have hwhole : Backs V lock rest.toNat s₂ s' → Backs V lock value.toNat s₁ s' :=
      fun hlast => (hfee.trans hlast).mono (by omega)
    split at h
    · obtain rfl := congrArg Prod.fst (Option.some.inj h)
      exact hwhole ((Backs.refl s₂).mono (Nat.zero_le _))
    · rcases hsent : tokenTransferNative call s₂ recipient rest with ⟨t, sent⟩
      have hpaid := htransfer s₂ recipient rest
      rw [hsent] at h hpaid
      cases sent with
      | true =>
          obtain rfl := congrArg Prod.fst (Option.some.inj h)
          exact hwhole hpaid
      | false =>
          -- nothing was sent; the fallback recipient gets the rest
          obtain rfl := tokenTransferNative_failed hsent
          simp only [Bool.false_eq_true, if_false, Option.bind_eq_some_iff, require_eq_some, exists_const,
            Option.pure_def, Option.some.injEq, Prod.mk.injEq] at h
          obtain ⟨_, s₃, hplain, rfl, _⟩ := h
          obtain ⟨data, hc⟩ := Callee.answered_of_plain hplain
          have hredirected : Backs V lock 0 s₃ (s₃.emit (.RecipientRedirected recipient t.bridge.fallbackRecipient)) :=
            .of_inner (emit_inner _ _) (by rw [requests_emit]; rfl) rfl
          exact hwhole (((hsend _ _ _ _ _ hc).trans hredirected).mono (Nat.le_of_eq (Nat.add_zero _)))

/-- **A withdrawal** costs its value: the fee is paid, and the rest is owed. -/
theorem withdrawing_backs {payFee release : Home H W → UInt256 → Option (Home H W)}
    (hfee : ∀ s s' fee, payFee s fee = some s' → Backs V lock fee.toNat s s')
    (hrelease : ∀ s s' rest, release s rest = some s' → Backs V lock 0 s s')
    (h : Withdrawing payFee release s source value s') : Backs V lock value.toNat s s' := by
  cases h with
  | @requested s₁ s₂ s₃ fee rest limit hsum paid counted released =>
      have hpaid : Backs V lock fee.toNat s s₁ := whenNonzero_backs (fun _ _ => hfee _ _ _) paid
      have hkept : Backs V lock 0 s₁ s₃ := (addSpent_backs counted).trans (hrelease _ _ _ released)
      exact ((hpaid.trans hkept).trans (request_backs s₃ source rest)).mono (by omega)

end Payments

/-! ## What a call keeps -/

section Reserved

/-- What a call keeps: the signatures, the books, and what the trail says of real deposits. -/
structure Reserved (V : HomeVariant) (lock : W → Address → Nat) (dishonest : Finset Address) (real : List Deposit)
    (K : CollisionFree H) (n : Nat) (s s' : Home H W) : Prop where
  honest : Honest dishonest real K s s'
  backs : Backs V lock n s s'

variable {V : HomeVariant} {lock : W → Address → Nat} {dishonest : Finset Address} {real : List Deposit}
  {K : CollisionFree H} {s s' s₁ s₂ s₃ : Home H W} {n m : Nat}

theorem Honest.trans (h : Honest dishonest real K s₁ s₂) (h' : Honest dishonest real K s₂ s₃) :
    Honest dishonest real K s₁ s₃ :=
  ⟨h.settled.trans h'.settled, fun P hP ha => h'.authentic P (h.settled.threshold P hP) (h.authentic P hP ha)⟩

theorem Honest.of_same (h : SameDeposits s s') : Honest dishonest real K s s' :=
  ⟨Settled.of_same h, fun _ _ ha => ha.congr h.trail⟩

theorem Reserved.trans (h : Reserved V lock dishonest real K n s₁ s₂) (h' : Reserved V lock dishonest real K m s₂ s₃) :
    Reserved V lock dishonest real K (n + m) s₁ s₃ :=
  ⟨h.honest.trans h'.honest, h.backs.trans h'.backs⟩

theorem Reserved.refl (s : Home H W) : Reserved V lock dishonest real K 0 s s :=
  ⟨.of_same (SameDeposits.refl s), .refl s⟩

theorem Reserved.mono (h : Reserved V lock dishonest real K n s s') (hle : n ≤ m) :
    Reserved V lock dishonest real K m s s' :=
  ⟨h.honest, h.backs.mono hle⟩

/-- Anything outside that leaves the lock at most `n` smaller. -/
theorem Reserved.of_world {w : W} (h : lock s.world s.bridge.self ≤ lock w s.bridge.self + n) :
    Reserved V lock dishonest real K n s { s with world := w } :=
  ⟨.of_same ⟨rfl, rfl, rfl, rfl, rfl⟩, .of_world h⟩

/-- A new owner of the proxy moves nothing. -/
theorem transferProxyOwnership_reserved {sender newOwner : Address}
    (h : transferProxyOwnership s sender newOwner = some s') : Reserved V lock dishonest real K 0 s s' := by
  simp only [transferProxyOwnership, Option.bind_eq_bind, Option.bind_eq_some_iff, require_eq_some, exists_const,
    Option.pure_def, Option.some.injEq] at h
  obtain ⟨_, _, rfl⟩ := h
  exact ⟨.of_same ⟨rfl, rfl, rfl, rfl, rfl⟩, .of_inner ⟨rfl, rfl, rfl, List.suffix_refl _⟩ rfl rfl⟩

/-- The value was paid before. -/
theorem Reserved.paid {w : W} (hpaid : lock w s.bridge.self = lock s.world s.bridge.self + n)
    (h : Reserved V lock dishonest real K n { s with world := w } s') : Reserved V lock dishonest real K 0 s s' := by
  have hworld : Honest dishonest real K s { s with world := w } := .of_same ⟨rfl, rfl, rfl, rfl, rfl⟩
  refine ⟨hworld.trans h.honest, h.backs.self, h.backs.erc677token, h.backs.requests, ?_⟩
  intro hw
  have hshort : lock w s.bridge.self + tally amountOf s.executed + tally amountOf s'.requests ≤
      lock s'.world s'.bridge.self + tally amountOf s'.executed + tally amountOf s.requests + n := h.backs.short hw
  show lock s.world s.bridge.self + tally amountOf s.executed + tally amountOf s'.requests ≤
    lock s'.world s'.bridge.self + tally amountOf s'.executed + tally amountOf s.requests + 0
  omega

end Reserved

/-! ## Calls -/

section Calls

variable [DecidableEq H] {K : CollisionFree H} {ecrecover : Ecrecover H} {V : HomeVariant} {lock : W → Address → Nat}
  {dishonest : Finset Address} {real : List Deposit} {call : Callee (Home H W)} {s s' : Home H W}

/-- **An affirmation** pays a deposit and then records it. -/
theorem affirmed_backs
    (hsettle : ∀ s s' recipient value ok, onExecuteAffirmation V call s recipient value = some (s', ok) →
      Backs V lock value.toNat s s')
    {sender : Address} {d : Deposit} (h : Affirmed K V call s sender d s') : Backs V lock 0 s s' := by
  cases h with
  | recorded _ h =>
      obtain ⟨_, total, _, rfl⟩ := onFailedAffirmation_cases h
      exact .of_inner ⟨rfl, rfl, rfl, List.suffix_cons _ _⟩ rfl rfl
  | signed _ _ _ _ => exact .of_inner ⟨rfl, rfl, rfl, List.suffix_cons _ _⟩ rfl rfl
  | @settled s₂ _ _ _ _ h =>
      apply complete_backs
      have hsigned : Backs V lock 0 s ((s.affirm K sender d).markProcessed K d) :=
        .of_inner ⟨rfl, rfl, rfl, List.suffix_cons _ _⟩ rfl rfl
      exact hsigned.zero_trans (hsettle _ _ _ _ _ h)

/-- What the bridge is paid before a call starts: coin, or tokens. -/
def paidIn (V : HomeVariant) : BridgeTx → Nat
  | .onTokenTransfer _ _ value => if V = .erc677ToErc677WithFee then value.toNat else 0
  | tx => tx.msgValue.toNat

/-- What a contract with a lock pays for. -/
structure Pays (V : HomeVariant) (lock : W → Address → Nat) (call : Callee (Home H W)) : Prop where
  settle : ∀ s s' recipient value ok, onExecuteAffirmation V call s recipient value = some (s', ok) →
    Backs V lock value.toNat s s'
  tokens : ∀ s s' sender source value, onTokenTransfer V call s sender source value = some s' →
    Backs V lock (paidIn V (.onTokenTransfer sender source value)) s s'
  coins : V = .nativeToErcWithFee → ∀ s s' sender target value msgValue,
    transferAndCall call s sender target value msgValue = some s' → Backs V lock msgValue.toNat s s'

/-- **One call** that is no `fixAssetsAboveLimits` costs at most what it was paid. -/
theorem exec_backs (hpays : Pays V lock call) {tx : BridgeTx}
    (hfix : ∀ sender t unlock, tx ≠ .fixAssetsAboveLimits sender t unlock)
    (h : exec K ecrecover V call s tx = some s') : Backs V lock (paidIn V tx) s s' := by
  cases tx with
  | executeAffirmation sender recipient value t =>
      exact affirmed_backs hpays.settle (executeAffirmation_cases (recipient, value, t) h).2
  | fixAssetsAboveLimits sender t unlock => exact absurd rfl (hfix _ _ _)
  | onTokenTransfer sender source value => exact hpays.tokens _ _ _ _ _ h
  | transferAndCall sender target value msgValue =>
      simp only [exec, Option.bind_eq_bind, Option.bind_eq_some_iff, require_eq_some, exists_const] at h
      exact hpays.coins h.1 _ _ _ _ _ _ h.2
  | submitSignature sender sig m => exact .of_minted (submitSignature_inner h) (submitSignature_minted h)
  | setting sender setting =>
      simp only [exec, Option.bind_eq_bind, Option.bind_eq_some_iff, require_eq_some, exists_const] at h
      exact .of_minted (applySetting_inner h.2) (applySetting_minted h.2)

/-- **One admitted call** of the bridge, the value it was paid not counted. -/
theorem exec_reserved (hpays : Pays V lock call) (hcall : Within (Honest dishonest real K) call) {tx : BridgeTx}
    (hadmits : Admits dishonest real s tx) (h : exec K ecrecover V call s tx = some s') :
    Reserved V lock dishonest real K (paidIn V tx) s s' := by
  refine ⟨invoke_keeps (keptByCalls_honest (V := V)) (fun _ _ ha => ha) ⟨call, tx, hadmits, hcall, h⟩,
    exec_backs hpays ?_ h⟩
  rintro sender t unlock rfl
  exact hadmits

end Calls

/-! ## What the other chain needs to know -/

/-- What one step of the home chain keeps. -/
structure Locked (V : HomeVariant) (lock : W → Address → Nat) (dishonest : Finset Address) (real : List Deposit)
    (K : CollisionFree H) (s s' : Home H W) : Prop where
  threshold : Threshold K ∅ s → Threshold K ∅ s'
  authentic : Threshold K ∅ s → Authentic dishonest real s → Authentic dishonest real s'
  backs : Backs V lock 0 s s'

section Locked

variable {V : HomeVariant} {lock : W → Address → Nat} {dishonest : Finset Address} {real : List Deposit}
  {K : CollisionFree H} {s s' : Home H W}

theorem Reserved.locked (h : Reserved V lock dishonest real K 0 s s') : Locked V lock dishonest real K s s' :=
  ⟨h.honest.settled.threshold ∅, h.honest.authentic ∅, h.backs⟩

/-- Neither the bridge nor the world has changed. -/
theorem Locked.of_same (hbridge : s'.bridge = s.bridge) (hworld : s'.world = s.world) :
    Locked V lock dishonest real K s s' := by
  refine ⟨fun hP => hP.of_bridge hbridge, fun _ ha => ha.congr (by rw [hbridge]), .of_inner ⟨hworld, ?_, ?_, ?_⟩ ?_ ?_⟩
  · rw [hbridge]
  · rw [hbridge]
  · rw [hbridge]
  · rw [requests, requests, hbridge]
  · rw [executed, executed, hbridge]

end Locked

/-! ## Coin -/

section Coin

variable {held : W → Nat} {dishonest : Finset Address} {real : List Deposit}

/-- The coin of the bridge. -/
def coin (held : W → Nat) : W → Address → Nat := fun w _ => held w

/-- **The calls of the native bridge that are made**: those of honest validators, and no claim of coin. -/
def CoinAdmits (held : W → Nat) (dishonest : Finset Address) (real : List Deposit) (s : Home H W) : CoinTx → Prop
  | .call tx => Admits dishonest real s tx
  | .claimTokens _ token _ => token = 0 → held s.world = 0
  | .callToken _ _ data => CoinAdmits held dishonest real s data
  | .transferProxyOwnership _ _ => True

variable {K : CollisionFree H} {outside : Callee (Home H W)} {out : Home H W → Home H W → Prop} {s s' : Home H W}

/-- A call of the bridge costs the coin it carries. -/
theorem ownCalls_reserved
    (hout : ∀ s s', out s s' → Reserved .nativeToErcWithFee (coin held) dishonest real K 0 s s')
    (hcall : CoinWithin held out outside) {c : ExtCall} {data : Bytes} (h : ownCalls outside c s = some (s', data)) :
    Reserved .nativeToErcWithFee (coin held) dishonest real K c.coins s s' := by
  obtain ⟨w, hpaid, hafter⟩ := hcall _ _ _ _ (ownCalls_outside h)
  have hmoved : Reserved .nativeToErcWithFee (coin held) dishonest real K c.coins s { s with world := w } :=
    .of_world hpaid
  exact (hmoved.trans (hout _ _ hafter)).mono (Nat.le_of_eq (Nat.add_zero _))

/-- The bridge that is its own token cannot burn. -/
theorem ownCalls_burn (hself : s.bridge.erc677token = s.bridge.self) (amount : UInt256) :
    (ownCalls outside).plain (.burn s.bridge.erc677token amount) s = none := by
  show (ownCalls outside (.burn s.bridge.erc677token amount) s).map Prod.fst = none
  simp only [ownCalls, hself, if_true, transferAndCall_unpaid, Option.map_none]

theorem ownCalls_pays
    (hout : ∀ s s', out s s' → Reserved .nativeToErcWithFee (coin held) dishonest real K 0 s s')
    (hcall : CoinWithin held out outside) : Pays .nativeToErcWithFee (coin held) (ownCalls outside) where
  settle _ _ _ _ _ h := onExecuteAffirmationNative_backs (V := .nativeToErcWithFee)
    (fun _ _ _ _ _ hc => (ownCalls_reserved hout hcall hc).backs) h
  tokens s s' sender source value h := by
    obtain ⟨_, hwithdrawing⟩ := onTokenTransfer_withdrawing h
    have hfee : ∀ s s' fee, payFeeInToken (ownCalls outside) s fee = some s' →
        Backs .nativeToErcWithFee (coin held) 0 s s' := by
      intro t t' fee hpay
      simp only [payFeeInToken, Option.bind_eq_bind, Option.bind_eq_some_iff, require_eq_some, exists_const,
        Option.pure_def, Option.some.injEq] at hpay
      obtain ⟨⟨_, _⟩, hpay, _, rfl⟩ := hpay
      obtain ⟨data, hc⟩ := Callee.answered_of_bool hpay
      exact (ownCalls_reserved hout hcall hc).backs
    cases hwithdrawing with
    | @requested s₁ s₂ s₃ fee rest limit hsum paid counted released =>
        have hpaid : Backs .nativeToErcWithFee (coin held) 0 s s₁ :=
          whenNonzero_out backs_chains (fun _ _ => hfee _ _ _) paid
        have hcounted : Backs .nativeToErcWithFee (coin held) 0 s s₂ := hpaid.trans (addSpent_backs counted)
        obtain ⟨data, hc⟩ := Callee.answered_of_plain released
        have hreleased : Backs .nativeToErcWithFee (coin held) 0 s₂ s₃ := (ownCalls_reserved hout hcall hc).backs
        have hrequest := (hcounted.trans hreleased).trans (request_backs s₃ source rest)
        refine ⟨hrequest.self, hrequest.erc677token, hrequest.requests, ?_⟩
        intro hw
        -- what is left after the fee would have to be burned
        have hself : s₂.bridge.erc677token = s₂.bridge.self := hw.congr hcounted.self hcounted.erc677token rfl
        have hnone : (ownCalls outside).plain (.burn s₂.bridge.erc677token rest) s₂ = none := ownCalls_burn hself rest
        exact absurd (hnone.symm.trans released) (by simp)
  coins _ s s' sender target value msgValue h := by
    have hwithdrawing := transferAndCall_withdrawing h
    simp only [transferAndCall, Option.bind_eq_bind, Option.bind_eq_some_iff, require_eq_some, exists_const] at h
    obtain ⟨_, rfl, _⟩ := h
    apply withdrawing_backs _ _ hwithdrawing
    · intro t t' fee hpay
      simp only [payFeeInCoin, Option.bind_eq_bind, Option.bind_eq_some_iff, require_eq_some, exists_const,
        Option.pure_def, Option.some.injEq] at hpay
      obtain ⟨_, rfl⟩ := hpay
      show Backs _ _ _ t ((ownCalls outside).lowLevel (.send t.bridge.fees.feeReceiver fee) t).1
      rcases Callee.answered_of_lowLevel (ownCalls outside) (.send t.bridge.fees.feeReceiver fee) t with
        hnone | ⟨data, hc⟩
      · rw [hnone]
        exact (Backs.refl t).mono (Nat.zero_le _)
      · exact (ownCalls_reserved hout hcall hc).backs
    · intro t t' rest hrelease
      obtain rfl := Option.some.inj hrelease
      exact Backs.refl t

variable [DecidableEq H] {ecrecover : Ecrecover H}

/-- **One call of the native bridge**; a call by which the bridge calls itself is the call it makes. -/
theorem execCoin_reserved
    (hout : ∀ s s', out s s' → Reserved .nativeToErcWithFee (coin held) dishonest real K 0 s s')
    (hcall : CoinWithin held out outside) {balanceOf : Address → Home H W → Option (Home H W × UInt256)}
    (hbalance : BalanceWithin out balanceOf) :
    ∀ {tx : CoinTx}, CoinAdmits held dishonest real s tx →
      execCoin held K ecrecover outside balanceOf tx s = some s' →
      Reserved .nativeToErcWithFee (coin held) dishonest real K tx.msgValue.toNat s s' := by
  intro tx
  induction tx with
  | call tx =>
      intro hadmits h
      have hexec := exec_reserved (ownCalls_pays hout hcall)
        (fun _ _ _ _ hc => (ownCalls_reserved hout hcall hc).honest) hadmits h
      refine hexec.mono ?_
      show paidIn .nativeToErcWithFee tx ≤ tx.msgValue.toNat
      cases tx <;> exact Nat.le_refl _
  | claimTokens sender token target =>
      intro hcareful h
      have hclaimed := BasicBridge.claimTokens_cases h
      rcases hclaimed with ⟨_, ⟨hcoin, data, hc⟩ | ⟨_, s₁, balance, data, hread, hc⟩⟩
      · have hall := ownCalls_reserved hout hcall hc
        have hnone : (ExtCall.send target (BitVec.ofNat 256 (held s.world))).coins = 0 := by
          rw [hcareful hcoin]
          rfl
        rw [hnone] at hall
        exact hall
      · exact (hout _ _ (hbalance _ _ _ _ hread)).trans (ownCalls_reserved hout hcall hc)
  | transferProxyOwnership sender newOwner =>
      intro _ h
      rw [execCoin] at h
      exact transferProxyOwnership_reserved h
  | callToken sender msgValue data ih =>
      intro hadmits h
      simp only [execCoin, Option.bind_eq_bind, Option.bind_eq_some_iff, require_eq_some, exists_const] at h
      obtain ⟨_, ⟨_, hvalue⟩, h⟩ := h
      have hinner := ih hadmits h
      rw [hvalue] at hinner
      exact hinner

/-- **One step of the home chain** of the native bridge. -/
theorem coinStep_locked (h : CoinStep held K ecrecover (CoinAdmits held dishonest real) s s') :
    Locked .nativeToErcWithFee (coin held) dishonest real K s s' := by
  have helsewhere : ∀ s s' : Home H W, CoinElsewhere held s s' →
      Reserved .nativeToErcWithFee (coin held) dishonest real K 0 s s' := by
    rintro t _ ⟨w, rfl, hheld⟩
    exact .of_world hheld
  cases h with
  | bridge n h =>
      apply Reserved.locked
      refine Calls.nested_rel (R := Reserved .nativeToErcWithFee (coin held) dishonest real K 0) Reserved.refl
        (fun _ _ _ => Reserved.trans) helsewhere ?_ n s s' h
      rintro out hout t t' ⟨outside, balanceOf, tx, w, hcall, hbalance, _, hpaid, hadmits, hexec⟩
      exact (execCoin_reserved hout hcall hbalance hadmits hexec).paid hpaid
  | validators _ => exact .of_same rfl rfl
  | tick now txHash _ => exact .of_same rfl rfl
  | elsewhere h => exact (helsewhere _ _ h).locked

end Coin

/-! ## A token -/

/-- One call of `HomeBridgeErc677ToErc677WithFee`. -/
inductive LockTx where
  | call (tx : BridgeTx)
  | claimTokens (sender token target : Address)
  | transferProxyOwnership (sender newOwner : Address)
  /-- The owner has the bridge call its token with the given data. -/
  | callToken (sender : Address) (msgValue : UInt256) (data : Bytes)

/-- The tokens that are credited to the bridge before a call starts. -/
def LockTx.credited : LockTx → Nat
  | .call tx => paidIn .erc677ToErc677WithFee tx
  | .claimTokens _ _ _ | .transferProxyOwnership _ _ | .callToken _ _ _ => 0

section Token

-- what an account holds of the token and has approved nobody to take
variable (lock : W → Address → Nat)

/-- What a call costs of the token. -/
def tokenCost (s : Home H W) : ExtCall → Nat
  | .transfer token _ amount => if token = s.bridge.erc677token then amount.toNat else 0
  | _ => 0

/-- **The contracts outside.** A call costs the bridge what it transfers of its token; then anything may happen that
    `out` allows. A transfer of the bridge to itself is credited as it comes back. -/
def LockWithin (out : Home H W → Home H W → Prop) (call : Callee (Home H W)) : Prop :=
  ∀ c s s' data, call c s = some (s', data) →
    ∃ w, lock s.world s.bridge.self ≤ lock w s.bridge.self + tokenCost s c ∧ out { s with world := w } s'

/-- A call of the token with the given data, in the bridge's name. With data that `spares` has it takes nothing from
    the bridge and approves nobody to take it; with other data it may. -/
def DataWithin (spares : Bytes → Prop) (out : Home H W → Home H W → Prop)
    (raw : Address → UInt256 → Bytes → Home H W → Option (Home H W)) : Prop :=
  ∀ token value data s s', raw token value data s = some s' →
    ∃ w, (spares data → lock s.world s.bridge.self ≤ lock w s.bridge.self) ∧ out { s with world := w } s'

/-- Anything outside the two contracts. Nobody else takes tokens that the bridge has not approved. -/
def LockElsewhere (s s' : Home H W) : Prop :=
  ∃ w, s' = { s with world := w } ∧ lock s.world s.bridge.self ≤ lock w s.bridge.self

/-- **The calls that are made**: those of honest validators, no claim of the locked token, and of the calls of the token
    in the bridge's name only those with data that spares what is locked. -/
def LockAdmits (spares : Bytes → Prop) (dishonest : Finset Address) (real : List Deposit) (s : Home H W) :
    LockTx → Prop
  | .call tx => Admits dishonest real s tx
  | .claimTokens _ token _ => token ≠ s.bridge.erc677token
  | .callToken _ _ data => spares data
  | .transferProxyOwnership _ _ => True

variable [DecidableEq H] (K : CollisionFree H) (ecrecover : Ecrecover H) (spares : Bytes → Prop)
  (allowed : Home H W → LockTx → Prop)

/-- One call of the bridge; `none` when it reverts. -/
def execLock (call : Callee (Home H W)) (balanceOf : Address → Home H W → Option (Home H W × UInt256))
    (raw : Address → UInt256 → Bytes → Home H W → Option (Home H W)) (coin : UInt256) :
    LockTx → Home H W → Option (Home H W)
  | .call tx, s => exec K ecrecover .erc677ToErc677WithFee call s tx
  | .claimTokens sender token target, s =>
      BasicBridge.claimTokens call balanceOf s.bridge.proxyOwner coin s sender token target
  | .transferProxyOwnership sender newOwner, s => transferProxyOwnership s sender newOwner
  | .callToken sender msgValue data, s => do
      require (sender = s.bridge.basic.owner)
      raw s.bridge.erc677token msgValue data s

/-- One call of `HomeBridgeErc677ToErc677WithFee` that `allowed` admits. The token credits the value before it calls
    `onTokenTransfer`. -/
def LockInvoke (out : Home H W → Home H W → Prop) (s s' : Home H W) : Prop :=
  ∃ call balanceOf raw coin tx w, LockWithin lock out call ∧ BalanceWithin out balanceOf ∧
    DataWithin lock spares out raw ∧ lock w s.bridge.self = lock s.world s.bridge.self + tx.credited ∧
    allowed { s with world := w } tx ∧
    execLock K ecrecover call balanceOf raw coin tx { s with world := w } = some s'

/-- One step of the home chain. -/
inductive LockStep : Home H W → Home H W → Prop where
  /-- A call of the bridge succeeds. -/
  | bridge {s s' : Home H W} (n : Nat)
      (h : Calls.Nested (LockInvoke lock K ecrecover spares allowed) (LockElsewhere lock) n s s') : LockStep s s'
  /-- A transaction to the validator contract succeeds. -/
  | validators {s : Home H W} {v : BridgeValidators} (h : s.validators.Step v) : LockStep s { s with validators := v }
  /-- A new transaction, in this block or a later one. -/
  | tick {s : Home H W} (now : UInt256) (txHash : Bytes32) (h : s.now ≤ now) :
      LockStep s { s with now := now, txHash := txHash }
  /-- The rest of the chain moves, the token included. -/
  | elsewhere {s s' : Home H W} (h : LockElsewhere lock s s') : LockStep s s'

variable {lock K ecrecover spares} {dishonest : Finset Address} {real : List Deposit} {call : Callee (Home H W)}
  {out : Home H W → Home H W → Prop} {s s' : Home H W}

omit [DecidableEq H] in
theorem lockWithin_reserved
    (hout : ∀ s s', out s s' → Reserved .erc677ToErc677WithFee lock dishonest real K 0 s s')
    (hcall : LockWithin lock out call) {c : ExtCall} {data : Bytes} (h : call c s = some (s', data)) :
    Reserved .erc677ToErc677WithFee lock dishonest real K (tokenCost s c) s s' := by
  obtain ⟨w, hpaid, hafter⟩ := hcall _ _ _ _ h
  have hmoved : Reserved .erc677ToErc677WithFee lock dishonest real K (tokenCost s c) s { s with world := w } :=
    .of_world hpaid
  exact (hmoved.trans (hout _ _ hafter)).mono (Nat.le_of_eq (Nat.add_zero _))

omit [DecidableEq H] in
theorem lockWithin_pays
    (hout : ∀ s s', out s s' → Reserved .erc677ToErc677WithFee lock dishonest real K 0 s s')
    (hcall : LockWithin lock out call) : Pays .erc677ToErc677WithFee lock call where
  settle _ _ _ _ _ h := by
    refine settleWithFee_backs ?_ h
    intro s t s' target amount hpay htoken
    obtain ⟨data, hc⟩ := Callee.answered_of_unchecked hpay
    refine (lockWithin_reserved hout hcall hc).backs.mono ?_
    show (if t.bridge.erc677token = s.bridge.erc677token then amount.toNat else 0) ≤ amount.toNat
    rw [if_pos htoken]
  tokens s s' sender source value h := by
    refine withdrawing_backs ?_ ?_ (onTokenTransfer_withdrawing h).2
    · intro t t' fee hpay
      simp only [payFeeInToken, Option.bind_eq_bind, Option.bind_eq_some_iff, require_eq_some, exists_const,
        Option.pure_def, Option.some.injEq] at hpay
      obtain ⟨⟨_, _⟩, hpay, _, rfl⟩ := hpay
      obtain ⟨data, hc⟩ := Callee.answered_of_bool hpay
      refine (lockWithin_reserved hout hcall hc).backs.mono ?_
      show (if t.bridge.erc677token = t.bridge.erc677token then fee.toNat else 0) ≤ fee.toNat
      rw [if_pos rfl]
    · intro t t' rest hrelease
      obtain rfl := Option.some.inj hrelease
      exact Backs.refl t
  coins hV := absurd hV (by decide)

/-- **One admitted call**, the tokens it was credited not counted. -/
theorem execLock_reserved
    (hout : ∀ s s', out s s' → Reserved .erc677ToErc677WithFee lock dishonest real K 0 s s')
    (hcall : LockWithin lock out call) {balanceOf : Address → Home H W → Option (Home H W × UInt256)}
    (hbalance : BalanceWithin out balanceOf) {raw : Address → UInt256 → Bytes → Home H W → Option (Home H W)}
    (hraw : DataWithin lock spares out raw) {coin : UInt256} {tx : LockTx}
    (hadmits : LockAdmits spares dishonest real s tx)
    (h : execLock K ecrecover call balanceOf raw coin tx s = some s') :
    Reserved .erc677ToErc677WithFee lock dishonest real K tx.credited s s' := by
  cases tx with
  | call tx =>
      exact exec_reserved (lockWithin_pays hout hcall) (fun _ _ _ _ hc => (lockWithin_reserved hout hcall hc).honest)
        hadmits h
  | claimTokens sender token target =>
      obtain ⟨_, ⟨_, data, hc⟩ | ⟨_, t, balance, data, hread, hc⟩⟩ := BasicBridge.claimTokens_cases h
      · exact lockWithin_reserved hout hcall hc
      · have hread' := hout _ _ (hbalance _ _ _ _ hread)
        have hother : tokenCost t (.transfer token target balance) = 0 := by
          show (if token = t.bridge.erc677token then _ else 0) = 0
          rw [hread'.backs.erc677token, if_neg hadmits]
        have hclaimed := lockWithin_reserved hout hcall hc
        rw [hother] at hclaimed
        exact hread'.trans hclaimed
  | transferProxyOwnership sender newOwner =>
      rw [execLock] at h
      exact transferProxyOwnership_reserved h
  | callToken sender msgValue data =>
      simp only [execLock, Option.bind_eq_bind, Option.bind_eq_some_iff, require_eq_some, exists_const] at h
      obtain ⟨w, hspared, hafter⟩ := hraw _ _ _ _ _ h.2
      have hmoved : Reserved .erc677ToErc677WithFee lock dishonest real K 0 s { s with world := w } :=
        .of_world (hspared hadmits)
      exact hmoved.trans (hout _ _ hafter)

/-- **One step of the home chain** of the bridge that locks its token. -/
theorem lockStep_locked (h : LockStep lock K ecrecover spares (LockAdmits spares dishonest real) s s') :
    Locked .erc677ToErc677WithFee lock dishonest real K s s' := by
  have helsewhere : ∀ s s' : Home H W, LockElsewhere lock s s' →
      Reserved .erc677ToErc677WithFee lock dishonest real K 0 s s' := by
    rintro t _ ⟨w, rfl, hheld⟩
    exact .of_world hheld
  cases h with
  | bridge n h =>
      apply Reserved.locked
      refine Calls.nested_rel (R := Reserved .erc677ToErc677WithFee lock dishonest real K 0) Reserved.refl
        (fun _ _ _ => Reserved.trans) helsewhere ?_ n s s' h
      rintro out hout t t' ⟨call, balanceOf, raw, coin, tx, w, hcall, hbalance, hraw, hpaid, hadmits, hexec⟩
      exact (execLock_reserved hout hcall hbalance hraw hadmits hexec).paid hpaid
  | validators _ => exact .of_same rfl rfl
  | tick now txHash _ => exact .of_same rfl rfl
  | elsewhere h => exact (helsewhere _ _ h).locked

end Token

end Home
end ThunderBridge
