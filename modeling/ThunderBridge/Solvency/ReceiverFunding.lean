import ThunderBridge.Solvency.TokenDeposits

/-!
# `Solvency.ReceiverFunding` — the coin that a token gives to its receivers

`transfer`, `transferAndCall` and `mint` fund their recipient with coin, and `totalPeriodFundedAmount` is to keep what
is paid in a period below `maxPeriodFunds`. Both are words, and so is their sum with `amount`, unchecked.

The token records what it does: new rules, a new period, a `send` that went through. Beside the word that the code
counts with, `period` counts the current period of such a record in numbers. In every run the two agree, and the cap
holds, at every moment of the run exactly if it makes no payment whose sum wraps (`receiver_funding_cap_iff`). A sum
can wrap although there is little coin, since a receiver may pay it back.
-/

namespace ThunderBridge
namespace TokenCode

variable {H B W : Type}

/-! ## The books of a period -/

/-- What was sent since the last reset, and the largest `maxPeriodFunds` in force since then. -/
structure Period where
  sent : Nat
  cap : Nat
deriving DecidableEq, Repr

/-- The current period of a record, newest first. -/
def period : List FundingEntry → Period
  | [] => ⟨0, 0⟩
  | .rules rules :: log => { period log with cap := max (period log).cap rules.maxPeriodFunds.toNat }
  | .reset maxPeriodFunds :: _ => ⟨0, maxPeriodFunds.toNat⟩
  | .paid _ amount _ :: log => { period log with sent := (period log).sent + amount.toNat }

/-- The rules in force. -/
def rulesIn : List FundingEntry → FundingRules
  | [] => ⟨0, 0, 0, 0⟩
  | .rules rules :: _ => rules
  | .reset _ :: log | .paid _ _ _ :: log => rulesIn log

/-- The counter of the code. -/
def counter : List FundingEntry → UInt256
  | [] => 0
  | .rules _ :: log => counter log
  | .reset _ :: _ => 0
  | .paid _ amount total :: _ => total + amount

/-- **The receiver funding cap**: the counter is what was sent in the period, and that is no more than the largest
    maximum in force. -/
structure Capped (log : List FundingEntry) : Prop where
  total_eq : (counter log).toNat = (period log).sent
  sent_le : (period log).sent ≤ (period log).cap

/-- The amount of a payment and the counter before it add up to a word. -/
def AddsUp : FundingEntry → Prop
  | .rules _ | .reset _ => True
  | .paid _ amount total => amount.toNat + total.toNat < 2 ^ 256

/-- A token just deployed, on any chain. -/
def deployed (s : TokenHome H B W) : TokenHome H B W :=
  { s with world := { s.world with
    token := { s.world.token with
      fundingRules := ⟨0, 0, 0, 0⟩
      lastFundingPeriod := 0
      totalPeriodFundedAmount := 0 }
    funding := [] } }

/-! ## What the code records -/

/-- What the code does after a record: a payment is of the amount in the rules, passes the test, and is sent. -/
def Follows (T : TokenCode B W) (log : List FundingEntry) : FundingEntry → Prop
  | .rules _ => True
  | .reset maxPeriodFunds => maxPeriodFunds = (rulesIn log).maxPeriodFunds
  | .paid target amount total => total = counter log ∧ amount = (rulesIn log).amount ∧
      amount + total ≤ (rulesIn log).maxPeriodFunds ∧ ∃ coins, (T.send coins target amount).isSome

/-- A record that the code can have made. -/
inductive Recorded (T : TokenCode B W) : List FundingEntry → Prop where
  | nil : Recorded T []
  | cons {e : FundingEntry} {log : List FundingEntry} (h : Recorded T log) (he : T.Follows log e) :
      Recorded T (e :: log)

section Recorded

variable {T : TokenCode B W} {e : FundingEntry} {log : List FundingEntry}

/-- The maximum in force is one of those that the cap is the largest of. -/
theorem Recorded.inForce (h : Recorded T log) : (rulesIn log).maxPeriodFunds.toNat ≤ (period log).cap := by
  induction h with
  | nil => exact Nat.le_refl 0
  | @cons e log _ he ih =>
      cases e with
      | rules rules => exact Nat.le_max_right _ _
      | reset maxPeriodFunds =>
          rw [show maxPeriodFunds = _ from he]
          exact Nat.le_refl _
      | paid target amount total => exact ih

/-- **One entry** keeps the books exactly when what it pays adds up. -/
theorem Recorded.capped_cons_iff (h : Recorded T log) (he : T.Follows log e) (hcapped : Capped log) :
    Capped (e :: log) ↔ AddsUp e := by
  have hforce := h.inForce
  cases e with
  | rules rules => exact iff_of_true ⟨hcapped.total_eq, hcapped.sent_le.trans (Nat.le_max_left _ _)⟩ trivial
  | reset maxPeriodFunds => exact iff_of_true ⟨rfl, Nat.zero_le _⟩ trivial
  | paid target amount total =>
      obtain ⟨htotal, _, htest, _⟩ := he
      have hsent : total.toNat = (period log).sent := by rw [htotal, hcapped.total_eq]
      rw [BitVec.le_def, BitVec.toNat_add] at htest
      constructor
      · intro hpaid
        have hcount : (total.toNat + amount.toNat) % 2 ^ 256 = (period log).sent + amount.toNat := by
          rw [← BitVec.toNat_add]
          exact hpaid.total_eq
        have hlt := Nat.mod_lt (total.toNat + amount.toNat) (Nat.two_pow_pos 256)
        show amount.toNat + total.toNat < 2 ^ 256
        omega
      · intro hsum
        rw [Nat.mod_eq_of_lt hsum] at htest
        refine ⟨?_, ?_⟩
        · show (total + amount).toNat = (period log).sent + amount.toNat
          rw [BitVec.toNat_add_of_lt (by rw [Nat.add_comm]; exact hsum), hsent]
        · show (period log).sent + amount.toNat ≤ (period log).cap
          omega

/-- **At every moment** of a record the books are kept, exactly if whatever it pays adds up. -/
theorem Recorded.capped_iff (h : Recorded T log) :
    (∀ earlier, earlier <:+ log → Capped earlier) ↔ ∀ e ∈ log, AddsUp e := by
  induction h with
  | nil =>
      constructor
      · exact fun _ e he => absurd he List.not_mem_nil
      · intro _ earlier hearlier
        rw [List.suffix_nil.mp hearlier]
        exact ⟨rfl, Nat.le_refl 0⟩
  | @cons e log h he ih =>
      rw [List.forall_mem_cons, ← ih]
      constructor
      · intro hall
        have hlog : ∀ earlier, earlier <:+ log → Capped earlier :=
          fun earlier hearlier => hall earlier (hearlier.trans (List.suffix_cons e log))
        exact ⟨(h.capped_cons_iff he (hlog log (List.suffix_refl _))).mp (hall _ (List.suffix_refl _)), hlog⟩
      · rintro ⟨hadds, hlog⟩ earlier hearlier
        rcases List.suffix_cons_iff.mp hearlier with rfl | hearlier
        · exact (h.capped_cons_iff he (hlog log (List.suffix_refl _))).mpr hadds
        · exact hlog earlier hearlier

end Recorded

/-! ## Runs record what they do -/

/-- The token counts as its record says. -/
structure Booked (T : TokenCode B W) (s : TokenHome H B W) : Prop where
  counter_eq : s.world.token.totalPeriodFundedAmount = counter s.world.funding
  rules_eq : s.world.token.fundingRules = rulesIn s.world.funding
  recorded : Recorded T s.world.funding

/-- The record goes on, and stays true. -/
structure Keeps (T : TokenCode B W) (s s' : TokenHome H B W) : Prop where
  booked : Booked T s → Booked T s'
  funding : s.world.funding <:+ s'.world.funding

/-- The funding of the token is the same. -/
structure SameFunding (s s' : TokenHome H B W) : Prop where
  fundingRules : s'.world.token.fundingRules = s.world.token.fundingRules
  totalPeriodFundedAmount : s'.world.token.totalPeriodFundedAmount = s.world.token.totalPeriodFundedAmount
  funding : s'.world.funding = s.world.funding

section Keeps

variable {T : TokenCode B W} {s s' : TokenHome H B W}

theorem SameFunding.keeps (h : SameFunding s s') : Keeps T s s' := by
  refine ⟨?_, by rw [h.funding]⟩
  intro hbooked
  refine ⟨?_, ?_, ?_⟩
  · rw [h.totalPeriodFundedAmount, h.funding]
    exact hbooked.counter_eq
  · rw [h.fundingRules, h.funding]
    exact hbooked.rules_eq
  · rw [h.funding]
    exact hbooked.recorded

theorem keeps_chains : Home.Chains (Keeps (H := H) T) where
  refl _ := SameFunding.keeps ⟨rfl, rfl, rfl⟩
  trans _ _ _ h h' := ⟨fun hs => h'.booked (h.booked hs), h.funding.trans h'.funding⟩

theorem resetFundingPeriod_keeps (s : TokenHome H B W) : Keeps T s (resetFundingPeriod s) := by
  unfold resetFundingPeriod
  dsimp only
  split
  · refine ⟨?_, List.suffix_cons _ _⟩
    intro hbooked
    refine ⟨rfl, hbooked.rules_eq, hbooked.recorded.cons ?_⟩
    show s.world.token.fundingRules.maxPeriodFunds = _
    rw [hbooked.rules_eq]
  · exact keeps_chains.refl s

/-- **`fundReceiver` records** its payment, if its `send` goes through. -/
theorem fundReceiver_keeps (T : TokenCode B W) (s : TokenHome H B W) (target : Address) :
    Keeps T s (T.fundReceiver s target) := by
  have hreset := resetFundingPeriod_keeps (T := T) s
  unfold fundReceiver
  generalize resetFundingPeriod s = t at hreset
  dsimp only
  split
  · rename_i htests
    cases hsend : T.send t.world.coins target t.world.token.fundingRules.amount with
    | none => exact hreset
    | some coins =>
        refine keeps_chains.trans _ _ _ hreset ⟨?_, List.suffix_cons _ _⟩
        intro hbooked
        have hfollows : T.Follows t.world.funding (.paid target t.world.token.fundingRules.amount
            t.world.token.totalPeriodFundedAmount) := by
          refine ⟨hbooked.counter_eq, by rw [hbooked.rules_eq], ?_, t.world.coins, ?_⟩
          · rw [← hbooked.rules_eq]
            exact htests.2
          · rw [hsend, Option.isSome_some]
        exact ⟨rfl, hbooked.rules_eq, hbooked.recorded.cons hfollows⟩
  · exact hreset

theorem setBase_keeps (s : TokenHome H B W) (base : B) : Keeps T s (setBase s base) :=
  SameFunding.keeps ⟨rfl, rfl, rfl⟩

theorem credit_keeps (s : TokenHome H B W) (entry : Entry) (source target : Address) (value : UInt256) :
    Keeps T s (T.credit s entry source target value) := by
  unfold credit
  split <;> exact SameFunding.keeps ⟨rfl, rfl, rfl⟩

theorem notice_keeps (s s' : TokenHome H B W) (source : Address) (value : UInt256) :
    Keeps T s' (T.notice s s' source value) := by
  unfold notice
  split <;> exact SameFunding.keeps ⟨rfl, rfl, rfl⟩

/-- OpenZeppelin's token moves balances, and a credit is recorded. -/
theorem credit_moved_keeps (s : TokenHome H B W) (base : B) (m : Movement) (entry : Entry)
    (source target : Address) (value : UInt256) :
    Keeps T s (T.credit (moved (setBase s base) m) entry source target value) :=
  keeps_chains.trans _ (moved (setBase s base) m) _ (SameFunding.keeps ⟨rfl, rfl, rfl⟩) (credit_keeps _ _ _ _ _)

section Calls

variable {hook : Hook H B W} {outside : Outside (TokenHome H B W)} {entry : Entry}
  {sender source target who operator : Address} {value amount : UInt256} {data : Bytes}

/-- A hook that keeps the record. -/
def HookKeeps (T : TokenCode B W) (hook : Hook H B W) : Prop :=
  ∀ s source value s', hook s source value = some s' → Keeps T s s'

theorem superTransfer_keeps (h : T.superTransfer s entry sender target value = some s') : Keeps T s s' := by
  simp only [superTransfer, Option.bind_eq_bind, Option.bind_eq_some_iff, Option.pure_def, Option.some.injEq] at h
  obtain ⟨base, _, rfl⟩ := h
  exact credit_moved_keeps s base _ entry sender target value

theorem contractFallback_keeps (hhook : HookKeeps T hook) (houtside : OutsideWithin (Keeps T) outside)
    (s : TokenHome H B W) (sender target : Address) (value : UInt256) (data : Bytes) :
    Keeps T s (T.contractFallback hook outside s sender target value data).1 := by
  unfold contractFallback
  by_cases htarget : target = s.bridge.self
  · rw [if_pos htarget]
    cases hcall : hook s sender value with
    | none => exact keeps_chains.refl s
    | some t => exact keeps_chains.trans _ _ _ (hhook _ _ _ _ hcall) (notice_keeps s t sender value)
  · rw [if_neg htarget]
    cases hcall : outside.onTokenTransfer target sender value data s with
    | none => exact keeps_chains.refl s
    | some t => exact houtside.onTokenTransfer _ _ _ _ _ _ hcall

theorem transfer_keeps (hhook : HookKeeps T hook) (houtside : OutsideWithin (Keeps T) outside)
    (h : T.transfer hook outside s sender target value = some s') : Keeps T s s' := by
  simp only [transfer, Option.bind_eq_bind, Option.bind_eq_some_iff] at h
  obtain ⟨s₁, hsuper, h⟩ := h
  have hfunded := keeps_chains.trans _ _ _ (superTransfer_keeps hsuper) (fundReceiver_keeps T s₁ target)
  generalize T.fundReceiver s₁ target = s₂ at h hfunded
  by_cases hcalls : T.callsBack s₂ target
  · rw [if_pos hcalls] at h
    have hcall := keeps_chains.trans _ _ _ hfunded
      (contractFallback_keeps hhook houtside s₂ sender target value [])
    generalize T.contractFallback hook outside s₂ sender target value [] = answer at h hcall
    obtain ⟨t, ok⟩ := answer
    cases ok with
    | true =>
        obtain rfl := Option.some.inj h
        exact hcall
    | false =>
        simp only [Bool.false_eq_true, if_false] at h
        split at h
        · obtain rfl := Option.some.inj h
          exact keeps_chains.trans _ _ _ hcall (SameFunding.keeps ⟨rfl, rfl, rfl⟩)
        · exact absurd h (Option.some_ne_none _).symm
  · rw [if_neg hcalls] at h
    obtain rfl := Option.some.inj h
    exact hfunded

theorem transferAndCall_keeps (hhook : HookKeeps T hook) (houtside : OutsideWithin (Keeps T) outside)
    (h : T.transferAndCall hook outside s sender target value data = some s') : Keeps T s s' := by
  simp only [transferAndCall, Option.bind_eq_bind, Option.bind_eq_some_iff, require_eq_some, exists_const] at h
  obtain ⟨_, s₁, hsuper, h⟩ := h
  have hfunded := keeps_chains.trans _ _ _ (superTransfer_keeps hsuper) (fundReceiver_keeps T s₁ target)
  have hemitted : Keeps T s (emit (T.fundReceiver s₁ target) (.Transfer sender target value data)) :=
    keeps_chains.trans _ _ _ hfunded (SameFunding.keeps ⟨rfl, rfl, rfl⟩)
  generalize emit (T.fundReceiver s₁ target) (.Transfer sender target value data) = s₂ at h hemitted
  by_cases hcalls : T.callsBack s₂ target
  · rw [if_pos hcalls] at h
    simp only [Option.bind_eq_some_iff, require_eq_some, exists_const, Option.pure_def, Option.some.injEq] at h
    obtain ⟨_, rfl⟩ := h
    exact keeps_chains.trans _ _ _ hemitted (contractFallback_keeps hhook houtside s₂ sender target value data)
  · rw [if_neg hcalls] at h
    obtain rfl := Option.some.inj h
    exact hemitted

theorem mint_keeps (h : T.mint s sender target amount = some s') : Keeps T s s' := by
  simp only [mint, Option.bind_eq_bind, Option.bind_eq_some_iff, require_eq_some, exists_const, Option.pure_def,
    Option.some.injEq] at h
  obtain ⟨_, base, _, rfl⟩ := h
  exact keeps_chains.trans _ _ _ (fundReceiver_keeps T s target)
    (credit_moved_keeps _ base (.mint target amount) .mint 0 target amount)

theorem burn_keeps (h : T.burn s sender value = some s') : Keeps T s s' := by
  simp only [burn, Option.bind_eq_bind, Option.bind_eq_some_iff, Option.pure_def, Option.some.injEq] at h
  obtain ⟨base, _, rfl⟩ := h
  exact SameFunding.keeps ⟨rfl, rfl, rfl⟩

theorem burnOf_keeps (h : T.burnOf s sender who value = some s') : Keeps T s s' := by
  unfold burnOf at h
  split at h
  · simp only [Option.bind_eq_bind, Option.bind_eq_some_iff, require_eq_some, exists_const] at h
    exact burn_keeps h.2
  · obtain rfl := Option.some.inj h
    exact keeps_chains.refl s

theorem setMinterBurner_keeps (s : TokenHome H B W) (p : MinterBurnerProxy) : Keeps T s (setMinterBurner s p) :=
  SameFunding.keeps ⟨rfl, rfl, rfl⟩

theorem proxyMint_keeps (h : T.proxyMint s operator target value = some s') : Keeps T s s' := by
  simp only [proxyMint, Option.bind_eq_bind, Option.bind_eq_some_iff, require_eq_some, exists_const,
    Option.pure_def, Option.some.injEq] at h
  obtain ⟨_, _, s₁, hmint, rfl⟩ := h
  exact keeps_chains.trans _ _ _ (mint_keeps hmint) (setMinterBurner_keeps _ _)

theorem proxyBurn_keeps (h : T.proxyBurn s operator who value = some s') : Keeps T s s' := by
  simp only [proxyBurn, Option.bind_eq_bind, Option.bind_eq_some_iff, require_eq_some, exists_const,
    Option.pure_def, Option.some.injEq] at h
  obtain ⟨_, _, s₁, hburn, rfl⟩ := h
  exact keeps_chains.trans _ _ _ (burnOf_keeps hburn) (setMinterBurner_keeps _ _)

/-- **One call of the token.** -/
theorem exec_keeps (hhook : HookKeeps T hook) (houtside : OutsideWithin (Keeps T) outside) {tx : TokenTx}
    (h : T.exec hook outside s tx = some s') : Keeps T s s' := by
  cases tx with
  | transfer sender target value => exact transfer_keeps hhook houtside h
  | transferAndCall sender target value data => exact transferAndCall_keeps hhook houtside h
  | transferFrom sender source target value =>
      simp only [exec, transferFrom, Option.bind_eq_bind, Option.bind_eq_some_iff, Option.pure_def,
        Option.some.injEq] at h
      obtain ⟨base, _, rfl⟩ := h
      exact credit_moved_keeps s base _ .transferFrom source target value
  | mint sender target amount => exact mint_keeps h
  | burn sender value => exact burn_keeps h
  | burnOf sender who value => exact burnOf_keeps h
  | approve sender spender value | transferOwnership sender newOwner =>
      simp only [exec, Option.bind_eq_bind, Option.bind_eq_some_iff, Option.pure_def, Option.some.injEq] at h
      obtain ⟨base, _, rfl⟩ := h
      exact setBase_keeps s base
  | setFundingRules sender rules =>
      simp only [exec, Option.bind_eq_bind, Option.bind_eq_some_iff, Option.pure_def, Option.some.injEq] at h
      obtain ⟨_, _, rfl⟩ := h
      exact ⟨fun hbooked => ⟨hbooked.counter_eq, rfl, hbooked.recorded.cons trivial⟩, List.suffix_cons _ _⟩
  | setBridgeContract sender bridgeContract =>
      simp only [exec, Option.bind_eq_bind, Option.bind_eq_some_iff, Option.pure_def, Option.some.injEq] at h
      obtain ⟨_, _, rfl⟩ := h
      exact SameFunding.keeps ⟨rfl, rfl, rfl⟩
  | addBridgeContract sender bridgeContract | removeBridgeContract sender bridgeContract =>
      simp only [exec, Option.bind_eq_bind, Option.bind_eq_some_iff, Option.pure_def, Option.some.injEq] at h
      obtain ⟨_, _, _, _, rfl⟩ := h
      exact SameFunding.keeps ⟨rfl, rfl, rfl⟩

end Calls

section Runs

variable [DecidableEq H] {K : CollisionFree H} {ecrecover : Ecrecover H} {V : HomeVariant}
  {outside : Outside (TokenHome H B W)}

omit [DecidableEq H] in
theorem inner_keeps (h : Home.Inner s s') : Keeps T s s' :=
  SameFunding.keeps ⟨by rw [h.world], by rw [h.world], by rw [h.world]⟩

theorem bridgeHook_keeps {call : Callee (TokenHome H B W)} (hcall : Home.Within (Keeps T) call) :
    HookKeeps T (T.bridgeHook K ecrecover V call) :=
  fun _ _ _ _ h => Home.exec_out keeps_chains (fun _ _ => inner_keeps) hcall h

/-- Whatever the bridge calls, its token included, keeps the record. -/
theorem bridgeCallee_keeps (houtside : OutsideWithin (Keeps T) outside) (depth : Nat) :
    Home.Within (Keeps T) (T.bridgeCallee K ecrecover V outside depth) := by
  induction depth with
  | zero =>
      intro c s s' data h
      exact absurd h (Option.some_ne_none _).symm
  | succ depth ih =>
      intro c s s' data h
      cases c with
      | transfer token target amount =>
          by_cases htoken : token = T.address
          · simp only [bridgeCallee, if_pos htoken, Option.map_eq_some_iff, Prod.mk.injEq] at h
            obtain ⟨_, htransfer, rfl, _⟩ := h
            exact transfer_keeps (bridgeHook_keeps ih) houtside htransfer
          · simp only [bridgeCallee, if_neg htoken] at h
            exact houtside.call _ _ _ _ h
      | mint token target amount =>
          by_cases htoken : token = T.address
          · simp only [bridgeCallee, if_pos htoken, Option.map_eq_some_iff, Prod.mk.injEq] at h
            obtain ⟨_, hmint, rfl, _⟩ := h
            exact mint_keeps hmint
          · simp only [bridgeCallee, if_neg htoken] at h
            exact houtside.call _ _ _ _ h
      | burn token amount =>
          by_cases htoken : token = T.address
          · simp only [bridgeCallee, if_pos htoken, Option.map_eq_some_iff, Prod.mk.injEq] at h
            obtain ⟨_, hburn, rfl, _⟩ := h
            exact burn_keeps hburn
          · simp only [bridgeCallee, if_neg htoken] at h
            exact houtside.call _ _ _ _ h
      | minterBurnerMint proxy target amount =>
          by_cases hproxy : proxy = T.minterBurner
          · simp only [bridgeCallee, if_pos hproxy, Option.map_eq_some_iff, Prod.mk.injEq] at h
            obtain ⟨_, hmint, rfl, _⟩ := h
            exact proxyMint_keeps hmint
          · simp only [bridgeCallee, if_neg hproxy] at h
            exact houtside.call _ _ _ _ h
      | minterBurnerBurn proxy who amount =>
          by_cases hproxy : T.burnsThrough proxy
          · simp only [bridgeCallee, if_pos hproxy, Option.map_eq_some_iff, Prod.mk.injEq] at h
            obtain ⟨_, hburn, rfl, _⟩ := h
            exact proxyBurn_keeps hburn
          · simp only [bridgeCallee, if_neg hproxy, Option.map_eq_some_iff, Prod.mk.injEq] at h
            obtain ⟨⟨t, answer⟩, hcall, rfl, _⟩ := h
            exact keeps_chains.trans _ _ _ (houtside.call _ _ _ _ hcall) (SameFunding.keeps ⟨rfl, rfl, rfl⟩)
      | send _ _ => exact houtside.call _ _ _ _ h

omit [DecidableEq H] in
theorem outdoors_keeps (h : Outdoors s s') : Keeps T s s' := by
  obtain ⟨hasCode, coins, minterBurner, rfl⟩ := h
  exact SameFunding.keeps ⟨rfl, rfl, rfl⟩

theorem invoke_keeps {out : TokenHome H B W → TokenHome H B W → Prop} (hout : ∀ s s', out s s' → Keeps T s s')
    (h : Invoke T K ecrecover V out s s') : Keeps T s s' := by
  have hwithin : ∀ outside, OutsideWithin out outside → OutsideWithin (Keeps T) outside := by
    intro outside h
    exact ⟨fun _ _ _ _ hc => hout _ _ (h.call _ _ _ _ hc), fun _ _ _ _ _ _ hc =>
      hout _ _ (h.onTokenTransfer _ _ _ _ _ _ hc)⟩
  cases h with
  | token depth tx houtside h =>
      exact exec_keeps (bridgeHook_keeps (bridgeCallee_keeps (hwithin _ houtside) depth)) (hwithin _ houtside) h
  | bridge depth tx houtside _ h =>
      exact Home.exec_out keeps_chains (fun _ _ => inner_keeps) (bridgeCallee_keeps (hwithin _ houtside) depth) h

theorem step_keeps (h : Step T K ecrecover V s s') : Keeps T s s' := by
  cases h with
  | call n h =>
      exact Calls.nested_rel keeps_chains.refl keeps_chains.trans (fun _ _ => outdoors_keeps)
        (fun _ hout _ _ => invoke_keeps hout) n _ _ h
  | validators h => exact SameFunding.keeps ⟨rfl, rfl, rfl⟩
  | tick now txHash blockNumber h => exact SameFunding.keeps ⟨rfl, rfl, rfl⟩
  | outdoors h => exact outdoors_keeps h

/-- **Every run** of the token, however deep its calls nest, keeps the record. -/
theorem run_keeps (h : Run T K ecrecover V s s') : Keeps T s s' :=
  Calls.steps_rel keeps_chains.refl keeps_chains.trans (fun _ _ => step_keeps) h

theorem run_booked (h : Run T K ecrecover V (deployed s) s') : Booked T s' :=
  (run_keeps h).booked ⟨rfl, rfl, .nil⟩

end Runs

end Keeps

/-! ## The cap -/

section Cap

variable [DecidableEq H] {T : TokenCode B W} {K : CollisionFree H} {ecrecover : Ecrecover H} {V : HomeVariant}

/-- **The receiver funding cap, and when.** In every run of the token from its deployment, with calls that enter the
    token and the bridge again to any depth, the token counts as its record says, and the record is only added to. At
    every moment of the run the counter is what was sent in the period, and no more than the largest maximum in
    force, exactly when the run makes no payment whose amount and the counter before it add up to more than a
    word. -/
theorem receiver_funding_cap_iff {s s' : TokenHome H B W} (hrun : Run T K ecrecover V (deployed s) s') :
    (∀ u, Run T K ecrecover V (deployed s) u → Run T K ecrecover V u s' →
      u.world.token.totalPeriodFundedAmount = counter u.world.funding ∧ u.world.funding <:+ s'.world.funding) ∧
    ((∀ log, log <:+ s'.world.funding → Capped log) ↔
      ∀ target amount total, .paid target amount total ∈ s'.world.funding →
        amount.toNat + total.toNat < 2 ^ 256) := by
  constructor
  · intro u hu hon
    exact ⟨(run_booked hu).counter_eq, (run_keeps hon).funding⟩
  · rw [(run_booked hrun).recorded.capped_iff]
    constructor
    · exact fun h target amount total hpaid => h _ hpaid
    · intro h e he
      cases e with
      | rules _ | reset _ => trivial
      | paid target amount total => exact h target amount total he

/-- With at most `2^255` in every maximum, and less in every payment, nothing wraps. -/
theorem capped_of_small_limits
    (hsend : ∀ coins target amount, (T.send coins target amount).isSome → amount.toNat < 2 ^ 255)
    {s s' : TokenHome H B W} (hrun : Run T K ecrecover V (deployed s) s')
    (hrules : ∀ rules, .rules rules ∈ s'.world.funding → rules.maxPeriodFunds.toNat ≤ 2 ^ 255) :
    ∀ log, log <:+ s'.world.funding → Capped log := by
  have hrecorded := (run_booked hrun).recorded
  generalize s'.world.funding = log at hrecorded hrules
  -- the counter stays below the cap, and the cap below `2^255`
  suffices h : (∀ e ∈ log, AddsUp e) ∧ (period log).cap ≤ 2 ^ 255 from hrecorded.capped_iff.mpr h.1
  induction hrecorded with
  | nil => exact ⟨fun e he => absurd he List.not_mem_nil, Nat.zero_le _⟩
  | @cons e log h he ih =>
      obtain ⟨hadds, hcap⟩ := ih fun rules hmem => hrules rules (List.mem_cons_of_mem e hmem)
      have hcapped := h.capped_iff.mpr hadds log (List.suffix_refl _)
      rw [List.forall_mem_cons]
      cases e with
      | rules rules => exact ⟨⟨trivial, hadds⟩, Nat.max_le.mpr ⟨hcap, hrules rules List.mem_cons_self⟩⟩
      | reset maxPeriodFunds =>
          refine ⟨⟨trivial, hadds⟩, ?_⟩
          rw [show maxPeriodFunds = _ from he]
          exact h.inForce.trans hcap
      | paid target amount total =>
          refine ⟨⟨?_, hadds⟩, hcap⟩
          obtain ⟨htotal, _, _, coins, hsome⟩ := he
          have hamount := hsend _ _ _ hsome
          have hsent := hcapped.sent_le
          rw [← hcapped.total_eq, ← htotal] at hsent
          show amount.toNat + total.toNat < 2 ^ 256
          omega

end Cap

/-! ## Coin that comes back -/

/-- The coin of the token at 5 and of account 40: what the one sends the other gets. -/
def sendToReceiver (coins : UInt256 × UInt256) (target : Address) (amount : UInt256) : Option (UInt256 × UInt256) :=
  if target = 40 ∧ amount ≤ coins.1 then some (coins.1 - amount, coins.2 + amount) else none

/-- An `ERC677BridgeToken` at the address 5. -/
def fundingCode : TokenCode PlainToken (UInt256 × UInt256) where
  variant := .bridgeToken
  v2 := false
  address := 5
  minterBurner := 6
  base := plainToken
  balance coins a := if a = 40 then coins.2 else if a = 5 then coins.1 else 0
  send := sendToReceiver

/-- All coin there is. -/
def allCoin : UInt256 := BitVec.ofNat 256 (2 ^ 254)

/-- There are `2^254` coins, and the token has them. -/
def fundingHome : TokenHome (List Byte) PlainToken (UInt256 × UInt256) :=
  Home.sampleHome
    { token := sampleTokens.token
      minterBurner := sampleTokens.minterBurner
      log := []
      hasCode := fun _ => false
      blockNumber := 10
      coins := (allCoin, 0)
      movements := []
      credits := []
      notices := []
      funding := [] }

/-- `2^254` at a time, to whoever has nothing, and no maximum to speak of. -/
def recyclingRules : FundingRules := ⟨1000, BitVec.allOnes 256, 1, allCoin⟩

/-- The counter after `k` payments. -/
def counted : Nat → UInt256
  | 0 => 0
  | k + 1 => counted k + allCoin

/-- The record of `k` payments under these rules. -/
def payments : Nat → List FundingEntry
  | 0 => [.rules recyclingRules]
  | k + 1 => .paid 40 allCoin (counted k) :: payments k

/-- All coin is back at the token, after `k` payments in the period. -/
structure PaidBack (k : Nat) (s : TokenHome (List Byte) PlainToken (UInt256 × UInt256)) : Prop where
  fundingRules : s.world.token.fundingRules = recyclingRules
  lastFundingPeriod : s.world.token.lastFundingPeriod = 0
  total : s.world.token.totalPeriodFundedAmount = counted k
  blockNumber : s.world.blockNumber = 10
  coins : s.world.coins = (allCoin, 0)
  hasCode : s.world.hasCode = fun _ => false
  self : s.bridge.self = 7
  funding : s.world.funding = payments k

/-- Account 33 transfers nothing to account 40. -/
theorem transfer_nothing (base : PlainToken) : ∃ base', plainToken.transfer base 33 40 0 = some base' := by
  have hsub (a : UInt256) : SafeMath.sub a 0 = some a := SafeMath.sub_eq_some.mpr rfl
  have hadd (a : UInt256) : SafeMath.add a 0 = some a := SafeMath.add_eq_some.mpr rfl
  apply Option.isSome_iff_exists.mp
  simp only [plainToken, CheckedToken.transfer, require_pos (by decide : (40 : Address) ≠ 0), hsub, hadd,
    Option.bind_eq_bind, Option.bind_some, Option.pure_def, Option.isSome_some]

theorem sendToReceiver_all : sendToReceiver (allCoin, 0) 40 allCoin = some (0, allCoin) := by
  decide

/-- The token sent some coin, and counts it. -/
def sent (s : TokenHome H B W) (total : UInt256) (coins : W) (e : FundingEntry) : TokenHome H B W :=
  funded { s with world := { s.world with
    token := { s.world.token with totalPeriodFundedAmount := total }
    coins := coins } } e

theorem fundReceiver_sent {T : TokenCode B W} {s : TokenHome H B W} {target : Address} {coins : W}
    {rules : FundingRules} {total : UInt256} (hreset : resetFundingPeriod s = s)
    (hrules : s.world.token.fundingRules = rules) (htotal : s.world.token.totalPeriodFundedAmount = total)
    (htests : T.balance s.world.coins target < rules.threshold ∧ rules.amount + total ≤ rules.maxPeriodFunds)
    (hsend : T.send s.world.coins target rules.amount = some coins) :
    T.fundReceiver s target = sent s (total + rules.amount) coins (.paid target rules.amount total) := by
  subst hrules htotal
  unfold fundReceiver
  rw [hreset]
  dsimp only
  rw [if_pos htests, hsend]
  rfl

/-- Coin is paid back. -/
def payBack (s : TokenHome (List Byte) PlainToken (UInt256 × UInt256)) (coins : UInt256 × UInt256) :
    TokenHome (List Byte) PlainToken (UInt256 × UInt256) :=
  { s with world := { s.world with coins := coins } }

section Round

variable {k : Nat} {s : TokenHome (List Byte) PlainToken (UInt256 × UInt256)}

theorem PaidBack.moved (h : PaidBack k s) (base : PlainToken) (m : Movement) :
    PaidBack k (moved (setBase s base) m) :=
  ⟨h.fundingRules, h.lastFundingPeriod, h.total, h.blockNumber, h.coins, h.hasCode, h.self, h.funding⟩

theorem PaidBack.again (h : PaidBack k s) {total : UInt256} {coins coins' : UInt256 × UInt256} {e : FundingEntry}
    (htotal : total = counted (k + 1)) (hcoins : coins' = (allCoin, 0)) (he : e :: payments k = payments (k + 1)) :
    PaidBack (k + 1) (payBack (sent s total coins e) coins') := by
  refine ⟨h.fundingRules, h.lastFundingPeriod, htotal, h.blockNumber, hcoins, h.hasCode, h.self, ?_⟩
  rw [← he, ← h.funding]
  rfl

/-- All coin is sent, whatever the counter says. -/
theorem PaidBack.fundReceiver (h : PaidBack k s) : fundingCode.fundReceiver s 40 =
    sent s (counted k + allCoin) (0, allCoin) (.paid 40 allCoin (counted k)) := by
  have hreset : resetFundingPeriod s = s := by
    unfold resetFundingPeriod
    dsimp only
    rw [h.fundingRules, h.lastFundingPeriod, h.blockNumber]
    exact if_neg (by decide)
  have htests : fundingCode.balance s.world.coins 40 < recyclingRules.threshold ∧
      recyclingRules.amount + counted k ≤ recyclingRules.maxPeriodFunds := by
    rw [h.coins]
    refine ⟨by decide, ?_⟩
    rw [BitVec.le_def, recyclingRules, BitVec.toNat_allOnes]
    exact Nat.le_sub_one_of_lt (BitVec.isLt _)
  have hsend : fundingCode.send s.world.coins 40 recyclingRules.amount = some (0, allCoin) := by
    rw [h.coins]
    exact sendToReceiver_all
  have hsent := fundReceiver_sent hreset h.fundingRules h.total htests hsend
  rwa [recyclingRules] at hsent

/-- **One round**: account 40 is sent `2^254` with a transfer, and pays them back. -/
theorem paidBack_round (h : PaidBack k s) :
    ∃ s', Run fundingCode serialHash Home.noSigner .ercToErc s s' ∧ PaidBack (k + 1) s' := by
  obtain ⟨base, hbase⟩ := transfer_nothing s.world.token.base
  have hmoved := h.moved base (.move 33 40 0)
  have hcredit : fundingCode.credit (moved (setBase s base) (.move 33 40 0)) .transfer 33 40 0 =
      moved (setBase s base) (.move 33 40 0) :=
    if_neg fun hc => hc.2.2 rfl
  have hsuper : fundingCode.superTransfer s .transfer 33 40 0 = some (moved (setBase s base) (.move 33 40 0)) := by
    rw [superTransfer]
    show (plainToken.transfer s.world.token.base 33 40 0).bind _ = _
    rw [hbase, Option.bind_some, hcredit, Option.pure_def]
  have hfunded := hmoved.fundReceiver
  generalize moved (setBase s base) (.move 33 40 0) = t at hmoved hsuper hfunded
  have hcalls : ¬ fundingCode.callsBack (fundingCode.fundReceiver t 40) 40 := by
    rw [hfunded]
    show ¬ (40 = t.bridge.self ∨ t.world.hasCode 40 = true)
    rw [hmoved.self, hmoved.hasCode]
    decide
  have hexec : fundingCode.exec (fundingCode.bridgeHook serialHash Home.noSigner .ercToErc
      (fundingCode.bridgeCallee serialHash Home.noSigner .ercToErc refusing 0)) refusing s (.transfer 33 40 0) =
        some (fundingCode.fundReceiver t 40) := by
    rw [TokenCode.exec, transfer, Option.bind_eq_bind, hsuper, Option.bind_some]
    exact if_neg hcalls
  have hcall : Step fundingCode serialHash Home.noSigner .ercToErc s (fundingCode.fundReceiver t 40) :=
    .call 1 (.token 0 (.transfer 33 40 0) (refusing_within _) hexec)
  refine ⟨payBack (fundingCode.fundReceiver t 40) (allCoin, 0), ?_, ?_⟩
  · exact (Relation.ReflTransGen.single hcall).tail (.outdoors ⟨_, _, _, rfl⟩)
  · rw [hfunded]
    exact hmoved.again rfl rfl rfl

/-- Rounds in a row. -/
theorem paidBack_rounds (k : Nat) : ∃ s',
    Run fundingCode serialHash Home.noSigner .ercToErc (deployed fundingHome) s' ∧ PaidBack k s' := by
  induction k with
  | zero =>
      let s₀ : TokenHome (List Byte) PlainToken (UInt256 × UInt256) := deployed fundingHome
      let s₁ := funded (setToken s₀ { s₀.world.token with fundingRules := recyclingRules })
        (.rules recyclingRules)
      have hexec : fundingCode.exec (fundingCode.bridgeHook serialHash Home.noSigner .ercToErc
          (fundingCode.bridgeCallee serialHash Home.noSigner .ercToErc refusing 0)) refusing s₀
            (.setFundingRules 9 recyclingRules) = some s₁ := rfl
      refine ⟨s₁, Relation.ReflTransGen.single (.call 1 (.token 0 _ (refusing_within _) hexec)), ?_⟩
      exact ⟨rfl, rfl, rfl, rfl, rfl, rfl, rfl, rfl⟩
  | succ k ih =>
      obtain ⟨s, hrun, hk⟩ := ih
      obtain ⟨s', hround, hk'⟩ := paidBack_round hk
      exact ⟨s', hrun.trans hround, hk'⟩

end Round

/-- Three payments of `2^254` in one period are counted, and do not pass the maximum. -/
theorem receiver_funding_cap_three : ∃ s' : TokenHome (List Byte) PlainToken (UInt256 × UInt256),
    Run fundingCode serialHash Home.noSigner .ercToErc (deployed fundingHome) s' ∧
      s'.world.token.totalPeriodFundedAmount = BitVec.ofNat 256 (3 * 2 ^ 254) ∧
      ∀ log, log <:+ s'.world.funding → Capped log := by
  obtain ⟨s', hrun, hback⟩ := paidBack_rounds 3
  refine ⟨s', hrun, hback.total.trans (by decide), (receiver_funding_cap_iff hrun).2.mpr ?_⟩
  intro target amount total hpaid
  rw [hback.funding] at hpaid
  simp only [payments, List.mem_cons, FundingEntry.paid.injEq, reduceCtorEq, List.not_mem_nil, or_false] at hpaid
  rcases hpaid with ⟨_, rfl, rfl⟩ | ⟨_, rfl, rfl⟩ | ⟨_, rfl, rfl⟩ <;> decide

/-- There are `2^254` coins. The owner allows `2^256 - 1` a period, and account 40 is sent all of the coin four times
    and pays it back each time: in one period `2^256` were sent, and the counter is at zero again. -/
theorem recycled_coin_uncapped : ∃ s' : TokenHome (List Byte) PlainToken (UInt256 × UInt256),
    Run fundingCode serialHash Home.noSigner .ercToErc (deployed fundingHome) s' ∧
      s'.world.coins = (allCoin, 0) ∧ period s'.world.funding = ⟨2 ^ 256, 2 ^ 256 - 1⟩ ∧
      s'.world.token.totalPeriodFundedAmount = 0 ∧ ¬ Capped s'.world.funding := by
  obtain ⟨s', hrun, hback⟩ := paidBack_rounds 4
  have hperiod : period s'.world.funding = ⟨2 ^ 256, 2 ^ 256 - 1⟩ := by
    rw [hback.funding]
    decide
  refine ⟨s', hrun, hback.coins, hperiod, hback.total.trans (by decide), ?_⟩
  intro hcapped
  have hle := hcapped.sent_le
  rw [hperiod] at hle
  exact absurd hle (by decide)

end TokenCode
end ThunderBridge
