import ThunderBridge.Contracts.Erc20
import ThunderBridge.Contracts.HomeBridge.Collection

/-!
# `HomeBridge.DailyLimits` — what a day lets through

A withdrawal is checked with the value that arrives and counted with what is left of it after the fee; an
affirmation is checked at every signature and counted at the last one. The limits, the fees and the day may
change at any time in between. As long as the contracts that the bridge calls do not call it back, the two
counters of a day are nevertheless the sums of what was let through on it, and neither is above the largest
limit the day has seen (`daily_limits`).

`Booking` is what one call does to the counters and to the events.
-/

namespace ThunderBridge
namespace Home

variable {H W : Type}

/-! ## What one call books -/

/-- The value of a withdrawal request. -/
def requestValue : HomeEvent H → Option UInt256
  | .UserRequestForSignature _ value => some value
  | _ => none

/-- The value of a completed affirmation. -/
def completedValue : HomeEvent H → Option UInt256
  | .AffirmationCompleted _ value _ => some value
  | _ => none

/-- The events between two states. -/
def newEvents (s s' : Home H W) : List (Bytes32 × HomeEvent H) :=
  s'.bridge.log.take (s'.bridge.log.length - s.bridge.log.length)

/-- The withdrawals requested between two states. -/
def requested (s s' : Home H W) : List UInt256 := (newEvents s s').filterMap fun e => requestValue e.2

/-- The affirmations completed between two states. -/
def completed (s s' : Home H W) : List UInt256 := (newEvents s s').filterMap fun e => completedValue e.2

/-- The value a withdrawal arrives with. -/
def grossValue : BridgeTx → Option UInt256
  | .onTokenTransfer _ _ value => some value
  | .transferAndCall _ _ value _ => some value
  | _ => none

/-- The value of an affirmation. -/
def affirmedValue : BridgeTx → Option UInt256
  | .executeAffirmation _ _ value _ => some value
  | _ => none

/-- What a call does to the counters and to the events of the day. -/
inductive Booking (s s' : Home H W) (tx : BridgeTx) : Prop where
  | withdrawn (gross net total : UInt256) (htx : grossValue tx = some gross)
      (limit : s.bridge.basic.withinLimit s.getCurrentDay gross = some true) (hnet : net ≤ gross)
      (htotal : SafeMath.add (s.bridge.basic.totalSpentPerDay s.getCurrentDay) net = some total)
      (basic : s'.bridge.basic = s.bridge.basic.setTotalSpentPerDay s.getCurrentDay total)
      (hrequested : requested s s' = [net]) (hcompleted : completed s s' = [])
  | executed (value total : UInt256) (htx : affirmedValue tx = some value)
      (limit : s.bridge.basic.withinExecutionLimit s.getCurrentDay value = some true)
      (htotal : SafeMath.add (s.bridge.basic.totalExecutedPerDay s.getCurrentDay) value = some total)
      (basic : s'.bridge.basic = s.bridge.basic.setTotalExecutedPerDay s.getCurrentDay total)
      (hrequested : requested s s' = []) (hcompleted : completed s s' = [value])
  | idle (spent : s'.bridge.basic.totalSpentPerDay = s.bridge.basic.totalSpentPerDay)
      (executed : s'.bridge.basic.totalExecutedPerDay = s.bridge.basic.totalExecutedPerDay)
      (hrequested : requested s s' = []) (hcompleted : completed s s' = [])

section Booking

variable {call : Callee (Home H W)} {s s' : Home H W} {gross value : UInt256} {tx : BridgeTx}

theorem events_eq (new : List (Bytes32 × HomeEvent H)) (h : s'.bridge.log = new ++ s.bridge.log) :
    requested s s' = new.filterMap (fun e => requestValue e.2) ∧
      completed s s' = new.filterMap (fun e => completedValue e.2) := by
  have hnew : newEvents s s' = new := by
    unfold newEvents
    rw [h, List.length_append, Nat.add_sub_cancel, List.take_left]
  unfold requested completed
  rw [hnew]
  exact ⟨rfl, rfl⟩

theorem Withdrawing.booking {payFee release : Home H W → UInt256 → Option (Home H W)} {source : Address}
    (hfee : ∀ s s' fee, payFee s fee = some s' → Elsewhere s s')
    (hrelease : ∀ s s' rest, release s rest = some s' → Elsewhere s s')
    (h : Withdrawing payFee release s source gross s') (htx : grossValue tx = some gross) : Booking s s' tx := by
  cases h with
  | @requested s₁ s₂ s₃ fee rest limit hsum paid counted released =>
      obtain ⟨w, rfl⟩ := whenNonzero_out elsewhere_chains (fun _ _ => hfee _ _ _) paid
      obtain ⟨total, htotal, rfl⟩ := addSpent_eq_some.mp counted
      obtain ⟨w', rfl⟩ := hrelease _ _ _ released
      have hnet : rest ≤ gross := by
        rw [BitVec.le_def]
        omega
      have hevents := events_eq (s := s) [(s.txHash, .UserRequestForSignature source rest)]
        (rfl : (emit _ _).bridge.log = _)
      exact .withdrawn gross rest total htx limit hnet htotal rfl hevents.1 hevents.2

/-- A settlement leaves its counter, and no event that counts. -/
theorem Settling.counted {t u : Home H W} (h : Settling Elsewhere t value u) : ∃ total between,
    SafeMath.add (t.bridge.basic.totalExecutedPerDay t.getCurrentDay) value = some total ∧
    u.bridge.basic = t.bridge.basic.setTotalExecutedPerDay t.getCurrentDay total ∧
    u.bridge.log = between ++ t.bridge.log ∧
    ∀ x ∈ between, requestValue x.2 = none ∧ completedValue x.2 = none := by
  cases h with
  | @paid s₁ _ counted calls =>
      obtain ⟨total, htotal, rfl⟩ := addExecuted_eq_some.mp counted
      obtain ⟨w, rfl⟩ := calls
      exact ⟨total, [], htotal, rfl, rfl, fun _ hx => absurd hx List.not_mem_nil⟩
  | @redirected s₁ v source target counted calls =>
      obtain ⟨total, htotal, rfl⟩ := addExecuted_eq_some.mp counted
      obtain ⟨w, rfl⟩ := calls
      refine ⟨total, [(t.txHash, .RecipientRedirected source target)], htotal, rfl, rfl, ?_⟩
      intro x hx
      rw [List.mem_singleton.mp hx]
      exact ⟨rfl, rfl⟩

/-- A settlement, after a signature that emitted `e`. -/
theorem Settling.booking {t u : Home H W} {e : Bytes32 × HomeEvent H} {d : Deposit}
    (h : Settling Elsewhere t d.2.1 u) (hbasic : t.bridge.basic = s.bridge.basic) (hnow : t.now = s.now)
    (hlog : t.bridge.log = e :: s.bridge.log) (he : requestValue e.2 = none ∧ completedValue e.2 = none)
    (limit : s.bridge.basic.withinExecutionLimit s.getCurrentDay d.2.1 = some true)
    (htx : affirmedValue tx = some d.2.1) (K : CollisionFree H) :
    Booking s (u.complete K d) tx := by
  obtain ⟨total, between, htotal, hbasic', hlog', hbetween⟩ := h.counted
  have hday : t.getCurrentDay = s.getCurrentDay := congrArg (· / days) hnow
  rw [hbasic, hday] at htotal hbasic'
  have hcomplete : (u.complete K d).bridge.log =
      ((u.txHash, .AffirmationCompleted d.1 d.2.1 d.2.2) :: (between ++ [e])) ++ s.bridge.log := by
    show _ :: u.bridge.log = _
    rw [hlog', hlog, List.cons_append, List.append_assoc]
    rfl
  have hall : ∀ x ∈ between ++ [e], requestValue x.2 = none ∧ completedValue x.2 = none := by
    intro x hx
    rcases List.mem_append.mp hx with hx | hx
    · exact hbetween x hx
    · rw [List.mem_singleton.mp hx]
      exact he
  obtain ⟨hrequested, hcompleted⟩ := events_eq _ hcomplete
  refine .executed d.2.1 total htx limit htotal hbasic' ?_ ?_
  · rw [hrequested]
    exact List.filterMap_eq_nil_iff.mpr (List.forall_mem_cons.mpr ⟨rfl, fun x hx => (hall x hx).1⟩)
  · rw [hcompleted]
    show d.2.1 :: (between ++ [e]).filterMap (fun x => completedValue x.2) = _
    rw [List.filterMap_eq_nil_iff.mpr fun x hx => (hall x hx).2]

/-- Whatever books nothing and leaves the counters alone. -/
theorem idle_booking (new : List (Bytes32 × HomeEvent H)) (hlog : s'.bridge.log = new ++ s.bridge.log)
    (hnew : ∀ e ∈ new, requestValue e.2 = none ∧ completedValue e.2 = none)
    (spent : s'.bridge.basic.totalSpentPerDay = s.bridge.basic.totalSpentPerDay)
    (executed : s'.bridge.basic.totalExecutedPerDay = s.bridge.basic.totalExecutedPerDay) : Booking s s' tx := by
  obtain ⟨hrequested, hcompleted⟩ := events_eq _ hlog
  refine .idle spent executed ?_ ?_
  · rw [hrequested]
    exact List.filterMap_eq_nil_iff.mpr fun e he => (hnew e he).1
  · rw [hcompleted]
    exact List.filterMap_eq_nil_iff.mpr fun e he => (hnew e he).2

theorem applySetting_booking {V : HomeVariant} {setting : OwnerSetting}
    (h : applySetting V s setting = some s') : Booking s s' tx := by
  have hframe : s'.bridge.log = s.bridge.log ∧
      s'.bridge.basic.totalSpentPerDay = s.bridge.basic.totalSpentPerDay ∧
      s'.bridge.basic.totalExecutedPerDay = s.bridge.basic.totalExecutedPerDay := by
    obtain ⟨_, _, hbasic, rfl⟩ | ⟨_, _, _, _, rfl⟩ := applySetting_cases h
    · exact ⟨rfl, BasicBridge.applySetting_counters hbasic⟩
    · exact ⟨rfl, rfl, rfl⟩
  obtain ⟨hlog, hspent, hexecuted⟩ := hframe
  exact idle_booking [] hlog (fun _ he => absurd he List.not_mem_nil) hspent hexecuted

/-- The calls whose events count as withdrawals and affirmations only when they are. -/
def Daily : BridgeTx → Prop
  | .fixAssetsAboveLimits _ _ _ => False
  | _ => True

variable [DecidableEq H] {K : CollisionFree H} {ecrecover : Ecrecover H} {V : HomeVariant}

theorem submitSignature_booking {sender : Address} {sig m : Bytes}
    (h : submitSignature K ecrecover s sender sig m = some s') : Booking s s' tx := by
  obtain ⟨_, _, _, _, _, hlast⟩ := submitSignature_cases h
  have hlog : (s.collect K sender sig m).bridge.log =
      (s.txHash, .SignedForUserRequest sender (messageHash K m)) :: s.bridge.log := collect_log
  -- the message is stored with the first signature only
  have hbasic : (s.collect K sender sig m).bridge.basic = s.bridge.basic := by
    unfold collect
    split <;> rfl
  clear h
  generalize s.collect K sender sig m = t at hlog hbasic hlast
  rcases hlast with ⟨_, rfl⟩ | ⟨_, rfl⟩
  · refine idle_booking [_] hlog ?_ (by rw [hbasic]) (by rw [hbasic])
    intro e he
    rw [List.mem_singleton.mp he]
    exact ⟨rfl, rfl⟩
  · refine idle_booking [(t.txHash, .CollectedSignatures sender (messageHash K m)
      s.validators.requiredSignatures), (s.txHash, .SignedForUserRequest sender (messageHash K m))]
        (congrArg (_ :: ·) hlog) ?_ (congrArg BasicBridge.totalSpentPerDay hbasic)
        (congrArg BasicBridge.totalExecutedPerDay hbasic)
    intro e he
    rcases List.mem_cons.mp he with rfl | he
    · exact ⟨rfl, rfl⟩
    · rw [List.mem_singleton.mp he]
      exact ⟨rfl, rfl⟩

/-- **What one call books.** -/
theorem exec_booking (hcall : Within Elsewhere call) (htx : Daily tx)
    (h : exec K ecrecover V call s tx = some s') : Booking s s' tx := by
  cases tx with
  | executeAffirmation sender recipient value transactionHash =>
      obtain ⟨_, haff⟩ := executeAffirmation_cases (recipient, value, transactionHash) h
      clear h
      cases haff with
      | recorded _ h =>
          obtain ⟨_, total, _, rfl⟩ := onFailedAffirmation_cases h
          refine idle_booking [(s.txHash, .AmountLimitExceeded recipient value transactionHash)] rfl ?_ rfl rfl
          intro e he
          rw [List.mem_singleton.mp he]
          exact ⟨rfl, rfl⟩
      | signed _ _ _ _ =>
          refine idle_booking [(s.txHash, .SignedForAffirmation sender transactionHash)] rfl ?_ rfl rfl
          intro e he
          rw [List.mem_singleton.mp he]
          exact ⟨rfl, rfl⟩
      | settled limit _ _ _ h =>
          have hvalue : affirmedValue (.executeAffirmation sender recipient value transactionHash) = some value :=
            rfl
          have hsettling := onExecuteAffirmation_settling elsewhere_chains hcall h
          exact hsettling.booking (s := s) (d := (recipient, value, transactionHash))
            (e := (s.txHash, .SignedForAffirmation sender transactionHash)) rfl rfl rfl ⟨rfl, rfl⟩ limit hvalue K
  | fixAssetsAboveLimits sender txHash unlockOnForeign => exact htx.elim
  | onTokenTransfer sender source value =>
      exact (onTokenTransfer_withdrawing h).2.booking (fun _ _ _ => payFeeInToken_out hcall)
        (fun _ _ _ => release_out elsewhere_chains hcall) rfl
  | transferAndCall sender target value msgValue =>
      simp only [exec, Option.bind_eq_bind, Option.bind_eq_some_iff, require_eq_some, exists_const] at h
      exact (transferAndCall_withdrawing h.2).booking (fun _ _ _ => payFeeInCoin_out elsewhere_chains hcall)
        (fun s _ _ hs => Option.some.inj hs ▸ elsewhere_chains.refl s) rfl
  | submitSignature sender signature message =>
      exact submitSignature_booking h
  | setting sender setting =>
      simp only [exec, Option.bind_eq_bind, Option.bind_eq_some_iff, require_eq_some, exists_const] at h
      exact applySetting_booking h.2

end Booking

/-! ## Histories -/

/-- A call of the bridge that went through. -/
structure Accepted (H W : Type) where
  before : Home H W
  tx : BridgeTx
  after : Home H W

/-- What happens beside the calls of the bridge: time passes, validators are managed, the rest of the chain
    moves. -/
inductive Aside (s : Home H W) : Home H W → Prop where
  | tick (now : UInt256) (txHash : Bytes32) (h : s.now ≤ now) : Aside s { s with now := now, txHash := txHash }
  | validators {v : BridgeValidators} (h : s.validators.Step v) : Aside s { s with validators := v }
  | elsewhere {s' : Home H W} (h : Elsewhere s s') : Aside s s'

/-- The histories from `s₀`: the states passed and the calls made, newest first. -/
inductive History [DecidableEq H] (K : CollisionFree H) (ecrecover : Ecrecover H) (V : HomeVariant) (s₀ : Home H W) :
    List (Home H W) → List (Accepted H W) → Home H W → Prop where
  | start : History K ecrecover V s₀ [s₀] [] s₀
  | call {states : List (Home H W)} {calls : List (Accepted H W)} {s s' : Home H W}
      {call : Callee (Home H W)} {tx : BridgeTx} (h : History K ecrecover V s₀ states calls s)
      (hcall : Within Elsewhere call) (hexec : exec K ecrecover V call s tx = some s') (hdaily : Daily tx) :
      History K ecrecover V s₀ (s' :: states) (⟨s, tx, s'⟩ :: calls) s'
  | aside {states : List (Home H W)} {calls : List (Accepted H W)} {s s' : Home H W}
      (h : History K ecrecover V s₀ states calls s) (hmove : Aside s s') :
      History K ecrecover V s₀ (s' :: states) calls s'

/-- The calls made on a day. -/
def onDay (calls : List (Accepted H W)) (day : UInt256) : List (Accepted H W) :=
  calls.filter fun a => a.before.getCurrentDay = day

/-- The sum of the withdrawals requested on a day, in net values. -/
def requestedOn (calls : List (Accepted H W)) (day : UInt256) : Nat :=
  tally BitVec.toNat ((onDay calls day).flatMap fun a => requested a.before a.after)

/-- The sum of the affirmations completed on a day. -/
def completedOn (calls : List (Accepted H W)) (day : UInt256) : Nat :=
  tally BitVec.toNat ((onDay calls day).flatMap fun a => completed a.before a.after)

/-- The largest value a limit had on a day; 0 for a day that has not come. -/
def largest (limit : Home H W → UInt256) (states : List (Home H W)) (day : UInt256) : Nat :=
  ((states.filter fun s => s.getCurrentDay = day).map fun s => (limit s).toNat).foldr max 0

theorem le_largest (limit : Home H W → UInt256) {s : Home H W} {states : List (Home H W)} (h : s ∈ states) :
    (limit s).toNat ≤ largest limit states s.getCurrentDay := by
  have hmem : (limit s).toNat ∈
      (states.filter fun t => t.getCurrentDay = s.getCurrentDay).map fun t => (limit t).toNat :=
    List.mem_map.mpr ⟨s, List.mem_filter.mpr ⟨h, by simp⟩, rfl⟩
  unfold largest
  generalize (states.filter fun t => t.getCurrentDay = s.getCurrentDay).map
    (fun t => (limit t).toNat) = values at hmem
  induction values with
  | nil => exact absurd hmem List.not_mem_nil
  | cons v values ih =>
      rw [List.foldr_cons]
      rcases List.mem_cons.mp hmem with heq | hmem
      · rw [heq]
        exact Nat.le_max_left _ _
      · exact Nat.le_trans (ih hmem) (Nat.le_max_right _ _)

theorem largest_cons (limit : Home H W → UInt256) (s : Home H W) (states : List (Home H W)) (day : UInt256) :
    largest limit states day ≤ largest limit (s :: states) day := by
  unfold largest
  by_cases hday : s.getCurrentDay = day
  · rw [List.filter_cons_of_pos (by simpa using hday), List.map_cons, List.foldr_cons]
    exact Nat.le_max_right _ _
  · rw [List.filter_cons_of_neg (by simpa using hday)]

theorem requestedOn_cons (a : Accepted H W) (calls : List (Accepted H W)) (day : UInt256) :
    requestedOn (a :: calls) day =
      (if a.before.getCurrentDay = day then tally BitVec.toNat (requested a.before a.after) else 0) +
        requestedOn calls day := by
  unfold requestedOn onDay
  by_cases hday : a.before.getCurrentDay = day <;> simp [hday]

theorem completedOn_cons (a : Accepted H W) (calls : List (Accepted H W)) (day : UInt256) :
    completedOn (a :: calls) day =
      (if a.before.getCurrentDay = day then tally BitVec.toNat (completed a.before a.after) else 0) +
        completedOn calls day := by
  unfold completedOn onDay
  by_cases hday : a.before.getCurrentDay = day <;> simp [hday]

/-! ## The totals of every day -/

theorem withinLimit_eq_true {b : BasicBridge} {today amount : UInt256} (h : b.withinLimit today amount = some true) :
    (b.totalSpentPerDay today).toNat + amount.toNat ≤ b.dailyLimit.toNat ∧
      b.minPerTx ≤ amount ∧ amount ≤ b.maxPerTx := by
  simp only [BasicBridge.withinLimit, Option.bind_eq_bind, Option.bind_eq_some_iff, Option.pure_def,
    Option.some.injEq, Bool.and_eq_true, decide_eq_true_eq] at h
  obtain ⟨next, hnext, ⟨hdaily, hmax⟩, hmin⟩ := h
  rw [← SafeMath.add_eq_some.mp hnext]
  exact ⟨BitVec.le_def.mp hdaily, hmin, hmax⟩

theorem withinExecutionLimit_eq_true {b : BasicBridge} {today amount : UInt256}
    (h : b.withinExecutionLimit today amount = some true) :
    (b.totalExecutedPerDay today).toNat + amount.toNat ≤ b.executionDailyLimit.toNat ∧
      amount ≤ b.executionMaxPerTx := by
  simp only [BasicBridge.withinExecutionLimit, Option.bind_eq_bind, Option.bind_eq_some_iff, Option.pure_def,
    Option.some.injEq, Bool.and_eq_true, decide_eq_true_eq] at h
  obtain ⟨next, hnext, hdaily, hmax⟩ := h
  rw [← SafeMath.add_eq_some.mp hnext]
  exact ⟨BitVec.le_def.mp hdaily, hmax⟩

/-- The counters of all days but the first state's are the same. -/
def OtherDaysKept (s' s : Home H W) : Prop :=
  ∀ day, day ≠ s.getCurrentDay →
    s'.bridge.basic.totalSpentPerDay day = s.bridge.basic.totalSpentPerDay day ∧
      s'.bridge.basic.totalExecutedPerDay day = s.bridge.basic.totalExecutedPerDay day

/-- A withdrawal that arrived within the limits on a transaction, or an affirmation executed within them. -/
structure WithinTxLimits (a : Accepted H W) : Prop where
  withdrawal : ∀ net ∈ requested a.before a.after, ∃ gross, grossValue a.tx = some gross ∧ net ≤ gross ∧
    a.before.bridge.basic.minPerTx ≤ gross ∧ gross ≤ a.before.bridge.basic.maxPerTx
  affirmation : ∀ value ∈ completed a.before a.after, affirmedValue a.tx = some value ∧
    value ≤ a.before.bridge.basic.executionMaxPerTx

/-- **The books of every day**, after a history. -/
structure DailyBooks (states : List (Home H W)) (calls : List (Accepted H W)) (s : Home H W) : Prop where
  current : ∃ earlier, states = s :: earlier
  spent : ∀ day, (s.bridge.basic.totalSpentPerDay day).toNat = requestedOn calls day
  spent_le : ∀ day, requestedOn calls day ≤ largest (fun t => t.bridge.basic.dailyLimit) states day
  executed : ∀ day, (s.bridge.basic.totalExecutedPerDay day).toNat = completedOn calls day
  executed_le : ∀ day, completedOn calls day ≤ largest (fun t => t.bridge.basic.executionDailyLimit) states day
  each : ∀ a ∈ calls, WithinTxLimits a
  others : List.IsChain OtherDaysKept states

section Books

variable {states : List (Home H W)} {calls : List (Accepted H W)} {s s' : Home H W} {tx : BridgeTx}

/-- A state more, with the same counters. -/
theorem DailyBooks.aside (hb : DailyBooks states calls s)
    (hspent : s'.bridge.basic.totalSpentPerDay = s.bridge.basic.totalSpentPerDay)
    (hexecuted : s'.bridge.basic.totalExecutedPerDay = s.bridge.basic.totalExecutedPerDay) :
    DailyBooks (s' :: states) calls s' := by
  obtain ⟨earlier, rfl⟩ := hb.current
  refine ⟨⟨_, rfl⟩, ?_, ?_, ?_, ?_, hb.each, ?_⟩
  · intro day
    rw [hspent, hb.spent]
  · intro day
    exact Nat.le_trans (hb.spent_le day) (largest_cons _ _ _ _)
  · intro day
    rw [hexecuted, hb.executed]
  · intro day
    exact Nat.le_trans (hb.executed_le day) (largest_cons _ _ _ _)
  · refine List.isChain_cons_cons.mpr ⟨?_, hb.others⟩
    intro day _
    rw [hspent, hexecuted]
    exact ⟨rfl, rfl⟩

/-- A call that books nothing. -/
theorem DailyBooks.idle (hb : DailyBooks states calls s) (hrequested : requested s s' = [])
    (hcompleted : completed s s' = []) : DailyBooks states (⟨s, tx, s'⟩ :: calls) s := by
  have hreq : ∀ day, requestedOn (⟨s, tx, s'⟩ :: calls) day = requestedOn calls day := by
    intro day
    rw [requestedOn_cons, hrequested, tally_nil, ite_self, Nat.zero_add]
  have hcomp : ∀ day, completedOn (⟨s, tx, s'⟩ :: calls) day = completedOn calls day := by
    intro day
    rw [completedOn_cons, hcompleted, tally_nil, ite_self, Nat.zero_add]
  refine ⟨hb.current, ?_, ?_, ?_, ?_, ?_, hb.others⟩
  · exact fun day => (hb.spent day).trans (hreq day).symm
  · exact fun day => hreq day ▸ hb.spent_le day
  · exact fun day => (hb.executed day).trans (hcomp day).symm
  · exact fun day => hcomp day ▸ hb.executed_le day
  · refine List.forall_mem_cons.mpr ⟨⟨?_, ?_⟩, hb.each⟩
    · intro net hnet
      rw [hrequested] at hnet
      exact absurd hnet List.not_mem_nil
    · intro value hvalue
      rw [hcompleted] at hvalue
      exact absurd hvalue List.not_mem_nil

/-- A counter of days, the sums it stands for and their bounds, after `value` was added today. -/
theorem counter_step {count : UInt256 → UInt256} {today value total : UInt256} {booked booked' bound bound' :
      UInt256 → Nat} (htotal : SafeMath.add (count today) value = some total)
    (hcount : ∀ day, (count day).toNat = booked day)
    (hbooked : ∀ day, booked' day = (if today = day then value.toNat else 0) + booked day)
    (hle : ∀ day, booked day ≤ bound day) (hbound : ∀ day, bound day ≤ bound' day)
    (htoday : (count today).toNat + value.toNat ≤ bound' today) :
    (∀ day, (Function.update count today total day).toNat = booked' day) ∧ ∀ day, booked' day ≤ bound' day := by
  have hnat := SafeMath.add_eq_some.mp htotal
  constructor
  · intro day
    rw [hbooked]
    by_cases hday : today = day
    · rw [← hday, Function.update_self, if_pos rfl, ← hcount, hnat, Nat.add_comm]
    · rw [Function.update_of_ne (Ne.symm hday), if_neg hday, Nat.zero_add, hcount]
  · intro day
    rw [hbooked]
    by_cases hday : today = day
    · rw [← hday, if_pos rfl, ← hcount, Nat.add_comm]
      exact htoday
    · rw [if_neg hday, Nat.zero_add]
      exact Nat.le_trans (hle day) (hbound day)

/-- **One call** keeps the books. -/
theorem DailyBooks.call (hb : DailyBooks states calls s) (h : Booking s s' tx) :
    DailyBooks (s' :: states) (⟨s, tx, s'⟩ :: calls) s' := by
  obtain ⟨earlier, rfl⟩ := hb.current
  cases h with
  | withdrawn gross net total htx limit hnet htotal basic hrequested hcompleted =>
      obtain ⟨hdaily, hmin, hmax⟩ := withinLimit_eq_true limit
      have hreq : ∀ day, requestedOn (⟨s, tx, s'⟩ :: calls) day =
          (if s.getCurrentDay = day then net.toNat else 0) + requestedOn calls day := by
        intro day
        rw [requestedOn_cons, hrequested, tally_cons, tally_nil, Nat.add_zero]
      have hcomp : ∀ day, completedOn (⟨s, tx, s'⟩ :: calls) day = completedOn calls day := by
        intro day
        rw [completedOn_cons, hcompleted, tally_nil, ite_self, Nat.zero_add]
      -- what is counted is no more than what was checked
      have htoday : (s.bridge.basic.totalSpentPerDay s.getCurrentDay).toNat + net.toNat ≤
          largest (fun t => t.bridge.basic.dailyLimit) (s' :: s :: earlier) s.getCurrentDay := by
        have hlimit := le_largest (fun t => t.bridge.basic.dailyLimit)
          (show s ∈ s' :: s :: earlier from List.mem_cons_of_mem _ List.mem_cons_self)
        have hnat := BitVec.le_def.mp hnet
        omega
      obtain ⟨hspent, hle⟩ := counter_step htotal hb.spent hreq hb.spent_le (largest_cons _ s' _) htoday
      refine ⟨⟨_, rfl⟩, ?_, hle, ?_, ?_, ?_, List.isChain_cons_cons.mpr ⟨?_, hb.others⟩⟩
      · rw [basic]
        exact hspent
      · intro day
        rw [basic, hcomp]
        exact hb.executed day
      · intro day
        rw [hcomp]
        exact Nat.le_trans (hb.executed_le day) (largest_cons _ _ _ _)
      · refine List.forall_mem_cons.mpr ⟨⟨?_, ?_⟩, hb.each⟩
        · intro v hv
          rw [hrequested, List.mem_singleton] at hv
          exact ⟨gross, htx, hv ▸ hnet, hmin, hmax⟩
        · intro v hv
          rw [hcompleted] at hv
          exact absurd hv List.not_mem_nil
      · intro day hday
        rw [basic]
        exact ⟨Function.update_of_ne hday _ _, rfl⟩
  | executed value total htx limit htotal basic hrequested hcompleted =>
      obtain ⟨hdaily, hmax⟩ := withinExecutionLimit_eq_true limit
      have hreq : ∀ day, requestedOn (⟨s, tx, s'⟩ :: calls) day = requestedOn calls day := by
        intro day
        rw [requestedOn_cons, hrequested, tally_nil, ite_self, Nat.zero_add]
      have hcomp : ∀ day, completedOn (⟨s, tx, s'⟩ :: calls) day =
          (if s.getCurrentDay = day then value.toNat else 0) + completedOn calls day := by
        intro day
        rw [completedOn_cons, hcompleted, tally_cons, tally_nil, Nat.add_zero]
      have htoday : (s.bridge.basic.totalExecutedPerDay s.getCurrentDay).toNat + value.toNat ≤
          largest (fun t => t.bridge.basic.executionDailyLimit) (s' :: s :: earlier) s.getCurrentDay :=
        Nat.le_trans hdaily (le_largest (fun t => t.bridge.basic.executionDailyLimit)
          (List.mem_cons_of_mem _ List.mem_cons_self))
      obtain ⟨hexecuted, hle⟩ := counter_step htotal hb.executed hcomp hb.executed_le (largest_cons _ s' _) htoday
      refine ⟨⟨_, rfl⟩, ?_, ?_, ?_, hle, ?_, List.isChain_cons_cons.mpr ⟨?_, hb.others⟩⟩
      · intro day
        rw [basic, hreq]
        exact hb.spent day
      · intro day
        rw [hreq]
        exact Nat.le_trans (hb.spent_le day) (largest_cons _ _ _ _)
      · rw [basic]
        exact hexecuted
      · refine List.forall_mem_cons.mpr ⟨⟨?_, ?_⟩, hb.each⟩
        · intro v hv
          rw [hrequested] at hv
          exact absurd hv List.not_mem_nil
        · intro v hv
          rw [hcompleted, List.mem_singleton] at hv
          rw [hv]
          exact ⟨htx, hmax⟩
      · intro day hday
        rw [basic]
        exact ⟨rfl, Function.update_of_ne hday _ _⟩
  | idle spent executed hrequested hcompleted =>
      exact (hb.idle hrequested hcompleted).aside spent executed

variable [DecidableEq H] {K : CollisionFree H} {ecrecover : Ecrecover H} {V : HomeVariant}

omit [DecidableEq H] in
theorem Aside.same (h : Aside s s') : s'.bridge.basic = s.bridge.basic := by
  cases h with
  | tick now txHash _ => rfl
  | validators _ => rfl
  | elsewhere h =>
      obtain ⟨w, rfl⟩ := h
      rfl

/-- **Daily limits.** Along every history of a bridge that starts with empty counters: on every day, the counter
    of the withdrawals is the sum of the net values requested, and that of the affirmations the sum of the
    values completed; neither sum is above the largest limit of the day; each withdrawal and each affirmation
    kept the limits on a transaction; and no state touches the counters of other days. -/
theorem daily_limits {s₀ : Home H W} (hspent : ∀ day, s₀.bridge.basic.totalSpentPerDay day = 0)
    (hexecuted : ∀ day, s₀.bridge.basic.totalExecutedPerDay day = 0)
    (h : History K ecrecover V s₀ states calls s) : DailyBooks states calls s := by
  induction h with
  | start =>
      have hnone : ∀ day, requestedOn ([] : List (Accepted H W)) day = 0 ∧
          completedOn ([] : List (Accepted H W)) day = 0 := fun _ => ⟨rfl, rfl⟩
      refine ⟨⟨[], rfl⟩, ?_, ?_, ?_, ?_, ?_, .singleton _⟩
      · intro day
        rw [hspent, (hnone day).1]
        rfl
      · intro day
        rw [(hnone day).1]
        exact Nat.zero_le _
      · intro day
        rw [hexecuted, (hnone day).2]
        rfl
      · intro day
        rw [(hnone day).2]
        exact Nat.zero_le _
      · intro a ha
        exact absurd ha List.not_mem_nil
  | call _ hcall hexec hdaily ih => exact ih.call (exec_booking hcall hdaily hexec)
  | aside _ hmove ih =>
      apply ih.aside
      · rw [hmove.same]
      · rw [hmove.same]

/-- On the first day 100 arrive and, less a fee of 10, 90 are requested, and 60 are affirmed; the owner then
    sets the limits to zero, and the next day begins. -/
theorem daily_limits_two_days : ∃ (states : List (Home (List Byte) Unit)) (calls : List (Accepted (List Byte) Unit))
    (s : Home (List Byte) Unit), DailyBooks states calls s ∧ requestedOn calls 0 = 90 ∧ completedOn calls 0 = 60 ∧
      s.getCurrentDay = 1 := by
  have heval : (do
      let v ← BridgeValidators.blank.initializeWith 1 [1] 9
      let s₀ := { sampleHome () with validators := v }
      let s₁ ← exec serialHash noSigner .ercToErcWithFee obliging s₀ (.setting 9 (.setWithdrawFixedFee 10))
      let s₂ ← exec serialHash noSigner .ercToErcWithFee obliging s₁ (.onTokenTransfer 5 33 100)
      let s₃ ← exec serialHash noSigner .ercToErcWithFee obliging s₂ (.executeAffirmation 1 34 60 77)
      let s₄ ← exec serialHash noSigner .ercToErcWithFee obliging s₃ (.setting 9 (.basic (.setDailyLimit 0)))
      let calls : List (Accepted (List Byte) Unit) :=
        [⟨s₃, .setting 9 (.basic (.setDailyLimit 0)), s₄⟩, ⟨s₂, .executeAffirmation 1 34 60 77, s₃⟩,
          ⟨s₁, .onTokenTransfer 5 33 100, s₂⟩, ⟨s₀, .setting 9 (.setWithdrawFixedFee 10), s₁⟩]
      pure (requestedOn calls 0, completedOn calls 0, s₄.now)) = some (90, 60, 0) := by
    decide +kernel
  simp only [Option.bind_eq_bind, Option.bind_eq_some_iff, Option.pure_def, Option.some.injEq,
    Prod.mk.injEq] at heval
  obtain ⟨v, _, s₁, h₁, s₂, h₂, s₃, h₃, s₄, h₄, hrequested, hcompleted, hnow⟩ := heval
  have hday := ((((History.start.call obliging_within h₁ trivial).call obliging_within h₂ trivial).call
    obliging_within h₃ trivial).call obliging_within h₄ trivial).aside
      (.tick days 0 (by rw [hnow]; decide))
  exact ⟨_, _, _, daily_limits (fun _ => rfl) (fun _ => rfl) hday, hrequested, hcompleted,
    show days / days = 1 by decide⟩

end Books

end Home
end ThunderBridge
