import ThunderBridge.Contracts.ValidatorSet

/-!
# `Monitor.Validators` — comparing the validators of the two chains

The monitor has no view of `BridgeValidators` that returns the set. `getValidatorList` reads the `ValidatorAdded`
events of some blocks and keeps the addresses that are validators now; `main` asks for the blocks around the
deployment and reports whether the two lists have the same members.

A chain is given by its history, which is the transactions to `BridgeValidators` with their blocks. The list is the
set exactly when every current validator was added once in the blocks asked for (`validators_match_iff`).
-/

namespace ThunderBridge
namespace Monitor
namespace Validators

open BridgeValidators

/-! ## The chain -/

/-- `BridgeValidators` on one chain, and its events with their blocks, the oldest first. -/
structure ValidatorChain where
  contract : BridgeValidators
  events : List (Nat × ValidatorsEvent)

namespace ValidatorChain

/-- A transaction in a block; the events that it adds to the log become events of the block. -/
def transact (c : ValidatorChain) (block : Nat) (op : Op) : ValidatorChain where
  contract := c.contract.transact op
  events :=
    let log := (c.contract.transact op).log
    c.events ++ (log.take (log.length - c.contract.log.length)).reverse.map fun event => (block, event)

def deployed : ValidatorChain := ⟨blank, []⟩

/-- The chain after the transactions of a history, each with its block. -/
def history (ops : List (Nat × Op)) : ValidatorChain :=
  ops.foldl (fun c op => c.transact op.1 op.2) deployed

/-- The event adds `v`, in one of the blocks. -/
def addsIn (fromBlock toBlock : Int) (v : Address) (event : Nat × ValidatorsEvent) : Bool :=
  event.2 = .ValidatorAdded v ∧ fromBlock ≤ event.1 ∧ event.1 ≤ toBlock

/-- `returnValues.validator` of the `ValidatorAdded` events in the blocks. -/
def addedIn (c : ValidatorChain) (fromBlock toBlock : Int) : List Address :=
  c.events.filterMap fun event =>
    match event.2 with
    | .ValidatorAdded v => if fromBlock ≤ event.1 ∧ event.1 ≤ toBlock then some v else none
    | .ValidatorRemoved _ => none
    | .RequiredSignaturesChanged _ => none

end ValidatorChain

/-- What the monitor meets on one chain. -/
structure Side where
  /-- The transactions to `BridgeValidators` so far. -/
  ops : List (Nat × Op)
  /-- `HOME_DEPLOYMENT_BLOCK` or `FOREIGN_DEPLOYMENT_BLOCK`. -/
  deploymentBlock : Int
  /-- The node's answer when the blocks asked for start below zero; nodes that refuse answer `none`. -/
  belowZero : Option (List Address)
  getBalance : Address → Nat
  /-- The two values that `getGasPrices` returns. -/
  gasPriceInGwei : Rat
  gasPrice : Nat

namespace Side

def chain (side : Side) : ValidatorChain := .history side.ops

def isValidator (side : Side) (v : Address) : Bool := side.chain.contract.isValidator v

/-- `validatorsContract.getPastEvents("ValidatorAdded", { fromBlock, toBlock })`. -/
def getPastEvents (side : Side) (fromBlock toBlock : Int) : Option (List Address) :=
  if fromBlock < 0 then side.belowZero else some (side.chain.addedIn fromBlock toBlock)

end Side

/-! ## `validatorUtils.js` -/

/-- `array.filter(entry => bits.shift())`; the shift of an empty array is falsy. -/
def filterShifting {α : Type} : List α → List Bool → List α
  | [], _ => []
  | _ :: array, [] => filterShifting array []
  | entry :: array, bit :: bits =>
      if bit then entry :: filterShifting array bits else filterShifting array bits

def filterAsync {α : Type} (array : List α) (filter : α → Bool) : List α :=
  filterShifting array (array.map filter)

def getValidatorList (side : Side) (fromBlock toBlock : Int) : Option (List Address) := do
  let validators ← side.getPastEvents fromBlock toBlock
  pure (filterAsync validators side.isValidator)

/-! ## `validators.js` -/

/-- An entry of `homeVBalances` or `foreignVBalances`; the balance is in wei. -/
structure VBalance where
  balance : Nat
  leftTx : Nat
  gasPrice : Rat
  /-- `onlyOnHome` or `onlyOnForeign`. -/
  onlyHere : Bool

/-- The two variables that the loops of `main` write. -/
structure Comparison where
  vBalances : Address → Option VBalance
  validatorsMatch : Bool

/-- One round of a loop; dividing by a zero `txCost` throws. -/
def compareValidator (side : Side) (gasLimit : Nat) (others : List Address) (c : Comparison) (v : Address) :
    Option Comparison := do
  let txCost := side.gasPrice * gasLimit
  let balance := side.getBalance v
  require (txCost ≠ 0)
  let entry : VBalance := ⟨balance, balance / txCost, side.gasPriceInGwei, false⟩
  if !others.contains v then
    pure ⟨Function.update c.vBalances v (some { entry with onlyHere := true }), false⟩
  else pure { c with vBalances := Function.update c.vBalances v (some entry) }

/-- `asyncForEach(homeValidators, …)` and `asyncForEach(foreignValidators, …)`. -/
def compareValidators (side : Side) (gasLimit : Nat) (validators others : List Address) (validatorsMatch : Bool) :
    Option Comparison :=
  validators.foldlM (compareValidator side gasLimit others) ⟨fun _ => none, validatorsMatch⟩

structure SideReport where
  validators : Address → Option VBalance
  requiredSignatures : Nat

structure Report where
  home : SideReport
  foreign : SideReport
  requiredSignaturesMatch : Bool
  validatorsMatch : Bool
  lastChecked : Nat

/-- The list that `main` asks for: that of the blocks around the deployment. -/
def Side.validatorList (side : Side) : Option (List Address) :=
  getValidatorList side (side.deploymentBlock - 1000) (side.deploymentBlock + 1000)

/-- `main`, where `now` is `Date.now()`; `none` when something throws. -/
def main (home foreign : Side) (gasLimit now : Nat) : Option Report := do
  let foreignValidators ← foreign.validatorList
  let homeValidators ← home.validatorList
  let onForeign ← compareValidators foreign gasLimit foreignValidators homeValidators true
  let onHome ← compareValidators home gasLimit homeValidators foreignValidators onForeign.validatorsMatch
  let reqSigHome := home.chain.contract.requiredSignatures
  let reqSigForeign := foreign.chain.contract.requiredSignatures
  pure {
    home := ⟨onHome.vBalances, reqSigHome.toNat⟩
    foreign := ⟨onForeign.vBalances, reqSigForeign.toNat⟩
    requiredSignaturesMatch := reqSigHome == reqSigForeign
    validatorsMatch := onHome.validatorsMatch
    lastChecked := now / 1000 }

/-! ## What the comparison is for -/

/-- The list is the current validator set, without duplicates. -/
def Side.ListsExactly (side : Side) : Prop :=
  ∃ vs, side.validatorList = some vs ∧ vs.Nodup ∧ ∀ v, v ∈ vs ↔ side.isValidator v = true

/-- Both lists are exact, and a report says that the validators match if and only if they do. -/
structure ComparisonSound (home foreign : Side) (gasLimit now : Nat) : Prop where
  home_exact : home.ListsExactly
  foreign_exact : foreign.ListsExactly
  match_iff : ∀ report, main home foreign gasLimit now = some report →
    (report.validatorsMatch = true ↔ ∀ v, home.isValidator v = foreign.isValidator v)

/-- Each current validator was added once in the blocks around the deployment. (Where these start below zero, it
    is once in what the node answers.) -/
def Side.AddedOnce (side : Side) : Prop :=
  if side.deploymentBlock < 1000 then
    ∃ vs, side.belowZero = some vs ∧ ∀ v, side.isValidator v = true → vs.count v = 1
  else
    ∀ v, side.isValidator v = true → side.chain.events.countP
      (ValidatorChain.addsIn (side.deploymentBlock - 1000) (side.deploymentBlock + 1000) v) = 1

/-! ## The log -/

/-- The log of `s'` is the one of `s` and more, and it has an event for each validator that is new. -/
structure Logged (s s' : BridgeValidators) : Prop where
  grows : ∃ new, s'.log = new ++ s.log
  added : ∀ v, s'.validators v = true → s.validators v = true ∨ .ValidatorAdded v ∈ s'.log

theorem Logged.refl (s : BridgeValidators) : Logged s s := ⟨⟨[], rfl⟩, fun _ => Or.inl⟩

theorem Logged.trans {s₁ s₂ s₃ : BridgeValidators} (h₁ : Logged s₁ s₂) (h₂ : Logged s₂ s₃) : Logged s₁ s₃ := by
  obtain ⟨new₁, hlog₁⟩ := h₁.grows
  obtain ⟨new₂, hlog₂⟩ := h₂.grows
  refine ⟨⟨new₂ ++ new₁, by rw [hlog₂, hlog₁, List.append_assoc]⟩, ?_⟩
  intro v hv
  rcases h₂.added v hv with hv₂ | hnew
  · rcases h₁.added v hv₂ with hv₁ | hold
    · exact Or.inl hv₁
    · exact Or.inr (hlog₂ ▸ List.mem_append_right new₂ hold)
  · exact Or.inr hnew

/-- A change that emits one event, and adds a validator only with its `ValidatorAdded`. -/
theorem Logged.emit {s t : BridgeValidators} {event : ValidatorsEvent} (hlog : t.log = s.log)
    (hflags : ∀ v, t.validators v = true → s.validators v = true ∨ event = .ValidatorAdded v) :
    Logged s (t.emit event) := by
  refine ⟨⟨[event], by rw [BridgeValidators.emit, hlog, List.singleton_append]⟩, ?_⟩
  intro v hv
  refine (hflags v hv).imp id fun hevent => ?_
  rw [BridgeValidators.emit, hevent]
  exact List.mem_cons_self

theorem initializeFrom_logged : ∀ {vs : List Address} {i : UInt256} {s s' : BridgeValidators},
    initializeFrom vs i s = some s' → Logged s s' := by
  intro vs
  induction vs with
  | nil =>
      intro i s s' h
      obtain rfl : s = s' := by simpa [initializeFrom] using h
      exact Logged.refl s
  | cons v vs ih =>
      intro i s s' h
      simp only [initializeFrom, Option.bind_eq_bind, Option.bind_eq_some_iff, require_eq_some, exists_const] at h
      obtain ⟨_, _, n, _, h⟩ := h
      refine Logged.trans (Logged.emit (by simp [putValidatorToList, setValidator, setValidatorCount]) ?_) (ih h)
      intro w hw
      by_cases hwv : w = v
      · exact Or.inr (hwv ▸ rfl)
      · left
        simpa [putValidatorToList, setValidator, setValidatorCount, hwv] using hw

theorem removeFromList_log {v : Address} {c : UInt256} {s s' : BridgeValidators} : ∀ {k : Nat} {i : UInt256},
    removeFromList s v c k i = some s' → s'.log = s.log := by
  intro k
  induction k with
  | zero =>
      intro i h
      obtain rfl : s = s' := by simpa [removeFromList] using h
      rfl
  | succ k ih =>
      intro i h
      unfold removeFromList at h
      split at h
      · simp only [Option.bind_eq_bind, Option.bind_eq_some_iff, Option.pure_def, Option.some.injEq] at h
        obtain ⟨_, _, rfl⟩ := h
        rfl
      · exact ih h

/-- **One transaction** adds to the log, and logs the validators that it adds. -/
theorem run_logged {s s' : BridgeValidators} {op : Op} (h : s.run op = some s') : Logged s s' := by
  cases op with
  | initializeWith n vs owner =>
      simp only [run, initializeWith, Option.bind_eq_bind, Option.bind_eq_some_iff, require_eq_some, exists_const,
        Option.pure_def, Option.some.injEq] at h
      obtain ⟨_, _, _, _, t, ht, rfl⟩ := h
      have hloop := initializeFrom_logged ht
      have hstart : Logged s t := ⟨hloop.grows, hloop.added⟩
      exact hstart.trans (Logged.emit (t := { t with requiredSignatures := n, isInitialized := true }) rfl
        fun _ => Or.inl)
  | addValidator sender v =>
      simp only [run, addValidator, Option.bind_eq_bind, Option.bind_eq_some_iff, require_eq_some, exists_const,
        Option.pure_def, Option.some.injEq] at h
      obtain ⟨_, _, _, n, _, rfl⟩ := h
      refine Logged.emit (by simp [setValidatorCount, setValidator, putValidatorToList]) ?_
      intro w hw
      by_cases hwv : w = v
      · exact Or.inr (hwv ▸ rfl)
      · left
        simpa [putValidatorToList, setValidator, setValidatorCount, hwv] using hw
  | removeValidator sender v =>
      simp only [run, removeValidator, Option.bind_eq_bind, Option.bind_eq_some_iff, require_eq_some, exists_const,
        Option.pure_def, Option.some.injEq] at h
      obtain ⟨_, _, _, t, ht, n, _, rfl⟩ := h
      have hlog : t.log = s.log := removeFromList_log ht
      refine Logged.emit hlog ?_
      intro w hw
      left
      rw [← (removeFromList_frame ht).1]
      by_cases hwv : w = v
      · simp [setValidatorCount, setValidator, hwv] at hw
      · simpa [setValidatorCount, setValidator, hwv] using hw
  | setRequiredSignatures sender n =>
      simp only [run, setRequiredSignatures, Option.bind_eq_bind, Option.bind_eq_some_iff,
        require_eq_some, exists_const, Option.pure_def, Option.some.injEq] at h
      obtain ⟨_, _, _, rfl⟩ := h
      exact Logged.emit (t := { s with requiredSignatures := n }) rfl fun _ => Or.inl

theorem transact_logged (s : BridgeValidators) (op : Op) : Logged s (s.transact op) := by
  unfold BridgeValidators.transact
  cases h : s.run op with
  | none => exact Logged.refl s
  | some s' => exact run_logged h

namespace ValidatorChain

/-- The events of the chain are its log, and there is one for each validator. -/
structure Faithful (c : ValidatorChain) : Prop where
  events_eq : c.events.map Prod.snd = c.contract.log.reverse
  added : ∀ v, c.contract.validators v = true → .ValidatorAdded v ∈ c.contract.log

theorem deployed_faithful : deployed.Faithful := ⟨rfl, fun v hv => absurd hv (by simp [deployed, blank])⟩

theorem transact_faithful {c : ValidatorChain} (hc : c.Faithful) (block : Nat) (op : Op) :
    (c.transact block op).Faithful := by
  have hlogged := transact_logged c.contract op
  obtain ⟨new, hnew⟩ := hlogged.grows
  refine ⟨?_, ?_⟩
  · show (c.events ++ _).map Prod.snd = (c.contract.transact op).log.reverse
    rw [List.map_append, hc.events_eq, hnew, List.length_append, Nat.add_sub_cancel, List.take_left,
      List.map_map, List.reverse_append]
    congr 1
    exact List.map_id _
  · intro v hv
    rcases hlogged.added v hv with hold | hadded
    · show _ ∈ (c.contract.transact op).log
      rw [hnew]
      exact List.mem_append_right new (hc.added v hold)
    · exact hadded

theorem foldl_faithful : ∀ {ops : List (Nat × Op)} {c : ValidatorChain}, c.Faithful →
    (ops.foldl (fun c op => c.transact op.1 op.2) c).Faithful := by
  intro ops
  induction ops with
  | nil => intro c hc; exact hc
  | cons op ops ih => intro c hc; exact ih (transact_faithful hc op.1 op.2)

/-- **In every history** the events are those of the contract, and every current validator was added by one. -/
theorem history_faithful (ops : List (Nat × Op)) : (history ops).Faithful := foldl_faithful deployed_faithful

/-! ## The list -/

theorem count_addedIn (c : ValidatorChain) (fromBlock toBlock : Int) (v : Address) :
    (c.addedIn fromBlock toBlock).count v = c.events.countP (addsIn fromBlock toBlock v) := by
  unfold addedIn
  rw [List.count_filterMap]
  apply List.countP_congr
  rintro ⟨block, event⟩ _
  cases event with
  | ValidatorAdded w =>
      by_cases hin : fromBlock ≤ (block : Int) ∧ (block : Int) ≤ toBlock
      · simp [addsIn, hin]
      · simp [addsIn, hin]
  | ValidatorRemoved w => simp [addsIn]
  | RequiredSignaturesChanged n => simp [addsIn]

end ValidatorChain

theorem filterShifting_map {α : Type} (array : List α) (filter : α → Bool) :
    filterShifting array (array.map filter) = array.filter filter := by
  induction array with
  | nil => rfl
  | cons entry array ih =>
      rw [List.map_cons, filterShifting, ih, List.filter_cons]

/-- The bits are taken in the order of the entries, so `filterAsync` filters. -/
theorem filterAsync_eq {α : Type} (array : List α) (filter : α → Bool) :
    filterAsync array filter = array.filter filter := filterShifting_map array filter

theorem getValidatorList_eq (side : Side) (fromBlock toBlock : Int) :
    getValidatorList side fromBlock toBlock =
      (side.getPastEvents fromBlock toBlock).map (·.filter side.isValidator) := by
  unfold getValidatorList
  cases side.getPastEvents fromBlock toBlock with
  | none => rfl
  | some validators => exact congrArg some (filterAsync_eq validators side.isValidator)

/-- The list is exact just when every current validator is named once by what the node answers. -/
theorem listsExactly_iff (side : Side) : side.ListsExactly ↔
    ∃ vs, side.getPastEvents (side.deploymentBlock - 1000) (side.deploymentBlock + 1000) = some vs ∧
      ∀ v, side.isValidator v = true → vs.count v = 1 := by
  unfold Side.ListsExactly Side.validatorList
  rw [getValidatorList_eq]
  constructor
  · rintro ⟨vs, hvs, hnodup, hmem⟩
    obtain ⟨validators, hanswer, rfl⟩ := Option.map_eq_some_iff.mp hvs
    refine ⟨validators, hanswer, ?_⟩
    intro v hv
    rw [← List.count_filter hv]
    exact List.count_eq_one_of_mem hnodup ((hmem v).mpr hv)
  · rintro ⟨validators, hanswer, honce⟩
    refine ⟨validators.filter side.isValidator, by rw [hanswer, Option.map_some], ?_, ?_⟩
    · rw [List.nodup_iff_count_le_one]
      intro v
      cases hv : side.isValidator v with
      | true =>
          rw [List.count_filter hv]
          exact (honce v hv).le
      | false =>
          rw [List.count_eq_zero_of_not_mem]
          · exact Nat.zero_le 1
          · intro hin
            exact Bool.false_ne_true (hv.symm.trans (List.mem_filter.mp hin).2)
    · intro v
      rw [List.mem_filter]
      refine ⟨And.right, fun hv => ⟨?_, hv⟩⟩
      apply List.count_pos_iff.mp
      rw [honce v hv]
      exact Nat.one_pos

theorem addedOnce_iff (side : Side) : side.ListsExactly ↔ side.AddedOnce := by
  rw [listsExactly_iff]
  unfold Side.AddedOnce Side.getPastEvents
  by_cases hblock : side.deploymentBlock < 1000
  · rw [if_pos hblock, if_pos (by omega)]
  · rw [if_neg hblock, if_neg (by omega)]
    simp only [Option.some.injEq, exists_eq_left', ValidatorChain.count_addedIn]

/-! ## The comparison -/

section Comparison

variable {side : Side} {gasLimit : Nat} {others : List Address}

/-- One round lowers the flag for a validator that the other list does not have, and never raises it. -/
theorem compareValidator_match {c c' : Comparison} {v : Address}
    (h : compareValidator side gasLimit others c v = some c') :
    c'.validatorsMatch = true ↔ c.validatorsMatch = true ∧ v ∈ others := by
  simp only [compareValidator, Option.bind_eq_bind, Option.bind_eq_some_iff, require_eq_some, exists_const] at h
  obtain ⟨_, h⟩ := h
  by_cases hv : v ∈ others
  · rw [if_neg (by simpa using hv)] at h
    obtain rfl := Option.some.inj h
    simp [hv]
  · rw [if_pos (by simpa using hv)] at h
    obtain rfl := Option.some.inj h
    simp [hv]

theorem foldlM_compareValidator_match : ∀ {validators : List Address} {c c' : Comparison},
    validators.foldlM (compareValidator side gasLimit others) c = some c' →
      (c'.validatorsMatch = true ↔ c.validatorsMatch = true ∧ ∀ v ∈ validators, v ∈ others) := by
  intro validators
  induction validators with
  | nil =>
      intro c c' h
      obtain rfl : c = c' := Option.some.inj h
      simp
  | cons v validators ih =>
      intro c c' h
      rw [List.foldlM_cons, Option.bind_eq_bind, Option.bind_eq_some_iff] at h
      obtain ⟨d, hd, h⟩ := h
      rw [ih h, compareValidator_match hd, List.forall_mem_cons, and_assoc]

/-- With a price and a limit on gas nothing divides by zero. -/
theorem foldlM_compareValidator_isSome (hcost : side.gasPrice * gasLimit ≠ 0) (others : List Address) :
    ∀ (validators : List Address) (c : Comparison),
      ∃ c', validators.foldlM (compareValidator side gasLimit others) c = some c' := by
  intro validators
  induction validators with
  | nil => intro c; exact ⟨c, rfl⟩
  | cons v validators ih =>
      intro c
      obtain ⟨d, hd⟩ : ∃ d, compareValidator side gasLimit others c v = some d := by
        rw [compareValidator, require_pos hcost]
        by_cases hv : v ∈ others
        · exact ⟨_, if_neg (by simpa using hv)⟩
        · exact ⟨_, if_pos (by simpa using hv)⟩
      obtain ⟨c', hc'⟩ := ih d
      exact ⟨c', by rw [List.foldlM_cons, hd]; exact hc'⟩

end Comparison

section Main

variable {home foreign : Side} {gasLimit now : Nat}

/-- The flag of a report compares the two lists as sets. -/
theorem main_match {report : Report} (h : main home foreign gasLimit now = some report) :
    ∃ homeValidators foreignValidators, home.validatorList = some homeValidators ∧
      foreign.validatorList = some foreignValidators ∧
      (report.validatorsMatch = true ↔ ∀ v, v ∈ homeValidators ↔ v ∈ foreignValidators) := by
  simp only [main, compareValidators, Option.bind_eq_bind, Option.bind_eq_some_iff, Option.pure_def,
    Option.some.injEq] at h
  obtain ⟨foreignValidators, hforeign, homeValidators, hhome, onForeign, honForeign, onHome, honHome, rfl⟩ := h
  refine ⟨homeValidators, foreignValidators, hhome, hforeign, ?_⟩
  show onHome.validatorsMatch = true ↔ _
  rw [foldlM_compareValidator_match honHome, foldlM_compareValidator_match honForeign]
  constructor
  · rintro ⟨⟨_, hback⟩, hforth⟩ v
    exact ⟨hforth v, hback v⟩
  · intro hsame
    exact ⟨⟨rfl, fun v => (hsame v).mpr⟩, fun v => (hsame v).mp⟩

/-- A report is made whenever both nodes answer and gas costs something. -/
theorem main_isSome (hhome : home.validatorList.isSome) (hforeign : foreign.validatorList.isSome)
    (hhomeCost : home.gasPrice * gasLimit ≠ 0) (hforeignCost : foreign.gasPrice * gasLimit ≠ 0) :
    (main home foreign gasLimit now).isSome := by
  obtain ⟨homeValidators, hhome⟩ := Option.isSome_iff_exists.mp hhome
  obtain ⟨foreignValidators, hforeign⟩ := Option.isSome_iff_exists.mp hforeign
  obtain ⟨onForeign, honForeign⟩ := foldlM_compareValidator_isSome hforeignCost homeValidators
    foreignValidators ⟨fun _ => none, true⟩
  obtain ⟨onHome, honHome⟩ := foldlM_compareValidator_isSome hhomeCost foreignValidators
    homeValidators ⟨fun _ => none, onForeign.validatorsMatch⟩
  simp only [main, hforeign, hhome, compareValidators, honForeign, honHome, Option.bind_eq_bind, Option.bind_some,
    Option.pure_def, Option.isSome_some]

/-- Exact lists are compared as the sets are. -/
theorem comparisonSound_of_exact (hhome : home.ListsExactly) (hforeign : foreign.ListsExactly) :
    ComparisonSound home foreign gasLimit now := by
  refine ⟨hhome, hforeign, ?_⟩
  intro report hreport
  obtain ⟨homeValidators, foreignValidators, hhomeList, hforeignList, hmatch⟩ := main_match hreport
  obtain ⟨vs, hvs, _, hhomeMem⟩ := hhome
  obtain ⟨ws, hws, _, hforeignMem⟩ := hforeign
  obtain rfl : vs = homeValidators := Option.some.inj (hvs.symm.trans hhomeList)
  obtain rfl : ws = foreignValidators := Option.some.inj (hws.symm.trans hforeignList)
  rw [hmatch]
  refine forall_congr' fun v => ?_
  rw [hhomeMem v, hforeignMem v, ← Bool.eq_iff_iff]

/-- **The comparison is sound** for the histories in which, on each chain, every current validator was added once in
    the blocks around the deployment, and for no other. -/
theorem validators_match_iff (home foreign : Side) (gasLimit now : Nat) :
    ComparisonSound home foreign gasLimit now ↔ home.AddedOnce ∧ foreign.AddedOnce := by
  rw [← addedOnce_iff, ← addedOnce_iff]
  constructor
  · intro h
    exact ⟨h.home_exact, h.foreign_exact⟩
  · rintro ⟨hhome, hforeign⟩
    exact comparisonSound_of_exact hhome hforeign

end Main

/-! ## Histories -/

/-- A chain whose validators were all added in those blocks, none of them twice, is listed exactly. -/
theorem addedOnce_of_window {side : Side} (hblock : 1000 ≤ side.deploymentBlock)
    (hin : ∀ event ∈ side.chain.events,
      side.deploymentBlock - 1000 ≤ event.1 ∧ event.1 ≤ side.deploymentBlock + 1000)
    (honce : ∀ v, (side.chain.events.map Prod.snd).count (.ValidatorAdded v) ≤ 1) : side.AddedOnce := by
  rw [Side.AddedOnce, if_neg (by omega)]
  intro v hv
  have hfaithful : side.chain.Faithful := ValidatorChain.history_faithful side.ops
  have hsame : side.chain.events.countP (ValidatorChain.addsIn (side.deploymentBlock - 1000)
      (side.deploymentBlock + 1000) v) = (side.chain.events.map Prod.snd).count (.ValidatorAdded v) := by
    rw [List.count, List.countP_map]
    apply List.countP_congr
    intro event hevent
    simp [ValidatorChain.addsIn, hin event hevent]
  rw [hsame]
  refine le_antisymm (honce v) ?_
  rw [hfaithful.events_eq]
  apply List.count_pos_iff.mpr
  rw [List.mem_reverse]
  exact hfaithful.added v (by simpa [Side.isValidator] using hv)

/-- A chain deployed in block 2000 with the validators 1 and 2. -/
def deployedSide : Side where
  ops := [(2000, .initializeWith 1 [1, 2] 9)]
  deploymentBlock := 2000
  belowZero := none
  getBalance := fun _ => 100
  gasPriceInGwei := 1
  gasPrice := 1000000000

/-- The same chain after its owner added validator 3 in block 7000. -/
def grownSide : Side :=
  { deployedSide with ops := deployedSide.ops ++ [(7000, .addValidator 9 3)] }

/-- The home chain has a validator that the foreign chain does not have, and the report says that they match. -/
theorem late_validator_unnoticed :
    ¬ ComparisonSound grownSide deployedSide 50000 0 ∧
    (main grownSide deployedSide 50000 0).map Report.validatorsMatch = some true ∧
    grownSide.isValidator 3 = true ∧ deployedSide.isValidator 3 = false := by
  have hmatch : (main grownSide deployedSide 50000 0).map Report.validatorsMatch = some true := by decide +kernel
  have hhome : grownSide.isValidator 3 = true := by decide +kernel
  have hforeign : deployedSide.isValidator 3 = false := by decide +kernel
  refine ⟨?_, hmatch, hhome, hforeign⟩
  intro hsound
  obtain ⟨report, hreport, htrue⟩ := Option.map_eq_some_iff.mp hmatch
  have hsame := (hsound.match_iff report hreport).mp htrue 3
  rw [hhome, hforeign] at hsame
  exact absurd hsame (by decide)

end Validators
end Monitor
end ThunderBridge
