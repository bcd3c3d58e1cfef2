import ThunderBridge.Lib.Traces
import ThunderBridge.Monitor.Logs
import Mathlib.Algebra.BigOperators.Ring.Finset

/-!
# `Monitor.EventStats` — the totals of the monitor

`getShortEventStats` adds the new events of four kinds to totals that it keeps in redis, together with the last
block it has processed on each chain. A run starts after those blocks and goes up to the heads that the nodes
report. It ends with six commands to redis, which carries out some of them, in this order, if the process is
stopped.

`Exact` says that the totals are those of the events up to the stored blocks. `totals_exact_iff` says in which
runs they always are: where every run that comes to its commands is `Fit`.
-/

namespace ThunderBridge
namespace Monitor

open Ranges

/-! ## The source -/

/-- What `processEvents` reads of an event. -/
structure Event where
  event : String
  value : Nat
  /-- `returnValues.recipient`, which a `Transfer` does not have. -/
  recipient : Option String
  /-- `returnValues.from`. -/
  sender : String
deriving DecidableEq, Repr

structure ProcessedResult where
  value : Nat
  length : Nat
  /-- A `Set`, in the order of insertion. -/
  users : List String
deriving DecidableEq, Repr

/-- `users.add`. -/
def addUser (users : List String) (user : String) : List String :=
  if user ∈ users then users else users ++ [user]

/-- One round of `processEvents`; the length is added for all events of a promise at once, to the same end. -/
def ProcessedResult.add (processedResult : ProcessedResult) (event : Event) : ProcessedResult where
  value := processedResult.value + event.value
  length := processedResult.length + 1
  users :=
    match event.recipient with
    | some recipient => addUser processedResult.users recipient
    | none =>
        if event.event = "Transfer" then addUser processedResult.users event.sender else processedResult.users

def initCacheObject : Option ProcessedResult → ProcessedResult
  | none => ⟨0, 0, []⟩
  | some cachedObj => ⟨cachedObj.value, cachedObj.length, cachedObj.users.foldl addUser []⟩

inductive Chain where
  | home
  | foreign
deriving DecidableEq, Repr

inductive Kind where
  | homeDeposit
  | homeWithdrawal
  | foreignDeposit
  | foreignWithdrawal
deriving DecidableEq, Repr

def Kind.chain : Kind → Chain
  | homeDeposit | homeWithdrawal => .home
  | foreignDeposit | foreignWithdrawal => .foreign

/-- The keys of one token in redis. -/
structure Redis where
  processedResult : Kind → Option ProcessedResult
  processedBlock : Chain → Option Nat

inductive Command where
  | storeProcessedResult (name : Kind) (obj : ProcessedResult)
  | storeProcessedBlock (chain : Chain) (block : Nat)

def Redis.carryOut (redis : Redis) : Command → Redis
  | .storeProcessedResult name obj =>
      { redis with processedResult := Function.update redis.processedResult name (some obj) }
  | .storeProcessedBlock chain block =>
      { redis with processedBlock := Function.update redis.processedBlock chain (some block) }

/-- What one run meets. -/
structure Run (σ : Type) where
  /-- What the answers of the nodes depend on, at the start. -/
  state : σ
  /-- The calls before the first fetch: `erc20token`, the type of the token and the numbers of the blocks. -/
  connect : Promise σ Unit
  /-- What `getBlockNumber` reports. -/
  blockNumber : Chain → Nat
  /-- The answers to `contract.getPastEvents` for the events of one kind. -/
  query : Kind → Nat → Nat → Promise σ (List Event)
  fuel : Nat
  /-- How many commands redis carries out. -/
  written : Nat

variable {σ : Type} (deploymentBlock : Chain → Nat)

def startBlock (redis : Redis) (chain : Chain) : Nat :=
  match redis.processedBlock chain with
  | none => deploymentBlock chain
  | some lastProcessedBlock => lastProcessedBlock + 1

def processEvents (redis : Redis) (run : Run σ) (kind : Kind) : Promise σ ProcessedResult :=
  forEachEvent (run.query kind) run.fuel ProcessedResult.add
    (getPastEventsIter (startBlock deploymentBlock redis kind.chain) (run.blockNumber kind.chain))
    (initCacheObject (redis.processedResult kind))

/-- `main`, up to the commands. -/
def main (redis : Redis) (run : Run σ) : Promise σ (Kind → ProcessedResult) := do
  run.connect
  let homeDeposit ← processEvents deploymentBlock redis run .homeDeposit
  let foreignDeposit ← processEvents deploymentBlock redis run .foreignDeposit
  let homeWithdrawal ← processEvents deploymentBlock redis run .homeWithdrawal
  let foreignWithdrawal ← processEvents deploymentBlock redis run .foreignWithdrawal
  pure fun
    | .homeDeposit => homeDeposit
    | .homeWithdrawal => homeWithdrawal
    | .foreignDeposit => foreignDeposit
    | .foreignWithdrawal => foreignWithdrawal

/-- The commands in the order in which they are sent. -/
def commands (results : Kind → ProcessedResult) (blockNumber : Chain → Nat) : List Command :=
  [.storeProcessedResult .homeDeposit (results .homeDeposit),
   .storeProcessedResult .homeWithdrawal (results .homeWithdrawal),
   .storeProcessedResult .foreignDeposit (results .foreignDeposit),
   .storeProcessedResult .foreignWithdrawal (results .foreignWithdrawal),
   .storeProcessedBlock .home (blockNumber .home),
   .storeProcessedBlock .foreign (blockNumber .foreign)]

/-- Redis after a run. A run in which a query fails, or that never returns, sends no command. -/
def runOnce (redis : Redis) (run : Run σ) : Redis :=
  match (main deploymentBlock redis run).run.run run.state with
  | some (.ok results, _) => ((commands results run.blockNumber).take run.written).foldl Redis.carryOut redis
  | _ => redis

/-! ## What redis holds -/

/-- Where the command for the totals stands. -/
def Kind.position : Kind → Nat
  | homeDeposit => 0
  | homeWithdrawal => 1
  | foreignDeposit => 2
  | foreignWithdrawal => 3

/-- Where the command for the block stands. -/
def Chain.position : Chain → Nat
  | home => 4
  | foreign => 5

variable {deploymentBlock}

theorem written_processedResult (redis : Redis) (results : Kind → ProcessedResult) (blockNumber : Chain → Nat)
    (written : Nat) (kind : Kind) :
    (((commands results blockNumber).take written).foldl Redis.carryOut redis).processedResult kind =
      if kind.position < written then some (results kind) else redis.processedResult kind := by
  rcases written with _ | _ | _ | _ | _ | _ | n <;> cases kind <;> simp [commands, Redis.carryOut, Kind.position]

theorem written_processedBlock (redis : Redis) (results : Kind → ProcessedResult) (blockNumber : Chain → Nat)
    (written : Nat) (chain : Chain) :
    (((commands results blockNumber).take written).foldl Redis.carryOut redis).processedBlock chain =
      if chain.position < written then some (blockNumber chain) else redis.processedBlock chain := by
  rcases written with _ | _ | _ | _ | _ | _ | n <;> cases chain <;> simp [commands, Redis.carryOut, Chain.position]

/-! ## What a run adds -/

variable {redis : Redis} {run : Run σ} {results : Kind → ProcessedResult} {s' : σ}

theorem foldl_add (events : List Event) : ∀ result : ProcessedResult,
    (events.foldl ProcessedResult.add result).value = result.value + (events.map Event.value).sum ∧
      (events.foldl ProcessedResult.add result).length = result.length + events.length := by
  induction events with
  | nil => simp
  | cons event events ih =>
      intro result
      obtain ⟨hvalue, hlength⟩ := ih (result.add event)
      rw [List.foldl_cons, hvalue, hlength, List.map_cons, List.sum_cons, List.length_cons]
      constructor
      · show result.value + event.value + _ = _
        omega
      · show result.length + 1 + _ = _
        omega

theorem main_eq_ok (h : (main deploymentBlock redis run).run.run run.state = some (.ok results, s')) (kind : Kind) :
    ∃ t t', (processEvents deploymentBlock redis run kind).run.run t = some (.ok (results kind), t') := by
  obtain ⟨_, t₀, _, h⟩ := Promise.bind_eq_ok.mp h
  obtain ⟨homeDeposit, t₁, h₁, h⟩ := Promise.bind_eq_ok.mp h
  obtain ⟨foreignDeposit, t₂, h₂, h⟩ := Promise.bind_eq_ok.mp h
  obtain ⟨homeWithdrawal, t₃, h₃, h⟩ := Promise.bind_eq_ok.mp h
  obtain ⟨foreignWithdrawal, t₄, h₄, h⟩ := Promise.bind_eq_ok.mp h
  obtain ⟨rfl, rfl⟩ := Promise.pure_eq_ok.mp h
  cases kind with
  | homeDeposit => exact ⟨_, _, h₁⟩
  | homeWithdrawal => exact ⟨_, _, h₃⟩
  | foreignDeposit => exact ⟨_, _, h₂⟩
  | foreignWithdrawal => exact ⟨_, _, h₄⟩

/-- The history of the chains: the events of each kind in each block. -/
abbrev Log := Kind → Nat → List Event

variable {log : Log}

/-- The events that a run fetches. -/
def fetched (deploymentBlock : Chain → Nat) (log : Log) (redis : Redis) (run : Run σ) (kind : Kind) : List Event :=
  gather (log kind) (startBlock deploymentBlock redis kind.chain) (run.blockNumber kind.chain)

theorem main_counts (htrue : ∀ kind, Truthful (run.query kind) (log kind))
    (h : (main deploymentBlock redis run).run.run run.state = some (.ok results, s')) (kind : Kind) :
    (results kind).value = (initCacheObject (redis.processedResult kind)).value +
        ((fetched deploymentBlock log redis run kind).map Event.value).sum ∧
      (results kind).length = (initCacheObject (redis.processedResult kind)).length +
        (fetched deploymentBlock log redis run kind).length := by
  obtain ⟨t, t', hkind⟩ := main_eq_ok h kind
  have hresult := forEachEvent_truthful (htrue kind) hkind
  rw [getPastEventsIter_gather] at hresult
  rw [hresult]
  exact foldl_add _ _

/-! ## Exact totals -/

/-- The events up to the stored block. -/
def processed (deploymentBlock : Chain → Nat) (log : Log) (redis : Redis) (kind : Kind) : List Event :=
  match redis.processedBlock kind.chain with
  | none => []
  | some block => gather (log kind) (deploymentBlock kind.chain) block

/-- The value and the length are those of the events. -/
def Totals (result : ProcessedResult) (events : List Event) : Prop :=
  result.value = (events.map Event.value).sum ∧ result.length = events.length

/-- The totals are those of the events from the deployment up to the stored blocks. -/
def Exact (deploymentBlock : Chain → Nat) (log : Log) (redis : Redis) : Prop :=
  ∀ kind, Totals (initCacheObject (redis.processedResult kind)) (processed deploymentBlock log redis kind)

/-- Totals of `a ++ e ++ b` are totals of `a ++ b` only if `e` is empty. -/
theorem totals_splice_iff {result : ProcessedResult} {a e b : List Event} (h : Totals result (a ++ e ++ b)) :
    Totals result (a ++ b) ↔ e = [] := by
  constructor
  · rintro ⟨_, hlength⟩
    have hboth := h.2.symm.trans hlength
    rw [List.length_append, List.length_append, List.length_append] at hboth
    exact List.eq_nil_of_length_eq_zero (by omega)
  · intro he
    rw [he, List.append_nil] at h
    exact h

/-- Which blocks keep the totals of a kind exact, if their command is carried out: if the block of the chain is
    stored too, the head does not fall behind events that are counted, and none of the new events comes before the
    deployment; otherwise there are no new events. -/
def KindFit (deploymentBlock : Chain → Nat) (log : Log) (redis : Redis) (run : Run σ) (kind : Kind) : Prop :=
  if kind.chain.position < run.written then
    (∀ block, redis.processedBlock kind.chain = some block → ∀ n, deploymentBlock kind.chain ≤ n →
      run.blockNumber kind.chain < n → n ≤ block → log kind n = []) ∧
    ∀ n, startBlock deploymentBlock redis kind.chain ≤ n → n ≤ run.blockNumber kind.chain →
      n < deploymentBlock kind.chain → log kind n = []
  else
    ∀ n, startBlock deploymentBlock redis kind.chain ≤ n → n ≤ run.blockNumber kind.chain → log kind n = []

/-- The run sends no command, or each kind whose command is carried out is fit. -/
def Fit (deploymentBlock : Chain → Nat) (log : Log) (redis : Redis) (run : Run σ) : Prop :=
  ∀ results s', (main deploymentBlock redis run).run.run run.state = some (.ok results, s') →
    ∀ kind : Kind, kind.position < run.written → KindFit deploymentBlock log redis run kind

section Heads

variable {f : Nat → List Event} {result : ProcessedResult} {deployment block head : Nat}

/-- The head rises: too much is what comes before the deployment. -/
theorem risen_iff (hup : block ≤ head)
    (h : Totals result (gather f deployment block ++ gather f (block + 1) head)) :
    Totals result (gather f deployment head) ↔ ∀ n, block + 1 ≤ n → n ≤ head → n < deployment → f n = [] := by
  rw [← gather_cut (c := deployment) (Nat.succ_pos block), ← List.append_assoc] at h
  rw [← gather_extend hup, totals_splice_iff h, gather_eq_nil]
  constructor
  · intro hnil n hblock hhead hlt
    exact hnil n hblock (by omega)
  · intro hnil n hblock hmin
    exact hnil n hblock (by omega) (by omega)

/-- The head falls: too much is what lies above it. -/
theorem fallen_iff (hdown : head ≤ block) (h : Totals result (gather f deployment block)) :
    Totals result (gather f deployment head) ↔ ∀ n, deployment ≤ n → head < n → n ≤ block → f n = [] := by
  rw [← gather_extend hdown, ← List.append_nil (_ ++ _)] at h
  rw [← List.append_nil (gather f deployment head), totals_splice_iff h, gather_eq_nil]
  constructor
  · intro hnil n hdeployment hhead
    exact hnil n (by omega)
  · intro hnil n hmax
    exact hnil n (by omega) (by omega)

end Heads

theorem moved_iff {result : ProcessedResult} {kind : Kind}
    (h : Totals result (processed deploymentBlock log redis kind ++ fetched deploymentBlock log redis run kind)) :
    Totals result (gather (log kind) (deploymentBlock kind.chain) (run.blockNumber kind.chain)) ↔
      (∀ block, redis.processedBlock kind.chain = some block → ∀ n, deploymentBlock kind.chain ≤ n →
        run.blockNumber kind.chain < n → n ≤ block → log kind n = []) ∧
      ∀ n, startBlock deploymentBlock redis kind.chain ≤ n → n ≤ run.blockNumber kind.chain →
        n < deploymentBlock kind.chain → log kind n = [] := by
  unfold processed fetched startBlock at h
  unfold startBlock
  cases hblock : redis.processedBlock kind.chain with
  | none =>
      simp only [hblock, List.nil_append] at h ⊢
      refine iff_of_true h ⟨by simp, fun n hstart _ hlt => absurd hlt (by omega)⟩
  | some block =>
      simp only [hblock, Option.some.injEq, forall_eq'] at h ⊢
      rcases Nat.lt_or_ge block (run.blockNumber kind.chain) with hup | hdown
      · rw [risen_iff (Nat.le_of_lt hup) h]
        refine ⟨fun hrest => ⟨fun n _ hhead hle => absurd hle (by omega), hrest⟩, And.right⟩
      · rw [gather_eq_nil_of_lt (Nat.lt_succ_of_le hdown), List.append_nil] at h
        rw [fallen_iff hdown h]
        refine ⟨fun hrest => ⟨hrest, fun n hstart hle _ => absurd hle (by omega)⟩, And.left⟩

/-- One kind after the commands that redis carries out. -/
theorem written_totals_iff {kind : Kind}
    (hexact : Totals (initCacheObject (redis.processedResult kind)) (processed deploymentBlock log redis kind))
    (hcounts : (results kind).value = (initCacheObject (redis.processedResult kind)).value +
        ((fetched deploymentBlock log redis run kind).map Event.value).sum ∧
      (results kind).length = (initCacheObject (redis.processedResult kind)).length +
        (fetched deploymentBlock log redis run kind).length) {redis' : Redis}
    (hredis' : redis' = ((commands results run.blockNumber).take run.written).foldl Redis.carryOut redis) :
    Totals (initCacheObject (redis'.processedResult kind)) (processed deploymentBlock log redis' kind) ↔
      (kind.position < run.written → KindFit deploymentBlock log redis run kind) := by
  have hresult := written_processedResult redis results run.blockNumber run.written kind
  have hblock := written_processedBlock redis results run.blockNumber run.written kind.chain
  have horder : kind.chain.position < run.written → kind.position < run.written := by
    cases kind <;> simp only [Kind.chain, Chain.position, Kind.position] <;> omega
  rw [← hredis'] at hresult hblock
  by_cases hkind : kind.position < run.written
  · have htotals : Totals (results kind)
        (processed deploymentBlock log redis kind ++ fetched deploymentBlock log redis run kind) := by
      refine ⟨?_, ?_⟩
      · rw [hcounts.1, hexact.1, List.map_append, List.sum_append]
      · rw [hcounts.2, hexact.2, List.length_append]
    rw [if_pos hkind] at hresult
    simp only [hkind, forall_const]
    unfold KindFit
    by_cases hchain : kind.chain.position < run.written
    · rw [if_pos hchain] at hblock
      rw [if_pos hchain, ← moved_iff htotals, hresult]
      unfold processed
      rw [hblock]
      exact Iff.rfl
    · rw [if_neg hchain] at hblock
      have hprocessed : processed deploymentBlock log redis' kind = processed deploymentBlock log redis kind := by
        unfold processed
        rw [hblock]
      rw [if_neg hchain, hresult, hprocessed]
      rw [← List.append_nil (_ ++ _)] at htotals
      have hnew := totals_splice_iff htotals
      rw [List.append_nil, fetched, gather_eq_nil] at hnew
      exact hnew
  · rw [if_neg hkind] at hresult
    rw [if_neg fun hchain => hkind (horder hchain)] at hblock
    refine iff_of_true ?_ fun h => absurd h hkind
    unfold processed at hexact ⊢
    rw [hresult, hblock]
    exact hexact

/-- One run keeps exact totals exact only if it is fit. -/
theorem runOnce_exact_iff (htrue : ∀ kind, Truthful (run.query kind) (log kind))
    (hexact : Exact deploymentBlock log redis) :
    Exact deploymentBlock log (runOnce deploymentBlock redis run) ↔ Fit deploymentBlock log redis run := by
  unfold runOnce Fit
  split
  · rename_i results s' hmain
    have hkinds (kind : Kind) := written_totals_iff (hexact kind) (main_counts htrue hmain kind) rfl
    constructor
    · intro hall results' t hmain' kind hkind
      exact (hkinds kind).mp (hall kind) hkind
    · intro hfit kind
      exact (hkinds kind).mpr (hfit results s' hmain kind)
  · rename_i hmain
    exact iff_of_true hexact fun results s' h => absurd h (hmain results s')

/-- Redis before the first run. -/
def Redis.empty : Redis := ⟨fun _ => none, fun _ => none⟩

theorem exact_empty : Exact deploymentBlock log Redis.empty := fun _ => ⟨rfl, rfl⟩

/-- **The totals of the monitor.** With nodes that answer with the events of the range or not at all, the stored
    totals are exact after every run exactly when each run is fit. -/
theorem totals_exact_iff {runs : List (Run σ)}
    (htrue : ∀ run ∈ runs, ∀ kind, Truthful (run.query kind) (log kind)) :
    Traces.Throughout (runOnce deploymentBlock) (Exact deploymentBlock log) Redis.empty runs ↔
      Traces.EachInput (runOnce deploymentBlock) (Fit deploymentBlock log) Redis.empty runs := by
  apply Traces.throughout_iff_eachInput (I := fun _ => True)
  · exact fun _ _ _ _ => trivial
  · intro redis _ hexact run hrun
    exact runOnce_exact_iff (htrue run hrun) hexact
  · exact trivial
  · exact exact_empty

/-- One deposit on Home, of 5 in block 2. -/
def sampleLog : Log
  | .homeDeposit, 2 => [⟨"UserRequestForSignature", 5, some "user", ""⟩]
  | _, _ => []

/-- A run whose nodes answer at once. -/
def sampleRun (home foreign written : Nat) : Run Unit where
  state := ()
  connect := pure ()
  blockNumber
    | .home => home
    | .foreign => foreign
  query kind fromBlock toBlock := pure (gather (sampleLog kind) fromBlock toBlock)
  fuel := 1
  written := written

theorem sampleRun_truthful (home foreign written : Nat) (kind : Kind) :
    Truthful ((sampleRun home foreign written).query kind) (sampleLog kind) where
  answers h := (Promise.pure_eq_ok.mp h).1.symm
  refuses h := absurd h (by simp [sampleRun])

/-- Two runs that come to their end, with rising heads. -/
theorem totals_exact_two_runs :
    let runs := [sampleRun 1 0 6, sampleRun 3 2 6]
    let redis := Traces.after (runOnce fun _ => 1) Redis.empty runs
    redis.processedResult .homeDeposit = some ⟨5, 1, ["user"]⟩ ∧ redis.processedBlock .home = some 3 ∧
      Traces.Throughout (runOnce fun _ => 1) (Exact (fun _ => 1) sampleLog) Redis.empty runs := by
  have hblocks (chain : Chain) :
      (runOnce (fun _ => 1) Redis.empty (sampleRun 1 0 6)).processedBlock chain =
        some ((sampleRun 1 0 6).blockNumber chain) := by
    cases chain <;> decide +kernel
  refine ⟨by decide +kernel, by decide +kernel, (totals_exact_iff ?_).mpr ?_⟩
  · intro run hrun kind
    rcases List.mem_pair.mp hrun with rfl | rfl
    · exact sampleRun_truthful 1 0 6 kind
    · exact sampleRun_truthful 3 2 6 kind
  · rw [Traces.eachInput_cons, Traces.eachInput_cons]
    refine ⟨?_, ?_, Traces.eachInput_nil⟩
    · intro results s' _ kind _
      have hwritten : kind.chain.position < (sampleRun 1 0 6).written := by cases kind <;> decide
      unfold KindFit startBlock
      rw [if_pos hwritten]
      exact ⟨fun block hblock => absurd hblock (by simp [Redis.empty]),
        fun n hstart _ hlt => absurd hlt (Nat.not_lt.mpr hstart)⟩
    · intro results s' _ kind _
      have hwritten : kind.chain.position < (sampleRun 3 2 6).written := by cases kind <;> decide
      have hrise : (sampleRun 1 0 6).blockNumber kind.chain ≤ (sampleRun 3 2 6).blockNumber kind.chain := by
        cases kind <;> decide
      unfold KindFit startBlock
      rw [if_pos hwritten, hblocks]
      simp only [Option.some.injEq, forall_eq']
      exact ⟨fun n _ hhead hle => absurd hle (by omega), fun n hstart _ hlt => absurd hlt (by omega)⟩

/-- What the store says of the only deposit when it was counted twice. -/
theorem counted_twice {redis : Redis} (hresult : redis.processedResult .homeDeposit = some ⟨10, 2, ["user"]⟩)
    (hprocessed : processed (fun _ => 1) sampleLog redis .homeDeposit =
      [⟨"UserRequestForSignature", 5, some "user", ""⟩]) : ¬ Exact (fun _ => 1) sampleLog redis := by
  intro hexact
  have hlength := (hexact .homeDeposit).2
  rw [hresult, hprocessed] at hlength
  exact absurd hlength (by decide)

/-- What some runs of the sample chain leave in the store. -/
def sampleStore (runs : List (Run Unit)) : Redis := Traces.after (runOnce fun _ => 1) Redis.empty runs

/-- The only deposit is counted twice: after the head fell from block 2 to block 1, and after a process stopped
    behind its first command. -/
theorem deposit_counted_twice :
    ((sampleStore [sampleRun 2 0 6, sampleRun 1 0 6, sampleRun 2 0 6]).processedResult .homeDeposit =
        some ⟨10, 2, ["user"]⟩ ∧
      ¬ Exact (fun _ => 1) sampleLog (sampleStore [sampleRun 2 0 6, sampleRun 1 0 6, sampleRun 2 0 6])) ∧
    (sampleStore [sampleRun 2 0 1, sampleRun 2 0 6]).processedResult .homeDeposit = some ⟨10, 2, ["user"]⟩ ∧
      ¬ Exact (fun _ => 1) sampleLog (sampleStore [sampleRun 2 0 1, sampleRun 2 0 6]) := by
  refine ⟨⟨?_, counted_twice ?_ ?_⟩, ?_, counted_twice ?_ ?_⟩ <;> decide +kernel

end Monitor
end ThunderBridge
