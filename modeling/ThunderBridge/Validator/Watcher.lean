import ThunderBridge.Lib.Calls
import ThunderBridge.Validator.Types

/-!
# `Validator.Watcher` — the event watcher and its cursor

`EventWatcher.do` fetches the events of the next blocks, hands each of them to `enqueueSender`, and moves the
cursor `lastProcessedBlock` to the end of the batch, first in memory and then in redis. The handlers of the
events are asynchronous and `do` does not wait for them: the cursor may be stored while the queue has not
accepted the events yet, and whether it ever will is open.

One process runs at a time, and it may be stopped between any two steps. `Input` is what happens to the
watcher from outside: answers of the node, of redis and of the queue, a crash, a restart; `step` is what the
code does with it. `returned` and `accepted` are ghosts.

`Covered` is the invariant of the runs that store the cursor only when the queue has accepted everything the
running process gave it. `stored_while_pending` is a run that does not wait.
-/

namespace ThunderBridge

/-- The state of the promise of one `enqueueSender` call. -/
inductive PromiseState where
  | pending
  | resolved
  | rejected
deriving DecidableEq, Repr

namespace EventWatcher

/-- What a watcher is configured with, and the chain it watches: the matching events of each block. -/
structure Config (D : Type) where
  id : String
  startBlock : Int
  logs : Nat → List D

/-- Where the process is. In a call of `run`, `i` counts the rounds and `eventCount` the events so far. -/
inductive Phase where
  /-- Not running. -/
  | down
  /-- Between two calls of `run`. -/
  | idle
  /-- `do` waits for `getLastBlockToProcess`. -/
  | starting (i : Nat) (eventCount : Int)
  /-- `do` waits for `getEvents`. -/
  | fetching (i : Nat) (eventCount : Int) (fromBlock toBlock : Nat)
  /-- `do` waits for `updateLastProcessedBlock` after a batch of `count` events; `written` once redis has
      carried the command out. -/
  | updating (i : Nat) (eventCount : Int) (count : Nat) (written : Bool)
deriving DecidableEq, Repr

end EventWatcher

/-- The watcher, the key it stores in redis, and the queue. -/
structure EventWatcher (D : Type) where
  /-- The value under `lastBlockRedisKey`. -/
  stored : Option Nat
  lastProcessedBlock : Nat
  phase : EventWatcher.Phase
  /-- The `enqueueSender` calls of the running process. -/
  promises : List (EventTask D × PromiseState)
  /-- The events some `getEvents` call returned. -/
  returned : List (EventData D)
  /-- The tasks the queue accepted. -/
  accepted : List (EventTask D)
deriving DecidableEq, Repr

namespace EventWatcher

variable {D : Type}

/-! ## The source -/

def BATCHSIZE : Nat := 500

/-- `startBlock`, or zero if it is negative. -/
def Config.firstBlock (c : Config D) : Nat := if c.startBlock ≤ 0 then 0 else c.startBlock.toNat

/-- `loadLastProcessedBlock`. -/
def loadLastProcessedBlock (c : Config D) (stored : Option Nat) : Nat :=
  match stored with
  | some result => max result c.firstBlock
  | none => c.firstBlock

/-- `getEvents`: the matching events from `fromBlock` to `toBlock`. -/
def getEvents (c : Config D) (fromBlock toBlock : Nat) : List (EventData D) :=
  (List.range' fromBlock (toBlock + 1 - fromBlock)).flatMap fun b => (c.logs b).map fun d => ⟨b, d⟩

def newTask (c : Config D) (event : EventData D) : EventTask D := ⟨c.id, event, none, none, none⟩

/-- The end of the batch that starts at `fromBlock`. -/
def batchEnd (fromBlock lastBlockToProcess : Nat) : Nat :=
  if fromBlock + BATCHSIZE < lastBlockToProcess then fromBlock + BATCHSIZE else lastBlockToProcess

/-- The loop of `run` after `do` returned `c`. -/
def nextRound (i : Nat) (eventCount c : Int) : Phase :=
  if c = -1 then .idle
  else if eventCount + c > 100 then .idle
  else if i + 1 < 10 then .starting (i + 1) (eventCount + c)
  else .idle

/-! ## Steps -/

/-- What may happen to the watcher. -/
inductive Input where
  /-- A process is started and loads the cursor. -/
  | start
  /-- The process is stopped. -/
  | crash
  /-- `run` is called. -/
  | run
  | lastBlock (lastBlockNumber requiredBlockConfirmations : Nat)
  | lastBlockFailed
  | events
  | eventsFailed
  /-- Redis carries out the command to store the cursor. -/
  | written
  | updated
  /-- `redis.set` is rejected, whether or not the command was carried out. -/
  | updateFailed
  /-- The `k`-th promise is resolved. -/
  | resolve (k : Nat)
  | reject (k : Nat)
deriving DecidableEq, Repr

/-- One step; `none` where the input does not fit the state. -/
def step (c : Config D) (s : EventWatcher D) : Input → Option (EventWatcher D)
  | .start =>
      match s.phase with
      | .down =>
          some { s with
            lastProcessedBlock := loadLastProcessedBlock c s.stored
            phase := .idle
            promises := [] }
      | _ => none
  -- what the queue has not accepted dies with the process
  | .crash => some { s with phase := .down, promises := [] }
  | .run =>
      match s.phase with
      | .idle => some { s with phase := .starting 0 0 }
      | _ => none
  | .lastBlock lastBlockNumber requiredBlockConfirmations =>
      match s.phase with
      | .starting i eventCount =>
          let lastBlockToProcess : Int := lastBlockNumber - requiredBlockConfirmations
          if lastBlockToProcess ≤ s.lastProcessedBlock then
            some { s with phase := nextRound i eventCount (-1) }
          else
            let fromBlock := s.lastProcessedBlock + 1
            let toBlock := batchEnd fromBlock lastBlockToProcess.toNat
            some { s with phase := .fetching i eventCount fromBlock toBlock }
      | _ => none
  | .lastBlockFailed =>
      match s.phase with
      | .starting i eventCount => some { s with phase := nextRound i eventCount (-1) }
      | _ => none
  | .events =>
      match s.phase with
      | .fetching i eventCount fromBlock toBlock =>
          let events := getEvents c fromBlock toBlock
          -- the promises of the handlers are dropped, and the cursor moves at once
          some { s with
            promises := s.promises ++ events.map fun event => (newTask c event, .pending)
            returned := s.returned ++ events
            lastProcessedBlock := toBlock
            phase := .updating i eventCount events.length false }
      | _ => none
  | .eventsFailed =>
      match s.phase with
      -- `do` catches the error and returns -1, and so below
      | .fetching i eventCount _ _ => some { s with phase := nextRound i eventCount (-1) }
      | _ => none
  | .written =>
      match s.phase with
      | .updating i eventCount count false =>
          some { s with
            stored := some s.lastProcessedBlock
            phase := .updating i eventCount count true }
      | _ => none
  | .updated =>
      match s.phase with
      | .updating i eventCount count true => some { s with phase := nextRound i eventCount count }
      | _ => none
  | .updateFailed =>
      match s.phase with
      | .updating i eventCount _ _ => some { s with phase := nextRound i eventCount (-1) }
      | _ => none
  | .resolve k =>
      match s.promises[k]? with
      | some (task, .pending) =>
          some { s with
            promises := s.promises.set k (task, .resolved)
            accepted := task :: s.accepted }
      | _ => none
  | .reject k =>
      match s.promises[k]? with
      | some (task, .pending) => some { s with promises := s.promises.set k (task, .rejected) }
      | _ => none

/-- Before the first process. -/
def initial : EventWatcher D := ⟨none, 0, .down, [], [], []⟩

/-- One step, whatever the input. -/
def Step (c : Config D) (s s' : EventWatcher D) : Prop := ∃ input, step c s input = some s'

/-- The queue has accepted everything that the running process gave it. -/
def AllAccepted (s : EventWatcher D) : Prop := ∀ p ∈ s.promises, p.2 = .resolved

/-- One step, in which redis stores the cursor only when the queue has accepted everything. -/
def StepWaiting (c : Config D) (s s' : EventWatcher D) : Prop :=
  ∃ input, step c s input = some s' ∧ (input = .written → AllAccepted s)

/-- **No event is lost**: the events that were returned, up to the stored cursor, are in the queue. -/
def NoEventLost (c : Config D) (s : EventWatcher D) : Prop :=
  ∀ b, s.stored = some b → ∀ e ∈ s.returned, e.blockNumber ≤ b → newTask c e ∈ s.accepted

/-! ## What a step does -/

section Inversion

variable {c : Config D} {s s' : EventWatcher D}

/-- A process starts. -/
theorem step_start_inv (h : step c s .start = some s') :
    s.phase = .down ∧
      s' = { s with
        lastProcessedBlock := loadLastProcessedBlock c s.stored
        phase := .idle
        promises := [] } := by
  simp only [step] at h
  split at h
  · rename_i hphase
    exact ⟨hphase, (Option.some.inj h).symm⟩
  · exact absurd h (by simp)

theorem step_run_inv (h : step c s .run = some s') :
    s.phase = .idle ∧ s' = { s with phase := .starting 0 0 } := by
  simp only [step] at h
  split at h
  · rename_i hphase
    exact ⟨hphase, (Option.some.inj h).symm⟩
  · exact absurd h (by simp)

/-- The head is read: nothing new is confirmed, or the next batch is fetched. -/
theorem step_lastBlock_inv {lastBlockNumber requiredBlockConfirmations : Nat}
    (h : step c s (.lastBlock lastBlockNumber requiredBlockConfirmations) = some s') :
    ∃ i eventCount, s.phase = .starting i eventCount ∧
      (s' = { s with phase := nextRound i eventCount (-1) } ∨
        ¬ (lastBlockNumber : Int) - requiredBlockConfirmations ≤ s.lastProcessedBlock ∧
          s' = { s with
            phase := .fetching i eventCount (s.lastProcessedBlock + 1)
              (batchEnd (s.lastProcessedBlock + 1)
                ((lastBlockNumber : Int) - requiredBlockConfirmations).toNat) }) := by
  simp only [step] at h
  split at h
  · rename_i i eventCount hphase
    refine ⟨i, eventCount, hphase, ?_⟩
    split at h
    · exact .inl (Option.some.inj h).symm
    · rename_i hlast
      exact .inr ⟨hlast, (Option.some.inj h).symm⟩
  · exact absurd h (by simp)

/-- The events of the batch are given to the queue. -/
theorem step_events_inv (h : step c s .events = some s') :
    ∃ i eventCount fromBlock toBlock, s.phase = .fetching i eventCount fromBlock toBlock ∧
      s' = { s with
        promises := s.promises ++ (getEvents c fromBlock toBlock).map fun event => (newTask c event, .pending)
        returned := s.returned ++ getEvents c fromBlock toBlock
        lastProcessedBlock := toBlock
        phase := .updating i eventCount (getEvents c fromBlock toBlock).length false } := by
  simp only [step] at h
  split at h
  · rename_i i eventCount fromBlock toBlock hphase
    exact ⟨i, eventCount, fromBlock, toBlock, hphase, (Option.some.inj h).symm⟩
  · exact absurd h (by simp)

theorem step_written_inv (h : step c s .written = some s') :
    ∃ i eventCount count, s.phase = .updating i eventCount count false ∧
      s' = { s with
        stored := some s.lastProcessedBlock
        phase := .updating i eventCount count true } := by
  simp only [step] at h
  split at h
  · rename_i i eventCount count hphase
    exact ⟨i, eventCount, count, hphase, (Option.some.inj h).symm⟩
  · exact absurd h (by simp)

/-- The inputs that only end the round: it succeeded, or an error was caught. -/
theorem step_round_inv {input : Input}
    (hinput : input ∈ [Input.lastBlockFailed, .eventsFailed, .updated, .updateFailed])
    (h : step c s input = some s') :
    ∃ i eventCount n, s.phase ≠ .down ∧ s' = { s with phase := nextRound i eventCount n } := by
  simp only [List.mem_cons, List.not_mem_nil, or_false] at hinput
  rcases hinput with rfl | rfl | rfl | rfl
  all_goals
    simp only [step] at h
    split at h
    · rename_i hphase
      refine ⟨_, _, _, ?_, (Option.some.inj h).symm⟩
      rw [hphase]
      exact Phase.noConfusion
    · exact absurd h (by simp)

theorem step_resolve_inv {k : Nat} (h : step c s (.resolve k) = some s') :
    ∃ task, s.promises[k]? = some (task, .pending) ∧
      s' = { s with
        promises := s.promises.set k (task, .resolved)
        accepted := task :: s.accepted } := by
  simp only [step] at h
  split at h
  · rename_i task hk
    exact ⟨task, hk, (Option.some.inj h).symm⟩
  · exact absurd h (by simp)

theorem step_reject_inv {k : Nat} (h : step c s (.reject k) = some s') :
    ∃ task, s.promises[k]? = some (task, .pending) ∧
      s' = { s with promises := s.promises.set k (task, .rejected) } := by
  simp only [step] at h
  split at h
  · rename_i task hk
    exact ⟨task, hk, (Option.some.inj h).symm⟩
  · exact absurd h (by simp)

end Inversion

/-! ## Runs that wait -/

section Waiting

variable {c : Config D} {s s' : EventWatcher D}

theorem mem_getEvents {fromBlock toBlock : Nat} {e : EventData D} :
    e ∈ getEvents c fromBlock toBlock ↔
      fromBlock ≤ e.blockNumber ∧ e.blockNumber ≤ toBlock ∧ e.data ∈ c.logs e.blockNumber := by
  unfold getEvents
  rw [List.mem_flatMap]
  constructor
  · rintro ⟨b, hb, he⟩
    obtain ⟨d, hd, rfl⟩ := List.mem_map.mp he
    rw [List.mem_range'_1] at hb
    exact ⟨hb.1, by show b ≤ toBlock; omega, hd⟩
  · rintro ⟨hfrom, hto, hd⟩
    refine ⟨e.blockNumber, ?_, List.mem_map.mpr ⟨e.data, hd, rfl⟩⟩
    rw [List.mem_range'_1]
    omega

/-- The cursor is behind every batch that is still to come. -/
def Phase.Ahead (lastProcessedBlock : Nat) : Phase → Prop
  | .fetching _ _ fromBlock toBlock => fromBlock = lastProcessedBlock + 1 ∧ lastProcessedBlock < toBlock
  | _ => True

/-- What holds in every state of a run that waits. -/
structure Covered (c : Config D) (s : EventWatcher D) : Prop where
  /-- An event that was returned is on the chain, after the first block. -/
  onChain : ∀ e ∈ s.returned, c.firstBlock < e.blockNumber ∧ e.data ∈ c.logs e.blockNumber
  stored : ∀ b, s.stored = some b → c.firstBlock ≤ b ∧ (s.phase ≠ .down → b ≤ s.lastProcessedBlock)
  noneLost : NoEventLost c s
  resolved : ∀ p ∈ s.promises, p.2 = .resolved → p.1 ∈ s.accepted
  /-- Up to the cursor in memory, an event is in the queue or was given to it by the running process. -/
  given : s.phase ≠ .down → c.firstBlock ≤ s.lastProcessedBlock ∧
    ∀ e ∈ s.returned, e.blockNumber ≤ s.lastProcessedBlock →
      newTask c e ∈ s.accepted ∨ ∃ p ∈ s.promises, p.1 = newTask c e
  ahead : s.phase.Ahead s.lastProcessedBlock

theorem covered_initial : Covered c initial where
  onChain e he := absurd he List.not_mem_nil
  stored b hb := absurd hb (by simp [initial])
  noneLost b hb := absurd hb (by simp [initial])
  resolved p hp := absurd hp List.not_mem_nil
  given hdown := absurd rfl hdown
  ahead := trivial

theorem nextRound_ahead (i : Nat) (eventCount n : Int) (b : Nat) : (nextRound i eventCount n).Ahead b := by
  unfold nextRound
  split
  · trivial
  · split
    · trivial
    · split <;> trivial

theorem lt_batchEnd {b : Nat} {last : Int} (h : ¬ last ≤ b) : b < batchEnd (b + 1) last.toNat := by
  unfold batchEnd BATCHSIZE
  split <;> omega

/-- Moving on within a process changes the phase only. -/
theorem Covered.phase (h : Covered c s) {phase : Phase} (hup : s.phase ≠ .down)
    (hahead : phase.Ahead s.lastProcessedBlock) : Covered c { s with phase := phase } :=
  ⟨h.onChain, fun b hb => ⟨(h.stored b hb).1, fun _ => (h.stored b hb).2 hup⟩, h.noneLost, h.resolved,
    fun _ => h.given hup, hahead⟩

theorem Covered.next (h : Covered c s) (hup : s.phase ≠ .down) (i : Nat) (eventCount n : Int) :
    Covered c { s with phase := nextRound i eventCount n } :=
  h.phase hup (nextRound_ahead i eventCount n _)

/-- A new process: whatever was returned up to its cursor is in the queue already. -/
theorem Covered.start (h : Covered c s) :
    Covered c { s with
      lastProcessedBlock := loadLastProcessedBlock c s.stored
      phase := .idle
      promises := [] } := by
  refine ⟨h.onChain, fun b hb => ⟨(h.stored b hb).1, ?_⟩, h.noneLost,
    fun p hp => absurd hp List.not_mem_nil, fun _ => ⟨?_, ?_⟩, trivial⟩
  · intro _
    have hstored : s.stored = some b := hb
    show b ≤ loadLastProcessedBlock c s.stored
    rw [hstored]
    exact Nat.le_max_left _ _
  · show c.firstBlock ≤ loadLastProcessedBlock c s.stored
    unfold loadLastProcessedBlock
    split
    · exact Nat.le_max_right _ _
    · exact Nat.le_refl _
  · intro e he hle
    have hfirst := (h.onChain e he).1
    have hload : e.blockNumber ≤ loadLastProcessedBlock c s.stored := hle
    unfold loadLastProcessedBlock at hload
    split at hload
    · rename_i b hb
      rcases Nat.le_total c.firstBlock b with hb' | hb'
      · rw [Nat.max_eq_left hb'] at hload
        exact .inl (h.noneLost b hb e he hload)
      · rw [Nat.max_eq_right hb'] at hload
        omega
    · omega

/-- A batch: its events, and all earlier ones, are given to the queue by the running process. -/
theorem Covered.events (h : Covered c s) {i : Nat} {eventCount : Int} {fromBlock toBlock : Nat}
    (hphase : s.phase = .fetching i eventCount fromBlock toBlock) (n : Nat) :
    Covered c { s with
      promises := s.promises ++ (getEvents c fromBlock toBlock).map fun event => (newTask c event, .pending)
      returned := s.returned ++ getEvents c fromBlock toBlock
      lastProcessedBlock := toBlock
      phase := .updating i eventCount n false } := by
  have hup : s.phase ≠ .down := by
    rw [hphase]
    exact Phase.noConfusion
  obtain ⟨hfirst, hgiven⟩ := h.given hup
  have hahead := h.ahead
  rw [hphase] at hahead
  obtain ⟨rfl, hto⟩ := hahead
  refine ⟨?_, fun b hb => ⟨(h.stored b hb).1, ?_⟩, ?_,
    ?_, fun _ => ⟨?_, ?_⟩, trivial⟩
  · intro e he
    rcases List.mem_append.mp he with hold | hnew
    · exact h.onChain e hold
    · obtain ⟨hfrom, _, hd⟩ := mem_getEvents.mp hnew
      exact ⟨by omega, hd⟩
  · intro _
    exact Nat.le_trans ((h.stored b hb).2 hup) (Nat.le_of_lt hto)
  · intro b hb e he hle
    rcases List.mem_append.mp he with hold | hnew
    · exact h.noneLost b hb e hold hle
    · -- the new events lie after the stored cursor
      have hbehind := (h.stored b hb).2 hup
      have hfrom := (mem_getEvents.mp hnew).1
      omega
  · intro p hp hres
    rcases List.mem_append.mp hp with hold | hnew
    · exact h.resolved p hold hres
    · obtain ⟨e, _, rfl⟩ := List.mem_map.mp hnew
      exact absurd hres (by simp)
  · exact Nat.le_trans hfirst (Nat.le_of_lt hto)
  · -- a returned event of the batch may be an old one, returned to an earlier process
    intro e he hle
    have hchain : c.firstBlock < e.blockNumber ∧ e.data ∈ c.logs e.blockNumber := by
      rcases List.mem_append.mp he with hold | hnew
      · exact h.onChain e hold
      · obtain ⟨hfrom, _, hd⟩ := mem_getEvents.mp hnew
        exact ⟨by omega, hd⟩
    by_cases hbatch : s.lastProcessedBlock + 1 ≤ e.blockNumber
    · have hnew : e ∈ getEvents c (s.lastProcessedBlock + 1) toBlock :=
        mem_getEvents.mpr ⟨hbatch, hle, hchain.2⟩
      exact .inr ⟨_, List.mem_append_right _ (List.mem_map.mpr ⟨e, hnew, rfl⟩), rfl⟩
    · have hold : e ∈ s.returned := by
        rcases List.mem_append.mp he with hold | hnew
        · exact hold
        · exact absurd (mem_getEvents.mp hnew).1 hbatch
      rcases hgiven e hold (by omega) with hacc | ⟨p, hp, hpe⟩
      · exact .inl hacc
      · exact .inr ⟨p, List.mem_append_left _ hp, hpe⟩

/-- Redis stores the cursor when the queue has accepted everything. -/
theorem Covered.written (h : Covered c s) (hup : s.phase ≠ .down) (hall : AllAccepted s) {phase : Phase}
    (hahead : phase.Ahead s.lastProcessedBlock) :
    Covered c { s with
      stored := some s.lastProcessedBlock
      phase := phase } := by
  obtain ⟨hfirst, hgiven⟩ := h.given hup
  refine ⟨h.onChain, ?_, ?_, h.resolved, fun _ => ⟨hfirst, hgiven⟩, hahead⟩
  · intro b hb
    obtain rfl := Option.some.inj hb
    exact ⟨hfirst, fun _ => Nat.le_refl _⟩
  · intro b hb e he hle
    obtain rfl := Option.some.inj hb
    rcases hgiven e he hle with hacc | ⟨p, hp, hpe⟩
    · exact hacc
    · rw [← hpe]
      exact h.resolved p hp (hall p hp)

/-- A promise is decided. -/
theorem Covered.decide (h : Covered c s) {k : Nat} {task : EventTask D} {p : PromiseState}
    (hk : s.promises[k]? = some (task, .pending)) {accepted : List (EventTask D)}
    (hold : ∀ t ∈ s.accepted, t ∈ accepted) (hnew : p = .resolved → task ∈ accepted) :
    Covered c { s with
      promises := s.promises.set k (task, p)
      accepted := accepted } := by
  have hlt : k < s.promises.length := (List.getElem?_eq_some_iff.mp hk).1
  have hget : s.promises[k] = (task, .pending) := (List.getElem?_eq_some_iff.mp hk).2
  refine ⟨h.onChain, h.stored, fun b hb e he hle => hold _ (h.noneLost b hb e he hle), ?_,
    fun hup => ⟨(h.given hup).1, ?_⟩, h.ahead⟩
  · intro q hq hres
    rcases List.mem_or_eq_of_mem_set hq with hmem | rfl
    · exact hold _ (h.resolved q hmem hres)
    · exact hnew hres
  · intro e he hle
    rcases (h.given hup).2 e he hle with hacc | ⟨q, hq, hqe⟩
    · exact .inl (hold _ hacc)
    · -- the promise keeps its task and its place
      obtain ⟨j, hj, rfl⟩ := List.mem_iff_getElem.mp hq
      by_cases hjk : j = k
      · subst hjk
        rw [hget] at hqe
        exact .inr ⟨(task, p), List.mem_set hlt _, hqe⟩
      · refine .inr ⟨s.promises[j], ?_, hqe⟩
        have hset : (s.promises.set k (task, p))[j]? = some s.promises[j] := by
          rw [List.getElem?_set_ne (Ne.symm hjk), List.getElem?_eq_getElem hj]
        exact List.mem_of_getElem? hset

/-- **One step** of a run that waits. -/
theorem step_covered (h : Covered c s) (hstep : StepWaiting c s s') : Covered c s' := by
  obtain ⟨input, hinput, hwait⟩ := hstep
  -- within a process
  have hup {phase : Phase} (hphase : s.phase = phase) (hne : phase ≠ .down) : s.phase ≠ .down := hphase ▸ hne
  cases input with
  | start =>
      obtain ⟨_, rfl⟩ := step_start_inv hinput
      exact h.start
  | crash =>
      obtain rfl := Option.some.inj hinput
      exact ⟨h.onChain, fun b hb => ⟨(h.stored b hb).1, fun hup => absurd rfl hup⟩, h.noneLost,
        fun p hp => absurd hp List.not_mem_nil, fun hup => absurd rfl hup, trivial⟩
  | run =>
      obtain ⟨hphase, rfl⟩ := step_run_inv hinput
      exact h.phase (hup hphase Phase.noConfusion) trivial
  | lastBlock lastBlockNumber requiredBlockConfirmations =>
      obtain ⟨i, eventCount, hphase, rfl | ⟨hlast, rfl⟩⟩ := step_lastBlock_inv hinput
      · exact h.next (hup hphase Phase.noConfusion) i eventCount (-1)
      · exact h.phase (hup hphase Phase.noConfusion) ⟨rfl, lt_batchEnd hlast⟩
  | events =>
      obtain ⟨i, eventCount, fromBlock, toBlock, hphase, rfl⟩ := step_events_inv hinput
      exact h.events hphase _
  | written =>
      obtain ⟨i, eventCount, count, hphase, rfl⟩ := step_written_inv hinput
      exact h.written (hup hphase Phase.noConfusion) (hwait rfl) trivial
  | lastBlockFailed | eventsFailed | updated | updateFailed =>
      obtain ⟨i, eventCount, n, hrunning, rfl⟩ := step_round_inv (by simp) hinput
      exact h.next hrunning i eventCount n
  | resolve k =>
      obtain ⟨task, hk, rfl⟩ := step_resolve_inv hinput
      exact h.decide hk (fun _ ht => List.mem_cons_of_mem _ ht) fun _ => List.mem_cons_self
  | reject k =>
      obtain ⟨task, hk, rfl⟩ := step_reject_inv hinput
      exact h.decide hk (fun _ ht => ht) fun hres => absurd hres (by simp)

/-- **A watcher that waits loses no event**: in every run that stores the cursor only when the queue has
    accepted everything the running process gave it, whatever the node, redis and the queue answer and
    wherever the process crashes. -/
theorem watcher_loses_no_event (hrun : Relation.ReflTransGen (StepWaiting c) initial s) : NoEventLost c s :=
  (Calls.steps_invariant (P := Covered c) (fun _ _ h hstep => step_covered h hstep) hrun
    covered_initial).noneLost

end Waiting

/-! ## One deposit -/

/-- A watcher from block 0 on a chain with one event, in block 1. -/
def oneDeposit : Config String := ⟨"home", 0, fun b => if b = 1 then ["deposit"] else []⟩

/-- The cursor is stored after the queue accepted the deposit. -/
theorem watcher_loses_no_event_one_deposit :
    ∃ s, Relation.ReflTransGen (StepWaiting oneDeposit) initial s ∧ s.stored = some 1 ∧
      NoEventLost oneDeposit s := by
  have heval : (do
      let s₁ ← step oneDeposit initial .start
      let s₂ ← step oneDeposit s₁ .run
      let s₃ ← step oneDeposit s₂ (.lastBlock 5 4)
      let s₄ ← step oneDeposit s₃ .events
      let s₅ ← step oneDeposit s₄ (.resolve 0)
      let s₆ ← step oneDeposit s₅ .written
      pure (s₆.stored, s₅.promises.map Prod.snd)) = some (some 1, [.resolved]) := by
    decide +kernel
  simp only [Option.bind_eq_bind, Option.bind_eq_some_iff, Option.pure_def, Option.some.injEq,
    Prod.mk.injEq] at heval
  obtain ⟨s₁, h₁, s₂, h₂, s₃, h₃, s₄, h₄, s₅, h₅, s₆, h₆, hstored, hpromises⟩ := heval
  have hall : AllAccepted s₅ := by
    intro p hp
    have hp' : p.2 ∈ s₅.promises.map Prod.snd := List.mem_map.mpr ⟨p, hp, rfl⟩
    rw [hpromises] at hp'
    exact List.mem_singleton.mp hp'
  have hwaiting {s s' : EventWatcher String} {input : Input} (h : step oneDeposit s input = some s')
      (hne : input ≠ .written) : StepWaiting oneDeposit s s' := ⟨input, h, fun he => absurd he hne⟩
  have hbefore : Relation.ReflTransGen (StepWaiting oneDeposit) initial s₅ := by
    apply Relation.ReflTransGen.tail _ (hwaiting h₅ (by decide))
    apply Relation.ReflTransGen.tail _ (hwaiting h₄ (by decide))
    apply Relation.ReflTransGen.tail _ (hwaiting h₃ (by decide))
    apply Relation.ReflTransGen.tail _ (hwaiting h₂ (by decide))
    exact .single (hwaiting h₁ (by decide))
  have hrun := hbefore.tail ⟨_, h₆, fun _ => hall⟩
  exact ⟨s₆, hrun, hstored, watcher_loses_no_event hrun⟩

/-- The cursor is stored while the promise of the deposit is pending; the process crashes, and the next one
    starts after the deposit. -/
theorem stored_while_pending :
    ∃ s, Relation.ReflTransGen (Step oneDeposit) initial s ∧ s.lastProcessedBlock = 1 ∧
      s.phase = .idle ∧ s.promises = [] ∧ ¬ NoEventLost oneDeposit s := by
  have heval : (do
      let s₁ ← step oneDeposit initial .start
      let s₂ ← step oneDeposit s₁ .run
      let s₃ ← step oneDeposit s₂ (.lastBlock 5 4)
      let s₄ ← step oneDeposit s₃ .events
      let s₅ ← step oneDeposit s₄ .written
      let s₆ ← step oneDeposit s₅ .crash
      step oneDeposit s₆ .start) = some ⟨some 1, 1, .idle, [], [⟨1, "deposit"⟩], []⟩ := by
    decide +kernel
  simp only [Option.bind_eq_bind, Option.bind_eq_some_iff] at heval
  obtain ⟨s₁, h₁, s₂, h₂, s₃, h₃, s₄, h₄, s₅, h₅, s₆, h₆, h₇⟩ := heval
  have hrun : Relation.ReflTransGen (Step oneDeposit) initial ⟨some 1, 1, .idle, [], [⟨1, "deposit"⟩], []⟩ :=
    .tail (.tail (.tail (.tail (.tail (.tail (.single ⟨_, h₁⟩) ⟨_, h₂⟩) ⟨_, h₃⟩) ⟨_, h₄⟩) ⟨_, h₅⟩) ⟨_, h₆⟩)
      ⟨_, h₇⟩
  refine ⟨_, hrun, rfl, rfl, rfl, ?_⟩
  intro hlost
  exact absurd (hlost 1 rfl ⟨1, "deposit"⟩ List.mem_cons_self (Nat.le_refl _)) List.not_mem_nil

end EventWatcher
end ThunderBridge
