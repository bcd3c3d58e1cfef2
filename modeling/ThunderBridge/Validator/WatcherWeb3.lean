import ThunderBridge.Contracts.Evm
import ThunderBridge.Validator.BatchRequest
import ThunderBridge.Validator.Watcher

/-!
# `Validator.WatcherWeb3` — the events as the nodes give them

The requests of a watcher may be answered by different nodes, and a node that lags behind answers a query for logs
beyond its head with what it has. `WatcherWeb3Impl.getEvents` therefore asks for the head in the same batch,
which one node answers, and throws when that is below the last block of the range.

The nodes are those of one chain: each has its blocks up to some head. `getEvents_resolved_iff` says that whichever of
them answers, and in whatever order the two results come, what is returned is all the matching events of the
range. `Fetched` replaces the `events` and `eventsFailed` of a watcher by what `getEvents` does, and
`nothing_skipped` says that the cursor never passes an event of the chain that was not returned.
-/

namespace ThunderBridge

/-- An argument of an event. -/
structure AbiInput where
  name : String
  type : String
  indexed : Bool
deriving DecidableEq, Repr

/-- An entry of `jsonInterface`. -/
structure AbiItem where
  type : String
  name : String
  signature : Bytes32
  inputs : List AbiInput
deriving DecidableEq, Repr

/-- A log as a node returns it. -/
structure Log where
  address : Address
  topics : List Bytes32
  data : Bytes
  blockNumber : Nat
  transactionHash : Bytes32
deriving DecidableEq, Repr

/-- The parameters of `eth_getLogs`; a topic that is `none` matches all. -/
structure PastLogsOptions where
  address : Address
  fromBlock : Nat
  toBlock : Nat
  topics : List (Option Bytes32)
deriving DecidableEq, Repr

/-- The requests of the batch. -/
inductive RpcRequest where
  | getBlockNumber
  | getPastLogs (options : PastLogsOptions)
deriving DecidableEq, Repr

inductive RpcResult where
  | blockNumber (latestBlock : Nat)
  | logs (logs : List Log)
deriving DecidableEq, Repr

/-- What is decoded from a log; `values` are its arguments. -/
structure DecodedLog (W : Type) where
  address : Address
  transactionHash : Bytes32
  returnValues : W
  event : String
  signature : Option Bytes32
  raw : Bytes × List Bytes32
deriving DecidableEq, Repr

/-- The contract whose events are watched, and the coders of web3. A filter names values of type `V` for arguments,
    and the arguments of a decoded event have type `W`. -/
structure WatcherWeb3Impl (V W : Type) where
  address : Address
  jsonInterface : List AbiItem
  encodeParameter : String → V → Except String Bytes32
  decodeLog : List AbiInput → Bytes → List Bytes32 → Except String W

namespace WatcherWeb3Impl

variable {V W : Type}

/-! ## The source -/

/-- The topic of one indexed argument. -/
def encodeTopic (w : WatcherWeb3Impl V W) (filter : String → Option V) (i : AbiInput) :
    Except String (Option Bytes32) :=
  match filter i.name with
  | none => .ok none
  | some value => (w.encodeParameter i.type value).map some

def encodeEventAbi (w : WatcherWeb3Impl V W) (event : AbiItem) (fromBlock toBlock : Nat)
    (filter : String → Option V) : Except String PastLogsOptions := do
  let indexedTopics ← (event.inputs.filter (·.indexed)).mapM (w.encodeTopic filter)
  pure ⟨w.address, fromBlock, toBlock, some event.signature :: indexedTopics⟩

def decodeEventAbi (w : WatcherWeb3Impl V W) (event : AbiItem) (result : Log) :
    Except String (EventData (DecodedLog W)) := do
  let argTopics := result.topics.drop 1
  let returnValues ← w.decodeLog event.inputs result.data argTopics
  pure ⟨result.blockNumber,
    { address := result.address
      transactionHash := result.transactionHash
      returnValues := returnValues
      event := event.name
      signature := result.topics.head?
      raw := (result.data, result.topics) }⟩

/-- The event of the contract's ABI. -/
def findEvent (w : WatcherWeb3Impl V W) (eventName : String) : Option AbiItem :=
  w.jsonInterface.find? fun item => item.type = "event" ∧ item.name = eventName

/-- `getEvents`. `calls` are the callbacks that web3 makes for the requests of a batch, in their order. -/
def getEvents (w : WatcherWeb3Impl V W) (calls : List RpcRequest → List (Nat × Except String RpcResult))
    (eventName : String) (fromBlock toBlock : Nat) (filter : String → Option V) :
    Settled (List (EventData (DecodedLog W))) :=
  match w.findEvent eventName with
  | none => .rejected (eventName ++ " not in the contract's ABI")
  | some event =>
      match w.encodeEventAbi event fromBlock toBlock filter with
      | .error e => .rejected e
      | .ok logFilter =>
          let batch : BatchRequest RpcRequest RpcResult :=
            (BatchRequest.create.add .getBlockNumber).add (.getPastLogs logFilter)
          match (batch.execute (calls batch.requests)).promise with
          | .pending => .pending
          | .rejected e => .rejected (eventName ++ " events cannot be obtained: Error: " ++ e)
          | .resolved [some (.blockNumber latestBlock), some (.logs logs)] =>
              if latestBlock < toBlock then
                .rejected (eventName ++ " event cannot be obtained: getEvents(fromBlock: " ++ fromBlock.repr ++
                  ", toBlock: " ++ toBlock.repr ++ ") called when latest block reported by RPC node is " ++
                  latestBlock.repr)
              else
                match logs.mapM (w.decodeEventAbi event) with
                | .error e => .rejected (eventName ++ " events cannot be obtained, event decoding failed: " ++ e)
                | .ok events => .resolved events
          | .resolved _ =>
              .rejected (eventName ++
                " events cannot be obtained, event decoding failed: TypeError: logs.map is not a function")

/-! ## The nodes -/

/-- The topics of a log match those that are asked for, position by position. -/
def matchTopics : List (Option Bytes32) → List Bytes32 → Bool
  | [], _ => true
  | none :: wanted, _ :: topics => matchTopics wanted topics
  | some topic :: wanted, topic' :: topics => topic = topic' && matchTopics wanted topics
  | _ :: _, [] => false

/-- The logs of each block of the chain. -/
structure Chain where
  logs : Nat → List Log
  blockNumber : ∀ b, ∀ l ∈ logs b, l.blockNumber = b

/-- The logs of one block that match. -/
def Chain.matching (chain : Chain) (address : Address) (topics : List (Option Bytes32)) (b : Nat) : List Log :=
  (chain.logs b).filter fun l => l.address = address && matchTopics topics l.topics

/-- `eth_getLogs` at a node that has the blocks up to `head`. -/
def Chain.getPastLogs (chain : Chain) (head : Nat) (o : PastLogsOptions) : List Log :=
  (List.range' o.fromBlock (min o.toBlock head + 1 - o.fromBlock)).flatMap (chain.matching o.address o.topics)

/-- What a node answers that reports `latest` as its head and looks for logs at `head`. -/
def Chain.answer (chain : Chain) (latest head : Nat) : RpcRequest → RpcResult
  | .getBlockNumber => .blockNumber latest
  | .getPastLogs options => .logs (chain.getPastLogs head options)

/-- A batch is answered by one node: a callback for each request, in any order, with an error or with what the node
    answers. Its head does not go back before it looks for logs. -/
structure Served (chain : Chain) (latest head : Nat) (rs : List RpcRequest)
    (calls : List (Nat × Except String RpcResult)) : Prop where
  once : (calls.map Prod.fst).Perm (List.range rs.length)
  answered : ∀ i result, (i, .ok result) ∈ calls →
    ∃ r, rs[i]? = some r ∧ result = chain.answer latest head r
  ahead : latest ≤ head

variable {w : WatcherWeb3Impl V W} {chain : Chain} {latest head : Nat} {event : AbiItem}

/-- A log keeps its block. -/
theorem decodeEventAbi_blockNumber {l : Log} {e : EventData (DecodedLog W)} (h : w.decodeEventAbi event l = .ok e) :
    e.blockNumber = l.blockNumber := by
  simp only [decodeEventAbi] at h
  cases hvalues : w.decodeLog event.inputs l.data (l.topics.drop 1) with
  | error err =>
      rw [hvalues] at h
      exact absurd h (by simp [bind, Except.bind])
  | ok returnValues =>
      rw [hvalues] at h
      obtain rfl := Except.ok.inj h
      rfl

/-- Callbacks that come once each are the answers to the requests in some order. -/
theorem exists_answers {A : Type} {calls : List (Nat × Except String A)} (hnodup : (calls.map Prod.fst).Nodup) :
    ∃ answers : Nat → Except String A, calls = (calls.map Prod.fst).map fun i => (i, answers i) := by
  induction calls with
  | nil => exact ⟨fun _ => .error "", rfl⟩
  | cons x calls ih =>
      rw [List.map_cons, List.nodup_cons] at hnodup
      obtain ⟨answers, hanswers⟩ := ih hnodup.2
      refine ⟨Function.update answers x.1 x.2, ?_⟩
      rw [List.map_cons, List.map_cons, Function.update_self]
      congr 1
      calc calls = (calls.map Prod.fst).map fun i => (i, answers i) := hanswers
        _ = (calls.map Prod.fst).map fun i => (i, Function.update answers x.1 x.2 i) := by
          refine List.map_congr_left fun i hi => ?_
          have hne : i ≠ x.1 := fun heq => hnodup.1 (heq ▸ hi)
          rw [Function.update_of_ne hne]

/-- The requests of a batch. -/
def requests (logFilter : PastLogsOptions) : List RpcRequest := [.getBlockNumber, .getPastLogs logFilter]

/-- The promise of a batch. -/
theorem batch_promise {logFilter : PastLogsOptions} {calls : List (Nat × Except String RpcResult)}
    (hserved : Served chain latest head (requests logFilter) calls) :
    ((∀ x ∈ calls, ∃ result, x.2 = .ok result) ∧
      ((BatchRequest.ofRequests (requests logFilter)).execute calls).promise =
        .resolved [some (.blockNumber latest), some (.logs (chain.getPastLogs head logFilter))]) ∨
    ((¬ ∀ x ∈ calls, ∃ result, x.2 = .ok result) ∧ ∃ message,
      ((BatchRequest.ofRequests (requests logFilter)).execute calls).promise = .rejected message) := by
  obtain ⟨honce, hanswered, _⟩ := hserved
  have hnodup : (calls.map Prod.fst).Nodup := honce.nodup_iff.mpr List.nodup_range
  have hlt : ∀ i ∈ calls.map Prod.fst, i < 2 := fun i hi => List.mem_range.mp (honce.mem_iff.mp hi)
  have hlen : (calls.map Prod.fst).length = 2 := by rw [honce.length_eq, List.length_range]; rfl
  obtain ⟨answers, hcalls⟩ := exists_answers hnodup
  have hpromise := BatchRequest.promise_eq answers (requests logFilter) hnodup hlt
  rw [← hcalls] at hpromise
  rw [hpromise]
  have hof (i : Nat) (hi : i < 2) : (i, answers i) ∈ calls := by
    rw [hcalls]
    exact List.mem_map.mpr ⟨i, honce.mem_iff.mpr (List.mem_range.mpr hi), rfl⟩
  cases hfirst : BatchRequest.firstFailed answers (calls.map Prod.fst) with
  | some x =>
      refine Or.inr ⟨?_, _, rfl⟩
      intro hall
      have hnone : BatchRequest.firstFailed answers (calls.map Prod.fst) = none :=
        BatchRequest.firstFailed_eq_none.mpr fun i hi => hall _ (hof i (hlt i hi))
      exact absurd (hfirst.symm.trans hnone) (by simp)
  | none =>
      have hok := BatchRequest.firstFailed_eq_none.mp hfirst
      have hall : ∀ x ∈ calls, ∃ result, x.2 = .ok result := by
        intro x hx
        rw [hcalls] at hx
        obtain ⟨i, hi, rfl⟩ := List.mem_map.mp hx
        exact hok i hi
      refine Or.inl ⟨hall, ?_⟩
      have hresult (i : Nat) (hi : i < 2) (r : RpcRequest) (hr : (requests logFilter)[i]? = some r) :
          BatchRequest.answer? answers i = some (chain.answer latest head r) := by
        obtain ⟨result, hi' : answers i = .ok result⟩ := hall _ (hof i hi)
        obtain ⟨r', hr', rfl⟩ := hanswered i result (hi' ▸ hof i hi)
        obtain rfl : r = r' := Option.some.inj (hr.symm.trans hr')
        rw [BatchRequest.answer?, hi']
      show (if _ then Settled.resolved _ else _) = _
      rw [if_pos ⟨List.cons_ne_nil _ _, hlen⟩]
      show Settled.resolved [BatchRequest.answer? answers 0, BatchRequest.answer? answers 1] = _
      rw [hresult 0 (by decide) _ rfl, hresult 1 (by decide) _ rfl]
      rfl

end WatcherWeb3Impl

/-! ## What is returned -/

/-- What a watcher is made with, and its chain. The event is in the ABI, and the filter can be encoded. -/
structure Watch (V W : Type) where
  id : String
  startBlock : Int
  web3 : WatcherWeb3Impl V W
  eventName : String
  filter : String → Option V
  event : AbiItem
  indexedTopics : List (Option Bytes32)
  chain : WatcherWeb3Impl.Chain
  found : web3.findEvent eventName = some event
  encoded : (event.inputs.filter (·.indexed)).mapM (web3.encodeTopic filter) = .ok indexedTopics

namespace Watch

open WatcherWeb3Impl

variable {V W : Type} {a : Watch V W} {calls : List RpcRequest → List (Nat × Except String RpcResult)}
  {fromBlock toBlock latest head : Nat} {events : List (EventData (DecodedLog W))}

/-- The matching logs of a block. -/
def matching (a : Watch V W) (b : Nat) : List Log :=
  a.chain.matching a.web3.address (some a.event.signature :: a.indexedTopics) b

/-- `getEvents` as the watcher calls it. -/
def getEvents (a : Watch V W) (calls : List RpcRequest → List (Nat × Except String RpcResult))
    (fromBlock toBlock : Nat) : Settled (List (EventData (DecodedLog W))) :=
  a.web3.getEvents calls a.eventName fromBlock toBlock a.filter

/-- All the matching events of a range, if they can be decoded. -/
def decoded (a : Watch V W) (fromBlock toBlock : Nat) : Except String (List (EventData (DecodedLog W))) :=
  ((List.range' fromBlock (toBlock + 1 - fromBlock)).flatMap a.matching).mapM (a.web3.decodeEventAbi a.event)

/-- The logs that the watcher asks for. -/
def logFilter (a : Watch V W) (fromBlock toBlock : Nat) : PastLogsOptions :=
  ⟨a.web3.address, fromBlock, toBlock, some a.event.signature :: a.indexedTopics⟩

/-- What was thrown is no answer. -/
theorem thrown {A : Type} {x : Settled A} {value : A} {message : String} {P : Prop} (hx : x = .rejected message)
    (hP : ¬ P) : (x = .resolved value ↔ P) ∧ x ≠ .pending := by
  subst hx
  exact ⟨⟨fun h => absurd h (by simp), fun h => absurd h hP⟩, by simp⟩

/-- **Whichever node answers, all events are returned.** `getEvents` returns exactly when the node answered both
    requests and has the last block of the range, and all the matching logs of the range can be decoded; what it
    returns is what they decode to. Otherwise it throws. -/
theorem getEvents_resolved_iff (hserved : Served a.chain latest head (requests (a.logFilter fromBlock toBlock))
      (calls (requests (a.logFilter fromBlock toBlock)))) :
    (a.getEvents calls fromBlock toBlock = .resolved events ↔
      (∀ x ∈ calls (requests (a.logFilter fromBlock toBlock)), ∃ result, x.2 = .ok result) ∧
        toBlock ≤ latest ∧ a.decoded fromBlock toBlock = .ok events) ∧
    a.getEvents calls fromBlock toBlock ≠ .pending := by
  have hencoded : a.web3.encodeEventAbi a.event fromBlock toBlock a.filter =
      .ok (a.logFilter fromBlock toBlock) := by
    rw [encodeEventAbi, a.encoded]
    rfl
  have hadded : (BatchRequest.create.add .getBlockNumber).add (.getPastLogs (a.logFilter fromBlock toBlock)) =
      (BatchRequest.ofRequests (requests (a.logFilter fromBlock toBlock)) :
        BatchRequest RpcRequest RpcResult) := rfl
  have hrequests : (BatchRequest.ofRequests (requests (a.logFilter fromBlock toBlock)) :
      BatchRequest RpcRequest RpcResult).requests = requests (a.logFilter fromBlock toBlock) := rfl
  simp only [getEvents, WatcherWeb3Impl.getEvents, a.found, hencoded, hadded, hrequests]
  rcases batch_promise hserved with ⟨hall, hpromise⟩ | ⟨hsome, message, hpromise⟩
  · rw [hpromise]
    by_cases hlatest : latest < toBlock
    · simp only [if_pos hlatest]
      exact thrown rfl fun h => absurd hlatest (Nat.not_lt.mpr h.2.1)
    · have hto : toBlock ≤ latest := Nat.not_lt.mp hlatest
      -- the node has all the blocks of the range
      have hlogs : a.chain.getPastLogs head (a.logFilter fromBlock toBlock) =
          (List.range' fromBlock (toBlock + 1 - fromBlock)).flatMap a.matching := by
        show (List.range' fromBlock (min toBlock head + 1 - fromBlock)).flatMap a.matching = _
        rw [Nat.min_eq_left (Nat.le_trans hto hserved.ahead)]
      simp only [if_neg hlatest, hlogs]
      rw [decoded]
      cases ((List.range' fromBlock (toBlock + 1 - fromBlock)).flatMap a.matching).mapM
          (a.web3.decodeEventAbi a.event) with
      | error e => exact thrown rfl fun h => absurd h.2.2 (by simp)
      | ok events' =>
          refine ⟨⟨?_, ?_⟩, by simp⟩
          · intro h
            exact ⟨hall, hto, congrArg Except.ok (Settled.resolved.inj h)⟩
          · rintro ⟨_, _, h⟩
            exact congrArg Settled.resolved (Except.ok.inj h)
  · rw [hpromise]
    exact thrown rfl fun h => absurd h.1 hsome

/-! ## Runs over nodes -/

/-- The event of a log, if it can be decoded. -/
def decode? (a : Watch V W) (l : Log) : Option (EventData (DecodedLog W)) :=
  match a.web3.decodeEventAbi a.event l with
  | .ok e => some e
  | .error _ => none

/-- The watcher of these events. -/
def config (a : Watch V W) : EventWatcher.Config (DecodedLog W) where
  id := a.id
  startBlock := a.startBlock
  logs b := (a.matching b).filterMap fun l => (a.decode? l).map (·.data)

/-- One step of the watcher, which calls `getEvents` on some node of the chain. -/
inductive Fetched (a : Watch V W) : EventWatcher (DecodedLog W) → EventWatcher (DecodedLog W) → Prop
  | events {s i eventCount fromBlock toBlock latest head events} {calls : List RpcRequest → _}
      (phase : s.phase = .fetching i eventCount fromBlock toBlock)
      (served : Served a.chain latest head (requests (a.logFilter fromBlock toBlock))
        (calls (requests (a.logFilter fromBlock toBlock))))
      (resolved : a.getEvents calls fromBlock toBlock = .resolved events) :
      Fetched a s { s with
        promises := s.promises ++ events.map fun event => (EventWatcher.newTask a.config event, .pending)
        returned := s.returned ++ events
        lastProcessedBlock := toBlock
        phase := .updating i eventCount events.length false }
  /-- It throws, for whatever reason. -/
  | eventsFailed {s i eventCount fromBlock toBlock message} {calls : List RpcRequest → _}
      (phase : s.phase = .fetching i eventCount fromBlock toBlock)
      (rejected : a.getEvents calls fromBlock toBlock = .rejected message) :
      Fetched a s { s with phase := EventWatcher.nextRound i eventCount (-1) }
  | other {s s' input} (events : input ≠ .events) (eventsFailed : input ≠ .eventsFailed)
      (step : EventWatcher.step a.config s input = some s') : Fetched a s s'

/-- Everything that may happen, from before the first process on. -/
def Run (a : Watch V W) (s : EventWatcher (DecodedLog W)) : Prop :=
  Relation.ReflTransGen (Fetched a) .initial s

theorem mapM_eq_ok {A B : Type} {f : A → Except String B} {xs : List A} {ys : List B} (h : xs.mapM f = .ok ys) :
    xs.map f = ys.map .ok := by
  induction xs generalizing ys with
  | nil =>
      obtain rfl := Except.ok.inj h
      rfl
  | cons x xs ih =>
      rw [List.mapM_cons] at h
      cases hx : f x with
      | error e =>
          rw [hx] at h
          exact absurd h (by simp [bind, Except.bind])
      | ok y =>
          cases hxs : xs.mapM f with
          | error e =>
              rw [hx, hxs] at h
              exact absurd h (by simp [bind, Except.bind])
          | ok zs =>
              rw [hx, hxs] at h
              obtain rfl := Except.ok.inj h
              rw [List.map_cons, List.map_cons, hx, ih hxs]

theorem blockNumber_of_matching {b : Nat} {l : Log} (h : l ∈ a.matching b) : l.blockNumber = b :=
  a.chain.blockNumber b l (List.mem_filter.mp h).1

/-- What is returned is what the watcher takes the answer to be. -/
theorem getEvents_of_decoded (h : a.decoded fromBlock toBlock = .ok events) :
    EventWatcher.getEvents a.config fromBlock toBlock = events := by
  have hlogs (b : Nat) : ((a.config.logs b).map fun d => (⟨b, d⟩ : EventData (DecodedLog W))) =
      (a.matching b).filterMap a.decode? := by
    show ((a.matching b).filterMap fun l => (a.decode? l).map (·.data)).map _ = _
    rw [List.map_filterMap]
    refine List.filterMap_congr fun l hl => ?_
    unfold decode?
    cases hdecode : a.web3.decodeEventAbi a.event l with
    | error e => rfl
    | ok e =>
        have hblock : e.blockNumber = b := (decodeEventAbi_blockNumber hdecode).trans (blockNumber_of_matching hl)
        subst hblock
        rfl
  have hevents : (((List.range' fromBlock (toBlock + 1 - fromBlock)).flatMap a.matching).map
      (a.web3.decodeEventAbi a.event)).filterMap (fun x => x.toOption) = events := by
    rw [mapM_eq_ok h, List.filterMap_map]
    exact List.filterMap_some
  rw [EventWatcher.getEvents, ← hevents, List.filterMap_map, List.filterMap_flatMap]
  refine List.flatMap_congr fun b _ => ?_
  rw [hlogs]
  refine List.filterMap_congr fun l _ => ?_
  unfold decode?
  cases hdecode : a.web3.decodeEventAbi a.event l <;> simp [hdecode, Except.toOption]

/-- Nothing in the range is left out. -/
theorem mem_of_decoded (h : a.decoded fromBlock toBlock = .ok events) {b : Nat} (hfrom : fromBlock ≤ b)
    (hto : b ≤ toBlock) {l : Log} (hl : l ∈ a.matching b) :
    ∃ e, a.web3.decodeEventAbi a.event l = .ok e ∧ e ∈ events := by
  have hmem : l ∈ (List.range' fromBlock (toBlock + 1 - fromBlock)).flatMap a.matching := by
    refine List.mem_flatMap.mpr ⟨b, ?_, hl⟩
    rw [List.mem_range'_1]
    omega
  have hdecoded : a.web3.decodeEventAbi a.event l ∈ events.map Except.ok := by
    rw [← mapM_eq_ok h]
    exact List.mem_map_of_mem hmem
  obtain ⟨e, he, heq⟩ := List.mem_map.mp hdecoded
  exact ⟨e, heq.symm, he⟩

/-- Nothing else is returned. -/
theorem of_mem_decoded (h : a.decoded fromBlock toBlock = .ok events) {e : EventData (DecodedLog W)}
    (he : e ∈ events) : ∃ b, fromBlock ≤ b ∧ b ≤ toBlock ∧
      ∃ l ∈ a.matching b, a.web3.decodeEventAbi a.event l = .ok e := by
  have hdecoded : Except.ok e ∈ ((List.range' fromBlock (toBlock + 1 - fromBlock)).flatMap a.matching).map
      (a.web3.decodeEventAbi a.event) := by
    rw [mapM_eq_ok h]
    exact List.mem_map_of_mem he
  obtain ⟨l, hmem, hdecode⟩ := List.mem_map.mp hdecoded
  obtain ⟨b, hb, hl⟩ := List.mem_flatMap.mp hmem
  rw [List.mem_range'_1] at hb
  exact ⟨b, hb.1, by omega, l, hl, hdecode⟩

/-- **The watcher over nodes is the watcher of the events of the chain.** -/
theorem fetched_step {s s' : EventWatcher (DecodedLog W)} (h : Fetched a s s') : EventWatcher.Step a.config s s' := by
  cases h with
  | events hphase hserved hresolved =>
      obtain ⟨_, _, hdecoded⟩ := (getEvents_resolved_iff hserved).1.mp hresolved
      refine ⟨.events, ?_⟩
      simp only [EventWatcher.step, hphase, getEvents_of_decoded hdecoded]
  | eventsFailed hphase _ =>
      refine ⟨.eventsFailed, ?_⟩
      simp only [EventWatcher.step, hphase]
  | other _ _ hstep => exact ⟨_, hstep⟩

/-! ## Nothing is skipped -/

/-- Every matching log after the first block, up to `k`, was decoded and returned. -/
def ReturnedUpTo (a : Watch V W) (returned : List (EventData (DecodedLog W))) (k : Nat) : Prop :=
  ∀ b, a.config.firstBlock < b → b ≤ k → ∀ l ∈ a.matching b,
    ∃ e, a.web3.decodeEventAbi a.event l = .ok e ∧ e ∈ returned

/-- What holds in every run. -/
structure Complete (a : Watch V W) (s : EventWatcher (DecodedLog W)) : Prop where
  onChain : ∀ e ∈ s.returned, a.config.firstBlock < e.blockNumber ∧
    ∃ l ∈ a.matching e.blockNumber, a.web3.decodeEventAbi a.event l = .ok e
  stored : ∀ k, s.stored = some k → a.ReturnedUpTo s.returned k
  cursor : s.phase ≠ .down →
    a.config.firstBlock ≤ s.lastProcessedBlock ∧ a.ReturnedUpTo s.returned s.lastProcessedBlock
  ahead : s.phase.Ahead s.lastProcessedBlock

variable {s s' : EventWatcher (DecodedLog W)}

theorem complete_initial : Complete a .initial where
  onChain e he := absurd he List.not_mem_nil
  stored k hk := absurd hk (by simp [EventWatcher.initial])
  cursor hup := absurd rfl hup
  ahead := trivial

/-- Moving on within a process changes the phase only. -/
theorem Complete.phase (h : Complete a s) {phase : EventWatcher.Phase} (hup : s.phase ≠ .down)
    (hahead : phase.Ahead s.lastProcessedBlock) : Complete a { s with phase := phase } :=
  ⟨h.onChain, h.stored, fun _ => h.cursor hup, hahead⟩

/-- A new process starts at the cursor that is stored, or at the first block. -/
theorem Complete.start (h : Complete a s) :
    Complete a { s with
      lastProcessedBlock := EventWatcher.loadLastProcessedBlock a.config s.stored
      phase := .idle
      promises := [] } := by
  refine ⟨h.onChain, h.stored, fun _ => ⟨?_, ?_⟩, trivial⟩
  · show a.config.firstBlock ≤ EventWatcher.loadLastProcessedBlock a.config s.stored
    unfold EventWatcher.loadLastProcessedBlock
    split
    · exact Nat.le_max_right _ _
    · exact Nat.le_refl _
  · intro b hfirst hle l hl
    have hload : b ≤ EventWatcher.loadLastProcessedBlock a.config s.stored := hle
    unfold EventWatcher.loadLastProcessedBlock at hload
    split at hload
    · rename_i k hk
      rcases le_max_iff.mp hload with hstored | hstart
      · exact h.stored k hk b hfirst hstored l hl
      · omega
    · omega

/-- A range is returned, and the cursor moves to its end. -/
theorem Complete.returns (h : Complete a s) {i : Nat} {eventCount : Int}
    (hphase : s.phase = .fetching i eventCount fromBlock toBlock)
    (hdecoded : a.decoded fromBlock toBlock = .ok events)
    (promises : List (EventTask (DecodedLog W) × PromiseState)) (n : Nat) :
    Complete a { s with
      promises := promises
      returned := s.returned ++ events
      lastProcessedBlock := toBlock
      phase := .updating i eventCount n false } := by
  have hup : s.phase ≠ .down := by simp [hphase]
  obtain ⟨hfirst, hcursor⟩ := h.cursor hup
  have hahead := h.ahead
  rw [hphase] at hahead
  obtain ⟨rfl, hto⟩ := hahead
  have hold {k : Nat} (hk : a.ReturnedUpTo s.returned k) : a.ReturnedUpTo (s.returned ++ events) k := by
    intro b hb hle l hl
    obtain ⟨e, he, hmem⟩ := hk b hb hle l hl
    exact ⟨e, he, List.mem_append_left _ hmem⟩
  refine ⟨?_, fun k hk => hold (h.stored k hk), fun _ => ⟨?_, ?_⟩, trivial⟩
  · intro e he
    rcases List.mem_append.mp he with hbefore | hnew
    · exact h.onChain e hbefore
    · obtain ⟨b, hfrom, _, l, hl, hdecode⟩ := of_mem_decoded hdecoded hnew
      have hblock : e.blockNumber = b := (decodeEventAbi_blockNumber hdecode).trans (blockNumber_of_matching hl)
      subst hblock
      exact ⟨by omega, l, hl, hdecode⟩
  · show a.config.firstBlock ≤ toBlock
    omega
  · intro b hb hle l hl
    have hle' : b ≤ toBlock := hle
    rcases Nat.lt_or_ge s.lastProcessedBlock b with hnew | hbefore
    · obtain ⟨e, he, hmem⟩ := mem_of_decoded hdecoded hnew hle' hl
      exact ⟨e, he, List.mem_append_right _ hmem⟩
    · exact hold hcursor b hb hbefore l hl

theorem fetched_complete (h : Fetched a s s') (hs : Complete a s) : Complete a s' := by
  cases h with
  | events hphase hserved hresolved =>
      obtain ⟨_, _, hdecoded⟩ := (getEvents_resolved_iff hserved).1.mp hresolved
      exact hs.returns hphase hdecoded _ _
  | eventsFailed hphase _ =>
      exact hs.phase (by simp [hphase]) (EventWatcher.nextRound_ahead ..)
  | @other _ input hevents hfailed hstep =>
      cases input with
      | start =>
          obtain ⟨_, rfl⟩ := EventWatcher.step_start_inv hstep
          exact hs.start
      | crash =>
          obtain rfl := Option.some.inj hstep
          exact ⟨hs.onChain, hs.stored, fun hup => absurd rfl hup, trivial⟩
      | run =>
          obtain ⟨hphase, rfl⟩ := EventWatcher.step_run_inv hstep
          exact hs.phase (by simp [hphase]) trivial
      | lastBlock lastBlockNumber requiredBlockConfirmations =>
          obtain ⟨i, eventCount, hphase, rfl | ⟨hlast, rfl⟩⟩ := EventWatcher.step_lastBlock_inv hstep
          · exact hs.phase (by simp [hphase]) (EventWatcher.nextRound_ahead ..)
          · exact hs.phase (by simp [hphase]) ⟨rfl, EventWatcher.lt_batchEnd hlast⟩
      | events => exact absurd rfl hevents
      | eventsFailed => exact absurd rfl hfailed
      | written =>
          obtain ⟨i, eventCount, n, hphase, rfl⟩ := EventWatcher.step_written_inv hstep
          have hcursor := hs.cursor (by simp [hphase])
          refine ⟨hs.onChain, ?_, fun _ => hcursor, trivial⟩
          rintro k hk
          obtain rfl : s.lastProcessedBlock = k := Option.some.inj hk
          exact hcursor.2
      | lastBlockFailed | updated | updateFailed =>
          obtain ⟨i, eventCount, n, hup, rfl⟩ := EventWatcher.step_round_inv (by simp) hstep
          exact hs.phase hup (EventWatcher.nextRound_ahead ..)
      | resolve k =>
          obtain ⟨task, _, rfl⟩ := EventWatcher.step_resolve_inv hstep
          exact ⟨hs.onChain, hs.stored, hs.cursor, hs.ahead⟩
      | reject k =>
          obtain ⟨task, _, rfl⟩ := EventWatcher.step_reject_inv hstep
          exact ⟨hs.onChain, hs.stored, hs.cursor, hs.ahead⟩

/-- **Nothing is skipped and nothing is made up.** In every run, whichever node of the chain answers each query,
    however far it lags, and whatever fails, stops and starts again: an event is returned only for a matching log
    of the chain after the first block, and every matching log between that block and the cursor, in memory or in
    redis, was returned. -/
theorem nothing_skipped (hrun : Run a s) :
    (∀ e ∈ s.returned, a.config.firstBlock < e.blockNumber ∧
      ∃ l ∈ a.matching e.blockNumber, a.web3.decodeEventAbi a.event l = .ok e) ∧
    ∀ b, a.config.firstBlock < b →
      (s.phase ≠ .down ∧ b ≤ s.lastProcessedBlock ∨ ∃ k, s.stored = some k ∧ b ≤ k) →
      ∀ l ∈ a.matching b, ∃ e, a.web3.decodeEventAbi a.event l = .ok e ∧ e ∈ s.returned := by
  have hcomplete : Complete a s :=
    Calls.steps_invariant (P := Complete a) (fun _ _ hs hstep => fetched_complete hstep hs) hrun complete_initial
  refine ⟨hcomplete.onChain, ?_⟩
  rintro b hfirst (⟨hup, hle⟩ | ⟨k, hk, hle⟩) l hl
  · exact (hcomplete.cursor hup).2 b hfirst hle l hl
  · exact hcomplete.stored k hk b hfirst hle l hl

/-- Events named `Transfer` without arguments; block 3 of the chain has one. -/
def sampleWatch : Watch Unit Unit where
  id := "erc-erc-affirmation-request"
  startBlock := 0
  web3 :=
    { address := 7
      jsonInterface := [⟨"event", "Transfer", 1, []⟩]
      encodeParameter := fun _ _ => .ok 0
      decodeLog := fun _ _ _ => .ok () }
  eventName := "Transfer"
  filter := fun _ => none
  event := ⟨"event", "Transfer", 1, []⟩
  indexedTopics := []
  chain := ⟨fun b => if b = 3 then [⟨7, [1], [], 3, 9⟩] else [], by
    intro b l hl
    split at hl
    · rename_i hb
      rw [List.mem_singleton.mp hl, hb]
    · exact absurd hl List.not_mem_nil⟩
  found := rfl
  encoded := rfl

/-- A node with the blocks up to `head`; the logs come back first. -/
def nodeCalls (head : Nat) (rs : List RpcRequest) : List (Nat × Except String RpcResult) :=
  (rs.mapIdx fun i r => (i, .ok (sampleWatch.chain.answer head head r))).reverse

theorem nodeCalls_served (head fromBlock toBlock : Nat) :
    Served sampleWatch.chain head head (requests (sampleWatch.logFilter fromBlock toBlock))
      (nodeCalls head (requests (sampleWatch.logFilter fromBlock toBlock))) where
  once := List.Perm.swap 0 1 []
  answered := by
    intro i result hmem
    rcases List.mem_cons.mp hmem with heq | hmem
    · obtain ⟨rfl, hresult⟩ := Prod.mk.inj heq
      exact ⟨_, rfl, Except.ok.inj hresult⟩
    · obtain ⟨rfl, hresult⟩ := Prod.mk.inj (List.mem_singleton.mp hmem)
      exact ⟨_, rfl, Except.ok.inj hresult⟩
  ahead := Nat.le_refl head

/-- What the log of block 3 decodes to. -/
def sampleEvent : EventData (DecodedLog Unit) := ⟨3, ⟨7, 9, (), "Transfer", some 1, ([], [1])⟩⟩

/-- A step that is no answer of a node. -/
theorem Run.input (hrun : Run a s) (input : EventWatcher.Input) (hevents : input ≠ .events)
    (hfailed : input ≠ .eventsFailed) (hstep : EventWatcher.step a.config s input = some s') : Run a s' :=
  hrun.tail (.other hevents hfailed hstep)

/-- The first node lags behind, and the next one returns the event. -/
theorem nothing_skipped_lagging : ∃ s, Run sampleWatch s ∧ s.lastProcessedBlock = 4 ∧
    sampleEvent ∈ s.returned := by
  let running : EventWatcher (DecodedLog Unit) := { EventWatcher.initial with phase := .idle }
  have hfetching (hrun : Run sampleWatch running) :
      Run sampleWatch { running with phase := .fetching 0 0 1 4 } := by
    have hstarting : Run sampleWatch { running with phase := .starting 0 0 } :=
      hrun.input .run (by simp) (by simp) rfl
    exact hstarting.input (.lastBlock 5 1) (by simp) (by simp) rfl
  have hstarted : Run sampleWatch running := Run.input .refl .start (by simp) (by simp) rfl
  obtain ⟨_, hthrown⟩ : ∃ message, sampleWatch.getEvents (nodeCalls 2) 1 4 = .rejected message := ⟨_, rfl⟩
  have hlagging : Run sampleWatch running := (hfetching hstarted).tail (.eventsFailed rfl hthrown)
  have hreturned : sampleWatch.getEvents (nodeCalls 4) 1 4 = .resolved [sampleEvent] := by
    decide +kernel
  have hdone := (hfetching hlagging).tail (.events rfl (nodeCalls_served 4 1 4) hreturned)
  obtain ⟨_, hpassed⟩ := nothing_skipped hdone
  obtain ⟨e, hdecode, hmem⟩ := hpassed 3 (by decide) (Or.inl ⟨by simp, by decide⟩)
    ⟨7, [1], [], 3, 9⟩ (by decide)
  obtain rfl : sampleEvent = e := Except.ok.inj hdecode
  exact ⟨_, hdone, rfl, hmem⟩

end Watch
end ThunderBridge
