import ThunderBridge.Lib.Calls
import ThunderBridge.Lib.Messages
import ThunderBridge.Validator.Types

/-!
# `Validator.Pipeline` — sender, receiptor and their queues

The sender takes event tasks from its queue, submits a transaction for each and puts a receipt task into the
queue of the receptor, which waits for the receipt and its confirmations and puts a retry task back into the
queue of the sender when the transaction is lost or failed. Both publish to delay queues, from which a
message returns to the main queue after a while.

A message stays in its queue until it is acknowledged, so the state is one list of messages, each with
what its consumer is waiting for (`SenderAwait`, `ReceiptAwait`); one that is not being consumed is `ready` or
`delayed`. Every `await` of the source is a place where the consumer can be answered, fail or be stopped by
a crash, after which the broker delivers the message again. The operations a consumer issues on its
channel are carried out in order, and a crash loses those that were not (`channel`).

The node is what the services see of it: the chain nonce of the validator, the transactions that were mined
and those in its pool. `accepted` and `ended` are ghosts.
-/

namespace ThunderBridge

/-! ## What a message waits for -/

/-- An operation of the sender on its channel: to publish to a retry queue, to acknowledge. -/
inductive SenderOp (D : Type) where
  | publish (task : EventTask D)
  | ack
  | nack
deriving DecidableEq, Repr

/-- Where an event task is. -/
inductive SenderAwait (D : Type) where
  /-- In a retry queue. -/
  | delayed
  /-- In the queue of the sender. -/
  | ready
  | processEvents
  /-- `run` reads the chain nonce because the event of a retry task was ignored. -/
  | fillNonce
  | sendToSelf
  /-- `newReceiptTask` and `enqueueReceiptor` for the dummy transaction. -/
  | dummyBlock (tx : Tx)
  | dummyReceipt (receipt : ReceiptTask D)
  | lock
  /-- `readNonce(true)` of a retry task. -/
  | retryNonce
  /-- `readNonce(false)`: the cache, then the node. -/
  | cachedNonce
  | freshNonce
  | sendTransaction (nonce : Nat)
  | sentBlock (nonce : Nat) (tx : Tx)
  | sentReceipt (nonce : Nat) (receipt : ReceiptTask D)
  | importedBlock (nonce : Nat) (tx : Tx)
  | importedReceipt (nonce : Nat) (receipt : ReceiptTask D)
  /-- `readNonce(true)` after the nonce was too low. -/
  | forceNonce
  | updateNonce (nonce : Nat) (result : SendResult)
  /-- `unlock`, with the result of `sendTx`, or on the way out of an exception. -/
  | unlock (result : Option SendResult)
  | channel (ops : List (SenderOp D))
deriving DecidableEq, Repr

inductive ReceiptOp where
  | retry
  | ack
  | nack
deriving DecidableEq, Repr

/-- Where a receipt task is. -/
inductive ReceiptAwait where
  | delayed
  | ready
  | getReceipt
  /-- The promise of `getReceipt` is never settled when the node fails. -/
  | hung
  /-- `checkBlockAdvencedK` without a receipt, and with a success receipt of block `blockNumber`. -/
  | nullBlock
  | successBlock (blockNumber : Nat)
  | resend (nonce : Option Nat) (result : ReceiptResult)
  | channel (ops : List ReceiptOp)
deriving DecidableEq, Repr

/-- A message of one of the queues. -/
inductive QueueMessage (D : Type) where
  | sender (task : EventTask D) (await : SenderAwait D)
  | receiptor (task : ReceiptTask D) (await : ReceiptAwait)
deriving DecidableEq, Repr

/-- Why an event task needs no message any more. -/
inductive Ending where
  /-- `processEvents` returned no transaction. -/
  | ignored
  /-- The submission was rejected: `sendTx` returned this result. -/
  | blockGasLimitExceeded
  /-- A success receipt has enough blocks on top. -/
  | confirmed
deriving DecidableEq, Repr

/-- The event a task is about. -/
abbrev Origin (D : Type) := String × EventData D

def EventTask.origin {D : Type} (task : EventTask D) : Origin D := (task.eventType, task.event)

/-- The queues, the node and the cached nonce. -/
structure Pipeline (D : Type) where
  messages : List (QueueMessage D)
  chainNonce : Nat
  mined : List Tx
  pool : List Tx
  cachedNonce : Option Nat
  accepted : List (Origin D)
  ended : List (Origin D × Ending)
deriving DecidableEq, Repr

namespace Pipeline

variable {D : Type}

structure Config where
  MAX_WAIT_RECEIPT_BLOCK : Nat
  blockConfirmation : Nat
deriving Repr

/-- What a step does with one message: the messages in its place, what it adds to the pool, the new cached
    nonce, and the end of the task. -/
structure Move (D : Type) where
  successors : List (QueueMessage D)
  pooled : List Tx
  cached : Option Nat
  ended : Option Ending

/-! ## The sender -/

/-- The consumer works on the message. -/
def SenderAwait.running : SenderAwait D → Bool
  | .delayed | .ready => false
  | _ => true

/-- The consumer holds the lock of the nonce. -/
def SenderAwait.locked : SenderAwait D → Bool
  | .retryNonce | .cachedNonce | .freshNonce | .sendTransaction _ | .sentBlock _ _ | .sentReceipt _ _
  | .importedBlock _ _ | .importedReceipt _ _ | .forceNonce | .updateNonce _ _ | .unlock _ => true
  | _ => false

/-- The handling of an exception in `sendTx`; `txHash` is the field of a `SubmitTxError`. -/
def caught (nonce : Nat) (message : String) (txHash : Option Tx) : SenderAwait D :=
  if SendTxError.isTxWasImportedError message then
    match txHash with
    | some tx => .importedBlock nonce tx
    | none => .updateNonce nonce .txImported
  else if SendTxError.isBlockGasLimitExceededError message then .updateNonce nonce .blockGasLimitExceeded
  else if SendTxError.isInsufficientFundError message then .updateNonce nonce .insufficientFunds
  else if SendTxError.isNonceTooLowError message then .forceNonce
  else if SendTxError.isTimeoutError message then .updateNonce nonce .timeout
  else .updateNonce nonce .failed

/-- Whether the exception ends the task: `sendTx` returns `blockGasLimitExceeded`. -/
def rejection (message : String) : Option Ending :=
  if SendTxError.isTxWasImportedError message then none
  else if SendTxError.isBlockGasLimitExceededError message then some .blockGasLimitExceeded
  else none

/-- `runSender` after `run` returned. -/
def finish (task : EventTask D) : SendResult → List (SenderOp D)
  | .success | .skipped | .sendDummyTxToFillNonce | .txImported => [.ack]
  | .failed | .timeout => [.publish task, .nack]
  -- the process exits afterwards
  | .insufficientFunds => [.publish task, .nack]
  | .blockGasLimitExceeded => [.nack]
  | .nonceTooLow => [.publish (if isRetryTask task then { task with nonce := none } else task), .nack]

/-- `runSender` after `run` threw. -/
def thrown (task : EventTask D) : SenderAwait D := .channel [.publish task, .nack]

def newReceiptTask (task : EventTask D) (txHash : Tx) (nonce currentBlock now : Nat) : ReceiptTask D where
  eventTask := task
  nonce := nonce
  timestamp := now
  transactionHash := txHash
  sentBlock := currentBlock
  retries := task.retries

/-- `updateNonce`: the cached nonce only grows. -/
def updatedNonce (oldNonce : Option Nat) (newNonce : Nat) : Nat :=
  match oldNonce with
  | none => newNonce
  | some old => if old < newNonce then newNonce else old

/-! ## The receiptor -/

def ReceiptAwait.running : ReceiptAwait → Bool
  | .delayed | .ready => false
  | _ => true

/-- The task that `resendEvent` puts into the queue of the sender. -/
def resendEvent (task : ReceiptTask D) (nonce : Option Nat) : EventTask D :=
  { task.eventTask with
    nonce := nonce
    retries := some (match task.retries with
      | some retries => retries + 1
      | none => 1)
    timestamp := some task.timestamp }

/-- `checkBlockAdvencedK`. -/
def checkBlockAdvencedK (block k currBlock : Nat) : Bool := block + k ≤ currBlock

/-- `getReceipt` of the main program after `run` returned. -/
def finishReceipt : ReceiptResult → List ReceiptOp
  | .success => [.ack]
  | .waittingK | .waittingReceipt => [.retry, .nack]
  | .null | .failed => [.nack]

/-! ## Answers -/

/-- What can happen to one message. -/
inductive Answer where
  /-- The delay of a retry queue is over. -/
  | expire
  | deliver
  | crash
  /-- The call the consumer waits for throws an error of its own. -/
  | fails (e : PlainError)
  | txInfos (nonempty : Bool)
  | nonce (transactionCount : Nat)
  /-- The cache is read, or cannot be. -/
  | cache (readable : Bool)
  /-- The node accepts a transaction. -/
  | sent (content : Nat)
  /-- A `SubmitTxError`; the transaction may have reached the pool all the same. -/
  | refused (content : Nat) (pooled : Bool) (message : String)
  /-- The node accepts a transaction and does not answer in time. -/
  | lost (content : Nat)
  | block (number now : Nat)
  | published
  /-- The publisher throws, whether or not the broker has the message. -/
  | unconfirmed (stored : Bool) (e : PlainError)
  | done
  | receipt (found : Option (Bool × Nat))
  /-- The broker carries out the next operation. -/
  | carriedOut
deriving DecidableEq, Repr

/-- Nothing but the message changes. -/
def only (successors : List (QueueMessage D)) : Option (Move D) := some ⟨successors, [], none, none⟩

theorem only_eq_some {xs : List (QueueMessage D)} {v : Move D} :
    only xs = some v ↔ v = ⟨xs, [], none, none⟩ := by
  unfold only
  rw [Option.some.injEq, eq_comm]

/-- The exception of a call inside `sendTx`, with the messages beside the task's and what reached the pool. -/
def throwInSendTx (task : EventTask D) (nonce : Nat) (message : String) (txHash : Option Tx)
    (beside : List (QueueMessage D)) (pooled : List Tx) : Move D where
  successors := .sender task (caught nonce message txHash) :: beside
  pooled := pooled
  cached := none
  ended := rejection message

/-- One step of the sender with an event task; `free` says that nobody holds the lock. -/
def senderMove (p : Pipeline D) (free : Bool) (task : EventTask D) (await : SenderAwait D) :
    Answer → Option (Move D)
  | .expire =>
      match await with
      | .delayed => only [.sender task .ready]
      | _ => none
  | .deliver =>
      match await with
      | .ready => only [.sender task .processEvents]
      | _ => none
  -- the broker delivers again what was not acknowledged
  | .crash => if SenderAwait.running await then only [.sender task .ready] else none
  | .fails e =>
      match await with
      | .processEvents | .fillNonce | .dummyBlock _ | .lock | .unlock _ => only [.sender task (thrown task)]
      -- outside the `try` of `sendTx`, or inside its `catch`
      | .retryNonce | .freshNonce | .importedBlock _ _ | .forceNonce | .updateNonce _ _ =>
          only [.sender task (.unlock none)]
      | .sendToSelf =>
          if SendTxError.isNonceTooLowError e.message then
            only [.sender task (.channel (finish task .skipped))]
          else only [.sender task (thrown task)]
      | .sendTransaction nonce | .sentBlock nonce _ => some (throwInSendTx task nonce e.message none [] [])
      | _ => none
  | .txInfos nonempty =>
      match await with
      | .processEvents =>
          if nonempty then only [.sender task .lock]
          -- nothing to send, but a retry task may have a nonce that others wait for
          else if isRetryTask task then some ⟨[.sender task .fillNonce], [], none, some .ignored⟩
          else some ⟨[.sender task (.channel (finish task .skipped))], [], none, some .ignored⟩
      | _ => none
  | .nonce n =>
      -- a node may lag behind the chain
      if n ≤ p.chainNonce then
        match await with
        | .fillNonce =>
            match task.nonce with
            | some nonce =>
                if n ≤ nonce then only [.sender task .sendToSelf]
                else only [.sender task (.channel (finish task .skipped))]
            | none => only [.sender task (.channel (finish task .skipped))]
        | .retryNonce =>
            -- the nonce of the task, unless the chain has passed it
            match task.nonce with
            | some nonce =>
                if n ≤ nonce then only [.sender task (.sendTransaction nonce)]
                else only [.sender task .cachedNonce]
            | none => only [.sender task .cachedNonce]
        | .freshNonce => only [.sender task (.sendTransaction n)]
        | .forceNonce => only [.sender task (.updateNonce n .nonceTooLow)]
        | _ => none
      else none
  | .cache readable =>
      match await with
      | .cachedNonce =>
          match (if readable then p.cachedNonce else none) with
          | some nonce => only [.sender task (.sendTransaction nonce)]
          | none => only [.sender task .freshNonce]
      | _ => none
  | .sent content =>
      match await with
      | .sendToSelf =>
          match task.nonce with
          | some nonce => some ⟨[.sender task (.dummyBlock ⟨nonce, content⟩)], [⟨nonce, content⟩], none, none⟩
          | none => none
      | .sendTransaction nonce =>
          some ⟨[.sender task (.sentBlock nonce ⟨nonce, content⟩)], [⟨nonce, content⟩], none, none⟩
      | _ => none
  | .refused content pooled message =>
      match await with
      | .sendToSelf =>
          match task.nonce with
          | some nonce =>
              let tx : Tx := ⟨nonce, content⟩
              let pool := if pooled then [tx] else []
              if SendTxError.isNonceTooLowError message then
                some ⟨[.sender task (.channel (finish task .skipped))], pool, none, none⟩
              else if SendTxError.isTxWasImportedError message then
                some ⟨[.sender task (.dummyBlock tx)], pool, none, none⟩
              else some ⟨[.sender task (thrown task)], pool, none, none⟩
          | none => none
      | .sendTransaction nonce =>
          let tx : Tx := ⟨nonce, content⟩
          some (throwInSendTx task nonce message (some tx) [] (if pooled then [tx] else []))
      | _ => none
  | .lost content =>
      match await with
      | .sendToSelf =>
          -- the timeout is neither "nonce too low" nor "already imported"
          match task.nonce with
          | some nonce => some ⟨[.sender task (thrown task)], [⟨nonce, content⟩], none, none⟩
          | none => none
      | .sendTransaction nonce => some (throwInSendTx task nonce submitTimeout none [] [⟨nonce, content⟩])
      | _ => none
  | .block number now =>
      match await with
      | .dummyBlock tx =>
          only [.sender task (.dummyReceipt (newReceiptTask task tx (task.nonce.getD 0) number now))]
      | .sentBlock nonce tx =>
          only [.sender task (.sentReceipt nonce (newReceiptTask task tx nonce number now))]
      | .importedBlock nonce tx =>
          only [.sender task (.importedReceipt nonce (newReceiptTask task tx nonce number now))]
      | _ => none
  | .published =>
      match await with
      | .dummyReceipt receipt =>
          only [.sender task (.channel (finish task .sendDummyTxToFillNonce)), .receiptor receipt .ready]
      | .sentReceipt nonce receipt =>
          only [.sender task (.updateNonce (nonce + 1) .success), .receiptor receipt .ready]
      | .importedReceipt nonce receipt =>
          only [.sender task (.updateNonce nonce .txImported), .receiptor receipt .ready]
      | _ => none
  | .unconfirmed stored e =>
      match await with
      | .dummyReceipt receipt =>
          only (.sender task (thrown task) :: if stored then [.receiptor receipt .ready] else [])
      | .sentReceipt nonce receipt =>
          some (throwInSendTx task nonce e.message none (if stored then [.receiptor receipt .ready] else []) [])
      | .importedReceipt _ receipt =>
          only (.sender task (.unlock none) :: if stored then [.receiptor receipt .ready] else [])
      | _ => none
  | .done =>
      match await with
      | .lock =>
          -- `sendTx` starts
          if free then only [.sender task (if isRetryTask task then .retryNonce else .cachedNonce)] else none
      | .updateNonce nonce result =>
          some ⟨[.sender task (.unlock (some result))], [], some (updatedNonce p.cachedNonce nonce), none⟩
      | .unlock (some result) => only [.sender task (.channel (finish task result))]
      | .unlock none => only [.sender task (thrown task)]
      | _ => none
  | .carriedOut =>
      match await with
      -- the copy is in a retry queue before the message is acknowledged
      | .channel (.publish task' :: ops) => only [.sender task (.channel ops), .sender task' .delayed]
      | .channel (.ack :: _) | .channel (.nack :: _) => only []
      | _ => none
  | .receipt _ => none

/-- One step of the receiptor with a receipt task. -/
def receiptMove (c : Config) (p : Pipeline D) (task : ReceiptTask D) (await : ReceiptAwait) :
    Answer → Option (Move D)
  | .expire =>
      match await with
      | .delayed => only [.receiptor task .ready]
      | _ => none
  | .deliver =>
      match await with
      | .ready => only [.receiptor task .getReceipt]
      | _ => none
  | .crash => if ReceiptAwait.running await then only [.receiptor task .ready] else none
  | .fails _ =>
      match await with
      -- the executor of the promise throws, and nothing settles the promise
      | .getReceipt => only [.receiptor task .hung]
      | .nullBlock | .successBlock _ => only [.receiptor task (.channel [.retry, .nack])]
      | _ => none
  | .receipt found =>
      match await with
      | .getReceipt =>
          match found with
          | none => only [.receiptor task .nullBlock]
          | some (status, blockNumber) =>
              -- the node has no receipt of a transaction that was not mined
              if task.transactionHash ∈ p.mined then
                if status then only [.receiptor task (.successBlock blockNumber)]
                else only [.receiptor task (.resend none .failed)]
              else none
      | _ => none
  | .block number _ =>
      match await with
      | .nullBlock =>
          if checkBlockAdvencedK task.sentBlock c.MAX_WAIT_RECEIPT_BLOCK number then
            only [.receiptor task (.resend (some task.nonce) .null)]
          else only [.receiptor task (.channel (finishReceipt .waittingReceipt))]
      | .successBlock blockNumber =>
          if checkBlockAdvencedK blockNumber c.blockConfirmation number then
            some ⟨[.receiptor task (.channel (finishReceipt .success))], [], none, some .confirmed⟩
          else only [.receiptor task (.channel (finishReceipt .waittingK))]
      | _ => none
  | .published =>
      match await with
      | .resend nonce result =>
          only [.receiptor task (.channel (finishReceipt result)), .sender (resendEvent task nonce) .ready]
      | _ => none
  | .unconfirmed stored _ =>
      match await with
      | .resend nonce _ =>
          only (.receiptor task (.channel [.retry, .nack]) ::
            if stored then [.sender (resendEvent task nonce) .ready] else [])
      | _ => none
  | .carriedOut =>
      match await with
      | .channel (.retry :: ops) => only [.receiptor task (.channel ops), .receiptor task .delayed]
      | .channel (.ack :: _) | .channel (.nack :: _) => only []
      | _ => none
  | _ => none

/-! ## The system -/

inductive Input (D : Type) where
  /-- The queue of the sender accepts an event task of the watcher. -/
  | accept (eventType : String) (event : EventData D)
  /-- Something happens to the `k`-th message. -/
  | answer (k : Nat) (answer : Answer)
  /-- The next transaction of the validator is mined. -/
  | mine (tx : Tx)
  /-- The node drops a transaction. -/
  | drop (tx : Tx)
deriving DecidableEq, Repr

/-- Nobody holds the lock. -/
def free (p : Pipeline D) : Bool :=
  p.messages.all fun m =>
    match m with
    | .sender _ await => !SenderAwait.locked await
    | .receiptor _ _ => true

/-- The event that a message is about. -/
def origin : QueueMessage D → Origin D
  | .sender task _ => task.origin
  | .receiptor task _ => task.eventTask.origin

/-- What can happen to a message. -/
def move (c : Config) (p : Pipeline D) : QueueMessage D → Answer → Option (Move D)
  | .sender task await, answer => senderMove p p.free task await answer
  | .receiptor task await, answer => receiptMove c p task await answer

/-- The `k`-th message makes a move. -/
def apply (p : Pipeline D) (k : Nat) (m : QueueMessage D) (v : Move D) : Pipeline D :=
  { p with
    messages := Messages.replaceAt p.messages k v.successors
    pool := v.pooled ++ p.pool
    cachedNonce := v.cached.or p.cachedNonce
    ended := (v.ended.map fun e => (origin m, e)).toList ++ p.ended }

def step (c : Config) (p : Pipeline D) : Input D → Option (Pipeline D)
  | .accept eventType event =>
      some { p with
        messages := p.messages ++ [.sender ⟨eventType, event, none, none, none⟩ .ready]
        accepted := (eventType, event) :: p.accepted }
  | .answer k answer =>
      match p.messages[k]? with
      | some m => (move c p m answer).map fun v => p.apply k m v
      | none => none
  | .mine tx =>
      if tx.nonce = p.chainNonce then
        some { p with
          chainNonce := p.chainNonce + 1
          mined := tx :: p.mined
          pool := p.pool.filter fun tx' => tx.nonce < tx'.nonce }
      else none
  | .drop tx =>
      some { p with pool := p.pool.filter fun tx' => tx' ≠ tx }

/-- Nothing is queued and nothing is cached; the validator may have sent transactions before. -/
def initial (chainNonce : Nat) : Pipeline D := ⟨[], chainNonce, [], [], none, [], []⟩

def Step (c : Config) (p p' : Pipeline D) : Prop := ∃ input, step c p input = some p'

/-- **What a step can do**: a task is accepted, one message makes a move, or the node mines or drops. -/
theorem step_cases {c : Config} {p p' : Pipeline D} {input : Input D} (h : step c p input = some p') :
    (∃ eventType event, p' = { p with
      messages := p.messages ++ [.sender ⟨eventType, event, none, none, none⟩ .ready]
      accepted := (eventType, event) :: p.accepted }) ∨
    (∃ k m answer v, input = .answer k answer ∧ p.messages[k]? = some m ∧ move c p m answer = some v ∧
      p' = p.apply k m v) ∨
    (∃ tx, tx.nonce = p.chainNonce ∧ p' = { p with
      chainNonce := p.chainNonce + 1
      mined := tx :: p.mined
      pool := p.pool.filter fun tx' => tx.nonce < tx'.nonce }) ∨
    (∃ tx, p' = { p with pool := p.pool.filter fun tx' => tx' ≠ tx }) := by
  cases input with
  | accept eventType event => exact .inl ⟨eventType, event, (Option.some.inj h).symm⟩
  | answer k answer =>
      simp only [step] at h
      split at h
      · rename_i m hm
        obtain ⟨v, hv, rfl⟩ := Option.map_eq_some_iff.mp h
        exact .inr (.inl ⟨k, m, answer, v, rfl, hm, hv, rfl⟩)
      · cases h
  | mine tx =>
      simp only [step] at h
      split at h
      · rename_i hnonce
        exact .inr (.inr (.inl ⟨tx, hnonce, (Option.some.inj h).symm⟩))
      · cases h
  | drop tx => exact .inr (.inr (.inr ⟨tx, (Option.some.inj h).symm⟩))

/-- **What the broker does with an event task** before the code runs: it delivers the task, or keeps it for a
    later delivery. -/
theorem senderMove_broker {p : Pipeline D} {free : Bool} {task : EventTask D} {await : SenderAwait D}
    {answer : Answer} {v : Move D} (hbroker : answer = .expire ∨ answer = .deliver ∨ answer = .crash)
    (h : senderMove p free task await answer = some v) :
    v = ⟨[.sender task .ready], [], none, none⟩ ∨ v = ⟨[.sender task .processEvents], [], none, none⟩ := by
  rcases hbroker with rfl | rfl | rfl
  all_goals
    simp only [senderMove] at h
    split at h
  · exact .inl (only_eq_some.mp h)
  · cases h
  · exact .inr (only_eq_some.mp h)
  · cases h
  · exact .inl (only_eq_some.mp h)
  · cases h

/-- The same for a receipt task. -/
theorem receiptMove_broker {c : Config} {p : Pipeline D} {task : ReceiptTask D} {await : ReceiptAwait}
    {answer : Answer} {v : Move D} (hbroker : answer = .expire ∨ answer = .deliver ∨ answer = .crash)
    (h : receiptMove c p task await answer = some v) :
    v = ⟨[.receiptor task .ready], [], none, none⟩ ∨ v = ⟨[.receiptor task .getReceipt], [], none, none⟩ := by
  rcases hbroker with rfl | rfl | rfl
  all_goals
    simp only [receiptMove] at h
    split at h
  · exact .inl (only_eq_some.mp h)
  · cases h
  · exact .inr (only_eq_some.mp h)
  · cases h
  · exact .inl (only_eq_some.mp h)
  · cases h

/-- The inputs that `A` admits lead from one state to the other. -/
def StepWhen (c : Config) (A : Pipeline D → Input D → Prop) (p p' : Pipeline D) : Prop :=
  ∃ input, A p input ∧ step c p input = some p'

/-- The state after a list of inputs. -/
def play (c : Config) (p : Pipeline D) : List (Input D) → Option (Pipeline D)
  | [] => some p
  | input :: inputs => (step c p input).bind fun p' => play c p' inputs

theorem runWhen_of_play {c : Config} {A : Pipeline D → Input D → Prop} {p p' : Pipeline D}
    {inputs : List (Input D)} (hadmits : ∀ input ∈ inputs, ∀ q, A q input)
    (h : play c p inputs = some p') : Relation.ReflTransGen (StepWhen c A) p p' := by
  induction inputs generalizing p with
  | nil =>
      obtain rfl := Option.some.inj h
      exact .refl
  | cons input inputs ih =>
      obtain ⟨q, hq, hrest⟩ := Option.bind_eq_some_iff.mp h
      exact .head ⟨input, hadmits input List.mem_cons_self p, hq⟩
        (ih (fun input' hi => hadmits input' (List.mem_cons_of_mem _ hi)) hrest)

theorem run_of_play {c : Config} {p p' : Pipeline D} {inputs : List (Input D)}
    (h : play c p inputs = some p') : Relation.ReflTransGen (Step c) p p' := by
  have hrun := runWhen_of_play (A := fun _ _ => True) (fun _ _ _ => trivial) h
  refine hrun.lift id ?_
  rintro q q' ⟨input, _, hstep⟩
  exact ⟨input, hstep⟩

/-- A deposit is submitted and its event task acknowledged. -/
def submission : List (Input Nat) :=
  [.accept "erc-erc-affirmation-request" ⟨8, 77⟩, .answer 0 .deliver, .answer 0 (.txInfos true), .answer 0 .done,
    .answer 0 (.cache true), .answer 0 (.nonce 0), .answer 0 (.sent 1), .answer 0 (.block 9 100),
    .answer 0 .published, .answer 0 .done, .answer 0 .done, .answer 0 .carriedOut]

end Pipeline
end ThunderBridge
