import Mathlib
import ThunderBridge.Lib.Broker
import ThunderBridge.Lib.Calls

/-!
# `Validator.AmqpClient` — the queues of a validator

Watcher, sender and receiptor of one validator declare their queues when they connect, in any order and as often as
they restart. A task that is tried again goes to a retry queue, stays there for the queue's time to live, and
comes back through the queue's dead letter exchange: a task of the sender waits twice as long each time,
until it has been tried `QUEUE_RETRY_LIMIT` times; a task of the receiptor waits for a block or for the confirmations.

A message for a queue that does not exist is dropped by the broker without a word. The broker is a parameter, with the
behaviour that is documented of it. `delivered_of_run` says that no service is ever refused a declaration, that no
message is dropped, and that each task has waited as long as its retries asked for.
-/

namespace ThunderBridge

/-- What the services of one validator are configured with. -/
structure QueueConfig where
  queueName : String
  QUEUE_RETRY_DELAY : Nat
  QUEUE_RETRY_LIMIT : Nat
  blockTime : Nat
  blockConfirmation : Nat

/-- The services. -/
inductive QueueService where
  | watcher
  | sender
  | receiptor
deriving DecidableEq, Repr

/-- The keys of `queueOptions`. -/
inductive RetryTarget where
  | waittingK
  | waittingReceipt
  | default
deriving DecidableEq, Repr

namespace AmqpClient

/-! ## The source -/

/-- `{ durable: true }`. -/
def durable : QueueOptions := ⟨none, none⟩

def receiptQueue (c : QueueConfig) : String := c.queueName ++ "-receipt"

def getRetryQueueName (retryQueue : String) (retry : Nat) : String := retryQueue ++ "-" ++ retry.repr

/-- The exchange, queue and binding of one retry queue. -/
def retryTask (retryQueue destQueue : String) (suffix delay : Nat) : List Declaration :=
  [.exchange (getRetryQueueName retryQueue suffix),
    .queue (getRetryQueueName retryQueue suffix) ⟨some destQueue, some delay⟩,
    .bind (getRetryQueueName retryQueue suffix) (getRetryQueueName retryQueue suffix)]

/-- The loop of `createRetryQueueTasks`, with `count` rounds to go. -/
def retryTasks (retryQueue destQueue : String) : (count i delay : Nat) → List Declaration
  | 0, _, _ => []
  | count + 1, i, delay =>
      retryTask retryQueue destQueue i delay ++ retryTasks retryQueue destQueue count (i + 1) (delay * 2)

def createRetryQueueTasks (c : QueueConfig) (retryQueue destQueue : String) : List Declaration :=
  retryTasks retryQueue destQueue (c.QUEUE_RETRY_LIMIT + 1) 0 c.QUEUE_RETRY_DELAY

/-- `queueOptions`: how long each target waits. -/
def queueOptions (c : QueueConfig) : RetryTarget → Nat
  | .waittingK => c.blockTime * c.blockConfirmation
  | .waittingReceipt => c.blockTime
  | .default => c.blockTime

def createRetryQueueTasksFromOption (retryQueue destQueue : String) (options : RetryTarget → Nat) :
    List Declaration :=
  [RetryTarget.waittingK, .waittingReceipt, .default].flatMap fun option =>
    retryTask retryQueue destQueue (options option) (options option)

def connectWatcherToQueue (c : QueueConfig) : List Declaration := [.queue c.queueName durable]

def connectSenderToQueue (c : QueueConfig) : List Declaration :=
  [.exchange c.queueName, .queue c.queueName durable, .queue (receiptQueue c) durable,
    .bind c.queueName c.queueName] ++
  createRetryQueueTasks c (c.queueName ++ "-retry") c.queueName

def connectReceiptorQueue (c : QueueConfig) : List Declaration :=
  [.exchange (receiptQueue c), .queue c.queueName durable, .queue (receiptQueue c) durable,
    .bind (receiptQueue c) (receiptQueue c)] ++
  createRetryQueueTasksFromOption (c.queueName ++ "-receipt-retry") (receiptQueue c) (queueOptions c)

/-- What a service declares when it connects. -/
def setup (c : QueueConfig) : QueueService → List Declaration
  | .watcher => connectWatcherToQueue c
  | .sender => connectSenderToQueue c
  | .receiptor => connectReceiptorQueue c

/-- A message. Two ghosts: the times it has spent in retry queues, and what the receiptor's retries asked for. -/
structure Message (B : Type) where
  content : B
  /-- The header `x-retry-count`. -/
  retryCount : Option Nat
  waits : List Nat
  asked : List RetryTarget
deriving DecidableEq, Repr

/-- The retry queue of a task of the sender, and its new header. -/
def retryOf (c : QueueConfig) (retryCount : Option Nat) : String × Nat :=
  let retry := retryCount.getD 0
  let retry := if c.QUEUE_RETRY_LIMIT < retry then c.QUEUE_RETRY_LIMIT else retry
  (getRetryQueueName (c.queueName ++ "-retry") retry, retry + 1)

/-- The retry queue of a task of the receiptor. -/
def targetQueue (c : QueueConfig) (target : RetryTarget) : String :=
  getRetryQueueName (c.queueName ++ "-receipt-retry") (queueOptions c target)

/-! ## The names of the queues -/

variable {c : QueueConfig}

/-- The retry queue of a task of the sender that has waited `k` times before, at most as often as allowed. -/
def retryQueue (c : QueueConfig) (k : Nat) : String := getRetryQueueName (c.queueName ++ "-retry") k

theorem getRetryQueueName_inj {p : String} {i j : Nat} (h : getRetryQueueName p i = getRetryQueueName p j) :
    i = j := by
  unfold getRetryQueueName at h
  exact Nat.repr_inj.mp ((String.append_right_inj _).mp h)

/-- The names that start with the one of the queue differ in what follows it. -/
theorem append_ne {q x y : String} (h : x ≠ y) : q ++ x ≠ q ++ y := fun he => h ((String.append_right_inj q).mp he)

theorem queueName_ne {q x : String} (h : x ≠ "") : q ≠ q ++ x := by
  intro he
  have hempty : q ++ "" = q ++ x := by rw [String.append_empty]; exact he
  exact h ((String.append_right_inj q).mp hempty).symm

theorem retryQueue_eq (k : Nat) : retryQueue c k = c.queueName ++ ("-retry-" ++ k.repr) := by
  have hname : "-retry-" = "-retry" ++ "-" := by decide
  unfold retryQueue getRetryQueueName
  rw [hname, String.append_assoc, String.append_assoc, String.append_assoc]

theorem targetQueue_eq (target : RetryTarget) :
    targetQueue c target = c.queueName ++ ("-receipt-retry-" ++ (queueOptions c target).repr) := by
  have hname : "-receipt-retry-" = "-receipt-retry" ++ "-" := by decide
  unfold targetQueue getRetryQueueName
  rw [hname, String.append_assoc, String.append_assoc, String.append_assoc]

theorem queueName_ne_receiptQueue : c.queueName ≠ receiptQueue c := queueName_ne (by decide)

theorem queueName_ne_retryQueue (k : Nat) : c.queueName ≠ retryQueue c k := by
  rw [retryQueue_eq]
  apply queueName_ne
  intro h
  simpa using congrArg String.toList h

theorem queueName_ne_targetQueue (target : RetryTarget) : c.queueName ≠ targetQueue c target := by
  rw [targetQueue_eq]
  apply queueName_ne
  intro h
  simpa using congrArg String.toList h

theorem receiptQueue_ne_retryQueue (k : Nat) : receiptQueue c ≠ retryQueue c k := by
  rw [retryQueue_eq]
  apply append_ne
  intro h
  simpa using congrArg String.toList h

theorem receiptQueue_ne_targetQueue (target : RetryTarget) : receiptQueue c ≠ targetQueue c target := by
  rw [targetQueue_eq]
  apply append_ne
  intro h
  simpa using congrArg String.toList h

theorem retryQueue_ne_targetQueue (k : Nat) (target : RetryTarget) : retryQueue c k ≠ targetQueue c target := by
  rw [retryQueue_eq, targetQueue_eq]
  apply append_ne
  intro h
  simpa using congrArg String.toList h

/-! ## What the services declare -/

theorem mem_retryTasks {rq dest : String} {d : Declaration} : ∀ {count i delay : Nat},
    d ∈ retryTasks rq dest count i delay ↔ ∃ k < count, d ∈ retryTask rq dest (i + k) (delay * 2 ^ k) := by
  intro count
  induction count with
  | zero =>
      intro i delay
      simp [retryTasks]
  | succ count ih =>
      intro i delay
      rw [retryTasks, List.mem_append, ih]
      constructor
      · rintro (hfirst | ⟨k, hk, hd⟩)
        · exact ⟨0, Nat.succ_pos _, by simpa using hfirst⟩
        · refine ⟨k + 1, Nat.succ_lt_succ hk, ?_⟩
          rwa [Nat.pow_succ', ← Nat.mul_assoc, Nat.add_comm k 1, ← Nat.add_assoc]
      · rintro ⟨k, hk, hd⟩
        cases k with
        | zero => exact Or.inl (by simpa using hd)
        | succ k =>
            refine Or.inr ⟨k, Nat.lt_of_succ_lt_succ hk, ?_⟩
            rwa [Nat.pow_succ', ← Nat.mul_assoc, Nat.add_comm k 1, ← Nat.add_assoc] at hd

theorem mem_createRetryQueueTasks {rq dest : String} {d : Declaration} :
    d ∈ createRetryQueueTasks c rq dest ↔
      ∃ k ≤ c.QUEUE_RETRY_LIMIT, d ∈ retryTask rq dest k (c.QUEUE_RETRY_DELAY * 2 ^ k) := by
  rw [createRetryQueueTasks, mem_retryTasks]
  simp only [Nat.zero_add, Nat.lt_succ_iff]

theorem mem_createRetryQueueTasksFromOption {rq dest : String} {options : RetryTarget → Nat} {d : Declaration} :
    d ∈ createRetryQueueTasksFromOption rq dest options ↔
      ∃ target, d ∈ retryTask rq dest (options target) (options target) := by
  rw [createRetryQueueTasksFromOption, List.mem_flatMap]
  constructor
  · rintro ⟨target, _, hd⟩
    exact ⟨target, hd⟩
  · rintro ⟨target, hd⟩
    refine ⟨target, ?_, hd⟩
    cases target <;> simp

theorem retryQueue_declared {k : Nat} (hk : k ≤ c.QUEUE_RETRY_LIMIT) :
    .queue (retryQueue c k) ⟨some c.queueName, some (c.QUEUE_RETRY_DELAY * 2 ^ k)⟩ ∈ connectSenderToQueue c :=
  List.mem_append_right _ (mem_createRetryQueueTasks.mpr ⟨k, hk, by simp [retryTask, retryQueue]⟩)

theorem targetQueue_declared (target : RetryTarget) :
    .queue (targetQueue c target) ⟨some (receiptQueue c), some (queueOptions c target)⟩ ∈ connectReceiptorQueue c :=
  List.mem_append_right _ (mem_createRetryQueueTasksFromOption.mpr ⟨target, by simp [retryTask, targetQueue]⟩)

/-- A queue that is declared, with its options. -/
theorem queue_declared {name : String} {options : QueueOptions}
    (h : .queue name options ∈ Clients.Declared (setup c)) :
    (name = c.queueName ∧ options = durable) ∨ (name = receiptQueue c ∧ options = durable) ∨
      (∃ k ≤ c.QUEUE_RETRY_LIMIT, name = retryQueue c k ∧
        options = ⟨some c.queueName, some (c.QUEUE_RETRY_DELAY * 2 ^ k)⟩) ∨
      ∃ target, name = targetQueue c target ∧ options = ⟨some (receiptQueue c), some (queueOptions c target)⟩ := by
  obtain ⟨service, hd⟩ := h
  cases service with
  | watcher =>
      obtain ⟨rfl, rfl⟩ : name = c.queueName ∧ options = durable := by
        simpa [setup, connectWatcherToQueue] using hd
      exact Or.inl ⟨rfl, rfl⟩
  | sender =>
      rcases List.mem_append.mp hd with hbase | hretry
      · obtain ⟨rfl, rfl⟩ | ⟨rfl, rfl⟩ : (name = c.queueName ∧ options = durable) ∨
            (name = receiptQueue c ∧ options = durable) := by simpa using hbase
        · exact Or.inl ⟨rfl, rfl⟩
        · exact Or.inr (Or.inl ⟨rfl, rfl⟩)
      · obtain ⟨k, hk, hd⟩ := mem_createRetryQueueTasks.mp hretry
        obtain ⟨hname, hoptions⟩ : name = retryQueue c k ∧
            options = ⟨some c.queueName, some (c.QUEUE_RETRY_DELAY * 2 ^ k)⟩ := by
          simpa [retryTask, retryQueue] using hd
        exact Or.inr (Or.inr (Or.inl ⟨k, hk, hname, hoptions⟩))
  | receiptor =>
      rcases List.mem_append.mp hd with hbase | hretry
      · obtain ⟨rfl, rfl⟩ | ⟨rfl, rfl⟩ : (name = c.queueName ∧ options = durable) ∨
            (name = receiptQueue c ∧ options = durable) := by simpa using hbase
        · exact Or.inl ⟨rfl, rfl⟩
        · exact Or.inr (Or.inl ⟨rfl, rfl⟩)
      · obtain ⟨target, hd⟩ := mem_createRetryQueueTasksFromOption.mp hretry
        obtain ⟨hname, hoptions⟩ : name = targetQueue c target ∧
            options = ⟨some (receiptQueue c), some (queueOptions c target)⟩ := by
          simpa [retryTask, targetQueue] using hd
        exact Or.inr (Or.inr (Or.inr ⟨target, hname, hoptions⟩))

/-- Each queue is bound to the exchange of its own name. -/
theorem bind_declared {queue exchange : String} (h : .bind queue exchange ∈ Clients.Declared (setup c)) :
    queue = exchange := by
  obtain ⟨service, hd⟩ := h
  cases service with
  | watcher => exact absurd hd (by simp [setup, connectWatcherToQueue])
  | sender =>
      rcases List.mem_append.mp hd with hbase | hretry
      · obtain ⟨rfl, rfl⟩ : queue = c.queueName ∧ exchange = c.queueName := by simpa using hbase
        rfl
      · obtain ⟨k, _, hd⟩ := mem_createRetryQueueTasks.mp hretry
        obtain ⟨hqueue, hexchange⟩ : queue = _ ∧ exchange = _ := by simpa [retryTask] using hd
        exact hqueue.trans hexchange.symm
  | receiptor =>
      rcases List.mem_append.mp hd with hbase | hretry
      · obtain ⟨rfl, rfl⟩ : queue = receiptQueue c ∧ exchange = receiptQueue c := by simpa using hbase
        rfl
      · obtain ⟨target, hd⟩ := mem_createRetryQueueTasksFromOption.mp hretry
        obtain ⟨hqueue, hexchange⟩ : queue = _ ∧ exchange = _ := by simpa [retryTask] using hd
        exact hqueue.trans hexchange.symm

/-- **The services agree** on the options of every queue. -/
theorem setup_agree (c : QueueConfig) : Broker.Agree (Clients.Declared (setup c)) := by
  intro name options options' h h'
  rcases queue_declared h with ⟨rfl, rfl⟩ | ⟨rfl, rfl⟩ | ⟨k, hk, rfl, rfl⟩ | ⟨target, rfl, rfl⟩
  · rcases queue_declared h' with ⟨_, rfl⟩ | ⟨_, rfl⟩ | ⟨k', _, hname, _⟩ | ⟨target', hname, _⟩
    · rfl
    · rfl
    · exact absurd hname (queueName_ne_retryQueue k')
    · exact absurd hname (queueName_ne_targetQueue target')
  · rcases queue_declared h' with ⟨_, rfl⟩ | ⟨_, rfl⟩ | ⟨k', _, hname, _⟩ | ⟨target', hname, _⟩
    · rfl
    · rfl
    · exact absurd hname (receiptQueue_ne_retryQueue k')
    · exact absurd hname (receiptQueue_ne_targetQueue target')
  · rcases queue_declared h' with ⟨hname, _⟩ | ⟨hname, _⟩ | ⟨k', _, hname, rfl⟩ | ⟨target', hname, _⟩
    · exact absurd hname.symm (queueName_ne_retryQueue k)
    · exact absurd hname.symm (receiptQueue_ne_retryQueue k)
    · rw [getRetryQueueName_inj hname]
    · exact absurd hname (retryQueue_ne_targetQueue k target')
  · rcases queue_declared h' with ⟨hname, _⟩ | ⟨hname, _⟩ | ⟨k', _, hname, _⟩ | ⟨target', hname, rfl⟩
    · exact absurd hname.symm (queueName_ne_targetQueue target)
    · exact absurd hname.symm (receiptQueue_ne_targetQueue target)
    · exact absurd hname.symm (retryQueue_ne_targetQueue k' target)
    · rw [getRetryQueueName_inj hname]

theorem orderedFrom_retryTask (rq dest : String) (suffix delay : Nat) :
    OrderedFrom [] (retryTask rq dest suffix delay) := by
  simp [retryTask, OrderedFrom]

theorem orderedFrom_retryTasks (rq dest : String) : ∀ count i delay : Nat,
    OrderedFrom [] (retryTasks rq dest count i delay) := by
  intro count
  induction count with
  | zero => exact fun _ _ => trivial
  | succ count ih => exact fun i delay => (orderedFrom_retryTask rq dest i delay).append (ih (i + 1) (delay * 2))

/-- What a service binds it has declared. -/
theorem setup_ordered (c : QueueConfig) (service : QueueService) : OrderedFrom [] (setup c service) := by
  cases service with
  | watcher => simp [setup, connectWatcherToQueue, OrderedFrom]
  | sender =>
      refine OrderedFrom.append ?_ (orderedFrom_retryTasks _ _ _ _ _)
      simp [OrderedFrom]
  | receiptor =>
      refine OrderedFrom.append (by simp [OrderedFrom]) ?_
      exact (orderedFrom_retryTask ..).append ((orderedFrom_retryTask ..).append
        ((orderedFrom_retryTask ..).append trivial))

end AmqpClient

/-! ## The services and their messages -/

/-- The services, what they declared to the broker, and the messages with their queues. -/
structure ServiceQueues (β B : Type) where
  clients : Clients β QueueService
  messages : List (String × AmqpClient.Message B)
  /-- What was published to no queue. -/
  unroutable : List B

namespace ServiceQueues

open AmqpClient

variable {β B : Type} {K : Broker β}

/-- A message goes to some queues; what goes to none is dropped. -/
def publish (s : ServiceQueues β B) (targets : List String) (m : Message B) : ServiceQueues β B :=
  { s with
    messages := targets.map (fun queue => (queue, m)) ++ s.messages
    unroutable := if targets = [] then m.content :: s.unroutable else s.unroutable }

/-- `channel.sendToQueue`. -/
def sendToQueue (K : Broker β) (s : ServiceQueues β B) (queue : String) (m : Message B) : ServiceQueues β B :=
  s.publish (K.routes s.clients.topology queue) m

/-- Everything that may happen: what the services declare and publish, and messages that expire or are
    acknowledged. -/
inductive Step (K : Broker β) (c : QueueConfig) (s : ServiceQueues β B) : ServiceQueues β B → Prop where
  | clients {clients} (step : Clients.Step K (setup c) s.clients clients) : Step K c s { s with clients := clients }
  /-- `enqueueSender` of the watcher and the receiptor. -/
  | enqueueSender (content : B) (running : .watcher ∈ s.clients.running ∨ .receiptor ∈ s.clients.running) :
      Step K c s (s.sendToQueue K c.queueName ⟨content, none, [], []⟩)
  /-- `enqueueSender` of the sender, for a message it consumes. -/
  | retry {m : Message B} (content : B) (running : .sender ∈ s.clients.running)
      (consumed : (c.queueName, m) ∈ s.messages) :
      Step K c s (s.sendToQueue K (retryOf c m.retryCount).1
        ⟨content, some (retryOf c m.retryCount).2, m.waits, m.asked⟩)
  | enqueueReceiptor (content : B) (running : .sender ∈ s.clients.running) :
      Step K c s (s.sendToQueue K (receiptQueue c) ⟨content, none, [], []⟩)
  | retryMsg {m : Message B} (target : RetryTarget) (running : .receiptor ∈ s.clients.running)
      (consumed : (receiptQueue c, m) ∈ s.messages) :
      Step K c s (s.sendToQueue K (targetQueue c target) ⟨m.content, none, m.waits, m.asked ++ [target]⟩)
  /-- `ack`, or `nack` without requeueing: the queues of the consumers have no dead letter exchange. -/
  | ack {before after queue m} (messages : s.messages = before ++ (queue, m) :: after)
      (consumer : queue = c.queueName ∨ queue = receiptQueue c) :
      Step K c s { s with messages := before ++ after }
  /-- A message has been in its queue for the time to live. -/
  | expire {before after queue m messageTtl targets} (messages : s.messages = before ++ (queue, m) :: after)
      (expired : K.expired s.clients.topology queue = some (messageTtl, targets)) :
      Step K c s (publish { s with messages := before ++ after } targets
        { m with waits := m.waits ++ [messageTtl] })

/-- A broker that nobody has connected to. -/
def initial (K : Broker β) : ServiceQueues β B := ⟨.initial K, [], []⟩

def Run (K : Broker β) (c : QueueConfig) (s : ServiceQueues β B) : Prop :=
  Relation.ReflTransGen (Step K c) (initial K) s

/-! ## Where messages are -/

/-- How long a task of the sender has waited when it was tried `k` times. -/
def backoff (c : QueueConfig) (k : Nat) : List Nat :=
  (List.range k).map fun j => c.QUEUE_RETRY_DELAY * 2 ^ min j c.QUEUE_RETRY_LIMIT

/-- How a message is in its queue. A retry queue has messages only once the service that puts them there is
    connected, and what it declared stays. -/
inductive Placed (K : Broker β) (c : QueueConfig) (t : β) (queue : String) (m : Message B) : Prop where
  | task (name : queue = c.queueName) (waits : m.waits = backoff c m.waits.length)
      (header : m.retryCount.getD 0 = min m.waits.length (c.QUEUE_RETRY_LIMIT + 1))
      (declared : K.Has t (.queue c.queueName durable))
  | retried (name : queue = retryQueue c (min m.waits.length c.QUEUE_RETRY_LIMIT))
      (waits : m.waits = backoff c m.waits.length)
      (header : m.retryCount = some (min m.waits.length c.QUEUE_RETRY_LIMIT + 1))
      (declared : ∀ d ∈ connectSenderToQueue c, K.Has t d)
  | receipt (name : queue = receiptQueue c) (waits : m.waits = m.asked.map (queueOptions c))
      (declared : K.Has t (.queue (receiptQueue c) durable))
  | waiting (earlier : List RetryTarget) (target : RetryTarget) (asked : m.asked = earlier ++ [target])
      (name : queue = targetQueue c target) (waits : m.waits = earlier.map (queueOptions c))
      (declared : ∀ d ∈ connectReceiptorQueue c, K.Has t d)

variable {c : QueueConfig} {s s' : ServiceQueues β B} {t t' : β} {queue : String} {m : Message B}

theorem backoff_succ (k : Nat) :
    backoff c (k + 1) = backoff c k ++ [c.QUEUE_RETRY_DELAY * 2 ^ min k c.QUEUE_RETRY_LIMIT] := by
  simp [backoff, List.range_succ]

/-- Nothing that was declared is taken back. -/
theorem Placed.mono (h : Placed K c t queue m) (hmono : ∀ d, K.Has t d → K.Has t' d) : Placed K c t' queue m := by
  cases h with
  | task name waits header declared => exact .task name waits header (hmono _ declared)
  | retried name waits header declared =>
      exact .retried name waits header fun d hd => hmono d (declared d hd)
  | receipt name waits declared => exact .receipt name waits (hmono _ declared)
  | waiting earlier target asked name waits declared =>
      exact .waiting earlier target asked name waits fun d hd => hmono d (declared d hd)

/-- A message of the sender's queue has waited as its header says. -/
theorem Placed.of_queueName (h : Placed K c t c.queueName m) :
    m.waits = backoff c m.waits.length ∧ m.retryCount.getD 0 = min m.waits.length (c.QUEUE_RETRY_LIMIT + 1) := by
  cases h with
  | task _ waits header _ => exact ⟨waits, header⟩
  | retried name _ _ _ => exact absurd name (queueName_ne_retryQueue _)
  | receipt name _ _ => exact absurd name queueName_ne_receiptQueue
  | waiting _ target _ name _ _ => exact absurd name (queueName_ne_targetQueue target)

/-- A message of the receiptor's queue has waited as it was asked to. -/
theorem Placed.of_receiptQueue (h : Placed K c t (receiptQueue c) m) : m.waits = m.asked.map (queueOptions c) := by
  cases h with
  | task name _ _ _ => exact absurd name.symm queueName_ne_receiptQueue
  | retried name _ _ _ => exact absurd name (receiptQueue_ne_retryQueue _)
  | receipt _ waits _ => exact waits
  | waiting _ target _ name _ _ => exact absurd name (receiptQueue_ne_targetQueue target)

/-- The next retry queue, and the next header. -/
theorem retryOf_eq {retryCount : Option Nat} {k : Nat}
    (h : retryCount.getD 0 = min k (c.QUEUE_RETRY_LIMIT + 1)) :
    retryOf c retryCount = (retryQueue c (min k c.QUEUE_RETRY_LIMIT), min k c.QUEUE_RETRY_LIMIT + 1) := by
  have hretry : (if c.QUEUE_RETRY_LIMIT < min k (c.QUEUE_RETRY_LIMIT + 1) then c.QUEUE_RETRY_LIMIT
      else min k (c.QUEUE_RETRY_LIMIT + 1)) = min k c.QUEUE_RETRY_LIMIT := by
    split <;> omega
  rw [retryOf, h, hretry]
  rfl

/-! ## What expires -/

section
variable (hK : K.Lawful) (ht : K.From t (Clients.Declared (setup c)))
include hK ht

/-- A retry queue gives its messages to one queue. -/
theorem expired_eq {dest : String} {ttl : Nat} (hqueue : K.Has t (.queue queue ⟨some dest, some ttl⟩))
    (hbind : K.Has t (.bind dest dest)) : K.expired t queue = some (ttl, [dest]) :=
  Broker.expired_eq hK ht hqueue hbind fun _ h => bind_declared h

/-- The sender's retry queues: the delay doubles. -/
theorem expired_retryQueue {k : Nat} (hk : k ≤ c.QUEUE_RETRY_LIMIT)
    (hdeclared : ∀ d ∈ connectSenderToQueue c, K.Has t d) :
    K.expired t (retryQueue c k) = some (c.QUEUE_RETRY_DELAY * 2 ^ k, [c.queueName]) :=
  expired_eq hK ht (hdeclared _ (retryQueue_declared hk)) (hdeclared _ (List.mem_append_left _ (by simp)))

/-- The receiptor's: a block, or the confirmations. -/
theorem expired_targetQueue (target : RetryTarget) (hdeclared : ∀ d ∈ connectReceiptorQueue c, K.Has t d) :
    K.expired t (targetQueue c target) = some (queueOptions c target, [receiptQueue c]) :=
  expired_eq hK ht (hdeclared _ (targetQueue_declared target)) (hdeclared _ (List.mem_append_left _ (by simp)))

/-- A message that expires goes to one queue, where it is as it should be. -/
theorem Placed.expired {messageTtl : Nat} {targets : List String} (h : Placed K c t queue m)
    (hexpired : K.expired t queue = some (messageTtl, targets)) :
    ∃ queue', targets = [queue'] ∧ Placed K c t queue' { m with waits := m.waits ++ [messageTtl] } := by
  cases h with
  | task name _ _ declared =>
      obtain rfl := name
      exact absurd (hexpired.symm.trans (hK.stays _ _ _ declared)) (by simp)
  | receipt name _ declared =>
      obtain rfl := name
      exact absurd (hexpired.symm.trans (hK.stays _ _ _ declared)) (by simp)
  | retried name waits header declared =>
      obtain rfl := name
      rw [expired_retryQueue hK ht (Nat.min_le_right _ _) declared] at hexpired
      obtain ⟨rfl, rfl⟩ := Prod.mk.inj (Option.some.inj hexpired)
      refine ⟨c.queueName, rfl, .task rfl ?_ ?_ (declared _ (List.mem_append_left _ (by simp)))⟩
      · simp only [List.length_append, List.length_cons, List.length_nil, Nat.zero_add, backoff_succ]
        rw [← waits]
      · simp only [List.length_append, List.length_cons, List.length_nil, header, Option.getD_some]
        omega
  | waiting earlier target asked name waits declared =>
      obtain rfl := name
      rw [expired_targetQueue hK ht target declared] at hexpired
      obtain ⟨rfl, rfl⟩ := Prod.mk.inj (Option.some.inj hexpired)
      refine ⟨receiptQueue c, rfl, .receipt rfl ?_ (declared _ (List.mem_append_left _ (by simp)))⟩
      show m.waits ++ [queueOptions c target] = m.asked.map (queueOptions c)
      rw [asked, waits, List.map_append, List.map_singleton]

end

/-! ## Runs -/

/-- What holds in every run. -/
structure Sound (K : Broker β) (c : QueueConfig) (s : ServiceQueues β B) : Prop where
  clients : Clients.Sound K (setup c) s.clients
  placed : ∀ x ∈ s.messages, Placed K c s.clients.topology x.1 x.2
  unroutable : s.unroutable = []

/-- A message for one queue gets there. -/
theorem publish_eq (s : ServiceQueues β B) (queue : String) (m : Message B) :
    s.publish [queue] m = { s with messages := (queue, m) :: s.messages } := by
  rw [publish, if_neg (List.cons_ne_nil _ _)]
  rfl

theorem Sound.publish (hs : Sound K c s) (hm : Placed K c s.clients.topology queue m) :
    Sound K c (s.publish [queue] m) := by
  rw [publish_eq]
  refine ⟨hs.clients, ?_, hs.unroutable⟩
  intro x hx
  rcases List.mem_cons.mp hx with rfl | hold
  · exact hm
  · exact hs.placed x hold

theorem sendToQueue_eq (hK : K.Lawful) {options : QueueOptions}
    (hqueue : K.Has s.clients.topology (.queue queue options)) (m : Message B) :
    s.sendToQueue K queue m = { s with messages := (queue, m) :: s.messages } := by
  rw [sendToQueue, hK.routes _ _ _ hqueue, publish_eq]

/-- A message for a queue that is there gets there. -/
theorem Sound.sendToQueue (hK : K.Lawful) (hs : Sound K c s) {options : QueueOptions}
    (hqueue : K.Has s.clients.topology (.queue queue options)) (hm : Placed K c s.clients.topology queue m) :
    Sound K c (s.sendToQueue K queue m) := by
  rw [ServiceQueues.sendToQueue, hK.routes _ _ _ hqueue]
  exact hs.publish hm

theorem sound_initial (hK : K.Lawful) : Sound K c (initial K : ServiceQueues β B) where
  clients := Clients.sound_initial hK
  placed _ hx := absurd hx List.not_mem_nil
  unroutable := rfl

theorem Sound.remove (hs : Sound K c s) {before after : List (String × Message B)} {x : String × Message B}
    (hmessages : s.messages = before ++ x :: after) : Sound K c { s with messages := before ++ after } := by
  refine ⟨hs.clients, ?_, hs.unroutable⟩
  intro y hy
  apply hs.placed
  rw [hmessages]
  rcases List.mem_append.mp hy with hbefore | hafter
  · exact List.mem_append_left _ hbefore
  · exact List.mem_append_right _ (List.mem_cons_of_mem _ hafter)

theorem step_sound (hK : K.Lawful) (h : Step K c s s') (hs : Sound K c s) : Sound K c s' := by
  have hrunning {service : QueueService} (hmem : service ∈ s.clients.running) :
      ∀ d ∈ setup c service, K.Has s.clients.topology d := hs.clients.running service hmem
  cases h with
  | clients step =>
      refine ⟨Clients.step_sound hK (setup_agree c) (setup_ordered c) step hs.clients, ?_, hs.unroutable⟩
      exact fun x hx => (hs.placed x hx).mono fun d => step.has hK
  | enqueueSender content running =>
      have hqueue : K.Has s.clients.topology (.queue c.queueName durable) := by
        rcases running with hwatcher | hreceiptor
        · exact hrunning hwatcher _ List.mem_cons_self
        · exact hrunning hreceiptor _ (List.mem_append_left _ (by simp))
      exact hs.sendToQueue hK hqueue (.task rfl rfl (Nat.zero_min _).symm hqueue)
  | @retry m content running consumed =>
      obtain ⟨hwaits, hheader⟩ := (hs.placed _ consumed).of_queueName
      rw [retryOf_eq hheader]
      exact hs.sendToQueue hK (hrunning running _ (retryQueue_declared (Nat.min_le_right _ _)))
        (.retried rfl hwaits rfl (hrunning running))
  | enqueueReceiptor content running =>
      have hqueue : K.Has s.clients.topology (.queue (receiptQueue c) durable) :=
        hrunning running _ (List.mem_append_left _ (by simp))
      exact hs.sendToQueue hK hqueue (.receipt rfl rfl hqueue)
  | @retryMsg m target running consumed =>
      have hwaits := (hs.placed _ consumed).of_receiptQueue
      exact hs.sendToQueue hK (hrunning running _ (targetQueue_declared target))
        (.waiting m.asked target rfl rfl hwaits (hrunning running))
  | ack messages _ => exact hs.remove messages
  | @expire before after queue m messageTtl targets messages hexpired =>
      have hplaced : Placed K c s.clients.topology queue m :=
        hs.placed (queue, m) (messages ▸ List.mem_append_right _ List.mem_cons_self)
      obtain ⟨queue', rfl, hnext⟩ := hplaced.expired hK hs.clients.declared hexpired
      exact (hs.remove messages).publish hnext

theorem run_sound (hK : K.Lawful) (hrun : Run K c s) : Sound K c s := by
  induction hrun with
  | refl => exact sound_initial hK
  | tail _ hstep ih => exact step_sound hK hstep ih

/-- **Every message is delivered, after the time its retry asked for.** However the services connect, declare, publish
    and stop, no declaration of theirs is refused and no message is dropped. A task of the sender has waited for the
    delay, twice the delay, and so on; the delay stops doubling when the task has been retried as often as allowed.
    A task of the receiptor has waited for what each of its retries asked for. A message that waits is in the queue
    of its last retry, and goes from there after the time that this one asked for, exactly once, to the queue of the
    service that consumes it. -/
theorem delivered_of_run (hK : K.Lawful) (hrun : Run K c s) :
    s.clients.refused = [] ∧ s.unroutable = [] ∧
      ∀ queue m, (queue, m) ∈ s.messages →
        (queue = c.queueName ∧ m.waits = backoff c m.waits.length) ∨
        (queue = retryQueue c (min m.waits.length c.QUEUE_RETRY_LIMIT) ∧ m.waits = backoff c m.waits.length ∧
          K.expired s.clients.topology queue =
            some (c.QUEUE_RETRY_DELAY * 2 ^ min m.waits.length c.QUEUE_RETRY_LIMIT, [c.queueName])) ∨
        (queue = receiptQueue c ∧ m.waits = m.asked.map (queueOptions c)) ∨
        ∃ earlier target, m.asked = earlier ++ [target] ∧ queue = targetQueue c target ∧
          m.waits = earlier.map (queueOptions c) ∧
          K.expired s.clients.topology queue = some (queueOptions c target, [receiptQueue c]) := by
  have hs := run_sound hK hrun
  refine ⟨hs.clients.refused, hs.unroutable, ?_⟩
  intro queue m hm
  have hplaced : Placed K c s.clients.topology queue m := hs.placed (queue, m) hm
  cases hplaced with
  | task name waits _ _ => exact Or.inl ⟨name, waits⟩
  | retried name waits _ declared =>
      refine Or.inr (Or.inl ⟨name, waits, ?_⟩)
      rw [name]
      exact expired_retryQueue hK hs.clients.declared (Nat.min_le_right _ _) declared
  | receipt name waits _ => exact Or.inr (Or.inr (Or.inl ⟨name, waits⟩))
  | waiting earlier target asked name waits declared =>
      refine Or.inr (Or.inr (Or.inr ⟨earlier, target, asked, name, waits, ?_⟩))
      rw [name]
      exact expired_targetQueue hK hs.clients.declared target declared

/-- A service that starts can connect, whatever the others are doing. -/
theorem exists_connected (hK : K.Lawful) (hs : Sound K c s) (service : QueueService) :
    ∃ clients, Relation.ReflTransGen (Step K c) s { s with clients := clients } ∧
      clients.running = service :: s.clients.running := by
  obtain ⟨clients, hrun, hrunning⟩ :=
    Clients.exists_connected hK (setup_agree c) (setup_ordered c) hs.clients service
  have hstep (x y : Clients β QueueService) (h : Clients.Step K (setup c) x y) :
      Step K c { s with clients := x } { s with clients := y } := .clients (s := { s with clients := x }) h
  exact ⟨clients, hrun.lift (fun x => { s with clients := x }) hstep, hrunning⟩

/-- Sender and receiptor are connected. -/
theorem exists_both (hK : K.Lawful) (c : QueueConfig) : ∃ clients : Clients β QueueService,
    Run K c (⟨clients, [], []⟩ : ServiceQueues β B) ∧ .sender ∈ clients.running ∧ .receiptor ∈ clients.running := by
  obtain ⟨_, hreceiptor, hreceiving⟩ := exists_connected (c := c) (B := B) hK (sound_initial hK) .receiptor
  obtain ⟨clients, hsender, hsending⟩ := exists_connected hK (run_sound hK hreceiptor) .sender
  exact ⟨clients, hreceiptor.trans hsender, hsending ▸ List.mem_cons_self,
    hsending ▸ List.mem_cons_of_mem _ (hreceiving ▸ List.mem_cons_self)⟩

/-- A task of the receiptor waits for its second retry, after the time that the first asked for. -/
theorem exists_retried (hK : K.Lawful) (content : B) (first second : RetryTarget) :
    ∃ s : ServiceQueues β B, Run K c s ∧
      (targetQueue c second, ⟨content, none, [queueOptions c first], [first, second]⟩) ∈ s.messages := by
  obtain ⟨clients, hconnected, hsender, hreceiptor⟩ := exists_both (B := B) hK c
  have hsound := run_sound hK hconnected
  have hhas : ∀ d ∈ connectReceiptorQueue c, K.Has clients.topology d := hsound.clients.running .receiptor hreceiptor
  have hreceipt : K.Has clients.topology (.queue (receiptQueue c) durable) :=
    hhas _ (List.mem_append_left _ (by simp))
  have hqueue (target : RetryTarget) := hhas _ (targetQueue_declared target)
  let sent : String × Message B := (receiptQueue c, ⟨content, none, [], []⟩)
  let back : String × Message B := (receiptQueue c, ⟨content, none, [queueOptions c first], [first]⟩)
  have hsent : Step K c ⟨clients, [], []⟩ ⟨clients, [sent], []⟩ := by
    have hpublish := Step.enqueueReceiptor (K := K) (c := c) (s := ⟨clients, [], []⟩) content hsender
    rwa [sendToQueue_eq hK hreceipt] at hpublish
  have hretry : Step K c ⟨clients, [sent], []⟩
      ⟨clients, [(targetQueue c first, ⟨content, none, [], [first]⟩), sent], []⟩ := by
    have hpublish := Step.retryMsg (K := K) (c := c) (s := ⟨clients, [sent], []⟩) first hreceiptor
      List.mem_cons_self
    rwa [sendToQueue_eq hK (hqueue first)] at hpublish
  have hexpire : Step K c ⟨clients, [(targetQueue c first, ⟨content, none, [], [first]⟩), sent], []⟩
      ⟨clients, [back, sent], []⟩ := by
    have hexpired := Step.expire (K := K) (c := c)
      (s := ⟨clients, [(targetQueue c first, (⟨content, none, [], [first]⟩ : Message B)), sent], []⟩)
      (List.nil_append _).symm (expired_targetQueue hK hsound.clients.declared first hhas)
    rwa [publish_eq] at hexpired
  have hagain := Step.retryMsg (K := K) (c := c) (s := ⟨clients, [back, sent], []⟩) second hreceiptor
    List.mem_cons_self
  rw [sendToQueue_eq hK (hqueue second)] at hagain
  exact ⟨_, (((hconnected.tail hsent).tail hretry).tail hexpire).tail hagain, List.mem_cons_self⟩

/-- A task of the receiptor has waited 5 seconds for the receipt, and is to wait 60 for the confirmations. -/
theorem delivered_of_run_retried :
    ∃ s : ServiceQueues Topology Unit, Run topologyBroker ⟨"home", 1000, 1, 5000, 12⟩ s ∧
      ("home-receipt-retry-60000", ⟨(), none, [5000], [.waittingReceipt, .waittingK]⟩) ∈ s.messages ∧
      s.clients.refused = [] ∧ s.unroutable = [] ∧
      topologyBroker.expired s.clients.topology "home-receipt-retry-60000" = some (60000, ["home-receipt"]) := by
  obtain ⟨s, hrun, hmem⟩ := exists_retried (c := ⟨"home", 1000, 1, 5000, 12⟩) topologyBroker_lawful ()
    .waittingReceipt .waittingK
  obtain ⟨hrefused, hunroutable, hwhere⟩ := delivered_of_run topologyBroker_lawful hrun
  refine ⟨s, hrun, hmem, hrefused, hunroutable, ?_⟩
  rcases hwhere _ _ hmem with ⟨hname, _⟩ | ⟨hname, _⟩ | ⟨hname, _⟩ | ⟨earlier, target, hasked, _, _, hexpired⟩
  · exact absurd hname.symm (queueName_ne_targetQueue _)
  · exact absurd hname.symm (retryQueue_ne_targetQueue _ _)
  · exact absurd hname.symm (receiptQueue_ne_targetQueue _)
  · obtain rfl : target = .waittingK := by
      have hlast := congrArg List.getLast? hasked
      rw [List.getLast?_concat] at hlast
      exact (Option.some.inj hlast).symm
    exact hexpired

end ServiceQueues
end ThunderBridge
