import ThunderBridge.Validator.Pipeline

/-!
# `Validator.Conservation` — no event task is dropped

A message *owes* its event task as long as its consumer has neither handed the task on nor seen its end: from
delivery until a receipt task, a retry task or a delayed copy of it is in a queue (`Owes`). One step of a
consumer never drops a debt: some successor owes the task, or the task is over (`move_owes`). The debts are
therefore kept along every run, through every answer, exception and crash.

After a success the debt is with the receipt task, so the acknowledgement that follows owes nothing; after a
failure it stays with the message until the copy is published, and the broker carries the two operations out
in this order.
-/

namespace ThunderBridge
namespace Pipeline

variable {D : Type}

/-! ## Debts -/

/-- The results after which `runSender` publishes the task again. -/
def republished : SendResult → Bool
  | .failed | .timeout | .insufficientFunds | .nonceTooLow => true
  | _ => false

/-- The sender has neither handed on nor finished the task of the event `o`. Where it fills a nonce the event
    was ignored. -/
def SenderAwait.Owes (o : Origin D) : SenderAwait D → Prop
  | .fillNonce | .sendToSelf | .dummyBlock _ | .dummyReceipt _ => False
  | .sentReceipt _ receipt | .importedReceipt _ receipt => receipt.eventTask.origin = o
  | .updateNonce _ result => republished result = true
  | .unlock (some result) => republished result = true
  | .channel ops => ∃ task rest, ops = .publish task :: rest ∧ task.origin = o
  | _ => True

def ReceiptAwait.Owes : ReceiptAwait → Prop
  | .channel ops => ∃ rest, ops = .retry :: rest
  | _ => True

/-- The message owes the event `o`. -/
def Owes (o : Origin D) : QueueMessage D → Prop
  | .sender task await => task.origin = o ∧ SenderAwait.Owes o await
  | .receiptor task await => task.eventTask.origin = o ∧ ReceiptAwait.Owes await

theorem Owes.origin {o : Origin D} {m : QueueMessage D} (h : Owes o m) : origin m = o := by
  cases m with
  | sender task await => exact h.1
  | receiptor task await => exact h.1

theorem finish_owes {task : EventTask D} {result : SendResult} (h : republished result = true) :
    SenderAwait.Owes task.origin (.channel (finish task result)) := by
  cases result with
  | failed => exact ⟨task, _, rfl, rfl⟩
  | timeout => exact ⟨task, _, rfl, rfl⟩
  | insufficientFunds => exact ⟨task, _, rfl, rfl⟩
  | nonceTooLow =>
      refine ⟨_, _, rfl, ?_⟩
      split <;> rfl
  | success | txImported | blockGasLimitExceeded | skipped | sendDummyTxToFillNonce =>
      exact absurd h (by decide)

theorem thrown_owes (task : EventTask D) : SenderAwait.Owes task.origin (thrown task) := ⟨task, _, rfl, rfl⟩

/-- An exception in `sendTx` leaves the debt with the message, unless the submission was rejected. A transaction
    that was imported is followed under its hash. -/
theorem caught_owes {o : Origin D} {nonce : Nat} {message : String} {txHash : Option Tx}
    (himported : SendTxError.isTxWasImportedError message = true → txHash ≠ none)
    (hrejected : rejection message = none) : SenderAwait.Owes o (caught nonce message txHash) := by
  unfold caught
  split
  · rename_i h
    cases txHash with
    | none => exact absurd rfl (himported h)
    | some tx => exact trivial
  · rename_i h
    unfold rejection at hrejected
    rw [if_neg h] at hrejected
    split
    · rename_i hgas
      rw [if_pos hgas] at hrejected
      cases hrejected
    · split
      · exact rfl
      · split
        · exact trivial
        · split <;> exact rfl

/-! ## One move -/

/-- What a move does with a debt. -/
def HandsOn (o : Origin D) (v : Move D) : Prop := (∃ m ∈ v.successors, Owes o m) ∨ ∃ e, v.ended = some e

theorem HandsOn.of_only {o : Origin D} {xs : List (QueueMessage D)} {v : Move D} (h : only xs = some v)
    (hm : ∃ m ∈ xs, Owes o m) : HandsOn o v := by
  rw [only_eq_some] at h
  subst h
  exact .inl hm

theorem HandsOn.of_some {o : Origin D} {v v' : Move D} (h : some v' = some v)
    (hm : ∃ m ∈ v'.successors, Owes o m) : HandsOn o v := by
  obtain rfl := Option.some.inj h
  exact .inl hm

theorem throwInSendTx_handsOn {task : EventTask D} {nonce : Nat} {message : String} {txHash : Option Tx}
    (beside : List (QueueMessage D)) (pooled : List Tx)
    (himported : SendTxError.isTxWasImportedError message = true → txHash ≠ none) :
    HandsOn task.origin (throwInSendTx task nonce message txHash beside pooled) := by
  cases hrejected : rejection message with
  | some e => exact .inr ⟨e, hrejected⟩
  | none => exact .inl ⟨_, List.mem_cons_self, rfl, caught_owes himported hrejected⟩

/-- The same without a hash. -/
theorem throwInSendTx_handsOn_plain {task : EventTask D} {nonce : Nat} {message : String}
    (beside : List (QueueMessage D)) (pooled : List Tx)
    (hplain : SendTxError.isTxWasImportedError message = false) :
    HandsOn task.origin (throwInSendTx task nonce message none beside pooled) := by
  apply throwInSendTx_handsOn
  intro himported
  rw [hplain] at himported
  exact absurd himported Bool.false_ne_true

variable {c : Config} {p : Pipeline D}

/-- **One step of the sender** hands the debt on. -/
theorem senderMove_owes {free : Bool} {task : EventTask D} {await : SenderAwait D} {answer : Answer}
    {v : Move D} (h : senderMove p free task await answer = some v) (howes : SenderAwait.Owes task.origin await) :
    HandsOn task.origin v := by
  -- the message itself, where it goes on owing the task
  have hself {await' : SenderAwait D} {ms : List (QueueMessage D)} (ho : SenderAwait.Owes task.origin await') :
      ∃ m ∈ QueueMessage.sender task await' :: ms, Owes task.origin m := ⟨_, List.mem_cons_self, rfl, ho⟩
  cases answer with
  | expire | deliver | crash =>
      rcases senderMove_broker (by simp) h with rfl | rfl
      · exact .inl (hself trivial)
      · exact .inl (hself trivial)
  | fails e =>
      simp only [senderMove] at h
      split at h
      -- to fill the nonce of an ignored event owes nothing
      case h_11 => exact absurd howes id
      case h_12 | h_13 => exact Option.some.inj h ▸ throwInSendTx_handsOn_plain [] [] e.notImported
      case h_14 => cases h
      case h_1 | h_2 | h_3 | h_4 | h_5 => exact .of_only h (hself (thrown_owes task))
      case h_6 | h_7 | h_8 | h_9 | h_10 => exact .of_only h (hself trivial)
  | txInfos nonempty =>
      simp only [senderMove] at h
      split at h
      · split at h
        · exact .of_only h (hself trivial)
        · split at h <;> exact .inr ⟨_, congrArg Move.ended (Option.some.inj h).symm⟩
      · cases h
  | nonce n =>
      simp only [senderMove] at h
      split at h
      · split at h
        · exact absurd howes id
        · split at h
          · split at h <;> exact .of_only h (hself trivial)
          · exact .of_only h (hself trivial)
        · exact .of_only h (hself trivial)
        · exact .of_only h (hself rfl)
        · cases h
      · cases h
  | cache readable =>
      simp only [senderMove] at h
      split at h
      · split at h <;> exact .of_only h (hself trivial)
      · cases h
  | sent content =>
      simp only [senderMove] at h
      split at h
      · exact absurd howes id
      · exact .of_some h (hself trivial)
      · cases h
  | refused content pooled message =>
      simp only [senderMove] at h
      split at h
      · exact absurd howes id
      · obtain rfl := Option.some.inj h
        exact throwInSendTx_handsOn _ _ fun _ => Option.some_ne_none _
      · cases h
  | lost content =>
      simp only [senderMove] at h
      split at h
      · exact absurd howes id
      · obtain rfl := Option.some.inj h
        exact throwInSendTx_handsOn_plain _ _ submitTimeout_notImported
      · cases h
  | block number now =>
      simp only [senderMove] at h
      split at h
      · exact absurd howes id
      · exact .of_only h (hself rfl)
      · exact .of_only h (hself rfl)
      · cases h
  | published =>
      simp only [senderMove] at h
      split at h
      · exact absurd howes id
      -- the receipt task owes the event from now on
      · exact .of_only h ⟨_, List.mem_cons_of_mem _ List.mem_cons_self, howes, trivial⟩
      · exact .of_only h ⟨_, List.mem_cons_of_mem _ List.mem_cons_self, howes, trivial⟩
      · cases h
  | unconfirmed stored e =>
      simp only [senderMove] at h
      split at h
      · exact absurd howes id
      · obtain rfl := Option.some.inj h
        exact throwInSendTx_handsOn_plain _ _ e.notImported
      · exact .of_only h (hself trivial)
      · cases h
  | done =>
      simp only [senderMove] at h
      split at h
      · split at h
        · refine .of_only h (hself ?_)
          split <;> exact trivial
        · cases h
      · exact .of_some h (hself howes)
      · exact .of_only h (hself (finish_owes howes))
      · exact .of_only h (hself (thrown_owes task))
      · cases h
  | receipt _ => cases h
  | carriedOut =>
      simp only [senderMove] at h
      split at h
      · -- the copy is stored before the message is acknowledged
        rename_i task' ops
        obtain ⟨task'', rest, heq, horigin⟩ := howes
        obtain ⟨hop, _⟩ := List.cons.inj heq
        obtain rfl := SenderOp.publish.inj hop
        exact .of_only h ⟨_, List.mem_cons_of_mem _ List.mem_cons_self, horigin, trivial⟩
      · obtain ⟨_, _, heq, _⟩ := howes
        cases heq
      · obtain ⟨_, _, heq, _⟩ := howes
        cases heq
      · cases h

/-- **One step of the receiptor** hands the debt on. -/
theorem receiptMove_owes {task : ReceiptTask D} {await : ReceiptAwait} {answer : Answer} {v : Move D}
    (h : receiptMove c p task await answer = some v) (howes : ReceiptAwait.Owes await) :
    HandsOn task.eventTask.origin v := by
  have hself {await' : ReceiptAwait} {ms : List (QueueMessage D)} (ho : ReceiptAwait.Owes await') :
      ∃ m ∈ QueueMessage.receiptor task await' :: ms, Owes task.eventTask.origin m :=
    ⟨_, List.mem_cons_self, rfl, ho⟩
  have hretry : ReceiptAwait.Owes (.channel [.retry, .nack]) := ⟨_, rfl⟩
  cases answer with
  | expire | deliver | crash =>
      rcases receiptMove_broker (by simp) h with rfl | rfl
      · exact .inl (hself trivial)
      · exact .inl (hself trivial)
  | fails message =>
      simp only [receiptMove] at h
      split at h
      · exact .of_only h (hself trivial)
      · exact .of_only h (hself hretry)
      · exact .of_only h (hself hretry)
      · cases h
  | receipt found =>
      simp only [receiptMove] at h
      split at h
      · split at h
        · exact .of_only h (hself trivial)
        · split at h
          · split at h <;> exact .of_only h (hself trivial)
          · cases h
      · cases h
  | block number now =>
      simp only [receiptMove] at h
      split at h
      · split at h
        · exact .of_only h (hself trivial)
        · exact .of_only h (hself hretry)
      · split at h
        · exact .inr ⟨.confirmed, congrArg Move.ended (Option.some.inj h).symm⟩
        · exact .of_only h (hself hretry)
      · cases h
  | published =>
      simp only [receiptMove] at h
      split at h
      · -- the retry task owes the event from now on
        exact .of_only h ⟨_, List.mem_cons_of_mem _ List.mem_cons_self, rfl, trivial⟩
      · cases h
  | unconfirmed stored message =>
      simp only [receiptMove] at h
      split at h
      · exact .of_only h (hself hretry)
      · cases h
  | carriedOut =>
      simp only [receiptMove] at h
      split at h
      · exact .of_only h ⟨_, List.mem_cons_of_mem _ List.mem_cons_self, rfl, trivial⟩
      · obtain ⟨_, heq⟩ := howes
        cases heq
      · obtain ⟨_, heq⟩ := howes
        cases heq
      · cases h
  | txInfos _ | nonce _ | cache _ | sent _ | refused _ _ _ | lost _ | done => cases h

/-- **One move** never drops a debt. -/
theorem move_owes {m : QueueMessage D} {answer : Answer} {v : Move D}
    (h : move c p m answer = some v) {o : Origin D} (howes : Owes o m) : HandsOn o v := by
  cases m with
  | sender task await =>
      obtain ⟨rfl, howes⟩ := howes
      exact senderMove_owes h howes
  | receiptor task await =>
      obtain ⟨rfl, howes⟩ := howes
      exact receiptMove_owes h howes

/-! ## Runs -/

/-- Each accepted event is owed by some message, or over. -/
def Conserved (p : Pipeline D) : Prop :=
  ∀ o ∈ p.accepted, (∃ m ∈ p.messages, Owes o m) ∨ ∃ e, (o, e) ∈ p.ended

theorem conserved_initial (chainNonce : Nat) : Conserved (initial chainNonce : Pipeline D) := by
  intro o ho
  exact absurd ho List.not_mem_nil

theorem step_conserved {p' : Pipeline D} (hp : Conserved p) (h : Step c p p') : Conserved p' := by
  obtain ⟨input, h⟩ := h
  rcases step_cases h with ⟨eventType, event, rfl⟩ | ⟨k, m, answer, v, _, hk, hv, rfl⟩ | ⟨tx, _, rfl⟩ | ⟨tx, rfl⟩
  · intro o ho
    rcases List.mem_cons.mp ho with rfl | hold
    · exact .inl ⟨_, List.mem_append_right _ (List.mem_singleton.mpr rfl), rfl, trivial⟩
    · rcases hp o hold with ⟨m, hm, howes⟩ | hend
      · exact .inl ⟨m, List.mem_append_left _ hm, howes⟩
      · exact .inr hend
  · intro o ho
    rcases hp o ho with hmsg | ⟨e, he⟩
    · -- the message that moves hands its debt on; the others keep theirs
      have hhand : Owes o m → (∃ m' ∈ v.successors, Owes o m') ∨ ∃ e, (o, e) ∈ (p.apply k m v).ended := by
        intro howes
        rcases move_owes hv howes with hnext | ⟨e, he⟩
        · exact .inl hnext
        · refine .inr ⟨e, List.mem_append_left _ ?_⟩
          rw [he, howes.origin]
          exact List.mem_singleton.mpr rfl
      exact Messages.exists_replaceAt hk hhand hmsg
    · exact .inr ⟨e, List.mem_append_right _ he⟩
  · exact hp
  · exact hp

/-- **Task conservation.** In every reachable state each event that the queue of the sender accepted is in a
    message of some queue, or its task is over: `processEvents` returned nothing for it, its submission was
    rejected for the block gas limit, or a success receipt had enough blocks on top. -/
theorem task_conservation {chainNonce : Nat} {p : Pipeline D}
    (hrun : Relation.ReflTransGen (Step c) (initial chainNonce) p) :
    ∀ o ∈ p.accepted, (∃ m ∈ p.messages, origin m = o) ∨ ∃ e, (o, e) ∈ p.ended := by
  intro o ho
  have hinv : Conserved p :=
    Calls.steps_invariant (P := Conserved) (fun _ _ hp hstep => step_conserved hp hstep) hrun
      (conserved_initial chainNonce)
  rcases hinv o ho with ⟨m, hm, howes⟩ | hend
  · exact .inl ⟨m, hm, howes.origin⟩
  · exact .inr hend

theorem task_conservation_after_submission :
    ∃ p : Pipeline Nat, play ⟨12, 6⟩ (initial 0) submission = some p ∧ p.messages.length = 1 ∧
      p.accepted = [("erc-erc-affirmation-request", ⟨8, 77⟩)] ∧
      ∀ o ∈ p.accepted, (∃ m ∈ p.messages, origin m = o) ∨ ∃ e, (o, e) ∈ p.ended := by
  have heval : (do
      let p ← play ⟨12, 6⟩ (initial 0) submission
      pure (p.messages.length, p.accepted)) = some (1, [("erc-erc-affirmation-request", ⟨8, 77⟩)]) := by
    decide +kernel
  simp only [Option.bind_eq_bind, Option.bind_eq_some_iff, Option.pure_def, Option.some.injEq,
    Prod.mk.injEq] at heval
  obtain ⟨p, hp, hlen, haccepted⟩ := heval
  exact ⟨p, hp, hlen, haccepted, task_conservation (run_of_play hp)⟩

end Pipeline
end ThunderBridge
