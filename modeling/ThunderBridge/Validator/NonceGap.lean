import Mathlib.Order.MinMax
import ThunderBridge.Validator.Pipeline

/-!
# `Validator.NonceGap` — which nonces can be abandoned

Every nonce from the chain nonce up to the cached one was given to a transaction. If the node drops that
transaction, somebody has to send another one under the same nonce, or all later transactions wait for ever.
Under a condition on the node's refusals, somebody does: a message *carries* the nonce (`Carries`), a receipt
task that waits for the transaction or a retry task that will send it again, and a step hands the nonce on to
a successor or finds it below the chain nonce (`Sound.hands`).

The condition is needed because two branches let go of a live nonce (`LiveRefusal`). A retry task whose
submission is refused for the block gas limit is dropped, and one that is told "nonce too low" loses its nonce,
or is acknowledged if it only fills the nonce; but `isNonceTooLowError` also takes "transaction with same
nonce in the queue", which says that the old transaction is still in the pool, from where it may be dropped
later. `sendTx` reads the errors of the calls after the submission in the same way.
-/

namespace ThunderBridge
namespace Pipeline

variable {D : Type}

/-! ## The property -/

/-- A transaction, a receipt task or a retry task has the nonce. -/
def Covered (p : Pipeline D) (n : Nat) : Prop :=
  (∃ tx ∈ p.pool, tx.nonce = n) ∨
  (∃ task await, .receiptor task await ∈ p.messages ∧ task.nonce = n) ∨
  (∃ task await, .sender task await ∈ p.messages ∧ isRetryTask task = true ∧ task.nonce = some n)

/-- **No nonce below the cached one is abandoned.** -/
def NoGap (p : Pipeline D) : Prop :=
  ∀ cached, p.cachedNonce = some cached → ∀ n, p.chainNonce ≤ n → n < cached → Covered p n

/-- The error that an answer is. -/
def Answer.error : Answer → Option String
  | .fails e | .unconfirmed _ e => some e.message
  | .refused _ _ message => some message
  | .lost _ => some submitTimeout
  | _ => none

/-- The errors on which `sendTx` gives up the nonce: it drops the task, or takes the nonce out of it. -/
def LetsGo (message : String) : Prop :=
  SendTxError.isTxWasImportedError message = false ∧
    (SendTxError.isBlockGasLimitExceededError message = true ∨
      SendTxError.isInsufficientFundError message = false ∧ SendTxError.isNonceTooLowError message = true)

/-- A retry task is submitted under its own nonce, which the chain has not passed, or the nonce is filled, and
    the answer is an error on which the sender lets go of the nonce. -/
def LiveRefusal (p : Pipeline D) : QueueMessage D → Answer → Prop
  | .sender task await, answer =>
      ∃ nonce message, task.nonce = some nonce ∧ p.chainNonce ≤ nonce ∧ answer.error = some message ∧
        match await with
        | .sendTransaction nonce' | .sentBlock nonce' _ | .sentReceipt nonce' _ => nonce' = nonce ∧ LetsGo message
        | .sendToSelf => SendTxError.isNonceTooLowError message = true
        | _ => False
  | .receiptor _ _, _ => False

/-- No submission under a live nonce is refused so. -/
def Spares (p : Pipeline D) (input : Input D) : Prop :=
  ∀ k answer m, input = .answer k answer → p.messages[k]? = some m → ¬ LiveRefusal p m answer

/-! ## Carrying a nonce -/

/-- The results after which the task is published again with its nonce. -/
def keepsNonce : SendResult → Bool
  | .failed | .timeout | .insufficientFunds => true
  | _ => false

/-- The sender has not let go of the nonce of its task. -/
def SenderAwait.Keeps (task : EventTask D) : SenderAwait D → Prop
  | .forceNonce => False
  | .updateNonce _ result => keepsNonce result = true
  | .unlock (some result) => keepsNonce result = true
  | .channel ops => ∃ rest, ops = .publish task :: rest
  | _ => True

def ReceiptAwait.Keeps (nonce : Nat) : ReceiptAwait → Prop
  | .successBlock _ => False
  | .resend nonce' _ => nonce' = some nonce
  | .channel ops => ∃ rest, ops = .retry :: rest
  | _ => True

/-- The message carries the nonce `n`. -/
def Carries (n : Nat) : QueueMessage D → Prop
  | .sender task await => task.nonce = some n ∧ SenderAwait.Keeps task await
  | .receiptor task await => task.nonce = n ∧ ReceiptAwait.Keeps n await

/-! ## Sane messages -/

/-- A nonce of a task that the chain has passed. -/
def Passed (chain : Nat) (task : EventTask D) : Prop := ∀ n, task.nonce = some n → n < chain

/-- The sender submits under `nonce` because it is the task's own, or the chain has passed the task's own. -/
def Own (chain : Nat) (task : EventTask D) (nonce : Nat) : Prop :=
  ∀ n, task.nonce = some n → n = nonce ∨ n < chain

/-- Only retry tasks have a nonce, and none is larger than `bound`. -/
def SaneTask (bound : Nat) (task : EventTask D) : Prop :=
  ∀ n, task.nonce = some n → isRetryTask task = true ∧ n ≤ bound

/-- The nonces a consumer of an event task works with. -/
def SenderAwait.Sane (chain bound : Nat) (task : EventTask D) : SenderAwait D → Prop
  | .cachedNonce | .freshNonce | .forceNonce => Passed chain task
  | .sendTransaction nonce => nonce ≤ bound ∧ Own chain task nonce
  | .sentBlock nonce tx | .importedBlock nonce tx => nonce ≤ bound ∧ tx.nonce = nonce ∧ Own chain task nonce
  | .sentReceipt nonce receipt | .importedReceipt nonce receipt =>
      nonce ≤ bound ∧ receipt.nonce = nonce ∧ receipt.transactionHash.nonce = nonce ∧ Own chain task nonce
  | .dummyBlock tx => task.nonce = some tx.nonce
  | .dummyReceipt receipt => task.nonce = some receipt.nonce ∧ receipt.transactionHash.nonce = receipt.nonce
  | .updateNonce nonce result => nonce ≤ bound ∨ result = .success ∧ ∃ n, nonce = n + 1 ∧ n ≤ bound
  | .channel ops => ∀ task', .publish task' ∈ ops → SaneTask bound task'
  | _ => True

/-- A receipt task waits for a transaction with its nonce; a receipt was seen only if it was mined. -/
def ReceiptAwait.Sane (chain : Nat) (nonce : Nat) : ReceiptAwait → Prop
  | .successBlock _ => nonce < chain
  | .resend nonce' _ => nonce' = some nonce ∨ nonce' = none ∧ nonce < chain
  | _ => True

def Sane (chain bound : Nat) : QueueMessage D → Prop
  | .sender task await => SaneTask bound task ∧ SenderAwait.Sane chain bound task await
  | .receiptor task await =>
      task.transactionHash.nonce = task.nonce ∧ task.nonce ≤ bound ∧ ReceiptAwait.Sane chain task.nonce await

/-- The message is about to raise the cached nonce above `n`. -/
def Raises (n : Nat) : QueueMessage D → Prop
  | .sender _ (.updateNonce nonce .success) => nonce = n + 1
  | _ => False

/-- No message has a nonce above the chain nonce and the cached one. -/
def bound (p : Pipeline D) : Nat := max p.chainNonce (p.cachedNonce.getD 0)

section Mono

variable {chain chain' b b' : Nat} {task : EventTask D}

theorem Passed.mono (h : Passed chain task) (hchain : chain ≤ chain') : Passed chain' task :=
  fun n hn => Nat.lt_of_lt_of_le (h n hn) hchain

theorem Own.mono {nonce : Nat} (h : Own chain task nonce) (hchain : chain ≤ chain') :
    Own chain' task nonce := by
  intro n hn
  rcases h n hn with heq | hlt
  · exact .inl heq
  · exact .inr (Nat.lt_of_lt_of_le hlt hchain)

/-- A nonce of the task that is still live is the submitted one. -/
theorem Own.eq {nonce n : Nat} (h : Own chain task nonce) (hn : task.nonce = some n) (hchain : chain ≤ n) :
    n = nonce := by
  rcases h n hn with heq | hlt
  · exact heq
  · exact absurd hlt (Nat.not_lt.mpr hchain)

theorem SaneTask.mono (h : SaneTask b task) (hb : b ≤ b') : SaneTask b' task :=
  fun n hn => ⟨(h n hn).1, Nat.le_trans (h n hn).2 hb⟩

/-- Chain nonce and bound only grow. -/
theorem Sane.mono {m : QueueMessage D} (h : Sane chain b m) (hchain : chain ≤ chain') (hb : b ≤ b') :
    Sane chain' b' m := by
  cases m with
  | sender task await =>
      obtain ⟨htask, hawait⟩ := h
      refine ⟨htask.mono hb, ?_⟩
      cases await with
      | cachedNonce | freshNonce | forceNonce => exact Passed.mono hawait hchain
      | sendTransaction nonce => exact ⟨Nat.le_trans hawait.1 hb, hawait.2.mono hchain⟩
      | sentBlock _ _ | importedBlock _ _ =>
          exact ⟨Nat.le_trans hawait.1 hb, hawait.2.1, hawait.2.2.mono hchain⟩
      | sentReceipt _ _ | importedReceipt _ _ =>
          exact ⟨Nat.le_trans hawait.1 hb, hawait.2.1, hawait.2.2.1, hawait.2.2.2.mono hchain⟩
      | updateNonce nonce result =>
          rcases hawait with hle | ⟨hres, n, hn, hle⟩
          · exact .inl (Nat.le_trans hle hb)
          · exact .inr ⟨hres, n, hn, Nat.le_trans hle hb⟩
      | channel ops => exact fun task' ht => (hawait task' ht).mono hb
      | dummyBlock _ | dummyReceipt _ => exact hawait
      | delayed | ready | processEvents | fillNonce | sendToSelf | lock | retryNonce | unlock _ =>
          exact trivial
  | receiptor task await =>
      obtain ⟨htx, hle, hawait⟩ := h
      refine ⟨htx, Nat.le_trans hle hb, ?_⟩
      cases await with
      | successBlock _ => exact Nat.lt_of_lt_of_le hawait hchain
      | resend _ _ =>
          rcases hawait with heq | ⟨hnone, hlt⟩
          · exact .inl heq
          · exact .inr ⟨hnone, Nat.lt_of_lt_of_le hlt hchain⟩
      | delayed | ready | getReceipt | hung | nullBlock | channel _ => exact trivial

end Mono

/-! ## One move -/

/-- What a move owes to the nonces. -/
structure Sound (p : Pipeline D) (m : QueueMessage D) (v : Move D) : Prop where
  sane : ∀ m' ∈ v.successors, Sane p.chainNonce p.bound m'
  /-- A nonce is handed on to a successor, unless the chain has passed it. -/
  hands : ∀ n, Carries n m → p.chainNonce ≤ n → ∃ m' ∈ v.successors, Carries n m'
  /-- The cached nonce is raised above `n` only together with a receipt task for `n`. -/
  raises : ∀ n, ∀ m' ∈ v.successors, Raises n m' → ∃ m'' ∈ v.successors, Carries n m''
  cached : ∀ cached, v.cached = some cached → ∃ task nonce result,
    m = .sender task (.updateNonce nonce result) ∧ cached = updatedNonce p.cachedNonce nonce

variable {c : Config} {p : Pipeline D}

theorem chainNonce_le_bound : p.chainNonce ≤ p.bound := Nat.le_max_left _ _

theorem cached_le_bound {cached : Nat} (h : p.cachedNonce = some cached) : cached ≤ p.bound := by
  have hle : p.cachedNonce.getD 0 ≤ p.bound := Nat.le_max_right _ _
  rwa [h, Option.getD_some] at hle

theorem raises_iff {n : Nat} {task : EventTask D} {await : SenderAwait D} :
    Raises n (.sender task await) ↔ await = .updateNonce (n + 1) .success := by
  constructor
  · intro h
    cases await with
    | updateNonce nonce result =>
        cases result with
        | success => exact congrArg (SenderAwait.updateNonce · .success) h
        | _ => exact absurd h id
    | _ => exact absurd h id
  · rintro rfl
    exact rfl

/-- The sender goes on with its task, and puts at most fresh messages beside it. -/
theorem Sound.sender {task : EventTask D} {await await' : SenderAwait D} {ms : List (QueueMessage D)}
    {pooled : List Tx} {ended : Option Ending} (htask : SaneTask p.bound task)
    (hsane : SenderAwait.Sane p.chainNonce p.bound task await')
    (hkeeps : ∀ n, task.nonce = some n → p.chainNonce ≤ n → SenderAwait.Keeps task await →
      SenderAwait.Keeps task await')
    (hraise : ∀ nonce, await' ≠ .updateNonce nonce .success)
    (hms : ∀ m' ∈ ms, Sane p.chainNonce p.bound m' ∧ ∀ n, ¬ Raises n m') :
    Sound p (.sender task await) ⟨.sender task await' :: ms, pooled, none, ended⟩ where
  sane := by
    intro m' hm'
    rcases List.mem_cons.mp hm' with rfl | hm'
    · exact ⟨htask, hsane⟩
    · exact (hms m' hm').1
  hands := by
    rintro n ⟨hn, hk⟩ hchain
    exact ⟨_, List.mem_cons_self, hn, hkeeps n hn hchain hk⟩
  raises := by
    intro n m' hm' hr
    rcases List.mem_cons.mp hm' with rfl | hm'
    · exact absurd (raises_iff.mp hr) (hraise _)
    · exact absurd hr ((hms m' hm').2 n)
  cached := by
    intro cached h
    cases h

/-- The receiptor goes on with its task, and puts at most a fresh message beside it. -/
theorem Sound.receiptor {task : ReceiptTask D} {await await' : ReceiptAwait} {ms : List (QueueMessage D)}
    {ended : Option Ending}
    (htask : task.transactionHash.nonce = task.nonce ∧ task.nonce ≤ p.bound)
    (hsane : ReceiptAwait.Sane p.chainNonce task.nonce await')
    (hkeeps : p.chainNonce ≤ task.nonce → ReceiptAwait.Keeps task.nonce await →
      ReceiptAwait.Keeps task.nonce await')
    (hms : ∀ m' ∈ ms, Sane p.chainNonce p.bound m' ∧ ∀ n, ¬ Raises n m') :
    Sound p (.receiptor task await) ⟨.receiptor task await' :: ms, [], none, ended⟩ where
  sane := by
    intro m' hm'
    rcases List.mem_cons.mp hm' with rfl | hm'
    · exact ⟨htask.1, htask.2, hsane⟩
    · exact (hms m' hm').1
  hands := by
    rintro n ⟨rfl, hk⟩ hchain
    exact ⟨_, List.mem_cons_self, rfl, hkeeps hchain hk⟩
  raises := by
    intro n m' hm' hr
    rcases List.mem_cons.mp hm' with rfl | hm'
    · exact absurd hr id
    · exact absurd hr ((hms m' hm').2 n)
  cached := by
    intro cached h
    cases h

theorem resendEvent_sane {task : ReceiptTask D} {nonce : Option Nat} {b : Nat} (hle : task.nonce ≤ b)
    (hnonce : nonce = some task.nonce ∨ nonce = none) : SaneTask b (resendEvent task nonce) := by
  intro n hn
  change nonce = some n at hn
  rcases hnonce with rfl | rfl
  · obtain rfl := Option.some.inj hn
    refine ⟨?_, hle⟩
    unfold isRetryTask resendEvent
    split
    · rename_i retries hr
      cases htask : task.retries with
      | none =>
          rw [htask] at hr
          obtain rfl := Option.some.inj hr
          rfl
      | some k =>
          rw [htask] at hr
          obtain rfl := Option.some.inj hr
          exact decide_eq_true (Nat.succ_pos k)
    · rename_i hr
      cases hr
  · cases hn

theorem Sound.of_only {m : QueueMessage D} {xs : List (QueueMessage D)} {v : Move D} (h : only xs = some v)
    (hs : Sound p m ⟨xs, [], none, none⟩) : Sound p m v := by
  rw [only_eq_some] at h
  rwa [h]

theorem Sound.of_some {m : QueueMessage D} {v v' : Move D} (h : some v' = some v) (hs : Sound p m v') :
    Sound p m v := Option.some.inj h ▸ hs

/-- The message is gone. -/
theorem Sound.gone {m : QueueMessage D} (hgone : ∀ n, ¬ Carries n m) : Sound p m ⟨[], [], none, none⟩ where
  sane := by
    intro m' hm'
    cases hm'
  hands := by
    intro n hc
    exact absurd hc (hgone n)
  raises := by
    intro n m' hm'
    cases hm'
  cached := by
    intro cached h
    cases h

/-- The message hands its nonce to a second one. -/
theorem Sound.pair {m m₁ m₂ : QueueMessage D} (hsane₁ : Sane p.chainNonce p.bound m₁)
    (hsane₂ : Sane p.chainNonce p.bound m₂)
    (hhands : ∀ n, Carries n m → p.chainNonce ≤ n → Carries n m₂)
    (hraises : ∀ n, Raises n m₁ → Carries n m₂) (hquiet : ∀ n, ¬ Raises n m₂) :
    Sound p m ⟨[m₁, m₂], [], none, none⟩ where
  sane := by
    intro m' hm'
    rcases List.mem_cons.mp hm' with rfl | hm'
    · exact hsane₁
    · obtain rfl := List.mem_singleton.mp hm'
      exact hsane₂
  hands := by
    intro n hc hchain
    exact ⟨_, List.mem_cons_of_mem _ List.mem_cons_self, hhands n hc hchain⟩
  raises := by
    intro n m' hm' hr
    rcases List.mem_cons.mp hm' with rfl | hm'
    · exact ⟨_, List.mem_cons_of_mem _ List.mem_cons_self, hraises n hr⟩
    · obtain rfl := List.mem_singleton.mp hm'
      exact absurd hr (hquiet n)
  cached := by
    intro cached h
    cases h

/-- Nothing is put beside the message. -/
theorem sane_nil : ∀ m' ∈ ([] : List (QueueMessage D)), Sane p.chainNonce p.bound m' ∧ ∀ n, ¬ Raises n m' := by
  intro m' hm'
  cases hm'

theorem sane_single {m : QueueMessage D} (hsane : Sane p.chainNonce p.bound m) (hraise : ∀ n, ¬ Raises n m) :
    ∀ m' ∈ [m], Sane p.chainNonce p.bound m' ∧ ∀ n, ¬ Raises n m' := by
  intro m' hm'
  obtain rfl := List.mem_singleton.mp hm'
  exact ⟨hsane, hraise⟩

/-- **One step of the receiptor.** -/
theorem receiptMove_sound {task : ReceiptTask D} {await : ReceiptAwait} {answer : Answer} {v : Move D}
    (hmined : ∀ tx ∈ p.mined, tx.nonce < p.chainNonce)
    (hsane : Sane p.chainNonce p.bound (.receiptor task await))
    (h : receiptMove c p task await answer = some v) : Sound p (.receiptor task await) v := by
  obtain ⟨htx, hle, hawait⟩ := hsane
  have hretry : ReceiptAwait.Keeps task.nonce (.channel [.retry, .nack]) := ⟨_, rfl⟩
  cases answer with
  | expire | deliver | crash =>
      rcases receiptMove_broker (by simp) h with rfl | rfl
      · exact .receiptor ⟨htx, hle⟩ trivial (fun _ _ => trivial) sane_nil
      · exact .receiptor ⟨htx, hle⟩ trivial (fun _ _ => trivial) sane_nil
  | fails message =>
      simp only [receiptMove] at h
      split at h
      · exact .of_only h (.receiptor ⟨htx, hle⟩ trivial (fun _ _ => trivial) sane_nil)
      · exact .of_only h (.receiptor ⟨htx, hle⟩ trivial (fun _ _ => hretry) sane_nil)
      · exact .of_only h (.receiptor ⟨htx, hle⟩ trivial (fun _ _ => hretry) sane_nil)
      · cases h
  | receipt found =>
      simp only [receiptMove] at h
      split at h
      · split at h
        · exact .of_only h (.receiptor ⟨htx, hle⟩ trivial (fun _ _ => trivial) sane_nil)
        · split at h
          · -- a transaction with this nonce was mined
            rename_i hmem
            have hpassed : task.nonce < p.chainNonce := htx ▸ hmined _ hmem
            split at h
            · exact .of_only h (.receiptor ⟨htx, hle⟩ hpassed
                (fun hchain _ => absurd hpassed (Nat.not_lt.mpr hchain)) sane_nil)
            · exact .of_only h (.receiptor ⟨htx, hle⟩ (.inr ⟨rfl, hpassed⟩)
                (fun hchain _ => absurd hpassed (Nat.not_lt.mpr hchain)) sane_nil)
          · cases h
      · cases h
  | block number now =>
      simp only [receiptMove] at h
      split at h
      · split at h
        · exact .of_only h (.receiptor ⟨htx, hle⟩ (.inl rfl) (fun _ _ => rfl) sane_nil)
        · exact .of_only h (.receiptor ⟨htx, hle⟩ trivial (fun _ _ => hretry) sane_nil)
      · split at h
        · exact .of_some h (.receiptor ⟨htx, hle⟩ trivial (fun _ hkeeps => absurd hkeeps id) sane_nil)
        · exact .of_only h (.receiptor ⟨htx, hle⟩ trivial (fun _ hkeeps => absurd hkeeps id) sane_nil)
      · cases h
  | published =>
      simp only [receiptMove] at h
      split at h
      · rename_i nonce result
        -- the retry task carries the nonce from now on
        refine .of_only h (.pair ⟨htx, hle, trivial⟩ ⟨resendEvent_sane hle (hawait.imp id And.left), trivial⟩
          ?_ (fun _ hr => absurd hr id) (fun _ hr => hr))
        rintro n ⟨rfl, hkeeps⟩ _
        exact ⟨hkeeps, trivial⟩
      · cases h
  | unconfirmed stored message =>
      simp only [receiptMove] at h
      split at h
      · rename_i nonce result
        refine .of_only h (.receiptor ⟨htx, hle⟩ trivial (fun _ _ => hretry) ?_)
        split
        · exact sane_single ⟨resendEvent_sane hle (hawait.imp id And.left), trivial⟩ (fun _ hr => hr)
        · exact sane_nil
      · cases h
  | carriedOut =>
      simp only [receiptMove] at h
      split at h
      · refine .of_only h (.pair ⟨htx, hle, trivial⟩ ⟨htx, hle, trivial⟩ ?_ (fun _ hr => absurd hr id)
          (fun _ hr => hr))
        rintro n ⟨hn, _⟩ _
        exact ⟨hn, trivial⟩
      · refine .of_only h (.gone ?_)
        rintro n ⟨_, _, heq⟩
        cases heq
      · refine .of_only h (.gone ?_)
        rintro n ⟨_, _, heq⟩
        cases heq
      · cases h
  | txInfos _ | nonce _ | cache _ | sent _ | refused _ _ _ | lost _ | done => cases h

theorem finish_sane {b : Nat} {task : EventTask D} (htask : SaneTask b task) (result : SendResult) :
    ∀ task', .publish task' ∈ finish task result → SaneTask b task' := by
  have hnone : SaneTask b { task with nonce := none } := by
    intro n hn
    cases hn
  intro task' hmem
  cases result with
  | success | skipped | sendDummyTxToFillNonce | txImported | blockGasLimitExceeded =>
      exact absurd (List.mem_singleton.mp hmem) (by simp)
  | failed | timeout | insufficientFunds =>
      rcases List.mem_cons.mp hmem with heq | hmem
      · exact SenderOp.publish.inj heq ▸ htask
      · exact absurd (List.mem_singleton.mp hmem) (by simp)
  | nonceTooLow =>
      rcases List.mem_cons.mp hmem with heq | hmem
      · rw [SenderOp.publish.inj heq]
        split
        · exact hnone
        · exact htask
      · exact absurd (List.mem_singleton.mp hmem) (by simp)

theorem finish_keeps {task : EventTask D} {result : SendResult} (h : keepsNonce result = true) :
    SenderAwait.Keeps task (.channel (finish task result)) := by
  cases result with
  | failed | timeout | insufficientFunds => exact ⟨_, rfl⟩
  | success | skipped | sendDummyTxToFillNonce | txImported | blockGasLimitExceeded | nonceTooLow =>
      exact absurd h (by decide)

theorem thrown_sane {b : Nat} {task : EventTask D} (htask : SaneTask b task) {chain : Nat} :
    SenderAwait.Sane chain b task (thrown task) := finish_sane htask .failed

theorem thrown_keeps {task : EventTask D} : SenderAwait.Keeps task (thrown task) := ⟨_, rfl⟩

/-- **An exception in `sendTx`**: unless the submission was refused, the sender goes on with the nonce. -/
theorem throwInSendTx_sound {task : EventTask D} {await : SenderAwait D} {nonce : Nat} {message : String}
    {txHash : Option Tx} {beside : List (QueueMessage D)} {pooled : List Tx}
    (htask : SaneTask p.bound task) (hle : nonce ≤ p.bound) (hown : Own p.chainNonce task nonce)
    (htx : ∀ tx, txHash = some tx → tx.nonce = nonce)
    (himported : SendTxError.isTxWasImportedError message = true → txHash ≠ none)
    (hlive : task.nonce = some nonce → p.chainNonce ≤ nonce → ¬ LetsGo message)
    (hbeside : ∀ m' ∈ beside, Sane p.chainNonce p.bound m' ∧ ∀ n, ¬ Raises n m') :
    Sound p (.sender task await) (throwInSendTx task nonce message txHash beside pooled) := by
  unfold throwInSendTx caught
  split
  · rename_i hi
    cases txHash with
    | none => exact absurd rfl (himported hi)
    | some tx => exact .sender htask ⟨hle, htx tx rfl, hown⟩ (fun _ _ _ _ => trivial) (by simp) hbeside
  · rename_i hi
    rw [Bool.not_eq_true] at hi
    split
    · rename_i hgas
      refine .sender htask (.inl hle) ?_ (by simp) hbeside
      intro n hn hchain _
      obtain rfl := hown.eq hn hchain
      exact absurd ⟨hi, .inl hgas⟩ (hlive hn hchain)
    · split
      · exact .sender htask (.inl hle) (fun _ _ _ _ => rfl) (by simp) hbeside
      · rename_i hfund
        rw [Bool.not_eq_true] at hfund
        split
        · rename_i hlow
          have hpassed : Passed p.chainNonce task := by
            intro n hn
            by_contra hchain
            rw [Nat.not_lt] at hchain
            obtain rfl := hown.eq hn hchain
            exact hlive hn hchain ⟨hi, .inr ⟨hfund, hlow⟩⟩
          exact .sender htask hpassed (fun n hn hchain _ => absurd (hpassed n hn) (Nat.not_lt.mpr hchain))
            (by simp) hbeside
        · split
          · exact .sender htask (.inl hle) (fun _ _ _ _ => rfl) (by simp) hbeside
          · exact .sender htask (.inl hle) (fun _ _ _ _ => rfl) (by simp) hbeside

/-- The same without a hash. -/
theorem throwInSendTx_sound_plain {task : EventTask D} {await : SenderAwait D} {nonce : Nat} {message : String}
    {beside : List (QueueMessage D)} {pooled : List Tx}
    (hplain : SendTxError.isTxWasImportedError message = false) (htask : SaneTask p.bound task)
    (hle : nonce ≤ p.bound) (hown : Own p.chainNonce task nonce)
    (hlive : task.nonce = some nonce → p.chainNonce ≤ nonce → ¬ LetsGo message)
    (hbeside : ∀ m' ∈ beside, Sane p.chainNonce p.bound m' ∧ ∀ n, ¬ Raises n m') :
    Sound p (.sender task await) (throwInSendTx task nonce message none beside pooled) := by
  refine throwInSendTx_sound htask hle hown (by simp) ?_ hlive hbeside
  intro hi
  rw [hplain] at hi
  exact absurd hi Bool.false_ne_true

/-- The sender waits for something else and keeps its nonce. -/
theorem Sound.stay {task : EventTask D} {await await' : SenderAwait D} {ms : List (QueueMessage D)}
    (htask : SaneTask p.bound task) (hsane : SenderAwait.Sane p.chainNonce p.bound task await')
    (hkeeps : SenderAwait.Keeps task await') (hraise : ∀ nonce, await' ≠ .updateNonce nonce .success)
    (hms : ∀ m' ∈ ms, Sane p.chainNonce p.bound m' ∧ ∀ n, ¬ Raises n m') :
    Sound p (.sender task await) ⟨.sender task await' :: ms, [], none, none⟩ :=
  .sender htask hsane (fun _ _ _ _ => hkeeps) hraise hms

/-- The sender gives up a task whose nonce, if any, the chain has passed. -/
theorem Sound.skip {task : EventTask D} {await : SenderAwait D} (htask : SaneTask p.bound task)
    (hpassed : Passed p.chainNonce task) (result : SendResult) :
    Sound p (.sender task await) ⟨[.sender task (.channel (finish task result))], [], none, none⟩ :=
  .sender htask (finish_sane htask result)
    (fun n hn hchain _ => absurd (hpassed n hn) (Nat.not_lt.mpr hchain)) (by simp) sane_nil

/-- The call throws, and the task is published again. -/
theorem Sound.throw {task : EventTask D} {await : SenderAwait D} {ms : List (QueueMessage D)}
    (htask : SaneTask p.bound task)
    (hms : ∀ m' ∈ ms, Sane p.chainNonce p.bound m' ∧ ∀ n, ¬ Raises n m') :
    Sound p (.sender task await) ⟨.sender task (thrown task) :: ms, [], none, none⟩ :=
  .stay htask (thrown_sane htask) thrown_keeps (by simp [thrown]) hms

section SenderMove

variable {free : Bool} {task : EventTask D} {await : SenderAwait D} {v : Move D}

/-- A call failed. -/
theorem senderMove_sound_fails {e : PlainError}
    (hsane : Sane p.chainNonce p.bound (.sender task await))
    (hlive : ¬ LiveRefusal p (.sender task await) (.fails e))
    (h : senderMove p free task await (.fails e) = some v) : Sound p (.sender task await) v := by
  obtain ⟨htask, hawait⟩ := hsane
  simp only [senderMove] at h
  split at h
  case h_11 =>
    split at h
    · rename_i hlow
      refine .of_only h (.sender htask (finish_sane htask _) ?_ (by simp) sane_nil)
      intro n hn hchain _
      exact absurd ⟨n, _, hn, hchain, rfl, hlow⟩ hlive
    · exact .of_only h (.throw htask sane_nil)
  case h_12 =>
    exact .of_some h (throwInSendTx_sound_plain e.notImported htask hawait.1 hawait.2
      (fun hn hchain hgo => hlive ⟨_, _, hn, hchain, rfl, rfl, hgo⟩) sane_nil)
  case h_13 =>
    exact .of_some h (throwInSendTx_sound_plain e.notImported htask hawait.1 hawait.2.2
      (fun hn hchain hgo => hlive ⟨_, _, hn, hchain, rfl, rfl, hgo⟩) sane_nil)
  case h_14 => cases h
  case h_1 | h_2 | h_3 | h_4 | h_5 => exact .of_only h (.throw htask sane_nil)
  case h_6 | h_7 | h_8 | h_9 | h_10 => exact .of_only h (.stay htask trivial trivial (by simp) sane_nil)

theorem senderMove_sound_txInfos {nonempty : Bool}
    (hsane : Sane p.chainNonce p.bound (.sender task await))
    (h : senderMove p free task await (.txInfos nonempty) = some v) : Sound p (.sender task await) v := by
  obtain ⟨htask, _⟩ := hsane
  simp only [senderMove] at h
  split at h
  · split at h
    · exact .of_only h (.stay htask trivial trivial (by simp) sane_nil)
    · split at h
      · exact .of_some h (.sender htask trivial (fun _ _ _ _ => trivial) (by simp) sane_nil)
      · -- only a retry task has a nonce
        rename_i hretry
        exact .of_some h (.sender htask (finish_sane htask _)
          (fun n hn _ _ => absurd (htask n hn).1 hretry) (by simp) sane_nil)
  · cases h

/-- The node told its nonce, which the chain has reached. -/
theorem senderMove_sound_nonce {n : Nat}
    (hsane : Sane p.chainNonce p.bound (.sender task await))
    (h : senderMove p free task await (.nonce n) = some v) : Sound p (.sender task await) v := by
  obtain ⟨htask, hawait⟩ := hsane
  simp only [senderMove] at h
  split at h
  · rename_i hn
    have hnone (hnonce : task.nonce = none) : Passed p.chainNonce task := by
      intro k hk
      rw [hnonce] at hk
      cases hk
    have hold {nonce : Nat} (hnonce : task.nonce = some nonce) (hlt : ¬ n ≤ nonce) :
        Passed p.chainNonce task := by
      intro k hk
      obtain rfl := Option.some.inj (hnonce.symm.trans hk)
      exact Nat.lt_of_lt_of_le (Nat.not_le.mp hlt) hn
    split at h
    · split at h
      · rename_i nonce hnonce
        split at h
        · exact .of_only h (.stay htask trivial trivial (by simp) sane_nil)
        · rename_i hlt
          exact .of_only h (.skip htask (hold hnonce hlt) .skipped)
      · rename_i hnonce
        exact .of_only h (.skip htask (hnone hnonce) .skipped)
    · split at h
      · rename_i nonce hnonce
        split at h
        · refine .of_only h (.stay htask ⟨(htask nonce hnonce).2, fun k hk => .inl ?_⟩ trivial (by simp)
            sane_nil)
          exact Option.some.inj (hk.symm.trans hnonce)
        · rename_i hlt
          exact .of_only h (.stay htask (hold hnonce hlt) trivial (by simp) sane_nil)
      · rename_i hnonce
        exact .of_only h (.stay htask (hnone hnonce) trivial (by simp) sane_nil)
    · exact .of_only h (.stay htask ⟨Nat.le_trans hn chainNonce_le_bound, fun k hk => .inr (hawait k hk)⟩ trivial
        (by simp) sane_nil)
    · exact .of_only h (.sender htask (.inl (Nat.le_trans hn chainNonce_le_bound))
        (fun _ _ _ hkeeps => absurd hkeeps id) (by simp) sane_nil)
    · cases h
  · cases h

theorem senderMove_sound_cache {readable : Bool}
    (hsane : Sane p.chainNonce p.bound (.sender task await))
    (h : senderMove p free task await (.cache readable) = some v) : Sound p (.sender task await) v := by
  obtain ⟨htask, hawait⟩ := hsane
  simp only [senderMove] at h
  split at h
  · split at h
    · rename_i nonce hnonce
      have hcached : p.cachedNonce = some nonce := by
        split at hnonce
        · exact hnonce
        · cases hnonce
      exact .of_only h (.stay htask ⟨cached_le_bound hcached, fun k hk => .inr (hawait k hk)⟩ trivial (by simp)
        sane_nil)
    · exact .of_only h (.stay htask hawait trivial (by simp) sane_nil)
  · cases h

theorem senderMove_sound_sent {content : Nat}
    (hsane : Sane p.chainNonce p.bound (.sender task await))
    (h : senderMove p free task await (.sent content) = some v) : Sound p (.sender task await) v := by
  obtain ⟨htask, hawait⟩ := hsane
  simp only [senderMove] at h
  split at h
  · split at h
    · rename_i nonce hnonce
      exact .of_some h (.sender htask hnonce (fun _ _ _ _ => trivial) (by simp) sane_nil)
    · cases h
  · exact .of_some h (.sender htask ⟨hawait.1, rfl, hawait.2⟩ (fun _ _ _ _ => trivial) (by simp) sane_nil)
  · cases h

/-- The node refused the transaction. -/
theorem senderMove_sound_refused {content : Nat} {pooled : Bool} {message : String}
    (hsane : Sane p.chainNonce p.bound (.sender task await))
    (hlive : ¬ LiveRefusal p (.sender task await) (.refused content pooled message))
    (h : senderMove p free task await (.refused content pooled message) = some v) :
    Sound p (.sender task await) v := by
  obtain ⟨htask, hawait⟩ := hsane
  simp only [senderMove] at h
  split at h
  · split at h
    · rename_i nonce hnonce
      split at h
      · rename_i hlow
        refine .of_some h (.sender htask (finish_sane htask _) ?_ (by simp) sane_nil)
        intro n hn hchain _
        exact absurd ⟨n, _, hn, hchain, rfl, hlow⟩ hlive
      · split at h
        · exact .of_some h (.sender htask hnonce (fun _ _ _ _ => trivial) (by simp) sane_nil)
        · exact .of_some h (.sender htask (thrown_sane htask) (fun _ _ _ _ => thrown_keeps)
            (by simp [thrown]) sane_nil)
    · cases h
  · rename_i nonce
    refine .of_some h (throwInSendTx_sound htask hawait.1 hawait.2 ?_
      (fun _ => Option.some_ne_none _)
      (fun hn hchain hgo => hlive ⟨_, _, hn, hchain, rfl, rfl, hgo⟩) sane_nil)
    intro tx htx
    rw [← Option.some.inj htx]
  · cases h

theorem senderMove_sound_lost {content : Nat}
    (hsane : Sane p.chainNonce p.bound (.sender task await))
    (hlive : ¬ LiveRefusal p (.sender task await) (.lost content))
    (h : senderMove p free task await (.lost content) = some v) : Sound p (.sender task await) v := by
  obtain ⟨htask, hawait⟩ := hsane
  simp only [senderMove] at h
  split at h
  · split at h
    · exact .of_some h (.sender htask (thrown_sane htask) (fun _ _ _ _ => thrown_keeps)
        (by simp [thrown]) sane_nil)
    · cases h
  · exact .of_some h (throwInSendTx_sound_plain submitTimeout_notImported htask hawait.1 hawait.2
      (fun hn hchain hgo => hlive ⟨_, _, hn, hchain, rfl, rfl, hgo⟩) sane_nil)
  · cases h

theorem senderMove_sound_block {number now : Nat}
    (hsane : Sane p.chainNonce p.bound (.sender task await))
    (h : senderMove p free task await (.block number now) = some v) : Sound p (.sender task await) v := by
  obtain ⟨htask, hawait⟩ := hsane
  simp only [senderMove] at h
  split at h
  · rename_i tx
    have hnonce : task.nonce = some tx.nonce := hawait
    have hsent : tx.nonce = task.nonce.getD 0 := by
      rw [hnonce, Option.getD_some]
    exact .of_only h (.stay htask ⟨hnonce.trans (congrArg some hsent), hsent⟩ trivial (by simp) sane_nil)
  · exact .of_only h (.stay htask ⟨hawait.1, rfl, hawait.2⟩ trivial (by simp) sane_nil)
  · exact .of_only h (.stay htask ⟨hawait.1, rfl, hawait.2⟩ trivial (by simp) sane_nil)
  · cases h

/-- The receipt task is in its queue. -/
theorem senderMove_sound_published (hsane : Sane p.chainNonce p.bound (.sender task await))
    (h : senderMove p free task await .published = some v) : Sound p (.sender task await) v := by
  obtain ⟨htask, hawait⟩ := hsane
  simp only [senderMove] at h
  split at h
  · -- the receipt task carries the nonce from now on
    rename_i receipt
    obtain ⟨hnonce, htx⟩ := hawait
    refine .of_only h (.pair ⟨htask, finish_sane htask _⟩ ⟨htx, (htask _ hnonce).2, trivial⟩ ?_ ?_
      (fun _ hr => hr))
    · rintro n ⟨hn, _⟩ _
      exact ⟨Option.some.inj (hnonce.symm.trans hn), trivial⟩
    · intro n hr
      exact absurd (raises_iff.mp hr) (by simp)
  · rename_i nonce receipt
    obtain ⟨hle, rfl, htx, hown⟩ := hawait
    refine .of_only h (.pair ⟨htask, .inr ⟨rfl, _, rfl, hle⟩⟩ ⟨htx, hle, trivial⟩ ?_ ?_ (fun _ hr => hr))
    · rintro n ⟨hn, _⟩ hchain
      exact ⟨(hown.eq hn hchain).symm, trivial⟩
    · intro n hr
      exact ⟨Nat.succ.inj hr, trivial⟩
  · rename_i nonce receipt
    obtain ⟨hle, rfl, htx, hown⟩ := hawait
    refine .of_only h (.pair ⟨htask, .inl hle⟩ ⟨htx, hle, trivial⟩ ?_ ?_ (fun _ hr => hr))
    · rintro n ⟨hn, _⟩ hchain
      exact ⟨(hown.eq hn hchain).symm, trivial⟩
    · intro n hr
      exact absurd (raises_iff.mp hr) (by simp)
  · cases h

/-- The broker may have the receipt task all the same. -/
theorem senderMove_sound_unconfirmed {stored : Bool} {e : PlainError}
    (hsane : Sane p.chainNonce p.bound (.sender task await))
    (hlive : ¬ LiveRefusal p (.sender task await) (.unconfirmed stored e))
    (h : senderMove p free task await (.unconfirmed stored e) = some v) : Sound p (.sender task await) v := by
  obtain ⟨htask, hawait⟩ := hsane
  simp only [senderMove] at h
  have hbeside {receipt : ReceiptTask D}
      (hreceipt : receipt.transactionHash.nonce = receipt.nonce ∧ receipt.nonce ≤ p.bound) :
      ∀ m' ∈ (if stored then [QueueMessage.receiptor receipt .ready] else []),
        Sane p.chainNonce p.bound m' ∧ ∀ n, ¬ Raises n m' := by
    split
    · exact sane_single ⟨hreceipt.1, hreceipt.2, trivial⟩ (fun _ hr => hr)
    · exact sane_nil
  split at h
  · obtain ⟨hnonce, htx⟩ := hawait
    exact .of_only h (.throw htask (hbeside ⟨htx, (htask _ hnonce).2⟩))
  · obtain ⟨hle, rfl, htx, hown⟩ := hawait
    exact .of_some h (throwInSendTx_sound_plain e.notImported htask hle hown
      (fun hn hchain hgo => hlive ⟨_, _, hn, hchain, rfl, rfl, hgo⟩) (hbeside ⟨htx, hle⟩))
  · obtain ⟨hle, rfl, htx, hown⟩ := hawait
    exact .of_only h (.stay htask trivial trivial (by simp) (hbeside ⟨htx, hle⟩))
  · cases h

theorem senderMove_sound_done (hsane : Sane p.chainNonce p.bound (.sender task await))
    (h : senderMove p free task await .done = some v) : Sound p (.sender task await) v := by
  obtain ⟨htask, hawait⟩ := hsane
  simp only [senderMove] at h
  split at h
  · split at h
    · split at h
      · exact .of_only h (.stay htask trivial trivial (by simp) sane_nil)
      · rename_i hretry
        exact .of_only h (.stay htask (fun n hn => absurd (htask n hn).1 hretry) trivial (by simp) sane_nil)
    · cases h
  · rename_i nonce result
    obtain rfl := Option.some.inj h
    constructor
    · intro m' hm'
      obtain rfl := List.mem_singleton.mp hm'
      exact ⟨htask, trivial⟩
    · rintro n ⟨hn, hkeeps⟩ _
      exact ⟨_, List.mem_singleton.mpr rfl, hn, hkeeps⟩
    · intro n m' hm' hr
      obtain rfl := List.mem_singleton.mp hm'
      exact absurd hr id
    · intro cached hcached
      exact ⟨task, nonce, result, rfl, (Option.some.inj hcached).symm⟩
  · rename_i result
    exact .of_only h (.sender htask (finish_sane htask result) (fun _ _ _ hkeeps => finish_keeps hkeeps)
      (by simp) sane_nil)
  · exact .of_only h (.throw htask sane_nil)
  · cases h

theorem senderMove_sound_carriedOut (hsane : Sane p.chainNonce p.bound (.sender task await))
    (h : senderMove p free task await .carriedOut = some v) : Sound p (.sender task await) v := by
  obtain ⟨htask, hawait⟩ := hsane
  simp only [senderMove] at h
  split at h
  · rename_i task' ops
    have htask' : SaneTask p.bound task' := hawait task' List.mem_cons_self
    refine .of_only h (.pair ⟨htask, fun task'' ht => hawait task'' (List.mem_cons_of_mem _ ht)⟩
      ⟨htask', trivial⟩ ?_ ?_ (fun _ hr => hr))
    · rintro n ⟨hn, rest, heq⟩ _
      obtain ⟨hop, _⟩ := List.cons.inj heq
      obtain rfl := SenderOp.publish.inj hop
      exact ⟨hn, trivial⟩
    · intro n hr
      exact absurd (raises_iff.mp hr) (by simp)
  -- the message is acknowledged, and a task with a nonce was published before
  · refine .of_only h (.gone ?_)
    rintro n ⟨_, _, heq⟩
    cases heq
  · refine .of_only h (.gone ?_)
    rintro n ⟨_, _, heq⟩
    cases heq
  · cases h

end SenderMove

/-- **One step of the sender**, unless it lets go of a live nonce. -/
theorem senderMove_sound {free : Bool} {task : EventTask D} {await : SenderAwait D} {answer : Answer}
    {v : Move D} (hsane : Sane p.chainNonce p.bound (.sender task await))
    (hlive : ¬ LiveRefusal p (.sender task await) answer)
    (h : senderMove p free task await answer = some v) : Sound p (.sender task await) v := by
  cases answer with
  | expire | deliver | crash =>
      rcases senderMove_broker (by simp) h with rfl | rfl
      · exact .stay hsane.1 trivial trivial (by simp) sane_nil
      · exact .stay hsane.1 trivial trivial (by simp) sane_nil
  | fails _ => exact senderMove_sound_fails hsane hlive h
  | txInfos _ => exact senderMove_sound_txInfos hsane h
  | nonce _ => exact senderMove_sound_nonce hsane h
  | cache _ => exact senderMove_sound_cache hsane h
  | sent _ => exact senderMove_sound_sent hsane h
  | refused _ _ _ => exact senderMove_sound_refused hsane hlive h
  | lost _ => exact senderMove_sound_lost hsane hlive h
  | block _ _ => exact senderMove_sound_block hsane h
  | published => exact senderMove_sound_published hsane h
  | unconfirmed _ _ => exact senderMove_sound_unconfirmed hsane hlive h
  | done => exact senderMove_sound_done hsane h
  | receipt _ => cases h
  | carriedOut => exact senderMove_sound_carriedOut hsane h

theorem move_sound {m : QueueMessage D} {answer : Answer} {v : Move D}
    (hmined : ∀ tx ∈ p.mined, tx.nonce < p.chainNonce) (hsane : Sane p.chainNonce p.bound m)
    (hlive : ¬ LiveRefusal p m answer) (h : move c p m answer = some v) : Sound p m v := by
  cases m with
  | sender task await => exact senderMove_sound hsane hlive h
  | receiptor task await => exact receiptMove_sound hmined hsane h

/-! ## Runs -/

/-- **The invariant.** Each nonce from the chain nonce up to the cached one is carried by a message, and so is
    each nonce above which the cached one is about to be raised. -/
structure Gapless (p : Pipeline D) : Prop where
  sane : ∀ m ∈ p.messages, Sane p.chainNonce p.bound m
  mined : ∀ tx ∈ p.mined, tx.nonce < p.chainNonce
  carried : ∀ cached, p.cachedNonce = some cached → ∀ n, p.chainNonce ≤ n → n < cached →
    ∃ m ∈ p.messages, Carries n m
  raising : ∀ n, p.chainNonce ≤ n → (∃ m ∈ p.messages, Raises n m) → ∃ m ∈ p.messages, Carries n m

theorem gapless_initial (chainNonce : Nat) : Gapless (initial chainNonce : Pipeline D) where
  sane := by
    intro m hm
    cases hm
  mined := by
    intro tx htx
    cases htx
  carried := by
    intro cached h
    cases h
  raising := by
    rintro n _ ⟨m, hm, _⟩
    cases hm

/-- A new task changes nothing, as it has no nonce. -/
theorem Gapless.accept (hp : Gapless p) (eventType : String) (event : EventData D) :
    Gapless { p with
      messages := p.messages ++ [.sender ⟨eventType, event, none, none, none⟩ .ready]
      accepted := (eventType, event) :: p.accepted } where
  sane := by
    intro m hm
    rcases List.mem_append.mp hm with hm | hm
    · exact hp.sane m hm
    · obtain rfl := List.mem_singleton.mp hm
      refine ⟨?_, trivial⟩
      intro n hn
      cases hn
  mined := hp.mined
  carried := by
    intro cached hcached n hchain hlt
    obtain ⟨m, hm, hc⟩ := hp.carried cached hcached n hchain hlt
    exact ⟨m, List.mem_append_left _ hm, hc⟩
  raising := by
    rintro n hchain ⟨m, hm, hr⟩
    rcases List.mem_append.mp hm with hm | hm
    · obtain ⟨m', hm', hc⟩ := hp.raising n hchain ⟨m, hm, hr⟩
      exact ⟨m', List.mem_append_left _ hm', hc⟩
    · obtain rfl := List.mem_singleton.mp hm
      exact absurd hr id

/-- The chain nonce grows by one, and the nonce of the mined transaction is passed. -/
theorem Gapless.mine (hp : Gapless p) {tx : Tx} (htx : tx.nonce = p.chainNonce) (pool : List Tx) :
    Gapless { p with chainNonce := p.chainNonce + 1, mined := tx :: p.mined, pool := pool } where
  sane := by
    intro m hm
    refine (hp.sane m hm).mono (Nat.le_succ _) ?_
    exact max_le_max (Nat.le_succ _) (Nat.le_refl _)
  mined := by
    intro tx' htx'
    rcases List.mem_cons.mp htx' with rfl | hold
    · exact htx ▸ Nat.lt_succ_self _
    · exact Nat.lt_succ_of_lt (hp.mined tx' hold)
  carried := fun cached hcached n hchain => hp.carried cached hcached n (Nat.le_of_succ_le hchain)
  raising := fun n hchain => hp.raising n (Nat.le_of_succ_le hchain)

theorem le_updatedNonce (cached : Option Nat) (nonce : Nat) : cached.getD 0 ≤ updatedNonce cached nonce := by
  cases cached with
  | none => exact Nat.zero_le _
  | some old =>
      simp only [updatedNonce, Option.getD_some]
      split
      · rename_i hlt
        exact Nat.le_of_lt hlt
      · exact Nat.le_refl _

/-- The update gives the old nonce or the new one. -/
theorem lt_updatedNonce {cached : Option Nat} {nonce n : Nat} (h : n < updatedNonce cached nonce) :
    n < cached.getD 0 ∨ n < nonce := by
  cases cached with
  | none => exact .inr h
  | some old =>
      simp only [updatedNonce] at h
      split at h
      · exact .inr h
      · exact .inl h

theorem bound_le_apply {m : QueueMessage D} {k : Nat} {v : Move D} (hv : Sound p m v) :
    p.bound ≤ (p.apply k m v).bound := by
  apply max_le_max (Nat.le_refl _)
  show p.cachedNonce.getD 0 ≤ (v.cached.or p.cachedNonce).getD 0
  cases hcached : v.cached with
  | none => exact Nat.le_refl _
  | some cached =>
      obtain ⟨_, nonce, _, _, rfl⟩ := hv.cached cached hcached
      exact le_updatedNonce _ _

/-- A nonce that an update takes below the cached one is carried: it was below before, or the update is the one
    that its transaction announced. -/
theorem Gapless.carried_of_update (hp : Gapless p) {task : EventTask D} {nonce n : Nat} {result : SendResult}
    (hm : .sender task (.updateNonce nonce result) ∈ p.messages) (hchain : p.chainNonce ≤ n)
    (hlt : n < updatedNonce p.cachedNonce nonce) : ∃ m ∈ p.messages, Carries n m := by
  by_cases hold : n < p.cachedNonce.getD 0
  · cases hcached : p.cachedNonce with
    | none =>
        rw [hcached] at hold
        exact absurd hold (Nat.not_lt_zero n)
    | some cached =>
        rw [hcached] at hold
        exact hp.carried cached hcached n hchain hold
  · have hbound : p.bound ≤ n := Nat.max_le.mpr ⟨hchain, Nat.not_lt.mp hold⟩
    have hnew : n < nonce := (lt_updatedNonce hlt).resolve_left hold
    rcases (hp.sane _ hm).2 with hle | ⟨rfl, j, rfl, hle⟩
    · exact absurd (Nat.le_trans hle hbound) (Nat.not_le.mpr hnew)
    · have hj : j = n := Nat.le_antisymm (Nat.le_trans hle hbound) (Nat.lt_succ_iff.mp hnew)
      exact hp.raising n hchain ⟨_, hm, congrArg (· + 1) hj⟩

theorem Gapless.apply (hp : Gapless p) {m : QueueMessage D} {k : Nat} {v : Move D}
    (hk : p.messages[k]? = some m) (hv : Sound p m v) : Gapless (p.apply k m v) := by
  have hand {n : Nat} (hchain : p.chainNonce ≤ n) (h : ∃ m' ∈ p.messages, Carries n m') :
      ∃ m' ∈ Messages.replaceAt p.messages k v.successors, Carries n m' :=
    (Messages.exists_replaceAt (R := False) hk (fun hc => .inl (hv.hands n hc hchain)) h).resolve_right id
  constructor
  · intro m' hm'
    exact Messages.forall_replaceAt
      (fun m _ hs => Sane.mono (m := m) hs (Nat.le_refl _) (bound_le_apply hv))
      hp.sane (fun m hm => (hv.sane m hm).mono (Nat.le_refl _) (bound_le_apply hv)) m' hm'
  · exact hp.mined
  · intro cached hcached n hchain hlt
    refine hand hchain ?_
    cases hnew : v.cached with
    | none =>
        have hsame : p.cachedNonce = some cached := by
          rw [← hcached]
          show _ = v.cached.or p.cachedNonce
          rw [hnew, Option.none_or]
        exact hp.carried cached hsame n hchain hlt
    | some new =>
        have hset : new = cached := by
          apply Option.some.inj
          rw [← hcached]
          show _ = v.cached.or p.cachedNonce
          rw [hnew, Option.some_or]
        obtain ⟨task, nonce, result, rfl, hupdate⟩ := hv.cached new hnew
        exact hp.carried_of_update (List.mem_of_getElem? hk) hchain (hupdate ▸ hset ▸ hlt)
  · rintro n hchain ⟨m', hm', hr⟩
    rcases Messages.mem_replaceAt.mp hm' with hmem | hmem | hmem
    · exact hand hchain (hp.raising n hchain ⟨m', List.mem_of_mem_take hmem, hr⟩)
    · obtain ⟨m'', hm'', hc⟩ := hv.raises n m' hmem hr
      exact ⟨m'', Messages.mem_replaceAt.mpr (.inr (.inl hm'')), hc⟩
    · exact hand hchain (hp.raising n hchain ⟨m', List.mem_of_mem_drop hmem, hr⟩)

/-- **One step** whose submissions are not refused under a live nonce. -/
theorem step_gapless {p' : Pipeline D} (hp : Gapless p) (h : StepWhen c Spares p p') : Gapless p' := by
  obtain ⟨input, hspares, h⟩ := h
  rcases step_cases h with ⟨eventType, event, rfl⟩ | ⟨k, m, answer, v, rfl, hk, hv, rfl⟩ | ⟨tx, htx, rfl⟩ |
    ⟨tx, rfl⟩
  · exact hp.accept eventType event
  · exact hp.apply hk
      (move_sound hp.mined (hp.sane m (List.mem_of_getElem? hk)) (hspares k answer m rfl hk) hv)
  · exact hp.mine htx _
  · exact ⟨hp.sane, hp.mined, hp.carried, hp.raising⟩

/-- A carried nonce is covered. -/
theorem Gapless.noGap (hp : Gapless p) : NoGap p := by
  intro cached hcached n hchain hlt
  obtain ⟨m, hm, hc⟩ := hp.carried cached hcached n hchain hlt
  cases m with
  | sender task await => exact .inr (.inr ⟨task, await, hm, ((hp.sane _ hm).1 n hc.1).1, hc.1⟩)
  | receiptor task await => exact .inr (.inl ⟨task, await, hm, hc.1⟩)

/-- **Nonce-gap freedom.** In every run in which no submission of a retry task under its own live nonce is refused
    for the block gas limit or as "nonce too low", no nonce below the cached one is ever abandoned. -/
theorem nonce_gap_freedom {chainNonce : Nat} {p : Pipeline D}
    (hrun : Relation.ReflTransGen (StepWhen c Spares) (initial chainNonce) p) : NoGap p :=
  have hinv : Gapless p :=
    Calls.steps_invariant (P := Gapless) (fun _ _ hp hstep => step_gapless hp hstep) hrun
      (gapless_initial chainNonce)
  hinv.noGap

def Input.error : Input D → Option String
  | .answer _ a => a.error
  | _ => none

theorem spares_of_no_error {input : Input D} (h : input.error = none) : Spares p input := by
  rintro k answer m rfl _ hlive
  cases m with
  | sender task await =>
      obtain ⟨nonce, message, _, _, herror, _⟩ := hlive
      cases h.symm.trans herror
  | receiptor task await => exact hlive

theorem nonce_gap_freedom_after_submission :
    ∃ p : Pipeline Nat, play ⟨12, 6⟩ (initial 0) submission = some p ∧ p.cachedNonce = some 1 ∧ NoGap p := by
  have heval : (do
      let p ← play ⟨12, 6⟩ (initial 0) submission
      pure p.cachedNonce) = some (some 1) := by
    decide +kernel
  simp only [Option.bind_eq_bind, Option.bind_eq_some_iff, Option.pure_def, Option.some.injEq] at heval
  obtain ⟨p, hp, hcached⟩ := heval
  refine ⟨p, hp, hcached, nonce_gap_freedom (runWhen_of_play ?_ hp)⟩
  intro input hinput q
  have hquiet : ∀ input ∈ submission, input.error = none := by decide
  exact spares_of_no_error (hquiet input hinput)

/-- **A nonce is abandoned.** The node drops the submitted transaction; its receipt task is replaced by a retry task
    with the same nonce, whose submission is refused for the block gas limit. The task is dropped, and nothing is
    left that would fill the nonce. -/
theorem nonce_abandoned :
    ∃ p : Pipeline Nat, play ⟨12, 6⟩ (initial 0) (submission ++
        [.drop ⟨0, 1⟩, .answer 0 .deliver, .answer 0 (.receipt none), .answer 0 (.block 21 200),
          .answer 0 .published, .answer 0 .carriedOut, .answer 0 .deliver, .answer 0 (.txInfos true),
          .answer 0 .done, .answer 0 (.nonce 0), .answer 0 (.refused 2 false "exceeds block gas limit"),
          .answer 0 .done, .answer 0 .done, .answer 0 .carriedOut]) = some p ∧ ¬ NoGap p := by
  have heval : (do
      let p ← play ⟨12, 6⟩ (initial 0) (submission ++
        [.drop ⟨0, 1⟩, .answer 0 .deliver, .answer 0 (.receipt none), .answer 0 (.block 21 200),
          .answer 0 .published, .answer 0 .carriedOut, .answer 0 .deliver, .answer 0 (.txInfos true),
          .answer 0 .done, .answer 0 (.nonce 0), .answer 0 (.refused 2 false "exceeds block gas limit"),
          .answer 0 .done, .answer 0 .done, .answer 0 .carriedOut])
      pure (p.messages, p.pool, p.chainNonce, p.cachedNonce)) = some ([], [], 0, some 1) := by
    decide +kernel
  simp only [Option.bind_eq_bind, Option.bind_eq_some_iff, Option.pure_def, Option.some.injEq,
    Prod.mk.injEq] at heval
  obtain ⟨p, hp, hmessages, hpool, hchain, hcached⟩ := heval
  refine ⟨p, hp, ?_⟩
  intro hgap
  rcases hgap 1 hcached 0 (Nat.le_of_eq hchain) Nat.one_pos with ⟨tx, htx, _⟩ | ⟨task, await, hm, _⟩ |
    ⟨task, await, hm, _⟩
  · rw [hpool] at htx
    cases htx
  · rw [hmessages] at hm
    cases hm
  · rw [hmessages] at hm
    cases hm

end Pipeline
end ThunderBridge
