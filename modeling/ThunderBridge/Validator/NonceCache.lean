import ThunderBridge.Lib.Traces
import ThunderBridge.Validator.Pipeline

/-!
# `Validator.NonceCache` — the nonces of `sendTx`

`sendTx` runs under a lock, so the cached nonce is the state of a machine whose inputs are the calls. A `Call` is a
task with the answers to whatever `sendTx` awaits, and `sendTx` says what it does with them: the nonce it submits with,
its result and the nonce in the cache afterwards.

`Discipline` is what the cache is for, call by call: it never falls, and it stays above the nonces that were used and
those the chain is known to be past. So fresh tasks get ever larger nonces (`freshNonces_pairwise`). One part can fail:
a retry task that is behind the chain is to be sent with another nonce, but the cache may hold the very same one
(`nonce_discipline_iff`).
-/

namespace ThunderBridge
namespace NonceCache

open Traces Pipeline

variable {D : Type}

/-! ## The source -/

/-- An error caught by `sendTx`; a `SubmitTxError` has the hash of the transaction. -/
structure SubmitError where
  message : String
  txHash : Option Tx
deriving DecidableEq, Repr

/-- A call of `sendTx`: the task, and what its calls are answered, or what they throw. -/
structure Call (D : Type) where
  task : EventTask D
  /-- `getNonce` for a retry task. -/
  currNonce : Except String Nat
  /-- `getNonce` when nothing is cached. -/
  freshNonce : Except String Nat
  sendTransaction : Except SubmitError Tx
  getCurrentBlock : Except String Nat
  enqueueReceiptor : Except String Unit
  /-- `getNonce` after the nonce was too low. -/
  forceNonce : Except String Nat
  now : Nat

/-- `readNonce`, where `getNonce` is the answer of the node. -/
def readNonce (cached : Option Nat) (getNonce : Except String Nat) (forceUpdate : Bool) : Except String Nat :=
  if forceUpdate then getNonce
  else
    match cached with
    | some nonce => .ok nonce
    | none => getNonce

/-- The nonce that `sendTx` begins with. -/
def chooseNonce (cached : Option Nat) (call : Call D) : Except String Nat :=
  if isRetryTask call.task then do
    let currNonce ← readNonce cached call.currNonce true
    match call.task.nonce with
    | some nonce => if currNonce ≤ nonce then pure nonce else readNonce cached call.freshNonce false
    | none => readNonce cached call.freshNonce false
  else readNonce cached call.freshNonce false

def enqueueReceiptTask (call : Call D) (txHash : Tx) (nonce : Nat) : Except String (ReceiptTask D) := do
  let currentBlock ← call.getCurrentBlock
  call.enqueueReceiptor
  pure (newReceiptTask call.task txHash nonce currentBlock call.now)

/-- What the `try` of `sendTx` leaves: the receipt task, the nonce for `updateNonce` and the result. -/
structure Tried (D : Type) where
  receipt : Option (ReceiptTask D)
  nonce : Nat
  result : SendResult
deriving DecidableEq, Repr

/-- The `catch` of `sendTx`. -/
def catchError (cached : Option Nat) (call : Call D) (nonce : Nat) (e : SubmitError) : Except String (Tried D) :=
  if SendTxError.isTxWasImportedError e.message then
    match e.txHash with
    | some txHash => do
        let receipt ← enqueueReceiptTask call txHash nonce
        pure ⟨some receipt, nonce, .txImported⟩
    | none => pure ⟨none, nonce, .txImported⟩
  else if SendTxError.isBlockGasLimitExceededError e.message then pure ⟨none, nonce, .blockGasLimitExceeded⟩
  else if SendTxError.isInsufficientFundError e.message then pure ⟨none, nonce, .insufficientFunds⟩
  else if SendTxError.isNonceTooLowError e.message then do
    let nonce ← readNonce cached call.forceNonce true
    pure ⟨none, nonce, .nonceTooLow⟩
  else if SendTxError.isTimeoutError e.message then pure ⟨none, nonce, .timeout⟩
  else pure ⟨none, nonce, .failed⟩

/-- The `try` of `sendTx`. -/
def trySend (cached : Option Nat) (call : Call D) (nonce : Nat) : Except String (Tried D) :=
  match call.sendTransaction with
  | .error e => catchError cached call nonce e
  | .ok txHash =>
      match enqueueReceiptTask call txHash nonce with
      | .error message => catchError cached call nonce ⟨message, none⟩
      | .ok receipt => pure ⟨some receipt, nonce + 1, .success⟩

/-- What a call of `sendTx` does. -/
structure Sent (D : Type) where
  /-- The nonce that `sendTransaction` is called with, if it is. -/
  nonce : Option Nat
  receipt : Option (ReceiptTask D)
  /-- None if `sendTx` throws. -/
  result : Option SendResult
  cached : Option Nat
deriving DecidableEq, Repr

def sendTx (cached : Option Nat) (call : Call D) : Sent D :=
  match chooseNonce cached call with
  | .error _ => ⟨none, none, none, cached⟩
  | .ok nonce =>
      match trySend cached call nonce with
      | .error _ => ⟨some nonce, none, none, cached⟩
      | .ok tried => ⟨some nonce, tried.receipt, some tried.result, some (updatedNonce cached tried.nonce)⟩

/-! ## Runs -/

/-- The machine of the cached nonce. -/
def sendStep (cached : Option Nat) (call : Call D) : Option Nat := (sendTx cached call).cached

/-- The call takes its nonce from a retry task. -/
def reusesNonce (call : Call D) : Bool :=
  isRetryTask call.task &&
    match call.task.nonce, call.currNonce with
    | some nonce, .ok currNonce => decide (currNonce ≤ nonce)
    | _, _ => false

/-- The nonces of the successful calls that did not take theirs from a retry task, in order. -/
def freshNonces : Option Nat → List (Call D) → List Nat
  | _, [] => []
  | cached, call :: calls =>
      (if (sendTx cached call).result = some .success ∧ reusesNonce call = false then
          (sendTx cached call).nonce.toList
        else []) ++ freshNonces (sendStep cached call) calls

/-- **The discipline of the cached nonce**, for one call. -/
structure Discipline (cached : Option Nat) (call : Call D) : Prop where
  never_decreases : ∀ old, cached = some old → ∃ new, (sendTx cached call).cached = some new ∧ old ≤ new
  after_success : ∀ n, (sendTx cached call).nonce = some n → (sendTx cached call).result = some .success →
    ∃ new, (sendTx cached call).cached = some new ∧ n + 1 ≤ new
  after_nonceTooLow : (sendTx cached call).result = some .nonceTooLow →
    ∃ chainNonce new, call.forceNonce = .ok chainNonce ∧ (sendTx cached call).cached = some new ∧ chainNonce ≤ new
  retry_iff : ∀ nonce currNonce, isRetryTask call.task = true → call.task.nonce = some nonce →
    call.currNonce = .ok currNonce → ((sendTx cached call).nonce = some nonce ↔ currNonce ≤ nonce)

/-- A retry task behind the chain is not given its own nonce again by `readNonce(false)`. -/
def Outdated (cached : Option Nat) (call : Call D) : Prop :=
  ∀ nonce currNonce, isRetryTask call.task = true → call.task.nonce = some nonce → call.currNonce = .ok currNonce →
    nonce < currNonce → readNonce cached call.freshNonce false ≠ .ok nonce

/-! ## One call -/

section OneCall

variable {cached : Option Nat} {call : Call D}

@[simp] theorem readNonce_force (cached : Option Nat) (getNonce : Except String Nat) :
    readNonce cached getNonce true = getNonce := rfl

@[simp] theorem readNonce_some (nonce : Nat) (getNonce : Except String Nat) :
    readNonce (some nonce) getNonce false = .ok nonce := rfl

theorem le_updatedNonce (cached : Option Nat) (nonce : Nat) : nonce ≤ updatedNonce cached nonce := by
  unfold updatedNonce
  cases cached with
  | none => exact Nat.le_refl nonce
  | some old =>
      dsimp only
      split <;> omega

theorem old_le_updatedNonce (old nonce : Nat) : old ≤ updatedNonce (some old) nonce := by
  unfold updatedNonce
  dsimp only
  split <;> omega

/-- **What a call can do**: it throws and leaves the cache, or it returns and updates it. -/
theorem sendTx_cases (cached : Option Nat) (call : Call D) :
    (∃ e, chooseNonce cached call = .error e ∧ sendTx cached call = ⟨none, none, none, cached⟩) ∨
    (∃ nonce e, chooseNonce cached call = .ok nonce ∧ trySend cached call nonce = .error e ∧
      sendTx cached call = ⟨some nonce, none, none, cached⟩) ∨
    (∃ nonce tried, chooseNonce cached call = .ok nonce ∧ trySend cached call nonce = .ok tried ∧
      sendTx cached call =
        ⟨some nonce, tried.receipt, some tried.result, some (updatedNonce cached tried.nonce)⟩) := by
  unfold sendTx
  cases hchoose : chooseNonce cached call with
  | error e => exact .inl ⟨e, rfl, rfl⟩
  | ok nonce =>
      dsimp only
      cases htry : trySend cached call nonce with
      | error e => exact .inr (.inl ⟨nonce, e, rfl, htry, rfl⟩)
      | ok tried => exact .inr (.inr ⟨nonce, tried, rfl, htry, rfl⟩)

theorem tried_result {receipt : Option (ReceiptTask D)} {nonce : Nat} {result : SendResult} {tried : Tried D}
    (h : (pure ⟨receipt, nonce, result⟩ : Except String (Tried D)) = .ok tried) (hfail : result ≠ .success)
    (hlow : result ≠ .nonceTooLow) :
    tried.result ≠ .success ∧ (tried.result = .nonceTooLow → call.forceNonce = .ok tried.nonce) := by
  obtain rfl := Except.ok.inj h
  exact ⟨hfail, fun he => absurd he hlow⟩

/-- The `catch` never answers that it was a success, and after "nonce too low" it has the nonce of the node. -/
theorem catchError_result {nonce : Nat} {e : SubmitError} {tried : Tried D}
    (h : catchError cached call nonce e = .ok tried) : tried.result ≠ .success ∧
      (tried.result = .nonceTooLow → call.forceNonce = .ok tried.nonce) := by
  unfold catchError at h
  split at h
  · -- imported already
    cases hhash : e.txHash with
    | none =>
        rw [hhash] at h
        exact tried_result h (by decide) (by decide)
    | some txHash =>
        rw [hhash] at h
        cases hreceipt : enqueueReceiptTask call txHash nonce with
        | error e =>
            simp only [hreceipt] at h
            cases h
        | ok receipt =>
            simp only [hreceipt] at h
            exact tried_result h (by decide) (by decide)
  · split at h
    · exact tried_result h (by decide) (by decide)
    · split at h
      · exact tried_result h (by decide) (by decide)
      · split at h
        · -- the nonce is too low
          rw [readNonce_force] at h
          cases hforce : call.forceNonce with
          | error e =>
              rw [hforce] at h
              cases h
          | ok chainNonce =>
              rw [hforce] at h
              obtain rfl := Except.ok.inj h
              refine ⟨?_, fun _ => rfl⟩
              intro hsuccess
              cases hsuccess
        · split at h
          · exact tried_result h (by decide) (by decide)
          · exact tried_result h (by decide) (by decide)

theorem trySend_result {nonce : Nat} {tried : Tried D} (h : trySend cached call nonce = .ok tried) :
    (tried.result = .success → tried.nonce = nonce + 1) ∧
      (tried.result = .nonceTooLow → call.forceNonce = .ok tried.nonce) := by
  unfold trySend at h
  cases hsend : call.sendTransaction with
  | error e =>
      rw [hsend] at h
      obtain ⟨hfail, hlow⟩ := catchError_result h
      exact ⟨fun hs => absurd hs hfail, hlow⟩
  | ok txHash =>
      simp only [hsend] at h
      cases hreceipt : enqueueReceiptTask call txHash nonce with
      | error message =>
          rw [hreceipt] at h
          obtain ⟨hfail, hlow⟩ := catchError_result h
          exact ⟨fun hs => absurd hs hfail, hlow⟩
      | ok receipt =>
          rw [hreceipt] at h
          obtain rfl := Except.ok.inj h
          exact ⟨fun _ => rfl, fun hlow => by cases hlow⟩

/-- A transaction that the node accepts is a success if its receipt task is queued, and only then is its nonce
    counted. -/
theorem accepted_success_iff {nonce : Nat} {txHash : Tx} (hnonce : chooseNonce cached call = .ok nonce)
    (haccepted : call.sendTransaction = .ok txHash) :
    (sendTx cached call).result = some .success ↔ ∃ receipt, enqueueReceiptTask call txHash nonce = .ok receipt := by
  rcases sendTx_cases cached call with ⟨e, hchoose, _⟩ | ⟨m, e, hchoose, htry, hsent⟩ |
    ⟨m, tried, hchoose, htry, hsent⟩
  · rw [hnonce] at hchoose
    cases hchoose
  · obtain rfl : nonce = m := Except.ok.inj (hnonce.symm.trans hchoose)
    rw [hsent]
    refine iff_of_false (Option.some_ne_none _).symm ?_
    rintro ⟨receipt, hreceipt⟩
    rw [trySend, haccepted] at htry
    simp only [hreceipt] at htry
    cases htry
  · obtain rfl : nonce = m := Except.ok.inj (hnonce.symm.trans hchoose)
    rw [hsent, Option.some.injEq]
    rw [trySend, haccepted] at htry
    cases hreceipt : enqueueReceiptTask call txHash nonce with
    | error message =>
        simp only [hreceipt] at htry
        exact iff_of_false (catchError_result htry).1 (by rintro ⟨_, h⟩; cases h)
    | ok receipt =>
        simp only [hreceipt] at htry
        obtain rfl := Except.ok.inj htry
        exact iff_of_true rfl ⟨receipt, rfl⟩

/-! ## Which nonce -/

theorem reusesNonce_iff {nonce currNonce : Nat} (hretry : isRetryTask call.task = true)
    (hnonce : call.task.nonce = some nonce) (hcurr : call.currNonce = .ok currNonce) :
    reusesNonce call = true ↔ currNonce ≤ nonce := by
  simp [reusesNonce, hretry, hnonce, hcurr]

theorem chooseNonce_of_reuses {nonce currNonce : Nat} (hretry : isRetryTask call.task = true)
    (hnonce : call.task.nonce = some nonce) (hcurr : call.currNonce = .ok currNonce) (hle : currNonce ≤ nonce) :
    chooseNonce cached call = .ok nonce := by
  rw [chooseNonce, if_pos hretry, readNonce_force, hcurr, hnonce]
  exact if_pos hle

/-- Otherwise the cache is read. -/
theorem chooseNonce_of_not_reuses {nonce : Nat} (hnot : reusesNonce call = false)
    (h : chooseNonce cached call = .ok nonce) : readNonce cached call.freshNonce false = .ok nonce := by
  unfold chooseNonce at h
  by_cases hretry : isRetryTask call.task = true
  · rw [if_pos hretry, readNonce_force] at h
    cases hcurr : call.currNonce with
    | error e =>
        rw [hcurr] at h
        cases h
    | ok currNonce =>
        cases hnonce : call.task.nonce with
        | none =>
            rw [hcurr, hnonce] at h
            exact h
        | some own =>
            have hgt : ¬ currNonce ≤ own := by
              intro hle
              rw [(reusesNonce_iff hretry hnonce hcurr).mpr hle] at hnot
              exact absurd hnot (by decide)
            rw [hcurr, hnonce] at h
            have hread : (if currNonce ≤ own then pure own else readNonce cached call.freshNonce false) =
                Except.ok nonce := h
            rwa [if_neg hgt] at hread
  · rwa [if_neg hretry] at h

/-- A retry task behind the chain is given what `readNonce(false)` reads. -/
theorem chooseNonce_of_outdated {nonce currNonce : Nat} (hretry : isRetryTask call.task = true)
    (hnonce : call.task.nonce = some nonce) (hcurr : call.currNonce = .ok currNonce) (hlt : nonce < currNonce) :
    chooseNonce cached call = readNonce cached call.freshNonce false := by
  rw [chooseNonce, if_pos hretry, readNonce_force, hcurr, hnonce]
  exact if_neg (Nat.not_le.mpr hlt)

/-- Whatever comes of it, the chosen nonce is the one submitted. -/
theorem sendTx_nonce_iff {nonce : Nat} :
    (sendTx cached call).nonce = some nonce ↔ chooseNonce cached call = .ok nonce := by
  rcases sendTx_cases cached call with ⟨e, hchoose, hsent⟩ | ⟨n, e, hchoose, _, hsent⟩ | ⟨n, tried, hchoose, _, hsent⟩
  · rw [hsent, hchoose]
    exact iff_of_false (Option.some_ne_none _).symm (by intro h; cases h)
  · rw [hsent, hchoose, Option.some.injEq, Except.ok.injEq]
  · rw [hsent, hchoose, Option.some.injEq, Except.ok.injEq]

/-! ## The discipline of one call -/

theorem never_decreases {old : Nat} (hold : cached = some old) :
    ∃ new, (sendTx cached call).cached = some new ∧ old ≤ new := by
  rcases sendTx_cases cached call with ⟨e, _, hsent⟩ | ⟨n, e, _, _, hsent⟩ | ⟨n, tried, _, _, hsent⟩
  · exact ⟨old, by rw [hsent, hold], Nat.le_refl old⟩
  · exact ⟨old, by rw [hsent, hold], Nat.le_refl old⟩
  · exact ⟨_, by rw [hsent, hold], old_le_updatedNonce old tried.nonce⟩

/-- A call with a result got through the `try`. -/
theorem sendTx_of_result {result : SendResult} (h : (sendTx cached call).result = some result) :
    ∃ n tried, trySend cached call n = .ok tried ∧ tried.result = result ∧ (sendTx cached call).nonce = some n ∧
      (sendTx cached call).cached = some (updatedNonce cached tried.nonce) := by
  rcases sendTx_cases cached call with ⟨e, _, hsent⟩ | ⟨n, e, _, _, hsent⟩ | ⟨n, tried, _, htry, hsent⟩
  · rw [hsent] at h
    cases h
  · rw [hsent] at h
    cases h
  · rw [hsent] at h ⊢
    exact ⟨n, tried, htry, Option.some.inj h, rfl, rfl⟩

theorem after_success {n : Nat} (hn : (sendTx cached call).nonce = some n)
    (hresult : (sendTx cached call).result = some .success) :
    ∃ new, (sendTx cached call).cached = some new ∧ n + 1 ≤ new := by
  obtain ⟨m, tried, htry, hsuccess, hm, hcached⟩ := sendTx_of_result hresult
  obtain rfl : m = n := Option.some.inj (hm.symm.trans hn)
  have hnext := (trySend_result htry).1 hsuccess
  refine ⟨_, hcached, ?_⟩
  rw [← hnext]
  exact le_updatedNonce cached tried.nonce

theorem after_nonceTooLow (hresult : (sendTx cached call).result = some .nonceTooLow) :
    ∃ chainNonce new, call.forceNonce = .ok chainNonce ∧ (sendTx cached call).cached = some new ∧
      chainNonce ≤ new := by
  obtain ⟨m, tried, htry, hlow, _, hcached⟩ := sendTx_of_result hresult
  have hforce := (trySend_result htry).2 hlow
  exact ⟨tried.nonce, _, hforce, hcached, le_updatedNonce cached tried.nonce⟩

/-- **One call** is disciplined exactly when it is not given an outdated nonce again. -/
theorem discipline_iff : Discipline cached call ↔ Outdated cached call := by
  constructor
  · intro h nonce currNonce hretry hnonce hcurr hlt hread
    have hsent : (sendTx cached call).nonce = some nonce := by
      rw [sendTx_nonce_iff, chooseNonce_of_outdated hretry hnonce hcurr hlt]
      exact hread
    exact absurd ((h.retry_iff nonce currNonce hretry hnonce hcurr).mp hsent) (Nat.not_le.mpr hlt)
  · intro h
    refine ⟨fun _ => never_decreases, fun _ => after_success, after_nonceTooLow, ?_⟩
    intro nonce currNonce hretry hnonce hcurr
    rw [sendTx_nonce_iff]
    constructor
    · intro hchoose
      by_contra hgt
      have hlt := Nat.lt_of_not_le hgt
      rw [chooseNonce_of_outdated hretry hnonce hcurr hlt] at hchoose
      exact h nonce currNonce hretry hnonce hcurr hlt hchoose
    · exact chooseNonce_of_reuses hretry hnonce hcurr

end OneCall

/-! ## Runs -/

section Runs

variable {cached : Option Nat} {call : Call D} {calls : List (Call D)}

/-- Every fresh nonce is at least the cached one. -/
theorem le_freshNonces : ∀ {calls : List (Call D)} {cached : Option Nat} {old : Nat}, cached = some old →
    ∀ n ∈ freshNonces cached calls, old ≤ n := by
  intro calls
  induction calls with
  | nil =>
      intro cached old _ n hn
      exact absurd hn List.not_mem_nil
  | cons call calls ih =>
      intro cached old hold n hn
      obtain ⟨new, hnew, hle⟩ : ∃ new, (sendTx cached call).cached = some new ∧ old ≤ new := never_decreases hold
      rcases List.mem_append.mp hn with hn | hn
      · split at hn
        · rename_i hfresh
          have hread := chooseNonce_of_not_reuses hfresh.2
            (sendTx_nonce_iff.mp (Option.mem_toList.mp hn))
          rw [hold, readNonce_some] at hread
          exact (Except.ok.inj hread).le
        · exact absurd hn List.not_mem_nil
      · exact hle.trans (ih hnew n hn)

/-- **Fresh nonces strictly increase**, so no fresh transaction replaces another one. -/
theorem freshNonces_pairwise : ∀ (calls : List (Call D)) (cached : Option Nat),
    (freshNonces cached calls).Pairwise (· < ·) := by
  intro calls
  induction calls with
  | nil => intro cached; exact List.Pairwise.nil
  | cons call calls ih =>
      intro cached
      rw [freshNonces, List.pairwise_append]
      refine ⟨?_, ih _, ?_⟩
      · split
        · cases (sendTx cached call).nonce with
          | none => exact List.Pairwise.nil
          | some n => exact List.pairwise_singleton _ n
        · exact List.Pairwise.nil
      · intro m hm n hn
        split at hm
        · rename_i hfresh
          obtain ⟨new, hnew, hlt⟩ := after_success (Option.mem_toList.mp hm) hfresh.1
          exact Nat.lt_of_lt_of_le hlt (le_freshNonces hnew n hn)
        · exact absurd hm List.not_mem_nil

/-- **Nonce cache discipline, and when.** In every run of `sendTx` the fresh nonces strictly increase, and each call
    keeps the discipline exactly when no retry task behind the chain is given its own nonce again by the cache. -/
theorem nonce_discipline_iff (cached : Option Nat) (calls : List (Call D)) :
    (EachInput sendStep Discipline cached calls ∧ (freshNonces cached calls).Pairwise (· < ·)) ↔
      EachInput sendStep Outdated cached calls := by
  constructor
  · rintro ⟨h, _⟩ earlier call hprefix
    exact discipline_iff.mp (h earlier call hprefix)
  · intro h
    refine ⟨?_, freshNonces_pairwise calls cached⟩
    intro earlier call hearlier
    exact discipline_iff.mpr (h earlier call hearlier)

/-- A deposit is submitted with the nonce 5, and the node has the transaction already. It is mined late: when its
    retry task comes with the nonce 5, the chain is at 6, and the cache still at 5. -/
def overtaken : List (Call Nat) :=
  let task : EventTask Nat := ⟨"erc-erc-affirmation-request", ⟨8, 77⟩, none, none, none⟩
  [ { task := task
      currNonce := .ok 5
      freshNonce := .ok 5
      sendTransaction := .error ⟨"known transaction", some ⟨5, 77⟩⟩
      getCurrentBlock := .ok 9
      enqueueReceiptor := .ok ()
      forceNonce := .ok 5
      now := 100 },
    { task := { task with nonce := some 5, retries := some 1, timestamp := some 100 }
      currNonce := .ok 6
      freshNonce := .ok 6
      sendTransaction := .error ⟨"nonce too low", some ⟨5, 77⟩⟩
      getCurrentBlock := .ok 30
      enqueueReceiptor := .ok ()
      forceNonce := .ok 6
      now := 200 } ]

/-- The retry task is sent with its nonce 5 although the chain nonce read in the same call was 6. -/
theorem overtaken_resent : ¬ EachInput sendStep Discipline none overtaken ∧
    (overtaken.map fun call => call.currNonce) = [.ok 5, .ok 6] ∧
    (sendTx (after sendStep none (overtaken.take 1)) (overtaken.getLast (by decide))).nonce = some 5 := by
  have hsent : (sendTx (after sendStep none (overtaken.take 1)) (overtaken.getLast (by decide))).nonce = some 5 := by
    decide +kernel
  refine ⟨?_, rfl, hsent⟩
  intro h
  have hlast := h (overtaken.take 1) (overtaken.getLast (by decide)) ⟨[], rfl⟩
  have hle : 6 ≤ 5 := (hlast.retry_iff 5 6 rfl rfl rfl).mp hsent
  exact absurd hle (by decide)

end Runs

/-! ## The calls in the pipeline -/

section Pipeline

variable {p : Pipeline D} {task : EventTask D} {call : Call D}

/-- The sender takes its steps with a task under the lock, and nobody else does: where it gets, and the state. -/
def follow (task : EventTask D) : Pipeline D → SenderAwait D → List Answer → Option (Pipeline D × SenderAwait D)
  | p, await, [] => some (p, await)
  | p, await, answer :: answers =>
      match senderMove p false task await answer with
      | some v =>
          match v.successors with
          | .sender _ await' :: _ => follow task { p with cachedNonce := v.cached.or p.cachedNonce } await' answers
          | _ => none
      | none => none

theorem follow_append {p' : Pipeline D} {await await' : SenderAwait D} {answers : List Answer}
    (h : follow task p await answers = some (p', await')) (answers' : List Answer) :
    follow task p await (answers ++ answers') = follow task p' await' answers' := by
  induction answers generalizing p await with
  | nil =>
      obtain ⟨rfl, rfl⟩ := Prod.mk.inj (Option.some.inj h)
      rfl
  | cons answer answers ih =>
      rw [follow] at h
      rw [List.cons_append, follow]
      split at h
      · split at h
        · exact ih h
        · cases h
      · cases h

/-- The answers of a call are such as the pipeline allows. -/
structure Possible (p : Pipeline D) (call : Call D) : Prop where
  currNonce : ∀ n, call.currNonce = .ok n → n ≤ p.chainNonce
  freshNonce : ∀ n, call.freshNonce = .ok n → n ≤ p.chainNonce
  forceNonce : ∀ n, call.forceNonce = .ok n → n ≤ p.chainNonce
  sent : ∀ nonce tx, chooseNonce p.cachedNonce call = .ok nonce →
    call.sendTransaction = .ok tx ∨ (∃ message, call.sendTransaction = .error ⟨message, some tx⟩) → tx.nonce = nonce
  plain : ∀ message, call.sendTransaction = .error ⟨message, none⟩ ∨ call.getCurrentBlock = .error message ∨
    call.enqueueReceiptor = .error message → SendTxError.isTxWasImportedError message = false

/-- Some error that is none of a node. -/
def someError : PlainError := ⟨submitTimeout, submitTimeout_notImported⟩

/-- Where `sendTx` begins. -/
def started (task : EventTask D) : SenderAwait D := if isRetryTask task then .retryNonce else .cachedNonce

/-- Where it is with a nonce, or without one. -/
def chosen : Except String Nat → SenderAwait D
  | .ok nonce => .sendTransaction nonce
  | .error _ => .unlock none

/-- Where the `try` leaves it. -/
def tried : Except String (Tried D) → SenderAwait D
  | .ok t => .updateNonce t.nonce t.result
  | .error _ => .unlock none

/-- One step that changes nothing but the await. -/
theorem follow_only {await await' : SenderAwait D} {answer : Answer} {answers : List Answer}
    {beside : List (QueueMessage D)} (h : senderMove p false task await answer = only (.sender task await' :: beside)) :
    follow task p await (answer :: answers) = follow task p await' answers := by
  rw [follow, h]
  rfl

/-- An exception inside the `try`. -/
theorem follow_throw {await : SenderAwait D} {answer : Answer} {answers : List Answer} {nonce : Nat} {message : String}
    {txHash : Option Tx} {beside : List (QueueMessage D)} {pooled : List Tx}
    (h : senderMove p false task await answer = some (throwInSendTx task nonce message txHash beside pooled)) :
    follow task p await (answer :: answers) = follow task p (caught nonce message txHash) answers := by
  rw [follow, h]
  rfl

/-- `readNonce(false)`. -/
theorem follow_readNonce (task : EventTask D) (hfresh : ∀ n, call.freshNonce = .ok n → n ≤ p.chainNonce) :
    ∃ answers, follow task p .cachedNonce answers =
      some (p, chosen (readNonce p.cachedNonce call.freshNonce false)) := by
  cases hcached : p.cachedNonce with
  | some nonce =>
      have hstep : senderMove p false task .cachedNonce (.cache true) = only [.sender task (.sendTransaction nonce)] := by
        simp [senderMove, hcached]
      refine ⟨[.cache true], ?_⟩
      rw [follow_only hstep]
      rfl
  | none =>
      have hmiss : senderMove p false task .cachedNonce (.cache true) = only [.sender task .freshNonce] := by
        simp [senderMove, hcached]
      cases hnonce : call.freshNonce with
      | error e =>
          have hstep : senderMove p false task .freshNonce (.fails someError) = only [.sender task (.unlock none)] := by
            simp [senderMove]
          refine ⟨[.cache true, .fails someError], ?_⟩
          rw [follow_only hmiss, follow_only hstep]
          rfl
      | ok n =>
          have hstep : senderMove p false task .freshNonce (.nonce n) = only [.sender task (.sendTransaction n)] := by
            simp [senderMove, hfresh n hnonce]
          refine ⟨[.cache true, .nonce n], ?_⟩
          rw [follow_only hmiss, follow_only hstep]
          rfl

/-- The choice of the nonce. -/
theorem follow_chooseNonce (h : Possible p call) :
    ∃ answers, follow call.task p (started call.task) answers =
      some (p, chosen (chooseNonce p.cachedNonce call)) := by
  unfold started chooseNonce
  by_cases hretry : isRetryTask call.task = true
  · rw [if_pos hretry, if_pos hretry, readNonce_force]
    cases hcurr : call.currNonce with
    | error e =>
        have hstep : senderMove p false call.task .retryNonce (.fails someError) =
            only [.sender call.task (.unlock none)] := by
          simp [senderMove]
        refine ⟨[.fails someError], ?_⟩
        rw [follow_only hstep]
        rfl
    | ok currNonce =>
        have hle := h.currNonce currNonce hcurr
        obtain ⟨answers, hread⟩ := follow_readNonce call.task h.freshNonce
        have hpass (hstep : senderMove p false call.task .retryNonce (.nonce currNonce) =
            only [.sender call.task .cachedNonce]) :
              ∃ answers, follow call.task p .retryNonce answers =
                some (p, chosen (readNonce p.cachedNonce call.freshNonce false)) :=
          ⟨.nonce currNonce :: answers, by rw [follow_only hstep, hread]⟩
        cases hnonce : call.task.nonce with
        | none => exact hpass (by simp [senderMove, hle, hnonce])
        | some nonce =>
            by_cases hown : currNonce ≤ nonce
            · have hstep : senderMove p false call.task .retryNonce (.nonce currNonce) =
                  only [.sender call.task (.sendTransaction nonce)] := by
                simp [senderMove, hle, hnonce, hown]
              refine ⟨[.nonce currNonce], ?_⟩
              rw [follow_only hstep]
              show _ = some (p, chosen (if currNonce ≤ nonce then pure nonce else _))
              rw [if_pos hown]
              rfl
            · show ∃ answers, _ = some (p, chosen (if currNonce ≤ nonce then pure nonce else _))
              rw [if_neg hown]
              exact hpass (by simp [senderMove, hle, hnonce, hown])
  · rw [if_neg hretry, if_neg hretry]
    exact follow_readNonce call.task h.freshNonce

/-- The receipt task of a transaction that was imported although the call failed. -/
theorem follow_importedBlock (nonce : Nat) (tx : Tx) :
    ∃ answers, follow call.task p (.importedBlock nonce tx) answers =
      some (p, tried ((enqueueReceiptTask call tx nonce).map fun receipt => ⟨some receipt, nonce, .txImported⟩)) := by
  unfold enqueueReceiptTask
  cases hblock : call.getCurrentBlock with
  | error e =>
      have hstep : senderMove p false call.task (.importedBlock nonce tx) (.fails someError) =
          only [.sender call.task (.unlock none)] := by
        simp [senderMove]
      refine ⟨[.fails someError], ?_⟩
      rw [follow_only hstep]
      rfl
  | ok currentBlock =>
      have hstep : senderMove p false call.task (.importedBlock nonce tx) (.block currentBlock call.now) =
          only [.sender call.task (.importedReceipt nonce
            (newReceiptTask call.task tx nonce currentBlock call.now))] := by
        simp [senderMove]
      cases henqueue : call.enqueueReceiptor with
      | error e =>
          refine ⟨[.block currentBlock call.now, .unconfirmed false someError], ?_⟩
          rw [follow_only hstep]
          rfl
      | ok u =>
          refine ⟨[.block currentBlock call.now, .published], ?_⟩
          rw [follow_only hstep]
          rfl

/-- `readNonce(true)` after a nonce that was too low. -/
theorem follow_forceNonce (h : Possible p call) :
    ∃ answers, follow call.task p .forceNonce answers =
      some (p, tried (call.forceNonce.map fun n => ⟨none, n, .nonceTooLow⟩)) := by
  cases hforce : call.forceNonce with
  | error e =>
      have hstep : senderMove p false call.task .forceNonce (.fails someError) =
          only [.sender call.task (.unlock none)] := by
        simp [senderMove]
      refine ⟨[.fails someError], ?_⟩
      rw [follow_only hstep]
      rfl
  | ok n =>
      have hstep : senderMove p false call.task .forceNonce (.nonce n) =
          only [.sender call.task (.updateNonce n .nonceTooLow)] := by
        simp [senderMove, h.forceNonce n hforce]
      refine ⟨[.nonce n], ?_⟩
      rw [follow_only hstep]
      rfl

/-- The `catch`. -/
theorem follow_catchError (h : Possible p call) (nonce : Nat) (message : String) (txHash : Option Tx) :
    ∃ answers, follow call.task p (caught nonce message txHash) answers =
      some (p, tried (catchError p.cachedNonce call nonce ⟨message, txHash⟩)) := by
  unfold caught catchError
  dsimp only
  -- the kinds of errors, in the order they are tried
  split
  · cases txHash with
    | none => exact ⟨[], rfl⟩
    | some tx => exact follow_importedBlock nonce tx
  · split
    · exact ⟨[], rfl⟩
    · split
      · exact ⟨[], rfl⟩
      · split
        · rw [readNonce_force]
          exact follow_forceNonce h
        · split
          · exact ⟨[], rfl⟩
          · exact ⟨[], rfl⟩

/-- After the node took the transaction: an exception in the rest of the `try` is caught without a hash. -/
theorem follow_sentBlock (h : Possible p call) (nonce : Nat) (tx : Tx) :
    ∃ answers, follow call.task p (.sentBlock nonce tx) answers =
      some (p, tried (match enqueueReceiptTask call tx nonce with
        | .error message => catchError p.cachedNonce call nonce ⟨message, none⟩
        | .ok receipt => pure ⟨some receipt, nonce + 1, .success⟩)) := by
  unfold enqueueReceiptTask
  cases hblock : call.getCurrentBlock with
  | error message =>
      obtain ⟨answers, hcatch⟩ := follow_catchError h nonce message none
      have hstep : senderMove p false call.task (.sentBlock nonce tx)
          (.fails ⟨message, h.plain message (.inr (.inl hblock))⟩) =
            some (throwInSendTx call.task nonce message none [] []) := by
        simp [senderMove]
      exact ⟨_, (follow_throw hstep).trans hcatch⟩
  | ok currentBlock =>
      have hreceipt : senderMove p false call.task (.sentBlock nonce tx) (.block currentBlock call.now) =
          only [.sender call.task (.sentReceipt nonce
            (newReceiptTask call.task tx nonce currentBlock call.now))] := by
        simp [senderMove]
      cases henqueue : call.enqueueReceiptor with
      | error message =>
          obtain ⟨answers, hcatch⟩ := follow_catchError h nonce message none
          have hstep : senderMove p false call.task (.sentReceipt nonce
              (newReceiptTask call.task tx nonce currentBlock call.now))
                (.unconfirmed false ⟨message, h.plain message (.inr (.inr henqueue))⟩) =
              some (throwInSendTx call.task nonce message none [] []) := by
            simp [senderMove]
          exact ⟨_, (follow_only hreceipt).trans ((follow_throw hstep).trans hcatch)⟩
      | ok u =>
          refine ⟨[.block currentBlock call.now, .published], ?_⟩
          rw [follow_only hreceipt]
          rfl

/-- The `try`. -/
theorem follow_trySend (h : Possible p call) {nonce : Nat} (hnonce : chooseNonce p.cachedNonce call = .ok nonce) :
    ∃ answers, follow call.task p (.sendTransaction nonce) answers =
      some (p, tried (trySend p.cachedNonce call nonce)) := by
  unfold trySend
  cases hsend : call.sendTransaction with
  | error e =>
      obtain ⟨message, txHash⟩ := e
      obtain ⟨answers, hcatch⟩ := follow_catchError h nonce message txHash
      cases txHash with
      | none =>
          have hstep : senderMove p false call.task (.sendTransaction nonce)
              (.fails ⟨message, h.plain message (.inl hsend)⟩) =
                some (throwInSendTx call.task nonce message none [] []) := by
            simp [senderMove]
          exact ⟨_, (follow_throw hstep).trans hcatch⟩
      | some tx =>
          have hown : (⟨nonce, tx.content⟩ : Tx) = tx := by
            rw [← h.sent nonce tx hnonce (.inr ⟨message, hsend⟩)]
          have hstep : senderMove p false call.task (.sendTransaction nonce) (.refused tx.content false message) =
              some (throwInSendTx call.task nonce message (some tx) [] []) := by
            simp [senderMove, hown]
          exact ⟨_, (follow_throw hstep).trans hcatch⟩
  | ok tx =>
      have hown : (⟨nonce, tx.content⟩ : Tx) = tx := by
        rw [← h.sent nonce tx hnonce (.inl hsend)]
      have hsent (answers : List Answer) : follow call.task p (.sendTransaction nonce) (.sent tx.content :: answers) =
          follow call.task p (.sentBlock nonce tx) answers := by
        rw [follow]
        simp [senderMove, hown]
      obtain ⟨answers, hrest⟩ := follow_sentBlock h nonce tx
      exact ⟨_, (hsent _).trans hrest⟩

/-- **The sender of the pipeline carries out `sendTx`**: from the lock to the end of the call it gets to the same
    result, and to the same cached nonce. -/
theorem follow_sendTx (h : Possible p call) : ∃ answers, follow call.task p (started call.task) answers =
    some ({ p with cachedNonce := (sendTx p.cachedNonce call).cached }, .unlock (sendTx p.cachedNonce call).result) := by
  obtain ⟨answers, hchoose⟩ := follow_chooseNonce h
  rcases sendTx_cases p.cachedNonce call with ⟨e, hnonce, hsent⟩ | ⟨nonce, e, hnonce, htry, hsent⟩ |
    ⟨nonce, t, hnonce, htry, hsent⟩
  · rw [hnonce] at hchoose
    rw [hsent]
    exact ⟨answers, hchoose⟩
  · obtain ⟨answers', hfollow⟩ := follow_trySend h hnonce
    rw [hnonce] at hchoose
    rw [htry] at hfollow
    rw [hsent]
    exact ⟨answers ++ answers', (follow_append hchoose answers').trans hfollow⟩
  · obtain ⟨answers', hfollow⟩ := follow_trySend h hnonce
    rw [hnonce] at hchoose
    rw [htry] at hfollow
    rw [hsent]
    refine ⟨answers ++ (answers' ++ [.done]), ?_⟩
    rw [follow_append hchoose]
    exact (follow_append hfollow [.done]).trans rfl

end Pipeline

end NonceCache
end ThunderBridge
