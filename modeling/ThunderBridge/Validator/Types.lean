import Mathlib.Data.List.Infix

/-!
# `Validator.Types` — the tasks that the services of a validator hand to each other

`types.ts`, and how `sender.ts` tells the failures of a submission apart: by what the message of the error
includes.
-/

namespace ThunderBridge

/-- An event of the chain. -/
structure EventData (D : Type) where
  blockNumber : Nat
  data : D
deriving DecidableEq, Repr

/-- A task for the sender. The last three fields are set on retry tasks. -/
structure EventTask (D : Type) where
  eventType : String
  event : EventData D
  nonce : Option Nat
  retries : Option Nat
  timestamp : Option Nat
deriving DecidableEq, Repr

def isRetryTask {D : Type} (task : EventTask D) : Bool :=
  match task.retries with
  | some retries => 0 < retries
  | none => false

/-- A signed transaction of the validator; its hash stands for it. -/
structure Tx where
  nonce : Nat
  content : Nat
deriving DecidableEq, Repr

/-- A task for the receiptor. -/
structure ReceiptTask (D : Type) where
  eventTask : EventTask D
  nonce : Nat
  timestamp : Nat
  transactionHash : Tx
  sentBlock : Nat
  retries : Option Nat
deriving DecidableEq, Repr

/-! ## Errors -/

/-- `message.includes(part)`. -/
def includes (message part : String) : Bool := decide (part.toList <:+: message.toList)

namespace SendTxError

def isNonceTooLowError (message : String) : Bool :=
  includes message "Transaction nonce is too low" || includes message "nonce too low" ||
    includes message "transaction with same nonce in the queue" ||
    includes message "the tx doesn't have the correct nonce"

def isBlockGasLimitExceededError (message : String) : Bool :=
  includes message "exceeds block gas limit" || includes message "Exceeds block gas limit"

def isTxWasImportedError (message : String) : Bool :=
  includes message "Transaction with the same hash was already imported" ||
    includes message "known transaction"

def isInsufficientFundError (message : String) : Bool :=
  includes message "Insufficient funds" || includes message "insufficient funds" ||
    includes message "doesn't have enough funds to send tx"

def isTimeoutError (message : String) : Bool := includes message "timeout"

end SendTxError

/-- An error that is no `SubmitTxError` and has no transaction hash. That a transaction was imported already is
    the answer of a node to its submission, so no other error says so. -/
structure PlainError where
  message : String
  notImported : SendTxError.isTxWasImportedError message = false
deriving DecidableEq, Repr

/-- `submitTx` gives up on the answer of the node. -/
def submitTimeout : String := "Send eth_sendRawTransaction timeout"

theorem submitTimeout_notImported : SendTxError.isTxWasImportedError submitTimeout = false := by
  decide +kernel

inductive SendResult where
  | success
  | failed
  | txImported
  | blockGasLimitExceeded
  | insufficientFunds
  | nonceTooLow
  | skipped
  | timeout
  | sendDummyTxToFillNonce
deriving DecidableEq, Repr

inductive ReceiptResult where
  | success
  | null
  | failed
  | waittingK
  | waittingReceipt
deriving DecidableEq, Repr

end ThunderBridge
