import ThunderBridge.Contracts.Erc20
import ThunderBridge.Contracts.Message
import ThunderBridge.Contracts.HomeBridge.State

/-!
# `Validator.Events` — what a validator makes of an event

`processTransfers` turns a `Transfer` to the foreign bridge into the affirmation of a deposit, and
`processSignatureRequests` a `UserRequestForSignature` into a message to sign. Both look at the call data of the
event's transaction: one argument more than the method has names another recipient. `input` is the call data of
the transactions of a chain, by their hash.
-/

namespace ThunderBridge

/-- `OBSERVABLE_METHODS`: a method whose call data may carry one more address. -/
structure ObservableMethod where
  signature : Bytes
  callDataLength : Nat
  /-- Where the additional address starts. -/
  offset : Nat

namespace ObservableMethod

/-- `transfer(address,uint256)`. -/
def transfer : ObservableMethod := ⟨[0xa9, 0x05, 0x9c, 0xbb], 100, 4 + 32 + 32 + 12⟩

/-- `transferAndCall(address,uint256,bytes)`. -/
def transferAndCall : ObservableMethod := ⟨[0x40, 0x00, 0xae, 0xa0], 164, 4 + 32 + 32 + 32 + 32 + 12⟩

/-- The recipient of an event: the additional address, if there is one and it is not zero. -/
def recipient (m : ObservableMethod) (input : Bytes) (address : Address) : Address :=
  if input.take 4 = m.signature ∧ input.length = m.callDataLength then
    let newAddress : Address := BitVec.ofNat 160 (Bytes.ofBytes ((input.drop m.offset).take 20))
    if newAddress ≠ 0 then newAddress else address
  else address

end ObservableMethod

/-- `processTransfers`: the deposit that is affirmed for a `Transfer` to the foreign bridge. -/
def processTransfer (input : Bytes32 → Bytes) (t : Transfer) : Deposit :=
  (ObservableMethod.transfer.recipient (input t.transactionHash) t.source, t.value, t.transactionHash)

/-- `createMessage`. -/
def createMessage (recipient : Address) (value : UInt256) (transactionHash : Bytes32)
    (bridgeAddress : Address) : Bytes :=
  packAddress recipient ++ packWord value ++ packWord transactionHash ++ packAddress bridgeAddress

/-- A withdrawal as its `UserRequestForSignature` reports it: recipient, value, home transaction hash. -/
abbrev Withdrawal := Address × UInt256 × Bytes32

/-- The withdrawal to the recipient that the call data names. -/
def redirect (input : Bytes32 → Bytes) (r : Withdrawal) : Withdrawal :=
  (ObservableMethod.transferAndCall.recipient (input r.2.2) r.1, r.2.1, r.2.2)

/-- `processSignatureRequests`: the message that is signed for a withdrawal. -/
def processSignatureRequest (input : Bytes32 → Bytes) (foreignBridgeAddress : Address) (r : Withdrawal) :
    Bytes :=
  createMessage (redirect input r).1 r.2.1 r.2.2 foreignBridgeAddress

/-- What the foreign bridge reads in the message. -/
theorem parse_processSignatureRequest (input : Bytes32 → Bytes) (foreignBridgeAddress : Address)
    (r : Withdrawal) :
    Message.parseMessage (processSignatureRequest input foreignBridgeAddress r) =
      some ⟨(redirect input r).1, r.2.1, r.2.2, foreignBridgeAddress⟩ :=
  Message.parseMessage_encode ⟨(redirect input r).1, r.2.1, r.2.2, foreignBridgeAddress⟩

/-- No transaction has call data. -/
def plainInput : Bytes32 → Bytes := fun _ => []

/-- The amount of a deposit or a withdrawal. -/
def amountOf (d : Address × UInt256 × Bytes32) : Nat := d.2.1.toNat

theorem tally_processTransfer (input : Bytes32 → Bytes) (ts : List Transfer) :
    tally amountOf (ts.map (processTransfer input)) = tally Transfer.amount ts := tally_map ..

theorem tally_redirect (input : Bytes32 → Bytes) (rs : List Withdrawal) :
    tally amountOf (rs.map (redirect input)) = tally amountOf rs := tally_map ..

end ThunderBridge
