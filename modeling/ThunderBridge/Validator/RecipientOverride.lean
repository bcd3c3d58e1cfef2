import ThunderBridge.Validator.Events
import ThunderBridge.Validator.MessageCodec

/-!
# `Validator.RecipientOverride` — the recipient in the call data

A user who wants somebody else to be paid on the other side puts an address behind the arguments of the transfer.
`TxStore.js` of the user interface writes it; `processTransfers` and `processSignatureRequests` cut it out of the
`input` of the transaction, a hexadecimal string, at fixed places.

The two sides agree on what the user interface writes. But the readers look at the selector and at the length only,
and other call data has both: with another target, with a padding that is not zero, or with `data` of another length,
which is padded to the same 32 bytes. `recipient_override_iff` says on which call data the reader is right.
-/

namespace ThunderBridge
namespace RecipientOverride

open MessageJs (slice Denotes)

/-! ## The readers -/

inductive Method where
  | transfer
  | transferAndCall
deriving DecidableEq, Repr

/-- An entry of `OBSERVABLE_METHODS`, and the place from which the reader of the method cuts. -/
structure Observable where
  signature : JsString
  callDataLength : Nat
  start : Nat

def OBSERVABLE_METHODS : Method → Observable
  | .transfer => ⟨"0xa9059cbb".toList, 202, (1 + 4 + 32 + 32) * 2 + 12 * 2⟩
  | .transferAndCall => ⟨"0x4000aea0".toList, 330, (1 + 4 + 32 + 32 + 32 + 32) * 2 + 12 * 2⟩

def ZERO_ADDRESS : JsString := "0x0000000000000000000000000000000000000000".toList

/-- The recipient of an event, after a look at the input of its transaction. -/
def override (m : Method) (input recipient : JsString) : JsString :=
  let method := OBSERVABLE_METHODS m
  if method.signature = slice input 0 10 ∧ method.callDataLength = input.length then
    let newRecipient := '0' :: 'x' :: slice input method.start method.callDataLength
    if newRecipient ≠ ZERO_ADDRESS then newRecipient else recipient
  else recipient

/-- In `processTransfers`, of `from`. -/
def processTransfers (input sender : JsString) : JsString := override .transfer input sender

/-- In `processSignatureRequests`. -/
def processSignatureRequests (input recipient : JsString) : JsString := override .transferAndCall input recipient

/-! ## The writers -/

/-- An address on 32 bytes. -/
def padAddress (a : Address) : Bytes := List.replicate 12 0 ++ packAddress a

/-- `bytes` on a multiple of 32 bytes. -/
def padBytes (b : Bytes) : Bytes := b ++ List.replicate ((32 - b.length % 32) % 32) 0

/-- `encodeABI()` of `web3`, which is no part of the repository. -/
structure Web3Abi where
  transfer : Address → UInt256 → JsString
  transferAndCall : Address → UInt256 → JsString → JsString
  /-- The selector, and a word for each argument. -/
  transfer_eq : ∀ target value, transfer target value =
    '0' :: 'x' :: Hex.encode ([0xa9, 0x05, 0x9c, 0xbb] ++ (padAddress target ++ packWord value))
  /-- `bytes` are behind the words: their place, their length, and themselves. -/
  transferAndCall_eq : ∀ target value data b, Denotes data b → transferAndCall target value data =
    '0' :: 'x' :: Hex.encode ([0x40, 0x00, 0xae, 0xa0] ++ (padAddress target ++ (packWord value ++
      (packWord 96 ++ (packWord (BitVec.ofNat 256 b.length) ++ padBytes b)))))

section Writers

variable (web3 : Web3Abi) (target : Address) (value : UInt256) (recipient : JsString)

def zeros : JsString := "000000000000000000000000".toList

def erc677transferAndCall : JsString :=
  let recipientData := '0' :: 'x' :: (zeros ++ recipient.drop 2)
  web3.transferAndCall target value recipientData

def ethTransferAndCall : JsString :=
  let recipientData := '0' :: 'x' :: (zeros ++ recipient.drop 2)
  web3.transferAndCall target value recipientData

def ethTransfer : JsString := web3.transfer target value ++ (zeros ++ recipient.drop 2)

def erc20transfer : JsString := web3.transfer target value ++ (zeros ++ recipient.drop 2)

end Writers

/-- The functions of `TxStore` that write call data for a method. -/
def writers (web3 : Web3Abi) : Method → List (Address → UInt256 → JsString → JsString)
  | .transfer => [ethTransfer web3, erc20transfer web3]
  | .transferAndCall => [erc677transferAndCall web3, ethTransferAndCall web3]

/-- An address behind `0x`, in digits of either case. -/
def Spelled (recipient : JsString) (r : Address) : Prop :=
  ∃ cs, recipient = '0' :: 'x' :: cs ∧ Hex.decode cs = some (packAddress r)

/-- The user interface writes this input when `r` is to be paid by the bridge. -/
def Written (web3 : Web3Abi) (m : Method) (bridge r : Address) (input : Bytes) : Prop :=
  ∃ write ∈ writers web3 m, ∃ value recipient, Spelled recipient r ∧ Denotes (write bridge value recipient) input

/-- **The reader is right** about the input: the recipient is the address that the user interface wrote, if it wrote
    the input for this bridge, and that of the event otherwise. Nodes show an input in lower case. -/
def Honours (web3 : Web3Abi) (m : Method) (bridge : Address) (input : Bytes) (recipient : JsString)
    (a : Address) : Prop :=
  (∀ r, r ≠ 0 → Written web3 m bridge r input →
    Denotes (override m ('0' :: 'x' :: Hex.encode input) recipient) (packAddress r)) ∧
  ((∀ r, r ≠ 0 → ¬ Written web3 m bridge r input) →
    Denotes (override m ('0' :: 'x' :: Hex.encode input) recipient) (packAddress a))

/-! ## Call data as bytes -/

def Method.observable : Method → ObservableMethod
  | .transfer => .transfer
  | .transferAndCall => .transferAndCall

/-- What stands between the amount and the padding of the recipient. -/
def Method.dataHead : Method → Bytes
  | .transfer => []
  | .transferAndCall => packWord 96 ++ packWord 32

/-- The selector and the length of the method. -/
def Shaped (m : Method) (input : Bytes) : Prop :=
  input.take 4 = m.observable.signature ∧ input.length = m.observable.callDataLength

/-- The last 20 bytes. -/
def appended (m : Method) (input : Bytes) : Address :=
  BitVec.ofNat 160 (Bytes.ofBytes ((input.drop m.observable.offset).take 20))

/-- What the reader does not look at: the target is the bridge, the head of `data` says 32 bytes, and its first 12
    bytes are zero. -/
structure Arguments (m : Method) (bridge : Address) (input : Bytes) : Prop where
  target : (input.drop 4).take 32 = padAddress bridge
  dataHead : (input.drop 68).take m.dataHead.length = m.dataHead
  padding : (input.drop (68 + m.dataHead.length)).take 12 = List.replicate 12 0

/-- What the user interface writes. -/
def encoding (m : Method) (bridge : Address) (value : UInt256) (r : Address) : Bytes :=
  m.observable.signature ++ (padAddress bridge ++ (packWord value ++ (m.dataHead ++
    (List.replicate 12 0 ++ packAddress r))))

section Layout

variable {m : Method} {bridge r a : Address} {value : UInt256} {input : Bytes}

theorem length_signature (m : Method) : m.observable.signature.length = 4 := by
  cases m <;> rfl

@[simp] theorem length_padAddress (a : Address) : (padAddress a).length = 32 := by
  rw [padAddress, List.length_append, List.length_replicate, length_packAddress]

theorem offset_eq (m : Method) : m.observable.offset = 68 + m.dataHead.length + 12 := by
  cases m
  · rfl
  · simp [Method.observable, ObservableMethod.transferAndCall, Method.dataHead]

theorem callDataLength_eq (m : Method) : m.observable.callDataLength = m.observable.offset + 20 := by
  cases m <;> rfl

theorem encoding_shaped (m : Method) (bridge : Address) (value : UInt256) (r : Address) :
    Shaped m (encoding m bridge value r) := by
  constructor
  · rw [encoding, ← length_signature m, List.take_left]
  · simp only [encoding, List.length_append, length_signature, length_padAddress, length_packWord,
      List.length_replicate, length_packAddress]
    rw [callDataLength_eq, offset_eq]
    omega

/-- The front of the encoding, up to the recipient. -/
theorem drop_encoding (m : Method) (bridge : Address) (value : UInt256) (r : Address) :
    (encoding m bridge value r).drop m.observable.offset = packAddress r := by
  have hsplit : encoding m bridge value r = (m.observable.signature ++ (padAddress bridge ++ (packWord value ++
      (m.dataHead ++ List.replicate 12 0)))) ++ packAddress r := by
    simp only [encoding, List.append_assoc]
  have hlen : (m.observable.signature ++ (padAddress bridge ++ (packWord value ++
      (m.dataHead ++ List.replicate 12 0)))).length = m.observable.offset := by
    simp only [List.length_append, length_signature, length_padAddress, length_packWord, List.length_replicate]
    rw [offset_eq]
    omega
  rw [hsplit, ← hlen, List.drop_left]

theorem ofBytes_packAddress (r : Address) : (BitVec.ofNat 160 (Bytes.ofBytes (packAddress r)) : Address) = r := by
  rw [packAddress, Bytes.ofBytes_ofWord]
  exact BitVec.ofNat_toNat 160 r

/-- **The recipient is read back.** -/
theorem appended_encoding (m : Method) (bridge : Address) (value : UInt256) (r : Address) :
    appended m (encoding m bridge value r) = r := by
  rw [appended, drop_encoding, List.take_of_length_le (Nat.le_of_eq (length_packAddress r)), ofBytes_packAddress]

/-- **Call data with the arguments of the user interface** is what it writes. -/
theorem Arguments.encoding_eq (hargs : Arguments m bridge input) (hshape : Shaped m input) :
    ∃ value, input = encoding m bridge value (appended m input) := by
  obtain ⟨hsig, hlen⟩ := hshape
  rw [callDataLength_eq, offset_eq] at hlen
  have hvalue : ((input.drop 36).take 32).length = 32 := by
    rw [List.length_take, List.length_drop]
    omega
  have hrest : ((input.drop m.observable.offset).take 20).length = 20 := by
    rw [List.length_take, List.length_drop, offset_eq]
    omega
  refine ⟨BitVec.ofNat 256 (Bytes.ofBytes ((input.drop 36).take 32)), ?_⟩
  have hword : packWord (BitVec.ofNat 256 (Bytes.ofBytes ((input.drop 36).take 32))) = (input.drop 36).take 32 :=
    Bytes.ofWord_ofBytes (n := 32) hvalue
  have haddress : packAddress (appended m input) = (input.drop m.observable.offset).take 20 :=
    Bytes.ofWord_ofBytes (n := 20) hrest
  -- the input, cut at the places of the fields
  have hcut (k n : Nat) : input.drop k = (input.drop k).take n ++ input.drop (k + n) := by
    rw [← List.drop_drop, List.take_append_drop]
  have hlast : (input.drop m.observable.offset).take 20 = input.drop m.observable.offset := by
    apply List.take_of_length_le
    rw [List.length_drop, offset_eq]
    omega
  rw [encoding, hword, haddress, hlast, ← hsig, ← hargs.target, ← hargs.padding]
  conv_rhs => enter [2, 2, 2, 1]; rw [← hargs.dataHead]
  rw [offset_eq, ← hcut, ← hcut, ← hcut 36 32, ← hcut 4 32, List.take_append_drop]

/-- And the other way round. -/
theorem encoding_arguments (m : Method) (bridge : Address) (value : UInt256) (r : Address) :
    Arguments m bridge (encoding m bridge value r) := by
  have hsig := length_signature m
  have hdrop4 : (encoding m bridge value r).drop 4 = padAddress bridge ++ (packWord value ++ (m.dataHead ++
      (List.replicate 12 0 ++ packAddress r))) := by
    rw [encoding, ← hsig, List.drop_left]
  have hdrop68 : (encoding m bridge value r).drop 68 = m.dataHead ++ (List.replicate 12 0 ++ packAddress r) := by
    have hlen : (padAddress bridge ++ packWord value).length = 64 := by simp
    rw [show 68 = 4 + 64 from rfl, ← List.drop_drop, hdrop4, ← List.append_assoc, ← hlen, List.drop_left]
  refine ⟨?_, ?_, ?_⟩
  · rw [hdrop4, ← length_padAddress bridge, List.take_left]
  · rw [hdrop68, List.take_left]
  · rw [← List.drop_drop, hdrop68, List.drop_left]
    exact List.take_left' (List.length_replicate ..)

/-- **The writers write the encoding**, whatever the spelling of the recipient. -/
theorem writer_denotes {web3 : Web3Abi} {write : Address → UInt256 → JsString → JsString} {recipient : JsString}
    (hwrite : write ∈ writers web3 m) (hspelled : Spelled recipient r) :
    Denotes (write bridge value recipient) (encoding m bridge value r) := by
  obtain ⟨cs, rfl, hcs⟩ := hspelled
  have hzeros : Hex.decode zeros = some (List.replicate 12 0) := by
    decide +kernel
  have hdata : Hex.decode (zeros ++ cs) = some (List.replicate 12 0 ++ packAddress r) :=
    Hex.decode_append hzeros hcs
  cases m with
  | transfer =>
      have hboth : write bridge value ('0' :: 'x' :: cs) = web3.transfer bridge value ++ (zeros ++ cs) := by
        rcases List.mem_pair.mp hwrite with rfl | rfl <;> rfl
      have hall := Hex.decode_append (Hex.decode_encode
        ([0xa9, 0x05, 0x9c, 0xbb] ++ (padAddress bridge ++ packWord value))) hdata
      rw [hboth, web3.transfer_eq]
      rw [List.append_assoc, List.append_assoc] at hall
      exact hall
  | transferAndCall =>
      have hboth : write bridge value ('0' :: 'x' :: cs) =
          web3.transferAndCall bridge value ('0' :: 'x' :: (zeros ++ cs)) := by
        rcases List.mem_pair.mp hwrite with rfl | rfl <;> rfl
      have hlen : (List.replicate 12 (0 : Byte) ++ packAddress r).length = 32 := length_padAddress r
      have hpad : padBytes (List.replicate 12 0 ++ packAddress r) = List.replicate 12 0 ++ packAddress r := by
        rw [padBytes, hlen]
        exact List.append_nil _
      have hdenotes : Denotes ('0' :: 'x' :: (zeros ++ cs)) (List.replicate 12 0 ++ packAddress r) := hdata
      rw [hboth, web3.transferAndCall_eq _ _ _ _ hdenotes, hlen, hpad]
      have hall : Hex.decode (Hex.encode (encoding .transferAndCall bridge value r)) = _ := Hex.decode_encode _
      simp only [encoding, Method.dataHead, List.append_assoc] at hall ⊢
      exact hall

theorem written_iff {web3 : Web3Abi} :
    Written web3 m bridge r input ↔ ∃ value, input = encoding m bridge value r := by
  constructor
  · rintro ⟨write, hwrite, value, recipient, hspelled, hdenotes⟩
    exact ⟨value, Option.some.inj (hdenotes.symm.trans (writer_denotes hwrite hspelled))⟩
  · rintro ⟨value, rfl⟩
    have hspelled : Spelled ('0' :: 'x' :: Hex.encode (packAddress r)) r := ⟨_, rfl, Hex.decode_encode _⟩
    cases m with
    | transfer =>
        have hwrite : erc20transfer web3 ∈ writers web3 .transfer := by simp [writers]
        exact ⟨_, hwrite, value, _, hspelled, writer_denotes hwrite hspelled⟩
    | transferAndCall =>
        have hwrite : erc677transferAndCall web3 ∈ writers web3 .transferAndCall := by simp [writers]
        exact ⟨_, hwrite, value, _, hspelled, writer_denotes hwrite hspelled⟩

end Layout

/-! ## Reading the string -/

section Reading

variable {m : Method} {bridge r a : Address} {input : Bytes} {recipient : JsString}

theorem slice_encode (input : Bytes) (start stop : Nat) :
    slice ('0' :: 'x' :: Hex.encode input) (2 + 2 * start) (2 + 2 * stop) =
      Hex.encode ((input.take stop).drop start) := by
  have hbehind : slice ('0' :: 'x' :: Hex.encode input) (2 + 2 * start) (2 + 2 * stop) =
      ((Hex.encode input).take (2 * stop)).drop (2 * start) := by
    rw [slice, Nat.add_comm 2, Nat.add_comm 2]
    rfl
  rw [hbehind, Hex.take_encode, Hex.drop_encode]

theorem start_eq (m : Method) : (OBSERVABLE_METHODS m).start = 2 + 2 * m.observable.offset := by
  cases m <;> rfl

theorem jsLength_eq (m : Method) : (OBSERVABLE_METHODS m).callDataLength = 2 + 2 * m.observable.callDataLength := by
  cases m <;> rfl

theorem jsSignature_eq (m : Method) :
    (OBSERVABLE_METHODS m).signature = '0' :: 'x' :: Hex.encode m.observable.signature := by
  cases m <;> decide +kernel

theorem zeroAddress_eq : ZERO_ADDRESS = '0' :: 'x' :: Hex.encode (packAddress 0) := by
  decide +kernel

/-- The test of the string is one of the bytes. -/
theorem test_iff :
    (OBSERVABLE_METHODS m).signature = slice ('0' :: 'x' :: Hex.encode input) 0 10 ∧
      (OBSERVABLE_METHODS m).callDataLength = ('0' :: 'x' :: Hex.encode input).length ↔ Shaped m input := by
  have hslice : slice ('0' :: 'x' :: Hex.encode input) 0 10 = '0' :: 'x' :: Hex.encode (input.take 4) := by
    rw [← Hex.take_encode]
    rfl
  rw [hslice, jsSignature_eq, jsLength_eq, List.length_cons, List.length_cons, Hex.length_encode, Shaped]
  refine and_congr ?_ ?_
  · rw [List.cons.injEq, List.cons.injEq, Hex.encode_injective.eq_iff]
    simp [eq_comm]
  · omega

/-- **What the reader cuts out** of a string of the right shape. -/
theorem cut_eq (hshape : Shaped m input) :
    '0' :: 'x' :: slice ('0' :: 'x' :: Hex.encode input) (OBSERVABLE_METHODS m).start
      (OBSERVABLE_METHODS m).callDataLength = '0' :: 'x' :: Hex.encode (packAddress (appended m input)) := by
  have hlen := hshape.2
  rw [start_eq, jsLength_eq, slice_encode, List.take_of_length_le (Nat.le_of_eq hlen)]
  have hrest : (input.drop m.observable.offset).length = 20 := by
    rw [List.length_drop, hlen, callDataLength_eq]
    omega
  have haddress : packAddress (appended m input) = input.drop m.observable.offset := by
    rw [appended, List.take_of_length_le (Nat.le_of_eq hrest)]
    exact Bytes.ofWord_ofBytes (n := 20) hrest
  rw [haddress]

theorem override_shaped (hshape : Shaped m input) (hzero : appended m input ≠ 0) :
    override m ('0' :: 'x' :: Hex.encode input) recipient =
      '0' :: 'x' :: Hex.encode (packAddress (appended m input)) := by
  have hne : '0' :: 'x' :: Hex.encode (packAddress (appended m input)) ≠ ZERO_ADDRESS := by
    rw [zeroAddress_eq]
    intro he
    have hbytes := Hex.encode_injective (List.cons.inj (List.cons.inj he).2).2
    exact hzero (packAddress_injective hbytes)
  simp only [override]
  rw [if_pos (test_iff.mpr hshape), cut_eq hshape, if_pos hne]

theorem override_zero (hshape : Shaped m input) (hzero : appended m input = 0) :
    override m ('0' :: 'x' :: Hex.encode input) recipient = recipient := by
  simp only [override]
  rw [if_pos (test_iff.mpr hshape), cut_eq hshape, hzero, zeroAddress_eq, if_neg (not_not.mpr rfl)]

theorem override_other (hshape : ¬ Shaped m input) :
    override m ('0' :: 'x' :: Hex.encode input) recipient = recipient := by
  simp only [override]
  rw [if_neg fun htest => hshape (test_iff.mp htest)]

theorem denotes_address (r : Address) : Denotes ('0' :: 'x' :: Hex.encode (packAddress r)) (packAddress r) :=
  Hex.decode_encode _

/-- **The reader of the string is the reader of the bytes.** -/
theorem override_denotes (h : Denotes recipient (packAddress a)) :
    Denotes (override m ('0' :: 'x' :: Hex.encode input) recipient)
      (packAddress (m.observable.recipient input a)) := by
  unfold ObservableMethod.recipient
  by_cases hshape : Shaped m input
  · have hbytes : input.take 4 = m.observable.signature ∧ input.length = m.observable.callDataLength := hshape
    rw [if_pos hbytes]
    show Denotes _ (packAddress (if appended m input ≠ 0 then appended m input else a))
    by_cases hzero : appended m input = 0
    · rw [override_zero hshape hzero, if_neg (not_not.mpr hzero)]
      exact h
    · rw [override_shaped hshape hzero, if_pos hzero]
      exact denotes_address _
  · have hbytes : ¬ (input.take 4 = m.observable.signature ∧ input.length = m.observable.callDataLength) := hshape
    rw [override_other hshape, if_neg hbytes]
    exact h

theorem processTransfers_denotes {inputs : Bytes32 → Bytes} {t : Transfer}
    (h : Denotes recipient (packAddress t.source)) :
    Denotes (processTransfers ('0' :: 'x' :: Hex.encode (inputs t.transactionHash)) recipient)
      (packAddress (processTransfer inputs t).1) := override_denotes h

theorem processSignatureRequests_denotes {inputs : Bytes32 → Bytes} {w : Withdrawal}
    (h : Denotes recipient (packAddress w.1)) :
    Denotes (processSignatureRequests ('0' :: 'x' :: Hex.encode (inputs w.2.2)) recipient)
      (packAddress (redirect inputs w).1) := override_denotes h

theorem denotes_inj {text : JsString} {b b' : Bytes} (h : Denotes text b) (h' : Denotes text b') : b = b' :=
  Option.some.inj (h.symm.trans h')

theorem Written.arguments {web3 : Web3Abi} (hw : Written web3 m bridge r input) :
    Shaped m input ∧ appended m input = r ∧ Arguments m bridge input := by
  obtain ⟨value, rfl⟩ := written_iff.mp hw
  exact ⟨encoding_shaped .., appended_encoding .., encoding_arguments ..⟩

/-- The recipient that the user interface wrote is the one that is read. -/
theorem Written.recipient_eq {web3 : Web3Abi} (hw : Written web3 m bridge r input) (hr : r ≠ 0) (a : Address) :
    m.observable.recipient input a = r := by
  obtain ⟨hshape, happended, _⟩ := hw.arguments
  have htest : input.take 4 = m.observable.signature ∧ input.length = m.observable.callDataLength := hshape
  unfold ObservableMethod.recipient
  rw [if_pos htest]
  show (if appended m input ≠ 0 then appended m input else a) = r
  rw [happended, if_pos hr]

/-- An address behind other arguments must not be read. -/
theorem Honours.arguments {web3 : Web3Abi} (h : Honours web3 m bridge input recipient a)
    (hshape : Shaped m input) : appended m input = 0 ∨ appended m input = a ∨ Arguments m bridge input := by
  by_contra hnot
  push Not at hnot
  obtain ⟨hzero, hother, hargs⟩ := hnot
  -- the user interface wrote nothing, and yet there is another recipient
  have hsame := h.2 fun r _ hw => hargs hw.arguments.2.2
  rw [override_shaped hshape hzero] at hsame
  exact hother (packAddress_injective (denotes_inj (denotes_address _) hsame))

/-- **The recipient override, and when it is right.** Call data of the shape of a method is read as if it were the
    user interface's. So the reader is right exactly when it is, or there is no address at its end, or that address is
    the one of the event anyway. -/
theorem recipient_override_iff (web3 : Web3Abi) (m : Method) (bridge a : Address) (input : Bytes)
    (recipient : JsString) (h : Denotes recipient (packAddress a)) :
    Honours web3 m bridge input recipient a ↔
      (Shaped m input → appended m input = 0 ∨ appended m input = a ∨ Arguments m bridge input) := by
  constructor
  · intro hhonours hshape
    exact hhonours.arguments hshape
  · intro hcondition
    refine ⟨?_, ?_⟩
    · intro r hr hw
      obtain ⟨hshape, rfl, _⟩ := hw.arguments
      rw [override_shaped hshape hr]
      exact denotes_address _
    · intro hnone
      by_cases hshape : Shaped m input
      · by_cases hzero : appended m input = 0
        · rw [override_zero hshape hzero]
          exact h
        · rcases hcondition hshape with hz | rfl | hargs
          · exact absurd hz hzero
          · rw [override_shaped hshape hzero]
            exact denotes_address _
          · exact absurd (written_iff.mpr (hargs.encoding_eq hshape)) (hnone _ hzero)
      · rw [override_other hshape]
        exact h

end Reading

/-! ## Two inputs -/

/-- The encoder, for `bytes` in hexadecimal digits. -/
def plainAbi : Web3Abi where
  transfer target value := '0' :: 'x' :: Hex.encode ([0xa9, 0x05, 0x9c, 0xbb] ++ (padAddress target ++ packWord value))
  transferAndCall target value data :=
    let b := (Hex.decode (strip0x data)).getD []
    '0' :: 'x' :: Hex.encode ([0x40, 0x00, 0xae, 0xa0] ++ (padAddress target ++ (packWord value ++
      (packWord 96 ++ (packWord (BitVec.ofNat 256 b.length) ++ padBytes b)))))
  transfer_eq _ _ := rfl
  transferAndCall_eq target value data b h := by
    have hdata : Hex.decode (strip0x data) = some b := h
    simp only [hdata, Option.getD_some]

/-- Account 34 transfers 5 to the bridge 7 for account 33. -/
theorem recipient_override_written :
    Honours plainAbi .transfer 7 (encoding .transfer 7 5 33) ('0' :: 'x' :: Hex.encode (packAddress 34)) 34 :=
  (recipient_override_iff plainAbi .transfer 7 34 (encoding .transfer 7 5 33) _ (denotes_address 34)).mpr
    fun _ => .inr (.inr (encoding_arguments ..))

/-- `transferAndCall(7, 5, data)` with the 20 bytes of an address as `data`: the 12 bytes that fill up the word are
    taken for the end of an address. -/
def shortData : Bytes :=
  [0x40, 0x00, 0xae, 0xa0] ++ (padAddress 7 ++ (packWord 5 ++ (packWord 96 ++ (packWord 20 ++
    padBytes (packAddress 0xc6d2fa1b34a2f8a45ed1a8ba2d4c1c9cbfb1a4f2)))))

/-- It is not of the user interface, and the withdrawal of account 34 goes to an address nobody wrote. -/
theorem short_data_is_read :
    override .transferAndCall ('0' :: 'x' :: Hex.encode shortData) ('0' :: 'x' :: Hex.encode (packAddress 34)) =
        "0x2d4c1c9cbfb1a4f2000000000000000000000000".toList ∧
      ¬ Honours plainAbi .transferAndCall 7 shortData ('0' :: 'x' :: Hex.encode (packAddress 34)) 34 := by
  constructor
  · decide +kernel
  · intro h
    have hshape : Shaped .transferAndCall shortData := by
      unfold Shaped
      decide +kernel
    rcases h.arguments hshape with hzero | hsame | hargs
    · exact absurd hzero (by decide +kernel)
    · exact absurd hsame (by decide +kernel)
    · exact absurd hargs.dataHead (by decide +kernel)

end RecipientOverride
end ThunderBridge
