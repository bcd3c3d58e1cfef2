import ThunderBridge.Validator.CollectedSignatures

/-!
# `Validator.MessageCodec` — one message, two languages

`utils/message.js` writes a withdrawal message as a hexadecimal string and cuts it apart again;
`libraries/Message.sol` reads the same 104 bytes from memory. Between the two stands `Message.encode`: the
string that `createMessage` writes denotes the bytes of `encode`, and each of the two parsers is its inverse.

Strings have more than one spelling of the same bytes: with or without `0x`, in letters of either case, an
amount in decimal or hexadecimal digits. `Denotes` and `Shows` say what a spelling stands for.
-/

namespace ThunderBridge
namespace MessageJs

/-! ## The program -/

/-- What a spelling of bytes stands for. -/
def Denotes (input : JsString) (b : Bytes) : Prop := Hex.decode (strip0x input) = some b

/-- **A numeral**: hexadecimal digits behind `0x`, or decimal digits. -/
def Shows (value : JsString) (n : Nat) : Prop :=
  (∃ cs, cs ≠ [] ∧ value = '0' :: 'x' :: cs ∧ Hex.number 16 cs = some n) ∨
    (value ≠ [] ∧ Hex.number 10 value = some n)

/-- The two functions of `web3-utils`, which is no part of the repository. -/
structure Web3Utils where
  numberToHex : JsString → Option JsString
  padLeft : JsString → Nat → JsString
  /-- A numeral is rewritten in base 16, behind `0x` and without leading zeros. -/
  numberToHex_eq : ∀ value n, n < 2 ^ 256 → Shows value n →
    numberToHex value = some ('0' :: 'x' :: Hex.numeral n)
  /-- Zeros are added behind the prefix. -/
  padLeft_eq : ∀ cs k, padLeft ('0' :: 'x' :: cs) k =
    '0' :: 'x' :: (List.replicate (k - cs.length) '0' ++ cs)

/-- `createMessage`; `none` when one of its assertions fails. -/
def createMessage (web3 : Web3Utils) (recipient value transactionHash bridgeAddress : JsString)
    (expectedMessageLength : Nat) : Option JsString := do
  let recipient := strip0x recipient
  require (recipient.length = 20 * 2)
  let value ← web3.numberToHex value
  let value := web3.padLeft value (32 * 2)
  let value := strip0x value
  require (value.length = 64)
  let transactionHash := strip0x transactionHash
  require (transactionHash.length = 32 * 2)
  let bridgeAddress := strip0x bridgeAddress
  require (bridgeAddress.length = 20 * 2)
  let message := '0' :: 'x' :: (recipient ++ (value ++ (transactionHash ++ bridgeAddress)))
  require (message.length = 2 + 2 * expectedMessageLength)
  pure message

/-- `input.slice(start, stop)`, for places from the left. A place past the end is the end. -/
def slice (input : JsString) (start stop : Nat) : JsString := (input.take stop).drop start

/-- What `parseMessage` returns. -/
structure Fields where
  recipient : JsString
  amount : JsString
  txHash : JsString
  contractAddress : JsString

def parseMessage (message : JsString) : Fields :=
  let message := strip0x message
  let recipientStart := 0
  let recipientLength := 40
  let amountStart := recipientStart + recipientLength
  let amountLength := 32 * 2
  let txHashStart := amountStart + amountLength
  let txHashLength := 32 * 2
  let contractAddressStart := txHashStart + txHashLength
  -- 64 digits are asked for where 40 remain
  let contractAddressLength := 32 * 2
  { recipient := '0' :: 'x' :: slice message recipientStart (recipientStart + recipientLength)
    amount := '0' :: 'x' :: slice message amountStart (amountStart + amountLength)
    txHash := '0' :: 'x' :: slice message txHashStart (txHashStart + txHashLength)
    contractAddress :=
      '0' :: 'x' :: slice message contractAddressStart (contractAddressStart + contractAddressLength) }

/-- **The fields of a message**, each in some spelling. -/
structure Spells (f : Fields) (m : ParsedMessage) : Prop where
  recipient : Denotes f.recipient (packAddress m.recipient)
  amount : Shows f.amount m.amount.toNat
  txHash : Denotes f.txHash (packWord m.txHash)
  contractAddress : Denotes f.contractAddress (packAddress m.contractAddress)

/-! ## Cutting strings -/

theorem run_append {α : Type} (xs ys zs : List α) :
    ((xs ++ (ys ++ zs)).take (xs.length + ys.length)).drop xs.length = ys := by
  rw [List.take_length_add_append, List.take_left, List.drop_left]

/-- A run that asks for more than there is. -/
theorem run_append_past {α : Type} (xs ys : List α) (stop : Nat) (h : xs.length + ys.length ≤ stop) :
    ((xs ++ ys).take stop).drop xs.length = ys := by
  rw [List.take_of_length_le (by rwa [List.length_append]), List.drop_left]

/-- The four runs of a text of fields, wherever the last one is said to end. -/
theorem runs_of_fields {α : Type} (r v t c : List α) (stop : Nat)
    (hstop : r.length + v.length + t.length + c.length ≤ stop) :
    ((r ++ (v ++ (t ++ c))).take r.length).drop 0 = r ∧
      ((r ++ (v ++ (t ++ c))).take (r.length + v.length)).drop r.length = v ∧
      ((r ++ (v ++ (t ++ c))).take (r.length + v.length + t.length)).drop (r.length + v.length) = t ∧
      ((r ++ (v ++ (t ++ c))).take stop).drop (r.length + v.length + t.length) = c := by
  have ht := run_append (r ++ v) t c
  have hc := run_append_past (r ++ v ++ t) c stop (by simpa only [List.length_append] using hstop)
  rw [List.length_append, List.append_assoc] at ht
  rw [List.length_append, List.length_append, List.append_assoc, List.append_assoc] at hc
  exact ⟨by rw [List.take_left, List.drop_zero], run_append r v (t ++ c), ht, hc⟩

/-- A cut between digits of one byte and the next is a cut between the bytes. -/
theorem decode_slice {cs : JsString} {b : Bytes} (h : Hex.decode cs = some b) (start stop : Nat) :
    Hex.decode (slice cs (2 * start) (2 * stop)) = some ((b.take stop).drop start) := by
  unfold slice
  exact (Hex.decode_take_drop (Hex.decode_take_drop h).1).2

theorem Denotes.length {input : JsString} {b : Bytes} (h : Denotes input b) :
    (strip0x input).length = 2 * b.length := Hex.decode_length h

/-- An amount on 64 digits. -/
def padded (v : UInt256) : JsString :=
  List.replicate (32 * 2 - (Hex.numeral v.toNat).length) '0' ++ Hex.numeral v.toNat

theorem length_padded (v : UInt256) : (padded v).length = 64 := by
  have hfits : (Hex.numeral v.toNat).length ≤ 64 := by
    apply Hex.length_numeral_le (by decide)
    have hpow : (16 : Nat) ^ 64 = 2 ^ 256 := by decide
    rw [hpow]
    exact v.isLt
  rw [padded, List.length_append, List.length_replicate]
  omega

/-- **The amount on 64 digits** denotes its 32 bytes. -/
theorem decode_padded (v : UInt256) : Hex.decode (padded v) = some (packWord v) := by
  have hnum : Hex.number 16 (padded v) = some v.toNat := by
    rw [padded, Hex.number_replicate_append, Hex.number_numeral]
  obtain ⟨bs, hbs, hbytes, hv⟩ := Hex.decode_of_number (m := 32) (length_padded v) hnum
  have hword : packWord v = bs := by
    have hv' : v = BitVec.ofNat 256 (Bytes.ofBytes bs) := by
      apply BitVec.eq_of_toNat_eq
      rw [BitVec.toNat_ofNat, show Bytes.ofBytes bs = v.toNat by omega, Nat.mod_eq_of_lt v.isLt]
    rw [hv']
    exact Bytes.ofWord_ofBytes hbytes
  rw [hbs, hword]

/-! ## The encoder and the two parsers -/

section Codec

variable (web3 : Web3Utils) {f : Fields} {m : ParsedMessage}

/-- **The text of a message**: the fields as they were spelled, except for the amount. -/
def text (f : Fields) (m : ParsedMessage) : JsString :=
  strip0x f.recipient ++ (padded m.amount ++ (strip0x f.txHash ++ strip0x f.contractAddress))

theorem decode_text (h : Spells f m) : Hex.decode (text f m) = some (Message.encode m) := by
  have hall := Hex.decode_append h.recipient (Hex.decode_append (decode_padded m.amount)
    (Hex.decode_append h.txHash h.contractAddress))
  rw [Message.encode, List.append_assoc, List.append_assoc]
  exact hall

theorem createMessage_eq (h : Spells f m) :
    createMessage web3 f.recipient f.amount f.txHash f.contractAddress Message.requiredMessageLength =
      some ('0' :: 'x' :: text f m) := by
  have hr : (strip0x f.recipient).length = 20 * 2 := by rw [h.recipient.length, length_packAddress]
  have ht : (strip0x f.txHash).length = 32 * 2 := by rw [h.txHash.length, length_packWord]
  have hc : (strip0x f.contractAddress).length = 20 * 2 := by
    rw [h.contractAddress.length, length_packAddress]
  have hv : (strip0x ('0' :: 'x' :: padded m.amount)).length = 64 := length_padded m.amount
  have hlen : ('0' :: 'x' :: text f m).length = 2 + 2 * Message.requiredMessageLength := by
    have htext := Hex.decode_length (decode_text h)
    rw [Message.length_encode] at htext
    simp only [List.length_cons, htext, Message.requiredMessageLength]
  unfold createMessage
  simp only [web3.numberToHex_eq _ _ m.amount.isLt h.amount, web3.padLeft_eq, Option.bind_eq_bind,
    Option.bind_some, require_pos hr, require_pos ht, require_pos hc]
  rw [← padded, require_pos hv, Option.bind_some]
  exact congrArg (Option.bind · _) (require_pos hlen)

/-- The fields that `parseMessage` cuts from a text are the ones it was made of. -/
theorem parseMessage_text (h : Spells f m) :
    (parseMessage ('0' :: 'x' :: text f m)).recipient = '0' :: 'x' :: strip0x f.recipient ∧
      (parseMessage ('0' :: 'x' :: text f m)).txHash = '0' :: 'x' :: strip0x f.txHash ∧
      (parseMessage ('0' :: 'x' :: text f m)).contractAddress = '0' :: 'x' :: strip0x f.contractAddress := by
  have hr := h.recipient.length
  have ht := h.txHash.length
  have hc := h.contractAddress.length
  have hv := length_padded m.amount
  rw [length_packAddress] at hr hc
  rw [length_packWord] at ht
  obtain ⟨hrunr, _, hrunt, hrunc⟩ := runs_of_fields (strip0x f.recipient) (padded m.amount)
    (strip0x f.txHash) (strip0x f.contractAddress) 232 (by rw [hr, hv, ht, hc]; decide)
  rw [hr] at hrunr
  rw [hr, hv, ht] at hrunc hrunt
  exact ⟨congrArg (fun cs => '0' :: 'x' :: cs) hrunr, congrArg (fun cs => '0' :: 'x' :: cs) hrunt,
    congrArg (fun cs => '0' :: 'x' :: cs) hrunc⟩

/-- **Parsing any spelling of a message** spells its fields. -/
theorem parseMessage_spells {input : JsString} (h : Denotes input (Message.encode m)) :
    Spells (parseMessage input) m := by
  have hlayout : Message.encode m = packAddress m.recipient ++ (packWord m.amount ++ (packWord m.txHash ++
      packAddress m.contractAddress)) := by
    simp only [Message.encode, List.append_assoc]
  obtain ⟨hr, hv, ht, hc⟩ := runs_of_fields (packAddress m.recipient) (packWord m.amount) (packWord m.txHash)
    (packAddress m.contractAddress) 116 (by simp)
  simp only [← hlayout, length_packAddress, length_packWord] at hr hv ht hc
  have hamount := decode_slice h 20 52
  rw [hv] at hamount
  refine ⟨?_, .inl ⟨slice (strip0x input) 40 104, ?_, rfl, ?_⟩, ?_, ?_⟩
  · exact (decode_slice h 0 20).trans (congrArg some hr)
  · -- 32 bytes are not the empty string
    intro hnil
    have hlen := Hex.decode_length hamount
    rw [length_packWord] at hlen
    rw [hnil] at hlen
    exact absurd hlen (by decide)
  · have hnum : Hex.number 16 (slice (strip0x input) 40 104) = _ := Hex.number_of_decode hamount
    rw [hnum, Nat.zero_mul, Nat.zero_add]
    exact congrArg some (Bytes.ofBytes_ofWord (n := 32) m.amount)
  · exact (decode_slice h 52 84).trans (congrArg some ht)
  · exact (decode_slice h 84 116).trans (congrArg some hc)

end Codec

/-- **The codecs agree.** Whatever the spelling of four fields, `createMessage` writes 104 bytes, and both
    parsers give those fields back; every 104 bytes parse, to the same fields in both languages, and are
    what `createMessage` writes from them; and no two messages are written alike. -/
theorem codecs_agree (web3 : Web3Utils) :
    (∀ (m : ParsedMessage) (f : Fields), Spells f m → ∃ message,
      createMessage web3 f.recipient f.amount f.txHash f.contractAddress Message.requiredMessageLength =
          some message ∧
        Denotes message (Message.encode m) ∧ (Message.encode m).length = 104 ∧
        Message.parseMessage (Message.encode m) = some m ∧
        Spells (parseMessage message) m ∧
        (parseMessage message).recipient = '0' :: 'x' :: strip0x f.recipient ∧
        (parseMessage message).txHash = '0' :: 'x' :: strip0x f.txHash ∧
        (parseMessage message).contractAddress = '0' :: 'x' :: strip0x f.contractAddress) ∧
    (∀ b : Bytes, b.length = 104 → ∃ m, Message.parseMessage b = some m ∧
      ∀ input, Denotes input b → Spells (parseMessage input) m ∧
        ∃ message, createMessage web3 (parseMessage input).recipient (parseMessage input).amount
            (parseMessage input).txHash (parseMessage input).contractAddress Message.requiredMessageLength =
          some message ∧ Denotes message b) ∧
    (∀ (m m' : ParsedMessage) (f f' : Fields) (message message' : JsString) (b : Bytes),
      Spells f m → Spells f' m' →
      createMessage web3 f.recipient f.amount f.txHash f.contractAddress Message.requiredMessageLength =
        some message →
      createMessage web3 f'.recipient f'.amount f'.txHash f'.contractAddress Message.requiredMessageLength =
        some message' →
      Denotes message b → Denotes message' b → m = m') := by
  refine ⟨?_, ?_, ?_⟩
  · intro m f hf
    have hdenotes : Denotes ('0' :: 'x' :: text f m) (Message.encode m) := decode_text hf
    exact ⟨_, createMessage_eq web3 hf, hdenotes, Message.length_encode m, Message.parseMessage_encode m,
      parseMessage_spells hdenotes, parseMessage_text hf⟩
  · intro b hb
    obtain ⟨m, rfl⟩ := Message.encode_surjective hb
    refine ⟨m, Message.parseMessage_encode m, ?_⟩
    intro input hinput
    have hspells := parseMessage_spells hinput
    exact ⟨hspells, _, createMessage_eq web3 hspells, decode_text hspells⟩
  · intro m m' f f' message message' b hf hf' hm hm' hb hb'
    obtain rfl := Option.some.inj ((createMessage_eq web3 hf).symm.trans hm)
    obtain rfl := Option.some.inj ((createMessage_eq web3 hf').symm.trans hm')
    apply Message.encode_injective
    have hbytes : some (Message.encode m) = some b := (decode_text hf).symm.trans hb
    have hbytes' : some (Message.encode m') = some b := (decode_text hf').symm.trans hb'
    exact Option.some.inj (hbytes.trans hbytes'.symm)

/-- The two functions on numerals and prefixed digits; other strings are refused or left alone. -/
def plainWeb3 : Web3Utils where
  numberToHex
    | '0' :: 'x' :: cs => (Hex.number 16 cs).map fun n => '0' :: 'x' :: Hex.numeral n
    | cs => (Hex.number 10 cs).map fun n => '0' :: 'x' :: Hex.numeral n
  padLeft
    | '0' :: 'x' :: cs, k => '0' :: 'x' :: (List.replicate (k - cs.length) '0' ++ cs)
    | cs, k => List.replicate (k - cs.length) '0' ++ cs
  numberToHex_eq := by
    rintro value n _ (⟨cs, _, rfl, hnum⟩ | ⟨_, hnum⟩)
    · exact congrArg (Option.map _) hnum
    · split
      · -- a decimal numeral has no `x`
        rename_i cs
        have hx : Hex.value 'x' = none := by decide
        have hzero : Hex.value '0' = some 0 := by decide
        simp [Hex.number, Hex.numberFrom, hx, hzero] at hnum
      · exact congrArg (Option.map _) hnum
  padLeft_eq _ _ := rfl

theorem codecs_agree_sample :
    ∃ message,
      createMessage plainWeb3 "0xe3D952Ad4B96A756D65790393128FA359a7CD888".toList "42".toList
          "4a298455c1ccb17de77718fc045a876e1b4e063afaad361dcdef142a8ee48d5a".toList
          "0xfA79875FB0828c1FBD438583ED23fF5a956D80a1".toList Message.requiredMessageLength = some message ∧
        (parseMessage message).recipient = "0xe3D952Ad4B96A756D65790393128FA359a7CD888".toList ∧
        Shows (parseMessage message).amount 42 := by
  obtain ⟨message, hmessage, _, _, _, hspells, hrecipient, _⟩ := (codecs_agree plainWeb3).1
    ⟨0xe3D952Ad4B96A756D65790393128FA359a7CD888, 42,
      0x4a298455c1ccb17de77718fc045a876e1b4e063afaad361dcdef142a8ee48d5a,
      0xfA79875FB0828c1FBD438583ED23fF5a956D80a1⟩
    ⟨"0xe3D952Ad4B96A756D65790393128FA359a7CD888".toList, "42".toList,
      "4a298455c1ccb17de77718fc045a876e1b4e063afaad361dcdef142a8ee48d5a".toList,
      "0xfA79875FB0828c1FBD438583ED23fF5a956D80a1".toList⟩
    ⟨by unfold Denotes; decide +kernel, .inr ⟨by decide, by decide +kernel⟩, by unfold Denotes; decide +kernel,
      by unfold Denotes; decide +kernel⟩
  exact ⟨message, hmessage, hrecipient, hspells.amount⟩

end MessageJs
end ThunderBridge
