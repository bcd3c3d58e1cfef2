import ThunderBridge.Contracts.BridgeValidators

/-!
# `Contracts.Message` — withdrawal messages and the signatures on them

`libraries/Message.sol`. A message is 104 bytes: recipient, amount, transaction hash and the address of
the bridge that is to pay. `parseMessage` reads it with overlapping 32-byte loads from memory, where a
`bytes` value starts with its length; `hasEnoughValidSignatures` accepts it with three arrays of signature
parts.

`ecrecover` is a parameter: any function of the digest and the three parts. It answers the zero address
for parts that are no signature, which is why `BridgeValidators.Sound` keeps that address out of the set.
-/

namespace ThunderBridge

/-- The precompile `ecrecover`, as a function of a digest and the parts `v`, `r`, `s`. -/
abbrev Ecrecover (H : Type) := H → Byte → Bytes32 → Bytes32 → Address

/-- The bytes of an ASCII string. -/
def ascii (text : String) : Bytes := text.toList.map fun c => BitVec.ofNat 8 c.toNat

/-- What `parseMessage` returns. -/
structure ParsedMessage where
  recipient : Address
  amount : UInt256
  txHash : Bytes32
  contractAddress : Address
deriving DecidableEq, Repr

namespace Message

variable {H : Type}

/-- A `bytes` value in memory: one word with its length, then its bytes. -/
def memory (b : Bytes) : Bytes := packWord (BitVec.ofNat 256 b.length) ++ b

def requiredMessageLength : Nat := 104

def isMessageValid (message : Bytes) : Bool := message.length == requiredMessageLength

/-- The mask `0xFF…FF` of an address, on a word. -/
def addressMask : UInt256 := BitVec.ofNat 256 (2 ^ 160 - 1)

/-- `parseMessage`: each field is the word that *ends* where the field ends. -/
def parseMessage (message : Bytes) : Option ParsedMessage := do
  require (isMessageValid message = true)
  pure
    { recipient := (Bytes.mload (memory message) 20 &&& addressMask).setWidth 160
      amount := Bytes.mload (memory message) 52
      txHash := Bytes.mload (memory message) 84
      -- the high bytes of this load belong to the hash; an `address` has no room for them
      contractAddress := (Bytes.mload (memory message) 104).setWidth 160 }

def hashMessage (K : CollisionFree H) (message : Bytes) : H :=
  K.hash (Chunk.raw (ascii "\x19Ethereum Signed Message:\n" ++ ascii "104" ++ message))

/-- `recoverAddressFromSignedMessage`: the signature is `r`, `s` and one byte `v`. -/
def recoverAddressFromSignedMessage (K : CollisionFree H) (ecrecover : Ecrecover H)
    (signature message : Bytes) : Option Address := do
  require (signature.length = 65)
  let r := Bytes.mload (memory signature) 0x20
  let s := Bytes.mload (memory signature) 0x40
  -- a `bytes1` keeps the first byte of the word it is loaded from
  let v := (Bytes.mload (memory signature) 0x60).extractLsb' 248 8
  pure (ecrecover (hashMessage K message) v r s)

def addressArrayContains : List Address → Address → Bool
  | [], _ => false
  | a :: array, value => if a = value then true else addressArrayContains array value

/-- The loop of `hasEnoughValidSignatures`: `k` rounds left, index `i`. An index past the end of an
    array reverts. -/
def checkSignaturesFrom (ecrecover : Ecrecover H) (hash : H) (vs : List Byte) (rs ss : List Bytes32)
    (validatorContract : BridgeValidators) : Nat → Nat → List Address → Option Unit
  | 0, _, _ => some ()
  | k + 1, i, encounteredAddresses => do
      let v ← vs[i]?
      let r ← rs[i]?
      let s ← ss[i]?
      let recoveredAddress := ecrecover hash v r s
      require (validatorContract.isValidator recoveredAddress = true)
      require (addressArrayContains encounteredAddresses recoveredAddress = false)
      checkSignaturesFrom ecrecover hash vs rs ss validatorContract k (i + 1)
        (encounteredAddresses.set i recoveredAddress)

def hasEnoughValidSignatures (K : CollisionFree H) (ecrecover : Ecrecover H) (message : Bytes)
    (vs : List Byte) (rs ss : List Bytes32) (validatorContract : BridgeValidators) : Option Unit := do
  require (isMessageValid message = true)
  let requiredSignatures := validatorContract.requiredSignatures
  require (requiredSignatures.toNat ≤ vs.length)
  let hash := hashMessage K message
  let encounteredAddresses := List.replicate requiredSignatures.toNat 0
  checkSignaturesFrom ecrecover hash vs rs ss validatorContract requiredSignatures.toNat 0
    encounteredAddresses

/-! ## Laying a message out -/

/-- The 104 bytes of a message: recipient, amount, transaction hash, address of the bridge. -/
def encode (m : ParsedMessage) : Bytes :=
  packAddress m.recipient ++ packWord m.amount ++ packWord m.txHash ++ packAddress m.contractAddress

@[simp] theorem length_encode (m : ParsedMessage) : (encode m).length = 104 := by
  simp [encode]

/-- A load that ends with a 20-byte field keeps the field in its low 160 bits. -/
theorem mload_address (mem pre high post : Bytes) (a : Address)
    (hmem : mem = pre ++ ((high ++ packAddress a) ++ post)) (hhigh : high.length = 12) :
    (Bytes.mload mem pre.length).setWidth 160 = a := by
  have hword : (high ++ packAddress a).length = 32 := by simp [hhigh]
  rw [Bytes.mload_eq hmem hword, Bytes.ofBytes_append, length_packAddress]
  have ha : Bytes.ofBytes (packAddress a) = a.toNat := Bytes.ofBytes_ofWord (n := 20) a
  apply BitVec.eq_of_toNat_eq
  rw [ha, BitVec.toNat_setWidth, BitVec.toNat_ofNat, Nat.mod_mod_of_dvd _ (by decide)]
  have hpow : (256 : Nat) ^ 20 = 2 ^ 160 := by decide
  rw [hpow, Nat.mul_comm, Nat.mul_add_mod, Nat.mod_eq_of_lt a.isLt]

/-- A load of a 32-byte field. -/
theorem mload_word (mem pre post : Bytes) (v : UInt256) (hmem : mem = pre ++ (packWord v ++ post)) :
    Bytes.mload mem pre.length = v := by
  rw [Bytes.mload_eq hmem (length_packWord v), packWord, Bytes.ofBytes_ofWord (n := 32), BitVec.ofNat_toNat]
  exact BitVec.setWidth_eq v

theorem setWidth_and_addressMask (v : UInt256) : (v &&& addressMask).setWidth 160 = v.setWidth 160 := by
  apply BitVec.eq_of_toNat_eq
  have hmask : addressMask.toNat = 2 ^ 160 - 1 := by decide
  rw [BitVec.toNat_setWidth, BitVec.toNat_setWidth, BitVec.toNat_and, hmask,
    Nat.and_two_pow_sub_one_eq_mod, Nat.mod_mod]

/-- **Parsing what was laid out** gives the fields back. -/
theorem parseMessage_encode (m : ParsedMessage) : parseMessage (encode m) = some m := by
  have hvalid : isMessageValid (encode m) = true := by simp [isMessageValid, requiredMessageLength]
  -- a load may start inside the length word or inside the hash
  have hcut : ∀ w rest : Bytes, w.take 20 ++ (w.drop 20 ++ rest) = w ++ rest := by
    intro w rest
    rw [← List.append_assoc, List.take_append_drop]
  have hlayout : encode m = packAddress m.recipient ++ (packWord m.amount ++ (packWord m.txHash ++
      packAddress m.contractAddress)) := by
    simp only [encode, List.append_assoc]
  obtain ⟨len, hlen, hmem⟩ : ∃ len : Bytes, len.length = 32 ∧ memory (encode m) =
      len ++ (packAddress m.recipient ++ (packWord m.amount ++ (packWord m.txHash ++
        packAddress m.contractAddress))) :=
    ⟨packWord (BitVec.ofNat 256 (encode m).length), length_packWord _, congrArg _ hlayout⟩
  have hr := mload_address (memory (encode m)) (len.take 20) (len.drop 20)
    (packWord m.amount ++ (packWord m.txHash ++ packAddress m.contractAddress)) m.recipient
    (by rw [hmem, List.append_assoc, hcut]) (by simp [hlen])
  have ha := mload_word (memory (encode m)) (len ++ packAddress m.recipient)
    (packWord m.txHash ++ packAddress m.contractAddress) m.amount (by rw [hmem, List.append_assoc])
  have ht := mload_word (memory (encode m)) (len ++ (packAddress m.recipient ++ packWord m.amount))
    (packAddress m.contractAddress) m.txHash (by rw [hmem, List.append_assoc, List.append_assoc])
  have hc := mload_address (memory (encode m))
    (len ++ (packAddress m.recipient ++ (packWord m.amount ++ (packWord m.txHash).take 20)))
    ((packWord m.txHash).drop 20) [] m.contractAddress
    (by simp only [hmem, List.append_assoc, hcut, List.append_nil]) (by simp)
  simp only [List.length_append, List.length_take, hlen, length_packAddress, length_packWord] at hr ha ht hc
  simp only [parseMessage, require_pos hvalid, setWidth_and_addressMask, Option.bind_eq_bind,
    Option.bind_some, Option.pure_def, Option.some.injEq]
  have hfields : ∀ p : ParsedMessage, p.recipient = m.recipient → p.amount = m.amount →
      p.txHash = m.txHash → p.contractAddress = m.contractAddress → p = m := by
    rintro ⟨_, _, _, _⟩ rfl rfl rfl rfl
    rfl
  exact hfields _ hr ha ht hc

theorem encode_injective : Function.Injective encode := by
  intro m m' h
  apply Option.some.inj
  rw [← parseMessage_encode m, h, parseMessage_encode]

/-- **Every 104 bytes are a message**: the fields are the four runs of bytes. -/
theorem encode_surjective {b : Bytes} (hlen : b.length = 104) : ∃ m, encode m = b := by
  obtain ⟨r, v, t, c, hr, hv, ht, hc, rfl⟩ : ∃ r v t c : Bytes, r.length = 20 ∧ v.length = 32 ∧
      t.length = 32 ∧ c.length = 20 ∧ b = r ++ v ++ t ++ c := by
    refine ⟨b.take 20, (b.drop 20).take 32, ((b.drop 20).drop 32).take 32, ((b.drop 20).drop 32).drop 32,
      ?_, ?_, ?_, ?_, ?_⟩
    · rw [List.length_take, hlen]; rfl
    · rw [List.length_take, List.length_drop, hlen]; rfl
    · rw [List.length_take, List.length_drop, List.length_drop, hlen]; rfl
    · rw [List.length_drop, List.length_drop, List.length_drop, hlen]
    · simp only [List.append_assoc, List.take_append_drop]
  refine ⟨⟨BitVec.ofNat 160 (Bytes.ofBytes r), BitVec.ofNat 256 (Bytes.ofBytes v),
    BitVec.ofNat 256 (Bytes.ofBytes t), BitVec.ofNat 160 (Bytes.ofBytes c)⟩, ?_⟩
  have hpr : packAddress (BitVec.ofNat 160 (Bytes.ofBytes r)) = r := Bytes.ofWord_ofBytes hr
  have hpv : packWord (BitVec.ofNat 256 (Bytes.ofBytes v)) = v := Bytes.ofWord_ofBytes hv
  have hpt : packWord (BitVec.ofNat 256 (Bytes.ofBytes t)) = t := Bytes.ofWord_ofBytes ht
  have hpc : packAddress (BitVec.ofNat 160 (Bytes.ofBytes c)) = c := Bytes.ofWord_ofBytes hc
  rw [encode, hpr, hpv, hpt, hpc]

/-! ## What the loop accepts -/

/-- The addresses recovered from the first `n` entries of the three arrays. -/
def recoveredSigners (ecrecover : Ecrecover H) (hash : H) (vs : List Byte) (rs ss : List Bytes32)
    (n : Nat) : List Address :=
  ((vs.zip (rs.zip ss)).take n).map fun x => ecrecover hash x.1 x.2.1 x.2.2

theorem addressArrayContains_eq_false {array : List Address} {value : Address} :
    addressArrayContains array value = false ↔ value ∉ array := by
  induction array with
  | nil => simp [addressArrayContains]
  | cons a array ih =>
      unfold addressArrayContains
      by_cases h : a = value
      · simp [h]
      · simp [h, ih, Ne.symm h]

theorem length_recoveredSigners {ecrecover : Ecrecover H} {hash : H} {vs : List Byte}
    {rs ss : List Bytes32} {n : Nat} (hv : n ≤ vs.length) (hr : n ≤ rs.length) (hs : n ≤ ss.length) :
    (recoveredSigners ecrecover hash vs rs ss n).length = n := by
  simp only [recoveredSigners, List.length_map, List.length_take, List.length_zip]
  omega

section Loop

variable (ecrecover : Ecrecover H) (hash : H) (vs : List Byte) (rs ss : List Bytes32)
  (validatorContract : BridgeValidators)

/-- Filling the next free slot of the zeroed array. -/
theorem set_replicate (seen : List Address) (k : Nat) (a : Address) :
    (seen ++ List.replicate (k + 1) 0).set seen.length a = seen ++ [a] ++ List.replicate k 0 := by
  simp [List.replicate_succ]

/-- A round whose index is past the end of one of the arrays reverts. -/
theorem checkSignaturesFrom_short {i : Nat} (hlen : (vs.zip (rs.zip ss)).length ≤ i) (k : Nat)
    (encountered : List Address) :
    checkSignaturesFrom ecrecover hash vs rs ss validatorContract (k + 1) i encountered = none := by
  have hshort : vs.length ≤ i ∨ rs.length ≤ i ∨ ss.length ≤ i := by
    simp only [List.length_zip] at hlen
    omega
  rcases hshort with h | h | h
  · simp [checkSignaturesFrom, List.getElem?_eq_none h]
  · cases hv : vs[i]? <;> simp [checkSignaturesFrom, List.getElem?_eq_none h, hv]
  · cases hv : vs[i]? <;> cases hr : rs[i]? <;>
      simp [checkSignaturesFrom, List.getElem?_eq_none h, hv, hr]

/-- **The loop after some rounds.** With `seen` already recovered, the rest of the loop succeeds exactly
    when the arrays go on far enough and the remaining signers are validators, new and distinct. The
    zeros in the unused slots exclude nobody, since the zero address is no validator. -/
theorem checkSignaturesFrom_iff (hzero : validatorContract.validators 0 = false) :
    ∀ (k : Nat) (seen : List Address),
      checkSignaturesFrom ecrecover hash vs rs ss validatorContract k seen.length
          (seen ++ List.replicate k 0) = some () ↔
        k ≤ ((vs.zip (rs.zip ss)).drop seen.length).length ∧
        (∀ a ∈ (((vs.zip (rs.zip ss)).drop seen.length).take k).map
            (fun x => ecrecover hash x.1 x.2.1 x.2.2),
          validatorContract.isValidator a = true ∧ a ∉ seen) ∧
        ((((vs.zip (rs.zip ss)).drop seen.length).take k).map
            (fun x => ecrecover hash x.1 x.2.1 x.2.2)).Nodup := by
  intro k
  induction k with
  | zero => intro seen; simp [checkSignaturesFrom]
  | succ k ih =>
      intro seen
      by_cases hlt : seen.length < (vs.zip (rs.zip ss)).length
      · -- one more entry: split it off and use the claim for the rounds after it
        obtain ⟨⟨v, r, s⟩, hx⟩ : ∃ x, (vs.zip (rs.zip ss))[seen.length]? = some x :=
          ⟨_, List.getElem?_eq_getElem hlt⟩
        have hdrop : (vs.zip (rs.zip ss)).drop seen.length =
            (v, r, s) :: (vs.zip (rs.zip ss)).drop (seen.length + 1) := by
          rw [List.drop_eq_getElem_cons hlt]
          rw [List.getElem?_eq_getElem hlt, Option.some.injEq] at hx
          rw [hx]
        obtain ⟨hv, hrs⟩ := List.getElem?_zip_eq_some.mp hx
        obtain ⟨hr, hs⟩ := List.getElem?_zip_eq_some.mp hrs
        have hnext := ih (seen ++ [ecrecover hash v r s])
        rw [List.length_append, List.length_singleton] at hnext
        simp only [checkSignaturesFrom, Option.bind_eq_bind, Option.bind_eq_some_iff, hv, hr, hs,
          require_eq_some, exists_const, Option.some.injEq, exists_eq_left',
          addressArrayContains_eq_false, set_replicate, hnext, hdrop, List.length_cons,
          List.take_succ_cons, List.map_cons, List.forall_mem_cons, List.nodup_cons,
          List.mem_append, List.mem_replicate, List.mem_singleton, not_or, Nat.add_le_add_iff_right]
        constructor
        · rintro ⟨hval, ⟨hnew, _⟩, hlen, hall, hnd⟩
          exact ⟨hlen, ⟨⟨hval, hnew⟩, fun a ha => ⟨(hall a ha).1, (hall a ha).2.1⟩⟩,
            fun hmem => (hall _ hmem).2.2 rfl, hnd⟩
        · rintro ⟨hlen, ⟨⟨hval, hnew⟩, hall⟩, hmem, hnd⟩
          refine ⟨hval, ⟨hnew, ?_⟩, hlen,
            fun a ha => ⟨(hall a ha).1, (hall a ha).2, fun he => hmem (he ▸ ha)⟩, hnd⟩
          intro hz
          rw [hz.2, BridgeValidators.isValidator_eq, hzero] at hval
          exact Bool.false_ne_true hval
      · -- one of the arrays is too short, and the loop reads past its end
        have hnone := checkSignaturesFrom_short ecrecover hash vs rs ss validatorContract
          (Nat.not_lt.mp hlt) k (seen ++ List.replicate (k + 1) 0)
        rw [hnone]
        refine ⟨fun h => absurd h (by simp), ?_⟩
        rintro ⟨hlen, _⟩
        rw [List.length_drop] at hlen
        omega

end Loop

/-- **What `hasEnoughValidSignatures` accepts.** -/
theorem hasEnoughValidSignatures_iff {K : CollisionFree H} {ecrecover : Ecrecover H} {message : Bytes}
    {vs : List Byte} {rs ss : List Bytes32} {validatorContract : BridgeValidators}
    (hsound : validatorContract.Sound) :
    hasEnoughValidSignatures K ecrecover message vs rs ss validatorContract = some () ↔
      message.length = 104 ∧
      validatorContract.requiredSignatures.toNat ≤ vs.length ∧
      validatorContract.requiredSignatures.toNat ≤ rs.length ∧
      validatorContract.requiredSignatures.toNat ≤ ss.length ∧
      (recoveredSigners ecrecover (hashMessage K message) vs rs ss
        validatorContract.requiredSignatures.toNat).Nodup ∧
      ∀ a ∈ recoveredSigners ecrecover (hashMessage K message) vs rs ss
        validatorContract.requiredSignatures.toNat, validatorContract.isValidator a = true := by
  have hloop := checkSignaturesFrom_iff ecrecover (hashMessage K message) vs rs ss validatorContract
    hsound.zero_not_validator validatorContract.requiredSignatures.toNat []
  simp only [List.length_nil, List.nil_append, List.drop_zero, List.not_mem_nil, not_false_eq_true,
    and_true, List.length_zip] at hloop
  simp only [hasEnoughValidSignatures, isMessageValid, requiredMessageLength, beq_iff_eq,
    Option.bind_eq_bind, Option.bind_eq_some_iff, require_eq_some, exists_const, hloop, recoveredSigners]
  constructor
  · rintro ⟨hlen, hv, hmin, hval, hnd⟩
    exact ⟨hlen, hv, by omega, by omega, hnd, hval⟩
  · rintro ⟨hlen, hv, hr, hs, hnd, hval⟩
    exact ⟨hlen, hv, by omega, hval, hnd⟩

end Message
end ThunderBridge
