import ThunderBridge.Contracts.ForeignBridge.State
import ThunderBridge.Contracts.HomeBridge.Collection
import ThunderBridge.Lib.Hex

/-!
# `Validator.CollectedSignatures` — from collected signatures to `executeSignatures`

`processCollectedSignatures` answers a `CollectedSignatures` event. It reads the message, then the
signatures all at once, splits each one when its read completes and pushes the parts onto `v`, `r` and `s`;
the arrays are in the order in which the reads completed. Meanwhile the home chain goes on.

`signatureToVRS` cuts a hexadecimal string and the contract loads words from memory. `signatureToVRS_spec`
says that the two splitters agree; `Gathering` is what the arrays are after any number of reads; and
`relay_completeness` puts it together with the slots of `HomeBridge.Collection` and the loop of
`Message.hasEnoughValidSignatures`.
-/

namespace ThunderBridge

/-! ## Strings of JavaScript -/

/-- A string, all of whose characters are ASCII here. -/
abbrev JsString := List Char

/-- `input.replace(/^0x/, '')`. -/
def strip0x : JsString → JsString
  | '0' :: 'x' :: input => input
  | input => input

def JsString.substr (input : JsString) (start length : Nat) : JsString := (input.drop start).take length

/-- `parseInt(input, 16)`, `none` for `NaN`. A prefix `0x` is skipped; so would be blanks and a sign,
    which no string here has. -/
def parseInt16 (input : JsString) : Option Nat :=
  match strip0x input with
  | [] => none
  | c :: cs => if (Hex.value c).isSome then some (Hex.parseFrom 0 (c :: cs)) else none

/-- What `signatureToVRS` returns; `v` is a number or `NaN`. -/
structure VRS where
  v : Option Nat
  r : JsString
  s : JsString

/-- `signatureToVRS`; `none` when its assertion fails. -/
def signatureToVRS (signature : JsString) : Option VRS := do
  require (signature.length = 2 + 32 * 2 + 32 * 2 + 2)
  let signature := strip0x signature
  pure
    { v := parseInt16 (signature.drop (64 * 2))
      r := '0' :: 'x' :: JsString.substr signature 0 (32 * 2)
      s := '0' :: 'x' :: JsString.substr signature (32 * 2) (32 * 2) }

/-- The coder of `web3`, which is no part of the repository: how `call()` shows a `bytes` result, and how
    `encodeABI()` reads the arguments of `executeSignatures`. -/
structure AbiCoder where
  showBytes : Bytes → JsString
  readUint8 : Option Nat → Option Byte
  readBytes32 : JsString → Option Bytes32
  readBytes : JsString → Option Bytes
  /-- Bytes are shown in hexadecimal, behind `0x`. -/
  showBytes_eq : ∀ b, showBytes b = '0' :: 'x' :: Hex.encode b
  readUint8_toNat : ∀ v : Byte, readUint8 (some v.toNat) = some v
  readBytes32_encode : ∀ b, b.length = 32 →
    readBytes32 ('0' :: 'x' :: Hex.encode b) = some (BitVec.ofNat 256 (Bytes.ofBytes b))
  readBytes_encode : ∀ b, readBytes ('0' :: 'x' :: Hex.encode b) = some b

/-- A coder that reads hexadecimal strings and nothing else. -/
def hexCoder : AbiCoder where
  showBytes b := '0' :: 'x' :: Hex.encode b
  readUint8 v := v.map (BitVec.ofNat 8)
  readBytes32 input := (Hex.decode (strip0x input)).map fun b => BitVec.ofNat 256 (Bytes.ofBytes b)
  readBytes input := Hex.decode (strip0x input)
  showBytes_eq _ := rfl
  readUint8_toNat v := by
    show some (BitVec.ofNat 8 v.toNat) = some v
    rw [BitVec.ofNat_toNat]
    exact congrArg some (BitVec.setWidth_eq v)
  readBytes32_encode b _ := by
    show (Hex.decode (Hex.encode b)).map _ = _
    rw [Hex.decode_encode]
    rfl
  readBytes_encode b := Hex.decode_encode b

/-! ## The two splitters -/

section Splitters

/-- The parts of a signature as `recoverAddressFromSignedMessage` loads them. -/
def loadedV (signature : Bytes) : Byte := (Bytes.mload (Message.memory signature) 0x60).extractLsb' 248 8

def loadedR (signature : Bytes) : Bytes32 := Bytes.mload (Message.memory signature) 0x20

def loadedS (signature : Bytes) : Bytes32 := Bytes.mload (Message.memory signature) 0x40

variable {H : Type} {K : CollisionFree H} {ecrecover : Ecrecover H}

/-- A signature that recovers to somebody has 65 bytes, and its signer is what `ecrecover` makes of the
    loaded parts. -/
theorem recover_eq_some {signature message : Bytes} {a : Address}
    (h : Message.recoverAddressFromSignedMessage K ecrecover signature message = some a) :
    signature.length = 65 ∧ ecrecover (Message.hashMessage K message) (loadedV signature)
      (loadedR signature) (loadedS signature) = a := by
  simp only [Message.recoverAddressFromSignedMessage, Option.bind_eq_bind, Option.bind_eq_some_iff,
    require_eq_some, exists_const, Option.pure_def, Option.some.injEq] at h
  exact h

/-- The first byte of a word that a memory area ends in is the last byte of the area. -/
theorem loadedV_eq {r s : Bytes} {v : Byte} (hr : r.length = 32) (hs : s.length = 32) :
    loadedV (r ++ (s ++ [v])) = v := by
  have hlen : (packWord (BitVec.ofNat 256 (r ++ (s ++ [v])).length) ++ r ++ s).length = 0x60 := by
    rw [List.length_append, List.length_append, length_packWord, hr, hs]
  have hdrop : (Message.memory (r ++ (s ++ [v]))).drop 0x60 = [v] := by
    have hsplit : Message.memory (r ++ (s ++ [v])) =
        (packWord (BitVec.ofNat 256 (r ++ (s ++ [v])).length) ++ r ++ s) ++ [v] := by
      simp only [Message.memory, List.append_assoc]
    rw [hsplit, ← hlen, List.drop_left]
  have hword : ([v] ++ List.replicate 32 0).take 32 = v :: List.replicate 31 0 := rfl
  have hnum : Bytes.ofBytes (v :: List.replicate 31 0) = v.toNat * 256 ^ 31 := by
    have hzero : ∀ n, Bytes.ofBytes (List.replicate n 0) = 0 := by
      intro n
      induction n with
      | zero => rfl
      | succ n ih => rw [List.replicate_succ, Bytes.ofBytes, ih]; simp
    rw [Bytes.ofBytes, hzero, List.length_replicate, Nat.add_zero]
  have hv : v.toNat < 256 := v.isLt
  unfold loadedV Bytes.mload
  rw [hdrop, hword, hnum]
  apply BitVec.eq_of_toNat_eq
  rw [BitVec.extractLsb'_toNat, BitVec.toNat_ofNat, Nat.shiftRight_eq_div_pow]
  have hpow : (256 : Nat) ^ 31 = 2 ^ 248 := by decide
  have hfits : v.toNat * 2 ^ 248 < 2 ^ 256 := by omega
  rw [hpow, Nat.mod_eq_of_lt hfits, Nat.mul_div_cancel _ (by decide), Nat.mod_eq_of_lt hv]

theorem loadedR_eq {r rest : Bytes} (hr : r.length = 32) :
    loadedR (r ++ rest) = BitVec.ofNat 256 (Bytes.ofBytes r) := by
  have hmem : Message.memory (r ++ rest) = packWord (BitVec.ofNat 256 (r ++ rest).length) ++ (r ++ rest) := rfl
  have hload := Bytes.mload_eq hmem hr
  rwa [length_packWord] at hload

theorem loadedS_eq {r s rest : Bytes} (hr : r.length = 32) (hs : s.length = 32) :
    loadedS (r ++ (s ++ rest)) = BitVec.ofNat 256 (Bytes.ofBytes s) := by
  have hmem : Message.memory (r ++ (s ++ rest)) =
      (packWord (BitVec.ofNat 256 (r ++ (s ++ rest)).length) ++ r) ++ (s ++ rest) := by
    rw [Message.memory, List.append_assoc]
  have hload := Bytes.mload_eq hmem hs
  rwa [List.length_append, length_packWord, hr] at hload

/-- **The two splitters agree.** What `signatureToVRS` cuts from a shown signature is read back as the
    parts the contract loads from it. -/
theorem signatureToVRS_spec (coder : AbiCoder) {signature : Bytes} (hlen : signature.length = 65) :
    ∃ vrs, signatureToVRS (coder.showBytes signature) = some vrs ∧
      coder.readUint8 vrs.v = some (loadedV signature) ∧
      coder.readBytes32 vrs.r = some (loadedR signature) ∧
      coder.readBytes32 vrs.s = some (loadedS signature) := by
  obtain ⟨r, s, v, hr, hs, rfl⟩ : ∃ r s : Bytes, ∃ v : Byte, r.length = 32 ∧ s.length = 32 ∧
      signature = r ++ (s ++ [v]) := by
    obtain ⟨v, hv⟩ := List.length_eq_one_iff.mp
      (show ((signature.drop 32).drop 32).length = 1 by rw [List.length_drop, List.length_drop, hlen])
    refine ⟨signature.take 32, (signature.drop 32).take 32, v, ?_, ?_, ?_⟩
    · rw [List.length_take, hlen]; rfl
    · rw [List.length_take, List.length_drop, hlen]; rfl
    · rw [← hv, List.take_append_drop, List.take_append_drop]
  have hshown : coder.showBytes (r ++ (s ++ [v])) =
      '0' :: 'x' :: (Hex.encode r ++ (Hex.encode s ++ Hex.pair v)) := by
    rw [coder.showBytes_eq, Hex.encode_append, Hex.encode_append]
    have hone : Hex.encode [v] = Hex.pair v := List.append_nil _
    rw [hone]
  have hr' : (Hex.encode r).length = 64 := by rw [Hex.length_encode, hr]
  have hs' : (Hex.encode s).length = 64 := by rw [Hex.length_encode, hs]
  have hcut : ((Hex.encode r ++ (Hex.encode s ++ Hex.pair v)).drop 64) = Hex.encode s ++ Hex.pair v := by
    rw [← hr', List.drop_left]
  have hlength : (coder.showBytes (r ++ (s ++ [v]))).length = 2 + 32 * 2 + 32 * 2 + 2 := by
    rw [hshown, List.length_cons, List.length_cons, List.length_append, List.length_append, hr', hs']
    rfl
  refine ⟨_, by rw [signatureToVRS, require_pos hlength]; rfl, ?_, ?_, ?_⟩
  · have hlast : (strip0x (coder.showBytes (r ++ (s ++ [v])))).drop (64 * 2) = Hex.pair v := by
      rw [hshown]
      show (Hex.encode r ++ (Hex.encode s ++ Hex.pair v)).drop (64 + 64) = _
      rw [← List.drop_drop, hcut, ← hs', List.drop_left]
    have hnum : parseInt16 (Hex.pair v) = some v.toNat := by
      have hdigit : (Hex.value (Hex.digit (v.toNat / 16))).isSome = true := by
        rw [Hex.value_digit (Hex.high_lt v)]
        rfl
      have hstrip : strip0x (Hex.pair v) = Hex.pair v := by
        have hlow := Hex.value_digit (Hex.low_lt v)
        unfold strip0x
        split
        · rename_i heq
          rw [Hex.pair, List.cons.injEq, List.cons.injEq] at heq
          have hx : Hex.value 'x' = none := by decide
          rw [heq.2.1, hx] at hlow
          exact absurd hlow.symm (Option.some_ne_none _)
        · rfl
      rw [parseInt16, hstrip]
      show (if (Hex.value (Hex.digit (v.toNat / 16))).isSome then some (Hex.parseFrom 0 (Hex.pair v))
        else none) = _
      rw [if_pos hdigit, Hex.parseFrom_pair]
    rw [hlast, hnum, coder.readUint8_toNat, loadedV_eq hr hs]
  · have hfirst : JsString.substr (strip0x (coder.showBytes (r ++ (s ++ [v])))) 0 (32 * 2) = Hex.encode r := by
      rw [hshown]
      show (Hex.encode r ++ (Hex.encode s ++ Hex.pair v)).take 64 = _
      rw [← hr', List.take_left]
    rw [hfirst, coder.readBytes32_encode r hr, loadedR_eq hr]
  · have hsecond : JsString.substr (strip0x (coder.showBytes (r ++ (s ++ [v])))) (32 * 2) (32 * 2) =
        Hex.encode s := by
      rw [hshown]
      show ((Hex.encode r ++ (Hex.encode s ++ Hex.pair v)).drop 64).take 64 = _
      rw [hcut, ← hs', List.take_left]
    rw [hsecond, coder.readBytes32_encode s hs, loadedS_eq hr hs]

end Splitters

/-! ## The process -/

/-- The variables of `processCollectedSignatures` while the reads of the signatures are under way;
    `pending` are the indexes whose read has not completed. -/
structure Gathering (H : Type) where
  messageHash : H
  message : JsString
  pending : List Nat
  v : List (Option Nat)
  r : List JsString
  s : List JsString

/-- Where the process is with one event. -/
inductive Relayer (H : Type) where
  | notified (authorityResponsibleForRelay : Address) (messageHash : H) (numberOfCollectedSignatures : UInt256)
  /-- Another validator is responsible. -/
  | skipped
  | gathering (g : Gathering H)
  /-- The length of an array or an assertion of `signatureToVRS` failed. -/
  | thrown

namespace Relayer

variable {H W : Type}

/-- Reading the message and launching the reads of the signatures. An array has fewer than `2 ^ 32` slots. -/
def readMessage (coder : AbiCoder) (s : Home H W) (h : H) (n : UInt256) : Relayer H :=
  if n.toNat < 2 ^ 32 then .gathering ⟨h, coder.showBytes (s.message h), List.range n.toNat, [], [], []⟩
  else .thrown

/-- The read of one signature completes. -/
def readSignature (coder : AbiCoder) (K : CollisionFree H) (s : Home H W) (g : Gathering H) (index : Nat) :
    Relayer H :=
  match signatureToVRS (coder.showBytes (s.signature K g.messageHash (BitVec.ofNat 256 index))) with
  | none => .thrown
  | some recover =>
      .gathering { g with
        pending := g.pending.erase index
        v := g.v ++ [recover.v]
        r := g.r ++ [recover.r]
        s := g.s ++ [recover.s] }

/-- What the foreign bridge gets to see of `executeSignatures(v, r, s, message).encodeABI()`. -/
def encodeABI (coder : AbiCoder) (g : Gathering H) :
    Option (List Byte × List Bytes32 × List Bytes32 × Bytes) := do
  let v ← g.v.mapM coder.readUint8
  let r ← g.r.mapM coder.readBytes32
  let s ← g.s.mapM coder.readBytes32
  let message ← coder.readBytes g.message
  pure (v, r, s, message)

variable [DecidableEq H]

/-- A step of the home chain, or of the process of `validator` on it. A read that is refused ends the
    process and is not a step. -/
inductive Step (K : CollisionFree H) (ecrecover : Ecrecover H) (V : HomeVariant) (coder : AbiCoder)
    (validator : Address) : Home H W × Relayer H → Home H W × Relayer H → Prop where
  | chain {s s' : Home H W} {p : Relayer H} (h : Home.StepGrowing K ecrecover V s s') :
      Step K ecrecover V coder validator (s, p) (s', p)
  | notResponsible {s : Home H W} {authority : Address} {h : H} {n : UInt256} (ha : authority ≠ validator) :
      Step K ecrecover V coder validator (s, .notified authority h n) (s, .skipped)
  | message {s : Home H W} {h : H} {n : UInt256} :
      Step K ecrecover V coder validator (s, .notified validator h n) (s, readMessage coder s h n)
  | signature {s : Home H W} {g : Gathering H} {index : Nat} (hi : index ∈ g.pending) :
      Step K ecrecover V coder validator (s, .gathering g) (s, readSignature coder K s g index)

end Relayer

/-! ## What the arrays are -/

section Arrays

variable {H W : Type} [DecidableEq H] {K : CollisionFree H} {ecrecover : Ecrecover H} {V : HomeVariant}
  {coder : AbiCoder} {validator : Address}

/-- The reads of the indexes `finished` completed, in this order, each of the signature in its slot of `s`. -/
structure Gathered (K : CollisionFree H) (coder : AbiCoder) (s : Home H W) (h : H) (n : UInt256)
    (g : Gathering H) (finished : List Nat) : Prop where
  messageHash : g.messageHash = h
  message : coder.readBytes g.message = some (s.message h)
  indexes : (finished ++ g.pending).Perm (List.range n.toNat)
  v : g.v.mapM coder.readUint8 = some (finished.map fun i => loadedV (s.signature K h (BitVec.ofNat 256 i)))
  r : g.r.mapM coder.readBytes32 = some (finished.map fun i => loadedR (s.signature K h (BitVec.ofNat 256 i)))
  s : g.s.mapM coder.readBytes32 = some (finished.map fun i => loadedS (s.signature K h (BitVec.ofNat 256 i)))

/-- What the process can be after the event `(h, n)`. -/
def Relaying (K : CollisionFree H) (coder : AbiCoder) (s : Home H W) (h : H) (n : UInt256) :
    Relayer H → Prop
  | .notified _ h' n' => h' = h ∧ n' = n
  | .skipped => True
  | .gathering g => ∃ finished, Gathered K coder s h n g finished
  | .thrown => 2 ^ 32 ≤ n.toNat

/-- What holds from the event on: `h` is processed, with at least `n` signatures and not without one. -/
structure Announced (s : Home H W) (h : H) (n : UInt256) : Prop where
  processed : isAlreadyProcessed (s.numMessagesSigned h) = true
  enough : n.toNat ≤ signedCount (s.numMessagesSigned h)
  signed : 0 < signedCount (s.numMessagesSigned h)

omit [DecidableEq H] in
theorem Home.collections_of_log {s : Home H W} {tx : Bytes32} {authority : Address} {h : H} {n : UInt256}
    (hm : (tx, HomeEvent.CollectedSignatures authority h n) ∈ s.bridge.log) : (h, n) ∈ s.collections :=
  List.mem_filterMap.mpr ⟨_, hm, rfl⟩

theorem Home.Collecting.announced {s : Home H W} (hs : s.Collecting K ecrecover) {h : H} {n : UInt256}
    (hm : (h, n) ∈ s.collections) : Announced s h n := by
  refine ⟨?_, hs.enough (h, n) hm, hs.signed (h, n) hm⟩
  apply hs.once.mem_iff.mp
  exact List.mem_map.mpr ⟨_, hm, rfl⟩

omit [DecidableEq H] in
/-- A slot below `n` holds the signature of its signer, a validator. -/
theorem Announced.signature {s : Home H W} {h : H} {n : UInt256} {signers : List Address}
    (ha : Announced s h n) (hslots : s.Slots K ecrecover h signers) {i : Nat} (hi : i < n.toNat) :
    ∃ a, signers[i]? = some a ∧ s.validators.isValidator a = true ∧
      Message.recoverAddressFromSignedMessage K ecrecover (s.signature K h (BitVec.ofNat 256 i))
        (s.message h) = some a := by
  have hlt : i < signers.length := by
    rw [← hslots.count]
    exact Nat.lt_of_lt_of_le hi ha.enough
  have hget : signers[i]? = some signers[i] := List.getElem?_eq_getElem hlt
  exact ⟨signers[i], hget, hslots.trusted _ (List.getElem_mem hlt), hslots.slot i _ hget⟩

omit [DecidableEq H] in
/-- The message of an announced digest. -/
theorem Announced.message {s : Home H W} {h : H} {n : UInt256} {signers : List Address}
    (ha : Announced s h n) (hslots : s.Slots K ecrecover h signers) :
    (s.message h).length = 104 ∧ Home.messageHash K (s.message h) = h := by
  apply hslots.hashed
  rintro rfl
  have hpos := ha.signed
  rw [hslots.count] at hpos
  exact Nat.lt_irrefl _ hpos

omit [DecidableEq H] in
/-- One more read. -/
theorem Gathered.readSignature {s : Home H W} {h : H} {n : UInt256} {g : Gathering H} {finished : List Nat}
    (hg : Gathered K coder s h n g finished) {index : Nat} (hi : index ∈ g.pending)
    (hlen : (s.signature K h (BitVec.ofNat 256 index)).length = 65) :
    Relaying K coder s h n (Relayer.readSignature coder K s g index) := by
  obtain ⟨vrs, hvrs, hv, hr, hs⟩ := signatureToVRS_spec coder hlen
  rw [Relayer.readSignature, hg.messageHash, hvrs]
  refine ⟨finished ++ [index], rfl, hg.message, ?_, ?_, ?_, ?_⟩
  · -- the index moves from the pending ones to the end of the finished ones
    show (finished ++ [index] ++ g.pending.erase index).Perm (List.range n.toNat)
    rw [List.append_assoc]
    exact ((List.perm_cons_erase hi).symm.append_left finished).trans hg.indexes
  all_goals
    show List.mapM _ (_ ++ [_]) = _
    rw [List.mapM_append]
    first
      | rw [hg.v, List.mapM_cons, hv]
      | rw [hg.r, List.mapM_cons, hr]
      | rw [hg.s, List.mapM_cons, hs]
    rw [List.map_append]
    rfl

omit [DecidableEq H] in
/-- The chain may go on: an announced digest stays what it is. -/
theorem Relaying.sealed {s s' : Home H W} {h : H} {n : UInt256} {p : Relayer H}
    (hmessage : s'.message h = s.message h) (hsig : ∀ i, s'.signature K h i = s.signature K h i)
    (hp : Relaying K coder s h n p) : Relaying K coder s' h n p := by
  cases p with
  | notified _ _ _ => exact hp
  | skipped => trivial
  | thrown => exact hp
  | gathering g =>
      obtain ⟨finished, hg⟩ := hp
      refine ⟨finished, hg.messageHash, ?_, hg.indexes, ?_, ?_, ?_⟩
      · rw [hmessage]; exact hg.message
      · simp only [hsig]; exact hg.v
      · simp only [hsig]; exact hg.r
      · simp only [hsig]; exact hg.s

/-- The event, the process and the chain it reads from. -/
structure Underway (K : CollisionFree H) (ecrecover : Ecrecover H) (coder : AbiCoder) (h : H) (n : UInt256)
    (x : Home H W × Relayer H) : Prop where
  collecting : x.1.Collecting K ecrecover
  announced : Announced x.1 h n
  relaying : Relaying K coder x.1 h n x.2

/-- **One step**, of the chain or of the process. -/
theorem step_underway {h : H} {n : UInt256} {x y : Home H W × Relayer H}
    (hx : Underway K ecrecover coder h n x) (hstep : Relayer.Step K ecrecover V coder validator x y) :
    Underway K ecrecover coder h n y := by
  obtain ⟨hcoll, hann, hrel⟩ := hx
  cases hstep with
  | chain hchain =>
      obtain ⟨hcoll', hsealed⟩ := Home.step_collecting hchain hcoll
      obtain ⟨hnum, hmessage, hsig⟩ := hsealed h hann.processed
      refine ⟨hcoll', ⟨?_, ?_, ?_⟩, hrel.sealed hmessage hsig⟩
      · rw [hnum]; exact hann.processed
      · rw [hnum]; exact hann.enough
      · rw [hnum]; exact hann.signed
  | notResponsible _ => exact ⟨hcoll, hann, trivial⟩
  | message =>
      obtain ⟨rfl, rfl⟩ := hrel
      refine ⟨hcoll, hann, ?_⟩
      show Relaying K coder _ _ _ (Relayer.readMessage coder _ _ _)
      unfold Relayer.readMessage
      split
      · refine ⟨[], rfl, ?_, List.Perm.refl _, rfl, rfl, rfl⟩
        rw [coder.showBytes_eq, coder.readBytes_encode]
      · rename_i hlarge
        exact Nat.le_of_not_lt hlarge
  | @signature s g index hi =>
      obtain ⟨finished, hg⟩ := hrel
      have hindex : index < n.toNat :=
        List.mem_range.mp (hg.indexes.mem_iff.mp (List.mem_append_right _ hi))
      obtain ⟨signers, hslots⟩ := hcoll.slots h
      obtain ⟨a, _, _, hrec⟩ := hann.signature hslots hindex
      exact ⟨hcoll, hann, hg.readSignature hi (recover_eq_some hrec).1⟩

/-- The signer recovered from slot `i` of the digest `h`. -/
def slotSigner (K : CollisionFree H) (ecrecover : Ecrecover H) (s : Home H W) (h : H) (i : Nat) : Address :=
  ecrecover (Message.hashMessage K (s.message h)) (loadedV (s.signature K h (BitVec.ofNat 256 i)))
    (loadedR (s.signature K h (BitVec.ofNat 256 i))) (loadedS (s.signature K h (BitVec.ofNat 256 i)))

/-- **What is built is accepted**: whatever the order of the reads, the signers recovered from the arrays
    are distinct validators. -/
theorem Underway.accepted {s : Home H W} {h : H} {n : UInt256} {g : Gathering H}
    (hx : Underway K ecrecover coder h n (s, .gathering g)) (hdone : g.pending = [])
    {validatorContract : BridgeValidators} (hsound : validatorContract.Sound)
    (hsame : ∀ a, validatorContract.isValidator a = s.validators.isValidator a)
    (hreq : validatorContract.requiredSignatures.toNat ≤ n.toNat) :
    ∃ v r ss message, Relayer.encodeABI coder g = some (v, r, ss, message) ∧
      Message.hasEnoughValidSignatures K ecrecover message v r ss validatorContract = some () := by
  obtain ⟨hcoll, hann, finished, hg⟩ := hx
  obtain ⟨signers, hslots⟩ := hcoll.slots h
  have hperm : finished.Perm (List.range n.toNat) := by
    have hindexes := hg.indexes
    rwa [hdone, List.append_nil] at hindexes
  have hcount : finished.length = n.toNat := by rw [hperm.length_eq, List.length_range]
  -- the signer recovered from the `i`-th slot
  have hsigner : ∀ i ∈ finished, ∃ a, signers[i]? = some a ∧ s.validators.isValidator a = true ∧
      slotSigner K ecrecover s h i = a := by
    intro i hi
    have hindex : i < n.toNat := List.mem_range.mp (hperm.mem_iff.mp hi)
    obtain ⟨a, hget, hval, hrec⟩ := hann.signature hslots hindex
    exact ⟨a, hget, hval, (recover_eq_some hrec).2⟩
  refine ⟨finished.map fun i => loadedV (s.signature K h (BitVec.ofNat 256 i)),
    finished.map fun i => loadedR (s.signature K h (BitVec.ofNat 256 i)),
    finished.map fun i => loadedS (s.signature K h (BitVec.ofNat 256 i)), s.message h, ?_, ?_⟩
  · simp only [Relayer.encodeABI, hg.v, hg.r, hg.s, hg.message, Option.bind_eq_bind, Option.bind_some]
    rfl
  · rw [Message.hasEnoughValidSignatures_iff hsound, List.length_map, List.length_map, List.length_map, hcount]
    have hrecovered : Message.recoveredSigners ecrecover (Message.hashMessage K (s.message h))
        (finished.map fun i => loadedV (s.signature K h (BitVec.ofNat 256 i)))
        (finished.map fun i => loadedR (s.signature K h (BitVec.ofNat 256 i)))
        (finished.map fun i => loadedS (s.signature K h (BitVec.ofNat 256 i)))
        validatorContract.requiredSignatures.toNat =
        (finished.take validatorContract.requiredSignatures.toNat).map (slotSigner K ecrecover s h) := by
      rw [Message.recoveredSigners, List.zip_map', List.zip_map', ← List.map_take, List.map_map]
      rfl
    rw [hrecovered]
    refine ⟨?_, hreq, hreq, hreq, ?_, ?_⟩
    · exact (hann.message hslots).1
    · apply List.Nodup.map_on
      · intro i hi j hj heq
        obtain ⟨a, hgeti, _, hai⟩ := hsigner i (List.mem_of_mem_take hi)
        obtain ⟨b, hgetj, _, hbj⟩ := hsigner j (List.mem_of_mem_take hj)
        have hab : a = b := by rw [← hai, ← hbj]; exact heq
        have hlt : i < signers.length := (List.getElem?_eq_some_iff.mp hgeti).1
        apply (List.getElem?_inj hlt hslots.distinct).mp
        rw [hgeti, hgetj, hab]
      · exact (hperm.nodup_iff.mpr List.nodup_range).sublist (List.take_sublist _ _)
    · intro a ha
      obtain ⟨i, hi, rfl⟩ := List.mem_map.mp ha
      obtain ⟨a, _, hval, hrec⟩ := hsigner i (List.mem_of_mem_take hi)
      rw [hsame, hrec]
      exact hval

/-- **Relay completeness.** In every run without removals, whatever happens to `requiredSignatures`: each
    digest is announced at most once; an announced digest has its message and a validator's signature in
    each of the announced slots; and however the reads of the process fall between the steps of the home
    chain, and in whatever order they complete, the foreign bridge accepts what the process builds. The
    process fails only if the announced count is no array length. -/
theorem relay_completeness {s₀ s : Home H W} (hfresh : Home.Fresh s₀)
    (hrun : Relation.ReflTransGen (Home.StepGrowing K ecrecover V) s₀ s) :
    (s.collections.map Prod.fst).Nodup ∧
    ∀ tx authority h n, (tx, HomeEvent.CollectedSignatures authority h n) ∈ s.bridge.log →
      (s.message h).length = 104 ∧ Home.messageHash K (s.message h) = h ∧
      (∀ i < n.toNat, ∃ a, s.validators.isValidator a = true ∧
        Message.recoverAddressFromSignedMessage K ecrecover (s.signature K h (BitVec.ofNat 256 i))
          (s.message h) = some a) ∧
      ∀ coder validator s' p, Relation.ReflTransGen (Relayer.Step K ecrecover V coder validator)
          (s, .notified authority h n) (s', p) →
        (p = .thrown → 2 ^ 32 ≤ n.toNat) ∧
        ∀ g validatorContract, p = .gathering g → g.pending = [] →
          Relation.ReflTransGen BridgeValidators.Step BridgeValidators.blank validatorContract →
          (∀ a, validatorContract.isValidator a = s'.validators.isValidator a) →
          validatorContract.requiredSignatures.toNat ≤ n.toNat →
          ∃ v r ss message, Relayer.encodeABI coder g = some (v, r, ss, message) ∧
            Message.hasEnoughValidSignatures K ecrecover message v r ss validatorContract = some () := by
  have hcoll := Home.run_collecting hfresh hrun
  refine ⟨hcoll.once.nodup, ?_⟩
  intro tx authority h n hm
  have hann := hcoll.announced (Home.collections_of_log hm)
  obtain ⟨signers, hslots⟩ := hcoll.slots h
  obtain ⟨hlen, hhash⟩ := hann.message hslots
  refine ⟨hlen, hhash, ?_, ?_⟩
  · intro i hi
    obtain ⟨a, _, hval, hrec⟩ := hann.signature hslots hi
    exact ⟨a, hval, hrec⟩
  · intro coder validator s' p hsteps
    have hstart : Underway K ecrecover coder h n (s, .notified authority h n) := ⟨hcoll, hann, rfl, rfl⟩
    have hend : Underway K ecrecover coder h n (s', p) :=
      Calls.steps_invariant (P := Underway K ecrecover coder h n) (fun _ _ hx hstep => step_underway hx hstep)
        hsteps hstart
    refine ⟨?_, ?_⟩
    · rintro rfl
      exact hend.relaying
    · rintro g validatorContract rfl hdone hvalidators hsame hreq
      have hsound : validatorContract.Sound :=
        Calls.steps_invariant (P := BridgeValidators.Sound)
          (fun _ _ hs hstep => hstep.elim fun _ hop => BridgeValidators.run_sound hop hs) hvalidators
          BridgeValidators.blank_sound
      exact hend.accepted hdone hsound hsame hreq

end Arrays

/-- The variables of a process whose reads are under way. -/
def Relayer.underway {H : Type} : Relayer H → Option (Gathering H)
  | .gathering g => some g
  | _ => none

theorem Relayer.underway_eq_some {H : Type} {p : Relayer H} {g : Gathering H} :
    p.underway = some g ↔ p = .gathering g := by
  cases p <;> simp [underway]

/-- A signature that recovers to `v`. -/
def signatureBy (v : Byte) : Bytes := List.replicate 64 0 ++ [v]

/-- Validators 1 and 2 sign, 2 relays, and the read of the second signature completes first. -/
theorem relay_completeness_two_signers :
    ∃ (s : Home (List Byte) Unit) (h : List Byte) (g : Gathering (List Byte)) (contract : BridgeValidators),
      Relation.ReflTransGen (Home.StepGrowing serialHash Foreign.signerV .ercToErcWithFee)
        (Home.sampleHome ()) s ∧
      Relation.ReflTransGen (Relayer.Step serialHash Foreign.signerV .ercToErcWithFee hexCoder 2)
        (s, .notified 2 h 2) (s, .gathering g) ∧ g.v = [some 2, some 1] ∧
      ∃ v r ss message, Relayer.encodeABI hexCoder g = some (v, r, ss, message) ∧
        Message.hasEnoughValidSignatures serialHash Foreign.signerV message v r ss contract = some () := by
  have heval : (do
      let v ← BridgeValidators.blank.initializeWith 2 [1, 2] 9
      let s ← Home.exec serialHash Foreign.signerV .ercToErcWithFee Home.obliging
        { Home.sampleHome () with validators := v }
        (.submitSignature 1 (signatureBy 1) (Message.encode Foreign.sampleMessage))
      let s ← Home.exec serialHash Foreign.signerV .ercToErcWithFee Home.obliging s
        (.submitSignature 2 (signatureBy 2) (Message.encode Foreign.sampleMessage))
      let h := Home.messageHash serialHash (Message.encode Foreign.sampleMessage)
      let g₀ ← (Relayer.readMessage hexCoder s h 2).underway
      let g₁ ← (Relayer.readSignature hexCoder serialHash s g₀ 1).underway
      let g₂ ← (Relayer.readSignature hexCoder serialHash s g₁ 0).underway
      require (1 ∈ g₀.pending ∧ 0 ∈ g₁.pending ∧ g₂.pending = [] ∧
        s.bridge.log.head? = some (0, .CollectedSignatures 2 h 2) ∧ v.requiredSignatures = 2)
      pure g₂.v) = some [some 2, some 1] := by
    decide +kernel
  simp only [Option.bind_eq_bind, Option.bind_eq_some_iff, require_eq_some, exists_const, Option.pure_def,
    Option.some.injEq, Relayer.underway_eq_some] at heval
  obtain ⟨contract, hv, s₁, h₁, s₂, h₂, g₀, hg₀, g₁, hg₁, g₂, hg₂, ⟨hi₁, hi₀, hdone, hlog, hreq⟩, hv₂⟩ := heval
  have hrun : Relation.ReflTransGen (Home.StepGrowing serialHash Foreign.signerV .ercToErcWithFee)
      (Home.sampleHome ()) s₂ := by
    refine .tail (.tail (.single ⟨.validators ⟨.initializeWith 2 [1, 2] 9, hv⟩, ?_⟩)
      (Home.growing_of_exec Home.obliging_within h₁)) (Home.growing_of_exec Home.obliging_within h₂)
    intro a ha
    rw [BridgeValidators.isValidator_eq] at ha
    exact absurd ha Bool.false_ne_true
  have hsteps : Relation.ReflTransGen
      (Relayer.Step serialHash Foreign.signerV .ercToErcWithFee hexCoder 2)
      (s₂, .notified 2 (Home.messageHash serialHash (Message.encode Foreign.sampleMessage)) 2)
      (s₂, .gathering g₂) := by
    rw [← hg₂]
    refine .tail ?_ (.signature hi₀)
    rw [← hg₁]
    refine .tail ?_ (.signature hi₁)
    rw [← hg₀]
    exact .single .message
  have hevent : (0, HomeEvent.CollectedSignatures 2
      (Home.messageHash serialHash (Message.encode Foreign.sampleMessage)) 2) ∈ s₂.bridge.log :=
    List.mem_of_mem_head? hlog
  have hvalidators : s₂.validators = contract :=
    (Home.exec_validators Home.obliging_within h₂).trans (Home.exec_validators Home.obliging_within h₁)
  obtain ⟨_, hrelay⟩ := relay_completeness (Home.deploy_fresh ..) hrun
  obtain ⟨_, _, _, hbuilt⟩ := hrelay _ _ _ _ hevent
  refine ⟨s₂, _, g₂, contract, hrun, hsteps, hv₂, ?_⟩
  refine (hbuilt hexCoder 2 s₂ _ hsteps).2 g₂ contract rfl hdone
    (.single ⟨.initializeWith 2 [1, 2] 9, hv⟩) ?_ ?_
  · intro a
    rw [hvalidators]
  · rw [hreq]

end ThunderBridge
