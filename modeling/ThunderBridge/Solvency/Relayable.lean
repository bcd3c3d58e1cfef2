import ThunderBridge.Solvency.CrossChain

/-!
# `Solvency.Relayable` — which withdrawals can be paid out

On the home chain a withdrawal is an event; on the foreign chain it is known by the hash of the home transaction
that emitted it, and `relayedMessages` has one flag for each hash. So the second of two withdrawals made in one
transaction finds the flag up. Flags never go down (`StillRelayed`), so it is stranded for ever.

With distinct hashes nothing stands in the way: the token pays while the bridge has enough (`Pays`), and paying
one withdrawal raises no flag but its own. `relayable_iff` puts the two together, for all withdrawals on the log of
a home bridge.
-/

namespace ThunderBridge
namespace Foreign

variable {H W : Type}

/-! ## Flags stay up -/

/-- No hash is ever taken off the relayed ones. -/
def StillRelayed (s s' : Foreign W) : Prop := ∀ t, s.relayedMessages t = true → s'.relayedMessages t = true

theorem StillRelayed.refl (s : Foreign W) : StillRelayed s s := fun _ ht => ht

theorem StillRelayed.trans {s₁ s₂ s₃ : Foreign W} (h : StillRelayed s₁ s₂) (h' : StillRelayed s₂ s₃) :
    StillRelayed s₁ s₃ := fun t ht => h' t (h t ht)

theorem StillRelayed.of_same {s s' : Foreign W} (h : SameRelays s s') : StillRelayed s s' := by
  intro t ht
  rw [relayedMessages, h.relayedMessages]
  exact ht

/-- Callees that leave the flags up. -/
theorem stillRelayed_keeps {out : Foreign W → Foreign W → Prop} (hout : ∀ s s', out s s' → StillRelayed s s') :
    Keeps out StillRelayed where
  refl := StillRelayed.refl
  trans _ _ _ := StillRelayed.trans
  same _ _ := StillRelayed.of_same
  calls := hout

section Calls

variable {K : CollisionFree H} {ecrecover : Ecrecover H} {V : ForeignVariant}
  {allowed : Foreign W → ForeignTx → Prop} {s s' : Foreign W}

theorem invoke_stillRelayed {out : Foreign W → Foreign W → Prop} (hout : ∀ s s', out s s' → StillRelayed s s')
    (h : Invoke K ecrecover V allowed out s s') : StillRelayed s s' := by
  obtain ⟨call, tx, _, hcall, h⟩ := h
  cases tx with
  | setting sender setting =>
      simp only [exec, Option.bind_eq_bind, Option.bind_eq_some_iff, require_eq_some, exists_const] at h
      exact StillRelayed.of_same (applySetting_sameRelays h.2)
  | executeSignatures vs rs ss message =>
      obtain ⟨m, s₁, _, _, _, _, _, hpaid, rfl⟩ := executeSignatures_cases h
      have hcalls : StillRelayed (s.setRelayedMessages m.txHash true) s₁ :=
        onExecuteMessage_keeps (stillRelayed_keeps hout) hcall hpaid
      intro t ht
      apply hcalls t
      show Function.update s.bridge.relayedMessages m.txHash true t = true
      rw [Function.update_apply]
      split
      · rfl
      · exact ht

theorem step_stillRelayed (h : StepWhen K ecrecover V allowed s s') : StillRelayed s s' := by
  cases h with
  | bridge n h =>
      exact Calls.nested_rel (R := StillRelayed) StillRelayed.refl (fun _ _ _ => StillRelayed.trans)
        (fun _ _ he => StillRelayed.of_same (elsewhere_sameRelays he))
        (fun _ hout _ _ h => invoke_stillRelayed hout h) n s s' h
  | validators _ => exact fun _ ht => ht
  | tick now _ => exact fun _ ht => ht
  | elsewhere h => exact StillRelayed.of_same (elsewhere_sameRelays h)

theorem run_stillRelayed (h : Run K ecrecover V s s') : StillRelayed s s' :=
  Calls.steps_rel StillRelayed.refl (fun _ _ _ => StillRelayed.trans) (fun _ _ hstep => step_stillRelayed hstep) h

/-- **Stranded**: whatever happens from now on, nobody can execute the message. -/
def Stranded (K : CollisionFree H) (ecrecover : Ecrecover H) (V : ForeignVariant) (s : Foreign W)
    (message : Bytes) : Prop :=
  ∀ s', Run K ecrecover V s s' → ∀ call vs rs ss, executeSignatures K ecrecover V call s' vs rs ss message = none

/-- A message whose hash is relayed is stranded. -/
theorem stranded_of_relayed {message : Bytes} {m : ParsedMessage} (hm : Message.parseMessage message = some m)
    (h : s.relayedMessages m.txHash = true) : Stranded K ecrecover V s message := by
  intro s' hrun call vs rs ss
  cases hexec : executeSignatures K ecrecover V call s' vs rs ss message with
  | none => rfl
  | some s₂ =>
      obtain ⟨m', _, _, hm', _, _, hfresh, _⟩ := executeSignatures_cases hexec
      obtain rfl : m = m' := Option.some.inj (hm.symm.trans hm')
      rw [run_stillRelayed hrun _ h] at hfresh
      exact absurd hfresh (by decide)

/-- Executing a message raises the flag of its hash. -/
theorem executeSignatures_relayed {call : Callee (Foreign W)} {out : Foreign W → Foreign W → Prop}
    (hout : ∀ s s', out s s' → StillRelayed s s') (hcall : Within out call) {vs : List Byte} {rs ss : List Bytes32}
    {message : Bytes} {m : ParsedMessage} (hm : Message.parseMessage message = some m)
    (h : executeSignatures K ecrecover V call s vs rs ss message = some s') :
    s'.relayedMessages m.txHash = true := by
  obtain ⟨m', s₁, _, hm', _, _, _, hpaid, rfl⟩ := executeSignatures_cases h
  obtain rfl : m = m' := Option.some.inj (hm.symm.trans hm')
  have hcalls : StillRelayed (s.setRelayedMessages m.txHash true) s₁ :=
    onExecuteMessage_keeps (stillRelayed_keeps hout) hcall hpaid
  exact hcalls m.txHash (Function.update_self ..)

end Calls

/-! ## A token that pays -/

section Paying

variable {K : CollisionFree H} {ecrecover : Ecrecover H} {V : ForeignVariant} {T : Erc20 W}
  {call : Callee (Foreign W)} {s : Foreign W}

/-- **The token.** A `transfer` of the bridge goes through whenever the bridge has enough, moves exactly the amount, and
    returns true, or nothing if the token is not standard. -/
def Pays (T : Erc20 W) (call : Callee (Foreign W)) : Prop :=
  ∀ (s : Foreign W) (target : Address) (amount : UInt256), amount.toNat ≤ T.balanceOf s.world s.bridge.self →
    ∃ w data, call (.transfer s.bridge.erc20token target amount) s = some ({ s with world := w }, data) ∧
      (data = packWord 1 ∨ data = []) ∧ T.Moves s.bridge.self target amount s.world w

/-- The contracts that do not limit what they release in a day. -/
theorem onExecuteMessage_of_pays (hV : V ≠ .ercToErc) (hpays : Pays T call) (recipient : Address)
    {amount : UInt256} (henough : amount.toNat ≤ T.balanceOf s.world s.bridge.self) :
    ∃ w, onExecuteMessage V call s recipient amount = some ({ s with world := w }, true) ∧
      T.Moves s.bridge.self recipient amount s.world w := by
  obtain ⟨w, data, hcall, hdata, hmoves⟩ := hpays s recipient amount henough
  refine ⟨w, ?_, hmoves⟩
  have hlow : call.lowLevel (.transfer s.bridge.erc20token recipient amount) s =
      ({ s with world := w }, some data) := by
    rw [Callee.lowLevel, hcall]
  cases V with
  | ercToErc => exact absurd rfl hV
  | ercToErcV2 =>
      simp only [onExecuteMessage, tokenTransfer, hlow, Option.isSome_some, Option.pure_def]
  | ercToErcV3 =>
      have hyes : (Bytes.mload (packWord 1#256) 0 != 0#256) = true := by decide +kernel
      have htransfer : tokenTransferV3 call s recipient amount = some ({ s with world := w }, true) := by
        unfold tokenTransferV3
        rw [hlow]
        rcases hdata with rfl | rfl
        · simp [hyes]
        · rfl
      simp only [onExecuteMessage, onExecuteMessageV3, htransfer, Option.bind_eq_bind, Option.bind_some, if_true,
        Option.pure_def]

/-- **A withdrawal is paid** when its message has enough signatures, its hash was not relayed, and the bridge has
    enough. -/
theorem executeSignatures_of_pays (hV : V ≠ .ercToErc) (hpays : Pays T call) {message : Bytes} {m : ParsedMessage}
    {vs : List Byte} {rs ss : List Bytes32}
    (hsigned : Message.hasEnoughValidSignatures K ecrecover message vs rs ss s.validators = some ())
    (hm : Message.parseMessage message = some m) (haddress : m.contractAddress = s.bridge.self)
    (hpending : s.relayedMessages m.txHash = false)
    (henough : m.amount.toNat ≤ T.balanceOf s.world s.bridge.self) :
    ∃ s', executeSignatures K ecrecover V call s vs rs ss message = some s' ∧ s'.validators = s.validators ∧
      s'.bridge.self = s.bridge.self ∧
      (∀ t, s'.relayedMessages t = if t = m.txHash then true else s.relayedMessages t) ∧
      T.Moves s.bridge.self m.recipient m.amount s.world s'.world := by
  have henough' : m.amount.toNat ≤ T.balanceOf (s.setRelayedMessages m.txHash true).world
      (s.setRelayedMessages m.txHash true).bridge.self := henough
  obtain ⟨w, hpaid, hmoves⟩ := onExecuteMessage_of_pays hV hpays m.recipient henough'
  have hwithin : messageWithinLimits V s m.amount = some true := by
    cases V with
    | ercToErc => exact absurd rfl hV
    | ercToErcV2 | ercToErcV3 => rfl
  let paid : Foreign W := { s.setRelayedMessages m.txHash true with world := w }
  refine ⟨paid.relay vs rs ss message m, ?_, rfl, rfl, ?_, hmoves⟩
  · simp only [executeSignatures, hsigned, hm, hwithin, hpaid, require_pos haddress, require_pos hpending,
      require_pos, Option.bind_eq_bind, Option.bind_some, Option.pure_def]
    rfl
  · intro t
    show Function.update s.bridge.relayedMessages m.txHash true t = _
    exact Function.update_apply ..

end Paying

/-! ## Two withdrawals -/

/-- The signatures collected on a message, as `executeSignatures` takes them. -/
structure SignatureArrays where
  vs : List Byte
  rs : List Bytes32
  ss : List Bytes32

section Withdrawals

variable (K : CollisionFree H) (ecrecover : Ecrecover H) (V : ForeignVariant) (call : Callee (Foreign W))
  (signatures : Bytes → SignatureArrays)

/-- `executeSignatures` with the signatures on the message. -/
def execute (s : Foreign W) (message : Bytes) : Option (Foreign W) :=
  executeSignatures K ecrecover V call s (signatures message).vs (signatures message).rs (signatures message).ss
    message

/-- Both messages can be executed, in this order, and after the first one the second is not stranded. -/
structure ExecutableInTurn (s : Foreign W) (first second : Bytes) : Prop where
  both : ∃ s₁ s₂, execute K ecrecover V call signatures s first = some s₁ ∧
    execute K ecrecover V call signatures s₁ second = some s₂
  free : ∀ s₁, execute K ecrecover V call signatures s first = some s₁ → ¬ Stranded K ecrecover V s₁ second

/-- The message has enough valid signatures. -/
def Signed (s : Foreign W) (message : Bytes) : Prop :=
  Message.hasEnoughValidSignatures K ecrecover message (signatures message).vs (signatures message).rs
    (signatures message).ss s.validators = some ()

variable {K ecrecover V call signatures} {T : Erc20 W} {s : Foreign W} {input : Bytes32 → Bytes}

/-- **Two withdrawals of different transactions** are paid one after the other. -/
theorem executableInTurn_of_ne (hV : V ≠ .ercToErc) (hpays : Pays T call) {r r' : Withdrawal}
    (hsigned : Signed K ecrecover signatures s (processSignatureRequest input s.bridge.self r))
    (hsigned' : Signed K ecrecover signatures s (processSignatureRequest input s.bridge.self r'))
    (hpending : s.relayedMessages r.2.2 = false) (hpending' : s.relayedMessages r'.2.2 = false)
    (henough : amountOf r + amountOf r' ≤ T.balanceOf s.world s.bridge.self) (hne : r.2.2 ≠ r'.2.2) :
    ExecutableInTurn K ecrecover V call signatures s (processSignatureRequest input s.bridge.self r)
      (processSignatureRequest input s.bridge.self r') := by
  obtain ⟨s₁, h₁, hvalidators, hself, hflags, hmoves⟩ := executeSignatures_of_pays hV hpays hsigned
    (parse_processSignatureRequest input s.bridge.self r) rfl hpending (Nat.le_of_add_right_le henough)
  -- the first payment costs the bridge its amount at most, and raises another flag
  have hleft : amountOf r' ≤ T.balanceOf s₁.world s₁.bridge.self := by
    have hpaid : T.balanceOf s₁.world s.bridge.self = T.balanceOf s.world s.bridge.self - amountOf r +
        (if s.bridge.self = (redirect input r).1 then amountOf r else 0) := by
      rw [hmoves.balanceOf s.bridge.self, if_pos rfl]
      rfl
    rw [hself, hpaid]
    omega
  have hfree : s₁.relayedMessages r'.2.2 = false :=
    (hflags r'.2.2).trans ((if_neg hne.symm).trans hpending')
  have hsigned₁ : Signed K ecrecover signatures s₁ (processSignatureRequest input s.bridge.self r') := by
    unfold Signed
    rw [hvalidators]
    exact hsigned'
  obtain ⟨s₂, h₂, _⟩ := executeSignatures_of_pays hV hpays hsigned₁
    (parse_processSignatureRequest input s.bridge.self r') hself.symm hfree hleft
  refine ⟨⟨s₁, s₂, h₁, h₂⟩, ?_⟩
  intro t ht hstranded
  obtain rfl : s₁ = t := Option.some.inj (h₁.symm.trans ht)
  rw [hstranded s₁ .refl] at h₂
  cases h₂

/-- **Of two withdrawals of one transaction** the second is stranded once the first is executed, by anybody. -/
theorem stranded_of_eq {out : Foreign W → Foreign W → Prop} (hout : ∀ s s', out s s' → StillRelayed s s')
    (hcall : Within out call) {r r' : Withdrawal} (heq : r.2.2 = r'.2.2) {s₁ : Foreign W}
    (h : execute K ecrecover V call signatures s (processSignatureRequest input s.bridge.self r) = some s₁) :
    Stranded K ecrecover V s₁ (processSignatureRequest input s.bridge.self r') := by
  apply stranded_of_relayed (parse_processSignatureRequest input s.bridge.self r')
  show s₁.relayedMessages r'.2.2 = true
  rw [← heq]
  exact executeSignatures_relayed hout hcall (parse_processSignatureRequest input s.bridge.self r) h

/-- Two entries of a list are worth no more than the list. -/
theorem tally_pair_le {α : Type*} (amount : α → Nat) : ∀ {xs : List α} {i j : Nat} {x y : α}, i ≠ j →
    xs[i]? = some x → xs[j]? = some y → amount x + amount y ≤ tally amount xs := by
  intro xs
  induction xs with
  | nil => intro i j x y _ hx _; simp at hx
  | cons z xs ih =>
      intro i j x y hij hx hy
      rw [tally_cons]
      have hsingle {k : Nat} {w : α} (hw : xs[k]? = some w) : amount w ≤ tally amount xs :=
        List.single_le_sum (fun _ _ => Nat.zero_le _) _ (List.mem_map_of_mem (List.mem_of_getElem? hw))
      cases i with
      | zero =>
          cases j with
          | zero => exact absurd rfl hij
          | succ j =>
              obtain rfl : z = x := by simpa using hx
              exact Nat.add_le_add_left (hsingle (by simpa using hy)) _
      | succ i =>
          cases j with
          | zero =>
              obtain rfl : z = y := by simpa using hy
              rw [Nat.add_comm]
              exact Nat.add_le_add_left (hsingle (by simpa using hx)) _
          | succ j =>
              have hrest := ih (fun he => hij (congrArg Nat.succ he)) (by simpa using hx) (by simpa using hy)
              exact hrest.trans (Nat.le_add_left _ _)

/-- **Which withdrawals are relayable.** For every run of a home bridge, of any contract and with any callbacks, and
    every foreign bridge of V2 or V3 that has executed none of its withdrawals yet, has enough signatures on each
    of their messages, and holds enough for all: of every two withdrawals both can be executed, in either order, and
    executing the first does not strand the second, if and only if no two withdrawals have the same home
    transaction hash. -/
theorem relayable_iff {W' : Type} [DecidableEq H] {V' : HomeVariant} {home₀ home : Home H W'}
    (_hfresh : home₀.Fresh) (_hrun : Home.Run K ecrecover V' home₀ home) (hV : V ≠ .ercToErc) (hpays : Pays T call)
    (hcall : Within Elsewhere call)
    (hsigned : ∀ r ∈ home.requests, Signed K ecrecover signatures s (processSignatureRequest input s.bridge.self r))
    (hpending : ∀ r ∈ home.requests, s.relayedMessages r.2.2 = false)
    (henough : tally amountOf home.requests ≤ T.balanceOf s.world s.bridge.self) :
    (∀ (i j : Nat) (r r' : Withdrawal), i ≠ j → home.requests[i]? = some r → home.requests[j]? = some r' →
      ExecutableInTurn K ecrecover V call signatures s (processSignatureRequest input s.bridge.self r)
        (processSignatureRequest input s.bridge.self r')) ↔
      (home.requests.map fun r => r.2.2).Nodup := by
  constructor
  · intro hall
    rw [List.nodup_iff_getElem?_ne_getElem?]
    intro i j hij hj heq
    rw [List.length_map] at hj
    obtain ⟨r, hr⟩ : ∃ r, home.requests[i]? = some r := ⟨_, List.getElem?_eq_getElem (hij.trans hj)⟩
    obtain ⟨r', hr'⟩ : ∃ r', home.requests[j]? = some r' := ⟨_, List.getElem?_eq_getElem hj⟩
    rw [List.getElem?_map, List.getElem?_map, hr, hr'] at heq
    have hturn := hall i j r r' (Nat.ne_of_lt hij) hr hr'
    obtain ⟨s₁, _, h₁, _⟩ := hturn.both
    refine hturn.free s₁ h₁ (stranded_of_eq ?_ hcall (Option.some.inj heq) h₁)
    intro t t' he
    exact StillRelayed.of_same (elsewhere_sameRelays he)
  · intro hnd i j r r' hij hr hr'
    have hmem := List.mem_of_getElem? hr
    have hmem' := List.mem_of_getElem? hr'
    refine executableInTurn_of_ne hV hpays (hsigned r hmem) (hsigned r' hmem') (hpending r hmem)
      (hpending r' hmem') ((tally_pair_le amountOf hij hr hr').trans henough) ?_
    intro heq
    have hi : i < (home.requests.map fun r => r.2.2).length := by
      rw [List.length_map]
      exact (List.getElem?_eq_some_iff.mp hr).1
    apply hij
    have hsame : (home.requests.map fun r => r.2.2)[i]? = (home.requests.map fun r => r.2.2)[j]? := by
      rw [List.getElem?_map, List.getElem?_map, hr, hr']
      exact congrArg some heq
    exact (List.getElem?_inj hi hnd).mp hsame

end Withdrawals

/-! ## Two withdrawals to evaluate -/

open Bridges (Ledger ledgerToken)

theorem ledgerToken_pays : Pays Ledger.erc20 ledgerToken := by
  intro s target amount henough
  refine ⟨s.world.move s.bridge.self target amount 99, packWord 1, ?_, .inl rfl, Ledger.move_moves 99 henough⟩
  exact if_pos henough

theorem ledgerToken_elsewhere : Within Elsewhere ledgerToken := by
  intro c s s' data h
  cases c with
  | transfer token target amount =>
      simp only [ledgerToken] at h
      split at h
      · obtain ⟨rfl, _⟩ := Prod.mk.inj (Option.some.inj h)
        exact ⟨_, rfl⟩
      · cases h
  | mint _ _ _ | burn _ _ | minterBurnerMint _ _ _ | minterBurnerBurn _ _ _ | send _ _ =>
      obtain ⟨rfl, _⟩ := Prod.mk.inj (Option.some.inj h)
      exact ⟨s.world, rfl⟩

/-- Validator 1 signed every message. -/
def signedByOne : Bytes → SignatureArrays := fun _ => ⟨[1], [0], [0]⟩

/-- The foreign bridge of validator 1, with 100 tokens. -/
def reserveOf (v : BridgeValidators) : Foreign Ledger := sampleForeign v ⟨fun a => if a = 7 then 100 else 0, []⟩

/-- Account 33 withdraws 60 and account 34 withdraws 40, in two transactions. -/
theorem relayable_iff_two :
    ∃ (home : Home (List Byte) Unit) (v : BridgeValidators), home.requests = [(34, 40, 1), (33, 60, 0)] ∧
      ((∀ (i j : Nat) (r r' : Withdrawal), i ≠ j → home.requests[i]? = some r → home.requests[j]? = some r' →
        ExecutableInTurn serialHash signerV .ercToErcV3 ledgerToken signedByOne (reserveOf v)
          (processSignatureRequest plainInput 7 r) (processSignatureRequest plainInput 7 r')) ↔
        (home.requests.map fun r => r.2.2).Nodup) := by
  have heval : (do
      let home₁ ← Home.exec serialHash signerV .ercToErcWithFee Home.obliging (Home.sampleHome ())
        (.onTokenTransfer 5 33 60)
      let home₂ ← Home.exec serialHash signerV .ercToErcWithFee Home.obliging { home₁ with txHash := 1 }
        (.onTokenTransfer 5 34 40)
      let v ← BridgeValidators.blank.initializeWith 1 [1] 9
      let _ ← Message.hasEnoughValidSignatures serialHash signerV
        (processSignatureRequest plainInput 7 (33, 60, 0)) [1] [0] [0] v
      let _ ← Message.hasEnoughValidSignatures serialHash signerV
        (processSignatureRequest plainInput 7 (34, 40, 1)) [1] [0] [0] v
      pure home₂.requests) = some [(34, 40, 1), (33, 60, 0)] := by
    decide +kernel
  simp only [Option.bind_eq_bind, Option.bind_eq_some_iff, Option.pure_def, Option.some.injEq] at heval
  obtain ⟨home₁, h₁, home₂, h₂, v, hv, _, hfirst, _, hsecond, hrequests⟩ := heval
  have hrun : Home.Run serialHash signerV .ercToErcWithFee (Home.sampleHome ()) home₂ :=
    ((Relation.ReflTransGen.single (Home.step_of_exec trivial Home.obliging_within h₁)).tail
      (.tick home₁.now 1 (BitVec.le_refl _))).tail (Home.step_of_exec trivial Home.obliging_within h₂)
  refine ⟨home₂, v, hrequests, relayable_iff (Home.deploy_fresh ..) hrun (by decide) ledgerToken_pays
    ledgerToken_elsewhere ?_ (fun _ _ => rfl) ?_⟩
  · rw [hrequests]
    intro r hr
    rcases List.mem_cons.mp hr with rfl | hr'
    · exact hsecond
    · rw [List.mem_singleton.mp hr']
      exact hfirst
  · rw [hrequests]
    show tally amountOf [(34, 40, 1), (33, 60, 0)] ≤ 100
    decide

/-- Both withdrawals in one transaction: the bridge pays the first, and the other 40 tokens stay where they are. -/
theorem twin_withdrawal_stranded :
    ∃ (home₀ home : Home (List Byte) Unit) (v : BridgeValidators) (s₁ : Foreign Ledger),
      home₀.Fresh ∧ Home.Run serialHash signerV .ercToErcWithFee home₀ home ∧
      home.requests = [(34, 40, 0), (33, 60, 0)] ∧
      BridgeValidators.blank.initializeWith 1 [1] 9 = some v ∧
      (∀ r ∈ home.requests, Signed serialHash signerV signedByOne (reserveOf v)
        (processSignatureRequest plainInput 7 r)) ∧
      execute serialHash signerV .ercToErcV2 ledgerToken signedByOne (reserveOf v)
        (processSignatureRequest plainInput 7 (33, 60, 0)) = some s₁ ∧
      held Ledger.erc20 s₁ = 40 ∧
      Stranded serialHash signerV .ercToErcV2 s₁ (processSignatureRequest plainInput 7 (34, 40, 0)) := by
  have heval : (do
      let home₁ ← Home.exec serialHash signerV .ercToErcWithFee Home.obliging (Home.sampleHome ())
        (.onTokenTransfer 5 33 60)
      let home₂ ← Home.exec serialHash signerV .ercToErcWithFee Home.obliging home₁ (.onTokenTransfer 5 34 40)
      let v ← BridgeValidators.blank.initializeWith 1 [1] 9
      let _ ← Message.hasEnoughValidSignatures serialHash signerV
        (processSignatureRequest plainInput 7 (33, 60, 0)) [1] [0] [0] v
      let _ ← Message.hasEnoughValidSignatures serialHash signerV
        (processSignatureRequest plainInput 7 (34, 40, 0)) [1] [0] [0] v
      let s₁ ← execute serialHash signerV .ercToErcV2 ledgerToken signedByOne (reserveOf v)
        (processSignatureRequest plainInput 7 (33, 60, 0))
      pure (home₂.requests, held Ledger.erc20 s₁)) = some ([(34, 40, 0), (33, 60, 0)], 40) := by
    decide +kernel
  simp only [Option.bind_eq_bind, Option.bind_eq_some_iff, Option.pure_def, Option.some.injEq,
    Prod.mk.injEq] at heval
  obtain ⟨home₁, h₁, home₂, h₂, v, hv, _, hfirst, _, hsecond, s₁, hs₁, hrequests, hheld⟩ := heval
  have hrun : Home.Run serialHash signerV .ercToErcWithFee (Home.sampleHome ()) home₂ :=
    (Relation.ReflTransGen.single (Home.step_of_exec trivial Home.obliging_within h₁)).tail
      (Home.step_of_exec trivial Home.obliging_within h₂)
  refine ⟨Home.sampleHome (), home₂, v, s₁, Home.deploy_fresh .., hrun, hrequests, hv, ?_, hs₁, hheld, ?_⟩
  · rw [hrequests]
    intro r hr
    rcases List.mem_cons.mp hr with rfl | hr'
    · exact hsecond
    · rw [List.mem_singleton.mp hr']
      exact hfirst
  · have hsame : ((33, 60, 0) : Withdrawal).2.2 = ((34, 40, 0) : Withdrawal).2.2 := rfl
    exact stranded_of_eq (s := reserveOf v) (fun _ _ he => StillRelayed.of_same (elsewhere_sameRelays he))
      ledgerToken_elsewhere hsame hs₁

end Foreign
end ThunderBridge
