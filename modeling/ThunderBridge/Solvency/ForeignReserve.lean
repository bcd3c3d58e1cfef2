import ThunderBridge.Contracts.ForeignBridge.Relay
import ThunderBridge.Contracts.Erc20
import ThunderBridge.Validator.Events

/-!
# `Solvency.ForeignReserve` — what the foreign bridge holds

`ForeignBridgeErcToErcV2` over a token whose transfers move exactly the amount or revert: it holds what was
transferred to it less what it released. `TokenCall` is that assumption about the token, which may call the
bridge back before and after it moves the amount; a release to the bridge itself is one more transfer to it.

Validators outside the set `dishonest` sign only messages in `signable`, and fewer are dishonest than signatures
are required, so only such messages are relayed. `Reserve` is what every call of the bridge keeps.
-/

namespace ThunderBridge
namespace Foreign

variable {H W : Type}

/-- The withdrawal that was released. -/
def Relay.withdrawal (r : Relay) : Withdrawal := (r.parsed.recipient, r.parsed.amount, r.parsed.txHash)

/-- The withdrawals released so far, from the events. -/
def released (s : Foreign W) : List Withdrawal := relayedEvents s.bridge.log

/-! ## The token -/

section Token

variable (T : Erc20 W)

/-- What the bridge holds. -/
def held (s : Foreign W) : Nat := T.balanceOf s.world s.bridge.self

/-- The transfers to the bridge so far. -/
def deposits (s : Foreign W) : List Transfer := T.transfersTo s.world s.bridge.self

/-- **The foreign token.** A `transfer` of the bridge moves exactly the amount. The bridge calls no other
    contract. -/
def TokenCall (out : Foreign W → Foreign W → Prop) : ExtCall → Foreign W → Foreign W → Prop
  | .transfer _ target amount, s, s' =>
      ∃ s₁ w, out s s₁ ∧ T.Moves s₁.bridge.self target amount s₁.world w ∧ out { s₁ with world := w } s'
  | _, s, s' => out s s'

/-- A callee that answers for such a token. -/
def TokenWithin (out : Foreign W → Foreign W → Prop) (call : Callee (Foreign W)) : Prop :=
  ∀ c s s' data, call c s = some (s', data) → TokenCall T out c s s'

/-- Anything outside the two contracts. -/
def TokenElsewhere (s s' : Foreign W) : Prop :=
  ∃ w, s' = { s with world := w } ∧ T.Elsewhere s.bridge.self s.world w

/-- **The calls of the foreign bridge that are made.** No one else can sign for an honest validator. -/
def Admits (K : CollisionFree H) (ecrecover : Ecrecover H) (dishonest : Finset Address) (signable : List Bytes)
    (s : Foreign W) : ForeignTx → Prop
  | .executeSignatures vs rs ss message =>
      dishonest.card < s.validators.requiredSignatures.toNat ∧
        ∀ a ∈ Message.recoveredSigners ecrecover (Message.hashMessage K message) vs rs ss
          s.validators.requiredSignatures.toNat, a ∉ dishonest → message ∈ signable
  | .setting _ _ => True

variable (K : CollisionFree H) (ecrecover : Ecrecover H) (dishonest : Finset Address) (signable : List Bytes)

/-- One call of the bridge. -/
def TokenInvoke (out : Foreign W → Foreign W → Prop) (s s' : Foreign W) : Prop :=
  ∃ call tx, Admits K ecrecover dishonest signable s tx ∧ TokenWithin T out call ∧
    exec K ecrecover .ercToErcV2 call s tx = some s'

/-- A call of the bridge whose callees call it back at most `n` deep. -/
abbrev TokenNested (n : Nat) : Foreign W → Foreign W → Prop :=
  Calls.Nested (TokenInvoke T K ecrecover dishonest signable) (TokenElsewhere T) n

/-- One step of the foreign chain. -/
inductive TokenStep : Foreign W → Foreign W → Prop where
  /-- A call of the bridge succeeds. -/
  | bridge {s s' : Foreign W} (n : Nat) (h : TokenNested T K ecrecover dishonest signable n s s') : TokenStep s s'
  /-- A transaction to the validator contract succeeds. -/
  | validators {s : Foreign W} {v : BridgeValidators} (h : s.validators.Step v) :
      TokenStep s { s with validators := v }
  /-- A later block. -/
  | tick {s : Foreign W} (now : UInt256) (h : s.now ≤ now) : TokenStep s { s with now := now }
  /-- The rest of the chain moves, the token included. -/
  | elsewhere {s s' : Foreign W} (h : TokenElsewhere T s s') : TokenStep s s'

variable {T K ecrecover dishonest signable}

theorem tokenElsewhere_elsewhere {s s' : Foreign W} (h : TokenElsewhere T s s') : Elsewhere s s' := by
  obtain ⟨w, rfl, _⟩ := h
  exact ⟨w, rfl⟩

theorem TokenWithin.within {out out' : Foreign W → Foreign W → Prop} {call : Callee (Foreign W)}
    (h : TokenWithin T out call) (hout : ∀ s s', out s s' → out' s s')
    (henv : ∀ s s', Elsewhere s s' → out' s s')
    (htrans : ∀ s₁ s₂ s₃, out' s₁ s₂ → out' s₂ s₃ → out' s₁ s₃) : Within out' call := by
  intro c s s' data hc
  have hcall := h c s s' data hc
  cases c with
  | transfer token target amount =>
      obtain ⟨s₁, w, hbefore, _, hafter⟩ := hcall
      exact htrans _ _ _ (hout _ _ hbefore) (htrans _ _ _ (henv _ _ ⟨w, rfl⟩) (hout _ _ hafter))
  | mint _ _ _ | burn _ _ | minterBurnerMint _ _ _ | minterBurnerBurn _ _ _ | send _ _ => exact hout _ _ hcall

theorem TokenNested.call {n : Nat} {s s' : Foreign W}
    (h : TokenNested T K ecrecover dishonest signable n s s') :
    Call K ecrecover .ercToErcV2 (Admits K ecrecover dishonest signable) n s s' := by
  refine Calls.nested_mono (fun _ _ => tokenElsewhere_elsewhere) ?_ n s s' h
  rintro out out' hout henv htrans t t' ⟨call, tx, hadmits, hcall, hexec⟩
  exact ⟨call, tx, hadmits, hcall.within hout henv htrans, hexec⟩

/-- Every step over the token is a step of the foreign chain. -/
theorem TokenStep.step {s s' : Foreign W} (h : TokenStep T K ecrecover dishonest signable s s') :
    StepWhen K ecrecover .ercToErcV2 (Admits K ecrecover dishonest signable) s s' := by
  cases h with
  | bridge n h => exact .bridge n h.call
  | validators h => exact .validators h
  | tick now h => exact .tick now h
  | elsewhere h => exact .elsewhere (tokenElsewhere_elsewhere h)

end Token

/-! ## The accounts -/

section Accounts

variable (T : Erc20 W) (signable : List Bytes)

/-- What the bridge keeps: address and validators; holdings, releases and deposits change together; no deposit
    disappears; and what is relayed was signable, as long as the validator contract is sound. -/
structure Reserve (s s' : Foreign W) : Prop where
  self : s'.bridge.self = s.bridge.self
  validators : s'.validators = s.validators
  held : held T s' + tally amountOf s'.released + tally Transfer.amount (deposits T s) =
    held T s + tally amountOf s.released + tally Transfer.amount (deposits T s')
  deposits : deposits T s <:+ deposits T s'
  relayed : s.validators.Sound → ∀ r ∈ s'.bridge.trail, r ∈ s.bridge.trail ∨ r.message ∈ signable

variable {T signable} {out : Foreign W → Foreign W → Prop} {call : Callee (Foreign W)} {s s' : Foreign W}

theorem Reserve.refl (s : Foreign W) : Reserve T signable s s :=
  ⟨rfl, rfl, rfl, List.suffix_refl _, fun _ _ hr => .inl hr⟩

theorem Reserve.trans {s₁ s₂ s₃ : Foreign W} (h : Reserve T signable s₁ s₂) (h' : Reserve T signable s₂ s₃) :
    Reserve T signable s₁ s₃ where
  self := h'.self.trans h.self
  validators := h'.validators.trans h.validators
  held := by
    have hfirst := h.held
    have hsecond := h'.held
    omega
  deposits := h.deposits.trans h'.deposits
  relayed := by
    intro hsound r hr
    rcases h'.relayed (h.validators ▸ hsound) r hr with hr | hr
    · exact h.relayed hsound r hr
    · exact .inr hr

/-- Neither the token nor the relays have changed. -/
theorem Reserve.of_same (h : SameRelays s s') (hworld : s'.world = s.world) : Reserve T signable s s' where
  self := h.self
  validators := h.validators
  held := by
    rw [Foreign.held, Foreign.held, Foreign.deposits, Foreign.deposits, Foreign.released, Foreign.released,
      hworld, h.self, h.events]
  deposits := by
    rw [Foreign.deposits, Foreign.deposits, hworld, h.self]
  relayed := by
    intro _ r hr
    rw [h.trail] at hr
    exact .inl hr

theorem tokenElsewhere_reserve (h : TokenElsewhere T s s') : Reserve T signable s s' := by
  obtain ⟨w, rfl, hw⟩ := h
  refine ⟨rfl, rfl, ?_, hw.suffix, fun _ _ hr => .inl hr⟩
  have hheld := hw.held
  show T.balanceOf w s.bridge.self + _ + tally Transfer.amount (T.transfersTo s.world s.bridge.self) =
    T.balanceOf s.world s.bridge.self + _ + tally Transfer.amount (T.transfersTo w s.bridge.self)
  show _ + tally amountOf s.released + _ = _
  omega

theorem applySetting_world {V : ForeignVariant} {setting : ForeignSetting}
    (h : applySetting V s setting = some s') : s'.world = s.world := by
  obtain ⟨_, _, _, rfl⟩ := applySetting_cases h
  rfl

theorem tokenTransfer_call {recipient : Address} {amount : UInt256}
    (h : tokenTransfer call s recipient amount = (s', true)) :
    ∃ data, call (.transfer s.bridge.erc20token recipient amount) s = some (s', data) := by
  unfold tokenTransfer Callee.lowLevel at h
  cases hc : call (.transfer s.bridge.erc20token recipient amount) s with
  | none =>
      rw [hc] at h
      cases h
  | some p =>
      rw [hc] at h
      obtain ⟨rfl, _⟩ := Prod.mk.inj h
      exact ⟨p.2, rfl⟩

/-- **A release** takes the amount out of the reserve, or deposits it again if it is to the bridge itself. -/
theorem relay_reserve (hout : ∀ s s', out s s' → Reserve T signable s s')
    (hcall : TokenWithin T out call) {m : ParsedMessage} {vs : List Byte} {rs ss : List Bytes32} {message : Bytes}
    (hsigned : s.validators.Sound → message ∈ signable)
    (h : onExecuteMessage .ercToErcV2 call (s.setRelayedMessages m.txHash true) m.recipient m.amount =
      some (s', true)) : Reserve T signable s (s'.relay vs rs ss message m) := by
  obtain ⟨data, hc⟩ := tokenTransfer_call (Option.some.inj h)
  obtain ⟨t, w, hbefore, hmoves, hafter⟩ := hcall _ _ _ _ hc
  -- the token may call the bridge back before it moves the amount, and after
  have hfirst : Reserve T signable s t :=
    (show Reserve T signable s (s.setRelayedMessages m.txHash true) from
      ⟨rfl, rfl, rfl, List.suffix_refl _, fun _ _ hr => .inl hr⟩).trans (hout _ _ hbefore)
  have hlast : Reserve T signable { t with world := w } s' := hout _ _ hafter
  obtain ⟨new, hnew, _⟩ := hmoves.transfersTo t.bridge.self
  constructor
  · exact hlast.self.trans hfirst.self
  · exact hlast.validators.trans hfirst.validators
  · -- what leaves the balance and does not come back as a deposit is the amount
    have hown := hmoves.own
    have hheld := hfirst.held
    have hheld' := hlast.held
    have hreleased : (s'.relay vs rs ss message m).released = (m.recipient, m.amount, m.txHash) :: s'.released :=
      rfl
    rw [hreleased, tally_cons]
    show Foreign.held T s' + (m.amount.toNat + _) + _ = _ + _ + tally Transfer.amount (Foreign.deposits T s')
    change _ + _ + tally Transfer.amount (T.transfersTo w t.bridge.self) =
      T.balanceOf w t.bridge.self + tally amountOf t.released + _ at hheld'
    change Foreign.held T t + _ + _ = _ at hheld
    change _ + _ + tally Transfer.amount (Foreign.deposits T t) = Foreign.held T t + _ at hown
    omega
  · -- a release to the bridge itself is one more deposit
    exact (hfirst.deposits.trans ⟨new, hnew.symm⟩).trans hlast.deposits
  · intro hsound r hr
    rcases List.mem_cons.mp hr with rfl | hr
    · exact .inr (hsigned hsound)
    · rcases hlast.relayed (hfirst.validators ▸ hsound) r hr with hr | hr
      · exact hfirst.relayed hsound r hr
      · exact .inr hr

variable {K : CollisionFree H} {ecrecover : Ecrecover H} {dishonest : Finset Address}

/-- **An accepted message is signable**: one of its distinct signers is honest. -/
theorem signable_of_accepted {vs : List Byte} {rs ss : List Bytes32} {message : Bytes}
    (hadmits : Admits K ecrecover dishonest signable s (.executeSignatures vs rs ss message))
    (henough : Message.hasEnoughValidSignatures K ecrecover message vs rs ss s.validators = some ())
    (hsound : s.validators.Sound) : message ∈ signable := by
  obtain ⟨_, hvs, hrs, hss, hnd, _⟩ := (Message.hasEnoughValidSignatures_iff hsound).mp henough
  have hlen : (Message.recoveredSigners ecrecover (Message.hashMessage K message) vs rs ss
      s.validators.requiredSignatures.toNat).length = s.validators.requiredSignatures.toNat :=
    Message.length_recoveredSigners hvs hrs hss
  obtain ⟨a, ha, hhonest⟩ := exists_notMem_of_card_lt hnd (hlen ▸ hadmits.1)
  exact hadmits.2 a ha hhonest

/-- **One call of the bridge.** -/
theorem tokenInvoke_reserve (hout : ∀ s s', out s s' → Reserve T signable s s')
    (h : TokenInvoke T K ecrecover dishonest signable out s s') : Reserve T signable s s' := by
  obtain ⟨call, tx, hadmits, hcall, h⟩ := h
  cases tx with
  | setting sender setting =>
      simp only [exec, Option.bind_eq_bind, Option.bind_eq_some_iff, require_eq_some, exists_const] at h
      exact Reserve.of_same (applySetting_sameRelays h.2) (applySetting_world h.2)
  | executeSignatures vs rs ss message =>
      obtain ⟨m, s₁, henough, _, _, _, _, hexec, rfl⟩ := executeSignatures_cases h
      exact relay_reserve hout hcall (signable_of_accepted hadmits henough) hexec

/-- **One step of the foreign chain.** -/
theorem tokenStep_reserve (h : TokenStep T K ecrecover dishonest signable s s') :
    (held T s' + tally amountOf s'.released + tally Transfer.amount (deposits T s) =
      held T s + tally amountOf s.released + tally Transfer.amount (deposits T s')) ∧
    s'.bridge.self = s.bridge.self ∧ deposits T s <:+ deposits T s' ∧
    (s.validators.Sound → ∀ r ∈ s'.bridge.trail, r ∈ s.bridge.trail ∨ r.message ∈ signable) := by
  cases h with
  | bridge n h =>
      have hcall : Reserve T signable s s' :=
        Calls.nested_rel (R := Reserve T signable) Reserve.refl (fun _ _ _ => Reserve.trans)
          (fun _ _ => tokenElsewhere_reserve) (fun _ hout _ _ => tokenInvoke_reserve hout) n s s' h
      exact ⟨hcall.held, hcall.self, hcall.deposits, hcall.relayed⟩
  | validators h => exact ⟨rfl, rfl, List.suffix_refl _, fun _ _ hr => .inl hr⟩
  | tick now h => exact ⟨rfl, rfl, List.suffix_refl _, fun _ _ hr => .inl hr⟩
  | elsewhere h =>
      have hworld : Reserve T signable s s' := tokenElsewhere_reserve h
      exact ⟨hworld.held, hworld.self, hworld.deposits, hworld.relayed⟩

end Accounts

end Foreign
end ThunderBridge
