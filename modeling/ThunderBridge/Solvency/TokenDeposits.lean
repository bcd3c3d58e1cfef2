import Mathlib.Data.Multiset.Bind
import ThunderBridge.Contracts.BridgeToken
import ThunderBridge.Contracts.HomeBridge.Inner
import ThunderBridge.Solvency.HomeSupply

/-!
# `Solvency.TokenDeposits` — what the bridge is sent, and what it hears of it

A credit of the bridge is worth something on the other chain only if the bridge was told: `onTokenTransfer` takes
the fee, burns or keeps the rest, and requests it. `transfer` and `transferAndCall` tell it and revert when it
refuses; `transferFrom` and `mint` do not tell it.

`Handled` holds of every call of the token and of the bridge, however deep they call each other: as much was
credited by the functions with the hook as the bridge was told of, whatever it was told of moved on in the token and
is requested, and the movements of the token explain every balance. `no_silent_deposit_iff` says what this leaves:
nothing was lost exactly when nothing was credited without the hook.
-/

namespace ThunderBridge

/-- The functions with the hook. -/
def Entry.hooked : Entry → Bool
  | .transfer | .transferAndCall => true
  | .transferFrom | .mint => false

theorem Entry.movement_of_hooked {entry : Entry} (h : entry.hooked = true) (source target : Address)
    (value : UInt256) : entry.movement source target value = .move source target value := by
  cases entry with
  | transfer | transferAndCall => rfl
  | transferFrom | mint => exact absurd h (by decide)

/-- What a credit comes to: its source and its value. -/
def Credit.amount (c : Credit) : Address × UInt256 := (c.source, c.value)

/-- What the bridge is told. -/
def Notice.amount (n : Notice) : Address × UInt256 := (n.source, n.value)

/-- What a call credits: the function, the source, the target and the value. -/
def TokenTx.creditOf : TokenTx → Option (Entry × Address × Address × UInt256)
  | .transfer sender target value => some (.transfer, sender, target, value)
  | .transferAndCall sender target value _ => some (.transferAndCall, sender, target, value)
  | .transferFrom _ source target value => some (.transferFrom, source, target, value)
  | .mint _ target amount => some (.mint, 0, target, amount)
  | _ => none

namespace TokenCode

variable {H B W : Type}

/-! ## What becomes of a credit -/

/-- One `onTokenTransfer` of the bridge: what arrived, who received fees then, how it was divided, what was to burn
    the rest if not the token itself, and the transaction. -/
structure Handling where
  source : Address
  value : UInt256
  feeReceiver : Address
  fee : UInt256
  rest : UInt256
  burner : Address
  transactionHash : Bytes32

/-- A call of `burn` of the contract `burner` burns the token, if that is its `MinterBurnerProxy`. -/
def burnedBy (T : TokenCode B W) (burner who : Address) (value : UInt256) : Movement :=
  if T.burnsThrough burner then .burn who value else .entrusted burner who value

namespace Handling

def notice (h : Handling) : Notice := ⟨h.source, h.value, h.feeReceiver⟩

def amount (h : Handling) : Address × UInt256 := (h.source, h.value)

/-- The request it left. -/
def request (h : Handling) : Withdrawal := (h.source, h.rest, h.transactionHash)

/-- The fee and the rest are what arrived. -/
def Divided (h : Handling) : Prop := h.rest.toNat + h.fee.toNat = h.value.toNat

/-- How it arrived. -/
def arrival (bridge : Address) (h : Handling) : Movement := .move h.source bridge h.value

/-- The fee goes to its receiver. -/
def feePaid (bridge : Address) (h : Handling) : Multiset Movement :=
  if h.fee = 0 then 0 else {.move bridge h.feeReceiver h.fee}

/-- The rest is burned, or it stays in the bridge. -/
def released (T : TokenCode B W) (V : HomeVariant) (bridge : Address) (h : Handling) : Multiset Movement :=
  match V with
  | .ercToErc | .ercToErcWithFee | .nativeToErcWithFee => {.burn bridge h.rest}
  | .ercToErcWithFeeV2 => {T.burnedBy h.burner bridge h.rest}
  | .erc677ToErc677WithFee => 0

/-- How it departed. -/
def departures (T : TokenCode B W) (V : HomeVariant) (bridge : Address) (h : Handling) : Multiset Movement :=
  h.feePaid bridge + h.released T V bridge

end Handling

/-- The credits of the bridge so far. -/
def credited (s : TokenHome H B W) : Multiset (Address × UInt256) := (s.world.credits.map Credit.amount : List _)

/-- Those by a function with the hook. -/
def hooked (s : TokenHome H B W) : Multiset (Address × UInt256) :=
  ((s.world.credits.filter fun c => c.entry.hooked).map Credit.amount : List _)

/-- What the bridge was told of. -/
def told (s : TokenHome H B W) : Multiset Notice := s.world.notices

variable (T : TokenCode B W) (V : HomeVariant)

/-- What the bridge was told of between two states, and what the token moved. The movements explain the balances.
    What the bridge was told of arrived among them, departed among them (and so did `extra`), and is requested. -/
structure Passed (extra : Multiset Movement) (hs : Multiset Handling) (made : List Movement)
    (s s' : TokenHome H B W) : Prop where
  movements : s'.world.movements = made ++ s.world.movements
  explains : T.base.accounts.Explains made s.world.token.base s'.world.token.base
  told : told s' = hs.map Handling.notice + told s
  divided : ∀ h ∈ hs, h.Divided
  arrived : hs.map (Handling.arrival s.bridge.self) ≤ made
  departed : hs.bind (Handling.departures T V s.bridge.self) + extra ≤ made
  requested : hs.map Handling.request + (s.requests : Multiset Withdrawal) ≤ s'.requests

/-- **As much was credited with the hook as the bridge was told of**, and that was passed on. -/
structure Handled (extra : Multiset Movement) (s s' : TokenHome H B W) : Prop where
  passed : ∃ hs made, Passed T V extra hs made s s' ∧ hooked s' = hs.map Handling.amount + hooked s
  self : s'.bridge.self = s.bridge.self
  erc677token : s'.bridge.erc677token = s.bridge.erc677token
  credits : s.world.credits <:+ s'.world.credits
  noticed : s.world.notices <:+ s'.world.notices

variable {T V} {extra extra' : Multiset Movement} {made : List Movement} {s s' : TokenHome H B W}

theorem requests_suffix (h : s.bridge.log <:+ s'.bridge.log) : s.requests <:+ s'.requests := h.filterMap _

/-- The bridge was told of nothing. -/
theorem handled_of_made (hmovements : s'.world.movements = made ++ s.world.movements)
    (hexplains : T.base.accounts.Explains made s.world.token.base s'.world.token.base) (hextra : extra ≤ made)
    (hhooked : hooked s' = hooked s) (hcredits : s.world.credits <:+ s'.world.credits)
    (hnotices : s'.world.notices = s.world.notices) (hself : s'.bridge.self = s.bridge.self)
    (htoken : s'.bridge.erc677token = s.bridge.erc677token) (hlog : s.bridge.log <:+ s'.bridge.log) :
    Handled T V extra s s' := by
  refine ⟨⟨0, made, ⟨hmovements, hexplains, ?_, ?_, ?_, ?_, ?_⟩, ?_⟩, hself, htoken, hcredits, ?_⟩
  · rw [told, hnotices, Multiset.map_zero, zero_add, told]
  · exact fun h hh => absurd hh (Multiset.notMem_zero h)
  · rw [Multiset.map_zero]
    exact Multiset.zero_le _
  · rw [Multiset.zero_bind, zero_add]
    exact hextra
  · rw [Multiset.map_zero, zero_add]
    exact Multiset.coe_le.mpr (requests_suffix hlog).sublist.subperm
  · rw [Multiset.map_zero, zero_add, hhooked]
  · rw [hnotices]

/-- Nothing was credited, nothing moved, and the bridge was told of nothing. -/
theorem handled_of_same (hmovements : s'.world.movements = s.world.movements)
    (hbase : s'.world.token.base = s.world.token.base) (hcredits : s'.world.credits = s.world.credits)
    (hnotices : s'.world.notices = s.world.notices) (hself : s'.bridge.self = s.bridge.self)
    (htoken : s'.bridge.erc677token = s.bridge.erc677token) (hlog : s.bridge.log <:+ s'.bridge.log) :
    Handled T V 0 s s' := by
  have hmade : s'.world.movements = [] ++ s.world.movements := hmovements
  refine handled_of_made hmade ?_ (Multiset.zero_le _) ?_ ?_ hnotices hself htoken hlog
  · rw [hbase]
    exact .refl _
  · rw [hooked, hcredits, hooked]
  · rw [hcredits]

theorem Handled.trans {s₁ s₂ s₃ : TokenHome H B W} (h : Handled T V extra s₁ s₂)
    (h' : Handled T V extra' s₂ s₃) : Handled T V (extra + extra') s₁ s₃ := by
  obtain ⟨hs, made, hpassed, hhooked⟩ := h.passed
  obtain ⟨hs', made', hpassed', hhooked'⟩ := h'.passed
  refine ⟨⟨hs' + hs, made' ++ made, ⟨?_, hpassed.explains.trans hpassed'.explains, ?_, ?_, ?_, ?_, ?_⟩, ?_⟩,
    h'.self.trans h.self, h'.erc677token.trans h.erc677token, h.credits.trans h'.credits,
    h.noticed.trans h'.noticed⟩
  · rw [hpassed'.movements, hpassed.movements, List.append_assoc]
  · rw [hpassed'.told, hpassed.told, Multiset.map_add, add_assoc]
  · intro x hx
    rcases Multiset.mem_add.mp hx with hx | hx
    · exact hpassed'.divided x hx
    · exact hpassed.divided x hx
  · rw [Multiset.map_add, ← Multiset.coe_add]
    refine add_le_add ?_ hpassed.arrived
    rw [← h.self]
    exact hpassed'.arrived
  · have hthen := hpassed'.departed
    rw [h.self] at hthen
    rw [Multiset.add_bind, ← Multiset.coe_add]
    calc hs'.bind _ + hs.bind _ + (extra + extra')
        = hs'.bind (Handling.departures T V s₁.bridge.self) + extra' +
          (hs.bind (Handling.departures T V s₁.bridge.self) + extra) := by
          rw [add_comm extra extra', add_add_add_comm]
      _ ≤ _ := add_le_add hthen hpassed.departed
  · rw [Multiset.map_add, add_assoc]
    exact le_trans (add_le_add_right hpassed.requested _) hpassed'.requested
  · rw [hhooked', hhooked, Multiset.map_add, add_assoc]

/-- Fewer movements are claimed. -/
theorem Handled.weaken (h : Handled T V extra s s') : Handled T V 0 s s' := by
  obtain ⟨hs, made, hpassed, hhooked⟩ := h.passed
  refine ⟨⟨hs, made, { hpassed with departed := ?_ }, hhooked⟩, h.self, h.erc677token, h.credits, h.noticed⟩
  rw [add_zero]
  exact le_trans (Multiset.le_add_right _ extra) hpassed.departed

theorem handled_chains : Home.Chains (Handled T V 0 (H := H)) where
  refl _ := handled_of_same rfl rfl rfl rfl rfl rfl (List.suffix_refl _)
  trans _ _ _ h h' := (h.trans h').weaken

theorem handled_of_inner (h : Home.Inner s s') : Handled T V 0 s s' :=
  handled_of_same (by rw [h.world]) (by rw [h.world]) (by rw [h.world]) (by rw [h.world]) h.self h.erc677token h.log

/-- What follows without a movement of its own. -/
theorem Handled.then {s₁ s₂ s₃ : TokenHome H B W} (h : Handled T V extra s₁ s₂) (h' : Handled T V 0 s₂ s₃) :
    Handled T V extra s₁ s₃ := by
  simpa only [add_zero] using h.trans h'

/-! ## Crediting -/

section Crediting

variable {entry : Entry} {source sender target : Address} {value : UInt256}

/-- A credit that is to be recorded. -/
def Counts (T : TokenCode B W) (s : TokenHome H B W) (target : Address) (value : UInt256) : Prop :=
  target = s.bridge.self ∧ T.isBridge s.world.token target ∧ value ≠ 0

/-- Nothing has happened to the bridge yet but the credit. -/
structure Credited (T : TokenCode B W) (entry : Entry) (source target : Address) (value : UInt256)
    (s s' : TokenHome H B W) : Prop where
  bridge : s'.bridge = s.bridge
  movements : s'.world.movements = entry.movement source target value :: s.world.movements
  explains : T.base.accounts.Explains [entry.movement source target value] s.world.token.base s'.world.token.base
  notices : s'.world.notices = s.world.notices
  registered : ∀ a, T.isBridge s'.world.token a ↔ T.isBridge s.world.token a
  recorded : Counts T s target value → s'.world.credits = ⟨entry, source, value⟩ :: s.world.credits
  ignored : ¬ Counts T s target value → s'.world.credits = s.world.credits

theorem isBridge_setBase (b : B) (m : Movement) (a : Address) :
    T.isBridge (moved (setBase s b) m).world.token a ↔ T.isBridge s.world.token a := by
  unfold isBridge
  split <;> rfl

theorem credit_credited {b : B}
    (hexplains : T.base.accounts.Explains [entry.movement source target value] s.world.token.base b) :
    Credited T entry source target value s
      (T.credit (moved (setBase s b) (entry.movement source target value)) entry source target value) := by
  have hcounts : (target = (moved (setBase s b) (entry.movement source target value)).bridge.self ∧
      T.isBridge (moved (setBase s b) (entry.movement source target value)).world.token target ∧ value ≠ 0) ↔
        Counts T s target value := by
    rw [isBridge_setBase]
    rfl
  unfold credit
  by_cases h : Counts T s target value
  · rw [if_pos (hcounts.mpr h)]
    exact ⟨rfl, rfl, hexplains, rfl, isBridge_setBase b (entry.movement source target value), fun _ => rfl,
      fun hnot => absurd h hnot⟩
  · rw [if_neg fun hc => h (hcounts.mp hc)]
    exact ⟨rfl, rfl, hexplains, rfl, isBridge_setBase b (entry.movement source target value),
      fun hc => absurd hc h, fun _ => rfl⟩

theorem superTransfer_credited (hbase : T.base.Lawful) (hentry : entry.hooked = true)
    (h : T.superTransfer s entry sender target value = some s') : Credited T entry sender target value s s' := by
  simp only [superTransfer, Option.bind_eq_bind, Option.bind_eq_some_iff, Option.pure_def,
    Option.some.injEq] at h
  obtain ⟨b, hb, rfl⟩ := h
  rw [← Entry.movement_of_hooked hentry]
  apply credit_credited
  rw [Entry.movement_of_hooked hentry]
  exact hbase.transfer _ _ _ _ _ hb

/-- What `fundReceiver` leaves as it is. -/
structure Funded (s s' : TokenHome H B W) : Prop where
  bridge : s'.bridge = s.bridge
  movements : s'.world.movements = s.world.movements
  notices : s'.world.notices = s.world.notices
  credits : s'.world.credits = s.world.credits
  hasCode : s'.world.hasCode = s.world.hasCode
  base : s'.world.token.base = s.world.token.base
  bridgeContract : s'.world.token.bridgeContract = s.world.token.bridgeContract
  validBridgeContract : s'.world.token.validBridgeContract = s.world.token.validBridgeContract

theorem resetFundingPeriod_funded (s : TokenHome H B W) : Funded s (resetFundingPeriod s) := by
  unfold resetFundingPeriod
  dsimp only
  split <;> exact ⟨rfl, rfl, rfl, rfl, rfl, rfl, rfl, rfl⟩

theorem fundReceiver_funded (T : TokenCode B W) (s : TokenHome H B W) (target : Address) :
    Funded s (T.fundReceiver s target) := by
  have hreset := resetFundingPeriod_funded s
  unfold fundReceiver
  generalize resetFundingPeriod s = t at hreset
  dsimp only
  split
  · cases T.send t.world.coins target t.world.token.fundingRules.amount with
    | some coins =>
        exact ⟨hreset.bridge, hreset.movements, hreset.notices, hreset.credits, hreset.hasCode, hreset.base,
          hreset.bridgeContract, hreset.validBridgeContract⟩
    | none => exact hreset
  · exact hreset

theorem Funded.isBridge (h : Funded s s') (a : Address) :
    T.isBridge s'.world.token a ↔ T.isBridge s.world.token a := by
  unfold TokenCode.isBridge
  rw [h.bridgeContract, h.validBridgeContract]

theorem Credited.funded {s₁ s₂ : TokenHome H B W} (h : Credited T entry source target value s s₁)
    (h' : Funded s₁ s₂) : Credited T entry source target value s s₂ where
  bridge := h'.bridge.trans h.bridge
  movements := h'.movements.trans h.movements
  explains := by
    rw [h'.base]
    exact h.explains
  notices := h'.notices.trans h.notices
  registered a := (h'.isBridge a).trans (h.registered a)
  recorded hc := h'.credits.trans (h.recorded hc)
  ignored hc := h'.credits.trans (h.ignored hc)

theorem Funded.credited {s₁ s₂ : TokenHome H B W} (h : Funded s s₁)
    (h' : Credited T entry source target value s₁ s₂) : Credited T entry source target value s s₂ := by
  have hcounts : Counts T s₁ target value ↔ Counts T s target value := by
    unfold Counts
    rw [h.bridge, h.isBridge]
  refine ⟨h'.bridge.trans h.bridge, ?_, ?_, h'.notices.trans h.notices, ?_, ?_, ?_⟩
  · rw [h'.movements, h.movements]
  · rw [← h.base]
    exact h'.explains
  · exact fun a => (h'.registered a).trans (h.isBridge a)
  · intro hc
    rw [h'.recorded (hcounts.mpr hc), h.credits]
  · intro hc
    rw [h'.ignored fun hc' => hc (hcounts.mp hc'), h.credits]

theorem Credited.emit {s₁ : TokenHome H B W} (h : Credited T entry source target value s s₁) (e : TokenEvent) :
    Credited T entry source target value s (emit s₁ e) :=
  ⟨h.bridge, h.movements, h.explains, h.notices, h.registered, h.recorded, h.ignored⟩

/-- A credit without the hook is not among those with it, nor is one that is not recorded. -/
theorem Credited.untold_handled (h : Credited T entry source target value s s')
    (hnot : entry.hooked = false ∨ ¬ Counts T s target value) :
    Handled T V {entry.movement source target value} s s' := by
  have hhooked : hooked s' = hooked s ∧ s.world.credits <:+ s'.world.credits := by
    by_cases hc : Counts T s target value
    · have hentry := hnot.resolve_right fun hnc => hnc hc
      rw [hooked, h.recorded hc, List.filter_cons_of_neg (by simp [hentry]), hooked]
      exact ⟨rfl, List.suffix_cons _ _⟩
    · rw [hooked, h.ignored hc, hooked]
      exact ⟨rfl, List.suffix_refl _⟩
  have hmade : s'.world.movements = [entry.movement source target value] ++ s.world.movements := h.movements
  exact handled_of_made hmade h.explains (Multiset.coe_singleton _).ge hhooked.1 hhooked.2 h.notices
    (by rw [h.bridge]) (by rw [h.bridge]) (by rw [h.bridge])

end Crediting

/-! ## The hook -/

section Hook

variable {entry : Entry} {sender target : Address} {value : UInt256} {data : Bytes} {hook : Hook H B W}
  {outside : Outside (TokenHome H B W)}

/-- A hook that passes on whatever it accepts. -/
def Serves (T : TokenCode B W) (V : HomeVariant) (hook : Hook H B W) : Prop :=
  ∀ s source value s', hook s source value = some s' → ∃ (h : Handling) (u : TokenHome H B W),
    h.Divided ∧ h.notice = ⟨source, value, s.bridge.fees.feeReceiver⟩ ∧
      Handled T V (h.departures T V s.bridge.self) s u ∧
      s' = u.emit (.UserRequestForSignature source h.rest) ∧ h.transactionHash = u.txHash

/-- Contracts that do to the chain what `out` allows. -/
structure OutsideWithin (out : TokenHome H B W → TokenHome H B W → Prop) (outside : Outside (TokenHome H B W)) :
    Prop where
  call : Home.Within out outside.call
  onTokenTransfer : ∀ target sender value data s s',
    outside.onTokenTransfer target sender value data s = some s' → out s s'

theorem notice_pos (h : T.isBridge s.world.token s.bridge.self) (hvalue : value ≠ 0) :
    T.notice s s' sender value = { s' with world := { s'.world with
      notices := ⟨sender, value, s.bridge.fees.feeReceiver⟩ :: s'.world.notices } } :=
  if_pos ⟨h, hvalue⟩

theorem notice_neg (h : ¬ (T.isBridge s.world.token s.bridge.self ∧ value ≠ 0)) :
    T.notice s s' sender value = s' :=
  if_neg h

/-- **A credit that the bridge hears of** is passed on. -/
theorem Credited.served {s₁ u : TokenHome H B W} {h : Handling}
    (hcredit : Credited T entry sender target value s s₁) (hentry : entry.hooked = true)
    (htarget : target = s.bridge.self) (hdivided : h.Divided)
    (hnotice : h.notice = ⟨sender, value, s₁.bridge.fees.feeReceiver⟩)
    (hbetween : Handled T V (h.departures T V s₁.bridge.self) s₁ u) (hhash : h.transactionHash = u.txHash) :
    Handled T V {.move sender target value} s
      (T.notice s₁ (u.emit (.UserRequestForSignature sender h.rest)) sender value) := by
  obtain ⟨hsource, hvalue, _⟩ := Notice.mk.inj hnotice
  have hmovement := Entry.movement_of_hooked hentry sender target value
  by_cases hc : Counts T s target value
  · obtain ⟨hs, made, hpassed, hhooked⟩ := hbetween.passed
    have hbridge : T.isBridge s₁.world.token s₁.bridge.self := by
      rw [hcredit.bridge, hcredit.registered, ← htarget]
      exact hc.2.1
    have hself : s₁.bridge.self = s.bridge.self := by rw [hcredit.bridge]
    have hmade := hpassed.movements
    rw [hcredit.movements, hmovement, ← List.singleton_append, ← List.append_assoc] at hmade
    have hexplains := hcredit.explains
    rw [hmovement] at hexplains
    have hdeparted := hpassed.departed
    have harrived := hpassed.arrived
    rw [hself] at hdeparted harrived
    rw [notice_pos hbridge hc.2.2]
    refine ⟨⟨h ::ₘ hs, made ++ [Movement.move sender target value], ⟨hmade, hexplains.trans hpassed.explains, ?_,
      ?_, ?_, ?_, ?_⟩, ?_⟩, ?_, ?_, ?_, ?_⟩
    · show ((⟨sender, value, s₁.bridge.fees.feeReceiver⟩ :: u.world.notices : List _) : Multiset Notice) = _
      rw [← Multiset.cons_coe, Multiset.map_cons, Multiset.cons_add, hnotice]
      congr 1
      rw [← told, hpassed.told, told, hcredit.notices, told]
    · exact fun x hx => (Multiset.mem_cons.mp hx).elim (fun he => he ▸ hdivided) (hpassed.divided x)
    · rw [Multiset.map_cons, ← Multiset.singleton_add, add_comm, ← Multiset.coe_add]
      refine add_le_add harrived ?_
      rw [Handling.arrival, hsource, hvalue, ← htarget, Multiset.coe_singleton]
    · rw [Multiset.cons_bind, ← Multiset.coe_add, Multiset.coe_singleton, add_comm (h.departures _ _ _)]
      exact add_le_add_left hdeparted _
    · have hrequests : (u.emit (.UserRequestForSignature sender h.rest)).requests = h.request :: u.requests := by
        rw [Home.requests_emit, Handling.request, hsource, hhash]
        rfl
      have hreq := hpassed.requested
      show _ ≤ ((u.emit (.UserRequestForSignature sender h.rest)).requests : Multiset Withdrawal)
      rw [hrequests, ← Multiset.cons_coe, Multiset.map_cons, Multiset.cons_add]
      refine Multiset.cons_le_cons _ ?_
      have hsame : s₁.requests = s.requests := by rw [Home.requests, hcredit.bridge, Home.requests]
      rwa [hsame] at hreq
    · show hooked u = _
      rw [hhooked, hooked, hcredit.recorded hc, List.filter_cons_of_pos (by simpa using hentry), List.map_cons,
        ← Multiset.cons_coe, Multiset.add_cons, Multiset.map_cons, Multiset.cons_add, Handling.amount, hsource,
        hvalue, hooked]
      rfl
    · exact hbetween.self.trans hself
    · show u.bridge.erc677token = _
      rw [hbetween.erc677token, hcredit.bridge]
    · refine List.IsSuffix.trans ?_ hbetween.credits
      rw [hcredit.recorded hc]
      exact List.suffix_cons _ _
    · show _ <:+ _ :: u.world.notices
      rw [← hcredit.notices]
      exact hbetween.noticed.trans (List.suffix_cons _ _)
  · -- not registered, or nothing sent
    have hsilent : ¬ (T.isBridge s₁.world.token s₁.bridge.self ∧ value ≠ 0) := by
      rw [hcredit.bridge, hcredit.registered, ← htarget]
      exact fun hboth => hc ⟨htarget, hboth.1, hboth.2⟩
    rw [notice_neg hsilent, ← hmovement]
    exact (hcredit.untold_handled (.inr hc)).then (hbetween.weaken.then (handled_of_inner (Home.emit_inner _ _)))

theorem contractFallback_handled {s₁ : TokenHome H B W} (hhook : Serves T V hook)
    (houtside : OutsideWithin (Handled T V 0) outside) (hcredit : Credited T entry sender target value s s₁)
    (hentry : entry.hooked = true)
    (h : T.contractFallback hook outside s₁ sender target value data = (s', true)) :
    Handled T V {.move sender target value} s s' := by
  unfold contractFallback at h
  by_cases htarget : target = s₁.bridge.self
  · rw [if_pos htarget] at h
    cases hcall : hook s₁ sender value with
    | none =>
        rw [hcall] at h
        exact absurd (Prod.mk.inj h).2 (by decide)
    | some t =>
        rw [hcall] at h
        obtain ⟨x, u, hdivided, hnotice, hbetween, rfl, hhash⟩ := hhook _ _ _ _ hcall
        obtain ⟨rfl, _⟩ := Prod.mk.inj h
        rw [hcredit.bridge] at htarget
        exact hcredit.served hentry htarget hdivided hnotice hbetween hhash
  · rw [if_neg htarget] at h
    cases hcall : outside.onTokenTransfer target sender value data s₁ with
    | none =>
        rw [hcall] at h
        exact absurd (Prod.mk.inj h).2 (by decide)
    | some t =>
        rw [hcall] at h
        obtain ⟨rfl, _⟩ := Prod.mk.inj h
        have hother : ¬ Counts T s target value := fun hc => htarget (by rw [hcredit.bridge]; exact hc.1)
        rw [← Entry.movement_of_hooked hentry]
        exact (hcredit.untold_handled (.inr hother)).then (houtside.onTokenTransfer _ _ _ _ _ _ hcall)

/-- A call that fails leaves no trace. -/
theorem contractFallback_false {t : TokenHome H B W}
    (h : T.contractFallback hook outside s sender target value data = (t, false)) : t = s := by
  unfold contractFallback at h
  split at h
  · split at h
    · exact absurd (Prod.mk.inj h).2 (by decide)
    · exact (Prod.mk.inj h).1.symm
  · split at h
    · exact absurd (Prod.mk.inj h).2 (by decide)
    · exact (Prod.mk.inj h).1.symm

/-- A registered bridge is always called. -/
theorem callsBack_of_isBridge (htarget : target = s.bridge.self) (h : T.isBridge s.world.token target) :
    T.callsBack s target := by
  unfold isBridge at h
  unfold callsBack
  split
  · exact .inl htarget
  · rename_i hvariant
    rw [hvariant] at h
    exact h
  · rename_i hvariant
    rw [hvariant] at h
    exact h

/-- What `transfer` and `transferAndCall` do: the recipient is credited, and then told, unless it is not a
    registered bridge. -/
inductive Sent (T : TokenCode B W) (hook : Hook H B W) (outside : Outside (TokenHome H B W)) (entry : Entry)
    (sender target : Address) (value : UInt256) (s : TokenHome H B W) : TokenHome H B W → Prop where
  | told {s₁ s' : TokenHome H B W} (data : Bytes) (credit : Credited T entry sender target value s s₁)
      (call : T.contractFallback hook outside s₁ sender target value data = (s', true)) :
      Sent T hook outside entry sender target value s s'
  | untold {s₁ : TokenHome H B W} (credit : Credited T entry sender target value s s₁)
      (hnot : ¬ (target = s.bridge.self ∧ T.isBridge s.world.token target)) :
      Sent T hook outside entry sender target value s s₁

theorem Credited.uncalled {s₁ : TokenHome H B W} (h : Credited T entry sender target value s s₁)
    (hcalls : ¬ T.callsBack s₁ target) : Sent T hook outside entry sender target value s s₁ := by
  refine .untold h fun hboth => hcalls (callsBack_of_isBridge ?_ ((h.registered target).mpr hboth.2))
  rw [h.bridge]
  exact hboth.1

theorem transfer_sent (hbase : T.base.Lawful) (h : T.transfer hook outside s sender target value = some s') :
    Sent T hook outside .transfer sender target value s s' := by
  simp only [transfer, Option.bind_eq_bind, Option.bind_eq_some_iff] at h
  obtain ⟨s₁, hsuper, h⟩ := h
  have hcredit := (superTransfer_credited hbase rfl hsuper).funded (fundReceiver_funded T s₁ target)
  generalize T.fundReceiver s₁ target = s₂ at h hcredit
  by_cases hcalls : T.callsBack s₂ target
  · rw [if_pos hcalls] at h
    generalize hcall : T.contractFallback hook outside s₂ sender target value [] = answer at h
    obtain ⟨t, ok⟩ := answer
    cases ok with
    | true =>
        obtain rfl := Option.some.inj h
        exact .told [] hcredit hcall
    | false =>
        obtain rfl := contractFallback_false hcall
        by_cases hother : T.variant = .bridgeToken ∧ target ≠ t.world.token.bridgeContract
        · simp only [Bool.false_eq_true, if_false, if_pos hother] at h
          obtain rfl := Option.some.inj h
          refine .untold (hcredit.emit _) fun hboth => hother.2 ?_
          have hbridge := (hcredit.registered target).mpr hboth.2
          unfold isBridge at hbridge
          rw [hother.1] at hbridge
          exact hbridge
        · simp only [Bool.false_eq_true, if_false, if_neg hother] at h
          exact absurd h (Option.some_ne_none _).symm
  · rw [if_neg hcalls] at h
    obtain rfl := Option.some.inj h
    exact hcredit.uncalled hcalls

theorem transferAndCall_sent (hbase : T.base.Lawful)
    (h : T.transferAndCall hook outside s sender target value data = some s') :
    Sent T hook outside .transferAndCall sender target value s s' := by
  simp only [transferAndCall, Option.bind_eq_bind, Option.bind_eq_some_iff, require_eq_some, exists_const] at h
  obtain ⟨_, s₁, hsuper, h⟩ := h
  have hcredit := ((superTransfer_credited hbase rfl hsuper).funded (fundReceiver_funded T s₁ target)).emit
    (.Transfer sender target value data)
  generalize emit (T.fundReceiver s₁ target) (.Transfer sender target value data) = s₂ at h hcredit
  by_cases hcalls : T.callsBack s₂ target
  · rw [if_pos hcalls] at h
    simp only [Option.bind_eq_some_iff, require_eq_some, exists_const, Option.pure_def, Option.some.injEq] at h
    obtain ⟨hok, rfl⟩ := h
    exact .told data hcredit (Prod.ext rfl hok)
  · rw [if_neg hcalls] at h
    obtain rfl := Option.some.inj h
    exact hcredit.uncalled hcalls

/-- **A transfer keeps the books.** -/
theorem Sent.handled (hhook : Serves T V hook) (houtside : OutsideWithin (Handled T V 0) outside)
    (hentry : entry.hooked = true) (h : Sent T hook outside entry sender target value s s') :
    Handled T V {.move sender target value} s s' := by
  cases h with
  | told data credit call => exact contractFallback_handled hhook houtside credit hentry call
  | untold credit hnot =>
      rw [← Entry.movement_of_hooked hentry]
      exact credit.untold_handled (.inr fun hc => hnot ⟨hc.1, hc.2.1⟩)

/-- What one call of the token does with a credit of the bridge. -/
inductive Outcome (T : TokenCode B W) (V : HomeVariant) (hook : Hook H B W) (outside : Outside (TokenHome H B W))
    (tx : TokenTx) (s s' : TokenHome H B W) : Prop where
  | sent (entry : Entry) (sender target : Address) (value : UInt256)
      (htx : tx.creditOf = some (entry, sender, target, value)) (hentry : entry.hooked = true)
      (h : Sent T hook outside entry sender target value s s')
  | silent (entry : Entry) (source target : Address) (value : UInt256)
      (htx : tx.creditOf = some (entry, source, target, value)) (hentry : entry.hooked = false)
      (h : Credited T entry source target value s s')
  | aside (htx : tx.creditOf = none) (h : Handled T V 0 s s')

theorem mint_credited (hbase : T.base.Lawful) (h : T.mint s sender target value = some s') :
    Credited T .mint 0 target value s s' := by
  simp only [mint, Option.bind_eq_bind, Option.bind_eq_some_iff, require_eq_some, exists_const,
    Option.pure_def, Option.some.injEq] at h
  obtain ⟨_, b, hb, rfl⟩ := h
  exact (fundReceiver_funded T s target).credited (credit_credited (hbase.mint _ _ _ _ hb))

theorem burn_handled (hbase : T.base.Lawful) (h : T.burn s sender value = some s') :
    Handled T V {.burn sender value} s s' := by
  simp only [burn, Option.bind_eq_bind, Option.bind_eq_some_iff, Option.pure_def, Option.some.injEq] at h
  obtain ⟨b, hb, rfl⟩ := h
  have hmade : (moved (setBase s b) (.burn sender value)).world.movements =
      [.burn sender value] ++ s.world.movements := rfl
  exact handled_of_made hmade (hbase.burn _ _ _ _ hb) (Multiset.coe_singleton _).ge rfl (List.suffix_refl _) rfl rfl
    rfl (List.suffix_refl _)

theorem burnOf_handled {who : Address} (hbase : T.base.Lawful) (h : T.burnOf s sender who value = some s') :
    Handled T V (if T.v2 then {.burn who value} else 0) s s' := by
  unfold burnOf at h
  split at h
  · simp only [Option.bind_eq_bind, Option.bind_eq_some_iff, require_eq_some, exists_const] at h
    rw [if_pos ‹_›]
    exact burn_handled hbase h.2
  · obtain rfl := Option.some.inj h
    rw [if_neg ‹_›]
    exact handled_chains.refl s

/-- A function that moves nothing. -/
theorem setBase_handled {b : B} (h : T.base.accounts.Explains [] s.world.token.base b) :
    Handled T V 0 s (setBase s b) := by
  have hmade : (setBase s b).world.movements = [] ++ s.world.movements := rfl
  exact handled_of_made hmade h (Multiset.zero_le _) rfl (List.suffix_refl _) rfl rfl rfl (List.suffix_refl _)

/-- **One call of the token.** -/
theorem exec_outcome (hbase : T.base.Lawful) {tx : TokenTx} (h : T.exec hook outside s tx = some s') :
    Outcome T V hook outside tx s s' := by
  cases tx with
  | transfer sender target value => exact .sent .transfer sender target value rfl rfl (transfer_sent hbase h)
  | transferAndCall sender target value data =>
      exact .sent .transferAndCall sender target value rfl rfl (transferAndCall_sent hbase h)
  | transferFrom sender source target value =>
      simp only [exec, transferFrom, Option.bind_eq_bind, Option.bind_eq_some_iff, Option.pure_def,
        Option.some.injEq] at h
      obtain ⟨b, hb, rfl⟩ := h
      exact .silent .transferFrom source target value rfl rfl (credit_credited (hbase.transferFrom _ _ _ _ _ _ hb))
  | mint sender target amount => exact .silent .mint 0 target amount rfl rfl (mint_credited hbase h)
  | burn sender value => exact .aside rfl (burn_handled hbase h).weaken
  | burnOf sender who value => exact .aside rfl (burnOf_handled hbase h).weaken
  | approve sender spender value =>
      simp only [exec, Option.bind_eq_bind, Option.bind_eq_some_iff, Option.pure_def, Option.some.injEq] at h
      obtain ⟨b, hb, rfl⟩ := h
      exact .aside rfl (setBase_handled (hbase.approve _ _ _ _ _ hb))
  | transferOwnership sender newOwner =>
      simp only [exec, Option.bind_eq_bind, Option.bind_eq_some_iff, Option.pure_def, Option.some.injEq] at h
      obtain ⟨b, hb, rfl⟩ := h
      exact .aside rfl (setBase_handled (hbase.transferOwnership _ _ _ _ hb))
  | setFundingRules sender rules | setBridgeContract sender bridgeContract =>
      simp only [exec, Option.bind_eq_bind, Option.bind_eq_some_iff, Option.pure_def, Option.some.injEq] at h
      obtain ⟨_, _, rfl⟩ := h
      exact .aside rfl (handled_of_same rfl rfl rfl rfl rfl rfl (List.suffix_refl _))
  | addBridgeContract sender bridgeContract | removeBridgeContract sender bridgeContract =>
      simp only [exec, Option.bind_eq_bind, Option.bind_eq_some_iff, Option.pure_def, Option.some.injEq] at h
      obtain ⟨_, _, _, _, rfl⟩ := h
      exact .aside rfl (handled_of_same rfl rfl rfl rfl rfl rfl (List.suffix_refl _))

theorem Outcome.handled {tx : TokenTx} (hhook : Serves T V hook) (houtside : OutsideWithin (Handled T V 0) outside)
    (h : Outcome T V hook outside tx s s') : Handled T V 0 s s' := by
  cases h with
  | sent entry sender target value _ hentry h => exact (h.handled hhook houtside hentry).weaken
  | silent entry source target value _ hentry h => exact (h.untold_handled (.inl hentry)).weaken
  | aside _ h => exact h

end Hook

/-! ## The bridge and its token -/

section Bridge

variable [DecidableEq H] {K : CollisionFree H} {ecrecover : Ecrecover H} {outside : Outside (TokenHome H B W)}

/-- What a call of the bridge is to move. -/
def asked (T : TokenCode B W) (bridge : Address) : ExtCall → Multiset Movement
  | .transfer token target amount => if token = T.address then {.move bridge target amount} else 0
  | .burn token amount => if token = T.address then {.burn bridge amount} else 0
  | .minterBurnerBurn proxy who amount => {T.burnedBy proxy who amount}
  | .mint _ _ _ | .minterBurnerMint _ _ _ | .send _ _ => 0

/-- Callees that move what they are asked to. -/
def Moving (T : TokenCode B W) (V : HomeVariant) (call : Callee (TokenHome H B W)) : Prop :=
  ∀ c s s' data, call c s = some (s', data) → Handled T V (T.asked s.bridge.self c) s s'

omit [DecidableEq H] in
theorem Moving.within {call : Callee (TokenHome H B W)} (h : Moving T V call) : Home.Within (Handled T V 0) call :=
  fun c s s' data hc => (h c s s' data hc).weaken

omit [DecidableEq H] in
theorem Moving.payFeeInToken {call : Callee (TokenHome H B W)} (h : Moving T V call) {fee : UInt256}
    (htoken : s.bridge.erc677token = T.address) (hpaid : Home.payFeeInToken call s fee = some s') :
    Handled T V {.move s.bridge.self s.bridge.fees.feeReceiver fee} s s' := by
  simp only [Home.payFeeInToken, Option.bind_eq_bind, Option.bind_eq_some_iff, require_eq_some, exists_const,
    Option.pure_def, Option.some.injEq] at hpaid
  obtain ⟨⟨t, b⟩, hpay, _, rfl⟩ := hpaid
  obtain ⟨data, hc⟩ := Callee.answered_of_bool hpay
  have hmoved := h _ _ _ _ hc
  rwa [asked, if_pos htoken] at hmoved

omit [DecidableEq H] in
theorem Moving.release {call : Callee (TokenHome H B W)} (h : Moving T V call) {x : Handling}
    (htoken : s.bridge.erc677token = T.address) (hburner : x.burner = s.bridge.minterBurner)
    (hreleased : Home.release V call s x.rest = some s') : Handled T V (x.released T V s.bridge.self) s s' := by
  cases V with
  | ercToErc | ercToErcWithFee | nativeToErcWithFee =>
      obtain ⟨data, hc⟩ := Callee.answered_of_plain hreleased
      have hmoved := h _ _ _ _ hc
      rwa [asked, if_pos htoken] at hmoved
  | ercToErcWithFeeV2 =>
      obtain ⟨data, hc⟩ := Callee.answered_of_plain hreleased
      rw [Handling.released, hburner]
      exact h _ _ _ _ hc
  | erc677ToErc677WithFee =>
      obtain rfl := Option.some.inj hreleased
      exact handled_chains.refl s

/-- **The bridge passes on** what the token tells it of. -/
theorem bridgeHook_serves {call : Callee (TokenHome H B W)} (hcall : Moving T V call) :
    Serves T V (T.bridgeHook K ecrecover V call) := by
  intro s source value s' h
  obtain ⟨htoken, h⟩ := Home.onTokenTransfer_withdrawing h
  cases h with
  | @requested s₁ s₂ s₃ fee rest limit hsum paid counted released =>
      let x : Handling :=
        ⟨source, value, s.bridge.fees.feeReceiver, fee, rest, s₂.bridge.minterBurner, s₃.txHash⟩
      have hpaid : Handled T V (x.feePaid s.bridge.self) s s₁ := by
        unfold whenNonzero at paid
        unfold Handling.feePaid
        by_cases hfee : fee = 0
        · rw [if_neg (not_not_intro hfee)] at paid
          obtain rfl := Option.some.inj paid
          rw [if_pos hfee]
          exact handled_chains.refl s
        · rw [if_pos hfee] at paid
          rw [if_neg hfee]
          exact hcall.payFeeInToken htoken.symm paid
      have hcounted : Handled T V 0 s₁ s₂ := handled_of_inner (Home.addSpent_inner counted)
      have hself : s₂.bridge.self = s.bridge.self := hcounted.self.trans hpaid.self
      have htoken₂ : s₂.bridge.erc677token = T.address :=
        (hcounted.erc677token.trans hpaid.erc677token).trans htoken.symm
      have hreleased : Handled T V (x.released T V s₂.bridge.self) s₂ s₃ := hcall.release htoken₂ rfl released
      rw [hself] at hreleased
      exact ⟨x, s₃, hsum, rfl, (hpaid.then hcounted).trans hreleased, rfl, rfl⟩

omit [DecidableEq H] in
theorem setMinterBurner_handled (s : TokenHome H B W) (p : MinterBurnerProxy) :
    Handled T V 0 s (setMinterBurner s p) :=
  handled_of_same rfl rfl rfl rfl rfl rfl (List.suffix_refl _)

omit [DecidableEq H] in
theorem entrusted_handled (s : TokenHome H B W) (burner who : Address) (value : UInt256) :
    Handled T V {.entrusted burner who value} s (moved s (.entrusted burner who value)) := by
  have hmade : (moved s (.entrusted burner who value)).world.movements =
      [.entrusted burner who value] ++ s.world.movements := rfl
  exact handled_of_made hmade (.single (fun _ => rfl) rfl) (Multiset.coe_singleton _).ge rfl (List.suffix_refl _) rfl
    rfl rfl (List.suffix_refl _)

omit [DecidableEq H] in
theorem proxyMint_handled (hbase : T.base.Lawful) {operator target : Address} {value : UInt256}
    (h : T.proxyMint s operator target value = some s') : Handled T V 0 s s' := by
  simp only [proxyMint, Option.bind_eq_bind, Option.bind_eq_some_iff, require_eq_some, exists_const,
    Option.pure_def, Option.some.injEq] at h
  obtain ⟨_, _, s₁, hmint, rfl⟩ := h
  exact ((mint_credited hbase hmint).untold_handled (.inl rfl)).weaken.then (setMinterBurner_handled _ _)

omit [DecidableEq H] in
theorem proxyBurn_handled (hbase : T.base.Lawful) {operator who : Address} {value : UInt256} (hv2 : T.v2 = true)
    (h : T.proxyBurn s operator who value = some s') : Handled T V {.burn who value} s s' := by
  simp only [proxyBurn, Option.bind_eq_bind, Option.bind_eq_some_iff, require_eq_some, exists_const,
    Option.pure_def, Option.some.injEq] at h
  obtain ⟨_, _, s₁, hburn, rfl⟩ := h
  have hburned := burnOf_handled (V := V) hbase hburn
  rw [if_pos hv2] at hburned
  exact hburned.then (setMinterBurner_handled _ _)

/-- Whatever the bridge calls keeps the books, and moves what it is asked to. -/
theorem bridgeCallee_moving (hbase : T.base.Lawful) (houtside : OutsideWithin (Handled T V 0) outside) (depth : Nat) :
    Moving T V (T.bridgeCallee K ecrecover V outside depth) := by
  induction depth with
  | zero =>
      intro c s s' data h
      exact absurd h (Option.some_ne_none _).symm
  | succ depth ih =>
      intro c s s' data h
      cases c with
      | transfer token target amount =>
          rw [asked]
          by_cases htoken : token = T.address
          · simp only [bridgeCallee, if_pos htoken, Option.map_eq_some_iff, Prod.mk.injEq] at h
            obtain ⟨_, htransfer, rfl, _⟩ := h
            rw [if_pos htoken]
            exact (transfer_sent hbase htransfer).handled (bridgeHook_serves ih) houtside rfl
          · simp only [bridgeCallee, if_neg htoken] at h
            rw [if_neg htoken]
            exact houtside.call _ _ _ _ h
      | mint token target amount =>
          by_cases htoken : token = T.address
          · simp only [bridgeCallee, if_pos htoken, Option.map_eq_some_iff, Prod.mk.injEq] at h
            obtain ⟨_, hmint, rfl, _⟩ := h
            exact ((mint_credited hbase hmint).untold_handled (.inl rfl)).weaken
          · simp only [bridgeCallee, if_neg htoken] at h
            exact houtside.call _ _ _ _ h
      | burn token amount =>
          rw [asked]
          by_cases htoken : token = T.address
          · simp only [bridgeCallee, if_pos htoken, Option.map_eq_some_iff, Prod.mk.injEq] at h
            obtain ⟨_, hburn, rfl, _⟩ := h
            rw [if_pos htoken]
            exact burn_handled hbase hburn
          · simp only [bridgeCallee, if_neg htoken] at h
            rw [if_neg htoken]
            exact houtside.call _ _ _ _ h
      | minterBurnerMint proxy target amount =>
          by_cases hproxy : proxy = T.minterBurner
          · simp only [bridgeCallee, if_pos hproxy, Option.map_eq_some_iff, Prod.mk.injEq] at h
            obtain ⟨_, hmint, rfl, _⟩ := h
            exact proxyMint_handled hbase hmint
          · simp only [bridgeCallee, if_neg hproxy] at h
            exact houtside.call _ _ _ _ h
      | minterBurnerBurn proxy who amount =>
          rw [asked, burnedBy]
          by_cases hproxy : T.burnsThrough proxy
          · simp only [bridgeCallee, if_pos hproxy, Option.map_eq_some_iff, Prod.mk.injEq] at h
            obtain ⟨_, hburn, rfl, _⟩ := h
            rw [if_pos hproxy]
            exact proxyBurn_handled hbase hproxy.1 hburn
          · simp only [bridgeCallee, if_neg hproxy, Option.map_eq_some_iff, Prod.mk.injEq] at h
            obtain ⟨⟨t, answer⟩, hcall, rfl, _⟩ := h
            rw [if_neg hproxy]
            simpa only [zero_add] using
              Handled.trans (houtside.call _ _ _ _ hcall) (entrusted_handled t proxy who amount)
      | send _ _ => exact houtside.call _ _ _ _ h

end Bridge

/-! ## Runs -/

section Runs

variable [DecidableEq H] (T : TokenCode B W) (K : CollisionFree H) (ecrecover : Ecrecover H) (V : HomeVariant)

/-- One call of the token or of the bridge, by anybody. Only its hook calls the bridge in the token's name. -/
inductive Invoke (out : TokenHome H B W → TokenHome H B W → Prop) (s s' : TokenHome H B W) : Prop where
  | token {outside : Outside (TokenHome H B W)} (depth : Nat) (tx : TokenTx) (houtside : OutsideWithin out outside)
      (h : T.exec (T.bridgeHook K ecrecover V (T.bridgeCallee K ecrecover V outside depth)) outside s tx =
        some s') : Invoke out s s'
  | bridge {outside : Outside (TokenHome H B W)} (depth : Nat) (tx : BridgeTx)
      (houtside : OutsideWithin out outside)
      (hsender : ∀ source value, tx ≠ .onTokenTransfer T.address source value)
      (h : Home.exec K ecrecover V (T.bridgeCallee K ecrecover V outside depth) s tx = some s') : Invoke out s s'

/-- The chain moves outside of the token and the bridge; others use the proxy of the token, and call the token in
    its name. -/
def Outdoors (s s' : TokenHome H B W) : Prop :=
  ∃ hasCode coins minterBurner,
    s' = { s with world := { s.world with hasCode := hasCode, coins := coins, minterBurner := minterBurner } }

/-- A call whose callees call the token and the bridge at most `n` deep. -/
abbrev NestedCall (n : Nat) : TokenHome H B W → TokenHome H B W → Prop :=
  Calls.Nested (Invoke T K ecrecover V) Outdoors n

/-- What a contract outside may do. -/
abbrev Reentering (n : Nat) : TokenHome H B W → TokenHome H B W → Prop :=
  Calls.Callback Outdoors (NestedCall T K ecrecover V n)

/-- One step of the chain. -/
inductive Step : TokenHome H B W → TokenHome H B W → Prop where
  | call {s s' : TokenHome H B W} (n : Nat) (h : NestedCall T K ecrecover V n s s') : Step s s'
  | validators {s : TokenHome H B W} {v : BridgeValidators} (h : s.validators.Step v) :
      Step s { s with validators := v }
  | tick {s : TokenHome H B W} (now : UInt256) (txHash : Bytes32) (blockNumber : UInt256) (h : s.now ≤ now) :
      Step s { s with now := now, txHash := txHash, world := { s.world with blockNumber := blockNumber } }
  | outdoors {s s' : TokenHome H B W} (h : Outdoors s s') : Step s s'

abbrev Run : TokenHome H B W → TokenHome H B W → Prop := Relation.ReflTransGen (Step T K ecrecover V)

/-- The bridge was told of exactly this amount, last of all. -/
def Notified (s s' : TokenHome H B W) (amount : Address × UInt256) : Prop :=
  ∃ notice earlier, s'.world.notices = notice :: earlier ∧ notice.amount = amount ∧ s.world.notices <:+ earlier

/-- **No silent deposit.** The bridge was told of everything credited to it, and passed it on: the fee moved to its
    receiver, and the rest was burned or stayed locked under a request. -/
def PassedOn (s s' : TokenHome H B W) : Prop :=
  ∃ hs made, Passed T V 0 hs made s s' ∧ credited s' = hs.map Handling.amount + credited s

/-- Everything credited in between was credited by a function with the hook. -/
def OnlyHooked (s s' : TokenHome H B W) : Prop :=
  ∃ new, s'.world.credits = new ++ s.world.credits ∧ ∀ c ∈ new, c.entry.hooked = true

variable {T K ecrecover V}

omit [DecidableEq H] in
theorem outdoors_handled (h : Outdoors s s') : Handled T V 0 s s' := by
  obtain ⟨hasCode, coins, minterBurner, rfl⟩ := h
  exact handled_of_same rfl rfl rfl rfl rfl rfl (List.suffix_refl _)

theorem invoke_handled (hbase : T.base.Lawful) {out : TokenHome H B W → TokenHome H B W → Prop}
    (hout : ∀ s s', out s s' → Handled T V 0 s s') (h : Invoke T K ecrecover V out s s') :
    Handled T V 0 s s' := by
  have hwithin : ∀ outside, OutsideWithin out outside → OutsideWithin (Handled T V 0) outside := by
    intro outside h
    exact ⟨fun _ _ _ _ hc => hout _ _ (h.call _ _ _ _ hc), fun _ _ _ _ _ _ hc =>
      hout _ _ (h.onTokenTransfer _ _ _ _ _ _ hc)⟩
  cases h with
  | token depth tx houtside h =>
      apply (exec_outcome hbase h).handled _ (hwithin _ houtside)
      exact bridgeHook_serves (bridgeCallee_moving hbase (hwithin _ houtside) depth)
  | bridge depth tx houtside _ h =>
      exact Home.exec_out handled_chains (fun _ _ => handled_of_inner)
        (bridgeCallee_moving hbase (hwithin _ houtside) depth).within h

theorem reentering_handled (hbase : T.base.Lawful) {n : Nat} (h : Reentering T K ecrecover V n s s') :
    Handled T V 0 s s' :=
  Calls.callback_rel handled_chains.refl handled_chains.trans (fun _ _ => outdoors_handled)
    (Calls.nested_rel handled_chains.refl handled_chains.trans (fun _ _ => outdoors_handled)
      (fun _ hout _ _ => invoke_handled hbase hout) n) h

theorem step_handled (hbase : T.base.Lawful) (h : Step T K ecrecover V s s') : Handled T V 0 s s' := by
  cases h with
  | call n h =>
      apply reentering_handled hbase (n := n)
      exact Relation.ReflTransGen.single (.inr h)
  | validators h => exact handled_of_same rfl rfl rfl rfl rfl rfl (List.suffix_refl _)
  | tick now txHash blockNumber h => exact handled_of_same rfl rfl rfl rfl rfl rfl (List.suffix_refl _)
  | outdoors h => exact outdoors_handled h

theorem run_handled (hbase : T.base.Lawful) (h : Run T K ecrecover V s s') : Handled T V 0 s s' :=
  Calls.steps_rel handled_chains.refl handled_chains.trans (fun _ _ => step_handled hbase) h

/-! ## No silent deposit -/

/-- The credits without the hook. -/
def silent (s : TokenHome H B W) : Multiset (Address × UInt256) :=
  ((s.world.credits.filter fun c => !c.entry.hooked).map Credit.amount : List _)

omit [DecidableEq H] in
theorem hooked_add_silent (s : TokenHome H B W) : hooked s + silent s = credited s := by
  unfold hooked silent credited
  rw [Multiset.coe_add, ← List.map_append]
  exact Multiset.coe_eq_coe.mpr ((List.filter_append_perm _ _).map _)

omit [DecidableEq H] in
theorem onlyHooked_iff (h : s.world.credits <:+ s'.world.credits) : OnlyHooked s s' ↔ silent s' = silent s := by
  obtain ⟨new, hnew⟩ := h
  have hsplit : silent s' = ((new.filter fun c => !c.entry.hooked).map Credit.amount : List _) + silent s := by
    unfold silent
    rw [← hnew, List.filter_append, List.map_append, ← Multiset.coe_add]
  have hnone : silent s' = silent s ↔ new.filter (fun c => !c.entry.hooked) = [] := by
    rw [hsplit, add_eq_right, Multiset.coe_eq_zero, List.map_eq_nil_iff]
  rw [hnone, List.filter_eq_nil_iff]
  constructor
  · rintro ⟨new', hnew', hall⟩ c hc
    obtain rfl := List.append_cancel_right (hnew.trans hnew')
    simp [hall c hc]
  · intro hall
    refine ⟨new, hnew.symm, ?_⟩
    intro c hc
    simpa using hall c hc

omit [DecidableEq H] in
/-- What was told determines the amounts. -/
theorem Passed.amounts {hs hs' : Multiset Handling} {made made' : List Movement} (h : Passed T V 0 hs made s s')
    (h' : Passed T V 0 hs' made' s s') : hs'.map Handling.amount = hs.map Handling.amount := by
  have hsame : hs'.map Handling.notice = hs.map Handling.notice := add_right_cancel (h'.told.symm.trans h.told)
  have hamount : ∀ xs : Multiset Handling,
      xs.map Handling.amount = (xs.map Handling.notice).map Notice.amount := by
    intro xs
    rw [Multiset.map_map]
    rfl
  rw [hamount, hsame, ← hamount]

omit [DecidableEq H] in
theorem Handled.passedOn_iff (h : Handled T V 0 s s') : PassedOn T V s s' ↔ OnlyHooked s s' := by
  rw [onlyHooked_iff h.credits]
  obtain ⟨hs, made, hpassed, hhooked⟩ := h.passed
  have hcredited : credited s' = hs.map Handling.amount + hooked s + silent s' := by
    rw [← hooked_add_silent, hhooked]
  constructor
  · rintro ⟨hs', made', hpassed', hcredited'⟩
    rw [hcredited, hpassed.amounts hpassed', ← hooked_add_silent s, add_assoc] at hcredited'
    exact add_left_cancel (add_left_cancel hcredited')
  · intro hsilent
    refine ⟨hs, made, hpassed, ?_⟩
    rw [hcredited, hsilent, add_assoc, hooked_add_silent]

omit [DecidableEq H] in
/-- Of a credit with the hook the bridge is told. -/
theorem Sent.notified {hook : Hook H B W} {outside : Outside (TokenHome H B W)} {entry : Entry} {source : Address}
    {value : UInt256} (hhook : Serves T V hook) (hbridge : T.isBridge s.world.token s.bridge.self)
    (hvalue : value ≠ 0) (h : Sent T hook outside entry source s.bridge.self value s s') :
    Notified s s' (source, value) := by
  cases h with
  | untold credit hnot => exact absurd ⟨rfl, hbridge⟩ hnot
  | @told s₁ _ data credit call =>
      unfold contractFallback at call
      rw [if_pos (by rw [credit.bridge])] at call
      cases hcall : hook s₁ source value with
      | none =>
          rw [hcall] at call
          exact absurd (Prod.mk.inj call).2 (by decide)
      | some t =>
          rw [hcall] at call
          obtain ⟨rfl, _⟩ := Prod.mk.inj call
          obtain ⟨x, u, _, _, hbetween, rfl, _⟩ := hhook _ _ _ _ hcall
          have hregistered : T.isBridge s₁.world.token s₁.bridge.self := by
            rw [credit.bridge, credit.registered]
            exact hbridge
          rw [notice_pos hregistered hvalue]
          refine ⟨_, u.world.notices, rfl, rfl, ?_⟩
          rw [← credit.notices]
          exact hbetween.noticed

/-- **No silent deposit, and when.** A call of the token that credits the registered bridge with something tells the
    bridge of exactly that exactly when it is a `transfer` or a `transferAndCall`. So in every run, with calls that
    enter the token and the bridge again to any depth, all that was credited to the bridge was passed on exactly when
    none of it came by `transferFrom` or `mint`: beside the requests there are the movements of the token, which
    explain what became of every balance. -/
theorem no_silent_deposit_iff (hbase : T.base.Lawful) :
    (∀ (n depth : Nat) (outside : Outside (TokenHome H B W)) (s s' : TokenHome H B W) (tx : TokenTx) (entry : Entry)
      (source : Address) (value : UInt256), OutsideWithin (Reentering T K ecrecover V n) outside →
      T.exec (T.bridgeHook K ecrecover V (T.bridgeCallee K ecrecover V outside depth)) outside s tx = some s' →
      tx.creditOf = some (entry, source, s.bridge.self, value) → T.isBridge s.world.token s.bridge.self →
      value ≠ 0 → (Notified s s' (source, value) ↔ entry.hooked = true)) ∧
    ∀ s s' : TokenHome H B W, Run T K ecrecover V s s' → (PassedOn T V s s' ↔ OnlyHooked s s') := by
  constructor
  · intro n depth outside s s' tx entry source value houtside hexec htx hbridge hvalue
    have hwithin : OutsideWithin (Handled T V 0) outside :=
      ⟨fun _ _ _ _ hc => reentering_handled hbase (houtside.call _ _ _ _ hc), fun _ _ _ _ _ _ hc =>
        reentering_handled hbase (houtside.onTokenTransfer _ _ _ _ _ _ hc)⟩
    have hserves : Serves T V (T.bridgeHook K ecrecover V (T.bridgeCallee K ecrecover V outside depth)) :=
      bridgeHook_serves (bridgeCallee_moving hbase hwithin depth)
    cases exec_outcome (V := V) hbase hexec with
    | sent entry' sender target value' htx' hentry h =>
        obtain ⟨rfl, rfl, rfl, rfl⟩ := by simpa [htx] using htx'
        constructor
        · intro _
          exact hentry
        · intro _
          exact h.notified hserves hbridge hvalue
    | silent entry' source' target value' htx' hentry h =>
        obtain ⟨rfl, rfl, rfl, rfl⟩ := by simpa [htx] using htx'
        constructor
        · rintro ⟨notice, earlier, hnotices, _, hsuffix⟩
          -- nothing was added to the notices
          rw [h.notices] at hnotices
          have hlength := hsuffix.length_le
          rw [hnotices, List.length_cons] at hlength
          omega
        · intro htrue
          rw [hentry] at htrue
          exact absurd htrue (by decide)
    | aside htx' _ =>
        rw [htx] at htx'
        exact absurd htx' (Option.some_ne_none _)
  · intro s s' hrun
    exact (run_handled hbase hrun).passedOn_iff

/-- The chain of `sampleTokens`, with a fee of 10 for withdrawals. -/
def sampleDeposits : TokenHome (List Byte) PlainToken Unit :=
  let s := Home.sampleHome sampleTokens
  { s with bridge := { s.bridge with fees := { s.bridge.fees with withdrawFixedFee := 10 } } }

/-- What the sample token does on it. -/
def sampleExec : TokenTx → Option (TokenHome (List Byte) PlainToken Unit) :=
  sampleCode.exec (sampleCode.bridgeHook serialHash Home.noSigner .ercToErcWithFee
    (sampleCode.bridgeCallee serialHash Home.noSigner .ercToErcWithFee refusing 2)) refusing sampleDeposits

omit [DecidableEq H] in
theorem refusing_within (out : TokenHome H B W → TokenHome H B W → Prop) :
    OutsideWithin out (refusing : Outside (TokenHome H B W)) :=
  ⟨fun _ _ _ _ h => absurd h (Option.some_ne_none _).symm, fun _ _ _ _ _ _ h =>
    absurd h (Option.some_ne_none _).symm⟩

/-- Account 33 transfers 100 to the bridge: 10 go to the fee receiver, and 90 are burned and requested. -/
theorem no_silent_deposit_transfer : ∃ s' : TokenHome (List Byte) PlainToken Unit,
    sampleExec (.transfer 33 7 100) = some s' ∧ Notified sampleDeposits s' (33, 100) ∧
      PassedOn sampleCode .ercToErcWithFee sampleDeposits s' ∧ s'.requests = [(33, 90, 0)] ∧
      s'.world.movements = [.burn 7 90, .move 7 8 10, .move 33 7 100] ∧
      s'.world.token.base.token.balanceOf 8 = 10 ∧ s'.world.token.base.token.totalSupply = 10 := by
  have heval : (sampleExec (.transfer 33 7 100)).map (fun s' => (s'.world.credits, s'.requests)) =
      some ([⟨.transfer, 33, 100⟩], [(33, 90, 0)]) := by
    decide +kernel
  have hbalances : (sampleExec (.transfer 33 7 100)).map (fun s' => (s'.world.movements,
      s'.world.token.base.token.balanceOf 8, s'.world.token.base.token.totalSupply)) =
        some ([.burn 7 90, .move 7 8 10, .move 33 7 100], 10, 10) := by
    decide +kernel
  obtain ⟨s', hs', hvalues⟩ := Option.map_eq_some_iff.mp heval
  rw [hs'] at hbalances
  obtain ⟨hcredits, hrequests⟩ := Prod.mk.inj hvalues
  simp only [Option.map_some, Option.some.injEq, Prod.mk.injEq] at hbalances
  obtain ⟨hmovements, hfee, hsupply⟩ := hbalances
  have hrun : Run sampleCode serialHash Home.noSigner .ercToErcWithFee sampleDeposits s' :=
    Relation.ReflTransGen.single (.call 1 (.token 2 (.transfer 33 7 100) (refusing_within _) hs'))
  refine ⟨s', hs', ?_, ?_, hrequests, hmovements, hfee, hsupply⟩
  · refine ((no_silent_deposit_iff plainToken_lawful).1 0 2 refusing sampleDeposits s' (.transfer 33 7 100) .transfer
      33 100 (refusing_within _) hs' rfl ?_ (by decide)).mpr rfl
    decide
  · refine ((no_silent_deposit_iff plainToken_lawful).2 sampleDeposits s' hrun).mpr
      ⟨[⟨.transfer, 33, 100⟩], hcredits, ?_⟩
    intro c hc
    rw [List.mem_singleton.mp hc]
    rfl

/-- Account 34 moves the 100 of account 33 to the bridge by `transferFrom`, or the owner mints 50 to it: the bridge
    has the tokens, and nobody told it. -/
theorem silent_deposits : ∃ s₁ s₂ : TokenHome (List Byte) PlainToken Unit,
    sampleExec (.transferFrom 34 33 7 100) = some s₁ ∧ sampleExec (.mint 9 7 50) = some s₂ ∧
      s₁.world.token.base.token.balanceOf 7 = 100 ∧ s₂.world.token.base.token.balanceOf 7 = 50 ∧
      s₁.bridge.log = [] ∧ s₂.bridge.log = [] ∧ ¬ Notified sampleDeposits s₁ (33, 100) ∧
      ¬ Notified sampleDeposits s₂ (0, 50) ∧
      ¬ PassedOn sampleCode .ercToErcWithFee sampleDeposits s₁ := by
  have heval₁ : (sampleExec (.transferFrom 34 33 7 100)).map (fun s' =>
      (s'.world.token.base.token.balanceOf 7, s'.world.notices, s'.world.credits)) =
        some (100, [], [⟨.transferFrom, 33, 100⟩]) := by
    decide +kernel
  have heval₂ : (sampleExec (.mint 9 7 50)).map (fun s' =>
      (s'.world.token.base.token.balanceOf 7, s'.world.notices)) = some (50, []) := by
    decide +kernel
  have hlogs : (sampleExec (.transferFrom 34 33 7 100)).map (fun s' => s'.bridge.log) = some [] ∧
      (sampleExec (.mint 9 7 50)).map (fun s' => s'.bridge.log) = some [] := by
    decide +kernel
  obtain ⟨s₁, hs₁, hvalues₁⟩ := Option.map_eq_some_iff.mp heval₁
  obtain ⟨s₂, hs₂, hvalues₂⟩ := Option.map_eq_some_iff.mp heval₂
  rw [hs₁, hs₂] at hlogs
  obtain ⟨hbalance₁, hnotices₁, hcredits₁⟩ := by simpa only [Prod.mk.injEq] using hvalues₁
  obtain ⟨hbalance₂, hnotices₂⟩ := Prod.mk.inj hvalues₂
  have hlog₁ : s₁.bridge.log = [] := Option.some.inj hlogs.1
  have hlog₂ : s₂.bridge.log = [] := Option.some.inj hlogs.2
  refine ⟨s₁, s₂, hs₁, hs₂, hbalance₁, hbalance₂, hlog₁, hlog₂, ?_, ?_, ?_⟩
  · rintro ⟨notice, earlier, h, _⟩
    rw [hnotices₁] at h
    cases h
  · rintro ⟨notice, earlier, h, _⟩
    rw [hnotices₂] at h
    cases h
  · rintro ⟨hs, made, hpassed, hcredited⟩
    -- told of nothing, and credited with something
    have hnone : hs.map Handling.notice = 0 := by
      have htold : told s₁ = told sampleDeposits := by
        rw [told, hnotices₁]
        rfl
      exact add_eq_right.mp (hpassed.told.symm.trans htold)
    have hcard := congrArg Multiset.card hcredited
    rw [Multiset.map_eq_zero.mp hnone, Multiset.map_zero, zero_add, credited, credited, hcredits₁] at hcard
    exact absurd hcard (by decide)

end Runs

end TokenCode
end ThunderBridge
