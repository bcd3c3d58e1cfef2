import ThunderBridge.Contracts.BridgeValidators
import ThunderBridge.Lib.SlotArray

/-!
# `Contracts.ValidatorSet` — the three views of the validator set agree

`BridgeValidators` stores its set as numbered slots, as flags and as a count. `Listed s vs` says that all
three spell the list `vs`, which has no zero and no repetition: the slots hold it and are empty past it, the
count is its length, and the flags are up for its members.

Adding appends to the list. Removing finds the slot of the validator (`removeFromList_listed`) and moves the
last one into it, which is the removal of `SlotArray`. The list is at least as long as the threshold.
-/

namespace ThunderBridge
namespace BridgeValidators

/-- The slots, the flags and the count spell the list `vs`. -/
structure Listed (s : BridgeValidators) (vs : List Address) : Prop where
  slots : SlotArray.Holds BitVec.toNat 0 s.validatorsList vs
  count : s.validatorCount.toNat = vs.length
  flags : ∀ a, s.validators a = true ↔ a ∈ vs
  nonzero : (0 : Address) ∉ vs
  distinct : vs.Nodup

theorem blank_listed : Listed blank [] where
  slots := SlotArray.holds_nil
  count := rfl
  flags a := by simp [blank]
  nonzero := List.not_mem_nil
  distinct := List.nodup_nil

theorem toNat_injective : Function.Injective (BitVec.toNat : UInt256 → Nat) :=
  fun _ _ h => BitVec.eq_of_toNat_eq h

section Lists

variable {s s' : BridgeValidators} {vs ws : List Address} {v : Address}

/-- `validatorsList()` returns the list. -/
theorem Listed.validatorsArray_eq (h : Listed s vs) : s.validatorsArray = vs := by
  unfold validatorsArray
  rw [h.count]
  apply List.ext_getElem
  · simp
  · intro i hi hi'
    have hlt : i < 2 ^ 256 := by
      have hcount := s.validatorCount.isLt
      rw [h.count] at hcount
      exact hi'.trans hcount
    have hnum : (BitVec.ofNat 256 i).toNat = i := BitVec.toNat_ofNat i 256 ▸ Nat.mod_eq_of_lt hlt
    have hslot := h.slots (BitVec.ofNat 256 i)
    rw [hnum, List.getD_eq_getElem _ _ hi'] at hslot
    simpa using hslot

/-- A new validator goes into the first unused slot. -/
theorem Listed.push (h : Listed s vs) (hv : v ≠ 0) (hnew : v ∉ vs) {n : UInt256}
    (hn : n.toNat = s.validatorCount.toNat + 1) {i : UInt256} (hi : i.toNat = vs.length)
    (hlist : s'.validatorsList = Function.update s.validatorsList i v)
    (hflags : s'.validators = Function.update s.validators v true) (hcount : s'.validatorCount = n) :
    Listed s' (vs ++ [v]) := by
  refine ⟨?_, ?_, ?_, ?_, ?_⟩
  · rw [hlist]
    exact h.slots.push toNat_injective hi
  · rw [hcount, hn, h.count, List.length_append, List.length_singleton]
  · intro a
    rw [hflags, Function.update_apply, List.mem_append, List.mem_singleton]
    by_cases ha : a = v
    · simp [ha]
    · rw [if_neg ha, h.flags a]
      simp [ha]
  · rw [List.mem_append, List.mem_singleton]
    rintro (hz | hz)
    · exact h.nonzero hz
    · exact hv hz.symm
  · rw [List.nodup_append]
    refine ⟨h.distinct, List.nodup_singleton _, ?_⟩
    intro a ha b hb hab
    rw [List.mem_singleton.mp hb] at hab
    exact hnew (hab ▸ ha)

/-! ## The transactions -/

/-- The loop of `initialize` appends the initial validators one by one. -/
theorem initializeFrom_listed : ∀ {ws vs : List Address} {i : UInt256} {s : BridgeValidators}, Listed s vs →
    i.toNat = vs.length → initializeFrom ws i s = some s' → Listed s' (vs ++ ws) := by
  intro ws
  induction ws with
  | nil =>
      intro vs i s hs _ h
      obtain rfl : s = s' := by simpa [initializeFrom] using h
      rwa [List.append_nil]
  | cons w ws ih =>
      intro vs i s hs hi h
      simp only [initializeFrom, Option.bind_eq_bind, Option.bind_eq_some_iff, require_eq_some, exists_const] at h
      obtain ⟨hw, hnot, n, hn, h⟩ := h
      rw [SafeMath.add_eq_some] at hn
      have hnew : w ∉ vs := by
        intro hm
        rw [isValidator_eq] at hnot
        exact hnot ((hs.flags w).mpr hm)
      have hpush : Listed ((((s.setValidatorCount n).setValidator w true).putValidatorToList w i).emit
          (.ValidatorAdded w)) (vs ++ [w]) :=
        hs.push hw hnew hn hi rfl rfl rfl
      have hnext : (i + 1).toNat = (vs ++ [w]).length := by
        have hlt := n.isLt
        rw [hn, hs.count] at hlt
        have hone : (1 : UInt256).toNat = 1 := rfl
        rw [BitVec.toNat_add, hone, Nat.mod_eq_of_lt (by omega), hi, List.length_append, List.length_singleton]
      have hrest := ih hpush hnext h
      rwa [List.append_assoc, List.singleton_append] at hrest

theorem initializeWith_listed {n : UInt256} {owner : Address} (h : blank.initializeWith n ws owner = some s') :
    Listed s' ws ∧ s'.requiredSignatures = n ∧ n ≠ 0 ∧ n.toNat ≤ ws.length := by
  simp only [initializeWith, Option.bind_eq_bind, Option.bind_eq_some_iff, require_eq_some, exists_const,
    Option.pure_def, Option.some.injEq] at h
  obtain ⟨_, _, hn, hle, t, ht, rfl⟩ := h
  have hstart : Listed { blank with owner := owner } [] := ⟨blank_listed.slots, rfl, blank_listed.flags,
    List.not_mem_nil, List.nodup_nil⟩
  have ht' := initializeFrom_listed hstart rfl ht
  exact ⟨⟨ht'.slots, ht'.count, ht'.flags, ht'.nonzero, ht'.distinct⟩, rfl, hn, hle⟩

/-- The loop of `removeValidator` finds the slot of a listed validator and moves the last one there. -/
theorem removeFromList_listed (hs : Listed s vs) {p : Nat} (hp : p < vs.length) (hv : vs[p] = v) :
    ∀ {k : Nat} {i : UInt256}, i.toNat + k = vs.length → i.toNat ≤ p →
      removeFromList s v s.validatorCount k i = some s' →
        ∃ last, vs.getLast? = some last ∧
          SlotArray.Holds BitVec.toNat 0 s'.validatorsList (SlotArray.swapRemove vs p last) := by
  intro k
  induction k with
  | zero =>
      intro i hk hi _
      omega
  | succ k ih =>
      intro i hk hi h
      have hlt : i.toNat < vs.length := by omega
      unfold removeFromList at h
      split at h
      · rename_i hslot
        simp only [Option.bind_eq_bind, Option.bind_eq_some_iff, Option.pure_def, Option.some.injEq] at h
        obtain ⟨j, hj, rfl⟩ := h
        rw [SafeMath.sub_eq_some, hs.count] at hj
        have hlast : j.toNat + 1 = vs.length := hj
        -- no validator is listed twice, so this is the slot `p`
        have hip : i.toNat = p := by
          rw [hs.slots.lt hlt, ← hv] at hslot
          exact (hs.distinct.getElem_inj_iff).mp hslot
        refine ⟨s.validatorsList j, ?_, ?_⟩
        · rw [List.getLast?_eq_getElem?, hs.slots.lt (by omega : j.toNat < vs.length),
            List.getElem?_eq_getElem (by omega)]
          congr 2
          omega
        · rw [← hip]
          exact hs.slots.swapRemove toNat_injective hlt hlast
      · rename_i hslot
        have hne : i.toNat ≠ p := by
          intro he
          apply hslot
          rw [hs.slots.lt hlt, ← hv]
          congr 1
        have hone : (1 : UInt256).toNat = 1 := rfl
        have hnext : (i + 1).toNat = i.toNat + 1 := by
          have hcount := s.validatorCount.isLt
          rw [hs.count] at hcount
          rw [BitVec.toNat_add, hone, Nat.mod_eq_of_lt (by omega)]
        exact ih (by omega) (by omega) h

theorem removeValidator_listed {sender : Address} (hs : Listed s vs)
    (h : s.removeValidator sender v = some s') :
    ∃ ws, Listed s' ws ∧ s'.requiredSignatures = s.requiredSignatures ∧
      s.requiredSignatures.toNat ≤ ws.length := by
  simp only [removeValidator, Option.bind_eq_bind, Option.bind_eq_some_iff, require_eq_some, exists_const,
    Option.pure_def, Option.some.injEq] at h
  obtain ⟨_, hmore, hval, t, ht, n, hn, rfl⟩ := h
  rw [SafeMath.sub_eq_some, hs.count] at hn
  rw [BitVec.lt_def, hs.count] at hmore
  have hone : (1 : UInt256).toNat = 1 := rfl
  rw [isValidator_eq, hs.flags] at hval
  obtain ⟨p, hp, hvp⟩ := List.mem_iff_getElem.mp hval
  obtain ⟨hflags, hreq, _⟩ := removeFromList_frame ht
  rw [hs.count] at ht
  have hzero : (0 : UInt256).toNat = 0 := rfl
  obtain ⟨last, hlast, hslots⟩ := removeFromList_listed hs hp hvp (by rw [hzero, Nat.zero_add])
    (Nat.zero_le _) ht
  have hmem (a : Address) : a ∈ SlotArray.swapRemove vs p last ↔ a ∈ vs ∧ a ≠ v := by
    rw [SlotArray.mem_swapRemove hs.distinct hp hlast, hvp]
  refine ⟨SlotArray.swapRemove vs p last, ⟨hslots, ?_, ?_, ?_, ?_⟩, hreq, ?_⟩
  · rw [SlotArray.length_swapRemove]
    show n.toNat = _
    omega
  · intro a
    show Function.update t.validators v false a = true ↔ _
    rw [hmem a, Function.update_apply, hflags]
    by_cases ha : a = v
    · simp [ha]
    · rw [if_neg ha, hs.flags a]
      simp [ha]
  · intro hz
    exact hs.nonzero ((hmem 0).mp hz).1
  · exact SlotArray.nodup_swapRemove hs.distinct hp hlast
  · rw [SlotArray.length_swapRemove]
    omega

theorem addValidator_listed {sender : Address} (hs : Listed s vs) (h : s.addValidator sender v = some s') :
    Listed s' (vs ++ [v]) ∧ s'.requiredSignatures = s.requiredSignatures := by
  simp only [addValidator, Option.bind_eq_bind, Option.bind_eq_some_iff, require_eq_some, exists_const,
    Option.pure_def, Option.some.injEq] at h
  obtain ⟨_, hv, hnot, n, hn, rfl⟩ := h
  rw [SafeMath.add_eq_some] at hn
  have hnew : v ∉ vs := by
    intro hm
    rw [isValidator_eq, (hs.flags v).mpr hm] at hnot
    exact absurd hnot (by decide)
  exact ⟨hs.push hv hnew hn hs.count rfl rfl rfl, rfl⟩

end Lists

/-! ## Runs -/

/-- The state after a transaction; one that reverts changes nothing. -/
def transact (s : BridgeValidators) (op : Op) : BridgeValidators := (s.run op).getD s

/-- The contract is initialised, its views agree, and the threshold lies between one and the count. -/
structure Represented (s : BridgeValidators) : Prop where
  isInitialized : s.isInitialized = true
  listed : ∃ vs, Listed s vs
  one_le_required : 1 ≤ s.requiredSignatures.toNat
  required_le_count : s.requiredSignatures.toNat ≤ s.validatorCount.toNat

theorem initializeWith_represented {s : BridgeValidators} {n : UInt256} {vs : List Address} {owner : Address}
    (h : blank.initializeWith n vs owner = some s) : Represented s := by
  obtain ⟨hs, hreq, hn, hle⟩ := initializeWith_listed h
  refine ⟨initializeWith_isInitialized h, ⟨vs, hs⟩, ?_, ?_⟩
  · rw [hreq]
    exact Nat.one_le_iff_ne_zero.mpr fun hz => hn (BitVec.eq_of_toNat_eq hz)
  · rw [hreq, hs.count]
    exact hle

/-- **One transaction** keeps the representation. -/
theorem run_represented {s s' : BridgeValidators} {op : Op} (h : s.run op = some s') (hs : Represented s) :
    Represented s' := by
  obtain ⟨vs, hvs⟩ := hs.listed
  have hinit := run_isInitialized h hs.isInitialized
  cases op with
  | initializeWith n ws owner =>
      -- there is no second initialisation
      simp only [run, initializeWith, Option.bind_eq_bind, Option.bind_eq_some_iff, require_eq_some] at h
      obtain ⟨_, hnot, _⟩ := h
      rw [hs.isInitialized] at hnot
      exact absurd hnot (by decide)
  | addValidator sender v =>
      obtain ⟨hvs', hreq⟩ := addValidator_listed hvs h
      refine ⟨hinit, ⟨_, hvs'⟩, hreq ▸ hs.one_le_required, ?_⟩
      have hle := hs.required_le_count
      rw [hvs.count] at hle
      rw [hreq, hvs'.count, List.length_append]
      exact hle.trans (Nat.le_add_right _ _)
  | removeValidator sender v =>
      obtain ⟨ws, hws, hreq, hle⟩ := removeValidator_listed hvs h
      refine ⟨hinit, ⟨ws, hws⟩, hreq ▸ hs.one_le_required, ?_⟩
      rw [hreq, hws.count]
      exact hle
  | setRequiredSignatures sender n =>
      simp only [run, setRequiredSignatures, Option.bind_eq_bind, Option.bind_eq_some_iff,
        require_eq_some, exists_const, Option.pure_def, Option.some.injEq] at h
      obtain ⟨_, hle, hn, rfl⟩ := h
      refine ⟨hinit, ⟨vs, hvs.slots, hvs.count, hvs.flags, hvs.nonzero, hvs.distinct⟩, ?_,
        BitVec.le_def.mp hle⟩
      exact Nat.one_le_iff_ne_zero.mpr fun hz => hn (BitVec.eq_of_toNat_eq hz)

theorem transact_represented {s : BridgeValidators} (op : Op) (hs : Represented s) :
    Represented (s.transact op) := by
  unfold transact
  cases h : s.run op with
  | none => exact hs
  | some s' => exact run_represented h hs

theorem foldl_represented : ∀ {ops : List Op} {s : BridgeValidators}, Represented s →
    Represented (ops.foldl transact s) := by
  intro ops
  induction ops with
  | nil => intro s hs; exact hs
  | cons op ops ih => intro s hs; exact ih (transact_represented op hs)

/-- **Representation of the validator set.** After the initialisation and after any transactions by anybody,
    failed ones among them: the slots below the count are not zero, pairwise distinct, and exactly the
    validators; the slots from the count on are zero; the threshold lies between one and the count; and
    `validatorsList()` returns the validators, each once. -/
theorem validators_representation {s₀ : BridgeValidators} {n : UInt256} {vs : List Address} {owner : Address}
    (hinit : blank.initializeWith n vs owner = some s₀) (ops : List Op) {s : BridgeValidators}
    (hs : s = ops.foldl transact s₀) :
    (∀ i, i < s.validatorCount → s.validatorsList i ≠ 0) ∧
    (∀ i j, i < s.validatorCount → j < s.validatorCount → s.validatorsList i = s.validatorsList j → i = j) ∧
    (∀ a, s.validators a = true ↔ ∃ i, i < s.validatorCount ∧ s.validatorsList i = a) ∧
    (∀ i, s.validatorCount ≤ i → s.validatorsList i = 0) ∧
    1 ≤ s.requiredSignatures.toNat ∧ s.requiredSignatures.toNat ≤ s.validatorCount.toNat ∧
    s.validatorsArray.Nodup ∧ ∀ a, a ∈ s.validatorsArray ↔ s.validators a = true := by
  have hrep : Represented s := hs ▸ foldl_represented (initializeWith_represented hinit)
  obtain ⟨ws, hws⟩ := hrep.listed
  have hlt {i : UInt256} (hi : i < s.validatorCount) : i.toNat < ws.length := by
    rw [← hws.count]
    exact BitVec.lt_def.mp hi
  refine ⟨?_, ?_, ?_, ?_, hrep.one_le_required, hrep.required_le_count, ?_, ?_⟩
  · intro i hi hz
    rw [hws.slots.lt (hlt hi)] at hz
    exact hws.nonzero (hz ▸ List.getElem_mem _)
  · intro i j hi hj he
    rw [hws.slots.lt (hlt hi), hws.slots.lt (hlt hj)] at he
    exact toNat_injective (hws.distinct.getElem_inj_iff.mp he)
  · intro a
    rw [hws.flags a]
    constructor
    · intro ha
      obtain ⟨p, hp, hpa⟩ := List.mem_iff_getElem.mp ha
      have hbound : p < 2 ^ 256 := by
        have hcount := s.validatorCount.isLt
        rw [hws.count] at hcount
        exact hp.trans hcount
      have hnum : (BitVec.ofNat 256 p).toNat = p := BitVec.toNat_ofNat p 256 ▸ Nat.mod_eq_of_lt hbound
      refine ⟨BitVec.ofNat 256 p, ?_, ?_⟩
      · rw [BitVec.lt_def, hnum, hws.count]
        exact hp
      · rw [hws.slots, hnum, List.getD_eq_getElem _ _ hp, hpa]
    · rintro ⟨i, hi, rfl⟩
      rw [hws.slots.lt (hlt hi)]
      exact List.getElem_mem _
  · intro i hi
    apply hws.slots.ge
    rw [← hws.count]
    exact BitVec.le_def.mp hi
  · rw [hws.validatorsArray_eq]
    exact hws.distinct
  · intro a
    rw [hws.validatorsArray_eq, hws.flags a]

/-- Three validators: the first is removed, added again, and another removal and a wrong owner fail. -/
theorem validators_representation_three :
    ∃ s₀ : BridgeValidators, blank.initializeWith 2 [1, 2, 3] 9 = some s₀ ∧
      ([.removeValidator 9 1, .removeValidator 9 2, .addValidator 9 1, .addValidator 8 4].foldl transact
        s₀).validatorsArray = [3, 2, 1] ∧
      ([.removeValidator 9 1, .removeValidator 9 2, .addValidator 9 1, .addValidator 8 4].foldl transact
        s₀).validatorsArray.Nodup := by
  have heval : (blank.initializeWith 2 [1, 2, 3] 9).map (fun s =>
      ([.removeValidator 9 1, .removeValidator 9 2, .addValidator 9 1, .addValidator 8 4].foldl transact
        s).validatorsArray) = some [3, 2, 1] := by
    decide +kernel
  rw [Option.map_eq_some_iff] at heval
  obtain ⟨s₀, hs₀, harray⟩ := heval
  refine ⟨s₀, hs₀, harray, ?_⟩
  exact (validators_representation hs₀ _ rfl).2.2.2.2.2.2.1

end BridgeValidators
end ThunderBridge
