import ThunderBridge.Contracts.Evm
import ThunderBridge.Lib.Calls
import Mathlib.Logic.Function.Basic

/-!
# `Contracts.BridgeValidators` — the validator set of one chain

`BridgeValidators.sol`. The set is stored three times over: the numbered slots `validatorsList`, the flags
`validators`, and `validatorCount`. `Op` is one transaction to the contract and `BridgeValidators.run` what
it does; `Step` is any transaction by anybody.

What the bridges rely on is `Sound`: the zero address is never a validator (`ecrecover` answers it for an
invalid signature), and once the contract is initialised at least one signature is required.
-/

namespace ThunderBridge

/-- The events of the contract. -/
inductive ValidatorsEvent where
  | ValidatorAdded (validator : Address)
  | ValidatorRemoved (validator : Address)
  | RequiredSignaturesChanged (requiredSignatures : UInt256)
deriving DecidableEq, Repr

/-- The storage of `BridgeValidators`. -/
structure BridgeValidators where
  isInitialized : Bool
  owner : Address
  requiredSignatures : UInt256
  validatorCount : UInt256
  validators : Address → Bool
  /-- `validatorsList` by slot number; a slot never written reads as zero. -/
  validatorsList : UInt256 → Address
  log : List ValidatorsEvent

namespace BridgeValidators

/-- The storage of a contract just deployed. -/
def blank : BridgeValidators where
  isInitialized := false
  owner := 0
  requiredSignatures := 0
  validatorCount := 0
  validators := fun _ => false
  validatorsList := fun _ => 0
  log := []

def isValidator (s : BridgeValidators) (v : Address) : Bool := s.validators v == true

@[simp] theorem isValidator_eq (s : BridgeValidators) (v : Address) : s.isValidator v = s.validators v := by
  simp [isValidator]

def setValidator (s : BridgeValidators) (v : Address) (status : Bool) : BridgeValidators :=
  { s with validators := Function.update s.validators v status }

def setValidatorCount (s : BridgeValidators) (n : UInt256) : BridgeValidators :=
  { s with validatorCount := n }

def putValidatorToList (s : BridgeValidators) (v : Address) (index : UInt256) : BridgeValidators :=
  { s with validatorsList := Function.update s.validatorsList index v }

def emit (s : BridgeValidators) (e : ValidatorsEvent) : BridgeValidators :=
  { s with log := e :: s.log }

/-- `validatorsList()`: the first `validatorCount` slots. -/
def validatorsArray (s : BridgeValidators) : List Address :=
  (List.range s.validatorCount.toNat).map fun i => s.validatorsList (BitVec.ofNat 256 i)

/-! ## The transactions -/

/-- The loop of `initialize`, from index `i` on. -/
def initializeFrom : List Address → UInt256 → BridgeValidators → Option BridgeValidators
  | [], _, s => some s
  | v :: vs, i, s => do
      require (v ≠ 0)
      require (s.isValidator v ≠ true)
      let n ← SafeMath.add s.validatorCount 1
      let s := ((s.setValidatorCount n).setValidator v true).putValidatorToList v i
      initializeFrom vs (i + 1) (s.emit (.ValidatorAdded v))

def initializeWith (s : BridgeValidators) (requiredSignatures : UInt256) (initialValidators : List Address)
    (owner : Address) : Option BridgeValidators := do
  require (s.isInitialized = false)
  require (owner ≠ 0)
  let s := { s with owner := owner }
  require (requiredSignatures ≠ 0)
  require (requiredSignatures.toNat ≤ initialValidators.length)
  let s ← initializeFrom initialValidators 0 s
  let s := { s with requiredSignatures := requiredSignatures, isInitialized := true }
  pure (s.emit (.RequiredSignaturesChanged requiredSignatures))

def addValidator (s : BridgeValidators) (sender v : Address) : Option BridgeValidators := do
  require (sender = s.owner)
  require (v ≠ 0)
  require (s.isValidator v = false)
  let validatorsCount := s.validatorCount
  let s := (s.putValidatorToList v validatorsCount).setValidator v true
  let n ← SafeMath.add validatorsCount 1
  pure ((s.setValidatorCount n).emit (.ValidatorAdded v))

/-- The loop of `removeValidator`: `k` rounds left, index `i`. The slot that holds `v` gets the last
    validator, the last slot is cleared, and the loop stops. -/
def removeFromList (s : BridgeValidators) (v : Address) (validatorsCount : UInt256) :
    Nat → UInt256 → Option BridgeValidators
  | 0, _ => some s
  | k + 1, i =>
      if s.validatorsList i = v then do
        -- the last validator may be `v` itself, so the slot is cleared after the move
        let last ← SafeMath.sub validatorsCount 1
        let lastValidator := s.validatorsList last
        pure ((s.putValidatorToList lastValidator i).putValidatorToList 0 last)
      else removeFromList s v validatorsCount k (i + 1)

def removeValidator (s : BridgeValidators) (sender v : Address) : Option BridgeValidators := do
  require (sender = s.owner)
  let validatorsCount := s.validatorCount
  require (s.requiredSignatures < validatorsCount)
  require (s.isValidator v = true)
  let s ← removeFromList s v validatorsCount validatorsCount.toNat 0
  let s := s.setValidator v false
  let n ← SafeMath.sub validatorsCount 1
  pure ((s.setValidatorCount n).emit (.ValidatorRemoved v))

def setRequiredSignatures (s : BridgeValidators) (sender : Address) (requiredSignatures : UInt256) :
    Option BridgeValidators := do
  require (sender = s.owner)
  require (requiredSignatures ≤ s.validatorCount)
  require (requiredSignatures ≠ 0)
  pure ({ s with requiredSignatures := requiredSignatures }.emit
    (.RequiredSignaturesChanged requiredSignatures))

/-- One transaction to the contract. -/
inductive Op where
  | initializeWith (requiredSignatures : UInt256) (initialValidators : List Address) (owner : Address)
  | addValidator (sender validator : Address)
  | removeValidator (sender validator : Address)
  | setRequiredSignatures (sender : Address) (requiredSignatures : UInt256)
deriving Repr

/-- What a transaction does; `none` when it reverts. -/
def run (s : BridgeValidators) : Op → Option BridgeValidators
  | .initializeWith n vs owner => s.initializeWith n vs owner
  | .addValidator sender v => s.addValidator sender v
  | .removeValidator sender v => s.removeValidator sender v
  | .setRequiredSignatures sender n => s.setRequiredSignatures sender n

/-- Some transaction succeeds. -/
def Step (s s' : BridgeValidators) : Prop := ∃ op, s.run op = some s'

/-! ## What a transaction changes -/

theorem initializeFrom_spec : ∀ {vs : List Address} {i : UInt256} {s s' : BridgeValidators},
    initializeFrom vs i s = some s' →
      (0 : Address) ∉ vs ∧ (∀ a, s'.validators a = true ↔ s.validators a = true ∨ a ∈ vs) ∧
      s'.requiredSignatures = s.requiredSignatures ∧ s'.isInitialized = s.isInitialized := by
  intro vs
  induction vs with
  | nil =>
      intro i s s' h
      obtain rfl : s = s' := by simpa [initializeFrom] using h
      simp
  | cons v vs ih =>
      intro i s s' h
      simp only [initializeFrom, Option.bind_eq_bind, Option.bind_eq_some_iff, require_eq_some, exists_const] at h
      obtain ⟨hv, _, n, _, h⟩ := h
      obtain ⟨h0, hval, hreq, hinit⟩ := ih h
      refine ⟨fun hm => (List.mem_cons.mp hm).elim (fun he => hv he.symm) h0, ?_, hreq, hinit⟩
      intro a
      rw [hval a, List.mem_cons]
      by_cases ha : a = v
      · simp [ha, emit, putValidatorToList, setValidator, setValidatorCount]
      · simp [ha, emit, putValidatorToList, setValidator, setValidatorCount]

/-- The loop of `removeValidator` only moves list slots. -/
theorem removeFromList_frame {v : Address} {c : UInt256} {s s' : BridgeValidators} : ∀ {k : Nat} {i : UInt256},
    removeFromList s v c k i = some s' →
      s'.validators = s.validators ∧ s'.requiredSignatures = s.requiredSignatures ∧
      s'.isInitialized = s.isInitialized := by
  intro k
  induction k with
  | zero =>
      intro i h
      obtain rfl : s = s' := by simpa [removeFromList] using h
      exact ⟨rfl, rfl, rfl⟩
  | succ k ih =>
      intro i h
      unfold removeFromList at h
      split at h
      · simp only [Option.bind_eq_bind, Option.bind_eq_some_iff, Option.pure_def, Option.some.injEq] at h
        obtain ⟨_, _, rfl⟩ := h
        exact ⟨rfl, rfl, rfl⟩
      · exact ih h

/-- **What one transaction can do** to the flags, the threshold and the initialisation mark. -/
theorem run_cases {s s' : BridgeValidators} {op : Op} (h : s.run op = some s') :
    (∃ (n : UInt256) (vs : List Address), s.isInitialized = false ∧ s'.isInitialized = true ∧ n ≠ 0 ∧
      s'.requiredSignatures = n ∧ (0 : Address) ∉ vs ∧ ∀ a, s'.validators a = true ↔ s.validators a = true ∨ a ∈ vs) ∨
    (∃ v, v ≠ 0 ∧ s.validators v = false ∧ s'.isInitialized = s.isInitialized ∧
      s'.requiredSignatures = s.requiredSignatures ∧
      s'.validators = Function.update s.validators v true) ∨
    (∃ v, s.validators v = true ∧ s'.isInitialized = s.isInitialized ∧
      s'.requiredSignatures = s.requiredSignatures ∧
      s'.validators = Function.update s.validators v false) ∨
    (∃ n, n ≠ 0 ∧ s'.isInitialized = s.isInitialized ∧ s'.requiredSignatures = n ∧
      s'.validators = s.validators) := by
  cases op with
  | initializeWith n vs owner =>
      simp only [run, initializeWith, Option.bind_eq_bind, Option.bind_eq_some_iff, require_eq_some, exists_const,
        Option.pure_def, Option.some.injEq] at h
      obtain ⟨hi, _, hn, _, t, ht, rfl⟩ := h
      obtain ⟨h0, hval, _, _⟩ := initializeFrom_spec ht
      exact Or.inl ⟨n, vs, hi, rfl, hn, rfl, h0, hval⟩
  | addValidator sender v =>
      simp only [run, addValidator, Option.bind_eq_bind, Option.bind_eq_some_iff, require_eq_some, exists_const,
        Option.pure_def, Option.some.injEq] at h
      obtain ⟨_, hv, hnot, n, _, rfl⟩ := h
      refine Or.inr (Or.inl ⟨v, hv, ?_, rfl, rfl, rfl⟩)
      simpa [isValidator] using hnot
  | removeValidator sender v =>
      simp only [run, removeValidator, Option.bind_eq_bind, Option.bind_eq_some_iff, require_eq_some, exists_const,
        Option.pure_def, Option.some.injEq] at h
      obtain ⟨_, _, hv, t, ht, n, _, rfl⟩ := h
      obtain ⟨hvals, hreq, hinit⟩ := removeFromList_frame ht
      refine Or.inr (Or.inr (Or.inl ⟨v, ?_, hinit, hreq, ?_⟩))
      · simpa [isValidator] using hv
      · simp [emit, setValidatorCount, setValidator, hvals]
  | setRequiredSignatures sender n =>
      simp only [run, setRequiredSignatures, Option.bind_eq_bind, Option.bind_eq_some_iff,
        require_eq_some, exists_const, Option.pure_def, Option.some.injEq] at h
      obtain ⟨_, _, hn, rfl⟩ := h
      exact Or.inr (Or.inr (Or.inr ⟨n, hn, rfl, rfl, rfl⟩))

/-! ## The invariant the bridges rely on -/

/-- The zero address is no validator, and an initialised contract requires at least one signature. -/
structure Sound (s : BridgeValidators) : Prop where
  zero_not_validator : s.validators 0 = false
  one_le_required : s.isInitialized = true → s.requiredSignatures ≠ 0

theorem blank_sound : Sound blank := ⟨rfl, fun h => absurd h (by simp [blank])⟩

theorem run_sound {s s' : BridgeValidators} {op : Op} (h : s.run op = some s') (hs : Sound s) : Sound s' := by
  rcases run_cases h with ⟨n, vs, _, _, hn, hreq, h0, hval⟩ | ⟨v, hv, _, hinit, hreq, hval⟩ |
    ⟨v, _, hinit, hreq, hval⟩ | ⟨n, hn, _, hreq, hval⟩
  · refine ⟨Bool.eq_false_iff.mpr ?_, fun _ => hreq ▸ hn⟩
    intro hz
    rcases (hval 0).mp hz with hold | hnew
    · exact Bool.false_ne_true (hs.zero_not_validator.symm.trans hold)
    · exact h0 hnew
  · refine ⟨?_, fun hi => hreq ▸ hs.one_le_required (hinit ▸ hi)⟩
    rw [hval, Function.update_of_ne (Ne.symm hv)]
    exact hs.zero_not_validator
  · refine ⟨?_, fun hi => hreq ▸ hs.one_le_required (hinit ▸ hi)⟩
    rw [hval, Function.update_apply, hs.zero_not_validator, ite_self]
  · exact ⟨hval ▸ hs.zero_not_validator, fun _ => hreq ▸ hn⟩

theorem initializeWith_isInitialized {s s' : BridgeValidators} {n : UInt256} {vs : List Address}
    {owner : Address} (h : s.initializeWith n vs owner = some s') : s'.isInitialized = true := by
  simp only [initializeWith, Option.bind_eq_bind, Option.bind_eq_some_iff, require_eq_some, exists_const,
    Option.pure_def, Option.some.injEq] at h
  obtain ⟨_, _, _, _, _, _, rfl⟩ := h
  rfl

/-- Initialisation is for ever. -/
theorem run_isInitialized {s s' : BridgeValidators} {op : Op} (h : s.run op = some s')
    (hi : s.isInitialized = true) : s'.isInitialized = true := by
  rcases run_cases h with ⟨_, _, _, hi', _⟩ | ⟨_, _, _, hi', _⟩ | ⟨_, _, hi', _⟩ | ⟨_, _, hi', _⟩
  · exact hi'
  · rw [hi', hi]
  · rw [hi', hi]
  · rw [hi', hi]

end BridgeValidators
end ThunderBridge
