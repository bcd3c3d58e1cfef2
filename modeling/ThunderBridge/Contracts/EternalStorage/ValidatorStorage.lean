import ThunderBridge.Contracts.EternalStorage.Records
import ThunderBridge.Contracts.ValidatorSet

/-!
# `EternalStorage.ValidatorStorage` — `BridgeValidators` over its own storage

`BridgeValidators.sol` again, now with every read and write an access of `EternalStorage`. `run_view` is the
simulation: a transaction does to the record what it does to the storage, and it reverts here exactly where it
reverts there. What is known of the record over whole runs so holds of what the getters of the contract
return (`storage_representation`).
-/

namespace ThunderBridge

/-- The contract: its storage, and the events it emitted (newest first). -/
structure ValidatorStorage (H : Type) where
  storage : EternalStorage H
  log : List ValidatorsEvent

namespace ValidatorStorage

open BridgeValidators (Op Represented)

variable {H : Type} (K : CollisionFree H)

/-- A contract just deployed. -/
def blank : ValidatorStorage H := ⟨.blank, []⟩

/-- The record of the contract, as its getters return it. -/
def view (c : ValidatorStorage H) : BridgeValidators := c.storage.onValidators K c.log

def emit (c : ValidatorStorage H) (e : ValidatorsEvent) : ValidatorStorage H := { c with log := e :: c.log }

/-! ## The transactions -/

section Transactions

variable [DecidableEq H]

/-- The loop of `initialize`, from index `i` on. -/
def initializeFrom : List Address → UInt256 → ValidatorStorage H → Option (ValidatorStorage H)
  | [], _, c => some c
  | v :: vs, i, c => do
      require (v ≠ 0)
      require (c.storage.validators K.keccak256 v ≠ true)
      let n ← SafeMath.add (c.storage.validatorCount K.keccak256) 1
      let s := c.storage.setValidatorCount K.keccak256 n
      let s := s.setValidator K.keccak256 v true
      let s := s.putValidatorToList K.keccak256 v (.plain i)
      initializeFrom vs (i + 1) (emit ⟨s, c.log⟩ (.ValidatorAdded v))

/-- `initialize`, in block `number`. -/
def initializeWith (number : UInt256) (c : ValidatorStorage H) (requiredSignatures : UInt256)
    (initialValidators : List Address) (owner : Address) : Option (ValidatorStorage H) := do
  require (c.storage.isInitialized K.keccak256 = false)
  require (owner ≠ 0)
  let c := { c with storage := c.storage.setOwner K.keccak256 owner }
  require (requiredSignatures ≠ 0)
  require (requiredSignatures.toNat ≤ initialValidators.length)
  let c ← initializeFrom K initialValidators 0 c
  let s := c.storage.set K.keccak256 (.uint ⟨.requiredSignatures, ()⟩) requiredSignatures
  let s := s.set K.keccak256 (.uint ⟨.deployedAtBlock, ()⟩) number
  let s := s.setInitialize K.keccak256 true
  pure (emit ⟨s, c.log⟩ (.RequiredSignaturesChanged requiredSignatures))

def addValidator (c : ValidatorStorage H) (sender v : Address) : Option (ValidatorStorage H) := do
  require (sender = c.storage.owner K.keccak256)
  require (v ≠ 0)
  require (c.storage.validators K.keccak256 v = false)
  let validatorsCount := c.storage.validatorCount K.keccak256
  let s := c.storage.putValidatorToList K.keccak256 v (.plain validatorsCount)
  let s := s.setValidator K.keccak256 v true
  let n ← SafeMath.add validatorsCount 1
  pure (emit ⟨s.setValidatorCount K.keccak256 n, c.log⟩ (.ValidatorAdded v))

/-- The loop of `removeValidator`: `k` rounds left, index `i`. -/
def removeFromList (s : EternalStorage H) (v : Address) (validatorsCount : UInt256) :
    Nat → UInt256 → Option (EternalStorage H)
  | 0, _ => some s
  | k + 1, i =>
      if s.validatorsList K.keccak256 (.plain i) = v then do
        let last ← SafeMath.sub validatorsCount 1
        let lastValidator := s.validatorsList K.keccak256 (.plain last)
        let s := s.putValidatorToList K.keccak256 lastValidator (.plain i)
        -- `delete`
        pure (s.putValidatorToList K.keccak256 0 (.plain last))
      else removeFromList s v validatorsCount k (i + 1)

def removeValidator (c : ValidatorStorage H) (sender v : Address) : Option (ValidatorStorage H) := do
  require (sender = c.storage.owner K.keccak256)
  let validatorsCount := c.storage.validatorCount K.keccak256
  require (c.storage.requiredSignatures K.keccak256 < validatorsCount)
  require (c.storage.validators K.keccak256 v = true)
  let s ← removeFromList K c.storage v validatorsCount validatorsCount.toNat 0
  let s := s.setValidator K.keccak256 v false
  let n ← SafeMath.sub validatorsCount 1
  pure (emit ⟨s.setValidatorCount K.keccak256 n, c.log⟩ (.ValidatorRemoved v))

def setRequiredSignatures (c : ValidatorStorage H) (sender : Address) (requiredSignatures : UInt256) :
    Option (ValidatorStorage H) := do
  require (sender = c.storage.owner K.keccak256)
  require (requiredSignatures ≤ c.storage.validatorCount K.keccak256)
  require (requiredSignatures ≠ 0)
  let s := c.storage.set K.keccak256 (.uint ⟨.requiredSignatures, ()⟩) requiredSignatures
  pure (emit ⟨s, c.log⟩ (.RequiredSignaturesChanged requiredSignatures))

/-- What a transaction does in block `number`; `none` when it reverts. -/
def run (number : UInt256) (c : ValidatorStorage H) : Op → Option (ValidatorStorage H)
  | .initializeWith n vs owner => c.initializeWith K number n vs owner
  | .addValidator sender v => c.addValidator K sender v
  | .removeValidator sender v => c.removeValidator K sender v
  | .setRequiredSignatures sender n => c.setRequiredSignatures K sender n

end Transactions

/-! ## The simulation -/

section Simulation

variable {K} {c : ValidatorStorage H}

theorem view_blank : (blank : ValidatorStorage H).view K = BridgeValidators.blank := rfl

theorem view_emit (e : ValidatorsEvent) : (c.emit e).view K = (c.view K).emit e := rfl

variable [DecidableEq H]

theorem initializeFrom_view : ∀ {vs : List Address} {i : UInt256} {c : ValidatorStorage H},
    (initializeFrom K vs i c).map (view K) = BridgeValidators.initializeFrom vs i (c.view K) := by
  intro vs
  induction vs with
  | nil =>
      intro i c
      rfl
  | cons v vs ih =>
      intro i c
      simp only [initializeFrom, BridgeValidators.initializeFrom, BridgeValidators.isValidator_eq,
        Option.bind_eq_bind, Option.map_bind, Function.comp_def, ih]
      refine Option.bind_congr fun _ _ => Option.bind_congr fun _ _ => Option.bind_congr fun n _ => ?_
      rw [view_emit, view, EternalStorage.onValidators_putValidatorToList, EternalStorage.onValidators_setValidator,
        EternalStorage.onValidators_setValidatorCount]
      rfl

theorem initializeWith_view (number n : UInt256) (vs : List Address) (owner : Address) :
    (c.initializeWith K number n vs owner).map (view K) = (c.view K).initializeWith n vs owner := by
  have hstart : view K { c with storage := c.storage.setOwner K.keccak256 owner } =
      { c.view K with owner := owner } := EternalStorage.onValidators_setOwner c.log owner
  simp only [initializeWith, BridgeValidators.initializeWith, Option.bind_eq_bind, Option.map_bind,
    Function.comp_def, Option.pure_def, Option.map_some]
  rw [← hstart, ← initializeFrom_view]
  refine Option.bind_congr fun _ _ => Option.bind_congr fun _ _ => Option.bind_congr fun _ _ =>
    Option.bind_congr fun _ _ => ?_
  rw [Option.bind_map]
  refine Option.bind_congr fun c' _ => ?_
  rw [view_emit, view, EternalStorage.onValidators_setInitialize, EternalStorage.onValidators_deployedAtBlock,
    EternalStorage.onValidators_requiredSignatures]
  rfl

theorem addValidator_view (sender v : Address) :
    (c.addValidator K sender v).map (view K) = (c.view K).addValidator sender v := by
  simp only [addValidator, BridgeValidators.addValidator, BridgeValidators.isValidator_eq, Option.bind_eq_bind,
    Option.map_bind, Function.comp_def, Option.pure_def, Option.map_some]
  refine Option.bind_congr fun _ _ => Option.bind_congr fun _ _ => Option.bind_congr fun _ _ =>
    Option.bind_congr fun n _ => ?_
  rw [view_emit, view, EternalStorage.onValidators_setValidatorCount, EternalStorage.onValidators_setValidator,
    EternalStorage.onValidators_putValidatorToList]
  rfl

theorem removeFromList_view {s : EternalStorage H} {v : Address} {n : UInt256} (log : List ValidatorsEvent) :
    ∀ {k : Nat} {i : UInt256}, (removeFromList K s v n k i).map (EternalStorage.onValidators K · log) =
      BridgeValidators.removeFromList (s.onValidators K log) v n k i := by
  intro k
  induction k with
  | zero =>
      intro i
      rfl
  | succ k ih =>
      intro i
      rw [removeFromList, BridgeValidators.removeFromList]
      by_cases hv : s.validatorsList K.keccak256 (.plain i) = v
      · have hview : (s.onValidators K log).validatorsList i = v := hv
        simp only [if_pos hv, if_pos hview, Option.bind_eq_bind, Option.map_bind, Function.comp_def,
          Option.pure_def, Option.map_some]
        refine Option.bind_congr fun last _ => ?_
        rw [EternalStorage.onValidators_putValidatorToList, EternalStorage.onValidators_putValidatorToList]
        rfl
      · have hview : (s.onValidators K log).validatorsList i ≠ v := hv
        rw [if_neg hv, if_neg hview, ih]

theorem removeValidator_view (sender v : Address) :
    (c.removeValidator K sender v).map (view K) = (c.view K).removeValidator sender v := by
  simp only [removeValidator, BridgeValidators.removeValidator, BridgeValidators.isValidator_eq,
    Option.bind_eq_bind, Option.map_bind, Function.comp_def, Option.pure_def, Option.map_some]
  refine Option.bind_congr fun _ _ => Option.bind_congr fun _ _ => Option.bind_congr fun _ _ => ?_
  -- the loop leaves the log alone, so its view is taken with the log of the start
  rw [view, ← removeFromList_view c.log, Option.bind_map]
  refine Option.bind_congr fun s _ => Option.bind_congr fun n _ => ?_
  rw [view_emit, view, EternalStorage.onValidators_setValidatorCount, EternalStorage.onValidators_setValidator]

theorem setRequiredSignatures_view (sender : Address) (n : UInt256) :
    (c.setRequiredSignatures K sender n).map (view K) = (c.view K).setRequiredSignatures sender n := by
  simp only [setRequiredSignatures, BridgeValidators.setRequiredSignatures, Option.bind_eq_bind, Option.map_bind,
    Function.comp_def, Option.pure_def, Option.map_some]
  refine Option.bind_congr fun _ _ => Option.bind_congr fun _ _ => Option.bind_congr fun _ _ => ?_
  rw [view_emit, view, EternalStorage.onValidators_requiredSignatures]
  rfl

/-- **One transaction** does to the record what it does to the storage. -/
theorem run_view (number : UInt256) (op : Op) : (c.run K number op).map (view K) = (c.view K).run op := by
  cases op with
  | initializeWith n vs owner => exact initializeWith_view number n vs owner
  | addValidator sender v => exact addValidator_view sender v
  | removeValidator sender v => exact removeValidator_view sender v
  | setRequiredSignatures sender n => exact setRequiredSignatures_view sender n

/-! ## Runs -/

variable (K) in
/-- The contract after a transaction in a block; one that reverts changes nothing. -/
def transact (c : ValidatorStorage H) (tx : UInt256 × Op) : ValidatorStorage H := (c.run K tx.1 tx.2).getD c

theorem transact_view (tx : UInt256 × Op) : (c.transact K tx).view K = (c.view K).transact tx.2 := by
  rw [BridgeValidators.transact, ← run_view tx.1 tx.2, transact]
  cases c.run K tx.1 tx.2 with
  | none => rfl
  | some c' => rfl

theorem foldl_view : ∀ {txs : List (UInt256 × Op)} {c : ValidatorStorage H},
    (txs.foldl (transact K) c).view K = (txs.map Prod.snd).foldl BridgeValidators.transact (c.view K) := by
  intro txs
  induction txs with
  | nil =>
      intro c
      rfl
  | cons tx txs ih =>
      intro c
      rw [List.foldl_cons, ih, transact_view, List.map_cons, List.foldl_cons]

/-- **What the getters return is a validator set.** After the initialisation and any transactions by anybody,
    the slots, the flags and the count the contract keeps under hashed keys agree, and the threshold lies
    between one and the count. -/
theorem storage_representation {number n : UInt256} {vs : List Address} {owner : Address}
    {c : ValidatorStorage H} (hinit : blank.initializeWith K number n vs owner = some c)
    (txs : List (UInt256 × Op)) : Represented ((txs.foldl (transact K) c).view K) := by
  have hview : BridgeValidators.blank.initializeWith n vs owner = some (c.view K) := by
    rw [← view_blank (K := K), ← initializeWith_view number, hinit, Option.map_some]
  rw [foldl_view]
  exact BridgeValidators.foldl_represented (BridgeValidators.initializeWith_represented hview)

end Simulation
end ValidatorStorage
end ThunderBridge
