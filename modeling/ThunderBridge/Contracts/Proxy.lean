import ThunderBridge.Contracts.Evm
import ThunderBridge.Lib.Calls

/-!
# `Contracts.Proxy` — the proxy in front of a contract

`OwnedUpgradeabilityProxy`: its owner installs an implementation under a version larger than the one before, and
every other call is delegated to the implementation, which runs on the storage of the proxy. While it runs it may
call out, and whoever is called may come back, also to upgrade the proxy under the running code.

A `ProxiedChain` is a chain with a proxy on it: where the storage of the proxy is, and what the code at an address
does when it is delegated to. Such code leaves the storage of the proxy to the calls it makes (`frame`). `call_rel` is
the induction rule for the calls of the proxy, and `Versioned` what its events say in every run.
-/

namespace ThunderBridge

/-! ## The storage -/

/-- The events of the proxy. -/
inductive ProxyEvent where
  | ProxyOwnershipTransferred (previousOwner newOwner : Address)
  | Upgraded (version : UInt256) (implementation : Address)
deriving DecidableEq, Repr

/-- The storage of `UpgradeabilityStorage`, and the events that the proxy emitted (newest first). -/
structure UpgradeabilityStorage where
  version : UInt256
  implementation : Address
  log : List ProxyEvent
deriving DecidableEq, Repr

namespace UpgradeabilityStorage

/-- Nothing is installed. -/
def blank : UpgradeabilityStorage := ⟨0, 0, []⟩

def emit (p : UpgradeabilityStorage) (e : ProxyEvent) : UpgradeabilityStorage := { p with log := e :: p.log }

/-- `UpgradeabilityProxy._upgradeTo`. -/
def upgradeTo (p : UpgradeabilityStorage) (version : UInt256) (implementation : Address) :
    Option UpgradeabilityStorage := do
  require (p.implementation ≠ implementation)
  require (p.version < version)
  pure ({ p with version := version, implementation := implementation }.emit (.Upgraded version implementation))

/-- What was installed so far, newest first: each version with its implementation, and version 0 at the end. -/
def history (p : UpgradeabilityStorage) : List (UInt256 × Address) :=
  p.log.filterMap (fun
    | .Upgraded version implementation => some (version, implementation)
    | .ProxyOwnershipTransferred _ _ => none) ++ [(0, 0)]

/-- What the proxy does to its storage. -/
inductive Move (p : UpgradeabilityStorage) : UpgradeabilityStorage → Prop where
  | upgradeTo (version : UInt256) (implementation : Address) {p' : UpgradeabilityStorage}
      (h : p.upgradeTo version implementation = some p') : Move p p'
  | owner (previousOwner newOwner : Address) : Move p (p.emit (.ProxyOwnershipTransferred previousOwner newOwner))

/-- **What the events say.** -/
structure Versioned (p : UpgradeabilityStorage) : Prop where
  /-- Every version is larger than the ones before it. -/
  increasing : (p.history.map Prod.fst).Pairwise (· > ·)
  /-- The current version is the last one that was installed. -/
  current : p.history.head? = some (p.version, p.implementation)

theorem blank_versioned : Versioned blank := ⟨List.pairwise_singleton _ _, rfl⟩

section Moves

variable {p p' : UpgradeabilityStorage} {version : UInt256} {implementation : Address}

theorem upgradeTo_eq_some : p.upgradeTo version implementation = some p' ↔
    p.implementation ≠ implementation ∧ p.version < version ∧
      p' = ⟨version, implementation, .Upgraded version implementation :: p.log⟩ := by
  simp only [upgradeTo, Option.bind_eq_bind, Option.bind_eq_some_iff, require_eq_some, exists_const,
    Option.pure_def, Option.some.injEq]
  constructor
  · rintro ⟨hne, hlt, rfl⟩
    exact ⟨hne, hlt, rfl⟩
  · rintro ⟨hne, hlt, rfl⟩
    exact ⟨hne, hlt, rfl⟩

/-- No version so far is larger than the current one. -/
theorem Versioned.le_version (h : Versioned p) : ∀ u ∈ p.history, u.1 ≤ p.version := by
  obtain ⟨older, hu⟩ := List.head?_eq_some_iff.mp h.current
  have hincreasing := h.increasing
  rw [hu] at hincreasing ⊢
  intro u hmem
  rcases List.mem_cons.mp hmem with rfl | hold
  · exact BitVec.le_refl _
  · exact BitVec.le_of_lt ((List.pairwise_cons.mp hincreasing).1 u.1 (List.mem_map_of_mem hold))

/-- A version was installed once only. -/
theorem Versioned.unique (h : Versioned p) {a b : Address} (ha : (version, a) ∈ p.history)
    (hb : (version, b) ∈ p.history) : a = b := by
  have hnodup : (p.history.map Prod.fst).Nodup := h.increasing.imp fun hlt => (BitVec.ne_of_lt hlt).symm
  exact congrArg Prod.snd (List.inj_on_of_nodup_map hnodup ha hb rfl)

/-- With more events the version is no smaller, and if it is the same, so is the implementation. -/
theorem Versioned.later (hp : Versioned p) (hp' : Versioned p') (hlog : p.log <:+ p'.log) :
    p.version ≤ p'.version ∧ (p.version = p'.version → p.implementation = p'.implementation) := by
  have hhistory : p.history <:+ p'.history :=
    List.suffix_append_self_iff.mpr (hlog.filterMap _)
  have hmem : (p.version, p.implementation) ∈ p'.history := hhistory.subset (List.mem_of_head? hp.current)
  refine ⟨hp'.le_version _ hmem, ?_⟩
  intro hsame
  rw [hsame] at hmem
  exact hp'.unique hmem (List.mem_of_head? hp'.current)

/-- What the proxy keeps: its events, and what they say. -/
structure Advances (p p' : UpgradeabilityStorage) : Prop where
  log : p.log <:+ p'.log
  versioned : Versioned p → Versioned p'

theorem Advances.refl (p : UpgradeabilityStorage) : Advances p p := ⟨List.suffix_refl _, id⟩

theorem Advances.trans {p₁ p₂ p₃ : UpgradeabilityStorage} (h : Advances p₁ p₂) (h' : Advances p₂ p₃) :
    Advances p₁ p₃ := ⟨h.log.trans h'.log, h'.versioned ∘ h.versioned⟩

theorem Move.advances (h : Move p p') : Advances p p' := by
  refine ⟨?_, ?_⟩
  · cases h with
    | upgradeTo version implementation h =>
        obtain ⟨_, _, rfl⟩ := upgradeTo_eq_some.mp h
        exact List.suffix_cons _ _
    | owner _ _ => exact List.suffix_cons _ _
  · intro hp
    cases h with
    | upgradeTo version implementation h =>
        obtain ⟨_, hlt, rfl⟩ := upgradeTo_eq_some.mp h
        refine ⟨List.pairwise_cons.mpr ⟨?_, hp.increasing⟩, rfl⟩
        intro v hv
        obtain ⟨u, hu, rfl⟩ := List.mem_map.mp hv
        exact Nat.lt_of_le_of_lt (BitVec.le_def.mp (hp.le_version u hu)) (BitVec.lt_def.mp hlt)
    | owner _ _ => exact ⟨hp.increasing, hp.current⟩

end Moves

end UpgradeabilityStorage

/-! ## A chain with a proxy -/

open UpgradeabilityStorage in
/-- A chain on which a contract stands behind a proxy. -/
structure ProxiedChain (S : Type) where
  proxyOwner : S → Address
  setUpgradeabilityOwner : S → Address → S
  storage : S → UpgradeabilityStorage
  setStorage : S → UpgradeabilityStorage → S
  /-- The code at the address, run on the storage of the proxy; the calls that it makes do what `out` allows. -/
  delegatecall : Address → (S → S → Prop) → S → S → Prop
  /-- What others do when they are called. -/
  elsewhere : S → S → Prop
  /-- What happens between the calls of the proxy. -/
  between : S → S → Prop
  storage_setStorage : ∀ s p, storage (setStorage s p) = p
  storage_setUpgradeabilityOwner : ∀ s a, storage (setUpgradeabilityOwner s a) = storage s
  storage_elsewhere : ∀ s s', elsewhere s s' → storage s' = storage s
  storage_between : ∀ s s', between s s' → storage s' = storage s
  frame : ∀ {R : UpgradeabilityStorage → UpgradeabilityStorage → Prop}, (∀ p, R p p) →
    (∀ p₁ p₂ p₃, R p₁ p₂ → R p₂ p₃ → R p₁ p₃) → ∀ {out : S → S → Prop},
    (∀ s s', out s s' → R (storage s) (storage s')) →
    ∀ a s s', delegatecall a out s s' → R (storage s) (storage s')

namespace ProxiedChain

variable {S : Type} (C : ProxiedChain S)

/-! ## The functions of the proxy -/

def transferProxyOwnership (s : S) (sender newOwner : Address) : Option S := do
  require (sender = C.proxyOwner s)
  require (newOwner ≠ 0)
  let s := C.setStorage s ((C.storage s).emit (.ProxyOwnershipTransferred (C.proxyOwner s) newOwner))
  pure (C.setUpgradeabilityOwner s newOwner)

def upgradeTo (s : S) (sender : Address) (version : UInt256) (implementation : Address) : Option S := do
  require (sender = C.proxyOwner s)
  let p ← (C.storage s).upgradeTo version implementation
  pure (C.setStorage s p)

/-- One call of the proxy, over what its outgoing calls may do. -/
inductive Invoke (out : S → S → Prop) (s : S) : S → Prop where
  | transferProxyOwnership (sender newOwner : Address) {s' : S}
      (h : C.transferProxyOwnership s sender newOwner = some s') : Invoke out s s'
  | upgradeTo (sender : Address) (version : UInt256) (implementation : Address) {s' : S}
      (h : C.upgradeTo s sender version implementation = some s') : Invoke out s s'
  /-- The proxy upgrades itself and calls itself. -/
  | upgradeToAndCall (sender : Address) (version : UInt256) (implementation : Address) {s₁ s' : S}
      (upgraded : C.upgradeTo s sender version implementation = some s₁) (called : out s₁ s') : Invoke out s s'
  /-- Any other call is for the implementation. -/
  | fallback {s' : S} (installed : (C.storage s).implementation ≠ 0)
      (h : C.delegatecall (C.storage s).implementation out s s') : Invoke out s s'

/-- A call of the proxy whose callees call it back at most `n` deep. -/
abbrev Call (n : Nat) : S → S → Prop := Calls.Nested C.Invoke C.elsewhere n

inductive Step : S → S → Prop where
  | call {s s' : S} (n : Nat) (h : C.Call n s s') : Step s s'
  | between {s s' : S} (h : C.between s s') : Step s s'

/-- A run: calls of the proxy by anybody, upgrades at any time. -/
abbrev Run : S → S → Prop := Relation.ReflTransGen C.Step

/-! ## What a call keeps -/

section Rules

variable {C} {R : S → S → Prop}

/-- **Induction rule for the calls of the proxy**: what the writes of the proxy keep, and every implementation as long
    as its outgoing calls keep it. -/
theorem call_rel (hrefl : ∀ s, R s s) (htrans : ∀ s₁ s₂ s₃, R s₁ s₂ → R s₂ s₃ → R s₁ s₃)
    (hmove : ∀ s p, (C.storage s).Move p → R s (C.setStorage s p))
    (howner : ∀ s a, R s (C.setUpgradeabilityOwner s a)) (helsewhere : ∀ s s', C.elsewhere s s' → R s s')
    (hcode : ∀ out : S → S → Prop, (∀ s s', out s s' → R s s') → ∀ a s s', C.delegatecall a out s s' → R s s') :
    ∀ n s s', C.Call n s s' → R s s' := by
  have hupgrade (s s' : S) (sender : Address) (version : UInt256) (implementation : Address)
      (h : C.upgradeTo s sender version implementation = some s') : R s s' := by
    simp only [upgradeTo, Option.bind_eq_bind, Option.bind_eq_some_iff, Option.pure_def, Option.some.injEq] at h
    obtain ⟨_, _, p, hp, rfl⟩ := h
    exact hmove s p (.upgradeTo version implementation hp)
  refine Calls.nested_rel hrefl htrans helsewhere ?_
  intro out hout s s' h
  cases h with
  | transferProxyOwnership sender newOwner h =>
      simp only [transferProxyOwnership, Option.bind_eq_bind, Option.bind_eq_some_iff, Option.pure_def,
        Option.some.injEq] at h
      obtain ⟨_, _, _, _, rfl⟩ := h
      exact htrans _ _ _ (hmove s _ (.owner _ newOwner)) (howner _ newOwner)
  | upgradeTo sender version implementation h => exact hupgrade s s' sender version implementation h
  | @upgradeToAndCall sender version implementation s₁ _ upgraded called =>
      exact htrans _ _ _ (hupgrade s s₁ sender version implementation upgraded) (hout _ _ called)
  | fallback _ h => exact hcode out hout _ s s' h

/-- The same for whole runs. -/
theorem run_rel (hrefl : ∀ s, R s s) (htrans : ∀ s₁ s₂ s₃, R s₁ s₂ → R s₂ s₃ → R s₁ s₃)
    (hcall : ∀ n s s', C.Call n s s' → R s s') (hbetween : ∀ s s', C.between s s' → R s s') {s s' : S}
    (h : C.Run s s') : R s s' := by
  refine Calls.steps_rel hrefl htrans ?_ h
  intro t t' hstep
  cases hstep with
  | call n h => exact hcall n t t' h
  | between h => exact hbetween t t' h

end Rules

/-! ## The versions -/

open UpgradeabilityStorage

variable {C}

theorem call_advances : ∀ n s s', C.Call n s s' → Advances (C.storage s) (C.storage s') := by
  refine call_rel (fun _ => Advances.refl _) (fun _ _ _ => Advances.trans) ?_ ?_ ?_ ?_
  · intro s p hmove
    rw [C.storage_setStorage]
    exact hmove.advances
  · intro s a
    rw [C.storage_setUpgradeabilityOwner]
    exact Advances.refl _
  · intro s s' h
    rw [C.storage_elsewhere s s' h]
    exact Advances.refl _
  · intro out hout a s s' h
    exact C.frame Advances.refl (fun _ _ _ => Advances.trans) hout a s s' h

theorem run_advances {s s' : S} (h : C.Run s s') : Advances (C.storage s) (C.storage s') :=
  run_rel (R := fun s s' => Advances (C.storage s) (C.storage s')) (fun _ => Advances.refl _)
    (fun _ _ _ => Advances.trans) call_advances
    (fun s s' hb => C.storage_between s s' hb ▸ Advances.refl (C.storage s)) h

/-- **The versions of a proxy.** In every run from its deployment, whoever calls it and however the calls nest: each
    version installed is larger than all before it, the current one is the last that was installed, no event is lost,
    the version never goes down, and in two states with the same version the implementation is the same. -/
theorem versions_of_run {s₀ s s' : S} (hblank : C.storage s₀ = .blank) (h : C.Run s₀ s) (h' : C.Run s s') :
    (C.storage s').Versioned ∧ (C.storage s).log <:+ (C.storage s').log ∧
      (C.storage s).version ≤ (C.storage s').version ∧
      ((C.storage s).version = (C.storage s').version →
        (C.storage s).implementation = (C.storage s').implementation) := by
  have hs : (C.storage s).Versioned := (run_advances h).versioned (hblank ▸ blank_versioned)
  have hlater := run_advances h'
  have hs' := hlater.versioned hs
  exact ⟨hs', hlater.log, hs.later hs' hlater.log⟩

end ProxiedChain
end ThunderBridge
