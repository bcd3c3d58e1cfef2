import Mathlib.Algebra.BigOperators.Ring.Finset
import Mathlib.Data.Set.Function

/-!
# `Lib.Packed` — stores addressed by packed keys

A key is the name of a field with the field's argument written right behind it: nothing marks where the
name ends. `Layout` is such a table of fields, over symbols of any kind, and it carries the reason why no two
of its fields can meet: their keys differ in size, or neither name starts the other (`Layout.apart`). From
this `preimage_injective` has that a key determines its field and its argument, whatever the arguments are.
Without names, parts of one size are told apart by `append_inj_of_size_eq`.

A `Layout` with a hash addresses a store. `read_write_self` and `read_write_of_ne` are the two rules of such a
store; the second needs the hash not to collide on the keys in use, and no more.
-/

namespace ThunderBridge
namespace Packed

/-- The sum of the sizes of the symbols. -/
def size {α : Type} (weight : α → Nat) (xs : List α) : Nat := (xs.map weight).sum

@[simp] theorem size_append {α : Type} (weight : α → Nat) (xs ys : List α) :
    size weight (xs ++ ys) = size weight xs + size weight ys := by
  simp [size]

theorem eq_nil_of_size_eq_zero {α : Type} {weight : α → Nat} (hpos : ∀ a, 0 < weight a) {xs : List α}
    (h : size weight xs = 0) : xs = [] := by
  cases xs with
  | nil => rfl
  | cons x xs =>
      have hx := hpos x
      simp only [size, List.map_cons, List.sum_cons] at h
      omega

/-- Parts of one size are cut off in one place. -/
theorem append_inj_of_size_eq {α : Type} {weight : α → Nat} (hpos : ∀ a, 0 < weight a) {xs ys xs' ys' : List α}
    (h : xs ++ xs' = ys ++ ys') (hsize : size weight xs = size weight ys) : xs = ys ∧ xs' = ys' := by
  rcases List.append_eq_append_iff.mp h with ⟨zs, rfl, rfl⟩ | ⟨zs, rfl, rfl⟩
  · have hzs : zs = [] := eq_nil_of_size_eq_zero hpos (by rw [size_append] at hsize; omega)
    simp [hzs]
  · have hzs : zs = [] := eq_nil_of_size_eq_zero hpos (by rw [size_append] at hsize; omega)
    simp [hzs]

/-- Fields of type `F` over the symbols `α`: of each its name, and how its argument is written. -/
structure Layout (F α : Type) where
  weight : α → Nat
  name : F → List α
  Arg : F → Type
  arg : (f : F) → Arg f → List α
  argSize : F → Nat
  size_arg : ∀ f a, size weight (arg f a) = argSize f
  arg_injective : ∀ f, Function.Injective (arg f)
  apart : ∀ f g, f ≠ g →
    size weight (name f) + argSize f ≠ size weight (name g) + argSize g ∨
      (¬ name f <+: name g ∧ ¬ name g <+: name f)

namespace Layout

variable {F α : Type} (L : Layout F α)

/-- A field with an argument. -/
abbrev Key : Type := Σ f, L.Arg f

/-- The name, then the argument. -/
def preimage (k : L.Key) : List α := L.name k.1 ++ L.arg k.1 k.2

theorem size_preimage (k : L.Key) :
    size L.weight (L.preimage k) = size L.weight (L.name k.1) + L.argSize k.1 := by
  rw [preimage, size_append, L.size_arg]

/-- One key for two fields is one field. -/
theorem field_eq_of_preimage_eq {k k' : L.Key} (h : L.preimage k = L.preimage k') : k.1 = k'.1 := by
  by_contra hne
  rcases L.apart k.1 k'.1 hne with hsize | ⟨hleft, hright⟩
  · apply hsize
    rw [← L.size_preimage k, ← L.size_preimage k', h]
  · -- both names start the one key, so the shorter of them starts the longer
    have hk : L.name k.1 <+: L.preimage k := List.prefix_append _ _
    have hk' : L.name k'.1 <+: L.preimage k := h ▸ List.prefix_append _ _
    rcases List.prefix_or_prefix_of_prefix hk hk' with hp | hp
    · exact hleft hp
    · exact hright hp

/-- **A packed key determines its field and its argument.** -/
theorem preimage_injective : Function.Injective L.preimage := by
  rintro ⟨f, a⟩ ⟨g, b⟩ h
  obtain rfl : f = g := L.field_eq_of_preimage_eq h
  have harg : L.arg f a = L.arg f b := List.append_cancel_left h
  rw [L.arg_injective f harg]

/-! ## A store addressed by hashed keys -/

section Store

variable {D V : Type} (hash : List α → D)

/-- The entry of a key. -/
def read (store : D → V) (k : L.Key) : V := store (hash (L.preimage k))

/-- The store with the entry of a key replaced. -/
def write [DecidableEq D] (store : D → V) (k : L.Key) (v : V) : D → V :=
  Function.update store (hash (L.preimage k)) v

variable [DecidableEq D] {store : D → V} {k k' : L.Key} {v : V}

@[simp] theorem read_write_self : L.read hash (L.write hash store k v) k = v :=
  Function.update_self _ _ _

variable {hash} in
/-- A write leaves every other key alone, if the hash does not collide on what is `hashed`. -/
theorem read_write_of_ne {hashed : Set (List α)} (hinj : Set.InjOn hash hashed) (hk : L.preimage k ∈ hashed)
    (hk' : L.preimage k' ∈ hashed) (hne : k' ≠ k) :
    L.read hash (L.write hash store k v) k' = L.read hash store k' :=
  Function.update_of_ne (fun he => hne (L.preimage_injective (hinj hk' hk he))) _ _

end Store
end Layout
end Packed
end ThunderBridge
