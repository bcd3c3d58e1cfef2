import Mathlib.Order.Basic

/-!
# `Lib.Bisect` — searches that halve a range

A search over the numbers from `a` to `b` asks for the whole range and, where that is refused, for the two parts
it splits at `half a b`. `fits` says which ranges are not refused, and a smaller range fits where a larger one
does. The search of a range ends (`Halts`) unless it comes to a range that is refused and that `half` does not
make smaller: one with `half a b = b` (`halts_iff`).
-/

namespace ThunderBridge
namespace Bisect

variable (half : Nat → Nat → Nat) (fits : Nat → Nat → Prop)

/-- The search of the range ends. -/
inductive Halts : Nat → Nat → Prop where
  | fits {a b : Nat} (h : fits a b) : Halts a b
  | split {a b : Nat} (hleft : Halts a (half a b)) (hright : Halts (half a b + 1) b) : Halts a b

/-- The ranges that come from `[a, b]` by halving. -/
inductive Part (a b : Nat) : Nat → Nat → Prop where
  | whole : Part a b a b
  | left {x y : Nat} (h : Part a b x y) (hlt : half x y < y) : Part a b x (half x y)
  | right {x y : Nat} (h : Part a b x y) (hlt : half x y < y) : Part a b (half x y + 1) y

variable {half fits} {a b x y : Nat}

theorem Part.trans {c d : Nat} (h : Part half a b c d) (h' : Part half c d x y) : Part half a b x y := by
  induction h' with
  | whole => exact h
  | left _ hlt ih => exact ih.left hlt
  | right _ hlt ih => exact ih.right hlt

theorem Part.le (hhalf : ∀ x y, x ≤ y → x ≤ half x y) (hab : a ≤ b) (h : Part half a b x y) : x ≤ y := by
  induction h with
  | whole => exact hab
  | left _ hlt ih => exact hhalf _ _ ih
  | right _ hlt ih => exact hlt

/-- A search that ends searches all parts to the end. -/
theorem Halts.part (hmono : ∀ a b x y, a ≤ x → y ≤ b → fits a b → fits x y)
    (hhalf : ∀ x y, x ≤ y → x ≤ half x y) (hab : a ≤ b) (h : Halts half fits a b) (hpart : Part half a b x y) :
    Halts half fits x y := by
  induction hpart with
  | whole => exact h
  | @left x y hxy hlt ih =>
      cases ih with
      | fits hfits => exact .fits (hmono _ _ _ _ (Nat.le_refl x) (Nat.le_of_lt hlt) hfits)
      | split hleft _ => exact hleft
  | @right x y hxy hlt ih =>
      cases ih with
      | fits hfits =>
          have hx : x ≤ half x y := hhalf _ _ (hxy.le hhalf hab)
          exact .fits (hmono _ _ _ _ (Nat.le_succ_of_le hx) (Nat.le_refl y) hfits)
      | split _ hright => exact hright

/-- A range that is its own left half is searched to the end only where it fits. -/
theorem Halts.fits_of_stuck (h : Halts half fits x y) (hstuck : half x y = y) : fits x y := by
  induction h with
  | fits hfits => exact hfits
  | split _ _ ihleft _ =>
      rw [hstuck] at ihleft
      exact ihleft hstuck

/-- **Where a halving search ends**: exactly where every part that `half` does not make smaller fits. -/
theorem halts_iff (hmono : ∀ a b x y, a ≤ x → y ≤ b → fits a b → fits x y)
    (hhalf : ∀ x y, x ≤ y → x ≤ half x y ∧ half x y ≤ y) (hab : a ≤ b) :
    Halts half fits a b ↔ ∀ x y, Part half a b x y → half x y = y → fits x y := by
  constructor
  · intro h x y hpart hstuck
    exact (h.part hmono (fun x y hxy => (hhalf x y hxy).1) hab hpart).fits_of_stuck hstuck
  · intro hparts
    induction hn : b - a using Nat.strongRecOn generalizing a b with
    | _ n ih =>
        obtain ⟨hlow, hhigh⟩ := hhalf a b hab
        rcases Nat.eq_or_lt_of_le hhigh with hstuck | hlt
        · exact .fits (hparts a b .whole hstuck)
        · have hleft : Halts half fits a (half a b) := by
            refine ih _ (by omega) hlow ?_ rfl
            intro x y hpart
            exact hparts x y ((Part.whole.left hlt).trans hpart)
          have hright : Halts half fits (half a b + 1) b := by
            refine ih _ (by omega) hlt ?_ rfl
            intro x y hpart
            exact hparts x y ((Part.whole.right hlt).trans hpart)
          exact .split hleft hright

end Bisect
end ThunderBridge
