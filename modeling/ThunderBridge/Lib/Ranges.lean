import Mathlib.Data.List.Infix
import Mathlib.Data.List.Range

/-!
# `Lib.Ranges` — ranges of natural numbers, one after the other

* `Tiles l rs p`: the ranges `rs` cut the numbers after `l` up to `p` into consecutive pieces, the last one
  first.
* `gather f a b`: what `f` lists for the numbers from `a` to `b`, in order.
-/

namespace ThunderBridge
namespace Ranges

/-! ## Consecutive ranges -/

/-- The ranges cut the numbers from `l + 1` to `p`, the newest first. -/
inductive Tiles (l : Nat) : List (Nat × Nat) → Nat → Prop where
  | nil : Tiles l [] l
  | cons {p : Nat} {rs : List (Nat × Nat)} (q : Nat) (h : Tiles l rs p) (hlt : p < q) :
      Tiles l ((p + 1, q) :: rs) q

/-- The number lies in one of the ranges. -/
def Covers (rs : List (Nat × Nat)) (n : Nat) : Prop := ∃ r ∈ rs, r.1 ≤ n ∧ n ≤ r.2

namespace Tiles

variable {l p : Nat} {rs : List (Nat × Nat)}

theorem le (h : Tiles l rs p) : l ≤ p := by
  induction h with
  | nil => exact Nat.le_refl _
  | cons q _ hlt ih => omega

/-- The ranges cover the numbers after `l` up to `p`, and no others. -/
theorem covers_iff (h : Tiles l rs p) (n : Nat) : Covers rs n ↔ l < n ∧ n ≤ p := by
  induction h with
  | nil =>
      constructor
      · rintro ⟨r, hr, _⟩
        exact absurd hr List.not_mem_nil
      · omega
  | @cons p rs q h hlt ih =>
      have hle := h.le
      constructor
      · rintro ⟨r, hr, hfirst, hlast⟩
        rcases List.mem_cons.mp hr with rfl | hold
        · exact ⟨by omega, hlast⟩
        · have hin := ih.mp ⟨r, hold, hfirst, hlast⟩
          omega
      · rintro ⟨hl, hq⟩
        by_cases hp : n ≤ p
        · obtain ⟨r, hr, hin⟩ := ih.mpr ⟨hl, hp⟩
          exact ⟨r, List.mem_cons_of_mem _ hr, hin⟩
        · exact ⟨(p + 1, q), List.mem_cons_self, by omega, hq⟩

/-- No number lies in two of the ranges. -/
theorem disjoint (h : Tiles l rs p) : rs.Pairwise fun r r' => r'.2 < r.1 := by
  induction h with
  | nil => exact List.Pairwise.nil
  | @cons p rs q h hlt ih =>
      refine List.Pairwise.cons ?_ ih
      intro r hr
      show r.2 < p + 1
      -- an earlier range ends at `p` or before
      clear ih hlt
      induction h with
      | nil => exact absurd hr List.not_mem_nil
      | cons q' h' hlt' ih' =>
          rcases List.mem_cons.mp hr with rfl | hold
          · exact Nat.lt_succ_self _
          · have hold' := ih' hold
            omega

end Tiles

/-! ## What a range holds -/

variable {ε : Type*} {f : Nat → List ε} {a b m : Nat}

/-- What `f` lists for the numbers from `a` to `b`. -/
def gather (f : Nat → List ε) (a b : Nat) : List ε := (List.range' a (b + 1 - a)).flatMap f

theorem mem_gather {e : ε} : e ∈ gather f a b ↔ ∃ n, a ≤ n ∧ n ≤ b ∧ e ∈ f n := by
  simp only [gather, List.mem_flatMap, List.mem_range'_1]
  constructor
  · rintro ⟨n, hn, he⟩
    exact ⟨n, by omega, by omega, he⟩
  · rintro ⟨n, ha, hb, he⟩
    exact ⟨n, by omega, he⟩

/-- Two ranges that meet. -/
theorem gather_append (ham : a ≤ m + 1) (hmb : m ≤ b) :
    gather f a m ++ gather f (m + 1) b = gather f a b := by
  unfold gather
  rw [← List.flatMap_append]
  congr 1
  have hlength : b + 1 - a = (m + 1 - a) + (b - m) := by omega
  have hstart : a + (m + 1 - a) = m + 1 := by omega
  rw [hlength, ← List.range'_append_1, hstart, Nat.add_sub_add_right]

@[simp] theorem gather_self : gather f a a = f a := by
  simp [gather]

theorem gather_eq_nil_of_lt (h : b < a) : gather f a b = [] := by
  unfold gather
  rw [Nat.sub_eq_zero_of_le h]
  rfl

theorem gather_eq_nil : gather f a b = [] ↔ ∀ n, a ≤ n → n ≤ b → f n = [] := by
  simp only [List.eq_nil_iff_forall_not_mem, mem_gather]
  grind

/-- A range, and what a longer one with the same start adds. -/
theorem gather_extend {c : Nat} (h : b ≤ c) :
    gather f a b ++ gather f (max a (b + 1)) c = gather f a c := by
  rcases Nat.lt_or_ge (b + 1) a with hgap | hmeet
  · rw [gather_eq_nil_of_lt (Nat.lt_of_succ_lt hgap), Nat.max_eq_left (Nat.le_of_lt hgap), List.nil_append]
  · rw [Nat.max_eq_right hmeet]
    exact gather_append hmeet h

/-- A range, cut before `c`. -/
theorem gather_cut {c : Nat} (ha : 0 < a) :
    gather f a (min b (c - 1)) ++ gather f (max c a) b = gather f a b := by
  rcases Nat.lt_or_ge a c with hlt | hge
  · rw [Nat.max_eq_left (Nat.le_of_lt hlt)]
    rcases Nat.lt_or_ge b c with hbc | hcb
    · rw [gather_eq_nil_of_lt hbc, Nat.min_eq_left (by omega), List.append_nil]
    · have hmeet := gather_append (f := f) (a := a) (m := c - 1) (b := b) (by omega) (by omega)
      rw [Nat.sub_add_cancel (by omega)] at hmeet
      rw [Nat.min_eq_right (by omega)]
      exact hmeet
  · rw [Nat.max_eq_right hge, gather_eq_nil_of_lt (by omega), List.nil_append]

/-- A smaller range holds less. -/
theorem length_gather_le {a' b' : Nat} (ha : a ≤ a') (hb : b' ≤ b) :
    (gather f a' b').length ≤ (gather f a b).length := by
  rcases Nat.lt_or_ge b' a' with hlt | hle
  · rw [gather_eq_nil_of_lt hlt]
    exact Nat.zero_le _
  · rcases Nat.eq_zero_or_pos a' with rfl | hpos
    · obtain rfl : a = 0 := by omega
      rw [← gather_append (f := f) (Nat.zero_le _) hb, List.length_append]
      exact Nat.le_add_right _ _
    · have hfirst : gather f a (a' - 1) ++ gather f a' b = gather f a b := by
        have hmeet := gather_append (f := f) (a := a) (m := a' - 1) (b := b) (by omega) (by omega)
        rwa [Nat.sub_add_cancel hpos] at hmeet
      have hlast : gather f a' b' ++ gather f (b' + 1) b = gather f a' b :=
        gather_append (by omega) hb
      rw [← hfirst, ← hlast, List.length_append, List.length_append]
      omega

end Ranges
end ThunderBridge
