import Mathlib.Data.List.GetD
import Mathlib.Data.List.Perm.Basic
import Mathlib.Logic.Function.Basic

/-!
# `Lib.SlotArray` — a list kept in numbered slots

Storage without arrays keeps a list in numbered slots, an unused slot reading as `empty`. `Holds num empty
slot xs` says so for slots named by `ι` and numbered by `num`. Two writes are enough to maintain such a list:

* `Holds.push`: writing the first unused slot appends;
* `Holds.swapRemove`: overwriting a slot with the last one and clearing that removes an entry, and leaves
  the others in another order (`swapRemove_perm`). The entry may be the last one itself.
-/

namespace ThunderBridge
namespace SlotArray

variable {ι α : Type*} [DecidableEq ι] {num : ι → Nat} {empty : α} {slot : ι → α} {xs : List α}

/-- The slots spell the list, and every slot past its end is empty. -/
def Holds (num : ι → Nat) (empty : α) (slot : ι → α) (xs : List α) : Prop :=
  ∀ i, slot i = xs.getD (num i) empty

omit [DecidableEq ι] in
theorem holds_nil : Holds num empty (fun _ => empty) [] := by
  intro i
  rw [List.getD_nil]

omit [DecidableEq ι] in
theorem Holds.lt (h : Holds num empty slot xs) {i : ι} (hi : num i < xs.length) : slot i = xs[num i] := by
  rw [h i, List.getD_eq_getElem _ _ hi]

omit [DecidableEq ι] in
theorem Holds.ge (h : Holds num empty slot xs) {i : ι} (hi : xs.length ≤ num i) : slot i = empty := by
  rw [h i, List.getD_eq_default _ _ hi]

theorem Holds.push (h : Holds num empty slot xs) (hnum : Function.Injective num) {i : ι} {x : α}
    (hi : num i = xs.length) : Holds num empty (Function.update slot i x) (xs ++ [x]) := by
  intro j
  rw [Function.update_apply]
  by_cases hj : j = i
  · rw [if_pos hj, hj, hi, List.getD_append_right _ _ _ _ (Nat.le_refl _), Nat.sub_self]
    rfl
  · rw [if_neg hj, h j]
    have hne : num j ≠ xs.length := fun he => hj (hnum (he.trans hi.symm))
    rcases Nat.lt_or_gt_of_ne hne with hlt | hgt
    · rw [List.getD_append _ _ _ _ hlt]
    · have hpast : (xs ++ [x]).length ≤ num j := by
        rw [List.length_append]
        exact hgt
      rw [List.getD_eq_default _ _ (Nat.le_of_lt hgt), List.getD_eq_default _ _ hpast]

/-! ## Removal by moving the last entry -/

/-- The list after the entry at `k` was overwritten with the last one, and that one dropped. -/
def swapRemove (xs : List α) (k : Nat) (last : α) : List α := (xs.set k last).dropLast

theorem length_swapRemove (k : Nat) (last : α) : (swapRemove xs k last).length = xs.length - 1 := by
  simp [swapRemove]

/-- Up to order, the entry at `k` is gone and nothing else. -/
theorem swapRemove_perm {k : Nat} (hk : k < xs.length) {last : α} (hlast : xs.getLast? = some last) :
    (swapRemove xs k last).Perm (xs.eraseIdx k) := by
  obtain ⟨ys, rfl⟩ : ∃ ys, xs = ys ++ [last] := by
    rw [List.getLast?_eq_some_iff] at hlast
    exact hlast
  unfold swapRemove
  rw [List.length_append, List.length_singleton] at hk
  rcases Nat.lt_succ_iff_lt_or_eq.mp hk with hlt | rfl
  · rw [List.set_append_left _ _ hlt, List.dropLast_concat, List.eraseIdx_append_of_lt_length hlt]
    have hset : (ys.set k last).Perm (last :: ys.eraseIdx k) := List.set_perm_cons_eraseIdx hlt last
    exact hset.trans (List.perm_append_singleton _ _).symm
  · -- the last entry itself: the move does nothing
    rw [List.set_append_right _ _ (Nat.le_refl _), Nat.sub_self, List.eraseIdx_append_of_length_le (Nat.le_refl _),
      Nat.sub_self, List.set_cons_zero, List.dropLast_concat]
    simp

theorem nodup_swapRemove (hnd : xs.Nodup) {k : Nat} (hk : k < xs.length) {last : α}
    (hlast : xs.getLast? = some last) : (swapRemove xs k last).Nodup :=
  (swapRemove_perm hk hlast).nodup_iff.mpr (hnd.eraseIdx k)

theorem mem_swapRemove (hnd : xs.Nodup) {k : Nat} (hk : k < xs.length) {last : α}
    (hlast : xs.getLast? = some last) {a : α} : a ∈ swapRemove xs k last ↔ a ∈ xs ∧ a ≠ xs[k] := by
  rw [(swapRemove_perm hk hlast).mem_iff]
  have hsplit : xs.Perm (xs[k] :: xs.eraseIdx k) := (List.getElem_cons_eraseIdx_perm hk).symm
  have hcons : (xs[k] :: xs.eraseIdx k).Nodup := hsplit.nodup_iff.mp hnd
  rw [hsplit.mem_iff, List.mem_cons]
  constructor
  · intro ha
    exact ⟨.inr ha, fun he => (List.nodup_cons.mp hcons).1 (he ▸ ha)⟩
  · rintro ⟨ha | ha, hne⟩
    · exact absurd ha hne
    · exact ha

/-- Overwriting slot `i` with slot `j`, the last one, and clearing slot `j`. -/
theorem Holds.swapRemove (h : Holds num empty slot xs) (hnum : Function.Injective num) {i j : ι}
    (hi : num i < xs.length) (hj : num j + 1 = xs.length) :
    Holds num empty (Function.update (Function.update slot i (slot j)) j empty)
      (swapRemove xs (num i) (slot j)) := by
  intro m
  unfold SlotArray.swapRemove
  have hlen : ((xs.set (num i) (slot j)).dropLast).length = num j := by
    rw [List.length_dropLast, List.length_set, ← hj, Nat.add_sub_cancel]
  rw [Function.update_apply]
  by_cases hm : m = j
  · rw [if_pos hm, hm, List.getD_eq_default _ _ (Nat.le_of_eq hlen)]
  · rw [if_neg hm, Function.update_apply]
    rcases Nat.lt_or_ge (num m) (num j) with hlt | hge
    · rw [List.getD_eq_getElem _ _ (hlen ▸ hlt), List.getElem_dropLast, List.getElem_set]
      by_cases hmi : m = i
      · rw [if_pos hmi, if_pos (hmi ▸ rfl)]
      · rw [if_neg hmi, if_neg fun he => hmi (hnum he.symm), h.lt]
    · have hne : num m ≠ num j := fun he => hm (hnum he)
      have hpast : xs.length ≤ num m := by omega
      have hmi : m ≠ i := by
        rintro rfl
        omega
      rw [if_neg hmi, h.ge hpast, List.getD_eq_default _ _ (hlen ▸ hge)]

end SlotArray
end ThunderBridge
