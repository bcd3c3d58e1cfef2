import Mathlib.Algebra.BigOperators.Group.Finset.Basic
import Mathlib.Data.Finset.Insert
import Mathlib.Data.List.Count

/-!
# `Lib.Once` — flags raised first, logged later, and never twice

A common guard against doing something twice: test a flag for the key, raise it, do the work (which may
run other code of the same component), and log the key at the end. While the work runs the flag is up
and the entry is not there yet, so the invariant `Once P flag log` carries the set `P` of such pending
keys. `Once ∅` says that the log has every raised key exactly once and no other key.

`openSum flag f` is what the keys amount to whose flag is down: entering an amount under an empty key adds it
(`openSum_enter`), raising the flag of a key takes its amount off (`openSum_close`).
-/

namespace ThunderBridge

variable {κ : Type*} [DecidableEq κ]

/-- Every raised flag outside the pending set `P` has exactly one entry in the log; nothing else has one. -/
structure Once (P : Finset κ) (flag : κ → Bool) (log : List κ) : Prop where
  /-- A pending key has its flag up. -/
  raised : ∀ k ∈ P, flag k = true
  /-- The log holds the raised keys that are not pending, once each. -/
  count : ∀ k, log.count k = if flag k = true ∧ k ∉ P then 1 else 0

namespace Once

variable {P : Finset κ} {flag flag' : κ → Bool} {log : List κ} {k : κ}

theorem empty : Once (∅ : Finset κ) (fun _ => false) [] :=
  ⟨fun _ h => absurd h (Finset.notMem_empty _), fun k => by simp⟩

/-- Raising a fresh flag makes its key pending. -/
theorem raise (h : Once P flag log) (hk : flag k = false)
    (hflag : ∀ k', flag' k' = if k' = k then true else flag k') : Once (insert k P) flag' log := by
  have hfresh : k ∉ P := fun hP => by rw [h.raised k hP] at hk; exact absurd hk (by simp)
  refine ⟨?_, ?_⟩
  · intro k' hk'
    rw [hflag]
    rcases Finset.mem_insert.mp hk' with rfl | hP
    · simp
    · simp [h.raised k' hP]
  · intro k'
    rw [h.count k', hflag]
    by_cases he : k' = k
    · subst he; simp [hk]
    · simp [he]

/-- Logging a pending key settles it. -/
theorem settle (h : Once (insert k P) flag log) (hk : k ∉ P) : Once P flag (k :: log) := by
  refine ⟨fun k' hk' => h.raised k' (Finset.mem_insert_of_mem hk'), ?_⟩
  intro k'
  have hc := h.count k'
  by_cases he : k' = k
  · subst he
    have hup := h.raised k' (Finset.mem_insert_self _ _)
    rw [List.count_cons_self, hc]
    simp [hup, hk]
  · rw [List.count_cons_of_ne (Ne.symm he), hc]
    simp [he]

theorem congr_flag (h : Once P flag log) (hflag : ∀ k, flag' k = flag k) : Once P flag' log := by
  have : flag' = flag := funext hflag
  rwa [this]

/-- With nothing pending, the log holds exactly the raised keys. -/
theorem mem_iff (h : Once ∅ flag log) : k ∈ log ↔ flag k = true := by
  rw [← List.count_pos_iff, h.count k]
  by_cases hf : flag k = true
  · simp [hf]
  · simp [hf]

/-- A logged key has its flag up. -/
theorem raised_of_mem (h : Once P flag log) (hk : k ∈ log) : flag k = true := by
  by_contra hdown
  have hcount := h.count k
  rw [if_neg fun hboth => hdown hboth.1] at hcount
  exact List.count_eq_zero.mp hcount hk

theorem count_le_one (h : Once P flag log) (k : κ) : log.count k ≤ 1 := by
  rw [h.count k]; split <;> omega

theorem nodup (h : Once P flag log) : log.Nodup :=
  List.nodup_iff_count_le_one.mpr h.count_le_one

end Once

/-! ## What is open -/

section OpenSum

variable [Fintype κ] {flag : κ → Bool} {f : κ → Nat} {k : κ} {v : Nat}

/-- The amounts of the keys whose flag is down. -/
def openSum (flag : κ → Bool) (f : κ → Nat) : Nat := ∑ k, if flag k = true then 0 else f k

theorem openSum_enter (hk : flag k = false) (hempty : f k = 0) :
    openSum flag (Function.update f k v) = openSum flag f + v := by
  have hsplit (g : κ → Nat) : openSum flag g =
      g k + ∑ k' ∈ Finset.univ.erase k, if flag k' = true then 0 else g k' := by
    unfold openSum
    rw [← Finset.add_sum_erase _ _ (Finset.mem_univ k), hk, if_neg Bool.false_ne_true]
  have hrest : (∑ k' ∈ Finset.univ.erase k, if flag k' = true then 0 else Function.update f k v k') =
      ∑ k' ∈ Finset.univ.erase k, if flag k' = true then 0 else f k' := by
    apply Finset.sum_congr rfl
    intro k' hk'
    rw [Function.update_of_ne (Finset.ne_of_mem_erase hk')]
  rw [hsplit, hsplit f, hrest, Function.update_self, hempty]
  omega

theorem openSum_close (hk : flag k = false) :
    openSum (Function.update flag k true) f + f k = openSum flag f := by
  have hrest : (∑ k' ∈ Finset.univ.erase k, if Function.update flag k true k' = true then 0 else f k') =
      ∑ k' ∈ Finset.univ.erase k, if flag k' = true then 0 else f k' := by
    apply Finset.sum_congr rfl
    intro k' hk'
    rw [Function.update_of_ne (Finset.ne_of_mem_erase hk')]
  unfold openSum
  rw [← Finset.add_sum_erase _ _ (Finset.mem_univ k), hrest, Function.update_self, if_pos rfl,
    ← Finset.add_sum_erase (s := Finset.univ) (a := k) (f := fun k => if flag k = true then 0 else f k)
      (Finset.mem_univ k), hk, if_neg Bool.false_ne_true]
  omega

/-- A key that is open counts with its amount. -/
theorem le_openSum (hk : flag k = false) : f k ≤ openSum flag f := by
  have hclose := openSum_close (f := f) hk
  omega

end OpenSum
end ThunderBridge
