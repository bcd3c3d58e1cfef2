import Mathlib.Data.List.Basic

/-!
# `Lib.Messages` — messages that are replaced by their successors

A system whose whole memory is a list of messages, in which one step takes one message out and puts its
successors in. What every message satisfies is kept if the successors satisfy it (`forall_replaceAt`); what
some message carries is kept if the message that carried it hands it on to a successor
(`exists_replaceAt`).
-/

namespace ThunderBridge
namespace Messages

variable {μ : Type*} {P Q : μ → Prop}

/-- The list with the `k`-th entry replaced by `xs`. -/
def replaceAt (l : List μ) (k : Nat) (xs : List μ) : List μ := l.take k ++ xs ++ l.drop (k + 1)

theorem mem_replaceAt {l xs : List μ} {k : Nat} {m : μ} :
    m ∈ replaceAt l k xs ↔ m ∈ l.take k ∨ m ∈ xs ∨ m ∈ l.drop (k + 1) := by
  unfold replaceAt
  rw [List.mem_append, List.mem_append, or_assoc]

theorem mem_cases {l : List μ} {k : Nat} {x m : μ} (hk : l[k]? = some x) (hm : m ∈ l) :
    m ∈ l.take k ∨ m = x ∨ m ∈ l.drop (k + 1) := by
  have hlt : k < l.length := (List.getElem?_eq_some_iff.mp hk).1
  have hx : l[k] = x := (List.getElem?_eq_some_iff.mp hk).2
  have hsplit : l = l.take k ++ x :: l.drop (k + 1) := by
    rw [← hx, List.getElem_cons_drop, List.take_append_drop]
  rw [hsplit, List.mem_append, List.mem_cons] at hm
  exact hm

/-- What all messages satisfy. -/
theorem forall_replaceAt {l xs : List μ} {k : Nat} (hl : ∀ m ∈ l, P m → Q m) (hP : ∀ m ∈ l, P m)
    (hxs : ∀ m ∈ xs, Q m) : ∀ m ∈ replaceAt l k xs, Q m := by
  intro m hm
  rcases mem_replaceAt.mp hm with h | h | h
  · exact hl m (List.mem_of_mem_take h) (hP m (List.mem_of_mem_take h))
  · exact hxs m h
  · exact hl m (List.mem_of_mem_drop h) (hP m (List.mem_of_mem_drop h))

/-- What some message carries, unless it is given up for the reason `R`. -/
theorem exists_replaceAt {l xs : List μ} {k : Nat} {x : μ} {R : Prop} (hk : l[k]? = some x)
    (hhand : P x → (∃ m ∈ xs, P m) ∨ R) (h : ∃ m ∈ l, P m) : (∃ m ∈ replaceAt l k xs, P m) ∨ R := by
  obtain ⟨m, hm, hP⟩ := h
  rcases mem_cases hk hm with hmem | rfl | hmem
  · exact .inl ⟨m, mem_replaceAt.mpr (.inl hmem), hP⟩
  · rcases hhand hP with ⟨m', hm', hP'⟩ | hR
    · exact .inl ⟨m', mem_replaceAt.mpr (.inr (.inl hm')), hP'⟩
    · exact .inr hR
  · exact .inl ⟨m, mem_replaceAt.mpr (.inr (.inr hmem)), hP⟩

end Messages
end ThunderBridge
