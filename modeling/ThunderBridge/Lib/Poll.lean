import Mathlib.Data.Set.Card
import Mathlib.Logic.Relation

/-!
# `Lib.Poll` — votes with a threshold that is looked at only when somebody votes

Members vote on items, once each. An item is decided by the vote that brings the number of its voters to the
threshold, and by nothing else: when the members or the threshold change, no item is looked at again.

`Live` says that every item on which all members voted is decided, so an undecided item has a member who
may still vote. A vote keeps it: the voters then include all members, and there are at least as many members
as the threshold asks for (`Live.vote`). So do a new member and a new threshold. A removal keeps it exactly
when it does not take the last member whose vote an undecided item waits for (`live_step_iff`).

`Prompt` says that every item with as many voters as the threshold asks for is decided, members or not. It is lost
only when the threshold is lowered (`Prompt.step`).
-/

namespace ThunderBridge

/-- Members, a threshold, and for each item its voters and whether it is decided. -/
structure Poll (A I : Type*) where
  members : Set A
  required : Nat
  voters : I → Set A
  decided : I → Prop

namespace Poll

variable {A I : Type*} {p p' : Poll A I}

/-- A member votes on an undecided item for the first time. -/
structure Vote (p p' : Poll A I) (a : A) (i : I) : Prop where
  member : a ∈ p.members
  fresh : a ∉ p.voters i
  undecided : ¬ p.decided i
  members : p'.members = p.members
  required : p'.required = p.required
  voters_self : p'.voters i = insert a (p.voters i)
  voters_of_ne : ∀ j, j ≠ i → p'.voters j = p.voters j
  decided_self : p'.decided i ↔ p.required ≤ (p'.voters i).ncard
  decided_of_ne : ∀ j, j ≠ i → (p'.decided j ↔ p.decided j)

/-- Some member votes on some item. -/
def Voting (p p' : Poll A I) : Prop := ∃ a i, Vote p p' a i

/-- The members or the threshold change, by one member at most, and enough members remain. -/
structure Managed (p p' : Poll A I) : Prop where
  voters : p'.voters = p.voters
  decided : p'.decided = p.decided
  members : (p.members ⊆ p'.members) ∨ ∃ a ∈ p.members, p'.members = p.members \ {a}
  enough : p'.required ≤ p'.members.ncard

/-- The step removes no member on whose vote alone an undecided item waits. -/
def Careful (p p' : Poll A I) : Prop :=
  ∀ a ∈ p.members, a ∉ p'.members → ∀ i, (∀ b ∈ p.members, b ≠ a → b ∈ p.voters i) → p.decided i

/-- Enough members for the threshold, and every item on which all of them voted is decided. -/
structure Live (p : Poll A I) : Prop where
  enough : p.required ≤ p.members.ncard
  decided : ∀ i, p.members ⊆ p.voters i → p.decided i

/-- Nothing is stuck: an undecided item waits for a member who has not voted. -/
theorem Live.waiting (h : Live p) {i : I} (hi : ¬ p.decided i) : ∃ a ∈ p.members, a ∉ p.voters i :=
  Set.not_subset.mp fun hall => hi (h.decided i hall)

/-- **A vote keeps the poll live.** If now all members voted, their number alone reaches the threshold. -/
theorem Live.vote [Finite A] (h : Live p) {a : A} {i : I} (hv : Vote p p' a i) : Live p' := by
  refine ⟨?_, ?_⟩
  · rw [hv.required, hv.members]
    exact h.enough
  · intro j hj
    rw [hv.members] at hj
    by_cases hji : j = i
    · subst hji
      rw [hv.decided_self]
      calc p.required ≤ p.members.ncard := h.enough
        _ ≤ (p'.voters j).ncard := Set.ncard_le_ncard hj
    · rw [hv.voters_of_ne j hji] at hj
      exact (hv.decided_of_ne j hji).mpr (h.decided j hj)

theorem Live.voting [Finite A] (h : Live p) (hv : Relation.ReflTransGen Voting p p') : Live p' := by
  induction hv with
  | refl => exact h
  | tail _ hlast ih =>
      obtain ⟨a, i, hv⟩ := hlast
      exact ih.vote hv

theorem members_voting (hv : Relation.ReflTransGen Voting p p') : p'.members = p.members := by
  induction hv with
  | refl => rfl
  | tail _ hlast ih =>
      obtain ⟨a, i, hv⟩ := hlast
      rw [hv.members, ih]

/-- No vote and no decision is taken back. -/
theorem Vote.grows {a : A} {i : I} (hv : Vote p p' a i) (j : I) :
    p.voters j ⊆ p'.voters j ∧ (p.decided j → p'.decided j) := by
  by_cases hj : j = i
  · subst hj
    rw [hv.voters_self]
    exact ⟨Set.subset_insert a _, fun hdone => absurd hdone hv.undecided⟩
  · rw [hv.voters_of_ne j hj]
    exact ⟨subset_rfl, (hv.decided_of_ne j hj).mpr⟩

theorem grows (hstep : Relation.ReflTransGen Voting p p' ∨ Managed p p') (i : I) :
    p.voters i ⊆ p'.voters i ∧ (p.decided i → p'.decided i) := by
  rcases hstep with hv | hm
  · induction hv with
    | refl => exact ⟨subset_rfl, id⟩
    | tail _ hlast ih =>
        obtain ⟨a, j, hv⟩ := hlast
        obtain ⟨hvoters, hdecided⟩ := hv.grows i
        exact ⟨ih.1.trans hvoters, fun hdone => hdecided (ih.2 hdone)⟩
  · rw [hm.voters, hm.decided]
    exact ⟨subset_rfl, id⟩

/-- Without a removal there is nothing to be careful about. -/
theorem careful_of_subset (h : p.members ⊆ p'.members) : Careful p p' :=
  fun _ ha hgone => absurd (h ha) hgone

/-- **A change of members or threshold keeps the poll live exactly when it is careful.** -/
theorem Live.managed_iff (h : Live p) (hm : Managed p p') : Live p' ↔ Careful p p' := by
  constructor
  · intro hlive a ha hgone i hothers
    have hall : p'.members ⊆ p'.voters i := by
      intro b hb
      rw [hm.voters]
      rcases hm.members with hgrow | ⟨c, _, hc⟩
      · exact absurd (hgrow ha) hgone
      · rw [hc] at hb hgone
        -- the only member that can be gone is `c`
        have hac : a = c := by
          by_contra hne
          exact hgone ⟨ha, hne⟩
        exact hothers b hb.1 (hac ▸ hb.2)
    rw [← hm.decided]
    exact hlive.decided i hall
  · intro hcareful
    refine ⟨hm.enough, ?_⟩
    intro i hi
    rw [hm.voters] at hi
    rw [hm.decided]
    rcases hm.members with hgrow | ⟨a, ha, hgone⟩
    · exact h.decided i (hgrow.trans hi)
    · refine hcareful a ha ?_ i ?_
      · rw [hgone]
        exact fun hmem => hmem.2 rfl
      · intro b hb hne
        apply hi
        rw [hgone]
        exact ⟨hb, hne⟩

/-- **One step of the system**: some votes, or one change. -/
theorem live_step_iff [Finite A] (h : Live p)
    (hstep : Relation.ReflTransGen Voting p p' ∨ Managed p p') : Live p' ↔ Careful p p' := by
  rcases hstep with hv | hm
  · constructor
    · intro _ a ha hgone
      rw [members_voting hv] at hgone
      exact absurd ha hgone
    · intro _
      exact h.voting hv
  · exact h.managed_iff hm

/-! ## Enough votes -/

/-- Every item with enough voters is decided. -/
def Prompt (p : Poll A I) : Prop := ∀ i, p.required ≤ (p.voters i).ncard → p.decided i

theorem Prompt.vote (h : Prompt p) {a : A} {i : I} (hv : Vote p p' a i) : Prompt p' := by
  intro j hj
  rw [hv.required] at hj
  by_cases hji : j = i
  · subst hji
    exact hv.decided_self.mpr hj
  · rw [hv.voters_of_ne j hji] at hj
    exact (hv.decided_of_ne j hji).mpr (h j hj)

/-- **A step that does not lower the threshold** leaves no item with enough voters undecided. -/
theorem Prompt.step (h : Prompt p) (hstep : Relation.ReflTransGen Voting p p' ∨ Managed p p')
    (hrequired : p.required ≤ p'.required) : Prompt p' := by
  rcases hstep with hv | hm
  · induction hv using Relation.ReflTransGen.head_induction_on with
    | refl => exact h
    | head hfirst _ ih =>
        obtain ⟨a, i, hv⟩ := hfirst
        exact ih (h.vote hv) (hv.required ▸ hrequired)
  · intro i hi
    rw [hm.voters] at hi
    rw [hm.decided]
    exact h i (hrequired.trans hi)

end Poll
end ThunderBridge
