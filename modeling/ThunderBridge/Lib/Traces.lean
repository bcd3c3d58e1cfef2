import Mathlib.Data.List.Infix

/-!
# `Lib.Traces` — machines driven by a list of inputs

A machine is a function `step : σ → α → σ`, and a run is a list of inputs. `Throughout` says that a property
holds in every state of a run, `EachInput` that every input is fit for the state it comes in. When one step
keeps the property exactly on fit inputs, then so does a run (`throughout_iff_eachInput`).
-/

namespace ThunderBridge
namespace Traces

variable {σ α : Type*} (step : σ → α → σ)

/-- The state after some inputs. -/
def after (s : σ) (xs : List α) : σ := xs.foldl step s

/-- `P` holds in every state of the run, the first one included. -/
def Throughout (P : σ → Prop) (s : σ) (xs : List α) : Prop := ∀ ys, ys <+: xs → P (after step s ys)

/-- Every input of the run is fit for the state it comes in. -/
def EachInput (fit : σ → α → Prop) (s : σ) (xs : List α) : Prop :=
  ∀ ys x, ys ++ [x] <+: xs → fit (after step s ys) x

variable {step} {P I : σ → Prop} {fit : σ → α → Prop} {s : σ} {x : α} {xs : List α}

@[simp] theorem after_nil : after step s [] = s := rfl

@[simp] theorem after_cons : after step s (x :: xs) = after step (step s x) xs := rfl

theorem after_append (xs ys : List α) : after step s (xs ++ ys) = after step (after step s xs) ys :=
  List.foldl_append

theorem throughout_nil : Throughout step P s [] ↔ P s := by
  constructor
  · intro h
    exact h [] List.nil_prefix
  · intro h ys hys
    rw [List.prefix_nil.mp hys]
    exact h

theorem throughout_cons : Throughout step P s (x :: xs) ↔ P s ∧ Throughout step P (step s x) xs := by
  constructor
  · intro h
    refine ⟨h [] List.nil_prefix, ?_⟩
    intro ys hys
    exact h (x :: ys) (List.prefix_cons_inj x |>.mpr hys)
  · rintro ⟨hs, h⟩ ys hys
    rcases List.prefix_cons_iff.mp hys with rfl | ⟨zs, rfl, hzs⟩
    · exact hs
    · exact h zs hzs

theorem eachInput_nil : EachInput step fit s [] := by
  intro ys x h
  exact absurd (List.prefix_nil.mp h) (by simp)

theorem eachInput_cons :
    EachInput step fit s (x :: xs) ↔ fit s x ∧ EachInput step fit (step s x) xs := by
  constructor
  · intro h
    refine ⟨h [] x ⟨xs, rfl⟩, ?_⟩
    intro ys y hys
    exact h (x :: ys) y (List.prefix_cons_inj x |>.mpr hys)
  · rintro ⟨hx, h⟩ ys y hys
    cases ys with
    | nil =>
        obtain ⟨rfl, _⟩ := List.cons_prefix_cons.mp hys
        exact hx
    | cons z zs =>
        obtain ⟨rfl, hzs⟩ := List.cons_prefix_cons.mp hys
        exact h zs y hzs

/-- **Exact conditions on runs.** Under an invariant `I`, one step keeps `P` exactly on fit inputs; then `P`
    holds throughout a run exactly when each of its inputs is fit. -/
theorem throughout_iff_eachInput (hinv : ∀ s, I s → ∀ x ∈ xs, I (step s x))
    (hstep : ∀ s, I s → P s → ∀ x ∈ xs, (P (step s x) ↔ fit s x)) (hI : I s) (hP : P s) :
    Throughout step P s xs ↔ EachInput step fit s xs := by
  induction xs generalizing s with
  | nil =>
      rw [throughout_nil]
      exact ⟨fun _ => eachInput_nil, fun _ => hP⟩
  | cons x xs ih =>
      have hx := hstep s hI hP x List.mem_cons_self
      have hrest : P (step s x) →
          (Throughout step P (step s x) xs ↔ EachInput step fit (step s x) xs) := by
        intro hPx
        apply ih
        · intro t ht y hy
          exact hinv t ht y (List.mem_cons_of_mem x hy)
        · intro t ht hPt y hy
          exact hstep t ht hPt y (List.mem_cons_of_mem x hy)
        · exact hinv s hI x List.mem_cons_self
        · exact hPx
      rw [throughout_cons, eachInput_cons]
      constructor
      · rintro ⟨_, h⟩
        have hPx : P (step s x) := h [] List.nil_prefix
        exact ⟨hx.mp hPx, (hrest hPx).mp h⟩
      · rintro ⟨hfit, h⟩
        exact ⟨hP, (hrest (hx.mpr hfit)).mpr h⟩

/-- What one step keeps holds throughout a run. -/
theorem throughout_of_invariant (hstep : ∀ s, I s → ∀ x ∈ xs, I (step s x)) (hP : ∀ s, I s → P s) (hI : I s) :
    Throughout step P s xs := by
  induction xs generalizing s with
  | nil => exact throughout_nil.mpr (hP s hI)
  | cons x xs ih =>
      refine throughout_cons.mpr ⟨hP s hI, ih ?_ (hstep s hI x List.mem_cons_self)⟩
      intro t ht y hy
      exact hstep t ht y (List.mem_cons_of_mem x hy)

end Traces
end ThunderBridge
