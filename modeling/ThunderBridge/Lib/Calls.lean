import Mathlib.Logic.Relation

/-!
# `Lib.Calls` — runs, and code that is called back while it runs

Generic rules for systems given by a step relation on a state type `σ`.

* `steps_invariant` / `steps_rel`: what one step keeps, a whole run keeps. A run is Mathlib's
  `Relation.ReflTransGen`.
* `Nested body env n`: one call of a routine `body` that hands control to others while it runs. They
  may enter `body` again, at most `n` deep, and do anything `env` allows in between. The routine is
  given as a relation *over* what its outgoing calls may do to the state, so the nesting is a plain
  recursion on the depth and `nested_rel` is its induction rule: a reflexive and transitive relation
  that `body` keeps *whenever its outgoing calls keep it* is kept at every depth.
-/

namespace ThunderBridge
namespace Calls

open Relation

variable {σ : Type*}

/-! ## Whole runs from one step -/

/-- An invariant of one step is an invariant of a run. -/
theorem steps_invariant {step : σ → σ → Prop} {P : σ → Prop}
    (hstep : ∀ s s', P s → step s s' → P s') {s s' : σ} (hrun : ReflTransGen step s s') (h : P s) :
    P s' := by
  induction hrun with
  | refl => exact h
  | tail _ hlast ih => exact hstep _ _ ih hlast

/-- A reflexive and transitive relation that contains every step contains every run. -/
theorem steps_rel {step R : σ → σ → Prop} (hrefl : ∀ s, R s s)
    (htrans : ∀ s₁ s₂ s₃, R s₁ s₂ → R s₂ s₃ → R s₁ s₃) (hstep : ∀ s s', step s s' → R s s')
    {s s' : σ} (hrun : ReflTransGen step s s') : R s s' := by
  induction hrun with
  | refl => exact hrefl _
  | tail _ hlast ih => exact htrans _ _ _ ih (hstep _ _ hlast)

/-! ## Calls that nest -/

/-- What an outgoing call may do to the state when the routine can be entered again by `call`. -/
def Callback (env call : σ → σ → Prop) : σ → σ → Prop :=
  ReflTransGen fun s s' => env s s' ∨ call s s'

/-- One call of `body`; the calls it makes enter it again at most `n` deep. -/
def Nested (body : (σ → σ → Prop) → σ → σ → Prop) (env : σ → σ → Prop) : Nat → σ → σ → Prop
  | 0 => fun _ _ => False
  | n + 1 => body (Callback env (Nested body env n))

theorem callback_rel {env call R : σ → σ → Prop} (hrefl : ∀ s, R s s)
    (htrans : ∀ s₁ s₂ s₃, R s₁ s₂ → R s₂ s₃ → R s₁ s₃) (henv : ∀ s s', env s s' → R s s')
    (hcall : ∀ s s', call s s' → R s s') {s s' : σ} (h : Callback env call s s') : R s s' :=
  steps_rel hrefl htrans (fun _ _ h => h.elim (henv _ _) (hcall _ _)) h

/-- **Induction rule for nested calls.** A reflexive and transitive relation kept by the environment,
    and by `body` whenever its outgoing calls keep it, is kept by a call of any depth. -/
theorem nested_rel {body : (σ → σ → Prop) → σ → σ → Prop} {env R : σ → σ → Prop}
    (hrefl : ∀ s, R s s) (htrans : ∀ s₁ s₂ s₃, R s₁ s₂ → R s₂ s₃ → R s₁ s₃)
    (henv : ∀ s s', env s s' → R s s')
    (hbody : ∀ out : σ → σ → Prop, (∀ s s', out s s' → R s s') → ∀ s s', body out s s' → R s s') :
    ∀ n s s', Nested body env n s s' → R s s' := by
  intro n
  induction n with
  | zero => intro s s' h; exact h.elim
  | succ n ih =>
      intro s s' h
      exact hbody _ (fun _ _ hout => callback_rel hrefl htrans henv ih hout) s s' h

/-- **Embedding.** A routine over an environment is another routine over another one, if it is so whatever the
    outgoing calls do. -/
theorem nested_mono {body body' : (σ → σ → Prop) → σ → σ → Prop} {env env' : σ → σ → Prop}
    (henv : ∀ s s', env s s' → env' s s')
    (hbody : ∀ out out' : σ → σ → Prop, (∀ s s', out s s' → out' s s') → (∀ s s', env' s s' → out' s s') →
      (∀ s₁ s₂ s₃, out' s₁ s₂ → out' s₂ s₃ → out' s₁ s₃) → ∀ s s', body out s s' → body' out' s s') :
    ∀ n s s', Nested body env n s s' → Nested body' env' n s s' := by
  intro n
  induction n with
  | zero => intro s s' h; exact h
  | succ n ih =>
      intro s s' h
      refine hbody _ (Callback env' (Nested body' env' n)) ?_ ?_ ?_ s s' h
      · intro t t' hout
        exact hout.lift id fun _ _ hstep => hstep.imp (henv _ _) (ih _ _)
      · intro t t' he
        exact ReflTransGen.single (Or.inl he)
      · intro t₁ t₂ t₃ h₁ h₂
        exact ReflTransGen.trans h₁ h₂

end Calls
end ThunderBridge
