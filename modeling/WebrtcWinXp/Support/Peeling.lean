import Mathlib.Data.List.Basic

/-!
# Equations that are solved one unknown at a time

An equation is given by its unknowns.  When all of them but one are known, the
last one becomes known too.
-/

namespace WebrtcWinXp.Support

variable {α : Type*} {known known' : α → Prop}
  {equations equations' : List (List α)} {x : α}

/-- What follows from `known` by solving equations with one unknown left. -/
inductive Solvable (known : α → Prop) (equations : List (List α)) :
    α → Prop where
  | known {x : α} (h : known x) : Solvable known equations x
  | solve {e : List α} {x : α} (he : e ∈ equations) (hx : x ∈ e)
      (h : ∀ y ∈ e, y ≠ x → Solvable known equations y) :
      Solvable known equations x

theorem Solvable.single (h : [x] ∈ equations) : Solvable known equations x := by
  refine .solve h List.mem_cons_self fun y hy hne => ?_
  exact absurd (List.mem_singleton.mp hy) hne

theorem Solvable.known_or_unknown (h : Solvable known equations x) :
    known x ∨ ∃ e ∈ equations, x ∈ e := by
  cases h with
  | known h => exact Or.inl h
  | solve he hx _ => exact Or.inr ⟨_, he, hx⟩

/-- Equations from which solvable unknowns have been removed, and solvable
unknowns that have become known, do not make more solvable. -/
theorem Solvable.of_reduced
    (hknown : ∀ y, known' y → Solvable known equations y)
    (hequations : ∀ e' ∈ equations', ∃ e ∈ equations,
      e' ⊆ e ∧ ∀ y ∈ e, y ∉ e' → Solvable known equations y)
    (h : Solvable known' equations' x) : Solvable known equations x := by
  induction h with
  | known h => exact hknown _ h
  | @solve e' x he' hx _ ih =>
    obtain ⟨e, he, hsub, hrest⟩ := hequations e' he'
    refine .solve he (hsub hx) fun y hy hne => ?_
    by_cases hmem : y ∈ e'
    · exact ih y hmem hne
    · exact hrest y hy hmem

theorem Solvable.known_of_stuck
    (hstuck : ∀ e ∈ equations, ∀ y ∈ e, ∃ z ∈ e, z ≠ y ∧ ¬known z)
    (h : Solvable known equations x) : known x := by
  induction h with
  | known h => exact h
  | solve he hx _ ih =>
    obtain ⟨z, hz, hne, hunknown⟩ := hstuck _ he _ hx
    exact absurd (ih z hz hne) hunknown

end WebrtcWinXp.Support
