import Mathlib

/-!
# Tilings

A list of pieces tiles a stretch of positions if each piece starts where the
one before it ends.  What stands at a position is given by an address, so the
positions may be those of a counter that wraps around.
-/

namespace WebrtcWinXp.Support

variable {α ι : Type*} {start : α → ι} {width : α → ℕ} {address : ℕ → ι}
  {xs ys : List α} {n k : ℕ}

/-- The length of the stretch that the pieces cover. -/
def total (width : α → ℕ) (xs : List α) : ℕ := (xs.map width).sum

/-- The pieces cover a stretch from position `n` on. -/
def Tiles (start : α → ι) (width : α → ℕ) (address : ℕ → ι) :
    ℕ → List α → Prop
  | _, [] => True
  | n, x :: xs => start x = address n ∧
      Tiles start width address (n + width x) xs

@[simp] theorem total_nil : total width [] = 0 := rfl

@[simp] theorem total_cons (x : α) :
    total width (x :: xs) = width x + total width xs := by
  simp [total]

@[simp] theorem total_append :
    total width (xs ++ ys) = total width xs + total width ys := by
  simp [total]

@[simp] theorem tiles_nil : Tiles start width address n [] := trivial

@[simp] theorem tiles_cons {x : α} :
    Tiles start width address n (x :: xs) ↔ start x = address n ∧
      Tiles start width address (n + width x) xs := Iff.rfl

@[simp] theorem tiles_append :
    Tiles start width address n (xs ++ ys) ↔
      Tiles start width address n xs ∧
        Tiles start width address (n + total width xs) ys := by
  induction xs generalizing n with
  | nil => simp
  | cons x xs ih =>
    simp [ih, and_assoc, Nat.add_assoc]

theorem tiles_shift {address' : ℕ → ι}
    (h : ∀ m, address' m = address (k + m)) :
    Tiles start width address' n xs ↔
      Tiles start width address (k + n) xs := by
  induction xs generalizing n with
  | nil => simp
  | cons x xs ih => simp [ih, h, Nat.add_assoc]

theorem eq_nil_of_total (width : α → ℕ) (hpos : ∀ x ∈ xs, 0 < width x)
    (h : total width xs = 0) : xs = [] := by
  cases xs with
  | nil => rfl
  | cons x xs =>
    have hx := hpos x List.mem_cons_self
    simp only [total_cons] at h
    omega

theorem exists_split (hk : k ≤ total width xs)
    (h : ∀ before x after, xs = before ++ x :: after →
      ¬(total width before < k ∧ k < total width before + width x)) :
    ∃ before after, xs = before ++ after ∧ total width before = k := by
  induction xs generalizing k with
  | nil => exact ⟨[], [], rfl, (Nat.le_zero.mp hk).symm⟩
  | cons x xs ih =>
    by_cases hzero : k = 0
    · exact ⟨[], x :: xs, rfl, hzero.symm⟩
    · have hx : width x ≤ k := by
        have := h [] x xs rfl
        simp only [total_nil] at this
        omega
      obtain ⟨before, after, rfl, htotal⟩ := ih (k := k - width x)
        (by simp only [total_cons] at hk; omega)
        (by
          intro before y after hsplit
          have := h (x :: before) y after (by rw [hsplit]; rfl)
          simp only [total_cons] at this
          omega)
      refine ⟨x :: before, after, rfl, ?_⟩
      simp only [total_cons]
      omega

theorem prefix_of_total_le {before after before' after' : List α}
    (hpos : ∀ x ∈ before ++ after, 0 < width x)
    (h : before ++ after = before' ++ after')
    (hle : total width before ≤ total width before') :
    ∃ between, before' = before ++ between ∧ after = between ++ after' := by
  rcases List.append_eq_append_iff.mp h with
    ⟨between, rfl, rfl⟩ | ⟨between, rfl, rfl⟩
  · exact ⟨between, rfl, rfl⟩
  · have hnil : between = [] := by
      refine eq_nil_of_total width ?_ ?_
      · intro x hx
        exact hpos x (by simp [hx])
      · simp only [total_append] at hle
        omega
    subst hnil
    exact ⟨[], by simp, by simp⟩

end WebrtcWinXp.Support
