import Mathlib

/-!
# Priority queues

The container of a priority queue is a list in an order of its own, and the
greatest element of a comparison is taken out first.  Which one of several
greatest elements comes first is left to the list.
-/

namespace WebrtcWinXp.Support.PriorityQueue

variable {α β κ : Type*}

/-- The greatest element, and the others in their order. -/
def extract (lt : α → α → Bool) : List α → Option (α × List α)
  | [] => none
  | x :: xs =>
    match extract lt xs with
    | none => some (x, [])
    | some (y, rest) =>
      if lt x y then some (y, x :: rest) else some (x, xs)

/-- Take out greatest elements as long as they are ready, at most a number of
times. -/
def popReady (lt : α → α → Bool) (ready : α → Bool) :
    ℕ → List α → List α × List α
  | 0, c => ([], c)
  | n + 1, c =>
    match extract lt c with
    | none => ([], c)
    | some (x, rest) =>
      if ready x then
        let (popped, left) := popReady lt ready n rest
        (x :: popped, left)
      else ([], c)

section

variable {lt lt' : α → α → Bool} {x : α} {c rest : List α}

variable (lt) in
theorem extract_cons (x : α) (xs : List α) :
    extract lt (x :: xs) =
      match extract lt xs with
      | none => some (x, [])
      | some (y, rest) =>
        if lt x y then some (y, x :: rest) else some (x, xs) :=
  rfl

theorem extract_eq_none (h : extract lt c = none) : c = [] := by
  cases c with
  | nil => rfl
  | cons y ys =>
    rw [extract_cons] at h
    split at h
    · cases h
    · split_ifs at h

theorem extract_perm (h : extract lt c = some (x, rest)) :
    List.Perm (x :: rest) c := by
  induction c generalizing x rest with
  | nil => cases h
  | cons y ys ih =>
    rw [extract_cons] at h
    cases hys : extract lt ys with
    | none =>
      rw [hys] at h
      cases h
      rw [extract_eq_none hys]
    | some p =>
      obtain ⟨z, zs⟩ := p
      rw [hys] at h
      dsimp only at h
      split_ifs at h
      · cases h
        exact (List.Perm.swap y x zs).trans ((ih hys).cons y)
      · cases h
        exact .refl _

theorem extract_sublist (h : extract lt c = some (x, rest)) :
    List.Sublist rest c := by
  induction c generalizing x rest with
  | nil => cases h
  | cons y ys ih =>
    rw [extract_cons] at h
    cases hys : extract lt ys with
    | none =>
      rw [hys] at h
      cases h
      exact List.nil_sublist _
    | some p =>
      obtain ⟨z, zs⟩ := p
      rw [hys] at h
      dsimp only at h
      split_ifs at h
      · cases h
        exact (ih hys).cons_cons y
      · cases h
        exact List.sublist_cons_self _ _

theorem extract_congr (h : c.Pairwise fun x y => lt x y = lt' x y) :
    extract lt c = extract lt' c := by
  induction c with
  | nil => rfl
  | cons y ys ih =>
    obtain ⟨hy, hys⟩ := List.pairwise_cons.mp h
    rw [extract_cons, extract_cons, ← ih hys]
    cases hext : extract lt ys with
    | none => rfl
    | some p =>
      obtain ⟨z, zs⟩ := p
      dsimp only
      rw [hy z ((extract_perm hext).mem_iff.mp List.mem_cons_self)]

theorem extract_map (f : β → α) (c : List β) :
    extract lt (c.map f) =
      (extract (fun x y => lt (f x) (f y)) c).map fun p =>
        (f p.1, p.2.map f) := by
  induction c with
  | nil => rfl
  | cons y ys ih =>
    rw [List.map_cons, extract_cons, ih, extract_cons]
    cases extract (fun x y => lt (f x) (f y)) ys with
    | none => rfl
    | some p =>
      dsimp only [Option.map_some]
      split_ifs <;> rfl

theorem extract_key_le [LinearOrder κ] {key : α → κ}
    (hlt : ∀ x y, lt x y = decide (key y < key x))
    (h : extract lt c = some (x, rest)) : ∀ y ∈ c, key x ≤ key y := by
  induction c generalizing x rest with
  | nil => cases h
  | cons z zs ih =>
    rw [extract_cons] at h
    cases hzs : extract lt zs with
    | none =>
      rw [hzs] at h
      cases h
      rw [extract_eq_none hzs]
      intro y hy
      rw [List.mem_singleton.mp hy]
    | some p =>
      obtain ⟨w, ws⟩ := p
      rw [hzs] at h
      have hw := ih hzs
      dsimp only at h
      rw [hlt] at h
      by_cases hlt' : key w < key z
      · rw [if_pos (decide_eq_true hlt')] at h
        cases h
        intro y hy
        rcases List.mem_cons.mp hy with rfl | hy
        · exact hlt'.le
        · exact hw y hy
      · rw [if_neg (by simpa using hlt')] at h
        cases h
        intro y hy
        rcases List.mem_cons.mp hy with rfl | hy
        · exact le_refl _
        · exact (not_lt.mp hlt').trans (hw y hy)

end

/-! ## Taking out what is ready -/

section

variable {lt lt' : α → α → Bool} {ready : α → Bool}

variable (lt ready) in
theorem popReady_succ (n : ℕ) (c : List α) :
    popReady lt ready (n + 1) c =
      match extract lt c with
      | none => ([], c)
      | some (x, rest) =>
        if ready x then
          let (popped, left) := popReady lt ready n rest
          (x :: popped, left)
        else ([], c) :=
  rfl

variable (lt ready) in
theorem popReady_perm (n : ℕ) (c : List α) :
    List.Perm ((popReady lt ready n c).1 ++ (popReady lt ready n c).2) c := by
  induction n generalizing c with
  | zero => exact .refl _
  | succ n ih =>
    rw [popReady_succ]
    cases hext : extract lt c with
    | none => exact .refl _
    | some p =>
      obtain ⟨x, rest⟩ := p
      dsimp only
      split_ifs
      · exact ((ih rest).cons x).trans (extract_perm hext)
      · exact .refl _

theorem popReady_sublist (n : ℕ) (c : List α) :
    List.Sublist (popReady lt ready n c).2 c := by
  induction n generalizing c with
  | zero => exact .refl _
  | succ n ih =>
    rw [popReady_succ]
    cases hext : extract lt c with
    | none => exact .refl _
    | some p =>
      obtain ⟨x, rest⟩ := p
      dsimp only
      split_ifs
      · exact (ih rest).trans (extract_sublist hext)
      · exact .refl _

theorem popReady_ready (n : ℕ) (c : List α) :
    ∀ x ∈ (popReady lt ready n c).1, ready x := by
  induction n generalizing c with
  | zero => simp [popReady]
  | succ n ih =>
    rw [popReady_succ]
    cases hext : extract lt c with
    | none => simp
    | some p =>
      obtain ⟨x, rest⟩ := p
      dsimp only
      split_ifs with hready
      · intro y hy
        rcases List.mem_cons.mp hy with rfl | hy
        · exact hready
        · exact ih rest y hy
      · simp

theorem popReady_congr (n : ℕ) {c : List α}
    (h : c.Pairwise fun x y => lt x y = lt' x y) :
    popReady lt ready n c = popReady lt' ready n c := by
  induction n generalizing c with
  | zero => rfl
  | succ n ih =>
    rw [popReady_succ, popReady_succ, extract_congr h]
    cases hext : extract lt' c with
    | none => rfl
    | some p =>
      obtain ⟨x, rest⟩ := p
      dsimp only
      rw [ih (h.sublist (extract_sublist hext))]

theorem popReady_map (f : β → α) (n : ℕ) (c : List β) :
    popReady lt ready n (c.map f) =
      ((popReady (fun x y => lt (f x) (f y)) (fun x => ready (f x)) n c).1.map
          f,
        (popReady (fun x y => lt (f x) (f y)) (fun x => ready (f x)) n
          c).2.map f) := by
  induction n generalizing c with
  | zero => rfl
  | succ n ih =>
    rw [popReady_succ, extract_map, popReady_succ]
    cases extract (fun x y => lt (f x) (f y)) c with
    | none => rfl
    | some p =>
      obtain ⟨x, rest⟩ := p
      dsimp only [Option.map_some]
      split_ifs
      · rw [ih]
        rfl
      · rfl

theorem popReady_key_le [LinearOrder κ] (key : α → κ) (ready : α → Bool) (n : ℕ)
    (c : List α) :
    let popped := popReady (fun x y => decide (key y < key x)) ready n c
    (popped.1.Pairwise fun x y => key x ≤ key y) ∧
      ∀ x ∈ popped.1, ∀ y ∈ popped.2, key x ≤ key y := by
  induction n generalizing c with
  | zero => simp [popReady]
  | succ n ih =>
    rw [popReady_succ]
    cases hext : extract (fun x y => decide (key y < key x)) c with
    | none => simp
    | some p =>
      obtain ⟨x, rest⟩ := p
      dsimp only
      split_ifs
      · have hmin : ∀ y ∈ rest, key x ≤ key y := fun y hy =>
          extract_key_le (fun _ _ => rfl) hext y
            ((extract_perm hext).mem_iff.mp (List.mem_cons_of_mem x hy))
        obtain ⟨hsorted, hleft⟩ := ih rest
        have hperm := popReady_perm (fun x y => decide (key y < key x))
          ready n rest
        refine ⟨List.pairwise_cons.mpr ⟨fun y hy => hmin y ?_, hsorted⟩,
          fun y hy z hz => ?_⟩
        · exact hperm.mem_iff.mp (List.mem_append_left _ hy)
        · rcases List.mem_cons.mp hy with rfl | hy
          · exact hmin z (hperm.mem_iff.mp (List.mem_append_right _ hz))
          · exact hleft y hy z hz
      · simp

end

end WebrtcWinXp.Support.PriorityQueue
