import Mathlib.Data.List.Basic

/-!
# Searching in strings

`find` and `substr` of `std::string`, for strings of any characters.  A search
for one character cuts the rest of the string in two.  Lists of selected
elements, and runs of numbers.
-/

namespace WebrtcWinXp.Support

variable {α : Type*}

/-- `s.find(pattern, pos)`; nothing stands for `npos`. -/
def find [DecidableEq α] (pattern s : List α) (pos : ℕ) : Option ℕ :=
  (List.range (s.length + 1)).find? fun i =>
    pos ≤ i && pattern.isPrefixOf (s.drop i)

/-- `s.substr(pos, n)`. -/
def substr (s : List α) (pos n : ℕ) : List α := (s.drop pos).take n

variable {pattern s l rest : List α} {pos i : ℕ} {c : α}

/-- The first place from `pos` on where the pattern stands. -/
theorem find_eq_some_iff [DecidableEq α] :
    find pattern s pos = some i ↔
      i ≤ s.length ∧ pos ≤ i ∧ pattern <+: s.drop i ∧
        ∀ j, pos ≤ j → j < i → ¬pattern <+: s.drop j := by
  rw [find, List.find?_range_eq_some]
  simp only [Bool.and_eq_true, decide_eq_true_eq, List.isPrefixOf_iff_prefix,
    List.mem_range, Bool.not_eq_true', ← Bool.not_eq_true, not_and]
  constructor
  · rintro ⟨⟨hpos, hstart⟩, hlt, hbefore⟩
    exact ⟨by omega, hpos, hstart, fun j hj hji => hbefore j hji hj⟩
  · rintro ⟨hle, hpos, hstart, hbefore⟩
    exact ⟨⟨hpos, hstart⟩, by omega, fun j hji hj => hbefore j hj hji⟩

theorem find_eq_none_iff [DecidableEq α] :
    find pattern s pos = none ↔
      ∀ i, i ≤ s.length → pos ≤ i → ¬pattern <+: s.drop i := by
  rw [find, List.find?_eq_none]
  simp only [List.mem_range, Bool.and_eq_true, decide_eq_true_eq,
    List.isPrefixOf_iff_prefix, not_and]
  constructor
  · exact fun h i hi => h i (by omega)
  · exact fun h i hi => h i (by omega)

theorem find_isSome_iff [DecidableEq α] :
    (find pattern s 0).isSome ↔ pattern <:+: s := by
  rw [← not_iff_not, Option.not_isSome_iff_eq_none, find_eq_none_iff]
  constructor
  · intro h hinfix
    obtain ⟨before, after, rfl⟩ := hinfix
    refine h before.length (by simp) (Nat.zero_le _) ?_
    rw [List.append_assoc, List.drop_left]
    exact List.prefix_append pattern after
  · exact fun h i _ _ hstart =>
      h (hstart.isInfix.trans (List.drop_suffix i s).isInfix)

theorem singleton_prefix_iff : [c] <+: l ↔ l.head? = some c := by
  cases l with
  | nil => simp
  | cons a l => simp [List.cons_prefix_cons, eq_comm]

theorem find_singleton_of_not_mem [DecidableEq α] (h : c ∉ s.drop pos) :
    find [c] s pos = none := by
  rw [find_eq_none_iff]
  intro i _ hpos hstart
  obtain ⟨k, rfl⟩ := Nat.exists_eq_add_of_le hpos
  rw [← List.drop_drop] at hstart
  exact h (List.mem_of_mem_drop (hstart.subset List.mem_cons_self))

theorem find_singleton_of_drop [DecidableEq α]
    (hdrop : s.drop pos = l ++ c :: rest) (h : c ∉ l) :
    find [c] s pos = some (pos + l.length) := by
  have hcut (k : ℕ) : s.drop (pos + k) = (l ++ c :: rest).drop k := by
    rw [← hdrop, List.drop_drop]
  have hlength := congrArg List.length hdrop
  rw [List.length_drop, List.length_append, List.length_cons] at hlength
  rw [find_eq_some_iff]
  refine ⟨by omega, by omega, ?_, ?_⟩
  · rw [hcut, List.drop_left]
    exact ⟨rest, rfl⟩
  · intro j hpos hj hstart
    obtain ⟨k, rfl⟩ := Nat.exists_eq_add_of_le hpos
    rw [hcut, singleton_prefix_iff, List.head?_drop,
      List.getElem?_append_left (by omega)] at hstart
    exact h (List.mem_of_getElem? hstart)

theorem substr_of_drop (hdrop : s.drop pos = l ++ c :: rest) :
    substr s pos l.length = l := by
  rw [substr, hdrop, List.take_left]

theorem drop_succ_of_drop (hdrop : s.drop pos = l ++ c :: rest) :
    s.drop (pos + l.length + 1) = rest := by
  rw [Nat.add_assoc, ← List.drop_drop, hdrop, ← List.drop_drop, List.drop_left,
    List.drop_one, List.tail_cons]

section Selections

variable {β : Type*} {f g : α → Option β}

theorem filterMap_sublist_filterMap (h : ∀ a, g a = none ∨ g a = f a) (l : List α) :
    (l.filterMap g).Sublist (l.filterMap f) := by
  induction l with
  | nil => exact .slnil
  | cons a l ih =>
    rw [List.filterMap_cons, List.filterMap_cons]
    rcases h a with hnone | hsame
    · rw [hnone]
      cases f a with
      | none => exact ih
      | some b => exact ih.cons b
    · rw [hsame]
      cases f a with
      | none => exact ih
      | some b => exact ih.cons_cons b

theorem filterMap_eq_filterMap_iff (h : ∀ a, g a = none ∨ g a = f a) (l : List α) :
    l.filterMap f = l.filterMap g ↔ ∀ a ∈ l, f a = g a := by
  refine ⟨fun heq => ?_, List.filterMap_congr⟩
  induction l with
  | nil => nofun
  | cons a l ih =>
    rw [List.filterMap_cons, List.filterMap_cons] at heq
    rw [List.forall_mem_cons]
    rcases h a with hnone | hsame
    · rw [hnone] at heq ⊢
      cases hf : f a with
      | none => exact ⟨rfl, ih (by rwa [hf] at heq)⟩
      | some b =>
        have hlength := (filterMap_sublist_filterMap h l).length_le
        rw [hf] at heq
        dsimp only at heq
        rw [← heq, List.length_cons] at hlength
        omega
    · rw [hsame] at heq
      refine ⟨hsame.symm, ih ?_⟩
      cases hf : f a with
      | none => rwa [hf] at heq
      | some b =>
        rw [hf] at heq
        exact List.tail_eq_of_cons_eq heq

end Selections

theorem takeWhile_range' (p : ℕ → Bool) (a n : ℕ) :
    ∃ d ≤ n, (List.range' a n).takeWhile p = List.range' a d ∧
      (∀ j < d, p (a + j) = true) ∧ (d < n → p (a + d) = false) := by
  induction n generalizing a with
  | zero =>
    exact ⟨0, Nat.le_refl 0, rfl, fun _ hj => absurd hj (Nat.not_lt_zero _),
      fun hn => absurd hn (Nat.lt_irrefl 0)⟩
  | succ n ih =>
    rw [List.range'_succ, List.takeWhile_cons]
    by_cases ha : p a = true
    · obtain ⟨d, hd, heq, htrue, hfalse⟩ := ih (a + 1)
      refine ⟨d + 1, by omega, ?_, ?_, ?_⟩
      · rw [if_pos ha, heq, List.range'_succ]
      · intro j hj
        cases j with
        | zero => exact ha
        | succ j =>
          rw [← Nat.add_assoc, Nat.add_right_comm]
          exact htrue j (by omega)
      · intro hlt
        rw [← Nat.add_assoc, Nat.add_right_comm]
        exact hfalse (by omega)
    · refine ⟨0, Nat.zero_le _, if_neg ha,
        fun _ hj => absurd hj (Nat.not_lt_zero _), fun _ => ?_⟩
      exact Bool.not_eq_true _ ▸ ha

end WebrtcWinXp.Support
