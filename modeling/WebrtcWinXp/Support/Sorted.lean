import Mathlib.Data.List.DropRight
import Mathlib.Data.List.Range
import Mathlib.Data.List.Sort

/-!
# Sorted lists that are searched from behind

A search from the end of a sorted list stops at the last element that is not
beyond what is looked for.  There a new element is inserted.
-/

namespace WebrtcWinXp.Support

variable {α : Type*} {R : α → α → Prop} {p : α → Bool} {l : List α}

/-- Whether an element is beyond goes along with the order. -/
def Upward (R : α → α → Prop) (p : α → Bool) (l : List α) : Prop :=
  ∀ a ∈ l, ∀ b ∈ l, R a b → p a = true → p b = true

theorem Upward.left {r : List α} (h : Upward R p (l ++ r)) : Upward R p l :=
  fun a ha b hb =>
    h a (List.mem_append_left r ha) b (List.mem_append_left r hb)

theorem rdropWhile_eq_filter (hl : l.Pairwise R) (hp : Upward R p l) :
    l.rdropWhile p = l.filter fun a => !p a := by
  induction l using List.reverseRecOn with
  | nil => rfl
  | append_singleton l a ih =>
    rw [List.pairwise_append] at hl
    rw [List.rdropWhile_concat, List.filter_append]
    by_cases ha : p a = true
    · rw [if_pos ha, ih hl.1 hp.left]
      simp [ha]
    · have hall : ∀ b ∈ l, (!p b) = true := by
        intro b hb
        rw [Bool.not_eq_true', ← Bool.not_eq_true]
        intro hpb
        exact ha (hp b (List.mem_append_left _ hb) a (by simp)
          (hl.2.2 b hb a (List.mem_singleton_self a)) hpb)
      rw [if_neg ha, List.filter_eq_self.mpr hall]
      simp [ha]

theorem rtakeWhile_eq_filter (hl : l.Pairwise R) (hp : Upward R p l) :
    l.rtakeWhile p = l.filter p := by
  induction l using List.reverseRecOn with
  | nil => rfl
  | append_singleton l a ih =>
    rw [List.pairwise_append] at hl
    rw [List.rtakeWhile_concat, List.filter_append]
    by_cases ha : p a = true
    · rw [if_pos ha, ih hl.1 hp.left]
      simp [ha]
    · have hnone : ∀ b ∈ l, ¬p b = true := by
        intro b hb hpb
        exact ha (hp b (List.mem_append_left _ hb) a (by simp)
          (hl.2.2 b hb a (List.mem_singleton_self a)) hpb)
      rw [if_neg ha, List.filter_eq_nil_iff.mpr hnone]
      simp [ha]

theorem rdropWhile_map {β : Type*} {g : β → α} (l : List β) :
    (l.map g).rdropWhile p = (l.rdropWhile (p ∘ g)).map g := by
  rw [List.rdropWhile, List.rdropWhile, ← List.map_reverse, List.dropWhile_map,
    List.map_reverse]

theorem rtakeWhile_map {β : Type*} {g : β → α} (l : List β) :
    (l.map g).rtakeWhile p = (l.rtakeWhile (p ∘ g)).map g := by
  rw [List.rtakeWhile, List.rtakeWhile, ← List.map_reverse, List.takeWhile_map,
    List.map_reverse]

/-! ## Strict weak orderings -/

/-- A strict weak ordering on the elements of a list. -/
structure StrictWeak (lt : α → α → Bool) (l : List α) : Prop where
  irrefl : ∀ a ∈ l, lt a a = false
  trans : ∀ a ∈ l, ∀ b ∈ l, ∀ c ∈ l, lt a b = true → lt b c = true →
    lt a c = true
  compares : ∀ a ∈ l, ∀ b ∈ l, ∀ c ∈ l, lt a c = true →
    lt a b = true ∨ lt b c = true

/-- No element is less than one in front of it. -/
def SortedBy (lt : α → α → Bool) (l : List α) : Prop :=
  l.Pairwise fun a b => lt b a = false

variable {lt : α → α → Bool} {a : α}

theorem StrictWeak.of_key {κ : Type*} [LinearOrder κ] (key : α → κ)
    (h : ∀ a ∈ l, ∀ b ∈ l, (lt a b = true ↔ key a < key b)) :
    StrictWeak lt l where
  irrefl a ha := by
    rw [← Bool.not_eq_true, h a ha a ha]
    exact lt_irrefl (key a)
  trans a ha b hb c hc hab hbc := by
    rw [h _ ha _ hb] at hab
    rw [h _ hb _ hc] at hbc
    rw [h _ ha _ hc]
    exact hab.trans hbc
  compares a ha b hb c hc hac := by
    rw [h _ ha _ hc] at hac
    rw [h _ ha _ hb, h _ hb _ hc]
    exact (lt_or_ge (key a) (key b)).imp_right fun hle => hle.trans_lt hac

theorem StrictWeak.sortedBy_insert (h : StrictWeak lt (a :: l))
    (hl : SortedBy lt l) :
    SortedBy lt (l.rdropWhile (lt a) ++ a :: l.rtakeWhile (lt a)) := by
  have hmem : ∀ b ∈ l, b ∈ a :: l := fun b hb => List.mem_cons_of_mem a hb
  have ha : a ∈ a :: l := List.mem_cons_self
  have hupward : Upward (fun x y => lt y x = false) (lt a) l := by
    intro x hx y hy hxy hax
    obtain hay | hyx := h.compares a ha y (hmem y hy) x (hmem x hx) hax
    · exact hay
    · rw [hxy] at hyx
      cases hyx
  have hfront : ∀ x ∈ l.rdropWhile (lt a), x ∈ l ∧ lt a x = false := by
    intro x hx
    rw [rdropWhile_eq_filter hl hupward, List.mem_filter] at hx
    rwa [Bool.not_eq_true'] at hx
  have hback : ∀ x ∈ l.rtakeWhile (lt a), x ∈ l ∧ lt a x = true := by
    intro x hx
    rw [rtakeWhile_eq_filter hl hupward, List.mem_filter] at hx
    exact hx
  refine List.pairwise_append.mpr ⟨?_, List.pairwise_cons.mpr ⟨?_, ?_⟩, ?_⟩
  · exact List.Pairwise.sublist (List.rdropWhile_prefix _ _).sublist hl
  · intro x hx
    obtain ⟨hxl, hax⟩ := hback x hx
    by_contra hxa
    rw [Bool.not_eq_false] at hxa
    have haa := h.trans a ha x (hmem x hxl) a ha hax hxa
    rw [h.irrefl a ha] at haa
    cases haa
  · exact List.Pairwise.sublist (List.rtakeWhile_suffix _ _).sublist hl
  · intro x hx y hy
    obtain ⟨hxl, hax⟩ := hfront x hx
    obtain rfl | hy := List.mem_cons.mp hy
    · exact hax
    · obtain ⟨hyl, hay⟩ := hback y hy
      by_contra hyx
      rw [Bool.not_eq_false] at hyx
      have hax' := h.trans a ha y (hmem y hyl) x (hmem x hxl) hay hyx
      rw [hax] at hax'
      cases hax'

theorem sortedBy_mergeSort {κ : Type*} [LinearOrder κ] (key : α → κ)
    (h : ∀ a ∈ l, ∀ b ∈ l, (lt a b = true ↔ key a < key b)) :
    SortedBy lt (l.mergeSort fun a b => !lt b a) := by
  have hkey : ∀ a ∈ l, ∀ b ∈ l, (!lt b a) = decide (key a ≤ key b) := by
    intro a ha b hb
    rw [Bool.eq_iff_iff, Bool.not_eq_true', ← Bool.not_eq_true, h b hb a ha,
      decide_eq_true_iff, not_lt]
  have hsorted : ((l.map key).mergeSort fun x y => decide (x ≤ y)).Pairwise
      (fun x y => decide (x ≤ y) = true) := by
    refine List.pairwise_mergeSort ?_ ?_ _
    · intro x y z hxy hyz
      rw [decide_eq_true_iff] at hxy hyz ⊢
      exact hxy.trans hyz
    · intro x y
      rw [Bool.or_eq_true, decide_eq_true_iff, decide_eq_true_iff]
      exact le_total x y
  rw [← List.map_mergeSort hkey, List.pairwise_map] at hsorted
  refine hsorted.imp_of_mem fun {a b} ha hb hab => ?_
  rw [List.mem_mergeSort] at ha hb
  rw [← hkey a ha b hb, Bool.not_eq_true'] at hab
  exact hab

theorem eq_range'_of_isChain {a : ℕ} {l : List ℕ}
    (h : (a :: l).IsChain fun m n => m + 1 = n) :
    a :: l = List.range' a (l.length + 1) := by
  induction l generalizing a with
  | nil => rfl
  | cons b l ih =>
    rw [List.isChain_cons_cons] at h
    obtain ⟨rfl, hrest⟩ := h
    rw [ih hrest, List.length_range', List.range'_succ (s := a)]

theorem isChain_range' (a n : ℕ) :
    (List.range' a n).IsChain fun m n => m + 1 = n := by
  induction n generalizing a with
  | zero => exact List.isChain_nil
  | succ n ih =>
    have hrest := ih (a + 1)
    rw [List.range'_succ]
    cases n with
    | zero => exact List.isChain_singleton a
    | succ n =>
      rw [List.range'_succ] at hrest ⊢
      exact List.isChain_cons_cons.mpr ⟨rfl, hrest⟩

theorem mem_of_isChain {l : List ℕ} {n : ℕ}
    (h : l.IsChain fun m n => m + 1 = n) (hfirst : 0 ∈ l)
    (hlast : n ∈ l) {i : ℕ} (hi : i ≤ n) : i ∈ l := by
  cases l with
  | nil => exact absurd hfirst List.not_mem_nil
  | cons a l =>
    rw [eq_range'_of_isChain h, List.mem_range'_1] at hfirst hlast ⊢
    omega

theorem isChain_of_forall_mem {l : List ℕ} {n : ℕ}
    (hl : l.Pairwise (· < ·)) (h : ∀ i, i ∈ l ↔ i < n) :
    l.IsChain fun m n => m + 1 = n := by
  have heq : l = List.range' 0 n := by
    apply hl.eq_of_mem_iff
    · exact List.pairwise_lt_range'
    · intro i
      rw [h, List.mem_range'_1]
      omega
  rw [heq]
  exact isChain_range' 0 n

end WebrtcWinXp.Support
