import Mathlib

/-!
# Branch and bound

A binary tree is searched for a leaf of least cost.  The child that costs less is
searched first, and the other one only if it does not cost more than the leaf
that was found.  This is sound when no child costs less than its parent.
-/

namespace WebrtcWinXp.Support

variable {α β : Type*} [LinearOrder β]

/-- The search below two siblings. -/
def searchBoth (search : α → α) (cost : α → β) (l r : α) : α :=
  let ordered := if cost l ≤ cost r then (l, r) else (r, l)
  let first := search ordered.1
  if cost ordered.2 ≤ cost first then
    let second := search ordered.2
    if cost second < cost first then second else first
  else first

section Both

variable {search : α → α} {cost : α → β} {l r x : α}

variable (search cost l r) in
theorem searchBoth_eq :
    searchBoth search cost l r = search l ∨
      searchBoth search cost l r = search r := by
  rw [searchBoth]
  split <;> dsimp only <;> split
  · split
    · exact .inr rfl
    · exact .inl rfl
  · exact .inl rfl
  · split
    · exact .inl rfl
    · exact .inr rfl
  · exact .inr rfl

theorem cost_searchBoth_le
    (hx : cost l ≤ cost x ∧ cost (search l) ≤ cost x ∨
      cost r ≤ cost x ∧ cost (search r) ≤ cost x) :
    cost (searchBoth search cost l r) ≤ cost x := by
  rw [searchBoth]
  split <;> dsimp only <;> split
  · rename_i hsecond
    split
    · rename_i hlt
      exact hx.elim (fun h => hlt.le.trans h.2) And.right
    · rename_i hge
      exact hx.elim And.right fun h => (not_lt.mp hge).trans h.2
  · rename_i hsecond
    exact hx.elim And.right fun h => (not_le.mp hsecond).le.trans h.1
  · rename_i hsecond
    split
    · rename_i hlt
      exact hx.elim And.right fun h => hlt.le.trans h.2
    · rename_i hge
      exact hx.elim (fun h => (not_lt.mp hge).trans h.2) And.right
  · rename_i hsecond
    exact hx.elim (fun h => (not_le.mp hsecond).le.trans h.1) And.right

end Both

variable (left right : α → Option α) (cost : α → β)

/-- The search, down to a depth. -/
def branchAndBound : ℕ → α → α
  | 0, node => node
  | depth + 1, node =>
    match left node, right node with
    | none, none => node
    | none, some r => branchAndBound depth r
    | some l, none => branchAndBound depth l
    | some l, some r => searchBoth (branchAndBound depth) cost l r

/-- The second node is a child of the first one. -/
def IsChild (node child : α) : Prop :=
  left node = some child ∨ right node = some child

/-- A node without children, below another one. -/
inductive LeafBelow : α → α → Prop where
  | leaf {node : α} (hnone : ∀ child, ¬IsChild left right node child) :
      LeafBelow node node
  | child {node child leaf : α} (hchild : IsChild left right node child)
      (h : LeafBelow child leaf) : LeafBelow node leaf

variable {left right cost} {node leaf : α} {depth : ℕ}

theorem branchAndBound_of_leaf
    (hnone : ∀ child, ¬IsChild left right node child) (depth : ℕ) :
    branchAndBound left right cost depth node = node := by
  cases depth with
  | zero => rfl
  | succ depth =>
    rw [branchAndBound]
    split
    · rfl
    · exact absurd (.inr ‹_›) (hnone _)
    · exact absurd (.inl ‹_›) (hnone _)
    · exact absurd (.inl ‹_›) (hnone _)

section Height

variable {height : α → ℕ} (hheight : ∀ node child, IsChild left right node child →
  height child < height node)

include hheight

theorem not_isChild_of_height_eq_zero (hzero : height node = 0) (child : α) :
    ¬IsChild left right node child := by
  intro hchild
  have hlt := hheight node child hchild
  omega

theorem leafBelow_branchAndBound (hdepth : height node ≤ depth) :
    LeafBelow left right node (branchAndBound left right cost depth node) := by
  induction depth generalizing node with
  | zero =>
    exact .leaf (not_isChild_of_height_eq_zero hheight (by omega))
  | succ depth ih =>
    have hbelow : ∀ child, IsChild left right node child →
        LeafBelow left right node
          (branchAndBound left right cost depth child) := by
      intro child hchild
      have hlt := hheight node child hchild
      exact .child hchild (ih (by omega))
    rw [branchAndBound]
    split
    · rename_i hleft hright
      refine .leaf ?_
      rintro child (h | h)
      · exact absurd (hleft.symm.trans h) (Option.some_ne_none child).symm
      · exact absurd (hright.symm.trans h) (Option.some_ne_none child).symm
    · exact hbelow _ (.inr ‹_›)
    · exact hbelow _ (.inl ‹_›)
    · rename_i l r hleft hright
      obtain heq | heq :=
        searchBoth_eq (branchAndBound left right cost depth) cost l r
      · rw [heq]
        exact hbelow l (.inl hleft)
      · rw [heq]
        exact hbelow r (.inr hright)

variable (hcost : ∀ node child, IsChild left right node child →
  cost node ≤ cost child)

include hcost

omit hheight in
theorem LeafBelow.cost_le (h : LeafBelow left right node leaf) :
    cost node ≤ cost leaf := by
  induction h with
  | leaf _ => exact le_rfl
  | child hchild _ ih => exact (hcost _ _ hchild).trans ih

theorem cost_branchAndBound_le (hdepth : height node ≤ depth)
    (h : LeafBelow left right node leaf) :
    cost (branchAndBound left right cost depth node) ≤ cost leaf := by
  induction depth generalizing node with
  | zero =>
    cases h with
    | leaf _ => exact le_rfl
    | child hchild _ =>
      exact absurd hchild
        (not_isChild_of_height_eq_zero hheight (by omega) _)
  | succ depth ih =>
    cases h with
    | leaf hnone =>
      rw [branchAndBound_of_leaf hnone]
    | @child _ c _ hchild h =>
      have hbound := h.cost_le hcost
      have hlt := hheight node c hchild
      have hsearch := ih (by omega) h
      rw [branchAndBound]
      split
      · rename_i hleft hright
        rcases hchild with hl | hr
        · exact absurd (hleft.symm.trans hl) (Option.some_ne_none c).symm
        · exact absurd (hright.symm.trans hr) (Option.some_ne_none c).symm
      · rename_i r hleft hright
        rcases hchild with hl | hr
        · exact absurd (hleft.symm.trans hl) (Option.some_ne_none c).symm
        · rw [Option.some.inj (hright.symm.trans hr)]
          exact hsearch
      · rename_i l hleft hright
        rcases hchild with hl | hr
        · rw [Option.some.inj (hleft.symm.trans hl)]
          exact hsearch
        · exact absurd (hright.symm.trans hr) (Option.some_ne_none c).symm
      · rename_i l r hleft hright
        refine cost_searchBoth_le ?_
        rcases hchild with hl | hr
        · rw [Option.some.inj (hleft.symm.trans hl)]
          exact .inl ⟨hbound, hsearch⟩
        · rw [Option.some.inj (hright.symm.trans hr)]
          exact .inr ⟨hbound, hsearch⟩

end Height

section Best

variable {γ : Type*} (ok : α → Prop) [DecidablePred ok] (name : α → γ)
  (cost : α → β)

theorem foldl_best (l : List α) (best : γ × β) :
    (l.foldl (fun best a =>
        if ok a ∧ cost a < best.2 then (name a, cost a) else best) best = best ∧
      ∀ a ∈ l, ok a → best.2 ≤ cost a) ∨
    ∃ a ∈ l, ok a ∧ cost a < best.2 ∧
      l.foldl (fun best a =>
        if ok a ∧ cost a < best.2 then (name a, cost a) else best) best =
          (name a, cost a) ∧
      ∀ b ∈ l, ok b → cost a ≤ cost b := by
  induction l generalizing best with
  | nil => exact .inl ⟨rfl, fun a ha => absurd ha List.not_mem_nil⟩
  | cons a l ih =>
    rw [List.foldl_cons]
    by_cases ha : ok a ∧ cost a < best.2
    · rw [if_pos ha]
      right
      obtain ⟨heq, hall⟩ | ⟨b, hb, hok, hlt, heq, hall⟩ := ih (name a, cost a)
      · refine ⟨a, List.mem_cons_self, ha.1, ha.2, heq, ?_⟩
        rw [List.forall_mem_cons]
        exact ⟨fun _ => le_rfl, hall⟩
      · refine ⟨b, List.mem_cons_of_mem a hb, hok, hlt.trans ha.2, heq, ?_⟩
        rw [List.forall_mem_cons]
        exact ⟨fun _ => hlt.le, hall⟩
    · rw [if_neg ha]
      have hle : ok a → best.2 ≤ cost a := fun hok =>
        not_lt.mp fun hlt => ha ⟨hok, hlt⟩
      obtain ⟨heq, hall⟩ | ⟨b, hb, hok, hlt, heq, hall⟩ := ih best
      · left
        rw [List.forall_mem_cons]
        exact ⟨heq, hle, hall⟩
      · right
        refine ⟨b, List.mem_cons_of_mem a hb, hok, hlt, heq, ?_⟩
        rw [List.forall_mem_cons]
        exact ⟨fun hoka => hlt.le.trans (hle hoka), hall⟩

end Best

end WebrtcWinXp.Support
