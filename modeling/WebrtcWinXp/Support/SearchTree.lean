import Mathlib.Data.List.TakeWhile
import Mathlib.Data.Set.Insert
import Mathlib.Order.Basic

/-!
# Ordered maps as search trees

`std::map` with an arbitrary comparison: the descents that `find`,
`operator[]` and `erase` make, on trees of any shape.  What a balanced tree
does to its shape after an update is a parameter.

The container works as a map on the keys on which the comparison is a strict
weak ordering.  Nothing is promised for other keys: an entry may then be in
the tree and not be found.
-/

namespace WebrtcWinXp.Support

variable {κ ν α : Type*}

/-- A comparison that is a strict weak ordering of the keys in `S`. -/
structure StrictWeakOn (lt : κ → κ → Bool) (S : Set κ) : Prop where
  irrefl : ∀ x ∈ S, lt x x = false
  trans : ∀ x ∈ S, ∀ y ∈ S, ∀ z ∈ S, lt x y → lt y z → lt x z
  cotrans : ∀ x ∈ S, ∀ y ∈ S, ∀ z ∈ S, lt x z → lt x y ∨ lt y z

/-- Keys that neither precede nor follow each other. -/
def Equivalent (lt : κ → κ → Bool) (x y : κ) : Prop :=
  lt x y = false ∧ lt y x = false

/-- A comparison that negates a preorder of ranks is a strict weak ordering
of exactly the sets of keys whose ranks are pairwise comparable. -/
theorem strictWeakOn_iff_comparable {ρ : Type*} [Preorder ρ] {rank : κ → ρ}
    {lt : κ → κ → Bool} (hlt : ∀ x y, lt x y = true ↔ ¬rank y ≤ rank x)
    {S : Set κ} :
    StrictWeakOn lt S ↔
      ∀ x ∈ S, ∀ y ∈ S, rank x ≤ rank y ∨ rank y ≤ rank x := by
  constructor
  · intro h x hx y hy
    by_contra hneither
    obtain ⟨hxy, hyx⟩ := not_or.mp hneither
    have hxx := h.trans x hx y hy x hx ((hlt x y).mpr hyx) ((hlt y x).mpr hxy)
    rw [h.irrefl x hx] at hxx
    cases hxx
  · intro h
    refine ⟨?_, ?_, ?_⟩
    · intro x _
      rw [← Bool.not_eq_true, hlt, not_not]
    · intro x hx y hy z _ hxy hyz
      rw [hlt] at hxy hyz ⊢
      intro hzx
      exact hyz (hzx.trans ((h x hx y hy).resolve_right hxy))
    · intro x _ y _ z _ hxz
      rw [hlt] at hxz
      rw [hlt, hlt]
      by_contra hneither
      obtain ⟨hyx, hzy⟩ := not_or.mp hneither
      exact hxz ((not_not.mp hzy).trans (not_not.mp hyx))

/-- The nodes of a `std::map`. -/
inductive SearchTree (κ ν : Type*) where
  | leaf
  | node (left : SearchTree κ ν) (key : κ) (value : ν)
      (right : SearchTree κ ν)

namespace SearchTree

/-- The entries from the first to the last. -/
def toList : SearchTree κ ν → List (κ × ν)
  | .leaf => []
  | .node l k v r => l.toList ++ (k, v) :: r.toList

/-- What an implementation does to the shape of a tree, which keeps the
sequence of its entries. -/
structure Rebalancing (κ ν : Type*) where
  apply : SearchTree κ ν → SearchTree κ ν
  toList_apply : ∀ t, (apply t).toList = t.toList

section Operations

variable (lt : κ → κ → Bool) (rebalance : Rebalancing κ ν)

def lowerBound (k : κ) : SearchTree κ ν → Option (κ × ν)
  | .leaf => none
  | .node l k' v r =>
    if lt k' k then lowerBound k r
    else (lowerBound k l).or (some (k', v))

def find (k : κ) (t : SearchTree κ ν) : Option (κ × ν) :=
  (t.lowerBound lt k).filter fun e => !lt k e.1

/-- A new node where the descent of `lower_bound` ends. -/
def insertLeaf (k : κ) (v : ν) : SearchTree κ ν → SearchTree κ ν
  | .leaf => .node .leaf k v .leaf
  | .node l k' v' r =>
    if lt k' k then .node l k' v' (insertLeaf k v r)
    else .node (insertLeaf k v l) k' v' r

/-- Changes the node that `lower_bound` reaches. -/
def modifyLowerBound (k : κ)
    (f : SearchTree κ ν → κ → ν → SearchTree κ ν → SearchTree κ ν) :
    SearchTree κ ν → SearchTree κ ν
  | .leaf => .leaf
  | .node l k' v r =>
    if lt k' k then .node l k' v (modifyLowerBound k f r)
    else if (l.lowerBound lt k).isSome then
      .node (modifyLowerBound k f l) k' v r
    else f l k' v r

/-- `m[k] = v`. -/
def assign (k : κ) (v : ν) (t : SearchTree κ ν) : SearchTree κ ν :=
  if (t.find lt k).isSome then
    t.modifyLowerBound lt k fun l k' _ r => .node l k' v r
  else rebalance.apply (t.insertLeaf lt k v)

/-- The entries of two neighbouring subtrees in one tree. -/
def join (l : SearchTree κ ν) : SearchTree κ ν → SearchTree κ ν
  | .leaf => l
  | .node l' k v r => .node (join l l') k v r

/-- `erase` of the entry that `find` returns. -/
def erase (k : κ) (t : SearchTree κ ν) : SearchTree κ ν :=
  if (t.find lt k).isSome then
    rebalance.apply (t.modifyLowerBound lt k fun l _ _ r => join l r)
  else t

end Operations

/-! ## Descents as cuts of the sequence -/

variable {lt : κ → κ → Bool} {rebalance : Rebalancing κ ν}
  {t : SearchTree κ ν} {k : κ} {v : ν} {e : κ × ν}

@[simp] theorem toList_leaf : (leaf : SearchTree κ ν).toList = [] := rfl

@[simp] theorem toList_node {l r : SearchTree κ ν} :
    (node l k v r).toList = l.toList ++ (k, v) :: r.toList := rfl

@[simp] theorem toList_join (l r : SearchTree κ ν) :
    (join l r).toList = l.toList ++ r.toList := by
  induction r with
  | leaf => simp [join]
  | node l' k v r ih => simp [join, ih]

/-- The entries up to the first that is not before `k`. -/
def front (lt : κ → κ → Bool) (k : κ) (t : SearchTree κ ν) :
    List (κ × ν) :=
  t.toList.takeWhile fun e => lt e.1 k

/-- The entries from the first on that is not before `k`. -/
def back (lt : κ → κ → Bool) (k : κ) (t : SearchTree κ ν) :
    List (κ × ν) :=
  t.toList.dropWhile fun e => lt e.1 k

theorem front_append_back (lt : κ → κ → Bool) (k : κ)
    (t : SearchTree κ ν) : t.front lt k ++ t.back lt k = t.toList :=
  List.takeWhile_append_dropWhile

theorem lt_of_mem_front (h : e ∈ t.front lt k) : lt e.1 k = true := by
  simpa using List.mem_takeWhile_imp h

theorem mem_of_mem_front (h : e ∈ t.front lt k) : e ∈ t.toList :=
  List.takeWhile_subset _ h

theorem mem_of_mem_back (h : e ∈ t.back lt k) : e ∈ t.toList :=
  List.dropWhile_subset _ h

/-- The entries before a key come before all others. -/
def Cut (lt : κ → κ → Bool) (k : κ) (es : List (κ × ν)) : Prop :=
  es.Pairwise fun x y => lt y.1 k → lt x.1 k

theorem Cut.cons {es : List (κ × ν)} (h : Cut lt k (e :: es)) :
    (∀ y ∈ es, lt y.1 k → lt e.1 k) ∧ Cut lt k es :=
  List.pairwise_cons.mp h

theorem Cut.not_lt_of_mem {es : List (κ × ν)} (h : Cut lt k es) :
    ∀ x ∈ es.dropWhile fun e => lt e.1 k, lt x.1 k = false := by
  induction es with
  | nil => simp
  | cons y es ih =>
    obtain ⟨hy, htail⟩ := h.cons
    intro x hx
    by_cases hyk : lt y.1 k
    · rw [List.dropWhile_cons_of_pos (by simpa using hyk)] at hx
      exact ih htail x hx
    · rw [List.dropWhile_cons_of_neg (by simpa using hyk)] at hx
      rcases List.mem_cons.mp hx with rfl | hx
      · simpa using hyk
      · by_contra hxk
        exact hyk (hy x hx (by simpa using hxk))

section Node

variable {l r : SearchTree κ ν} {k' : κ} {v' : ν}
  (h : Cut lt k (node l k' v' r).toList)

include h

theorem Cut.left : Cut lt k l.toList :=
  (List.pairwise_append.mp h).1

theorem Cut.right : Cut lt k r.toList :=
  (List.pairwise_append.mp h).2.1.tail

/-- Behind a node before `k` the sequence is cut in the right subtree. -/
theorem Cut.node_of_lt (hk : lt k' k = true) :
    (node l k' v' r).front lt k = l.toList ++ (k', v') :: r.front lt k ∧
      (node l k' v' r).back lt k = r.back lt k := by
  have hleft : ∀ x ∈ l.toList, lt x.1 k = true := fun x hx =>
    (List.pairwise_append.mp h).2.2 x hx (k', v') List.mem_cons_self hk
  simp only [front, back, toList_node]
  rw [List.takeWhile_append_of_pos hleft, List.dropWhile_append_of_pos hleft]
  simp [hk]

omit h in
/-- Before a node that is not before `k` it is cut in the left subtree. -/
theorem node_of_not_lt (hk : ¬lt k' k = true) :
    (node l k' v' r).front lt k = l.front lt k ∧
      (node l k' v' r).back lt k = l.back lt k ++ (k', v') :: r.toList := by
  simp only [front, back, toList_node]
  induction l.toList with
  | nil => simp [hk]
  | cons x xs ih =>
    by_cases hx : lt x.1 k <;> simp [hx, ih]

end Node

theorem lowerBound_eq (h : Cut lt k t.toList) :
    t.lowerBound lt k = (t.back lt k).head? := by
  induction t with
  | leaf => rfl
  | node l k' v' r ihl ihr =>
    rw [lowerBound]
    by_cases hk : lt k' k
    · rw [if_pos hk, ihr h.right, (h.node_of_lt hk).2]
    · rw [if_neg hk, ihl h.left, (node_of_not_lt hk).2, List.head?_append,
        List.head?_cons]

theorem toList_insertLeaf (h : Cut lt k t.toList) :
    (t.insertLeaf lt k v).toList =
      t.front lt k ++ (k, v) :: t.back lt k := by
  induction t with
  | leaf => rfl
  | node l k' v' r ihl ihr =>
    rw [insertLeaf]
    by_cases hk : lt k' k
    · obtain ⟨hfront, hback⟩ := h.node_of_lt hk
      rw [if_pos hk, toList_node, ihr h.right, hfront, hback,
        List.append_assoc, List.cons_append]
    · obtain ⟨hfront, hback⟩ := node_of_not_lt (r := r) (l := l) hk
      rw [if_neg hk, toList_node, ihl h.left, hfront, hback,
        List.append_assoc, List.cons_append]

theorem toList_modifyLowerBound (h : Cut lt k t.toList)
    {f : SearchTree κ ν → κ → ν → SearchTree κ ν → SearchTree κ ν}
    {g : κ × ν → List (κ × ν)}
    (hf : ∀ l k v r, (f l k v r).toList = l.toList ++ (g (k, v) ++ r.toList)) :
    (t.modifyLowerBound lt k f).toList =
      t.front lt k ++
        ((t.lowerBound lt k).toList.flatMap g ++ (t.back lt k).tail) := by
  induction t with
  | leaf => rfl
  | node l k' v' r ihl ihr =>
    rw [modifyLowerBound, lowerBound]
    by_cases hk : lt k' k
    · obtain ⟨hfront, hback⟩ := h.node_of_lt hk
      rw [if_pos hk, if_pos hk, toList_node, ihr h.right, hfront, hback,
        List.append_assoc, List.cons_append]
    · obtain ⟨hfront, hback⟩ := node_of_not_lt (r := r) (l := l) hk
      rw [if_neg hk, if_neg hk, hfront, hback, lowerBound_eq h.left]
      cases hrest : l.back lt k with
      | nil =>
        have hall : l.front lt k = l.toList := by
          rw [← front_append_back lt k l, hrest, List.append_nil]
        simp [hf, hall]
      | cons e es =>
        rw [List.head?_cons, Option.isSome_some, if_pos rfl, toList_node,
          ihl h.left, lowerBound_eq h.left, hrest]
        simp

/-! ## The map on the keys of a strict weak ordering -/

theorem lowerBound_eq_some (h : t.lowerBound lt k = some e) :
    e ∈ t.toList ∧ lt e.1 k = false := by
  induction t with
  | leaf => cases h
  | node l k' v' r ihl ihr =>
    rw [lowerBound] at h
    split at h
    · obtain ⟨he, hlt⟩ := ihr h
      exact ⟨by simp [he], hlt⟩
    · rename_i hk
      rcases Option.or_eq_some_iff.mp h with h | ⟨-, h⟩
      · obtain ⟨he, hlt⟩ := ihl h
        exact ⟨by simp [he], hlt⟩
      · cases h
        exact ⟨by simp, by simpa using hk⟩

theorem find_eq_some (h : t.find lt k = some e) :
    e ∈ t.toList ∧ Equivalent lt e.1 k := by
  obtain ⟨hlower, hk⟩ := Option.filter_eq_some_iff.mp h
  obtain ⟨he, hlt⟩ := lowerBound_eq_some hlower
  exact ⟨he, hlt, by simpa using hk⟩

/-- The entries stand in the order of their keys. -/
def Sorted (lt : κ → κ → Bool) (t : SearchTree κ ν) : Prop :=
  t.toList.Pairwise fun x y => lt x.1 y.1

@[simp] theorem sorted_leaf : (leaf : SearchTree κ ν).Sorted lt :=
  List.Pairwise.nil

variable {S : Set κ}

section Contract

variable (hS : StrictWeakOn lt S) (hk : k ∈ S)
  (hkeys : ∀ x ∈ t.toList, x.1 ∈ S) (hsorted : t.Sorted lt)

include hS hk hkeys hsorted

theorem Sorted.cut : Cut lt k t.toList :=
  List.Pairwise.imp_of_mem
    (fun hx hy hxy hyk => hS.trans _ (hkeys _ hx) _ (hkeys _ hy) _ hk hxy hyk)
    hsorted

theorem Sorted.mem_cases (he : e ∈ t.toList) :
    (e ∈ t.front lt k ∧ lt e.1 k = true) ∨
      (e ∈ t.back lt k ∧ lt e.1 k = false) := by
  rw [← front_append_back lt k t] at he
  rcases List.mem_append.mp he with he | he
  · exact .inl ⟨he, lt_of_mem_front he⟩
  · exact .inr ⟨he, (hsorted.cut hS hk hkeys).not_lt_of_mem e he⟩

theorem Sorted.not_equivalent_of_mem_tail
    (he : e ∈ (t.back lt k).tail) :
    ¬Equivalent lt e.1 k := by
  rintro ⟨-, hke⟩
  cases hrest : t.back lt k with
  | nil => simp [hrest] at he
  | cons x es =>
    have hmem : ∀ y ∈ t.back lt k, y ∈ t.toList := fun y hy =>
      mem_of_mem_back hy
    have hx : x ∈ t.back lt k := by simp [hrest]
    have hxk := (hsorted.cut hS hk hkeys).not_lt_of_mem x hx
    have hpair : (x :: es).Pairwise fun x y => lt x.1 y.1 := by
      rw [← hrest]
      exact hsorted.sublist (List.dropWhile_sublist _)
    rw [hrest, List.tail_cons] at he
    have hxe := (List.pairwise_cons.mp hpair).1 e he
    have he' : e ∈ t.toList := hmem e (by simp [hrest, he])
    rcases hS.cotrans _ (hkeys _ (hmem x hx)) _ hk _ (hkeys _ he') hxe with
      h | h
    · simp [hxk] at h
    · simp [hke] at h

/-- `find` returns exactly the entry with an equivalent key. -/
theorem Sorted.find_eq_some_iff :
    t.find lt k = some e ↔ e ∈ t.toList ∧ Equivalent lt e.1 k := by
  constructor
  · exact find_eq_some
  · rintro ⟨he, heq⟩
    rcases hsorted.mem_cases hS hk hkeys he with ⟨-, h⟩ | ⟨hdrop, -⟩
    · simp [heq.1] at h
    · rw [find, lowerBound_eq (hsorted.cut hS hk hkeys)]
      cases hrest : t.back lt k with
      | nil => simp [hrest] at hdrop
      | cons x es =>
        rw [hrest] at hdrop
        rcases List.mem_cons.mp hdrop with rfl | htail
        · simp [Option.filter, heq.2]
        · exact absurd heq (hsorted.not_equivalent_of_mem_tail hS hk hkeys
            (by simpa [hrest] using htail))

theorem Sorted.find_eq_none_iff :
    t.find lt k = none ↔ ∀ x ∈ t.toList, ¬Equivalent lt x.1 k := by
  rw [Option.eq_none_iff_forall_ne_some]
  constructor
  · intro h x hx heq
    exact h x ((hsorted.find_eq_some_iff hS hk hkeys).mpr ⟨hx, heq⟩)
  · intro h x hx
    obtain ⟨hmem, heq⟩ := find_eq_some hx
    exact h x hmem heq

section New

variable (hnone : t.find lt k = none)

include hnone

theorem Sorted.toList_assign :
    (t.assign lt rebalance k v).toList =
      t.front lt k ++ (k, v) :: t.back lt k := by
  rw [assign, hnone, if_neg (by simp), rebalance.toList_apply,
    toList_insertLeaf (hsorted.cut hS hk hkeys)]

theorem Sorted.mem_assign :
    e ∈ (t.assign lt rebalance k v).toList ↔ e = (k, v) ∨ e ∈ t.toList := by
  rw [hsorted.toList_assign hS hk hkeys hnone]
  rw [← front_append_back lt k t]
  simp only [List.mem_append, List.mem_cons]
  exact or_left_comm

theorem Sorted.assign : (t.assign lt rebalance k v).Sorted lt := by
  have hcut := hsorted.cut hS hk hkeys
  rw [Sorted, hsorted.toList_assign hS hk hkeys hnone]
  have hpair := hsorted
  rw [Sorted, ← front_append_back lt k t] at hpair
  obtain ⟨htake, hdrop, hboth⟩ := List.pairwise_append.mp hpair
  refine List.pairwise_append.mpr ⟨htake,
    List.pairwise_cons.mpr ⟨?_, hdrop⟩, ?_⟩
  · intro y hy
    by_contra hky
    exact (hsorted.find_eq_none_iff hS hk hkeys).mp hnone y
      (mem_of_mem_back hy)
      ⟨hcut.not_lt_of_mem y hy, by simpa using hky⟩
  · intro x hx y hy
    rcases List.mem_cons.mp hy with rfl | hy
    · exact lt_of_mem_front hx
    · exact hboth x hx y hy

end New

theorem Sorted.toList_erase (hsome : (t.find lt k).isSome) :
    (t.erase lt rebalance k).toList = t.front lt k ++ (t.back lt k).tail := by
  rw [erase, if_pos hsome, rebalance.toList_apply,
    toList_modifyLowerBound (g := fun _ => [])
      (hsorted.cut hS hk hkeys) fun l k v r => by simp]
  simp

theorem Sorted.mem_erase :
    e ∈ (t.erase lt rebalance k).toList ↔
      e ∈ t.toList ∧ ¬Equivalent lt e.1 k := by
  cases hfind : t.find lt k with
  | none =>
    have hnone := (hsorted.find_eq_none_iff hS hk hkeys).mp hfind
    rw [erase, hfind, if_neg (by simp)]
    exact ⟨fun he => ⟨he, hnone e he⟩, And.left⟩
  | some x =>
    rw [hsorted.toList_erase hS hk hkeys (by simp [hfind]),
      List.mem_append]
    constructor
    · rintro (he | he)
      · refine ⟨mem_of_mem_front he, fun heq => ?_⟩
        simpa [heq.1] using lt_of_mem_front he
      · exact ⟨mem_of_mem_back (List.mem_of_mem_tail he),
          hsorted.not_equivalent_of_mem_tail hS hk hkeys he⟩
    · rintro ⟨he, hne⟩
      rcases hsorted.mem_cases hS hk hkeys he with ⟨he, -⟩ | ⟨he, hlt⟩
      · exact .inl he
      · rw [find, lowerBound_eq (hsorted.cut hS hk hkeys)] at hfind
        cases hrest : t.back lt k with
        | nil => simp [hrest] at he
        | cons y es =>
          rw [hrest] at he hfind
          rcases List.mem_cons.mp he with rfl | he
          · have hke := (Option.filter_eq_some_iff.mp hfind).2
            cases (Option.filter_eq_some_iff.mp hfind).1
            exact absurd ⟨hlt, by simpa using hke⟩ hne
          · exact .inr he

theorem Sorted.erase : (t.erase lt rebalance k).Sorted lt := by
  by_cases hsome : (t.find lt k).isSome
  · rw [Sorted, hsorted.toList_erase hS hk hkeys hsome]
    have hsub : (t.front lt k ++ (t.back lt k).tail).Sublist t.toList := by
      conv_rhs => rw [← front_append_back lt k t]
      exact List.Sublist.append_left (List.tail_sublist _) _
    exact hsorted.sublist hsub
  · rwa [SearchTree.erase, if_neg hsome]

end Contract

end SearchTree

end WebrtcWinXp.Support
