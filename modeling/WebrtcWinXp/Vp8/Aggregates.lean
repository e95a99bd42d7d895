import WebrtcWinXp.Support.BranchAndBound
import WebrtcWinXp.Vp8.Aggregator

/-!
# Aggregation is optimal

A vector of packet indices says which partitions are put into one packet.  The
leaves of the tree that is searched are the vectors whose packets fit, and a node
costs no more than the leaves below it.
-/

namespace WebrtcWinXp.Vp8

open Support

/-! ## Vectors of packet indices -/

/-- The indices of the partitions behind one with the index `d`.  The flags say
which of them start a packet. -/
def indices (d : ℤ) : List Bool → List ℤ
  | [] => []
  | true :: starts => (d + 1) :: indices (d + 1) starts
  | false :: starts => d :: indices d starts

/-- The sizes of the packets when the one of the partition before has a size. -/
def sizesFrom (thisSize : ℕ) : List ℕ → List Bool → List ℕ
  | size :: sizes, true :: starts => thisSize :: sizesFrom size sizes starts
  | size :: sizes, false :: starts => sizesFrom (thisSize + size) sizes starts
  | _, _ => [thisSize]

variable {d : ℤ} {starts : List Bool} {sizes : List ℕ} {thisSize maxSize : ℕ}

@[simp] theorem length_indices : (indices d starts).length = starts.length := by
  induction starts generalizing d with
  | nil => rfl
  | cons start starts ih =>
    cases start with
    | true => exact congrArg (· + 1) ih
    | false => exact congrArg (· + 1) ih

theorem sizesFrom_nil_right (thisSize : ℕ) (sizes : List ℕ) :
    sizesFrom thisSize sizes [] = [thisSize] := by
  cases sizes <;> rfl

theorem sizesFrom_nil_left (thisSize : ℕ) (starts : List Bool) :
    sizesFrom thisSize [] starts = [thisSize] := rfl

theorem sizesFrom_true (thisSize size : ℕ) (sizes : List ℕ)
    (starts : List Bool) :
    sizesFrom thisSize (size :: sizes) (true :: starts) =
      thisSize :: sizesFrom size sizes starts := rfl

theorem sizesFrom_false (thisSize size : ℕ) (sizes : List ℕ)
    (starts : List Bool) :
    sizesFrom thisSize (size :: sizes) (false :: starts) =
      sizesFrom (thisSize + size) sizes starts := rfl

theorem exists_le_sizesFrom (thisSize : ℕ) (sizes : List ℕ)
    (starts : List Bool) : ∃ s ∈ sizesFrom thisSize sizes starts, thisSize ≤ s := by
  induction starts generalizing thisSize sizes with
  | nil =>
    rw [sizesFrom_nil_right]
    exact ⟨thisSize, List.mem_singleton_self _, le_rfl⟩
  | cons start starts ih =>
    cases sizes with
    | nil => exact ⟨thisSize, List.mem_singleton_self _, le_rfl⟩
    | cons size sizes =>
      cases start with
      | true => exact ⟨thisSize, List.mem_cons_self, le_rfl⟩
      | false =>
        obtain ⟨s, hs, hle⟩ := ih (thisSize + size) sizes
        exact ⟨s, hs, by omega⟩

theorem sizesFrom_ne_nil (thisSize : ℕ) (sizes : List ℕ)
    (starts : List Bool) : sizesFrom thisSize sizes starts ≠ [] := by
  obtain ⟨s, hs, -⟩ := exists_le_sizesFrom thisSize sizes starts
  exact List.ne_nil_of_mem hs

namespace PartitionTreeNode

variable {node child leaf : PartitionTreeNode} {penalty : ℕ}

/-- The packet so far fits, and each partition that follows. -/
structure Feasible (maxSize : ℕ) (node : PartitionTreeNode) : Prop where
  thisSize_le : node.thisSize ≤ maxSize
  size_le : ∀ size ∈ node.sizeVector, size ≤ maxSize

theorem isChild_cons {size : ℕ} {rest : List ℕ}
    (hsizes : node.sizeVector = size :: rest)
    (h : IsChild (leftChild maxSize) rightChild node child) :
    node.thisSize + size ≤ maxSize ∧
        child =
          { node with
            thisSize := node.thisSize + size
            sizeVector := rest
            packetStarts := false :: node.packetStarts } ∨
      0 < node.thisSize ∧
        child =
          { thisSize := size
            sizeVector := rest
            maxParentSize := max node.maxParentSize node.thisSize
            minParentSize := min node.minParentSize node.thisSize
            packetStarts := true :: node.packetStarts } := by
  rcases h with h | h
  · rw [leftChild, hsizes] at h
    dsimp only at h
    by_cases hle : node.thisSize + size ≤ maxSize
    · rw [if_pos hle, Option.some_inj] at h
      exact .inl ⟨hle, h.symm⟩
    · rw [if_neg hle] at h
      exact absurd h (Option.some_ne_none child).symm
  · rw [rightChild, hsizes] at h
    dsimp only at h
    by_cases hpos : 0 < node.thisSize
    · rw [if_pos hpos, Option.some_inj] at h
      exact .inr ⟨hpos, h.symm⟩
    · rw [if_neg hpos] at h
      exact absurd h (Option.some_ne_none child).symm

theorem not_isChild_nil (hsizes : node.sizeVector = []) :
    ¬IsChild (leftChild maxSize) rightChild node child := by
  rintro (h | h)
  · rw [leftChild, hsizes] at h
    exact absurd h (Option.some_ne_none child).symm
  · rw [rightChild, hsizes] at h
    exact absurd h (Option.some_ne_none child).symm

theorem length_sizeVector_lt
    (h : IsChild (leftChild maxSize) rightChild node child) :
    child.sizeVector.length < node.sizeVector.length := by
  cases hsizes : node.sizeVector with
  | nil => exact absurd h (not_isChild_nil hsizes)
  | cons size rest =>
    obtain ⟨-, rfl⟩ | ⟨-, rfl⟩ := isChild_cons hsizes h
    · exact Nat.lt_succ_self _
    · exact Nat.lt_succ_self _

theorem bound_le_cost (node : PartitionTreeNode) (penalty : ℕ) :
    max (node.maxParentSize : ℤ) node.thisSize - node.minParentSize +
      node.numPackets * penalty ≤ node.cost penalty := by
  rw [cost]
  split
  · omega
  · exact Int.le_refl _

theorem cost_le_of_isChild
    (h : IsChild (leftChild maxSize) rightChild node child) :
    node.cost penalty ≤ child.cost penalty := by
  refine Int.le_trans ?_ (bound_le_cost child penalty)
  cases hsizes : node.sizeVector with
  | nil => exact absurd h (not_isChild_nil hsizes)
  | cons size rest =>
    rw [cost, if_neg (by rw [hsizes]; exact List.cons_ne_nil _ _)]
    obtain ⟨-, rfl⟩ | ⟨-, rfl⟩ := isChild_cons hsizes h
    · have hcount : numPackets
          { node with
            thisSize := node.thisSize + size
            sizeVector := rest
            packetStarts := false :: node.packetStarts } =
            node.numPackets := List.count_cons_of_ne (by decide)
      rw [hcount]
      dsimp only
      omega
    · have hcount : numPackets
          { thisSize := size
            sizeVector := rest
            maxParentSize := max node.maxParentSize node.thisSize
            minParentSize := min node.minParentSize node.thisSize
            packetStarts := true :: node.packetStarts } =
            node.numPackets + 1 := List.count_cons_self
      rw [hcount, Int.natCast_add, Int.add_mul]
      dsimp only
      omega

def outcome (penalty : ℕ) (node : PartitionTreeNode) (starts : List Bool) :
    ℤ :=
  ((sizesFrom node.thisSize node.sizeVector starts).foldl max
      node.maxParentSize : ℕ) -
    ((sizesFrom node.thisSize node.sizeVector starts).foldl min
      node.minParentSize : ℕ) +
    (node.numPackets + starts.count true : ℕ) * penalty

/-- A leaf below a node stands for flags of the partitions that follow.  A packet
is closed only when it is not empty. -/
@[mk_iff] structure LeadsTo (maxSize penalty : ℕ) (node : PartitionTreeNode)
    (starts : List Bool) (leaf : PartitionTreeNode) : Prop where
  length_eq : starts.length = node.sizeVector.length
  fits : ∀ s ∈ sizesFrom node.thisSize node.sizeVector starts, s ≤ maxSize
  closed : ∀ s ∈ (sizesFrom node.thisSize node.sizeVector starts).dropLast,
    0 < s
  packetStarts : leaf.packetStarts = starts.reverse ++ node.packetStarts
  cost_eq : leaf.cost penalty = outcome penalty node starts

theorem leadsTo_self (hsizes : node.sizeVector = [])
    (hle : node.thisSize ≤ maxSize) :
    LeadsTo maxSize penalty node [] node := by
  refine ⟨by rw [hsizes]; rfl, ?_, ?_, rfl, ?_⟩
  · rw [hsizes]
    intro s hs
    rw [sizesFrom_nil_left, List.mem_singleton] at hs
    exact hs.trans_le hle
  · rw [hsizes]
    exact fun s hs => absurd hs List.not_mem_nil
  · rw [cost, outcome, if_pos hsizes, hsizes]
    simp only [sizesFrom_nil_left, List.foldl_cons, List.foldl_nil,
      List.count_nil, Nat.add_zero]
    omega

variable {size : ℕ} {rest : List ℕ}

theorem leadsTo_left (hsizes : node.sizeVector = size :: rest) :
    LeadsTo maxSize penalty
        { node with
          thisSize := node.thisSize + size
          sizeVector := rest
          packetStarts := false :: node.packetStarts } starts leaf ↔
      LeadsTo maxSize penalty node (false :: starts) leaf := by
  have hfrom : sizesFrom node.thisSize node.sizeVector (false :: starts) =
      sizesFrom (node.thisSize + size) rest starts := by
    rw [hsizes, sizesFrom_false]
  have hcount : (false :: node.packetStarts).count true +
      starts.count true =
        node.packetStarts.count true + (false :: starts).count true := by
    rw [List.count_cons_of_ne (by decide), List.count_cons_of_ne (by decide)]
  rw [leadsTo_iff, leadsTo_iff, outcome, outcome, numPackets, numPackets,
    hfrom, hsizes, List.length_cons, List.length_cons,
    Nat.add_right_cancel_iff, List.reverse_cons, List.append_assoc, ← hcount]
  rfl

theorem leadsTo_right (hsizes : node.sizeVector = size :: rest)
    (hle : node.thisSize ≤ maxSize) (hpos : 0 < node.thisSize) :
    LeadsTo maxSize penalty
        { thisSize := size
          sizeVector := rest
          maxParentSize := max node.maxParentSize node.thisSize
          minParentSize := min node.minParentSize node.thisSize
          packetStarts := true :: node.packetStarts } starts leaf ↔
      LeadsTo maxSize penalty node (true :: starts) leaf := by
  have hfrom : sizesFrom node.thisSize node.sizeVector (true :: starts) =
      node.thisSize :: sizesFrom size rest starts := by
    rw [hsizes, sizesFrom_true]
  have hcount : (true :: node.packetStarts).count true +
      starts.count true =
        node.packetStarts.count true + (true :: starts).count true := by
    rw [List.count_cons_self, List.count_cons_self]
    omega
  rw [leadsTo_iff, leadsTo_iff, outcome, outcome, numPackets, numPackets,
    hfrom, hsizes, List.length_cons, List.length_cons,
    Nat.add_right_cancel_iff, List.reverse_cons, List.append_assoc, ← hcount,
    List.dropLast_cons_of_ne_nil (sizesFrom_ne_nil _ _ _),
    List.forall_mem_cons, List.forall_mem_cons, List.foldl_cons,
    List.foldl_cons, and_iff_right hle, and_iff_right hpos]
  rfl

theorem leftChild_eq (hsizes : node.sizeVector = size :: rest)
    (hle : node.thisSize + size ≤ maxSize) :
    node.leftChild maxSize =
      some
        { node with
          thisSize := node.thisSize + size
          sizeVector := rest
          packetStarts := false :: node.packetStarts } := by
  rw [leftChild, hsizes]
  exact if_pos hle

theorem rightChild_eq (hsizes : node.sizeVector = size :: rest)
    (hpos : 0 < node.thisSize) :
    node.rightChild =
      some
        { thisSize := size
          sizeVector := rest
          maxParentSize := max node.maxParentSize node.thisSize
          minParentSize := min node.minParentSize node.thisSize
          packetStarts := true :: node.packetStarts } := by
  rw [rightChild, hsizes]
  exact if_pos hpos

theorem Feasible.left (h : node.Feasible maxSize)
    (hsizes : node.sizeVector = size :: rest)
    (hle : node.thisSize + size ≤ maxSize) :
    Feasible maxSize
      { node with
        thisSize := node.thisSize + size
        sizeVector := rest
        packetStarts := false :: node.packetStarts } := by
  have hsub : ∀ s ∈ rest, s ∈ node.sizeVector := by
    intro s hs
    rw [hsizes]
    exact List.mem_cons_of_mem size hs
  exact ⟨hle, fun s hs => h.size_le s (hsub s hs)⟩

theorem Feasible.right (h : node.Feasible maxSize)
    (hsizes : node.sizeVector = size :: rest) :
    Feasible maxSize
      { thisSize := size
        sizeVector := rest
        maxParentSize := max node.maxParentSize node.thisSize
        minParentSize := min node.minParentSize node.thisSize
        packetStarts := true :: node.packetStarts } := by
  have hsub : ∀ s ∈ size :: rest, s ∈ node.sizeVector := by
    intro s hs
    rw [hsizes]
    exact hs
  exact ⟨h.size_le size (hsub size List.mem_cons_self),
    fun s hs => h.size_le s (hsub s (List.mem_cons_of_mem size hs))⟩

variable (penalty) in
theorem exists_leadsTo
    (h : LeafBelow (leftChild maxSize) rightChild node leaf)
    (hfeasible : node.Feasible maxSize) :
    ∃ starts, LeadsTo maxSize penalty node starts leaf := by
  induction h with
  | @leaf node hnone =>
    cases hsizes : node.sizeVector with
    | nil => exact ⟨[], leadsTo_self hsizes hfeasible.thisSize_le⟩
    | cons size rest =>
      by_cases hpos : 0 < node.thisSize
      · exact absurd (.inr (rightChild_eq hsizes hpos)) (hnone _)
      · have hsize := hfeasible.size_le size (by
          rw [hsizes]
          exact List.mem_cons_self)
        have hle : node.thisSize + size ≤ maxSize := by omega
        exact absurd (.inl (leftChild_eq hsizes hle)) (hnone _)
  | @child node child leaf hchild _ ih =>
    cases hsizes : node.sizeVector with
    | nil => exact absurd hchild (not_isChild_nil hsizes)
    | cons size rest =>
      obtain ⟨hle, rfl⟩ | ⟨hpos, rfl⟩ := isChild_cons hsizes hchild
      · obtain ⟨starts, hstarts⟩ := ih (hfeasible.left hsizes hle)
        exact ⟨false :: starts, (leadsTo_left hsizes).mp hstarts⟩
      · obtain ⟨starts, hstarts⟩ := ih (hfeasible.right hsizes)
        exact ⟨true :: starts,
          (leadsTo_right hsizes hfeasible.thisSize_le hpos).mp hstarts⟩

variable (penalty) in
theorem exists_leafBelow (hfeasible : node.Feasible maxSize)
    (hlength : starts.length = node.sizeVector.length)
    (hfits : ∀ s ∈ sizesFrom node.thisSize node.sizeVector starts,
      s ≤ maxSize)
    (hclosed : ∀ s ∈ (sizesFrom node.thisSize node.sizeVector starts).dropLast,
      0 < s) :
    ∃ leaf, LeafBelow (leftChild maxSize) rightChild node leaf ∧
      LeadsTo maxSize penalty node starts leaf := by
  induction starts generalizing node with
  | nil =>
    have hsizes := List.eq_nil_of_length_eq_zero hlength.symm
    exact ⟨node, .leaf fun child => not_isChild_nil hsizes,
      leadsTo_self hsizes hfeasible.thisSize_le⟩
  | cons start starts ih =>
    cases hsizes : node.sizeVector with
    | nil =>
      rw [hsizes] at hlength
      exact absurd hlength (Nat.succ_ne_zero _)
    | cons size rest =>
      rw [hsizes, List.length_cons, List.length_cons,
        Nat.add_right_cancel_iff] at hlength
      rw [hsizes] at hfits hclosed
      cases start with
      | true =>
        rw [sizesFrom_true, List.forall_mem_cons] at hfits
        rw [sizesFrom_true,
          List.dropLast_cons_of_ne_nil (sizesFrom_ne_nil _ _ _),
          List.forall_mem_cons] at hclosed
        obtain ⟨leaf, hleaf, hleads⟩ :=
          ih (hfeasible.right hsizes) hlength hfits.2 hclosed.2
        have hright := rightChild_eq hsizes hclosed.1
        exact ⟨leaf, .child (.inr hright) hleaf,
          (leadsTo_right hsizes hfeasible.thisSize_le hclosed.1).mp
            hleads⟩
      | false =>
        rw [sizesFrom_false] at hfits hclosed
        obtain ⟨s, hs, hsize⟩ :=
          exists_le_sizesFrom (node.thisSize + size) rest starts
        have hle := hsize.trans (hfits s hs)
        obtain ⟨leaf, hleaf, hleads⟩ :=
          ih (hfeasible.left hsizes hle) hlength hfits hclosed
        exact ⟨leaf, .child (.inl (leftChild_eq hsizes hle)) hleaf,
          (leadsTo_left hsizes).mp hleads⟩

/-! ## The search -/

theorem optimalNode_eq (maxSize penalty depth : ℕ) (node : PartitionTreeNode) :
    optimalNode maxSize penalty depth node =
      branchAndBound (leftChild maxSize) rightChild (cost penalty) depth
        node := by
  induction depth generalizing node with
  | zero => rfl
  | succ depth ih =>
    have heq : optimalNode maxSize penalty depth =
        branchAndBound (leftChild maxSize) rightChild (cost penalty)
          depth := funext ih
    rw [optimalNode, branchAndBound, heq]
    cases node.leftChild maxSize with
    | none => cases node.rightChild <;> rfl
    | some left => cases node.rightChild <;> rfl

theorem exists_leadsTo_getOptimalNode (hfeasible : node.Feasible maxSize)
    (penalty : ℕ) :
    ∃ starts, LeadsTo maxSize penalty node starts
        (node.getOptimalNode maxSize penalty) ∧
      ∀ others : List Bool, others.length = node.sizeVector.length →
        (∀ s ∈ sizesFrom node.thisSize node.sizeVector others, s ≤ maxSize) →
        (∀ s ∈ (sizesFrom node.thisSize node.sizeVector others).dropLast,
          0 < s) →
        outcome penalty node starts ≤ outcome penalty node others := by
  have hheight : ∀ node child : PartitionTreeNode,
      IsChild (leftChild maxSize) rightChild node child →
      child.sizeVector.length < node.sizeVector.length :=
    fun _ _ h => length_sizeVector_lt h
  have hcost : ∀ node child : PartitionTreeNode,
      IsChild (leftChild maxSize) rightChild node child →
      node.cost penalty ≤ child.cost penalty :=
    fun _ _ h => cost_le_of_isChild h
  rw [getOptimalNode, optimalNode_eq]
  have hbelow : LeafBelow (leftChild maxSize) rightChild node
      (branchAndBound (leftChild maxSize) rightChild (cost penalty)
        node.sizeVector.length node) :=
    leafBelow_branchAndBound hheight le_rfl
  obtain ⟨starts, hstarts⟩ := exists_leadsTo penalty hbelow hfeasible
  refine ⟨starts, hstarts, ?_⟩
  intro others hlength hfits hclosed
  obtain ⟨leaf, hleaf, hothers⟩ := exists_leafBelow penalty
    hfeasible hlength hfits hclosed
  rw [← hstarts.cost_eq, ← hothers.cost_eq]
  exact cost_branchAndBound_le hheight hcost le_rfl hleaf

/-- The root, with the prior sizes if there are any. -/
def rootNode (prior : Option (ℕ × ℕ)) (sizeVector : List ℕ) :
    PartitionTreeNode :=
  match prior with
  | none => createRootNode sizeVector
  | some (minSize, maxSize) =>
    (createRootNode sizeVector).setPriorMinMax minSize maxSize

variable {prior : Option (ℕ × ℕ)}

theorem rootNode_fields (prior : Option (ℕ × ℕ)) (size : ℕ) (rest : List ℕ) :
    (rootNode prior (size :: rest)).thisSize = size ∧
      (rootNode prior (size :: rest)).sizeVector = rest ∧
      (rootNode prior (size :: rest)).packetStarts = [true] := by
  cases prior with
  | none => exact ⟨rfl, rfl, rfl⟩
  | some prior => exact ⟨rfl, rfl, rfl⟩

theorem indices_concat (d : ℤ) (starts : List Bool) (start : Bool) :
    indices d (starts ++ [start]) =
      indices d starts ++ [d + (starts ++ [start]).count true] := by
  induction starts generalizing d with
  | nil => cases start <;> simp [indices]
  | cons first starts ih =>
    cases first with
    | true =>
      rw [List.cons_append, indices, ih, indices, List.cons_append,
        List.count_cons_self, Int.natCast_add, Int.natCast_one,
        Int.add_assoc, Int.add_comm 1]
    | false =>
      rw [List.cons_append, indices, ih, indices, List.cons_append,
        List.count_cons_of_ne (by decide)]

/-- The loop of `FindOptimalConfiguration` numbers the packets. -/
theorem configVector_eq (starts : List Bool) (config : List ℤ) :
    configVector (starts.reverse ++ [true]) (starts.count true) config =
      0 :: indices 0 starts ++ config := by
  induction starts using List.reverseRecOn generalizing config with
  | nil => rfl
  | append_singleton starts start ih =>
    have hindex : (if start = true then
        ((starts ++ [start]).count true : ℤ) - 1
        else (starts ++ [start]).count true) = (starts.count true : ℤ) := by
      cases start with
      | true => simp
      | false => simp
    rw [List.reverse_concat, List.cons_append, configVector, hindex, ih,
      indices_concat, Int.zero_add]
    simp

theorem findOptimalConfiguration_eq (penalty : ℕ) (prior : Option (ℕ × ℕ))
    (hle : ∀ s ∈ size :: rest, s ≤ maxSize) :
    ∃ starts, findOptimalConfiguration maxSize penalty
        (rootNode prior (size :: rest)) = 0 :: indices 0 starts ∧
      starts.length = rest.length ∧
      (∀ s ∈ sizesFrom size rest starts, s ≤ maxSize) ∧
      (∀ s ∈ (sizesFrom size rest starts).dropLast, 0 < s) ∧
      ∀ others : List Bool, others.length = rest.length →
        (∀ s ∈ sizesFrom size rest others, s ≤ maxSize) →
        (∀ s ∈ (sizesFrom size rest others).dropLast, 0 < s) →
        outcome penalty (rootNode prior (size :: rest)) starts ≤
          outcome penalty (rootNode prior (size :: rest)) others := by
  obtain ⟨hthis, hsizes, hflags⟩ := rootNode_fields prior size rest
  have hfeasible : Feasible maxSize (rootNode prior (size :: rest)) := by
    constructor
    · rw [hthis]
      exact hle size List.mem_cons_self
    · rw [hsizes]
      exact fun s hs => hle s (List.mem_cons_of_mem size hs)
  obtain ⟨starts, hstarts, hbest⟩ :=
    exists_leadsTo_getOptimalNode hfeasible penalty
  have hlength := hstarts.length_eq
  have hfits := hstarts.fits
  have hclosed := hstarts.closed
  rw [hthis, hsizes] at hfits hclosed hbest
  rw [hsizes] at hlength
  refine ⟨starts, ?_, hlength, hfits, hclosed, hbest⟩
  have hcount : (((rootNode prior (size :: rest)).getOptimalNode maxSize
      penalty).numPackets : ℤ) - 1 = starts.count true := by
    rw [numPackets, hstarts.packetStarts, hflags, List.count_append,
      List.count_reverse]
    simp
  rw [findOptimalConfiguration, hcount, hstarts.packetStarts, hflags,
    configVector_eq, List.append_nil]

end PartitionTreeNode

end WebrtcWinXp.Vp8
