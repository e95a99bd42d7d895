import WebrtcWinXp.Vp8.Balanced

/-!
# Balanced packets are not empty

A set of small partitions makes a packet without bytes only if all of them are
empty.  The smallest size is then 0, and the number of fragments of a large
partition would be found by a division through it.  Otherwise no packet and no
fragment is empty.
-/

namespace WebrtcWinXp.Vp8

open Support PartitionTreeNode

/-! ## The number of fragments -/

section Fragments

variable {size n limit penalty : ℕ} {minSize maxSize : ℤ}

theorem fragmentSize_le_iff (hn : 0 < n) :
    fragmentSize size n ≤ limit ↔ size ≤ n * limit := by
  rw [fragmentSize, Nat.div_le_iff_le_mul_add_pred hn]
  omega

theorem le_fragmentSize_iff (hlimit : 0 < limit) :
    fragmentSize size limit ≤ n ↔ size ≤ n * limit := by
  rw [fragmentSize_le_iff hlimit, Nat.mul_comm]

theorem fragmentSize_pos (hsize : 0 < size) (hn : 0 < n) :
    0 < fragmentSize size n := by
  rw [Nat.pos_iff_ne_zero]
  intro hzero
  have hle := (fragmentSize_le_iff hn).mp hzero.le
  omega

theorem fragmentsCost_le (hfits : fragmentSize size n ≤ limit)
    (hmin : minSize ≤ limit) (hmax : 0 ≤ maxSize) :
    fragmentsCost size penalty minSize maxSize n ≤ limit + n * penalty := by
  rw [fragmentsCost]
  split
  · omega
  · split <;> omega

theorem fragmentSize_anti {m : ℕ} (hm : 0 < m) (hle : m ≤ n) :
    fragmentSize size n ≤ fragmentSize size m := by
  rw [fragmentSize_le_iff (hm.trans_le hle)]
  exact ((fragmentSize_le_iff hm).mp le_rfl).trans (Nat.mul_le_mul_right _ hle)

variable (minSize maxSize) in
theorem fragmentsCost_lt {m : ℕ} (hsame : fragmentSize size m = fragmentSize size n)
    (hlt : m < n) (hpenalty : 0 < penalty) :
    fragmentsCost size penalty minSize maxSize m <
      fragmentsCost size penalty minSize maxSize n := by
  have hmul : (m : ℤ) * penalty < n * penalty := by
    rw [← Int.natCast_mul, ← Int.natCast_mul, Int.ofNat_lt]
    exact Nat.mul_lt_mul_of_pos_right hlt hpenalty
  rw [fragmentsCost, fragmentsCost, hsame]
  split
  · omega
  · split <;> omega

/-- What a number of fragments is good for: it is positive, the largest fragment
fits, and the last one is not empty. -/
structure GoodNumber (size limit n : ℕ) : Prop where
  pos : 0 < n
  fits : fragmentSize size n ≤ limit
  last : (n - 1) * fragmentSize size n < size

theorem goodNumber_min (hsize : 0 < size) (hlimit : 0 < limit) :
    GoodNumber size limit (fragmentSize size limit) := by
  have hpos := fragmentSize_pos hsize hlimit
  have hfits : fragmentSize size (fragmentSize size limit) ≤ limit :=
    (fragmentSize_le_iff hpos).mpr ((le_fragmentSize_iff hlimit).mp le_rfl)
  refine ⟨hpos, hfits, ?_⟩
  by_contra hlast
  have hle : size ≤ (fragmentSize size limit - 1) * limit :=
    (not_lt.mp hlast).trans (Nat.mul_le_mul_left _ hfits)
  have hfewer := (le_fragmentSize_iff hlimit).mpr hle
  omega

theorem calcNumberOfFragments_good (hlimit : 0 < limit) (hsize : limit ≤ size)
    (hpenalty : 0 < penalty)
    (hcost : size * penalty + limit < intMax)
    (hmin : minSize < 0 ∨ 0 < minSize) (hle : minSize ≤ limit) :
    ∃ n : ℕ, calcNumberOfFragments size limit penalty minSize maxSize = n ∧
      GoodNumber size limit n := by
  have hmingood := goodNumber_min (hlimit.trans_le hsize) hlimit
  rw [calcNumberOfFragments]
  dsimp only
  by_cases hnone : minSize < 0 ∨ maxSize < 0
  · rw [if_pos hnone]
    exact ⟨_, rfl, hmingood⟩
  · rw [if_neg hnone]
    obtain ⟨minNat, rfl⟩ := Int.eq_ofNat_of_zero_le
      (show 0 ≤ minSize by omega)
    rw [Int.toNat_natCast]
    have hminpos : 0 < minNat := by omega
    have hlast : fragmentSize size limit ≤ fragmentSize size minNat := by
      rw [le_fragmentSize_iff hlimit]
      have hcover : size ≤ fragmentSize size minNat * minNat :=
        (le_fragmentSize_iff hminpos).mp le_rfl
      exact hcover.trans (Nat.mul_le_mul_left _ (by omega))
    have hmem : ∀ n, n ∈ List.range' (fragmentSize size limit)
        (fragmentSize size minNat + 1 - fragmentSize size limit) ↔
          fragmentSize size limit ≤ n ∧ n ≤ fragmentSize size minNat := by
      intro n
      rw [List.mem_range'_1]
      omega
    obtain ⟨-, hall⟩ | ⟨n, hn, hfits, -, heq, hall⟩ := foldl_best
      (fun n => fragmentSize size n ≤ limit) (fun n => (n : ℤ))
      (fragmentsCost size penalty minNat maxSize)
      (List.range' (fragmentSize size limit)
        (fragmentSize size minNat + 1 - fragmentSize size limit))
      (-1, (intMax : ℤ))
    · have hbest := (hall _ ((hmem _).mpr ⟨le_rfl, hlast⟩)
        hmingood.fits).trans
          (fragmentsCost_le hmingood.fits hle (by omega))
      have hfew : fragmentSize size limit ≤ size := by
        rw [le_fragmentSize_iff hlimit]
        exact Nat.le_mul_of_pos_right size hlimit
      have hmul : fragmentSize size limit * penalty ≤ size * penalty :=
        Nat.mul_le_mul_right penalty hfew
      rw [← Int.natCast_mul] at hbest
      dsimp only at hbest
      omega
    · refine ⟨n, congrArg Prod.fst heq, ?_⟩
      have hrange := (hmem n).mp hn
      have hpos : 0 < n := hmingood.pos.trans_le hrange.1
      refine ⟨hpos, hfits, ?_⟩
      -- With an empty fragment, one fragment less has the same size.
      by_contra hempty
      have hcover : size ≤ (n - 1) * fragmentSize size n := not_lt.mp hempty
      have hfewer : 0 < n - 1 := by
        rw [Nat.pos_iff_ne_zero]
        intro hzero
        rw [hzero, Nat.zero_mul] at hcover
        omega
      have hsame : fragmentSize size (n - 1) = fragmentSize size n :=
        le_antisymm ((fragmentSize_le_iff hfewer).mpr hcover)
          (fragmentSize_anti hfewer (Nat.sub_le n 1))
      have hfewest : fragmentSize size limit ≤ n - 1 := by
        rw [le_fragmentSize_iff hlimit]
        exact hcover.trans (Nat.mul_le_mul_left _ hfits)
      have hbest := hall (n - 1) ((hmem _).mpr ⟨hfewest, by omega⟩)
        (hsame.trans_le hfits)
      have hcheaper := fragmentsCost_lt minNat maxSize hsame (by omega) hpenalty
      omega

end Fragments

/-! ## Packets without bytes -/

section Empty

variable {thisSize size limit penalty : ℕ} {sizes rest : List ℕ}
  {starts : List Bool} {prior : Option (ℕ × ℕ)}

theorem sizesFrom_add (b : ℕ) (sizes : List ℕ) (starts : List Bool) :
    ∃ q qs, ∀ a, sizesFrom (a + b) sizes starts = (a + q) :: qs := by
  induction starts generalizing b sizes with
  | nil =>
    exact ⟨b, [], fun a => sizesFrom_nil_right (a + b) sizes⟩
  | cons start starts ih =>
    cases sizes with
    | nil => exact ⟨b, [], fun a => rfl⟩
    | cons size sizes =>
      cases start with
      | true => exact ⟨b, sizesFrom size sizes starts, fun a => rfl⟩
      | false =>
        obtain ⟨q, qs, heq⟩ := ih (b + size) sizes
        refine ⟨q, qs, fun a => ?_⟩
        rw [sizesFrom_false, Nat.add_assoc, heq]

theorem sum_sizesFrom (h : starts.length = sizes.length) :
    (sizesFrom thisSize sizes starts).sum = thisSize + sizes.sum := by
  induction starts generalizing thisSize sizes with
  | nil =>
    rw [List.eq_nil_of_length_eq_zero h.symm]
    rfl
  | cons start starts ih =>
    cases sizes with
    | nil => exact absurd h (Nat.succ_ne_zero _)
    | cons size sizes =>
      have hrest := Nat.succ.inj h
      cases start with
      | true =>
        rw [sizesFrom_true, List.sum_cons, ih hrest, List.sum_cons]
      | false =>
        rw [sizesFrom_false, ih hrest, List.sum_cons,
          Nat.add_assoc]

theorem singleton_ne_concat {front : List ℕ} (hne : front ≠ []) (x y : ℕ) :
    [x] ≠ front ++ [y] := by
  intro heq
  have hlength := congrArg List.length heq
  have hpos := List.length_pos_of_ne_nil hne
  rw [List.length_append, List.length_singleton, List.length_singleton]
    at hlength
  omega

theorem exists_merged {front : List ℕ} (hne : front ≠ [])
    (h : sizesFrom thisSize sizes starts = front ++ [0]) :
    ∃ others : List Bool, others.length = starts.length ∧
      sizesFrom thisSize sizes others = front ∧
      starts.count true = others.count true + 1 := by
  induction starts generalizing thisSize sizes front with
  | nil =>
    rw [sizesFrom_nil_right] at h
    exact absurd h (singleton_ne_concat hne _ 0)
  | cons start starts ih =>
    cases sizes with
    | nil => exact absurd h (singleton_ne_concat hne _ 0)
    | cons size sizes =>
      cases start with
      | true =>
        obtain ⟨f, front, rfl⟩ := List.exists_cons_of_ne_nil hne
        rw [sizesFrom_true, List.cons_append, List.cons_eq_cons] at h
        obtain ⟨rfl, h⟩ := h
        by_cases hfront : front = []
        · subst hfront
          obtain ⟨q, qs, heq⟩ := sizesFrom_add size sizes starts
          have hzero := heq 0
          rw [Nat.zero_add, h, List.nil_append, List.cons_eq_cons] at hzero
          refine ⟨false :: starts, rfl, ?_, ?_⟩
          · rw [sizesFrom_false, heq, ← hzero.2]
            have hq : q = 0 := by omega
            rw [hq, Nat.add_zero]
          · rw [List.count_cons_self,
              List.count_cons_of_ne (by decide)]
        · obtain ⟨others, hlength, hmerged, hcount⟩ := ih hfront h
          refine ⟨true :: others, ?_, ?_, ?_⟩
          · rw [List.length_cons, List.length_cons, hlength]
          · rw [sizesFrom_true, hmerged]
          · rw [List.count_cons_self, List.count_cons_self, hcount]
      | false =>
        rw [sizesFrom_false] at h
        obtain ⟨others, hlength, hmerged, hcount⟩ := ih hne h
        refine ⟨false :: others, ?_, ?_, ?_⟩
        · rw [List.length_cons, List.length_cons, hlength]
        · rw [sizesFrom_false, hmerged]
        · rw [List.count_cons_of_ne (by decide),
            List.count_cons_of_ne (by decide), hcount]

theorem findOptimalConfiguration_empty_iff (hpenalty : 0 < penalty)
    (hlength : starts.length = rest.length)
    (hfits : ∀ s ∈ sizesFrom size rest starts, s ≤ limit)
    (hclosed : ∀ s ∈ (sizesFrom size rest starts).dropLast, 0 < s)
    (hbest : ∀ others : List Bool, others.length = rest.length →
      (∀ s ∈ sizesFrom size rest others, s ≤ limit) →
      (∀ s ∈ (sizesFrom size rest others).dropLast, 0 < s) →
      outcome penalty (rootNode prior (size :: rest)) starts ≤
        outcome penalty (rootNode prior (size :: rest)) others) :
    0 ∈ sizesFrom size rest starts ↔ ∀ x ∈ size :: rest, x = 0 := by
  have hsum : (sizesFrom size rest starts).sum = size + rest.sum :=
    sum_sizesFrom hlength
  obtain ⟨front, last, hsplit⟩ :=
    (List.eq_nil_or_concat' _).resolve_left (sizesFrom_ne_nil size rest starts)
  rw [← List.sum_cons] at hsum
  constructor
  · intro hzero
    rw [hsplit, List.dropLast_concat] at hclosed
    have hlast : last = 0 := by
      rw [hsplit, List.mem_append, List.mem_singleton] at hzero
      obtain hfront | hlast := hzero
      · exact absurd (hclosed 0 hfront) (Nat.lt_irrefl 0)
      · exact hlast.symm
    subst hlast
    by_cases hfront : front = []
    · rw [hsplit, hfront] at hsum
      exact List.sum_eq_zero_iff_forall_eq_nat.mp hsum.symm
    · -- Without the empty packet there is one penalty less.
      obtain ⟨others, hothers, hmerged, hcount⟩ := exists_merged hfront hsplit
      have hle := hbest others (hothers.trans hlength)
        (by
          intro s hs
          rw [hmerged] at hs
          refine hfits s ?_
          rw [hsplit]
          exact List.mem_append_left [0] hs)
        (by
          intro s hs
          rw [hmerged] at hs
          exact hclosed s (List.mem_of_mem_dropLast hs))
      obtain ⟨hthis, hsizes, hflags⟩ := rootNode_fields prior size rest
      rw [outcome, outcome, hthis, hsizes, hmerged, hsplit, hcount,
        List.foldl_append, List.foldl_append, List.foldl_cons, List.foldl_nil,
        List.foldl_cons, List.foldl_nil, Nat.max_zero, Nat.min_zero,
        ← Nat.add_assoc, Int.natCast_succ, Int.add_mul] at hle
      omega
  · intro hall
    rw [List.sum_eq_zero_iff_forall_eq_nat.mpr hall] at hsum
    have hzero := List.sum_eq_zero_iff_forall_eq_nat.mp hsum
    rw [hsplit] at hzero ⊢
    have hlast := hzero last (List.mem_append_right front
      (List.mem_singleton_self last))
    rw [hlast]
    exact List.mem_append_right front (List.mem_singleton_self 0)

end Empty

/-! ## Groups of partitions -/

/-- The partitions that are sent together, with their sizes: those with one
decision that follow each other, and each large one, with -1, by itself. -/
def groupsFrom (d : ℤ) (thisSize : ℕ) : List (ℤ × ℕ) → List (ℤ × ℕ)
  | [] => [(d, thisSize)]
  | (e, size) :: rest =>
    if e = d ∧ d ≠ -1 then groupsFrom d (thisSize + size) rest
    else (d, thisSize) :: groupsFrom e size rest

def groups : List (ℤ × ℕ) → List (ℤ × ℕ)
  | [] => []
  | (d, size) :: rest => groupsFrom d size rest

section Groups

variable {d : ℤ} {thisSize : ℕ} {l l₁ l₂ : List (ℤ × ℕ)} {starts : List Bool}
  {sizes : List ℕ}

theorem groupsFrom_eq (hd : d ≠ -1) :
    groupsFrom d thisSize l =
      (d, thisSize + ((packetOf d l).map Prod.snd).sum) ::
        groups (l.dropWhile fun x => x.1 = d) := by
  induction l generalizing thisSize with
  | nil => rfl
  | cons x l ih =>
    obtain ⟨e, size⟩ := x
    rw [groupsFrom]
    by_cases he : e = d
    · rw [if_pos ⟨he, hd⟩, ih, packetOf, packetOf,
        List.takeWhile_cons_of_pos (by simpa using he),
        List.dropWhile_cons_of_pos (by simpa using he), List.map_cons,
        List.sum_cons, Nat.add_assoc]
    · rw [if_neg fun h => he h.1, packetOf,
        List.takeWhile_cons_of_neg (by simpa using he),
        List.dropWhile_cons_of_neg (by simpa using he)]
      rfl

theorem dropWhile_cons_self (d : ℤ) (size : ℕ) (l : List (ℤ × ℕ)) :
    ((d, size) :: l).dropWhile (fun x => x.1 = d) =
      l.dropWhile fun x => x.1 = d :=
  List.dropWhile_cons_of_pos (decide_eq_true rfl)

theorem packetOf_cons_self (d : ℤ) (size : ℕ) (l : List (ℤ × ℕ)) :
    packetOf d ((d, size) :: l) = (d, size) :: packetOf d l :=
  List.takeWhile_cons_of_pos (decide_eq_true rfl)

theorem groups_cons_large (size : ℕ) (l : List (ℤ × ℕ)) :
    groups ((-1, size) :: l) = (-1, size) :: groups l := by
  cases l with
  | nil => rfl
  | cons x l => exact if_neg fun h => h.2 rfl

theorem groups_append (h : ∀ x ∈ l₁, ∀ y ∈ l₂, x.1 = y.1 → x.1 = -1) :
    groups (l₁ ++ l₂) = groups l₁ ++ groups l₂ := by
  cases l₁ with
  | nil => rfl
  | cons x l₁ =>
    obtain ⟨d, thisSize⟩ := x
    change groupsFrom d thisSize (l₁ ++ l₂) =
      groupsFrom d thisSize l₁ ++ groups l₂
    induction l₁ generalizing d thisSize with
    | nil =>
      cases l₂ with
      | nil => rfl
      | cons y l₂ =>
        have hne := h (d, thisSize) List.mem_cons_self y
          List.mem_cons_self
        exact if_neg fun hy => hy.2 (hne hy.1.symm)
    | cons x l₁ ih =>
      obtain ⟨e, size⟩ := x
      rw [List.cons_append, groupsFrom, groupsFrom]
      split
      · rename_i he
        refine ih d (thisSize + size) ?_
        intro x hx y hy hxy
        obtain rfl | hx := List.mem_cons.mp hx
        · exact h (d, thisSize) List.mem_cons_self y hy hxy
        · exact h x (List.mem_cons_of_mem _ (List.mem_cons_of_mem _ hx)) y
            hy hxy
      · rw [List.cons_append, ih e size fun x hx =>
          h x (List.mem_cons_of_mem _ hx)]

theorem groupsFrom_indices (hd : 0 ≤ d) (h : starts.length = sizes.length) :
    (groupsFrom d thisSize ((indices d starts).zip sizes)).map Prod.snd =
        sizesFrom thisSize sizes starts ∧
      ∀ g ∈ groupsFrom d thisSize ((indices d starts).zip sizes),
        d ≤ g.1 ∧ g.1 ≤ d + starts.count true := by
  induction starts generalizing d thisSize sizes with
  | nil =>
    rw [List.eq_nil_of_length_eq_zero h.symm]
    refine ⟨rfl, ?_⟩
    intro g hg
    rw [indices, List.zip_nil_left, groupsFrom, List.mem_singleton] at hg
    rw [hg, List.count_nil]
    exact ⟨le_rfl, (add_zero d).ge⟩
  | cons start starts ih =>
    cases sizes with
    | nil => exact absurd h (Nat.succ_ne_zero _)
    | cons size sizes =>
      have hrest := Nat.succ.inj h
      cases start with
      | true =>
        obtain ⟨hsizes, hrange⟩ :=
          ih (show 0 ≤ d + 1 by omega) hrest
        rw [indices, List.zip_cons_cons, groupsFrom,
          if_neg (by omega), List.map_cons, hsizes, sizesFrom_true,
          List.forall_mem_cons, List.count_cons_self]
        refine ⟨rfl, ⟨le_rfl, ?_⟩, ?_⟩
        · dsimp only
          omega
        · intro g hg
          have hg' := hrange g hg
          omega
      | false =>
        rw [indices, List.zip_cons_cons, groupsFrom,
          if_pos ⟨rfl, by omega⟩, sizesFrom_false,
          List.count_cons_of_ne (by decide)]
        exact ih hd hrest

end Groups

section Extremes

variable {a c : ℤ} {sizes : List ℕ}

theorem le_foldl_min_iff :
    c ≤ sizes.foldl (fun m (s : ℕ) => min m (s : ℤ)) a ↔
      c ≤ a ∧ ∀ s ∈ sizes, c ≤ (s : ℤ) := by
  induction sizes generalizing a with
  | nil => simp
  | cons s sizes ih =>
    rw [List.foldl_cons, ih, le_min_iff, List.forall_mem_cons, and_assoc]

theorem le_foldl_max (a : ℤ) (sizes : List ℕ) :
    a ≤ sizes.foldl (fun m (s : ℕ) => max m (s : ℤ)) a := by
  induction sizes generalizing a with
  | nil => exact le_rfl
  | cons s sizes ih => exact (le_max_left a s).trans (ih _)

theorem MinMax.lowers_step : Lowers MinMax.step (·.remaining.length) := by
  intro s t h
  rw [MinMax.step] at h
  split at h
  · exact absurd h (Option.some_ne_none t).symm
  · rename_i d size rest hremaining
    rw [Option.some_inj] at h
    subst h
    dsimp only
    rw [hremaining, dropWhile_cons_self, List.length_cons]
    exact Nat.lt_succ_of_le (List.dropWhile_suffix _).length_le

/-- The loop of `CalcMinMax` goes over the groups. -/
theorem MinMax.finish_eq (s : MinMax) (h : ∀ x ∈ s.remaining, x.1 ≠ -1) :
    finish MinMax.step (·.remaining.length) s =
      { remaining := []
        minSize := ((groups s.remaining).map Prod.snd).foldl
          (fun m (s : ℕ) => min m (s : ℤ)) s.minSize
        maxSize := ((groups s.remaining).map Prod.snd).foldl
          (fun m (s : ℕ) => max m (s : ℤ)) s.maxSize } := by
  obtain ⟨remaining, minSize, maxSize⟩ := s
  induction hn : remaining.length using Nat.strong_induction_on generalizing
    remaining minSize maxSize with
  | _ n ih =>
    cases remaining with
    | nil => exact finish_of_eq_none rfl
    | cons x rest =>
      obtain ⟨d, size⟩ := x
      rw [finish_of_eq_some MinMax.lowers_step rfl]
      have hd : d ≠ -1 := h (d, size) List.mem_cons_self
      have hgroups : groups ((d, size) :: rest) =
          (d, size + ((packetOf d rest).map Prod.snd).sum) ::
            groups (rest.dropWhile fun x => x.1 = d) := groupsFrom_eq hd
      have hsuffix := List.dropWhile_suffix (l := rest)
        fun x : ℤ × ℕ => x.1 = d
      have hlength := hsuffix.length_le
      rw [List.length_cons] at hn
      rw [dropWhile_cons_self, packetOf_cons_self,
        ih (rest.dropWhile fun x => x.1 = d).length (by omega) _ _ _
          (fun x hx => h x (List.mem_cons_of_mem _ (hsuffix.subset hx)))
          rfl]
      dsimp only
      rw [hgroups, List.map_cons, List.map_cons, List.sum_cons,
        List.foldl_cons, List.foldl_cons]

theorem calcMinMax_eq {config : List ℤ} {minSize maxSize : ℤ}
    (h : ∀ x ∈ config.zip sizes, x.1 ≠ -1) :
    calcMinMax config sizes minSize maxSize =
      (((groups (config.zip sizes)).map Prod.snd).foldl
          (fun m (s : ℕ) => min m (s : ℤ))
          (if minSize < 0 then (intMax : ℤ) else minSize),
        ((groups (config.zip sizes)).map Prod.snd).foldl
          (fun m (s : ℕ) => max m (s : ℤ))
          (if maxSize < 0 then 0 else maxSize)) := by
  rw [calcMinMax, MinMax.finish_eq _ h]

end Extremes

section Sets

variable {limit overhead : ℕ} {lengths set rest : List ℕ} {d k : ℤ}
  {starts : List Bool}

/-- A set of partitions below the limit that cannot be made longer and that has
no bytes. -/
def HasEmptySet (limit : ℕ) (lengths : List ℕ) : Prop :=
  ∃ set ∈ lengths.splitOnP fun length => limit ≤ length,
    set ≠ [] ∧ ∀ length ∈ set, length = 0

theorem not_hasEmptySet_nil : ¬HasEmptySet limit [] := by
  rintro ⟨set, hset, hne, -⟩
  rw [List.splitOnP_nil, List.mem_singleton] at hset
  exact hne hset

theorem hasEmptySet_cons {length : ℕ} (hlarge : limit ≤ length) :
    HasEmptySet limit (length :: rest) ↔ HasEmptySet limit rest := by
  rw [HasEmptySet, HasEmptySet, List.splitOnP_cons_eq_if_modifyHead,
    if_pos (decide_eq_true hlarge)]
  simp only [List.mem_cons, exists_eq_or_imp]
  exact or_iff_right fun h => h.1 rfl

theorem hasEmptySet_append (hset : ∀ length ∈ set, length < limit)
    (hne : set ≠ []) (hrest : ∀ length ∈ rest.head?, limit ≤ length) :
    HasEmptySet limit (set ++ rest) ↔
      (∀ length ∈ set, length = 0) ∨ HasEmptySet limit rest := by
  have hsmall : ∀ length ∈ set, decide (limit ≤ length) = false := by
    intro length hlength
    have hlt := hset length hlength
    exact decide_eq_false (by omega)
  cases rest with
  | nil =>
    rw [or_iff_left not_hasEmptySet_nil, List.append_nil, HasEmptySet,
      List.splitOnP_eq_singleton hsmall]
    simp [hne]
  | cons length rest =>
    have hlarge := hrest length rfl
    rw [hasEmptySet_cons hlarge, HasEmptySet,
      List.splitOnP_append_cons_of_forall_mem hsmall length
        (decide_eq_true hlarge) rest]
    simp only [List.mem_cons, exists_eq_or_imp]
    exact or_congr_left (and_iff_right hne)

theorem map_indices : (indices d starts).map (k + ·) = indices (k + d) starts := by
  induction starts generalizing d with
  | nil => rfl
  | cons start starts ih =>
    cases start with
    | true => rw [indices, indices, List.map_cons, ih, Int.add_assoc]
    | false => rw [indices, indices, List.map_cons, ih]

theorem mem_indices {e : ℤ} (h : e ∈ indices d starts) :
    d ≤ e ∧ e ≤ d + starts.count true := by
  induction starts generalizing d with
  | nil => exact absurd h List.not_mem_nil
  | cons start starts ih =>
    cases start with
    | true =>
      rw [indices, List.mem_cons] at h
      rw [List.count_cons_self]
      obtain rfl | h := h
      · omega
      · have hrange := ih h
        omega
    | false =>
      rw [indices, List.mem_cons] at h
      rw [List.count_cons_of_ne (by decide)]
      obtain rfl | h := h
      · omega
      · exact ih h

theorem getLastD_indices :
    (d :: indices d starts).getLastD 0 = d + starts.count true := by
  obtain rfl | ⟨starts, start, rfl⟩ := List.eq_nil_or_concat' starts
  · simp [indices]
  · rw [indices_concat, ← List.cons_append, List.getLastD_concat]

theorem mem_of_mem_groups {l : List (ℤ × ℕ)} {g : ℤ × ℕ} (hg : g ∈ groups l)
    (hlarge : g.1 = -1) : g ∈ l := by
  cases l with
  | nil => exact hg
  | cons x l =>
    obtain ⟨d, thisSize⟩ := x
    change g ∈ groupsFrom d thisSize l at hg
    induction l generalizing d thisSize with
    | nil => exact hg
    | cons x l ih =>
      obtain ⟨e, size⟩ := x
      rw [groupsFrom] at hg
      split at hg
      · rename_i he
        obtain heq | hmem := List.mem_cons.mp (ih d (thisSize + size) hg)
        · rw [heq] at hlarge
          exact absurd hlarge he.2
        · exact List.mem_cons_of_mem _ (List.mem_cons_of_mem _ hmem)
      · obtain rfl | hmem := List.mem_cons.mp hg
        · exact List.mem_cons_self
        · exact List.mem_cons_of_mem _ (ih e size hmem)

end Sets

end WebrtcWinXp.Vp8
