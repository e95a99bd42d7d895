import WebrtcWinXp.Vp8.BalancedSizes

/-!
# Sets of small partitions

`AggregateSmallPartitions` goes over the partitions.  Each set of consecutive
small ones is put into packets, of which one is empty exactly when the whole set
is; then the smallest size is 0.
-/

namespace WebrtcWinXp.Vp8

open Support PartitionTreeNode

variable {limit overhead : ℕ} {lengths : List ℕ}

/-! ## The loop over small partitions -/

/-- What is known when some partitions are done. -/
structure Sets (limit : ℕ) (lengths : List ℕ) (s : SmallPartitions)
    (done : List ℕ) : Prop where
  split : done ++ s.remaining = lengths
  length_eq : s.partitionVec.length = done.length
  num_nonneg : 0 ≤ s.numAggregatePackets
  decisions : ∀ d ∈ s.partitionVec, d = -1 ∨ 0 ≤ d ∧ d < s.numAggregatePackets
  large : ∀ x ∈ s.partitionVec.zip done, x.1 = -1 ↔ limit ≤ x.2
  sizes : (∀ d ∈ s.partitionVec, d = -1) ∧ s.minSize = -1 ∧ s.maxSize = -1 ∨
    0 ≤ s.minSize ∧ s.minSize ≤ limit ∧ 0 ≤ s.maxSize
  empty_iff : s.minSize = 0 ↔
    ∃ g ∈ groups (s.partitionVec.zip done), g.2 = 0
  sets : HasEmptySet limit lengths ↔
    (∃ g ∈ groups (s.partitionVec.zip done), g.2 = 0) ∨
      HasEmptySet limit s.remaining

theorem sets_start : Sets limit lengths { remaining := lengths } [] := by
  refine ⟨rfl, rfl, le_rfl, ?_, ?_, .inl ⟨?_, rfl, rfl⟩, ?_, ?_⟩
  · exact fun d hd => absurd hd List.not_mem_nil
  · exact fun x hx => absurd hx List.not_mem_nil
  · exact fun d hd => absurd hd List.not_mem_nil
  · refine iff_of_false (show (-1 : ℤ) ≠ 0 by decide) ?_
    rintro ⟨g, hg, -⟩
    exact List.not_mem_nil hg
  · refine (or_iff_right ?_).symm
    rintro ⟨g, hg, -⟩
    exact List.not_mem_nil hg

variable {s : SmallPartitions} {done rest : List ℕ}

theorem Sets.large_step {length : ℕ} (h : Sets limit lengths s done)
    (hlimit : 0 < limit) (hremaining : s.remaining = length :: rest)
    (hlarge : limit ≤ length) :
    Sets limit lengths
      { s with
        remaining := rest
        partitionVec := s.partitionVec ++ [-1] } (done ++ [length]) := by
  have hzip : (s.partitionVec ++ [-1]).zip (done ++ [length]) =
      s.partitionVec.zip done ++ [((-1 : ℤ), length)] :=
    List.zip_append h.length_eq
  have hgroups : groups ((s.partitionVec ++ [-1]).zip (done ++ [length])) =
      groups (s.partitionVec.zip done) ++ [((-1 : ℤ), length)] := by
    rw [hzip, groups_append]
    · rfl
    · intro x _ y hy hxy
      rw [List.mem_singleton] at hy
      rw [hxy, hy]
  have hempty : (∃ g ∈ groups ((s.partitionVec ++ [-1]).zip
      (done ++ [length])), g.2 = 0) ↔
        ∃ g ∈ groups (s.partitionVec.zip done), g.2 = 0 := by
    rw [hgroups]
    simp only [List.mem_append, or_and_right, exists_or, List.mem_singleton,
      exists_eq_left]
    exact or_iff_left (by omega)
  have hsplit := h.split
  rw [hremaining] at hsplit
  refine ⟨?_, ?_, h.num_nonneg, ?_, ?_, ?_, ?_, ?_⟩
  · rw [List.append_assoc]
    exact hsplit
  · rw [List.length_append, List.length_append, h.length_eq]
    rfl
  · rw [List.forall_mem_append]
    exact ⟨h.decisions, fun d hd => .inl (List.mem_singleton.mp hd)⟩
  · rw [hzip, List.forall_mem_append]
    refine ⟨h.large, ?_⟩
    intro x hx
    rw [List.mem_singleton.mp hx]
    exact iff_of_true rfl hlarge
  · refine h.sizes.imp_left fun hnone => ⟨?_, hnone.2⟩
    rw [List.forall_mem_append]
    exact ⟨hnone.1, fun d hd => List.mem_singleton.mp hd⟩
  · rw [hempty]
    exact h.empty_iff
  · rw [hempty, h.sets, hremaining, hasEmptySet_cons hlarge]

theorem exists_set_config {size : ℕ} (prior : Option (ℕ × ℕ))
    (hoverhead : 0 < overhead) (hset : ∀ x ∈ size :: rest, x < limit) :
    ∃ starts, findOptimalConfiguration limit overhead
        (rootNode prior (size :: rest)) = 0 :: indices 0 starts ∧
      starts.length = rest.length ∧
      (∀ x ∈ sizesFrom size rest starts, x ≤ limit) ∧
      (0 ∈ sizesFrom size rest starts ↔ ∀ x ∈ size :: rest, x = 0) := by
  obtain ⟨starts, hconfig, hlength, hfits, hclosed, hbest⟩ :=
    findOptimalConfiguration_eq overhead prior fun x hx => (hset x hx).le
  exact ⟨starts, hconfig, hlength, hfits,
    findOptimalConfiguration_empty_iff hoverhead hlength hfits hclosed hbest⟩

theorem groups_set (size : ℕ) {starts : List Bool} {d : ℤ} (hd : 0 ≤ d)
    (hlength : starts.length = rest.length) :
    (groups ((d :: indices d starts).zip (size :: rest))).map Prod.snd =
        sizesFrom size rest starts ∧
      ∀ x ∈ (d :: indices d starts).zip (size :: rest), d ≤ x.1 := by
  refine ⟨(groupsFrom_indices hd hlength).1, ?_⟩
  intro x hx
  obtain hx | hx := List.mem_cons.mp (List.of_mem_zip hx).1
  · exact hx.ge
  · exact (mem_indices hx).1

theorem calcMinMax_set {size : ℕ} {starts : List Bool} (minSize maxSize : ℤ)
    (hlength : starts.length = rest.length)
    (hfits : ∀ x ∈ sizesFrom size rest starts, x ≤ limit) :
    let sizes := calcMinMax (0 :: indices 0 starts) (size :: rest) minSize
      maxSize
    0 ≤ sizes.1 ∧ sizes.1 ≤ limit ∧ 0 ≤ sizes.2 ∧
      (sizes.1 = 0 ↔ minSize = 0 ∨ 0 ∈ sizesFrom size rest starts) := by
  obtain ⟨hgroups, hrange⟩ := groups_set size (le_refl 0) hlength
  rw [calcMinMax_eq fun x hx => by
    have hx' := hrange x hx
    omega, hgroups]
  dsimp only
  set a : ℤ := if minSize < 0 then (intMax : ℤ) else minSize with ha
  set m := (sizesFrom size rest starts).foldl
    (fun m (s : ℕ) => min m (s : ℤ)) a
  have hnonneg : 0 ≤ a := by
    rw [ha]
    split
    · decide
    · omega
  have hzero : a = 0 ↔ minSize = 0 := by
    rw [ha]
    split
    · refine iff_of_false (by decide) (by omega)
    · exact Iff.rfl
  have hm : 0 ≤ m := le_foldl_min_iff.mpr ⟨hnonneg, fun s _ => by omega⟩
  refine ⟨hm, ?_, ?_, ?_⟩
  · by_contra hgt
    obtain ⟨x, hx, -⟩ := exists_le_sizesFrom size rest starts
    have hle := le_foldl_min_iff.mp (show (limit : ℤ) + 1 ≤ m by omega)
    have hx' := hle.2 x hx
    have hfit := hfits x hx
    omega
  · refine le_trans ?_ (le_foldl_max _ _)
    split
    · exact le_rfl
    · omega
  · have hone : 1 ≤ m ↔ 1 ≤ a ∧ ∀ x ∈ sizesFrom size rest starts, 1 ≤ (x : ℤ) :=
      le_foldl_min_iff
    constructor
    · intro heq
      by_contra hnot
      rw [not_or] at hnot
      have hpos : 1 ≤ m := by
        refine hone.mpr ⟨?_, ?_⟩
        · have hne := mt hzero.mp hnot.1
          omega
        · intro x hx
          have hne : x ≠ 0 := by
            rintro rfl
            exact hnot.2 hx
          omega
      omega
    · intro hor
      by_contra hne
      have hpos := hone.mp (show 1 ≤ m by omega)
      obtain hmin | hmem := hor
      · have ha' := hzero.mpr hmin
        omega
      · have hx := hpos.2 0 hmem
        omega

theorem Sets.small_step {length : ℕ} (h : Sets limit lengths s done)
    (hoverhead : 0 < overhead) (hremaining : s.remaining = length :: rest)
    (hsmall : length < limit) {t : SmallPartitions}
    (ht : SmallPartitions.step limit overhead s = some t) :
    Sets limit lengths t
      (done ++ s.remaining.takeWhile (· < limit)) := by
  have htake : (length :: rest).takeWhile (· < limit) =
      length :: rest.takeWhile (· < limit) :=
    List.takeWhile_cons_of_pos (decide_eq_true hsmall)
  have hset : ∀ x ∈ length :: rest.takeWhile (· < limit), x < limit := by
    intro x hx
    rw [← htake] at hx
    have hx' := List.mem_takeWhile_imp hx
    exact of_decide_eq_true hx'
  obtain ⟨starts, hconfig, hlength, hfits, hempty⟩ :=
    exists_set_config s.prior hoverhead hset
  have hnum := h.num_nonneg
  obtain ⟨hminnonneg, hminle, hmaxnonneg, hzero⟩ :=
    calcMinMax_set s.minSize s.maxSize hlength hfits
  obtain ⟨hgroups, hrange⟩ := groups_set length hnum hlength
  rw [SmallPartitions.step, hremaining] at ht
  dsimp only at ht
  rw [if_pos hsmall, htake, hconfig, getLastD_indices, List.map_cons,
    map_indices, Int.add_zero, Option.some_inj] at ht
  rw [hremaining, htake]
  subst ht
  have hvec : (s.numAggregatePackets ::
      indices s.numAggregatePackets starts).length =
        (length :: rest.takeWhile (· < limit)).length := by
    rw [List.length_cons, List.length_cons, length_indices, hlength]
  have hzip : (s.partitionVec ++ s.numAggregatePackets ::
      indices s.numAggregatePackets starts).zip
        (done ++ length :: rest.takeWhile (· < limit)) =
      s.partitionVec.zip done ++ (s.numAggregatePackets ::
        indices s.numAggregatePackets starts).zip
          (length :: rest.takeWhile (· < limit)) :=
    List.zip_append h.length_eq
  have hgroupsAll : groups ((s.partitionVec ++ s.numAggregatePackets ::
      indices s.numAggregatePackets starts).zip
        (done ++ length :: rest.takeWhile (· < limit))) =
      groups (s.partitionVec.zip done) ++ groups ((s.numAggregatePackets ::
        indices s.numAggregatePackets starts).zip
          (length :: rest.takeWhile (· < limit))) := by
    rw [hzip, groups_append]
    intro x hx y hy hxy
    have hy' := hrange y hy
    obtain hlarge | hold := h.decisions x.1 (List.of_mem_zip hx).1
    · exact hlarge
    · omega
  have hemptyAll : (∃ g ∈ groups ((s.partitionVec ++ s.numAggregatePackets ::
      indices s.numAggregatePackets starts).zip
        (done ++ length :: rest.takeWhile (· < limit))), g.2 = 0) ↔
      (∃ g ∈ groups (s.partitionVec.zip done), g.2 = 0) ∨
        0 ∈ sizesFrom length (rest.takeWhile (· < limit)) starts := by
    rw [hgroupsAll, ← hgroups]
    simp only [List.mem_append, or_and_right, exists_or, List.mem_map]
  refine ⟨?_, ?_, ?_, ?_, ?_, .inr ⟨hminnonneg, hminle, hmaxnonneg⟩, ?_, ?_⟩
  · have hsplit := h.split
    rw [hremaining] at hsplit
    rw [List.append_assoc, ← htake, List.takeWhile_append_dropWhile]
    exact hsplit
  · rw [List.length_append, List.length_append, h.length_eq, hvec]
  · dsimp only
    omega
  · dsimp only
    rw [List.forall_mem_append]
    constructor
    · intro d hd
      obtain hlarge | hold := h.decisions d hd
      · exact .inl hlarge
      · exact .inr (by omega)
    · intro d hd
      obtain rfl | hd := List.mem_cons.mp hd
      · exact .inr (by omega)
      · have hd' := mem_indices hd
        exact .inr (by omega)
  · rw [hzip, List.forall_mem_append]
    refine ⟨h.large, ?_⟩
    intro x hx
    have hx' := hrange x hx
    have hlt := hset x.2 (List.of_mem_zip hx).2
    exact iff_of_false (by omega) (by omega)
  · rw [hemptyAll, hzero, h.empty_iff]
  · dsimp only
    have hrest : ∀ x ∈ ((length :: rest).dropWhile (· < limit)).head?,
        limit ≤ x := by
      intro x hx
      have hnot := List.head?_dropWhile_not (· < limit) (length :: rest)
      rw [Option.mem_def] at hx
      rw [hx] at hnot
      exact not_lt.mp (of_decide_eq_false hnot)
    have hsets := hasEmptySet_append hset (List.cons_ne_nil _ _) hrest
    rw [← htake, List.takeWhile_append_dropWhile] at hsets
    rw [hemptyAll, hempty, or_assoc, h.sets, hremaining, hsets, htake]

theorem SmallPartitions.lowers_step (limit overhead : ℕ) :
    Lowers (SmallPartitions.step limit overhead) (·.remaining.length) := by
  intro s t h
  rw [SmallPartitions.step] at h
  split at h
  · exact absurd h (Option.some_ne_none t).symm
  · rename_i length rest hremaining
    dsimp only
    rw [hremaining] at h ⊢
    split at h
    · rename_i hsmall
      rw [Option.some_inj] at h
      subst h
      have hdrop : (length :: rest).dropWhile (· < limit) =
          rest.dropWhile (· < limit) :=
        List.dropWhile_cons_of_pos (decide_eq_true hsmall)
      dsimp only
      rw [hdrop, List.length_cons]
      exact Nat.lt_succ_of_le (List.dropWhile_suffix _).length_le
    · rw [Option.some_inj] at h
      subst h
      exact Nat.lt_succ_self rest.length

theorem Sets.step {t : SmallPartitions} (h : Sets limit lengths s done)
    (hlimit : 0 < limit) (hoverhead : 0 < overhead)
    (ht : SmallPartitions.step limit overhead s = some t) :
    ∃ done, Sets limit lengths t done := by
  cases hremaining : s.remaining with
  | nil =>
    rw [SmallPartitions.step, hremaining] at ht
    exact absurd ht (Option.some_ne_none t).symm
  | cons length rest =>
    by_cases hsmall : length < limit
    · exact ⟨_, h.small_step hoverhead hremaining hsmall ht⟩
    · rw [SmallPartitions.step, hremaining] at ht
      dsimp only at ht
      rw [if_neg hsmall, Option.some_inj] at ht
      subst ht
      exact ⟨_, h.large_step hlimit hremaining (not_lt.mp hsmall)⟩

/-- The decisions of `AggregateSmallPartitions`, and the sizes. -/
structure Aggregated (limit : ℕ) (lengths : List ℕ) (s : SmallPartitions) :
    Prop where
  snd_eq : (s.partitionVec.zip lengths).map Prod.snd = lengths
  large : ∀ x ∈ s.partitionVec.zip lengths, x.1 = -1 ↔ limit ≤ x.2
  minSize_le : s.minSize ≤ limit
  maxSize_nonneg : s.minSize = 0 → 0 ≤ s.maxSize
  empty_iff : s.minSize = 0 ↔ HasEmptySet limit lengths
  sets : (∃ g ∈ groups (s.partitionVec.zip lengths), g.2 = 0) ↔
    HasEmptySet limit lengths

theorem aggregated_finish (lengths : List ℕ) (hlimit : 0 < limit)
    (hoverhead : 0 < overhead) :
    Aggregated limit lengths
      (finish (SmallPartitions.step limit overhead) (·.remaining.length)
        { remaining := lengths }) := by
  obtain ⟨⟨done, h⟩, hnone⟩ :=
    finish_invariant (SmallPartitions.lowers_step limit overhead)
      (P := fun s => ∃ done, Sets limit lengths s done)
      (fun s t ⟨done, h⟩ ht => h.step hlimit hoverhead ht)
      ⟨[], sets_start⟩
  set small := finish (SmallPartitions.step limit overhead)
    (·.remaining.length) { remaining := lengths }
  have hremaining : small.remaining = [] := by
    rw [SmallPartitions.step] at hnone
    split at hnone
    · assumption
    · split at hnone
      · exact absurd hnone (Option.some_ne_none _)
      · exact absurd hnone (Option.some_ne_none _)
  have hdone := h.split
  rw [hremaining, List.append_nil] at hdone
  subst hdone
  have hsets := h.sets
  rw [hremaining, or_iff_left not_hasEmptySet_nil] at hsets
  refine ⟨List.map_snd_zip h.length_eq.ge, h.large, ?_, ?_, ?_, hsets.symm⟩
  · obtain ⟨-, hmin, -⟩ | ⟨-, hle, -⟩ := h.sizes
    · omega
    · exact hle
  · intro hzero
    obtain ⟨-, hmin, -⟩ | ⟨-, -, hmax⟩ := h.sizes
    · omega
    · exact hmax
  · rw [h.empty_iff, hsets]

end WebrtcWinXp.Vp8
