import WebrtcWinXp.Vp8.SmallSets

/-!
# No empty packets

The balanced mode makes an empty packet exactly when a set of small partitions
has no bytes.  If there also is a large partition, the number of its fragments
is then asked for with a smallest size of 0.
-/

namespace WebrtcWinXp.Vp8

open Support PartitionTreeNode

variable {limit overhead : ℕ}

/-- The number is asked for with a smallest size that is positive, or with none,
and it is positive; the largest of that many fragments fits, and none of them is
empty. -/
structure FragmentsCall.Ok (limit : ℕ) (c : FragmentsCall) : Prop where
  usable : c.minSize < 0 ∨ c.maxSize < 0 ∨ 0 < c.minSize
  pos : 0 < c.numFragments
  fits : fragmentSize c.largePartitionSize c.numFragments.toNat ≤ limit
  nonempty : ∀ i < c.numFragments.toNat,
    i * fragmentSize c.largePartitionSize c.numFragments.toNat <
      c.largePartitionSize

/-- Where all is well. -/
structure Full (limit : ℕ) (s : BalancedPackets) : Prop where
  usable : s.minSize < 0 ∨ 0 < s.minSize
  minSize_le : s.minSize ≤ limit
  packets : ∀ packet ∈ s.packets, 0 < packet.size
  calls : ∀ c ∈ s.calls, c.Ok limit

def largeOf (l : List (ℤ × ℕ)) : List ℕ :=
  (l.filter fun x => x.1 = -1).map Prod.snd

theorem largeOf_cons (length : ℕ) (l : List (ℤ × ℕ)) :
    largeOf ((-1, length) :: l) = length :: largeOf l :=
  rfl

namespace BalancedPackets

variable {s t : BalancedPackets} {length : ℕ} {rest : List (ℤ × ℕ)}

/-! ## One round -/

theorem splitLarge_calls (packetBytes rounds : ℕ) (first : Bool)
    (remainingPartition : ℕ) (s : BalancedPackets) :
    (splitLarge packetBytes rounds first remainingPartition s).calls =
      s.calls := by
  induction rounds generalizing first remainingPartition s with
  | zero => rfl
  | succ rounds ih => exact ih false _ _

theorem splitLarge_packets (packetBytes rounds : ℕ) (first : Bool)
    (remainingPartition : ℕ) (s : BalancedPackets) :
    s.packets <+:
      (splitLarge packetBytes rounds first remainingPartition s).packets := by
  induction rounds generalizing first remainingPartition s with
  | zero => exact List.prefix_refl _
  | succ rounds ih =>
    rw [splitLarge]
    refine List.IsPrefix.trans ?_ (ih false _ _)
    exact List.prefix_append _ _

theorem splitLarge_full {packetBytes rounds : ℕ} {first : Bool}
    {remainingPartition : ℕ} (hs : Full limit s) (hpos : 0 < packetBytes)
    (hlast : rounds * packetBytes < remainingPartition + packetBytes) :
    Full limit
      (splitLarge packetBytes rounds first remainingPartition s) := by
  induction rounds generalizing first remainingPartition s with
  | zero => exact hs
  | succ rounds ih =>
    rw [Nat.succ_mul] at hlast
    rw [splitLarge]
    refine ih ⟨?_, ?_, ?_, hs.calls⟩ ?_
    · have husable := hs.usable
      dsimp only [queuePacket]
      split <;> split <;> omega
    · have hle := hs.minSize_le
      dsimp only [queuePacket]
      split <;> split <;> omega
    · dsimp only [queuePacket]
      rw [List.forall_mem_append]
      refine ⟨hs.packets, fun packet hpacket => ?_⟩
      rw [List.mem_singleton.mp hpacket]
      dsimp only
      split <;> omega
    · split
      · omega
      · obtain rfl | hrounds := Nat.eq_zero_or_pos rounds
        · omega
        · have hmul := Nat.le_mul_of_pos_left packetBytes hrounds
          omega

theorem splitLarge_full_of_ok {c : FragmentsCall} (hok : c.Ok limit)
    (hs : Full limit s) (first : Bool) :
    Full limit (splitLarge
      (fragmentSize c.largePartitionSize c.numFragments.toNat)
      c.numFragments.toNat first c.largePartitionSize s) := by
  obtain ⟨n, hn⟩ : ∃ n, c.numFragments.toNat = n + 1 :=
    Nat.exists_eq_add_one.mpr (by
      have hpos := hok.pos
      omega)
  have hzero := hok.nonempty 0 (by omega)
  have hlast := hok.nonempty n (by omega)
  refine splitLarge_full hs (fragmentSize_pos (by omega) (by omega)) ?_
  rw [hn] at hlast ⊢
  rw [Nat.succ_mul]
  omega

theorem lowers_step (limit overhead : ℕ) :
    Lowers (step limit overhead) (·.remaining.length) := by
  intro s t h
  rw [step] at h
  split at h
  · exact absurd h (Option.some_ne_none t).symm
  · rename_i decision length rest hremaining
    split at h
    · rw [Option.some_inj] at h
      subst h
      dsimp only
      rw [hremaining]
      exact Nat.lt_succ_self rest.length
    · rw [Option.some_inj] at h
      subst h
      dsimp only
      rw [hremaining, dropWhile_cons_self, List.length_cons]
      exact Nat.lt_succ_of_le (List.dropWhile_suffix _).length_le

theorem step_cases (h : step limit overhead s = some t) :
    (∃ length c, s.remaining = (-1, length) :: t.remaining ∧
      c = FragmentsCall.mk length s.minSize s.maxSize
        (calcNumberOfFragments length limit overhead s.minSize s.maxSize) ∧
      t.calls = s.calls ++ [c] ∧ s.packets <+: t.packets ∧
      (c.Ok limit → Full limit s → Full limit t)) ∨
    ∃ g packet, g.1 ≠ -1 ∧ groups s.remaining = g :: groups t.remaining ∧
      packet.size = g.2 ∧ t.packets = s.packets ++ [packet] ∧
      t.calls = s.calls ∧ t.minSize = s.minSize ∧ t.maxSize = s.maxSize ∧
      largeOf t.remaining = largeOf s.remaining ∧
      t.remaining <:+ s.remaining := by
  rw [step] at h
  split at h
  · exact absurd h (Option.some_ne_none t).symm
  · rename_i decision length rest hremaining
    split at h
    · rename_i hlarge
      rw [Option.some_inj] at h
      subst h
      set c : FragmentsCall := ⟨length, s.minSize, s.maxSize,
        calcNumberOfFragments length limit overhead s.minSize s.maxSize⟩
      set u : BalancedPackets := { s with calls := s.calls ++ [c] }
      refine .inl ⟨length, c, ?_, rfl, splitLarge_calls _ _ true length u,
        splitLarge_packets _ _ true length u, ?_⟩
      · rw [hremaining, hlarge]
      · intro hok hs
        have hu : Full limit u := by
          refine ⟨hs.usable, hs.minSize_le, hs.packets, ?_⟩
          rw [List.forall_mem_append]
          exact ⟨hs.calls, fun d hd => (List.mem_singleton.mp hd).symm ▸ hok⟩
        have hfull := splitLarge_full_of_ok hok hu true
        exact ⟨hfull.usable, hfull.minSize_le, hfull.packets, hfull.calls⟩
    · rename_i hsmall
      rw [Option.some_inj] at h
      subst h
      have hgroups : groups s.remaining =
          (decision, ((packetOf decision s.remaining).map Prod.snd).sum) ::
            groups (s.remaining.dropWhile fun x => x.1 = decision) := by
        rw [hremaining, packetOf_cons_self, dropWhile_cons_self, List.map_cons,
          List.sum_cons]
        exact groupsFrom_eq hsmall
      refine .inr ⟨(decision, _), _, hsmall, hgroups, rfl, rfl, rfl, rfl, rfl,
        ?_, List.dropWhile_suffix _⟩
      have htake : (packetOf decision s.remaining).filter
          (fun x => x.1 = -1) = [] := by
        rw [List.filter_eq_nil_iff]
        intro x hx hlarge
        have heq := List.mem_takeWhile_imp hx
        exact hsmall ((of_decide_eq_true heq).symm.trans
          (of_decide_eq_true hlarge))
      calc largeOf (s.remaining.dropWhile fun x => x.1 = decision)
          = largeOf (packetOf decision s.remaining ++
              s.remaining.dropWhile fun x => x.1 = decision) := by
            rw [largeOf, largeOf, List.filter_append, htake, List.nil_append]
        _ = largeOf s.remaining := by
            rw [packetOf, List.takeWhile_append_dropWhile]

theorem remaining_of_step_eq_none (h : step limit overhead s = none) :
    s.remaining = [] := by
  rw [step] at h
  split at h
  · assumption
  · split at h
    · exact absurd h (Option.some_ne_none _)
    · exact absurd h (Option.some_ne_none _)

/-! ## All rounds -/

/-- What is known as long as no group of partitions is empty. -/
structure Inv (limit overhead : ℕ) (s : BalancedPackets) : Prop where
  full : Full limit s
  groups : ∀ g ∈ groups s.remaining, g.2 ≠ 0
  large : ∀ length ∈ largeOf s.remaining,
    limit ≤ length ∧ length * overhead + limit < intMax

theorem Inv.step (h : Inv limit overhead s) (hlimit : 0 < limit)
    (hoverhead : 0 < overhead) (ht : step limit overhead s = some t) :
    Inv limit overhead t := by
  obtain ⟨length, c, hremaining, hc, -, -, hfull⟩ |
    ⟨g, packet, -, hgroups, hsize, hpackets, hcalls, hmin, hmax, hlarge, -⟩ :=
      step_cases ht
  · have hgroups := h.groups
    have hlarge := h.large
    rw [hremaining, groups_cons_large, List.forall_mem_cons] at hgroups
    rw [hremaining, largeOf_cons, List.forall_mem_cons] at hlarge
    refine ⟨hfull ?_ h.full, hgroups.2, hlarge.2⟩
    obtain ⟨n, hn, hgood⟩ : ∃ n : ℕ, calcNumberOfFragments length limit
        overhead s.minSize s.maxSize = n ∧ GoodNumber length limit n :=
      calcNumberOfFragments_good hlimit hlarge.1.1 hoverhead hlarge.1.2
        h.full.usable h.full.minSize_le
    rw [hn] at hc
    subst hc
    have hpos := hgood.pos
    refine ⟨h.full.usable.imp_right .inr, ?_, hgood.fits, ?_⟩
    · exact Int.natCast_pos.mpr hpos
    · intro i hi
      exact (Nat.mul_le_mul_right _ (Nat.le_sub_one_of_lt hi)).trans_lt
        hgood.last
  · have hg := h.groups
    rw [hgroups, List.forall_mem_cons] at hg
    refine ⟨⟨?_, ?_, ?_, ?_⟩, hg.2, ?_⟩
    · rw [hmin]
      exact h.full.usable
    · rw [hmin]
      exact h.full.minSize_le
    · rw [hpackets, List.forall_mem_append]
      refine ⟨h.full.packets, fun q hq => ?_⟩
      rw [List.mem_singleton.mp hq, hsize]
      exact Nat.pos_of_ne_zero hg.1
    · rw [hcalls]
      exact h.full.calls
    · rw [hlarge]
      exact h.large

theorem empty_step (ht : step limit overhead s = some t)
    (h : (∃ g ∈ groups s.remaining, g.1 ≠ -1 ∧ g.2 = 0) ∨
      ∃ packet ∈ s.packets, packet.size = 0) :
    (∃ g ∈ groups t.remaining, g.1 ≠ -1 ∧ g.2 = 0) ∨
      ∃ packet ∈ t.packets, packet.size = 0 := by
  obtain ⟨length, c, hremaining, -, -, hpackets, -⟩ |
    ⟨g, packet, -, hgroups, hsize, hpackets, -⟩ := step_cases ht
  · obtain ⟨g, hg, hsmall, hzero⟩ | ⟨packet, hpacket, hzero⟩ := h
    · rw [hremaining, groups_cons_large] at hg
      obtain rfl | hg := List.mem_cons.mp hg
      · exact absurd rfl hsmall
      · exact .inl ⟨g, hg, hsmall, hzero⟩
    · exact .inr ⟨packet, hpackets.subset hpacket, hzero⟩
  · rw [hpackets]
    obtain ⟨k, hk, hsmall, hzero⟩ | ⟨q, hq, hzero⟩ := h
    · rw [hgroups] at hk
      obtain rfl | hk := List.mem_cons.mp hk
      · exact .inr ⟨packet, List.mem_append_right _
          (List.mem_singleton_self packet), hsize.trans hzero⟩
      · exact .inl ⟨k, hk, hsmall, hzero⟩
    · exact .inr ⟨q, List.mem_append_left _ hq, hzero⟩

theorem unusable_step (ht : step limit overhead s = some t)
    (h : s.minSize = 0 ∧ 0 ≤ s.maxSize ∧ largeOf s.remaining ≠ [] ∨
      ∃ c ∈ s.calls, ¬c.Ok limit) :
    t.minSize = 0 ∧ 0 ≤ t.maxSize ∧ largeOf t.remaining ≠ [] ∨
      ∃ c ∈ t.calls, ¬c.Ok limit := by
  obtain ⟨length, c, -, hc, hcalls, -⟩ |
    ⟨g, packet, -, -, -, -, hcalls, hmin, hmax, hlarge, -⟩ := step_cases ht
  · rw [hcalls]
    obtain ⟨hmin, hmax, -⟩ | ⟨d, hd, hbad⟩ := h
    · refine .inr ⟨c, List.mem_append_right _ (List.mem_singleton_self c), ?_⟩
      intro hok
      have husable := hok.usable
      rw [hc] at husable
      dsimp only at husable
      omega
    · exact .inr ⟨d, List.mem_append_left _ hd, hbad⟩
  · rw [hcalls, hmin, hmax, hlarge]
    exact h

theorem calls_step (ht : step limit overhead s = some t) :
    t.calls.map (·.largePartitionSize) ++ largeOf t.remaining =
      s.calls.map (·.largePartitionSize) ++ largeOf s.remaining := by
  obtain ⟨length, c, hremaining, rfl, hcalls, -⟩ |
    ⟨g, packet, -, -, -, -, hcalls, -, -, hlarge, -⟩ := step_cases ht
  · rw [hcalls, hremaining, List.map_append, List.append_assoc, largeOf_cons]
    rfl
  · rw [hcalls, hlarge]

end BalancedPackets

namespace RtpPacketizerVp8

open BalancedPackets

variable (p : RtpPacketizerVp8)

theorem overhead_pos : 0 < p.overhead := by
  rw [overhead, overheadOf, vp8FixedPayloadDescriptorBytes]
  omega

theorem aggregated (hlimit : 0 < p.payloadLimit) :
    Aggregated p.payloadLimit p.fragmentationLength
      p.aggregateSmallPartitions :=
  aggregated_finish p.fragmentationLength hlimit p.overhead_pos

theorem largeOf_aggregated (hlimit : 0 < p.payloadLimit) :
    largeOf (p.aggregateSmallPartitions.partitionVec.zip
      p.fragmentationLength) =
        p.fragmentationLength.filter (p.payloadLimit ≤ ·) := by
  have h := p.aggregated hlimit
  have hfilter : (p.aggregateSmallPartitions.partitionVec.zip
      p.fragmentationLength).filter (fun x => x.1 = -1) =
        (p.aggregateSmallPartitions.partitionVec.zip
          p.fragmentationLength).filter (fun x => p.payloadLimit ≤ x.2) :=
    List.filter_congr fun x hx => decide_eq_decide.mpr (h.large x hx)
  rw [largeOf, hfilter]
  conv_rhs => rw [← h.snd_eq, List.filter_map]
  rfl

def balancedPackets : BalancedPackets :=
  { remaining :=
      p.aggregateSmallPartitions.partitionVec.zip p.fragmentationLength
    minSize := p.aggregateSmallPartitions.minSize
    maxSize := p.aggregateSmallPartitions.maxSize }

variable {p} {r : BalancedPackets}

theorem payloadLimit_pos (h : p.generatePacketsBalancedAggregates = some r) :
    0 < p.payloadLimit := by
  rw [generatePacketsBalancedAggregates] at h
  split at h
  · exact absurd h (Option.some_ne_none r).symm
  · rw [payloadLimit]
    omega

theorem invariant_packets (h : p.generatePacketsBalancedAggregates = some r)
    {P : BalancedPackets → Prop} (hstart : P p.balancedPackets)
    (hstep : ∀ s t, P s → step p.payloadLimit p.overhead s = some t → P t) :
    P r ∧ r.remaining = [] := by
  have hlower := BalancedPackets.lowers_step p.payloadLimit p.overhead
  obtain ⟨hend, hnone⟩ := finish_invariant hlower hstep hstart
  rw [generatePacketsBalancedAggregates] at h
  split at h
  · exact absurd h (Option.some_ne_none r).symm
  · rw [Option.some_inj] at h
    subst h
    exact ⟨hend, remaining_of_step_eq_none hnone⟩

theorem calls_eq (h : p.generatePacketsBalancedAggregates = some r) :
    r.calls.map (·.largePartitionSize) =
      p.fragmentationLength.filter (p.payloadLimit ≤ ·) := by
  obtain ⟨hcalls, hremaining⟩ := invariant_packets h
    (P := fun s =>
      s.calls.map (·.largePartitionSize) ++ largeOf s.remaining =
        p.fragmentationLength.filter (p.payloadLimit ≤ ·))
    (p.largeOf_aggregated (payloadLimit_pos h))
    (fun s t hs ht => (calls_step ht).trans hs)
  rw [hremaining] at hcalls
  rw [← hcalls]
  exact (List.append_nil _).symm

theorem full_of_not_hasEmptySet
    (h : p.generatePacketsBalancedAggregates = some r)
    (hempty : ¬HasEmptySet p.payloadLimit p.fragmentationLength) :
    Full p.payloadLimit r := by
  have hlimit := payloadLimit_pos h
  have hagg := p.aggregated hlimit
  have hmin := mt hagg.empty_iff.mp hempty
  have hinv : BalancedPackets.Inv p.payloadLimit p.overhead
      p.balancedPackets := by
    refine ⟨⟨lt_or_gt_of_ne hmin, hagg.minSize_le, ?_, ?_⟩, ?_, ?_⟩
    · exact fun packet hpacket => absurd hpacket List.not_mem_nil
    · exact fun c hc => absurd hc List.not_mem_nil
    · intro g hg hzero
      exact hempty (hagg.sets.mp ⟨g, hg, hzero⟩)
    · rw [balancedPackets, p.largeOf_aggregated hlimit]
      intro length hlength
      rw [List.mem_filter] at hlength
      have hcost := p.costs_lt length hlength.1
      refine ⟨of_decide_eq_true hlength.2, ?_⟩
      rw [payloadLimit, overhead]
      omega
  exact (invariant_packets h hinv
    (fun s t hs ht => hs.step hlimit p.overhead_pos ht)).1.full

theorem exists_empty_packet
    (h : p.generatePacketsBalancedAggregates = some r)
    (hempty : HasEmptySet p.payloadLimit p.fragmentationLength) :
    ∃ packet ∈ r.packets, packet.size = 0 := by
  have hlimit := payloadLimit_pos h
  have hagg := p.aggregated hlimit
  obtain ⟨g, hg, hzero⟩ := hagg.sets.mpr hempty
  have hsmall : g.1 ≠ -1 := by
    intro hg1
    have hle := (hagg.large g (mem_of_mem_groups hg hg1)).mp hg1
    omega
  obtain ⟨hend, hremaining⟩ := invariant_packets h
    (.inl ⟨g, hg, hsmall, hzero⟩) (fun s t hs ht => empty_step ht hs)
  rw [hremaining] at hend
  refine hend.resolve_left ?_
  rintro ⟨k, hk, -⟩
  exact List.not_mem_nil hk

theorem exists_bad_call (h : p.generatePacketsBalancedAggregates = some r)
    (hempty : HasEmptySet p.payloadLimit p.fragmentationLength) {length : ℕ}
    (hmem : length ∈ p.fragmentationLength) (hle : p.payloadLimit ≤ length) :
    ∃ c ∈ r.calls, ¬c.Ok p.payloadLimit := by
  have hlimit := payloadLimit_pos h
  have hagg := p.aggregated hlimit
  have hmin := hagg.empty_iff.mpr hempty
  have hne : largeOf p.balancedPackets.remaining ≠ [] := by
    refine List.ne_nil_of_mem (a := length) ?_
    rw [balancedPackets, p.largeOf_aggregated hlimit, List.mem_filter]
    exact ⟨hmem, decide_eq_true hle⟩
  obtain ⟨hend, hremaining⟩ := invariant_packets h
    (.inl ⟨hmin, hagg.maxSize_nonneg hmin, hne⟩)
    (fun s t hs ht => unusable_step ht hs)
  rw [hremaining] at hend
  exact hend.resolve_left fun hnil => hnil.2.2 rfl

/-- The balanced mode calls for the number of fragments of each large partition.
All calls are fine and no packet is empty exactly when no set of small
partitions is empty; the calls are also fine when there are none. -/
theorem generatePacketsBalancedAggregates_full_iff
    (h : p.generatePacketsBalancedAggregates = some r) :
    r.calls.map (·.largePartitionSize) =
        p.fragmentationLength.filter (p.payloadLimit ≤ ·) ∧
      (((∀ c ∈ r.calls, c.Ok p.payloadLimit) ∧
          ∀ packet ∈ r.packets, 0 < packet.size) ↔
        ¬HasEmptySet p.payloadLimit p.fragmentationLength) ∧
      ((∀ c ∈ r.calls, c.Ok p.payloadLimit) ↔
        ¬HasEmptySet p.payloadLimit p.fragmentationLength ∨
          ∀ length ∈ p.fragmentationLength, length < p.payloadLimit) := by
  refine ⟨calls_eq h, ⟨?_, ?_⟩, ?_, ?_⟩
  · rintro ⟨-, hpackets⟩ hempty
    obtain ⟨packet, hmem, hzero⟩ := exists_empty_packet h hempty
    have hpos := hpackets packet hmem
    omega
  · intro hempty
    have hfull := full_of_not_hasEmptySet h hempty
    exact ⟨hfull.calls, hfull.packets⟩
  · intro hok
    by_contra hnot
    rw [not_or, not_not] at hnot
    obtain ⟨hempty, hlarge⟩ := hnot
    rw [not_forall₂] at hlarge
    obtain ⟨length, hmem, hle⟩ := hlarge
    obtain ⟨c, hc, hbad⟩ := exists_bad_call h hempty hmem (not_lt.mp hle)
    exact hbad (hok c hc)
  · rintro (hempty | hall)
    · exact (full_of_not_hasEmptySet h hempty).calls
    · have hnil : p.fragmentationLength.filter (p.payloadLimit ≤ ·) = [] := by
        rw [List.filter_eq_nil_iff]
        intro length hlength
        have hlt := hall length hlength
        rw [decide_eq_true_eq]
        omega
      have hcalls := calls_eq h
      rw [hnil, List.map_eq_nil_iff] at hcalls
      rw [hcalls]
      exact fun c hc => absurd hc List.not_mem_nil

def plainHeader : RTPVideoHeaderVP8 where
  nonReference := false
  pictureId := -1
  tl0PicIdx := -1
  temporalIdx := 0xFF
  layerSync := false
  keyIdx := -1
  pictureId_range := by decide
  tl0PicIdx_range := by decide
  temporalIdx_range := by decide
  layerSync_disabled := by decide
  keyIdx_range := by decide

def fiftyBytes (first second : ℕ) (h : first ≤ 100 ∧ second ≤ 100) :
    RtpPacketizerVp8 where
  hdrInfo := plainHeader
  maxPayloadLen := 51
  fragmentationLength := [first, second]
  costs_lt := by
    intro length hlength
    have hle : length ≤ 100 := by
      simp only [List.mem_cons, List.not_mem_nil, or_false] at hlength
      omega
    have hcost : length * overheadOf plainHeader ≤ 100 * 1 :=
      Nat.mul_le_mul hle (by decide)
    rw [intMax]
    omega

theorem exists_fiftyBytes {first second : ℕ} (h : first ≤ 100 ∧ second ≤ 100) :
    ∃ r, (fiftyBytes first second h).generatePacketsBalancedAggregates =
      some r := by
  have haccepted : ¬(51 < overheadOf plainHeader + 1) := by decide
  exact ⟨_, if_neg haccepted⟩

theorem generatePacketsBalancedAggregates_full_iff_thirty :
    ∃ r, (fiftyBytes 30 100 (by decide)).generatePacketsBalancedAggregates =
        some r ∧
      r.calls.map (·.largePartitionSize) = [100] ∧
      (∀ c ∈ r.calls, c.Ok 50) ∧ ∀ packet ∈ r.packets, 0 < packet.size := by
  obtain ⟨r, hr⟩ := exists_fiftyBytes (show 30 ≤ 100 ∧ 100 ≤ 100 by decide)
  have h := generatePacketsBalancedAggregates_full_iff hr
  refine ⟨r, hr, h.1, h.2.1.mpr ?_⟩
  rintro ⟨set, hset, hne, hzero⟩
  have hsets : [30, 100].splitOnP (fun length => decide (50 ≤ length)) =
      [[30], []] := by decide
  change set ∈ [30, 100].splitOnP (fun length => decide (50 ≤ length)) at hset
  rw [hsets, List.mem_cons, List.mem_singleton] at hset
  obtain rfl | rfl := hset
  · exact absurd (hzero 30 List.mem_cons_self) (by decide)
  · exact hne rfl

theorem not_forall_generatePacketsBalancedAggregates_full :
    ¬∀ (p : RtpPacketizerVp8) (r : BalancedPackets),
      0 < p.fragmentationLength.sum →
        p.generatePacketsBalancedAggregates = some r →
          (∀ c ∈ r.calls, c.Ok p.payloadLimit) ∧
            ∀ packet ∈ r.packets, 0 < packet.size := by
  intro h
  obtain ⟨r, hr⟩ := exists_fiftyBytes (show 0 ≤ 100 ∧ 100 ≤ 100 by decide)
  have hset : HasEmptySet 50 [0, 100] := ⟨[0], by decide, by decide, by decide⟩
  obtain ⟨c, hc, hbad⟩ := exists_bad_call hr hset
    (show 100 ∈ [0, 100] by decide) (show 50 ≤ 100 by decide)
  exact hbad ((h _ r (by decide) hr).1 c hc)

end RtpPacketizerVp8

end WebrtcWinXp.Vp8
