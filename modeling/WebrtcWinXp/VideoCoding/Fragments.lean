import WebrtcWinXp.VideoCoding.Fragmentation

/-!
# The fragments of a frame

The loop over the partitions records what can be decoded of each one that is
started, so that the fragments are in order and hold its packets up to the first
missing one.  A frame of more packets than there are sequence numbers can hide a
gap.
-/

namespace WebrtcWinXp.VideoCoding

open Support

namespace Vp8Frame

variable {f : Vp8Frame} {arrived : ℕ → Bool} {block k d : ℕ}

/-! ## The loop over the partitions -/

theorem EndsAt.filter_eq (h : f.EndsAt arrived k d) :
    (List.range' (f.start k) (f.packetCount k)).filter arrived =
      List.range' (f.start k) d ++
        (List.range' (f.start k + d) (f.packetCount k - d)).filter arrived := by
  have hsplit := List.range'_append_1 (s := f.start k) (m := d)
    (n := f.packetCount k - d)
  rw [Nat.add_sub_of_le h.le] at hsplit
  rw [← hsplit, List.filter_append, List.filter_eq_self.mpr]
  intro i hi
  rw [List.mem_range'_1] at hi
  have hreceived := h.received (i - f.start k) (by omega)
  rwa [Nat.add_sub_of_le hi.1] at hreceived

variable (arrived) in
theorem filter_range_start (hk : k < f.partitions.length) :
    (List.range (f.start (k + 1))).filter arrived =
      (List.range (f.start k)).filter arrived ++
        (List.range' (f.start k) (f.packetCount k)).filter arrived := by
  have hsplit := List.range'_append_1 (s := 0) (m := f.start k)
    (n := f.packetCount k)
  rw [Nat.zero_add] at hsplit
  rw [start_succ hk, ← List.filter_append, List.range_eq_range',
    List.range_eq_range', hsplit]

theorem offset_succ (hk : k < f.partitions.length) :
    f.offset arrived (k + 1) = f.offset arrived k +
      (f.bytes ((List.range' (f.start k) (f.packetCount k)).filter
        arrived)).length := by
  rw [offset, filter_range_start arrived hk, bytes_append, List.length_append,
    offset]

variable (f arrived) in
def iteratorAt (block k : ℕ) : List Vp8Packet :=
  findNextPartitionBeginning (f.place block (f.offset arrived k)
    (f.receivedFrom arrived (f.start k)))

theorem header_inner (hk : k < f.partitions.length) {i : ℕ}
    (hfirst : f.start k < i) (hi : i < f.start (k + 1)) :
    (f.header i).beginningOfPartition = false := by
  rw [start_succ hk] at hi
  have hheader := header_start (f := f)
    (show i - f.start k < f.packetCount k by omega)
  rw [Nat.add_sub_of_le hfirst.le] at hheader
  rw [hheader]
  exact decide_eq_false (by omega)

theorem EndsAt.iteratorAt_succ (h : f.EndsAt arrived k d)
    (hk : k < f.partitions.length) (block : ℕ) :
    findNextPartitionBeginning (f.place block
        (f.offset arrived k + (f.bytes (f.decodable arrived k)).length)
        (f.receivedFrom arrived (f.start k + d))) =
      f.iteratorAt arrived block (k + 1) := by
  have hle := h.le
  have hlast := start_add_packetCount_le hk
  have hstart := start_succ hk
  rw [findNextPartitionBeginning_place (b := f.start (k + 1)) _ (by omega)
    (by omega), iteratorAt, offset_succ hk, h.filter_eq, h.decodable,
    bytes_append, List.length_append, hstart, Nat.add_sub_add_left,
    Nat.add_assoc]
  intro i hle hi harrived
  refine header_inner hk (lt_of_le_of_ne (by omega) ?_) hi
  rintro rfl
  obtain rfl : d = 0 := by omega
  have hmissing := h.missing (by omega)
  rw [Nat.add_zero, harrived] at hmissing
  exact Bool.noConfusion hmissing

theorem iteratorAt_not_started (hk : k < f.partitions.length)
    (h : ¬f.Started arrived k) (block : ℕ) :
    f.iteratorAt arrived block k = f.iteratorAt arrived block (k + 1) := by
  obtain ⟨d, hd⟩ := exists_endsAt f arrived k
  obtain rfl : d = 0 := by
    have hpos := hd.started_iff.not.mp h
    omega
  rw [← hd.iteratorAt_succ hk, hd.decodable]
  rfl

variable (f arrived) in
/-- The packets behind those of a partition that can be decoded. -/
def behind (block k d : ℕ) : List Vp8Packet :=
  f.place block (f.offset arrived k + (f.bytes (f.decodable arrived k)).length)
    (f.receivedFrom arrived (f.start k + d))

theorem EndsAt.header_start (h : f.EndsAt arrived k (d + 1)) :
    f.header (f.start k) = ⟨true, k⟩ :=
  Vp8Frame.header_start (j := 0) (Nat.zero_lt_of_lt h.le)

theorem EndsAt.length_decodable (h : f.EndsAt arrived k (d + 1)) :
    (f.bytes (f.decodable arrived k)).length =
      (f.bytes (List.range' (f.start k) d)).length +
        (f.packet (f.start k + d)).sizeBytes := by
  rw [h.decodable, List.range'_1_concat, bytes_append, List.length_append,
    length_bytes_cons]
  rfl

theorem EndsAt.iteratorAt_eq (h : f.EndsAt arrived k (d + 1))
    (hk : k < f.partitions.length) (block : ℕ) :
    f.iteratorAt arrived block k =
      f.placed block (f.offset arrived k) (f.start k) ::
        (f.place block
            (f.offset arrived k + (f.packet (f.start k)).sizeBytes)
            (List.range' (f.start k + 1) d) ++
          f.behind arrived block k (d + 1)) := by
  have hle := h.le
  have hlast := start_add_packetCount_le hk
  have hlist : f.receivedFrom arrived (f.start k) =
      List.range' (f.start k) (d + 1) ++
        f.receivedFrom arrived (f.start k + (d + 1)) := by
    rw [receivedFrom_eq arrived (Nat.le_add_right (f.start k) (d + 1))
      (by omega),
      Nat.add_sub_cancel_left, List.filter_eq_self.mpr]
    intro i hi
    rw [List.mem_range'_1] at hi
    have hreceived := h.received (i - f.start k) (by omega)
    rwa [Nat.add_sub_of_le hi.1] at hreceived
  rw [iteratorAt, behind, hlist, place_append, h.decodable, List.range'_succ,
    place, findNextPartitionBeginning, List.cons_append,
    List.dropWhile_cons_of_neg]
  change ¬(!(f.header (f.start k)).beginningOfPartition) = true
  rw [h.header_start]
  exact Bool.noConfusion

theorem EndsAt.findPartitionEnd_eq (h : f.EndsAt arrived k (d + 1))
    (hcount : f.count ≤ 2 ^ 16 + 1) (hk : k < f.partitions.length)
    (block : ℕ) :
    findPartitionEnd (f.placed block (f.offset arrived k) (f.start k))
        (f.place block
            (f.offset arrived k + (f.packet (f.start k)).sizeBytes)
            (List.range' (f.start k + 1) d) ++
          f.behind arrived block k (d + 1)) =
      (f.placed block
          (f.offset arrived k + (f.bytes (List.range' (f.start k) d)).length)
          (f.start k + d),
        f.behind arrived block k (d + 1)) := by
  have hle := h.le
  have hlast := start_add_packetCount_le hk
  have hid : (f.placed block (f.offset arrived k) (f.start k)).vp8.partitionId =
      k := congrArg RTPVideoHeaderVP8.partitionId h.header_start
  rw [findPartitionEnd, hid, findPartitionEndLoop_run (by omega), behind,
    findPartitionEndLoop_ends hcount hk h]
  intro j hj
  rw [Nat.add_assoc, Vp8Frame.header_start (by omega)]
  exact decide_eq_false (by omega)

theorem next_iteratorAt (hcount : f.count ≤ 2 ^ 16 + 1)
    (hk : k < f.partitions.length) (h : f.Started arrived k)
    (block newLength : ℕ) (fragmentation : RTPFragmentationHeader) :
    PartitionScan.next (some ⟨block, 0⟩)
        ⟨newLength, fragmentation, f.iteratorAt arrived block k⟩ =
      some
        { newLength := newLength + (f.bytes (f.decodable arrived k)).length
          fragmentation := fragmentation.setFragment k (f.offset arrived k)
            (f.bytes (f.decodable arrived k)).length
          it := f.iteratorAt arrived block (k + 1) } := by
  obtain ⟨d, hd⟩ := exists_endsAt f arrived k
  obtain ⟨d, rfl⟩ : ∃ n, d = n + 1 := by
    have hpos := hd.started_iff.mp h
    exact ⟨d - 1, by omega⟩
  have hid : (f.placed block (f.offset arrived k) (f.start k)).vp8.partitionId =
      k := congrArg RTPVideoHeaderVP8.partitionId hd.header_start
  have hlength : pointerDifference
      (advance (some ⟨block, f.offset arrived k +
          (f.bytes (List.range' (f.start k) d)).length⟩)
        (f.packet (f.start k + d)).sizeBytes)
      (some ⟨block, f.offset arrived k⟩) =
        (f.bytes (f.decodable arrived k)).length := by
    rw [hd.length_decodable]
    change _ + _ + _ - _ = _
    rw [Nat.add_assoc, Nat.add_sub_cancel_left]
  rw [hd.iteratorAt_eq hk, PartitionScan.next]
  dsimp only
  rw [hd.findPartitionEnd_eq hcount hk, hid]
  dsimp only [placed]
  rw [hlength, behind, hd.iteratorAt_succ hk]
  rfl

instance (f : Vp8Frame) (arrived : ℕ → Bool) (k : ℕ) :
    Decidable (f.Started arrived k) := inferInstanceAs (Decidable (_ ∧ _))

variable (f arrived) in
def record (r : ℕ × RTPFragmentationHeader) (k : ℕ) :
    ℕ × RTPFragmentationHeader :=
  if f.Started arrived k then
    (r.1 + (f.bytes (f.decodable arrived k)).length,
      r.2.setFragment k (f.offset arrived k)
        (f.bytes (f.decodable arrived k)).length)
  else r

variable (arrived) in
theorem finish_iteratorAt (hcount : f.count ≤ 2 ^ 16 + 1) (block n : ℕ)
    (hn : k + n = f.partitions.length) (r : ℕ × RTPFragmentationHeader) :
    finish (PartitionScan.next (some ⟨block, 0⟩)) PartitionScan.left
        ⟨r.1, r.2, f.iteratorAt arrived block k⟩ =
      ⟨((List.range' k n).foldl (f.record arrived) r).1,
        ((List.range' k n).foldl (f.record arrived) r).2, []⟩ := by
  induction n generalizing k r with
  | zero =>
    obtain rfl : k = f.partitions.length := hn
    have hnil : f.iteratorAt arrived block f.partitions.length = [] := by
      rw [iteratorAt, receivedFrom, start_length, Nat.sub_self]
      rfl
    rw [hnil]
    exact finish_of_eq_none rfl
  | succ n ih =>
    have hk : k < f.partitions.length := by omega
    rw [List.range'_succ, List.foldl_cons, ← ih (by omega), record]
    by_cases h : f.Started arrived k
    · rw [if_pos h, finish_of_eq_some (PartitionScan.lowers _)
        (next_iteratorAt hcount hk h block r.1 r.2)]
    · rw [if_neg h, iteratorAt_not_started hk h]

variable (f arrived) in
/-- What is recorded of the first `n` partitions. -/
structure Recorded (n : ℕ) (r : ℕ × RTPFragmentationHeader) : Prop where
  started : ∀ k < n, f.Started arrived k →
    k < r.2.fragmentationVectorSize ∧
      r.2.fragmentationOffset k = f.offset arrived k ∧
      r.2.fragmentationLength k = (f.bytes (f.decodable arrived k)).length
  empty : ∀ k < kMaxVP8Partitions, n ≤ k ∨ ¬f.Started arrived k →
    r.2.fragmentationLength k = 0
  highest : ∀ m, r.2.fragmentationVectorSize = m + 1 →
    m < n ∧ f.Started arrived m
  sum : r.1 = ((List.range n).map r.2.fragmentationLength).sum

theorem recorded_prepare (h : RTPFragmentationHeader) :
    f.Recorded arrived 0 (0, h.prepare) :=
  ⟨fun _ hk => absurd hk (Nat.not_lt_zero _), fun _ hk _ => if_pos hk,
    fun _ hm => absurd hm (Nat.succ_ne_zero _).symm, rfl⟩

theorem Recorded.record {n : ℕ} {r : ℕ × RTPFragmentationHeader}
    (h : f.Recorded arrived n r) (hn : n < f.partitions.length) :
    f.Recorded arrived (n + 1) (f.record arrived r n) := by
  have hmax := f.length_partitions
  have hempty : r.2.fragmentationLength n = 0 :=
    h.empty n (by omega) (.inl le_rfl)
  rw [Vp8Frame.record]
  by_cases hs : f.Started arrived n
  · rw [if_pos hs]
    have hsum : (List.range n).map (Function.update r.2.fragmentationLength n
        (f.bytes (f.decodable arrived n)).length) =
          (List.range n).map r.2.fragmentationLength := by
      refine List.map_congr_left fun k hk => ?_
      exact Function.update_of_ne (List.mem_range.mp hk).ne _ _
    refine ⟨?_, ?_, ?_, ?_⟩
    · intro k hk hstarted
      dsimp only [RTPFragmentationHeader.setFragment]
      obtain rfl | hlt := Nat.eq_or_lt_of_le (Nat.le_of_lt_succ hk)
      · rw [Function.update_self, Function.update_self]
        refine ⟨?_, rfl, rfl⟩
        split <;> omega
      · rw [Function.update_of_ne hlt.ne, Function.update_of_ne hlt.ne]
        obtain ⟨hsize, hoffset, hlength⟩ := h.started k hlt hstarted
        refine ⟨?_, hoffset, hlength⟩
        split <;> omega
    · intro k hk hnot
      dsimp only [RTPFragmentationHeader.setFragment]
      have hne : k ≠ n := by
        rintro rfl
        obtain hle | hstarted := hnot
        · omega
        · exact hstarted hs
      rw [Function.update_of_ne hne]
      exact h.empty k hk (hnot.imp_left fun hle => by omega)
    · intro m hm
      dsimp only [RTPFragmentationHeader.setFragment] at hm
      split at hm
      · obtain rfl : n = m := by omega
        exact ⟨Nat.lt_succ_self n, hs⟩
      · obtain ⟨hlt, hstarted⟩ := h.highest m hm
        exact ⟨by omega, hstarted⟩
    · dsimp only [RTPFragmentationHeader.setFragment]
      rw [List.range_succ, List.map_append, List.sum_append, hsum, ← h.sum,
        List.map_singleton, List.sum_singleton, Function.update_self]
  · rw [if_neg hs]
    refine ⟨?_, ?_, ?_, ?_⟩
    · intro k hk hstarted
      obtain rfl | hlt := Nat.eq_or_lt_of_le (Nat.le_of_lt_succ hk)
      · exact absurd hstarted hs
      · exact h.started k hlt hstarted
    · exact fun k hk hnot =>
        h.empty k hk (hnot.imp_left fun hle => by omega)
    · intro m hm
      obtain ⟨hlt, hstarted⟩ := h.highest m hm
      exact ⟨by omega, hstarted⟩
    · rw [List.range_succ, List.map_append, List.sum_append, ← h.sum,
        List.map_singleton, List.sum_singleton, hempty, Nat.add_zero]

variable (arrived) in
theorem recorded_foldl (h : RTPFragmentationHeader) {n : ℕ}
    (hn : n ≤ f.partitions.length) :
    f.Recorded arrived n
      ((List.range' 0 n).foldl (f.record arrived) (0, h.prepare)) := by
  induction n with
  | zero => exact recorded_prepare h
  | succ n ih =>
    rw [List.range'_1_concat, List.foldl_append, Nat.zero_add]
    exact (ih (by omega)).record (by omega)

/-! ## The result -/

theorem received_eq (arrived : ℕ → Bool) (hk : k < f.partitions.length) :
    ∃ lost, (List.range (f.start (k + 1))).filter arrived =
        (List.range (f.start k)).filter arrived ++
          (f.decodable arrived k ++ lost) ∧
      f.received arrived = (List.range (f.start k)).filter arrived ++
        (f.decodable arrived k ++
          (lost ++ f.receivedFrom arrived (f.start (k + 1)))) := by
  obtain ⟨d, hd⟩ := exists_endsAt f arrived k
  have hlast := start_add_packetCount_le hk
  have hfront := filter_range_start arrived hk
  rw [hd.filter_eq, ← hd.decodable] at hfront
  have hall := receivedFrom_eq (f := f) arrived (i := 0)
    (Nat.zero_le (f.start (k + 1))) (by rw [start_succ hk]; exact hlast)
  refine ⟨_, hfront, ?_⟩
  rw [receivedFrom, Nat.sub_zero, Nat.sub_zero, ← List.range_eq_range',
    ← List.range_eq_range', hfront, List.append_assoc,
    List.append_assoc] at hall
  exact hall

theorem offset_add_decodable_le (arrived : ℕ → Bool)
    (hk : k < f.partitions.length) :
    f.offset arrived k + (f.bytes (f.decodable arrived k)).length ≤
      f.offset arrived (k + 1) := by
  obtain ⟨lost, hfront, -⟩ := received_eq arrived hk
  rw [offset, offset, hfront, bytes_append, bytes_append, List.length_append,
    List.length_append]
  omega

theorem offset_mono {j : ℕ} (hjk : j ≤ k) (hk : k ≤ f.partitions.length) :
    f.offset arrived j ≤ f.offset arrived k := by
  induction k with
  | zero => rw [Nat.le_zero.mp hjk]
  | succ k ih =>
    obtain rfl | hlt := Nat.eq_or_lt_of_le hjk
    · exact le_rfl
    · have hle := ih (by omega) (by omega)
      have hstep := offset_add_decodable_le arrived (f := f) (k := k)
        (by omega)
      omega

theorem offset_length :
    f.offset arrived f.partitions.length =
      (f.bytes (f.received arrived)).length := by
  rw [offset, start_length, received]

theorem decodable_bytes (arrived : ℕ → Bool) (hk : k < f.partitions.length) :
    ((f.bytes (f.received arrived)).drop (f.offset arrived k)).take
        (f.bytes (f.decodable arrived k)).length =
      f.bytes (f.decodable arrived k) := by
  obtain ⟨lost, -, hall⟩ := received_eq arrived hk
  rw [hall, bytes_append, bytes_append, offset, List.drop_left, List.take_left]

theorem Started.length_pos (h : f.Started arrived k) :
    0 < (f.bytes (f.decodable arrived k)).length := by
  obtain ⟨d, hd⟩ := exists_endsAt f arrived k
  obtain ⟨d, rfl⟩ : ∃ n, d = n + 1 := by
    have hpos := hd.started_iff.mp h
    exact ⟨d - 1, by omega⟩
  have hle := hd.le
  have hlast := start_add_packetCount_le h.lt
  have hbyte := f.byte (f.start k + d) (by omega)
  rw [hd.length_decodable]
  omega

theorem Recorded.fragments {r : ℕ × RTPFragmentationHeader}
    (h : f.Recorded arrived f.partitions.length r) :
    f.Fragments arrived r.1 r.2.fillEmpty := by
  obtain ⟨hsize, hlength, hfull, hfirst, hempty⟩ :=
    RTPFragmentationHeader.fillEmpty_spec r.2
  have hmax := f.length_partitions
  have hvector : r.2.fragmentationVectorSize ≤ f.partitions.length := by
    cases hvs : r.2.fragmentationVectorSize with
    | zero => exact Nat.zero_le _
    | succ m => exact (h.highest m hvs).1
  have hzero : ∀ k < f.partitions.length, ¬f.Started arrived k →
      r.2.fragmentationLength k = 0 :=
    fun k hk hnot => h.empty k (by omega) (.inr hnot)
  have hoffset : ∀ k, f.Started arrived k →
      r.2.fillEmpty.fragmentationOffset k = f.offset arrived k := by
    intro k hstarted
    obtain ⟨-, hoffset, hlen⟩ := h.started k hstarted.lt hstarted
    rw [hfull k (by rw [hlen]; exact hstarted.length_pos.ne'), hoffset]
  have hends : ∀ k < r.2.fragmentationVectorSize,
      r.2.fillEmpty.fragmentationOffset k + r.2.fragmentationLength k ≤
        f.offset arrived (k + 1) := by
    intro k
    induction k with
    | zero =>
      intro hk
      by_cases hstarted : f.Started arrived 0
      · rw [hoffset 0 hstarted, (h.started 0 hstarted.lt hstarted).2.2]
        exact offset_add_decodable_le arrived hstarted.lt
      · rw [hzero 0 (by omega) hstarted,
          hfirst (hzero 0 (by omega) hstarted)]
        exact Nat.zero_le _
    | succ k ih =>
      intro hk
      by_cases hstarted : f.Started arrived (k + 1)
      · rw [hoffset _ hstarted, (h.started _ hstarted.lt hstarted).2.2]
        exact offset_add_decodable_le arrived hstarted.lt
      · have hnone := hzero (k + 1) (by omega) hstarted
        rw [hnone, hempty k hk hnone]
        exact (ih (by omega)).trans
          (offset_mono (Nat.le_succ _) (by omega))
  have hnext : ∀ k, k + 1 < r.2.fragmentationVectorSize →
      r.2.fillEmpty.fragmentationOffset k + r.2.fragmentationLength k ≤
        r.2.fillEmpty.fragmentationOffset (k + 1) := by
    intro k hk
    by_cases hstarted : f.Started arrived (k + 1)
    · rw [hoffset _ hstarted]
      exact hends k (by omega)
    · exact (hempty k hk (hzero _ (by omega) hstarted)).ge
  refine ⟨?_, ?_, ?_, ?_, ?_, ?_⟩
  · intro k hstarted
    obtain ⟨hlt, -, hlen⟩ := h.started k hstarted.lt hstarted
    rw [hsize, hlength, hoffset k hstarted, hlen]
    exact ⟨hlt, rfl, decodable_bytes arrived hstarted.lt⟩
  · intro k hk hnot
    rw [hsize] at hk
    rw [hlength]
    exact hzero k (by omega) hnot
  · intro n hn
    exact (h.highest n (hsize ▸ hn)).2
  · intro i j hij hj
    rw [hsize] at hj
    rw [hlength]
    induction j with
    | zero => exact absurd hij (Nat.not_lt_zero _)
    | succ j ih =>
      have hstep := hnext j hj
      obtain rfl | hlt := Nat.eq_or_lt_of_le (Nat.le_of_lt_succ hij)
      · exact hstep
      · have hle := ih hlt (by omega)
        omega
  · intro k hk
    rw [hsize] at hk
    rw [hlength, ← offset_length]
    exact (hends k hk).trans (offset_mono (by omega) le_rfl)
  · obtain ⟨m, hm⟩ := Nat.exists_eq_add_of_le hvector
    rw [hsize, hlength, h.sum, hm, List.range_add, List.map_append,
      List.sum_append, Nat.add_eq_left]
    refine List.sum_eq_zero_iff_forall_eq_nat.mpr fun x hx => ?_
    rw [List.mem_map] at hx
    obtain ⟨k, hk, rfl⟩ := hx
    rw [List.mem_map] at hk
    obtain ⟨i, hi, rfl⟩ := hk
    rw [List.mem_range] at hi
    refine hzero _ (by omega) fun hstarted => ?_
    have hlt := (h.started _ hstarted.lt hstarted).1
    omega

theorem fragments_nil (h : f.received arrived = [])
    (frameBuffer : Option Pointer) (fragmentation : RTPFragmentationHeader) :
    f.Fragments arrived
      (buildVP8FragmentationHeader frameBuffer [] fragmentation).1
      (buildVP8FragmentationHeader frameBuffer [] fragmentation).2 := by
  refine ⟨?_, fun _ hk => absurd hk (Nat.not_lt_zero _),
    fun _ hn => absurd hn (Nat.succ_ne_zero _).symm,
    fun _ _ _ hj => absurd hj (Nat.not_lt_zero _),
    fun _ hk => absurd hk (Nat.not_lt_zero _), rfl⟩
  intro k hstarted
  have hlast := start_add_packetCount_le hstarted.lt
  have hpos := hstarted.1
  have hmem : f.start k ∈ f.received arrived :=
    List.mem_filter.mpr ⟨List.mem_range.mpr (by omega), hstarted.2⟩
  rw [h] at hmem
  exact absurd hmem List.not_mem_nil

theorem buildVP8FragmentationHeader_eq (hcount : f.count ≤ 2 ^ 16 + 1)
    (h : f.received arrived ≠ []) (block : ℕ)
    (fragmentation : RTPFragmentationHeader) :
    ∃ r, f.Recorded arrived f.partitions.length r ∧
      buildVP8FragmentationHeader (some ⟨block, 0⟩)
        (f.place block 0 (f.received arrived)) fragmentation =
          (r.1, r.2.fillEmpty) := by
  obtain ⟨i, positions, hcons⟩ := List.exists_cons_of_ne_nil h
  have hit : f.iteratorAt arrived block 0 =
      findNextPartitionBeginning (f.place block 0 (f.received arrived)) := by
    rw [received, List.range_eq_range']
    rfl
  have hscan := finish_iteratorAt arrived (k := 0) hcount block
    f.partitions.length (Nat.zero_add _) (0, fragmentation.prepare)
  refine ⟨_, recorded_foldl arrived fragmentation le_rfl, ?_⟩
  rw [hit] at hscan
  rw [hcons, place] at hscan ⊢
  rw [buildVP8FragmentationHeader, hscan]
  exact List.cons_ne_nil _ _

/-- In a frame of at most `2 ^ 16 + 1` packets the header gives the bytes of
every partition up to the first missing packet. -/
theorem fragments_of_received (hcount : f.count ≤ 2 ^ 16 + 1) (block : ℕ)
    (fragmentation : RTPFragmentationHeader) :
    f.Fragments arrived
      (buildVP8FragmentationHeader (some ⟨block, 0⟩)
        (f.place block 0 (f.received arrived)) fragmentation).1
      (buildVP8FragmentationHeader (some ⟨block, 0⟩)
        (f.place block 0 (f.received arrived)) fragmentation).2 := by
  by_cases hnil : f.received arrived = []
  · rw [hnil]
    exact fragments_nil hnil _ fragmentation
  · obtain ⟨r, hrecorded, heq⟩ :=
      buildVP8FragmentationHeader_eq hcount hnil block fragmentation
    rw [heq]
    exact hrecorded.fragments

/-- Two partitions of packets with one byte, across the wrap. -/
def wrappedFrame : Vp8Frame where
  toMediaFrame := plainFrame 65534 5 (by decide)
  partitions := [3, 2]
  sum_partitions := rfl
  length_partitions := by decide
  byte _ _ := Nat.one_pos

/-- The second packet and the fourth one are missing. -/
theorem fragments_wrapped :
    wrappedFrame.Fragments (fun i => i != 1 && i != 3)
      (buildVP8FragmentationHeader (some ⟨1, 0⟩)
        (wrappedFrame.place 1 0
          (wrappedFrame.received fun i => i != 1 && i != 3))
        ⟨0, fun _ => 0, fun _ => 0⟩).1
      (buildVP8FragmentationHeader (some ⟨1, 0⟩)
        (wrappedFrame.place 1 0
          (wrappedFrame.received fun i => i != 1 && i != 3))
        ⟨0, fun _ => 0, fun _ => 0⟩).2 :=
  fragments_of_received (show wrappedFrame.count ≤ 2 ^ 16 + 1 by decide) 1
    ⟨0, fun _ => 0, fun _ => 0⟩

def longFrame : Vp8Frame where
  toMediaFrame := plainFrame 0 65538 (by decide)
  partitions := [65538]
  sum_partitions := rfl
  length_partitions := by decide
  byte _ _ := Nat.one_pos

theorem filter_range_ends (n : ℕ) :
    (List.range (n + 2)).filter (fun i => i == 0 || i == n + 1) =
      [0, n + 1] := by
  have hmiddle : ((List.range n).map Nat.succ).filter
      (fun i => i == 0 || i == n + 1) = [] := by
    rw [List.filter_eq_nil_iff]
    intro i hi
    obtain ⟨j, hj, rfl⟩ := List.mem_map.mp hi
    rw [List.mem_range] at hj
    simp
    omega
  rw [List.range_succ, List.range_succ_eq_map, List.filter_append,
    List.filter_cons_of_pos (by simp), hmiddle]
  simp

/-- Only the first packet and the last one arrived, which has the next sequence
number. -/
theorem not_forall_fragments :
    ¬∀ (f : Vp8Frame) (arrived : ℕ → Bool) (block : ℕ)
      (fragmentation : RTPFragmentationHeader),
      f.Fragments arrived
        (buildVP8FragmentationHeader (some ⟨block, 0⟩)
          (f.place block 0 (f.received arrived)) fragmentation).1
        (buildVP8FragmentationHeader (some ⟨block, 0⟩)
          (f.place block 0 (f.received arrived)) fragmentation).2 := by
  intro h
  have hreceived : longFrame.received (fun i => i == 0 || i == 65537) =
      [0, 65537] := filter_range_ends 65536
  have hdecodable : longFrame.decodable (fun i => i == 0 || i == 65537) 0 =
      [0] := rfl
  have hstarted := ((h longFrame (fun i => i == 0 || i == 65537) 1
    ⟨0, fun _ => 0, fun _ => 0⟩).started 0 ⟨by decide, rfl⟩).2.2
  rw [hreceived, hdecodable] at hstarted
  exact absurd hstarted (by decide)

end Vp8Frame

end WebrtcWinXp.VideoCoding
