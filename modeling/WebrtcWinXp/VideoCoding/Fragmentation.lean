import WebrtcWinXp.Support.Loop
import WebrtcWinXp.Support.Search
import WebrtcWinXp.VideoCoding.Assembly
import WebrtcWinXp.VideoCoding.Completeness

/-!
# Fragmentation headers

`BuildVP8FragmentationHeader` finds the partitions of a VP8 frame in the frame
buffer.  A fragment is what can be decoded of a partition: its packets up to the
first one that is missing.  The ends are found by the gaps in the sequence
numbers, which have 16 bits.
-/

namespace WebrtcWinXp.VideoCoding

open Support

def kMaxVP8Partitions : ℕ := 9

/-- The fields of the VP8 header that the session reads. -/
structure RTPVideoHeaderVP8 where
  beginningOfPartition : Bool
  partitionId : ℕ
deriving DecidableEq

/-- A packet in the list, with its codec-specific header. -/
structure Vp8Packet extends SessionPacket where
  vp8 : RTPVideoHeaderVP8

/-- The offsets and the lengths of the fragments. -/
structure RTPFragmentationHeader where
  fragmentationVectorSize : ℕ
  fragmentationOffset : ℕ → ℕ
  fragmentationLength : ℕ → ℕ

namespace RTPFragmentationHeader

variable (h : RTPFragmentationHeader)

def verifyAndAllocateFragmentationHeader (size : ℕ) : RTPFragmentationHeader :=
  if h.fragmentationVectorSize < size then
    { fragmentationVectorSize := size
      fragmentationOffset := fun i =>
        if i < h.fragmentationVectorSize then h.fragmentationOffset i else 0
      fragmentationLength := fun i =>
        if i < h.fragmentationVectorSize then h.fragmentationLength i else 0 }
  else h

def prepare : RTPFragmentationHeader :=
  let h := h.verifyAndAllocateFragmentationHeader kMaxVP8Partitions
  { h with
    fragmentationVectorSize := 0
    fragmentationLength := fun i =>
      if i < kMaxVP8Partitions then 0 else h.fragmentationLength i }

def setFragment (partitionId offset length : ℕ) : RTPFragmentationHeader where
  fragmentationVectorSize :=
    if partitionId + 1 > h.fragmentationVectorSize then partitionId + 1
    else h.fragmentationVectorSize
  fragmentationOffset :=
    Function.update h.fragmentationOffset partitionId offset
  fragmentationLength :=
    Function.update h.fragmentationLength partitionId length

/-- An empty fragment starts where the one before it ends. -/
def fillOne (i : ℕ) : RTPFragmentationHeader :=
  if h.fragmentationLength i = 0 then
    { h with
      fragmentationOffset := Function.update h.fragmentationOffset i
        (h.fragmentationOffset (i - 1) + h.fragmentationLength (i - 1)) }
  else h

def fillFirst : RTPFragmentationHeader :=
  if h.fragmentationLength 0 = 0 then
    { h with
      fragmentationOffset := Function.update h.fragmentationOffset 0 0 }
  else h

def fillEmpty : RTPFragmentationHeader :=
  (List.range' 1 (h.fragmentationVectorSize - 1)).foldl fillOne h.fillFirst

end RTPFragmentationHeader

/-- The byte count from a pointer to another one behind it. -/
def pointerDifference (ptr base : Option Pointer) : ℕ :=
  match ptr, base with
  | some p, some q => p.offset - q.offset
  | _, _ => 0

def findNextPartitionBeginning (it : List Vp8Packet) : List Vp8Packet :=
  it.dropWhile fun p => !p.vp8.beginningOfPartition

/-- The loop of `FindPartitionEnd`: the last packet in sequence, and the packets
behind it. -/
def findPartitionEndLoop (partitionId : ℕ) :
    Vp8Packet → List Vp8Packet → Vp8Packet × List Vp8Packet
  | prev, [] => (prev, [])
  | prev, p :: packets =>
    let beginning := p.vp8.beginningOfPartition
    let packetLossFound := !beginning &&
      !VCMSessionInfo.inSequence p.toSessionPacket prev.toSessionPacket
    if packetLossFound ||
        beginning && p.vp8.partitionId != partitionId then
      (prev, p :: packets)
    else findPartitionEndLoop partitionId p packets

/-- `FindPartitionEnd`.  The first round, at the packet itself, never ends the
loop. -/
def findPartitionEnd (it : Vp8Packet) (packets : List Vp8Packet) :
    Vp8Packet × List Vp8Packet :=
  findPartitionEndLoop it.vp8.partitionId it packets

/-- The variables of the loop over the partitions. -/
structure PartitionScan where
  newLength : ℕ
  fragmentation : RTPFragmentationHeader
  it : List Vp8Packet

def PartitionScan.next (frameBuffer : Option Pointer) (s : PartitionScan) :
    Option PartitionScan :=
  match s.it with
  | [] => none
  | p :: packets =>
    let partitionEnd := findPartitionEnd p packets
    let length := pointerDifference
      (advance partitionEnd.1.dataPtr partitionEnd.1.sizeBytes) p.dataPtr
    some
      { newLength := s.newLength + length
        fragmentation := s.fragmentation.setFragment p.vp8.partitionId
          (pointerDifference p.dataPtr frameBuffer) length
        it := findNextPartitionBeginning partitionEnd.2 }

def PartitionScan.left (s : PartitionScan) : ℕ := s.it.length

/-- `BuildVP8FragmentationHeader`.  Only assertions use the length of the frame
buffer. -/
def buildVP8FragmentationHeader (frameBuffer : Option Pointer)
    (packets : List Vp8Packet) (fragmentation : RTPFragmentationHeader) :
    ℕ × RTPFragmentationHeader :=
  match packets with
  | [] => (0, fragmentation.prepare)
  | packets =>
    let s := finish (PartitionScan.next frameBuffer) PartitionScan.left
      { newLength := 0
        fragmentation := fragmentation.prepare
        it := findNextPartitionBeginning packets }
    (s.newLength, s.fragmentation.fillEmpty)

theorem findPartitionEndLoop_length (partitionId : ℕ) (prev : Vp8Packet)
    (packets : List Vp8Packet) :
    (findPartitionEndLoop partitionId prev packets).2.length ≤
      packets.length := by
  induction packets generalizing prev with
  | nil => exact le_rfl
  | cons p packets ih =>
    rw [findPartitionEndLoop]
    split
    · exact le_rfl
    · exact (ih p).trans (Nat.le_succ _)

theorem PartitionScan.lowers (frameBuffer : Option Pointer) :
    Lowers (PartitionScan.next frameBuffer) PartitionScan.left := by
  rintro ⟨newLength, fragmentation, _ | ⟨p, packets⟩⟩ t h
  · cases h
  · rw [PartitionScan.next, Option.some_inj] at h
    subst h
    rw [left, left, List.length_cons, Nat.lt_succ_iff]
    exact (List.length_dropWhile_le _ _).trans
      (findPartitionEndLoop_length _ _ _)

/-! ## Empty fragments -/

namespace RTPFragmentationHeader

variable {h : RTPFragmentationHeader}

theorem fillOne_eq (i : ℕ) :
    h.fillOne i =
      { h with
        fragmentationOffset :=
          if h.fragmentationLength i = 0 then
            Function.update h.fragmentationOffset i
              (h.fragmentationOffset (i - 1) + h.fragmentationLength (i - 1))
          else h.fragmentationOffset } := by
  rw [fillOne]
  split <;> rfl

/-- The offsets up to some fragment are filled in. -/
structure Filled (h h' : RTPFragmentationHeader) (n : ℕ) : Prop where
  vectorSize : h'.fragmentationVectorSize = h.fragmentationVectorSize
  length : h'.fragmentationLength = h.fragmentationLength
  first : h'.fragmentationOffset 0 = h.fragmentationOffset 0
  full : ∀ i, h.fragmentationLength i ≠ 0 →
    h'.fragmentationOffset i = h.fragmentationOffset i
  empty : ∀ i < n, h.fragmentationLength (i + 1) = 0 →
    h'.fragmentationOffset (i + 1) =
      h'.fragmentationOffset i + h.fragmentationLength i

theorem filled_foldl (h : RTPFragmentationHeader) (n : ℕ) :
    Filled h ((List.range' 1 n).foldl fillOne h) n := by
  induction n with
  | zero => exact ⟨rfl, rfl, rfl, fun _ _ => rfl, fun _ hi => by omega⟩
  | succ n ih =>
    obtain ⟨hsize, hlength, hfirst, hfull, hempty⟩ := ih
    rw [List.range'_1_concat, List.foldl_append, List.foldl_cons,
      List.foldl_nil, fillOne_eq, Nat.add_comm 1 n, Nat.add_sub_cancel]
    by_cases hn :
        ((List.range' 1 n).foldl fillOne h).fragmentationLength (n + 1) = 0
    · rw [if_pos hn]
      refine ⟨hsize, hlength, ?_, ?_, ?_⟩
      · dsimp only
        rw [Function.update_of_ne (Nat.succ_ne_zero n).symm]
        exact hfirst
      · intro i hi
        rw [hlength] at hn
        refine (Function.update_of_ne ?_ _ _).trans (hfull i hi)
        rintro rfl
        exact hi hn
      · intro i hi hzero
        obtain rfl | hlt := Nat.eq_or_lt_of_le (Nat.le_of_lt_succ hi)
        · dsimp only
          rw [Function.update_self, Function.update_of_ne (by omega), hlength]
        · dsimp only
          rw [Function.update_of_ne (by omega),
            Function.update_of_ne (by omega)]
          exact hempty i hlt hzero
    · rw [if_neg hn]
      refine ⟨hsize, hlength, hfirst, hfull, ?_⟩
      intro i hi hzero
      obtain rfl | hlt := Nat.eq_or_lt_of_le (Nat.le_of_lt_succ hi)
      · rw [hlength] at hn
        exact absurd hzero hn
      · exact hempty i hlt hzero

theorem fillEmpty_spec (h : RTPFragmentationHeader) :
    h.fillEmpty.fragmentationVectorSize = h.fragmentationVectorSize ∧
      h.fillEmpty.fragmentationLength = h.fragmentationLength ∧
      (∀ i, h.fragmentationLength i ≠ 0 →
        h.fillEmpty.fragmentationOffset i = h.fragmentationOffset i) ∧
      (h.fragmentationLength 0 = 0 → h.fillEmpty.fragmentationOffset 0 = 0) ∧
      ∀ i, i + 1 < h.fragmentationVectorSize →
        h.fragmentationLength (i + 1) = 0 →
        h.fillEmpty.fragmentationOffset (i + 1) =
          h.fillEmpty.fragmentationOffset i + h.fragmentationLength i := by
  obtain ⟨hsize, hlength, hfirst, hfull, hempty⟩ :=
    filled_foldl h.fillFirst (h.fragmentationVectorSize - 1)
  have hfirstSize : h.fillFirst.fragmentationVectorSize =
      h.fragmentationVectorSize := by
    rw [fillFirst]
    split <;> rfl
  have hfirstLength : h.fillFirst.fragmentationLength =
      h.fragmentationLength := by
    rw [fillFirst]
    split <;> rfl
  rw [hfirstLength] at hlength hfull hempty
  refine ⟨hsize.trans hfirstSize, hlength, ?_, ?_, ?_⟩
  · intro i hi
    refine (hfull i hi).trans ?_
    rw [fillFirst]
    split
    · rename_i hzero
      refine Function.update_of_ne ?_ _ _
      rintro rfl
      exact hi hzero
    · rfl
  · intro hzero
    refine hfirst.trans ?_
    rw [fillFirst, if_pos hzero]
    exact Function.update_self 0 0 h.fragmentationOffset
  · exact fun i hi => hempty i (by omega)

end RTPFragmentationHeader

/-- The header of the packet at a position, for partitions of the given packet
counts. -/
def headerFrom : ℕ → List ℕ → ℕ → RTPVideoHeaderVP8
  | partitionId, [], _ => ⟨false, partitionId⟩
  | partitionId, n :: partitions, i =>
    if i < n then ⟨decide (i = 0), partitionId⟩
    else headerFrom (partitionId + 1) partitions (i - n)

/-- A VP8 frame whose packets belong to one partition each.  Partitions are
given by their packet counts. -/
structure Vp8Frame extends MediaFrame where
  partitions : List ℕ
  sum_partitions : partitions.sum = count
  length_partitions : partitions.length ≤ kMaxVP8Partitions
  byte : ∀ i < count, 0 < (packet i).sizeBytes

namespace Vp8Frame

variable (f : Vp8Frame) (arrived : ℕ → Bool)

def header (i : ℕ) : RTPVideoHeaderVP8 := headerFrom 0 f.partitions i

def packetCount (k : ℕ) : ℕ := f.partitions.getD k 0

/-- The position of the first packet of a partition. -/
def start (k : ℕ) : ℕ := (f.partitions.take k).sum

def received : List ℕ := (List.range f.count).filter arrived

def Started (k : ℕ) : Prop :=
  0 < f.packetCount k ∧ arrived (f.start k) = true

/-- The packets of a partition up to the first missing one. -/
def decodable (k : ℕ) : List ℕ :=
  (List.range' (f.start k) (f.packetCount k)).takeWhile arrived

def bytes (positions : List ℕ) : List UInt8 :=
  positions.flatMap fun i => (f.packet i).bytes

/-- The place of a partition in the frame buffer. -/
def offset (k : ℕ) : ℕ :=
  (f.bytes ((List.range (f.start k)).filter arrived)).length

def placed (block offset i : ℕ) : Vp8Packet where
  packet := f.packet i
  dataPtr := some ⟨block, offset⟩
  sizeBytes := (f.packet i).sizeBytes
  vp8 := f.header i

/-- Packets one behind the other in the frame buffer. -/
def place (block : ℕ) : ℕ → List ℕ → List Vp8Packet
  | _, [] => []
  | offset, i :: positions =>
    f.placed block offset i ::
      place block (offset + (f.packet i).sizeBytes) positions

/-- What the header says of the packets that arrived. -/
structure Fragments (newLength : ℕ) (h : RTPFragmentationHeader) : Prop where
  started : ∀ k, f.Started arrived k → k < h.fragmentationVectorSize ∧
    h.fragmentationOffset k = f.offset arrived k ∧
    ((f.bytes (f.received arrived)).drop (h.fragmentationOffset k)).take
      (h.fragmentationLength k) = f.bytes (f.decodable arrived k)
  empty : ∀ k < h.fragmentationVectorSize, ¬f.Started arrived k →
    h.fragmentationLength k = 0
  highest : ∀ n, h.fragmentationVectorSize = n + 1 → f.Started arrived n
  ordered : ∀ i j, i < j → j < h.fragmentationVectorSize →
    h.fragmentationOffset i + h.fragmentationLength i ≤ h.fragmentationOffset j
  inside : ∀ k < h.fragmentationVectorSize,
    h.fragmentationOffset k + h.fragmentationLength k ≤
      (f.bytes (f.received arrived)).length
  sum : newLength =
    ((List.range h.fragmentationVectorSize).map h.fragmentationLength).sum

variable {f arrived} {block : ℕ} {k : ℕ}

theorem start_succ (hk : k < f.partitions.length) :
    f.start (k + 1) = f.start k + f.packetCount k := by
  rw [start, start, packetCount, List.take_add_one, List.sum_append,
    List.getD_eq_getElem?_getD, List.getElem?_eq_getElem hk]
  simp

theorem start_mono {j : ℕ} (hjk : j ≤ k) : f.start j ≤ f.start k := by
  obtain ⟨n, rfl⟩ := Nat.exists_eq_add_of_le hjk
  rw [start, start, List.take_add, List.sum_append]
  exact Nat.le_add_right _ _

theorem start_length : f.start f.partitions.length = f.count := by
  rw [start, List.take_length, f.sum_partitions]

theorem packetCount_eq_zero (hk : f.partitions.length ≤ k) :
    f.packetCount k = 0 := by
  rw [packetCount, List.getD_eq_getElem?_getD, List.getElem?_eq_none hk]
  rfl

theorem Started.lt (h : f.Started arrived k) : k < f.partitions.length := by
  by_contra hk
  have hpos := h.1
  rw [packetCount_eq_zero (not_lt.mp hk)] at hpos
  exact absurd hpos (lt_irrefl 0)

theorem headerFrom_start (partitions : List ℕ) (partitionId k : ℕ) {j : ℕ}
    (hj : j < partitions.getD k 0) :
    headerFrom partitionId partitions ((partitions.take k).sum + j) =
      ⟨decide (j = 0), partitionId + k⟩ := by
  induction partitions generalizing partitionId k with
  | nil => exact absurd hj (Nat.not_lt_zero _)
  | cons n partitions ih =>
    cases k with
    | zero =>
      rw [List.getD_cons_zero] at hj
      rw [List.take_zero, List.sum_nil, Nat.zero_add, headerFrom,
        if_pos hj]
      rfl
    | succ k =>
      rw [List.getD_cons_succ] at hj
      rw [List.take_succ_cons, List.sum_cons, headerFrom,
        if_neg (by omega), Nat.add_assoc, Nat.add_sub_cancel_left,
        ih _ _ hj, Nat.add_right_comm, Nat.add_assoc]

theorem header_start {j : ℕ} (hj : j < f.packetCount k) :
    f.header (f.start k + j) = ⟨decide (j = 0), k⟩ := by
  rw [header, start, headerFrom_start _ _ _ hj, Nat.zero_add]

theorem exists_partition {i : ℕ} (hi : i < f.count) :
    ∃ k < f.partitions.length, ∃ j < f.packetCount k, i = f.start k + j := by
  have hexists : ∃ n, i < f.start n := ⟨_, start_length.symm ▸ hi⟩
  have hfind := Nat.find_spec hexists
  obtain ⟨k, hk⟩ : ∃ k, Nat.find hexists = k + 1 := by
    refine Nat.exists_eq_succ_of_ne_zero fun hzero => ?_
    rw [hzero] at hfind
    exact absurd hfind (Nat.not_lt_zero _)
  have hmin := Nat.find_min hexists (m := k) (by omega)
  have hle : Nat.find hexists ≤ f.partitions.length :=
    Nat.find_min' hexists (start_length.symm ▸ hi)
  rw [hk, start_succ (by omega)] at hfind
  exact ⟨k, by omega, i - f.start k, by omega, by omega⟩

@[simp] theorem bytes_append (xs ys : List ℕ) :
    f.bytes (xs ++ ys) = f.bytes xs ++ f.bytes ys := List.flatMap_append

@[simp] theorem length_bytes_cons (i : ℕ) (xs : List ℕ) :
    (f.bytes (i :: xs)).length =
      (f.packet i).sizeBytes + (f.bytes xs).length := by
  rw [bytes, List.flatMap_cons, List.length_append, VCMPacket.bytes,
    Buffer.length_read, bytes]

theorem place_append (block offset : ℕ) (xs ys : List ℕ) :
    f.place block offset (xs ++ ys) = f.place block offset xs ++
      f.place block (offset + (f.bytes xs).length) ys := by
  induction xs generalizing offset with
  | nil => rfl
  | cons i xs ih =>
    rw [List.cons_append, place, ih, place, List.cons_append,
      length_bytes_cons, Nat.add_assoc]

theorem mem_place {p : Vp8Packet} {offset : ℕ} {positions : List ℕ}
    (h : p ∈ f.place block offset positions) :
    ∃ i ∈ positions, p.vp8 = f.header i := by
  induction positions generalizing offset with
  | nil => exact absurd h List.not_mem_nil
  | cons i positions ih =>
    obtain rfl | h := List.mem_cons.mp h
    · exact ⟨i, List.mem_cons_self, rfl⟩
    · obtain ⟨j, hj, hp⟩ := ih h
      exact ⟨j, List.mem_cons_of_mem _ hj, hp⟩

variable (f arrived) in
/-- The packets that arrived from a position on. -/
def receivedFrom (i : ℕ) : List ℕ :=
  (List.range' i (f.count - i)).filter arrived

variable (arrived) in
theorem receivedFrom_eq {i j : ℕ} (hij : i ≤ j) (hj : j ≤ f.count) :
    f.receivedFrom arrived i =
      (List.range' i (j - i)).filter arrived ++ f.receivedFrom arrived j := by
  have hsplit := List.range'_append_1 (s := i) (m := j - i) (n := f.count - j)
  have hlength : j - i + (f.count - j) = f.count - i := by omega
  rw [Nat.add_sub_of_le hij, hlength] at hsplit
  rw [receivedFrom, receivedFrom, ← List.filter_append, hsplit]

/-! ## The end of a partition -/

variable {d : ℕ}

variable (f arrived) in
/-- What can be decoded of a partition ends behind its first `d` packets. -/
structure EndsAt (k d : ℕ) : Prop where
  le : d ≤ f.packetCount k
  decodable : f.decodable arrived k = List.range' (f.start k) d
  received : ∀ j < d, arrived (f.start k + j) = true
  missing : d < f.packetCount k → arrived (f.start k + d) = false

theorem exists_endsAt (f : Vp8Frame) (arrived : ℕ → Bool) (k : ℕ) :
    ∃ d, f.EndsAt arrived k d := by
  obtain ⟨d, hd, heq, htrue, hfalse⟩ :=
    takeWhile_range' arrived (f.start k) (f.packetCount k)
  exact ⟨d, hd, heq, htrue, hfalse⟩

theorem EndsAt.started_iff (h : f.EndsAt arrived k d) :
    f.Started arrived k ↔ 0 < d := by
  constructor
  · rintro ⟨hpos, hfirst⟩
    by_contra hd
    obtain rfl : d = 0 := by omega
    have hmissing := h.missing hpos
    rw [Nat.add_zero, hfirst] at hmissing
    exact Bool.noConfusion hmissing
  · intro hd
    exact ⟨hd.trans_le h.le, h.received 0 hd⟩

theorem start_add_packetCount_le (hk : k < f.partitions.length) :
    f.start k + f.packetCount k ≤ f.count := by
  rw [← start_succ hk, ← start_length]
  exact start_mono hk

/-- Behind the packets that can be decoded the next packet that arrived is of
another partition or behind a gap. -/
theorem findPartitionEndLoop_ends (hcount : f.count ≤ 2 ^ 16 + 1)
    (hk : k < f.partitions.length) (h : f.EndsAt arrived k (d + 1))
    (offset offset' : ℕ) :
    findPartitionEndLoop k (f.placed block offset (f.start k + d))
        (f.place block offset' (f.receivedFrom arrived (f.start k + (d + 1)))) =
      (f.placed block offset (f.start k + d),
        f.place block offset'
          (f.receivedFrom arrived (f.start k + (d + 1)))) := by
  have hmem : ∀ i ∈ f.receivedFrom arrived (f.start k + (d + 1)),
      f.start k + (d + 1) ≤ i ∧ i < f.count ∧ arrived i = true := by
    intro i hi
    rw [receivedFrom, List.mem_filter, List.mem_range'_1] at hi
    exact ⟨hi.1.1, by omega, hi.2⟩
  cases hlist : f.receivedFrom arrived (f.start k + (d + 1)) with
  | nil => rfl
  | cons i positions =>
    obtain ⟨hle, hi, harrived⟩ := hmem i (hlist ▸ List.mem_cons_self)
    rw [place, findPartitionEndLoop, if_pos]
    obtain ⟨k', hk', j, hj, rfl⟩ := exists_partition hi
    have hlast := start_add_packetCount_le hk
    have hled := h.le
    change (!(f.header _).beginningOfPartition && !decide
        ((f.packet _).seqNum + 1 = (f.packet _).seqNum) ||
      (f.header _).beginningOfPartition &&
        (f.header _).partitionId != k) = true
    rw [header_start hj, f.seqNum _ (by omega), f.seqNum _ hi]
    by_cases hzero : j = 0
    · have hne : k' ≠ k := by
        rintro rfl
        omega
      simpa [hzero] using hne
    · have hgap : f.start k + (d + 1) < f.start k' + j := by
        refine lt_of_le_of_ne hle fun heq => ?_
        rw [← heq] at harrived
        have hfull : d + 1 = f.packetCount k := by
          refine le_antisymm h.le (not_lt.mp fun hlt => ?_)
          rw [h.missing hlt] at harrived
          exact Bool.noConfusion harrived
        rw [hfull, ← start_succ hk] at heq
        by_cases hkk : k + 1 ≤ k'
        · have hstart := start_mono (f := f) hkk
          omega
        · have hstart := start_mono (f := f) (show k' + 1 ≤ k + 1 by omega)
          rw [start_succ hk'] at hstart
          omega
      have hne : f.first + UInt16.ofNat (f.start k + d) + 1 ≠
          f.first + UInt16.ofNat (f.start k' + j) := by
        rw [add_assoc, Ne, add_left_cancel_iff,
          ← UInt16.toNat_inj, UInt16.toNat_add, UInt16.toNat_ofNat',
          UInt16.toNat_ofNat', UInt16.toNat_one]
        omega
      rw [decide_eq_false hne, decide_eq_false hzero]
      rfl

theorem findPartitionEndLoop_run {a n : ℕ} (hn : a + n < f.count)
    (hinner : ∀ j < n, (f.header (a + 1 + j)).beginningOfPartition = false)
    (block offset : ℕ) (behind : List Vp8Packet) :
    findPartitionEndLoop k (f.placed block offset a)
        (f.place block (offset + (f.packet a).sizeBytes)
          (List.range' (a + 1) n) ++ behind) =
      findPartitionEndLoop k
        (f.placed block
          (offset + (f.bytes (List.range' a n)).length) (a + n)) behind := by
  induction n generalizing a offset with
  | zero => rfl
  | succ n ih =>
    have hfirst : (f.header (a + 1)).beginningOfPartition = false :=
      hinner 0 (by omega)
    have hsequence : VCMSessionInfo.inSequence
        (f.placed block (offset + (f.packet a).sizeBytes)
          (a + 1)).toSessionPacket
        (f.placed block offset a).toSessionPacket = true := by
      change decide ((f.packet a).seqNum + 1 = (f.packet (a + 1)).seqNum) =
        true
      rw [f.seqNum a (by omega), f.seqNum (a + 1) (by omega), add_assoc,
        UInt16.ofNat_add]
      exact decide_eq_true rfl
    have hrest := ih (a := a + 1) (by omega)
      (fun j hj => by
        have hj' := hinner (j + 1) (by omega)
        rwa [← Nat.add_assoc, Nat.add_right_comm] at hj')
      (offset + (f.packet a).sizeBytes)
    rw [List.range'_succ, place, List.cons_append, findPartitionEndLoop,
      hsequence, if_neg]
    · rw [hrest, List.range'_succ, length_bytes_cons, Nat.add_assoc,
        Nat.add_assoc, Nat.add_comm 1 n]
    · change ¬(!(f.header (a + 1)).beginningOfPartition && !true ||
        (f.header (a + 1)).beginningOfPartition && _) = true
      rw [hfirst]
      exact Bool.noConfusion

theorem findNextPartitionBeginning_place {a b : ℕ} (offset : ℕ)
    (hab : a ≤ b) (hb : b ≤ f.count)
    (hinner : ∀ i, a ≤ i → i < b → arrived i = true →
      (f.header i).beginningOfPartition = false) :
    findNextPartitionBeginning
        (f.place block offset (f.receivedFrom arrived a)) =
      findNextPartitionBeginning (f.place block
        (offset + (f.bytes ((List.range' a (b - a)).filter arrived)).length)
        (f.receivedFrom arrived b)) := by
  rw [receivedFrom_eq arrived hab hb, place_append, findNextPartitionBeginning,
    List.dropWhile_append_of_pos]
  · rfl
  · intro p hp
    obtain ⟨i, hi, hheader⟩ := mem_place hp
    rw [List.mem_filter, List.mem_range'_1] at hi
    rw [hheader, hinner i hi.1.1 (by omega) hi.2]
    rfl

end Vp8Frame

end WebrtcWinXp.VideoCoding
