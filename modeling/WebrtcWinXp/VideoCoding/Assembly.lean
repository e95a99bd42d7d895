import WebrtcWinXp.Support.Sorted
import WebrtcWinXp.VideoCoding.Pieces
import Mathlib.Data.List.Chain

/-!
# Assembly of a frame

The bytes of the inserted packets stand in the frame buffer one piece after the
other, as long as the payload of a STAP-A is well formed, its start codes fit in
the room that was reserved, and no piece has to be moved from a pointer that was
never set.
-/

namespace WebrtcWinXp.VideoCoding

open Support Fec

/-- The frame buffer holds the accepted packets in the order of their sequence
numbers, and everything was accessed inside. -/
structure Assembled (m : FrameMemory) (length : ℕ)
    (packets : List SessionPacket) (accepted : List VCMPacket) : Prop where
  inside : m.Inside
  perm : (packets.map SessionPacket.packet).Perm accepted
  inOrder : packets.IsChain fun p q =>
    isNewerSequenceNumber p.seqNum q.seqNum = false
  bytes : slice m.bytes 0 length = packets.flatMap fun p => p.packet.piece
  placed : Placed m.block 0 packets
  sizeBytes : ∀ p ∈ packets, p.sizeBytes = p.packet.piece.length
  stapA : ∀ p ∈ packets, p.packet.stapA = true →
    ∃ units, Aggregates p.packet.bytes units ∧
      p.packet.piece = units.flatMap fun unit => p.packet.startCode ++ unit

/-- The frame buffer has the length that the session needs. -/
structure Sound (m : FrameMemory) (length : ℕ)
    (packets : List SessionPacket) (accepted : List VCMPacket) : Prop
    extends Assembled m length packets accepted where
  length_eq : length = total packets
  fits : length ≤ m.size
  unallocated : m.block = 0 → m.size = 0
  size_le : m.size ≤ kMaxJBFrameSizeBytes

theorem isNewerSequenceNumber_asymm {a b : UInt16}
    (h : isNewerSequenceNumber a b = true) :
    isNewerSequenceNumber b a = false := by
  change lessThan b a = true at h
  rw [← Bool.not_eq_true]
  change ¬lessThan a b = true
  have hlt := a.toNat_lt
  have hlt' := b.toNat_lt
  rw [lessThan_iff, UInt16.toNat_sub] at h ⊢
  omega

namespace VCMSessionInfo

variable {s : VCMSessionInfo} {seqNum : UInt16} {p : SessionPacket}

theorem goesOver_eq_true (h : goesOver seqNum p = true) :
    isNewerSequenceNumber seqNum p.seqNum = false := by
  rw [goesOver, bne_iff_ne, latestSequenceNumber] at h
  rw [← Bool.not_eq_true]
  intro hnewer
  rw [if_pos hnewer] at h
  exact h rfl

theorem goesOver_eq_false (h : ¬goesOver seqNum p = true) :
    isNewerSequenceNumber p.seqNum seqNum = false := by
  rw [goesOver, bne_iff_ne, not_not, latestSequenceNumber] at h
  by_cases hnewer : isNewerSequenceNumber seqNum p.seqNum = true
  · exact isNewerSequenceNumber_asymm hnewer
  · rw [if_neg hnewer] at h
    rw [h, isNewerSequenceNumber]
    simp

variable (s seqNum) in
theorem front_append_behind :
    s.front seqNum ++ s.behind seqNum = s.packets :=
  List.rdropWhile_append_rtakeWhile

theorem mem_front_getLast? (h : p ∈ (s.front seqNum).getLast?) :
    isNewerSequenceNumber p.seqNum seqNum = false := by
  have hne : s.front seqNum ≠ [] := by
    intro hnil
    rw [hnil] at h
    exact Option.not_mem_none p h
  rw [List.getLast?_eq_some_getLast hne, Option.mem_some_iff] at h
  rw [← h]
  exact goesOver_eq_false (List.rdropWhile_last_not _ _ hne)

theorem mem_behind_head? (h : p ∈ (s.behind seqNum).head?) :
    isNewerSequenceNumber seqNum p.seqNum = false :=
  goesOver_eq_true (List.mem_rtakeWhile_imp (List.mem_of_mem_head? h))

end VCMSessionInfo

theorem isChain_advanced {packets : List SessionPacket} {n : ℕ} :
    ((advanced packets n).IsChain fun p q =>
        isNewerSequenceNumber p.seqNum q.seqNum = false) ↔
      packets.IsChain fun p q =>
        isNewerSequenceNumber p.seqNum q.seqNum = false :=
  List.isChain_map _

theorem isChain_placed (m : FrameMemory) {s : VCMSessionInfo}
    (packet : VCMPacket)
    (h : s.packets.IsChain fun p q =>
      isNewerSequenceNumber p.seqNum q.seqNum = false) :
    (m.placed (s.front packet.seqNum) packet
      (s.behind packet.seqNum)).IsChain fun p q =>
        isNewerSequenceNumber p.seqNum q.seqNum = false := by
  rw [← VCMSessionInfo.front_append_behind s packet.seqNum,
    List.isChain_append] at h
  rw [FrameMemory.placed, List.isChain_append, List.isChain_cons,
    isChain_advanced]
  refine ⟨h.1, ⟨?_, h.2.1⟩, ?_⟩
  · intro q hq
    rw [advanced, List.head?_map, Option.mem_map] at hq
    obtain ⟨p, hp, rfl⟩ := hq
    have hnext := VCMSessionInfo.mem_behind_head? hp
    exact hnext
  · intro p hp q hq
    rw [List.head?_cons, Option.mem_some_iff] at hq
    rw [← hq]
    exact VCMSessionInfo.mem_front_getLast? hp

/-! ## A packet is inserted -/

theorem length_flatMap_piece {packets : List SessionPacket}
    (h : ∀ p ∈ packets, p.sizeBytes = p.packet.piece.length) :
    (packets.flatMap fun p => p.packet.piece).length = total packets := by
  rw [List.length_flatMap, total]
  congr 1
  exact List.map_congr_left fun p hp => (h p hp).symm

theorem map_advanced (packets : List SessionPacket) (n : ℕ) :
    (advanced packets n).map SessionPacket.packet =
      packets.map SessionPacket.packet := by
  rw [advanced, List.map_map]
  rfl

theorem flatMap_piece_advanced (packets : List SessionPacket) (n : ℕ) :
    ((advanced packets n).flatMap fun p => p.packet.piece) =
      packets.flatMap fun p => p.packet.piece := by
  rw [advanced, List.flatMap_map]

theorem mem_placed {m : FrameMemory} {front behind : List SessionPacket}
    {packet : VCMPacket} {p : SessionPacket}
    (h : p ∈ m.placed front packet behind) :
    p.packet = packet ∧ p.sizeBytes = packet.piece.length ∨
      ∃ q ∈ front ++ behind, p.packet = q.packet ∧
        p.sizeBytes = q.sizeBytes := by
  rw [FrameMemory.placed, List.mem_append, List.mem_cons, advanced,
    List.mem_map] at h
  obtain hp | rfl | ⟨q, hq, rfl⟩ := h
  · exact .inr ⟨p, List.mem_append_left _ hp, rfl, rfl⟩
  · exact .inl ⟨rfl, rfl⟩
  · exact .inr ⟨q, List.mem_append_right _ hq, rfl, rfl⟩

namespace Sound

variable {m : FrameMemory} {length : ℕ} {packets : List SessionPacket}
  {accepted : List VCMPacket}

/-- There is a pointer to the end of the packets before the place, unless
nothing was allocated and nothing is to be. -/
theorem pointer {front behind : List SessionPacket} {packet : VCMPacket}
    (h : Sound m length packets accepted)
    (hfits : m.Fits front packet behind) :
    advance m.base (total front) = some ⟨m.block, total front⟩ ∨
      advance m.base (total front) = none ∧ packet.piece.length = 0 := by
  have hfit := hfits.room
  rw [FrameMemory.base]
  by_cases hblock : m.block = 0
  · have hsize := h.unallocated hblock
    rw [if_pos hblock]
    exact .inr ⟨rfl, by omega⟩
  · rw [if_neg hblock]
    exact .inl (by rw [advance, Option.map_some, Nat.zero_add])

theorem insert {s : VCMSessionInfo} {packet : VCMPacket}
    (h : Sound m length s.packets accepted)
    (hfits : m.Fits (s.front packet.seqNum) packet
      (s.behind packet.seqNum)) :
    ∃ m', s.insertInPlace packet m =
        (m', m.placed (s.front packet.seqNum) packet
          (s.behind packet.seqNum), packet.piece.length) ∧
      Sound m' (length + packet.piece.length)
        (m.placed (s.front packet.seqNum) packet (s.behind packet.seqNum))
        (accepted ++ [packet]) := by
  have hsplit := VCMSessionInfo.front_append_behind s packet.seqNum
  have hchain := isChain_placed m packet h.inOrder
  rw [VCMSessionInfo.insertInPlace]
  set front := s.front packet.seqNum
  set behind := s.behind packet.seqNum
  rw [← hsplit] at h
  have hpointer := h.pointer hfits
  have hroom : m.Room (advance m.base (total front)) (total front)
      packet.piece.length := by
    have hfit := hfits.room
    rw [total_append] at hfit
    obtain hptr | ⟨-, hzero⟩ := hpointer
    · exact .inr ⟨hptr, by omega⟩
    · exact .inl hzero
  have hplaced := h.placed
  rw [placed_append, Nat.zero_add] at hplaced
  obtain ⟨m', ⟨shifted, hshift, hinsert⟩, heq⟩ :=
    FrameMemory.insertBuffer_eq hplaced.2 hfits hroom
  have hblock := hinsert.block.trans hshift.block
  have hsize := hinsert.size.trans hshift.size
  refine ⟨m', heq, ⟨hinsert.inside (hshift.inside h.inside), ?_, hchain, ?_,
    ?_, ?_, ?_⟩, ?_, ?_, ?_, ?_⟩
  · have hperm := h.perm
    rw [List.map_append] at hperm
    rw [FrameMemory.placed, List.map_append, List.map_cons, map_advanced]
    exact List.perm_middle.trans
      ((hperm.cons packet).trans (List.perm_append_singleton _ _).symm)
  · have hfront : ∀ p ∈ front, p.sizeBytes = p.packet.piece.length :=
      fun p hp => h.sizeBytes p (List.mem_append_left _ hp)
    have hbehind : ∀ p ∈ behind, p.sizeBytes = p.packet.piece.length :=
      fun p hp => h.sizeBytes p (List.mem_append_right _ hp)
    have hslice := h.bytes
    rw [h.length_eq, total_append, List.flatMap_append,
      ← length_flatMap_piece hfront, ← length_flatMap_piece hbehind]
      at hslice
    have hspliced := slice_splice (d := 0) hslice packet.piece
    rw [hinsert.bytes, hshift.bytes, length_slice, h.length_eq, total_append,
      FrameMemory.placed, List.flatMap_append, List.flatMap_cons,
      flatMap_piece_advanced, ← length_flatMap_piece hfront,
      ← length_flatMap_piece hbehind, Nat.add_right_comm]
    exact hspliced
  · rw [FrameMemory.placed, placed_append, hblock, Nat.zero_add]
    exact ⟨hplaced.1, hpointer, hplaced.2.map fun _ => rfl⟩
  · intro p hp
    obtain ⟨hpacket, hsize⟩ | ⟨q, hq, hpacket, hsize⟩ := mem_placed hp
    · rw [hpacket, hsize]
    · rw [hpacket, hsize, h.sizeBytes q hq]
  · intro p hp
    obtain ⟨hpacket, -⟩ | ⟨q, hq, hpacket, -⟩ := mem_placed hp
    · rw [hpacket]
      intro hstapA
      obtain ⟨units, hunits⟩ := hfits.stapA hstapA
      exact ⟨units, hunits, VCMPacket.piece_stapA hstapA hunits⟩
    · rw [hpacket]
      exact h.stapA q hq
  · rw [h.length_eq, FrameMemory.placed, total_append, total_append,
      total_cons, total_advanced]
    dsimp only
    omega
  · rw [hsize, h.length_eq]
    exact hfits.room
  · rw [hblock, hsize]
    exact h.unallocated
  · rw [hsize]
    exact h.size_le

end Sound

/-! ## A new allocation -/

variable {m : FrameMemory} {length : ℕ} {packets : List SessionPacket}
  {accepted : List VCMPacket} (block : ℕ) (garbage : ℕ → ℕ → UInt8)

theorem total_updateDataPointers :
    total (updateDataPointers packets block) = total packets := by
  rw [total, updateDataPointers, List.map_map]
  rfl

theorem movable_updateDataPointers :
    Movable (updateDataPointers packets block) ↔ Movable packets := by
  rw [Movable, Movable, total_updateDataPointers]
  refine or_congr_right ?_
  cases packets with
  | nil => exact Iff.rfl
  | cons p packets => simp [updateDataPointers]

theorem Sound.verifyAndAllocate {n : ℕ} (h : Sound m length packets accepted)
    (hn : n ≤ kMaxJBFrameSizeBytes) :
    Sound (m.verifyAndAllocate garbage n) length
      (updateDataPointers packets (m.verifyAndAllocate garbage n).block)
      accepted := by
  have hfits := h.fits
  have hmemory : (m.verifyAndAllocate garbage n).Inside ∧
      slice (m.verifyAndAllocate garbage n).bytes 0 length =
        slice m.bytes 0 length ∧
      length ≤ (m.verifyAndAllocate garbage n).size ∧
      (m.verifyAndAllocate garbage n).size ≤ kMaxJBFrameSizeBytes ∧
      ((m.verifyAndAllocate garbage n).block = 0 →
        (m.verifyAndAllocate garbage n).size = 0) := by
    rw [FrameMemory.verifyAndAllocate]
    by_cases hlt : n > m.size
    · rw [if_pos hlt]
      refine ⟨⟨?_, h.inside.2⟩, ?_, hfits.trans hlt.le, hn, nofun⟩
      · dsimp only
        split
        · exact h.inside.1
        · intro w hw
          obtain rfl | hw := List.mem_cons.mp hw
          · exact .inr ⟨0, rfl, by dsimp only; omega⟩
          · exact h.inside.1 w hw
      · apply slice_congr
        intro i hi
        dsimp only
        rw [if_pos (by omega)]
    · rw [if_neg hlt]
      exact ⟨h.inside, rfl, hfits, h.size_le, h.unallocated⟩
  obtain ⟨hinside, hbytes, hlength, hsize, hblock⟩ := hmemory
  refine ⟨⟨hinside, ?_, ?_, ?_, ?_, ?_, ?_⟩, ?_, hlength, hblock, hsize⟩
  · rw [updateDataPointers, List.map_map]
    exact h.perm
  · exact (List.isChain_map _).mpr h.inOrder
  · rw [hbytes, updateDataPointers, List.flatMap_map]
    exact h.bytes
  · exact h.placed.map (n := 0) (g := fun ptr => ⟨_, ptr.offset⟩) fun _ => rfl
  · exact List.forall_mem_map.mpr h.sizeBytes
  · exact List.forall_mem_map.mpr h.stapA
  · rw [total_updateDataPointers]
    exact h.length_eq

namespace VCMSessionInfo

variable {s : VCMSessionInfo} {packet : VCMPacket} {seqNum : UInt16}

def Inserts (s : VCMSessionInfo) (packet : VCMPacket) : Prop :=
  packet.frameType ≠ .kFrameEmpty ∧
    s.packets.length ≠ kMaxPacketsInSession ∧
    s.isDuplicate packet.seqNum = false ∧
    (s.updateBoundaries packet).2 = true

theorem updateFirst_packets (l : List SessionPacket) :
    ({ s with packets := l } : VCMSessionInfo).updateFirst packet =
      (s.updateFirst packet).map fun t => { t with packets := l } := by
  simp only [updateFirst]
  split
  · rfl
  · split
    · rfl
    · split <;> rfl

theorem updateLast_packets (l : List SessionPacket) :
    ({ s with packets := l } : VCMSessionInfo).updateLast packet =
      (s.updateLast packet).map fun t => { t with packets := l } := by
  simp only [updateLast]
  split
  · rfl
  · split <;> rfl

variable (s packet) in
theorem updateBoundaries_packets (l : List SessionPacket) :
    ({ s with packets := l } : VCMSessionInfo).updateBoundaries packet =
      ({ (s.updateBoundaries packet).1 with packets := l },
        (s.updateBoundaries packet).2) := by
  rw [updateBoundaries, updateBoundaries]
  split
  · rfl
  · rw [updateFirst_packets]
    cases s.updateFirst packet with
    | none => rfl
    | some t =>
      dsimp only [Option.map_some]
      rw [updateLast_packets]
      cases t.updateLast packet with
      | none => rfl
      | some u => rfl

theorem packets_updateBoundaries :
    (s.updateBoundaries packet).1.packets = s.packets := by
  have heq := updateBoundaries_packets s packet s.packets
  exact congrArg (fun r => r.1.packets) heq

theorem front_updateDataPointers :
    ({ s with
        packets := updateDataPointers s.packets block } :
      VCMSessionInfo).front seqNum =
        updateDataPointers (s.front seqNum) block :=
  rdropWhile_map s.packets

theorem behind_updateDataPointers :
    ({ s with
        packets := updateDataPointers s.packets block } :
      VCMSessionInfo).behind seqNum =
        updateDataPointers (s.behind seqNum) block :=
  rtakeWhile_map s.packets

theorem inserts_updateDataPointers :
    ({ s with
        packets := updateDataPointers s.packets block } :
      VCMSessionInfo).Inserts packet ↔ s.Inserts packet := by
  have hduplicate : ({ s with
        packets := updateDataPointers s.packets block } :
      VCMSessionInfo).isDuplicate packet.seqNum =
        s.isDuplicate packet.seqNum := by
    rw [isDuplicate, isDuplicate, front_updateDataPointers,
      updateDataPointers, List.getLast?_map]
    cases (s.front packet.seqNum).getLast? with
    | none => rfl
    | some p => rfl
  rw [Inserts, Inserts, hduplicate, updateBoundaries_packets,
    updateDataPointers, List.length_map]

theorem insertPacket_not_inserted (selective : VCMSessionInfo → Bool)
    (decodeErrorMode : VCMDecodeErrorMode) (m : FrameMemory)
    (hmedia : packet.frameType ≠ .kFrameEmpty) (h : ¬s.Inserts packet) :
    ∃ t r, s.insertPacket selective decodeErrorMode packet m = (t, m, r) ∧
      t.packets = s.packets ∧ (r = -1 ∨ r = -2 ∨ r = -3) := by
  rw [insertPacket, if_neg hmedia]
  split
  · exact ⟨s, -1, rfl, rfl, .inl rfl⟩
  · rename_i hlength
    split
    · exact ⟨s, -2, rfl, rfl, .inr (.inl rfl)⟩
    · rename_i hduplicate
      dsimp only
      split
      · exact ⟨_, -3, rfl, packets_updateBoundaries, .inr (.inr rfl)⟩
      · rename_i hbounded
        rw [Bool.not_eq_true] at hduplicate
        rw [Bool.not_eq_false] at hbounded
        exact absurd ⟨hmedia, hlength, hduplicate, hbounded⟩ h

end VCMSessionInfo

/-! ## Runs -/

namespace VCMFrameBuffer

variable {f : VCMFrameBuffer} {packet : VCMPacket}
  (selective : VCMSessionInfo → Bool) (decodeErrorMode : VCMDecodeErrorMode)

def TooBig (f : VCMFrameBuffer) (packet : VCMPacket) : Prop :=
  f.requiredSizeBytes packet ≥ f.memory.size ∧
    f.newSize packet > kMaxJBFrameSizeBytes

/-- The size of the buffer that a packet is inserted to. -/
def reservedSize (f : VCMFrameBuffer) (packet : VCMPacket) : ℕ :=
  if f.requiredSizeBytes packet ≥ f.memory.size then
    max f.memory.size (f.newSize packet)
  else f.memory.size

/-- A packet that can be inserted: the length fields of a STAP-A lead from unit
to unit, the piece fits in the reserved buffer, and the bytes behind it can be
moved. -/
structure Safe (f : VCMFrameBuffer) (packet : VCMPacket) : Prop where
  stapA : packet.stapA = true → ∃ units, Aggregates packet.bytes units
  room : f.length + packet.piece.length ≤ f.reservedSize packet
  movable : Movable (f.sessionInfo.behind packet.seqNum)

/-- Packets are inserted into an empty frame.  Those that are put between the
others are safe. -/
inductive Reaches (garbage : ℕ → ℕ → UInt8) :
    VCMFrameBuffer → List VCMPacket → Prop
  | new : Reaches garbage (.new garbage) []
  | step {f : VCMFrameBuffer} {accepted : List VCMPacket}
      (h : Reaches garbage f accepted) (packet : VCMPacket)
      (hsafe : f.sessionInfo.Inserts packet → ¬f.TooBig packet → f.Safe packet)
      (selective : VCMSessionInfo → Bool)
      (decodeErrorMode : VCMDecodeErrorMode) :
      Reaches garbage
        (f.insertPacket garbage selective decodeErrorMode packet).1
        (if accepts packet
            (f.insertPacket garbage selective decodeErrorMode packet).2 then
          accepted ++ [packet]
        else accepted)

theorem reserve_of_tooBig (h : f.TooBig packet) :
    f.reserve garbage packet = none := by
  rw [reserve, if_pos h.1, if_pos h.2]

theorem reserve_of_not_tooBig (h : ¬f.TooBig packet)
    (hsound : Sound f.memory f.length f.sessionInfo.packets accepted) :
    ∃ g, f.reserve garbage packet = some g ∧ g.length = f.length ∧
      g.memory.size = f.reservedSize packet ∧
      (g.sessionInfo.Inserts packet ↔ f.sessionInfo.Inserts packet) ∧
      (Movable (g.sessionInfo.behind packet.seqNum) ↔
        Movable (f.sessionInfo.behind packet.seqNum)) ∧
      Sound g.memory g.length g.sessionInfo.packets accepted := by
  rw [reserve, reservedSize]
  split
  · rename_i hroom
    have hnew : ¬f.newSize packet > kMaxJBFrameSizeBytes := fun hbig =>
      h ⟨hroom, hbig⟩
    rw [if_neg hnew]
    refine ⟨_, rfl, rfl, ?_, VCMSessionInfo.inserts_updateDataPointers _, ?_,
      hsound.verifyAndAllocate garbage (not_lt.mp hnew)⟩
    · dsimp only
      rw [FrameMemory.verifyAndAllocate]
      split
      · rename_i hlt
        exact (max_eq_right hlt.le).symm
      · rename_i hle
        exact (max_eq_left (not_lt.mp hle)).symm
    · dsimp only
      rw [VCMSessionInfo.behind_updateDataPointers,
        movable_updateDataPointers]
  · exact ⟨f, rfl, rfl, rfl, Iff.rfl, Iff.rfl, hsound⟩

def Continues (f : VCMFrameBuffer × VCMFrameBufferEnum) (packet : VCMPacket)
    (accepted : List VCMPacket) : Prop :=
  Sound f.1.memory f.1.length f.1.sessionInfo.packets
    (if accepts packet f.2 then accepted ++ [packet] else accepted)

theorem continues_conclude {n : ℕ} (accepted' : List VCMPacket)
    (h : Sound f.memory (f.length + n) f.sessionInfo.packets accepted')
    (haccepted : accepted' = if packet.frameType != .kFrameEmpty then
      accepted ++ [packet] else accepted) :
    Continues (f.conclude n) packet accepted := by
  have hfits := h.fits
  have hsize := h.size_le
  rw [kMaxJBFrameSizeBytes] at hsize
  obtain ⟨state, r, heq, haccepts⟩ := conclude_inserted (f := f)
    packet n
  rw [heq, Continues, haccepts, ← haccepted]
  dsimp only
  rw [Nat.mod_eq_of_lt (by omega)]
  exact h

theorem continues_insertPacket
    (h : Sound f.memory f.length f.sessionInfo.packets accepted)
    (hfits : f.sessionInfo.Inserts packet →
      f.memory.Fits (f.sessionInfo.front packet.seqNum) packet
        (f.sessionInfo.behind packet.seqNum))
    {r : VCMSessionInfo × FrameMemory × ℤ}
    (hr : r = f.sessionInfo.insertPacket selective decodeErrorMode packet
      f.memory) :
    Continues
      ({ f with
          sessionInfo := r.1
          memory := r.2.1 }.conclude r.2.2) packet accepted := by
  subst hr
  by_cases hmedia : packet.frameType = .kFrameEmpty
  · rw [VCMSessionInfo.insertPacket, if_pos hmedia]
    dsimp only
    refine continues_conclude (n := 0) accepted h ?_
    rw [hmedia]
    rfl
  · by_cases hinserts : f.sessionInfo.Inserts packet
    · obtain ⟨-, hlength, hduplicate, hbounded⟩ := id hinserts
      obtain ⟨decodable, heq⟩ := VCMSessionInfo.insertPacket_accepted
        selective decodeErrorMode f.memory hmedia hlength hduplicate
        (Prod.ext rfl hbounded)
      obtain ⟨m', hplace, hsound⟩ := h.insert (hfits hinserts)
      rw [heq, hplace]
      dsimp only
      refine continues_conclude (accepted ++ [packet]) ?_ ?_
      · dsimp only
        rw [VCMSessionInfo.withPackets_packets]
        exact hsound
      · rw [if_pos (bne_iff_ne.mpr hmedia)]
    · obtain ⟨t, r, heq, hpackets, hr⟩ :=
        VCMSessionInfo.insertPacket_not_inserted selective decodeErrorMode
          f.memory hmedia hinserts
      rw [heq]
      dsimp only
      obtain ⟨hsame, haccepts⟩ := conclude_refused
        (f := { f with
          sessionInfo := t
          memory := f.memory }) packet hr
      rw [Continues, haccepts, hsame]
      dsimp only
      rw [hpackets]
      exact h

theorem continues_step
    (h : Sound f.memory f.length f.sessionInfo.packets accepted)
    (hsafe : f.sessionInfo.Inserts packet → ¬f.TooBig packet →
      f.Safe packet) :
    Continues (f.insertPacket garbage selective decodeErrorMode packet) packet
      accepted := by
  obtain ⟨state, hstart⟩ := f.start_eq packet
  rw [VCMFrameBuffer.insertPacket, hstart]
  by_cases hbig : f.TooBig packet
  · rw [reserve_of_tooBig (f := { f with state := state }) garbage hbig]
    rw [Continues, if_neg (by simp [accepts])]
    exact h
  · obtain ⟨g, hreserve, hlength, hsize, hinserts, hmovable, hsound⟩ :=
      reserve_of_not_tooBig (f := { f with state := state }) garbage hbig h
    rw [hreserve]
    refine continues_insertPacket selective decodeErrorMode hsound ?_ rfl
    intro hin
    have hpacket := hsafe (hinserts.mp hin) hbig
    refine ⟨hpacket.stapA, ?_, hmovable.mpr hpacket.movable⟩
    rw [VCMSessionInfo.front_append_behind, ← hsound.length_eq, hlength, hsize]
    exact hpacket.room

theorem sound_new : Sound (VCMFrameBuffer.new garbage).memory 0 [] [] :=
  ⟨⟨⟨fun _ hw => absurd hw List.not_mem_nil,
      fun _ hr => absurd hr List.not_mem_nil⟩, .nil, .nil, rfl, trivial,
    fun _ hp => absurd hp List.not_mem_nil,
    fun _ hp => absurd hp List.not_mem_nil⟩, rfl, Nat.zero_le _, fun _ => rfl,
    Nat.zero_le _⟩

theorem Reaches.sound (h : Reaches garbage f accepted) :
    Sound f.memory f.length f.sessionInfo.packets accepted := by
  induction h with
  | new => exact sound_new garbage
  | step h packet hsafe selective decodeErrorMode ih =>
    exact continues_step garbage selective decodeErrorMode ih hsafe

theorem pairwise_of_isChain {base : UInt16}
    (hchain : packets.IsChain fun p q =>
      isNewerSequenceNumber p.seqNum q.seqNum = false)
    (hbase : ∀ p ∈ packets, (p.seqNum - base).toNat < 2 ^ 15) :
    packets.Pairwise fun p q =>
      (p.seqNum - base).toNat ≤ (q.seqNum - base).toNat := by
  have hle : packets.IsChain fun p q =>
      (p.seqNum - base).toNat ≤ (q.seqNum - base).toNat := by
    refine hchain.imp_of_mem_imp ?_
    intro p q hp hq hnewer
    have hp' := hbase p hp
    have hq' := hbase q hq
    have hlt := p.seqNum.toNat_lt
    have hlt' := q.seqNum.toNat_lt
    have hlt'' := base.toNat_lt
    rw [← Bool.not_eq_true] at hnewer
    change ¬lessThan q.seqNum p.seqNum = true at hnewer
    rw [lessThan_iff, UInt16.toNat_sub] at hnewer
    rw [UInt16.toNat_sub] at hp' hq' ⊢
    rw [UInt16.toNat_sub]
    omega
  rw [← List.isChain_map (R := (· ≤ ·)) fun p : SessionPacket =>
    (p.seqNum - base).toNat, List.isChain_iff_pairwise,
    List.pairwise_map] at hle
  exact hle

/-- After packets that are safe the frame buffer is assembled.  Packets that lie
within half of the numbers are sorted. -/
theorem assembled (h : Reaches garbage f accepted) :
    Assembled f.memory f.length f.sessionInfo.packets accepted ∧
      ∀ base : UInt16,
        (∀ packet ∈ accepted, (packet.seqNum - base).toNat < 2 ^ 15) →
        f.sessionInfo.packets.Pairwise fun p q =>
          (p.seqNum - base).toNat ≤ (q.seqNum - base).toNat := by
  have hsound := h.sound
  refine ⟨hsound.toAssembled, ?_⟩
  intro base hbase
  refine pairwise_of_isChain hsound.inOrder fun p hp => hbase p.packet ?_
  exact hsound.perm.mem_iff.mp (List.mem_map_of_mem hp)

/-- The frame after packets in the order of the list, and those that were
accepted. -/
def insertAll (garbage : ℕ → ℕ → UInt8) :
    VCMFrameBuffer × List VCMPacket → List VCMPacket →
      VCMFrameBuffer × List VCMPacket
  | r, [] => r
  | r, packet :: packets =>
    let t := r.1.insertPacket garbage (fun _ => false) .kNoErrors packet
    insertAll garbage
      (t.1, if accepts packet t.2 then r.2 ++ [packet] else r.2) packets

def stapAPacket : VCMPacket where
  seqNum := 65535
  payload := Buffer.ofList [0x18, 0, 1, 7, 0, 2, 8, 9] fun _ => 0
  codec := .kVideoCodecH264
  insertStartCode := true
  stapA := true

def plainPacket : VCMPacket where
  seqNum := 0
  payload := Buffer.ofList [5] fun _ => 0
  codec := .kVideoCodecH264

/-- The later packet arrives first. -/
theorem assembled_wrapped :
    slice (insertAll (fun _ _ => 0) (.new fun _ _ => 0, [])
      [plainPacket, stapAPacket]).1.memory.bytes 0 12 =
        [0, 0, 0, 1, 7, 0, 0, 0, 1, 8, 9, 5] := by
  have hnew : Reaches (fun _ _ => 0) (.new fun _ _ => 0) [] := .new
  have hplain := hnew.step plainPacket
    (fun _ _ => ⟨nofun, by decide, .inl (by decide)⟩)
    (fun _ => false) .kNoErrors
  have hboth := hplain.step stapAPacket
    (fun _ _ => ⟨fun _ => ⟨[[7], [8, 9]], by decide, .inr ⟨0x18, by decide⟩⟩,
      by decide, .inr (by decide)⟩)
    (fun _ => false) .kNoErrors
  exact (assembled (fun _ _ => 0) hboth).1.bytes.trans (by decide)

/-- The only length field of a STAP-A of four bytes announces five. -/
theorem not_forall_assembled :
    ¬∀ packets, Assembled
      (insertAll (fun _ _ => 0) (.new fun _ _ => 0, []) packets).1.memory
      (insertAll (fun _ _ => 0) (.new fun _ _ => 0, []) packets).1.length
      (insertAll (fun _ _ => 0) (.new fun _ _ => 0, [])
        packets).1.sessionInfo.packets
      (insertAll (fun _ _ => 0) (.new fun _ _ => 0, []) packets).2 := by
  intro h
  have hreads := (h
    [{ seqNum := 0
       payload := Buffer.ofList [0x18, 0, 5, 1] fun _ => 0
       codec := .kVideoCodecH264
       stapA := true }]).inside.2 ⟨⟨3, 5⟩, 4⟩ (by decide)
  rw [Read.Inside] at hreads
  exact absurd hreads (by decide)

end VCMFrameBuffer

end WebrtcWinXp.VideoCoding
