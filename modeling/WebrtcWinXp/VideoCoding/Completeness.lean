import WebrtcWinXp.Support.Sorted
import WebrtcWinXp.VideoCoding.SessionInfo

/-!
# Complete frames

The media packets of a VP8 frame have consecutive sequence numbers.  Within a
frame of at most `2 ^ 15` packets the comparison of sequence numbers is that of
the positions, so that the session keeps the packets in order and is complete
when all of them are there.
-/

namespace WebrtcWinXp.VideoCoding

open Support Fec

/-- The packets of a frame, by their position. -/
structure MediaFrame where
  first : UInt16
  count : ℕ
  packet : ℕ → VCMPacket
  pos : 0 < count
  seqNum : ∀ i < count, (packet i).seqNum = first + UInt16.ofNat i
  isFirstPacket : ∀ i < count, (packet i).isFirstPacket = decide (i = 0)
  markerBit : ∀ i < count, (packet i).markerBit = decide (i + 1 = count)
  media : ∀ i < count, (packet i).frameType ≠ .kFrameEmpty
  codec : ∀ i < count, (packet i).codec = .kVideoCodecVP8
  plain : ∀ i < count, (packet i).stapA = false ∧
    (packet i).insertStartCode = false

namespace MediaFrame

variable (f : MediaFrame)

def position (seqNum : UInt16) : ℕ := (seqNum - f.first).toNat

variable {f}

theorem position_seqNum (hcount : f.count ≤ 2 ^ 15) {i : ℕ}
    (hi : i < f.count) : f.position (f.packet i).seqNum = i := by
  rw [position, f.seqNum i hi, add_sub_cancel_left, UInt16.toNat_ofNat']
  omega

variable {a : UInt16}

theorem position_inj {b : UInt16} (h : f.position a = f.position b) :
    a = b := by
  have heq := UInt16.toNat_inj.mp h
  exact sub_left_injective heq

theorem isNewer_iff {b : UInt16} (ha : f.position a < 2 ^ 15)
    (hb : f.position b < 2 ^ 15) :
    isNewerSequenceNumber a b = true ↔ f.position b < f.position a := by
  have hlt := a.toNat_lt
  have hlt' := b.toNat_lt
  have hfirst := f.first.toNat_lt
  change lessThan b a = true ↔ _
  rw [lessThan_iff]
  rw [position, UInt16.toNat_sub] at ha hb ⊢
  rw [position, UInt16.toNat_sub, UInt16.toNat_sub]
  omega

theorem outside (hcount : f.count ≤ 2 ^ 15) {first last : UInt16}
    (hfirst : f.position first = 0) (hlast : f.position last = f.count - 1)
    (ha : f.count ≤ f.position a) :
    isNewerSequenceNumber a first = false ∨
      isNewerSequenceNumber a last = true := by
  have hpos := f.pos
  have hlt := a.toNat_lt
  have hlt' := last.toNat_lt
  have hlt'' := first.toNat_lt
  have hbase := f.first.toNat_lt
  by_cases hhalf : f.position a < 2 ^ 15
  · right
    rw [isNewer_iff hhalf (by omega)]
    omega
  · left
    rw [← Bool.not_eq_true]
    change ¬lessThan first a = true
    rw [lessThan_iff]
    rw [position, UInt16.toNat_sub] at hfirst hlast ha hhalf
    rw [UInt16.toNat_sub]
    omega

end MediaFrame

/-! ## The session -/

/-- The packets of the session are packets of the frame, in order. -/
structure Sorted (f : MediaFrame) (packets : List SessionPacket) : Prop where
  lt_count : ∀ p ∈ packets, f.position p.seqNum < f.count
  packet : ∀ p ∈ packets, p.packet = f.packet (f.position p.seqNum)
  sizeBytes : ∀ p ∈ packets, p.sizeBytes = p.packet.sizeBytes
  pairwise : packets.Pairwise fun p q =>
    f.position p.seqNum < f.position q.seqNum

/-- The packet at the position is in the session. -/
def Present (f : MediaFrame) (packets : List SessionPacket) (i : ℕ) : Prop :=
  ∃ p ∈ packets, f.position p.seqNum = i

variable {f : MediaFrame} {packets : List SessionPacket} {i : ℕ}

theorem goesOver_iff (hcount : f.count ≤ 2 ^ 15) (hi : i < f.count)
    {p : SessionPacket} (hp : f.position p.seqNum < f.count) :
    VCMSessionInfo.goesOver (f.packet i).seqNum p = true ↔
      i < f.position p.seqNum := by
  have hat := MediaFrame.position_seqNum hcount hi
  have hnewer := MediaFrame.isNewer_iff (f := f) (a := (f.packet i).seqNum)
    (b := p.seqNum) (by omega) (by omega)
  rw [hat] at hnewer
  rw [VCMSessionInfo.goesOver, bne_iff_ne, latestSequenceNumber]
  by_cases hlt : f.position p.seqNum < i
  · rw [if_pos (hnewer.mpr hlt)]
    exact iff_of_false (fun h => h rfl) (by omega)
  · rw [if_neg (mt hnewer.mp hlt)]
    constructor
    · intro hne
      have hpos : f.position p.seqNum ≠ i := by
        intro heq
        exact hne (MediaFrame.position_inj (heq.trans hat.symm))
      omega
    · rintro hgt heq
      rw [heq, hat] at hgt
      exact Nat.lt_irrefl i hgt

namespace Sorted

variable (h : Sorted f packets)

include h

theorem upward (hcount : f.count ≤ 2 ^ 15) (hi : i < f.count) :
    Upward (fun p q : SessionPacket =>
        f.position p.seqNum < f.position q.seqNum)
      (VCMSessionInfo.goesOver (f.packet i).seqNum) packets := by
  intro p hp q hq hlt hover
  rw [goesOver_iff hcount hi (h.lt_count p hp)] at hover
  rw [goesOver_iff hcount hi (h.lt_count q hq)]
  omega

theorem mem_front_iff (hcount : f.count ≤ 2 ^ 15) (hi : i < f.count)
    {p : SessionPacket} :
    p ∈ packets.rdropWhile (VCMSessionInfo.goesOver (f.packet i).seqNum) ↔
      p ∈ packets ∧ f.position p.seqNum ≤ i := by
  rw [rdropWhile_eq_filter h.pairwise (h.upward hcount hi), List.mem_filter]
  refine and_congr_right fun hp => ?_
  rw [Bool.not_eq_true', ← Bool.not_eq_true,
    goesOver_iff hcount hi (h.lt_count p hp), Nat.not_lt]

theorem mem_behind_iff (hcount : f.count ≤ 2 ^ 15) (hi : i < f.count)
    {p : SessionPacket} :
    p ∈ packets.rtakeWhile (VCMSessionInfo.goesOver (f.packet i).seqNum) ↔
      p ∈ packets ∧ i < f.position p.seqNum := by
  rw [rtakeWhile_eq_filter h.pairwise (h.upward hcount hi), List.mem_filter]
  exact and_congr_right fun hp => goesOver_iff hcount hi (h.lt_count p hp)

theorem congr {packets' : List SessionPacket}
    (heq : packets'.map SessionPacket.contents =
      packets.map SessionPacket.contents) : Sorted f packets' := by
  have hfind : ∀ p ∈ packets', ∃ q ∈ packets, q.packet = p.packet ∧
      q.sizeBytes = p.sizeBytes := by
    intro p hp
    have hmem := List.mem_map_of_mem (f := SessionPacket.contents) hp
    rw [heq, List.mem_map] at hmem
    obtain ⟨q, hq, hcontents⟩ := hmem
    rw [SessionPacket.contents, SessionPacket.contents, Prod.mk.injEq]
      at hcontents
    exact ⟨q, hq, hcontents⟩
  refine ⟨?_, ?_, ?_, ?_⟩
  · intro p hp
    obtain ⟨q, hq, hpacket, -⟩ := hfind p hp
    rw [SessionPacket.seqNum, ← hpacket]
    exact h.lt_count q hq
  · intro p hp
    obtain ⟨q, hq, hpacket, -⟩ := hfind p hp
    rw [SessionPacket.seqNum, ← hpacket]
    exact h.packet q hq
  · intro p hp
    obtain ⟨q, hq, hpacket, hsize⟩ := hfind p hp
    rw [← hpacket, ← hsize]
    exact h.sizeBytes q hq
  · have hmap : (packets'.map SessionPacket.contents).Pairwise fun a b =>
        f.position a.1.seqNum < f.position b.1.seqNum := by
      rw [heq, List.pairwise_map]
      exact h.pairwise
    have hpairwise := List.pairwise_map.mp hmap
    exact hpairwise

theorem insert (hcount : f.count ≤ 2 ^ 15) (hi : i < f.count)
    (hnot : ¬Present f packets i) (ptr : Option Pointer) :
    Sorted f (packets.rdropWhile
        (VCMSessionInfo.goesOver (f.packet i).seqNum) ++
      ⟨f.packet i, ptr, (f.packet i).sizeBytes⟩ ::
        packets.rtakeWhile
          (VCMSessionInfo.goesOver (f.packet i).seqNum)) := by
  have hat := MediaFrame.position_seqNum hcount hi
  have hmem : ∀ p ∈ packets.rdropWhile
        (VCMSessionInfo.goesOver (f.packet i).seqNum) ++
      ⟨f.packet i, ptr, (f.packet i).sizeBytes⟩ ::
        packets.rtakeWhile (VCMSessionInfo.goesOver (f.packet i).seqNum),
      p ∈ packets ∨ p = ⟨f.packet i, ptr, (f.packet i).sizeBytes⟩ := by
    intro p hp
    rw [List.mem_append, List.mem_cons, h.mem_front_iff hcount hi,
      h.mem_behind_iff hcount hi] at hp
    obtain hp | rfl | hp := hp
    · exact .inl hp.1
    · exact .inr rfl
    · exact .inl hp.1
  refine ⟨?_, ?_, ?_, ?_⟩
  · intro p hp
    obtain hp | rfl := hmem p hp
    · exact h.lt_count p hp
    · exact hat.trans_lt hi
  · intro p hp
    obtain hp | rfl := hmem p hp
    · exact h.packet p hp
    · rw [SessionPacket.seqNum, hat]
  · intro p hp
    obtain hp | rfl := hmem p hp
    · exact h.sizeBytes p hp
    · rfl
  · have hfront := h.pairwise.sublist (List.rdropWhile_prefix
      (VCMSessionInfo.goesOver (f.packet i).seqNum) packets).sublist
    have hbehind := h.pairwise.sublist (List.rtakeWhile_suffix
      (VCMSessionInfo.goesOver (f.packet i).seqNum) packets).sublist
    have hlow : ∀ p ∈ packets.rdropWhile
        (VCMSessionInfo.goesOver (f.packet i).seqNum),
        f.position p.seqNum < i := by
      intro p hp
      obtain ⟨hp, hle⟩ := (h.mem_front_iff hcount hi).mp hp
      have hne : f.position p.seqNum ≠ i := fun heq => hnot ⟨p, hp, heq⟩
      omega
    have hhigh : ∀ p ∈ packets.rtakeWhile
        (VCMSessionInfo.goesOver (f.packet i).seqNum),
        i < f.position p.seqNum :=
      fun p hp => ((h.mem_behind_iff hcount hi).mp hp).2
    rw [List.pairwise_append, List.pairwise_cons]
    refine ⟨hfront, ⟨?_, hbehind⟩, ?_⟩
    · intro q hq
      exact hat.trans_lt (hhigh q hq)
    · intro p hp q hq
      have hlt := hlow p hp
      obtain rfl | hq := List.mem_cons.mp hq
      · exact hlt.trans_eq hat.symm
      · have hgt := hhigh q hq
        omega

end Sorted

theorem Sorted.isDuplicate_of_present {s : VCMSessionInfo} (h : Sorted f s.packets)
    (hcount : f.count ≤ 2 ^ 15) (hi : i < f.count)
    (hpresent : Present f s.packets i) (hsize : 0 < (f.packet i).sizeBytes) :
    s.isDuplicate (f.packet i).seqNum = true := by
  obtain ⟨p, hp, hpos⟩ := hpresent
  have hmem := (h.mem_front_iff hcount hi).mpr ⟨hp, hpos.le⟩
  have hprefix := List.rdropWhile_prefix
    (VCMSessionInfo.goesOver (f.packet i).seqNum) s.packets
  have hpairwise := h.pairwise.sublist hprefix.sublist
  rw [VCMSessionInfo.isDuplicate, VCMSessionInfo.front]
  obtain hnil | ⟨front, q, hfront⟩ := List.eq_nil_or_concat'
      (s.packets.rdropWhile (VCMSessionInfo.goesOver (f.packet i).seqNum))
  · rw [hnil] at hmem
    exact absurd hmem List.not_mem_nil
  · have hq : q ∈ s.packets ∧ f.position q.seqNum ≤ i := by
      rw [← h.mem_front_iff hcount hi, hfront]
      exact List.mem_append_right _ (List.mem_singleton_self q)
    have heq : f.position q.seqNum = i := by
      rw [hfront] at hmem hpairwise
      obtain hp | hp := List.mem_append.mp hmem
      · have hlt := (List.pairwise_append.mp hpairwise).2.2 p hp q
          (List.mem_singleton_self q)
        omega
      · rw [← List.mem_singleton.mp hp]
        exact hpos
    have hseq : q.seqNum = (f.packet i).seqNum := MediaFrame.position_inj
      (heq.trans (MediaFrame.position_seqNum hcount hi).symm)
    have hqsize : q.sizeBytes > 0 := by
      rw [h.sizeBytes q hq.1, h.packet q hq.1, heq]
      exact hsize
    rw [hfront, List.getLast?_concat]
    simp [hseq, hqsize]

theorem isDuplicate_of_not_present {s : VCMSessionInfo} {seqNum : UInt16}
    (hnot : ¬Present f s.packets (f.position seqNum)) :
    s.isDuplicate seqNum = false := by
  rw [VCMSessionInfo.isDuplicate]
  split
  · rename_i q hq
    have hmem : q ∈ s.packets :=
      (List.rdropWhile_prefix _ _).mem (List.mem_of_getLast? hq)
    have hne : q.seqNum ≠ seqNum := by
      rintro rfl
      exact hnot ⟨q, hmem, rfl⟩
    rw [decide_eq_false hne, Bool.false_and]
  · rfl

variable {packets' : List SessionPacket}

theorem present_congr
    (heq : packets'.map SessionPacket.contents =
      packets.map SessionPacket.contents) :
    Present f packets' i ↔ Present f packets i := by
  have hiff : ∀ l : List SessionPacket, Present f l i ↔
      ∃ c ∈ l.map SessionPacket.contents, f.position c.1.seqNum = i := by
    intro l
    simp only [Present, List.mem_map, exists_exists_and_eq_and]
    rfl
  rw [hiff, hiff, heq]

/-! ## The boundaries of a frame -/

/-- A boundary is known when its packet is in the session. -/
def Known (f : MediaFrame) (packets : List SessionPacket) (i : ℕ)
    (seqNum : Option UInt16) : Prop :=
  seqNum = some (f.packet i).seqNum ∧ Present f packets i ∨
    seqNum = none ∧ ¬Present f packets i

variable {seqNum : Option UInt16}

theorem Known.congr
    (h : Known f packets i seqNum)
    (hiff : Present f packets' i ↔ Present f packets i) :
    Known f packets' i seqNum := by
  rwa [Known, hiff]

/-- The session holds packets of the frame in order and knows its boundaries. -/
structure Inv (f : MediaFrame) (s : VCMSessionInfo) (offered : List ℕ) :
    Prop where
  sorted : Sorted f s.packets
  length_le : s.packets.length ≤ kMaxPacketsInSession
  first : Known f s.packets 0 s.firstPacketSeqNum
  last : Known f s.packets (f.count - 1) s.lastPacketSeqNum
  frameType : s.frameType ≠ .kFrameEmpty
  complete : s.complete = true ↔ ∀ i < f.count, Present f s.packets i
  arrived : ∀ i, Present f s.packets i → i ∈ offered
  full : ∀ i ∈ offered, i < f.count → Present f s.packets i ∨
    s.packets.length = kMaxPacketsInSession

theorem inv_new (f : MediaFrame) : Inv f {} [] := by
  have hnone : ∀ i, ¬Present f [] i := by
    rintro i ⟨p, hp, -⟩
    exact List.not_mem_nil hp
  refine ⟨⟨?_, ?_, ?_, .nil⟩, by decide, .inr ⟨rfl, hnone _⟩,
    .inr ⟨rfl, hnone _⟩, by decide, ?_, ?_, ?_⟩
  · exact fun p hp => absurd hp List.not_mem_nil
  · exact fun p hp => absurd hp List.not_mem_nil
  · exact fun p hp => absurd hp List.not_mem_nil
  · exact iff_of_false Bool.noConfusion fun h => hnone 0 (h 0 f.pos)
  · exact fun i hi => absurd hi (hnone i)
  · exact fun i hi => absurd hi List.not_mem_nil

variable {s : VCMSessionInfo} {offered : List ℕ}

theorem Inv.updateBoundaries (h : Inv f s offered)
    (hcount : f.count ≤ 2 ^ 15) (hi : i < f.count)
    (hnot : ¬Present f s.packets i) :
    ∃ t, s.updateBoundaries (f.packet i) = (t, true) ∧
      t.packets = s.packets ∧ t.complete = s.complete ∧
      t.frameType ≠ .kFrameEmpty ∧
      t.firstPacketSeqNum =
        (if i = 0 then some (f.packet 0).seqNum else s.firstPacketSeqNum) ∧
      t.lastPacketSeqNum =
        (if i + 1 = f.count then some (f.packet (f.count - 1)).seqNum
          else s.lastPacketSeqNum) := by
  have hpos := f.pos
  have hnewer : ∀ j < f.count,
      isNewerSequenceNumber (f.packet i).seqNum (f.packet j).seqNum = true ↔
        j < i := by
    intro j hj
    have hat := MediaFrame.position_seqNum hcount hi
    have hat' := MediaFrame.position_seqNum hcount hj
    rw [MediaFrame.isNewer_iff (f := f) (by omega) (by omega), hat, hat']
  have hupdateFirst : ∃ u, s.updateFirst (f.packet i) = some u ∧
      u.packets = s.packets ∧ u.complete = s.complete ∧
      u.frameType ≠ .kFrameEmpty ∧
      u.firstPacketSeqNum =
        (if i = 0 then some (f.packet 0).seqNum else s.firstPacketSeqNum) ∧
      u.lastPacketSeqNum = s.lastPacketSeqNum := by
    rw [VCMSessionInfo.updateFirst, f.isFirstPacket i hi]
    by_cases hzero : i = 0
    · subst hzero
      have hnone := (h.first.resolve_left fun h => hnot h.2).1
      rw [if_pos (by rw [hnone]; rfl)]
      exact ⟨_, rfl, rfl, rfl, f.media 0 hi, (if_pos rfl).symm, rfl⟩
    · have hold : (s.firstPacketSeqNum.isSome && !VCMSessionInfo.newerThan
          (f.packet i).seqNum s.firstPacketSeqNum) = false := by
        obtain ⟨hsome, -⟩ | ⟨hnone, -⟩ := h.first
        · rw [hsome, VCMSessionInfo.newerThan, Option.any_some,
            (hnewer 0 hpos).mpr (by omega)]
          rfl
        · rw [hnone]
          rfl
      rw [if_neg (by rw [decide_eq_false hzero]; exact Bool.noConfusion),
        if_neg (by rw [hold]; exact Bool.noConfusion),
        if_neg (fun hempty => h.frameType hempty.1)]
      exact ⟨s, rfl, rfl, rfl, h.frameType, (if_neg hzero).symm, rfl⟩
  obtain ⟨u, hu, hpackets, hcomplete, htype, hfirst, hlast⟩ := hupdateFirst
  have hupdateLast : ∃ t, u.updateLast (f.packet i) = some t ∧
      t.packets = u.packets ∧ t.complete = u.complete ∧
      t.frameType = u.frameType ∧
      t.firstPacketSeqNum = u.firstPacketSeqNum ∧
      t.lastPacketSeqNum =
        (if i + 1 = f.count then some (f.packet (f.count - 1)).seqNum
          else s.lastPacketSeqNum) := by
    rw [VCMSessionInfo.updateLast, f.markerBit i hi, hlast]
    by_cases hend : i + 1 = f.count
    · obtain rfl : i = f.count - 1 := by omega
      have hnone := (h.last.resolve_left fun h => hnot h.2).1
      rw [if_pos (by rw [hnone, decide_eq_true hend]; rfl)]
      exact ⟨_, rfl, rfl, rfl, rfl, rfl, (if_pos hend).symm⟩
    · have hold : VCMSessionInfo.newerThan (f.packet i).seqNum
          s.lastPacketSeqNum = false := by
        obtain ⟨hsome, -⟩ | ⟨hnone, -⟩ := h.last
        · rw [hsome, VCMSessionInfo.newerThan, Option.any_some,
            ← Bool.not_eq_true, hnewer _ (by omega)]
          omega
        · rw [hnone]
          rfl
      rw [if_neg (by rw [decide_eq_false hend]; exact Bool.noConfusion),
        if_neg (by rw [hold]; exact Bool.noConfusion)]
      exact ⟨u, rfl, rfl, rfl, rfl, rfl, hlast.trans (if_neg hend).symm⟩
  obtain ⟨t, ht, hpackets', hcomplete', htype', hfirst', hlast'⟩ := hupdateLast
  refine ⟨t, ?_, hpackets'.trans hpackets, hcomplete'.trans hcomplete,
    htype'.trans_ne htype, hfirst'.trans hfirst, hlast'⟩
  rw [VCMSessionInfo.updateBoundaries, if_neg (by rw [f.codec i hi]; decide),
    hu]
  dsimp only
  rw [ht]

theorem present_iff_mem :
    Present f packets i ↔
      i ∈ packets.map fun p => f.position p.seqNum := by
  rw [List.mem_map]
  rfl

theorem allInSequence_iff (hcount : f.count ≤ 2 ^ 15)
    (hlt : ∀ p ∈ packets, f.position p.seqNum < f.count) :
    VCMSessionInfo.allInSequence packets = true ↔
      (packets.map fun p => f.position p.seqNum).IsChain
        fun m n => m + 1 = n := by
  induction packets with
  | nil => exact iff_of_true rfl List.isChain_nil
  | cons prev packets ih =>
    cases packets with
    | nil => exact iff_of_true rfl (List.isChain_singleton _)
    | cons p packets =>
      have hprev := hlt prev List.mem_cons_self
      have hp := hlt p (List.mem_cons_of_mem _ List.mem_cons_self)
      have hnext : prev.seqNum + 1 = p.seqNum ↔
          f.position prev.seqNum + 1 = f.position p.seqNum := by
        have hbound := prev.seqNum.toNat_lt
        have hfirst := f.first.toNat_lt
        have hsucc : f.position (prev.seqNum + 1) =
            f.position prev.seqNum + 1 := by
          rw [MediaFrame.position, UInt16.toNat_sub] at hprev ⊢
          rw [UInt16.toNat_add, MediaFrame.position, UInt16.toNat_sub,
            show (1 : UInt16).toNat = 1 from rfl]
          omega
        rw [← hsucc]
        exact ⟨congrArg f.position, MediaFrame.position_inj⟩
      rw [VCMSessionInfo.allInSequence, Bool.and_eq_true,
        ih (fun q hq => hlt q (List.mem_cons_of_mem _ hq)),
        VCMSessionInfo.inSequence, decide_eq_true_eq, hnext]
      simp only [List.map_cons, List.isChain_cons_cons]

theorem Sorted.allInSequence_iff (h : Sorted f packets)
    (hcount : f.count ≤ 2 ^ 15) (hfirst : Present f packets 0)
    (hlast : Present f packets (f.count - 1)) :
    VCMSessionInfo.allInSequence packets = true ↔
      ∀ i < f.count, Present f packets i := by
  have hpos := f.pos
  rw [VideoCoding.allInSequence_iff hcount h.lt_count]
  constructor
  · intro hchain i hi
    rw [present_iff_mem] at hfirst hlast ⊢
    exact mem_of_isChain hchain hfirst hlast (by omega)
  · intro hall
    apply isChain_of_forall_mem (n := f.count) (List.pairwise_map.mpr h.pairwise)
    intro i
    constructor
    · intro hi
      obtain ⟨p, hp, rfl⟩ := List.mem_map.mp hi
      exact h.lt_count p hp
    · exact fun hi => present_iff_mem.mp (hall i hi)

theorem Known.isSome (h : Known f packets i seqNum) :
    seqNum.isSome = true ↔ Present f packets i := by
  obtain ⟨rfl, hpresent⟩ | ⟨rfl, hnot⟩ := h
  · exact iff_of_true rfl hpresent
  · exact iff_of_false Bool.noConfusion hnot

/-- `UpdateCompleteSession`, when the session was complete only with all packets
there. -/
theorem updateCompleteSession_complete (hcount : f.count ≤ 2 ^ 15)
    (hsorted : Sorted f s.packets) (hfirst : Known f s.packets 0 s.firstPacketSeqNum)
    (hlast : Known f s.packets (f.count - 1) s.lastPacketSeqNum)
    (hcomplete : s.complete = true → ∀ i < f.count, Present f s.packets i) :
    s.updateCompleteSession.complete = true ↔
      ∀ i < f.count, Present f s.packets i := by
  have hpos := f.pos
  have hends : (s.haveFirstPacket && s.haveLastPacket) = true ↔
      Present f s.packets 0 ∧ Present f s.packets (f.count - 1) := by
    rw [VCMSessionInfo.haveFirstPacket, VCMSessionInfo.haveLastPacket,
      Bool.and_eq_true, Bool.and_eq_true, Bool.and_eq_true, hfirst.isSome,
      hlast.isSome]
    constructor
    · rintro ⟨⟨-, h⟩, -, h'⟩
      exact ⟨h, h'⟩
    · rintro ⟨h, h'⟩
      have hne : (!s.packets.isEmpty) = true := by
        obtain ⟨p, hp, -⟩ := h
        cases hpackets : s.packets with
        | nil =>
          rw [hpackets] at hp
          exact absurd hp List.not_mem_nil
        | cons => rfl
      exact ⟨⟨hne, h⟩, hne, h'⟩
  rw [VCMSessionInfo.updateCompleteSession]
  by_cases hboth : (s.haveFirstPacket && s.haveLastPacket) = true
  · rw [if_pos hboth]
    obtain ⟨h, h'⟩ := hends.mp hboth
    exact hsorted.allInSequence_iff hcount h h'
  · rw [if_neg hboth]
    refine ⟨hcomplete, fun hall => absurd ?_ hboth⟩
    exact hends.mpr ⟨hall 0 hpos, hall _ (by omega)⟩

/-! ## Steps -/

theorem insertInPlace_contents (m : FrameMemory) (hi : i < f.count) :
    (s.insertInPlace (f.packet i) m).2.1.map SessionPacket.contents =
      (s.front (f.packet i).seqNum ++
        ⟨f.packet i, none, (f.packet i).sizeBytes⟩ ::
          s.behind (f.packet i).seqNum).map SessionPacket.contents := by
  obtain ⟨hplain, hstart⟩ := f.plain i hi
  rw [VCMSessionInfo.insertInPlace, FrameMemory.insertBuffer]
  dsimp only
  rw [if_neg (by rw [hplain]; exact Bool.noConfusion), List.map_append,
    List.map_append, List.map_cons, List.map_cons,
    FrameMemory.shiftSubsequentPackets_contents,
    VCMPacket.startCodeLength, hstart]
  rfl

variable (selective : VCMSessionInfo → Bool)
  (decodeErrorMode : VCMDecodeErrorMode) (m : FrameMemory)

/-- A boundary is known after an insertion as it was before, or by the packet
that was inserted. -/
theorem Known.insert {j k : ℕ} (h : Known f packets j seqNum)
    (hpresent : Present f packets' j ↔ j = i ∨ Present f packets j)
    (hk : k = j ↔ i = j) :
    Known f packets' j
      (if k = j then some (f.packet j).seqNum else seqNum) := by
  by_cases heq : k = j
  · rw [if_pos heq]
    exact .inl ⟨rfl, hpresent.mpr (.inl (hk.mp heq).symm)⟩
  · rw [if_neg heq]
    have hne : ¬j = i := fun hj => heq (hk.mpr hj.symm)
    exact h.congr (hpresent.trans (or_iff_right hne))

theorem Inv.accept (h : Inv f s offered) (hcount : f.count ≤ 2 ^ 15)
    (hi : i < f.count) (hnot : ¬Present f s.packets i)
    (hroom : s.packets.length ≠ kMaxPacketsInSession) :
    Inv f (s.insertPacket selective decodeErrorMode (f.packet i) m).1
        (i :: offered) ∧
      ∀ j, Present f
          (s.insertPacket selective decodeErrorMode (f.packet i) m).1.packets j ↔
        j = i ∨ Present f s.packets j := by
  have hpos := f.pos
  have hat := MediaFrame.position_seqNum hcount hi
  obtain ⟨t, hbounded, hpackets, hcomplete, htype, hfirst, hlast⟩ :=
    h.updateBoundaries hcount hi hnot
  obtain ⟨decodable, hinsert⟩ := VCMSessionInfo.insertPacket_accepted
    selective decodeErrorMode m (f.media i hi) hroom
    (isDuplicate_of_not_present (f := f) (by rwa [hat])) hbounded
  rw [hinsert]
  dsimp only
  rw [VCMSessionInfo.withPackets_packets]
  have hcontents := insertInPlace_contents (s := s) m hi
  generalize hl : (s.insertInPlace (f.packet i) m).2.1 = l at *
  have hsorted : Sorted f l :=
    (h.sorted.insert hcount hi hnot none).congr hcontents
  have hsplit : s.front (f.packet i).seqNum ++ s.behind (f.packet i).seqNum =
      s.packets := List.rdropWhile_append_rtakeWhile
  have hpresent : ∀ j, Present f l j ↔ j = i ∨ Present f s.packets j := by
    intro j
    have hnew : f.position (SessionPacket.mk (f.packet i) none
        (f.packet i).sizeBytes).seqNum = i := hat
    rw [present_congr hcontents, ← hsplit, Present, Present]
    simp only [List.mem_append, List.mem_cons, or_and_right, exists_or,
      exists_eq_left, hnew, eq_comm (a := j)]
    exact or_left_comm
  have hlength : l.length = s.packets.length + 1 := by
    have hmap := congrArg List.length hcontents
    rw [List.length_map, List.length_map, List.length_append,
      List.length_cons] at hmap
    rw [← hsplit, List.length_append]
    omega
  have hfirst' : Known f l 0 t.firstPacketSeqNum := by
    rw [hfirst]
    exact h.first.insert (hpresent 0) Iff.rfl
  have hlast' : Known f l (f.count - 1) t.lastPacketSeqNum := by
    rw [hlast]
    have hknown := h.last.insert (k := i) (hpresent _) Iff.rfl
    rwa [if_congr (show i + 1 = f.count ↔ i = f.count - 1 by omega) rfl rfl]
  have hcompleted : (t.withPackets l).complete = true ↔
      ∀ j < f.count, Present f l j := by
    apply updateCompleteSession_complete hcount hsorted hfirst' hlast'
    intro hold j hj
    rw [hpresent]
    exact .inr (h.complete.mp (hcomplete.symm.trans hold) j hj)
  obtain ⟨complete, hwith⟩ := VCMSessionInfo.withPackets_eq (s := t) l
  rw [hwith] at hcompleted ⊢
  refine ⟨⟨hsorted, ?_, hfirst', hlast', htype, hcompleted, ?_, ?_⟩, hpresent⟩
  · exact hlength.trans_le (Nat.lt_of_le_of_ne h.length_le hroom)
  · intro j hj
    obtain rfl | hj := (hpresent j).mp hj
    · exact List.mem_cons_self
    · exact List.mem_cons_of_mem _ (h.arrived j hj)
  · intro j hj hlt
    obtain rfl | hj := List.mem_cons.mp hj
    · exact .inl ((hpresent j).mpr (.inl rfl))
    · have hold := (h.full j hj hlt).resolve_right hroom
      exact .inl ((hpresent j).mpr (.inr hold))

theorem Inv.outside (h : Inv f s offered) (hcount : f.count ≤ 2 ^ 15)
    {packet : VCMPacket} (hmedia : packet.frameType ≠ .kFrameEmpty)
    (hcodec : packet.codec = .kVideoCodecVP8)
    (hout : f.count ≤ f.position packet.seqNum)
    (hfirst : 0 ∈ offered) (hlast : f.count - 1 ∈ offered) :
    ∃ r < 0, s.insertPacket selective decodeErrorMode packet m = (s, m, r) := by
  have hpos := f.pos
  by_cases hrefused : s.packets.length = kMaxPacketsInSession ∨
      s.isDuplicate packet.seqNum = true
  · exact VCMSessionInfo.insertPacket_refused selective decodeErrorMode m hmedia
      hrefused
  rw [not_or, Bool.not_eq_true] at hrefused
  obtain ⟨hroom, hduplicate⟩ := hrefused
  have hfirst' := (h.full 0 hfirst hpos).resolve_right hroom
  have hlast' := (h.full _ hlast (by omega)).resolve_right hroom
  have hknown := (h.first.resolve_right fun h => h.2 hfirst').1
  have hknown' := (h.last.resolve_right fun h => h.2 hlast').1
  have hnewer := MediaFrame.outside (a := packet.seqNum) hcount
    (MediaFrame.position_seqNum hcount hpos)
    (MediaFrame.position_seqNum hcount
      (show f.count - 1 < f.count by omega)) hout
  have hbounded : s.updateBoundaries packet = (s, false) := by
    rw [VCMSessionInfo.updateBoundaries, if_neg (by rw [hcodec]; decide),
      VCMSessionInfo.updateFirst, hknown]
    by_cases hold : isNewerSequenceNumber packet.seqNum
        (f.packet 0).seqNum = true
    · have hnew := hnewer.resolve_left (by rw [hold]; exact Bool.noConfusion)
      have hupdate : s.updateLast packet = none := by
        rw [VCMSessionInfo.updateLast, hknown', VCMSessionInfo.newerThan,
          Option.any_some, hnew]
        simp
      rw [VCMSessionInfo.newerThan, Option.any_some, hold]
      simp [hupdate, h.frameType]
    · rw [Bool.not_eq_true] at hold
      rw [VCMSessionInfo.newerThan, Option.any_some, hold]
      simp
  exact ⟨-3, by decide, VCMSessionInfo.insertPacket_outside selective
    decodeErrorMode m hmedia hroom hduplicate hbounded⟩

/-! ## Runs -/

/-- What arrives: a packet of the frame, or a packet from outside. -/
inductive Event where
  | media (i : ℕ)
  | outside (packet : VCMPacket)

def Event.packet (f : MediaFrame) : Event → VCMPacket
  | .media i => f.packet i
  | .outside packet => packet

def Event.offer (offered : List ℕ) : Event → List ℕ
  | .media i => i :: offered
  | .outside _ => offered

/-- Packets of the frame arrive again only if they are not empty; media packets
from outside arrive after the boundary packets. -/
def Event.Allowed (f : MediaFrame) (offered : List ℕ) : Event → Prop
  | .media i => i < f.count ∧ (i ∈ offered → 0 < (f.packet i).sizeBytes)
  | .outside packet =>
    packet.frameType ≠ .kFrameEmpty ∧ packet.codec = .kVideoCodecVP8 ∧
      (∀ i < f.count, packet.seqNum ≠ (f.packet i).seqNum) ∧
      0 ∈ offered ∧ f.count - 1 ∈ offered

/-- The sessions that a run can lead to, with the packets of the frame that have
been offered.  The mode may differ from call to call. -/
inductive Reaches (f : MediaFrame) :
    VCMSessionInfo → FrameMemory → List ℕ → Prop where
  | new (m : FrameMemory) : Reaches f {} m []
  | step {s : VCMSessionInfo} {m : FrameMemory} {offered : List ℕ}
      (h : Reaches f s m offered) (e : Event) (he : e.Allowed f offered)
      (selective : VCMSessionInfo → Bool)
      (decodeErrorMode : VCMDecodeErrorMode) :
      Reaches f (s.insertPacket selective decodeErrorMode (e.packet f) m).1
        (s.insertPacket selective decodeErrorMode (e.packet f) m).2.1
        (e.offer offered)

theorem count_le_position (hcount : f.count ≤ 2 ^ 15) {seqNum : UInt16}
    (h : ∀ i < f.count, seqNum ≠ (f.packet i).seqNum) :
    f.count ≤ f.position seqNum := by
  by_contra hlt
  rw [Nat.not_le] at hlt
  exact h _ hlt (MediaFrame.position_inj
    (MediaFrame.position_seqNum hcount hlt).symm)

theorem Inv.refuse (h : Inv f s offered) (hcount : f.count ≤ 2 ^ 15)
    (hi : i < f.count)
    (hpresent : Present f s.packets i ∧ 0 < (f.packet i).sizeBytes ∨
      s.packets.length = kMaxPacketsInSession) :
    ∃ r < 0,
      s.insertPacket selective decodeErrorMode (f.packet i) m = (s, m, r) := by
  apply VCMSessionInfo.insertPacket_refused selective decodeErrorMode m
    (f.media i hi)
  obtain ⟨hpresent, hsize⟩ | hfull := hpresent
  · exact .inr (h.sorted.isDuplicate_of_present hcount hi hpresent hsize)
  · exact .inl hfull

theorem Inv.step (h : Inv f s offered) (hcount : f.count ≤ 2 ^ 15) (e : Event)
    (he : e.Allowed f offered) :
    Inv f (s.insertPacket selective decodeErrorMode (e.packet f) m).1
      (e.offer offered) := by
  cases e with
  | outside packet =>
    obtain ⟨hmedia, hcodec, hout, hfirst, hlast⟩ := he
    obtain ⟨r, -, hr⟩ := h.outside selective decodeErrorMode m hcount hmedia
      hcodec (count_le_position hcount hout) hfirst hlast
    rw [Event.packet, hr]
    exact h
  | media i =>
    obtain ⟨hi, hsize⟩ := he
    rw [Event.packet, Event.offer]
    by_cases hnew : ¬Present f s.packets i ∧
        s.packets.length ≠ kMaxPacketsInSession
    · exact (h.accept selective decodeErrorMode m hcount hi hnew.1 hnew.2).1
    · have hold : Present f s.packets i ∨
          s.packets.length = kMaxPacketsInSession := by
        tauto
      obtain ⟨r, -, hr⟩ := h.refuse selective decodeErrorMode m hcount hi
        (hold.imp_left fun hp => ⟨hp, hsize (h.arrived i hp)⟩)
      rw [hr]
      refine ⟨h.sorted, h.length_le, h.first, h.last, h.frameType,
        h.complete, ?_, ?_⟩
      · exact fun j hj => List.mem_cons_of_mem _ (h.arrived j hj)
      · intro j hj hlt
        obtain rfl | hj := List.mem_cons.mp hj
        · exact hold
        · exact h.full j hj hlt

theorem Reaches.inv (hcount : f.count ≤ 2 ^ 15)
    (h : Reaches f s m offered) : Inv f s offered := by
  induction h with
  | new m => exact inv_new f
  | step h e he selective decodeErrorMode ih =>
    exact ih.step selective decodeErrorMode _ hcount e he

theorem Sorted.present_of_full (h : Sorted f packets)
    (hcount : f.count ≤ packets.length) (hi : i < f.count) :
    Present f packets i := by
  have hnodup : (packets.map fun p => f.position p.seqNum).Nodup :=
    (List.pairwise_map.mpr h.pairwise).imp Nat.ne_of_lt
  have hsubset : (packets.map fun p => f.position p.seqNum).toFinset ⊆
      Finset.range f.count := by
    intro j hj
    rw [List.mem_toFinset, List.mem_map] at hj
    obtain ⟨p, hp, rfl⟩ := hj
    exact Finset.mem_range.mpr (h.lt_count p hp)
  have heq := Finset.eq_of_subset_of_card_le hsubset (by
    rw [Finset.card_range, List.toFinset_card_of_nodup hnodup, List.length_map]
    exact hcount)
  rw [present_iff_mem, ← List.mem_toFinset, heq, Finset.mem_range]
  exact hi

/-- A frame of at most `2 ^ 15` packets is complete exactly when all its packets
are in the session, which is in order.  Packets from outside and packets that
are there already change nothing; other packets are inserted while there is
room.  A frame for which there is room holds all packets that were offered. -/
theorem complete_iff_present (hcount : f.count ≤ 2 ^ 15)
    (h : Reaches f s m offered) :
    (s.complete = true ↔ ∀ i < f.count, Present f s.packets i) ∧
      Sorted f s.packets ∧
      (∀ packet, (Event.outside packet).Allowed f offered →
        (s.insertPacket selective decodeErrorMode packet m).1 = s) ∧
      (∀ i, (Event.media i).Allowed f offered →
        (Present f s.packets i →
          (s.insertPacket selective decodeErrorMode (f.packet i) m).1 = s) ∧
        (s.packets.length < kMaxPacketsInSession →
          Present f (s.insertPacket selective decodeErrorMode
            (f.packet i) m).1.packets i)) ∧
      (f.count ≤ kMaxPacketsInSession →
        ∀ i < f.count, Present f s.packets i ↔ i ∈ offered) := by
  have hinv := h.inv m hcount
  refine ⟨hinv.complete, hinv.sorted, ?_, ?_, ?_⟩
  · rintro packet ⟨hmedia, hcodec, hout, hfirst, hlast⟩
    obtain ⟨r, -, hr⟩ := hinv.outside selective decodeErrorMode m hcount hmedia
      hcodec (count_le_position hcount hout) hfirst hlast
    rw [hr]
  · rintro i ⟨hi, hsize⟩
    have hrefuse : Present f s.packets i →
        (s.insertPacket selective decodeErrorMode (f.packet i) m).1 = s := by
      intro hpresent
      obtain ⟨r, -, hr⟩ := hinv.refuse selective decodeErrorMode m hcount hi
        (.inl ⟨hpresent, hsize (hinv.arrived i hpresent)⟩)
      rw [hr]
    refine ⟨hrefuse, ?_⟩
    intro hroom
    by_cases hpresent : Present f s.packets i
    · rw [hrefuse hpresent]
      exact hpresent
    · exact ((hinv.accept selective decodeErrorMode m hcount hi hpresent
        hroom.ne).2 i).mpr (.inl rfl)
  · intro hmax i hi
    refine ⟨hinv.arrived i, fun hoffered => ?_⟩
    obtain hpresent | hfull := hinv.full i hoffered hi
    · exact hpresent
    · exact hinv.sorted.present_of_full (hmax.trans hfull.ge) hi

def plainFrame (first : UInt16) (count : ℕ) (hpos : 0 < count) :
    MediaFrame where
  first := first
  count := count
  packet i :=
    { seqNum := first + UInt16.ofNat i
      payload := ⟨fun _ => 0, 1⟩
      markerBit := decide (i + 1 = count)
      codec := .kVideoCodecVP8
      isFirstPacket := decide (i = 0) }
  pos := hpos
  seqNum _ _ := rfl
  isFirstPacket _ _ := rfl
  markerBit _ _ := rfl
  media _ _ := nofun
  codec _ _ := rfl
  plain _ _ := ⟨rfl, rfl⟩

/-- The session after packets of a frame in the order of the list. -/
def arrive (f : MediaFrame) :
    VCMSessionInfo × FrameMemory → List ℕ → VCMSessionInfo × FrameMemory
  | r, [] => r
  | r, i :: is =>
    let t := r.1.insertPacket (fun _ => false) .kNoErrors (f.packet i) r.2
    arrive f (t.1, t.2.1) is

theorem Reaches.arrive {r : VCMSessionInfo × FrameMemory} (is : List ℕ)
    (his : ∀ i ∈ is, i < f.count ∧ 0 < (f.packet i).sizeBytes)
    (h : Reaches f r.1 r.2 offered) :
    ∃ offered', Reaches f (arrive f r is).1 (arrive f r is).2 offered' ∧
      ∀ i, i ∈ is ∨ i ∈ offered → i ∈ offered' := by
  induction is generalizing r offered with
  | nil => exact ⟨offered, h, fun i hi => hi.resolve_left List.not_mem_nil⟩
  | cons i is ih =>
    obtain ⟨hi, hsize⟩ := his i List.mem_cons_self
    have hstep := h.step (.media i) ⟨hi, fun _ => hsize⟩ (fun _ => false)
      .kNoErrors
    obtain ⟨offered', hreaches, hmem⟩ := ih (r := (_, _))
      (fun j hj => his j (List.mem_cons_of_mem _ hj)) hstep
    refine ⟨offered', hreaches, ?_⟩
    rintro j (hj | hj)
    · obtain rfl | hj := List.mem_cons.mp hj
      · exact hmem j (.inr List.mem_cons_self)
      · exact hmem j (.inl hj)
    · exact hmem j (.inr (List.mem_cons_of_mem _ hj))

def noMemory : FrameMemory := ⟨0, 0, fun _ => 0, [], []⟩

/-- Two packets across the wrap, the last one first. -/
theorem complete_iff_present_wrapped :
    (arrive (plainFrame 65535 2 (by decide)) ({}, noMemory) [1, 0]).1.complete =
      true := by
  obtain ⟨offered, hreaches, hmem⟩ := Reaches.arrive
    (f := plainFrame 65535 2 (by decide)) (r := ({}, noMemory)) [1, 0]
    (by decide) (.new noMemory)
  have hiff := complete_iff_present (fun _ => false) .kNoErrors _
    (show (plainFrame 65535 2 (by decide)).count ≤ 2 ^ 15 by decide) hreaches
  refine hiff.1.mpr fun i hi => (hiff.2.2.2.2 (by decide) i hi).mpr ?_
  have hi' : i < 2 := hi
  refine hmem i (.inl ?_)
  rw [List.mem_cons, List.mem_singleton]
  omega

/-- In a frame of 40000 packets a packet that arrives again can be inserted
again. -/
theorem not_forall_nodup :
    ¬∀ f s m offered, Reaches f s m offered →
      (s.packets.map SessionPacket.seqNum).Nodup := by
  intro h
  obtain ⟨offered, hreaches, -⟩ := Reaches.arrive
    (f := plainFrame 0 40000 (by decide)) (r := ({}, noMemory))
    [20000, 39998, 0, 20000] (by decide) (.new noMemory)
  have hpackets : (arrive (plainFrame 0 40000 (by decide)) ({}, noMemory)
      [20000, 39998, 0, 20000]).1.packets.map SessionPacket.seqNum =
        [20000, 39998, 0, 20000] := by
    decide
  have hnodup := h _ _ _ _ hreaches
  rw [hpackets] at hnodup
  exact absurd hnodup (by decide)

end WebrtcWinXp.VideoCoding
