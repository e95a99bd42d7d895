import WebrtcWinXp.Support.Transition
import WebrtcWinXp.Fec.Decoder
import WebrtcWinXp.Fec.EncodesXor

/-!
# What is recovered is what was sent

A stored FEC packet is an equation between the media packets that it protects.
When all of them but one are known, the exclusive or of the FEC packet and the
known ones is the missing one.
-/

namespace WebrtcWinXp.Fec

open Support

/-- The packets have the same length and the same bytes up to it. -/
def SameBytes (p q : Packet) : Prop :=
  p.length = q.length ∧ ∀ i < q.length, p.data i = q.data i

/-- `p` is the media packet with the sequence number. -/
def Original (media : List Packet) (seqNum : UInt16) (p : Packet) : Prop :=
  ∃ m ∈ media, m.seqNum = seqNum ∧ SameBytes p m

/-- RTP packets of one source: version 2, one SSRC, different sequence
numbers. -/
structure RtpMedia (media : List Packet) (ssrc : UInt32) : Prop where
  version : ∀ p ∈ media, bit (p.data 0) 7 ∧ bit (p.data 0) 6 = false
  ssrc : ∀ p ∈ media, ∀ i, 8 ≤ i → i < 12 →
    p.data i = assignUWord32 (fun _ => 0) 8 ssrc i
  header : ∀ p ∈ media, kRtpHeaderSize ≤ p.length
  length_le : ∀ p ∈ media, p.length ≤ IP_PACKET_SIZE
  distinct : (media.map Packet.seqNum).Nodup

/-- A FEC packet that is the exclusive or that it announces, and announces
packets that exist. -/
structure Decodable (media : List Packet) (fec : Packet) : Prop extends
    EncodesXor media fec where
  exists_packet : ∀ c < 8 * maskSize fec.lBit, maskBit fec.data 12 c →
    ∃ p ∈ media, offset fec.snBase p = c

/-! ## Combining packets -/

/-- What a media packet adds to a byte of a packet that is recovered. -/
def mediaByte (p : Packet) (i : ℕ) : UInt8 :=
  if i < 2 ∨ 4 ≤ i ∧ i < 8 then p.data i
  else if kRtpHeaderSize ≤ i then payloadByte p (i - kRtpHeaderSize)
  else 0

theorem xorPackets_data (p : Packet) (r : Recovery) (i : ℕ) :
    (xorPackets p r).data i = r.data i ^^^ mediaByte p i := by
  unfold xorPackets mediaByte payloadByte kRtpHeaderSize
  simp only [xorInto_apply]
  by_cases h2 : i < 2
  · rw [if_pos (by omega), if_neg (by omega), if_neg (by omega),
      if_pos (Or.inl h2), Nat.sub_zero]
    simp
  rw [if_neg (by omega)]
  by_cases h4 : 4 ≤ i ∧ i < 8
  · rw [if_pos (by omega), if_neg (by omega), if_pos (Or.inr h4),
      Nat.add_sub_cancel' h4.1]
    simp
  rw [if_neg (by omega), if_neg (show ¬(i < 2 ∨ 4 ≤ i ∧ i < 8) by omega)]
  by_cases h12 : 12 ≤ i
  · rw [if_pos h12]
    by_cases hlen : i - 12 < p.length - 12
    · rw [if_pos (by omega), if_pos hlen]
      simp
    · rw [if_neg (by omega), if_neg hlen]
      simp
  · rw [if_neg (by omega), if_neg h12]
    simp

theorem payloadByte_congr {p q : Packet} (h : SameBytes p q)
    (hq : kRtpHeaderSize ≤ q.length) (j : ℕ) :
    payloadByte p j = payloadByte q j := by
  unfold payloadByte
  rw [h.1]
  split
  · exact h.2 _ (by omega)
  · rfl

theorem mediaByte_congr {p q : Packet} (h : SameBytes p q)
    (hq : kRtpHeaderSize ≤ q.length) (i : ℕ) :
    mediaByte p i = mediaByte q i := by
  have hlen : 12 ≤ q.length := hq
  unfold mediaByte
  rw [payloadByte_congr h hq]
  split
  · exact h.2 i (by omega)
  · rfl

/-- A byte of a recovery, and what a media packet adds to it. -/
structure Channel where
  read : Recovery → UInt8
  byte : Packet → UInt8
  read_xorPackets : ∀ p r, read (xorPackets p r) = read r ^^^ byte p
  byte_congr : ∀ p q, SameBytes p q → kRtpHeaderSize ≤ q.length →
    byte p = byte q

def dataChannel (i : ℕ) : Channel where
  read r := r.data i
  byte p := mediaByte p i
  read_xorPackets p r := xorPackets_data p r i
  byte_congr _ _ h hq := mediaByte_congr h hq i

/-- Its first byte without the bits that a FEC packet has for itself. -/
def firstByteChannel : Channel where
  read r := r.data 0 &&& 0x3f
  byte p := mediaByte p 0 &&& 0x3f
  read_xorPackets p r := by rw [xorPackets_data, xor_and]
  byte_congr _ _ h hq := by rw [mediaByte_congr h hq]

def lengthHighChannel : Channel where
  read r := r.lengthRecovery 0
  byte p := highByte (mediaPayloadLength p)
  read_xorPackets _ _ := rfl
  byte_congr _ _ h _ := by rw [mediaPayloadLength, mediaPayloadLength, h.1]

def lengthLowChannel : Channel where
  read r := r.lengthRecovery 1
  byte p := lowByte (mediaPayloadLength p)
  read_xorPackets _ _ := rfl
  byte_congr _ _ h _ := by rw [mediaPayloadLength, mediaPayloadLength, h.1]

section Solve

variable {orig : UInt16 → Packet} {l l₁ l₂ : List ProtectedPacket}
  {r : Recovery} {seqNum : UInt16}

def AllKnown (orig : UInt16 → Packet) (l : List ProtectedPacket) : Prop :=
  ∀ p ∈ l, ∃ q, p.pkt = some q ∧ SameBytes q (orig p.seqNum) ∧
    kRtpHeaderSize ≤ (orig p.seqNum).length

variable (r seqNum) in
theorem foldl_recoverStep (hl : AllKnown orig l) (c : Channel) :
    c.read (l.foldl recoverStep (r, seqNum)).1 =
        c.read r ^^^ xorAll (l.map fun p => c.byte (orig p.seqNum)) ∧
      (l.foldl recoverStep (r, seqNum)).2 = seqNum := by
  induction l generalizing r with
  | nil => exact ⟨UInt8.xor_zero.symm, rfl⟩
  | cons p l ih =>
    obtain ⟨q, hq, hsame, hheader⟩ := hl p List.mem_cons_self
    have hstep : recoverStep (r, seqNum) p = (xorPackets q r, seqNum) := by
      rw [recoverStep, hq]
    obtain ⟨hread, hseq⟩ := ih (r := xorPackets q r)
      fun p hp => hl p (List.mem_cons_of_mem _ hp)
    rw [List.foldl_cons, hstep]
    refine ⟨?_, hseq⟩
    rw [hread, c.read_xorPackets, c.byte_congr q _ hsame hheader,
      List.map_cons, xorAll_cons, UInt8.xor_assoc]

/-- The missing packet of a list is what remains when the known ones are
combined with the exclusive or of all. -/
theorem foldl_recoverStep_missing {p : ProtectedPacket} (hp : p.pkt = none)
    (h₁ : AllKnown orig l₁) (h₂ : AllKnown orig l₂) (c : Channel)
    (hr : c.read r =
      xorAll ((l₁ ++ p :: l₂).map fun p => c.byte (orig p.seqNum))) :
    c.read ((l₁ ++ p :: l₂).foldl recoverStep (r, seqNum)).1 =
        c.byte (orig p.seqNum) ∧
      ((l₁ ++ p :: l₂).foldl recoverStep (r, seqNum)).2 = p.seqNum := by
  have hstep : ∀ r : Recovery, recoverStep (r, seqNum) p = (r, p.seqNum) := by
    intro r
    rw [recoverStep, hp]
  obtain ⟨hread₁, hseq₁⟩ := foldl_recoverStep r seqNum h₁ c
  have hpair : l₁.foldl recoverStep (r, seqNum) =
      ((l₁.foldl recoverStep (r, seqNum)).1, seqNum) :=
    Prod.ext rfl hseq₁
  obtain ⟨hread₂, hseq₂⟩ := foldl_recoverStep
    (l₁.foldl recoverStep (r, seqNum)).1 p.seqNum h₂ c
  rw [List.foldl_append, List.foldl_cons, hpair, hstep]
  refine ⟨?_, hseq₂⟩
  rw [hread₂, hread₁, hr, List.map_append, List.map_cons, UInt8.xor_assoc,
    ← xorAll_append]
  exact xorAll_missing _ _ _

theorem exists_missing
    (h : (l.countP fun p => p.pkt.isNone) = 1) :
    ∃ l₁ p l₂, l = l₁ ++ p :: l₂ ∧ p.pkt = none ∧
      (∀ q ∈ l₁, q.pkt ≠ none) ∧ ∀ q ∈ l₂, q.pkt ≠ none := by
  have hpos : 0 < l.countP fun p => p.pkt.isNone := by omega
  obtain ⟨p, hp, hnone⟩ := List.countP_pos_iff.mp hpos
  obtain ⟨l₁, l₂, rfl⟩ := List.append_of_mem hp
  have hcons : ((p :: l₂).countP fun p => p.pkt.isNone) =
      (l₂.countP fun p => p.pkt.isNone) + 1 := List.countP_cons_of_pos hnone
  rw [List.countP_append, hcons] at h
  have hzero : ∀ l : List ProtectedPacket,
      (l.countP fun p => p.pkt.isNone) = 0 → ∀ q ∈ l, q.pkt ≠ none := by
    intro l hl q hq hnone
    exact List.countP_eq_zero.mp hl q hq (by rw [hnone]; rfl)
  exact ⟨l₁, p, l₂, rfl, Option.isNone_iff_eq_none.mp hnone,
    hzero l₁ (by omega), hzero l₂ (by omega)⟩

end Solve

/-- A stored FEC packet: it protects what its mask announces, and what it knows
is right. -/
structure Stored (media : List Packet) (ssrc : UInt32) (fec : FecPacket) :
    Prop where
  decodable : Decodable media fec.pkt
  ssrc : fec.ssrc = ssrc
  seqNums : fec.protectedPktList.map ProtectedPacket.seqNum =
    (protectedBy fec.pkt).map ProtectedPacket.seqNum
  known : ∀ p ∈ fec.protectedPktList, ∀ q, p.pkt = some q →
    Original media p.seqNum q

def lookup (media : List Packet) (seqNum : UInt16) : Packet :=
  (media.find? fun m => m.seqNum = seqNum).getD clearedPacket

section Lookup

variable {media : List Packet} {ssrc : UInt32} {fec : Packet}

theorem lookup_seqNum (h : (media.map Packet.seqNum).Nodup) {m : Packet}
    (hm : m ∈ media) : lookup media m.seqNum = m := by
  have hinj := List.inj_on_of_nodup_map h
  have hsome : (media.find? fun p => p.seqNum = m.seqNum).isSome :=
    List.find?_isSome.mpr ⟨m, hm, decide_eq_true rfl⟩
  obtain ⟨p, hp⟩ := Option.isSome_iff_exists.mp hsome
  have hseq := List.find?_some hp
  rw [lookup, hp, Option.getD_some]
  exact hinj (List.mem_of_find?_eq_some hp) hm (of_decide_eq_true hseq)

theorem seqNum_of_mem_protectedBy {x : UInt16} :
    x ∈ (protectedBy fec).map ProtectedPacket.seqNum ↔
      ∃ i < 8 * maskSize fec.lBit, maskBit fec.data 12 i ∧
        x = fec.snBase + UInt16.ofNat i := by
  simp only [protectedBy, List.map_map, List.mem_map, List.mem_filter,
    List.mem_range, Function.comp]
  constructor
  · rintro ⟨i, ⟨hi, hset⟩, rfl⟩
    exact ⟨i, hi, hset, rfl⟩
  · rintro ⟨i, hi, hset, rfl⟩
    exact ⟨i, ⟨hi, hset⟩, rfl⟩

theorem maskSize_le (lBit : Bool) : maskSize lBit ≤ 6 := by
  cases lBit <;> decide

theorem nodup_protectedBy :
    ((protectedBy fec).map ProtectedPacket.seqNum).Nodup := by
  have hle := maskSize_le fec.lBit
  rw [protectedBy, List.map_map]
  refine (List.nodup_range.filter _).map_on ?_
  intro i hi j hj heq
  rw [List.mem_filter, List.mem_range] at hi hj
  change i < 8 * maskSize fec.lBit ∧ _ at hi
  change j < 8 * maskSize fec.lBit ∧ _ at hj
  have hcancel : UInt16.ofNat i = UInt16.ofNat j := add_left_cancel heq
  have hnat := congrArg UInt16.toNat hcancel
  rw [UInt16.toNat_ofNat_of_lt' (by change _ < 65536; omega),
    UInt16.toNat_ofNat_of_lt' (by change _ < 65536; omega)] at hnat
  exact hnat

theorem protectedBy_perm (hfec : Decodable media fec)
    (h : (media.map Packet.seqNum).Nodup) :
    ((protectedBy fec).map ProtectedPacket.seqNum).Perm
      ((media.filter fec.announces).map Packet.seqNum) := by
  have hle := maskSize_le fec.lBit
  have hseq : ∀ m : Packet,
      m.seqNum = fec.snBase + UInt16.ofNat (offset fec.snBase m) := by
    intro m
    rw [offset, UInt16.ofNat_toNat, add_sub_cancel]
  rw [List.perm_ext_iff_of_nodup nodup_protectedBy
    (h.sublist (List.filter_sublist.map _))]
  intro x
  rw [seqNum_of_mem_protectedBy, List.mem_map]
  constructor
  · rintro ⟨i, hi, hset, rfl⟩
    obtain ⟨m, hm, rfl⟩ := hfec.exists_packet i hi hset
    refine ⟨m, List.mem_filter.mpr ⟨hm, ?_⟩, hseq m⟩
    rw [Packet.announces, decide_eq_true hi, hset]
    rfl
  · rintro ⟨m, hm, rfl⟩
    have hannounces := (List.mem_filter.mp hm).2
    rw [Packet.announces, Bool.and_eq_true, decide_eq_true_eq] at hannounces
    exact ⟨offset fec.snBase m, hannounces.1, hannounces.2, hseq m⟩

theorem xorAll_protected (hfec : Decodable media fec)
    (h : (media.map Packet.seqNum).Nodup) {l : List ProtectedPacket}
    (hl : l.map ProtectedPacket.seqNum =
      (protectedBy fec).map ProtectedPacket.seqNum) (byte : Packet → UInt8) :
    xorAll ((media.filter fec.announces).map byte) =
      xorAll (l.map fun p => byte (lookup media p.seqNum)) := by
  have hperm := (protectedBy_perm hfec h).map fun x => byte (lookup media x)
  rw [← hl, List.map_map, List.map_map] at hperm
  have heq : (media.filter fec.announces).map byte =
      (media.filter fec.announces).map
        ((fun x => byte (lookup media x)) ∘ Packet.seqNum) := by
    refine List.map_congr_left fun m hm => ?_
    rw [Function.comp, lookup_seqNum h (List.mem_filter.mp hm).1]
  rw [heq]
  exact (xorAll_perm hperm).symm

end Lookup

/-! ## Recovery -/

section Recovery

variable {media : List Packet} {ssrc : UInt32} {fec : FecPacket}

/-- The bytes that a recovery starts with, for a FEC packet that is the
exclusive or that it announces. -/
theorem initRecovery_data (h : EncodesXor media fec.pkt) {i : ℕ}
    (hi : i = 1 ∨ 4 ≤ i ∧ i < 8 ∨
      12 ≤ i ∧ i < 12 + fec.pkt.protectionLength) :
    (initRecovery fec).data i =
      xorAll ((media.filter fec.pkt.announces).map fun p => mediaByte p i) := by
  unfold initRecovery kRtpHeaderSize
  simp only [assignUWord32, memcpy]
  rw [if_neg (by omega), if_neg (by omega), if_neg (by omega),
    if_neg (by omega)]
  rcases hi with rfl | hi | hi
  · rw [if_neg (by omega), if_pos (by omega)]
    exact h.second_byte
  · rw [if_pos (by omega), Nat.add_sub_cancel' hi.1, h.timestamp i hi.1 hi.2]
    congr 2
    funext p
    exact (if_pos (Or.inr hi)).symm
  · have hpayload := h.payload (i - 12) (by omega)
    rw [if_neg (by omega), if_neg (by omega)]
    refine (if_pos hi).trans (hpayload.trans ?_)
    congr 2
    funext p
    rw [mediaByte, if_neg (by omega)]
    exact (if_pos hi.1).symm

theorem initRecovery_first_byte (h : EncodesXor media fec.pkt) :
    (initRecovery fec).data 0 &&& 0x3f =
      xorAll ((media.filter fec.pkt.announces).map fun p =>
        mediaByte p 0 &&& 0x3f) := by
  have hdata : (initRecovery fec).data 0 = fec.pkt.data 0 := by
    unfold initRecovery kRtpHeaderSize
    simp only [assignUWord32, memcpy]
    rfl
  rw [← xorAll_and, hdata]
  have hlow : ∀ i < 8, 6 ≤ i → bit 0x3f i = false := by decide
  apply eq_of_bit
  intro i hi
  rw [bit_and, bit_and]
  by_cases h6 : i < 6
  · rw [h.first_byte i h6]
    rfl
  · rw [hlow i hi (by omega), Bool.and_false, Bool.and_false]

theorem initRecovery_ssrc (fec : FecPacket) {i : ℕ} (h8 : 8 ≤ i)
    (h12 : i < 12) :
    (initRecovery fec).data i =
      assignUWord32 (fun _ => 0) 8 fec.ssrc i := by
  unfold initRecovery kRtpHeaderSize
  simp only [assignUWord32, memcpy]
  rw [if_neg (show ¬(4 ≤ i ∧ i < 4 + 4) by omega),
    if_neg (show ¬(0 ≤ i ∧ i < 0 + 2) by omega),
    if_neg (show ¬(12 ≤ i ∧ i < 12 + _) by omega)]

theorem foldl_recoverStep_data {i : ℕ} (h : ∀ p, mediaByte p i = 0)
    (l : List ProtectedPacket) (s : Recovery × UInt16) :
    (l.foldl recoverStep s).1.data i = s.1.data i := by
  induction l generalizing s with
  | nil => rfl
  | cons p l ih =>
    rw [List.foldl_cons, ih, recoverStep]
    split
    · rfl
    · rw [xorPackets_data, h, UInt8.xor_zero]

theorem finishRecovery_data (seqNum : UInt16) (r : Recovery) {i : ℕ}
    (h0 : i ≠ 0) (h2 : i ≠ 2) (h3 : i ≠ 3) :
    (finishRecovery seqNum r).pkt.data i = r.data i := by
  simp only [finishRecovery, assignUWord16]
  rw [if_neg h2, if_neg h3, Function.update_of_ne h0]

theorem finishRecovery_first_byte {seqNum : UInt16} {r : Recovery} {x : UInt8}
    (h : r.data 0 &&& 0x3f = x &&& 0x3f) (h7 : bit x 7) (h6 : bit x 6 = false) :
    (finishRecovery seqNum r).pkt.data 0 = x := by
  have hdata : (finishRecovery seqNum r).pkt.data 0 =
      (r.data 0 ||| 0x80) &&& 0xbf := by
    simp only [finishRecovery, assignUWord16]
    rw [if_neg (by omega), if_neg (by omega), Function.update_self]
  have hmask : ∀ i < 6, bit 0x3f i ∧ bit 0x80 i = false ∧ bit 0xbf i := by
    decide
  rw [hdata]
  apply eq_of_bit
  intro i hi
  rw [bit_and, bit_or]
  by_cases hlow : i < 6
  · obtain ⟨h3f, h80, hbf⟩ := hmask i hlow
    have hbit := congrArg (fun y => bit y i) h
    rw [bit_and, bit_and, h3f, Bool.and_true, Bool.and_true] at hbit
    rw [hbit, h80, hbf, Bool.or_false, Bool.and_true]
  · rcases show i = 6 ∨ i = 7 by omega with rfl | rfl
    · rw [h6]
      exact Bool.and_false _
    · rw [h7]
      exact (Bool.and_true _).trans (Bool.or_true _)

theorem recoverPacket_original (hmedia : RtpMedia media ssrc)
    (hfec : Stored media ssrc fec) (h : numCoveredPacketsMissing fec = 1) :
    Original media (recoverPacket fec).seqNum (recoverPacket fec).pkt := by
  obtain ⟨l₁, p, l₂, hl, hp, h₁, h₂⟩ :=
    exists_missing (l := fec.protectedPktList) (by
      unfold numCoveredPacketsMissing at h
      omega)
  have hencodes := hfec.decodable.toEncodesXor
  have hknown : ∀ l, (∀ q ∈ l, q ∈ fec.protectedPktList) →
      (∀ q ∈ l, q.pkt ≠ none) → AllKnown (lookup media) l := by
    intro l hsub hl q hq
    obtain ⟨pkt, hpkt⟩ := Option.ne_none_iff_exists'.mp (hl q hq)
    obtain ⟨m, hm, hseq, hsame⟩ := hfec.known q (hsub q hq) pkt hpkt
    rw [← hseq, lookup_seqNum hmedia.distinct hm]
    exact ⟨pkt, hpkt, hsame, hmedia.header m hm⟩
  have hknown₁ := hknown l₁
    (fun q hq => hl ▸ List.mem_append_left _ hq) h₁
  have hknown₂ := hknown l₂
    (fun q hq => hl ▸ List.mem_append_right _ (List.mem_cons_of_mem _ hq)) h₂
  have hsolve : ∀ c : Channel, c.read (initRecovery fec) =
      xorAll ((media.filter fec.pkt.announces).map c.byte) →
      c.read (fec.protectedPktList.foldl recoverStep
        (initRecovery fec, 0)).1 = c.byte (lookup media p.seqNum) ∧
      (fec.protectedPktList.foldl recoverStep (initRecovery fec, 0)).2 =
        p.seqNum := by
    intro c hc
    rw [xorAll_protected hfec.decodable hmedia.distinct hfec.seqNums] at hc
    rw [hl] at hc ⊢
    exact foldl_recoverStep_missing hp hknown₁ hknown₂ c hc
  -- The missing packet is one of those that the mask announces.
  have hmem : p.seqNum ∈ (media.filter fec.pkt.announces).map Packet.seqNum := by
    refine (protectedBy_perm hfec.decodable hmedia.distinct).mem_iff.mp ?_
    rw [← hfec.seqNums, hl]
    exact List.mem_map_of_mem (List.mem_append_right _ List.mem_cons_self)
  obtain ⟨m, hannounced, hseq⟩ := List.mem_map.mp hmem
  have hm := (List.mem_filter.mp hannounced).1
  rw [← hseq, lookup_seqNum hmedia.distinct hm] at hsolve
  have hlong := hencodes.protection_length.1 m hannounced
  have hheader : 12 ≤ m.length := hmedia.header m hm
  have hmax : m.length ≤ 1500 := hmedia.length_le m hm
  unfold kRtpHeaderSize at hlong
  have hbyte : ∀ i, i = 1 ∨ 4 ≤ i ∧ i < 8 ∨
      12 ≤ i ∧ i < 12 + fec.pkt.protectionLength →
      (fec.protectedPktList.foldl recoverStep
        (initRecovery fec, 0)).1.data i = mediaByte m i :=
    fun i hi => (hsolve (dataChannel i) (initRecovery_data hencodes hi)).1
  have hrecovered : (recoverPacket fec).seqNum = m.seqNum :=
    (hsolve firstByteChannel (initRecovery_first_byte hencodes)).2
  refine ⟨m, hm, hrecovered.symm, ?_, ?_⟩
  · have hhigh := (hsolve lengthHighChannel hencodes.length_high).1
    have hlow := (hsolve lengthLowChannel hencodes.length_low).1
    change (word16 (lengthHighChannel.read _) (lengthLowChannel.read _) +
      UInt16.ofNat kRtpHeaderSize).toNat = _
    rw [hhigh, hlow]
    change (word16 (highByte (mediaPayloadLength m))
      (lowByte (mediaPayloadLength m)) + _).toNat = _
    rw [word16_bytes, mediaPayloadLength, sub_add_cancel,
      UInt16.toNat_ofNat_of_lt' (by change _ < 65536; omega)]
  · intro i hi
    by_cases h0 : i = 0
    · subst h0
      have hversion := hmedia.version m hm
      exact finishRecovery_first_byte
        (hsolve firstByteChannel (initRecovery_first_byte hencodes)).1
        hversion.1 hversion.2
    by_cases h2 : i = 2
    · subst h2
      change highByte (recoverPacket fec).seqNum = _
      rw [hrecovered]
      exact highByte_word16 _ _
    by_cases h3 : i = 3
    · subst h3
      change lowByte (recoverPacket fec).seqNum = _
      rw [hrecovered]
      exact lowByte_word16 _ _
    rw [recoverPacket, finishRecovery_data _ _ h0 h2 h3]
    by_cases hssrc : 8 ≤ i ∧ i < 12
    · rw [foldl_recoverStep_data, initRecovery_ssrc _ hssrc.1 hssrc.2,
        hfec.ssrc, hmedia.ssrc m hm i hssrc.1 hssrc.2]
      intro p
      rw [mediaByte, if_neg (by omega)]
      exact if_neg (show ¬12 ≤ i by omega)
    · rw [hbyte i (by omega), mediaByte]
      by_cases h8 : i < 8
      · rw [if_pos (by omega)]
      · rw [if_neg (by omega)]
        refine (if_pos (show 12 ≤ i by omega)).trans ?_
        rw [payloadByte]
        refine (if_pos (show i - 12 < m.length - 12 by omega)).trans ?_
        exact congrArg m.data (show 12 + (i - 12) = i by omega)

end Recovery

end WebrtcWinXp.Fec
