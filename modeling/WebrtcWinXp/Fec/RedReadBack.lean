import WebrtcWinXp.Fec.Unpacking

/-!
# Unpacking what was built

A RED packet that `BuildRedPacket` made of a media packet is unpacked to this
media packet again.
-/

namespace WebrtcWinXp.Fec

open Support

theorem uint8_split (b : UInt8) : (b &&& 0x80) + (b &&& 0x7f) = b := by
  revert b
  refine forall_uint8 ?_
  decide +kernel

theorem uint8_top (b : UInt8) : b &&& 0x80 = 0 ∨ b &&& 0x80 = 0x80 := by
  revert b
  refine forall_uint8 ?_
  decide +kernel

theorem uint8_top_add (b : UInt8) :
    (0x80 + b) &&& 0x80 = 0x80 ↔ b &&& 0x80 = 0 := by
  revert b
  refine forall_uint8 ?_
  decide +kernel

theorem marker_restored_iff (b r : UInt8) :
    ((((b &&& 0x80) + r) &&& 0x80) + (b &&& 0x7f) = b) ↔ r &&& 0x80 = 0 := by
  have hcancel : ((((b &&& 0x80) + r) &&& 0x80) + (b &&& 0x7f) = b) ↔
      ((b &&& 0x80) + r) &&& 0x80 = b &&& 0x80 := by
    conv_lhs => rhs; rw [← uint8_split b]
    exact UInt8.add_left_inj _
  rw [hcancel]
  rcases uint8_top b with htop | htop
  · rw [htop, UInt8.zero_add]
  · rw [htop]
    exact uint8_top_add r

/-! ## What was built -/

namespace MediaPacket

variable (m : MediaPacket)

/-- A RED packet that was built for a media packet, as it is received. -/
def received (redPlType : UInt8) (beyond : ℕ → UInt8) (header : Rtp.RTPHeader)
    (h : header.headerLength.toNat = m.rtpHeader.length) : ReceivedRtp where
  packet := .ofList (m.buildRedPacket redPlType) beyond
  header := header
  minimum := by
    rw [h]
    exact m.minimum
  fits := by
    show _ ≤ (m.buildRedPacket redPlType).length
    unfold buildRedPacket
    rw [h, List.length_append, List.length_set]
    exact Nat.le_add_right _ _

/-- Unpacking queues the media packet, and nothing else. -/
def GivenBack (p : ReceivedRtp) (ulpfecPayloadType : UInt8) : Prop :=
  (p.addReceivedRedPacket ulpfecPayloadType).Meets p.Inside fun o =>
    ∃ q, o = some [q] ∧ q.isFec = false ∧ q.bytes = m.bytes

section Received

variable {m} {redPlType : UInt8} {beyond : ℕ → UInt8}
  {header : Rtp.RTPHeader}
  {h : header.headerLength.toNat = m.rtpHeader.length}

theorem headerLength_received :
    (m.received redPlType beyond header h).headerLength =
      m.rtpHeader.length := h

theorem payloadLength_received :
    (m.received redPlType beyond header h).payloadLength =
      m.payload.length + 1 := by
  unfold ReceivedRtp.payloadLength
  rw [headerLength_received]
  show (m.buildRedPacket redPlType).length - _ = _
  unfold buildRedPacket
  rw [List.length_append, List.length_set, Nat.add_sub_cancel_left,
    List.length_cons]

theorem read_header_received :
    (m.received redPlType beyond header h).packet.read
        ⟨0, m.rtpHeader.length⟩ =
      m.rtpHeader.set 1 ((m.rtpHeader.getD 1 0 &&& 0x80) + redPlType) :=
  Buffer.read_ofList_head List.length_set

theorem read_payload_received :
    (m.received redPlType beyond header h).packet.read
        ⟨m.rtpHeader.length + 1, m.payload.length⟩ = m.payload := by
  have hbytes : m.buildRedPacket redPlType =
      (m.rtpHeader.set 1 ((m.rtpHeader.getD 1 0 &&& 0x80) + redPlType) ++
        [m.payloadType]) ++ (m.payload ++ []) := by
    rw [List.append_nil, List.append_assoc]
    rfl
  show (Buffer.ofList (m.buildRedPacket redPlType) beyond).read _ = _
  rw [hbytes]
  exact Buffer.read_ofList_append (by
    rw [List.length_append, List.length_set]
    rfl) rfl

theorem byte_one_received :
    (m.received redPlType beyond header h).packet.byte 1 =
      (m.rtpHeader.getD 1 0 &&& 0x80) + redPlType := by
  have hlength : 1 < m.rtpHeader.length :=
    Nat.lt_of_lt_of_le (by decide) m.minimum
  show (m.buildRedPacket redPlType).getD 1 (beyond 1) = _
  unfold buildRedPacket
  rw [List.getD_eq_getElem?_getD, List.getElem?_append_left (by
    rw [List.length_set]
    exact hlength), List.getElem?_set_self hlength]
  rfl

theorem byte_red_received :
    (m.received redPlType beyond header h).packet.byte m.rtpHeader.length =
      m.payloadType := by
  show (m.buildRedPacket redPlType).getD _ _ = _
  unfold buildRedPacket
  rw [List.getD_eq_getElem?_getD, List.getElem?_append_right (by
    rw [List.length_set]), List.length_set, Nat.sub_self]
  rfl

theorem followed_received :
    (m.received redPlType beyond header h).followed = false := by
  unfold ReceivedRtp.followed
  rw [headerLength_received, byte_red_received]
  unfold payloadType
  rw [UInt8.and_assoc]
  exact bne_eq_false_iff_eq.mpr UInt8.and_zero

theorem firstType_received :
    (m.received redPlType beyond header h).firstType = m.payloadType := by
  unfold ReceivedRtp.firstType
  rw [headerLength_received, byte_red_received]
  unfold payloadType
  rw [UInt8.and_assoc]
  rfl

/-- The header with the type of the media packet is its header again, if the
marker bit was not touched. -/
theorem headerWith_received_iff :
    (m.received redPlType beyond header h).headerWith m.payloadType =
        m.rtpHeader ↔ redPlType &&& 0x80 = 0 := by
  have hlength : 1 < m.rtpHeader.length :=
    Nat.lt_of_lt_of_le (by decide) m.minimum
  unfold ReceivedRtp.headerWith
  rw [headerLength_received, read_header_received, byte_one_received,
    List.set_set]
  unfold payloadType
  rw [← marker_restored_iff (m.rtpHeader.getD 1 0) redPlType]
  have hone : m.rtpHeader.getD 1 0 = m.rtpHeader[1] := by
    rw [List.getD_eq_getElem?_getD, List.getElem?_eq_getElem hlength]
    rfl
  constructor
  · intro hset
    have hat := congrArg (fun l => l.getD 1 0) hset
    rw [List.getD_eq_getElem?_getD, List.getElem?_set_self hlength] at hat
    exact hat
  · intro hat
    rw [hat, hone, List.set_getElem_self]

theorem queuedMedia_bytes_iff
    (hlength : (m.received redPlType beyond header h).payloadDataLength =
      m.payload.length + 1) :
    ((m.received redPlType beyond header h).queuedMedia m.payloadType
        1).bytes = m.bytes ↔ redPlType &&& 0x80 = 0 := by
  have hread := (m.received redPlType beyond header h).read_mediaData
    m.payloadType ⟨m.rtpHeader.length + 1, m.payload.length⟩
    (m.rtpHeader.length + m.payload.length)
  rw [headerLength_received, read_payload_received] at hread
  have hbytes : ((m.received redPlType beyond header h).queuedMedia
      m.payloadType 1).bytes =
        (m.received redPlType beyond header h).headerWith m.payloadType ++
          m.payload := by
    unfold Queued.bytes ReceivedRtp.queuedMedia
    rw [headerLength_received, hlength, Nat.add_sub_cancel]
    exact hread
  rw [hbytes, bytes, List.append_left_inj]
  exact headerWith_received_iff

/-- A built packet is given back when its type is not the one of FEC, the RED
payload type leaves the marker bit, and the packet is not too long. -/
theorem givenBack_iff {ulpfecPayloadType : UInt8} :
    m.GivenBack (m.received redPlType beyond header h) ulpfecPayloadType ↔
      m.payloadType ≠ ulpfecPayloadType ∧ redPlType &&& 0x80 = 0 ∧
        m.bytes.length ≤ IP_PACKET_SIZE := by
  have hpayload : (m.received redPlType beyond header h).payloadLength =
      m.payload.length + 1 := payloadLength_received
  have hmod : (m.received redPlType beyond header h).payloadDataLength =
      (m.payload.length + 1) % 2 ^ 16 := by
    unfold ReceivedRtp.payloadDataLength
    rw [hpayload]
  have hbytes : m.bytes.length = m.rtpHeader.length + m.payload.length :=
    List.length_append
  have hmax : IP_PACKET_SIZE = 1500 := rfl
  unfold GivenBack
  rw [ReceivedRtp.addReceivedRedPacket_meets_iff_of_one followed_received,
    hpayload, firstType_received, and_iff_right (Nat.le_add_left 1 _)]
  by_cases htype : m.payloadType = ulpfecPayloadType
  · rw [if_pos htype, Traced.meets_map,
      ReceivedRtp.unpackFec_meets_iff (by decide)]
    constructor
    · rintro ⟨-, -, q, hq, hmedia, -⟩
      split at hq
      · exact nomatch hq
      · cases hq
        exact nomatch hmedia
    · intro hcond
      exact absurd htype hcond.1
  · rw [if_neg htype, Traced.meets_map,
      ReceivedRtp.unpackMedia_meets_iff (by decide), headerLength_received,
      and_iff_right htype]
    constructor
    · rintro ⟨hpos, hfits, q, hq, -, hsame⟩
      cases hq
      have hlength := congrArg List.length hsame
      unfold Queued.bytes ReceivedRtp.queuedMedia at hlength
      rw [Buffer.length_read, headerLength_received, hbytes] at hlength
      dsimp only at hlength
      have hdata : (m.received redPlType beyond header h).payloadDataLength =
          m.payload.length + 1 := by
        omega
      exact ⟨(queuedMedia_bytes_iff hdata).mp hsame, by omega⟩
    · rintro ⟨hred, hfits⟩
      have hdata : (m.received redPlType beyond header h).payloadDataLength =
          m.payload.length + 1 := by
        omega
      exact ⟨by omega, by omega, _, rfl, rfl,
        (queuedMedia_bytes_iff hdata).mpr hred⟩

end Received

end MediaPacket

/-- Unpacking is exact and safe under `Unpackable`, and a built RED packet is
given back unless it is too long or has a payload type that is in the way. -/
theorem unpacks_iff (ulpfecPayloadType : UInt8) :
    (∀ p : ReceivedRtp,
      p.Unpacks ulpfecPayloadType ↔ p.Unpackable ulpfecPayloadType) ∧
    ∀ (m : MediaPacket) (redPlType : UInt8) (beyond : ℕ → UInt8)
      (header : Rtp.RTPHeader)
      (h : header.headerLength.toNat = m.rtpHeader.length),
      m.GivenBack (m.received redPlType beyond header h) ulpfecPayloadType ↔
        m.payloadType ≠ ulpfecPayloadType ∧ redPlType &&& 0x80 = 0 ∧
          m.bytes.length ≤ IP_PACKET_SIZE :=
  ⟨fun _ => ReceivedRtp.unpacks_iff_unpackable,
    fun _ _ _ _ _ => MediaPacket.givenBack_iff⟩

/-- A packet with a header of twelve bytes and this payload. -/
def packetWith (payload : List UInt8) : ReceivedRtp where
  packet :=
    .ofList ([0x80, 127, 0, 1, 0, 0, 0, 0, 0, 0, 0, 1] ++ payload) fun _ => 0
  header := { headerLength := 12 }
  minimum := by decide
  fits := by
    show 12 ≤ List.length _
    rw [List.length_append]
    exact Nat.le_add_right 12 payload.length

theorem payloadLength_packetWith (payload : List UInt8) :
    (packetWith payload).payloadLength = payload.length := by
  unfold ReceivedRtp.payloadLength
  show List.length _ - 12 = _
  rw [List.length_append]
  exact Nat.add_sub_cancel_left 12 payload.length

def twoByteMedia : MediaPacket where
  rtpHeader := [0x80, 0xE0, 0, 1, 0, 0, 0, 0, 0, 0, 0, 1]
  payload := [5, 6]
  minimum := by decide

/-- A media block of one byte is unpacked, and a packet given back. -/
theorem unpacks_sample :
    (packetWith [0x60, 5]).Unpacks 0x75 ∧
      twoByteMedia.GivenBack
        (twoByteMedia.received 127 (fun _ => 0) { headerLength := 12 } rfl)
        0x75 := by
  constructor
  · refine ((unpacks_iff 0x75).1 _).mpr ⟨by decide, ?_⟩
    rw [if_neg (by decide)]
    unfold ReceivedRtp.OneBlockFits
    decide
  · exact ((unpacks_iff 0x75).2 _ _ _ _ _).mpr
      ⟨by decide, by decide, by decide⟩

/-- An empty payload, one with two blocks of a byte, and one with a media block
that does not fit behind the header. -/
theorem not_unpacks_payloads :
    [[], [0xE0, 0, 0, 1, 0x75, 1, 2],
      0x60 :: List.replicate 1489 0].Forall fun payload =>
        ¬(packetWith payload).Unpacks 0x75 := by
  refine ⟨fun h => ?_, fun h => ?_, fun h => ?_⟩
  · have hcond := ReceivedRtp.unpacks_iff_unpackable.mp h
    exact absurd hcond.1 (by decide)
  · have hcond := (ReceivedRtp.unpacks_iff_unpackable.mp h).2
    rw [if_pos (by decide)] at hcond
    rcases (hcond.2 (by decide)).2 with hagain | hlong | hfour
    · exact absurd hagain (by decide)
    · exact absurd hlong (by decide)
    · exact absurd hfour.1 (by decide)
  · have hcond := (ReceivedRtp.unpacks_iff_unpackable.mp h).2
    have hsize : (packetWith (0x60 :: List.replicate 1489 0)).payloadLength =
        1489 + 1 := by
      rw [payloadLength_packetWith, List.length_cons, List.length_replicate]
    rw [if_neg (by decide)] at hcond
    unfold ReceivedRtp.OneBlockFits at hcond
    rw [if_neg (by decide), hsize] at hcond
    exact absurd hcond (by decide)

end WebrtcWinXp.Fec
