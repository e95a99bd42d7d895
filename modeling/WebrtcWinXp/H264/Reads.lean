import WebrtcWinXp.H264.Packetizer
import WebrtcWinXp.Vp8.Reads

/-!
# What parsing an H.264 payload reads

`RtpDepacketizerH264::Parse` on memory, with the offset and the length that it
hands to its callback.  A `size_t` has 32 bits on the platform of the
repository.
-/

namespace WebrtcWinXp.H264

open Support

/-- What is handed to `OnReceivedPayloadData`, with the bytes that are written
into the payload before. -/
structure Handed where
  frameType : FrameType
  isFirstPacket : Bool
  singleNalu : Bool
  stapA : Bool
  offset : UInt32
  dataLength : UInt32
  written : List Store

variable (b : Buffer)

/-- The type that decides about a key frame: of the unit behind the length
field if there are several ones. -/
def readNalType : Traced Access (Bool × UInt8) := do
  let first ← b.getByte 0
  if first &&& kTypeMask = kStapA then
    let inner ← b.getByte 3
    return (true, inner &&& kTypeMask)
  else return (false, first &&& kTypeMask)

def readSingleNalu (payloadDataLength : UInt32) : Traced Access Handed := do
  let r ← readNalType b
  pure
    { frameType :=
        if r.2 = kSps ∨ r.2 = kPps ∨ r.2 = kIdr then .kVideoFrameKey
        else .kVideoFrameDelta
      isFirstPacket := true
      singleNalu := true
      stapA := r.1
      offset := 0
      dataLength := payloadDataLength - 0
      written := [] }

def readFuaNalu (payloadDataLength : UInt32) : Traced Access Handed := do
  let indicator ← b.getByte 0
  let fuHeader ← b.getByte 1
  let fnri := indicator &&& (kFBit ||| kNriMask)
  let originalNalType := fuHeader &&& kTypeMask
  let firstFragment : Bool := fuHeader &&& kSBit > 0
  let originalNalHeader := fnri ||| originalNalType
  let written : List Store :=
    if firstFragment then [⟨kNalHeaderSize, [originalNalHeader]⟩] else []
  let offset : UInt32 :=
    if firstFragment then .ofNat kNalHeaderSize else .ofNat kFuAHeaderSize
  Traced.touch ⟨kNalHeaderSize, written.length⟩
    { frameType :=
        if originalNalType = kIdr then .kVideoFrameKey else .kVideoFrameDelta
      isFirstPacket := firstFragment
      singleNalu := false
      stapA := false
      offset := offset
      dataLength := payloadDataLength - offset
      written := written }

def readPayload (payloadDataLength : UInt32) : Traced Access Handed := do
  let first ← b.getByte 0
  if first &&& kTypeMask = kFuA then readFuaNalu b payloadDataLength
  else readSingleNalu b payloadDataLength

variable {b}

/-- Not more is handed on than remains behind the offset. -/
def Handed.Remains (b : Buffer) (h : Handed) : Prop :=
  h.dataLength.toNat ≤ b.size - h.offset.toNat

variable (b)

def nalType : UInt8 := b.byte 0 &&& kTypeMask

/-- The payload has the bytes that its first one makes `Parse` read. -/
def LongEnough : Prop :=
  1 ≤ b.size ∧ (nalType b = kStapA → 4 ≤ b.size) ∧
    (nalType b = kFuA → 2 ≤ b.size)

variable {b}

variable {payloadDataLength : UInt32}

theorem readSingleNalu_meets_iff
    (hlength : payloadDataLength.toNat = b.size) :
    (readSingleNalu b payloadDataLength).Meets b.Inside (Handed.Remains b) ↔
      1 ≤ b.size ∧ (nalType b = kStapA → 4 ≤ b.size) := by
  have hhanded : (readSingleNalu b payloadDataLength).value.Remains b := by
    unfold Handed.Remains
    show (payloadDataLength - 0).toNat ≤ b.size - 0
    rw [UInt32.sub_zero, hlength]
    exact Nat.le_refl _
  unfold Traced.Meets
  rw [and_iff_left hhanded]
  unfold readSingleNalu readNalType
  simp only [Traced.all_bind, Buffer.all_getByte, Traced.all_pure, and_true,
    Buffer.value_getByte, Buffer.Inside]
  rw [Nat.zero_add]
  refine and_congr_right fun hpos => ?_
  unfold nalType
  by_cases hstap : b.byte 0 &&& kTypeMask = kStapA
  · simp [hstap, Buffer.Inside]
  · simp [hstap]

theorem readFuaNalu_meets_iff
    (hlength : payloadDataLength.toNat = b.size) :
    (readFuaNalu b payloadDataLength).Meets b.Inside (Handed.Remains b) ↔
      2 ≤ b.size := by
  constructor
  · intro h
    unfold readFuaNalu at h
    rw [Traced.meets_bind, Traced.meets_bind, Buffer.all_getByte,
      Buffer.all_getByte] at h
    exact h.2.1
  · intro hsize
    have hinside : ∀ i < 2, b.Inside ⟨i, 1⟩ := fun i hi => by
      unfold Buffer.Inside
      dsimp only
      omega
    unfold readFuaNalu
    rw [Traced.meets_bind, Traced.meets_bind, Buffer.all_getByte,
      Buffer.all_getByte]
    refine ⟨hinside 0 (by decide), hinside 1 (by decide), ?_⟩
    dsimp only
    refine ⟨(Traced.all_touch _ _).mpr ?_, ?_⟩
    · unfold Buffer.Inside
      split
      · exact hsize
      · exact Nat.le_trans (by decide) hsize
    · have hoffset : ∀ offset : UInt32, offset.toNat ≤ 2 →
          (payloadDataLength - offset).toNat ≤ b.size - offset.toNat := by
        intro offset hoffset
        rw [UInt32.toNat_sub_of_le _ _ (UInt32.le_iff_toNat_le.mpr (by omega)),
          hlength]
      refine hoffset _ ?_
      split
      · decide
      · decide

theorem readPayload_meets_iff
    (hlength : payloadDataLength.toNat = b.size) :
    (readPayload b payloadDataLength).Meets b.Inside (Handed.Remains b) ↔
      LongEnough b := by
  unfold readPayload LongEnough
  rw [Traced.meets_bind, Buffer.all_getByte, Buffer.value_getByte]
  have hfirst : b.Inside ⟨0, 1⟩ ↔ 1 ≤ b.size := by
    unfold Buffer.Inside
    rfl
  rw [hfirst]
  refine and_congr_right fun hpos => ?_
  by_cases hfua : b.byte 0 &&& kTypeMask = kFuA
  · have hstap : nalType b ≠ kStapA := by
      unfold nalType
      rw [hfua]
      decide
    rw [if_pos hfua, readFuaNalu_meets_iff hlength]
    rw [imp_iff_right (show nalType b = kFuA from hfua)]
    exact (and_iff_right fun h => absurd h hstap).symm
  · rw [if_neg hfua, readSingleNalu_meets_iff hlength]
    simp [hpos, nalType, hfua]

/-! ## The same payload as on lists -/

/-- The fields with the bytes that are handed on, after the write. -/
def Handed.parsed (b : Buffer) (h : Handed) : ParsedPayload where
  frameType := h.frameType
  isFirstPacket := h.isFirstPacket
  singleNalu := h.singleNalu
  stapA := h.stapA
  payload :=
    Buffer.read ⟨Store.applyAll b.byte h.written, b.size⟩
      ⟨h.offset.toNat, h.dataLength.toNat⟩

theorem getElem?_read {i : ℕ} (hi : i < b.size) :
    (b.read ⟨0, b.size⟩)[i]? = some (b.byte i) := by
  unfold Buffer.read
  rw [List.getElem?_map, List.getElem?_range hi, Option.map_some, Nat.zero_add]

theorem read_behind (offset : UInt32)
    (hlength : payloadDataLength.toNat = b.size)
    (hoffset : offset.toNat ≤ b.size) :
    b.read ⟨offset.toNat, (payloadDataLength - offset).toNat⟩ =
      (b.read ⟨0, b.size⟩).drop offset.toNat := by
  have hsplit := b.read_add 0 offset.toNat (b.size - offset.toNat)
  rw [Nat.add_sub_cancel' hoffset, Nat.zero_add] at hsplit
  have hle : offset ≤ payloadDataLength :=
    UInt32.le_iff_toNat_le.mpr (by rw [hlength]; exact hoffset)
  rw [UInt32.toNat_sub_of_le _ _ hle, hlength, hsplit,
    List.drop_left' (by rw [Buffer.length_read])]

theorem read_applyAll (i : ℕ) (x : UInt8) :
    Buffer.read ⟨Store.applyAll b.byte [⟨i, [x]⟩], b.size⟩ ⟨0, b.size⟩ =
      (b.read ⟨0, b.size⟩).set i x := by
  apply List.ext_getElem
  · rw [List.length_set, Buffer.length_read, Buffer.length_read]
  · intro j h₁ h₂
    rw [Buffer.length_read] at h₁
    rw [List.getElem_set]
    simp only [Buffer.read, List.getElem_map, List.getElem_range,
      Store.applyAll, List.foldl_cons, List.foldl_nil, Store.apply,
      List.length_singleton, Nat.zero_add]
    by_cases hij : i = j
    · rw [if_pos hij, if_pos (by omega), hij, Nat.sub_self]
      rfl
    · rw [if_neg hij, if_neg (by omega)]

theorem parseSingleNalu_read
    (hlength : payloadDataLength.toNat = b.size) (hpos : 1 ≤ b.size)
    (hstap : nalType b = kStapA → 4 ≤ b.size) :
    parseSingleNalu (b.read ⟨0, b.size⟩) =
      some ((readSingleNalu b payloadDataLength).value.parsed b) := by
  have hpayload : b.read ⟨0, b.size⟩ =
      b.read ⟨(0 : UInt32).toNat, (payloadDataLength - 0).toNat⟩ :=
    (read_behind 0 hlength (Nat.zero_le _)).symm
  unfold parseSingleNalu readSingleNalu readNalType
  rw [getElem?_read hpos]
  by_cases htype : b.byte 0 &&& kTypeMask = kStapA
  · simp only [Traced.value_bind, Buffer.value_getByte, htype, if_true,
      getElem?_read (hstap htype), decide_true, Option.map_some,
      Option.bind_eq_bind, Option.bind_some, Traced.value_pure]
    exact congrArg (fun p => some (ParsedPayload.mk _ _ _ _ p)) hpayload
  · simp only [Traced.value_bind, Buffer.value_getByte, htype, if_false,
      decide_false, Bool.false_eq_true, Option.bind_eq_bind, Option.bind_some,
      Traced.value_pure]
    exact congrArg (fun p => some (ParsedPayload.mk _ _ _ _ p)) hpayload

theorem parseFuaNalu_read
    (hlength : payloadDataLength.toNat = b.size) (hsize : 2 ≤ b.size) :
    parseFuaNalu (b.read ⟨0, b.size⟩) =
      some ((readFuaNalu b payloadDataLength).value.parsed b) := by
  unfold parseFuaNalu readFuaNalu
  rw [getElem?_read (Nat.lt_of_succ_lt hsize), getElem?_read hsize]
  simp only [Traced.value_bind, Buffer.value_getByte, Traced.value_touch,
    Option.bind_eq_bind, Option.bind_some]
  refine congrArg (fun p => some (ParsedPayload.mk _ _ _ _ p)) ?_
  by_cases hfirst : b.byte 1 &&& kSBit > 0
  · simp only [hfirst, decide_true, if_true]
    have hbehind := read_behind (.ofNat kNalHeaderSize)
      (b := ⟨Store.applyAll b.byte [⟨kNalHeaderSize,
        [b.byte 0 &&& (kFBit ||| kNriMask) ||| b.byte 1 &&& kTypeMask]⟩],
        b.size⟩) hlength (Nat.le_trans (by decide) hsize)
    rw [hbehind, read_applyAll]
    rfl
  · simp only [hfirst, decide_false, Bool.false_eq_true, if_false]
    exact (read_behind (.ofNat kFuAHeaderSize) hlength hsize).symm

/-- A payload that is long enough is parsed in memory as it is on lists. -/
theorem parse_read
    (hlength : payloadDataLength.toNat = b.size) (hlong : LongEnough b) :
    parse (b.read ⟨0, b.size⟩) =
      some ((readPayload b payloadDataLength).value.parsed b) := by
  obtain ⟨hpos, hstap, hfua⟩ := hlong
  unfold parse readPayload
  rw [getElem?_read hpos, Option.bind_eq_bind, Option.bind_some,
    Traced.value_bind, Buffer.value_getByte]
  by_cases htype : b.byte 0 &&& kTypeMask = kFuA
  · rw [if_pos htype, if_pos htype]
    exact parseFuaNalu_read hlength (hfua htype)
  · rw [if_neg htype, if_neg htype]
    exact parseSingleNalu_read hlength hpos hstap

theorem parse_read_fuA :
    parse [0x7c, 0x85, 7, 8] = some ((readPayload
      (.ofList [0x7c, 0x85, 7, 8] fun _ => 0) 4).value.parsed
        (.ofList [0x7c, 0x85, 7, 8] fun _ => 0)) :=
  parse_read (b := .ofList [0x7c, 0x85, 7, 8] fun _ => 0) rfl
    ⟨by decide, by decide, by decide⟩

def payloadAt (byte : ℕ → UInt8) (length : ℕ) : Buffer := ⟨byte, length⟩

/-- Parsing a VP8 payload reads inside it, and what is handed on ends with
it. -/
def ParsesVP8Safely (byte : ℕ → UInt8) (payloadDataLength : UInt16) : Prop :=
  (Vp8.RTPPayloadVP8.readVP8 (payloadAt byte payloadDataLength.toNat)).Meets
    (payloadAt byte payloadDataLength.toNat).Inside fun o =>
      ∀ r ∈ o, r.Ends (payloadAt byte payloadDataLength.toNat)

/-- Parsing an H.264 payload reads inside it, and not more is handed on than
remains. -/
def ParsesH264Safely (byte : ℕ → UInt8) (payloadDataLength : UInt32) : Prop :=
  (readPayload (payloadAt byte payloadDataLength.toNat)
    payloadDataLength).Meets
      (payloadAt byte payloadDataLength.toNat).Inside
      (Handed.Remains (payloadAt byte payloadDataLength.toNat))

/-- A VP8 payload must not be empty; an H.264 payload must reach the NAL unit
header of the first unit of a STAP-A, and the FU header of a FU-A. -/
theorem parsesSafely_iff (byte : ℕ → UInt8) :
    (∀ payloadDataLength : UInt16,
      ParsesVP8Safely byte payloadDataLength ↔ payloadDataLength ≠ 0) ∧
    ∀ payloadDataLength : UInt32,
      ParsesH264Safely byte payloadDataLength ↔
        LongEnough (payloadAt byte payloadDataLength.toNat) := by
  constructor
  · intro payloadDataLength
    have hzero : payloadDataLength.toNat ≠ 0 ↔ payloadDataLength ≠ 0 :=
      not_congr (UInt16.toNat_inj (b := 0))
    exact Vp8.RTPPayloadVP8.readVP8_ends_iff.trans hzero
  · intro payloadDataLength
    exact readPayload_meets_iff rfl

/-- A FU-A payload of one byte: its FU header is read behind the end, and the
length that is handed on wraps around. -/
theorem not_parsesH264Safely_fuIndicator :
    ¬ParsesH264Safely (fun i => if i = 0 then kFuA else 0) 1 ∧
      (readPayload (payloadAt (fun i => if i = 0 then kFuA else 0) 1)
        1).value.dataLength = 0xFFFFFFFF := by
  refine ⟨fun h => ?_, by decide⟩
  have hlong := (readPayload_meets_iff rfl).mp h
  exact absurd (hlong.2.2 (by decide)) (by decide)

end WebrtcWinXp.H264
