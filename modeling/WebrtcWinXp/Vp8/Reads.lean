import WebrtcWinXp.Support.Traced
import WebrtcWinXp.Vp8.Descriptor
import Mathlib.Tactic.Linarith

/-!
# What parsing a VP8 payload reads

`RTPPayloadParser::ParseVP8` on memory, with the pointer, the remaining length
and the count of bytes that its helpers share.
-/

namespace WebrtcWinXp.Vp8

open Support

namespace RTPPayloadVP8

/-! ## The parser -/

/-- What the helpers advance: the pointer as an offset, the remaining length,
and the bytes that the extension has taken. -/
structure Cursor where
  dataPtr : ℕ
  dataLength : ℤ
  parsedBytes : ℕ
  deriving DecidableEq

def Cursor.next (c : Cursor) : Cursor :=
  ⟨c.dataPtr + 1, c.dataLength - 1, c.parsedBytes + 1⟩

/-- What a helper makes of the payload and the cursor, or -1. -/
abbrev ReadStep :=
  RTPPayloadVP8 → Cursor → Traced Access (Option (RTPPayloadVP8 × Cursor))

variable (b : Buffer)

def readVP8PictureID : ReadStep := fun vp8 c => do
  if c.dataLength ≤ 0 then return none
  let byte ← b.getByte c.dataPtr
  let vp8 := { vp8 with pictureID := (byte &&& 0x7F).toNat }
  if byte &&& 0x80 ≠ 0 then
    let c := c.next
    if c.dataLength ≤ 0 then return none
    let low ← b.getByte c.dataPtr
    return some ({ vp8 with
      pictureID := ((byte &&& 0x7F).toNat <<< 8) + low.toNat }, c.next)
  else
    return some (vp8, c.next)

def readVP8Tl0PicIdx : ReadStep := fun vp8 c => do
  if c.dataLength ≤ 0 then return none
  let byte ← b.getByte c.dataPtr
  return some ({ vp8 with tl0PicIdx := byte.toNat }, c.next)

def readVP8TIDAndKeyIdx : ReadStep := fun vp8 c => do
  if c.dataLength ≤ 0 then return none
  let byte ← b.getByte c.dataPtr
  let vp8 :=
    if vp8.hasTID then
      { vp8 with
        tID := ((byte >>> 6) &&& 0x03).toNat
        layerSync := byte &&& 0x20 != 0 }
    else vp8
  return some
    (if vp8.hasKeyIdx then { vp8 with keyIdx := (byte &&& 0x1F).toNat }
      else vp8, c.next)

/-- A helper that is called when its bit is set. -/
def readIf (present : Bool) (read : ReadStep) : ReadStep := fun vp8 c =>
  if present then read vp8 c else pure (some (vp8, c))

def readBoth (first second : ReadStep) : ReadStep := fun vp8 c => do
  match ← first vp8 c with
  | none => return none
  | some r => second r.1 r.2

def readVP8Extension : ReadStep := fun vp8 c => do
  if c.dataLength ≤ 0 then return none
  let x ← b.getByte c.dataPtr
  let vp8 :=
    { vp8 with
      hasPictureID := x &&& 0x80 != 0
      hasTl0PicIdx := x &&& 0x40 != 0
      hasTID := x &&& 0x20 != 0
      hasKeyIdx := x &&& 0x10 != 0 }
  readBoth (readIf vp8.hasPictureID (readVP8PictureID b))
    (readBoth (readIf vp8.hasTl0PicIdx (readVP8Tl0PicIdx b))
      (readIf (vp8.hasTID || vp8.hasKeyIdx) (readVP8TIDAndKeyIdx b)))
    vp8 c.next

def readVP8FrameSize (vp8 : RTPPayloadVP8) (dataPtr : ℕ) (dataLength : ℤ) :
    Traced Access (Option RTPPayloadVP8) := do
  if vp8.frameType ≠ .kIFrame then return some vp8
  if dataLength < 10 then return none
  let byte7 ← b.getByte (dataPtr + 7)
  let byte6 ← b.getByte (dataPtr + 6)
  let byte9 ← b.getByte (dataPtr + 9)
  let byte8 ← b.getByte (dataPtr + 8)
  return some
    { vp8 with
      frameWidth := ((byte7.toNat <<< 8) + byte6.toNat) &&& 0x3FFF
      frameHeight := ((byte9.toNat <<< 8) + byte8.toNat) &&& 0x3FFF }

/-- The P bit, at the beginning of the first partition. -/
def readVP8FrameType (vp8 : RTPPayloadVP8) (dataPtr : ℕ) :
    Traced Access FrameTypes := do
  if vp8.beginningOfPartition && vp8.partitionID == 0 then
    let first ← b.getByte dataPtr
    return if first &&& 0x01 = 0 then .kIFrame else .kPFrame
  else return .kPFrame

/-- The fields, and the pointer and the length that are handed on. -/
structure Handed where
  info : RTPPayloadVP8
  data : ℕ
  dataLength : ℤ
  deriving DecidableEq

/-- The end of `ParseVP8`, behind the descriptor. -/
def readVP8Payload (vp8 : RTPPayloadVP8) (dataPtr : ℕ) (dataLength : ℤ) :
    Traced Access (Option Handed) := do
  if dataLength ≤ 0 then return none
  let frameType ← readVP8FrameType b vp8 dataPtr
  match ← readVP8FrameSize b { vp8 with frameType := frameType } dataPtr
    dataLength with
  | none => return none
  | some vp8 => return some ⟨vp8, dataPtr, dataLength⟩

/-- `ParseVP8`.  The extension gets copies of the pointer and the length, and
returns its count. -/
def readVP8 : Traced Access (Option Handed) := do
  let byte ← b.getByte 0
  let vp8 : RTPPayloadVP8 :=
    { nonReferenceFrame := byte &&& 0x20 != 0
      beginningOfPartition := byte &&& 0x10 != 0
      partitionID := (byte &&& 0x0F).toNat }
  if 8 < vp8.partitionID then return none
  let dataLength : ℤ := b.size - 1
  if byte &&& 0x80 ≠ 0 then
    match ← readVP8Extension b vp8 ⟨1, dataLength, 0⟩ with
    | none => return none
    | some (vp8, c) =>
      readVP8Payload b vp8 (1 + c.parsedBytes) (dataLength - c.parsedBytes)
  else readVP8Payload b vp8 1 dataLength

/-! ## Reading inside -/

variable {b}

/-- A cursor that points to the remaining bytes. -/
structure Cursor.Sound (b : Buffer) (c : Cursor) : Prop where
  length : (c.dataPtr : ℤ) + c.dataLength = b.size
  parsed : c.dataPtr = 1 + c.parsedBytes

/-- A helper reads inside the buffer, and leaves a sound cursor. -/
def Keeps (b : Buffer) (read : ReadStep) : Prop :=
  ∀ vp8 c, c.Sound b →
    (read vp8 c).Meets b.Inside fun o => ∀ r ∈ o, r.2.Sound b

theorem Cursor.Sound.next {c : Cursor} (h : c.Sound b) : c.next.Sound b := by
  have hlength := h.length
  have hparsed := h.parsed
  constructor <;> simp only [Cursor.next] <;> push_cast <;> omega

theorem Cursor.Sound.inside {c : Cursor} (h : c.Sound b)
    (hpos : ¬c.dataLength ≤ 0) : b.Inside ⟨c.dataPtr, 1⟩ := by
  have hlength := h.length
  unfold Buffer.Inside
  dsimp only
  omega

theorem meets_none (P : RTPPayloadVP8 × Cursor → Prop) :
    (pure none : Traced Access (Option (RTPPayloadVP8 × Cursor))).Meets
      b.Inside fun o => ∀ r ∈ o, P r :=
  (Traced.meets_pure _).mpr fun _ hr => absurd hr (Option.not_mem_none _)

theorem meets_some {vp8 : RTPPayloadVP8} {c : Cursor} (h : c.Sound b) :
    (pure (some (vp8, c)) : Traced Access _).Meets b.Inside
      fun o => ∀ r ∈ o, r.2.Sound b := by
  rw [Traced.meets_pure]
  intro r hr
  cases hr
  exact h

theorem keeps_readIf {present : Bool} {read : ReadStep} (h : Keeps b read) :
    Keeps b (readIf present read) := by
  intro vp8 c hc
  cases present with
  | true => exact h vp8 c hc
  | false => exact meets_some hc

theorem keeps_readBoth {first second : ReadStep} (h : Keeps b first)
    (h' : Keeps b second) : Keeps b (readBoth first second) := by
  intro vp8 c hc
  refine (h vp8 c hc).bind fun o ho => ?_
  cases o with
  | none => exact meets_none _
  | some r => exact h' r.1 r.2 (ho r rfl)

theorem keeps_readVP8PictureID : Keeps b (readVP8PictureID b) := by
  intro vp8 c hc
  unfold readVP8PictureID
  split
  · exact meets_none _
  next hpos =>
  rw [Traced.meets_bind, Buffer.all_getByte]
  refine ⟨hc.inside hpos, ?_⟩
  dsimp only
  split
  · split
    · exact meets_none _
    next hpos' =>
    rw [Traced.meets_bind, Buffer.all_getByte]
    exact ⟨hc.next.inside hpos', meets_some hc.next.next⟩
  · exact meets_some hc.next

theorem keeps_readVP8Tl0PicIdx : Keeps b (readVP8Tl0PicIdx b) := by
  intro vp8 c hc
  unfold readVP8Tl0PicIdx
  split
  · exact meets_none _
  next hpos =>
  rw [Traced.meets_bind, Buffer.all_getByte]
  exact ⟨hc.inside hpos, meets_some hc.next⟩

theorem keeps_readVP8TIDAndKeyIdx : Keeps b (readVP8TIDAndKeyIdx b) := by
  intro vp8 c hc
  unfold readVP8TIDAndKeyIdx
  split
  · exact meets_none _
  next hpos =>
  rw [Traced.meets_bind, Buffer.all_getByte]
  exact ⟨hc.inside hpos, meets_some hc.next⟩

theorem keeps_readVP8Extension : Keeps b (readVP8Extension b) := by
  intro vp8 c hc
  unfold readVP8Extension
  split
  · exact meets_none _
  next hpos =>
  rw [Traced.meets_bind, Buffer.all_getByte]
  refine ⟨hc.inside hpos, ?_⟩
  have hkeeps : ∀ (hasPictureID hasTl0PicIdx hasTIDOrKeyIdx : Bool),
      Keeps b (readBoth (readIf hasPictureID (readVP8PictureID b))
        (readBoth (readIf hasTl0PicIdx (readVP8Tl0PicIdx b))
          (readIf hasTIDOrKeyIdx (readVP8TIDAndKeyIdx b)))) :=
    fun _ _ _ => keeps_readBoth (keeps_readIf keeps_readVP8PictureID)
      (keeps_readBoth (keeps_readIf keeps_readVP8Tl0PicIdx)
        (keeps_readIf keeps_readVP8TIDAndKeyIdx))
  exact hkeeps _ _ _ _ _ hc.next

def Handed.Ends (b : Buffer) (h : Handed) : Prop :=
  0 < h.dataLength ∧ (h.data : ℤ) + h.dataLength = b.size

theorem readVP8FrameSize_inside (vp8 : RTPPayloadVP8) {dataPtr : ℕ}
    {dataLength : ℤ} (h : (dataPtr : ℤ) + dataLength = b.size) :
    (readVP8FrameSize b vp8 dataPtr dataLength).All b.Inside := by
  unfold readVP8FrameSize
  split
  · exact Traced.all_pure _
  split
  · exact Traced.all_pure _
  next hlength =>
  simp only [Traced.all_bind, Buffer.all_getByte, Traced.all_pure, and_true,
    Buffer.Inside]
  omega

theorem readVP8Payload_ends (vp8 : RTPPayloadVP8) {dataPtr : ℕ}
    {dataLength : ℤ} (h : (dataPtr : ℤ) + dataLength = b.size) :
    (readVP8Payload b vp8 dataPtr dataLength).Meets b.Inside
      fun o => ∀ r ∈ o, r.Ends b := by
  unfold readVP8Payload
  split
  · exact (Traced.meets_pure _).mpr fun _ hr => by cases hr
  next hpos =>
  rw [Traced.meets_bind]
  constructor
  · unfold readVP8FrameType
    split
    · simp only [Traced.all_bind, Buffer.all_getByte, Traced.all_pure,
        and_true, Buffer.Inside]
      omega
    · exact Traced.all_pure _
  · rw [Traced.meets_bind]
    refine ⟨readVP8FrameSize_inside _ h, ?_⟩
    split
    · exact (Traced.meets_pure _).mpr fun _ hr => by cases hr
    · rw [Traced.meets_pure]
      intro r hr
      cases hr
      exact ⟨by dsimp only; omega, h⟩

theorem readVP8_ends (hsize : b.size ≠ 0) :
    (readVP8 b).Meets b.Inside fun o => ∀ r ∈ o, r.Ends b := by
  unfold readVP8
  rw [Traced.meets_bind, Buffer.all_getByte]
  constructor
  · unfold Buffer.Inside
    dsimp only
    omega
  dsimp only
  split
  · exact (Traced.meets_pure _).mpr fun _ hr => by cases hr
  split
  · have hstart : Cursor.Sound b ⟨1, b.size - 1, 0⟩ :=
      ⟨by push_cast; omega, rfl⟩
    refine (keeps_readVP8Extension _ _ hstart).bind fun o ho => ?_
    cases o with
    | none => exact (Traced.meets_pure _).mpr fun _ hr => by cases hr
    | some r =>
      have hsound := ho r rfl
      have hlength := hsound.length
      have hparsed := hsound.parsed
      exact readVP8Payload_ends _ (by push_cast; omega)
  · exact readVP8Payload_ends _ (by push_cast; omega)

theorem readVP8_ends_iff :
    ((readVP8 b).Meets b.Inside fun o => ∀ r ∈ o, r.Ends b) ↔ b.size ≠ 0 := by
  refine ⟨fun h => ?_, readVP8_ends⟩
  unfold readVP8 at h
  rw [Traced.meets_bind, Buffer.all_getByte] at h
  have hfirst := h.1
  unfold Buffer.Inside at hfirst
  dsimp only at hfirst
  omega

end RTPPayloadVP8

end WebrtcWinXp.Vp8
