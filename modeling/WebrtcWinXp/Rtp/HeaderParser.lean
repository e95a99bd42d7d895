import WebrtcWinXp.Rtp.HeaderExtensionMap
import WebrtcWinXp.Support.Loop
import WebrtcWinXp.Support.Memory

/-!
# The RTP header parser

`RtpHeaderParser::Parse` with its walk over the one-byte header extension
elements.  The header length depends on the first byte and on the length field
of the extension only.
-/

namespace WebrtcWinXp.Rtp

open Support

def kRtpMinParseLength : ℕ := 12

def kRtpExpectedVersion : UInt8 := 2

def kRtpCsrcSize : ℕ := 15

structure RTPHeaderExtension where
  hasTransmissionTimeOffset : Bool := false
  transmissionTimeOffset : ℤ := 0
  hasAbsoluteSendTime : Bool := false
  absoluteSendTime : ℕ := 0
  hasAudioLevel : Bool := false
  audioLevel : UInt8 := 0
  deriving DecidableEq

structure RTPHeader where
  markerBit : Bool := false
  payloadType : UInt8 := 0
  sequenceNumber : UInt16 := 0
  timestamp : UInt32 := 0
  ssrc : UInt32 := 0
  numCSRCs : UInt8 := 0
  arrOfCSRCs : List UInt32 := List.replicate kRtpCsrcSize 0
  paddingLength : UInt8 := 0
  headerLength : UInt16 := 0
  extension : RTPHeaderExtension := {}
  deriving DecidableEq

namespace RtpHeaderParser

/-- The zero bytes from `ptr` on, among the next `n`. -/
def zeroBytes (b : Buffer) : ℕ → ℕ → ℕ
  | 0, _ => 0
  | n + 1, ptr => if b.byte ptr ≠ 0 then 0 else zeroBytes b n (ptr + 1) + 1

def parsePaddingBytes (b : Buffer) (stop ptr : ℕ) : ℕ :=
  zeroBytes b (stop - ptr) ptr % 2 ^ 8

/-- The value of a 24-bit two's complement number, by filling up the sign in
32 bits. -/
def signed24 (value : ℕ) : ℤ :=
  (BitVec.ofNat 32
    (if value &&& 0x800000 ≠ 0 then value ||| 0xFF000000 else value)).toInt

/-- The data of a registered extension behind its first byte; nothing when its
length is not the one expected. -/
def readElement (b : Buffer) (ptr len : ℕ) (ext : RTPHeaderExtension) :
    RTPExtensionType → Option RTPHeaderExtension
  | .kRtpExtensionTransmissionTimeOffset =>
    if len ≠ 2 then none
    else some { ext with
      transmissionTimeOffset := signed24 (ofBE (b.read ⟨ptr, 3⟩))
      hasTransmissionTimeOffset := true }
  | .kRtpExtensionAudioLevel =>
    if len ≠ 0 then none
    else some { ext with
      audioLevel := b.byte ptr
      hasAudioLevel := true }
  | .kRtpExtensionAbsoluteSendTime =>
    if len ≠ 2 then none
    else some { ext with
      absoluteSendTime := ofBE (b.read ⟨ptr, 3⟩)
      hasAbsoluteSendTime := true }

/-- One round over the elements: the next element, if there is one, with the
zero bytes behind it. -/
def parseElement (b : Buffer) (map : RtpHeaderExtensionMap) (stop : ℕ)
    (s : ℕ × RTPHeaderExtension) : Option (ℕ × RTPHeaderExtension) :=
  if stop ≤ s.1 then none
  else
    let id := ((b.byte s.1 &&& 0xf0) >>> 4).toNat
    let len := (b.byte s.1 &&& 0x0f).toNat
    let ptr := s.1 + 1
    if id = 15 then none
    else
      match map.getType id with
      -- an unknown extension is skipped
      | none => some (ptr + (len + 1) +
          parsePaddingBytes b stop (ptr + (len + 1)), s.2)
      | some type =>
        (readElement b ptr len s.2 type).map fun ext =>
          (ptr + (len + 1) +
            parsePaddingBytes b stop (ptr + (len + 1)), ext)

def parseOneByteExtensionHeader (b : Buffer)
    (map : Option RtpHeaderExtensionMap) (stop ptr : ℕ)
    (ext : RTPHeaderExtension) : RTPHeaderExtension :=
  match map with
  | none => ext
  | some map =>
    (finish (parseElement b map stop) (fun s => stop - s.1) (ptr, ext)).2

theorem lowers_parseElement (b : Buffer) (map : RtpHeaderExtensionMap)
    (stop : ℕ) : Lowers (parseElement b map stop) fun s => stop - s.1 := by
  intro s t h
  unfold parseElement at h
  split at h
  · cases h
  · rename_i hptr
    dsimp only at h
    split at h
    · cases h
    · split at h
      · cases h
        dsimp only
        omega
      · obtain ⟨ext, -, rfl⟩ := Option.map_eq_some_iff.mp h
        dsimp only
        omega

/-! ## The header -/

section Header

variable (b : Buffer)

/-- `CSRCocts`, for a count of `CC` in the low bits of the first byte. -/
def csrcOcts : ℕ := (b.byte 0 &&& 0x0f).toNat * 4

def extensionBit : Bool := b.byte 0 &&& 0x10 != 0

/-- The length field of the extension at `ptr`, in bytes. -/
def xLen (ptr : ℕ) : UInt16 := UInt16.ofNat (ofBE (b.read ⟨ptr + 2, 2⟩)) * 4

def fixedHeader (header : RTPHeader) : RTPHeader :=
  let cc := (b.byte 0 &&& 0x0f).toNat
  { header with
    markerBit := b.byte 1 &&& 0x80 != 0
    payloadType := b.byte 1 &&& 0x7f
    sequenceNumber := UInt16.ofNat (ofBE (b.read ⟨2, 2⟩))
    timestamp := UInt32.ofNat (ofBE (b.read ⟨4, 4⟩))
    ssrc := UInt32.ofNat (ofBE (b.read ⟨8, 4⟩))
    numCSRCs := b.byte 0 &&& 0x0f
    paddingLength :=
      if b.byte 0 &&& 0x20 ≠ 0 then b.byte (b.size - 1) else 0
    arrOfCSRCs :=
      ((List.range cc).map fun i =>
        UInt32.ofNat (ofBE (b.read ⟨12 + 4 * i, 4⟩))) ++
        header.arrOfCSRCs.drop cc
    headerLength := UInt16.ofNat (12 + csrcOcts b)
    extension := {} }

/-- The header extension at `ptr`. -/
def parseExtension (map : Option RtpHeaderExtensionMap) (header : RTPHeader)
    (ptr : ℕ) : Bool × RTPHeader :=
  if b.size - ptr < 4 then (false, header)
  else
    let header := { header with headerLength := header.headerLength + 4 }
    if b.size - ptr < 4 + (xLen b ptr).toNat then (false, header)
    else
      let extension :=
        if ofBE (b.read ⟨ptr, 2⟩) = kRtpOneByteHeaderExtensionId then
          parseOneByteExtensionHeader b map (ptr + 4 + (xLen b ptr).toNat)
            (ptr + 4) header.extension
        else header.extension
      (true,
        { header with
          headerLength := header.headerLength + xLen b ptr
          extension := extension })

/-- `Parse`, with what it leaves in the header also where it fails. -/
def parse (map : Option RtpHeaderExtensionMap) (header : RTPHeader) :
    Bool × RTPHeader :=
  if b.size < kRtpMinParseLength then (false, header)
  else if b.byte 0 >>> 6 ≠ kRtpExpectedVersion then (false, header)
  else if 12 + csrcOcts b > b.size then (false, header)
  else if extensionBit b then
    parseExtension b map (fixedHeader b header) (12 + csrcOcts b)
  else (true, fixedHeader b header)

/-- The bytes in front of the payload, as the first byte and the length of the
extension give them. -/
def headerOcts : ℕ :=
  12 + csrcOcts b +
    if extensionBit b then 4 + (xLen b (12 + csrcOcts b)).toNat else 0

variable {b} {map : Option RtpHeaderExtensionMap} {header : RTPHeader}

/-- What a header that was parsed says, whatever extensions are known. -/
structure Parsed (b : Buffer) (header : RTPHeader) : Prop where
  markerBit : header.markerBit = (b.byte 1 &&& 0x80 != 0)
  payloadType : header.payloadType = b.byte 1 &&& 0x7f
  sequenceNumber :
    header.sequenceNumber = UInt16.ofNat (ofBE (b.read ⟨2, 2⟩))
  ssrc : header.ssrc = UInt32.ofNat (ofBE (b.read ⟨8, 4⟩))
  numCSRCs : header.numCSRCs = b.byte 0 &&& 0x0f
  headerLength : header.headerLength = UInt16.ofNat (headerOcts b)

/-- The parser accepts what is long enough for the header it announces. -/
def Accepted (b : Buffer) : Prop :=
  kRtpMinParseLength ≤ b.size ∧ b.byte 0 >>> 6 = kRtpExpectedVersion ∧
    headerOcts b ≤ b.size

theorem parseExtension_fst {ptr : ℕ} (hptr : ptr ≤ b.size) :
    (parseExtension b map header ptr).1 = true ↔
      ptr + (4 + (xLen b ptr).toNat) ≤ b.size := by
  unfold parseExtension
  dsimp only
  by_cases h₁ : b.size - ptr < 4
  · rw [if_pos h₁]
    exact ⟨fun h => absurd h Bool.false_ne_true, fun h => by omega⟩
  · by_cases h₂ : b.size - ptr < 4 + (xLen b ptr).toNat
    · rw [if_neg h₁, if_pos h₂]
      exact ⟨fun h => absurd h Bool.false_ne_true, fun h => by omega⟩
    · rw [if_neg h₁, if_neg h₂]
      exact ⟨fun _ => by omega, fun _ => rfl⟩

theorem parse_fst :
    (parse b map header).1 = true ↔ Accepted b := by
  have hocts : 12 + csrcOcts b ≤ headerOcts b := Nat.le_add_right _ _
  unfold parse
  by_cases h₁ : b.size < kRtpMinParseLength
  · rw [if_pos h₁]
    exact ⟨fun h => absurd h Bool.false_ne_true,
      fun h => absurd h₁ (Nat.not_lt.mpr h.1)⟩
  by_cases h₂ : b.byte 0 >>> 6 ≠ kRtpExpectedVersion
  · rw [if_neg h₁, if_pos h₂]
    exact ⟨fun h => absurd h Bool.false_ne_true, fun h => absurd h.2.1 h₂⟩
  by_cases h₃ : 12 + csrcOcts b > b.size
  · rw [if_neg h₁, if_neg h₂, if_pos h₃]
    exact ⟨fun h => absurd h Bool.false_ne_true,
      fun h => absurd (hocts.trans h.2.2) (Nat.not_le.mpr h₃)⟩
  rw [if_neg h₁, if_neg h₂, if_neg h₃]
  have hparts : Accepted b ↔ headerOcts b ≤ b.size :=
    ⟨fun h => h.2.2, fun h => ⟨Nat.not_lt.mp h₁, not_not.mp h₂, h⟩⟩
  rw [hparts, headerOcts]
  by_cases h₄ : extensionBit b
  · rw [if_pos h₄, if_pos h₄, parseExtension_fst (Nat.not_lt.mp h₃)]
  · rw [if_neg h₄, if_neg h₄]
    exact ⟨fun _ => Nat.not_lt.mp h₃, fun _ => rfl⟩

theorem parse_snd (h : Accepted b) :
    (parse b map header).2 =
      if extensionBit b then
        { fixedHeader b header with
          headerLength := UInt16.ofNat (headerOcts b)
          extension :=
            if ofBE (b.read ⟨12 + csrcOcts b, 2⟩) =
                kRtpOneByteHeaderExtensionId then
              parseOneByteExtensionHeader b map (headerOcts b)
                (12 + csrcOcts b + 4) {}
            else {} }
      else fixedHeader b header := by
  obtain ⟨hsize, hversion, hfits⟩ := h
  have hocts : 12 + csrcOcts b ≤ headerOcts b := Nat.le_add_right _ _
  rw [parse, if_neg (by omega), if_neg (not_not.mpr hversion),
    if_neg (by omega)]
  by_cases hext : extensionBit b
  · rw [if_pos hext, if_pos hext]
    have hsum : headerOcts b =
        12 + csrcOcts b + 4 + (xLen b (12 + csrcOcts b)).toNat := by
      rw [headerOcts, if_pos hext]
      omega
    have hlength : UInt16.ofNat (headerOcts b) =
        UInt16.ofNat (12 + csrcOcts b) + 4 + xLen b (12 + csrcOcts b) := by
      rw [hsum, UInt16.ofNat_add, UInt16.ofNat_add, UInt16.ofNat_toNat]
      rfl
    unfold parseExtension
    dsimp only
    rw [if_neg (by omega), if_neg (by omega), ← hsum]
    dsimp only [fixedHeader]
    rw [hlength]
  · rw [if_neg hext, if_neg hext]

theorem parsed (h : Accepted b) : Parsed b (parse b map header).2 := by
  rw [parse_snd h]
  by_cases hext : extensionBit b
  · rw [if_pos hext]
    exact ⟨rfl, rfl, rfl, rfl, rfl, rfl⟩
  · rw [if_neg hext]
    refine ⟨rfl, rfl, rfl, rfl, rfl, ?_⟩
    rw [headerOcts, if_neg hext]
    rfl

theorem headerOcts_congr {b' : Buffer} (hzero : b'.byte 0 = b.byte 0)
    (h : ∀ i, 12 ≤ i → i < headerOcts b → b'.byte i = b.byte i) :
    headerOcts b' = headerOcts b := by
  have hcsrcs : csrcOcts b' = csrcOcts b := by
    rw [csrcOcts, csrcOcts, hzero]
  have hbit : extensionBit b' = extensionBit b := by
    rw [extensionBit, extensionBit, hzero]
  rw [headerOcts, hcsrcs, hbit]
  by_cases hext : extensionBit b
  · have hsum : headerOcts b =
        12 + csrcOcts b + (4 + (xLen b (12 + csrcOcts b)).toNat) := by
      rw [headerOcts, if_pos hext]
    have hread : b'.read ⟨12 + csrcOcts b + 2, 2⟩ =
        b.read ⟨12 + csrcOcts b + 2, 2⟩ := by
      refine List.map_congr_left fun i hi => h _ ?_ ?_
      · dsimp only
        omega
      · have hlt := List.mem_range.mp hi
        dsimp only at hlt ⊢
        omega
    have hxlen : xLen b' (12 + csrcOcts b) = xLen b (12 + csrcOcts b) := by
      rw [xLen, hread, xLen]
    rw [hxlen, headerOcts]
  · rw [headerOcts, if_neg hext, if_neg hext]

end Header

end RtpHeaderParser

end WebrtcWinXp.Rtp
