import WebrtcWinXp.Rtp.HeaderReads

/-!
# When parsing an RTP header is safe

The parser accepts a packet that has the bytes of the header it announces, with
the length of the extension counted in 16 bits.  What the P bit and the elements
of the extension announce is not tested.
-/

namespace WebrtcWinXp.Rtp

open Support

namespace RtpHeaderParser

section Safe

variable (b : Buffer)

/-- The length field of the extension, in words. -/
def announcedWords : ℕ := ofBE (b.read ⟨12 + csrcOcts b + 2, 2⟩)

/-- The bytes of the header, by the CSRC count and the length field. -/
def announcedOcts : ℕ :=
  12 + csrcOcts b + if extensionBit b then 4 + 4 * announcedWords b else 0

/-- The extension behind its profile and its length field. -/
def extensionBlock : Access := ⟨12 + csrcOcts b + 4, 4 * announcedWords b⟩

def announcedProfile : ℕ := ofBE (b.read ⟨12 + csrcOcts b, 2⟩)

/-- `Parse` reads inside the packet, its loop over the elements inside the
extension; and a header that it accepts is the announced one, and leaves room
for the padding. -/
def ParsesSafely (map : Option RtpHeaderExtensionMap) (header : RTPHeader) :
    Prop :=
  (readParse b map header).Meets (Read.Proper b (extensionBlock b)) fun r =>
    r.1 = true →
      r.2.headerLength.toNat ≤ b.size ∧
        r.2.headerLength.toNat = announcedOcts b ∧
        r.2.headerLength.toNat + r.2.paddingLength.toNat ≤ b.size

/-- The header is short enough for its 16 bits, the padding fits behind it, and
the registered elements fit into the extension. -/
structure WellAnnounced (map : Option RtpHeaderExtensionMap) : Prop where
  octs : announcedOcts b < 2 ^ 16
  padding : paddingBit b →
    announcedOcts b + (b.byte (b.size - 1)).toNat ≤ b.size
  elements : extensionBit b →
    announcedProfile b = kRtpOneByteHeaderExtensionId →
      ∀ m ∈ map, ElementsFit b m (announcedOcts b) (12 + csrcOcts b + 4)

/-! ## The reads in front of the elements -/

variable {b} {map : Option RtpHeaderExtensionMap} {header : RTPHeader}
  {block : Access}

theorem readFixedHeader_proper (h : 12 + csrcOcts b ≤ b.size) :
    (readFixedHeader b header).All (Read.Proper b block) := by
  have hlast : b.Inside ⟨b.size - 1, 1⟩ := by
    unfold Buffer.Inside
    dsimp only
    omega
  have hcsrcs : (do
      Traced.touch (.header ⟨12, csrcOcts b⟩) ()
      return fixedHeader b header : Traced Read RTPHeader).All
        (Read.Proper b block) := by
    rw [Traced.all_bind, Traced.all_touch]
    exact ⟨h, Traced.all_pure _⟩
  unfold readFixedHeader
  split
  · rw [Traced.all_bind, Traced.all_touch]
    exact ⟨hlast, hcsrcs⟩
  · exact hcsrcs

theorem readExtension_proper_iff {ptr : ℕ} (hptr : ptr ≤ b.size) :
    (readExtension b map header ptr).All (Read.Proper b block) ↔
      (ptr + (4 + (xLen b ptr).toNat) ≤ b.size →
        (readProfile b map (ofBE (b.read ⟨ptr, 2⟩))
          (ptr + 4 + (xLen b ptr).toNat) (ptr + 4)
          header.extension).All (Read.Proper b block)) := by
  unfold readExtension
  by_cases hword : b.size - ptr < 4
  · rw [if_pos hword]
    exact ⟨fun _ h => by omega, fun _ => Traced.all_pure _⟩
  have hinside : ∀ k ≤ 2, b.Inside ⟨ptr + k, 2⟩ := by
    intro k hk
    unfold Buffer.Inside
    dsimp only
    omega
  rw [if_neg hword, Traced.all_bind, Traced.all_touch,
    and_iff_right (show Read.Proper b block (.header ⟨ptr, 2⟩) from
      hinside 0 (by decide)), Traced.value_touch,
    Traced.all_bind, Traced.all_touch,
    and_iff_right (show Read.Proper b block (.header ⟨ptr + 2, 2⟩) from
      hinside 2 (by decide)), Traced.value_touch]
  by_cases hocts : b.size - ptr < 4 + (xLen b ptr).toNat
  · rw [if_pos hocts]
    exact ⟨fun _ h => by omega, fun _ => Traced.all_pure _⟩
  · rw [if_neg hocts, imp_iff_right (by omega), Traced.all_bind,
      and_iff_left (Traced.all_pure _)]

theorem readParse_proper_iff :
    (readParse b map header).All (Read.Proper b block) ↔
      (Accepted b → extensionBit b →
        (readProfile b map (announcedProfile b) (headerOcts b)
          (12 + csrcOcts b + 4) {}).All (Read.Proper b block)) := by
  have hocts : 12 + csrcOcts b ≤ headerOcts b := Nat.le_add_right _ _
  unfold readParse
  by_cases hsize : b.size < kRtpMinParseLength
  · rw [if_pos hsize]
    exact ⟨fun _ h => absurd h.1 (Nat.not_le.mpr hsize),
      fun _ => Traced.all_pure _⟩
  rw [if_neg hsize, Traced.all_bind, Traced.all_touch,
    and_iff_right (show Read.Proper b block (.header ⟨0, 12⟩) from
      Nat.not_lt.mp hsize)]
  by_cases hversion : b.byte 0 >>> 6 ≠ kRtpExpectedVersion
  · rw [if_pos hversion]
    exact ⟨fun _ h => absurd h.2.1 hversion, fun _ => Traced.all_pure _⟩
  rw [if_neg hversion]
  by_cases hcsrcs : 12 + csrcOcts b > b.size
  · rw [if_pos hcsrcs]
    exact ⟨fun _ h => absurd (hocts.trans h.2.2) (Nat.not_le.mpr hcsrcs),
      fun _ => Traced.all_pure _⟩
  rw [if_neg hcsrcs, Traced.all_bind,
    and_iff_right (readFixedHeader_proper (Nat.not_lt.mp hcsrcs))]
  have haccepted : Accepted b ↔ headerOcts b ≤ b.size :=
    ⟨fun h => h.2.2, fun h => ⟨Nat.not_lt.mp hsize, not_not.mp hversion, h⟩⟩
  by_cases hbit : extensionBit b
  · have hsum : headerOcts b =
        12 + csrcOcts b + (4 + (xLen b (12 + csrcOcts b)).toNat) := by
      rw [headerOcts, if_pos hbit]
    rw [if_pos hbit, readExtension_proper_iff (Nat.not_lt.mp hcsrcs),
      value_readFixedHeader, haccepted, imp_iff_right hbit, hsum,
      ← Nat.add_assoc]
    rfl
  · rw [if_neg hbit]
    exact ⟨fun _ _ h => absurd h hbit, fun _ => Traced.all_pure _⟩

theorem toNat_xLen (ptr : ℕ) :
    (xLen b ptr).toNat = 4 * ofBE (b.read ⟨ptr + 2, 2⟩) % 2 ^ 16 := by
  unfold xLen
  rw [UInt16.toNat_mul, UInt16.toNat_ofNat', Nat.mod_mul_mod, Nat.mul_comm]
  rfl

theorem headerOcts_eq (h : announcedOcts b < 2 ^ 16) :
    headerOcts b = announcedOcts b := by
  unfold announcedOcts at h ⊢
  unfold headerOcts
  by_cases hbit : extensionBit b
  · rw [if_pos hbit] at h ⊢
    rw [if_pos hbit, toNat_xLen]
    unfold announcedWords at h ⊢
    rw [Nat.mod_eq_of_lt (by omega)]
  · rw [if_neg hbit, if_neg hbit]

theorem announcedOcts_of_extensionBit (h : extensionBit b) :
    announcedOcts b = 12 + csrcOcts b + 4 + 4 * announcedWords b := by
  rw [announcedOcts, if_pos h]
  omega

theorem paddingLength_parse (h : Accepted b) :
    (parse b map header).2.paddingLength =
      if paddingBit b then b.byte (b.size - 1) else 0 := by
  have hfixed : (fixedHeader b header).paddingLength =
      if paddingBit b then b.byte (b.size - 1) else 0 := by
    unfold fixedHeader paddingBit
    simp only [bne_iff_ne]
  rw [parse_snd h]
  split
  · exact hfixed
  · exact hfixed

theorem readProfile_proper_iff (hocts : announcedOcts b < 2 ^ 16)
    (hfits : announcedOcts b ≤ b.size) (hbit : extensionBit b) :
    (readProfile b map (announcedProfile b) (headerOcts b)
        (12 + csrcOcts b + 4) {}).All (Read.Proper b (extensionBlock b)) ↔
      (announcedProfile b = kRtpOneByteHeaderExtensionId →
        ∀ m ∈ map, ElementsFit b m (announcedOcts b) (12 + csrcOcts b + 4)) := by
  have hsum := announcedOcts_of_extensionBit hbit
  unfold readProfile
  rw [headerOcts_eq hocts]
  by_cases hprofile : announcedProfile b = kRtpOneByteHeaderExtensionId
  · rw [if_pos hprofile, imp_iff_right hprofile]
    cases map with
    | none => exact ⟨fun _ m hm => (nomatch hm), fun _ => Traced.all_pure _⟩
    | some m =>
      rw [hsum] at hfits ⊢
      rw [show extensionBlock b =
          ⟨12 + csrcOcts b + 4, 4 * announcedWords b⟩ from rfl,
        readOneByteExtensionHeader_proper_iff hfits]
      exact ⟨fun h m' hm => by cases hm; exact h, fun h => h m rfl⟩
  · rw [if_neg hprofile]
    exact ⟨fun _ h => absurd h hprofile, fun _ => Traced.all_pure _⟩

theorem wellAnnounced_of_parsesSafely (h : ParsesSafely b map header)
    (haccepted : Accepted b) : WellAnnounced b map := by
  obtain ⟨hreads, hvalue⟩ := h
  rw [value_readParse] at hvalue
  obtain ⟨hsize, heq, hpadding⟩ := hvalue (parse_fst.mpr haccepted)
  have hocts : announcedOcts b < 2 ^ 16 := by
    rw [← heq]
    exact UInt16.toNat_lt _
  refine ⟨hocts, fun hbit => ?_, fun hbit => ?_⟩
  · rw [heq, paddingLength_parse haccepted, if_pos hbit] at hpadding
    exact hpadding
  · rw [heq] at hsize
    exact (readProfile_proper_iff hocts hsize hbit).mp
      (readParse_proper_iff.mp hreads haccepted hbit)

theorem parsesSafely_of_wellAnnounced
    (h : Accepted b → WellAnnounced b map) : ParsesSafely b map header := by
  constructor
  · rw [readParse_proper_iff]
    intro haccepted hbit
    have hwell := h haccepted
    have hfits : announcedOcts b ≤ b.size := by
      rw [← headerOcts_eq hwell.octs]
      exact haccepted.2.2
    exact (readProfile_proper_iff hwell.octs hfits hbit).mpr
      (hwell.elements hbit)
  · rw [value_readParse]
    intro hfst
    have haccepted := parse_fst.mp hfst
    have hwell := h haccepted
    have hfits := haccepted.2.2
    rw [headerOcts_eq hwell.octs] at hfits
    have hlength : (parse b map header).2.headerLength.toNat =
        announcedOcts b := by
      rw [(parsed haccepted).headerLength, headerOcts_eq hwell.octs,
        UInt16.toNat_ofNat', Nat.mod_eq_of_lt hwell.octs]
    rw [hlength, paddingLength_parse haccepted]
    refine ⟨hfits, rfl, ?_⟩
    split
    next hbit => exact hwell.padding hbit
    · exact hfits

/-- Parsing is safe for the packets that it refuses, and for those that are
well announced. -/
theorem parsesHeaderSafely_iff (b : Buffer) (map : Option RtpHeaderExtensionMap)
    (header : RTPHeader) :
    ParsesSafely b map header ↔ (Accepted b → WellAnnounced b map) :=
  ⟨wellAnnounced_of_parsesSafely, parsesSafely_of_wellAnnounced⟩

/-- The P bit is set, and the packet ends with the SSRC. -/
def paddedPacket : List UInt8 := [0xA0, 96, 0, 1, 0, 0, 0, 0, 0, 0, 0, 0xFF]

/-- An extension of 2 ^ 14 words is announced, and nothing follows. -/
def wrappedPacket : List UInt8 :=
  [0x90, 96, 0, 1, 0, 0, 0, 0, 0, 0, 0, 1, 0, 0, 0x40, 0]

/-- Behind an unknown element of three bytes, the last byte of the extension
starts one of four bytes. -/
def elementPacket : List UInt8 :=
  [0x90, 96, 0, 1, 0, 0, 0, 0, 0, 0, 0, 1, 0xBE, 0xDE, 0, 1,
    0x21, 1, 1, 0x12]

def timeOffsetMap : RtpHeaderExtensionMap where
  entries := [(1, .kRtpExtensionTransmissionTimeOffset)]
  increasing := by simp
  inRange := by simp

theorem not_parsesSafely_packets :
    [paddedPacket, wrappedPacket, elementPacket].Forall fun packet =>
      ¬ParsesSafely (.ofList packet fun _ => 0) (some timeOffsetMap) {} := by
  refine ⟨fun h => ?_, fun h => ?_, fun h => ?_⟩
  · have hwell := wellAnnounced_of_parsesSafely h
      ⟨by decide, by decide, by decide⟩
    exact absurd (hwell.padding (by decide)) (by decide)
  · have hwell := wellAnnounced_of_parsesSafely h
      ⟨by decide, by decide, by decide⟩
    exact absurd hwell.octs (by decide)
  · have hwell := wellAnnounced_of_parsesSafely h
      ⟨by decide, by decide, by decide⟩
    have hfit := hwell.elements (by decide) (by decide) _ rfl
    have hlast := hfit 19 (.next (p := 16) .first (by decide)
      ⟨by decide, fun type htype => by
        rw [show timeOffsetMap.getType _ = none from by decide] at htype
        cases htype⟩)
    exact absurd (hlast (by decide) _ rfl (by decide)) (by decide)

end Safe

end RtpHeaderParser

end WebrtcWinXp.Rtp
