import WebrtcWinXp.Rtp.Sender

/-!
# The layout of a header with extensions

A header that the sender writes is a function of its fields, of the registered
extensions and of the values in their blocks.  The parser finds the same values
in it.
-/

namespace WebrtcWinXp.Rtp

open Support

/-- The values in the blocks, 24 bits of which are sent, or 8 of the level. -/
structure ExtensionValues where
  transmissionTimeOffset : ℕ
  audioLevel : UInt8
  absoluteSendTime : ℕ

def RTPExtensionType.elementLen : RTPExtensionType → ℕ
  | .kRtpExtensionTransmissionTimeOffset => 2
  | .kRtpExtensionAudioLevel => 0
  | .kRtpExtensionAbsoluteSendTime => 2

def RTPExtensionType.padding : RTPExtensionType → List UInt8
  | .kRtpExtensionAudioLevel => [0, 0]
  | .kRtpExtensionTransmissionTimeOffset | .kRtpExtensionAbsoluteSendTime => []

namespace ExtensionValues

variable (v : ExtensionValues)

def value : RTPExtensionType → List UInt8
  | .kRtpExtensionTransmissionTimeOffset => toBE 3 v.transmissionTimeOffset
  | .kRtpExtensionAudioLevel => [v.audioLevel]
  | .kRtpExtensionAbsoluteSendTime => toBE 3 v.absoluteSendTime

def data (type : RTPExtensionType) : List UInt8 := v.value type ++ type.padding

def block (e : ℕ × RTPExtensionType) : List UInt8 :=
  blockByte e.1 e.2.elementLen :: v.data e.2

/-- The extension with its own header, or nothing when none is registered. -/
def extension (entries : List (ℕ × RTPExtensionType)) : List UInt8 :=
  if entries = [] then []
  else
    toBE 2 kRtpOneByteHeaderExtensionId ++
      (toBE 2 entries.length ++ entries.flatMap v.block)

@[simp] theorem length_data (type : RTPExtensionType) :
    (v.data type).length = 3 := by
  cases type <;> simp [data, value, RTPExtensionType.padding]

@[simp] theorem length_block (e : ℕ × RTPExtensionType) :
    (v.block e).length = 4 := by
  simp [block]

@[simp] theorem length_blocks (entries : List (ℕ × RTPExtensionType)) :
    (entries.flatMap v.block).length = 4 * entries.length := by
  induction entries with
  | nil => rfl
  | cons e entries ih =>
    rw [List.flatMap_cons, List.length_append, ih, length_block,
      List.length_cons]
    ring

theorem length_extension (entries : List (ℕ × RTPExtensionType)) :
    (v.extension entries).length =
      if entries = [] then 0 else 4 + 4 * entries.length := by
  unfold extension
  split
  · rfl
  · simp only [List.length_append, toBE_length, length_blocks]
    ring

/-! ## Parsing the blocks -/

def record (ext : RTPHeaderExtension) (e : ℕ × RTPExtensionType) :
    RTPHeaderExtension :=
  match e.2 with
  | .kRtpExtensionTransmissionTimeOffset =>
    { ext with
      transmissionTimeOffset :=
        RtpHeaderParser.signed24 (v.transmissionTimeOffset % 2 ^ 24)
      hasTransmissionTimeOffset := true }
  | .kRtpExtensionAudioLevel =>
    { ext with audioLevel := v.audioLevel, hasAudioLevel := true }
  | .kRtpExtensionAbsoluteSendTime =>
    { ext with
      absoluteSendTime := v.absoluteSendTime % 2 ^ 24
      hasAbsoluteSendTime := true }

end ExtensionValues

theorem blockByte_bits {id len : ℕ} (hid : 1 ≤ id ∧ id ≤ 14) (hlen : len ≤ 2) :
    ((blockByte id len &&& 0xf0) >>> 4).toNat = id ∧
      (blockByte id len &&& 0x0f).toNat = len ∧ blockByte id len ≠ 0 := by
  have hbits : ∀ id : Fin 15, ∀ len : Fin 3, 1 ≤ id.1 →
      ((blockByte id len &&& 0xf0) >>> 4).toNat = id ∧
        (blockByte id len &&& 0x0f).toNat = len ∧ blockByte id len ≠ 0 := by
    decide
  exact hbits ⟨id, by omega⟩ ⟨len, by omega⟩ hid.1

theorem RTPExtensionType.elementLen_le (type : RTPExtensionType) :
    type.elementLen ≤ 2 := by
  cases type <;> decide

namespace RtpHeaderParser

variable {b : Buffer} {m : RtpHeaderExtensionMap} {v : ExtensionValues}
  {stop ptr : ℕ} {ext : RTPHeaderExtension}

theorem zeroBytes_eq_zero {n : ℕ} (h : n = 0 ∨ b.byte ptr ≠ 0) :
    zeroBytes b n ptr = 0 := by
  cases n with
  | zero => rfl
  | succ n =>
    rw [zeroBytes, if_pos (h.resolve_left (Nat.succ_ne_zero n))]

theorem readElement_eq {type : RTPExtensionType} {id : ℕ}
    (hdata : b.read ⟨ptr, 3⟩ = v.data type) :
    readElement b ptr type.elementLen ext type =
      some (v.record ext (id, type)) := by
  cases type with
  | kRtpExtensionTransmissionTimeOffset | kRtpExtensionAbsoluteSendTime =>
    rw [ExtensionValues.data, RTPExtensionType.padding, List.append_nil]
      at hdata
    simp only [readElement, RTPExtensionType.elementLen, hdata,
      ExtensionValues.value, ofBE_toBE, ExtensionValues.record]
    rfl
  | kRtpExtensionAudioLevel =>
    have hbyte : b.byte ptr = v.audioLevel := by
      rw [Buffer.read_succ] at hdata
      exact (List.cons.inj hdata).1
    simp only [readElement, RTPExtensionType.elementLen, hbyte,
      ExtensionValues.record]
    rfl

theorem skipped_eq {type : RTPExtensionType} {n : ℕ}
    (hdata : b.read ⟨ptr + 1, 3⟩ = v.data type)
    (hnext : n = 0 ∨ b.byte (ptr + 4) ≠ 0) (hstop : stop = ptr + 4 + n) :
    ptr + 1 + (type.elementLen + 1) +
      parsePaddingBytes b stop (ptr + 1 + (type.elementLen + 1)) =
        ptr + 4 := by
  have hzero : zeroBytes b n (ptr + 4) = 0 := zeroBytes_eq_zero hnext
  subst hstop
  cases type with
  | kRtpExtensionTransmissionTimeOffset | kRtpExtensionAbsoluteSendTime =>
    simp only [RTPExtensionType.elementLen, parsePaddingBytes]
    rw [Nat.add_sub_cancel_left, hzero]
    rfl
  | kRtpExtensionAudioLevel =>
    rw [Buffer.read_succ, Buffer.read_succ, Buffer.read_succ] at hdata
    simp only [ExtensionValues.data, ExtensionValues.value,
      RTPExtensionType.padding, List.cons_append, List.nil_append,
      List.cons.injEq] at hdata
    obtain ⟨-, hfirst, hsecond, -⟩ := hdata
    have hsub : ptr + 4 + n - (ptr + 1 + 1) = n + 1 + 1 := by omega
    simp only [RTPExtensionType.elementLen, parsePaddingBytes]
    rw [hsub, zeroBytes, if_neg (not_not.mpr hfirst), zeroBytes,
      if_neg (not_not.mpr hsecond), hzero]
    rfl

theorem parseElement_eq {front back : List (ℕ × RTPExtensionType)}
    {e : ℕ × RTPExtensionType} (hentries : m.entries = front ++ e :: back)
    (hblock : b.read ⟨ptr, 4⟩ = v.block e)
    (hback : b.read ⟨ptr + 4, 4 * back.length⟩ = back.flatMap v.block)
    (hstop : stop = ptr + 4 + 4 * back.length) :
    parseElement b m stop (ptr, ext) = some (ptr + 4, v.record ext e) := by
  obtain ⟨id, type⟩ := e
  have hid := m.inRange (id, type) (by simp [hentries])
  obtain ⟨hgetId, hgetLen, -⟩ := blockByte_bits hid type.elementLen_le
  rw [Buffer.read_succ] at hblock
  obtain ⟨hfirst, hdata⟩ := List.cons.inj hblock
  have hnext : 4 * back.length = 0 ∨ b.byte (ptr + 4) ≠ 0 := by
    cases back with
    | nil => exact .inl rfl
    | cons e' back =>
      refine .inr ?_
      have hid' := m.inRange e' (by simp [hentries])
      rw [List.length_cons, Nat.mul_succ, Buffer.read_succ] at hback
      rw [(List.cons.inj hback).1]
      exact (blockByte_bits hid' e'.2.elementLen_le).2.2
  have hskipped := skipped_eq hdata hnext hstop
  rw [parseElement, if_neg (by dsimp only; omega)]
  dsimp only at hfirst hgetId ⊢
  rw [hfirst, hgetId, hgetLen, if_neg (by omega), hskipped,
    RtpHeaderExtensionMap.getType_eq hentries]
  dsimp only
  rw [readElement_eq hdata]
  rfl

theorem finish_parseElement {entries front back : List (ℕ × RTPExtensionType)}
    (hm : m.entries = entries) (hentries : entries = front ++ back)
    (hblocks : b.read ⟨ptr, 4 * back.length⟩ = back.flatMap v.block)
    (hstop : stop = ptr + 4 * back.length) :
    finish (parseElement b m stop) (fun s => stop - s.1) (ptr, ext) =
      (stop, back.foldl v.record ext) := by
  induction back generalizing front ptr ext with
  | nil =>
    rw [finish_of_eq_none]
    · rw [hstop]
      rfl
    · rw [parseElement, if_pos (by rw [hstop]; rfl)]
  | cons e back ih =>
    have hlength : 4 * (e :: back).length = 4 + 4 * back.length := by
      rw [List.length_cons]
      ring
    rw [hlength, Buffer.read_add, List.flatMap_cons] at hblocks
    obtain ⟨hblock, hback⟩ := List.append_inj hblocks (by simp)
    have hstop' : stop = ptr + 4 + 4 * back.length := by omega
    rw [finish_of_eq_some (lowers_parseElement _ _ _)
      (parseElement_eq (hm.trans hentries) hblock hback hstop'),
      ih (hentries.trans (List.append_cons front e back)) hback hstop',
      List.foldl_cons]

end RtpHeaderParser

/-! ## The header -/

namespace HeaderFields

variable (f : HeaderFields) (v : ExtensionValues)
  (entries : List (ℕ × RTPExtensionType))

def fixedBytes (extensionLength : ℕ) : List UInt8 :=
  RTPSender.firstByte f.csrcs.length extensionLength ::
    RTPSender.secondByte f.payloadType f.markerBit ::
      (toBE 2 f.sequenceNumber.toNat ++
        (toBE 4 f.timestamp.toNat ++ toBE 4 f.ssrc.toNat))

def csrcBytes : List UInt8 := f.csrcs.flatMap fun csrc => toBE 4 csrc.toNat

def headerBytes : List UInt8 :=
  f.fixedBytes (v.extension entries).length ++
    (f.csrcBytes ++ v.extension entries)

@[simp] theorem length_fixedBytes (n : ℕ) : (f.fixedBytes n).length = 12 := by
  simp [fixedBytes]

@[simp] theorem length_csrcBytes :
    f.csrcBytes.length = 4 * f.csrcs.length := by
  rw [csrcBytes]
  induction f.csrcs with
  | nil => rfl
  | cons csrc csrcs ih =>
    rw [List.flatMap_cons, List.length_append, ih, toBE_length,
      List.length_cons]
    ring

theorem length_headerBytes :
    (f.headerBytes v entries).length =
      12 + 4 * f.csrcs.length + (v.extension entries).length := by
  simp only [headerBytes, List.length_append, length_fixedBytes,
    length_csrcBytes]
  ring

end HeaderFields

namespace RTPSender

def values (s : RTPSender) : ExtensionValues where
  transmissionTimeOffset := (s.transmissionTimeOffset % 2 ^ 32).toNat
  audioLevel := 0x80
  absoluteSendTime := ((s.absoluteSendTime : ℤ) % 2 ^ 32).toNat

variable {s : RTPSender} {f : HeaderFields}

theorem buildExtension_eq {id : ℕ} {type : RTPExtensionType}
    (h : s.rtpHeaderExtensionMap.getId type = some id) :
    s.buildExtension type = (s.values.block (id, type), 4) := by
  cases type <;>
    simp only [buildExtension, buildTransmissionTimeOffsetExtension,
      buildAudioLevelExtension, buildAbsoluteSendTimeExtension, h] <;> rfl

theorem loop_buildStep (hone : s.rtpHeaderExtensionMap.OneId)
    {entries front back : List (ℕ × RTPExtensionType)}
    (hm : s.rtpHeaderExtensionMap.entries = entries)
    (hentries : entries = front ++ back) {n : ℕ} (hn : back.length < n)
    (data : List UInt8) (total : ℕ) :
    loop s.buildStep n (back.head?.map Prod.snd, data, total) =
      some (none, data ++ back.flatMap s.values.block,
        total + 4 * back.length) := by
  induction back generalizing front n data total with
  | nil =>
    obtain ⟨n, rfl⟩ : ∃ k, n = k + 1 := ⟨n - 1, by simp at hn; omega⟩
    rw [loop]
    simp [buildStep]
  | cons e back ih =>
    obtain ⟨n, rfl⟩ : ∃ k, n = k + 1 := ⟨n - 1, by omega⟩
    have hentry := hm.trans hentries
    have hlength : total + 4 * (e :: back).length =
        total + 4 + 4 * back.length := by
      rw [List.length_cons]
      ring
    rw [loop]
    dsimp only [List.head?_cons, Option.map_some, buildStep]
    rw [buildExtension_eq (hone.getId_eq hentry), hone.next_eq hentry,
      ih (hentries.trans (List.append_cons front e back))
        (Nat.lt_of_succ_lt_succ hn),
      hlength, List.flatMap_cons, List.append_assoc]

theorem buildRTPHeaderExtension_eq (hone : s.rtpHeaderExtensionMap.OneId) :
    s.buildRTPHeaderExtension =
      some (s.values.extension s.rtpHeaderExtensionMap.entries,
        (s.values.extension s.rtpHeaderExtensionMap.entries).length) := by
  rw [ExtensionValues.length_extension, buildRTPHeaderExtension,
    ExtensionValues.extension]
  by_cases hempty : s.rtpHeaderExtensionMap.entries = []
  · have hsize : s.rtpHeaderExtensionMap.size = 0 := by
      rw [RtpHeaderExtensionMap.size, hempty]
      rfl
    rw [if_pos hsize, if_pos hempty, if_pos hempty]
  · have hpos : 0 < s.rtpHeaderExtensionMap.entries.length :=
      List.length_pos_of_ne_nil hempty
    have hloop := loop_buildStep hone rfl (List.nil_append _).symm
      (Nat.lt_succ_self _) [] 0
    rw [RtpHeaderExtensionMap.first, RtpHeaderExtensionMap.size,
      if_neg hpos.ne', if_neg hempty, if_neg hempty, hloop]
    simp only [Nat.zero_add, List.nil_append, Option.map_some,
      Nat.mul_div_cancel_left _ (show 0 < 4 by decide)]
    rw [if_neg (by omega)]
    rfl

/-- What `CreateRTPHeader` writes and returns. -/
theorem createRTPHeader_eq (hone : s.rtpHeaderExtensionMap.OneId)
    (hcsrcs : f.csrcs.length ≤ kRtpCsrcSize) :
    s.createRTPHeader f =
      some (f.headerBytes s.values s.rtpHeaderExtensionMap.entries,
        (f.headerBytes s.values s.rtpHeaderExtensionMap.entries).length) := by
  rw [createRTPHeader, if_neg (Nat.not_lt.mpr hcsrcs),
    buildRTPHeaderExtension_eq hone, HeaderFields.length_headerBytes]
  simp [HeaderFields.headerBytes, HeaderFields.fixedBytes,
    HeaderFields.csrcBytes]

end RTPSender

end WebrtcWinXp.Rtp
