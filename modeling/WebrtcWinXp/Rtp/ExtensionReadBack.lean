import WebrtcWinXp.Rtp.BuiltHeader

/-!
# Reading extensions back, also after an update

The values that the sender stores are read back by the parser.  The functions
that update a block count one byte for each CSRC where the header has four, so
an updated value is read back when there is no CSRC, or nothing to change.
-/

namespace WebrtcWinXp.Rtp

open Support

theorem and_sign_ne_zero {value : ℕ} (h : value < 2 ^ 24) :
    value &&& 0x800000 ≠ 0 ↔ 2 ^ 23 ≤ value := by
  have hbit : value.testBit 23 = decide (2 ^ 23 ≤ value) := by
    rw [Nat.testBit_eq_decide_div_mod_eq, decide_eq_decide]
    omega
  have hsign : 0x800000 = 2 ^ 23 := rfl
  constructor
  · intro hne
    by_contra hlt
    refine hne (Nat.eq_of_testBit_eq fun i => ?_)
    rw [Nat.testBit_and, hsign, Nat.testBit_two_pow, Nat.zero_testBit]
    by_cases hi : 23 = i
    · subst hi
      rw [hbit, decide_eq_false hlt, Bool.false_and]
    · rw [decide_eq_false hi, Bool.and_false]
  · intro hle hzero
    have htop : (value &&& 0x800000).testBit 23 = true := by
      rw [Nat.testBit_and, hsign, Nat.testBit_two_pow_self, hbit,
        decide_eq_true hle, Bool.and_true]
    rw [hzero, Nat.zero_testBit] at htop
    cases htop

theorem signed24_eq {value : ℕ} (h : value < 2 ^ 24) :
    RtpHeaderParser.signed24 value =
      if value < 2 ^ 23 then (value : ℤ) else value - 2 ^ 24 := by
  have hor : value ||| 0xFF000000 = 2 ^ 24 * 255 + value := by
    rw [Nat.two_pow_add_eq_or_of_lt h, Nat.or_comm]
  rw [RtpHeaderParser.signed24, hor, BitVec.toInt_ofNat']
  by_cases hsign : value < 2 ^ 23
  · rw [if_pos hsign, if_neg ((and_sign_ne_zero h).not.mpr (by omega)),
      Int.bmod_def]
    omega
  · rw [if_neg hsign, if_pos ((and_sign_ne_zero h).mpr (by omega)),
      Int.bmod_def]
    omega

theorem signed24_toNat {value : ℤ} (h : -2 ^ 23 ≤ value ∧ value < 2 ^ 23) :
    RtpHeaderParser.signed24 ((value % 2 ^ 32).toNat % 2 ^ 24) = value := by
  rw [signed24_eq (Nat.mod_lt _ (by decide))]
  split <;> omega

/-- What the parser stores for blocks of these types. -/
def ExtensionValues.readBack (v : ExtensionValues)
    (types : List RTPExtensionType) : RTPHeaderExtension where
  hasTransmissionTimeOffset :=
    decide (.kRtpExtensionTransmissionTimeOffset ∈ types)
  transmissionTimeOffset :=
    if .kRtpExtensionTransmissionTimeOffset ∈ types then
      RtpHeaderParser.signed24 (v.transmissionTimeOffset % 2 ^ 24) else 0
  hasAbsoluteSendTime := decide (.kRtpExtensionAbsoluteSendTime ∈ types)
  absoluteSendTime :=
    if .kRtpExtensionAbsoluteSendTime ∈ types then
      v.absoluteSendTime % 2 ^ 24 else 0
  hasAudioLevel := decide (.kRtpExtensionAudioLevel ∈ types)
  audioLevel :=
    if .kRtpExtensionAudioLevel ∈ types then v.audioLevel else 0

theorem ExtensionValues.record_readBack (v : ExtensionValues)
    (types : List RTPExtensionType) (e : ℕ × RTPExtensionType) :
    v.record (v.readBack types) e = v.readBack (types ++ [e.2]) := by
  obtain ⟨id, type⟩ := e
  cases type <;> simp [record, readBack]

theorem ExtensionValues.foldl_record (v : ExtensionValues)
    (entries : List (ℕ × RTPExtensionType)) :
    entries.foldl v.record {} = v.readBack (entries.map Prod.snd) := by
  induction entries using List.reverseRecOn with
  | nil => rfl
  | append_singleton entries e ih =>
    rw [List.foldl_append, ih, List.map_append]
    exact v.record_readBack _ e

namespace RTPSender

def types (s : RTPSender) : List RTPExtensionType :=
  s.rtpHeaderExtensionMap.entries.map Prod.snd

def InRange (s : RTPSender) : Prop :=
  (-2 ^ 23 ≤ s.transmissionTimeOffset ∧ s.transmissionTimeOffset < 2 ^ 23) ∧
    s.absoluteSendTime < 2 ^ 24

/-- What a header of this sender is to be read as. -/
def storedExtension (s : RTPSender) : RTPHeaderExtension where
  hasTransmissionTimeOffset :=
    decide (.kRtpExtensionTransmissionTimeOffset ∈ s.types)
  transmissionTimeOffset :=
    if .kRtpExtensionTransmissionTimeOffset ∈ s.types then
      s.transmissionTimeOffset else 0
  hasAbsoluteSendTime := decide (.kRtpExtensionAbsoluteSendTime ∈ s.types)
  absoluteSendTime :=
    if .kRtpExtensionAbsoluteSendTime ∈ s.types then s.absoluteSendTime else 0
  hasAudioLevel := decide (.kRtpExtensionAudioLevel ∈ s.types)
  audioLevel := if .kRtpExtensionAudioLevel ∈ s.types then 0x80 else 0

theorem readBack_values {s : RTPSender} (h : s.InRange) :
    s.values.readBack s.types = s.storedExtension := by
  have htime : ((s.absoluteSendTime : ℤ) % 2 ^ 32).toNat % 2 ^ 24 =
      s.absoluteSendTime := by
    have hlt := h.2
    omega
  simp only [ExtensionValues.readBack, storedExtension, values,
    signed24_toNat h.1, htime]

end RTPSender

/-! ## Updates -/

/-- The three update functions with their values. -/
inductive ExtensionUpdate where
  | transmissionTimeOffset (timeDiffMs : ℤ)
  | audioLevel (isVoiced : Bool) (dBov : UInt8)
  | absoluteSendTime (nowMs : ℕ)

namespace ExtensionUpdate

def type : ExtensionUpdate → RTPExtensionType
  | transmissionTimeOffset _ => .kRtpExtensionTransmissionTimeOffset
  | audioLevel .. => .kRtpExtensionAudioLevel
  | absoluteSendTime _ => .kRtpExtensionAbsoluteSendTime

def apply (s : RTPSender) (packet : List UInt8) (header : RTPHeader) :
    ExtensionUpdate → List UInt8
  | transmissionTimeOffset timeDiffMs =>
    s.updateTransmissionTimeOffset packet header timeDiffMs
  | audioLevel isVoiced dBov =>
    (s.updateAudioLevel packet header isVoiced dBov).2
  | absoluteSendTime nowMs => s.updateAbsoluteSendTime packet header nowMs

/-- The offset fits 24 bits on the 90 kHz clock, the level 7 bits, and the
conversion of the time does not overflow. -/
def InRange : ExtensionUpdate → Prop
  | transmissionTimeOffset timeDiffMs =>
    -2 ^ 23 ≤ timeDiffMs * 90 ∧ timeDiffMs * 90 < 2 ^ 23
  | audioLevel _ dBov => dBov < 0x80
  | absoluteSendTime nowMs => nowMs < 2 ^ 45

/-- The updated value is read: a signed offset, a level, or a time of which 24
bits are sent. -/
def ReadBy (ext : RTPHeaderExtension) : ExtensionUpdate → Prop
  | transmissionTimeOffset timeDiffMs =>
    ext.hasTransmissionTimeOffset = true ∧
      ext.transmissionTimeOffset = timeDiffMs * 90
  | audioLevel isVoiced dBov =>
    ext.hasAudioLevel = true ∧
      ext.audioLevel = (if isVoiced then 0x80 else 0) + dBov
  | absoluteSendTime nowMs =>
    ext.hasAbsoluteSendTime = true ∧
      ext.absoluteSendTime = nowMs * 2 ^ 18 / 1000 % 2 ^ 24

def data : ExtensionUpdate → List UInt8
  | transmissionTimeOffset timeDiffMs => assignUWord24 (timeDiffMs * 90)
  | audioLevel isVoiced dBov =>
    [(if isVoiced then 0x80 else 0x00) + (dBov &&& 0x7f)]
  | absoluteSendTime nowMs =>
    assignUWord24 (((nowMs <<< 18) / 1000) &&& 0x00ffffff : ℕ)

def values (v : ExtensionValues) : ExtensionUpdate → ExtensionValues
  | transmissionTimeOffset timeDiffMs =>
    { v with transmissionTimeOffset := (timeDiffMs * 90 % 2 ^ 32).toNat }
  | audioLevel isVoiced dBov =>
    { v with
      audioLevel := (if isVoiced then 0x80 else 0x00) + (dBov &&& 0x7f) }
  | absoluteSendTime nowMs =>
    { v with
      absoluteSendTime :=
        ((((nowMs <<< 18) / 1000) &&& 0x00ffffff : ℕ) % 2 ^ 32 : ℤ).toNat }

variable {s : RTPSender} {v : ExtensionValues} {u : ExtensionUpdate}

theorem apply_eq (s : RTPSender) (packet : List UInt8) (header : RTPHeader)
    (u : ExtensionUpdate) :
    u.apply s packet header =
      (s.updateBlock u.type u.type.elementLen u.data packet header).2 := by
  cases u <;> rfl

theorem value_values (v : ExtensionValues) (u : ExtensionUpdate) :
    (u.values v).value u.type = u.data := by
  cases u <;> rfl

theorem value_values_of_ne {type : RTPExtensionType} (h : type ≠ u.type) :
    (u.values v).value type = v.value type := by
  cases u <;> cases type <;> first | rfl | exact absurd rfl h

theorem length_data_le (u : ExtensionUpdate) : u.data.length ≤ 3 := by
  cases u <;> simp [data, assignUWord24]

theorem length_data (v : ExtensionValues) (u : ExtensionUpdate) :
    u.data.length = (v.value u.type).length := by
  cases u <;> simp [data, assignUWord24, type, ExtensionValues.value]

theorem and_7f {dBov : UInt8} (h : dBov < 0x80) : dBov &&& 0x7f = dBov := by
  have hall : ∀ n : Fin 128, UInt8.ofNat n &&& 0x7f = UInt8.ofNat n := by
    decide
  have hn := hall ⟨dBov.toNat, h⟩
  rwa [UInt8.ofNat_toNat] at hn

theorem sendTime_eq (nowMs : ℕ) :
    ((nowMs <<< 18) / 1000) &&& 0x00ffffff = nowMs * 2 ^ 18 / 1000 % 2 ^ 24 := by
  rw [Nat.shiftLeft_eq]
  exact Nat.and_two_pow_sub_one_eq_mod _ 24

theorem readBy_values (hu : u.InRange) {types : List RTPExtensionType}
    (htype : u.type ∈ types) : u.ReadBy ((u.values v).readBack types) := by
  cases u with
  | transmissionTimeOffset timeDiffMs =>
    refine ⟨decide_eq_true htype, ?_⟩
    exact (if_pos htype).trans (signed24_toNat hu)
  | audioLevel isVoiced dBov =>
    refine ⟨decide_eq_true htype, (if_pos htype).trans ?_⟩
    change _ + (dBov &&& 0x7f) = _
    rw [and_7f hu]
  | absoluteSendTime nowMs =>
    refine ⟨decide_eq_true htype, (if_pos htype).trans ?_⟩
    simp only [values, sendTime_eq]
    omega

theorem data_of_readBy (hu : u.InRange) (htype : u.type ∈ s.types)
    (h : u.ReadBy s.storedExtension) : u.data = s.values.value u.type := by
  cases u with
  | transmissionTimeOffset timeDiffMs =>
    have hvalue := (if_pos htype).symm.trans h.2
    change assignUWord24 (timeDiffMs * 90) =
      assignUWord24 s.transmissionTimeOffset
    rw [← hvalue]
  | audioLevel isVoiced dBov =>
    have hvalue : (0x80 : UInt8) = (if isVoiced then 0x80 else 0) + dBov :=
      (if_pos htype).symm.trans h.2
    change [_ + (dBov &&& 0x7f)] = [(0x80 : UInt8)]
    rw [and_7f hu]
    exact congrArg (fun level => [level]) hvalue.symm
  | absoluteSendTime nowMs =>
    have hvalue := (if_pos htype).symm.trans h.2
    change assignUWord24 _ = assignUWord24 s.absoluteSendTime
    rw [sendTime_eq, ← hvalue]

end ExtensionUpdate

/-! ## The block in a packet -/

section Block

open RtpHeaderExtensionMap

variable {s : RTPSender} {f : HeaderFields} {payload : List UInt8}
  {beyond : ℕ → UInt8} {front back : List (ℕ × RTPExtensionType)} {id : ℕ}
  {type : RTPExtensionType} {v w : ExtensionValues}

/-- Where the value of a registered extension starts in a packet. -/
def valueStart (s : RTPSender) (f : HeaderFields) (type : RTPExtensionType) :
    ℕ :=
  12 + 4 * f.csrcs.length +
    (s.rtpHeaderExtensionMap.getLengthUntilBlockStartInBytes type).getD 0 + 1

theorem valueStart_eq (hone : s.rtpHeaderExtensionMap.OneId)
    (hentries : s.rtpHeaderExtensionMap.entries = front ++ (id, type) :: back) :
    valueStart s f type =
      12 + 4 * f.csrcs.length + (4 + 4 * front.length) + 1 := by
  rw [valueStart, hone.getLengthUntilBlockStartInBytes_eq hentries]
  rfl

theorem exists_around (hone : s.rtpHeaderExtensionMap.OneId)
    (hentries : s.rtpHeaderExtensionMap.entries = front ++ (id, type) :: back)
    (f : HeaderFields) (v : ExtensionValues) (payload : List UInt8) :
    ∃ pre post : List UInt8, pre.length = valueStart s f type ∧
      ∀ w : ExtensionValues,
        (∀ type', type' ≠ type → w.value type' = v.value type') →
        f.headerBytes w s.rtpHeaderExtensionMap.entries ++ payload =
          pre ++ (w.value type ++ post) := by
  refine ⟨f.fixedBytes (v.extension s.rtpHeaderExtensionMap.entries).length ++
    (f.csrcBytes ++ (toBE 2 kRtpOneByteHeaderExtensionId ++
      (toBE 2 s.rtpHeaderExtensionMap.entries.length ++
        (front.flatMap v.block ++ [blockByte id type.elementLen])))),
    type.padding ++ (back.flatMap v.block ++ payload), ?_, ?_⟩
  · rw [valueStart_eq hone hentries]
    simp only [List.length_append, HeaderFields.length_fixedBytes,
      HeaderFields.length_csrcBytes, toBE_length,
      ExtensionValues.length_blocks, List.length_singleton]
    ring
  · intro w hw
    have hblock : ∀ e : ℕ × RTPExtensionType, e.2 ≠ type →
        w.block e = v.block e := by
      intro e he
      rw [ExtensionValues.block, ExtensionValues.block, ExtensionValues.data,
        ExtensionValues.data, hw _ he]
    have hfront : front.flatMap w.block = front.flatMap v.block :=
      List.flatMap_congr fun e he => hblock e (hone.front_type_ne hentries e he)
    have hback : back.flatMap w.block = back.flatMap v.block :=
      List.flatMap_congr fun e he => hblock e (hone.back_type_ne hentries e he)
    have hne : s.rtpHeaderExtensionMap.entries ≠ [] := by
      simp [hentries]
    have hext : w.extension s.rtpHeaderExtensionMap.entries =
        toBE 2 kRtpOneByteHeaderExtensionId ++
          (toBE 2 s.rtpHeaderExtensionMap.entries.length ++
            (front.flatMap v.block ++ (blockByte id type.elementLen ::
              (w.value type ++ (type.padding ++ back.flatMap v.block))))) := by
      rw [ExtensionValues.extension, if_neg hne]
      conv_lhs => rw [hentries]
      rw [List.flatMap_append, List.flatMap_cons, hfront, hback, hentries]
      simp [ExtensionValues.block, ExtensionValues.data]
    rw [HeaderFields.headerBytes, ExtensionValues.length_extension,
      ← v.length_extension, hext]
    simp

theorem checked_bytes
    (hentries : s.rtpHeaderExtensionMap.entries = front ++ (id, type) :: back)
    (f : HeaderFields) (v : ExtensionValues) (payload : List UInt8) :
    let packet := f.headerBytes v s.rtpHeaderExtensionMap.entries ++ payload
    packet.getD (12 + 4 * f.csrcs.length) 0 = 0xBE ∧
      packet.getD (12 + 4 * f.csrcs.length + 1) 0 = 0xDE ∧
      packet.getD (12 + 4 * f.csrcs.length + (4 + 4 * front.length)) 0 =
        blockByte id type.elementLen := by
  have hne : s.rtpHeaderExtensionMap.entries ≠ [] := by
    simp [hentries]
  obtain ⟨hid, -, hblocks⟩ :=
    f.read_extension v payload (fun _ => 0) hne
  have hlength : 4 * s.rtpHeaderExtensionMap.entries.length =
      4 * front.length + (3 + 4 * back.length + 1) := by
    rw [hentries, List.length_append, List.length_cons]
    ring
  rw [hlength, Buffer.read_add, hentries, List.flatMap_append] at hblocks
  have htail := (List.append_inj hblocks
    ((Buffer.length_read _ _).trans (v.length_blocks front).symm)).2
  rw [List.flatMap_cons, Buffer.read_succ, Nat.add_assoc] at htail
  rw [Buffer.read_succ, Buffer.read_succ] at hid
  obtain ⟨hBE, hrest⟩ := List.cons.inj hid
  exact ⟨hBE, (List.cons.inj hrest).1, (List.cons.inj htail).1⟩

theorem findBlock_eq (hone : s.rtpHeaderExtensionMap.OneId)
    (hentries : s.rtpHeaderExtensionMap.entries = front ++ (id, type) :: back)
    {packet : List UInt8} {header : RTPHeader} {n pos : ℕ}
    (hn : header.numCSRCs.toNat = n)
    (hpos : pos = 12 + n + (4 + 4 * front.length)) (len : ℕ) :
    s.findBlock type len packet header =
      if packet.length < pos + 4 ∨ header.headerLength.toNat < pos + 4 then
        none
      else if ¬(packet.getD (12 + n) 0 = 0xBE ∧
          packet.getD (12 + n + 1) 0 = 0xDE) then none
      else if packet.getD pos 0 ≠ blockByte id len then none
      else some pos := by
  subst hn hpos
  rw [RTPSender.findBlock, hone.getId_eq hentries,
    hone.getLengthUntilBlockStartInBytes_eq hentries]
  simp only [RTPExtensionType.length_eq, kRtpOneByteHeaderLength]
  rfl

theorem findBlock_eq_some (hone : s.rtpHeaderExtensionMap.OneId)
    (hentries : s.rtpHeaderExtensionMap.entries = front ++ (id, type) :: back)
    {packet : List UInt8} {header : RTPHeader} {len pos : ℕ}
    (h : s.findBlock type len packet header = some pos) :
    pos = 12 + header.numCSRCs.toNat + (4 + 4 * front.length) ∧
      pos + 4 ≤ packet.length := by
  rw [findBlock_eq hone hentries rfl rfl] at h
  split_ifs at h with hlength
  rw [Option.some_inj] at h
  exact ⟨h.symm, by omega⟩

theorem findBlock_of_csrcs_eq_nil (hone : s.rtpHeaderExtensionMap.OneId)
    (hentries : s.rtpHeaderExtensionMap.entries = front ++ (id, type) :: back)
    (hcsrcs : f.csrcs = []) (v : ExtensionValues) (payload : List UInt8)
    (beyond : ℕ → UInt8) :
    s.findBlock type type.elementLen
      (f.headerBytes v s.rtpHeaderExtensionMap.entries ++ payload)
      (RtpHeaderParser.parse (f.buffer v s.rtpHeaderExtensionMap payload beyond)
        none {}).2 = some (12 + (4 + 4 * front.length)) := by
  have hle : f.csrcs.length ≤ kRtpCsrcSize := by
    rw [hcsrcs]
    exact Nat.zero_le _
  obtain ⟨-, hlength, hnum⟩ :=
    f.parse_buffer v s.rtpHeaderExtensionMap payload beyond hle none
  obtain ⟨hBE, hDE, hblock⟩ := checked_bytes hentries f v payload
  have hzero : f.csrcs.length = 0 := by
    rw [hcsrcs]
    rfl
  have hheader : (f.headerBytes v s.rtpHeaderExtensionMap.entries).length =
      12 + (4 + 4 * (front.length + 1 + back.length)) := by
    have hne : s.rtpHeaderExtensionMap.entries ≠ [] := by
      simp [hentries]
    rw [HeaderFields.length_headerBytes, ExtensionValues.length_extension,
      if_neg hne, hzero, hentries, List.length_append, List.length_cons]
    ring
  rw [hzero] at hnum hBE hDE hblock
  have hfits : ¬((f.headerBytes v s.rtpHeaderExtensionMap.entries ++
        payload).length < 12 + 0 + (4 + 4 * front.length) + 4 ∨
      (f.headerBytes v s.rtpHeaderExtensionMap.entries).length <
        12 + 0 + (4 + 4 * front.length) + 4) := by
    rw [List.length_append, hheader]
    omega
  rw [findBlock_eq hone hentries hnum rfl, hlength, if_neg hfits,
    if_neg (not_not.mpr ⟨hBE, hDE⟩), if_neg (not_not.mpr hblock)]

end Block

/-! ## Reading back -/

/-- A created header is read back with its length and the stored values, and
so is the update of a registered extension, which changes no other byte. -/
def ReadsBack (s : RTPSender) (f : HeaderFields) (payload : List UInt8)
    (beyond : ℕ → UInt8) (u : ExtensionUpdate) : Prop :=
  ∃ header len, s.createRTPHeader f = some (header, len) ∧
    let received (packet : List UInt8) :=
      RtpHeaderParser.parse (.ofList packet beyond)
        (some s.rtpHeaderExtensionMap) {}
    let packet := header ++ payload
    let updated := u.apply s packet
      (RtpHeaderParser.parse (.ofList packet beyond) none {}).2
    ((received packet).1 = true ∧
        (received packet).2.headerLength.toNat = len ∧
        (received packet).2.extension = s.storedExtension) ∧
      (u.type ∈ s.types → (received updated).1 = true ∧
        u.ReadBy (received updated).2.extension) ∧
      ∀ i, i < valueStart s f u.type ∨
          valueStart s f u.type + u.data.length ≤ i →
        updated[i]? = packet[i]?

/-- The update finds what looks like the block, and would change it. -/
def Strays (s : RTPSender) (f : HeaderFields) (payload : List UInt8)
    (beyond : ℕ → UInt8) (u : ExtensionUpdate) : Prop :=
  ∃ header len blockPos, s.createRTPHeader f = some (header, len) ∧
    s.findBlock u.type u.type.elementLen (header ++ payload)
      (RtpHeaderParser.parse (.ofList (header ++ payload) beyond) none {}).2 =
        some blockPos ∧
    ((header ++ payload).drop (blockPos + 1)).take u.data.length ≠ u.data

section ReadsBack

variable {s : RTPSender} {f : HeaderFields} {payload : List UInt8}
  {beyond : ℕ → UInt8} {u : ExtensionUpdate}

def builtPacket (s : RTPSender) (f : HeaderFields) (payload : List UInt8) :
    List UInt8 :=
  f.headerBytes s.values s.rtpHeaderExtensionMap.entries ++ payload

/-- The packet with the update in the right place. -/
def updatedPacket (s : RTPSender) (f : HeaderFields) (payload : List UInt8)
    (u : ExtensionUpdate) : List UInt8 :=
  f.headerBytes (u.values s.values) s.rtpHeaderExtensionMap.entries ++ payload

theorem received_builtPacket (hrange : s.InRange)
    (hcsrcs : f.csrcs.length ≤ kRtpCsrcSize) :
    (RtpHeaderParser.parse (.ofList (builtPacket s f payload) beyond)
      (some s.rtpHeaderExtensionMap) {}).2.extension = s.storedExtension := by
  have h := f.extension_parse_buffer s.values s.rtpHeaderExtensionMap payload
    beyond hcsrcs
  rw [ExtensionValues.foldl_record] at h
  exact h.trans (RTPSender.readBack_values hrange)

theorem readsBack_iff_layout (hone : s.rtpHeaderExtensionMap.OneId)
    (hrange : s.InRange) (hcsrcs : f.csrcs.length ≤ kRtpCsrcSize) :
    ReadsBack s f payload beyond u ↔
      let packet := builtPacket s f payload
      let updated := u.apply s packet
        (RtpHeaderParser.parse (.ofList packet beyond) none {}).2
      (u.type ∈ s.types →
          (RtpHeaderParser.parse (.ofList updated beyond)
            (some s.rtpHeaderExtensionMap) {}).1 = true ∧
          u.ReadBy (RtpHeaderParser.parse (.ofList updated beyond)
            (some s.rtpHeaderExtensionMap) {}).2.extension) ∧
        ∀ i, i < valueStart s f u.type ∨
            valueStart s f u.type + u.data.length ≤ i →
          updated[i]? = packet[i]? := by
  have hparse := f.parse_buffer s.values s.rtpHeaderExtensionMap payload
    beyond hcsrcs (some s.rtpHeaderExtensionMap)
  unfold ReadsBack
  rw [RTPSender.createRTPHeader_eq hone hcsrcs]
  constructor
  · rintro ⟨header, len, heq, -, h⟩
    cases heq
    exact h
  · intro h
    exact ⟨_, _, rfl, ⟨hparse.1, hparse.2.1,
      received_builtPacket hrange hcsrcs⟩, h⟩

theorem readsBack_of_apply_eq (hone : s.rtpHeaderExtensionMap.OneId)
    (hrange : s.InRange) (hcsrcs : f.csrcs.length ≤ kRtpCsrcSize)
    (hu : u.InRange) (htype : u.type ∈ s.types)
    (h : u.apply s (builtPacket s f payload)
        (RtpHeaderParser.parse (.ofList (builtPacket s f payload) beyond) none
          {}).2 = updatedPacket s f payload u) :
    ReadsBack s f payload beyond u := by
  rw [readsBack_iff_layout hone hrange hcsrcs]
  dsimp only
  rw [h]
  refine ⟨fun _ => ⟨(f.parse_buffer _ _ payload beyond hcsrcs _).1, ?_⟩, ?_⟩
  · have hread := f.extension_parse_buffer (u.values s.values)
      s.rtpHeaderExtensionMap payload beyond hcsrcs
    rw [ExtensionValues.foldl_record] at hread
    have hreadBy :=
      ExtensionUpdate.readBy_values (v := s.values) hu htype
    exact hread.symm ▸ hreadBy
  · obtain ⟨front, id, back, hentries⟩ :=
      s.rtpHeaderExtensionMap.exists_entry htype
    obtain ⟨pre, post, hpre, haround⟩ :=
      exists_around hone hentries f s.values payload
    intro i hi
    rw [updatedPacket, builtPacket, haround s.values fun _ _ => rfl,
      haround (u.values s.values)
        fun _ hne => ExtensionUpdate.value_values_of_ne hne,
      ExtensionUpdate.value_values]
    have hlength := ExtensionUpdate.length_data s.values u
    rcases hi with hi | hi
    · rw [List.getElem?_append_left (by omega),
        List.getElem?_append_left (by omega)]
    · rw [List.getElem?_append_right (by omega),
        List.getElem?_append_right (by omega),
        List.getElem?_append_right (by omega),
        List.getElem?_append_right (by omega), hlength]

theorem apply_of_csrcs_eq_nil (hone : s.rtpHeaderExtensionMap.OneId)
    (htype : u.type ∈ s.types) (hcsrcs : f.csrcs = []) :
    u.apply s (builtPacket s f payload)
        (RtpHeaderParser.parse (.ofList (builtPacket s f payload) beyond) none
          {}).2 = updatedPacket s f payload u := by
  obtain ⟨front, id, back, hentries⟩ :=
    s.rtpHeaderExtensionMap.exists_entry htype
  obtain ⟨pre, post, hpre, haround⟩ :=
    exists_around hone hentries f s.values payload
  have hfind : s.findBlock u.type u.type.elementLen (builtPacket s f payload)
      (RtpHeaderParser.parse (.ofList (builtPacket s f payload) beyond) none
        {}).2 = some (12 + (4 + 4 * front.length)) :=
    findBlock_of_csrcs_eq_nil hone hentries hcsrcs s.values payload beyond
  have hstart : pre.length = 12 + (4 + 4 * front.length) + 1 := by
    rw [hpre, valueStart_eq hone hentries, hcsrcs]
    rfl
  rw [ExtensionUpdate.apply_eq, RTPSender.updateBlock, hfind]
  dsimp only
  rw [updatedPacket, builtPacket, haround s.values fun _ _ => rfl,
    haround (u.values s.values)
      fun _ hne => ExtensionUpdate.value_values_of_ne hne,
    ExtensionUpdate.value_values]
  exact overwrite_append hstart (ExtensionUpdate.length_data s.values u).symm

/-- With CSRCs the update leaves the packet as it is, or writes somewhere else
than in the value. -/
theorem getElem?_apply_of_csrcs_ne_nil (hone : s.rtpHeaderExtensionMap.OneId)
    (hcsrcs : f.csrcs.length ≤ kRtpCsrcSize) (htype : u.type ∈ s.types)
    (hne : f.csrcs ≠ []) {i : ℕ} (hi : valueStart s f u.type ≤ i) :
    (u.apply s (builtPacket s f payload)
        (RtpHeaderParser.parse (.ofList (builtPacket s f payload) beyond) none
          {}).2)[i]? = (builtPacket s f payload)[i]? := by
  obtain ⟨front, id, back, hentries⟩ :=
    s.rtpHeaderExtensionMap.exists_entry htype
  have hnum : (RtpHeaderParser.parse
      (.ofList (builtPacket s f payload) beyond) none {}).2.numCSRCs.toNat =
        f.csrcs.length :=
    (f.parse_buffer s.values s.rtpHeaderExtensionMap payload beyond hcsrcs
      none).2.2
  have hpos : 0 < f.csrcs.length := List.length_pos_of_ne_nil hne
  have hdata := u.length_data_le
  rw [valueStart_eq hone hentries] at hi
  rw [ExtensionUpdate.apply_eq, RTPSender.updateBlock]
  split
  · rfl
  · rename_i blockPos hfind
    obtain ⟨hblock, hfits⟩ := findBlock_eq_some hone hentries hfind
    rw [hnum] at hblock
    rw [getElem?_overwrite (by omega), if_neg (by omega)]

theorem apply_of_not_strays (hone : s.rtpHeaderExtensionMap.OneId)
    (hcsrcs : f.csrcs.length ≤ kRtpCsrcSize) (htype : u.type ∈ s.types)
    (hdata : u.data = s.values.value u.type)
    (hstray : ¬Strays s f payload beyond u) :
    u.apply s (builtPacket s f payload)
        (RtpHeaderParser.parse (.ofList (builtPacket s f payload) beyond) none
          {}).2 = updatedPacket s f payload u := by
  obtain ⟨front, id, back, hentries⟩ :=
    s.rtpHeaderExtensionMap.exists_entry htype
  obtain ⟨pre, post, -, haround⟩ :=
    exists_around hone hentries f s.values payload
  have hsame : updatedPacket s f payload u = builtPacket s f payload := by
    rw [updatedPacket, builtPacket, haround s.values fun _ _ => rfl,
      haround (u.values s.values)
        fun _ hne => ExtensionUpdate.value_values_of_ne hne,
      ExtensionUpdate.value_values, hdata]
  rw [hsame, ExtensionUpdate.apply_eq, RTPSender.updateBlock]
  split
  · rfl
  · rename_i blockPos hfind
    obtain ⟨-, hfits⟩ := findBlock_eq_some hone hentries hfind
    have hlength := u.length_data_le
    refine (overwrite_eq_self_iff (by omega)).mpr ?_
    by_contra hdiff
    exact hstray ⟨_, _, blockPos, RTPSender.createRTPHeader_eq hone hcsrcs,
      hfind, hdiff⟩

theorem apply_of_not_mem (htype : u.type ∉ s.types) (packet : List UInt8)
    (header : RTPHeader) : u.apply s packet header = packet := by
  have hid : s.rtpHeaderExtensionMap.getId u.type = none := by
    rw [RtpHeaderExtensionMap.getId, Option.map_eq_none_iff, List.find?_eq_none]
    intro e he heq
    exact htype (List.mem_map.mpr ⟨e, he, beq_iff_eq.mp heq⟩)
  rw [ExtensionUpdate.apply_eq, RTPSender.updateBlock, RTPSender.findBlock,
    hid]

/-- A created header and the update of one of its extensions are read back
exactly if the header has no CSRC, or the update has nothing to change and does
not take another place for the block. -/
theorem readsBack_iff (s : RTPSender) (f : HeaderFields)
    (payload : List UInt8) (beyond : ℕ → UInt8) (u : ExtensionUpdate)
    (hone : s.rtpHeaderExtensionMap.OneId) (hrange : s.InRange)
    (hcsrcs : f.csrcs.length ≤ kRtpCsrcSize) (hu : u.InRange) :
    ReadsBack s f payload beyond u ↔
      u.type ∈ s.types →
        f.csrcs = [] ∨
          (u.data = s.values.value u.type ∧ ¬Strays s f payload beyond u) := by
  constructor
  · intro h htype
    by_cases hnil : f.csrcs = []
    · exact .inl hnil
    refine .inr ?_
    obtain ⟨hreceived, hother⟩ :=
      (readsBack_iff_layout hone hrange hcsrcs).mp h
    have hread := (hreceived htype).2
    have hsame : u.apply s (builtPacket s f payload)
        (RtpHeaderParser.parse (.ofList (builtPacket s f payload) beyond) none
          {}).2 = builtPacket s f payload := by
      refine List.ext_getElem? fun i => ?_
      by_cases hi : i < valueStart s f u.type
      · exact hother i (.inl hi)
      · exact getElem?_apply_of_csrcs_ne_nil hone hcsrcs htype hnil
          (Nat.not_lt.mp hi)
    rw [hsame, received_builtPacket hrange hcsrcs] at hread
    refine ⟨ExtensionUpdate.data_of_readBy hu htype hread, ?_⟩
    rintro ⟨header, len, blockPos, hcreate, hfind, hdiff⟩
    rw [RTPSender.createRTPHeader_eq hone hcsrcs] at hcreate
    cases hcreate
    obtain ⟨front, id, back, hentries⟩ :=
      s.rtpHeaderExtensionMap.exists_entry htype
    obtain ⟨-, hfits⟩ := findBlock_eq_some hone hentries hfind
    have hlength := u.length_data_le
    refine hdiff ((overwrite_eq_self_iff (by omega)).mp ?_)
    rw [ExtensionUpdate.apply_eq, RTPSender.updateBlock, builtPacket,
      hfind] at hsame
    exact hsame
  · intro h
    by_cases htype : u.type ∈ s.types
    · rcases h htype with hnil | ⟨hdata, hstray⟩
      · exact readsBack_of_apply_eq hone hrange hcsrcs hu htype
          (apply_of_csrcs_eq_nil hone htype hnil)
      · exact readsBack_of_apply_eq hone hrange hcsrcs hu htype
          (apply_of_not_strays hone hcsrcs htype hdata hstray)
    · rw [readsBack_iff_layout hone hrange hcsrcs]
      refine ⟨fun hmem => absurd hmem htype, fun i _ => ?_⟩
      rw [apply_of_not_mem htype]

/-- The offset and the send time are registered. -/
def twoExtensions : RtpHeaderExtensionMap :=
  ((RtpHeaderExtensionMap.empty.register
    .kRtpExtensionTransmissionTimeOffset 1).1.register
    .kRtpExtensionAbsoluteSendTime 3).1

def twoExtensionSender : RTPSender where
  rtpHeaderExtensionMap := twoExtensions
  transmissionTimeOffset := 0
  absoluteSendTime := 0

def mixedHeader (csrcs : List UInt32) : HeaderFields where
  payloadType := 96
  ssrc := 0x12345678
  markerBit := true
  timestamp := 90000
  sequenceNumber := 17
  csrcs := csrcs

theorem readsBack_iff_mixedHeader :
    ReadsBack twoExtensionSender (mixedHeader [7]) [1, 2] (fun _ => 0)
        (.transmissionTimeOffset (-100)) ↔
      (.kRtpExtensionTransmissionTimeOffset ∈ twoExtensionSender.types →
        (mixedHeader [7]).csrcs = [] ∨
          ((ExtensionUpdate.transmissionTimeOffset (-100)).data =
              twoExtensionSender.values.value
                .kRtpExtensionTransmissionTimeOffset ∧
            ¬Strays twoExtensionSender (mixedHeader [7]) [1, 2] (fun _ => 0)
              (.transmissionTimeOffset (-100)))) :=
  readsBack_iff _ _ _ _ _ (by decide) ⟨by decide, by decide⟩ (by decide)
    ⟨by decide, by decide⟩

/-- With one CSRC the offset is not updated. -/
theorem not_readsBack :
    ¬ReadsBack twoExtensionSender (mixedHeader [7]) [1, 2] (fun _ => 0)
      (.transmissionTimeOffset (-100)) := by
  rintro ⟨header, len, hcreate, -, hread, -⟩
  have hcreated : twoExtensionSender.createRTPHeader (mixedHeader [7]) =
      some ([0x91, 0xE0, 0, 17, 0, 1, 0x5F, 0x90, 0x12, 0x34, 0x56, 0x78,
        0, 0, 0, 7, 0xBE, 0xDE, 0, 2, 0x12, 0, 0, 0, 0x32, 0, 0, 0], 28) := by
    decide
  rw [hcreated] at hcreate
  cases hcreate
  exact absurd (hread (by decide)).2.2 (by decide)

end ReadsBack

end WebrtcWinXp.Rtp
