import WebrtcWinXp.Rtcp.Packet

/-!
# `RTCPParserV2`

The parser walks over the blocks of a compound packet, and over the items in a
block.  It also logs the blocks that it interprets and the bytes that it reads.
-/

namespace WebrtcWinXp.Rtcp

inductive ParseState where
  | topLevel
  | reportBlockItem
  | sdesChunk
  | byeItem
  | extendedJitterItem
  | rtpfbNackItem
  | rtpfbTmmbrItem
  | rtpfbTmmbnItem
  | psfbSliItem
  | psfbRpsiItem
  | psfbFirItem
  | psfbAppItem
  | psfbRembItem
  | xrItem
  | xrDlrrItem
  | appItem
deriving DecidableEq

/-- Bytes that were read, and the limits that were in force. -/
structure Access where
  first : ℕ
  count : ℕ
  limitBegin : ℕ
  limitEnd : ℕ
deriving DecidableEq

/-- The state of `RTCPParserV2`.  Pointers are offsets into the buffer; the
last three fields are logs. -/
structure Parser where
  validPacket : Bool
  ptr : ℕ
  blockEnd : ℕ
  state : ParseState
  numberOfBlocks : UInt8
  packetType : PacketType
  packet : Packet
  blockBegin : ℕ
  blocks : List ℕ
  accesses : List Access
deriving DecidableEq

namespace Parser

def skip (n : ℕ) (s : Parser) : Parser := { s with ptr := s.ptr + n }

def read (n : ℕ) (s : Parser) : Parser :=
  { s with
    ptr := s.ptr + n
    accesses := ⟨s.ptr, n, s.blockBegin, s.blockEnd⟩ :: s.accesses }

def endCurrentBlock (s : Parser) : Parser := { s with ptr := s.blockEnd }

/-- What a parse function does when the block has nothing more for it. -/
def leave (s : Parser) : Parser × Bool :=
  (endCurrentBlock { s with state := .topLevel }, false)

def parseRR (b : Buffer) (s : Parser) : Parser × Bool :=
  if s.blockEnd < s.ptr + 8 then (s, false)
  else
    ({ (s.skip 4).read 4 with
        packetType := .kRtcpRrCode
        packet := .rr (b.u32 (s.ptr + 4)) s.numberOfBlocks
        state := .reportBlockItem }, true)

def parseSR (b : Buffer) (s : Parser) : Parser × Bool :=
  if s.blockEnd < s.ptr + 28 then (s.endCurrentBlock, false)
  else
    let t :=
      { (s.skip 4).read 24 with
        packetType := .kRtcpSrCode
        packet := .sr
          { senderSsrc := b.u32 (s.ptr + 4)
            numberOfReportBlocks := s.numberOfBlocks
            ntpMostSignificant := b.u32 (s.ptr + 8)
            ntpLeastSignificant := b.u32 (s.ptr + 12)
            rtpTimestamp := b.u32 (s.ptr + 16)
            senderPacketCount := b.u32 (s.ptr + 20)
            senderOctetCount := b.u32 (s.ptr + 24) } }
    if t.numberOfBlocks ≠ 0 then ({ t with state := .reportBlockItem }, true)
    else (endCurrentBlock { t with state := .topLevel }, true)

def parseReportBlockItem (b : Buffer) (s : Parser) : Parser × Bool :=
  if s.blockEnd < s.ptr + 24 ∨ s.numberOfBlocks = 0 then s.leave
  else
    ({ s.read 24 with
        packet := .reportBlockItem
          { ssrc := b.u32 s.ptr
            fractionLost := b.data (s.ptr + 4)
            cumulativeNumOfPacketsLost := b.u24 (s.ptr + 5)
            extendedHighestSequenceNumber := b.u32 (s.ptr + 8)
            jitter := b.u32 (s.ptr + 12)
            lastSr := b.u32 (s.ptr + 16)
            delayLastSr := b.u32 (s.ptr + 20) }
        numberOfBlocks := s.numberOfBlocks - 1
        packetType := .kRtcpReportBlockItemCode }, true)

def parseIJ (s : Parser) : Parser × Bool :=
  if s.blockEnd < s.ptr + 4 then (s, false)
  else
    ({ s.skip 4 with
        packetType := .kRtcpExtendedIjCode
        state := .extendedJitterItem }, true)

def parseIJItem (b : Buffer) (s : Parser) : Parser × Bool :=
  if s.blockEnd < s.ptr + 4 ∨ s.numberOfBlocks = 0 then s.leave
  else
    ({ s.read 4 with
        packet := .extendedJitterReportItem (b.u32 s.ptr)
        numberOfBlocks := s.numberOfBlocks - 1
        packetType := .kRtcpExtendedIjItemCode }, true)

def parseSDES (s : Parser) : Parser × Bool :=
  if s.blockEnd < s.ptr + 8 then s.leave
  else
    ({ s.skip 4 with
        state := .sdesChunk
        packetType := .kRtcpSdesCode }, true)

/-- Characters that `ParseSDESItem` does not accept in a CNAME. -/
def illegalChar (c : UInt8) : Bool :=
  c < 0x20 || 0x7b < c || c == 0x25 || c == 0x5c

/-- The bytes behind an end tag up to a multiple of four. -/
def alignment (itemOctetsRead : ℕ) : ℕ := (4 - itemOctetsRead % 4) % 4

/-- The loop of `ParseSDESItem`.  The characters of a CNAME are logged as read
up to its end, also when an illegal one stops the loop before. -/
def parseSDESItemLoop (b : Buffer) (s : Parser) (itemOctetsRead : ℕ)
    (foundCName : Bool) : Parser × Bool :=
  if s.ptr < s.blockEnd then
    let tag := b.data s.ptr
    if tag = 0 then
      ((s.read 1).skip (alignment (itemOctetsRead + 1)), foundCName)
    else if s.ptr + 1 < s.blockEnd then
      let len := (b.data (s.ptr + 1)).toNat
      if tag = 1 then
        if s.blockEnd ≤ s.ptr + 2 + len then (s.read 2).leave
        else
          let name := b.bytes (s.ptr + 2) len
          if name.any illegalChar then (s.read (2 + len)).leave
          else
            parseSDESItemLoop b
              { s.read (2 + len) with
                packet := .cName 0 name
                packetType := .kRtcpSdesChunkCode }
              (itemOctetsRead + 2 + len) true
      else
        parseSDESItemLoop b ((s.read 2).skip len) (itemOctetsRead + 2 + len)
          foundCName
    else parseSDESItemLoop b (s.read 1) (itemOctetsRead + 1) foundCName
  else s.leave
termination_by s.blockEnd - s.ptr
decreasing_by all_goals simp only [read, skip]; omega

def parseSDESItem (b : Buffer) (s : Parser) : Parser × Bool :=
  parseSDESItemLoop b s 0 false

/-- `ParseSDESItem` stays in its block and does not go back. -/
theorem parseSDESItemLoop_ptr (b : Buffer) (s : Parser) (itemOctetsRead : ℕ)
    (foundCName : Bool) :
    (parseSDESItemLoop b s itemOctetsRead foundCName).1.blockEnd = s.blockEnd ∧
      min s.ptr s.blockEnd ≤
        (parseSDESItemLoop b s itemOctetsRead foundCName).1.ptr := by
  fun_induction parseSDESItemLoop b s itemOctetsRead foundCName with
  | case1 s =>
    refine ⟨rfl, ?_⟩
    simp only [read, skip]
    omega
  | case2 s | case3 s | case7 s =>
    refine ⟨rfl, ?_⟩
    simp only [leave, endCurrentBlock, read]
    omega
  | case4 s n found hlt tag htag hlt' len hone hroom name hlegal ih =>
    obtain ⟨hend, hptr⟩ := ih
    refine ⟨hend, le_trans ?_ hptr⟩
    simp only [read]
    omega
  | case5 s n found hlt tag htag hlt' len hother ih
  | case6 s n found hlt tag htag hlast ih =>
    obtain ⟨hend, hptr⟩ := ih
    refine ⟨hend, le_trans ?_ hptr⟩
    simp only [read, skip]
    omega

/-- The loop of `ParseSDESChunk`. -/
def parseSDESChunkLoop (b : Buffer) (s : Parser) : Parser × Bool :=
  if _hlt : s.ptr < s.blockEnd then
    if s.blockEnd < s.ptr + 4 then s.leave
    else
      match _hitem : parseSDESItem b (s.read 4) with
      | (t, true) =>
        ({ t with packet := t.packet.withCNameSsrc (b.u32 s.ptr) }, true)
      | (t, false) => parseSDESChunkLoop b t
  else s.leave
termination_by s.blockEnd - s.ptr
decreasing_by
  have hptr := parseSDESItemLoop_ptr b (s.read 4) 0 false
  change (parseSDESItem b (s.read 4)).1.blockEnd = s.blockEnd ∧
    min (s.ptr + 4) s.blockEnd ≤ (parseSDESItem b (s.read 4)).1.ptr at hptr
  rw [_hitem] at hptr
  dsimp only at hptr
  omega

def parseSDESChunk (b : Buffer) (s : Parser) : Parser × Bool :=
  if s.numberOfBlocks = 0 then s.leave
  else
    parseSDESChunkLoop b { s with numberOfBlocks := s.numberOfBlocks - 1 }

def parseBYEItem (b : Buffer) (s : Parser) : Parser × Bool :=
  if s.blockEnd < s.ptr + 4 ∨ s.numberOfBlocks = 0 then s.leave
  else
    let t :=
      { s.read 4 with
        packetType := .kRtcpByeCode
        packet := .bye (b.u32 s.ptr) }
    let t :=
      if s.ptr + 4 * s.numberOfBlocks.toNat ≤ s.blockEnd then
        t.skip ((s.numberOfBlocks.toNat - 1) * 4)
      else t
    ({ t with numberOfBlocks := 0 }, true)

def parseBYE (b : Buffer) (s : Parser) : Parser × Bool :=
  parseBYEItem b { s.skip 4 with state := .byeItem }

def parseXr (b : Buffer) (s : Parser) : Parser × Bool :=
  if s.blockEnd < s.ptr + 8 then (s.endCurrentBlock, false)
  else
    ({ (s.skip 4).read 4 with
        packet := .xr (b.u32 (s.ptr + 4))
        packetType := .kRtcpXrHeaderCode
        state := .xrItem }, true)

def parseXrReceiverReferenceTimeItem (b : Buffer) (blockLength4Bytes : ℕ)
    (s : Parser) : Parser × Bool :=
  if blockLength4Bytes ≠ 2 ∨ s.blockEnd < s.ptr + 8 then s.leave
  else
    ({ s.read 8 with
        packet := .xrReceiverReferenceTimeItem (b.u32 s.ptr) (b.u32 (s.ptr + 4))
        packetType := .kRtcpXrReceiverReferenceTimeCode
        state := .xrItem }, true)

def parseXrDlrr (blockLength4Bytes : ℕ) (s : Parser) : Parser × Bool :=
  if blockLength4Bytes % 3 ≠ 0 then s.leave
  else
    ({ s with
        packetType := .kRtcpXrDlrrReportBlockCode
        state := .xrDlrrItem
        numberOfBlocks := UInt8.ofNat (blockLength4Bytes / 3) }, true)

def parseXrDlrrItem (b : Buffer) (s : Parser) : Parser × Bool :=
  if s.numberOfBlocks = 0 then ({ s with state := .xrItem }, false)
  else if s.blockEnd < s.ptr + 12 then s.leave
  else
    ({ s.read 12 with
        packet := .xrDlrrReportBlockItem (b.u32 s.ptr) (b.u32 (s.ptr + 4))
          (b.u32 (s.ptr + 8))
        packetType := .kRtcpXrDlrrReportBlockItemCode
        numberOfBlocks := s.numberOfBlocks - 1
        state := .xrDlrrItem }, true)

def parseXrVoipMetricItem (b : Buffer) (blockLength4Bytes : ℕ) (s : Parser) :
    Parser × Bool :=
  if blockLength4Bytes ≠ 8 ∨ s.blockEnd < s.ptr + 32 then s.leave
  else
    ({ s.read 32 with
        packet := .xrVoipMetricItem
          { ssrc := b.u32 s.ptr
            lossRate := b.data (s.ptr + 4)
            discardRate := b.data (s.ptr + 5)
            burstDensity := b.data (s.ptr + 6)
            gapDensity := b.data (s.ptr + 7)
            burstDuration := b.u16 (s.ptr + 8)
            gapDuration := b.u16 (s.ptr + 10)
            roundTripDelay := b.u16 (s.ptr + 12)
            endSystemDelay := b.u16 (s.ptr + 14)
            signalLevel := b.data (s.ptr + 16)
            noiseLevel := b.data (s.ptr + 17)
            rerl := b.data (s.ptr + 18)
            gmin := b.data (s.ptr + 19)
            rfactor := b.data (s.ptr + 20)
            extRfactor := b.data (s.ptr + 21)
            mosLq := b.data (s.ptr + 22)
            mosCq := b.data (s.ptr + 23)
            rxConfig := b.data (s.ptr + 24)
            jbNominal := b.u16 (s.ptr + 26)
            jbMax := b.u16 (s.ptr + 28)
            jbAbsMax := b.u16 (s.ptr + 30) }
        packetType := .kRtcpXrVoipMetricCode
        state := .xrItem }, true)

def parseXrUnsupportedBlockType (blockLength4Bytes : ℕ) (s : Parser) :
    Parser × Bool :=
  if s.blockEnd < s.ptr + blockLength4Bytes * 4 then s.leave
  else ({ s.skip (blockLength4Bytes * 4) with state := .xrItem }, false)

def parseXrItem (b : Buffer) (s : Parser) : Parser × Bool :=
  if s.blockEnd < s.ptr + 4 then s.leave
  else
    let blockType := b.data s.ptr
    let blockLengthIn4Bytes := (b.u16 (s.ptr + 2)).toNat
    let t := s.read 4
    if blockType = kBtReceiverReferenceTime then
      parseXrReceiverReferenceTimeItem b blockLengthIn4Bytes t
    else if blockType = kBtDlrr then parseXrDlrr blockLengthIn4Bytes t
    else if blockType = kBtVoipMetric then
      parseXrVoipMetricItem b blockLengthIn4Bytes t
    else parseXrUnsupportedBlockType blockLengthIn4Bytes t

/-! ## Feedback -/

def startFeedback (packetType : PacketType) (packet : Packet)
    (state : ParseState) (s : Parser) : Parser × Bool :=
  ({ s with
      packetType := packetType
      packet := packet
      state := state }, true)

/-- `ParseFBCommon`.  A PLI or a request for a sender report changes neither the
state nor the cursor, so that what follows in its block is left. -/
def parseFBCommon (b : Buffer) (header : CommonHeader) (s : Parser) :
    Parser × Bool :=
  if s.blockEnd < s.ptr + 12 then (s.endCurrentBlock, false)
  else
    let senderSsrc := b.u32 (s.ptr + 4)
    let mediaSsrc := b.u32 (s.ptr + 8)
    let t := (s.skip 4).read 8
    if header.pt = PT_RTPFB then
      if header.ic = 1 then
        t.startFeedback .kRtcpRtpfbNackCode (.nack senderSsrc mediaSsrc)
          .rtpfbNackItem
      else if header.ic = 3 then
        t.startFeedback .kRtcpRtpfbTmmbrCode (.tmmbr senderSsrc mediaSsrc)
          .rtpfbTmmbrItem
      else if header.ic = 4 then
        t.startFeedback .kRtcpRtpfbTmmbnCode (.tmmbn senderSsrc mediaSsrc)
          .rtpfbTmmbnItem
      else if header.ic = 5 then
        ({ t with packetType := .kRtcpRtpfbSrReqCode }, true)
      else (t.endCurrentBlock, false)
    else
      if header.ic = 1 then
        ({ t with
            packetType := .kRtcpPsfbPliCode
            packet := .pli senderSsrc mediaSsrc }, true)
      else if header.ic = 2 then
        t.startFeedback .kRtcpPsfbSliCode (.sli senderSsrc mediaSsrc)
          .psfbSliItem
      else if header.ic = 3 then
        t.startFeedback .kRtcpPsfbRpsiCode
          (.rpsi ⟨senderSsrc, mediaSsrc, 0, 0, []⟩) .psfbRpsiItem
      else if header.ic = 4 then
        t.startFeedback .kRtcpPsfbFirCode (.fir senderSsrc mediaSsrc)
          .psfbFirItem
      else if header.ic = 15 then
        t.startFeedback .kRtcpPsfbAppCode (.psfbApp senderSsrc mediaSsrc)
          .psfbAppItem
      else (t.endCurrentBlock, false)

def parseRPSIItem (b : Buffer) (s : Parser) : Parser × Bool :=
  let length := s.blockEnd - s.ptr
  if length < 4 then s.leave
  else if length > 2 + RTCP_RPSI_DATA_SIZE then s.leave
  else
    let paddingBits := b.data s.ptr
    ({ s.read length with
        packetType := .kRtcpPsfbRpsiCode
        packet := .rpsi
          { s.packet.toRpsi with
            payloadType := b.data (s.ptr + 1)
            nativeBitString := b.bytes (s.ptr + 2) (length - 2)
            numberOfValidBits :=
              UInt16.ofNat (length - 2) * 8 - paddingBits.toUInt16 } }, true)

def parseNACKItem (b : Buffer) (s : Parser) : Parser × Bool :=
  if s.blockEnd < s.ptr + 4 then s.leave
  else
    ({ s.read 4 with
        packetType := .kRtcpRtpfbNackItemCode
        packet := .nackItem (b.u16 s.ptr) (b.u16 (s.ptr + 2)) }, true)

/-- The four comparisons of `ParsePsfbAppItem`: each reads one character more. -/
def parsePsfbAppItem (b : Buffer) (s : Parser) : Parser × Bool :=
  if s.blockEnd < s.ptr + 4 then s.leave
  else if b.data s.ptr ≠ 0x52 then (s.read 1).leave
  else if b.data (s.ptr + 1) ≠ 0x45 then (s.read 2).leave
  else if b.data (s.ptr + 2) ≠ 0x4d then (s.read 3).leave
  else if b.data (s.ptr + 3) ≠ 0x42 then (s.read 4).leave
  else
    ({ s.read 4 with
        packetType := .kRtcpPsfbRembCode
        state := .psfbRembItem }, true)

/-- The shift of the mantissa takes the exponent modulo 32, as the processor
does. -/
def parsePsfbREMBItem (b : Buffer) (s : Parser) : Parser × Bool :=
  if s.blockEnd < s.ptr + 4 then s.leave
  else
    let numberOfSsrcs := b.data s.ptr
    let brExp := (b.data (s.ptr + 1) >>> 2) &&& 0x3f
    let brMantissa := ((b.data (s.ptr + 1) &&& 0x03).toUInt32 <<< 16) +
      ((b.data (s.ptr + 2)).toUInt32 <<< 8) + (b.data (s.ptr + 3)).toUInt32
    let t := s.read 4
    if t.blockEnd < t.ptr + 4 * numberOfSsrcs.toNat then t.leave
    else
      ({ t.read (4 * numberOfSsrcs.toNat) with
          packetType := .kRtcpPsfbRembItemCode
          packet := .rembItem (brMantissa <<< brExp.toUInt32) numberOfSsrcs
            ((List.range numberOfSsrcs.toNat).map fun i =>
              b.u32 (t.ptr + 4 * i)) }, true)

/-- The rate and the overhead of `ParseTMMBRItem` and `ParseTMMBNItem`. -/
def bitRateAndOverhead (b : Buffer) (i : ℕ) : UInt32 × UInt32 :=
  let mxtbrExp := (b.data i >>> 2) &&& 0x3f
  let mxtbrMantissa := ((b.data i &&& 0x03).toUInt32 <<< 15) +
    ((b.data (i + 1)).toUInt32 <<< 7) +
    ((b.data (i + 2) >>> 1) &&& 0x7f).toUInt32
  let measuredOH := ((b.data (i + 2) &&& 0x01).toUInt32 <<< 8) +
    (b.data (i + 3)).toUInt32
  ((mxtbrMantissa <<< mxtbrExp.toUInt32) / 1000, measuredOH)

def parseTMMBRItem (b : Buffer) (s : Parser) : Parser × Bool :=
  if s.blockEnd < s.ptr + 8 then s.leave
  else
    let rate := bitRateAndOverhead b (s.ptr + 4)
    ({ s.read 8 with
        packetType := .kRtcpRtpfbTmmbrItemCode
        packet := .tmmbrItem (b.u32 s.ptr) rate.1 rate.2 }, true)

def parseTMMBNItem (b : Buffer) (s : Parser) : Parser × Bool :=
  if s.blockEnd < s.ptr + 8 then s.leave
  else
    let rate := bitRateAndOverhead b (s.ptr + 4)
    ({ s.read 8 with
        packetType := .kRtcpRtpfbTmmbnItemCode
        packet := .tmmbnItem (b.u32 s.ptr) rate.1 rate.2 }, true)

def parseSLIItem (b : Buffer) (s : Parser) : Parser × Bool :=
  if s.blockEnd < s.ptr + 4 then s.leave
  else
    let buffer := b.u32 s.ptr
    ({ s.read 4 with
        packetType := .kRtcpPsfbSliItemCode
        packet := .sliItem ((buffer >>> 19) &&& 0x1fff).toUInt16
          ((buffer >>> 6) &&& 0x1fff).toUInt16 (buffer &&& 0x3f).toUInt8 }, true)

def parseFIRItem (b : Buffer) (s : Parser) : Parser × Bool :=
  if s.blockEnd < s.ptr + 8 then s.leave
  else
    ({ (s.read 5).skip 3 with
        packetType := .kRtcpPsfbFirItemCode
        packet := .firItem (b.u32 s.ptr) (b.data (s.ptr + 4)) }, true)

def parseAPP (b : Buffer) (header : CommonHeader) (s : Parser) :
    Parser × Bool :=
  if s.blockEnd < s.ptr + 12 then (s.endCurrentBlock, false)
  else
    ({ (s.skip 4).read 8 with
        packetType := .kRtcpAppCode
        packet := .app ⟨header.ic, b.u32 (s.ptr + 8), [], 0⟩
        state := .appItem }, true)

def parseAPPItem (b : Buffer) (s : Parser) : Parser × Bool :=
  if s.blockEnd < s.ptr + 4 then s.leave
  else
    let size := min (s.blockEnd - s.ptr) kRtcpAppCode_DATA_SIZE
    ({ s.read size with
        packetType := .kRtcpAppItemCode
        packet := .app
          { s.packet.toApp with
            data := b.bytes s.ptr size
            size := UInt16.ofNat size } }, true)

/-! ## Iteration -/

def parseItem (b : Buffer) (s : Parser) : Parser × Bool :=
  match s.state with
  | .topLevel => (s, false)
  | .reportBlockItem => parseReportBlockItem b s
  | .sdesChunk => parseSDESChunk b s
  | .byeItem => parseBYEItem b s
  | .extendedJitterItem => parseIJItem b s
  | .rtpfbNackItem => parseNACKItem b s
  | .rtpfbTmmbrItem => parseTMMBRItem b s
  | .rtpfbTmmbnItem => parseTMMBNItem b s
  | .psfbSliItem => parseSLIItem b s
  | .psfbRpsiItem => parseRPSIItem b s
  | .psfbFirItem => parseFIRItem b s
  | .psfbAppItem => parsePsfbAppItem b s
  | .psfbRembItem => parsePsfbREMBItem b s
  | .xrItem => parseXrItem b s
  | .xrDlrrItem => parseXrDlrrItem b s
  | .appItem => parseAPPItem b s

/-- The block at the cursor, for which `IterateTopLevel` has parsed the
header. -/
def enterBlock (header : CommonHeader) (s : Parser) : Parser :=
  { s with
    blockEnd := s.ptr + header.lengthInOctets.toNat
    blockBegin := s.ptr
    blocks := s.blocks ++ [s.ptr] }

/-- The switch of `IterateTopLevel`, and whether its loop goes on. -/
def parseBlock (b : Buffer) (header : CommonHeader) (s : Parser) :
    Parser × Bool :=
  let counted := { s with numberOfBlocks := header.ic }
  if header.pt = PT_SR then ((parseSR b counted).1, false)
  else if header.pt = PT_RR then ((parseRR b counted).1, false)
  else if header.pt = PT_SDES then (parseSDES counted).map id (!·)
  else if header.pt = PT_BYE then (parseBYE b counted).map id (!·)
  else if header.pt = PT_IJ then ((parseIJ counted).1, false)
  else if header.pt = PT_RTPFB ∨ header.pt = PT_PSFB then
    (parseFBCommon b header s).map id (!·)
  else if header.pt = PT_APP then (parseAPP b header s).map id (!·)
  else if header.pt = PT_XR then (parseXr b s).map id (!·)
  else (s.endCurrentBlock, true)

/-- What `RTCPParseCommonHeader` reads, within the limits of the buffer. -/
def headerAccesses (b : Buffer) (i : ℕ) : List Access :=
  if b.size < i + 4 then [] else [⟨i, 4, i, b.size⟩]

/-- One round of the loop of `IterateTopLevel`. -/
def topLevelRound (b : Buffer) (s : Parser) : Parser × Bool :=
  let s := { s with accesses := headerAccesses b s.ptr ++ s.accesses }
  match parseCommonHeader b s.ptr with
  | none => (s, false)
  | some header =>
    if b.size < s.ptr + header.lengthInOctets.toNat then
      ({ s with blockEnd := s.ptr + header.lengthInOctets.toNat }, false)
    else parseBlock b header (s.enterBlock header)

/-- `IterateTopLevel`; nothing when the fuel does not reach. -/
def iterateTopLevel (b : Buffer) : ℕ → Parser → Option Parser
  | 0, _ => none
  | fuel + 1, s =>
    match topLevelRound b s with
    | (t, true) => iterateTopLevel b fuel t
    | (t, false) => some t

/-- `Iterate`, which is called again when an item function fails. -/
def iterate (b : Buffer) : ℕ → Parser → Option Parser
  | 0, _ => none
  | fuel + 1, s =>
    let s := { s with packetType := .kRtcpNotValidCode }
    if s.validPacket = false then some s
    else if s.state = .topLevel then iterateTopLevel b fuel s
    else
      match parseItem b s with
      | (t, true) => some t
      | (t, false) => iterate b fuel t

def validate (b : Buffer) (rtcpReducedSizeEnable : Bool) : Bool :=
  match parseCommonHeader b 0 with
  | none => false
  | some header =>
    rtcpReducedSizeEnable || header.pt == PT_SR || header.pt == PT_RR

/-- The constructor of `RTCPParserV2`. -/
def new (b : Buffer) (rtcpReducedSizeEnable : Bool) : Parser where
  validPacket := validate b rtcpReducedSizeEnable
  ptr := 0
  blockEnd := 0
  state := .topLevel
  numberOfBlocks := 0
  packetType := .kRtcpNotValidCode
  packet := .empty
  blockBegin := 0
  blocks := []
  accesses := headerAccesses b 0

/-- Iteration until `kRtcpNotValidCode`: what has been returned, and the state at
the end. -/
def parseAll (b : Buffer) :
    ℕ → Parser → Option (List (PacketType × Packet) × Parser)
  | 0, _ => none
  | fuel + 1, s =>
    (iterate b fuel s).bind fun t =>
      if t.packetType = .kRtcpNotValidCode then some ([], t)
      else
        (parseAll b fuel t).map fun r => ((t.packetType, t.packet) :: r.1, r.2)

end Parser

/-!
## Feedback handlers

What `RTCPReceiver` does with the items of NACK and RPSI feedback that the
parser returns.
-/

section

def kSendSideNackListSizeSanity : ℕ := 20000

def kRtcpNack : UInt32 := 0x0020

def kRtcpRpsi : UInt32 := 0x8000

/-- The fields of `RTCPPacketInformation` for these items. -/
structure RTCPPacketInformation where
  rtcpPacketTypeFlags : UInt32 := 0
  nackSequenceNumbers : List UInt16 := []
  rpsiPictureId : UInt64 := 0
deriving DecidableEq

namespace RTCPPacketInformation

def addNACKPacket (info : RTCPPacketInformation) (packetId : UInt16) :
    RTCPPacketInformation :=
  if info.nackSequenceNumbers.length ≥ kSendSideNackListSizeSanity then info
  else { info with
    nackSequenceNumbers := info.nackSequenceNumbers ++ [packetId] }

/-- The rounds of the loop over the bits from `i` on. -/
def addBits (packetId : UInt16) :
    ℕ → ℕ → UInt16 → RTCPPacketInformation → RTCPPacketInformation
  | 0, _, _, info => info
  | n + 1, i, bitMask, info =>
    addBits packetId n (i + 1) (bitMask >>> 1)
      (if bitMask &&& 0x01 ≠ 0 then
        info.addNACKPacket (packetId + UInt16.ofNat i)
      else info)

def handleNACKItem (info : RTCPPacketInformation)
    (packetId bitMask : UInt16) : RTCPPacketInformation :=
  let info := info.addNACKPacket packetId
  let info :=
    if bitMask ≠ 0 then addBits packetId 16 1 bitMask info else info
  { info with rtcpPacketTypeFlags := info.rtcpPacketTypeFlags ||| kRtcpNack }

def handleItem (info : RTCPPacketInformation) :
    Packet → RTCPPacketInformation
  | .nackItem packetId bitMask => info.handleNACKItem packetId bitMask
  | _ => info

end RTCPPacketInformation

/-- The loop of `HandleNACK` over the items. -/
def handleNACKItems (b : Buffer) :
    ℕ → Parser → RTCPPacketInformation →
      Option (Parser × RTCPPacketInformation)
  | 0, _, _ => none
  | fuel + 1, s, info =>
    (s.iterate b fuel).bind fun t =>
      if t.packetType = .kRtcpRtpfbNackItemCode then
        handleNACKItems b fuel t (info.handleItem t.packet)
      else some (t, info)

/-- `HandleNACK` for a packet that is addressed to this stream. -/
def handleNACK (b : Buffer) (fuel : ℕ) (s : Parser)
    (info : RTCPPacketInformation) :
    Option (Parser × RTCPPacketInformation) :=
  handleNACKItems b fuel s { info with nackSequenceNumbers := [] }

/-- What the union `RTCPPacket` and the memory around it hold where nothing of
the present RPSI was written. -/
structure Residue where
  numberOfValidBits : UInt16
  byte : ℤ → UInt8

namespace Rpsi

/-- The bytes of `NativeBitString` that `ParseRPSIItem` filled in; none for the
header of the feedback, which has the same packet type. -/
def filled (p : Rpsi) : ℕ := p.nativeBitString.length

def validBits (p : Rpsi) (residue : Residue) : UInt16 :=
  if p.filled = 0 then residue.numberOfValidBits else p.numberOfValidBits

def byteAt (p : Rpsi) (residue : Residue) (i : ℤ) : UInt8 :=
  if 0 ≤ i ∧ i < p.filled then p.nativeBitString.getD i.toNat 0
  else residue.byte i

end Rpsi

/-- `numberOfBytes`, which is kept in 8 bits. -/
def numberOfBytes (validBits : UInt16) : ℕ := (validBits / 8).toUInt8.toNat

/-- The indices that are read for the given number of bytes: those of the loop
and the last one. -/
def rpsiReads (n : ℕ) : List ℤ :=
  (List.range (n - 1)).map (fun i : ℕ => (i : ℤ)) ++ [(n : ℤ) - 1]

def rpsiPictureId (byte : ℤ → UInt8) (n : ℕ) : UInt64 :=
  ((List.range (n - 1)).foldl
      (fun id (i : ℕ) => (id + (byte i &&& 0x7f).toUInt64) <<< 7) 0) +
    (byte ((n : ℤ) - 1) &&& 0x7f).toUInt64

/-- What `HandleRPSI` leaves behind, and the indices of `NativeBitString` that
it read. -/
structure RpsiHandled where
  parser : Parser
  info : RTCPPacketInformation
  reads : List ℤ

def handleRPSI (residue : Residue) (b : Buffer) (fuel : ℕ) (s : Parser)
    (info : RTCPPacketInformation) : Option RpsiHandled :=
  (s.iterate b fuel).bind fun t =>
    if t.packetType = .kRtcpPsfbRpsiCode then
      let info :=
        { info with rtcpPacketTypeFlags := info.rtcpPacketTypeFlags ||| kRtcpRpsi }
      let bits := t.packet.toRpsi.validBits residue
      if bits % 8 ≠ 0 then
        (t.iterate b fuel).map fun u => ⟨u, info, []⟩
      else
        some
          ⟨t,
            { info with
              rpsiPictureId := rpsiPictureId (t.packet.toRpsi.byteAt residue)
                (numberOfBytes bits) },
            rpsiReads (numberOfBytes bits)⟩
    else some ⟨t, info, []⟩

end

end WebrtcWinXp.Rtcp
