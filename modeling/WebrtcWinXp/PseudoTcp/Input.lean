import WebrtcWinXp.PseudoTcp.Output

/-!
# Receiving

`parse` and `process`.  The parts of `process` are definitions of their own,
in the order in which it goes through them.
-/

namespace WebrtcWinXp.PseudoTcp

open Support

/-- `applyOption`: only the window scale is supported. -/
def applyOption (kind : UInt8) (data : List UInt8) (s : PseudoTcp) :
    PseudoTcp :=
  if kind = TCP_OPT_WND_SCALE ∧ data.length = 1 then
    { s with m_swnd_scale := (data.headD 0).toNat }
  else s

/-- The loop of `parseOptions`, which takes at least one byte a round.  The
result is the options that were specified, unless a length is invalid. -/
def parseOptionsLoop :
    ℕ → List UInt8 → List UInt8 → PseudoTcp → Option (List UInt8) × PseudoTcp
  | 0, _, options_specified, s => (some options_specified, s)
  | _ + 1, [], options_specified, s => (some options_specified, s)
  | fuel + 1, kind :: buf, options_specified, s =>
    if kind = TCP_OPT_EOL then (some options_specified, s)
    else if kind = TCP_OPT_NOOP then
      parseOptionsLoop fuel buf options_specified s
    else
      let opt_len := (buf.headD 0).toNat
      let buf := buf.tail
      if opt_len ≤ buf.length then
        parseOptionsLoop fuel (buf.drop opt_len) (kind :: options_specified)
          (s.applyOption kind (buf.take opt_len))
      else (none, s)

def parseOptions (data : List UInt8) (s : PseudoTcp) : PseudoTcp :=
  match parseOptionsLoop data.length data [] s with
  | (none, s) => s
  | (some options_specified, s) =>
    if TCP_OPT_WND_SCALE ∉ options_specified ∧ s.m_rwnd_scale > 0 then
      { s.resizeReceiveBuffer DEFAULT_RCV_BUF_SIZE with m_swnd_scale := 0 }
    else s

/-! ## `process` -/

def Segment.isCtl (seg : Segment) : Bool := seg.flags &&& FLAG_CTL ≠ 0
def Segment.isRst (seg : Segment) : Bool := seg.flags &&& FLAG_RST ≠ 0

/-- The control data of a segment; `none` for a segment that is dropped, and
otherwise whether it carries a connect message. -/
def controlData (seg : Segment) (s : PseudoTcp) : Option (Bool × PseudoTcp) :=
  if seg.isCtl then
    if seg.len = 0 then none
    else if seg.data 0 = CTL_CONNECT then
      let s := s.parseOptions (slice seg.data 1 (seg.len - 1))
      if s.m_state = .TCP_LISTEN then
        some (true, { s with m_state := .TCP_SYN_RECEIVED }.queueConnectMessage)
      else if s.m_state = .TCP_SYN_SENT then
        some (true,
          ({ s with m_state := .TCP_ESTABLISHED }.adjustMTU).notify .OnTcpOpen)
      else some (true, s)
    else none
  else some (false, s)

def updateTimestamp (seg : Segment) (s : PseudoTcp) : PseudoTcp :=
  if seg.seq ≤ s.m_ts_lastack ∧ s.m_ts_lastack < u32 (seg.seq + seg.len) then
    { s with m_ts_recent := seg.tsval }
  else s

/-- The round-trip time is calculated from an acknowledgement. -/
def measureRtt (seg : Segment) (now : ℕ) (s : PseudoTcp) : PseudoTcp :=
  let rtt := timeDiff now seg.tsecr
  if seg.tsecr ≠ 0 ∧ rtt ≥ 0 then
    let rtt := rtt.toNat
    let s :=
      if s.m_rx_srtt = 0 then
        { s with m_rx_srtt := rtt, m_rx_rttvar := rtt / 2 }
      else
        let abs_err :=
          if rtt > s.m_rx_srtt then rtt - s.m_rx_srtt else s.m_rx_srtt - rtt
        { s with
          m_rx_rttvar := u32 (3 * s.m_rx_rttvar + abs_err) / 4
          m_rx_srtt := u32 (7 * s.m_rx_srtt + rtt) / 8 }
    { s with
      m_rx_rto := bound MIN_RTO
        (u32 (s.m_rx_srtt + max 1 (u32 (4 * s.m_rx_rttvar)))) MAX_RTO }
  else s

def advertised (seg : Segment) (s : PseudoTcp) : ℕ :=
  u32 (seg.wnd <<< s.m_swnd_scale)

/-- The segments and the largest length after `nFree` bytes were
acknowledged; `none` if there are fewer bytes than that. -/
def freeSegments : ℕ → ℕ → List SSegment → Option (List SSegment × ℕ)
  | nFree, largest, [] => if nFree = 0 then some ([], largest) else none
  | nFree, largest, front :: rest =>
    if nFree = 0 then some (front :: rest, largest)
    else if nFree < front.len then
      some ({ front with len := front.len - nFree } :: rest, largest)
    else freeSegments (nFree - front.len) (max largest front.len) rest

/-- The bytes that were acknowledged are given up. -/
def releaseAcked (seg : Segment) (now : ℕ) (s : PseudoTcp) : PseudoTcp :=
  let nAcked := sub32 seg.ack s.m_snd_una
  let s := { s with
    m_snd_wnd := s.advertised seg
    m_snd_una := seg.ack
    m_rto_base := if seg.ack = s.m_snd_nxt then 0 else now
    m_sbuf := s.m_sbuf.consumeReadData nAcked }
  match freeSegments nAcked s.m_largest s.m_slist with
  | none => { s with undefined := true }
  | some (m_slist, m_largest) =>
    { s with m_slist := m_slist, m_largest := m_largest }

/-- The first segment is transmitted again, or the connection is closed. -/
def retransmit (now : ℕ) (s : PseudoTcp) : Bool × PseudoTcp :=
  match s.transmitFirst now with
  | (false, s) => (false, s.closedown .ECONNABORTED)
  | (true, s) => (true, s)

def lossThreshold (s : PseudoTcp) : ℕ :=
  max (s.nInFlight / 2) (u32 (2 * s.m_mss))

def acceptAck (seg : Segment) (now : ℕ) (s : PseudoTcp) : Bool × PseudoTcp :=
  let nAcked := sub32 seg.ack s.m_snd_una
  let s := (s.measureRtt seg now).releaseAcked seg now
  if s.m_dup_acks ≥ 3 then
    if s.m_snd_una ≥ s.m_recover then
      (true,
        { s with
          m_cwnd := min s.m_ssthresh (u32 (s.nInFlight + s.m_mss))
          m_dup_acks := 0 })
    else
      match s.retransmit now with
      | (false, s) => (false, s)
      | (true, s) =>
        (true,
          { s with
            m_cwnd := u32 (s.m_cwnd +
              sub32 s.m_mss (min nAcked s.m_cwnd)) })
  else
    (true,
      { s with
        m_dup_acks := 0
        m_cwnd :=
          if s.m_cwnd < s.m_ssthresh then u32 (s.m_cwnd + s.m_mss)
          else
            u32 (s.m_cwnd + max 1 (u32 (s.m_mss * s.m_mss) / s.m_cwnd)) })

def duplicateAck (seg : Segment) (now : ℕ) (s : PseudoTcp) :
    Bool × PseudoTcp :=
  let s := { s with m_snd_wnd := s.advertised seg }
  if seg.len > 0 then (true, s)
  else if s.m_snd_una ≠ s.m_snd_nxt then
    let s := { s with m_dup_acks := (s.m_dup_acks + 1) % 256 }
    if s.m_dup_acks = 3 then
      match s.retransmit now with
      | (false, s) => (false, s)
      | (true, s) =>
        (true,
          { s with
            m_recover := s.m_snd_nxt
            m_ssthresh := s.lossThreshold
            m_cwnd := u32 (s.lossThreshold + 3 * s.m_mss) })
    else if s.m_dup_acks > 3 then
      (true, { s with m_cwnd := u32 (s.m_cwnd + s.m_mss) })
    else (true, s)
  else (true, { s with m_dup_acks := 0 })

/-- The acknowledgement of a segment; `false` if the connection is closed. -/
def processAck (seg : Segment) (now : ℕ) (s : PseudoTcp) :
    Bool × PseudoTcp :=
  if seg.ack > s.m_snd_una ∧ seg.ack ≤ s.m_snd_nxt then s.acceptAck seg now
  else if seg.ack = s.m_snd_una then s.duplicateAck seg now
  else (true, s)

/-- Anything but a connect message completes the handshake. -/
def completeHandshake (bConnect : Bool) (s : PseudoTcp) : PseudoTcp :=
  if s.m_state = .TCP_SYN_RECEIVED ∧ ¬bConnect then
    ({ s with m_state := .TCP_ESTABLISHED }.adjustMTU).notify .OnTcpOpen
  else s

/-- The user is notified of room in the send queue. -/
def notifyWriteable (s : PseudoTcp) : PseudoTcp :=
  let kIdealRefillSize := u32 (s.m_sbuf_len + s.m_rbuf_len) / 2
  if s.m_bWriteEnable ∧ s.m_sbuf.data_length < kIdealRefillSize then
    { s with m_bWriteEnable := false }.notify .OnTcpWriteable
  else s

def ackFlags (seg : Segment) (s : PseudoTcp) : SendFlags :=
  if seg.seq ≠ s.m_rcv_nxt then .sfImmediateAck
  else if seg.len ≠ 0 then
    if s.m_ack_delay = 0 then .sfImmediateAck else .sfDelayedAck
  else .sfNone

/-- The bytes of a segment that were received before are cut off. -/
def trimFront (seg : Segment) (s : PseudoTcp) : Segment :=
  if seg.seq < s.m_rcv_nxt then
    let nAdjust := s.m_rcv_nxt - seg.seq
    if nAdjust < seg.len then
      { seg with
        seq := seg.seq + nAdjust
        data := fun i => seg.data (nAdjust + i)
        len := seg.len - nAdjust }
    else { seg with len := 0 }
  else seg

/-- The bytes of a segment that do not fit are cut off. -/
def trimBack (seg : Segment) (s : PseudoTcp) : Segment :=
  let available_space := s.m_rbuf.getWriteRemaining
  let reach := sub32 (u32 (seg.seq + seg.len)) s.m_rcv_nxt
  if reach > available_space then
    let nAdjust := reach - available_space
    if nAdjust < seg.len then { seg with len := seg.len - nAdjust }
    else { seg with len := 0 }
  else seg

/-- Bytes in the receive buffer become readable. -/
def advance (n : ℕ) (s : PseudoTcp) : PseudoTcp :=
  { s with
    m_rbuf := s.m_rbuf.consumeWriteBuffer n
    m_rcv_nxt := u32 (s.m_rcv_nxt + n)
    m_rcv_wnd := sub32 s.m_rcv_wnd n }

/-- Segments that were received ahead and are reached now, with whether there
was one. -/
def recoverSegments : List RSegment → PseudoTcp → Bool × PseudoTcp
  | [], s => (false, { s with m_rlist := [] })
  | it :: rest, s =>
    if it.seq ≤ s.m_rcv_nxt then
      if u32 (it.seq + it.len) > s.m_rcv_nxt then
        let nAdjust := u32 (it.seq + it.len) - s.m_rcv_nxt
        (true, (recoverSegments rest (s.advance nAdjust)).2)
      else recoverSegments rest s
    else (false, { s with m_rlist := it :: rest })

/-- A segment is kept in the order of sequence numbers. -/
def insertSegment (rseg : RSegment) (rlist : List RSegment) : List RSegment :=
  (rlist.takeWhile fun it => it.seq < rseg.seq) ++
    rseg :: rlist.dropWhile fun it => it.seq < rseg.seq

/-- The data of a segment, after it was fitted to the receive buffer; with
whether there is new data, and how it has to be acknowledged. -/
def receiveData (seg : Segment) (sflags : SendFlags) (s : PseudoTcp) :
    Bool × SendFlags × PseudoTcp :=
  if seg.len > 0 then
    if seg.isCtl ∨ s.m_shutdown ≠ .SD_NONE then
      (false, sflags,
        if seg.seq = s.m_rcv_nxt then
          { s with m_rcv_nxt := u32 (s.m_rcv_nxt + seg.len) }
        else s)
    else
      let nOffset := sub32 seg.seq s.m_rcv_nxt
      let m_rbuf := (s.m_rbuf.writeOffset seg.data seg.len nOffset).2.2
      let s := { s with m_rbuf := m_rbuf }
      if seg.seq = s.m_rcv_nxt then
        let (recovered, s) := recoverSegments s.m_rlist (s.advance seg.len)
        (true, if recovered then .sfImmediateAck else sflags, s)
      else
        (false, sflags,
          { s with m_rlist := insertSegment ⟨seg.seq, seg.len⟩ s.m_rlist })
  else (false, sflags, s)

def notifyReadable (bNewData : Bool) (s : PseudoTcp) : PseudoTcp :=
  if bNewData ∧ s.m_bReadEnable then
    { s with m_bReadEnable := false }.notify .OnTcpReadable
  else s

/-- The part of `process` after the acknowledgement. -/
def processData (seg : Segment) (bConnect : Bool) (s : PseudoTcp) :
    PseudoTcp :=
  let s := (s.completeHandshake bConnect).notifyWriteable
  let sflags := s.ackFlags seg
  let seg := s.trimBack (s.trimFront seg)
  let (bNewData, sflags, s) := s.receiveData seg sflags
  (s.attemptSend sflags).notifyReadable bNewData

def process (seg : Segment) (s : PseudoTcp) : Bool × PseudoTcp :=
  if seg.conv ≠ s.m_conv then (false, s)
  else
    let now := s.now
    let s := { s.tick with
      m_lasttraffic := now
      m_lastrecv := now
      m_bOutgoing := false }
    if s.m_state = .TCP_CLOSED then (false, s)
    else if seg.isRst then (false, s.closedown .ECONNRESET)
    else
      match s.controlData seg with
      | none => (false, s)
      | some (bConnect, s) =>
        match (s.updateTimestamp seg).processAck seg now with
        | (false, s) => (false, s)
        | (true, s) => (true, s.processData seg bConnect)

def segmentOf (buffer : Buffer) : Segment where
  conv := ofBE (slice buffer.byte 0 4)
  seq := ofBE (slice buffer.byte 4 4)
  ack := ofBE (slice buffer.byte 8 4)
  flags := (buffer.byte 13).toNat
  wnd := ofBE (slice buffer.byte 14 2)
  data i := buffer.byte (HEADER_SIZE + i)
  len := sub32 buffer.size HEADER_SIZE
  tsval := ofBE (slice buffer.byte 16 4)
  tsecr := ofBE (slice buffer.byte 20 4)

def parse (buffer : Buffer) (s : PseudoTcp) : Bool × PseudoTcp :=
  if buffer.size < 12 then (false, s) else s.process (segmentOf buffer)

end WebrtcWinXp.PseudoTcp
