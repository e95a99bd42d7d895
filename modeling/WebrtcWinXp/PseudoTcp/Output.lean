import WebrtcWinXp.PseudoTcp.State

/-!
# Sending

`queue`, `packet`, `transmit` and `attemptSend`, and what the other members
call besides.
-/

namespace WebrtcWinXp.PseudoTcp

open Support

/-- Data joins the last segment if that is of the same type and has not been
transmitted yet. -/
def SSegment.Joins (back : SSegment) (bCtrl : Bool) : Prop :=
  back.bCtrl = bCtrl ∧ back.xmit = 0

instance (back : SSegment) (bCtrl : Bool) : Decidable (back.Joins bCtrl) :=
  inferInstanceAs (Decidable (_ ∧ _))

/-- The segments after `len` bytes from `seq` on were queued. -/
def queueSegment (seq len : ℕ) (bCtrl : Bool) (slist : List SSegment) :
    List SSegment :=
  match slist.getLast? with
  | some back =>
    if back.Joins bCtrl then
      slist.dropLast ++ [{ back with len := u32 (back.len + len) }]
    else slist ++ [⟨seq, len, 0, bCtrl⟩]
  | none => slist ++ [⟨seq, len, 0, bCtrl⟩]

def queue (data : ℕ → UInt8) (len : ℕ) (bCtrl : Bool) (s : PseudoTcp) :
    ℕ × PseudoTcp :=
  let len := min len s.m_sbuf.getWriteRemaining
  let seq := u32 (s.m_snd_una + s.m_sbuf.data_length)
  let (_, written, m_sbuf) := s.m_sbuf.write data len
  (written,
    { s with
      m_slist := queueSegment seq len bCtrl s.m_slist
      m_sbuf := m_sbuf })

/-- The connect message, with the options that are supported. -/
def connectMessage (s : PseudoTcp) : List UInt8 :=
  CTL_CONNECT ::
    if s.m_support_wnd_scale then
      [TCP_OPT_WND_SCALE, 1, UInt8.ofNat s.m_rwnd_scale]
    else []

def queueConnectMessage (s : PseudoTcp) : PseudoTcp :=
  let buf := s.connectMessage
  (queue (fun i => buf.getD i 0) buf.length true
    { s with m_snd_wnd := buf.length }).2

def header (seq flags : ℕ) (s : PseudoTcp) : List UInt8 :=
  toBE 4 s.m_conv ++ (toBE 4 seq ++ (toBE 4 s.m_rcv_nxt ++
    ([0, UInt8.ofNat flags] ++ (toBE 2 (s.m_rcv_wnd >>> s.m_rwnd_scale) ++
      (toBE 4 s.now ++ toBE 4 s.m_ts_recent)))))

/-- The payload of a packet: what cannot be read from the send buffer is left
as it was allocated. -/
def payload (offset len : ℕ) (s : PseudoTcp) : List UInt8 :=
  let read := if len = 0 then [] else (s.m_sbuf.readOffset len offset).2
  read ++ slice (s.memory 0) (HEADER_SIZE + read.length) (len - read.length)

def sentPacket (seq flags offset len : ℕ) (s : PseudoTcp) : SentPacket :=
  ⟨seq, flags, offset, len, s.m_sbuf.data_length,
    s.header seq flags ++ s.payload offset len, s.results 0⟩

def packet (seq flags offset len : ℕ) (s : PseudoTcp) :
    WriteResult × PseudoTcp :=
  let now := s.now
  let wres := s.results 0
  let s := { s.tick with
    m_ts_lastack := s.m_rcv_nxt
    memory := fun i => s.memory (i + 1)
    results := fun i => s.results (i + 1)
    sent := s.sent ++ [s.sentPacket seq flags offset len] }
  -- the result for a packet without data is not looked at
  if wres ≠ .WR_SUCCESS ∧ len ≠ 0 then (wres, s)
  else
    (.WR_SUCCESS,
      { s with
        m_t_ack := 0
        m_lastsend := if len > 0 then now else s.m_lastsend
        m_lasttraffic := now
        m_bOutgoing := true })

def segmentPacket (seg : SSegment) (nTransmit : ℕ) (s : PseudoTcp) :
    WriteResult × PseudoTcp :=
  s.packet seg.seq (if seg.bCtrl then FLAG_CTL else 0)
    (sub32 seg.seq s.m_snd_una) nTransmit

def reduceMss (maximum : ℕ) (s : PseudoTcp) : PseudoTcp :=
  let m_mss := sub32 maximum PACKET_OVERHEAD
  { s with
    m_mss := m_mss
    m_msslevel := s.m_msslevel + 1
    m_cwnd := u32 (2 * m_mss) }

/-- A packet was too large: the sizes that are left are tried in turn.  The
result is the number of bytes that were sent. -/
def sendSmaller (seg : SSegment) :
    List ℕ → ℕ → PseudoTcp → Option ℕ × PseudoTcp
  | [], _, s => (none, s)
  | maximum :: maxima, nTransmit, s =>
    if maximum = 0 then (none, s)
    else
      let s := s.reduceMss maximum
      if s.m_mss < nTransmit then
        match s.segmentPacket seg s.m_mss with
        | (.WR_SUCCESS, s') => (some s.m_mss, s')
        | (.WR_FAIL, s') => (none, s')
        | (.WR_TOO_LARGE, s') => sendSmaller seg maxima s.m_mss s'
      else sendSmaller seg maxima nTransmit s

def sendSegment (seg : SSegment) (nTransmit : ℕ) (s : PseudoTcp) :
    Option ℕ × PseudoTcp :=
  match s.segmentPacket seg nTransmit with
  | (.WR_SUCCESS, s) => (some nTransmit, s)
  | (.WR_FAIL, s) => (none, s)
  | (.WR_TOO_LARGE, s) =>
    sendSmaller seg (PACKET_MAXIMUMS.drop (s.m_msslevel + 1)) nTransmit s

def SSegment.head (seg : SSegment) (n : ℕ) : SSegment :=
  { seg with len := n }

def SSegment.tail (seg : SSegment) (n xmit : ℕ) : SSegment :=
  ⟨u32 (seg.seq + n), seg.len - n, xmit, seg.bCtrl⟩

def SSegment.transmitted (seg : SSegment) : SSegment :=
  { seg with xmit := (seg.xmit + 1) % 256 }

namespace SSegment

variable {seg : SSegment} {n xmit : ℕ}

@[simp] theorem head_len : (seg.head n).len = n := rfl

@[simp] theorem head_xmit : (seg.head n).xmit = seg.xmit := rfl

@[simp] theorem tail_len : (seg.tail n xmit).len = seg.len - n := rfl

@[simp] theorem tail_xmit : (seg.tail n xmit).xmit = xmit := rfl

@[simp] theorem transmitted_len : seg.transmitted.len = seg.len := rfl

@[simp] theorem head_transmitted_xmit :
    (seg.head n).transmitted.xmit = seg.transmitted.xmit := rfl

end SSegment

/-- `transmit`, on the segment between `before` and `after` in `m_slist`. -/
def transmit (before : List SSegment) (seg : SSegment)
    (after : List SSegment) (now : ℕ) (s : PseudoTcp) : Bool × PseudoTcp :=
  if seg.xmit ≥ if s.m_state = .TCP_ESTABLISHED then 15 else 30 then
    (false, s)
  else
    match s.sendSegment seg (min seg.len s.m_mss) with
    | (none, s) => (false, s)
    | (some nTransmit, s) =>
      let pieces :=
        if nTransmit < seg.len then
          (seg.head nTransmit).transmitted ::
            seg.tail nTransmit seg.xmit :: after
        else seg.transmitted :: after
      (true,
        { s with
          m_slist := before ++ pieces
          m_snd_nxt :=
            if seg.xmit = 0 then u32 (s.m_snd_nxt + nTransmit)
            else s.m_snd_nxt
          m_rto_base := if s.m_rto_base = 0 then now else s.m_rto_base })

/-- `transmit` on the first segment. -/
def transmitFirst (now : ℕ) (s : PseudoTcp) : Bool × PseudoTcp :=
  match s.m_slist with
  | [] => (true, { s with undefined := true })
  | seg :: after => s.transmit [] seg after now

def nInFlight (s : PseudoTcp) : ℕ := sub32 s.m_snd_nxt s.m_snd_una

def nWindow (s : PseudoTcp) : ℕ :=
  let cwnd :=
    if s.m_dup_acks = 1 ∨ s.m_dup_acks = 2 then
      u32 (s.m_cwnd + s.m_dup_acks * s.m_mss)
    else s.m_cwnd
  min s.m_snd_wnd cwnd

def nAvailable (s : PseudoTcp) : ℕ :=
  let nUseable :=
    if s.nInFlight < s.nWindow then s.nWindow - s.nInFlight else 0
  let nAvailable :=
    min (sub32 s.m_sbuf.data_length s.nInFlight) s.m_mss
  if nAvailable > nUseable then
    if u32 (nUseable * 4) < s.nWindow then 0 else nUseable
  else nAvailable

/-- Nothing is sent, but an acknowledgement may be due. -/
def acknowledge (sflags : SendFlags) (s : PseudoTcp) : PseudoTcp :=
  if sflags = .sfNone then s
  else if sflags = .sfImmediateAck ∨ s.m_t_ack ≠ 0 then
    (s.packet s.m_snd_nxt 0 0 0).2
  else { s.tick with m_t_ack := s.now }

/-- Nagle's algorithm holds a small packet back. -/
def heldBack (nAvailable : ℕ) (s : PseudoTcp) : Prop :=
  s.m_use_nagling ∧ s.m_snd_nxt > s.m_snd_una ∧ nAvailable < s.m_mss

instance (nAvailable : ℕ) (s : PseudoTcp) : Decidable (s.heldBack nAvailable) :=
  inferInstanceAs (Decidable (_ ∧ _))

/-- The next segment is cut to size and transmitted. -/
def transmitNext (nAvailable now : ℕ) (s : PseudoTcp) : Bool × PseudoTcp :=
  let before := s.m_slist.takeWhile fun seg => 0 < seg.xmit
  match s.m_slist.dropWhile fun seg => 0 < seg.xmit with
  | [] => (false, { s with undefined := true })
  | seg :: after =>
    if seg.len > nAvailable then
      let after := seg.tail nAvailable 0 :: after
      let s := { s with
        m_slist := before ++ seg.head nAvailable :: after }
      s.transmit before (seg.head nAvailable) after now
    else s.transmit before seg after now

/-- The loop of `attemptSend`, for at most `fuel` rounds. -/
def attemptSendLoop (now : ℕ) : ℕ → SendFlags → PseudoTcp → PseudoTcp
  | 0, _, s => { s with undefined := true }
  | fuel + 1, sflags, s =>
    let nAvailable := s.nAvailable
    if nAvailable = 0 then s.acknowledge sflags
    else if s.heldBack nAvailable then s
    else
      match s.transmitNext nAvailable now with
      | (false, s) => s
      | (true, s) => attemptSendLoop now fuel .sfNone s

/-- After a pause the congestion window is small again. -/
def restartWindow (now : ℕ) (s : PseudoTcp) : PseudoTcp :=
  if timeDiff now s.m_lastsend > s.m_rx_rto then { s with m_cwnd := s.m_mss }
  else s

/-- `attemptSend`.  A round sends at least one of the buffered bytes. -/
def attemptSend (sflags : SendFlags) (s : PseudoTcp) : PseudoTcp :=
  attemptSendLoop s.now (s.m_sbuf.data_length + 1) sflags
    (s.tick.restartWindow s.now)

def closedown (err : Error) (s : PseudoTcp) : PseudoTcp :=
  { s with m_state := .TCP_CLOSED }.notify (.OnTcpClosed err)

/-- The loop of `adjustMTU` over the maximum at a level and those behind. -/
def mssLevel (mtu : ℕ) : List ℕ → ℕ → ℕ
  | maximum :: next :: maxima, level =>
    if next > 0 ∧ ¬maximum ≤ mtu then mssLevel mtu (next :: maxima) (level + 1)
    else level
  | _, level => level

def adjustMTU (s : PseudoTcp) : PseudoTcp :=
  let m_mss := sub32 s.m_mtu_advise PACKET_OVERHEAD
  { s with
    m_msslevel := mssLevel s.m_mtu_advise PACKET_MAXIMUMS 0
    m_mss := m_mss
    m_ssthresh := max s.m_ssthresh (u32 (2 * m_mss))
    m_cwnd := max s.m_cwnd m_mss }

/-- The loop of `resizeReceiveBuffer`: the size is halved until it fits in
16 bits. -/
def scaleWindow (new_size scale_factor : ℕ) : ℕ × ℕ :=
  if new_size > 0xFFFF then scaleWindow (new_size / 2) (scale_factor + 1)
  else (new_size, scale_factor)

def resizeReceiveBuffer (new_size : ℕ) (s : PseudoTcp) : PseudoTcp :=
  let (new_size, scale_factor) := scaleWindow new_size 0
  let new_size := u32 (new_size <<< scale_factor)
  let m_rbuf := (s.m_rbuf.setCapacity (s.memory 0) new_size).2
  { s with
    memory := fun i => s.memory (i + 1)
    m_rbuf := m_rbuf
    m_rbuf_len := new_size
    m_rwnd_scale := scale_factor
    m_ssthresh := new_size
    m_rcv_wnd := m_rbuf.getWriteRemaining }

end WebrtcWinXp.PseudoTcp
