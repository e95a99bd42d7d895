import WebrtcWinXp.Support.Memory
import WebrtcWinXp.PseudoTcp.FifoBuffer
import Mathlib.Data.Int.Init

/-!
# The state of a connection

The members of `cricket::PseudoTcp`, grouped as the header groups them.  A
`uint32` is a natural number; sums and differences that may leave its range
are written with `u32` and `sub32`.

The readings of the clock, the memory that is allocated and the results of
`TcpWritePacket` are streams from which the code takes one after the other.
Notifications are recorded; a callback from inside one is not modelled.
-/

namespace WebrtcWinXp

namespace PseudoTcp

def u32 (n : ℕ) : ℕ := n % 2 ^ 32

def sub32 (a b : ℕ) : ℕ := (2 ^ 32 - b % 2 ^ 32 + a) % 2 ^ 32

/-- `rtc::TimeDiff`. -/
def timeDiff (later earlier : ℕ) : ℤ :=
  Int.bmod ((later : ℤ) - earlier) (2 ^ 32)

def bound (lower middle upper : ℕ) : ℕ := min (max lower middle) upper

def PACKET_MAXIMUMS : List ℕ :=
  [65535, 32000, 17914, 8166, 4352, 2002, 1492, 1006, 508, 296, 0]

def MAX_PACKET : ℕ := 65535
def MIN_PACKET : ℕ := 296

def IP_HEADER_SIZE : ℕ := 20
def UDP_HEADER_SIZE : ℕ := 8
def JINGLE_HEADER_SIZE : ℕ := 64

def DEFAULT_RCV_BUF_SIZE : ℕ := 60 * 1024
def DEFAULT_SND_BUF_SIZE : ℕ := 90 * 1024

def HEADER_SIZE : ℕ := 24
def PACKET_OVERHEAD : ℕ :=
  HEADER_SIZE + UDP_HEADER_SIZE + IP_HEADER_SIZE + JINGLE_HEADER_SIZE

def MIN_RTO : ℕ := 250
def DEF_RTO : ℕ := 3000
def MAX_RTO : ℕ := 60000
def DEF_ACK_DELAY : ℕ := 100

def FLAG_CTL : ℕ := 0x02
def FLAG_RST : ℕ := 0x04

def CTL_CONNECT : UInt8 := 0

def TCP_OPT_EOL : UInt8 := 0
def TCP_OPT_NOOP : UInt8 := 1
def TCP_OPT_MSS : UInt8 := 2
def TCP_OPT_WND_SCALE : UInt8 := 3

inductive TcpState where
  | TCP_LISTEN
  | TCP_SYN_SENT
  | TCP_SYN_RECEIVED
  | TCP_ESTABLISHED
  | TCP_CLOSED
  deriving DecidableEq

inductive Shutdown where
  | SD_NONE
  | SD_GRACEFUL
  | SD_FORCEFUL
  deriving DecidableEq

inductive SendFlags where
  | sfNone
  | sfDelayedAck
  | sfImmediateAck
  deriving DecidableEq

inductive WriteResult where
  | WR_SUCCESS
  | WR_TOO_LARGE
  | WR_FAIL
  deriving DecidableEq

/-- The error codes that are used. -/
inductive Error where
  | none
  | EINVAL
  | ENOTCONN
  | EWOULDBLOCK
  | ECONNABORTED
  | ECONNRESET
  deriving DecidableEq

inductive Notification where
  | OnTcpOpen
  | OnTcpReadable
  | OnTcpWriteable
  | OnTcpClosed (error : Error)
  deriving DecidableEq

/-- A received segment; `data` points into the received packet. -/
structure Segment where
  conv : ℕ
  seq : ℕ
  ack : ℕ
  flags : ℕ
  wnd : ℕ
  data : ℕ → UInt8
  len : ℕ
  tsval : ℕ
  tsecr : ℕ

/-- A stretch of the bytes to send that is transmitted as one packet. -/
structure SSegment where
  seq : ℕ
  len : ℕ
  xmit : ℕ
  bCtrl : Bool
  deriving DecidableEq

/-- A stretch of bytes that was received ahead. -/
structure RSegment where
  seq : ℕ
  len : ℕ
  deriving DecidableEq

/-- A call of `packet`: its arguments, how much was buffered, the bytes given
to `TcpWritePacket`, and what that returned. -/
structure SentPacket where
  seq : ℕ
  flags : ℕ
  offset : ℕ
  len : ℕ
  buffered : ℕ
  bytes : List UInt8
  result : WriteResult

/-! ## Members -/

/-- The environment, and what it has been told. -/
structure Notify where
  clock : ℕ → ℕ
  memory : ℕ → ℕ → UInt8
  results : ℕ → WriteResult
  sent : List SentPacket
  notified : List Notification

structure Connection where
  m_shutdown : Shutdown
  m_error : Error
  m_state : TcpState
  m_conv : ℕ
  m_bReadEnable : Bool
  m_bWriteEnable : Bool
  m_bOutgoing : Bool
  m_lasttraffic : ℕ

structure Incoming where
  m_rlist : List RSegment
  m_rbuf_len : ℕ
  m_rcv_nxt : ℕ
  m_rcv_wnd : ℕ
  m_lastrecv : ℕ
  m_rwnd_scale : ℕ
  m_rbuf : FifoBuffer

/-- `undefined` is raised where the code would use the end of `m_slist`, or
would not return. -/
structure Outgoing where
  m_slist : List SSegment
  m_sbuf_len : ℕ
  m_snd_nxt : ℕ
  m_snd_wnd : ℕ
  m_lastsend : ℕ
  m_snd_una : ℕ
  m_swnd_scale : ℕ
  m_sbuf : FifoBuffer
  undefined : Bool

structure Sizes where
  m_mss : ℕ
  m_msslevel : ℕ
  m_largest : ℕ
  m_mtu_advise : ℕ

structure Timing where
  m_rto_base : ℕ
  m_ts_recent : ℕ
  m_ts_lastack : ℕ
  m_rx_rttvar : ℕ
  m_rx_srtt : ℕ
  m_rx_rto : ℕ

structure Congestion where
  m_ssthresh : ℕ
  m_cwnd : ℕ
  m_dup_acks : ℕ
  m_recover : ℕ
  m_t_ack : ℕ

structure Configuration where
  m_use_nagling : Bool
  m_ack_delay : ℕ
  m_support_wnd_scale : Bool

end PseudoTcp

structure PseudoTcp extends PseudoTcp.Notify, PseudoTcp.Connection,
    PseudoTcp.Incoming, PseudoTcp.Outgoing, PseudoTcp.Sizes,
    PseudoTcp.Timing, PseudoTcp.Congestion, PseudoTcp.Configuration

namespace PseudoTcp

/-- The constructor, with the clock it reads and the memory it allocates. -/
def new (conv now : ℕ) (memory : ℕ → UInt8) : PseudoTcp where
  clock _ := 0
  memory _ := memory
  results _ := .WR_FAIL
  sent := []
  notified := []
  m_shutdown := .SD_NONE
  m_error := .none
  m_state := .TCP_LISTEN
  m_conv := conv
  m_bReadEnable := true
  m_bWriteEnable := false
  m_bOutgoing := false
  m_lasttraffic := now
  m_rlist := []
  m_rbuf_len := DEFAULT_RCV_BUF_SIZE
  m_rcv_nxt := 0
  m_rcv_wnd := DEFAULT_RCV_BUF_SIZE
  m_lastrecv := now
  m_rwnd_scale := 0
  m_rbuf := .new memory DEFAULT_RCV_BUF_SIZE
  m_slist := []
  m_sbuf_len := DEFAULT_SND_BUF_SIZE
  m_snd_nxt := 0
  m_snd_wnd := 1
  m_lastsend := now
  m_snd_una := 0
  m_swnd_scale := 0
  m_sbuf := .new memory DEFAULT_SND_BUF_SIZE
  undefined := false
  m_mss := MIN_PACKET - PACKET_OVERHEAD
  m_msslevel := 0
  m_largest := 0
  m_mtu_advise := MAX_PACKET
  m_rto_base := 0
  m_ts_recent := 0
  m_ts_lastack := 0
  m_rx_rttvar := 0
  m_rx_srtt := 0
  m_rx_rto := DEF_RTO
  m_ssthresh := DEFAULT_RCV_BUF_SIZE
  m_cwnd := 2 * (MIN_PACKET - PACKET_OVERHEAD)
  m_dup_acks := 0
  m_recover := 0
  m_t_ack := 0
  m_use_nagling := true
  m_ack_delay := DEF_ACK_DELAY
  m_support_wnd_scale := true

/-- `Now`: the next reading of the clock. -/
def now (s : PseudoTcp) : ℕ := u32 (s.clock 0)

def tick (s : PseudoTcp) : PseudoTcp :=
  { s with clock := fun i => s.clock (i + 1) }

def notify (n : Notification) (s : PseudoTcp) : PseudoTcp :=
  { s with notified := s.notified ++ [n] }

end PseudoTcp

end WebrtcWinXp
