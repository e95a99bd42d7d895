import Mathlib
import WebrtcWinXp.PseudoTcp.Input

/-!
# The calls of a user

The public members that change a connection, and the connection as a state
machine: a step is a call, with what the environment does during it.
-/

namespace WebrtcWinXp.PseudoTcp

open Support

def connect (s : PseudoTcp) : Bool × PseudoTcp :=
  if s.m_state ≠ .TCP_LISTEN then (false, { s with m_error := .EINVAL })
  else
    (true,
      ({ s with m_state := .TCP_SYN_SENT }.queueConnectMessage).attemptSend
        .sfNone)

def notifyMTU (mtu : UInt16) (s : PseudoTcp) : PseudoTcp :=
  let s := { s with m_mtu_advise := mtu.toNat }
  if s.m_state = .TCP_ESTABLISHED then s.adjustMTU else s

/-- A segment is retransmitted when its time is over; `false` if the
connection is closed. -/
def clockRetransmit (now : ℕ) (s : PseudoTcp) : Bool × PseudoTcp :=
  if s.m_rto_base ≠ 0 ∧
      timeDiff (u32 (s.m_rto_base + s.m_rx_rto)) now ≤ 0 then
    if s.m_slist = [] then (true, s)
    else
      match s.retransmit now with
      | (false, s) => (false, s)
      | (true, s) =>
        let rto_limit :=
          if s.m_state = .TCP_ESTABLISHED ∨ s.m_state = .TCP_CLOSED then
            MAX_RTO
          else DEF_RTO
        (true,
          { s with
            m_ssthresh := s.lossThreshold
            m_cwnd := s.m_mss
            m_rx_rto := min rto_limit (u32 (s.m_rx_rto * 2))
            m_rto_base := now })
  else (true, s)

/-- A closed window is probed; `false` if the connection is closed. -/
def clockProbe (now : ℕ) (s : PseudoTcp) : Bool × PseudoTcp :=
  if s.m_snd_wnd = 0 ∧
      timeDiff (u32 (s.m_lastsend + s.m_rx_rto)) now ≤ 0 then
    if timeDiff now s.m_lastrecv ≥ 15000 then
      (false, s.closedown .ECONNABORTED)
    else
      let s := (s.packet (sub32 s.m_snd_nxt 1) 0 0 0).2
      (true,
        { s with
          m_lastsend := now
          m_rx_rto := min MAX_RTO (u32 (s.m_rx_rto * 2)) })
  else (true, s)

def clockAck (now : ℕ) (s : PseudoTcp) : PseudoTcp :=
  if s.m_t_ack ≠ 0 ∧ timeDiff (u32 (s.m_t_ack + s.m_ack_delay)) now ≤ 0 then
    (s.packet s.m_snd_nxt 0 0 0).2
  else s

def notifyClock (now : ℕ) (s : PseudoTcp) : PseudoTcp :=
  if s.m_state = .TCP_CLOSED then s
  else
    match s.clockRetransmit now with
    | (false, s) => s
    | (true, s) =>
      match s.clockProbe now with
      | (false, s) => s
      | (true, s) => s.clockAck now

def notifyPacket (buffer : Buffer) (s : PseudoTcp) : Bool × PseudoTcp :=
  if buffer.size > MAX_PACKET then (false, s) else s.parse buffer

/-- `Recv`, with the bytes that are read unless it fails. -/
def recv (len : ℕ) (s : PseudoTcp) : Option (List UInt8) × PseudoTcp :=
  if s.m_state ≠ .TCP_ESTABLISHED then
    (none, { s with m_error := .ENOTCONN })
  else
    match s.m_rbuf.read len with
    | (.SR_SUCCESS, read, m_rbuf) =>
      let s := { s with m_rbuf := m_rbuf }
      let available_space := s.m_rbuf.getWriteRemaining
      if sub32 available_space s.m_rcv_wnd ≥
          min (s.m_rbuf_len / 2) s.m_mss then
        let bWasClosed : Bool := s.m_rcv_wnd = 0
        let s := { s with m_rcv_wnd := available_space }
        (some read,
          if bWasClosed then s.attemptSend .sfImmediateAck else s)
      else (some read, s)
    | (_, _, _) =>
      (none, { s with m_bReadEnable := true, m_error := .EWOULDBLOCK })

/-- `Send`, with the number of bytes that are accepted unless it fails. -/
def send (buffer : Buffer) (s : PseudoTcp) : Option ℕ × PseudoTcp :=
  if s.m_state ≠ .TCP_ESTABLISHED then
    (none, { s with m_error := .ENOTCONN })
  else if s.m_sbuf.getWriteRemaining = 0 then
    (none, { s with m_bWriteEnable := true, m_error := .EWOULDBLOCK })
  else
    let (written, s) := s.queue buffer.byte (u32 buffer.size) false
    (some written, s.attemptSend .sfNone)

def close (force : Bool) (s : PseudoTcp) : PseudoTcp :=
  { s with m_shutdown := if force then .SD_FORCEFUL else .SD_GRACEFUL }

inductive Call where
  | connect
  | notifyMTU (mtu : UInt16)
  | notifyClock (now : ℕ)
  | notifyPacket (buffer : Buffer)
  | recv (len : ℕ)
  | send (buffer : Buffer)
  | close (force : Bool)

/-- What the environment does during a call. -/
structure Environment where
  clock : ℕ → ℕ
  memory : ℕ → ℕ → UInt8
  results : ℕ → WriteResult

def within (env : Environment) (s : PseudoTcp) : PseudoTcp :=
  { s with
    clock := env.clock
    memory := env.memory
    results := env.results }

def call (s : PseudoTcp) : Call → PseudoTcp
  | .connect => s.connect.2
  | .notifyMTU mtu => s.notifyMTU mtu
  | .notifyClock now => s.notifyClock (u32 now)
  | .notifyPacket buffer => (s.notifyPacket buffer).2
  | .recv len => (s.recv len).2
  | .send buffer => (s.send buffer).2
  | .close force => s.close force

def step (s : PseudoTcp) (e : Environment × Call) : Option PseudoTcp :=
  some ((s.within e.1).call e.2)

/-!
## Options of a connection

`SetOption`, and the connection as a state machine with it.  An `int` is taken
as the `uint32` that it is converted to.
-/

section

/-- `PseudoTcp::Option`. -/
inductive OptionName where
  | OPT_NODELAY
  | OPT_ACKDELAY
  | OPT_RCVBUF
  | OPT_SNDBUF
  deriving DecidableEq

def resizeSendBuffer (new_size : ℕ) (s : PseudoTcp) : PseudoTcp :=
  { s with
    memory := fun i => s.memory (i + 1)
    m_sbuf_len := new_size
    m_sbuf := (s.m_sbuf.setCapacity (s.memory 0) new_size).2 }

/-- `SetOption`; it is asserted that the sizes of the buffers are set before
the connection is set up. -/
def setOption (opt : OptionName) (value : UInt32) (s : PseudoTcp) :
    Option PseudoTcp :=
  match opt with
  | .OPT_NODELAY =>
    some { s with
      m_use_nagling := value = 0 }
  | .OPT_ACKDELAY =>
    some { s with
      m_ack_delay := value.toNat }
  | .OPT_SNDBUF =>
    if s.m_state = .TCP_LISTEN then some (s.resizeSendBuffer value.toNat)
    else none
  | .OPT_RCVBUF =>
    if s.m_state = .TCP_LISTEN then some (s.resizeReceiveBuffer value.toNat)
    else none

inductive Command where
  | call (call : Call)
  | setOption (opt : OptionName) (value : UInt32)

/-- A call or a change of an option, with what the environment does. -/
def command (s : PseudoTcp) (e : Environment × Command) : Option PseudoTcp :=
  match e.2 with
  | .call call => s.step (e.1, call)
  | .setOption opt value => (s.within e.1).setOption opt value

end

end WebrtcWinXp.PseudoTcp
