import WebrtcWinXp.Support.Loop
import WebrtcWinXp.Support.Memory

/-!
# STUN and channel data over TCP

`AsyncStunTCPSocket` and the buffers of its base `AsyncTCPSocketBase`: packets
are appended to an output buffer, padded and flushed, and taken off an input
buffer.
-/

namespace WebrtcWinXp.StunTcp

open Support

def kStunHeaderSize : ℕ := 20
def kMaxPacketSize : ℕ := 64 * 1024
def kPacketLenSize : ℕ := 2
def kPacketLenOffset : ℕ := 2
def kBufSize : ℕ := kMaxPacketSize + kStunHeaderSize
def kTurnChannelDataHdrSize : ℕ := 4

def getBE16 (data : Buffer) (offset : ℕ) : UInt16 :=
  UInt16.ofNat (ofBE (data.read ⟨offset, 2⟩))

/-- The first two bits of a channel data message are not zero. -/
def isStunMessage (msgType : UInt16) : Bool := msgType &&& 0xC000 = 0

/-- `GetExpectedLength`: the length of the packet and of its padding. -/
def getExpectedLength (data : Buffer) : ℕ × ℕ :=
  let pktLen := (getBE16 data kPacketLenOffset).toNat
  if isStunMessage (getBE16 data 0) then (kStunHeaderSize + pktLen, 0)
  else
    let expectedPktLen := kTurnChannelDataHdrSize + pktLen
    (expectedPktLen,
      if expectedPktLen % 4 ≠ 0 then 4 - expectedPktLen % 4 else 0)

/-! ## Sending -/

/-- What a call does to the output buffer, and what it writes. -/
structure Sending where
  result : ℤ
  outbuf : List UInt8
  written : List UInt8

/-- `FlushOutBuffer`, when `Send` of the socket returns `res`. -/
def flushOutBuffer (outbuf : List UInt8) (res : ℤ) : Sending :=
  if res ≤ 0 then ⟨res, outbuf, []⟩
  else if res.toNat ≤ outbuf.length then
    ⟨res, outbuf.drop res.toNat, outbuf.take res.toNat⟩
  else ⟨-1, outbuf, []⟩

/-- `Send`; the output buffer holds `outpos_` bytes. -/
def send (outbuf : List UInt8) (pv : Buffer) (res : ℤ) : Sending :=
  if pv.size > kBufSize ∨ pv.size < kPacketLenSize + kPacketLenOffset then
    ⟨-1, outbuf, []⟩
  else if outbuf ≠ [] then ⟨pv.size, outbuf, []⟩
  else
    let (expectedPktLen, padBytes) := getExpectedLength pv
    if pv.size ≠ expectedPktLen then ⟨-1, outbuf, []⟩
    else
      let flushed := flushOutBuffer
        (pv.read ⟨0, pv.size⟩ ++ List.replicate padBytes 0) res
      if flushed.result ≤ 0 then ⟨flushed.result, [], flushed.written⟩
      else ⟨pv.size, flushed.outbuf, flushed.written⟩

/-- The loop in `ProcessInput`: the input buffer with `*len` bytes, and the
packets that were signalled. -/
structure Processing where
  packets : List (List UInt8)
  data : Buffer

def processStep (s : Processing) : Option Processing :=
  if s.data.size < kPacketLenOffset + kPacketLenSize then none
  else
    let (expectedPktLen, padBytes) := getExpectedLength s.data
    let actualLength := expectedPktLen + padBytes
    if s.data.size < actualLength then none
    else
      let len := s.data.size - actualLength
      some
        { packets := s.packets ++ [s.data.read ⟨0, expectedPktLen⟩]
          data :=
            { byte := fun i =>
                if i < len then s.data.byte (i + actualLength)
                else s.data.byte i
              size := len } }

def processInput (data : Buffer) : Processing :=
  finish processStep (fun s => s.data.size) ⟨[], data⟩

/-- Bytes that `Recv` puts behind those in the input buffer. -/
def recv (data : Buffer) (bytes : List UInt8) : Buffer where
  byte i :=
    if data.size ≤ i ∧ i < data.size + bytes.length then
      bytes.getD (i - data.size) 0
    else data.byte i
  size := data.size + bytes.length

/-- `OnReadEvent` with what `Recv` returned. -/
def onReadEvent (data : Buffer) (bytes : List UInt8) : Processing :=
  let s := processInput (recv data bytes)
  if s.data.size ≥ kBufSize then
    { s with
      data :=
        { s.data with
          size := 0 } }
  else s

/-- One direction of a connection: the output buffer of one end, the bytes on
the way, and the input buffer of the other end. -/
structure Connection where
  outbuf : List UInt8
  /-- The packets that were put on the stream. -/
  sent : List (List UInt8)
  wire : List UInt8
  inbuf : Buffer
  emitted : List (List UInt8)

inductive Event where
  | send (pv : Buffer) (res : ℤ)
  | write (res : ℤ)
  | read (n : ℕ)

/-- A socket writes at most what it is given, and it receives at most what
there is and what it has room for. -/
def step (s : Connection) : Event → Option Connection
  | .send pv res =>
    let r := send s.outbuf pv res
    some
      { s with
        outbuf := r.outbuf
        wire := s.wire ++ r.written
        sent :=
          if r.written = [] then s.sent
          else s.sent ++ [pv.read ⟨0, pv.size⟩] }
  | .write res =>
    if s.outbuf = [] then some s
    else
      let r := flushOutBuffer s.outbuf res
      some
        { s with
          outbuf := r.outbuf
          wire := s.wire ++ r.written }
  | .read n =>
    if n ≤ s.wire.length ∧ n ≤ kBufSize - s.inbuf.size then
      let r := onReadEvent s.inbuf (s.wire.take n)
      some
        { s with
          wire := s.wire.drop n
          inbuf := r.data
          emitted := s.emitted ++ r.packets }
    else none

def Started (s : Connection) : Prop :=
  s.outbuf = [] ∧ s.sent = [] ∧ s.wire = [] ∧ s.inbuf.size = 0 ∧
    s.emitted = []

end WebrtcWinXp.StunTcp
