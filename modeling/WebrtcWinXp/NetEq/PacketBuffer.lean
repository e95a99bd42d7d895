import WebrtcWinXp.NetEq.Packet
import WebrtcWinXp.Support.Sorted
import WebrtcWinXp.Support.Transition

/-!
# `PacketBuffer`

The comparison operators of packets and the buffer that is kept sorted by them.
-/

namespace WebrtcWinXp.NetEq

open Support

namespace Packet

/-- `operator<`. -/
def lt (p rhs : Packet) : Bool :=
  if p.header.timestamp = rhs.header.timestamp then
    if p.header.sequenceNumber = rhs.header.sequenceNumber then
      if rhs.syncPacket then true
      else if p.syncPacket then false
      else p.primary && !rhs.primary
    else
      decide (rhs.header.sequenceNumber - p.header.sequenceNumber < 0xFFFF / 2)
  else decide (rhs.header.timestamp - p.header.timestamp < 0xFFFFFFFF / 2)

/-- `operator>=`. -/
def ge (p rhs : Packet) : Bool := !p.lt rhs

end Packet

inductive BufferReturnCodes where
  | kOK
  | kFlushed
  | kNotFound
  | kBufferEmpty
  | kInvalidPacket
  deriving DecidableEq, Repr

structure PacketBuffer where
  maxNumberOfPackets : ℕ
  buffer : List Packet := []

namespace PacketBuffer

variable (b : PacketBuffer)

def empty : Bool := b.buffer.isEmpty

def flush : PacketBuffer :=
  { b with
    buffer := [] }

/-- The list is searched from behind for a packet that the new one is not less
than. -/
def insert (packet : Packet) : PacketBuffer :=
  { b with
    buffer := b.buffer.rdropWhile (fun q => !packet.ge q) ++
      packet :: b.buffer.rtakeWhile (fun q => !packet.ge q) }

/-- `InsertPacket`; nothing stands for no packet or one without a payload. -/
def insertPacket : Option Packet → BufferReturnCodes × PacketBuffer
  | none => (.kInvalidPacket, b)
  | some packet =>
    if b.buffer.length ≥ b.maxNumberOfPackets then
      (.kFlushed, b.flush.insert packet)
    else (.kOK, b.insert packet)

def nextHigherTimestamp (timestamp : UInt32) :
    Except BufferReturnCodes UInt32 :=
  if b.empty then .error .kBufferEmpty
  else
    match b.buffer.find? fun q => decide (q.header.timestamp ≥ timestamp) with
    | none => .error .kNotFound
    | some packet => .ok packet.header.timestamp

def discardNextPacket : BufferReturnCodes × PacketBuffer :=
  match b.buffer with
  | [] => (.kBufferEmpty, b)
  | _ :: buffer =>
    (.kOK, { b with
      buffer := buffer })

/-- Packets are discarded from the front as long as they have a property. -/
def discardWhile (p : Packet → Bool) : PacketBuffer :=
  { b with
    buffer := b.buffer.dropWhile p }

/-- `GetNextPacket`: the packet and the number of discarded ones. -/
def getNextPacket : Option (Packet × ℕ) × PacketBuffer :=
  match b.buffer with
  | [] => (none, b)
  | packet :: buffer =>
    let same := fun q : Packet =>
      decide (q.header.timestamp = packet.header.timestamp)
    let b := { b with
      buffer := buffer }
    (some (packet, (buffer.takeWhile same).length), b.discardWhile same)

def discardOldPackets (timestampLimit : UInt32) : PacketBuffer :=
  b.discardWhile fun q =>
    decide (timestampLimit ≠ q.header.timestamp) &&
      decide (timestampLimit - q.header.timestamp < 0xFFFFFFFF / 2)

end PacketBuffer

inductive BufferCall where
  | insertPacket (packet : Option Packet)
  | getNextPacket
  | discardNextPacket
  | discardOldPackets (timestampLimit : UInt32)

def PacketBuffer.call (b : PacketBuffer) : BufferCall → Option PacketBuffer
  | .insertPacket packet => some (b.insertPacket packet).2
  | .getNextPacket => some b.getNextPacket.2
  | .discardNextPacket => some b.discardNextPacket.2
  | .discardOldPackets timestampLimit =>
    some (b.discardOldPackets timestampLimit)

/-!
## The order of packets

Within a window of timestamps and sequence numbers the comparison operators are
the order of a key, as long as there are no sync packets: of two sync packets
with the same timestamp and sequence number each one is less than the other.
-/

section

open Support

/-- A timestamp is not older than another one, modulo 2^32. -/
def NotOlder (timestamp limit : UInt32) : Prop :=
  (timestamp - limit).toNat < 2 ^ 31 - 1

theorem sub_lt_iff_uint32 {a b t : UInt32} (ha : (a - t).toNat < 2 ^ 31 - 1)
    (hb : (b - t).toNat < 2 ^ 31 - 1) :
    NotOlder b a ↔ (a - t).toNat ≤ (b - t).toNat := by
  have ha' := a.toNat_lt
  have hb' := b.toNat_lt
  have ht' := t.toNat_lt
  rw [UInt32.toNat_sub] at ha hb
  rw [NotOlder, UInt32.toNat_sub, UInt32.toNat_sub, UInt32.toNat_sub]
  omega

theorem sub_lt_iff_uint16 {a b t : UInt16} (ha : (a - t).toNat < 2 ^ 15 - 1)
    (hb : (b - t).toNat < 2 ^ 15 - 1) :
    (b - a).toNat < 2 ^ 15 - 1 ↔ (a - t).toNat ≤ (b - t).toNat := by
  have ha' := a.toNat_lt
  have hb' := b.toNat_lt
  have ht' := t.toNat_lt
  rw [UInt16.toNat_sub] at ha hb
  rw [UInt16.toNat_sub, UInt16.toNat_sub, UInt16.toNat_sub]
  omega

theorem sub_left_inj_uint32 {a b t : UInt32} :
    (a - t).toNat = (b - t).toNat ↔ a = b := by
  rw [UInt32.toNat_inj, UInt32.sub_left_inj]

theorem sub_left_inj_uint16 {a b t : UInt16} :
    (a - t).toNat = (b - t).toNat ↔ a = b := by
  rw [UInt16.toNat_inj, UInt16.sub_left_inj]

namespace Packet

/-- The packets are within less than half of the number range. -/
def InWindow (timestamp : UInt32) (sequenceNumber : UInt16) (p : Packet) :
    Prop :=
  (p.header.timestamp - timestamp).toNat < 2 ^ 31 - 1 ∧
    (p.header.sequenceNumber - sequenceNumber).toNat < 2 ^ 15 - 1

instance (timestamp : UInt32) (sequenceNumber : UInt16) (p : Packet) :
    Decidable (p.InWindow timestamp sequenceNumber) :=
  inferInstanceAs (Decidable (_ ∧ _))

def Windowed (l : List Packet) : Prop :=
  ∃ timestamp sequenceNumber, ∀ p ∈ l, p.InWindow timestamp sequenceNumber

/-- The timestamp first, then the sequence number, then the primary payload. -/
def key (timestamp : UInt32) (sequenceNumber : UInt16) (p : Packet) : ℕ :=
  (p.header.timestamp - timestamp).toNat * 2 ^ 17 +
    (p.header.sequenceNumber - sequenceNumber).toNat * 2 +
    if p.primary then 0 else 1

variable {timestamp : UInt32} {sequenceNumber : UInt16} {p q : Packet}
  {l : List Packet}

theorem lt_iff_key_lt (hp : p.InWindow timestamp sequenceNumber)
    (hq : q.InWindow timestamp sequenceNumber) (hp' : p.syncPacket = false)
    (hq' : q.syncPacket = false) :
    p.lt q = true ↔
      p.key timestamp sequenceNumber < q.key timestamp sequenceNumber := by
  have hbound := hp.2
  have hbound' := hq.2
  have hlast : ∀ b : Bool, (if b = true then 0 else 1) ≤ 1 := by decide
  have hprimary := hlast p.primary
  have hprimary' := hlast q.primary
  rw [lt, key, key]
  by_cases htime : p.header.timestamp = q.header.timestamp
  · rw [if_pos htime, htime]
    by_cases hsequence : p.header.sequenceNumber = q.header.sequenceNumber
    · rw [if_pos hsequence, hsequence, hp', hq', Nat.add_lt_add_iff_left]
      cases p.primary <;> cases q.primary <;> decide
    · have hne := mt (sub_left_inj_uint16 (t := sequenceNumber)).mp hsequence
      have hiff := sub_lt_iff_uint16 hp.2 hq.2
      rw [if_neg hsequence, decide_eq_true_iff, UInt16.lt_iff_toNat_lt]
      change (_ < 2 ^ 15 - 1) ↔ _
      rw [hiff]
      omega
  · have hne := mt (sub_left_inj_uint32 (t := timestamp)).mp htime
    have hiff := sub_lt_iff_uint32 hp.1 hq.1
    rw [if_neg htime, decide_eq_true_iff, UInt32.lt_iff_toNat_lt]
    change (_ < 2 ^ 31 - 1) ↔ _
    rw [NotOlder] at hiff
    rw [hiff]
    omega

theorem strictWeak_of_windowed (h : Windowed l)
    (hsync : ∀ p ∈ l, p.syncPacket = false) : StrictWeak lt l := by
  obtain ⟨timestamp, sequenceNumber, h⟩ := h
  exact .of_key (key timestamp sequenceNumber) fun p hp q hq =>
    lt_iff_key_lt (h p hp) (h q hq) (hsync p hp) (hsync q hq)

end Packet

end

end WebrtcWinXp.NetEq
