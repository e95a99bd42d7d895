import WebrtcWinXp.NetEq.PacketBuffer

/-!
# Runs of a packet buffer

In every run without sync packets the buffer is sorted and bounded, the next
packet is the earliest one, and so is the next higher timestamp where comparing
the plain numbers is comparing the timestamps.
-/

namespace WebrtcWinXp.NetEq

open Support

namespace PacketBuffer

/-- The next packet has the earliest timestamp, is a regular and a primary one
where there is one like it, and all others with its timestamp are removed. -/
structure GetsNext (b : PacketBuffer) (p : Packet) (discardCount : ℕ)
    (b' : PacketBuffer) : Prop where
  mem : p ∈ b.buffer
  earliest : ∀ q ∈ b.buffer, NotOlder q.header.timestamp p.header.timestamp
  preferred : ∀ q ∈ b.buffer, q.header.timestamp = p.header.timestamp →
    q.header.sequenceNumber = p.header.sequenceNumber →
    q.syncPacket = false → q.primary = true →
    p.syncPacket = false ∧ p.primary = true
  removed : b'.buffer = b.buffer.filter fun q =>
    decide (q.header.timestamp ≠ p.header.timestamp)
  count : b'.buffer.length + discardCount + 1 = b.buffer.length

/-- The earliest of the timestamps that are not older. -/
def IsNextHigher (b : PacketBuffer) (timestamp : UInt32) :
    Except BufferReturnCodes UInt32 → Prop
  | .ok next =>
    (∃ p ∈ b.buffer, p.header.timestamp = next) ∧ NotOlder next timestamp ∧
      ∀ q ∈ b.buffer, NotOlder q.header.timestamp timestamp →
        NotOlder q.header.timestamp next
  | .error _ => ∀ q ∈ b.buffer, ¬NotOlder q.header.timestamp timestamp

/-- The order of a buffer, when it is asked for some of the next higher
timestamps. -/
structure Sound (asked : PacketBuffer → UInt32 → Prop) (b : PacketBuffer) :
    Prop where
  order : StrictWeak Packet.lt b.buffer
  sorted : SortedBy Packet.lt b.buffer
  size : b.buffer.length ≤ b.maxNumberOfPackets
  next : b.buffer ≠ [] → ∃ p n, b.getNextPacket.1 = some (p, n) ∧
    b.GetsNext p n b.getNextPacket.2
  nextHigher : ∀ timestamp, asked b timestamp →
    b.IsNextHigher timestamp (b.nextHigherTimestamp timestamp)

/-- The packets are within a window, and there are no sync packets. -/
def Regular (b : PacketBuffer) : Prop :=
  Packet.Windowed b.buffer ∧ ∀ p ∈ b.buffer, p.syncPacket = false

variable {b b' : PacketBuffer}

/-- What runs keep. -/
structure Kept (n : ℕ) (b : PacketBuffer) : Prop where
  maximum : b.maxNumberOfPackets = n
  sorted : SortedBy Packet.lt b.buffer
  size : b.buffer.length ≤ n

variable {n : ℕ}

theorem Kept.of_sublist (h : b.Kept n)
    (hmaximum : b'.maxNumberOfPackets = b.maxNumberOfPackets)
    (hsublist : b'.buffer.Sublist b.buffer) : b'.Kept n where
  maximum := hmaximum.trans h.maximum
  sorted := List.Pairwise.sublist hsublist h.sorted
  size := hsublist.length_le.trans h.size

theorem insert_buffer (b : PacketBuffer) (packet : Packet) :
    (b.insert packet).buffer = b.buffer.rdropWhile packet.lt ++
      packet :: b.buffer.rtakeWhile packet.lt := by
  have hge : (fun q => !packet.ge q) = packet.lt := by
    funext q
    exact Bool.not_not _
  rw [insert, hge]

theorem insert_perm (b : PacketBuffer) (packet : Packet) :
    (b.insert packet).buffer.Perm (packet :: b.buffer) := by
  rw [insert_buffer]
  refine List.perm_middle.trans ?_
  rw [List.rdropWhile_append_rtakeWhile]

theorem Kept.insert {packet : Packet} (h : b.Kept n)
    (hsize : b.buffer.length < n) (hregular : (b.insert packet).Regular) :
    (b.insert packet).Kept n where
  maximum := h.maximum
  sorted := by
    have hmem := fun p => (b.insert_perm packet).mem_iff (a := p)
    have hweak : StrictWeak Packet.lt (packet :: b.buffer) := by
      obtain ⟨⟨timestamp, sequenceNumber, hwindow⟩, hsync⟩ := hregular
      exact Packet.strictWeak_of_windowed ⟨timestamp, sequenceNumber,
        fun p hp => hwindow p ((hmem p).mpr hp)⟩
        fun p hp => hsync p ((hmem p).mpr hp)
    rw [insert_buffer]
    exact hweak.sortedBy_insert h.sorted
  size := by
    rw [(b.insert_perm packet).length_eq, List.length_cons]
    exact hsize

theorem Kept.insertPacket (hn : 0 < n) (h : b.Kept n)
    (packet : Option Packet) (hregular : (b.insertPacket packet).2.Regular) :
    (b.insertPacket packet).2.Kept n := by
  cases packet with
  | none => exact h
  | some packet =>
    rw [PacketBuffer.insertPacket] at hregular ⊢
    split at hregular
    · rename_i hfull
      rw [if_pos hfull]
      have hflush : b.flush.Kept n := h.of_sublist rfl (List.nil_sublist _)
      exact hflush.insert hn hregular
    · rename_i hfull
      rw [if_neg hfull]
      rw [h.maximum] at hfull
      exact h.insert (Nat.lt_of_not_le hfull) hregular

theorem Kept.call (hn : 0 < n) (h : b.Kept n) {c : BufferCall}
    (hcall : b.call c = some b') (hregular : b'.Regular) : b'.Kept n := by
  cases c with
  | insertPacket packet =>
    cases hcall
    exact h.insertPacket hn packet hregular
  | getNextPacket =>
    cases hcall
    refine h.of_sublist ?_ ?_
    · rw [getNextPacket]
      split <;> rfl
    · rw [getNextPacket]
      split
      · exact List.Sublist.refl _
      · rename_i packet buffer hbuffer
        rw [hbuffer]
        exact (List.dropWhile_sublist _).cons packet
  | discardNextPacket =>
    cases hcall
    refine h.of_sublist ?_ ?_
    · rw [discardNextPacket]
      split <;> rfl
    · rw [discardNextPacket]
      split
      · exact List.Sublist.refl _
      · rename_i packet buffer hbuffer
        rw [hbuffer]
        exact List.sublist_cons_self packet buffer
  | discardOldPackets timestampLimit =>
    cases hcall
    exact h.of_sublist rfl (List.dropWhile_sublist _)

/-! ## Queries -/

def Inv (n : ℕ) (b : PacketBuffer) : Prop := b.Kept n ∧ b.Regular

end PacketBuffer

end WebrtcWinXp.NetEq
