import WebrtcWinXp.PseudoTcp.FifoBuffer
import WebrtcWinXp.Support.Memory
import WebrtcWinXp.Support.Transition

/-!
# The byte queue as a stream

A queue of bytes numbers them.  The first ones were accepted, of which some are
delivered already, and others may be stored ahead under later numbers.  The
ring of `FifoBuffer` should behave like such a stream under every sequence of
calls.
-/

namespace WebrtcWinXp.PseudoTcp

open Support

/-- A call, with the bytes that the caller writes to a block that it gets from
`GetWriteBuffer`. -/
inductive BufferCall where
  | read (bytes : ℕ)
  | readOffset (bytes offset : ℕ)
  | write (p : List UInt8)
  | writeOffset (p : List UInt8) (offset : ℕ)
  | getReadData
  | consumeReadData (size : ℕ)
  | getWriteBuffer (p : List UInt8)
  | consumeWriteBuffer (size : ℕ)
  | setCapacity (memory : ℕ → UInt8) (size : ℕ)

/-- What a call returns. -/
inductive BufferReply where
  | read (result : StreamResult) (bytes : List UInt8)
  | wrote (result : StreamResult) (copy : ℕ)
  | data (bytes : List UInt8)
  | room (size : ℕ)
  | capacity (success : Bool)
  | consumed
  deriving DecidableEq

def pointer (p : List UInt8) : ℕ → UInt8 := fun i => p.getD i 0

namespace FifoBuffer

/-! ## The other calls -/

section

variable (w : ℕ) (f : FifoBuffer)

/-- `WriteOffsetLocked` with a `size_t` of `w` bits. -/
def writeOffsetLocked (p : ℕ → UInt8) (bytes offset : ℕ) :
    StreamResult × ℕ × FifoBuffer :=
  if f.state = .SS_CLOSED then (.SR_EOS, 0, f)
  else if (f.data_length + offset) % 2 ^ w ≥ f.buffer_length then
    (.SR_BLOCK, 0, f)
  else
    let available :=
      (f.buffer_length - f.data_length + (2 ^ w - offset)) % 2 ^ w
    let write_position :=
      (f.read_position + f.data_length + offset) % 2 ^ w % f.buffer_length
    let copy := min bytes available
    let tail_copy := min copy (f.buffer_length - write_position)
    (.SR_SUCCESS, copy,
      { f with
        buffer := memcpy (memcpy f.buffer write_position p tail_copy) 0
          (fun i => p (tail_copy + i)) (copy - tail_copy) })

/-- `GetReadData`: the size that it offers. -/
def getReadData : ℕ :=
  if f.read_position + f.data_length ≤ f.buffer_length then f.data_length
  else f.buffer_length - f.read_position

/-- The write position is reset when there are no data. -/
def resetIfEmpty : FifoBuffer :=
  if f.data_length = 0 then { f with read_position := 0 } else f

def writePosition : ℕ :=
  (f.read_position + f.data_length) % f.buffer_length

/-- `GetWriteBuffer`: the position and the size that it offers. -/
def getWriteBuffer : FifoBuffer × ℕ × ℕ :=
  let f := f.resetIfEmpty
  (f, f.writePosition,
    if f.writePosition > f.read_position || f.data_length = 0 then
      f.buffer_length - f.writePosition
    else f.read_position - f.writePosition)

def fillWriteBuffer (p : List UInt8) : FifoBuffer :=
  let (f, position, _) := f.getWriteBuffer
  { f with buffer := memcpy f.buffer position (pointer p) p.length }

def call : BufferCall → BufferReply × FifoBuffer
  | .read bytes =>
    let (result, copied, f) := f.read bytes
    (.read result copied, f)
  | .readOffset bytes offset =>
    let (result, copied) := f.readOffset bytes offset
    (.read result copied, f)
  | .write p =>
    let (result, copy, f) := f.write (pointer p) p.length
    (.wrote result copy, f)
  | .writeOffset p offset =>
    let (result, copy, f) := f.writeOffsetLocked w (pointer p) p.length offset
    (.wrote result copy, f)
  | .getReadData => (.data (slice f.buffer f.read_position f.getReadData), f)
  | .consumeReadData size => (.consumed, f.consumeReadData size)
  | .getWriteBuffer p => (.room f.getWriteBuffer.2.2, f.fillWriteBuffer p)
  | .consumeWriteBuffer size => (.consumed, f.consumeWriteBuffer size)
  | .setCapacity memory size =>
    let (success, f) := f.setCapacity memory size
    (.capacity success, f)

/-- A range of a block of memory, with the length of the block. -/
structure BlockAccess where
  blockLength : ℕ
  access : Access

def BlockAccess.Inside (a : BlockAccess) : Prop :=
  a.access.offset + a.access.length ≤ a.blockLength

/-- The two parts of a copy from or to the ring. -/
def ringAccesses (position copy : ℕ) : List BlockAccess :=
  let tail_copy := min copy (f.buffer_length - position)
  [⟨f.buffer_length, position, tail_copy⟩,
    ⟨f.buffer_length, 0, copy - tail_copy⟩]

def readAccesses (bytes offset : ℕ) : List BlockAccess :=
  if offset ≥ f.data_length then []
  else f.ringAccesses ((f.read_position + offset) % f.buffer_length)
    (min bytes (f.data_length - offset))

def writeAccesses (bytes offset : ℕ) : List BlockAccess :=
  if f.state = .SS_CLOSED then []
  else if (f.data_length + offset) % 2 ^ w ≥ f.buffer_length then []
  else f.ringAccesses
    ((f.read_position + f.data_length + offset) % 2 ^ w % f.buffer_length)
    (min bytes ((f.buffer_length - f.data_length + (2 ^ w - offset)) % 2 ^ w))

/-- The ranges of memory that a call copies from or to, or that it offers to
the caller. -/
def accesses : BufferCall → List BlockAccess
  | .read bytes => f.readAccesses bytes 0
  | .readOffset bytes offset => f.readAccesses bytes offset
  | .write p => f.writeAccesses w p.length 0
  | .writeOffset p offset => f.writeAccesses w p.length offset
  | .getReadData => [⟨f.buffer_length, f.read_position, f.getReadData⟩]
  | .getWriteBuffer _ =>
    [⟨f.buffer_length, f.getWriteBuffer.2.1, f.getWriteBuffer.2.2⟩]
  | .setCapacity _ size =>
    if f.data_length > size then []
    else if size ≠ f.buffer_length then
      let tail_copy := min f.data_length (f.buffer_length - f.read_position)
      f.ringAccesses f.read_position f.data_length ++
        [⟨size, 0, tail_copy⟩,
          ⟨size, tail_copy, f.data_length - tail_copy⟩]
    else []
  | .consumeReadData _ => []
  | .consumeWriteBuffer _ => []

end

end FifoBuffer

/-- The bytes that were accepted, how many of them are delivered, and the
bytes that are stored ahead by their numbers. -/
structure Stream where
  accepted : List UInt8
  delivered : ℕ
  stored : ℕ → Option UInt8
  capacity : ℕ

namespace Stream

def new (capacity : ℕ) : Stream := ⟨[], 0, fun _ => none, capacity⟩

variable (s : Stream)

def unread : List UInt8 := s.accepted.drop s.delivered

def room : ℕ := s.capacity - s.unread.length

/-- Bytes are stored under the numbers from `pos` on. -/
def store (pos : ℕ) (p : List UInt8) : Stream :=
  { s with
    stored := fun i =>
      if pos ≤ i ∧ i < pos + p.length then p[i - pos]? else s.stored i }

def deliver (n : ℕ) : Stream := { s with delivered := s.delivered + n }

def accept (p : List UInt8) : Stream := { s with accepted := s.accepted ++ p }

def forget : Stream := { s with stored := fun _ => none }

/-- The bytes that are stored right behind those that were accepted. -/
def ahead (n : ℕ) : List UInt8 :=
  slice (fun i => (s.stored i).getD 0) s.accepted.length n

def next : BufferCall → Stream
  | .read bytes => s.deliver (min bytes s.unread.length)
  | .readOffset _ _ => s
  | .write p => s.accept (p.take s.room)
  | .writeOffset p offset =>
    s.store (s.accepted.length + offset) (p.take (s.room - offset))
  | .getReadData => s
  | .consumeReadData size => s.deliver size
  | .getWriteBuffer p => s.forget.store s.accepted.length p
  | .consumeWriteBuffer size => s.accept (s.ahead size)
  | .setCapacity _ size =>
    if s.unread.length ≤ size ∧ size ≠ s.capacity then
      { s.forget with capacity := size }
    else s

def Answers : BufferCall → BufferReply → Prop
  | .read bytes, reply =>
    reply = if s.unread = [] then .read .SR_BLOCK []
      else .read .SR_SUCCESS (s.unread.take bytes)
  | .readOffset bytes offset, reply =>
    reply = if s.unread.length ≤ offset then .read .SR_BLOCK []
      else .read .SR_SUCCESS ((s.unread.drop offset).take bytes)
  | .write p, reply =>
    reply = if s.room = 0 then .wrote .SR_BLOCK 0
      else .wrote .SR_SUCCESS (min p.length s.room)
  | .writeOffset p offset, reply =>
    reply = if s.room ≤ offset then .wrote .SR_BLOCK 0
      else .wrote .SR_SUCCESS (min p.length (s.room - offset))
  | .getReadData, reply =>
    ∃ bytes, reply = .data bytes ∧ bytes <+: s.unread ∧
      (bytes = [] → s.unread = [])
  | .getWriteBuffer _, reply =>
    ∃ size, reply = .room size ∧ size ≤ s.room ∧ (size = 0 → s.room = 0)
  | .setCapacity _ size, reply =>
    reply = .capacity (decide (s.unread.length ≤ size))
  | .consumeReadData _, reply => reply = .consumed
  | .consumeWriteBuffer _, reply => reply = .consumed

end Stream

/-! ## Offers -/

namespace FifoBuffer

variable {w : ℕ} {f f' : FifoBuffer}

theorem WellFormed.resetIfEmpty (h : f.WellFormed) :
    f.resetIfEmpty.WellFormed := by
  rw [FifoBuffer.resetIfEmpty]
  split
  · exact ⟨h.opened, Nat.zero_lt_of_lt h.position, h.length⟩
  · exact h

@[simp] theorem buffer_length_resetIfEmpty :
    f.resetIfEmpty.buffer_length = f.buffer_length := by
  rw [resetIfEmpty]
  split <;> rfl

@[simp] theorem data_length_resetIfEmpty :
    f.resetIfEmpty.data_length = f.data_length := by
  rw [resetIfEmpty]
  split <;> rfl

theorem content_resetIfEmpty : f.resetIfEmpty.content = f.content := by
  rw [resetIfEmpty]
  split
  · next hempty => simp [content, hempty]
  · rfl

theorem read_position_resetIfEmpty (h : f.data_length = 0) :
    f.resetIfEmpty.read_position = 0 := by
  rw [resetIfEmpty, if_pos h]

theorem writePosition_eq (h : f.WellFormed) :
    f.writePosition =
      if f.read_position + f.data_length < f.buffer_length then
        f.read_position + f.data_length
      else f.read_position + f.data_length - f.buffer_length := by
  have hposition := h.position
  have hlength := h.length
  rw [writePosition]
  split
  · exact Nat.mod_eq_of_lt ‹_›
  · rw [Nat.mod_eq_sub_mod (by omega), Nat.mod_eq_of_lt (by omega)]

/-- The block that is offered is free and contiguous. -/
structure Offer (f : FifoBuffer) (position size : ℕ) : Prop where
  position_eq : position = f.writePosition
  inside : position + size ≤ f.buffer_length
  free : size ≤ f.buffer_length - f.data_length
  nonempty : size = 0 → f.data_length = f.buffer_length

theorem offer_getWriteBuffer (h : f.WellFormed) :
    Offer f.resetIfEmpty f.getWriteBuffer.2.1 f.getWriteBuffer.2.2 := by
  have hf := h.resetIfEmpty
  have hposition := hf.position
  have hlength := hf.length
  have hwrite := writePosition_eq hf
  have hempty : f.resetIfEmpty.data_length = 0 →
      f.resetIfEmpty.read_position = 0 := by
    rw [data_length_resetIfEmpty]
    exact read_position_resetIfEmpty
  simp only [getWriteBuffer, Bool.or_eq_true, decide_eq_true_eq]
  generalize f.resetIfEmpty.writePosition = position at hwrite ⊢
  refine ⟨hwrite ▸ ?_, ?_, ?_, ?_⟩
  · rw [writePosition_eq hf]
  all_goals
    split at hwrite <;> split <;> omega

theorem getReadData_le (h : f.WellFormed) :
    f.read_position + f.getReadData ≤ f.buffer_length ∧
      f.getReadData ≤ f.data_length := by
  have hposition := h.position
  rw [getReadData]
  split <;> omega

/-- What `GetReadData` offers are the first bytes. -/
theorem slice_getReadData (h : f.WellFormed) :
    slice f.buffer f.read_position f.getReadData =
      f.content.take f.getReadData := by
  obtain ⟨hinside, hle⟩ := getReadData_le h
  rw [content, take_slice, Nat.min_eq_left hle]
  apply slice_congr
  intro i hi
  rw [byteAt, Nat.zero_add, Nat.mod_eq_of_lt (by omega)]

theorem stored_fillWriteBuffer (h : f.WellFormed) {p : List UInt8}
    (hp : p.length ≤ f.getWriteBuffer.2.2) :
    Stored f.resetIfEmpty (f.fillWriteBuffer p) (pointer p) 0 p.length := by
  have hf := h.resetIfEmpty
  have hoffer := offer_getWriteBuffer h
  have hposition := hf.position
  have hlength := hf.length
  have hwrite := hoffer.position_eq.trans (writePosition_eq hf)
  have hinside := hoffer.inside
  have hfree := hoffer.free
  refine ⟨⟨hf.opened, hf.position, hf.length⟩, rfl, rfl, rfl, ?_⟩
  intro i hi
  change memcpy f.resetIfEmpty.buffer f.getWriteBuffer.2.1 (pointer p) p.length
    ((f.resetIfEmpty.read_position + i) % f.resetIfEmpty.buffer_length) = _
  simp only [byteAt, memcpy]
  rw [ring_index_lt hf.position hi, Nat.add_zero]
  by_cases hdata : f.resetIfEmpty.data_length ≤ i ∧
      i < f.resetIfEmpty.data_length + p.length
  · rw [if_pos hdata, if_pos (by split at hwrite <;> split <;> omega)]
    congr 1
    split at hwrite <;> split <;> omega
  · rw [if_neg hdata, if_neg (by split at hwrite <;> split <;> omega)]

theorem setCapacity_eq (h : f.WellFormed) (memory : ℕ → UInt8) {size : ℕ}
    (hsize : f.data_length ≤ size) (hne : size ≠ f.buffer_length)
    (hpos : 0 < size) :
    ∃ f', f.setCapacity memory size = (true, f') ∧ f'.WellFormed ∧
      f'.buffer_length = size ∧ f'.content = f.content := by
  have hposition := h.position
  have hlength := h.length
  rw [setCapacity, if_neg (by omega), if_pos hne]
  refine ⟨_, rfl, ⟨h.opened, hpos, hsize⟩, rfl, ?_⟩
  simp only [content]
  apply slice_congr
  intro i hi
  have hi' : i < f.buffer_length := by omega
  simp only [byteAt, Nat.zero_add, memcpy]
  rw [Nat.mod_eq_of_lt (by omega), ring_index_lt h.position hi']
  by_cases hwrap : f.read_position + i < f.buffer_length
  · rw [if_pos hwrap, if_neg (by omega), if_pos (by omega), Nat.sub_zero]
  · rw [if_neg hwrap, if_pos (by omega)]
    congr 1
    omega

/-- The sum with the offset does not wrap to a position in the buffer. -/
def SumFits (w : ℕ) (f : FifoBuffer) (offset : ℕ) : Prop :=
  f.data_length + offset < 2 ^ w ∨
    f.buffer_length ≤ (f.data_length + offset) % 2 ^ w

theorem sumFits_zero (h : f.WellFormed) (hw : 2 * f.buffer_length ≤ 2 ^ w) :
    SumFits w f 0 := by
  have hlength := h.length
  have hposition := h.position
  exact .inl (by omega)

variable {bytes : ℕ}

theorem writeOffsetLocked_eq (h : f.WellFormed)
    (hw : 2 * f.buffer_length ≤ 2 ^ w) {p : ℕ → UInt8} {offset : ℕ}
    (hsum : SumFits w f offset) :
    f.writeOffsetLocked w p bytes offset = f.writeOffset p bytes offset := by
  have hlength := h.length
  have hposition := h.position
  rw [writeOffsetLocked, writeOffset, if_neg h.opened, if_neg h.opened]
  by_cases hlt : f.data_length + offset < 2 ^ w
  · rw [Nat.mod_eq_of_lt hlt]
    by_cases hfull : f.data_length + offset ≥ f.buffer_length
    · rw [if_pos hfull, if_pos hfull]
    · have havailable : f.buffer_length - f.data_length + (2 ^ w - offset) =
          f.buffer_length - f.data_length - offset + 2 ^ w := by omega
      rw [if_neg hfull, if_neg hfull, havailable, Nat.add_mod_right,
        Nat.mod_eq_of_lt (b := 2 ^ w) (by omega),
        Nat.mod_eq_of_lt (b := 2 ^ w) (by omega)]
  · rw [if_pos (hsum.resolve_left hlt), if_pos (by omega)]

theorem inside_ringAccesses {position copy : ℕ}
    (hposition : position ≤ f.buffer_length) (hcopy : copy ≤ f.buffer_length) :
    ∀ a ∈ f.ringAccesses position copy, a.Inside := by
  rw [ringAccesses]
  simp only [List.forall_mem_cons, List.not_mem_nil, false_implies,
    implies_true, and_true, BlockAccess.Inside]
  omega

theorem inside_readAccesses (h : f.WellFormed) {offset : ℕ} :
    ∀ a ∈ f.readAccesses bytes offset, a.Inside := by
  have hlength := h.length
  rw [readAccesses]
  split
  · exact nofun
  · refine inside_ringAccesses (Nat.mod_lt _ ?_).le ?_
    · exact Nat.zero_lt_of_lt h.position
    · omega

theorem inside_writeAccesses (h : f.WellFormed)
    (hw : 2 * f.buffer_length ≤ 2 ^ w) {offset : ℕ}
    (hsum : SumFits w f offset) :
    ∀ a ∈ f.writeAccesses w bytes offset, a.Inside := by
  have hlength := h.length
  have hposition := h.position
  rw [writeAccesses, if_neg h.opened]
  split
  · exact nofun
  · next hspace =>
      refine inside_ringAccesses (Nat.mod_lt _ ?_).le ?_
      · exact Nat.zero_lt_of_lt h.position
      · have hlt := hsum.resolve_right hspace
        rw [Nat.mod_eq_of_lt hlt] at hspace
        have havailable : f.buffer_length - f.data_length + (2 ^ w - offset) =
            f.buffer_length - f.data_length - offset + 2 ^ w := by omega
        rw [havailable, Nat.add_mod_right, Nat.mod_eq_of_lt (by omega)]
        omega

end FifoBuffer

/-! ## The ring as a stream -/

/-- The sizes are inside what was offered, and only bytes that were stored are
counted as data. -/
def InOffer (w : ℕ) (f : FifoBuffer) (s : Stream) : BufferCall → Prop
  | .writeOffset _ offset => offset < 2 ^ w
  | .consumeReadData size => size ≤ f.data_length
  | .getWriteBuffer p => p.length ≤ f.getWriteBuffer.2.2
  | .consumeWriteBuffer size =>
    ∀ i < size, (s.stored (s.accepted.length + i)).isSome
  | .setCapacity _ size => 0 < size ∧ 2 * size ≤ 2 ^ w
  | _ => True

instance (w : ℕ) (f : FifoBuffer) (s : Stream) (c : BufferCall) :
    Decidable (InOffer w f s c) :=
  match c with
  | .writeOffset _ _ => inferInstanceAs (Decidable (_ < _))
  | .consumeReadData _ => inferInstanceAs (Decidable (_ ≤ _))
  | .getWriteBuffer _ => inferInstanceAs (Decidable (_ ≤ _))
  | .consumeWriteBuffer size =>
    inferInstanceAs (Decidable (∀ i < size, _ = true))
  | .setCapacity _ _ => inferInstanceAs (Decidable (_ ∧ _))
  | .read _ => inferInstanceAs (Decidable True)
  | .readOffset _ _ => inferInstanceAs (Decidable True)
  | .write _ => inferInstanceAs (Decidable True)
  | .getReadData => inferInstanceAs (Decidable True)

/-- The sum with the offset of a `WriteOffset` does not wrap. -/
def SumsFit (w : ℕ) (f : FifoBuffer) : BufferCall → Prop
  | .writeOffset _ offset => f.SumFits w offset
  | _ => True

instance (w : ℕ) (f : FifoBuffer) (c : BufferCall) :
    Decidable (SumsFit w f c) :=
  match c with
  | .writeOffset _ _ => inferInstanceAs (Decidable (_ ∨ _))
  | .read _ => inferInstanceAs (Decidable True)
  | .readOffset _ _ => inferInstanceAs (Decidable True)
  | .write _ => inferInstanceAs (Decidable True)
  | .getReadData => inferInstanceAs (Decidable True)
  | .consumeReadData _ => inferInstanceAs (Decidable True)
  | .getWriteBuffer _ => inferInstanceAs (Decidable True)
  | .consumeWriteBuffer _ => inferInstanceAs (Decidable True)
  | .setCapacity _ _ => inferInstanceAs (Decidable True)

/-- The ring holds the unread bytes, and what is stored ahead. -/
structure Holds (w : ℕ) (f : FifoBuffer) (s : Stream) : Prop where
  wellFormed : f.WellFormed
  fits : 2 * f.buffer_length ≤ 2 ^ w
  capacity : s.capacity = f.buffer_length
  delivered : s.delivered ≤ s.accepted.length
  content : f.content = s.unread
  stored : ∀ i b, s.accepted.length ≤ i → s.stored i = some b →
    i < s.delivered + f.buffer_length ∧ f.byteAt (i - s.delivered) = b

section

variable {w : ℕ} {f f' : FifoBuffer} {s s' : Stream}

theorem holds_new (memory : ℕ → UInt8) {size : ℕ} (hpos : 0 < size)
    (hfits : 2 * size ≤ 2 ^ w) :
    Holds w (.new memory size) (.new size) where
  wellFormed := FifoBuffer.wellFormed_new hpos
  fits := hfits
  capacity := rfl
  delivered := Nat.le_refl 0
  content := rfl
  stored := nofun

theorem Holds.length_unread (h : Holds w f s) :
    s.unread.length = f.data_length := by
  rw [← h.content, FifoBuffer.length_content]

theorem Holds.room_eq (h : Holds w f s) :
    s.room = f.buffer_length - f.data_length := by
  rw [Stream.room, h.capacity, h.length_unread]

theorem Holds.data_length_eq (h : Holds w f s) :
    f.data_length = s.accepted.length - s.delivered := by
  rw [← h.length_unread, Stream.unread, List.length_drop]

theorem Holds.of_stored (h : Holds w f s) {stored : ℕ → Option UInt8}
    (hstored : ∀ i b, s.accepted.length ≤ i → stored i = some b →
      s.stored i = some b) :
    Holds w f { s with stored := stored } where
  wellFormed := h.wellFormed
  fits := h.fits
  capacity := h.capacity
  delivered := h.delivered
  content := h.content
  stored i b hi hb := h.stored i b hi (hstored i b hi hb)

variable {n : ℕ}

theorem Holds.deliver (h : Holds w f s) (hn : n ≤ f.data_length) :
    Holds w (f.consumeReadData n) (s.deliver n) := by
  have hdropped := FifoBuffer.dropped_consumeReadData h.wellFormed (n := n)
  have hlength := h.data_length_eq
  have hdelivered := h.delivered
  refine ⟨hdropped.wellFormed, h.fits, h.capacity, ?_, ?_, ?_⟩
  · simp only [Stream.deliver]
    omega
  · rw [hdropped.content, h.content, Stream.unread, Stream.unread,
      List.drop_drop]
    rfl
  · intro i b hi hb
    obtain ⟨hlt, hbyte⟩ := h.stored i b hi hb
    simp only [Stream.deliver] at hi ⊢
    refine ⟨lt_of_lt_of_le hlt ?_, ?_⟩
    · rw [hdropped.buffer_length]
      omega
    · rw [hdropped.byteAt, ← hbyte]
      congr 1
      omega

variable {p : List UInt8}

theorem Holds.store (h : Holds w f s) {src : ℕ → UInt8}
    {offset : ℕ} (hstored : FifoBuffer.Stored f f' src offset p.length)
    (hp : ∀ i (hi : i < p.length), src i = p[i])
    (hroom : offset + p.length ≤ f.buffer_length - f.data_length) :
    Holds w f' (s.store (s.accepted.length + offset) p) := by
  have hlength := h.data_length_eq
  have hdelivered := h.delivered
  have hle := h.wellFormed.length
  refine ⟨hstored.wellFormed, ?_, ?_, h.delivered, ?_, ?_⟩
  · rw [hstored.buffer_length]
    exact h.fits
  · rw [hstored.buffer_length]
    exact h.capacity
  · rw [FifoBuffer.content, hstored.data_length]
    refine Eq.trans (slice_congr fun i hi => ?_) h.content
    rw [Nat.zero_add, hstored.byteAt i (by omega), if_neg (by omega)]
  · intro i b hi hb
    simp only [Stream.store] at hi hb ⊢
    rw [hstored.buffer_length]
    split at hb
    · next hin =>
        obtain ⟨hlt, rfl⟩ := List.getElem?_eq_some_iff.mp hb
        have hindex : i - (s.accepted.length + offset) =
            i - s.delivered - (f.data_length + offset) := by omega
        refine ⟨by omega, ?_⟩
        rw [hstored.byteAt _ (by omega), if_pos (by omega), ← hp _ hlt, hindex]
    · next hout =>
        obtain ⟨hlt, hbyte⟩ := h.stored i b hi hb
        refine ⟨hlt, ?_⟩
        rw [hstored.byteAt _ (by omega), if_neg (by omega), hbyte]

theorem Holds.accept (h : Holds w f s)
    (hstored : ∀ i < n, (s.stored (s.accepted.length + i)).isSome) :
    Holds w (f.consumeWriteBuffer n) (s.accept (s.ahead n)) := by
  have hlength := h.data_length_eq
  have hdelivered := h.delivered
  have hle := h.wellFormed.length
  have hbyte : ∀ i < n, f.data_length + i < f.buffer_length ∧
      f.byteAt (f.data_length + i) =
        (s.stored (s.accepted.length + i)).getD 0 := by
    intro i hi
    obtain ⟨b, hb⟩ := Option.isSome_iff_exists.mp (hstored i hi)
    obtain ⟨hlt, hbyte⟩ := h.stored _ b (Nat.le_add_right _ _) hb
    have hindex : f.data_length + i = s.accepted.length + i - s.delivered := by
      omega
    exact ⟨by omega, by rw [hb, hindex, hbyte]; rfl⟩
  have hroom : f.data_length + n ≤ f.buffer_length := by
    rcases Nat.eq_zero_or_pos n with rfl | hpos
    · exact hle
    · have hlast := (hbyte (n - 1) (by omega)).1
      omega
  have happended :=
    FifoBuffer.appended_consumeWriteBuffer h.wellFormed hroom
  have hahead : s.ahead n =
      slice (fun i => f.byteAt (f.data_length + i)) 0 n := by
    rw [Stream.ahead]
    refine slice_congr fun i hi => ?_
    rw [Nat.zero_add]
    exact (hbyte i hi).2.symm
  refine ⟨happended.wellFormed, h.fits, h.capacity, ?_, ?_, ?_⟩
  · simp only [Stream.accept, List.length_append]
    omega
  · rw [happended.content, h.content, hahead, Stream.unread, Stream.unread,
      Stream.accept, List.drop_append_of_le_length h.delivered]
  · intro i b hi hb
    simp only [Stream.accept, List.length_append] at hi
    exact h.stored i b (by omega) hb

/-! ## Calls -/

theorem pointer_getElem {i : ℕ} (hi : i < p.length) :
    pointer p i = p[i] := by
  simp [pointer, List.getElem?_eq_getElem hi]

theorem take_min_length (p : List UInt8) (n : ℕ) :
    p.take (min n p.length) = p.take n := by
  rw [List.take_eq_take_iff]
  omega

theorem Holds.store_take (h : Holds w f s) {offset : ℕ}
    (hstored : FifoBuffer.Stored f f' (pointer p) offset (min p.length n))
    (hroom : offset + min p.length n ≤ f.buffer_length - f.data_length) :
    Holds w f' (s.store (s.accepted.length + offset) (p.take n)) := by
  have hlength : min p.length n = (p.take n).length := by
    rw [List.length_take, Nat.min_comm]
  rw [hlength] at hstored hroom
  refine h.store hstored (fun i hi => ?_) hroom
  rw [List.getElem_take, pointer_getElem]

theorem Stream.isSome_stored_store {pos i : ℕ}
    (hi : i < p.length) : ((s.store pos p).stored (pos + i)).isSome := by
  simp [Stream.store, hi]

theorem Stream.ahead_store (p : List UInt8) :
    (s.store s.accepted.length p).ahead p.length = p := by
  apply List.ext_getElem
  · exact length_slice _ _ _
  · intro i h₁ h₂
    simp [Stream.ahead, Stream.store, slice, h₂]

/-- One call of the ring and of the stream. -/
structure Matches (w : ℕ) (c : BufferCall) (r : BufferReply × FifoBuffer)
    (s : Stream) : Prop where
  answers : s.Answers c r.1
  holds : Holds w r.2 (s.next c)

theorem Holds.read (h : Holds w f s) (bytes : ℕ) :
    Matches w (.read bytes) (f.call w (.read bytes)) s := by
  have hlength := h.length_unread
  by_cases hempty : f.data_length = 0
  · have hunread : s.unread = [] := by
      rw [← List.length_eq_zero_iff, hlength, hempty]
    rw [FifoBuffer.call, FifoBuffer.read_of_empty h.wellFormed hempty]
    refine ⟨(if_pos hunread).symm, ?_⟩
    simpa [Stream.next, Stream.deliver, hunread] using h
  · have hunread : s.unread ≠ [] := by
      rw [← List.length_pos_iff, hlength]
      omega
    rw [FifoBuffer.call,
      FifoBuffer.read_eq h.wellFormed (Nat.pos_of_ne_zero hempty), h.content]
    refine ⟨(if_neg hunread).symm, ?_⟩
    simp only [Stream.next, hlength]
    exact h.deliver (Nat.min_le_right _ _)

theorem Holds.readOffset (h : Holds w f s) (bytes offset : ℕ) :
    Matches w (.readOffset bytes offset)
      (f.call w (.readOffset bytes offset)) s := by
  have hlength := h.length_unread
  rw [FifoBuffer.call]
  by_cases hblock : f.data_length ≤ offset
  · rw [FifoBuffer.readOffset, if_pos hblock, if_pos h.wellFormed.opened]
    exact ⟨(if_pos (hlength ▸ hblock)).symm, h⟩
  · rw [FifoBuffer.readOffset_eq h.wellFormed (Nat.lt_of_not_le hblock),
      h.content]
    exact ⟨(if_neg (hlength ▸ hblock)).symm, h⟩

theorem Holds.writeOffset (h : Holds w f s) {offset : ℕ}
    (hsum : f.SumFits w offset) :
    Matches w (.writeOffset p offset) (f.call w (.writeOffset p offset)) s := by
  have hroom := h.room_eq
  rw [FifoBuffer.call, FifoBuffer.writeOffsetLocked_eq h.wellFormed h.fits hsum]
  by_cases hblock : f.data_length + offset ≥ f.buffer_length
  · have hle : s.room ≤ offset := by omega
    rw [FifoBuffer.writeOffset, if_neg h.wellFormed.opened, if_pos hblock]
    refine ⟨(if_pos hle).symm, ?_⟩
    rw [Stream.next, Nat.sub_eq_zero_of_le hle, List.take_zero]
    refine h.of_stored fun i b _ hb => ?_
    rwa [if_neg (by simp)] at hb
  · obtain ⟨f', heq, hstored⟩ := FifoBuffer.writeOffset_eq h.wellFormed
      (pointer p) p.length (Nat.lt_of_not_le hblock)
    have hcopy : min p.length (f.buffer_length - f.data_length - offset) =
        min p.length (s.room - offset) := by rw [hroom]
    rw [hcopy] at heq hstored
    rw [heq]
    refine ⟨(if_neg (by omega)).symm, ?_⟩
    exact h.store_take hstored (by omega)

theorem Holds.write (h : Holds w f s) (p : List UInt8) :
    Matches w (.write p) (f.call w (.write p)) s := by
  have hroom := h.room_eq
  have hle := h.wellFormed.length
  rw [FifoBuffer.call]
  by_cases hfull : f.data_length = f.buffer_length
  · have hzero : s.room = 0 := by omega
    rw [FifoBuffer.write_of_full h.wellFormed hfull]
    refine ⟨(if_pos hzero).symm, ?_⟩
    simpa [Stream.next, Stream.accept, hzero] using h
  · have hspace : f.data_length + 0 < f.buffer_length := by omega
    obtain ⟨f', heq, hstored⟩ := FifoBuffer.writeOffset_eq h.wellFormed
      (pointer p) p.length hspace
    rw [Nat.sub_zero, ← hroom] at heq hstored
    have hwrite : f.write (pointer p) p.length = (.SR_SUCCESS,
        min p.length s.room, f'.consumeWriteBuffer (min p.length s.room)) := by
      rw [FifoBuffer.write, heq]
      rfl
    rw [hwrite]
    refine ⟨(if_neg (by omega)).symm, ?_⟩
    have hlength : (p.take s.room).length = min p.length s.room := by
      rw [List.length_take, Nat.min_comm]
    have hstore := h.store_take hstored (by omega)
    rw [Nat.add_zero] at hstore
    have haccept := hstore.accept fun i (hi : i < (p.take s.room).length) =>
      Stream.isSome_stored_store hi
    rw [Stream.ahead_store, hlength] at haccept
    refine haccept.of_stored fun i b hi hb => ?_
    simp only [Stream.accept, Stream.store, List.length_append] at hi ⊢
    rwa [if_neg (by omega)]

theorem Holds.getReadData (h : Holds w f s) :
    Matches w .getReadData (f.call w .getReadData) s := by
  obtain ⟨-, hle⟩ := FifoBuffer.getReadData_le h.wellFormed
  have hposition := h.wellFormed.position
  have hlength := h.length_unread
  refine ⟨⟨_, rfl, ?_, fun hempty => ?_⟩, h⟩
  · rw [FifoBuffer.slice_getReadData h.wellFormed, h.content]
    exact List.take_prefix _ _
  · have hzero : f.getReadData = 0 := by
      rw [← length_slice f.buffer f.read_position f.getReadData, hempty]
      rfl
    rw [← List.length_eq_zero_iff, hlength]
    rw [FifoBuffer.getReadData] at hzero
    split at hzero <;> omega

theorem Holds.resetIfEmpty (h : Holds w f s) :
    Holds w f.resetIfEmpty s.forget where
  wellFormed := h.wellFormed.resetIfEmpty
  fits := by
    rw [FifoBuffer.buffer_length_resetIfEmpty]
    exact h.fits
  capacity := by
    rw [FifoBuffer.buffer_length_resetIfEmpty]
    exact h.capacity
  delivered := h.delivered
  content := FifoBuffer.content_resetIfEmpty.trans h.content
  stored := nofun

theorem Holds.getWriteBuffer (h : Holds w f s)
    (hp : p.length ≤ f.getWriteBuffer.2.2) :
    Matches w (.getWriteBuffer p) (f.call w (.getWriteBuffer p)) s := by
  have hoffer := FifoBuffer.offer_getWriteBuffer h.wellFormed
  have hroom := h.room_eq
  have hle := h.wellFormed.length
  have hfree := hoffer.free
  have hnonempty := hoffer.nonempty
  rw [FifoBuffer.buffer_length_resetIfEmpty,
    FifoBuffer.data_length_resetIfEmpty] at hfree hnonempty
  refine ⟨⟨_, rfl, by omega, fun hzero => ?_⟩, ?_⟩
  · have hfull := hnonempty hzero
    omega
  · refine h.resetIfEmpty.store
      (FifoBuffer.stored_fillWriteBuffer h.wellFormed hp)
      (fun i hi => pointer_getElem hi) ?_
    rw [FifoBuffer.buffer_length_resetIfEmpty,
      FifoBuffer.data_length_resetIfEmpty]
    omega

theorem Holds.setCapacity (h : Holds w f s) {memory : ℕ → UInt8} {size : ℕ}
    (hpos : 0 < size) (hfits : 2 * size ≤ 2 ^ w) :
    Matches w (.setCapacity memory size) (f.call w (.setCapacity memory size))
      s := by
  have hlength := h.length_unread
  rw [FifoBuffer.call]
  by_cases hle : f.data_length ≤ size
  · have hanswer : decide (s.unread.length ≤ size) = true := by
      simpa [hlength] using hle
    by_cases hsame : size = f.buffer_length
    · rw [FifoBuffer.setCapacity, if_neg (by omega),
        if_neg (not_not_intro hsame)]
      refine ⟨by simp [Stream.Answers, hanswer], ?_⟩
      rw [Stream.next, if_neg fun hne => hne.2 (h.capacity ▸ hsame)]
      exact h
    · obtain ⟨f', heq, hwellFormed, hsize, hcontent⟩ :=
        FifoBuffer.setCapacity_eq h.wellFormed memory hle hsame hpos
      rw [heq]
      refine ⟨by simp [Stream.Answers, hanswer], ?_⟩
      rw [Stream.next, if_pos ⟨hlength ▸ hle, h.capacity ▸ hsame⟩]
      exact ⟨hwellFormed, hsize ▸ hfits, hsize.symm, h.delivered,
        hcontent.trans h.content, nofun⟩
  · rw [FifoBuffer.setCapacity, if_pos (Nat.lt_of_not_le hle)]
    refine ⟨by simpa [Stream.Answers, hlength] using hle, ?_⟩
    rw [Stream.next, if_neg fun hgrows => hle (hlength ▸ hgrows.1)]
    exact h

theorem Holds.call (h : Holds w f s) {c : BufferCall}
    (henabled : InOffer w f s c) (hcareful : SumsFit w f c) :
    Matches w c (f.call w c) s := by
  cases c with
  | read bytes => exact h.read bytes
  | readOffset bytes offset => exact h.readOffset bytes offset
  | write p => exact h.write p
  | writeOffset p offset => exact h.writeOffset hcareful
  | getReadData => exact h.getReadData
  | consumeReadData size => exact ⟨rfl, h.deliver henabled⟩
  | getWriteBuffer p => exact h.getWriteBuffer henabled
  | consumeWriteBuffer size => exact ⟨rfl, h.accept henabled⟩
  | setCapacity memory size => exact h.setCapacity henabled.1 henabled.2

theorem Holds.inside (h : Holds w f s) {c : BufferCall}
    (henabled : InOffer w f s c) (hcareful : SumsFit w f c) :
    ∀ a ∈ f.accesses w c, a.Inside := by
  have hzero := FifoBuffer.sumFits_zero h.wellFormed h.fits
  cases c with
  | read bytes => exact FifoBuffer.inside_readAccesses h.wellFormed
  | readOffset bytes offset => exact FifoBuffer.inside_readAccesses h.wellFormed
  | write p => exact FifoBuffer.inside_writeAccesses h.wellFormed h.fits hzero
  | writeOffset p offset =>
    exact FifoBuffer.inside_writeAccesses h.wellFormed h.fits hcareful
  | getReadData =>
    simpa [FifoBuffer.accesses, FifoBuffer.BlockAccess.Inside] using
      (FifoBuffer.getReadData_le h.wellFormed).1
  | consumeReadData size => exact nofun
  | getWriteBuffer p =>
    have hinside := (FifoBuffer.offer_getWriteBuffer h.wellFormed).inside
    simpa [FifoBuffer.accesses, FifoBuffer.BlockAccess.Inside] using hinside
  | consumeWriteBuffer size => exact nofun
  | setCapacity memory size =>
    have hlength := h.wellFormed.length
    have hposition := h.wellFormed.position
    rw [FifoBuffer.accesses]
    split
    · exact nofun
    · split
      · rw [List.forall_mem_append]
        refine ⟨FifoBuffer.inside_ringAccesses hposition.le hlength, ?_⟩
        simp only [List.forall_mem_cons, List.not_mem_nil, false_implies,
          implies_true, and_true, FifoBuffer.BlockAccess.Inside]
        omega
      · exact nofun

end

/-! ## Runs -/

/-- The buffer, the stream that it stands for, and the bytes that the reader
has got. -/
structure Session where
  buffer : FifoBuffer
  stream : Stream
  received : List UInt8

/-- The bytes that the reader takes with a call. -/
def taken (f : FifoBuffer) : BufferCall → BufferReply → List UInt8
  | .read _, .read _ bytes => bytes
  | .consumeReadData size, _ => f.content.take size
  | _, _ => []

namespace Session

variable (w : ℕ) (r : Session)

def new (memory : ℕ → UInt8) (size : ℕ) : Session :=
  ⟨.new memory size, .new size, []⟩

def step (c : BufferCall) : Option Session :=
  let (reply, buffer) := r.buffer.call w c
  some ⟨buffer, r.stream.next c, r.received ++ taken r.buffer c reply⟩

def Enabled (c : BufferCall) : Prop := InOffer w r.buffer r.stream c

/-- Enabled, and the sum with the offset of a `WriteOffset` does not wrap. -/
def Careful (c : BufferCall) : Prop :=
  r.Enabled w c ∧ SumsFit w r.buffer c

instance (c : BufferCall) : Decidable (r.Careful w c) :=
  inferInstanceAs (Decidable
    (InOffer w r.buffer r.stream c ∧ SumsFit w r.buffer c))

/-- What a bounded queue of bytes does: the bytes that were read and those that
can be read are the bytes that were accepted, and the calls are answered as by
the stream without leaving the memory. -/
structure BoundedQueue (ok : Session → BufferCall → Prop) : Prop where
  bytes : r.received ++ r.buffer.content = r.stream.accepted
  bounded : r.buffer.content.length ≤ r.buffer.buffer_length
  answers : ∀ c, ok r c → r.stream.Answers c (r.buffer.call w c).1
  inside : ∀ c, ok r c → ∀ a ∈ r.buffer.accesses w c, a.Inside

variable {w r}

/-- What a run keeps. -/
structure Inv (w : ℕ) (r : Session) : Prop where
  holds : Holds w r.buffer r.stream
  received : r.received = r.stream.accepted.take r.stream.delivered

theorem inv_new (memory : ℕ → UInt8) {size : ℕ} (hpos : 0 < size)
    (hfits : 2 * size ≤ 2 ^ w) : Inv w (new memory size) :=
  ⟨holds_new memory hpos hfits, rfl⟩

theorem Inv.taken_eq (h : Inv w r) {c : BufferCall} (hcareful : r.Careful w c) :
    r.stream.accepted.take r.stream.delivered ++
        taken r.buffer c (r.buffer.call w c).1 =
      (r.stream.next c).accepted.take (r.stream.next c).delivered := by
  have hdelivered := h.holds.delivered
  have hanswers := (h.holds.call hcareful.1 hcareful.2).answers
  have htake : ∀ n, r.stream.accepted.take r.stream.delivered ++
      r.stream.unread.take n =
        r.stream.accepted.take (r.stream.delivered + n) :=
    fun n => List.take_add.symm
  cases c with
  | read bytes =>
    have hreply : taken r.buffer (.read bytes)
        (r.buffer.call w (.read bytes)).1 = r.stream.unread.take bytes := by
      rw [hanswers]
      split
      · next hempty => rw [hempty, List.take_nil]; rfl
      · rfl
    rw [hreply]
    simp only [Stream.next, Stream.deliver]
    rw [← htake, take_min_length]
  | consumeReadData size =>
    simp only [taken, Stream.next, Stream.deliver]
    rw [h.holds.content, htake]
  | write p =>
    simp only [taken, Stream.next, Stream.accept, List.append_nil]
    rw [List.take_append_of_le_length hdelivered]
  | consumeWriteBuffer size =>
    simp only [taken, Stream.next, Stream.accept, List.append_nil]
    rw [List.take_append_of_le_length hdelivered]
  | setCapacity memory size =>
    simp only [taken, Stream.next, List.append_nil]
    split <;> rfl
  | readOffset bytes offset => exact List.append_nil _
  | writeOffset p offset => exact List.append_nil _
  | getReadData => exact List.append_nil _
  | getWriteBuffer p => exact List.append_nil _

theorem Inv.step (h : Inv w r) {c : BufferCall} {r' : Session}
    (hcareful : r.Careful w c) (hstep : r.step w c = some r') : Inv w r' := by
  cases hstep
  refine ⟨(h.holds.call hcareful.1 hcareful.2).holds, ?_⟩
  dsimp only
  rw [h.received]
  exact h.taken_eq hcareful

theorem Inv.boundedQueue (h : Inv w r) : r.BoundedQueue w (Careful w) where
  bytes := by
    rw [h.received, h.holds.content]
    exact List.take_append_drop _ _
  bounded := by
    rw [FifoBuffer.length_content]
    exact h.holds.wellFormed.length
  answers _ hok := (h.holds.call hok.1 hok.2).answers
  inside _ hok := h.holds.inside hok.1 hok.2

/-- A buffer is a bounded queue in every run without sums that wrap. -/
theorem boundedQueue_of_reachable {memory : ℕ → UInt8} {size : ℕ}
    (hpos : 0 < size) (hfits : 2 * size ≤ 2 ^ w)
    (hreach : ReachableVia (· = new memory size) (step w) (Careful w) r) :
    r.BoundedQueue w (Careful w) := by
  have hinv : Inv w r := by
    refine hreach.invariant ?_ ?_
    · rintro r rfl
      exact inv_new memory hpos hfits
    · exact fun r c r' h hok hstep => h.step hok hstep
  exact hinv.boundedQueue

/-- Bytes that are stored ahead, the gap before them, and a read. -/
def gapCalls : List BufferCall :=
  [.write [1, 2], .writeOffset [5] 2, .read 1, .write [3, 4],
    .consumeWriteBuffer 1, .read 4]

theorem boundedQueue_gapCalls :
    ∃ r, execute (step 32) (new (fun _ => 0) 5) gapCalls = some r ∧
      r.received = [1, 2, 3, 4, 5] ∧ r.BoundedQueue 32 (Careful 32) := by
  have hinit : ReachableVia (· = new (fun _ => 0) 5) (step 32) (Careful 32)
      (new (fun _ => 0) 5) := .init rfl
  have hrun : ∃ r, execute (step 32) (new (fun _ => 0) 5) gapCalls = some r ∧
      r.received = [1, 2, 3, 4, 5] := ⟨_, rfl, by decide⟩
  obtain ⟨r, hexecute, hreceived⟩ := hrun
  have hreach := hinit.execute_of_allowed hexecute (by decide)
  exact ⟨r, hexecute, hreceived,
    boundedQueue_of_reachable (by decide) (by decide) hreach⟩

/-- Storing a byte at the largest offset overwrites the unread byte. -/
theorem not_boundedQueue_wrap :
    ¬∀ (w size : ℕ) (memory : ℕ → UInt8) (r : Session),
      0 < size → 2 * size ≤ 2 ^ w →
        ReachableVia (· = new memory size) (step w) (Enabled w) r →
          r.BoundedQueue w (Enabled w) := by
  intro h
  have hinit : ReachableVia (· = new (fun _ => 0) 4) (step 32) (Enabled 32)
      (new (fun _ => 0) 4) := .init rfl
  have hrun : ∃ r, (new (fun _ => 0) 4).step 32 (.write [1]) = some r ∧
      r.stream.room = 3 ∧
      (r.buffer.call 32 (.writeOffset [9] (2 ^ 32 - 1))).1 =
        .wrote .SR_SUCCESS 1 := ⟨_, rfl, by decide, by decide⟩
  obtain ⟨r, hstep, hroom, hreply⟩ := hrun
  have hwrite : (new (fun _ => 0) 4).Enabled 32 (.write [1]) := trivial
  have hqueue := h 32 4 (fun _ => 0) r (by decide) (by decide)
    (hinit.step hwrite hstep)
  have hlast : (2 : ℕ) ^ 32 - 1 < 2 ^ 32 := by decide
  have hanswer := hqueue.answers (.writeOffset [9] (2 ^ 32 - 1)) hlast
  rw [hreply, Stream.Answers, hroom] at hanswer
  exact absurd hanswer (by decide)

end Session

end WebrtcWinXp.PseudoTcp
