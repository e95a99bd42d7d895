import WebrtcWinXp.Support.Ring

/-!
# The byte queue

`rtc::FifoBuffer`, the ring in which both directions of a connection keep
their bytes.  A `size_t` is wider than the lengths that are given to it, so
the sums below do not wrap.  Its lock and the events it posts are left out.
-/

namespace WebrtcWinXp.PseudoTcp

open Support

inductive StreamState where
  | SS_CLOSED
  | SS_OPENING
  | SS_OPEN
  deriving DecidableEq

inductive StreamResult where
  | SR_ERROR
  | SR_SUCCESS
  | SR_BLOCK
  | SR_EOS
  deriving DecidableEq

structure FifoBuffer where
  state : StreamState
  buffer : ℕ → UInt8
  buffer_length : ℕ
  data_length : ℕ
  read_position : ℕ

namespace FifoBuffer

/-- An empty buffer in memory that holds `memory`. -/
def new (memory : ℕ → UInt8) (size : ℕ) : FifoBuffer :=
  ⟨.SS_OPEN, memory, size, 0, 0⟩

def getWriteRemaining (f : FifoBuffer) : ℕ := f.buffer_length - f.data_length

/-- `ReadOffsetLocked`, with the bytes that are copied. -/
def readOffset (f : FifoBuffer) (bytes offset : ℕ) :
    StreamResult × List UInt8 :=
  if offset ≥ f.data_length then
    (if f.state ≠ .SS_CLOSED then .SR_BLOCK else .SR_EOS, [])
  else
    let available := f.data_length - offset
    let read_position := (f.read_position + offset) % f.buffer_length
    let copy := min bytes available
    let tail_copy := min copy (f.buffer_length - read_position)
    (.SR_SUCCESS, slice f.buffer read_position tail_copy ++
      slice f.buffer 0 (copy - tail_copy))

/-- `WriteOffsetLocked`, with the number of bytes that are copied. -/
def writeOffset (f : FifoBuffer) (p : ℕ → UInt8) (bytes offset : ℕ) :
    StreamResult × ℕ × FifoBuffer :=
  if f.state = .SS_CLOSED then (.SR_EOS, 0, f)
  else if f.data_length + offset ≥ f.buffer_length then (.SR_BLOCK, 0, f)
  else
    let available := f.buffer_length - f.data_length - offset
    let write_position :=
      (f.read_position + f.data_length + offset) % f.buffer_length
    let copy := min bytes available
    let tail_copy := min copy (f.buffer_length - write_position)
    (.SR_SUCCESS, copy,
      { f with
        buffer := memcpy (memcpy f.buffer write_position p tail_copy) 0
          (fun i => p (tail_copy + i)) (copy - tail_copy) })

def read (f : FifoBuffer) (bytes : ℕ) :
    StreamResult × List UInt8 × FifoBuffer :=
  let (result, copied) := f.readOffset bytes 0
  if result = .SR_SUCCESS then
    (result, copied,
      { f with
        read_position := (f.read_position + copied.length) % f.buffer_length
        data_length := f.data_length - copied.length })
  else (result, copied, f)

def write (f : FifoBuffer) (p : ℕ → UInt8) (bytes : ℕ) :
    StreamResult × ℕ × FifoBuffer :=
  let (result, copy, f) := f.writeOffset p bytes 0
  if result = .SR_SUCCESS then
    (result, copy, { f with data_length := f.data_length + copy })
  else (result, copy, f)

def consumeReadData (f : FifoBuffer) (size : ℕ) : FifoBuffer :=
  { f with
    read_position := (f.read_position + size) % f.buffer_length
    data_length := f.data_length - size }

def consumeWriteBuffer (f : FifoBuffer) (size : ℕ) : FifoBuffer :=
  { f with data_length := f.data_length + size }

/-- `SetCapacity`; `memory` is what the new block of memory holds. -/
def setCapacity (f : FifoBuffer) (memory : ℕ → UInt8) (size : ℕ) :
    Bool × FifoBuffer :=
  if f.data_length > size then (false, f)
  else if size ≠ f.buffer_length then
    let copy := f.data_length
    let tail_copy := min copy (f.buffer_length - f.read_position)
    (true,
      { f with
        buffer := memcpy (memcpy memory 0 (fun i => f.buffer
          (f.read_position + i)) tail_copy) tail_copy f.buffer
            (copy - tail_copy)
        read_position := 0
        buffer_length := size })
  else (true, f)

/-! ## What the buffer holds -/

/-- The position of the reader is inside the buffer, which is open and holds
no more than fits. -/
structure WellFormed (f : FifoBuffer) : Prop where
  opened : f.state ≠ .SS_CLOSED
  position : f.read_position < f.buffer_length
  length : f.data_length ≤ f.buffer_length

/-- The byte at an offset from the reader, whether it is data already or was
only stored ahead. -/
def byteAt (f : FifoBuffer) (i : ℕ) : UInt8 :=
  f.buffer ((f.read_position + i) % f.buffer_length)

def content (f : FifoBuffer) : List UInt8 := slice f.byteAt 0 f.data_length

variable {f : FifoBuffer}

theorem wellFormed_new {memory : ℕ → UInt8} {size : ℕ} (h : 0 < size) :
    (new memory size).WellFormed :=
  ⟨nofun, h, Nat.zero_le size⟩

@[simp] theorem length_content (f : FifoBuffer) :
    f.content.length = f.data_length := by
  simp [content]

theorem readOffset_eq (h : f.WellFormed) {bytes offset : ℕ}
    (hoffset : offset < f.data_length) :
    f.readOffset bytes offset =
      (.SR_SUCCESS, (f.content.drop offset).take bytes) := by
  have hlength := h.length
  rw [readOffset, if_neg (by omega)]
  refine Prod.ext rfl ?_
  dsimp only
  rw [slice_append_slice f.buffer (Nat.mod_lt _ (by omega)) (by omega),
    content, drop_slice, take_slice]
  apply slice_congr
  intro i _
  rw [byteAt, Nat.mod_add_mod]
  congr 2
  omega

/-- What `WriteOffset` stores, and that it changes nothing else. -/
structure Stored (f f' : FifoBuffer) (p : ℕ → UInt8) (offset copy : ℕ) :
    Prop where
  wellFormed : f'.WellFormed
  buffer_length : f'.buffer_length = f.buffer_length
  data_length : f'.data_length = f.data_length
  read_position : f'.read_position = f.read_position
  byteAt : ∀ i < f.buffer_length,
    f'.byteAt i = if f.data_length + offset ≤ i ∧
        i < f.data_length + offset + copy
      then p (i - (f.data_length + offset)) else f.byteAt i

theorem writeOffset_eq (h : f.WellFormed) (p : ℕ → UInt8) (bytes : ℕ)
    {offset : ℕ} (hoffset : f.data_length + offset < f.buffer_length) :
    ∃ f', f.writeOffset p bytes offset =
        (.SR_SUCCESS,
          min bytes (f.buffer_length - f.data_length - offset), f') ∧
      Stored f f' p offset
        (min bytes (f.buffer_length - f.data_length - offset)) := by
  have hposition := h.position
  rw [writeOffset, if_neg h.opened, if_neg (by omega)]
  refine ⟨_, rfl, ⟨h.opened, h.position, h.length⟩, rfl, rfl, rfl, ?_⟩
  intro i hi
  -- `i` is the address of a distance `j` from the write position
  let j := if f.data_length + offset ≤ i then i - (f.data_length + offset)
    else i + f.buffer_length - (f.data_length + offset)
  have hj : j < f.buffer_length := by
    simp only [j]
    split <;> omega
  have hindex : (f.read_position + i) % f.buffer_length =
      ((f.read_position + f.data_length + offset) % f.buffer_length + j) %
        f.buffer_length := by
    rw [Nat.mod_add_mod]
    simp only [j]
    split
    · congr 1
      omega
    · have hadd : f.read_position + f.data_length + offset +
          (i + f.buffer_length - (f.data_length + offset)) =
          f.read_position + i + f.buffer_length := by omega
      rw [hadd, Nat.add_mod_right]
  simp only [byteAt]
  rw [hindex, memcpy_memcpy f.buffer p (Nat.mod_lt _ (by omega)) (by omega)
    hj, ← hindex]
  simp only [j]
  by_cases hdata : f.data_length + offset ≤ i
  · rw [if_pos hdata]
    by_cases hcopy : i < f.data_length + offset +
        min bytes (f.buffer_length - f.data_length - offset)
    · rw [if_pos (by omega), if_pos ⟨hdata, hcopy⟩]
    · rw [if_neg (by omega), if_neg (by omega)]
  · rw [if_neg hdata, if_neg (by omega), if_neg (by omega)]

/-- Removing bytes at the front moves everything behind them. -/
structure Dropped (f f' : FifoBuffer) (n : ℕ) : Prop where
  wellFormed : f'.WellFormed
  buffer_length : f'.buffer_length = f.buffer_length
  data_length : f'.data_length = f.data_length - n
  byteAt : ∀ i, f'.byteAt i = f.byteAt (n + i)

theorem Dropped.content {f' : FifoBuffer} {n : ℕ} (h : Dropped f f' n) :
    f'.content = f.content.drop n := by
  rw [FifoBuffer.content, FifoBuffer.content, drop_slice, h.data_length]
  apply slice_congr
  intro i _
  rw [h.byteAt]
  congr 1
  omega

theorem dropped_consumeReadData (h : f.WellFormed) {n : ℕ} :
    Dropped f (f.consumeReadData n) n where
  wellFormed :=
    ⟨h.opened, Nat.mod_lt _ (Nat.zero_lt_of_lt h.position),
      le_trans (Nat.sub_le _ _) h.length⟩
  buffer_length := rfl
  data_length := rfl
  byteAt i := by
    simp only [FifoBuffer.byteAt, consumeReadData, Nat.mod_add_mod,
      Nat.add_assoc]

theorem read_of_empty (h : f.WellFormed) (hempty : f.data_length = 0)
    (bytes : ℕ) : f.read bytes = (.SR_BLOCK, [], f) := by
  simp [read, readOffset, hempty, h.opened]

/-- `Read` takes bytes from the front. -/
theorem read_eq (h : f.WellFormed) (hdata : 0 < f.data_length) (bytes : ℕ) :
    f.read bytes = (.SR_SUCCESS, f.content.take bytes,
      f.consumeReadData (min bytes f.data_length)) := by
  simp [read, readOffset_eq h hdata, consumeReadData]

theorem write_of_full (h : f.WellFormed)
    (hfull : f.data_length = f.buffer_length) (p : ℕ → UInt8) (bytes : ℕ) :
    f.write p bytes = (.SR_BLOCK, 0, f) := by
  simp [write, writeOffset, hfull, h.opened]

/-- Bytes that are added at the back. -/
structure Appended (f f' : FifoBuffer) (p : ℕ → UInt8) (copy : ℕ) :
    Prop where
  wellFormed : f'.WellFormed
  buffer_length : f'.buffer_length = f.buffer_length
  data_length : f'.data_length = f.data_length + copy
  content : f'.content = f.content ++ slice p 0 copy

/-- `Write` adds as many bytes as fit. -/
theorem write_eq (h : f.WellFormed) (hspace : f.data_length < f.buffer_length)
    (p : ℕ → UInt8) (bytes : ℕ) :
    ∃ f', f.write p bytes =
        (.SR_SUCCESS, min bytes f.getWriteRemaining, f') ∧
      Appended f f' p (min bytes f.getWriteRemaining) := by
  have hlength := h.length
  obtain ⟨f₁, heq, hstored⟩ := writeOffset_eq h p bytes
    (show f.data_length + 0 < f.buffer_length from hspace)
  have hremaining : f.buffer_length - f.data_length - 0 =
      f.getWriteRemaining := by
    simp [getWriteRemaining]
  rw [hremaining] at heq hstored
  have hcopy : min bytes f.getWriteRemaining ≤
      f.buffer_length - f.data_length :=
    Nat.min_le_right _ _
  refine ⟨f₁.consumeWriteBuffer (min bytes f.getWriteRemaining), ?_, ?_,
    hstored.buffer_length, ?_, ?_⟩
  · simp [write, heq, consumeWriteBuffer]
  · refine ⟨hstored.wellFormed.opened, hstored.wellFormed.position, ?_⟩
    simp only [consumeWriteBuffer, hstored.data_length,
      hstored.buffer_length]
    omega
  · simp only [consumeWriteBuffer, hstored.data_length]
  · change slice f₁.byteAt 0
      (f₁.data_length + min bytes f.getWriteRemaining) = _
    rw [slice_add, hstored.data_length, content]
    congr 1
    · apply slice_congr
      intro i hi
      rw [hstored.byteAt _ (by omega), if_neg (by omega)]
    · apply slice_congr
      intro i hi
      rw [hstored.byteAt _ (by omega), if_pos (by omega)]
      congr 1
      omega

theorem write_appended (h : f.WellFormed) (p : ℕ → UInt8) (bytes : ℕ) :
    (f.write p bytes).2.1 = min bytes f.getWriteRemaining ∧
      Appended f (f.write p bytes).2.2 p (min bytes f.getWriteRemaining) := by
  by_cases hspace : f.data_length < f.buffer_length
  · obtain ⟨f', heq, happended⟩ := write_eq h hspace p bytes
    rw [heq]
    exact ⟨rfl, happended⟩
  · have hfull : f.data_length = f.buffer_length :=
      Nat.le_antisymm h.length (Nat.le_of_not_lt hspace)
    have hnone : min bytes f.getWriteRemaining = 0 := by
      simp [getWriteRemaining, hfull]
    rw [write_of_full h hfull, hnone]
    exact ⟨rfl, h, rfl, rfl, by simp⟩

theorem appended_consumeWriteBuffer (h : f.WellFormed) {n : ℕ}
    (hn : f.data_length + n ≤ f.buffer_length) :
    Appended f (f.consumeWriteBuffer n)
      (fun i => f.byteAt (f.data_length + i)) n where
  wellFormed := ⟨h.opened, h.position, hn⟩
  buffer_length := rfl
  data_length := rfl
  content := by
    change slice f.byteAt 0 (f.data_length + n) = _
    rw [slice_add, content]
    congr 1
    apply slice_congr
    intro i _
    rw [Nat.zero_add, Nat.zero_add]

end FifoBuffer

end WebrtcWinXp.PseudoTcp
