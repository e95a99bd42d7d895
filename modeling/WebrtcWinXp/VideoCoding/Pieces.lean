import WebrtcWinXp.VideoCoding.FrameBuffer

/-!
# Pieces of a frame

What a packet adds to a frame, and the copies that put it between the pieces of
other packets.
-/

namespace WebrtcWinXp.VideoCoding

open Support Fec

/-! ## Pieces -/

/-- A header, and the units with their lengths in front. -/
def Aggregates (payload : List UInt8) (units : List (List UInt8)) : Prop :=
  (∀ unit ∈ units, unit.length < 2 ^ 16) ∧
    (payload = [] ∧ units = [] ∨
      ∃ header, payload =
        header :: units.flatMap fun unit => toBE 2 unit.length ++ unit)

namespace VCMPacket

variable (packet : VCMPacket)

def bytes : List UInt8 := packet.payload.read ⟨0, packet.sizeBytes⟩

/-- The start code of the packet, if it asks for one. -/
def startCode : List UInt8 :=
  if packet.insertStartCode then FrameMemory.startCode else []

def piece : List UInt8 :=
  if packet.stapA then
    packet.units.flatMap fun unit =>
      packet.startCode ++ packet.payload.read unit
  else packet.startCode ++ packet.bytes

@[simp] theorem length_startCode :
    packet.startCode.length = packet.startCodeLength := by
  rw [startCode, startCodeLength]
  split <;> rfl

end VCMPacket

section Units

variable {payload : Buffer}

theorem bufferToUWord16_eq {i n : ℕ} (hn : n < 2 ^ 16)
    (h : payload.read ⟨i, 2⟩ = toBE 2 n) : bufferToUWord16 payload i = n := by
  have hbytes : payload.read ⟨i, 2⟩ =
      [payload.byte i, payload.byte (i + 1)] := rfl
  have hvalue := congrArg ofBE (hbytes.symm.trans h)
  rw [ofBE_toBE, Nat.mod_eq_of_lt (by omega)] at hvalue
  rw [bufferToUWord16, ← hvalue]
  simp [ofBE]

theorem naluUnits_eq {units : List (List UInt8)} {fuel naluPtr : ℕ}
    (hunits : ∀ unit ∈ units, unit.length < 2 ^ 16)
    (hfuel : payload.size ≤ naluPtr + fuel) (hle : naluPtr ≤ payload.size)
    (h : payload.read ⟨naluPtr, payload.size - naluPtr⟩ =
      units.flatMap fun unit => toBE 2 unit.length ++ unit) :
    (naluUnits payload fuel naluPtr).map payload.read = units ∧
      ∀ unit ∈ naluUnits payload fuel naluPtr,
        2 ≤ unit.offset ∧ unit.offset + unit.length ≤ payload.size := by
  induction units generalizing fuel naluPtr with
  | nil =>
    have hlength := congrArg List.length h
    rw [Buffer.length_read, List.flatMap_nil, List.length_nil] at hlength
    dsimp only at hlength
    have hnil : naluUnits payload fuel naluPtr = [] := by
      cases fuel with
      | zero => rfl
      | succ fuel => rw [naluUnits, if_neg (by omega)]
    rw [hnil]
    exact ⟨rfl, fun unit hunit => absurd hunit List.not_mem_nil⟩
  | cons unit units ih =>
    have hlength := congrArg List.length h
    rw [Buffer.length_read, List.flatMap_cons, List.length_append,
      List.length_append, toBE_length] at hlength
    set rest := units.flatMap fun unit => toBE 2 unit.length ++ unit
    have hsplit : payload.size - naluPtr =
        2 + (unit.length + rest.length) := by
      dsimp only at hlength
      omega
    rw [hsplit, Buffer.read_add, Buffer.read_add, List.flatMap_cons,
      List.append_assoc] at h
    obtain ⟨hfield, h⟩ := List.append_inj h (by
      rw [Buffer.length_read, toBE_length])
    obtain ⟨hunit, hrest⟩ := List.append_inj h (Buffer.length_read _ _)
    have hvalue := bufferToUWord16_eq
      (hunits unit List.mem_cons_self) hfield
    cases fuel with
    | zero => omega
    | succ fuel =>
      have heq : payload.size -
          (naluPtr + (kLengthFieldLength + unit.length)) =
            rest.length := by
        rw [kLengthFieldLength]
        omega
      have hread : payload.read
          ⟨naluPtr + (kLengthFieldLength + unit.length),
            payload.size -
              (naluPtr + (kLengthFieldLength + unit.length))⟩ = rest := by
        rw [heq, ← Nat.add_assoc]
        exact hrest
      have hnext := ih (fun u hu => hunits u (List.mem_cons_of_mem _ hu))
        (show payload.size ≤
          naluPtr + (kLengthFieldLength + unit.length) + fuel by
            rw [kLengthFieldLength]
            omega)
        (by
          rw [kLengthFieldLength]
          omega) hread
      rw [naluUnits, if_pos (by omega)]
      dsimp only
      rw [hvalue, List.map_cons]
      refine ⟨List.cons_eq_cons.mpr ⟨hunit, hnext.1⟩, ?_⟩
      intro a ha
      obtain rfl | ha := List.mem_cons.mp ha
      · constructor
        · exact Nat.le_add_left 2 naluPtr
        · rw [kLengthFieldLength]
          dsimp only
          omega
      · exact hnext.2 a ha

variable {packet : VCMPacket} {units : List (List UInt8)}

theorem VCMPacket.units_eq (h : Aggregates packet.bytes units) :
    packet.units.map packet.payload.read = units ∧
      ∀ unit ∈ packet.units,
        2 ≤ unit.offset ∧ unit.offset + unit.length ≤ packet.sizeBytes := by
  obtain ⟨hunits, ⟨hnil, rfl⟩ | ⟨header, hcons⟩⟩ := h
  · have hsize := congrArg List.length hnil
    rw [VCMPacket.bytes, Buffer.length_read, List.length_nil] at hsize
    dsimp only at hsize
    have hnone : packet.units = [] := by
      rw [VCMPacket.units, hsize]
      rfl
    rw [hnone]
    exact ⟨rfl, fun unit hunit => absurd hunit List.not_mem_nil⟩
  · have hsize := congrArg List.length hcons
    rw [VCMPacket.bytes, Buffer.length_read, List.length_cons] at hsize
    dsimp only at hsize
    have hadd := packet.payload.read_add 0 1 (packet.sizeBytes - 1)
    rw [Nat.add_sub_cancel' (by omega)] at hadd
    rw [VCMPacket.bytes, hadd] at hcons
    change _ = [header] ++ _ at hcons
    obtain ⟨-, hrest⟩ := List.append_inj hcons rfl
    exact naluUnits_eq hunits (Nat.le_add_left _ _)
      (by rw [kH264NALHeaderLengthInBytes]; exact (by omega : 1 ≤ packet.sizeBytes))
      hrest

theorem VCMPacket.piece_stapA (hstapA : packet.stapA = true)
    (h : Aggregates packet.bytes units) :
    packet.piece = units.flatMap fun unit => packet.startCode ++ unit := by
  rw [VCMPacket.piece, if_pos hstapA, ← (VCMPacket.units_eq h).1,
    List.flatMap_map]

end Units

/-! ## Copies into the frame buffer -/

namespace FrameMemory

def Inside (m : FrameMemory) : Prop :=
  (∀ w ∈ m.writes, w.Inside) ∧ ∀ r ∈ m.reads, r.Inside

/-- Bytes were copied to a place of the buffer, by accesses inside. -/
structure Copies (m m' : FrameMemory) (offset : ℕ) (data : List UInt8) :
    Prop where
  block : m'.block = m.block
  size : m'.size = m.size
  inside : m.Inside → m'.Inside
  bytes : m'.bytes = memcpy m.bytes offset (cells data 0) data.length

def Room (m : FrameMemory) (ptr : Option Pointer) (offset n : ℕ) : Prop :=
  n = 0 ∨ ptr = some ⟨m.block, offset⟩ ∧ offset + n ≤ m.size

variable {m m' m'' : FrameMemory} {ptr : Option Pointer} {offset a b : ℕ}
  {data data' : List UInt8}

theorem Copies.refl (m : FrameMemory) (offset : ℕ) : Copies m m offset [] := by
  refine ⟨rfl, rfl, id, ?_⟩
  funext i
  rw [memcpy, List.length_nil, if_neg (by omega)]

theorem Copies.trans (h : Copies m m' offset data)
    (h' : Copies m' m'' (offset + data.length) data') :
    Copies m m'' offset (data ++ data') :=
  ⟨h'.block.trans h.block, h'.size.trans h.size, h'.inside ∘ h.inside, by
    rw [h'.bytes, h.bytes, memcpy_append]⟩

theorem Copies.bytes_eq (h : Copies m m' offset []) : m'.bytes = m.bytes := by
  rw [h.bytes, ← (Copies.refl m offset).bytes]

theorem Room.left (h : m.Room ptr offset (a + b)) : m.Room ptr offset a := by
  obtain h | ⟨rfl, h⟩ := h
  · exact .inl (by omega)
  · exact .inr ⟨rfl, by omega⟩

theorem Room.right (h : m.Room ptr offset (a + b)) :
    m.Room (advance ptr a) (offset + a) b := by
  obtain h | ⟨rfl, h⟩ := h
  · exact .inl (by omega)
  · exact .inr ⟨rfl, by omega⟩

theorem Room.after (h : m.Room ptr offset a)
    (hcopies : Copies m m' b data) : m'.Room ptr offset a := by
  rwa [Room, hcopies.block, hcopies.size]

theorem copies_write (h : m.Room ptr offset data.length) :
    Copies m (m.write ptr data) offset data := by
  refine ⟨rfl, rfl, ?_, ?_⟩
  · rintro ⟨hwrites, hreads⟩
    refine ⟨?_, hreads⟩
    intro w hw
    obtain rfl | hw := List.mem_cons.mp hw
    · exact h.imp_right fun h => ⟨offset, h⟩
    · exact hwrites w hw
  · obtain h | ⟨rfl, -⟩ := h
    · have hsame : ∀ at', memcpy m.bytes at' (cells data 0) data.length =
          m.bytes := by
        intro at'
        funext i
        rw [memcpy, h, if_neg (by omega)]
      rw [hsame]
      simp only [write]
      split
      · split
        · exact hsame _
        · rfl
      · rfl
    · rw [write]
      dsimp only
      rw [if_pos rfl]
      rfl

theorem copies_readPacket {packet : VCMPacket} {r : Access}
    (h : r.offset + r.length ≤ packet.sizeBytes) (offset : ℕ) :
    Copies m (m.readPacket packet r) offset [] := by
  refine ⟨rfl, rfl, ?_, (Copies.refl m offset).bytes⟩
  rintro ⟨hwrites, hreads⟩
  refine ⟨hwrites, ?_⟩
  intro r' hr'
  obtain rfl | hr' := List.mem_cons.mp hr'
  · exact h
  · exact hreads r' hr'

variable {packet : VCMPacket}

/-- `Insert` copies the start code and the bytes. -/
theorem copies_insert {r : Access}
    (hread : r.offset + r.length ≤ packet.sizeBytes)
    (h : m.Room ptr offset (packet.startCodeLength + r.length)) :
    Copies m (m.insert packet r ptr) offset
      (packet.startCode ++ packet.payload.read r) := by
  have hcode : Copies m
      (if packet.insertStartCode then m.write ptr startCode else m) offset
      packet.startCode := by
    have hroom := h.left
    rw [← VCMPacket.length_startCode] at hroom
    rw [VCMPacket.startCode] at hroom ⊢
    split
    · rename_i hinsert
      rw [if_pos hinsert] at hroom
      exact copies_write hroom
    · exact Copies.refl m offset
  have hroom := (h.right.after hcode).after
    (copies_readPacket (m := _) hread offset)
  rw [← Buffer.length_read packet.payload r] at hroom
  refine hcode.trans ?_
  rw [VCMPacket.length_startCode]
  exact (copies_readPacket hread _).trans (copies_write hroom)

theorem lengthField_inside {unit : Access} (hle : 2 ≤ unit.offset)
    (hread : unit.offset + unit.length ≤ packet.sizeBytes) :
    (lengthField unit).offset + (lengthField unit).length ≤
      packet.sizeBytes := by
  rw [lengthField, kLengthFieldLength]
  dsimp only
  omega

theorem copies_insertUnits {units : List Access}
    (hunits : ∀ unit ∈ units,
      2 ≤ unit.offset ∧ unit.offset + unit.length ≤ packet.sizeBytes)
    (h : m.Room ptr offset
      (units.map fun unit => unit.length + packet.startCodeLength).sum) :
    Copies m (insertUnits packet m units ptr) offset
      (units.flatMap fun unit =>
        packet.startCode ++ packet.payload.read unit) := by
  induction units generalizing m ptr offset with
  | nil => exact Copies.refl m offset
  | cons unit units ih =>
    obtain ⟨hle, hread⟩ := hunits unit List.mem_cons_self
    have hfield : Copies m (m.readPacket packet (lengthField unit)) offset
        [] := copies_readPacket (lengthField_inside hle hread) offset
    rw [List.map_cons, List.sum_cons] at h
    have hroom := h.left.after hfield
    rw [Nat.add_comm] at hroom
    have hinsert := hfield.trans (copies_insert hread hroom)
    have hrest := ih (fun u hu => hunits u (List.mem_cons_of_mem _ hu))
      (h.right.after hinsert)
    rw [List.flatMap_cons, insertUnits]
    refine hinsert.trans ?_
    rw [List.nil_append, List.length_append, Buffer.length_read,
      VCMPacket.length_startCode, Nat.add_comm packet.startCodeLength]
    exact hrest

end FrameMemory

/-! ## Places -/

def total (packets : List SessionPacket) : ℕ :=
  (packets.map SessionPacket.sizeBytes).sum

/-- Each packet points behind the bytes of those before it.  One without bytes
may have no pointer. -/
def Placed (block : ℕ) : ℕ → List SessionPacket → Prop
  | _, [] => True
  | offset, p :: packets =>
    (p.dataPtr = some ⟨block, offset⟩ ∨
        p.dataPtr = none ∧ p.sizeBytes = 0) ∧
      Placed block (offset + p.sizeBytes) packets

def advanced (packets : List SessionPacket) (n : ℕ) : List SessionPacket :=
  packets.map fun p => { p with dataPtr := advance p.dataPtr n }

variable {block offset : ℕ} {front behind packets : List SessionPacket}

@[simp] theorem total_append :
    total (front ++ behind) = total front + total behind := by
  rw [total, List.map_append, List.sum_append]
  rfl

@[simp] theorem total_cons (p : SessionPacket) :
    total (p :: packets) = p.sizeBytes + total packets := rfl

@[simp] theorem total_advanced (n : ℕ) :
    total (advanced packets n) = total packets := by
  rw [total, advanced, List.map_map]
  rfl

theorem placed_append :
    Placed block offset (front ++ behind) ↔
      Placed block offset front ∧
        Placed block (offset + total front) behind := by
  induction front generalizing offset with
  | nil => simp [Placed, total]
  | cons p front ih =>
    rw [List.cons_append, Placed, Placed, ih, total_cons, and_assoc,
      Nat.add_assoc]

theorem Placed.map {block' n : ℕ} {g : Pointer → Pointer}
    (hg : ∀ o, g ⟨block, o⟩ = ⟨block', o + n⟩)
    (h : Placed block offset packets) :
    Placed block' (offset + n)
      (packets.map fun p => { p with dataPtr := p.dataPtr.map g }) := by
  induction packets generalizing offset with
  | nil => trivial
  | cons p packets ih =>
    have hrest := ih h.2
    rw [Nat.add_right_comm] at hrest
    refine ⟨?_, hrest⟩
    obtain hptr | ⟨hptr, hsize⟩ := h.1
    · exact .inl (by simp only [hptr, Option.map_some, hg])
    · exact .inr ⟨by simp only [hptr, Option.map_none], hsize⟩

/-- The bytes behind the place can be moved: there are none, or the first packet
there points to them. -/
def Movable (behind : List SessionPacket) : Prop :=
  total behind = 0 ∨ ∀ p ∈ behind.head?, p.dataPtr ≠ none

namespace FrameMemory

variable {m : FrameMemory}

theorem shiftSubsequentPackets_packets (n : ℕ) :
    (m.shiftSubsequentPackets behind n).2 = advanced behind n := by
  cases behind with
  | nil => rfl
  | cons first behind => rfl

/-- `ShiftSubsequentPackets` copies the bytes behind the place. -/
theorem copies_shiftSubsequentPackets {n : ℕ}
    (hplaced : Placed m.block offset behind) (hmovable : Movable behind)
    (hfits : offset + n + total behind ≤ m.size) :
    Copies m (m.shiftSubsequentPackets behind n).1 (offset + n)
      (slice m.bytes offset (total behind)) := by
  cases behind with
  | nil => exact Copies.refl m _
  | cons first rest =>
    rw [shiftSubsequentPackets]
    dsimp only
    change Copies m (m.write (advance first.dataPtr n)
      (m.load first.dataPtr (total (first :: rest)))) _ _
    set size := total (first :: rest)
    by_cases hzero : size = 0
    · have hload : m.load first.dataPtr size = [] := by
        rw [hzero]
        simp only [load]
        split
        · split
          · rfl
          · rfl
        · rfl
      rw [hload, hzero, slice_zero]
      exact copies_write (.inl rfl)
    · have hptr : first.dataPtr = some ⟨m.block, offset⟩ := by
        obtain hptr | ⟨hnone, -⟩ := hplaced.1
        · exact hptr
        · exact absurd hnone (hmovable.resolve_left hzero first rfl)
      have hload : m.load first.dataPtr size =
          slice m.bytes offset size := by
        rw [hptr, load, if_pos rfl]
      rw [hload]
      refine copies_write (.inr ⟨?_, ?_⟩)
      · rw [hptr]
        rfl
      · rw [length_slice]
        exact hfits

variable {packet : VCMPacket}

theorem copies_fields {units : List Access}
    (hunits : ∀ unit ∈ units,
      2 ≤ unit.offset ∧ unit.offset + unit.length ≤ packet.sizeBytes)
    (offset : ℕ) :
    Copies m (units.foldl
      (fun m unit => m.readPacket packet (lengthField unit)) m) offset [] := by
  induction units generalizing m with
  | nil => exact Copies.refl m offset
  | cons unit units ih =>
    obtain ⟨hle, hread⟩ := hunits unit List.mem_cons_self
    have hfield : Copies m (m.readPacket packet (lengthField unit)) offset
        [] := copies_readPacket (lengthField_inside hle hread) offset
    exact hfield.trans
      (ih fun u hu => hunits u (List.mem_cons_of_mem _ hu))

/-- What a packet needs in order to be put in its place. -/
structure Fits (m : FrameMemory) (front : List SessionPacket)
    (packet : VCMPacket) (behind : List SessionPacket) : Prop where
  stapA : packet.stapA = true → ∃ units, Aggregates packet.bytes units
  room : total (front ++ behind) + packet.piece.length ≤ m.size
  movable : Movable behind

theorem length_piece_stapA (hstapA : packet.stapA = true) :
    packet.piece.length =
      (packet.units.map fun unit =>
        unit.length + packet.startCodeLength).sum := by
  rw [VCMPacket.piece, if_pos hstapA, List.length_flatMap]
  congr 1
  apply List.map_congr_left
  intro unit hunit
  rw [List.length_append, VCMPacket.length_startCode, Buffer.length_read,
    Nat.add_comm]

theorem length_piece_plain (hstapA : ¬packet.stapA = true) :
    packet.piece.length = packet.sizeBytes + packet.startCodeLength := by
  rw [VCMPacket.piece, if_neg hstapA, List.length_append,
    VCMPacket.length_startCode, VCMPacket.bytes, Buffer.length_read,
    Nat.add_comm]

/-- The bytes behind the place were moved up, and the piece was copied to it. -/
def Puts (m m' : FrameMemory) (front : List SessionPacket)
    (packet : VCMPacket) (behind : List SessionPacket) : Prop :=
  ∃ shifted, Copies m shifted (total front + packet.piece.length)
      (slice m.bytes (total front) (total behind)) ∧
    Copies shifted m' (total front) packet.piece

def placed (m : FrameMemory) (front : List SessionPacket)
    (packet : VCMPacket) (behind : List SessionPacket) :
    List SessionPacket :=
  front ++ ⟨packet, advance m.base (total front), packet.piece.length⟩ ::
    advanced behind packet.piece.length

section InsertBuffer

variable (hplaced : Placed m.block (total front) behind)
  (hfits : Fits m front packet behind)
  (hroom : m.Room (advance m.base (total front)) (total front)
    packet.piece.length)

include hplaced hfits hroom

theorem insertBuffer_stapA (hstapA : packet.stapA = true) :
    ∃ m', Puts m m' front packet behind ∧
      m.insertBuffer front packet behind =
        (m', placed m front packet behind, packet.piece.length) := by
  have hfit := hfits.room
  rw [total_append] at hfit
  obtain ⟨units, hunits⟩ := hfits.stapA hstapA
  have hinside := (VCMPacket.units_eq hunits).2
  have hfields := copies_fields (m := m) hinside
    (total front + packet.piece.length)
  rw [← hfields.block] at hplaced
  have hshift := hfields.trans (copies_shiftSubsequentPackets
    (n := packet.piece.length) hplaced hfits.movable
    (by rw [hfields.size]; omega))
  have hinsert : Copies _ (insertUnits packet _ packet.units
      (advance m.base (total front))) (total front) _ :=
    copies_insertUnits hinside (by
      rw [← length_piece_stapA hstapA]
      exact hroom.after hshift)
  have hpiece : packet.piece = packet.units.flatMap fun unit =>
      packet.startCode ++ packet.payload.read unit := by
    rw [VCMPacket.piece, if_pos hstapA]
  rw [hfields.bytes_eq, List.nil_append] at hshift
  rw [← hpiece] at hinsert
  refine ⟨_, ⟨_, hshift, hinsert⟩, ?_⟩
  rw [insertBuffer, if_pos hstapA, ← length_piece_stapA hstapA, placed,
    ← shiftSubsequentPackets_packets (m := packet.units.foldl
      (fun m unit => m.readPacket packet (lengthField unit)) m)]
  rfl

theorem insertBuffer_plain (hstapA : ¬packet.stapA = true) :
    ∃ m', Puts m m' front packet behind ∧
      m.insertBuffer front packet behind =
        (m', placed m front packet behind, packet.piece.length) := by
  have hfit := hfits.room
  rw [total_append] at hfit
  have hshift := copies_shiftSubsequentPackets
    (n := packet.piece.length) hplaced hfits.movable (by omega)
  have hinsert := copies_insert
    (m := (m.shiftSubsequentPackets behind packet.piece.length).1)
    (r := ⟨0, packet.sizeBytes⟩) (Nat.zero_add _).le
    (by
      rw [Nat.add_comm, ← length_piece_plain hstapA]
      exact hroom.after hshift)
  have hpiece : packet.piece = packet.startCode ++
      packet.payload.read ⟨0, packet.sizeBytes⟩ := by
    rw [VCMPacket.piece, if_neg hstapA, VCMPacket.bytes]
  rw [← hpiece] at hinsert
  refine ⟨_, ⟨_, hshift, hinsert⟩, ?_⟩
  rw [insertBuffer, if_neg hstapA, ← length_piece_plain hstapA, placed,
    ← shiftSubsequentPackets_packets (m := m)]
  rfl

/-- `InsertBuffer` puts the piece between the bytes of the others. -/
theorem insertBuffer_eq :
    ∃ m', Puts m m' front packet behind ∧
      m.insertBuffer front packet behind =
        (m', placed m front packet behind, packet.piece.length) := by
  by_cases hstapA : packet.stapA = true
  · exact insertBuffer_stapA hplaced hfits hroom hstapA
  · exact insertBuffer_plain hplaced hfits hroom hstapA

end InsertBuffer

end FrameMemory

end WebrtcWinXp.VideoCoding
