import WebrtcWinXp.VideoCoding.SessionInfo

/-!
# `VCMFrameBuffer`

A frame that is assembled from packets.  The fields that are only passed on (the
time stamps, the payload type, the dimensions and the codec-specific
information) are left out.
-/

namespace WebrtcWinXp.VideoCoding

open Support

inductive VCMFrameBufferEnum where
  | kOutOfBoundsPacket
  | kSizeError
  | kIncomplete
  | kCompleteSession
  | kDecodableSession
  | kDuplicatePacket
deriving DecidableEq

inductive VCMFrameBufferStateEnum where
  | kStateEmpty
  | kStateIncomplete
  | kStateComplete
  | kStateDecodable
deriving DecidableEq

structure VCMFrameBuffer where
  state : VCMFrameBufferStateEnum := .kStateEmpty
  length : ℕ := 0
  memory : FrameMemory
  sessionInfo : VCMSessionInfo := {}

/-- `VCMEncodedFrame::VerifyAndAllocate`.  A new buffer holds what the memory
held before. -/
def FrameMemory.verifyAndAllocate (m : FrameMemory)
    (garbage : ℕ → ℕ → UInt8) (minimumSize : ℕ) : FrameMemory :=
  if minimumSize > m.size then
    { m with
      block := m.block + 1
      size := minimumSize
      bytes := fun i => if i < m.size then m.bytes i else garbage (m.block + 1) i
      writes :=
        if m.block = 0 then m.writes
        else ⟨some ⟨m.block + 1, 0⟩, m.size, m.block + 1, minimumSize⟩ ::
          m.writes }
  else m

/-- `UpdateDataPointers`, to the buffer with the given number. -/
def updateDataPointers (packets : List SessionPacket) (block : ℕ) :
    List SessionPacket :=
  packets.map fun p =>
    { p with dataPtr := p.dataPtr.map fun ptr => ⟨block, ptr.offset⟩ }

def VCMFrameBuffer.new (garbage : ℕ → ℕ → UInt8) : VCMFrameBuffer where
  memory := ⟨0, 0, garbage 0, [], []⟩

namespace VCMFrameBuffer

variable (f : VCMFrameBuffer)

def requiredSizeBytes (packet : VCMPacket) : ℕ :=
  (f.length + packet.sizeBytes + packet.startCodeLength) % 2 ^ 32

def newSize (packet : VCMPacket) : ℕ :=
  let required := f.requiredSizeBytes packet
  let increments := required / kBufferIncStepSizeBytes +
    if required % kBufferIncStepSizeBytes > 0 then 1 else 0
  (f.memory.size + increments * kBufferIncStepSizeBytes) % 2 ^ 32

/-- The frame with room for a packet, if it does not get too big. -/
def reserve (garbage : ℕ → ℕ → UInt8) (packet : VCMPacket) :
    Option VCMFrameBuffer :=
  if f.requiredSizeBytes packet ≥ f.memory.size then
    if f.newSize packet > kMaxJBFrameSizeBytes then none
    else
      let memory := f.memory.verifyAndAllocate garbage (f.newSize packet)
      some
        { f with
          memory := memory
          sessionInfo :=
            { f.sessionInfo with
              packets :=
                updateDataPointers f.sessionInfo.packets memory.block } }
  else some f

/-- A frame is no longer empty after its first media packet. -/
def start (packet : VCMPacket) : VCMFrameBuffer :=
  if f.state = .kStateEmpty ∧ packet.frameType ≠ .kFrameEmpty then
    { f with state := .kStateIncomplete }
  else f

/-- What `InsertPacket` makes of the value that the session returned. -/
def conclude (retVal : ℤ) : VCMFrameBuffer × VCMFrameBufferEnum :=
  if retVal = -1 then (f, .kSizeError)
  else if retVal = -2 then (f, .kDuplicatePacket)
  else if retVal = -3 then (f, .kOutOfBoundsPacket)
  else
    let f := { f with length := (f.length + retVal.toNat) % 2 ^ 32 }
    if f.sessionInfo.complete then
      ({ f with state := .kStateComplete }, .kCompleteSession)
    else if f.sessionInfo.decodable then
      ({ f with state := .kStateDecodable }, .kDecodableSession)
    else (f, .kIncomplete)

def insertPacket (garbage : ℕ → ℕ → UInt8)
    (selective : VCMSessionInfo → Bool)
    (decodeErrorMode : VCMDecodeErrorMode) (packet : VCMPacket) :
    VCMFrameBuffer × VCMFrameBufferEnum :=
  match (f.start packet).reserve garbage packet with
  | none => (f.start packet, .kSizeError)
  | some g =>
    let r := g.sessionInfo.insertPacket selective decodeErrorMode packet
      g.memory
    { g with
      sessionInfo := r.1
      memory := r.2.1 }.conclude r.2.2

variable {f}

theorem start_eq (packet : VCMPacket) :
    ∃ state, f.start packet = { f with state := state } := by
  rw [start]
  split
  · exact ⟨_, rfl⟩
  · exact ⟨f.state, rfl⟩

def accepts (packet : VCMPacket) (r : VCMFrameBufferEnum) : Bool :=
  packet.frameType != .kFrameEmpty &&
    match r with
    | .kSizeError | .kDuplicatePacket | .kOutOfBoundsPacket => false
    | _ => true

theorem conclude_refused {retVal : ℤ} (packet : VCMPacket)
    (h : retVal = -1 ∨ retVal = -2 ∨ retVal = -3) :
    (f.conclude retVal).1 = f ∧
      accepts packet (f.conclude retVal).2 = false := by
  obtain rfl | rfl | rfl := h
  · exact ⟨rfl, by simp [conclude, accepts]⟩
  · exact ⟨rfl, by simp [conclude, accepts]⟩
  · exact ⟨rfl, by simp [conclude, accepts]⟩

theorem conclude_inserted (packet : VCMPacket) (n : ℕ) :
    ∃ state r, f.conclude n =
        ({ f with
            state := state
            length := (f.length + n) % 2 ^ 32 }, r) ∧
      accepts packet r = (packet.frameType != .kFrameEmpty) := by
  rw [conclude, if_neg (by omega), if_neg (by omega), if_neg (by omega),
    Int.toNat_natCast]
  dsimp only
  split
  · exact ⟨_, _, rfl, by simp [accepts]⟩
  · split
    · exact ⟨_, _, rfl, by simp [accepts]⟩
    · exact ⟨f.state, _, rfl, by simp [accepts]⟩

end VCMFrameBuffer

end WebrtcWinXp.VideoCoding
