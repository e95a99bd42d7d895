import WebrtcWinXp.Support.Bytes

/-!
# Data repositories

`P2PFileDataRepositorySender` and `P2PFileDataRepositoryReciever` of
`P2PData/TransferData.cc`, with the file streams they own.

What the file system answers is an argument: opening a file gives its content
or fails.  Task sizes are integers here; the source keeps them in doubles,
which are exact below `2 ^ 53`.
-/

namespace WebrtcWinXp.FileTransfer

open Support

/-- A `std::string`, as its characters. -/
abbrev Str := List UInt8

def PER_BLOCK_SIZE : ℕ := 1024

/-- `DataChannelTransferBase<PER_BLOCK_SIZE>`.  The size is an `int`. -/
structure DataChannelTransfer where
  messageType : UInt32
  packetIndex : UInt32
  messageSize : Int32
  message : Octets PER_BLOCK_SIZE
  deriving DecidableEq

/-- A `std::ifstream` with the bytes it has not read. -/
structure InStream where
  isOpen : Bool
  good : Bool
  unread : List UInt8
  deriving DecidableEq

namespace InStream

def new : InStream := ⟨false, true, []⟩

/-- `open`: a stream that is open already stays so and fails. -/
def openFile (file : Option (List UInt8)) (s : InStream) : InStream :=
  if s.isOpen then { s with good := false }
  else
    match file with
    | some content => ⟨true, true, content⟩
    | none => { s with good := false }

/-- `close`: closing a stream that is not open fails. -/
def close (s : InStream) : InStream :=
  if s.isOpen then { s with isOpen := false }
  else { s with good := false }

/-- `read` of a stream that is good: the bytes it gets, of which `gcount` is
the number.  Reading less than was asked for sets `eofbit` and `failbit`. -/
def read (n : ℕ) (s : InStream) : List UInt8 × InStream :=
  (s.unread.take n,
    { s with
      good := n ≤ s.unread.length
      unread := s.unread.drop n })

@[simp] theorem isOpen_openFile (file : Option (List UInt8))
    (s : InStream) :
    (s.openFile file).isOpen = (s.isOpen || file.isSome) := by
  obtain ⟨isOpen, good, unread⟩ := s
  cases isOpen <;> cases file <;> rfl

end InStream

/-- A `std::ofstream` with the bytes in the file it opened last. -/
structure OutStream where
  isOpen : Bool
  good : Bool
  written : List UInt8
  deriving DecidableEq

namespace OutStream

def new : OutStream := ⟨false, true, []⟩

/-- `open` with `trunc`: a stream that is open already stays so and fails. -/
def openFile (opened : Bool) (s : OutStream) : OutStream :=
  if s.isOpen then { s with good := false }
  else if opened then ⟨true, true, []⟩
  else { s with good := false }

def close (s : OutStream) : OutStream :=
  if s.isOpen then { s with isOpen := false }
  else { s with good := false }

/-- `write` of `n` characters of an array; a failed stream writes nothing, and
a negative count fails the stream. -/
def write (bytes : List UInt8) (n : ℤ) (s : OutStream) : OutStream :=
  if s.good then
    { s with
      good := 0 ≤ n
      written := s.written ++ bytes.take n.toNat }
  else s

@[simp] theorem isOpen_openFile (opened : Bool) (s : OutStream) :
    (s.openFile opened).isOpen = (s.isOpen || opened) := by
  obtain ⟨isOpen, good, written⟩ := s
  cases isOpen <;> cases opened <;> rfl

end OutStream

/-! ## The sending side -/

structure FileResDescription where
  guid : Str
  filepath : Str
  deriving DecidableEq

/-- `P2PFileDataRepositorySender`. -/
structure SenderRepository where
  resGuid : Str
  resMd5 : Str
  filepath : Str
  readFile : InStream
  sendPacketIndex : UInt32
  progressGuid : Str
  totalTaskSize : ℤ
  deriving DecidableEq

namespace SenderRepository

def new (filepath : Str) : SenderRepository :=
  ⟨[], [], filepath, .new, 1, [], 0⟩

/-- `Create`.  The guid is blanked when the path is empty or the file does
not open. -/
def create (res : FileResDescription) (file : Option (List UInt8))
    (r : SenderRepository) : SenderRepository :=
  let readFile := r.readFile.openFile file
  { r with
    filepath := res.filepath
    totalTaskSize :=
      if res.filepath = [] then 0 else (file.map List.length).getD 0
    readFile := if readFile.isOpen then readFile else readFile.close
    progressGuid := res.guid
    resGuid :=
      if res.filepath = [] ∨ ¬readFile.isOpen then [] else res.guid }

/-- A block of file content in the packet that `PopUp` allocates. -/
def blockPacket (index : UInt32) (block : List UInt8) :
    DataChannelTransfer where
  messageType := 0
  packetIndex := index
  messageSize := Int32.ofNat (block.take PER_BLOCK_SIZE).length
  message := ⟨block.take PER_BLOCK_SIZE ++
    List.replicate (PER_BLOCK_SIZE - (block.take PER_BLOCK_SIZE).length) 0,
    by simp⟩

/-- `PopUp`: the next block, or `NULL` once the stream is no longer good. -/
def popUp (r : SenderRepository) :
    Option DataChannelTransfer × SenderRepository :=
  if r.readFile.isOpen then
    if r.readFile.good then
      let (block, readFile) := r.readFile.read PER_BLOCK_SIZE
      (some (blockPacket r.sendPacketIndex block),
        { r with
          readFile := readFile
          sendPacketIndex := r.sendPacketIndex + 1 })
    else (none, { r with readFile := r.readFile.close })
  else (none, { r with readFile := r.readFile.close })

/-- What `popUp` has still to hand out. -/
def remaining (r : SenderRepository) : List UInt8 :=
  if r.readFile.isOpen ∧ r.readFile.good then r.readFile.unread else []

/-- How often `popUp` can still succeed, at most. -/
def turns (r : SenderRepository) : ℕ :=
  if r.readFile.isOpen ∧ r.readFile.good then r.readFile.unread.length + 1
  else 0

end SenderRepository

def DataChannelTransfer.payload (data : DataChannelTransfer) : List UInt8 :=
  data.message.1.take data.messageSize.toInt.toNat

/-- A size that can be copied out of the message array. -/
def FitsMessage (count : ℤ) : Prop := 0 ≤ count ∧ count ≤ PER_BLOCK_SIZE

theorem toInt_ofNat_of_le {n : ℕ} (h : n ≤ PER_BLOCK_SIZE) :
    (Int32.ofNat n).toInt = n := by
  have h : n ≤ 1024 := h
  rw [Int32.toInt_ofNat_of_lt (by omega)]

namespace SenderRepository

variable {r r' : SenderRepository} {data : DataChannelTransfer}

theorem fitsMessage_blockPacket (index : UInt32) (block : List UInt8) :
    FitsMessage (blockPacket index block).messageSize.toInt := by
  have hlength : (block.take PER_BLOCK_SIZE).length ≤ PER_BLOCK_SIZE := by
    simp
  simp only [blockPacket, toInt_ofNat_of_le hlength, FitsMessage]
  omega

theorem payload_blockPacket (index : UInt32) (block : List UInt8) :
    (blockPacket index block).payload = block.take PER_BLOCK_SIZE := by
  have hlength : (block.take PER_BLOCK_SIZE).length ≤ PER_BLOCK_SIZE := by
    simp
  simp only [DataChannelTransfer.payload, blockPacket,
    toInt_ofNat_of_le hlength, Int.toNat_natCast]
  exact List.take_left

theorem popUp_eq_some (h : r.popUp = (some data, r')) :
    FitsMessage data.messageSize.toInt ∧
      r.remaining = data.payload ++ r'.remaining ∧ r'.turns < r.turns := by
  simp only [popUp] at h
  split at h
  · rename_i hopen
    split at h
    · rename_i hgood
      cases h
      refine ⟨fitsMessage_blockPacket _ _, ?_, ?_⟩
      · rw [payload_blockPacket]
        by_cases hfull : PER_BLOCK_SIZE ≤ r.readFile.unread.length
        · simp only [remaining, InStream.read, hopen, hgood, hfull,
            decide_true, and_self, if_true, List.take_take, min_self,
            List.take_append_drop]
        · have hshort : r.readFile.unread.length ≤ PER_BLOCK_SIZE := by
            omega
          simp [remaining, InStream.read, hopen, hgood, hfull,
            List.take_of_length_le hshort]
      · by_cases hfull : PER_BLOCK_SIZE ≤ r.readFile.unread.length
        · have hpos : 0 < PER_BLOCK_SIZE := by decide
          simp only [turns, InStream.read, hopen, hgood, hfull,
            decide_true, and_self, if_true, List.length_drop]
          omega
        · simp [turns, InStream.read, hopen, hgood, hfull]
    · cases h
  · cases h

theorem popUp_eq_none (h : r.popUp = (none, r')) :
    r.remaining = [] ∧ r'.remaining = [] := by
  simp only [popUp] at h
  split at h
  · rename_i hopen
    split at h
    · cases h
    · rename_i hgood
      cases h
      simp [remaining, hgood, InStream.close, hopen]
  · rename_i hopen
    cases h
    simp [remaining, InStream.close, hopen]

end SenderRepository

/-- `P2PFileDataRepositoryReciever`. -/
structure ReceiverRepository where
  resGuid : Str
  resMd5 : Str
  filepath : Str
  writeStream : OutStream
  progressGuid : Str
  finishTaskSize : ℤ
  totalTaskSize : ℤ
  deriving DecidableEq

namespace ReceiverRepository

def new : ReceiverRepository :=
  ⟨[], [], [], .new, [], 0, 0⟩

/-- `Create`, with the same two ways to blank the guid. -/
def create (res : FileResDescription) (opened : Bool)
    (r : ReceiverRepository) : ReceiverRepository :=
  let writeStream := r.writeStream.openFile opened
  { r with
    filepath := res.filepath
    writeStream :=
      if writeStream.isOpen then writeStream else writeStream.close
    progressGuid := res.guid
    resGuid :=
      if res.filepath = [] ∨ ¬writeStream.isOpen then [] else res.guid }

def pushBack (data : DataChannelTransfer) (r : ReceiverRepository) :
    ReceiverRepository :=
  if r.writeStream.isOpen then
    { r with
      writeStream :=
        r.writeStream.write data.message.1 data.messageSize.toInt
      finishTaskSize := r.finishTaskSize + data.messageSize.toInt }
  else { r with writeStream := r.writeStream.close }

/-- `Clear`, which closes the output file. -/
def clear (r : ReceiverRepository) : ReceiverRepository :=
  { r with writeStream := r.writeStream.close }

/-- Whether `pushBack` appends to the file. -/
def IsWriting (r : ReceiverRepository) : Prop :=
  r.writeStream.isOpen = true ∧ r.writeStream.good = true

variable {r : ReceiverRepository} {data : DataChannelTransfer}

theorem pushBack_of_fits (hwriting : r.IsWriting)
    (hfits : FitsMessage data.messageSize.toInt) :
    (r.pushBack data).IsWriting ∧
      (r.pushBack data).writeStream.written =
        r.writeStream.written ++ data.payload ∧
      (r.pushBack data).finishTaskSize =
        r.finishTaskSize + data.payload.length := by
  obtain ⟨hopen, hgood⟩ := hwriting
  have hlength : (data.payload.length : ℤ) = data.messageSize.toInt := by
    have hmessage : data.message.1.length = PER_BLOCK_SIZE :=
      data.message.2
    rw [DataChannelTransfer.payload, List.length_take, hmessage]
    obtain ⟨hnonneg, hle⟩ := hfits
    omega
  rw [hlength]
  simp [pushBack, OutStream.write, IsWriting, hopen, hgood, hfits.1,
    DataChannelTransfer.payload]

end ReceiverRepository

/-- `DataRepositoryBase`. -/
inductive DataRepository where
  | sender (r : SenderRepository)
  | receiver (r : ReceiverRepository)
  deriving DecidableEq

namespace DataRepository

def getGUID : DataRepository → Str
  | .sender r => r.resGuid
  | .receiver r => r.resGuid

/-- `virtual Create`; the file is what opening the path gives. -/
def create (res : FileResDescription) (file : Option (List UInt8)) :
    DataRepository → DataRepository
  | .sender r => .sender (r.create res file)
  | .receiver r => .receiver (r.create res file.isSome)

/-- Only the receiver overrides `PushBack`. -/
def pushBack (data : DataChannelTransfer) : DataRepository → DataRepository
  | .sender r => .sender r
  | .receiver r => .receiver (r.pushBack data)

/-- Only the sender overrides `PopUp`. -/
def popUp : DataRepository → Option DataChannelTransfer × DataRepository
  | .sender r => (r.popUp.1, .sender r.popUp.2)
  | .receiver r => (none, .receiver r)

/-- `GetResBlockSize`; the sender measures its file again. -/
def getResBlockSize (fileSize : ℤ) : DataRepository → ℤ
  | .sender r => if r.filepath = [] then 0 else fileSize
  | .receiver r => r.totalTaskSize

def setResBlockSize (count : ℤ) : DataRepository → DataRepository
  | .sender r => .sender r
  | .receiver r => .receiver { r with totalTaskSize := count }

/-- `StartCaculateMd5`, with the checksum of the file; the receiver closes
its file first. -/
def startCaculateMd5 (md5 : Str) : DataRepository → DataRepository
  | .sender r => .sender { r with resMd5 := md5 }
  | .receiver r => .receiver { r.clear with resMd5 := md5 }

def getResourceMd5 : DataRepository → Str
  | .sender r => r.resMd5
  | .receiver r => r.resMd5

variable {r : DataRepository}

def isOpen : DataRepository → Bool
  | .sender r => r.readFile.isOpen
  | .receiver r => r.writeStream.isOpen

/-- Whether `create` leaves the repository with an open file. -/
def Opens (res : FileResDescription) (file : Option (List UInt8))
    (r : DataRepository) : Prop :=
  res.filepath ≠ [] ∧ (r.isOpen ∨ file.isSome)

instance (res : FileResDescription) (file : Option (List UInt8))
    (r : DataRepository) : Decidable (r.Opens res file) :=
  inferInstanceAs (Decidable (_ ∧ _))

/-- `create` takes the guid of the description, or blanks it. -/
theorem getGUID_create (res : FileResDescription)
    (file : Option (List UInt8)) :
    (r.create res file).getGUID =
      if r.Opens res file then res.guid else [] := by
  cases r with
  | sender r =>
    by_cases h : res.filepath = [] <;>
      simp [create, getGUID, SenderRepository.create, Opens, isOpen, h]
    split <;> split <;> simp_all
  | receiver r =>
    by_cases h : res.filepath = [] <;>
      simp [create, getGUID, ReceiverRepository.create, Opens, isOpen, h]
    split <;> split <;> simp_all

@[simp] theorem getGUID_pushBack (data : DataChannelTransfer) :
    (r.pushBack data).getGUID = r.getGUID := by
  cases r with
  | sender r => rfl
  | receiver r =>
    simp only [pushBack, getGUID, ReceiverRepository.pushBack]
    split <;> rfl

@[simp] theorem getGUID_popUp : r.popUp.2.getGUID = r.getGUID := by
  cases r with
  | sender r =>
    simp only [popUp, getGUID, SenderRepository.popUp]
    split <;> [split; skip] <;> rfl
  | receiver r => rfl

@[simp] theorem getGUID_setResBlockSize (count : ℤ) :
    (r.setResBlockSize count).getGUID = r.getGUID := by
  cases r <;> rfl

@[simp] theorem getGUID_startCaculateMd5 (md5 : Str) :
    (r.startCaculateMd5 md5).getGUID = r.getGUID := by
  cases r <;> rfl

end DataRepository

end WebrtcWinXp.FileTransfer
