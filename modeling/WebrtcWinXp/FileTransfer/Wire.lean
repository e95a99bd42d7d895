import Mathlib.Data.List.TakeWhile
import WebrtcWinXp.FileTransfer.Repository
import WebrtcWinXp.Support.Memory

/-!
# Packets on the data channel

`FileDataBase` and `FileDataPack` of `P2PData/TransferData.cc` in the layout
of the 32-bit build: a type, the length of the value, and the members of the
structures as they lie in memory, little endian and without padding.

The two `Deserialize` functions return the ranges of the buffer they read.
-/

namespace WebrtcWinXp.FileTransfer

open Support

def cString (bytes : List UInt8) : Str := bytes.takeWhile (· ≠ 0)

/-- The kinds of `messageType`, in the order of the numbers from 0 on. -/
inductive MessageID where
  | Send_File
  | Create_File
  | Resume_Opposite_Send
  | Recieve_File
  | Can_Continue_Send
  | Not_Can_Continue_Send
  | RFileRecieveState_To_Sender
  | RFileSendState_To_Reciever
  | End_Send_File
  | End_Recieve_File
  | Succese_Recieve_File
  | Failure_Recieve_File
  | Interrupt_File_Transfer
  | Restart_File_Transfer
  | Cancle_File_Transfer
  deriving DecidableEq

def MessageID.code (id : MessageID) : UInt32 := UInt32.ofNat id.ctorIdx

/-- The values of `message_id` that are dispatched on. -/
inductive ResType where
  | File_Type
  | File_Type_Shake_Pack
  | Text_Type
  deriving DecidableEq

def ResType.code : ResType → UInt32
  | File_Type => 3
  | File_Type_Shake_Pack => 4
  | Text_Type => 5

/-- `PacketType::FILEDATABASE`. -/
def FILEDATABASE : UInt32 := 1

/-! ## The structures -/

structure FilePathParam where
  sUserID : UInt32
  rUserID : UInt32
  deriving DecidableEq

structure FileResourceParam where
  filepath : FilePathParam
  sUserResGuid : Octets 40
  rUserResGuid : Octets 40
  deriving DecidableEq

structure FileDataBase where
  messageId : UInt32
  owerInfo : FileResourceParam
  deriving DecidableEq

structure FileDataPack extends FileDataBase where
  data : DataChannelTransfer
  deriving DecidableEq

/-- A string that is shorter than an array, in the cleared array. -/
def Octets.ofStr (n : ℕ) (str : Str) : Octets n :=
  ⟨str.take n ++ List.replicate (n - (str.take n).length) 0, by
    simp⟩

namespace FileResourceParam

/-- `SetSuserResGuid` cuts off strings of more than 40 characters; the
terminator of a string of 40 characters falls on the next member. -/
def setSuserResGuid (str : Str) (p : FileResourceParam) :
    FileResourceParam :=
  let str := cString str
  if 40 < str.length then
    { p with sUserResGuid := Octets.ofStr 40 (str.take 39) }
  else
    { p with
      sUserResGuid := Octets.ofStr 40 str
      rUserResGuid :=
        if str.length = 40 then ⟨p.rUserResGuid.1.set 0 0, by
          simp [p.rUserResGuid.2]⟩
        else p.rUserResGuid }

/-- `SetRuserResGuid`: the terminator of 40 characters or more falls behind
the structure. -/
def setRuserResGuid (str : Str) (p : FileResourceParam) :
    Option FileResourceParam :=
  let str := cString str
  if str.length < 40 then
    some { p with rUserResGuid := Octets.ofStr 40 str }
  else none

/-- The string that begins at `sUserResGuid`; without a terminator it goes on
with the memory that follows. -/
def sUserString (beyond : Str) (p : FileResourceParam) : Str :=
  cString (p.sUserResGuid.1 ++ (p.rUserResGuid.1 ++ beyond))

def rUserString (beyond : Str) (p : FileResourceParam) : Str :=
  cString (p.rUserResGuid.1 ++ beyond)

end FileResourceParam

@[simp] theorem cString_cString (bytes : List UInt8) :
    cString (cString bytes) = cString bytes := by
  simp [cString, List.takeWhile_takeWhile]

theorem cString_append_zero (str : Str) (rest : List UInt8) :
    cString (cString str ++ 0 :: rest) = cString str := by
  have hall : ∀ c ∈ cString str, (fun c => decide (c ≠ 0)) c = true := by
    intro c hc
    exact List.mem_takeWhile_imp (p := fun c => decide (c ≠ 0)) hc
  rw [cString, List.takeWhile_append_of_pos hall]
  simp

theorem cString_ofStr {n : ℕ} {str : Str} (hstr : cString str = str)
    (hlength : str.length < n) (rest : List UInt8) :
    cString ((Octets.ofStr n str).1 ++ rest) = str := by
  obtain ⟨k, hk⟩ : ∃ k, n - str.length = k + 1 :=
    ⟨n - str.length - 1, by omega⟩
  have htake : str.take n = str := List.take_of_length_le hlength.le
  simp only [Octets.ofStr, htake, hk, List.replicate_succ,
    List.append_assoc, List.cons_append]
  rw [← hstr, cString_append_zero]

namespace FileResourceParam

variable {str : Str} {p p' : FileResourceParam}

theorem setRuserResGuid_eq_some
    (h : p.setRuserResGuid str = some p') :
    (cString str).length < 40 ∧
      p' = { p with rUserResGuid := Octets.ofStr 40 (cString str) } := by
  simp only [setRuserResGuid] at h
  split at h
  · rename_i hlength
    exact ⟨hlength, (Option.some.inj h).symm⟩
  · cases h

theorem setSuserResGuid_of_short (h : (cString str).length < 40) :
    p.setSuserResGuid str =
      { p with sUserResGuid := Octets.ofStr 40 (cString str) } := by
  have hlong : ¬40 < (cString str).length := by omega
  have hfull : (cString str).length ≠ 40 := by omega
  simp [setSuserResGuid, hlong, hfull]

theorem rUserString_setRuserResGuid (beyond : Str)
    (h : p.setRuserResGuid str = some p') :
    p'.rUserString beyond = cString str := by
  obtain ⟨hlength, rfl⟩ := setRuserResGuid_eq_some h
  exact cString_ofStr (cString_cString str) hlength beyond

theorem sUserString_setSuserResGuid (beyond : Str)
    (h : (cString str).length < 40) :
    (p.setSuserResGuid str).sUserString beyond = cString str := by
  rw [setSuserResGuid_of_short h]
  exact cString_ofStr (cString_cString str) h _

theorem rUserString_setSuserResGuid_of_blank (beyond : Str)
    (h : p.rUserResGuid = Octets.ofStr 40 []) :
    (p.setSuserResGuid str).rUserString beyond = [] := by
  have hblank : (p.setSuserResGuid str).rUserResGuid =
      Octets.ofStr 40 [] := by
    simp only [setSuserResGuid]
    split
    · exact h
    · split
      · rw [Subtype.ext_iff]
        simp only [h]
        rfl
      · exact h
  rw [rUserString, hblank]
  exact cString_ofStr rfl (by decide) beyond

theorem cString_sUserString (beyond : Str) :
    cString (p.sUserString beyond) = p.sUserString beyond :=
  cString_cString _

end FileResourceParam

/-- `SetContent` of a string that fits the array with its terminator. -/
def DataChannelTransfer.setContent (str : Str) (data : DataChannelTransfer) :
    DataChannelTransfer :=
  { data with
    messageSize := Int32.ofNat (cString str).length
    message := Octets.ofStr PER_BLOCK_SIZE (cString str) }

/-- A packet that was constructed: `owerInfo` is not initialised, and the
data is zero up to the content set to the empty string. -/
def FileDataPack.new (uninitialised : FileResourceParam) : FileDataPack where
  messageId := 0xFFFFFFFF
  owerInfo := uninitialised
  data := DataChannelTransfer.setContent []
    ⟨0, 0, 1024, Octets.ofStr PER_BLOCK_SIZE []⟩

def dword (value : UInt32) : List UInt8 := toLE 4 value.toNat

@[simp] theorem length_dword (value : UInt32) : (dword value).length = 4 :=
  toLE_length 4 value.toNat

def FileResourceParam.bytes (p : FileResourceParam) : List UInt8 :=
  dword p.filepath.sUserID ++ (dword p.filepath.rUserID ++
    (p.sUserResGuid.1 ++ p.rUserResGuid.1))

def DataChannelTransfer.bytes (data : DataChannelTransfer) : List UInt8 :=
  dword data.messageType ++ (dword data.packetIndex ++
    (dword data.messageSize.toUInt32 ++ data.message.1))

/-- `Serialize` into a buffer of `size` bytes: what it writes, and nothing
when the packet does not fit. -/
def FileDataBase.serialize (size : ℕ) (msg : FileDataBase) : List UInt8 :=
  if size < 100 then []
  else
    dword FILEDATABASE ++ (dword 92 ++
      (dword msg.messageId ++ msg.owerInfo.bytes))

def FileDataPack.serialize (size : ℕ) (msg : FileDataPack) : List UInt8 :=
  if size < 1136 then []
  else
    dword FILEDATABASE ++ (dword 1128 ++
      (dword msg.messageId ++ (msg.owerInfo.bytes ++ msg.data.bytes)))

def dwordAt (b : Buffer) (offset : ℕ) : UInt32 :=
  UInt32.ofNat (ofLE (b.read ⟨offset, 4⟩))

def octetsAt (b : Buffer) (offset n : ℕ) : Octets n :=
  ⟨b.read ⟨offset, n⟩, b.length_read _⟩

def owerInfoAt (b : Buffer) (offset : ℕ) : FileResourceParam where
  filepath := ⟨dwordAt b offset, dwordAt b (offset + 4)⟩
  sUserResGuid := octetsAt b (offset + 8) 40
  rUserResGuid := octetsAt b (offset + 48) 40

def dataAt (b : Buffer) (offset : ℕ) : DataChannelTransfer where
  messageType := dwordAt b offset
  packetIndex := dwordAt b (offset + 4)
  messageSize := (dwordAt b (offset + 8)).toInt32
  message := octetsAt b (offset + 12) PER_BLOCK_SIZE

/-- What `Deserialize` returns, the packet it leaves, and the ranges it
reads. -/
structure Deserialized (α : Type) where
  result : ℕ
  msg : α
  reads : List Access

def FileDataBase.deserialize (b : Buffer) (msg : FileDataBase) :
    Deserialized FileDataBase :=
  if b.size < 100 then ⟨0, msg, []⟩
  else
    let msg := { msg with messageId := dwordAt b 8 }
    if dwordAt b 4 ≠ 92 then ⟨0, msg, [⟨4, 4⟩, ⟨8, 4⟩]⟩
    else
      ⟨100, { msg with owerInfo := owerInfoAt b 12 },
        [⟨4, 4⟩, ⟨8, 4⟩, ⟨12, 88⟩]⟩

/-- The message id is copied before the size is tested. -/
def FileDataPack.deserialize (b : Buffer) (msg : FileDataPack) :
    Deserialized FileDataPack :=
  let msg := { msg with messageId := dwordAt b 8 }
  if b.size < 1136 then ⟨0, msg, [⟨8, 4⟩]⟩
  else
    ⟨1136, { msg with owerInfo := owerInfoAt b 12, data := dataAt b 100 },
      [⟨8, 4⟩, ⟨12, 88⟩, ⟨100, 1036⟩]⟩

/-! ## Round trip -/

section RoundTrip

variable {rest : List UInt8} {beyond : ℕ → UInt8} {offset : ℕ}

theorem dwordAt_head (value : UInt32) :
    dwordAt (.ofList (dword value ++ rest) beyond) 0 = value := by
  rw [dwordAt, Buffer.read_ofList_head (length_dword value), dword,
    ofLE_toLE]
  apply UInt32.toNat_inj.mp
  simp

variable {head : List UInt8} {k : ℕ}

theorem dwordAt_skip (hk : head.length = k) :
    dwordAt (.ofList (head ++ rest) beyond) (offset + k) =
      dwordAt (.ofList rest fun i => beyond (i + k)) offset := by
  rw [dwordAt, Buffer.read_ofList_skip hk, dwordAt]

variable {n : ℕ}

theorem octetsAt_head (octets : Octets n) :
    octetsAt (.ofList (octets.1 ++ rest) beyond) 0 n = octets :=
  Subtype.ext (Buffer.read_ofList_head octets.2)

theorem octetsAt_skip (hk : head.length = k) :
    octetsAt (.ofList (head ++ rest) beyond) (offset + k) n =
      octetsAt (.ofList rest fun i => beyond (i + k)) offset n :=
  Subtype.ext (Buffer.read_ofList_skip hk)

/-! A field right behind the head is the first of the rest. -/

theorem dwordAt_next (hk : head.length = k) :
    dwordAt (.ofList (head ++ rest) beyond) k =
      dwordAt (.ofList rest fun i => beyond (i + k)) 0 := by
  rw [← dwordAt_skip hk, Nat.zero_add]

theorem octetsAt_next (hk : head.length = k) :
    octetsAt (.ofList (head ++ rest) beyond) k n =
      octetsAt (.ofList rest fun i => beyond (i + k)) 0 n := by
  rw [← octetsAt_skip hk, Nat.zero_add]

theorem owerInfoAt_skip (hk : head.length = k) :
    owerInfoAt (.ofList (head ++ rest) beyond) (offset + k) =
      owerInfoAt (.ofList rest fun i => beyond (i + k)) offset := by
  simp only [owerInfoAt, Nat.add_right_comm offset k, dwordAt_skip hk,
    octetsAt_skip hk]

theorem owerInfoAt_next (hk : head.length = k) :
    owerInfoAt (.ofList (head ++ rest) beyond) k =
      owerInfoAt (.ofList rest fun i => beyond (i + k)) 0 := by
  rw [← owerInfoAt_skip hk, Nat.zero_add]

theorem owerInfoAt_head (p : FileResourceParam) :
    owerInfoAt (.ofList (p.bytes ++ rest) beyond) 0 = p := by
  have hs : p.sUserResGuid.1.length = 40 := p.sUserResGuid.2
  simp only [FileResourceParam.bytes, List.append_assoc]
  have hr : dwordAt (.ofList (dword p.filepath.sUserID ++
      (dword p.filepath.rUserID ++ (p.sUserResGuid.1 ++
        (p.rUserResGuid.1 ++ rest)))) beyond) 4 = p.filepath.rUserID := by
    rw [dwordAt_next (length_dword _), dwordAt_head]
  have hsGuid : octetsAt (.ofList (dword p.filepath.sUserID ++
      (dword p.filepath.rUserID ++ (p.sUserResGuid.1 ++
        (p.rUserResGuid.1 ++ rest)))) beyond) 8 40 = p.sUserResGuid := by
    rw [show 8 = 4 + 4 from rfl, octetsAt_skip (length_dword _),
      octetsAt_next (length_dword _), octetsAt_head]
  have hrGuid : octetsAt (.ofList (dword p.filepath.sUserID ++
      (dword p.filepath.rUserID ++ (p.sUserResGuid.1 ++
        (p.rUserResGuid.1 ++ rest)))) beyond) 48 40 = p.rUserResGuid := by
    rw [show 48 = 44 + 4 from rfl, octetsAt_skip (length_dword _),
      show 44 = 40 + 4 from rfl, octetsAt_skip (length_dword _),
      octetsAt_next hs, octetsAt_head]
  simp only [owerInfoAt, Nat.zero_add, dwordAt_head, hr, hsGuid, hrGuid]

theorem dataAt_skip (hk : head.length = k) :
    dataAt (.ofList (head ++ rest) beyond) (offset + k) =
      dataAt (.ofList rest fun i => beyond (i + k)) offset := by
  simp only [dataAt, Nat.add_right_comm offset k, dwordAt_skip hk,
    octetsAt_skip hk]

theorem dataAt_next (hk : head.length = k) :
    dataAt (.ofList (head ++ rest) beyond) k =
      dataAt (.ofList rest fun i => beyond (i + k)) 0 := by
  rw [← dataAt_skip hk, Nat.zero_add]

theorem dataAt_head (data : DataChannelTransfer) :
    dataAt (.ofList (data.bytes ++ rest) beyond) 0 = data := by
  simp only [DataChannelTransfer.bytes, List.append_assoc]
  have hindex : dwordAt (.ofList (dword data.messageType ++
      (dword data.packetIndex ++ (dword data.messageSize.toUInt32 ++
        (data.message.1 ++ rest)))) beyond) 4 = data.packetIndex := by
    rw [dwordAt_next (length_dword _), dwordAt_head]
  have hsize : dwordAt (.ofList (dword data.messageType ++
      (dword data.packetIndex ++ (dword data.messageSize.toUInt32 ++
        (data.message.1 ++ rest)))) beyond) 8 =
      data.messageSize.toUInt32 := by
    rw [show 8 = 4 + 4 from rfl, dwordAt_skip (length_dword _),
      dwordAt_next (length_dword _), dwordAt_head]
  have hmessage : octetsAt (.ofList (dword data.messageType ++
      (dword data.packetIndex ++ (dword data.messageSize.toUInt32 ++
        (data.message.1 ++ rest)))) beyond) 12 PER_BLOCK_SIZE =
      data.message := by
    rw [show 12 = 8 + 4 from rfl, octetsAt_skip (length_dword _),
      show 8 = 4 + 4 from rfl, octetsAt_skip (length_dword _),
      octetsAt_next (length_dword _), octetsAt_head]
  simp only [dataAt, Nat.zero_add, dwordAt_head, hindex, hsize, hmessage]
  rfl

end RoundTrip

@[simp] theorem FileResourceParam.length_bytes (p : FileResourceParam) :
    p.bytes.length = 88 := by
  have hs : p.sUserResGuid.1.length = 40 := p.sUserResGuid.2
  have hr : p.rUserResGuid.1.length = 40 := p.rUserResGuid.2
  simp [bytes, hs, hr]

theorem FileDataBase.deserialize_serialize (msg : FileDataBase)
    (beyond : ℕ → UInt8) (initial : FileDataBase) :
    (deserialize (.ofList (msg.serialize 3000) beyond) initial).msg =
      msg := by
  simp only [serialize, if_neg (show ¬3000 < 100 by decide)]
  have hsize : ¬(Buffer.ofList (dword FILEDATABASE ++ (dword 92 ++
      (dword msg.messageId ++ msg.owerInfo.bytes))) beyond).size < 100 := by
    simp [Buffer.ofList]
  have hlength : dwordAt (.ofList (dword FILEDATABASE ++ (dword 92 ++
      (dword msg.messageId ++ msg.owerInfo.bytes))) beyond) 4 = 92 := by
    rw [dwordAt_next (length_dword _), dwordAt_head]
  have hid : dwordAt (.ofList (dword FILEDATABASE ++ (dword 92 ++
      (dword msg.messageId ++ msg.owerInfo.bytes))) beyond) 8 =
      msg.messageId := by
    rw [show 8 = 4 + 4 from rfl, dwordAt_skip (length_dword _),
      dwordAt_next (length_dword _), dwordAt_head]
  have howerInfo : owerInfoAt (.ofList (dword FILEDATABASE ++ (dword 92 ++
      (dword msg.messageId ++ msg.owerInfo.bytes))) beyond) 12 =
      msg.owerInfo := by
    rw [show 12 = 8 + 4 from rfl, owerInfoAt_skip (length_dword _),
      show 8 = 4 + 4 from rfl, owerInfoAt_skip (length_dword _),
      owerInfoAt_next (length_dword _),
      ← List.append_nil msg.owerInfo.bytes, owerInfoAt_head]
  simp only [deserialize, if_neg hsize, hlength, hid, howerInfo, ne_eq,
    not_true_eq_false, if_false]

namespace FileDataPack

@[simp] theorem length_serialize (msg : FileDataPack) :
    (msg.serialize 3000).length = 1136 := by
  have hs : msg.owerInfo.sUserResGuid.1.length = 40 :=
    msg.owerInfo.sUserResGuid.2
  have hr : msg.owerInfo.rUserResGuid.1.length = 40 :=
    msg.owerInfo.rUserResGuid.2
  have hmessage : msg.data.message.1.length = 1024 := msg.data.message.2
  simp [serialize, FileResourceParam.bytes, DataChannelTransfer.bytes, hs,
    hr, hmessage]

variable (msg : FileDataPack) (beyond : ℕ → UInt8)

theorem type_serialize :
    dwordAt (.ofList (msg.serialize 3000) beyond) 0 = FILEDATABASE :=
  dwordAt_head FILEDATABASE

theorem messageId_serialize :
    dwordAt (.ofList (msg.serialize 3000) beyond) 8 = msg.messageId := by
  simp only [serialize, if_neg (show ¬3000 < 1136 by decide)]
  rw [show 8 = 4 + 4 from rfl, dwordAt_skip (length_dword _),
    dwordAt_next (length_dword _), dwordAt_head]

theorem owerInfo_serialize :
    owerInfoAt (.ofList (msg.serialize 3000) beyond) 12 = msg.owerInfo := by
  simp only [serialize, if_neg (show ¬3000 < 1136 by decide)]
  rw [show 12 = 8 + 4 from rfl, owerInfoAt_skip (length_dword _),
    show 8 = 4 + 4 from rfl, owerInfoAt_skip (length_dword _),
    owerInfoAt_next (length_dword _), owerInfoAt_head]

theorem data_serialize :
    dataAt (.ofList (msg.serialize 3000) beyond) 100 = msg.data := by
  have howerInfo : msg.owerInfo.bytes.length = 88 :=
    msg.owerInfo.length_bytes
  simp only [serialize, if_neg (show ¬3000 < 1136 by decide)]
  rw [show 100 = 96 + 4 from rfl, dataAt_skip (length_dword _),
    show 96 = 92 + 4 from rfl, dataAt_skip (length_dword _),
    show 92 = 88 + 4 from rfl, dataAt_skip (length_dword _),
    dataAt_next howerInfo,
    ← List.append_nil msg.data.bytes, dataAt_head]

theorem deserialize_serialize (initial : FileDataPack) :
    (deserialize (.ofList (msg.serialize 3000) beyond) initial).msg =
      msg := by
  have hsize : ¬(Buffer.ofList (msg.serialize 3000) beyond).size < 1136 := by
    simp [Buffer.ofList]
  simp only [deserialize, if_neg hsize, messageId_serialize,
    owerInfo_serialize, data_serialize]

end FileDataPack

end WebrtcWinXp.FileTransfer
