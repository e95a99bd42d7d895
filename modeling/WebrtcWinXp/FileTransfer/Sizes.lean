import WebrtcWinXp.FileTransfer.Delivery
import WebrtcWinXp.FileTransfer.Guids
import WebrtcWinXp.Support.Double
import WebrtcWinXp.Support.Loop

/-!
# Announced and acknowledged sizes

The size of a file on its way to the receiver, in the header of the task, and
the progress on its way back, in the acknowledgements.  At both ends sizes are
doubles, here integers; between them they are `DWORD`s.
-/

namespace WebrtcWinXp.FileTransfer

open Support

/-- The conversion of a double to a `DWORD`, which keeps the numbers that are
in range and may do anything to the others. -/
structure DwordConversion where
  toDword : ℤ → UInt32
  exact : ∀ n : ℤ, 0 ≤ n → n < 2 ^ 32 → ((toDword n).toNat : ℤ) = n

structure TransferProgressPacket where
  guid : Str
  totalTaskSize : ℤ
  finishTaskSize : ℤ

/-- `P2PFileDataRepositoryReciever` with the percentage it returned last. -/
structure ProgressRepository extends ReceiverRepository where
  oldFinishPercent : Double

namespace ProgressRepository

def TRANSFER_ACK_SIZE_WINDOW : Double := Double.round (1 / 1000)

def new : ProgressRepository := ⟨.new, .ofInt 0⟩

/-- `ResProgressDisk`, which returns the progress once it moved by the window
or is complete. -/
def resProgressDisk (r : ProgressRepository) :
    Option TransferProgressPacket × ProgressRepository :=
  let currentPercent :=
    Double.div (.ofInt r.finishTaskSize) (.ofInt r.totalTaskSize)
  let moved := Double.sub currentPercent r.oldFinishPercent
  if Double.le TRANSFER_ACK_SIZE_WINDOW moved ||
      Double.le moved (Double.sub (.ofInt 0) TRANSFER_ACK_SIZE_WINDOW) ||
      Double.eq currentPercent (.ofInt 1) then
    (some ⟨r.progressGuid, r.totalTaskSize, r.finishTaskSize⟩,
      { r with
        oldFinishPercent := currentPercent })
  else (none, r)

end ProgressRepository

/-- A task whose file is opened on both sides. -/
structure SizedTask where
  guid : Str
  senderPath : Str
  file : List UInt8
  goalPath : Str
  senderPath_ne : senderPath ≠ []

/-- What is in the memory of a packet that is constructed, and behind the
packets and the buffers. -/
structure Surroundings where
  uninitialised : ℕ → UInt8
  beyond : Str
  behind : ℕ → UInt8

/-- Both sides of a task with the guids on the sending side, and what
`TransferProgressSlots` was called with on each of them. -/
structure SizedTransfer where
  sender : SenderRepository
  receiver : ProgressRepository
  senderGuid : Str
  recieverGuid : Str
  receiverReports : List TransferProgressPacket
  senderReports : List TransferProgressPacket

section Packets

variable (c : DwordConversion) (m : Surroundings)

/-- `owerInfo` of a packet for which both setters were called. -/
def owerInfoOf (sGuid rGuid : Str) : FileResourceParam :=
  paramOf (Store.applyAll m.uninitialised
    (setRuserResGuidStores rGuid ++ setSuserResGuidStores sGuid))

/-- What the other side deserialises from a sent packet. -/
def receivedPack (pack : FileDataPack) : FileDataPack :=
  (FileDataPack.deserialize (.ofList (pack.serialize 3000) m.behind)
    (.new (paramOf m.uninitialised))).msg

def receivedBase (msg : FileDataBase) : FileDataBase :=
  (FileDataBase.deserialize (.ofList (msg.serialize 3000) m.behind)
    ⟨0xFFFFFFFF, paramOf m.uninitialised⟩).msg

/-- The header that `Run` sends for a task. -/
def fileHeader (guid path : Str) (blockSize : ℤ) : FileDataPack where
  messageId := ResType.File_Type.code
  owerInfo := paramOf (Store.applyAll m.uninitialised
    (setSuserResGuidStores guid))
  data := DataChannelTransfer.setContent path
    { (FileDataPack.new (paramOf m.uninitialised)).data with
      messageType := MessageID.Create_File.code
      packetIndex := c.toDword blockSize }

def sizedBlockPack (senderGuid recieverGuid : Str)
    (secondPtr : DataChannelTransfer) : FileDataPack where
  messageId := ResType.File_Type.code
  owerInfo := owerInfoOf m senderGuid recieverGuid
  data := { secondPtr.assigned with
    messageType := MessageID.Send_File.code }

def shakeAck (msg : FileDataPack) (progress : TransferProgressPacket) :
    FileDataBase where
  messageId := ResType.File_Type_Shake_Pack.code
  owerInfo :=
    { owerInfoOf m (msg.owerInfo.sUserString m.beyond)
        (msg.owerInfo.rUserString m.beyond) with
      filepath :=
        ⟨c.toDword progress.totalTaskSize,
          c.toDword progress.finishTaskSize⟩ }

/-- `SHAKE_ACK_PACKET`: what `TransferProgressSlots` is called with. -/
def shakeAckPacket (msg : FileDataBase) : TransferProgressPacket :=
  ⟨msg.owerInfo.sUserString m.beyond, msg.owerInfo.filepath.sUserID.toNat,
    msg.owerInfo.filepath.rUserID.toNat⟩

end Packets

namespace SizedTransfer

variable (c : DwordConversion) (m : Surroundings) (task : SizedTask)

/-- `RECIEVE_FILE_CHANNEL`: a block is saved, and its progress is reported and
acknowledged. -/
def recieveFileChannel (msg : FileDataPack) (t : SizedTransfer) :
    SizedTransfer :=
  let receiver : ProgressRepository :=
    { t.receiver with
      toReceiverRepository := t.receiver.pushBack msg.data }
  match receiver.resProgressDisk with
  | (none, receiver) =>
    { t with
      receiver := receiver }
  | (some progress, receiver) =>
    { t with
      receiver := receiver
      receiverReports := t.receiverReports ++ [progress]
      senderReports := t.senderReports ++
        [shakeAckPacket m (receivedBase m (shakeAck c m msg progress))] }

/-- A round of the block loop, and what its packet does. -/
def round (t : SizedTransfer) : Option SizedTransfer :=
  match t.sender.popUp with
  | (none, _) => none
  | (some secondPtr, sender) =>
    some (recieveFileChannel c m
      (receivedPack m (sizedBlockPack m t.senderGuid t.recieverGuid secondPtr))
      { t with
        sender := sender })

def started : SizedTransfer :=
  let sender := (SenderRepository.new task.senderPath).create
    ⟨task.guid, task.senderPath⟩ (some task.file)
  let blockSize :=
    (DataRepository.sender sender).getResBlockSize task.file.length
  let msg := receivedPack m (fileHeader c m task.guid task.senderPath blockSize)
  let receiver := ReceiverRepository.new.create
    ⟨msg.owerInfo.sUserString m.beyond, task.goalPath⟩ true
  { sender := sender
    receiver :=
      { ProgressRepository.new with
        toReceiverRepository :=
          { receiver with
            totalTaskSize := msg.data.packetIndex.toNat } }
    senderGuid := task.guid
    recieverGuid := receiver.resGuid
    receiverReports := []
    senderReports := [] }

/-- The task up to the end of the block loop, which takes a round for every
byte at most and one more. -/
def finished : Option SizedTransfer :=
  loop (round c m) (task.file.length + 2) (started c m task)

end SizedTransfer

def SameSizes (p q : TransferProgressPacket) : Prop :=
  q.totalTaskSize = p.totalTaskSize ∧ q.finishTaskSize = p.finishTaskSize

/-- The reports end with the size of the whole file. -/
def EndsComplete (n : ℕ) (reports : List TransferProgressPacket) : Prop :=
  ∃ p, reports.getLast? = some p ∧ p.totalTaskSize = n ∧
    p.finishTaskSize = n

/-- The receiver stores the size of the file, every acknowledgement arrives
with the numbers that were reported, and the transfer ends with a report of
the whole file on both sides. -/
structure SizesExact (c : DwordConversion) (m : Surroundings)
    (task : SizedTask) : Prop where
  announced : (SizedTransfer.started c m task).receiver.totalTaskSize =
    task.file.length
  completed : ∃ t, SizedTransfer.finished c m task = some t ∧
    List.Forall₂ SameSizes t.receiverReports t.senderReports ∧
    EndsComplete task.file.length t.receiverReports ∧
    EndsComplete task.file.length t.senderReports

variable {c : DwordConversion} {m : Surroundings} {task : SizedTask}

@[simp] theorem receivedPack_eq (pack : FileDataPack) :
    receivedPack m pack = pack :=
  pack.deserialize_serialize _ _

@[simp] theorem receivedBase_eq (msg : FileDataBase) :
    receivedBase m msg = msg :=
  msg.deserialize_serialize _ _

theorem SizedTransfer.totalTaskSize_started :
    (started c m task).receiver.totalTaskSize =
      (c.toDword task.file.length).toNat := by
  simp [started, fileHeader, DataChannelTransfer.setContent,
    DataRepository.getResBlockSize, SenderRepository.create,
    task.senderPath_ne]

theorem SizesExact.length_lt (h : SizesExact c m task) :
    task.file.length < 2 ^ 32 := by
  have htotal := h.announced
  rw [SizedTransfer.totalTaskSize_started] at htotal
  have hlt := (c.toDword task.file.length).toNat_lt
  omega

theorem sameSizes_shakeAckPacket (msg : FileDataPack)
    {progress : TransferProgressPacket}
    (htotal : 0 ≤ progress.totalTaskSize)
    (htotal' : progress.totalTaskSize < 2 ^ 32)
    (hfinish : 0 ≤ progress.finishTaskSize)
    (hfinish' : progress.finishTaskSize < 2 ^ 32) :
    SameSizes progress
      (shakeAckPacket m (receivedBase m (shakeAck c m msg progress))) := by
  rw [receivedBase_eq]
  exact ⟨c.exact _ htotal htotal', c.exact _ hfinish hfinish'⟩

namespace ProgressRepository

variable {r r' : ProgressRepository} {progress : TransferProgressPacket}

theorem resProgressDisk_eq_some
    (h : r.resProgressDisk = (some progress, r')) :
    progress.totalTaskSize = r.totalTaskSize ∧
      progress.finishTaskSize = r.finishTaskSize ∧
      r'.toReceiverRepository = r.toReceiverRepository := by
  rw [resProgressDisk] at h
  split at h
  · cases h
    exact ⟨rfl, rfl, rfl⟩
  · cases h

theorem resProgressDisk_eq_none (h : r.resProgressDisk = (none, r')) :
    r' = r := by
  rw [resProgressDisk] at h
  split at h
  · cases h
  · cases h
    rfl

theorem resProgressDisk_ne_none (hcomplete : r.finishTaskSize = r.totalTaskSize)
    (hpos : 0 < r.totalTaskSize) (hsmall : r.totalTaskSize < 2 ^ 32) :
    r.resProgressDisk ≠ (none, r') := by
  have hbound : |r.totalTaskSize| < 2 ^ 53 := by
    rw [abs_of_pos hpos]
    omega
  have hone := Double.ofInt_eq_finite (n := 1) (by decide)
  rw [resProgressDisk, hcomplete,
    Double.div_self_ofInt (by omega) hbound, hone]
  simp [Double.eq]

theorem resProgressDisk_of_zero (hfinish : r.finishTaskSize = 0)
    (htotal : r.totalTaskSize = 0) : r.resProgressDisk = (none, r) := by
  rw [resProgressDisk, hfinish, htotal, Double.div_zero_zero]
  simp [Double.nan_sub, Double.le_nan, Double.nan_le, Double.eq]

end ProgressRepository

/-! ## Runs of the block loop -/

namespace SizedTransfer

/-- A task of `n` bytes between two rounds. -/
structure Inv (n : ℕ) (t : SizedTransfer) : Prop where
  writing : t.receiver.IsWriting
  total : t.receiver.totalTaskSize = n
  finish : t.receiver.finishTaskSize + t.sender.remaining.length = n
  finish_nonneg : 0 ≤ t.receiver.finishTaskSize
  same : List.Forall₂ SameSizes t.receiverReports t.senderReports
  last : t.sender.turns = 0 → EndsComplete n t.receiverReports

theorem popUp_eq_none_iff {r : SenderRepository} :
    r.popUp.1 = none ↔ r.turns = 0 := by
  rw [SenderRepository.popUp, SenderRepository.turns]
  split
  · split <;> simp_all
  · simp_all

theorem remaining_of_turns {r : SenderRepository} (h : r.turns = 0) :
    r.remaining = [] := by
  rw [SenderRepository.turns] at h
  split at h
  · omega
  · rename_i hstopped
    rw [SenderRepository.remaining, if_neg hstopped]

theorem lowers_round :
    Lowers (round c m) fun t => t.sender.turns := by
  intro t t' h
  rw [round] at h
  split at h
  · cases h
  · next secondPtr sender hpop =>
      obtain ⟨-, -, hturns⟩ := SenderRepository.popUp_eq_some hpop
      cases h
      rw [recieveFileChannel]
      dsimp only
      split <;> exact hturns

theorem endsComplete_append {n : ℕ} {reports : List TransferProgressPacket}
    {p : TransferProgressPacket} (htotal : p.totalTaskSize = n)
    (hfinish : p.finishTaskSize = n) : EndsComplete n (reports ++ [p]) :=
  ⟨p, List.getLast?_concat, htotal, hfinish⟩

@[simp] theorem totalTaskSize_pushBack (data : DataChannelTransfer)
    (r : ReceiverRepository) :
    (r.pushBack data).totalTaskSize = r.totalTaskSize := by
  rw [ReceiverRepository.pushBack]
  split <;> rfl

theorem Inv.recieveFileChannel {n : ℕ} (hpos : 0 < n) (hsmall : n < 2 ^ 32)
    {t : SizedTransfer} (hinv : Inv n t) {msg : FileDataPack}
    {sender : SenderRepository} (hfits : FitsMessage msg.data.messageSize.toInt)
    (hremaining : t.sender.remaining.length =
      msg.data.payload.length + sender.remaining.length) :
    Inv n (recieveFileChannel c m msg
      { t with
        sender := sender }) := by
  obtain ⟨hwriting, -, hcount⟩ :=
    ReceiverRepository.pushBack_of_fits hinv.writing hfits
  have htotal : (t.receiver.pushBack msg.data).totalTaskSize = n := by
    rw [totalTaskSize_pushBack, hinv.total]
  have hfinish : (t.receiver.pushBack msg.data).finishTaskSize +
      sender.remaining.length = n := by
    have hold := hinv.finish
    omega
  have hnonneg : 0 ≤ (t.receiver.pushBack msg.data).finishTaskSize := by
    have hold := hinv.finish_nonneg
    omega
  have hcomplete : sender.turns = 0 →
      (t.receiver.pushBack msg.data).finishTaskSize = n := by
    intro hturns
    rw [remaining_of_turns hturns] at hfinish
    simpa using hfinish
  rw [SizedTransfer.recieveFileChannel]
  dsimp only
  split
  · next receiver hnone =>
      have hreceiver := ProgressRepository.resProgressDisk_eq_none hnone
      subst hreceiver
      refine ⟨hwriting, htotal, hfinish, hnonneg, hinv.same, ?_⟩
      intro hturns
      refine absurd hnone (ProgressRepository.resProgressDisk_ne_none ?_ ?_ ?_)
      · exact (hcomplete hturns).trans htotal.symm
      · exact htotal ▸ Int.natCast_pos.mpr hpos
      · exact htotal ▸ Int.ofNat_lt.mpr hsmall
  · next progress receiver hsome =>
      obtain ⟨hprogressTotal, hprogressFinish, hreceiver⟩ :=
        ProgressRepository.resProgressDisk_eq_some hsome
      have htotal' : progress.totalTaskSize = n := hprogressTotal.trans htotal
      have hfinish' : progress.finishTaskSize =
          (t.receiver.pushBack msg.data).finishTaskSize := hprogressFinish
      have hsame : SameSizes progress (shakeAckPacket m
          (receivedBase m (shakeAck c m msg progress))) := by
        apply sameSizes_shakeAckPacket <;> omega
      refine ⟨?_, ?_, ?_, ?_, ?_, ?_⟩
      · rw [hreceiver]
        exact hwriting
      · rw [hreceiver]
        exact htotal
      · rw [hreceiver]
        exact hfinish
      · rw [hreceiver]
        exact hnonneg
      · exact List.rel_append hinv.same (.cons hsame .nil)
      · intro hturns
        exact endsComplete_append htotal' (hfinish'.trans (hcomplete hturns))

theorem Inv.round {n : ℕ} (hpos : 0 < n) (hsmall : n < 2 ^ 32)
    {t t' : SizedTransfer} (hinv : Inv n t) (h : round c m t = some t') :
    Inv n t' := by
  rw [SizedTransfer.round] at h
  split at h
  · cases h
  · next secondPtr sender hpop =>
      obtain ⟨hfits, hremaining, -⟩ := SenderRepository.popUp_eq_some hpop
      have hpayload : (sizedBlockPack m t.senderGuid t.recieverGuid
          secondPtr).data.payload = secondPtr.payload :=
        payload_assigned hfits
      cases h
      rw [receivedPack_eq]
      refine hinv.recieveFileChannel hpos hsmall hfits ?_
      rw [hremaining, hpayload, List.length_append]

theorem inv_started (hpos : 0 < task.file.length)
    (hsmall : task.file.length < 2 ^ 32) :
    Inv task.file.length (started c m task) := by
  refine ⟨⟨rfl, rfl⟩, ?_, ?_, Int.le_refl 0, .nil, ?_⟩
  · rw [totalTaskSize_started]
    exact c.exact _ (by omega) (by omega)
  · simp [started, SenderRepository.remaining, SenderRepository.create,
      SenderRepository.new, InStream.openFile, InStream.new,
      ReceiverRepository.create, ReceiverRepository.new]
  · intro hturns
    simp [started, SenderRepository.turns, SenderRepository.create,
      SenderRepository.new, InStream.openFile, InStream.new] at hturns

theorem exists_finished :
    ∃ t, finished c m task = some t ∧ t.sender.popUp.1 = none := by
  have hturns : (started c m task).sender.turns < task.file.length + 2 := by
    simp [started, SenderRepository.turns, SenderRepository.create,
      SenderRepository.new, InStream.openFile, InStream.new]
  obtain ⟨t, ht⟩ := exists_loop_eq_some lowers_round hturns
  refine ⟨t, ht, ?_⟩
  have hend := (loop_invariant (P := fun _ => True) (fun _ _ _ _ => trivial)
    trivial ht).2
  rw [SizedTransfer.round] at hend
  split at hend
  · next hpop => rw [hpop]
  · cases hend

theorem endsComplete_of_same {n : ℕ}
    {reports reports' : List TransferProgressPacket}
    (hsame : List.Forall₂ SameSizes reports reports')
    (h : EndsComplete n reports) : EndsComplete n reports' := by
  obtain ⟨p, hlast, htotal, hfinish⟩ := h
  induction hsame with
  | nil => cases hlast
  | @cons q q' reports reports' hsizes hsame ih =>
    cases hsame with
    | nil =>
      cases hlast
      exact ⟨q', rfl, hsizes.1.trans htotal, hsizes.2.trans hfinish⟩
    | cons hsizes' hsame' => exact ih hlast

/-- An empty file between two rounds: nothing was reported. -/
structure Silent (t : SizedTransfer) : Prop where
  writing : t.receiver.IsWriting
  total : t.receiver.totalTaskSize = 0
  finish : t.receiver.finishTaskSize = 0
  remaining : t.sender.remaining = []
  reports : t.receiverReports = []

theorem Silent.round {t t' : SizedTransfer} (hinv : Silent t)
    (h : round c m t = some t') : Silent t' := by
  rw [SizedTransfer.round] at h
  split at h
  · cases h
  · next secondPtr sender hpop =>
      obtain ⟨hfits, hremaining, -⟩ := SenderRepository.popUp_eq_some hpop
      rw [hinv.remaining] at hremaining
      obtain ⟨hpayload, hempty⟩ := List.append_eq_nil_iff.mp hremaining.symm
      rw [receivedPack_eq] at h
      let msg := sizedBlockPack m t.senderGuid t.recieverGuid secondPtr
      have hblock : msg.data.payload = secondPtr.payload :=
        payload_assigned hfits
      have hmsg : FitsMessage msg.data.messageSize.toInt := hfits
      obtain ⟨hwriting, -, hcount⟩ :=
        ReceiverRepository.pushBack_of_fits hinv.writing hmsg
      have htotal : (t.receiver.pushBack msg.data).totalTaskSize = 0 := by
        rw [totalTaskSize_pushBack, hinv.total]
      have hfinish : (t.receiver.pushBack msg.data).finishTaskSize = 0 := by
        rw [hcount, hblock, hpayload, hinv.finish]
        rfl
      have hnone := ProgressRepository.resProgressDisk_of_zero
        (r := { t.receiver with
          toReceiverRepository := t.receiver.pushBack msg.data })
        hfinish htotal
      cases h
      rw [SizedTransfer.recieveFileChannel]
      simp only [msg] at hnone
      dsimp only
      rw [hnone]
      exact ⟨hwriting, htotal, hfinish, hempty, hinv.reports⟩

theorem receiverReports_of_nil (hfile : task.file = []) {t : SizedTransfer}
    (h : finished c m task = some t) : t.receiverReports = [] := by
  refine (loop_invariant (fun _ _ hs h => Silent.round hs h) ?_ h).1.reports
  refine ⟨⟨rfl, rfl⟩, ?_, rfl, ?_, rfl⟩
  · rw [totalTaskSize_started, hfile]
    exact c.exact 0 (Int.le_refl 0) (by decide)
  · simp [started, SenderRepository.remaining, SenderRepository.create,
      SenderRepository.new, InStream.openFile, InStream.new, hfile]

end SizedTransfer

/-- Sizes are exact for all files that are neither empty nor too large for the
fields of the packets. -/
theorem sizesExact_iff (c : DwordConversion) (m : Surroundings)
    (task : SizedTask) :
    SizesExact c m task ↔
      0 < task.file.length ∧ task.file.length < 2 ^ 32 := by
  constructor
  · intro h
    refine ⟨?_, h.length_lt⟩
    rw [List.length_pos_iff]
    intro hfile
    obtain ⟨t, ht, -, ⟨p, hlast, -⟩, -⟩ := h.completed
    rw [SizedTransfer.receiverReports_of_nil hfile ht] at hlast
    cases hlast
  · rintro ⟨hpos, hsmall⟩
    have hstarted := SizedTransfer.inv_started (c := c) (m := m) hpos hsmall
    obtain ⟨t, ht, hnone⟩ :
        ∃ t, SizedTransfer.finished c m task = some t ∧
          t.sender.popUp.1 = none := SizedTransfer.exists_finished
    have hinv := (loop_invariant (fun _ _ hs h => hs.round hpos hsmall h)
      hstarted ht).1
    have hlast := hinv.last (SizedTransfer.popUp_eq_none_iff.mp hnone)
    exact ⟨hstarted.total, t, ht, hinv.same, hlast,
      SizedTransfer.endsComplete_of_same hinv.same hlast⟩

def DwordConversion.modular : DwordConversion where
  toDword := UInt32.ofInt
  exact := by
    intro n hnonneg hlt
    rw [UInt32.ofInt, UInt32.toNat_ofNat']
    omega

/-- The total of a file of 4 GiB is not a `DWORD`. -/
theorem not_sizesExact_fourGiB :
    ¬SizesExact .modular ⟨fun _ => 0, [], fun _ => 0⟩
      ⟨[103], [115], List.replicate (2 ^ 32) 0, [114], by decide⟩ := by
  intro h
  have hlength := h.length_lt
  rw [List.length_replicate] at hlength
  omega

end WebrtcWinXp.FileTransfer
