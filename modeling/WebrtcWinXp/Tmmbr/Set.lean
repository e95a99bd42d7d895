import WebrtcWinXp.Support.Loop
import WebrtcWinXp.Support.OrderedMap

/-!
# Sets of bitrate requests

`TMMBRSet`: an array of a fixed size of which the first entries are valid.
-/

namespace WebrtcWinXp.Tmmbr

structure SetElement where
  tmmbr : ℕ := 0
  packetOh : ℕ := 0
  ssrc : ℕ := 0
  deriving DecidableEq

structure TMMBRSet where
  data : List SetElement
  sizeOfSet : ℕ
  lengthOfSet : ℕ
  size_eq : data.length = sizeOfSet
  length_le : lengthOfSet ≤ sizeOfSet

namespace TMMBRSet

def empty : TMMBRSet where
  data := []
  sizeOfSet := 0
  lengthOfSet := 0
  size_eq := rfl
  length_le := le_rfl

variable (s : TMMBRSet)

def entries : List SetElement := s.data.take s.lengthOfSet

def verifyAndAllocateSet (minimumSize : ℕ) : TMMBRSet where
  data := List.replicate (max minimumSize s.sizeOfSet) {}
  sizeOfSet := max minimumSize s.sizeOfSet
  lengthOfSet := 0
  size_eq := List.length_replicate
  length_le := Nat.zero_le _

def verifyAndAllocateSetKeepingData (minimumSize : ℕ) : TMMBRSet where
  data := s.data ++ List.replicate (minimumSize - s.sizeOfSet) {}
  sizeOfSet := max minimumSize s.sizeOfSet
  lengthOfSet := s.lengthOfSet
  size_eq := by
    rw [List.length_append, List.length_replicate, s.size_eq]
    omega
  length_le := s.length_le.trans (le_max_right _ _)

/-- `SetEntry`, which asserts that there is room. -/
def setEntry (i : ℕ) (e : SetElement) : TMMBRSet :=
  if h : i < s.sizeOfSet then
    { data := s.data.set i e
      sizeOfSet := s.sizeOfSet
      lengthOfSet := if i ≥ s.lengthOfSet then i + 1 else s.lengthOfSet
      size_eq := by rw [List.length_set, s.size_eq]
      length_le := by
        have hle := s.length_le
        split <;> omega }
  else s

def addEntry (e : SetElement) : TMMBRSet := s.setEntry s.lengthOfSet e

/-- `RemoveEntry`, which asserts that there is an entry. -/
def removeEntry (sourceIdx : ℕ) : TMMBRSet :=
  if h : sourceIdx < s.lengthOfSet then
    { data := s.data.eraseIdx sourceIdx ++ [{}]
      sizeOfSet := s.sizeOfSet
      lengthOfSet := s.lengthOfSet - 1
      size_eq := by
        have hle := s.length_le
        have hsize := s.size_eq
        rw [List.length_append, List.length_eraseIdx_of_lt (by omega),
          List.length_singleton]
        omega
      length_le := (Nat.sub_le _ _).trans s.length_le }
  else s

def clearSet : TMMBRSet where
  data := s.data
  sizeOfSet := s.sizeOfSet
  lengthOfSet := 0
  size_eq := s.size_eq
  length_le := Nat.zero_le _

/-! ## The valid entries -/

variable {s}

@[simp] theorem length_entries : s.entries.length = s.lengthOfSet := by
  rw [entries, List.length_take, s.size_eq, min_eq_left s.length_le]

@[simp] theorem entries_clearSet : s.clearSet.entries = [] :=
  List.take_zero

@[simp] theorem entries_verifyAndAllocateSetKeepingData (n : ℕ) :
    (s.verifyAndAllocateSetKeepingData n).entries = s.entries :=
  List.take_append_of_le_length (s.size_eq ▸ s.length_le)

theorem entries_setEntry {i : ℕ} (h : i < s.lengthOfSet) (e : SetElement) :
    (s.setEntry i e).entries = s.entries.set i e := by
  rw [setEntry, dif_pos (lt_of_lt_of_le h s.length_le), entries]
  dsimp only
  rw [if_neg (Nat.not_le.mpr h), List.take_set]
  rfl

theorem entries_addEntry (h : s.lengthOfSet < s.sizeOfSet) (e : SetElement) :
    (s.addEntry e).entries = s.entries ++ [e] := by
  have hlt : s.lengthOfSet < s.data.length := by
    rw [s.size_eq]
    exact h
  rw [addEntry, setEntry, dif_pos h, entries]
  dsimp only
  rw [if_pos (le_refl _), List.take_add_one, List.take_set_of_le (le_refl _),
    List.getElem?_set_self hlt]
  rfl

theorem entries_removeEntry {i : ℕ} (h : i < s.lengthOfSet) :
    (s.removeEntry i).entries = s.entries.eraseIdx i := by
  have hsize := s.size_eq
  have hle := s.length_le
  rw [removeEntry, dif_pos h, entries, entries]
  dsimp only
  rw [List.take_append_of_le_length]
  · apply List.ext_getElem?
    intro j
    rw [List.getElem?_take, List.getElem?_eraseIdx, List.getElem?_eraseIdx,
      List.getElem?_take, List.getElem?_take]
    split_ifs <;> first | rfl | omega
  · rw [List.length_eraseIdx_of_lt (by omega)]
    omega

def fill (s : TMMBRSet) (i : ℕ) : List SetElement → TMMBRSet
  | [] => s
  | e :: l => fill (s.setEntry i e) (i + 1) l

@[simp] theorem sizeOfSet_setEntry (i : ℕ) (e : SetElement) :
    (s.setEntry i e).sizeOfSet = s.sizeOfSet := by
  rw [setEntry]
  split <;> rfl

@[simp] theorem sizeOfSet_fill (i : ℕ) (l : List SetElement) :
    (s.fill i l).sizeOfSet = s.sizeOfSet := by
  induction l generalizing s i with
  | nil => rfl
  | cons e l ih => rw [fill, ih, sizeOfSet_setEntry]

theorem fill_append (i : ℕ) (l l' : List SetElement) :
    s.fill i (l ++ l') = (s.fill i l).fill (i + l.length) l' := by
  induction l generalizing s i with
  | nil => rfl
  | cons e l ih =>
    rw [List.cons_append, fill, ih, fill, List.length_cons]
    congr 1
    omega

theorem getElem?_fill {i : ℕ} {l : List SetElement}
    (h : i + l.length ≤ s.sizeOfSet) (j : ℕ) :
    (s.fill i l).data[j]? =
      if i ≤ j ∧ j < i + l.length then l[j - i]? else s.data[j]? := by
  induction l generalizing s i with
  | nil => rw [fill, if_neg (by simp)]
  | cons e l ih =>
    rw [List.length_cons] at h ⊢
    have hset : (s.setEntry i e).data = s.data.set i e := by
      rw [setEntry, dif_pos (by omega)]
    rw [fill, ih (by rw [sizeOfSet_setEntry]; omega), hset]
    by_cases hj : j = i
    · subst hj
      rw [if_neg (by omega), if_pos (by omega), Nat.sub_self,
        List.getElem?_set_self (by rw [s.size_eq]; omega)]
      rfl
    · rw [List.getElem?_set_ne (Ne.symm hj)]
      by_cases hin : i + 1 ≤ j ∧ j < i + 1 + l.length
      · have hsub : j - i = j - (i + 1) + 1 := by omega
        rw [if_pos hin, if_pos (by omega), hsub, List.getElem?_cons_succ]
      · rw [if_neg hin, if_neg (by omega)]

theorem take_drop_fill {i : ℕ} {l : List SetElement}
    (h : i + l.length ≤ s.sizeOfSet) :
    ((s.fill i l).data.drop i).take l.length = l := by
  apply List.ext_getElem?
  intro j
  rw [List.getElem?_take]
  split_ifs with hj
  · rw [List.getElem?_drop, getElem?_fill h, if_pos (by omega),
      Nat.add_sub_cancel_left]
  · rw [List.getElem?_eq_none (by omega)]

end TMMBRSet

/-!
## Bitrate requests at the RTCP receiver

What `RTCPReceiver` keeps of the requests of each remote: the set of requests
in `RTCPReceiveInformation`, with the times of the requests beside it, and the
functions that insert, collect, time out and clear them.
-/

section

open Support

def RTCP_INTERVAL_AUDIO_MS : ℕ := 5000

/-- The fields of `RTCPPacketRTPFBTMMBRItem`. -/
structure TMMBRItem where
  ssrc : ℕ
  maxTotalMediaBitRate : ℕ
  measuredOverhead : ℕ

structure RTCPReceiveInformation where
  lastTimeReceived : ℕ := 0
  readyForDelete : Bool := false
  tmmbrSet : TMMBRSet := .empty
  tmmbrSetTimeouts : List ℕ := []

namespace RTCPReceiveInformation

variable (info : RTCPReceiveInformation)

def verifyAndAllocateTMMBRSet (minimumSize : ℕ) : RTCPReceiveInformation :=
  if minimumSize > info.tmmbrSet.sizeOfSet then
    { info with
      tmmbrSet := info.tmmbrSet.verifyAndAllocateSetKeepingData minimumSize }
  else info

def element (senderSSRC : ℕ) (item : TMMBRItem) : SetElement where
  tmmbr := item.maxTotalMediaBitRate
  packetOh := item.measuredOverhead
  ssrc := senderSSRC

def insertTMMBRItem (senderSSRC : ℕ) (item : TMMBRItem)
    (currentTimeMS : ℕ) : RTCPReceiveInformation :=
  match info.tmmbrSet.entries.findIdx? fun e => e.ssrc = senderSSRC with
  | some i =>
    { info with
      tmmbrSet := info.tmmbrSet.setEntry i (element senderSSRC item)
      tmmbrSetTimeouts := info.tmmbrSetTimeouts.set i currentTimeMS }
  | none =>
    let info := info.verifyAndAllocateTMMBRSet (info.tmmbrSet.lengthOfSet + 1)
    { info with
      tmmbrSet := info.tmmbrSet.addEntry (element senderSSRC item)
      tmmbrSetTimeouts := info.tmmbrSetTimeouts ++ [currentTimeMS] }

/-- A request of time `timeMS` has timed out. -/
def timedOut (currentTimeMS timeMS : ℕ) : Bool :=
  currentTimeMS - timeMS > 5 * RTCP_INTERVAL_AUDIO_MS

/-- `GetTMMBRSet`: whether an entry was copied, and both sets afterwards. -/
def getTMMBRSet (sourceIdx targetIdx : ℕ) (candidateSet : TMMBRSet)
    (currentTimeMS : ℕ) : Bool × RTCPReceiveInformation × TMMBRSet :=
  if sourceIdx ≥ info.tmmbrSet.lengthOfSet then (false, info, candidateSet)
  else if targetIdx ≥ candidateSet.sizeOfSet then (false, info, candidateSet)
  else if timedOut currentTimeMS (info.tmmbrSetTimeouts.getD sourceIdx 0) then
    (false,
      { info with
        tmmbrSet := info.tmmbrSet.removeEntry sourceIdx
        tmmbrSetTimeouts := info.tmmbrSetTimeouts.eraseIdx sourceIdx },
      candidateSet)
  else
    (true, info,
      candidateSet.setEntry targetIdx (info.tmmbrSet.entries.getD sourceIdx {}))

/-- The loop in `TMMBRReceived` over the entries of one remote. -/
structure Collecting where
  i : ℕ
  num : ℕ
  info : RTCPReceiveInformation
  candidateSet : TMMBRSet

def collectStep (size currentTimeMS : ℕ) (c : Collecting) :
    Option Collecting :=
  if c.num < size ∧ c.i < c.info.tmmbrSet.lengthOfSet then
    let (copied, info, candidateSet) :=
      c.info.getTMMBRSet c.i c.num c.candidateSet currentTimeMS
    some
      { i := c.i + 1
        num := if copied then c.num + 1 else c.num
        info := info
        candidateSet := candidateSet }
  else none

def collect (size currentTimeMS num : ℕ) (candidateSet : TMMBRSet) :
    Collecting :=
  finish (collectStep size currentTimeMS)
    (fun c => c.info.tmmbrSet.lengthOfSet - c.i) ⟨0, num, info, candidateSet⟩

end RTCPReceiveInformation

structure RTCPReceiver where
  receivedInfoMap : OrderedMap ℕ RTCPReceiveInformation
  mainSsrc : ℕ
  /-- `_clock->TimeInMilliseconds()`. -/
  now : ℕ

namespace RTCPReceiver

variable (s : RTCPReceiver)

/-- What a sender or receiver report does: `CreateReceiveInformation` and
`UpdateReceiveInformation`. -/
def handleSenderReceiverReport (remoteSSRC : ℕ) : RTCPReceiver :=
  { s with
    receivedInfoMap := (s.receivedInfoMap.insert remoteSSRC {}).modify
      remoteSSRC fun info => { info with lastTimeReceived := s.now } }

def handleBYE (senderSSRC : ℕ) : RTCPReceiver :=
  { s with
    receivedInfoMap := s.receivedInfoMap.modify senderSSRC
      fun info => { info with readyForDelete := true } }

def accepts (item : TMMBRItem) : Bool :=
  s.mainSsrc = item.ssrc ∧ item.maxTotalMediaBitRate > 0

def handleTMMBRItem (senderSSRC : ℕ) (info : RTCPReceiveInformation)
    (item : TMMBRItem) : RTCPReceiveInformation :=
  if s.accepts item then info.insertTMMBRItem senderSSRC item s.now else info

/-- The SSRC under which a request is kept: that of the sender, or that of the
media in relay mode. -/
def requestSsrc (senderSSRC mediaSSRC : ℕ) : ℕ :=
  if mediaSSRC ≠ 0 then mediaSSRC else senderSSRC

/-- `HandleTMMBR` for a packet with these items, of which at most `maxBlocks`
fit the length of the packet. -/
def handleTMMBR (senderSSRC mediaSSRC maxBlocks : ℕ)
    (items : List TMMBRItem) : RTCPReceiver :=
  if maxBlocks > 200 then s
  else
    { s with
      receivedInfoMap := s.receivedInfoMap.modify senderSSRC fun info =>
        items.foldl (s.handleTMMBRItem (requestSsrc senderSSRC mediaSSRC))
          (info.verifyAndAllocateTMMBRSet maxBlocks) }

/-- Nothing was received from the remote for five regular intervals. -/
def silent (info : RTCPReceiveInformation) : Bool :=
  s.now - info.lastTimeReceived > 5 * RTCP_INTERVAL_AUDIO_MS

/-- What `UpdateRTCPReceiveInformationTimers` does to one remote. -/
def updateTimer (info : RTCPReceiveInformation) :
    Option RTCPReceiveInformation :=
  if info.lastTimeReceived ≠ 0 then
    if s.silent info then
      some
        { info with
          tmmbrSet := info.tmmbrSet.clearSet
          lastTimeReceived := 0 }
    else some info
  else if info.readyForDelete then none
  else some info

def updateRTCPReceiveInformationTimers : RTCPReceiver :=
  { s with
    receivedInfoMap := s.receivedInfoMap.filterMapValues
      fun _ info => s.updateTimer info }

/-- What the loop over the remotes in `TMMBRReceived` does at one of them. -/
def collectRemote (size currentTimeMS : ℕ) (candidates : ℕ × TMMBRSet)
    (info : RTCPReceiveInformation) :
    (ℕ × TMMBRSet) × RTCPReceiveInformation :=
  if candidates.1 < size then
    let c := info.collect size currentTimeMS candidates.1 candidates.2
    ((c.num, c.candidateSet), c.info)
  else (candidates, info)

/-- `TMMBRReceived` with a candidate set: the returned number, the receiver
and the candidate set afterwards. -/
def tmmbrReceived (size accNumCandidates : ℕ) (candidateSet : TMMBRSet) :
    ℤ × RTCPReceiver × TMMBRSet :=
  if s.receivedInfoMap.entries = [] then (-1, s, candidateSet)
  else
    let ((num, candidateSet), receivedInfoMap) := s.receivedInfoMap.walk
      (fun candidates _ info => collectRemote size s.now candidates info)
      (accNumCandidates, candidateSet)
    (num, { s with receivedInfoMap := receivedInfoMap }, candidateSet)

end RTCPReceiver

end

end WebrtcWinXp.Tmmbr
