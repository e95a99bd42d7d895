import Mathlib.Data.List.GetD
import WebrtcWinXp.Rtp.PacketHistory
import WebrtcWinXp.Rtp.Rtx

/-!
# Looking up packets in the history

Whatever was called, the slots of the history are a ring of the packets that
were stored since it was enabled.  A lookup by sequence number then finds a
packet exactly if it is one of the last ones.
-/

namespace WebrtcWinXp.Rtp

open Support

abbrev SlotContents := UInt16 × ℕ × List UInt8 × ℤ

def HistorySlot.contents (slot : HistorySlot) : SlotContents :=
  (slot.seqNum, slot.length, slot.packet.take slot.length, slot.time)

def StoredPacket.contents (p : StoredPacket) : SlotContents :=
  (p.seqNum, p.packet.length, p.packet, p.time)

namespace RTPPacketHistory

variable {h h' : RTPPacketHistory}

/-- The history records the packets of the log. -/
structure Enabled (h : RTPPacketHistory) (log : HistoryLog) : Prop where
  store : h.store = true
  length_slots : h.slots.length = log.numberToStore.toNat
  longest : h.maxPacketLength = log.longest
  slot_fits : ∀ slot ∈ h.slots, slot.packet.length = h.maxPacketLength ∧
    slot.length ≤ slot.packet.length
  packet_fits : ∀ p ∈ log.packets, 0 < p.packet.length ∧
    p.packet.length ≤ log.longest
  ring : RingLog (HistorySlot.contents {}) (h.slots.map HistorySlot.contents)
    h.prevIndex (log.packets.map StoredPacket.contents)

/-- The history records what the log says; it is as new while it is off. -/
def Records (h : RTPPacketHistory) : Option HistoryLog → Prop
  | none => h = {}
  | some log => h.Enabled log

/-! ## One call -/

theorem Records.free {log : Option HistoryLog} (hr : h.Records log) :
    h.free = {} := by
  cases log with
  | none =>
    rw [show h = {} from hr]
    rfl
  | some log => rw [RTPPacketHistory.free, if_pos hr.store]

theorem enabled_allocate {numberToStore : UInt16}
    (hcall : allocate {} numberToStore = some h') :
    h'.Enabled { numberToStore := numberToStore } := by
  rw [allocate] at hcall
  split at hcall
  · simp at hcall
  · rename_i hpos
    rw [Option.some_inj] at hcall
    subst hcall
    simp only [Bool.false_eq_true, or_false] at hpos
    have hne : numberToStore.toNat ≠ 0 := by
      intro hzero
      exact hpos (UInt16.toNat_inj.mp hzero)
    have hslots : resizeVector [] numberToStore.toNat ({} : HistorySlot) =
        List.replicate numberToStore.toNat {} := by
      simp [resizeVector]
    refine ⟨rfl, ?_, rfl, ?_, ?_, ?_⟩
    · dsimp only
      rw [hslots, List.length_replicate]
    · intro slot hslot
      dsimp only at hslot
      rw [hslots] at hslot
      rw [List.eq_of_mem_replicate hslot]
      exact ⟨rfl, le_rfl⟩
    · intro p hp
      exact absurd hp List.not_mem_nil
    · dsimp only
      rw [hslots, List.map_replicate]
      exact RingLog.replicate _ (by omega)

theorem Records.setStorePacketsStatus {log : Option HistoryLog}
    {enable : Bool} {numberToStore : UInt16} (hr : h.Records log)
    (hcall : h.setStorePacketsStatus enable numberToStore = some h') :
    h'.Records
      (HistoryLog.call log (.setStorePacketsStatus enable numberToStore)) := by
  have hfree := hr.free
  rw [RTPPacketHistory.setStorePacketsStatus] at hcall
  cases enable with
  | true =>
    rw [if_pos rfl] at hcall
    have hnew : (if h.store then h.free else h) = {} := by
      split
      · exact hfree
      · rename_i hoff
        rw [RTPPacketHistory.free, if_neg hoff] at hfree
        exact hfree
    rw [hnew] at hcall
    exact enabled_allocate hcall
  | false =>
    rw [if_neg Bool.false_ne_true, hfree, Option.some_inj] at hcall
    exact hcall.symm

variable {log : HistoryLog}

theorem length_resizeVector {α : Type*} {l : List α} {n : ℕ} (a : α)
    (h : l.length ≤ n) : (resizeVector l n a).length = n := by
  rw [resizeVector, List.length_append, List.length_take,
    List.length_replicate]
  omega

theorem Enabled.verifyAndAllocatePacketLength (he : h.Enabled log)
    {packetLength : ℕ}
    (hcall : h.verifyAndAllocatePacketLength packetLength = some h') :
    h'.Enabled { log with longest := max log.longest packetLength } := by
  rw [RTPPacketHistory.verifyAndAllocatePacketLength] at hcall
  rw [if_neg (not_not.mpr he.store)] at hcall
  split_ifs at hcall with hzero hle
  · rw [Option.some_inj] at hcall
    subst hcall
    rw [he.longest] at hle
    rw [max_eq_left hle]
    exact he
  · rw [Option.some_inj] at hcall
    subst hcall
    have hlongest := he.longest
    have hcontents : ∀ slot ∈ h.slots,
        HistorySlot.contents { slot with
          packet := resizeVector slot.packet packetLength 0 } =
          slot.contents := by
      intro slot hslot
      obtain ⟨hpacket, hlength⟩ := he.slot_fits slot hslot
      simp only [HistorySlot.contents, resizeVector]
      rw [List.take_of_length_le (show slot.packet.length ≤ packetLength by
        omega), List.take_append_of_le_length hlength]
    refine ⟨he.store, ?_, ?_, ?_, ?_, ?_⟩
    · dsimp only
      rw [List.length_map]
      exact he.length_slots
    · dsimp only
      omega
    · intro slot hslot
      obtain ⟨old, hold, rfl⟩ := List.mem_map.mp hslot
      obtain ⟨hpacket, hlength⟩ := he.slot_fits old hold
      dsimp only
      rw [length_resizeVector _ (by omega)]
      exact ⟨rfl, by omega⟩
    · intro p hp
      obtain ⟨hpos, hfits⟩ := he.packet_fits p hp
      exact ⟨hpos, le_max_of_le_left hfits⟩
    · dsimp only
      rw [List.map_map]
      have hring := he.ring
      rwa [← List.map_congr_left hcontents] at hring

theorem Enabled.storePacket (he : h.Enabled log) {packet : List UInt8}
    (hpos : 0 < packet.length) (hfits : packet.length ≤ h.maxPacketLength)
    (captureTimeMs : ℤ) (type : StorageType) (now : ℤ) :
    (h.storePacket packet captureTimeMs type now).Enabled
      { log with
        packets := log.packets ++
          [⟨packet, if captureTimeMs > 0 then captureTimeMs else now⟩] } := by
  have hnext : h.prevIndex < h.slots.length := by
    have hlt := he.ring.next_lt
    rwa [List.length_map] at hlt
  have hslot : (h.slots.getD h.prevIndex {}).packet.length =
      h.maxPacketLength := by
    rw [List.getD_eq_getElem _ _ hnext]
    exact (he.slot_fits _ (List.getElem_mem hnext)).1
  have hlength : (overwrite (h.slots.getD h.prevIndex {}).packet 0
      packet).length = h.maxPacketLength := by
    rw [length_overwrite (by omega), hslot]
  refine ⟨he.store, ?_, he.longest, ?_, ?_, ?_⟩
  · rw [RTPPacketHistory.storePacket]
    dsimp only
    rw [List.length_set]
    exact he.length_slots
  · intro slot hmem
    obtain hold | rfl := List.mem_or_eq_of_mem_set hmem
    · exact he.slot_fits slot hold
    · exact ⟨hlength, by
        dsimp only
        rw [hlength]
        exact hfits⟩
  · intro p hp
    obtain hold | hnew := List.mem_append.mp hp
    · exact he.packet_fits p hold
    · rw [List.mem_singleton.mp hnew]
      exact ⟨hpos, he.longest ▸ hfits⟩
  · have hwrite := he.ring.write (StoredPacket.contents
      ⟨packet, if captureTimeMs > 0 then captureTimeMs else now⟩)
    rw [List.length_map] at hwrite
    rw [RTPPacketHistory.storePacket]
    dsimp only
    rw [List.map_set, List.map_append]
    convert hwrite using 2
    · simp only [HistorySlot.contents, StoredPacket.contents, overwrite,
        List.take_zero, List.nil_append, List.take_left, StoredPacket.seqNum]
    · rfl

theorem Records.putRTPPacket {log : Option HistoryLog}
    {packet : List UInt8} {maxPacketLength : ℕ} {captureTimeMs : ℤ}
    {type : StorageType} {now : ℤ} {r : RTPPacketHistory × ℤ}
    (hr : h.Records log)
    (hcall : h.putRTPPacket packet maxPacketLength captureTimeMs type now =
      some r) :
    r.1.Records (HistoryLog.call log
      (.putRTPPacket packet maxPacketLength captureTimeMs type now)) := by
  rw [RTPPacketHistory.putRTPPacket] at hcall
  split_ifs at hcall with htype hon hshort
  · rw [Option.some_inj] at hcall
    subst hcall
    rw [HistoryLog.call, if_pos htype]
    exact hr
  · obtain ⟨grown, hgrown, rfl⟩ := Option.map_eq_some_iff.mp hcall
    rw [HistoryLog.call, if_neg htype]
    cases log with
    | none =>
      rw [show h = {} from hr] at hon
      exact absurd hon Bool.false_ne_true
    | some log =>
      have he := Enabled.verifyAndAllocatePacketLength hr hgrown
      have hlongest := he.longest
      dsimp only at hlongest
      change Enabled _ (log.put packet maxPacketLength captureTimeMs now)
      rw [HistoryLog.put, hlongest]
      by_cases hlong : packet.length > max log.longest maxPacketLength
      · rw [if_pos hlong, if_pos hlong]
        exact he
      · rw [if_neg hlong, if_neg hlong]
        exact he.storePacket (by omega) (by omega) captureTimeMs type now
  · rw [Option.some_inj] at hcall
    subst hcall
    rw [HistoryLog.call, if_neg htype]
    cases log with
    | none => exact hr
    | some log => exact absurd hr.store hon

theorem Enabled.setSendTime (he : h.Enabled log) {index : ℕ}
    (sendTime : ℤ) :
    Enabled
      { h with
        slots := h.slots.set index
          { h.slots.getD index {} with sendTime := sendTime } } log := by
  by_cases hlt : index < h.slots.length
  · have hget := List.getD_eq_getElem h.slots {} hlt
    refine ⟨he.store, ?_, he.longest, ?_, he.packet_fits, ?_⟩
    · dsimp only
      rw [List.length_set]
      exact he.length_slots
    · intro slot hmem
      obtain hold | rfl := List.mem_or_eq_of_mem_set hmem
      · exact he.slot_fits slot hold
      · have hfits := he.slot_fits _ (List.getElem_mem hlt)
        rw [← hget] at hfits
        exact hfits
    · dsimp only
      rw [List.map_set]
      have hsame : HistorySlot.contents
          { h.slots.getD index {} with sendTime := sendTime } =
          (h.slots.map HistorySlot.contents).get
            ⟨index, by rwa [List.length_map]⟩ := by
        rw [List.get_eq_getElem, List.getElem_map, hget]
        rfl
      rw [hsame, List.get_eq_getElem, List.set_getElem_self]
      exact he.ring
  · rw [List.set_eq_of_length_le (by omega)]
    exact he

theorem Records.getPacketAndSetSendTime {log : Option HistoryLog}
    (hr : h.Records log) (sequenceNumber : UInt16) (minElapsedTimeMs : ℕ)
    (retransmit : Bool) (now sendTime : ℤ) :
    (h.getPacketAndSetSendTime sequenceNumber minElapsedTimeMs retransmit now
      sendTime).1.Records log := by
  rw [RTPPacketHistory.getPacketAndSetSendTime]
  split_ifs with hon
  · cases log with
    | none =>
      rw [show h = {} from hr] at hon
      exact absurd hon Bool.false_ne_true
    | some log =>
      split
      · exact hr
      · dsimp only
        split_ifs
        · exact hr
        · exact hr
        · exact hr
        · exact Enabled.setSendTime hr sendTime
  · exact hr

theorem Records.call {log : Option HistoryLog} {c : Call}
    (hr : h.Records log) (hcall : h.call c = some h') :
    h'.Records (HistoryLog.call log c) := by
  cases c with
  | setStorePacketsStatus enable numberToStore =>
    exact hr.setStorePacketsStatus hcall
  | putRTPPacket packet maxPacketLength captureTimeMs type now =>
    obtain ⟨r, hput, rfl⟩ := Option.map_eq_some_iff.mp hcall
    exact hr.putRTPPacket hput
  | getPacketAndSetSendTime sequenceNumber minElapsedTimeMs retransmit now
      sendTime =>
      rw [RTPPacketHistory.call, Option.some_inj] at hcall
      subst hcall
      exact hr.getPacketAndSetSendTime sequenceNumber minElapsedTimeMs
        retransmit now sendTime

theorem Records.foldlM {calls : List Call} :
    ∀ {h : RTPPacketHistory} {log : Option HistoryLog}, h.Records log →
      calls.foldlM RTPPacketHistory.call h = some h' →
      h'.Records (calls.foldl HistoryLog.call log) := by
  induction calls with
  | nil =>
    intro h log hr hrun
    rw [List.foldlM_nil, Option.pure_def, Option.some_inj] at hrun
    exact hrun ▸ hr
  | cons c calls ih =>
    intro h log hr hrun
    rw [List.foldlM_cons] at hrun
    obtain ⟨next, hnext, hrest⟩ := Option.bind_eq_some_iff.mp hrun
    exact ih (hr.call hnext) hrest

theorem records_of_run {calls : List Call} (hrun : run calls = some h) :
    h.Records (HistoryLog.ofCalls calls) :=
  Records.foldlM (show Records {} none from rfl) hrun

/-! ## Lookups -/

namespace Enabled

variable {log : HistoryLog} {s : UInt16} {index : ℕ}

theorem slot (he : h.Enabled log) (hlt : index < h.slots.length) :
    (log.packets.length ≤ index ∧ (h.slots.getD index {}).seqNum = 0 ∧
        (h.slots.getD index {}).length = 0) ∨
      ∃ j < log.packets.length, ∃ p, log.packets[j]? = some p ∧
        log.packets.length ≤ j + h.slots.length ∧ j % h.slots.length = index ∧
        (h.slots.getD index {}).contents = p.contents := by
  have hget : (h.slots.map HistorySlot.contents)[index]? =
      some (h.slots.getD index {}).contents := by
    rw [List.getElem?_map, List.getD_eq_getElem _ _ hlt,
      List.getElem?_eq_getElem hlt]
    rfl
  obtain ⟨hle, hblank⟩ | ⟨j, hj, hrecent, hat, hp⟩ := he.ring.slot hget
  · left
    rw [List.length_map] at hle
    simp only [HistorySlot.contents, Prod.mk.injEq] at hblank
    exact ⟨hle, hblank.1, hblank.2.1⟩
  · right
    rw [List.length_map] at hj
    rw [List.length_map, List.length_map] at hrecent
    rw [List.length_map] at hat
    rw [List.getElem?_map] at hp
    obtain ⟨p, hp, heq⟩ := Option.map_eq_some_iff.mp hp
    exact ⟨j, hj, p, hp, hrecent, hat, heq.symm⟩

variable {p : StoredPacket}

theorem slot_of_recent (he : h.Enabled log) {j : ℕ}
    (hrecent : log.packets.length ≤ j + h.slots.length)
    (hp : log.packets[j]? = some p) :
    ∃ slot, h.slots[j % h.slots.length]? = some slot ∧
      slot.contents = p.contents := by
  have hj := (List.getElem?_eq_some_iff.mp hp).1
  have hslot := he.ring.recent j (by rwa [List.length_map])
    (by rwa [List.length_map, List.length_map])
  rw [List.length_map, List.getElem?_map, List.getElem?_map, hp] at hslot
  exact Option.map_eq_some_iff.mp hslot

theorem findSeqNum_lt (he : h.Enabled log)
    (hfind : h.findSeqNum s = some index) :
    index < h.slots.length ∧ (h.slots.getD index {}).seqNum = s := by
  have hpos := he.ring.pos
  have hnext := he.ring.next_lt
  rw [List.length_map] at hpos hnext
  rw [findSeqNum] at hfind
  split_ifs at hfind with hguess
  · rw [Option.some_inj] at hfind
    subst hfind
    refine ⟨?_, hguess⟩
    rw [guessIndex]
    split_ifs <;> omega
  · obtain ⟨hlt, hseq, _⟩ := List.findIdx?_eq_some_iff_getElem.mp hfind
    refine ⟨hlt, ?_⟩
    rw [List.getD_eq_getElem _ _ hlt]
    simpa using hseq

/-- The guess for the sequence number 0 is a slot that has been written, once
any has: the difference to another number is not negative. -/
theorem guessIndex_lt (he : h.Enabled log) (hsome : log.packets ≠ [])
    (hroom : log.packets.length < h.slots.length) :
    h.guessIndex 0 < log.packets.length := by
  have hpos := List.length_pos_iff.mpr hsome
  have hnext := he.ring.next_of_lt (by rwa [List.length_map, List.length_map])
  rw [List.length_map] at hnext
  rw [guessIndex]
  rw [show (0 : UInt16).toNat = 0 from rfl]
  split_ifs <;> omega

theorem findSeqNum_of_recent (he : h.Enabled log) {j : ℕ}
    (hrecent : log.packets.length ≤ j + h.slots.length)
    (hp : log.packets[j]? = some p) (hs : p.seqNum = s) :
    ∃ index, h.findSeqNum s = some index ∧
      ¬(log.packets.length ≤ index ∧ s = 0) := by
  have hj := (List.getElem?_eq_some_iff.mp hp).1
  obtain ⟨slot, hslot, hcontents⟩ := he.slot_of_recent hrecent hp
  have hseq : slot.seqNum = s := by
    rw [← hs]
    exact congrArg Prod.fst hcontents
  rw [findSeqNum]
  split_ifs with hguess
  · refine ⟨_, rfl, ?_⟩
    rintro ⟨hle, rfl⟩
    have hfind : h.findSeqNum 0 = some (h.guessIndex 0) := by
      rw [findSeqNum, if_pos hguess]
    have hlt := (he.findSeqNum_lt hfind).1
    have hsome : log.packets ≠ [] := by
      rintro hnil
      rw [hnil] at hj
      exact Nat.not_lt_zero _ hj
    have hfirst := he.guessIndex_lt hsome (by omega)
    omega
  · have hmem : ∃ slot ∈ h.slots, decide (slot.seqNum = s) = true :=
      ⟨slot, List.mem_of_getElem? hslot, by simpa using hseq⟩
    obtain ⟨index, hindex⟩ := Option.isSome_iff_exists.mp
      (by rw [List.findIdx?_isSome]; exact List.any_eq_true.mpr hmem)
    refine ⟨index, hindex, ?_⟩
    rintro ⟨hle, rfl⟩
    obtain ⟨hlt, _, hbefore⟩ := List.findIdx?_eq_some_iff_getElem.mp hindex
    -- the packet's slot comes before every blank one
    rw [Nat.mod_eq_of_lt (by omega)] at hslot
    obtain ⟨hjlt, hget⟩ := List.getElem?_eq_some_iff.mp hslot
    have hno := hbefore j (by omega)
    rw [hget] at hno
    exact hno (by simpa using hseq)

theorem mem_recent (he : h.Enabled log) :
    p ∈ log.recent ↔ ∃ j, log.packets.length ≤ j + h.slots.length ∧
      log.packets[j]? = some p := by
  rw [HistoryLog.recent, mem_lastEntries, he.length_slots]

/-- The slot that is found for a packet among the last ones holds it, if these
have distinct sequence numbers. -/
theorem findSeqNum_of_mem (he : h.Enabled log)
    (hnodup : (log.recent.map StoredPacket.seqNum).Nodup)
    (hp : p ∈ log.recent) :
    ∃ index, h.findSeqNum p.seqNum = some index ∧
      (h.slots.getD index {}).contents = p.contents := by
  obtain ⟨j, hrecent, hj⟩ := he.mem_recent.mp hp
  obtain ⟨index, hindex, hwritten⟩ := he.findSeqNum_of_recent hrecent hj rfl
  obtain ⟨hlt, hseq⟩ := he.findSeqNum_lt hindex
  refine ⟨index, hindex, ?_⟩
  obtain ⟨hle, hzero, _⟩ | ⟨i, _, q, hq, hiN, _, hcontents⟩ := he.slot hlt
  · exact absurd ⟨hle, hseq.symm.trans hzero⟩ hwritten
  · have hkey : q.seqNum = p.seqNum := by
      rw [← hseq]
      exact (congrArg Prod.fst hcontents).symm
    rw [he.length_slots] at hiN hrecent
    have heq := eq_of_nodup_lastEntries hnodup hiN hrecent hq hj hkey
    rw [heq, hj, Option.some_inj] at hq
    rw [hcontents, hq]

theorem mem_of_findSeqNum (he : h.Enabled log)
    (hfind : h.findSeqNum s = some index)
    (hlength : (h.slots.getD index {}).length ≠ 0) :
    ∃ p ∈ log.recent, p.seqNum = s ∧
      (h.slots.getD index {}).contents = p.contents := by
  obtain ⟨hlt, hseq⟩ := he.findSeqNum_lt hfind
  obtain ⟨_, _, hzero⟩ | ⟨j, _, p, hp, hrecent, _, hcontents⟩ := he.slot hlt
  · exact absurd hzero hlength
  · refine ⟨p, he.mem_recent.mpr ⟨j, hrecent, hp⟩, ?_, hcontents⟩
    rw [← hseq]
    exact (congrArg Prod.fst hcontents).symm

theorem hasRTPPacket_iff (he : h.Enabled log)
    (hnodup : (log.recent.map StoredPacket.seqNum).Nodup) :
    h.hasRTPPacket s = true ↔ ∃ p ∈ log.recent, p.seqNum = s := by
  rw [hasRTPPacket, if_neg (not_not.mpr he.store)]
  constructor
  · intro hhas
    split at hhas
    · simp at hhas
    · rename_i index hfind
      have hlength : (h.slots.getD index {}).length ≠ 0 := by
        intro hzero
        dsimp only at hhas
        rw [hzero] at hhas
        simp at hhas
      obtain ⟨p, hp, hseq, _⟩ := he.mem_of_findSeqNum hfind hlength
      exact ⟨p, hp, hseq⟩
  · rintro ⟨p, hp, rfl⟩
    obtain ⟨index, hindex, hcontents⟩ := he.findSeqNum_of_mem hnodup hp
    rw [hindex]
    have hlength : (h.slots.getD index {}).length = p.packet.length :=
      congrArg (·.2.1) hcontents
    obtain ⟨hpos, hfits⟩ := he.packet_fits p (List.mem_of_mem_drop hp)
    have hlongest := he.longest
    dsimp only
    rw [hlength]
    simp only [Bool.not_eq_true', decide_eq_false_iff_not]
    omega

theorem getPacketAndSetSendTime_eq (he : h.Enabled log)
    {minElapsedTimeMs : ℕ} {retransmit : Bool} {now sendTime : ℤ}
    {r : List UInt8 × ℕ × ℤ}
    (hget : (h.getPacketAndSetSendTime s minElapsedTimeMs retransmit now
      sendTime).2 = some r) :
    ∃ p ∈ log.recent, p.seqNum = s ∧
      r = (p.packet, p.packet.length, p.time) := by
  rw [getPacketAndSetSendTime, if_neg (not_not.mpr he.store)] at hget
  split at hget
  · simp at hget
  · rename_i index hfind
    dsimp only at hget
    split_ifs at hget with hlength
    obtain ⟨p, hp, hseq, hcontents⟩ := he.mem_of_findSeqNum hfind hlength
    refine ⟨p, hp, hseq, ?_⟩
    have hlt := (he.findSeqNum_lt hfind).1
    rw [Option.some_inj] at hget
    rw [← hget, getPacket]
    dsimp only
    rw [List.getD_eq_getElem _ _ (by rwa [List.length_set]),
      List.getElem_set_self]
    calc
      ((h.slots.getD index {}).packet.take (h.slots.getD index {}).length,
          (h.slots.getD index {}).length, (h.slots.getD index {}).time) =
          ((h.slots.getD index {}).contents.2.2.1,
            (h.slots.getD index {}).contents.2.1,
            (h.slots.getD index {}).contents.2.2.2) := rfl
      _ = (p.packet, p.packet.length, p.time) := by
        rw [hcontents]
        rfl

end Enabled

/-- After any calls, a lookup finds the packets that are still among the last
ones, if these have distinct sequence numbers, and returns what was stored. -/
theorem lookup_of_run (calls : List Call) (hrun : run calls = some h)
    (hnodup : ((recentPackets calls).map StoredPacket.seqNum).Nodup) :
    (∀ s, h.hasRTPPacket s = true ↔
      ∃ p ∈ recentPackets calls, p.seqNum = s) ∧
    ∀ s minElapsedTimeMs retransmit now sendTime r,
      (h.getPacketAndSetSendTime s minElapsedTimeMs retransmit now
        sendTime).2 = some r →
      ∃ p ∈ recentPackets calls, p.seqNum = s ∧
        r = (p.packet, p.packet.length, p.time) := by
  have hrecords := records_of_run hrun
  unfold recentPackets at hnodup ⊢
  cases hlog : HistoryLog.ofCalls calls with
  | none =>
    rw [hlog] at hrecords
    rw [show h = {} from hrecords]
    constructor
    · intro s
      simp [hasRTPPacket]
    · intro s minElapsedTimeMs retransmit now sendTime r hget
      simp [getPacketAndSetSendTime] at hget
  | some log =>
    rw [hlog] at hrecords hnodup
    constructor
    · intro s
      exact Enabled.hasRTPPacket_iff hrecords hnodup
    · intro s minElapsedTimeMs retransmit now sendTime r hget
      exact Enabled.getPacketAndSetSendTime_eq hrecords hget

/-- Across the wrap, with the number 0 in the middle of a history that is not
yet full. -/
theorem lookup_of_run_wrapped :
    (match run [.setStorePacketsStatus true 4,
        .putRTPPacket [128, 96, 255, 255, 7] 8 10 .kAllowRetransmission 50,
        .putRTPPacket [128, 96, 0, 0] 8 0 .kAllowRetransmission 60,
        .putRTPPacket [128, 96, 0, 1, 9] 8 30 .kDontRetransmit 70] with
      | none => false
      | some h => h.hasRTPPacket 0) = true := by
  have hlookup := lookup_of_run
    [.setStorePacketsStatus true 4,
      .putRTPPacket [128, 96, 255, 255, 7] 8 10 .kAllowRetransmission 50,
      .putRTPPacket [128, 96, 0, 0] 8 0 .kAllowRetransmission 60,
      .putRTPPacket [128, 96, 0, 1, 9] 8 30 .kDontRetransmit 70] rfl
    (by decide)
  exact (hlookup.1 0).mpr ⟨⟨[128, 96, 0, 0], 60⟩, by decide, by decide⟩

/-! ## Sending again -/

open RtpHeaderParser

/-- `ReSendPacket` without a pacer, and what `PrepareAndSendPacket` puts on the
network. -/
def reSendPacket (h : RTPPacketHistory) (s : RTPSender) (packetId : UInt16)
    (minResendTime : ℕ) (sendOverRtx : Bool) (now sendTime : ℤ) (nowMs : ℕ) :
    RTPPacketHistory × RTPSender × Option (List UInt8) :=
  match h.getPacketAndSetSendTime packetId minResendTime true now sendTime with
  | (h, none) => (h, s, none)
  | (h, some (packet, _, captureTimeMs)) =>
    let buffer : Buffer := .ofList packet fun _ => 0
    let header := (parse buffer none {}).2
    let rtx := s.buildRtxPacket buffer
    let (packet, s) := if sendOverRtx then (rtx.1, rtx.2.2) else (packet, s)
    let packet :=
      s.updateTransmissionTimeOffset packet header (nowMs - captureTimeMs)
    (h, s, some (s.updateAbsoluteSendTime packet header nowMs))

/-- After any calls, what is sent again over RTX is restored to the packet that
was stored under the number, if no extension holds a time. -/
theorem restore_reSendPacket (calls : List Call) (s : RTPSender)
    (r : RTPPayloadRegistry) (map : Option RtpHeaderExtensionMap)
    (packetId : UInt16) (minResendTime nowMs : ℕ) (now sendTime : ℤ)
    (sent : List UInt8) (beyond : ℕ → UInt8) (hrun : run calls = some h)
    (hstored : ∀ p ∈ recentPackets calls,
      (parse (.ofList p.packet fun _ => 0) none {}).1 = true ∧
        p.packet.length + kRtxHeaderSize ≤ IP_PACKET_SIZE)
    (hext : ∀ type ≠ .kRtpExtensionAudioLevel,
      s.rtpHeaderExtensionMap.getId type = none)
    (hpt : s.payloadTypeRtx = -1 ∨
      0 ≤ s.payloadTypeRtx ∧ s.payloadTypeRtx < 128)
    (hr : r.payloadTypeRtx = s.payloadTypeRtx)
    (hsent : (h.reSendPacket s packetId minResendTime true now sendTime
      nowMs).2.2 = some sent) :
    ∃ p ∈ recentPackets calls, p.seqNum = packetId ∧
      let header := (parse (.ofList p.packet fun _ => 0) none {}).2
      let received := parse (.ofList sent beyond) map {}
      let result := r.restoreOriginalPacket (.ofList sent beyond) header.ssrc
        received.2
      r.incomingPayloadType = header.payloadType.toNat →
        received.1 = true ∧ result.ok = true ∧ result.packet = p.packet := by
  have hrecords := records_of_run hrun
  unfold recentPackets at hstored ⊢
  unfold reSendPacket at hsent
  split at hsent
  · cases hsent
  next hget =>
  cases hlog : HistoryLog.ofCalls calls with
  | none =>
    rw [hlog] at hrecords
    rw [show h = {} from hrecords] at hget
    cases hget
  | some log =>
    rw [hlog] at hrecords hstored
    obtain ⟨p, hp, hseq, heq⟩ :=
      Enabled.getPacketAndSetSendTime_eq hrecords (congrArg Prod.snd hget)
    cases heq
    obtain ⟨haccepted, hsize⟩ := hstored p hp
    have hrtx : (s.buildRtxPacket (.ofList p.packet fun _ => 0)).1 = sent := by
      simpa [RTPSender.updateTransmissionTimeOffset, hext,
        RTPSender.updateAbsoluteSendTime, RTPSender.updateBlock,
        RTPSender.findBlock, RTPSender.buildRtxPacket] using hsent
    subst hrtx
    refine ⟨p, hp, hseq, fun hincoming => ?_⟩
    obtain ⟨hreceived, hok, hpacket, -⟩ := restore_buildRtxPacket
      (parse_fst.mp haccepted) (hsize.trans_lt (by decide)) hpt hr hincoming
    exact ⟨hreceived, hok, hpacket⟩

theorem restore_reSendPacket_stored :
    ∃ p ∈ recentPackets [.setStorePacketsStatus true 4,
        .putRTPPacket storedPacket 1500 0 .kAllowRetransmission 50],
      p.seqNum = 17 := by
  obtain ⟨p, hp, hseq, -⟩ := restore_reSendPacket
    [.setStorePacketsStatus true 4,
      .putRTPPacket storedPacket 1500 0 .kAllowRetransmission 50]
    { rtxSender with rtpHeaderExtensionMap := .empty }
    ⟨97, 96⟩ none 17 0 70 60 60 _ (fun _ => 0) rfl (by decide)
    (fun _ _ => rfl) (by decide) rfl rfl
  exact ⟨p, hp, hseq⟩

end RTPPacketHistory

end WebrtcWinXp.Rtp
