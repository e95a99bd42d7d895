import WebrtcWinXp.Support.Transition
import WebrtcWinXp.Tmmbr.Tracking

/-!
# Runs of the RTCP receiver

The receiver beside a log of the requests of every remote, which forgets the
requests of a remote when a silence time-out clears or deletes it.  The tables
follow the log until a time-out clears a remote that has requests: then the
times stay behind.
-/

namespace WebrtcWinXp.Tmmbr

open Support

structure Logged where
  receiver : RTCPReceiver
  /-- The requests of each remote that were received and not cleared since,
  the last one first. -/
  log : ℕ → List Request

inductive Event where
  | time (ms : ℕ)
  | senderReceiverReport (remoteSSRC : ℕ)
  | bye (senderSSRC : ℕ)
  | tmmbr (senderSSRC mediaSSRC maxBlocks : ℕ) (items : List TMMBRItem)
  | updateTimers
  | query (size accNumCandidates : ℕ) (candidateSet : TMMBRSet)

namespace RTCPReceiver

variable (s : RTCPReceiver)

def logItems (ssrc : ℕ) (items : List TMMBRItem) (log : List Request) :
    List Request :=
  items.foldl
    (fun log item =>
      if s.accepts item then
        ⟨RTCPReceiveInformation.element ssrc item, s.now⟩ :: log
      else log)
    log

/-- A remote whose requests are forgotten: one that is reset after a silence,
and one that is deleted. -/
def forgets (info : RTCPReceiveInformation) : Bool :=
  if info.lastTimeReceived ≠ 0 then s.silent info else info.readyForDelete

end RTCPReceiver

def step (s : Logged) : Event → Option Logged
  | .time ms =>
    some
      { s with
        receiver :=
          { s.receiver with
            now := s.receiver.now + ms } }
  | .senderReceiverReport remoteSSRC =>
    some
      { s with
        receiver := s.receiver.handleSenderReceiverReport remoteSSRC }
  | .bye senderSSRC =>
    some
      { s with
        receiver := s.receiver.handleBYE senderSSRC }
  | .tmmbr senderSSRC mediaSSRC maxBlocks items =>
    some
      { receiver :=
          s.receiver.handleTMMBR senderSSRC mediaSSRC maxBlocks items
        log := fun k =>
          if k = senderSSRC ∧ maxBlocks ≤ 200 ∧
              (s.receiver.receivedInfoMap.find k).isSome then
            s.receiver.logItems
              (RTCPReceiver.requestSsrc senderSSRC mediaSSRC) items (s.log k)
          else s.log k }
  | .updateTimers =>
    some
      { receiver := s.receiver.updateRTCPReceiveInformationTimers
        log := fun k =>
          if (s.receiver.receivedInfoMap.find k).any s.receiver.forgets then []
          else s.log k }
  | .query size accNumCandidates candidateSet =>
    some
      { s with
        receiver := (s.receiver.tmmbrReceived size accNumCandidates
          candidateSet).2.1 }

def Started (s : Logged) : Prop :=
  s.receiver.receivedInfoMap.entries = [] ∧ ∀ k, s.log k = []

/-- There is a time for each entry, and it is the time of the last request of
that SSRC. -/
def Tracks (log : List Request) (info : RTCPReceiveInformation) : Prop :=
  info.tmmbrSetTimeouts.length = info.tmmbrSet.lengthOfSet ∧
    ∀ i < info.tmmbrSet.lengthOfSet, ∃ q ∈ latest log,
      info.tmmbrSet.entries[i]? = some q.element ∧
        info.tmmbrSetTimeouts[i]? = some q.time

def AllTracked (s : Logged) : Prop :=
  ∀ e ∈ s.receiver.receivedInfoMap.entries, Tracks (s.log e.1) e.2

def liveRequests (s : Logged) : List SetElement :=
  liveIn s.receiver.now s.log s.receiver.receivedInfoMap.entries

/-- There is room for the live requests of all remotes. -/
def SizeAllows (s : Logged) (size accNumCandidates : ℕ)
    (candidateSet : TMMBRSet) : Prop :=
  accNumCandidates + (liveRequests s).length ≤ size ∧
    size ≤ candidateSet.sizeOfSet

/-- The candidates that a query adds are the live requests of all remotes. -/
def CollectsLive (s : Logged) (size accNumCandidates : ℕ)
    (candidateSet : TMMBRSet) : Prop :=
  let (num, _, candidateSet) :=
    s.receiver.tmmbrReceived size accNumCandidates candidateSet
  ((candidateSet.data.drop accNumCandidates).take
    (num - accNumCandidates).toNat).Perm (liveRequests s)

/-- Remotes that a time-out resets have no requests. -/
def ClearsNothing (s : Logged) : Prop :=
  ∀ e ∈ s.receiver.receivedInfoMap.entries, e.2.lastTimeReceived ≠ 0 →
    s.receiver.silent e.2 → e.2.tmmbrSet.lengthOfSet = 0

/-- At no remote, the query leaves out a live request behind one that has timed
out. -/
def LeavesOutNothing (s : Logged) : Prop :=
  ∀ e ∈ s.receiver.receivedInfoMap.entries,
    SkipsNothing s.receiver.now e.2.requests

def Careful (s : Logged) : Event → Prop
  | .updateTimers => ClearsNothing s
  | .query size accNumCandidates candidateSet =>
    SizeAllows s size accNumCandidates candidateSet → LeavesOutNothing s
  | _ => True

/-- Every table is right, and nothing is logged for a remote that is not
known. -/
structure Inv (s : Logged) : Prop where
  tracked : ∀ k info, (k, info) ∈ s.receiver.receivedInfoMap.entries →
    Tracked s.receiver.now (s.log k) info
  unknown : ∀ k, s.receiver.receivedInfoMap.find k = none → s.log k = []

theorem Started.inv {s : Logged} (h : Started s) : Inv s := by
  refine ⟨fun k info hmem => ?_, fun k _ => h.2 k⟩
  rw [h.1] at hmem
  cases hmem

theorem Tracked.empty (now : ℕ) : Tracked now [] {} :=
  ⟨rfl, .nil now⟩

variable {now : ℕ} {log : List Request} {info : RTCPReceiveInformation}

theorem Tracked.later {now' : ℕ} (h : Tracked now log info)
    (hle : now ≤ now') : Tracked now' log info :=
  ⟨h.inStep, h.records.later hle⟩

theorem Tracked.congr
    {info' : RTCPReceiveInformation} (h : Tracked now log info)
    (hset : info'.tmmbrSet = info.tmmbrSet)
    (htimes : info'.tmmbrSetTimeouts = info.tmmbrSetTimeouts) :
    Tracked now log info' := by
  refine ⟨?_, ?_⟩
  · rw [RTCPReceiveInformation.InStep, hset, htimes]
    exact h.inStep
  · rw [RTCPReceiveInformation.requests, hset, htimes]
    exact h.records

theorem tracked_handleItems (s : RTCPReceiver) (ssrc : ℕ)
    {items : List TMMBRItem} (h : Tracked s.now log info) :
    Tracked s.now (s.logItems ssrc items log)
      (items.foldl (s.handleTMMBRItem ssrc) info) := by
  induction items generalizing log info with
  | nil => exact h
  | cons item items ih =>
    rw [RTCPReceiver.logItems, List.foldl_cons, List.foldl_cons]
    refine ih ?_
    unfold RTCPReceiver.handleTMMBRItem
    split_ifs
    · obtain ⟨hin, hrequests⟩ :=
        h.inStep.insertTMMBRItem ssrc item s.now
      refine ⟨hin, ?_⟩
      rw [hrequests]
      exact h.records.upsert _
    · exact h

/-! ### Steps -/

variable {s' : Logged}

theorem Inv.time {s : Logged} {ms : ℕ} (h : Inv s)
    (hstep : step s (.time ms) = some s') : Inv s' := by
  cases hstep
  exact ⟨fun k info hmem => (h.tracked k info hmem).later
    (Nat.le_add_right _ _), h.unknown⟩

theorem Inv.senderReceiverReport {s : Logged} {remoteSSRC : ℕ} (h : Inv s)
    (hstep : step s (.senderReceiverReport remoteSSRC) = some s') :
    Inv s' := by
  cases hstep
  refine ⟨fun k info hmem => ?_, fun k hnone => h.unknown k ?_⟩
  · obtain ⟨info', hmem', rfl⟩ := OrderedMap.mem_mapValues _ |>.mp hmem
    have htracked : Tracked s.receiver.now (s.log k) info' := by
      rcases OrderedMap.mem_insert _ hmem' with ⟨heq, hnone⟩ | hmem'
      · cases heq
        rw [h.unknown _ hnone]
        exact .empty _
      · exact h.tracked k info' hmem'
    split_ifs
    · exact htracked.congr rfl rfl
    · exact htracked
  · rw [OrderedMap.find_eq_none_iff] at hnone ⊢
    exact fun info hmem => hnone _ (OrderedMap.mem_mapValues _ |>.mpr
      ⟨info, OrderedMap.mem_insert_of_mem _ hmem, rfl⟩)

theorem Inv.bye {s : Logged} {senderSSRC : ℕ} (h : Inv s)
    (hstep : step s (.bye senderSSRC) = some s') : Inv s' := by
  cases hstep
  refine ⟨fun k info hmem => ?_, fun k hnone => h.unknown k ?_⟩
  · obtain ⟨info', hmem', rfl⟩ := OrderedMap.mem_mapValues _ |>.mp hmem
    split_ifs
    · exact (h.tracked k info' hmem').congr rfl rfl
    · exact h.tracked k info' hmem'
  · rw [OrderedMap.find_eq_none_iff] at hnone ⊢
    exact fun info hmem => hnone _ (OrderedMap.mem_mapValues _ |>.mpr
      ⟨info, hmem, rfl⟩)

theorem Inv.tmmbr {s : Logged} {senderSSRC mediaSSRC maxBlocks : ℕ}
    {items : List TMMBRItem} (h : Inv s)
    (hstep : step s (.tmmbr senderSSRC mediaSSRC maxBlocks items) = some s') :
    Inv s' := by
  cases hstep
  by_cases hblocks : maxBlocks > 200
  · have hlog : ∀ k, ¬(k = senderSSRC ∧ maxBlocks ≤ 200 ∧
        (s.receiver.receivedInfoMap.find k).isSome) := fun k hk => by omega
    simp only [RTCPReceiver.handleTMMBR, if_pos hblocks, if_neg (hlog _)]
    exact h
  simp only [RTCPReceiver.handleTMMBR, if_neg hblocks]
  refine ⟨fun k info hmem => ?_, fun k hnone => ?_⟩
  · obtain ⟨info', hmem', rfl⟩ := OrderedMap.mem_mapValues _ |>.mp hmem
    have hfind := (OrderedMap.find_eq_some_iff _).mpr hmem'
    have htracked := h.tracked k info' hmem'
    dsimp only
    by_cases hk : k = senderSSRC
    · rw [if_pos hk, if_pos ⟨hk, Nat.not_lt.mp hblocks, by rw [hfind]; rfl⟩]
      obtain ⟨hin, hrequests⟩ :=
        htracked.inStep.verifyAndAllocateTMMBRSet maxBlocks
      exact tracked_handleItems s.receiver _
        ⟨hin, hrequests.symm ▸ htracked.records⟩
    · rw [if_neg hk, if_neg fun hk' => hk hk'.1]
      exact htracked
  · have hnone' : s.receiver.receivedInfoMap.find k = none := by
      rw [OrderedMap.find_eq_none_iff] at hnone ⊢
      exact fun info hmem => hnone _ (OrderedMap.mem_mapValues _ |>.mpr
        ⟨info, hmem, rfl⟩)
    dsimp only
    rw [if_neg fun hk => by rw [hnone'] at hk; cases hk.2.2]
    exact h.unknown k hnone'

theorem Tracked.cleared (h : Tracked now log info)
    (hempty : info.tmmbrSet.lengthOfSet = 0) :
    Tracked now []
      { info with
        tmmbrSet := info.tmmbrSet.clearSet
        lastTimeReceived := 0 } := by
  refine ⟨h.inStep.trans hempty, ?_⟩
  rw [RTCPReceiveInformation.requests]
  dsimp only
  rw [TMMBRSet.entries_clearSet]
  exact .nil now

theorem updateTimer_cases {s : RTCPReceiver}
    {info' : RTCPReceiveInformation}
    (h : s.updateTimer info = some info') :
    (info.lastTimeReceived ≠ 0 ∧ s.silent info ∧ s.forgets info ∧
      info' =
        { info with
          tmmbrSet := info.tmmbrSet.clearSet
          lastTimeReceived := 0 }) ∨
    (s.forgets info = false ∧ info' = info) := by
  unfold RTCPReceiver.updateTimer at h
  unfold RTCPReceiver.forgets
  split_ifs at h with hlast hsilent hdelete
  · rw [if_pos hlast]
    exact .inl ⟨hlast, hsilent, hsilent, (Option.some_inj.mp h).symm⟩
  · rw [if_pos hlast]
    exact .inr ⟨eq_false_of_ne_true hsilent, (Option.some_inj.mp h).symm⟩
  · rw [if_neg hlast]
    exact .inr ⟨eq_false_of_ne_true hdelete, (Option.some_inj.mp h).symm⟩

theorem forgets_of_updateTimer_eq_none {s : RTCPReceiver} (h : s.updateTimer info = none) :
    s.forgets info = true := by
  unfold RTCPReceiver.updateTimer at h
  unfold RTCPReceiver.forgets
  split_ifs at h with hlast hsilent hdelete
  rw [if_neg hlast]
  exact hdelete

theorem Inv.updateTimers {s : Logged} (h : Inv s) (hok : ClearsNothing s)
    (hstep : step s .updateTimers = some s') : Inv s' := by
  cases hstep
  refine ⟨fun k info' hmem => ?_, fun k hnone => ?_⟩
  · obtain ⟨info, hmem', hupdate⟩ :=
      OrderedMap.mem_filterMapValues _ |>.mp hmem
    have hfind := (OrderedMap.find_eq_some_iff _).mpr hmem'
    have htracked := h.tracked k info hmem'
    dsimp only
    rw [hfind, Option.any_some]
    rcases updateTimer_cases hupdate with
      ⟨hlast, hsilent, hforgets, rfl⟩ | ⟨hforgets, rfl⟩
    · rw [if_pos hforgets]
      exact htracked.cleared (hok (k, info) hmem' hlast hsilent)
    · rw [if_neg (ne_true_of_eq_false hforgets)]
      exact htracked
  · dsimp only
    cases hfind : s.receiver.receivedInfoMap.find k with
    | none =>
      rw [if_neg (by simp)]
      exact h.unknown k hfind
    | some info =>
      have hmem := (OrderedMap.find_eq_some_iff _).mp hfind
      have hupdate : s.receiver.updateTimer info = none := by
        rw [Option.eq_none_iff_forall_ne_some]
        intro info' hupdate
        rw [OrderedMap.find_eq_none_iff] at hnone
        exact hnone info' (OrderedMap.mem_filterMapValues _ |>.mpr
          ⟨info, hmem, hupdate⟩)
      rw [Option.any_some,
        if_pos (forgets_of_updateTimer_eq_none hupdate)]

theorem Inv.query {s : Logged} {size accNumCandidates : ℕ}
    {candidateSet : TMMBRSet} (h : Inv s)
    (hstep : step s (.query size accNumCandidates candidateSet) = some s') :
    Inv s' := by
  cases hstep
  by_cases hempty : s.receiver.receivedInfoMap.entries = []
  · simp only [RTCPReceiver.tmmbrReceived, if_pos hempty]
    exact h
  simp only [RTCPReceiver.tmmbrReceived, if_neg hempty]
  refine ⟨fun k info hmem => ?_, fun k hnone => h.unknown k ?_⟩
  · obtain ⟨info', hmem', htracked⟩ := OrderedMap.mem_walk _
      (P := fun k info info' => Tracked s.receiver.now (s.log k) info →
        Tracked s.receiver.now (s.log k) info')
      (fun _ _ _ h => RTCPReceiver.tracked_collectRemote h) hmem
    exact htracked (h.tracked k info' hmem')
  · rw [OrderedMap.find_eq_none_iff] at hnone ⊢
    intro info hmem
    obtain ⟨info', hmem'⟩ := OrderedMap.exists_mem_walk _
      (fun candidates _ info => RTCPReceiver.collectRemote size
        s.receiver.now candidates info) (accNumCandidates, candidateSet) hmem
    exact hnone info' hmem'

theorem Inv.careful {s : Logged} {e : Event} (h : Inv s) (hok : Careful s e)
    (hstep : step s e = some s') : Inv s' := by
  cases e with
  | time => exact h.time hstep
  | senderReceiverReport => exact h.senderReceiverReport hstep
  | bye => exact h.bye hstep
  | tmmbr => exact h.tmmbr hstep
  | updateTimers => exact h.updateTimers hok hstep
  | query => exact h.query hstep

theorem inv_of_reachable {s : Logged}
    (hs : ReachableVia Started step Careful s) : Inv s :=
  hs.invariant (fun _ => Started.inv) fun _ _ _ h hok hstep => h.careful hok hstep

theorem Tracked.tracks (h : Tracked now log info) :
    Tracks log info := by
  refine ⟨h.inStep, fun i hi => ?_⟩
  have hq := h.inStep.getElem?_requests hi
  refine ⟨_, h.records.latest _ (List.mem_of_getElem? hq), ?_, ?_⟩
  · have hentry : i < info.tmmbrSet.entries.length := by
      rwa [TMMBRSet.length_entries]
    simp [List.getElem?_eq_getElem hentry]
  · have htime : i < info.tmmbrSetTimeouts.length := by rwa [h.inStep]
    simp [List.getElem?_eq_getElem htime]

theorem Inv.allTracked {s : Logged} (h : Inv s) : AllTracked s :=
  fun e he => (h.tracked e.1 e.2 he).tracks

theorem Inv.collectsLive_iff {s : Logged} (h : Inv s)
    {size accNumCandidates : ℕ} {candidateSet : TMMBRSet}
    (hsize : SizeAllows s size accNumCandidates candidateSet) :
    CollectsLive s size accNumCandidates candidateSet ↔ LeavesOutNothing s := by
  have htracked : ∀ e ∈ s.receiver.receivedInfoMap.entries,
      Tracked s.receiver.now (s.log e.1) e.2 := fun e he =>
    h.tracked e.1 e.2 he
  rw [LeavesOutNothing, ← takenFrom_perm_iff htracked]
  have hle := length_takenFrom_le htracked
  have hlive := hsize.1
  rw [liveRequests] at hlive
  by_cases hempty : s.receiver.receivedInfoMap.entries = []
  · simp only [CollectsLive, RTCPReceiver.tmmbrReceived, if_pos hempty]
    have hneg : (-1 - (accNumCandidates : ℤ)).toNat = 0 := by omega
    rw [hneg, List.take_zero, liveRequests, hempty]
    rfl
  have hroom : accNumCandidates + (RTCPReceiver.takenFrom s.receiver.now
      s.receiver.receivedInfoMap.entries).length ≤ size := by
    omega
  have hwalk := RTCPReceiver.walkEntries_collectRemote
    (fun e he => (htracked e he).inStep) hroom hsize.2
  simp only [CollectsLive, RTCPReceiver.tmmbrReceived, if_neg hempty,
    OrderedMap.walk, hwalk]
  have hcount : ∀ n : ℕ,
      (((accNumCandidates + n : ℕ) : ℤ) - accNumCandidates).toNat = n := by
    omega
  rw [hcount, TMMBRSet.take_drop_fill (hroom.trans hsize.2)]
  rfl

theorem Inv.allTracked_updateTimers_iff {s : Logged} (h : Inv s)
    (hstep : step s .updateTimers = some s') :
    AllTracked s' ↔ ClearsNothing s := by
  refine ⟨fun htracks e he hlast hsilent => ?_,
    fun hok => (h.updateTimers hok hstep).allTracked⟩
  cases hstep
  have hupdate : s.receiver.updateTimer e.2 =
      some
        { e.2 with
          tmmbrSet := e.2.tmmbrSet.clearSet
          lastTimeReceived := 0 } := by
    rw [RTCPReceiver.updateTimer, if_pos hlast, if_pos hsilent]
  have hlength := (htracks (e.1, _) (OrderedMap.mem_filterMapValues _ |>.mpr
    ⟨e.2, he, hupdate⟩)).1
  exact (h.tracked e.1 e.2 he).inStep.symm.trans hlength

/-- In a run whose steps are careful the times follow the entries, and a query
collects the live requests exactly if it leaves out none; the next time-out
keeps the times in step exactly if it clears nothing. -/
theorem tracks_and_collects {s : Logged}
    (hs : ReachableVia Started step Careful s) :
    AllTracked s ∧
      (∀ size accNumCandidates candidateSet,
        SizeAllows s size accNumCandidates candidateSet →
          (CollectsLive s size accNumCandidates candidateSet ↔
            LeavesOutNothing s)) ∧
      ∀ s', step s .updateTimers = some s' →
        (AllTracked s' ↔ ClearsNothing s) := by
  have hinv := inv_of_reachable hs
  exact ⟨hinv.allTracked, fun _ _ _ hsize => hinv.collectsLive_iff hsize,
    fun _ hstep => hinv.allTracked_updateTimers_iff hstep⟩

def start : Logged where
  receiver := ⟨.empty, 1, 0⟩
  log := fun _ => []

theorem started_start : Started start := ⟨rfl, fun _ => rfl⟩

/-- A remote with the SSRC 7 asks for a bitrate. -/
def request (mediaSSRC maxTotalMediaBitRate : ℕ) : Event :=
  .tmmbr 7 mediaSSRC 1 [⟨1, maxTotalMediaBitRate, 40⟩]

def sampleCandidates : TMMBRSet := TMMBRSet.empty.verifyAndAllocateSet 2

/-- A remote is silent for 30 seconds after its request. -/
def silentRemote : List Event :=
  [.time 1000, .senderReceiverReport 7, request 0 300, .time 30000,
    .updateTimers]

theorem execute_silentRemote :
    ((execute step start silentRemote).map fun s =>
      s.receiver.receivedInfoMap.entries.map fun e =>
        (e.2.tmmbrSetTimeouts, e.2.tmmbrSet.lengthOfSet)) =
      some [([1000], 0)] := by
  decide

/-- A relay passes on a request 20 seconds after another one, and both are
collected 10 seconds later. -/
def relayedRequests : List Event :=
  [.time 1000, .senderReceiverReport 7, request 21 300, .time 20000,
    request 22 400, .time 10000]

theorem execute_relayedRequests :
    ((execute step start relayedRequests).map fun s =>
      ((s.receiver.tmmbrReceived 2 0 sampleCandidates).1, liveRequests s)) =
      some (0, [⟨400, 40, 22⟩]) := by
  decide

/-- A time-out leaves a time without an entry, and a query skips the live
request behind one that has timed out. -/
theorem not_tracks_and_not_collects :
    (∃ s, Reachable Started step s ∧ ¬AllTracked s) ∧
      ∃ s, Reachable Started step s ∧ SizeAllows s 2 0 sampleCandidates ∧
        ¬CollectsLive s 2 0 sampleCandidates := by
  constructor
  · obtain ⟨s, hs, hview⟩ := Option.map_eq_some_iff.mp execute_silentRemote
    refine ⟨s, reachable_of_execute started_start hs, fun htracked => ?_⟩
    obtain ⟨e, he, hpair⟩ := List.mem_map.mp
      (hview.symm ▸ List.mem_singleton_self _)
    obtain ⟨htimes, hlength⟩ := Prod.mk.inj hpair
    have hstep := (htracked e he).1
    rw [htimes, hlength] at hstep
    cases hstep
  · obtain ⟨s, hs, hview⟩ := Option.map_eq_some_iff.mp execute_relayedRequests
    obtain ⟨hnum, hlive⟩ := Prod.mk.inj hview
    refine ⟨s, reachable_of_execute started_start hs, ?_, fun hcollects => ?_⟩
    · rw [SizeAllows, hlive]
      decide
    · have hperm : ((((s.receiver.tmmbrReceived 2 0
          sampleCandidates).2.2.data.drop 0).take
            ((s.receiver.tmmbrReceived 2 0 sampleCandidates).1 -
              (0 : ℕ)).toNat).Perm (liveRequests s)) := hcollects
      have hlength := hperm.length_eq
      rw [hlive, hnum] at hlength
      cases hlength

def singleRequest : List Event :=
  [.time 1000, .senderReceiverReport 7, request 0 300, .time 10000]

theorem execute_singleRequest :
    ((execute step start singleRequest).map fun s =>
      (s.receiver.receivedInfoMap.entries.map fun e => e.2.requests,
        liveRequests s)) =
      some ([[⟨⟨300, 40, 7⟩, 1000⟩]], [⟨300, 40, 7⟩]) := by
  decide

theorem tracks_and_collects_singleRequest :
    ∃ s, execute step start singleRequest = some s ∧
      liveRequests s = [⟨300, 40, 7⟩] ∧ AllTracked s ∧
        CollectsLive s 2 0 sampleCandidates := by
  obtain ⟨s, hs, hview⟩ := Option.map_eq_some_iff.mp execute_singleRequest
  obtain ⟨hrequests, hlive⟩ := Prod.mk.inj hview
  have hreachable : ReachableVia Started step Careful s := by
    refine ReachableVia.execute_of_mem (.init started_start) hs ?_
    intro e he u
    simp only [singleRequest, request, List.mem_cons, List.not_mem_nil,
      or_false] at he
    rcases he with rfl | rfl | rfl | rfl <;> trivial
  obtain ⟨htracked, hcollects, -⟩ := tracks_and_collects hreachable
  refine ⟨s, hs, hlive, htracked, (hcollects 2 0 sampleCandidates ?_).mpr ?_⟩
  · rw [SizeAllows, hlive]
    decide
  · intro e he
    have hmem := List.mem_map_of_mem (f := fun e => e.2.requests) he
    rw [hrequests, List.mem_singleton] at hmem
    rw [hmem]
    trivial

end WebrtcWinXp.Tmmbr
