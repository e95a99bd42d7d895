import WebrtcWinXp.Fec.Producer

/-!
# The batches of media packets

The packets that the video sender adds are cut into batches of whole frames,
one for each call of `GenerateFEC`, and the packets that wait for the next
call.  The producer keeps the first `kMaxMediaPackets` of the waiting ones.
-/

namespace WebrtcWinXp.Fec

open Support

/-! ## Fetching -/

namespace ProducerFec

/-- Nothing is left over. -/
structure Emptied (s : ProducerFec) : Prop where
  mediaPacketsFec : s.mediaPacketsFec = []
  fecPackets : s.fecPackets = []
  numFrames : s.numFrames = 0

variable {s : ProducerFec}

theorem getFecPacket_length (h : s.fecAvailable) :
    s.getFecPacket.2.fecPackets.length < s.fecPackets.length := by
  unfold getFecPacket
  cases hfec : s.fecPackets with
  | nil => simp [fecAvailable, hfec] at h
  | cons p rest =>
    cases rest with
    | nil => simp
    | cons q rest => simp

theorem emptied_getFecPacket (h : s.fecAvailable)
    (hlast : s.getFecPacket.2.fecPackets = []) : s.getFecPacket.2.Emptied := by
  unfold getFecPacket at hlast ⊢
  cases hfec : s.fecPackets with
  | nil => simp [fecAvailable, hfec] at h
  | cons p rest =>
    rw [hfec] at hlast
    cases rest with
    | nil => exact ⟨rfl, rfl, rfl⟩
    | cons q rest => simp at hlast

theorem getFecPacket_numFirstPartition :
    s.getFecPacket.2.numFirstPartition = s.numFirstPartition := by
  unfold getFecPacket
  cases s.fecPackets with
  | nil => rfl
  | cons p rest =>
    dsimp only
    split <;> rfl

theorem keepFecPackets_nil : (s.keepFecPackets []).Emptied :=
  ⟨rfl, rfl, rfl⟩

theorem keepFecPackets_of_ne_nil {fecPackets : List Packet}
    (h : fecPackets ≠ []) :
    s.keepFecPackets fecPackets = { s with fecPackets := fecPackets } :=
  if_neg fun hnil => h (List.isEmpty_iff.mp hnil)

theorem fetchFecPackets_of_eq_nil (h : s.fecPackets = []) :
    s.fetchFecPackets = s := by
  apply finish_of_eq_none
  simp [fecAvailable, h]

theorem fetchFecPackets_of_ne_nil (h : s.fecPackets ≠ []) :
    s.fetchFecPackets.Emptied ∧
      s.fetchFecPackets.numFirstPartition = s.numFirstPartition := by
  have hlower : Lowers
      (fun s : ProducerFec =>
        if s.fecAvailable then some s.getFecPacket.2 else none)
      (fun s => s.fecPackets.length) := by
    intro t u hround
    obtain ⟨havail, heq⟩ := Option.ite_none_right_eq_some.mp hround
    rw [← Option.some.inj heq]
    exact getFecPacket_length havail
  obtain ⟨⟨hempty, hfirst⟩, hend⟩ := finish_invariant hlower
    (P := fun t => (t.fecPackets = [] → t.Emptied) ∧
      t.numFirstPartition = s.numFirstPartition)
    (fun t u ht hround => by
      obtain ⟨havail, heq⟩ := Option.ite_none_right_eq_some.mp hround
      rw [← Option.some.inj heq]
      exact ⟨emptied_getFecPacket havail,
        getFecPacket_numFirstPartition.trans ht.2⟩)
    (s := s) ⟨fun hnil => absurd hnil h, rfl⟩
  refine ⟨hempty ?_, hfirst⟩
  rw [ite_eq_right_iff] at hend
  have hnone : ¬(finish _ _ s : ProducerFec).fecAvailable :=
    fun havail => by cases hend havail
  rw [fecAvailable, decide_eq_true_iff, not_lt, Nat.le_zero] at hnone
  exact List.eq_nil_of_length_eq_zero hnone

theorem emptied_fetchFecPackets (fecPackets : List Packet) :
    (s.keepFecPackets fecPackets).fetchFecPackets.Emptied ∧
      (s.keepFecPackets fecPackets).fetchFecPackets.numFirstPartition =
        s.numFirstPartition := by
  by_cases hnil : fecPackets = []
  · rw [hnil, fetchFecPackets_of_eq_nil keepFecPackets_nil.fecPackets]
    exact ⟨keepFecPackets_nil, rfl⟩
  · rw [keepFecPackets_of_ne_nil hnil]
    exact fetchFecPackets_of_ne_nil hnil

end ProducerFec

/-- What `GenerateFEC` asks of its arguments, with the bound that the producer
has for the number of important packets. -/
structure GenerateCall.Ready (call : GenerateCall) : Prop where
  mediaPacketList_ne_nil : call.mediaPacketList ≠ []
  mediaPacketList_le : call.mediaPacketList.length ≤ kMaxMediaPackets
  numImportantPackets_le : call.numImportantPackets ≤ kMaxMediaPackets
  fecPacketList_eq_nil : call.fecPacketList = []

section Call

variable {undefinedShift : UndefinedShift} {table : MaskTable}

theorem GenerateCall.run_of_ne_zero {call : GenerateCall}
    (h : (call.run undefinedShift table).1 ≠ 0) :
    (call.run undefinedShift table).2 = call.fecPacketList := by
  revert h
  unfold GenerateCall.run
  split
  · exact fun _ => rfl
  · split
    · exact fun _ => rfl
    · exact fun h => absurd rfl h

end Call

def ProducerEvent.Divides : ProducerEvent → Prop
  | .generate _ => False
  | .divide divisor => divisor ≠ 0

theorem filterMap_call?_of_divides {l : List ProducerEvent}
    (h : ∀ e ∈ l, e.Divides) : l.filterMap ProducerEvent.call? = [] := by
  rw [List.filterMap_eq_nil_iff]
  intro e he
  cases e with
  | generate call => exact (h _ he).elim
  | divide divisor => rfl

theorem ne_zero_of_mem_divisors {l : List ProducerEvent}
    (h : ∀ e ∈ l, e.Divides) {divisor : ℕ}
    (hmem : divisor ∈ l.filterMap ProducerEvent.divisor?) : divisor ≠ 0 := by
  obtain ⟨e, he, heq⟩ := List.mem_filterMap.mp hmem
  cases e with
  | generate call => cases heq
  | divide d =>
    rw [← Option.some.inj heq]
    exact h _ he

namespace ProducerFec

variable {s : ProducerFec} {p : Packet}

theorem addPacket_mediaPacketsFec {current : List Packet}
    (h : s.mediaPacketsFec = current.take kMaxMediaPackets) :
    (s.addPacket p).mediaPacketsFec =
      (current ++ [p]).take kMaxMediaPackets := by
  unfold addPacket
  dsimp only
  rw [h, List.length_take, List.take_append]
  by_cases hlt : current.length < kMaxMediaPackets
  · obtain ⟨k, hk⟩ : ∃ k, kMaxMediaPackets - current.length = k + 1 :=
      ⟨kMaxMediaPackets - current.length - 1, by omega⟩
    rw [if_pos (by omega), hk, List.take_succ_cons, List.take_nil]
  · have hzero : kMaxMediaPackets - current.length = 0 := by omega
    rw [if_neg (by omega), hzero, List.take_zero, List.append_nil]

theorem addPacket_numFrames {current : List Packet}
    (h : s.numFrames = current.countP Packet.marker) :
    (s.addPacket p).numFrames = (current ++ [p]).countP Packet.marker := by
  unfold addPacket
  dsimp only
  rw [h, List.countP_append, List.countP_singleton]
  split <;> rfl

theorem excessOverheadBelowMax_all (hmedia : s.mediaPacketsFec ≠ []) :
    s.excessOverheadBelowMax.All ProducerEvent.Divides :=
  (Traced.all_bind _ _).mpr
    ⟨(Traced.all_touch _ _).mpr
      fun h => hmedia (List.eq_nil_of_length_eq_zero h), Traced.all_pure _⟩

theorem produceNow_meets (hmedia : s.mediaPacketsFec ≠ [])
    (hframes : s.incompleteFrame = false → s.numFrames ≠ 0) :
    s.produceNow.Meets ProducerEvent.Divides
      fun now => now = true → s.incompleteFrame = false := by
  unfold produceNow
  split
  · exact (Traced.meets_pure _).mpr nofun
  · rename_i hcomplete
    rw [Bool.not_eq_true] at hcomplete
    split
    · exact (Traced.meets_pure _).mpr fun _ => hcomplete
    · rw [Traced.meets_bind]
      refine ⟨excessOverheadBelowMax_all hmedia, ?_⟩
      split
      · exact ⟨(Traced.all_touch _ _).mpr (hframes hcomplete),
          fun _ => hcomplete⟩
      · exact (Traced.meets_pure _).mpr nofun

end ProducerFec

section Send

variable {undefinedShift : UndefinedShift} {table : MaskTable}
  {s : ProducerFec} {p : Packet}

theorem sendVideoPacket_unprotected (hfec : s.fecPackets = []) :
    sendVideoPacket undefinedShift table p false s = pure s := by
  unfold sendVideoPacket
  rw [if_neg nofun, s.fetchFecPackets_of_eq_nil hfec]

theorem addRtpPacketAndGenerateFec_waits
    (hnow : (s.addPacket p).produceNow.value = false) :
    s.addRtpPacketAndGenerateFec undefinedShift table p =
      ⟨(0, s.addPacket p), (s.addPacket p).produceNow.trace⟩ := by
  unfold ProducerFec.addRtpPacketAndGenerateFec
  dsimp only [bind]
  rw [hnow, if_neg nofun]
  exact congrArg (Traced.mk _) (List.append_nil _)

theorem addRtpPacketAndGenerateFec_calls
    (hnow : (s.addPacket p).produceNow.value = true) :
    s.addRtpPacketAndGenerateFec undefinedShift table p =
      ⟨(((s.addPacket p).generateCall.run undefinedShift table).1,
        (s.addPacket p).keepFecPackets
          ((s.addPacket p).generateCall.run undefinedShift table).2),
        (s.addPacket p).produceNow.trace ++
          [.generate (s.addPacket p).generateCall]⟩ := by
  unfold ProducerFec.addRtpPacketAndGenerateFec
  dsimp only [bind]
  rw [hnow, if_pos rfl]
  rfl

theorem sendVideoPacket_waits (hfec : s.fecPackets = [])
    (hnow : (s.addPacket p).produceNow.value = false) :
    sendVideoPacket undefinedShift table p true s =
      ⟨s.addPacket p, (s.addPacket p).produceNow.trace⟩ := by
  unfold sendVideoPacket
  rw [if_pos rfl, addRtpPacketAndGenerateFec_waits hnow]
  dsimp only [bind]
  rw [if_neg (not_not.mpr rfl),
    (s.addPacket p).fetchFecPackets_of_eq_nil hfec]
  exact congrArg (Traced.mk _) (List.append_nil _)

/-- The packet makes a call, and all FEC packets are fetched; none are there
when the call fails. -/
theorem sendVideoPacket_calls (hfec : s.fecPackets = [])
    (hnow : (s.addPacket p).produceNow.value = true) :
    sendVideoPacket undefinedShift table p true s =
      ⟨((s.addPacket p).keepFecPackets ((s.addPacket p).generateCall.run
          undefinedShift table).2).fetchFecPackets,
        (s.addPacket p).produceNow.trace ++
          [.generate (s.addPacket p).generateCall]⟩ := by
  unfold sendVideoPacket
  rw [if_pos rfl, addRtpPacketAndGenerateFec_calls hnow]
  dsimp only [bind]
  split
  · rename_i hne
    rw [GenerateCall.run_of_ne_zero hne,
      show (s.addPacket p).generateCall.fecPacketList = [] from hfec,
      ProducerFec.fetchFecPackets_of_eq_nil
        ProducerFec.keepFecPackets_nil.fecPackets]
    exact congrArg (Traced.mk _) (List.append_nil _)
  · exact congrArg (Traced.mk _) (List.append_nil _)

end Send

/-! ## The batches -/

def EndsFrame (batch : List Packet) : Prop :=
  batch.getLast?.any Packet.marker

instance (batch : List Packet) : Decidable (EndsFrame batch) :=
  inferInstanceAs (Decidable (_ = true))

/-- The packets that were added are cut into the batches of the calls and the
packets that wait. -/
structure Sender.Batched (s : Sender) (batches : List (List Packet))
    (waiting : List Packet) : Prop where
  added : s.added = batches.flatten ++ waiting
  endsFrame : ∀ batch ∈ batches, EndsFrame batch
  calls : s.calls.map GenerateCall.mediaPacketList =
    batches.map (List.take kMaxMediaPackets)
  ready : ∀ call ∈ s.calls, call.Ready
  divisors : ∀ divisor ∈ s.divisors, divisor ≠ 0
  mediaPacketsFec : s.producer.mediaPacketsFec = waiting.take kMaxMediaPackets
  fecPackets : s.producer.fecPackets = []
  numFrames : s.producer.numFrames = waiting.countP Packet.marker
  numFirstPartition : s.producer.numFirstPartition ≤ kMaxMediaPackets

section Run

variable {undefinedShift : UndefinedShift} {table : MaskTable} {s : Sender}
  {batches : List (List Packet)} {waiting : List Packet}

theorem batched_new : Sender.new.Batched [] [] where
  added := rfl
  endsFrame := nofun
  calls := rfl
  ready := nofun
  divisors := nofun
  mediaPacketsFec := rfl
  fecPackets := rfl
  numFrames := rfl
  numFirstPartition := by decide

theorem Sender.Batched.setFecParameters (h : s.Batched batches waiting)
    (params : FecProtectionParams) (numFirstPartition : ℕ) :
    (s.step undefinedShift table (.setFecParameters params
      numFirstPartition)).Batched batches waiting :=
  { h with
    numFirstPartition := by
      change (if numFirstPartition > kMaxMediaPackets then kMaxMediaPackets
        else numFirstPartition) ≤ kMaxMediaPackets
      split
      · exact le_rfl
      · omega }

theorem Sender.Batched.unprotected (h : s.Batched batches waiting)
    (p : Packet) :
    (s.step undefinedShift table (.sendVideoPacket p false)).Batched batches
      waiting := by
  have hstep : s.step undefinedShift table (.sendVideoPacket p false) = s := by
    rw [Sender.step, sendVideoPacket_unprotected h.fecPackets]
    exact congrArg (Sender.mk _ _) (List.append_nil _)
  rw [hstep]
  exact h

theorem Sender.Batched.mediaPacketsFec_addPacket
    (h : s.Batched batches waiting) (p : Packet) :
    (s.producer.addPacket p).mediaPacketsFec ≠ [] ∧
      (s.producer.addPacket p).mediaPacketsFec.length ≤ kMaxMediaPackets := by
  rw [ProducerFec.addPacket_mediaPacketsFec h.mediaPacketsFec]
  constructor
  · intro hnil
    rcases List.take_eq_nil_iff.mp hnil with hzero | hempty
    · cases hzero
    · exact List.append_ne_nil_of_right_ne_nil _ (List.cons_ne_nil p []) hempty
  · exact List.length_take_le _ _

theorem Sender.Batched.produceNow (h : s.Batched batches waiting)
    (p : Packet) :
    (s.producer.addPacket p).produceNow.Meets ProducerEvent.Divides
      fun now => now = true → p.marker = true := by
  have hmarker : (s.producer.addPacket p).incompleteFrame = false →
      p.marker = true := fun hcomplete =>
    Bool.not_eq_eq_eq_not.mp hcomplete
  obtain ⟨hdivides, hcomplete⟩ := ProducerFec.produceNow_meets
    (h.mediaPacketsFec_addPacket p).1 fun hcomplete => by
      rw [ProducerFec.addPacket_numFrames h.numFrames, List.countP_append,
        List.countP_singleton, if_pos (hmarker hcomplete)]
      exact Nat.succ_ne_zero _
  exact ⟨hdivides, fun hnow => hmarker (hcomplete hnow)⟩

theorem Sender.Batched.divisors_append (h : s.Batched batches waiting)
    {l : List ProducerEvent} (hdivides : ∀ e ∈ l, e.Divides) {divisor : ℕ}
    (hmem : divisor ∈ (s.log ++ l).filterMap ProducerEvent.divisor?) :
    divisor ≠ 0 := by
  rw [List.filterMap_append, List.mem_append] at hmem
  rcases hmem with hold | hnew
  · exact h.divisors divisor hold
  · exact ne_zero_of_mem_divisors hdivides hnew

theorem Sender.Batched.calls_waits (h : s.Batched batches waiting) {p : Packet}
    (hnow : (s.producer.addPacket p).produceNow.value = false) :
    (s.step undefinedShift table (.sendVideoPacket p true)).calls =
      s.calls := by
  rw [Sender.step, sendVideoPacket_waits h.fecPackets hnow, Sender.calls,
    List.filterMap_append, filterMap_call?_of_divides (h.produceNow p).1,
    List.append_nil]
  rfl

theorem Sender.Batched.waits (h : s.Batched batches waiting) {p : Packet}
    (hnow : (s.producer.addPacket p).produceNow.value = false) :
    (s.step undefinedShift table (.sendVideoPacket p true)).Batched batches
      (waiting ++ [p]) := by
  have hcalls := @calls_waits undefinedShift table s batches waiting h p hnow
  rw [Sender.step, sendVideoPacket_waits h.fecPackets hnow] at hcalls ⊢
  exact
    { added := by
        rw [if_pos rfl, h.added, List.append_assoc]
      endsFrame := h.endsFrame
      calls := (congrArg (List.map _) hcalls).trans h.calls
      ready := fun call hcall => h.ready call (hcalls ▸ hcall)
      divisors := fun _ => h.divisors_append (h.produceNow p).1
      mediaPacketsFec := ProducerFec.addPacket_mediaPacketsFec h.mediaPacketsFec
      fecPackets := h.fecPackets
      numFrames := ProducerFec.addPacket_numFrames h.numFrames
      numFirstPartition := h.numFirstPartition }

theorem Sender.Batched.makesCall (h : s.Batched batches waiting) {p : Packet}
    (hnow : (s.producer.addPacket p).produceNow.value = true) :
    (s.step undefinedShift table (.sendVideoPacket p true)).Batched
      (batches ++ [waiting ++ [p]]) [] := by
  obtain ⟨hdivides, hmarker⟩ := h.produceNow p
  rw [Sender.step, sendVideoPacket_calls h.fecPackets hnow]
  obtain ⟨hempty, hfirst⟩ := ProducerFec.emptied_fetchFecPackets
    (s := s.producer.addPacket p) (((s.producer.addPacket p).generateCall.run
      undefinedShift table).2)
  have hcalls : (s.log ++ ((s.producer.addPacket p).produceNow.trace ++
      [ProducerEvent.generate (s.producer.addPacket p).generateCall])).filterMap
        ProducerEvent.call? =
      s.calls ++ [(s.producer.addPacket p).generateCall] := by
    rw [List.filterMap_append, List.filterMap_append,
      filterMap_call?_of_divides hdivides]
    rfl
  have hready : (s.producer.addPacket p).generateCall.Ready :=
    ⟨(h.mediaPacketsFec_addPacket p).1, (h.mediaPacketsFec_addPacket p).2,
      h.numFirstPartition, h.fecPackets⟩
  exact
    { added := by
        rw [if_pos rfl, h.added, List.flatten_append, List.flatten_singleton,
          List.append_nil, List.append_assoc]
      endsFrame := by
        intro batch hbatch
        rcases List.mem_append.mp hbatch with hold | hnew
        · exact h.endsFrame batch hold
        · rw [List.mem_singleton.mp hnew]
          rw [EndsFrame, List.getLast?_concat]
          exact hmarker hnow
      calls := by
        rw [Sender.calls, hcalls, List.map_append, List.map_append, h.calls]
        exact congrArg (fun l => _ ++ [l])
          (ProducerFec.addPacket_mediaPacketsFec h.mediaPacketsFec)
      ready := by
        intro call hcall
        rw [Sender.calls, hcalls] at hcall
        rcases List.mem_append.mp hcall with hold | hnew
        · exact h.ready call hold
        · rw [List.mem_singleton.mp hnew]
          exact hready
      divisors := by
        intro divisor hmem
        rw [Sender.divisors, ← List.append_assoc, List.filterMap_append]
          at hmem
        rcases List.mem_append.mp hmem with hold | hnew
        · exact h.divisors_append hdivides hold
        · cases hnew
      mediaPacketsFec := hempty.mediaPacketsFec
      fecPackets := hempty.fecPackets
      numFrames := hempty.numFrames
      numFirstPartition := hfirst.trans_le h.numFirstPartition }

theorem exists_batched_step (h : s.Batched batches waiting)
    (event : SenderEvent) :
    ∃ batches waiting,
      (s.step undefinedShift table event).Batched batches waiting := by
  cases event with
  | setFecParameters params numFirstPartition =>
    exact ⟨_, _, h.setFecParameters params numFirstPartition⟩
  | sendVideoPacket p protect =>
    cases protect with
    | false => exact ⟨_, _, h.unprotected p⟩
    | true =>
      cases hnow : (s.producer.addPacket p).produceNow.value with
      | false => exact ⟨_, _, h.waits hnow⟩
      | true => exact ⟨_, _, h.makesCall hnow⟩

theorem exists_batched_run (events : List SenderEvent) :
    ∃ batches waiting,
      (Sender.run undefinedShift table events).Batched batches waiting :=
  List.foldlRecOn events _
    (motive := fun s : Sender =>
      ∃ batches waiting, s.Batched batches waiting)
    ⟨_, _, batched_new⟩ fun _ ⟨_, _, h⟩ event _ => exists_batched_step h event

theorem Sender.Batched.emptied (h : s.Batched batches waiting) {p : Packet}
    (hcall : (s.step undefinedShift table (.sendVideoPacket p true)).calls ≠
      s.calls) :
    (s.step undefinedShift table
      (.sendVideoPacket p true)).producer.Emptied := by
  cases hnow : (s.producer.addPacket p).produceNow.value with
  | true =>
    have hnext : (s.step undefinedShift table
        (.sendVideoPacket p true)).Batched _ [] := h.makesCall hnow
    exact ⟨hnext.mediaPacketsFec, hnext.fecPackets, hnext.numFrames⟩
  | false => exact absurd (h.calls_waits hnow) hcall

/-- The batches of any run, and nothing left over after a call. -/
theorem run_batched (undefinedShift : UndefinedShift) (table : MaskTable)
    (events : List SenderEvent) :
    (∃ batches waiting,
      (Sender.run undefinedShift table events).Batched batches waiting) ∧
    ∀ p, ((Sender.run undefinedShift table events).step undefinedShift table
        (.sendVideoPacket p true)).calls ≠
          (Sender.run undefinedShift table events).calls →
      ((Sender.run undefinedShift table events).step undefinedShift table
        (.sendVideoPacket p true)).producer.Emptied := by
  have hrun := @exists_batched_run undefinedShift table events
  refine ⟨hrun, ?_⟩
  obtain ⟨batches, waiting, h⟩ := hrun
  exact fun p => h.emptied

end Run

def headerPacket (marker : Bool) : Packet where
  length := kRtpHeaderSize
  data i := if i = 1 ∧ marker then kRtpMarkerBitMask else 0

/-- A frame of that many packets and one more, for itself. -/
def sentFrame (numFirstPartition n : ℕ) : List SenderEvent :=
  .setFecParameters ⟨0, false, 1, .kFecMaskRandom⟩ numFirstPartition ::
    (List.replicate n (headerPacket false) ++ [headerPacket true]).map
      (.sendVideoPacket · true)

def sentFrameCalls (numFirstPartition n : ℕ) : List GenerateCall :=
  (Sender.run (fun _ _ => false) (fun _ _ _ _ => 0)
    (sentFrame numFirstPartition n)).calls

/-- A call does not reach the end of a frame of 49 packets, and one for a
frame of one packet has two important packets. -/
theorem not_wholeFrames_sentFrame :
    ¬(∀ call ∈ sentFrameCalls 0 48, EndsFrame call.mediaPacketList) ∧
      ¬∀ call ∈ sentFrameCalls 2 0,
        call.numImportantPackets ≤ call.mediaPacketList.length := by
  decide +kernel

end WebrtcWinXp.Fec
