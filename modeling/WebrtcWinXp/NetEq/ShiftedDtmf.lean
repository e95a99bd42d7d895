import WebrtcWinXp.NetEq.DtmfRuns
import WebrtcWinXp.Support.Transition

/-!
# Shifted DTMF events

Events are sorted by the distances of their timestamps, but looked for by the
plain numbers.  The results do not depend on where the timestamps start as long
as the comparisons of the numbers do not.
-/

namespace WebrtcWinXp.NetEq

open Support

def DtmfEvent.shift (k : UInt32) (e : DtmfEvent) : DtmfEvent :=
  { e with
    timestamp := e.timestamp + k }

def DtmfCall.shift (k : UInt32) : DtmfCall → DtmfCall
  | .insertEvent event => .insertEvent (event.shift k)
  | .getEvent currentTimestamp => .getEvent (currentTimestamp + k)

def DtmfResult.shift (k : UInt32) : DtmfResult → DtmfResult
  | .inserted code => .inserted code
  | .got event => .got (event.map (DtmfEvent.shift k))

def DtmfBuffer.shift (k : UInt32) (b : DtmfBuffer) : DtmfBuffer :=
  { b with
    buffer := b.buffer.map (DtmfEvent.shift k) }

variable {k : UInt32}

theorem sameEvent_shift (a c : DtmfEvent) :
    sameEvent (a.shift k) (c.shift k) = sameEvent a c := by
  rw [Bool.eq_iff_iff, sameEvent_iff, sameEvent_iff]
  exact and_congr_right fun _ => UInt32.add_left_inj k

theorem compareEvents_shift (a c : DtmfEvent) :
    compareEvents (a.shift k) (c.shift k) = compareEvents a c := by
  have hsame : (a.shift k).timestamp = (c.shift k).timestamp ↔
      a.timestamp = c.timestamp := UInt32.add_left_inj k
  have hdiff : (c.shift k).timestamp - (a.shift k).timestamp =
      c.timestamp - a.timestamp := add_sub_add_right_eq_sub _ _ _
  rw [compareEvents, compareEvents, hdiff]
  exact if_congr hsame rfl rfl

theorem mergeInto_shift (event : DtmfEvent) (l : List DtmfEvent) :
    mergeInto (event.shift k) (l.map (DtmfEvent.shift k)) =
      (mergeInto event l).map (List.map (DtmfEvent.shift k)) := by
  induction l with
  | nil => rfl
  | cons it rest ih =>
    rw [List.map_cons, mergeInto, mergeInto, sameEvent_shift, ih]
    split
    · rfl
    · rw [Option.map_map, Option.map_map]
      rfl

namespace DtmfBuffer

variable {b : DtmfBuffer} {currentTimestamp : UInt32}

theorem insertEvent_shift (b : DtmfBuffer) (event : DtmfEvent) :
    (b.shift k).insertEvent (event.shift k) =
      ((b.insertEvent event).1, (b.insertEvent event).2.shift k) := by
  rw [insertEvent, insertEvent]
  change (if !event.valid then _ else _) = _
  split
  · rfl
  · rw [shift, mergeInto_shift]
    cases mergeInto event b.buffer with
    | some buffer => rfl
    | none =>
      have hsort := List.map_mergeSort (f := DtmfEvent.shift k)
        (r := fun x y => !compareEvents y x)
        (s := fun x y => !compareEvents y x) (l := b.buffer ++ [event])
        fun x _ y _ => by rw [compareEvents_shift]
      rw [List.map_append, List.map_singleton] at hsort
      rw [Option.map_none]
      dsimp only
      rw [← hsort]
      rfl

/-! ## The walk -/

/-- The comparisons of one round come out the same on the shifted numbers. -/
structure RoundAgrees (b : DtmfBuffer) (k currentTimestamp : UInt32)
    (it : DtmfEvent) (next : Option DtmfEvent) : Prop where
  start : it.timestamp + k ≤ currentTimestamp + k ↔
    it.timestamp ≤ currentTimestamp
  following : it.endBit = false → ∀ n ∈ next,
    (n.timestamp + k < b.extrapolatedEnd it + k ↔
      n.timestamp < b.extrapolatedEnd it)
  stop : currentTimestamp + k ≤ b.eventEnd it next + k ↔
    currentTimestamp ≤ b.eventEnd it next
  frame : it.timestamp ≤ currentTimestamp →
    currentTimestamp ≤ b.eventEnd it next → it.endBit = true →
    (b.eventEnd it next + k ≤
      currentTimestamp + UInt32.ofInt b.frameLenSamples + k ↔
    b.eventEnd it next ≤ currentTimestamp + UInt32.ofInt b.frameLenSamples)

/-- They do so in every round up to the one that returns. -/
def WalkAgrees (b : DtmfBuffer) (k currentTimestamp : UInt32) :
    List DtmfEvent → Prop
  | [] => True
  | it :: rest =>
    b.RoundAgrees k currentTimestamp it rest.head? ∧
      ((∀ keep, b.visit currentTimestamp it rest.head? ≠ .returns keep) →
        b.WalkAgrees k currentTimestamp rest)

theorem extrapolatedEnd_shift (it : DtmfEvent) :
    (b.shift k).extrapolatedEnd (it.shift k) = b.extrapolatedEnd it + k := by
  change it.timestamp + k + _ + _ = it.timestamp + _ + _ + k
  rw [add_right_comm it.timestamp k, add_right_comm _ k]
  rfl

theorem eventEnd_shift {it : DtmfEvent} {next : Option DtmfEvent}
    (h : b.RoundAgrees k currentTimestamp it next) :
    (b.shift k).eventEnd (it.shift k) (next.map (DtmfEvent.shift k)) =
      b.eventEnd it next + k := by
  simp only [eventEnd, extrapolatedEnd_shift]
  change (if it.endBit then it.timestamp + k + _ else _) = _
  cases hbit : it.endBit with
  | true =>
    rw [if_pos rfl, if_pos rfl, add_right_comm]
    rfl
  | false =>
    rw [if_neg Bool.false_ne_true, if_neg Bool.false_ne_true]
    cases next with
    | none => rfl
    | some n =>
      have hnext := h.following hbit n rfl
      rw [Option.map_some]
      dsimp only
      by_cases hlt : n.timestamp < b.extrapolatedEnd it
      · rw [if_pos hlt]
        exact if_pos (hnext.mpr hlt)
      · rw [if_neg hlt]
        exact if_neg (mt hnext.mp hlt)

theorem visit_shift {it : DtmfEvent} {next : Option DtmfEvent}
    (h : b.RoundAgrees k currentTimestamp it next) :
    (b.shift k).visit (currentTimestamp + k) (it.shift k)
        (next.map (DtmfEvent.shift k)) =
      b.visit currentTimestamp it next := by
  have hfound : (it.timestamp + k ≤ currentTimestamp + k ∧
      currentTimestamp + k ≤ b.eventEnd it next + k) ↔
      (it.timestamp ≤ currentTimestamp ∧
        currentTimestamp ≤ b.eventEnd it next) := and_congr h.start h.stop
  have hlater : currentTimestamp + k > b.eventEnd it next + k ↔
      currentTimestamp > b.eventEnd it next := by
    rw [gt_iff_lt, gt_iff_lt, ← UInt32.not_le, ← UInt32.not_le, h.stop]
  have hnext : (next.map (DtmfEvent.shift k)).isSome = next.isSome :=
    Option.isSome_map
  rw [visit, visit, eventEnd_shift h, hnext]
  refine if_ctx_congr hfound (fun hstart => ?_) fun _ => if_congr hlater rfl rfl
  change Visit.returns (!(it.endBit && decide (currentTimestamp + k +
    UInt32.ofInt b.frameLenSamples ≥ b.eventEnd it next + k))) = _
  cases hbit : it.endBit with
  | false => rfl
  | true =>
    have hframe := h.frame hstart.1 hstart.2 hbit
    rw [add_right_comm, Bool.true_and, Bool.true_and]
    exact congrArg (fun x => Visit.returns !x) (decide_eq_decide.mpr hframe)

theorem walkFrom_shift {rest : List DtmfEvent}
    (h : b.WalkAgrees k currentTimestamp rest) (passed : List DtmfEvent) :
    (b.shift k).walkFrom (currentTimestamp + k)
        (passed.map (DtmfEvent.shift k)) (rest.map (DtmfEvent.shift k)) =
      ((b.walkFrom currentTimestamp passed rest).1.map (DtmfEvent.shift k),
        (b.walkFrom currentTimestamp passed rest).2.map
          (DtmfEvent.shift k)) := by
  induction rest generalizing passed with
  | nil => rfl
  | cons it rest ih =>
    obtain ⟨hround, hrest⟩ := h
    rw [List.map_cons, walkFrom, walkFrom, List.head?_map,
      visit_shift hround]
    cases hvisit : b.visit currentTimestamp it rest.head? with
    | returns keep =>
      dsimp only
      rw [List.map_append, apply_ite (List.map _)]
      rfl
    | erases =>
      refine ih (hrest fun keep => ?_) passed
      rw [hvisit]
      exact fun heq => by cases heq
    | skips =>
      have hpassed := ih (hrest fun keep => by
        rw [hvisit]
        exact fun heq => by cases heq) (passed ++ [it])
      rw [List.map_append] at hpassed
      exact hpassed

theorem getEvent_shift (h : b.WalkAgrees k currentTimestamp b.buffer) :
    (b.shift k).getEvent (currentTimestamp + k) =
      ((b.getEvent currentTimestamp).1.map (DtmfEvent.shift k),
        (b.getEvent currentTimestamp).2.shift k) := by
  have hwalk : (b.shift k).walkFrom (currentTimestamp + k) []
      (b.shift k).buffer = _ := walkFrom_shift h []
  rw [getEvent_eq, getEvent_eq, hwalk]
  rfl

/-! ## Runs -/

/-- The comparisons of a call come out the same on the shifted numbers. -/
def CallAgrees (k : UInt32) (b : DtmfBuffer) : DtmfCall → Prop
  | .insertEvent _ => True
  | .getEvent currentTimestamp => b.WalkAgrees k currentTimestamp b.buffer

def after (b : DtmfBuffer) (c : DtmfCall) : Option DtmfBuffer :=
  some (b.call c).2

theorem call_shift {c : DtmfCall} (h : CallAgrees k b c) :
    (b.shift k).call (c.shift k) =
      ((b.call c).1.shift k, (b.call c).2.shift k) := by
  cases c with
  | insertEvent event =>
    change (DtmfResult.inserted _, _) = _
    rw [insertEvent_shift]
    rfl
  | getEvent currentTimestamp =>
    change (DtmfResult.got _, _) = _
    rw [getEvent_shift h]
    rfl

theorem results_shift {calls : List DtmfCall}
    (h : Allowed after (CallAgrees k) b calls) :
    (b.shift k).results (calls.map (DtmfCall.shift k)) =
      (b.results calls).map (DtmfResult.shift k) := by
  induction calls generalizing b with
  | nil => rfl
  | cons c calls ih =>
    obtain ⟨hc, hrest⟩ := h
    rw [List.map_cons, results, results, call_shift hc, List.map_cons,
      ih (hrest _ rfl)]

end DtmfBuffer

def DtmfCall.timestamp : DtmfCall → UInt32
  | .insertEvent event => event.timestamp
  | .getEvent currentTimestamp => currentTimestamp

def Close (l : List UInt32) : Prop :=
  ∀ x ∈ l, ∀ y ∈ l, (x - y).toNat ≤ 2 ^ 30 ∨ (y - x).toNat ≤ 2 ^ 30

theorem close_pair {x y : UInt32} (h : (y - x).toNat ≤ 2 ^ 30) :
    Close [x, y] := by
  have hself : ∀ z : UInt32, (z - z).toNat ≤ 2 ^ 30 := by
    intro z
    rw [UInt32.sub_self]
    exact Nat.zero_le _
  intro a ha b hb
  rw [List.mem_pair] at ha hb
  obtain rfl | rfl := ha
  · obtain rfl | rfl := hb
    · exact .inl (hself _)
    · exact .inr h
  · obtain rfl | rfl := hb
    · exact .inl h
    · exact .inl (hself _)

theorem Close.exists_start {l : List UInt32} (h : Close l) :
    ∃ start, ∀ x ∈ l, (x - start).toNat ≤ 2 ^ 30 := by
  suffices hstart : l = [] ∨ ∃ start ∈ l, ∀ x ∈ l,
      (x - start).toNat ≤ 2 ^ 30 by
    obtain rfl | ⟨start, -, hwindow⟩ := hstart
    · exact ⟨0, fun x hx => absurd hx List.not_mem_nil⟩
    · exact ⟨start, hwindow⟩
  induction l with
  | nil => exact .inl rfl
  | cons a l ih =>
    refine .inr ?_
    have hself : (a - a).toNat ≤ 2 ^ 30 := by
      rw [UInt32.sub_self]
      decide
    obtain rfl | ⟨start, hmem, hwindow⟩ := ih fun x hx y hy =>
      h x (List.mem_cons_of_mem a hx) y (List.mem_cons_of_mem a hy)
    · exact ⟨a, List.mem_cons_self, List.forall_mem_singleton.mpr hself⟩
    · have hmem' := List.mem_cons_of_mem a hmem
      obtain hnear | hnear := h a List.mem_cons_self start hmem'
      · exact ⟨start, hmem', List.forall_mem_cons.mpr ⟨hnear, hwindow⟩⟩
      · refine ⟨a, List.mem_cons_self, List.forall_mem_cons.mpr
          ⟨hself, fun x hx => ?_⟩⟩
        have hx' := hwindow x hx
        have hclose := h x (List.mem_cons_of_mem a hx) a List.mem_cons_self
        have ha := a.toNat_lt
        have hs := start.toNat_lt
        have hlt := x.toNat_lt
        simp only [UInt32.toNat_sub] at hnear hx' hclose ⊢
        omega

/-- The results are shifted with the timestamps as long as the comparisons come
out the same, and in every state of a run the buffer is sound. -/
theorem results_shift_and_sound {fsHz : ℤ} {calls : List DtmfCall} {k : UInt32}
    (hclose : Close (calls.map DtmfCall.timestamp))
    (hagrees : Allowed DtmfBuffer.after (DtmfBuffer.CallAgrees k)
      (.new fsHz) calls) :
    (DtmfBuffer.new fsHz).results (calls.map (DtmfCall.shift k)) =
      ((DtmfBuffer.new fsHz).results calls).map (DtmfResult.shift k) ∧
    ∀ front, front <+: calls →
      (front.foldl Recorded.call { buffer := .new fsHz }).Sound := by
  have hnew : (DtmfBuffer.new fsHz).shift k = .new fsHz := by
    rw [DtmfBuffer.shift, Recorded.new_buffer, List.map_nil,
      ← Recorded.new_buffer fsHz]
  obtain ⟨start, hstart⟩ := hclose.exists_start
  have hwindow : ∀ c ∈ calls, Recorded.InWindow start c := by
    intro c hc
    have htime := hstart c.timestamp (List.mem_map_of_mem hc)
    cases c with
    | insertEvent event => exact htime
    | getEvent currentTimestamp => exact htime
  refine ⟨?_, fun front hfront => Recorded.sound_foldl fsHz fun c hc =>
    hwindow c (hfront.subset hc)⟩
  rw [← DtmfBuffer.results_shift hagrees, hnew]

/-- An event of 1000 timestamps that is looked for after 500 of them. -/
def playedEvent : DtmfEvent where
  eventNo := 1
  volume := 10
  duration := 1000
  endBit := true

def singleton (event : DtmfEvent) : DtmfBuffer where
  maxExtrapolationSamples := 560
  frameLenSamples := 80
  buffer := [event]

theorem insertEvent_new {event : DtmfEvent} (hvalid : event.valid = true) :
    (DtmfBuffer.new 8000).insertEvent event = (.kOK, singleton event) := by
  have hnew : DtmfBuffer.new 8000 =
      { maxExtrapolationSamples := 560
        frameLenSamples := 80 } := by decide
  rw [hnew, DtmfBuffer.insertEvent, hvalid]
  change (DtmfReturnCodes.kOK, { ({
      maxExtrapolationSamples := 560
      frameLenSamples := 80 } : DtmfBuffer) with
    buffer := [event].mergeSort fun x y => !compareEvents y x }) = _
  rw [List.mergeSort_singleton]
  rfl

theorem results_playedEvent :
    (DtmfBuffer.new 8000).results
        ([.insertEvent playedEvent, .getEvent 500].map (DtmfCall.shift 100)) =
      ((DtmfBuffer.new 8000).results
        [.insertEvent playedEvent, .getEvent 500]).map (DtmfResult.shift 100) ∧
    ∀ front, front <+: [.insertEvent playedEvent, .getEvent 500] →
      (front.foldl Recorded.call { buffer := .new 8000 }).Sound := by
  refine results_shift_and_sound ?_ ⟨trivial, ?_⟩
  · exact close_pair (by decide)
  · rintro _ ⟨rfl⟩
    refine ⟨?_, fun _ _ => trivial⟩
    rw [DtmfBuffer.call, insertEvent_new (by decide)]
    refine ⟨⟨by decide, ?_, by decide, fun _ _ _ => by decide⟩, fun _ => trivial⟩
    exact fun hbit => absurd hbit (by decide)

/-- The start of the event is below 2^32 and the current timestamp above. -/
theorem not_forall_results_shift :
    ¬∀ (fsHz : ℤ) (calls : List DtmfCall) (k : UInt32),
      Close (calls.map DtmfCall.timestamp) →
      (DtmfBuffer.new fsHz).results (calls.map (DtmfCall.shift k)) =
        ((DtmfBuffer.new fsHz).results calls).map (DtmfResult.shift k) := by
  intro h
  have hshift := h 8000 [.insertEvent playedEvent, .getEvent 500]
    (UInt32.ofInt (-300)) (close_pair (by decide))
  simp only [List.map_cons, List.map_nil, DtmfCall.shift, DtmfBuffer.results,
    DtmfBuffer.call] at hshift
  rw [insertEvent_new (by decide), insertEvent_new (by decide)] at hshift
  exact absurd hshift (by decide)

end WebrtcWinXp.NetEq
