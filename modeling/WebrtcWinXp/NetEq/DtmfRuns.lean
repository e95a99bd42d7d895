import Mathlib
import WebrtcWinXp.NetEq.DtmfBuffer

/-!
# Runs of a DTMF buffer

The buffer stays sorted, with one entry for an event, whose duration is the
longest one that was received up to its end bit.  Every walk over it ends.
-/

namespace WebrtcWinXp.NetEq

open Support

/-! ## Walks -/

/-- What a walk has found, and what it leaves of the buffer. -/
def Walk.result (s : Walk) : Option DtmfEvent × List DtmfEvent :=
  (s.found, s.passed ++ s.rest)

namespace DtmfBuffer

variable {b : DtmfBuffer} {currentTimestamp : UInt32}

theorem lowers_walk : Lowers (b.walk currentTimestamp) walkMeasure := by
  intro s t h
  rw [walk] at h
  split at h
  · rename_i it rest hfound hrest
    have hmeasure : walkMeasure s = 2 * rest.length + 3 := by
      rw [walkMeasure, hfound, hrest, List.length_cons]
      rfl
    rw [hmeasure]
    split at h
    · rename_i keep _
      cases h
      cases keep
      · change 2 * rest.length + 0 < _
        omega
      · change 2 * (rest.length + 1) + 0 < _
        omega
    · cases h
      rw [walkMeasure, hfound]
      change 2 * rest.length + 1 < _
      omega
    · cases h
      rw [walkMeasure, hfound]
      change 2 * rest.length + 1 < _
      omega
  · cases h

variable (b currentTimestamp) in
def walkFrom (passed : List DtmfEvent) :
    List DtmfEvent → Option DtmfEvent × List DtmfEvent
  | [] => (none, passed)
  | it :: rest =>
    match b.visit currentTimestamp it rest.head? with
    | .returns keep => (some it, passed ++ if keep then it :: rest else rest)
    | .erases => walkFrom passed rest
    | .skips => walkFrom (passed ++ [it]) rest

theorem result_finish_walk (passed rest : List DtmfEvent) :
    (finish (b.walk currentTimestamp) walkMeasure
      ⟨passed, rest, none⟩).result =
        b.walkFrom currentTimestamp passed rest := by
  induction rest generalizing passed with
  | nil =>
    rw [finish_of_eq_none rfl, walkFrom]
    exact Prod.ext rfl (List.append_nil passed)
  | cons it rest ih =>
    rw [walkFrom]
    cases hvisit : b.visit currentTimestamp it rest.head? with
    | returns keep =>
      have hround : b.walk currentTimestamp ⟨passed, it :: rest, none⟩ =
          some ⟨passed, if keep then it :: rest else rest, some it⟩ := by
        rw [walk]
        dsimp only
        rw [hvisit]
      rw [finish_of_eq_some lowers_walk hround, finish_of_eq_none rfl]
      rfl
    | erases =>
      have hround : b.walk currentTimestamp ⟨passed, it :: rest, none⟩ =
          some ⟨passed, rest, none⟩ := by
        rw [walk]
        dsimp only
        rw [hvisit]
      rw [finish_of_eq_some lowers_walk hround]
      exact ih passed
    | skips =>
      have hround : b.walk currentTimestamp ⟨passed, it :: rest, none⟩ =
          some ⟨passed ++ [it], rest, none⟩ := by
        rw [walk]
        dsimp only
        rw [hvisit]
      rw [finish_of_eq_some lowers_walk hround]
      exact ih (passed ++ [it])

theorem getEvent_eq (b : DtmfBuffer) (currentTimestamp : UInt32) :
    b.getEvent currentTimestamp =
      ((b.walkFrom currentTimestamp [] b.buffer).1, { b with
        buffer := (b.walkFrom currentTimestamp [] b.buffer).2 }) := by
  rw [getEvent, ← result_finish_walk]
  rfl

theorem walkFrom_sublist (passed rest : List DtmfEvent) :
    (b.walkFrom currentTimestamp passed rest).2.Sublist (passed ++ rest) := by
  induction rest generalizing passed with
  | nil =>
    rw [List.append_nil]
    exact List.Sublist.refl _
  | cons it rest ih =>
    rw [walkFrom]
    split
    · rename_i keep _
      cases keep
      · exact List.Sublist.append_left (List.sublist_cons_self it rest) passed
      · exact List.Sublist.refl _
    · exact (ih passed).trans
        (List.Sublist.append_left (List.sublist_cons_self it rest) passed)
    · have hrest := ih (passed ++ [it])
      rw [List.append_assoc] at hrest
      exact hrest

theorem getEvent_sublist :
    (b.getEvent currentTimestamp).2.buffer.Sublist b.buffer := by
  rw [getEvent_eq]
  exact walkFrom_sublist [] b.buffer

end DtmfBuffer

variable {a c : DtmfEvent}

theorem sameEvent_iff :
    sameEvent a c = true ↔
      a.eventNo = c.eventNo ∧ a.timestamp = c.timestamp := by
  rw [sameEvent, Bool.and_eq_true, decide_eq_true_iff, decide_eq_true_iff]

theorem sameEvent_refl (a : DtmfEvent) : sameEvent a a = true :=
  sameEvent_iff.mpr ⟨rfl, rfl⟩

theorem sameEvent_congr (h : sameEvent a c = true)
    (x : DtmfEvent) :
    sameEvent a x = sameEvent c x ∧ sameEvent x a = sameEvent x c := by
  obtain ⟨hno, htime⟩ := sameEvent_iff.mp h
  rw [sameEvent, sameEvent, sameEvent, sameEvent, hno, htime]
  exact ⟨rfl, rfl⟩

theorem sameEvent_symm (h : sameEvent a c = false) :
    sameEvent c a = false := by
  rw [← Bool.not_eq_true, sameEvent_iff] at h ⊢
  exact fun hsame => h ⟨hsame.1.symm, hsame.2.symm⟩

/-- The start of an event is in a window, and its number is a digit. -/
def DtmfEvent.InWindow (start : UInt32) (e : DtmfEvent) : Prop :=
  (e.timestamp - start).toNat ≤ 2 ^ 30 ∧ 0 ≤ e.eventNo ∧ e.eventNo ≤ 15

def DtmfEvent.key (start : UInt32) (e : DtmfEvent) : ℤ :=
  (e.timestamp - start).toNat * 16 + e.eventNo

theorem compareEvents_iff {start : UInt32}
    (ha : a.InWindow start) (hc : c.InWindow start) :
    compareEvents a c = true ↔ a.key start < c.key start := by
  obtain ⟨htime, hno⟩ := ha
  obtain ⟨htime', hno'⟩ := hc
  rw [compareEvents, DtmfEvent.key, DtmfEvent.key]
  by_cases hsame : a.timestamp = c.timestamp
  · rw [if_pos hsame, decide_eq_true_iff, hsame]
    omega
  · have hne : (a.timestamp - start).toNat ≠ (c.timestamp - start).toNat := by
      rw [ne_eq, UInt32.toNat_inj, UInt32.sub_left_inj]
      exact hsame
    have ha := a.timestamp.toNat_lt
    have hc := c.timestamp.toNat_lt
    have hstart := start.toNat_lt
    rw [if_neg hsame, decide_eq_true_iff, UInt32.lt_iff_toNat_lt]
    change (_ < 2 ^ 31 - 1) ↔ _
    simp only [UInt32.toNat_sub] at htime htime' hne ⊢
    omega

variable {l : List DtmfEvent}

theorem mergeInto_eq_none {event : DtmfEvent}
    (h : mergeInto event l = none) :
    ∀ it ∈ l, sameEvent it event = false := by
  induction l with
  | nil => exact fun it hit => absurd hit List.not_mem_nil
  | cons it rest ih =>
    rw [mergeInto] at h
    split at h
    · cases h
    · rename_i hsame
      exact List.forall_mem_cons.mpr ⟨Bool.eq_false_of_not_eq_true hsame,
        ih (Option.map_eq_none_iff.mp h)⟩

theorem mergeInto_eq_some {event : DtmfEvent} {l' : List DtmfEvent}
    (h : mergeInto event l = some l') :
    ∃ front it back, l = front ++ it :: back ∧ sameEvent it event = true ∧
      l' = front ++ mergeEvents it event :: back := by
  induction l generalizing l' with
  | nil => cases h
  | cons it rest ih =>
    rw [mergeInto] at h
    split at h
    · rename_i hsame
      cases h
      exact ⟨[], it, rest, rfl, hsame, rfl⟩
    · obtain ⟨rest', hrest, rfl⟩ := Option.map_eq_some_iff.mp h
      obtain ⟨front, other, back, rfl, hsame, rfl⟩ := ih hrest
      exact ⟨it :: front, other, back, rfl, hsame, rfl⟩

/-- A relation that does not tell two elements apart, where one of them takes
the place of the other. -/
theorem pairwise_replace {α : Type} {R : α → α → Prop} {front back : List α}
    {a c : α} (h : (front ++ a :: back).Pairwise R)
    (hleft : ∀ x, R x a → R x c) (hright : ∀ x, R a x → R c x) :
    (front ++ c :: back).Pairwise R := by
  rw [List.pairwise_append, List.pairwise_cons] at h ⊢
  obtain ⟨hfront, ⟨hnext, hback⟩, hcross⟩ := h
  refine ⟨hfront, ⟨fun x hx => hright x (hnext x hx), hback⟩, ?_⟩
  intro x hx y hy
  obtain rfl | hy := List.mem_cons.mp hy
  · exact hleft x (hcross x hx a List.mem_cons_self)
  · exact hcross x hx y (List.mem_cons_of_mem a hy)

/-! ## Durations -/

/-- The events up to the first one with the end bit. -/
def upToEnd : List DtmfEvent → List DtmfEvent
  | [] => []
  | e :: l => if e.endBit then [e] else e :: upToEnd l

/-- An entry has the longest of the durations that were received for it up to
its end bit. -/
structure Longest (received : List DtmfEvent) (it : DtmfEvent) : Prop where
  attained : ∃ e ∈ upToEnd (received.filter (sameEvent it)),
    e.duration = it.duration
  bound : ∀ e ∈ upToEnd (received.filter (sameEvent it)),
    e.duration ≤ it.duration
  ended : it.endBit = (received.filter (sameEvent it)).any DtmfEvent.endBit

theorem upToEnd_append (e : DtmfEvent) :
    upToEnd (l ++ [e]) =
      if l.any DtmfEvent.endBit then upToEnd l else l ++ [e] := by
  induction l with
  | nil =>
    change (if e.endBit then [e] else [e]) = [e]
    rw [ite_self]
  | cons x l ih =>
    rw [List.cons_append, upToEnd, upToEnd, ih, List.any_cons]
    cases x.endBit with
    | true => rfl
    | false =>
      rw [Bool.false_or, if_neg Bool.false_ne_true,
        if_neg Bool.false_ne_true]
      split <;> rfl

theorem upToEnd_eq_self
    (h : l.any DtmfEvent.endBit = false) : upToEnd l = l := by
  induction l with
  | nil => rfl
  | cons x l ih =>
    rw [List.any_cons, Bool.or_eq_false_iff] at h
    rw [upToEnd, h.1, if_neg Bool.false_ne_true, ih h.2]

variable {received : List DtmfEvent}

theorem longest_new {event : DtmfEvent}
    (h : ∀ e ∈ received, sameEvent event e = false) :
    Longest (received ++ [event]) event := by
  have hfilter : (received ++ [event]).filter (sameEvent event) = [event] := by
    rw [List.filter_append, List.filter_eq_nil_iff.mpr fun e he => by
      rw [h e he]
      exact Bool.false_ne_true, List.nil_append, List.filter_singleton,
      sameEvent_refl]
    rfl
  have hupTo : upToEnd [event] = [event] := upToEnd_append (l := []) event
  constructor
  · rw [hfilter, hupTo]
    exact ⟨event, List.mem_singleton_self event, rfl⟩
  · rw [hfilter, hupTo]
    exact List.forall_mem_singleton.mpr le_rfl
  · rw [hfilter, List.any_cons, List.any_nil, Bool.or_false]

theorem Longest.merge {it event : DtmfEvent}
    (h : Longest received it) (hsame : sameEvent it event = true) :
    Longest (received ++ [event]) (mergeEvents it event) := by
  have hfilter : (received ++ [event]).filter
      (sameEvent (mergeEvents it event)) =
      received.filter (sameEvent it) ++ [event] := by
    rw [List.filter_append]
    congr 1
    exact List.filter_cons_of_pos hsame
  have hended : (mergeEvents it event).endBit =
      ((received.filter (sameEvent it) ++ [event]).any DtmfEvent.endBit) := by
    rw [List.any_append, ← h.ended, List.any_cons, List.any_nil, Bool.or_false]
    rfl
  rw [← hfilter] at hended
  obtain ⟨e, he, hduration⟩ := h.attained
  cases hbit : it.endBit with
  | true =>
    have hupTo : upToEnd (received.filter (sameEvent it) ++ [event]) =
        upToEnd (received.filter (sameEvent it)) := by
      rw [upToEnd_append, ← h.ended, hbit, if_pos rfl]
    have hkept : (mergeEvents it event).duration = it.duration := by
      rw [mergeEvents, hbit, if_pos rfl]
    refine ⟨?_, ?_, hended⟩
    · rw [hfilter, hupTo, hkept]
      exact ⟨e, he, hduration⟩
    · rw [hfilter, hupTo, hkept]
      exact h.bound
  | false =>
    have hnone := h.ended.symm.trans hbit
    have hupTo : upToEnd (received.filter (sameEvent it) ++ [event]) =
        upToEnd (received.filter (sameEvent it)) ++ [event] := by
      rw [upToEnd_append, hnone, if_neg Bool.false_ne_true,
        upToEnd_eq_self hnone]
    have hmax : (mergeEvents it event).duration =
        max event.duration it.duration := by
      rw [mergeEvents, hbit, if_neg Bool.false_ne_true]
    refine ⟨?_, ?_, hended⟩
    · rw [hfilter, hupTo, hmax]
      obtain hle | hle := le_total event.duration it.duration
      · rw [max_eq_right hle]
        exact ⟨e, List.mem_append_left _ he, hduration⟩
      · rw [max_eq_left hle]
        exact ⟨event, List.mem_append_right _ (List.mem_singleton_self _), rfl⟩
    · rw [hfilter, hupTo, hmax]
      intro x hx
      obtain hx | hx := List.mem_append.mp hx
      · exact (h.bound x hx).trans (le_max_right _ _)
      · rw [List.mem_singleton.mp hx]
        exact le_max_left _ _

theorem Longest.of_filter_eq {received' : List DtmfEvent}
    {it : DtmfEvent} (h : Longest received it)
    (hfilter : received'.filter (sameEvent it) =
      received.filter (sameEvent it)) : Longest received' it := by
  constructor
  · rw [hfilter]
    exact h.attained
  · rw [hfilter]
    exact h.bound
  · rw [hfilter]
    exact h.ended

/-! ## Runs -/

/-- A buffer, and the events that were received for the entries in it. -/
structure Recorded where
  buffer : DtmfBuffer
  received : List DtmfEvent := []

/-- Calls with what was received; nothing is known of erased entries. -/
def Recorded.call (r : Recorded) : DtmfCall → Recorded
  | .insertEvent event =>
    { buffer := (r.buffer.insertEvent event).2
      received := if event.valid then r.received ++ [event] else r.received }
  | .getEvent currentTimestamp =>
    let buffer := (r.buffer.getEvent currentTimestamp).2
    { buffer := buffer
      received := r.received.filter fun e =>
        buffer.buffer.any fun it => sameEvent it e }

/-- The buffer is sorted, has one entry for an event with the longest duration,
and every walk over it ends. -/
structure Recorded.Sound (r : Recorded) : Prop where
  sorted : SortedBy compareEvents r.buffer.buffer
  unique : r.buffer.buffer.Pairwise fun a c => sameEvent a c = false
  longest : ∀ it ∈ r.buffer.buffer, Longest r.received it
  ends : ∀ currentTimestamp, ∃ rounds s,
    loop (r.buffer.walk currentTimestamp) rounds { rest := r.buffer.buffer } =
      some s ∧ r.buffer.getEvent currentTimestamp =
        (s.found, { r.buffer with
          buffer := s.passed ++ s.rest })

/-- What runs keep. -/
structure Recorded.Kept (start : UInt32) (r : Recorded) : Prop where
  window : ∀ it ∈ r.buffer.buffer, it.InWindow start
  sorted : SortedBy compareEvents r.buffer.buffer
  unique : r.buffer.buffer.Pairwise fun a c => sameEvent a c = false
  longest : ∀ it ∈ r.buffer.buffer, Longest r.received it
  known : ∀ e ∈ r.received, ∃ it ∈ r.buffer.buffer, sameEvent it e = true

namespace Recorded

variable {start : UInt32} {r : Recorded}

theorem Kept.sound (h : r.Kept start) : r.Sound where
  sorted := h.sorted
  unique := h.unique
  longest := h.longest
  ends _ := ⟨_, _, loop_eq_finish DtmfBuffer.lowers_walk _, rfl⟩

theorem valid_eventNo {event : DtmfEvent} (hvalid : event.valid = true) :
    0 ≤ event.eventNo ∧ event.eventNo ≤ 15 := by
  rw [DtmfEvent.valid] at hvalid
  simp only [Bool.not_eq_true', Bool.or_eq_false_iff,
    decide_eq_false_iff_not] at hvalid
  omega

theorem Kept.merge (h : r.Kept start) {event it : DtmfEvent}
    {front back : List DtmfEvent}
    (hbuffer : r.buffer.buffer = front ++ it :: back)
    (hsame : sameEvent it event = true) :
    Kept start
      { buffer := { r.buffer with
          buffer := front ++ mergeEvents it event :: back }
        received := r.received ++ [event] } := by
  have hunique := h.unique
  rw [hbuffer, List.pairwise_append, List.pairwise_cons] at hunique
  obtain ⟨-, ⟨hback, -⟩, hcross⟩ := hunique
  have hother : ∀ x ∈ front ++ back,
      x ∈ r.buffer.buffer ∧ sameEvent x event = false := by
    intro x hx
    rw [hbuffer, ← (sameEvent_congr hsame x).2]
    obtain hx | hx := List.mem_append.mp hx
    · exact ⟨List.mem_append_left _ hx, hcross x hx it List.mem_cons_self⟩
    · exact ⟨List.mem_append_right _ (List.mem_cons_of_mem it hx),
        sameEvent_symm (hback x hx)⟩
  have hmem : ∀ x, x ∈ front ++ mergeEvents it event :: back ↔
      x = mergeEvents it event ∨ x ∈ front ++ back := by
    intro x
    rw [List.perm_middle.mem_iff, List.mem_cons]
  have hit : it ∈ r.buffer.buffer := by
    rw [hbuffer]
    exact List.mem_append_right _ List.mem_cons_self
  have hsorted := h.sorted
  have hunique := h.unique
  rw [hbuffer] at hsorted hunique
  constructor
  · intro x hx
    obtain rfl | hx := (hmem x).mp hx
    · exact h.window it hit
    · exact h.window x (hother x hx).1
  · exact pairwise_replace hsorted (fun _ hx => hx) fun _ hx => hx
  · exact pairwise_replace hunique (fun _ hx => hx) fun _ hx => hx
  · intro x hx
    obtain rfl | hx := (hmem x).mp hx
    · exact (h.longest it hit).merge hsame
    · refine (h.longest x (hother x hx).1).of_filter_eq ?_
      rw [List.filter_append, List.filter_cons_of_neg (by
        rw [(hother x hx).2]
        exact Bool.false_ne_true), List.filter_nil, List.append_nil]
  · intro e he
    have hmerged : ∀ y, sameEvent it y = true → ∃ x ∈ front ++
        mergeEvents it event :: back, sameEvent x y = true :=
      fun y hy => ⟨_, (hmem _).mpr (.inl rfl), hy⟩
    obtain he | he := List.mem_append.mp he
    · obtain ⟨y, hy, hye⟩ := h.known e he
      rw [hbuffer, List.perm_middle.mem_iff, List.mem_cons] at hy
      obtain rfl | hy := hy
      · exact hmerged e hye
      · exact ⟨y, (hmem y).mpr (.inr hy), hye⟩
    · rw [List.mem_singleton.mp he]
      exact hmerged event hsame

theorem Kept.append (h : r.Kept start) {event : DtmfEvent}
    (hevent : event.InWindow start)
    (hnew : ∀ it ∈ r.buffer.buffer, sameEvent it event = false) :
    Kept start
      { buffer := { r.buffer with
          buffer := (r.buffer.buffer ++ [event]).mergeSort
            fun x y => !compareEvents y x }
        received := r.received ++ [event] } := by
  have hwindow : ∀ it ∈ r.buffer.buffer ++ [event], it.InWindow start :=
    List.forall_mem_append.mpr ⟨h.window, List.forall_mem_singleton.mpr hevent⟩
  have hunknown : ∀ e ∈ r.received, sameEvent event e = false := by
    intro e he
    obtain ⟨it, hit, hsame⟩ := h.known e he
    rw [← (sameEvent_congr hsame event).2]
    exact sameEvent_symm (hnew it hit)
  constructor
  · intro it hit
    rw [List.mem_mergeSort] at hit
    exact hwindow it hit
  · exact sortedBy_mergeSort (DtmfEvent.key start) fun a ha c hc =>
      compareEvents_iff (hwindow a ha) (hwindow c hc)
  · refine (List.mergeSort_perm _ _).symm.pairwise ?_
      fun hsame => sameEvent_symm hsame
    exact List.pairwise_append.mpr ⟨h.unique, List.pairwise_singleton _ _,
      fun it hit x hx => by
        rw [List.mem_singleton.mp hx]
        exact hnew it hit⟩
  · intro it hit
    rw [List.mem_mergeSort] at hit
    obtain hit | hit := List.mem_append.mp hit
    · refine (h.longest it hit).of_filter_eq ?_
      rw [List.filter_append, List.filter_cons_of_neg (by
        rw [hnew it hit]
        exact Bool.false_ne_true), List.filter_nil, List.append_nil]
    · rw [List.mem_singleton.mp hit]
      exact longest_new hunknown
  · intro e he
    obtain he | he := List.mem_append.mp he
    · obtain ⟨it, hit, hsame⟩ := h.known e he
      exact ⟨it, List.mem_mergeSort.mpr (List.mem_append_left _ hit), hsame⟩
    · rw [List.mem_singleton.mp he]
      exact ⟨event, List.mem_mergeSort.mpr (List.mem_append_right _
        (List.mem_singleton_self event)), sameEvent_refl event⟩

theorem Kept.erase (h : r.Kept start) {buffer : DtmfBuffer}
    (hsublist : buffer.buffer.Sublist r.buffer.buffer) :
    Kept start
      { buffer := buffer
        received := r.received.filter fun e =>
          buffer.buffer.any fun it => sameEvent it e } := by
  constructor
  · exact fun it hit => h.window it (hsublist.subset hit)
  · exact List.Pairwise.sublist hsublist h.sorted
  · exact List.Pairwise.sublist hsublist h.unique
  · intro it hit
    refine (h.longest it (hsublist.subset hit)).of_filter_eq ?_
    rw [List.filter_filter]
    refine List.filter_congr fun e _ => ?_
    cases hsame : sameEvent it e with
    | false => rfl
    | true =>
      have hany : (buffer.buffer.any fun it => sameEvent it e) = true :=
        List.any_eq_true.mpr ⟨it, hit, hsame⟩
      rw [hany]
      rfl
  · intro e he
    obtain ⟨-, hany⟩ := List.mem_filter.mp he
    exact List.any_eq_true.mp hany

def InWindow (start : UInt32) : DtmfCall → Prop
  | .insertEvent event => (event.timestamp - start).toNat ≤ 2 ^ 30
  | .getEvent currentTimestamp => (currentTimestamp - start).toNat ≤ 2 ^ 30

theorem Kept.call (h : r.Kept start) {c : DtmfCall} (hc : InWindow start c) :
    (r.call c).Kept start := by
  cases c with
  | insertEvent event =>
    rw [Recorded.call, DtmfBuffer.insertEvent]
    cases hvalid : event.valid with
    | false => exact h
    | true =>
      rw [Bool.not_true, if_neg Bool.false_ne_true, if_pos rfl]
      cases hmerge : mergeInto event r.buffer.buffer with
      | none =>
        exact h.append ⟨hc, valid_eventNo hvalid⟩
          (mergeInto_eq_none hmerge)
      | some buffer =>
        obtain ⟨front, it, back, hbuffer, hsame, rfl⟩ :=
          mergeInto_eq_some hmerge
        exact h.merge hbuffer hsame
  | getEvent currentTimestamp => exact h.erase DtmfBuffer.getEvent_sublist

theorem Kept.foldl (h : r.Kept start) {calls : List DtmfCall}
    (hcalls : ∀ c ∈ calls, InWindow start c) :
    (calls.foldl Recorded.call r).Kept start := by
  induction calls generalizing r with
  | nil => exact h
  | cons c calls ih =>
    obtain ⟨hc, hrest⟩ := List.forall_mem_cons.mp hcalls
    exact ih (h.call hc) hrest

theorem new_buffer (fsHz : ℤ) : (DtmfBuffer.new fsHz).buffer = [] := by
  rw [DtmfBuffer.new, DtmfBuffer.setSampleRate]
  split <;> rfl

theorem sound_foldl (fsHz : ℤ) {calls : List DtmfCall}
    (hcalls : ∀ c ∈ calls, InWindow start c) :
    (calls.foldl Recorded.call { buffer := .new fsHz }).Sound := by
  have hnew : Kept start { buffer := .new fsHz } := by
    constructor
    · rw [new_buffer]
      exact fun it hit => absurd hit List.not_mem_nil
    · rw [new_buffer]
      exact List.Pairwise.nil
    · rw [new_buffer]
      exact List.Pairwise.nil
    · rw [new_buffer]
      exact fun it hit => absurd hit List.not_mem_nil
    · exact fun e he => absurd he List.not_mem_nil
  exact (hnew.foldl hcalls).sound

end Recorded

end WebrtcWinXp.NetEq
