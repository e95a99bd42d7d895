import WebrtcWinXp.P2p.Transport

/-!
# The state of a transport

When no message is pending, a transport is as readable and writable as its
channels.  A channel counts as allocated when its latest request for
signalling was followed by the end of its allocation.
-/

namespace WebrtcWinXp.P2p

open Support

/-! ## What is asked of a transport -/

def IsAggregate (flags : List Bool) : TransportState → Prop
  | .TRANSPORT_STATE_ALL => flags ≠ [] ∧ ∀ b ∈ flags, b = true
  | .TRANSPORT_STATE_SOME => (∃ b ∈ flags, b = true) ∧ ∃ b ∈ flags, b = false
  | .TRANSPORT_STATE_NONE => ∀ b ∈ flags, b = false

/-- The latest request for signalling was followed by the end of the
allocation. -/
def Settled (history : List AllocationEvent) : Prop :=
  ∃ before after, history = before ++ .requestSignaling :: after ∧
    .requestSignaling ∉ after ∧ .candidatesAllocationDone ∈ after

/-- At least one channel, and all of them are complete. -/
structure Complete (channels : List (ℤ × ChannelMapEntry)) : Prop where
  ne_nil : channels ≠ []
  complete : ∀ e ∈ channels, e.2.impl.writable ∧
    e.2.impl.iceRole = .ICEROLE_CONTROLLING ∧ e.2.candidatesAllocated ∧
      e.2.impl.connectionCount = 1

/-- What is asked of a transport. -/
structure Aggregated (t : Transport) : Prop where
  readable : t.queue = [] → IsAggregate t.readFlags t.readable
  writable : t.queue = [] → IsAggregate t.writeFlags t.writable
  allocated : ∀ component entry, t.channels.find component = some entry →
    .MSG_REQUESTSIGNALING component ∉ t.queue →
      (entry.candidatesAllocated ↔ Settled entry.impl.history)
  completed : ∀ channels ∈ t.completions, Complete channels
  once : t.reported.Perm (t.signalled.map (·.candidate) ++
    (t.readyCandidates ++ t.cleared))
  held : ∀ s ∈ t.signalled, s.connectRequested
  delivered : t.connectRequested → t.queue = [] → t.readyCandidates = []

/-- A channel counts as allocated in every state. -/
def AllocatedExactly (t : Transport) : Prop :=
  ∀ component entry, t.channels.find component = some entry →
    (entry.candidatesAllocated ↔ Settled entry.impl.history)

/-- An event that keeps the aggregate.  A channel is created while the
channels are not all readable or all writable, or while the change is about
to be noticed; the last channel is not destroyed, nor one on which the
readable state depends; the end of an allocation is told after its request
was handled; and candidates are signalled while connecting is requested. -/
def Event.Careful (t : Transport) : Event → Prop
  | .createChannel component =>
    t.channels.find component = none →
      (t.getTransportState true = .TRANSPORT_STATE_ALL →
        .MSG_READSTATE ∈ t.queue) ∧
      (t.getTransportState false = .TRANSPORT_STATE_ALL →
        .MSG_WRITESTATE ∈ t.queue)
  | .destroyChannel component =>
    ∀ entry, t.channels.find component = some entry → entry.ref ≤ 1 →
      (t.eraseChannel component).channels.entries ≠ [] ∧
      (.MSG_READSTATE ∈ t.queue ∨
        (t.eraseChannel component).getTransportState true =
          t.getTransportState true)
  | .allocationDone component =>
    .MSG_REQUESTSIGNALING component ∉ t.queue ∧
      ∀ entry, t.channels.find component = some entry →
        .requestSignaling ∈ entry.impl.history
  | .message =>
    t.queue.head? = some .MSG_CANDIDATEREADY →
      t.connectRequested ∨ t.readyCandidates = []
  | _ => True

/-- A channel requests signalling only while it does not count as
allocated. -/
def Event.RequestsAnew (t : Transport) : Event → Prop
  | .requestSignaling component =>
    ∀ entry, t.channels.find component = some entry →
      ¬entry.candidatesAllocated
  | _ => True

theorem isAggregate_stateOf (flags : List Bool) :
    IsAggregate flags (Transport.stateOf flags) := by
  unfold Transport.stateOf
  by_cases hall : !flags.isEmpty && flags.all id
  · rw [if_pos hall]
    simpa [IsAggregate] using hall
  rw [if_neg hall]
  by_cases hany : flags.any id
  · rw [if_pos hany]
    have hsome : ∃ b ∈ flags, b = true := by simpa using hany
    refine ⟨hsome, ?_⟩
    by_contra hnone
    push Not at hnone
    refine hall ?_
    obtain ⟨b, hb, -⟩ := hsome
    simp only [Bool.and_eq_true, Bool.not_eq_true', List.isEmpty_eq_false_iff,
      List.all_eq_true, id]
    exact ⟨List.ne_nil_of_mem hb, fun b hb => by simpa using hnone b hb⟩
  · rw [if_neg hany]
    simpa [IsAggregate] using hany

theorem not_settled_request (history : List AllocationEvent) :
    ¬Settled (history ++ [.requestSignaling]) := by
  rintro ⟨before, after, heq, hnot, hdone⟩
  obtain ⟨front, last, rfl⟩ :=
    (List.eq_nil_or_concat after).resolve_left (List.ne_nil_of_mem hdone)
  rw [List.concat_eq_append, ← List.cons_append, ← List.append_assoc] at heq
  obtain ⟨-, hlast⟩ := List.append_inj' heq rfl
  refine hnot ?_
  rw [List.concat_eq_append, ← hlast]
  simp

theorem settled_done {history : List AllocationEvent}
    (h : .requestSignaling ∈ history) :
    Settled (history ++ [.candidatesAllocationDone]) := by
  obtain ⟨back, front, heq, hnot⟩ :=
    List.eq_append_cons_of_mem (List.mem_reverse.mpr h)
  refine ⟨front.reverse, back.reverse ++ [.candidatesAllocationDone], ?_, ?_,
    by simp⟩
  · have hsplit := congrArg List.reverse heq
    rw [List.reverse_reverse] at hsplit
    rw [hsplit]
    simp
  · simpa using hnot

theorem not_settled_nil : ¬Settled [] := by
  rintro ⟨before, after, heq, -⟩
  simp at heq

namespace Transport

variable {t t' t'' : Transport}

/-! ## Changes that keep the aggregate -/

/-- A change of the channels that keeps what they have signalled and posts
what it changes otherwise. -/
structure Tame (t t' : Transport) : Prop where
  exists_map : ∃ f, t'.channels = t.channels.mapValues f ∧
    (∀ k entry, (f k entry).impl.history = entry.impl.history ∧
      (f k entry).candidatesAllocated = entry.candidatesAllocated) ∧
    (.MSG_READSTATE ∈ t'.queue ∨
      ∀ k entry, (f k entry).impl.readable = entry.impl.readable) ∧
    (.MSG_WRITESTATE ∈ t'.queue ∨
      ∀ k entry, (f k entry).impl.writable = entry.impl.writable)
  exists_posted : ∃ posted, t'.queue = t.queue ++ posted ∧
    ∀ component, .MSG_REQUESTSIGNALING component ∉ posted
  readable_eq : t'.readable = t.readable
  writable_eq : t'.writable = t.writable
  connectRequested_eq : t'.connectRequested = t.connectRequested
  readyCandidates_eq : t'.readyCandidates = t.readyCandidates
  reported_eq : t'.reported = t.reported
  signalled_eq : t'.signalled = t.signalled
  cleared_eq : t'.cleared = t.cleared
  completed : ∀ channels ∈ t'.completions,
    channels ∈ t.completions ∨ Complete channels

theorem Tame.subset (h : Tame t t') {message : Message}
    (hmem : message ∈ t.queue) : message ∈ t'.queue := by
  obtain ⟨posted, hqueue, -⟩ := h.exists_posted
  rw [hqueue]
  exact List.mem_append_left _ hmem

theorem mapValues_id (m : ChannelMap) : m.mapValues (fun _ v => v) = m := by
  cases m
  simp [OrderedMap.mapValues]

theorem Tame.refl (t : Transport) : Tame t t where
  exists_map := ⟨fun _ entry => entry, (mapValues_id _).symm,
    fun _ _ => ⟨rfl, rfl⟩, .inr fun _ _ => rfl, .inr fun _ _ => rfl⟩
  exists_posted := ⟨[], (List.append_nil _).symm, fun _ => List.not_mem_nil⟩
  readable_eq := rfl
  writable_eq := rfl
  connectRequested_eq := rfl
  readyCandidates_eq := rfl
  reported_eq := rfl
  signalled_eq := rfl
  cleared_eq := rfl
  completed _ := .inl

theorem Tame.trans (h : Tame t t') (h' : Tame t' t'') : Tame t t'' where
  exists_map := by
    obtain ⟨f, hchannels, hkeep, hread, hwrite⟩ := h.exists_map
    obtain ⟨g, hchannels', hkeep', hread', hwrite'⟩ := h'.exists_map
    refine ⟨fun k entry => g k (f k entry), ?_, fun k entry => ?_, ?_, ?_⟩
    · rw [hchannels', hchannels]
      simp [OrderedMap.mapValues]
    · exact ⟨(hkeep' k _).1.trans (hkeep k entry).1,
        (hkeep' k _).2.trans (hkeep k entry).2⟩
    · rcases hread' with hposted | hsame'
      · exact .inl hposted
      rcases hread with hposted | hsame
      · exact .inl (h'.subset hposted)
      · exact .inr fun k entry => (hsame' k _).trans (hsame k entry)
    · rcases hwrite' with hposted | hsame'
      · exact .inl hposted
      rcases hwrite with hposted | hsame
      · exact .inl (h'.subset hposted)
      · exact .inr fun k entry => (hsame' k _).trans (hsame k entry)
  exists_posted := by
    obtain ⟨posted, hqueue, hnot⟩ := h.exists_posted
    obtain ⟨posted', hqueue', hnot'⟩ := h'.exists_posted
    refine ⟨posted ++ posted', ?_, fun component hmem => ?_⟩
    · rw [hqueue', hqueue, List.append_assoc]
    · rcases List.mem_append.mp hmem with hmem | hmem
      · exact hnot component hmem
      · exact hnot' component hmem
  readable_eq := h'.readable_eq.trans h.readable_eq
  writable_eq := h'.writable_eq.trans h.writable_eq
  connectRequested_eq := h'.connectRequested_eq.trans h.connectRequested_eq
  readyCandidates_eq := h'.readyCandidates_eq.trans h.readyCandidates_eq
  reported_eq := h'.reported_eq.trans h.reported_eq
  signalled_eq := h'.signalled_eq.trans h.signalled_eq
  cleared_eq := h'.cleared_eq.trans h.cleared_eq
  completed := by
    intro channels hmem
    rcases h'.completed channels hmem with hmem | hcomplete
    · exact h.completed channels hmem
    · exact .inr hcomplete

theorem Tame.entries_ne_nil (h : Tame t t') :
    t'.channels.entries ≠ [] ↔ t.channels.entries ≠ [] := by
  obtain ⟨f, hchannels, -⟩ := h.exists_map
  rw [hchannels]
  simp [OrderedMap.mapValues]

theorem tame_mapValues {f : ℤ → ChannelMapEntry → ChannelMapEntry}
    (hkeep : ∀ k entry, (f k entry).impl.history = entry.impl.history ∧
      (f k entry).candidatesAllocated = entry.candidatesAllocated ∧
      (f k entry).impl.readable = entry.impl.readable ∧
      (f k entry).impl.writable = entry.impl.writable) :
    Tame t { t with channels := t.channels.mapValues f } where
  exists_map := ⟨f, rfl, fun k entry => ⟨(hkeep k entry).1,
    (hkeep k entry).2.1⟩, .inr fun k entry => (hkeep k entry).2.2.1,
    .inr fun k entry => (hkeep k entry).2.2.2⟩
  exists_posted := (Tame.refl t).exists_posted
  readable_eq := rfl
  writable_eq := rfl
  connectRequested_eq := rfl
  readyCandidates_eq := rfl
  reported_eq := rfl
  signalled_eq := rfl
  cleared_eq := rfl
  completed _ := .inl

theorem tame_post {message : Message}
    (hnot : ∀ component, message ≠ .MSG_REQUESTSIGNALING component) :
    Tame t (t.post message) where
  exists_map := (⟨fun _ entry => entry, (mapValues_id _).symm,
    fun _ _ => ⟨rfl, rfl⟩, .inr fun _ _ => rfl, .inr fun _ _ => rfl⟩)
  exists_posted := ⟨[message], rfl, fun component hmem =>
    hnot component (List.mem_singleton.mp hmem).symm⟩
  readable_eq := rfl
  writable_eq := rfl
  connectRequested_eq := rfl
  readyCandidates_eq := rfl
  reported_eq := rfl
  signalled_eq := rfl
  cleared_eq := rfl
  completed _ := .inl

theorem complete_entries (hne : t.channels.entries ≠ [])
    (hall : t.channels.entries.all fun e => isCompleted e.2) :
    Complete t.channels.entries := by
  refine ⟨hne, fun e he => ?_⟩
  have hentry := List.all_eq_true.mp hall e he
  simp only [isCompleted, Bool.and_eq_true, beq_iff_eq] at hentry
  exact ⟨hentry.1.1.1, hentry.1.2, hentry.2, hentry.1.1.2⟩

theorem tame_maybeCompleted (hne : t.channels.entries ≠ []) :
    Tame t t.maybeCompleted := by
  unfold maybeCompleted
  split
  · rename_i hall
    have hpost : Tame t (t.post .MSG_COMPLETED) := tame_post (by simp)
    refine ⟨hpost.exists_map, hpost.exists_posted, rfl, rfl, rfl, rfl, rfl,
      rfl, rfl, ?_⟩
    intro channels hmem
    rcases List.mem_append.mp hmem with hmem | hmem
    · exact .inl hmem
    · rw [List.mem_singleton.mp hmem]
      exact .inr (complete_entries hne hall)
  · exact .refl t

theorem entries_ne_nil_of_find {component : ℤ} {entry : ChannelMapEntry}
    (h : t.channels.find component = some entry) :
    t.channels.entries ≠ [] :=
  List.ne_nil_of_mem (OrderedMap.find_eq_some_iff _ |>.mp h)

theorem tame_setChannelReadable (component : ℤ) (readable : Bool)
    (t : Transport) : Tame t (t.setChannelReadable component readable) := by
  unfold setChannelReadable
  split
  · exact .refl t
  split
  · exact .refl t
  have hread : Message.MSG_READSTATE ∈ (onChannelReadableState
      (t.modifyImpl component fun impl =>
        { impl with readable := readable })).queue := by
    simp [onChannelReadableState, post]
  refine ⟨⟨fun k entry => if k = component then
      { entry with impl := { entry.impl with readable := readable } }
    else entry, rfl, fun k entry => ?_, .inl hread, .inr fun k entry => ?_⟩,
    ⟨[.MSG_READSTATE], rfl, by simp⟩, rfl, rfl, rfl, rfl, rfl, rfl, rfl,
    fun _ => .inl⟩
  · dsimp only
    split <;> exact ⟨rfl, rfl⟩
  · dsimp only
    split <;> rfl

theorem tame_setChannelWritable (component : ℤ) (writable : Bool)
    (t : Transport) : Tame t (t.setChannelWritable component writable) := by
  unfold setChannelWritable
  split
  · exact .refl t
  rename_i entry hfind
  split
  · exact .refl t
  have hposted : Tame t ((t.modifyImpl component fun impl =>
      { impl with writable := writable }).post .MSG_WRITESTATE) := by
    have hwrite : Message.MSG_WRITESTATE ∈ ((t.modifyImpl component fun impl =>
        { impl with writable := writable }).post .MSG_WRITESTATE).queue := by
      simp [post]
    refine ⟨⟨fun k entry => if k = component then
        { entry with impl := { entry.impl with writable := writable } }
      else entry, rfl, fun k entry => ?_, .inr fun k entry => ?_, .inl hwrite⟩,
      ⟨[.MSG_WRITESTATE], rfl, by simp⟩, rfl, rfl, rfl, rfl, rfl, rfl, rfl,
      fun _ => .inl⟩
    · dsimp only
      split <;> exact ⟨rfl, rfl⟩
    · dsimp only
      split <;> rfl
  refine hposted.trans (tame_maybeCompleted ?_)
  exact hposted.entries_ne_nil.mpr (entries_ne_nil_of_find hfind)

end Transport

end WebrtcWinXp.P2p
