import WebrtcWinXp.P2p.Aggregate

/-!
# The invariant of a transport

Each state that is out of date has a message pending that brings it up to
date.  The steps of a careful run keep this, and without pending messages it
says that the transport is the aggregate of its channels.
-/

namespace WebrtcWinXp.P2p

open Support

namespace Transport

variable {t t' : Transport} {anew : Prop}

/-- What holds of a channel's allocation while its request may be pending. -/
structure Recorded (anew : Prop) (t : Transport) (component : ℤ)
    (entry : ChannelMapEntry) : Prop where
  pending : .MSG_REQUESTSIGNALING component ∈ t.queue →
    ¬Settled entry.impl.history
  allocated : (.MSG_REQUESTSIGNALING component ∈ t.queue → anew) →
    (entry.candidatesAllocated ↔ Settled entry.impl.history)

variable {component : ℤ}

theorem Recorded.congr {entry : ChannelMapEntry}
    (h : Recorded anew t component entry)
    (hrequest : .MSG_REQUESTSIGNALING component ∈ t'.queue ↔
      .MSG_REQUESTSIGNALING component ∈ t.queue) :
    Recorded anew t' component entry where
  pending hmem := h.pending (hrequest.mp hmem)
  allocated hallowed :=
    h.allocated fun hmem => hallowed (hrequest.mpr hmem)

/-- The invariant.  With `anew`, signalling is only requested for channels
that do not count as allocated. -/
structure Inv (anew : Prop) (t : Transport) : Prop where
  read : .MSG_READSTATE ∈ t.queue ∨ t.readable = t.getTransportState true
  write : .MSG_WRITESTATE ∈ t.queue ∨ t.writable = t.getTransportState false
  recorded : ∀ component entry, (component, entry) ∈ t.channels.entries →
    Recorded anew t component entry
  completed : ∀ channels ∈ t.completions, Complete channels
  once : t.reported.Perm (t.signalled.map (·.candidate) ++
    (t.readyCandidates ++ t.cleared))
  held : ∀ s ∈ t.signalled, s.connectRequested
  promised : t.connectRequested → t.readyCandidates ≠ [] →
    .MSG_CANDIDATEREADY ∈ t.queue

theorem Inv.new : Inv anew new where
  read := .inr rfl
  write := .inr rfl
  recorded _ _ hmem := absurd hmem List.not_mem_nil
  completed _ hmem := absurd hmem List.not_mem_nil
  once := .refl _
  held _ hmem := absurd hmem List.not_mem_nil
  promised hconnect := absurd hconnect (by simp [Transport.new])

theorem Inv.aggregated (h : Inv anew t) : Aggregated t where
  readable hidle := by
    have heq := h.read.resolve_left (by simp [hidle])
    rw [heq]
    exact isAggregate_stateOf _
  writable hidle := by
    have heq := h.write.resolve_left (by simp [hidle])
    rw [heq]
    exact isAggregate_stateOf _
  allocated component entry hfind hnot :=
    (h.recorded component entry ((OrderedMap.find_eq_some_iff _).mp
      hfind)).allocated fun hmem => absurd hmem hnot
  completed := h.completed
  once := h.once
  held := h.held
  delivered hconnect hidle := by
    by_contra hne
    have hmem := h.promised hconnect hne
    rw [hidle] at hmem
    exact absurd hmem List.not_mem_nil

theorem Inv.allocatedExactly (h : Inv True t) : AllocatedExactly t :=
  fun component entry hfind => (h.recorded component entry
    ((OrderedMap.find_eq_some_iff _).mp hfind)).allocated fun _ => trivial

theorem readFlags_mapValues {f : ℤ → ChannelMapEntry → ChannelMapEntry}
    (h : ∀ k entry, (f k entry).impl.readable = entry.impl.readable)
    (hchannels : t'.channels = t.channels.mapValues f) :
    t'.readFlags = t.readFlags := by
  rw [readFlags, hchannels]
  simp [OrderedMap.mapValues, readFlags, h]

theorem writeFlags_mapValues {f : ℤ → ChannelMapEntry → ChannelMapEntry}
    (h : ∀ k entry, (f k entry).impl.writable = entry.impl.writable)
    (hchannels : t'.channels = t.channels.mapValues f) :
    t'.writeFlags = t.writeFlags := by
  rw [writeFlags, hchannels]
  simp [OrderedMap.mapValues, writeFlags, h]

theorem Tame.request_iff (h : Tame t t') (component : ℤ) :
    .MSG_REQUESTSIGNALING component ∈ t'.queue ↔
      .MSG_REQUESTSIGNALING component ∈ t.queue := by
  obtain ⟨posted, hqueue, hnot⟩ := h.exists_posted
  rw [hqueue, List.mem_append]
  exact ⟨fun hmem => hmem.resolve_right (hnot component), .inl⟩

theorem Inv.tame (h : Inv anew t) (ht : Tame t t') : Inv anew t' := by
  obtain ⟨f, hchannels, hkeep, hread, hwrite⟩ := ht.exists_map
  constructor
  · rcases hread with hposted | hsame
    · exact .inl hposted
    refine h.read.imp ht.subset fun heq => ?_
    have hflags := readFlags_mapValues hsame hchannels
    rw [ht.readable_eq, heq, getTransportState, getTransportState]
    simp only [hflags, if_true]
  · rcases hwrite with hposted | hsame
    · exact .inl hposted
    refine h.write.imp ht.subset fun heq => ?_
    have hflags := writeFlags_mapValues hsame hchannels
    rw [ht.writable_eq, heq, getTransportState, getTransportState]
    simp only [hflags, Bool.false_eq_true, if_false]
  · intro component entry hmem
    rw [hchannels, OrderedMap.mem_mapValues] at hmem
    obtain ⟨old, hold, rfl⟩ := hmem
    obtain ⟨hhistory, hallocated⟩ := hkeep component old
    have hrecorded := (h.recorded component old hold).congr
      (ht.request_iff component)
    constructor
    · rw [hhistory]
      exact hrecorded.pending
    · rw [hhistory, hallocated]
      exact hrecorded.allocated
  · intro channels hmem
    rcases ht.completed channels hmem with hold | hcomplete
    · exact h.completed channels hold
    · exact hcomplete
  · rw [ht.reported_eq, ht.signalled_eq, ht.readyCandidates_eq, ht.cleared_eq]
    exact h.once
  · rw [ht.signalled_eq]
    exact h.held
  · rw [ht.connectRequested_eq, ht.readyCandidates_eq]
    exact fun hconnect hne => ht.subset (h.promised hconnect hne)

theorem tame_modifyChannel (component : ℤ)
    {f : ChannelMapEntry → ChannelMapEntry}
    (hkeep : ∀ entry, (f entry).impl.history = entry.impl.history ∧
      (f entry).candidatesAllocated = entry.candidatesAllocated ∧
      (f entry).impl.readable = entry.impl.readable ∧
      (f entry).impl.writable = entry.impl.writable) :
    Tame t (t.modifyChannel component f) := by
  refine tame_mapValues fun k entry => ?_
  split
  · exact hkeep entry
  · exact ⟨rfl, rfl, rfl, rfl⟩

theorem tame_resetChannel (component : ℤ) (t : Transport) :
    Tame t (t.resetChannel component) := by
  have hcount : Tame t (t.modifyImpl component fun impl =>
      { impl with connectionCount := 0 }) :=
    tame_modifyChannel component fun _ => ⟨rfl, rfl, rfl, rfl⟩
  exact (hcount.trans (tame_setChannelReadable _ _ _)).trans
    (tame_setChannelWritable _ _ _)

theorem tame_foldl_resetChannel (l : List (ℤ × ChannelMapEntry))
    (t : Transport) : Tame t (l.foldl (fun t e => t.resetChannel e.1) t) := by
  induction l generalizing t with
  | nil => exact .refl t
  | cons e l ih => exact (tame_resetChannel e.1 t).trans (ih _)

theorem tame_setIceRole (role : IceRole) (t : Transport) :
    Tame t (t.setIceRole role) := by
  have hrole : Tame t { t with iceRole := role } :=
    { Tame.refl t with }
  exact hrole.trans (tame_mapValues fun _ _ => ⟨rfl, rfl, rfl, rfl⟩)

theorem tame_onChannelConnectionRemoved (component : ℤ)
    (hne : t.channels.entries ≠ []) :
    Tame t (t.onChannelConnectionRemoved component) := by
  have hcompleted := tame_maybeCompleted hne
  unfold onChannelConnectionRemoved
  dsimp only
  split
  · exact hcompleted
  split
  · exact hcompleted
  split
  · exact hcompleted
  split
  · exact hcompleted.trans (tame_post (by simp))
  · exact hcompleted

theorem stateOf_eq_of_not_all {flags flags' : List Bool}
    (hmem : ∀ b, b ∈ flags' ↔ b = false ∨ b ∈ flags)
    (hnot : stateOf flags ≠ .TRANSPORT_STATE_ALL) :
    stateOf flags' = stateOf flags := by
  have hall : ¬(!flags'.isEmpty && flags'.all id) := by
    simp only [Bool.and_eq_true, List.all_eq_true, id, not_and]
    exact fun _ hall => by simpa using hall false ((hmem false).mpr (.inl rfl))
  have hall' : ¬(!flags.isEmpty && flags.all id) :=
    fun hall' => hnot (by rw [stateOf, if_pos hall'])
  have hany : flags'.any id = flags.any id := by
    rw [Bool.eq_iff_iff]
    simp [hmem]
  rw [stateOf, stateOf, if_neg hall, if_neg hall', hany]

theorem mem_map_insert {m : ChannelMap}
    {entry : ChannelMapEntry} (hfind : m.find component = none)
    (flag : Channel → Bool) (b : Bool) :
    b ∈ (m.insert component entry).entries.map (fun e => flag e.2.impl) ↔
      b = flag entry.impl ∨ b ∈ m.entries.map fun e => flag e.2.impl := by
  simp only [List.mem_map]
  constructor
  · rintro ⟨⟨k, v⟩, hmem, rfl⟩
    rcases m.mem_insert hmem with ⟨heq, -⟩ | hold
    · cases heq
      exact .inl rfl
    · exact .inr ⟨(k, v), hold, rfl⟩
  · rintro (rfl | ⟨⟨k, v⟩, hmem, rfl⟩)
    · exact ⟨(component, entry), m.mem_insert_self hfind, rfl⟩
    · exact ⟨(k, v), m.mem_insert_of_mem hmem, rfl⟩

theorem Inv.createChannel (h : Inv anew t)
    (hcareful : (Event.createChannel component).Careful t) :
    Inv anew (t.createChannel component) := by
  unfold Transport.createChannel
  split
  · exact h.tame (tame_modifyChannel component fun _ => ⟨rfl, rfl, rfl, rfl⟩)
  rename_i hfind
  obtain ⟨hread, hwrite⟩ := hcareful hfind
  have hcreated : Inv anew { t with
      channels := t.channels.insert component
        ⟨⟨false, false, t.iceRole, 0, []⟩, false, 1⟩ } := by
    refine ⟨?_, ?_, ?_, h.completed, h.once, h.held, h.promised⟩
    · by_cases hall : t.getTransportState true = .TRANSPORT_STATE_ALL
      · exact .inl (hread hall)
      refine h.read.imp id fun heq => heq.trans (Eq.symm ?_)
      exact stateOf_eq_of_not_all (mem_map_insert hfind (·.readable)) hall
    · by_cases hall : t.getTransportState false = .TRANSPORT_STATE_ALL
      · exact .inl (hwrite hall)
      refine h.write.imp id fun heq => heq.trans (Eq.symm ?_)
      exact stateOf_eq_of_not_all (mem_map_insert hfind (·.writable)) hall
    · intro k entry hmem
      rcases t.channels.mem_insert hmem with ⟨heq, -⟩ | hold
      · cases heq
        exact ⟨fun _ => not_settled_nil, fun _ => by simp [not_settled_nil]⟩
      · exact (h.recorded k entry hold).congr .rfl
  dsimp only
  split
  · exact hcreated.tame (tame_post (by simp))
  · exact hcreated

theorem Inv.destroyChannel (h : Inv anew t)
    (hcareful : (Event.destroyChannel component).Careful t) :
    Inv anew (t.destroyChannel component) := by
  unfold Transport.destroyChannel
  split
  · exact h
  rename_i entry hfind
  split
  · exact h.tame (tame_modifyChannel component fun _ => ⟨rfl, rfl, rfl, rfl⟩)
  rename_i href
  obtain ⟨hne, hread⟩ := hcareful entry hfind (by omega)
  dsimp only
  rw [if_neg fun hempty => hne hempty.2, onChannelWritableState]
  have herased : Inv anew
      ((t.eraseChannel component).post .MSG_WRITESTATE) := by
    refine ⟨?_, ?_, ?_, h.completed, h.once, h.held, ?_⟩
    · refine hread.elim (fun hposted => .inl (List.mem_append_left _ hposted))
        fun hsame => ?_
      exact h.read.imp (fun hposted => List.mem_append_left _ hposted)
        fun heq => heq.trans hsame.symm
    · exact .inl (List.mem_append_right _ (List.mem_singleton_self _))
    · intro k old hmem
      have hold : (k, old) ∈ t.channels.entries := by
        obtain ⟨v, hv, hkept⟩ := (OrderedMap.mem_filterMapValues _).mp hmem
        split at hkept
        · cases hkept
        · cases hkept
          exact hv
      exact (h.recorded k old hold).congr (by simp [post, eraseChannel])
    · exact fun hconnect hready =>
        List.mem_append_left _ (h.promised hconnect hready)
  exact herased.tame (tame_maybeCompleted hne)

/-! ## Allocation -/

theorem Inv.requestSignaling (h : Inv anew t)
    (hanew : anew → (Event.requestSignaling component).RequestsAnew t) :
    Inv anew (t.onChannelRequestSignaling component) := by
  have hchannels : (t.onChannelRequestSignaling component).channels =
      t.channels.mapValues fun k entry => if k = component then
        { entry with
          impl := { entry.impl with
            history := entry.impl.history ++ [.requestSignaling] } }
      else entry := rfl
  refine ⟨?_, ?_, ?_, h.completed, h.once, h.held, ?_⟩
  · refine h.read.imp (List.mem_append_left _) fun heq => heq.trans (Eq.symm ?_)
    refine congrArg stateOf (readFlags_mapValues (fun k entry => ?_) hchannels)
    split <;> rfl
  · refine h.write.imp (List.mem_append_left _) fun heq =>
      heq.trans (Eq.symm ?_)
    refine congrArg stateOf (writeFlags_mapValues (fun k entry => ?_) hchannels)
    split <;> rfl
  · intro k entry hmem
    obtain ⟨old, hold, rfl⟩ := (OrderedMap.mem_mapValues _).mp hmem
    by_cases hk : k = component
    · subst hk
      simp only [if_true]
      refine ⟨fun _ => not_settled_request _, fun hallowed => ?_⟩
      have hflag := hanew (hallowed (List.mem_append_right _
        (List.mem_singleton_self _))) old
          ((OrderedMap.find_eq_some_iff _).mpr hold)
      exact iff_of_false hflag (not_settled_request _)
    · simp only [if_neg hk]
      refine (h.recorded k old hold).congr ?_
      simp [onChannelRequestSignaling, note, modifyImpl, modifyChannel, post,
        hk]
  · exact fun hconnect hready =>
      List.mem_append_left _ (h.promised hconnect hready)

theorem Inv.allocationDone (h : Inv anew t)
    (hsome : (t.channels.find component).isSome)
    (hcareful : (Event.allocationDone component).Careful t) :
    Inv anew (t.onChannelCandidatesAllocationDone component) := by
  obtain ⟨hnot, hrequested⟩ := hcareful
  have hnoted : Inv anew ((t.note .candidatesAllocationDone component
      ).modifyChannel component fun entry =>
        { entry with candidatesAllocated := true }) := by
    have hchannels : ((t.note .candidatesAllocationDone component
        ).modifyChannel component fun entry =>
          { entry with candidatesAllocated := true }).channels =
        t.channels.mapValues fun k entry => if k = component then
          ⟨{ entry.impl with
            history := entry.impl.history ++ [.candidatesAllocationDone] },
            true, entry.ref⟩ else entry := by
      simp only [note, modifyImpl, modifyChannel, OrderedMap.modify,
        OrderedMap.mapValues, List.map_map]
      congr 1
      refine List.map_congr_left fun e _ => ?_
      by_cases hk : e.1 = component <;> simp [hk]
    refine ⟨?_, ?_, ?_, h.completed, h.once, h.held, h.promised⟩
    · refine h.read.imp id fun heq => heq.trans (Eq.symm ?_)
      refine congrArg stateOf (readFlags_mapValues (fun k entry => ?_)
        hchannels)
      split <;> rfl
    · refine h.write.imp id fun heq => heq.trans (Eq.symm ?_)
      refine congrArg stateOf (writeFlags_mapValues (fun k entry => ?_)
        hchannels)
      split <;> rfl
    · intro k entry hmem
      rw [hchannels, OrderedMap.mem_mapValues] at hmem
      obtain ⟨old, hold, rfl⟩ := hmem
      by_cases hk : k = component
      · subst hk
        simp only [if_true]
        refine ⟨fun hpending => absurd hpending hnot, fun _ => ?_⟩
        exact iff_of_true rfl (settled_done (hrequested old
          ((OrderedMap.find_eq_some_iff _).mpr hold)))
      · simp only [if_neg hk]
        exact (h.recorded k old hold).congr .rfl
  have hne : t.channels.entries ≠ [] := by
    obtain ⟨entry, hfind⟩ := Option.isSome_iff_exists.mp hsome
    exact entries_ne_nil_of_find hfind
  unfold onChannelCandidatesAllocationDone
  dsimp only
  split
  · have hposted : Tame ((t.note .candidatesAllocationDone component
        ).modifyChannel component fun entry =>
          { entry with candidatesAllocated := true })
        (((t.note .candidatesAllocationDone component
          ).modifyChannel component fun entry =>
            { entry with candidatesAllocated := true }).post
              .MSG_CANDIDATEALLOCATIONCOMPLETE) := tame_post (by simp)
    refine hnoted.tame (hposted.trans (tame_maybeCompleted ?_))
    simpa [post, note, modifyImpl, modifyChannel, OrderedMap.modify,
      OrderedMap.mapValues] using hne
  · exact hnoted

theorem Inv.candidateReady (h : Inv anew t) (candidate : Candidate) :
    Inv anew (t.onChannelCandidateReady candidate) := by
  have honce : (t.reported ++ [candidate]).Perm
      (t.signalled.map (·.candidate) ++
        (t.readyCandidates ++ [candidate] ++ t.cleared)) := by
    refine (List.perm_append_singleton _ _).trans
      ((h.once.cons candidate).trans ?_)
    refine List.perm_middle.symm.trans (List.Perm.append_left _ ?_)
    rw [List.append_assoc]
    exact List.perm_middle.symm
  unfold onChannelCandidateReady
  dsimp only
  split
  · refine ⟨h.read.imp (List.mem_append_left _) id,
      h.write.imp (List.mem_append_left _) id, fun k entry hmem => ?_,
      h.completed, honce, h.held, fun _ _ => by simp [post]⟩
    exact (h.recorded k entry hmem).congr (by simp [post])
  · rename_i hconnect
    exact ⟨h.read, h.write,
      fun k entry hmem => (h.recorded k entry hmem).congr .rfl,
      h.completed, honce, h.held, fun hrequested => absurd hrequested hconnect⟩

theorem Inv.connectChannels (h : Inv anew t) :
    Inv anew t.connectChannels := by
  unfold Transport.connectChannels
  split
  · exact h
  dsimp only
  have hposted : Inv anew (t.post .MSG_CANDIDATEREADY) :=
    h.tame (tame_post (by simp))
  have hrequested : Inv anew
      ({ t with connectRequested := true }.post .MSG_CANDIDATEREADY) := by
    exact ⟨hposted.read, hposted.write,
      fun k entry hmem => (hposted.recorded k entry hmem).congr .rfl,
      hposted.completed, hposted.once, hposted.held, fun _ _ => by simp [post]⟩
  exact hrequested.tame (tame_post (by simp))

theorem Inv.resetChannels (h : Inv anew t) : Inv anew t.resetChannels := by
  have hcleared : Inv anew { t with
      connectRequested := false
      readyCandidates := []
      cleared := t.cleared ++ t.readyCandidates } := by
    refine ⟨h.read, h.write,
      fun k entry hmem => (h.recorded k entry hmem).congr .rfl, h.completed, ?_,
      h.held, fun hrequested => absurd hrequested (by simp)⟩
    exact h.once.trans (List.perm_append_comm.append_left _)
  exact hcleared.tame (tame_foldl_resetChannel _ _)

/-! ## Messages -/

section Taken

variable {next : Message} {queue : List Message}
  (hqueue : t.queue = next :: queue)

include hqueue

theorem mem_taken_iff {message : Message} (hne : message ≠ next) :
    message ∈ queue ↔ message ∈ t.queue := by
  rw [hqueue, List.mem_cons]
  exact ⟨.inr, fun hmem => hmem.resolve_left hne⟩

theorem Inv.taken (h : Inv anew t) (hread : next ≠ .MSG_READSTATE)
    (hwrite : next ≠ .MSG_WRITESTATE)
    (hrequest : ∀ component, next ≠ .MSG_REQUESTSIGNALING component)
    (hcandidate : next ≠ .MSG_CANDIDATEREADY) :
    Inv anew { t with queue := queue } where
  read := h.read.imp (mem_taken_iff hqueue hread.symm).mpr id
  write := h.write.imp (mem_taken_iff hqueue hwrite.symm).mpr id
  recorded k entry hmem :=
    (h.recorded k entry hmem).congr (mem_taken_iff hqueue (hrequest k).symm)
  completed := h.completed
  once := h.once
  held := h.held
  promised hconnect hready :=
    (mem_taken_iff hqueue hcandidate.symm).mpr (h.promised hconnect hready)

theorem Inv.readState (h : Inv anew t) (hnext : next = .MSG_READSTATE) :
    Inv anew { t with queue := queue }.onChannelReadableState_s where
  read := .inr rfl
  write := h.write.imp (mem_taken_iff hqueue (by simp [hnext])).mpr id
  recorded k entry hmem :=
    (h.recorded k entry hmem).congr (mem_taken_iff hqueue (by simp [hnext]))
  completed := h.completed
  once := h.once
  held := h.held
  promised hconnect hready :=
    (mem_taken_iff hqueue (by simp [hnext])).mpr (h.promised hconnect hready)

theorem Inv.writeState (h : Inv anew t) (hnext : next = .MSG_WRITESTATE) :
    Inv anew { t with queue := queue }.onChannelWritableState_s := by
  have hrecorded : ∀ k entry, (k, entry) ∈ t.channels.entries →
      Recorded anew { t with queue := queue } k entry := fun k entry hmem =>
    (h.recorded k entry hmem).congr (mem_taken_iff hqueue (by simp [hnext]))
  have hread := h.read.imp (mem_taken_iff hqueue (by simp [hnext])).mpr id
  have hpromised := fun hconnect hready =>
    (mem_taken_iff hqueue (by simp [hnext])).mpr (h.promised hconnect hready)
  unfold onChannelWritableState_s
  dsimp only
  split
  · exact ⟨hread, .inr rfl,
      fun k entry hmem => (hrecorded k entry hmem).congr .rfl, h.completed,
      h.once, h.held, hpromised⟩
  · rename_i hsame
    exact ⟨hread, .inr (not_not.mp hsame), hrecorded, h.completed, h.once,
      h.held, hpromised⟩

/-- The flag of the channel is reset, whose request was the last event or was
followed by a further one. -/
theorem Inv.requestTaken (h : Inv anew t) {component : ℤ}
    (hnext : next = .MSG_REQUESTSIGNALING component) :
    Inv anew
      ({ t with queue := queue }.onChannelRequestSignaling_s component) := by
  have hchannels : ({ t with queue := queue }.onChannelRequestSignaling_s
      component).channels = t.channels.mapValues fun k entry =>
        if k = component then { entry with candidatesAllocated := false }
        else entry := rfl
  refine ⟨?_, ?_, ?_, h.completed, h.once, h.held, fun hconnect hready =>
    (mem_taken_iff hqueue (by simp [hnext])).mpr (h.promised hconnect hready)⟩
  · refine h.read.imp (mem_taken_iff hqueue (by simp [hnext])).mpr fun heq =>
      heq.trans (Eq.symm ?_)
    refine congrArg stateOf (readFlags_mapValues (fun k entry => ?_) hchannels)
    split <;> rfl
  · refine h.write.imp (mem_taken_iff hqueue (by simp [hnext])).mpr fun heq =>
      heq.trans (Eq.symm ?_)
    refine congrArg stateOf (writeFlags_mapValues (fun k entry => ?_) hchannels)
    split <;> rfl
  · intro k entry hmem
    rw [hchannels, OrderedMap.mem_mapValues] at hmem
    obtain ⟨old, hold, rfl⟩ := hmem
    have hrecorded := h.recorded k old hold
    by_cases hk : k = component
    · subst hk
      simp only [if_true]
      have hnot := hrecorded.pending (by simp [hqueue, hnext])
      exact ⟨fun _ => hnot, fun _ => iff_of_false (by simp) hnot⟩
    · simp only [if_neg hk]
      exact hrecorded.congr (mem_taken_iff hqueue (by simp [hnext, hk]))

theorem Inv.candidateTaken (h : Inv anew t)
    (hnext : next = .MSG_CANDIDATEREADY)
    (hcareful : t.connectRequested ∨ t.readyCandidates = []) :
    Inv anew { t with queue := queue }.onChannelCandidateReady_s where
  read := h.read.imp (mem_taken_iff hqueue (by simp [hnext])).mpr id
  write := h.write.imp (mem_taken_iff hqueue (by simp [hnext])).mpr id
  recorded k entry hmem :=
    (h.recorded k entry hmem).congr (mem_taken_iff hqueue (by simp [hnext]))
  completed := h.completed
  once := by
    refine h.once.trans (.of_eq ?_)
    simp [onChannelCandidateReady_s, Function.comp_def]
  held s hmem := by
    rcases List.mem_append.mp hmem with hold | hnew
    · exact h.held s hold
    obtain ⟨candidate, hcandidate, rfl⟩ := List.mem_map.mp hnew
    exact hcareful.resolve_right (List.ne_nil_of_mem hcandidate)
  promised _ hready := absurd rfl hready

end Taken

theorem Inv.step {e : Event} (h : Inv anew t) (hcareful : e.Careful t)
    (hanew : anew → e.RequestsAnew t) (hstep : Transport.step t e = some t') :
    Inv anew t' := by
  unfold Transport.step at hstep
  split at hstep
  swap
  · cases hstep
  rename_i henabled
  cases hstep
  cases e with
  | createChannel component => exact h.createChannel hcareful
  | destroyChannel component => exact h.destroyChannel hcareful
  | connectChannels => exact h.connectChannels
  | resetChannels => exact h.resetChannels
  | setIceRole role => exact h.tame (tame_setIceRole role t)
  | channelReadable component readable =>
    exact h.tame (tame_setChannelReadable component readable t)
  | channelWritable component writable =>
    exact h.tame (tame_setChannelWritable component writable t)
  | requestSignaling component => exact h.requestSignaling hanew
  | candidateReady component candidate => exact h.candidateReady candidate
  | allocationDone component =>
    exact h.allocationDone (henabled.1 component rfl) hcareful
  | connectionAdded component =>
    exact h.tame (tame_modifyChannel component
      fun _ => ⟨rfl, rfl, rfl, rfl⟩)
  | connectionRemoved component =>
    have hcount : Tame t (t.modifyImpl component fun impl =>
        { impl with connectionCount := impl.connectionCount - 1 }) :=
      tame_modifyChannel component fun _ => ⟨rfl, rfl, rfl, rfl⟩
    obtain ⟨entry, hfind⟩ :=
      Option.isSome_iff_exists.mp (henabled.1 component rfl)
    exact h.tame (hcount.trans (tame_onChannelConnectionRemoved component
      (hcount.entries_ne_nil.mpr (entries_ne_nil_of_find hfind))))
  | routeChange component => exact h.tame (tame_post (by simp))
  | roleConflict component => exact h.tame (tame_post (by simp))
  | message =>
    obtain ⟨next, queue, hqueue⟩ :=
      List.exists_cons_of_ne_nil (henabled.2 rfl)
    have happly : Event.apply t .message =
        { t with queue := queue }.onMessage next := by
      simp only [Event.apply, hqueue]
    rw [happly]
    cases next with
    | MSG_READSTATE => exact h.readState hqueue rfl
    | MSG_WRITESTATE => exact h.writeState hqueue rfl
    | MSG_REQUESTSIGNALING component => exact h.requestTaken hqueue rfl
    | MSG_CANDIDATEREADY =>
      exact h.candidateTaken hqueue rfl (hcareful (by simp [hqueue]))
    | MSG_CONNECTING | MSG_ROUTECHANGE | MSG_CANDIDATEALLOCATIONCOMPLETE
    | MSG_ROLECONFLICT | MSG_COMPLETED | MSG_FAILED =>
      exact h.taken hqueue (by simp) (by simp) (by simp) (by simp)

end Transport

/-- In a run of careful events the transport is the aggregate of its channels,
and when signalling is only requested for channels that do not count as
allocated, those that do are known in every state. -/
theorem transport_aggregated (t : Transport) :
    (ReachableVia Transport.Initial Transport.step
        (fun t e => e.Careful t) t → Aggregated t) ∧
      (ReachableVia Transport.Initial Transport.step
        (fun t e => e.Careful t ∧ e.RequestsAnew t) t →
          Aggregated t ∧ AllocatedExactly t) := by
  constructor
  · intro h
    have hinv : Transport.Inv False t := by
      refine h.invariant (fun t ht => ?_) fun t e t' hinv hcareful hstep => ?_
      · cases ht
        exact .new
      · exact hinv.step hcareful (fun hfalse => hfalse.elim) hstep
    exact hinv.aggregated
  · intro h
    have hinv : Transport.Inv True t := by
      refine h.invariant (fun t ht => ?_) fun t e t' hinv hcareful hstep => ?_
      · cases ht
        exact .new
      · exact hinv.step hcareful.1 (fun _ => hcareful.2) hstep
    exact ⟨hinv.aggregated, hinv.allocatedExactly⟩

instance (t : Transport) (e : Event) : Decidable (e.Careful t) :=
  match e with
  | .createChannel _ => inferInstanceAs (Decidable (_ → (_ → _) ∧ (_ → _)))
  | .destroyChannel component =>
    inferInstanceAs (Decidable (∀ entry ∈ t.channels.find component,
      entry.ref ≤ 1 → _ ∧ (_ ∨ _)))
  | .allocationDone component =>
    inferInstanceAs (Decidable
      (.MSG_REQUESTSIGNALING component ∉ t.queue ∧
        ∀ entry ∈ t.channels.find component,
          .requestSignaling ∈ entry.impl.history))
  | .message => inferInstanceAs (Decidable (_ → _ ∨ _))
  | .connectChannels | .resetChannels | .setIceRole _ | .channelReadable _ _
  | .channelWritable _ _ | .requestSignaling _ | .candidateReady _ _
  | .connectionAdded _ | .connectionRemoved _ | .routeChange _
  | .roleConflict _ => inferInstanceAs (Decidable True)

instance (t : Transport) (e : Event) : Decidable (e.RequestsAnew t) :=
  match e with
  | .requestSignaling component =>
    inferInstanceAs (Decidable (∀ entry ∈ t.channels.find component,
      ¬entry.candidatesAllocated))
  | .createChannel _ | .destroyChannel _ | .allocationDone _ | .message
  | .connectChannels | .resetChannels | .setIceRole _ | .channelReadable _ _
  | .channelWritable _ _ | .candidateReady _ _ | .connectionAdded _
  | .connectionRemoved _ | .routeChange _ | .roleConflict _ =>
    inferInstanceAs (Decidable True)

/-- Two channels allocate, become complete, and one is destroyed. -/
def twoChannels : List Event :=
  [.createChannel 1, .createChannel 2, .setIceRole .ICEROLE_CONTROLLING,
    .connectChannels, .requestSignaling 1, .requestSignaling 2, .message,
    .message, .message, .message, .candidateReady 1 ⟨7⟩, .allocationDone 1,
    .allocationDone 2, .connectionAdded 1, .connectionAdded 2,
    .channelReadable 1 true, .channelReadable 2 true,
    .channelWritable 1 true, .channelWritable 2 true, .destroyChannel 2,
    .message, .message, .message, .message, .message, .message, .message,
    .message, .message]

theorem aggregated_twoChannels :
    ∃ t, execute Transport.step .new twoChannels = some t ∧ Aggregated t ∧
      AllocatedExactly t := by
  obtain ⟨t, ht⟩ : ∃ t, execute Transport.step .new twoChannels = some t :=
    ⟨_, rfl⟩
  have hallowed : Allowed Transport.step
      (fun t e => e.Careful t ∧ e.RequestsAnew t) .new twoChannels := by
    decide
  have hrun := ReachableVia.execute_of_allowed
    (.init (show Transport.Initial .new from rfl)) ht hallowed
  exact ⟨t, ht, (transport_aggregated t).2 hrun⟩

/-- A channel is created beside a readable one, one that is not readable is
destroyed, the last one is destroyed, the reset of a flag overtakes the end of
the allocation, and candidates are asked for before a reset. -/
def carelessRuns : List (List Event) :=
  [[.createChannel 1, .channelReadable 1 true, .message, .createChannel 2],
    [.createChannel 1, .createChannel 2, .channelReadable 1 true, .message,
      .destroyChannel 2, .message],
    [.createChannel 1, .destroyChannel 1],
    [.createChannel 1, .requestSignaling 1, .allocationDone 1, .message,
      .message],
    [.createChannel 1, .connectChannels, .resetChannels,
      .candidateReady 1 ⟨7⟩, .message]]

theorem not_aggregated_carelessRuns :
    carelessRuns.Forall fun events =>
      ∃ t, execute Transport.step .new events = some t ∧ ¬Aggregated t := by
  refine ⟨⟨_, rfl, fun h => ?_⟩, ⟨_, rfl, fun h => ?_⟩, ⟨_, rfl, fun h => ?_⟩,
    ⟨_, rfl, fun h => ?_⟩, ⟨_, rfl, fun h => ?_⟩⟩
  · exact absurd ((h.readable rfl).2 false (by decide)) (by decide)
  · obtain ⟨b, hb, hfalse⟩ := (h.readable rfl).2
    revert hb
    rw [hfalse]
    decide
  · exact (h.completed [] (by decide)).ne_nil rfl
  · have hsettled := (h.allocated 1 _ rfl (by decide)).mpr
      ⟨[], [.candidatesAllocationDone], rfl, by decide, by decide⟩
    exact absurd hsettled (by decide)
  · exact absurd (h.held ⟨⟨7⟩, false⟩ (by decide)) (by decide)

end WebrtcWinXp.P2p
