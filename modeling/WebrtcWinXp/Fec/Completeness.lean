import WebrtcWinXp.Support.Peeling
import WebrtcWinXp.Fec.MissingPackets
import WebrtcWinXp.Fec.SoundDecoding

/-!
# Everything recoverable is recovered, and handed over once

The missing packets of the stored FEC packets are a system of equations.  After
`AttemptRecover` no equation has a single unknown.  A recovered packet is
handed over when the list still has it at the end of the call.
-/

namespace WebrtcWinXp.Fec

open Support

open scoped List

/-! ## The invariant of the decoder -/

namespace Decoder

/-- The numbers of the packets that were received or recovered. -/
def seqNums (s : Decoder) : List UInt16 :=
  s.recoveredPacketList.map RecoveredPacket.seqNum

/-- The lists are in order, and a packet that has come is not missing. -/
structure Tidy (s : Decoder) : Prop where
  increasing : Increasing s.seqNums
  masks : ∀ fec ∈ s.fecPacketList,
    Increasing (protectedSeqNums fec.protectedPktList)
  linked : ∀ fec ∈ s.fecPacketList, ∀ x ∈ fec.missing, x ∉ s.seqNums

/-- All numbers that matter are in a half window. -/
structure Within (base : UInt16) (s : Decoder) : Prop where
  recovered : ∀ x ∈ s.seqNums, InHalfWindow base x
  missing : ∀ fec ∈ s.fecPacketList, ∀ x ∈ fec.missing, InHalfWindow base x

/-- The packet is missing for a stored FEC packet. -/
def Missing (s : Decoder) (x : UInt16) : Prop :=
  ∃ fec ∈ s.fecPacketList, x ∈ fec.missing

/-- What can be recovered from the packets that are stored, one loss at a
time. -/
def Recoverable (s : Decoder) : UInt16 → Prop :=
  Solvable (· ∈ s.seqNums) (s.fecPacketList.map FecPacket.missing)

def learn (packet : RecoveredPacket) (s : Decoder) : Decoder :=
  { s with
    recoveredPacketList := sortBySeqNum RecoveredPacket.seqNum
      (s.recoveredPacketList ++ [packet])
    fecPacketList := updateCoveringFecPackets packet s.fecPacketList }

/-- A decoder that has less. -/
structure Less (t s : Decoder) : Prop where
  recovered : t.recoveredPacketList.Sublist s.recoveredPacketList
  stored : t.fecPacketList ⊆ s.fecPacketList

variable {s t : Decoder} {base : UInt16} {packet : RecoveredPacket}

theorem Less.seqNums (h : Less t s) : t.seqNums.Sublist s.seqNums :=
  h.recovered.map _

theorem Tidy.less (hs : s.Tidy) (h : Less t s) : t.Tidy where
  increasing := hs.increasing.sublist h.seqNums
  masks fec hfec := hs.masks fec (h.stored hfec)
  linked fec hfec x hx hmem :=
    hs.linked fec (h.stored hfec) x hx (h.seqNums.subset hmem)

theorem Within.less (hs : s.Within base) (h : Less t s) : t.Within base where
  recovered x hx := hs.recovered x (h.seqNums.subset hx)
  missing fec hfec := hs.missing fec (h.stored hfec)

variable {x : UInt16}

theorem Recoverable.less (h : Less t s) (hx : t.Recoverable x) :
    s.Recoverable x := by
  refine Solvable.of_reduced (fun y hy => .known (h.seqNums.subset hy)) ?_ hx
  intro e he
  obtain ⟨fec, hfec, rfl⟩ := List.mem_map.mp he
  exact ⟨_, List.mem_map_of_mem (h.stored hfec), List.Subset.refl _,
    fun y hy hnot => absurd hy hnot⟩

theorem seqNums_learn : (s.learn packet).seqNums.Perm
    (s.seqNums ++ [packet.seqNum]) := by
  have hperm := (List.perm_insertionSort
    (fun a b => ¬lessThan b.seqNum a.seqNum)
    (s.recoveredPacketList ++ [packet])).map RecoveredPacket.seqNum
  rwa [List.map_append] at hperm

theorem missing_learn (hs : s.Tidy) {fec : FecPacket}
    (hfec : fec ∈ (s.learn packet).fecPacketList) :
    ∃ f ∈ s.fecPacketList,
      fec.missing = f.missing.filter (fun x => x ≠ packet.seqNum) ∧
      protectedSeqNums fec.protectedPktList =
        protectedSeqNums f.protectedPktList := by
  obtain ⟨f, hf, rfl⟩ := List.mem_map.mp hfec
  exact ⟨f, hf, missingOf_updateCovering (hs.masks f hf),
    updateCovering_seqNums _ _⟩

theorem Within.learn (hs : s.Tidy) (hwithin : s.Within base)
    (hpacket : InHalfWindow base packet.seqNum) :
    (s.learn packet).Within base where
  recovered x hx := by
    rcases List.mem_append.mp (seqNums_learn.mem_iff.mp hx) with hx | hx
    · exact hwithin.recovered x hx
    · rw [List.mem_singleton] at hx
      subst hx
      exact hpacket
  missing fec hfec x hx := by
    obtain ⟨f, hf, heq, -⟩ := missing_learn hs hfec
    rw [heq] at hx
    exact hwithin.missing f hf x (List.mem_filter.mp hx).1

theorem Tidy.learn (hs : s.Tidy) (hwithin : s.Within base)
    (hpacket : InHalfWindow base packet.seqNum)
    (hnew : packet.seqNum ∉ s.seqNums) : (s.learn packet).Tidy where
  increasing := by
    refine increasing_sortBySeqNum base ?_ ?_
    · intro x hx
      exact (hwithin.learn hs hpacket).recovered x
        (seqNums_learn.mem_iff.mpr (by rwa [List.map_append] at hx))
    · rw [List.map_append]
      refine List.Nodup.append hs.increasing.nodup (List.nodup_singleton _) ?_
      intro x hx hx'
      rcases List.mem_singleton.mp hx' with rfl
      exact hnew hx
  masks fec hfec := by
    obtain ⟨f, hf, -, heq⟩ := missing_learn hs hfec
    rw [heq]
    exact hs.masks f hf
  linked fec hfec x hx hmem := by
    obtain ⟨f, hf, heq, -⟩ := missing_learn hs hfec
    rw [heq, List.mem_filter, decide_eq_true_eq] at hx
    rcases List.mem_append.mp (seqNums_learn.mem_iff.mp hmem) with hmem | hmem
    · exact hs.linked f hf x hx.1 hmem
    · exact hx.2 (List.mem_singleton.mp hmem)

theorem Recoverable.of_learn (hs : s.Tidy)
    (hpacket : s.Recoverable packet.seqNum)
    (hx : (s.learn packet).Recoverable x) : s.Recoverable x := by
  refine Solvable.of_reduced (fun y hy => ?_) (fun e he => ?_) hx
  · rcases List.mem_append.mp (seqNums_learn.mem_iff.mp hy) with hy | hy
    · exact .known hy
    · rw [List.mem_singleton] at hy
      subst hy
      exact hpacket
  · obtain ⟨fec, hfec, rfl⟩ := List.mem_map.mp he
    obtain ⟨f, hf, heq, -⟩ := missing_learn hs hfec
    refine ⟨f.missing, List.mem_map_of_mem hf, ?_, fun y hy hnot => ?_⟩
    · rw [heq]
      exact List.filter_sublist.subset
    · by_cases hsame : y = packet.seqNum
      · subst hsame
        exact hpacket
      · refine absurd ?_ hnot
        rw [heq, List.mem_filter, decide_eq_true_eq]
        exact ⟨hy, hsame⟩

theorem Tidy.complete (hs : s.Tidy)
    (hsettled : ∀ fec ∈ s.fecPacketList, numCoveredPacketsMissing fec = 2) (hx : s.Recoverable x) : x ∈ s.seqNums := by
  refine Solvable.known_of_stuck (fun e he y hy => ?_) hx
  obtain ⟨fec, hfec, rfl⟩ := List.mem_map.mp he
  have htwo := hsettled fec hfec
  rw [numCoveredPacketsMissing_eq] at htwo
  have hnodup : fec.missing.Nodup :=
    (hs.masks fec hfec).nodup.sublist (missingOf_sublist _)
  obtain ⟨z, hz, hne⟩ : ∃ z ∈ fec.missing, z ≠ y := by
    by_contra hall
    push Not at hall
    have hsub : fec.missing ⊆ [y] :=
      fun z hz => List.mem_singleton.mpr (hall z hz)
    have hle := (hnodup.subperm hsub).length_le
    rw [List.length_singleton] at hle
    omega
  exact ⟨z, hz, hne, hs.linked fec hfec z hz⟩

end Decoder

/-! ## Insertion -/

/-- The numbers that a received packet brings are in a half window. -/
def ReceivedPacket.Within (base : UInt16) (rx : ReceivedPacket) : Prop :=
  if rx.isFec then
    ∀ x ∈ protectedSeqNums (protectedBy rx.pkt), InHalfWindow base x
  else InHalfWindow base rx.seqNum

instance (base : UInt16) (rx : ReceivedPacket) : Decidable (rx.Within base) :=
  let _ : Decidable (∀ x ∈ protectedSeqNums (protectedBy rx.pkt),
    InHalfWindow base x) := List.decidableBAll _ _
  inferInstanceAs (Decidable (if rx.isFec then
    ∀ x ∈ protectedSeqNums (protectedBy rx.pkt), InHalfWindow base x
  else InHalfWindow base rx.seqNum))

namespace Decoder

/-- A decoder with nothing that waits to be returned. -/
structure Ready (base : UInt16) (recoveries : List RecoveredPacket)
    (s : Decoder) : Prop where
  tidy : s.Tidy
  within : s.Within base
  returned : ∀ r ∈ s.recoveredPacketList, r.returned
  recoveries_eq : s.recoveries = recoveries

variable {s t : Decoder} {base : UInt16} {recoveries : List RecoveredPacket}

theorem Ready.less (hs : s.Ready base recoveries) (h : Less t s)
    (hrecoveries : t.recoveries = s.recoveries) : t.Ready base recoveries where
  tidy := hs.tidy.less h
  within := hs.within.less h
  returned r hr := hs.returned r (h.recovered.subset hr)
  recoveries_eq := hrecoveries.trans hs.recoveries_eq

variable {rx : ReceivedPacket}

theorem Ready.insertMediaPacket
    (hs : s.Ready base recoveries) (hrx : InHalfWindow base rx.seqNum) :
    (insertMediaPacket rx s).Ready base recoveries := by
  unfold Fec.insertMediaPacket
  split
  · exact hs
  · rename_i hany
    have hnew : rx.seqNum ∉ s.seqNums := by
      intro hmem
      obtain ⟨r, hr, heq⟩ := List.mem_map.mp hmem
      exact hany (List.any_eq_true.mpr ⟨r, hr, decide_eq_true heq.symm⟩)
    have htidy : (s.learn rx.mediaPacket).Tidy :=
      hs.tidy.learn hs.within hrx hnew
    have hwithin : (s.learn rx.mediaPacket).Within base :=
      hs.within.learn hs.tidy hrx
    refine ⟨htidy, hwithin, fun r hr => ?_, hs.recoveries_eq⟩
    rcases List.mem_append.mp (mem_sortBySeqNum.mp hr) with hr | hr
    · exact hs.returned r hr
    · rw [List.mem_singleton] at hr
      subst hr
      rfl

theorem linked_assignRecoveredPackets
    (hs : s.Ready base recoveries)
    (hrx : ∀ x ∈ protectedSeqNums (protectedBy rx.pkt), InHalfWindow base x)
    {x : UInt16} (hx : x ∈ (assignRecoveredPackets s.recoveredPacketList
      rx.fecPacket).missing) :
    x ∈ protectedSeqNums (protectedBy rx.pkt) ∧ x ∉ s.seqNums := by
  have hincreasing := increasing_protectedBy rx.pkt
  have hwindow : ∀ r ∈ s.recoveredPacketList, InHalfWindow base r.seqNum :=
    fun r hr => hs.within.recovered _ (List.mem_map_of_mem hr)
  obtain ⟨q, hq, hnone, rfl⟩ := mem_missingOf.mp hx
  obtain ⟨hmem, hnot⟩ := mem_assignRecovered_none
    (setIntersection_sublist hwindow hrx) hincreasing.nodup hq hnone
  have hmem' : q.seqNum ∈ protectedSeqNums (protectedBy rx.pkt) :=
    List.mem_map_of_mem hmem
  refine ⟨hmem', fun hin => hnot ?_⟩
  obtain ⟨r, hr, heq⟩ := List.mem_map.mp hin
  rw [← heq] at hmem' ⊢
  exact List.mem_map_of_mem
    (mem_setIntersection hs.tidy.increasing hincreasing hr hmem')

theorem Ready.insertFecPacket
    (hs : s.Ready base recoveries)
    (hrx : ∀ x ∈ protectedSeqNums (protectedBy rx.pkt), InHalfWindow base x) :
    (insertFecPacket rx s).Ready base recoveries := by
  unfold Fec.insertFecPacket
  split
  · exact hs
  · split
    · exact hs
    · have hall : Ready base recoveries ⟨sortBySeqNum FecPacket.seqNum
          (s.fecPacketList ++ [assignRecoveredPackets s.recoveredPacketList
            rx.fecPacket]), s.recoveredPacketList, s.recoveries⟩ := by
        refine ⟨⟨hs.tidy.increasing, ?_, ?_⟩, ⟨hs.within.recovered, ?_⟩,
          hs.returned, hs.recoveries_eq⟩
        all_goals
          intro fec hfec
          rcases List.mem_append.mp (mem_sortBySeqNum.mp hfec) with hfec | hfec
        · exact hs.tidy.masks fec hfec
        · rw [List.mem_singleton] at hfec
          subst hfec
          rw [assignRecoveredPackets, protectedSeqNums, assignRecovered_seqNums]
          exact increasing_protectedBy rx.pkt
        · exact hs.tidy.linked fec hfec
        · rw [List.mem_singleton] at hfec
          subst hfec
          exact fun x hx => (linked_assignRecoveredPackets hs hrx hx).2
        · exact hs.within.missing fec hfec
        · rw [List.mem_singleton] at hfec
          subst hfec
          exact fun x hx =>
            hrx x (linked_assignRecoveredPackets hs hrx hx).1
      refine hall.less ⟨List.Sublist.refl _, ?_⟩ rfl
      dsimp only
      split
      · exact List.tail_subset _
      · exact List.Subset.refl _

theorem less_discardOldFecPacket (seqNum : UInt16) (s : Decoder) :
    Less (discardOldFecPacket seqNum s) s ∧
      (discardOldFecPacket seqNum s).recoveries = s.recoveries := by
  unfold discardOldFecPacket
  split
  · exact ⟨⟨List.Sublist.refl _, List.Subset.refl _⟩, rfl⟩
  · rename_i oldest rest heq
    split
    · refine ⟨⟨List.Sublist.refl _, ?_⟩, rfl⟩
      rw [heq]
      exact List.subset_cons_self _ _
    · exact ⟨⟨List.Sublist.refl _, List.Subset.refl _⟩, rfl⟩

theorem Ready.insertPacket (hs : s.Ready base recoveries)
    (hrx : rx.Within base) : (insertPacket s rx).Ready base recoveries := by
  obtain ⟨hless, hrecoveries⟩ := less_discardOldFecPacket rx.seqNum s
  have haged := hs.less hless hrecoveries
  unfold Fec.insertPacket
  unfold ReceivedPacket.Within at hrx
  dsimp only
  split
  · rename_i hfec
    rw [if_pos hfec] at hrx
    exact haged.insertFecPacket hrx
  · rename_i hfec
    rw [if_neg hfec] at hrx
    exact haged.insertMediaPacket hrx

theorem Ready.insertPackets {received : List ReceivedPacket}
    (hs : s.Ready base recoveries) (hrx : ∀ rx ∈ received, rx.Within base) :
    (insertPackets received s).Ready base recoveries := by
  have hfold : (received.foldl Fec.insertPacket s).Ready base recoveries := by
    induction received generalizing s with
    | nil => exact hs
    | cons rx received ih =>
      exact ih (hs.insertPacket (hrx rx List.mem_cons_self))
        fun rx hmem => hrx rx (List.mem_cons_of_mem _ hmem)
  exact hfold.less ⟨List.drop_sublist _ _, List.Subset.refl _⟩ rfl

theorem length_insertPackets_le (received : List ReceivedPacket) (s : Decoder) :
    (insertPackets received s).recoveredPacketList.length ≤
      kMaxMediaPackets := by
  rw [Fec.insertPackets, discardOldPackets, List.length_drop]
  omega

theorem less_resetAtGap (received : List ReceivedPacket) (s : Decoder) :
    Less (resetAtGap received s) s ∧
      (resetAtGap received s).recoveries = s.recoveries := by
  unfold resetAtGap
  split
  · split
    · split
      · exact ⟨⟨List.nil_sublist _, List.nil_subset _⟩, rfl⟩
      · exact ⟨⟨List.Sublist.refl _, List.Subset.refl _⟩, rfl⟩
    · exact ⟨⟨List.Sublist.refl _, List.Subset.refl _⟩, rfl⟩
  · exact ⟨⟨List.Sublist.refl _, List.Subset.refl _⟩, rfl⟩

end Decoder

/-! ## `AttemptRecover` -/

theorem recoverPacket_seqNum {fec : FecPacket} {x : UInt16}
    (h : fec.missing = [x]) : (recoverPacket fec).seqNum = x := by
  have hfold : ∀ (l : List ProtectedPacket) (r : Recovery × UInt16),
      (l.foldl recoverStep r).2 = (missingOf l).getLastD r.2 := by
    intro l
    induction l with
    | nil => exact fun _ => rfl
    | cons p l ih =>
      intro r
      rw [List.foldl_cons, ih, missingOf_cons, recoverStep]
      cases p.pkt with
      | none => exact List.getLastD_cons.symm
      | some pkt => rfl
  change (fec.protectedPktList.foldl recoverStep (initRecovery fec, 0)).2 = x
  rw [hfold]
  change fec.missing.getLastD 0 = x
  rw [h]
  rfl

theorem attemptStep_cases {t u : Attempt} (h : attemptStep t = some u) :
    ∃ fec rest, t.rest = fec :: rest ∧
      ((∃ x, fec.missing = [x] ∧
        u.scanned = [] ∧
        u.rest = updateCoveringFecPackets (recoverPacket fec)
          (t.scanned ++ rest) ∧
        u.recoveredPacketList = discardOldPackets (sortBySeqNum
          RecoveredPacket.seqNum
          (t.recoveredPacketList ++ [recoverPacket fec])) ∧
        u.recoveries = t.recoveries ++ [recoverPacket fec]) ∨
      u = { t with rest := rest } ∨
      numCoveredPacketsMissing fec = 2 ∧
        u = { t with scanned := t.scanned ++ [fec], rest := rest }) := by
  unfold attemptStep at h
  split at h
  · cases h
  · rename_i fec rest hrest
    refine ⟨fec, rest, hrest, ?_⟩
    dsimp only at h
    have hcount := numCoveredPacketsMissing_eq fec
    split at h
    · rename_i hone
      rw [Option.some_inj] at h
      subst h
      have hlength : fec.missing.length = 1 := by omega
      obtain ⟨x, hx⟩ := List.length_eq_one_iff.mp hlength
      exact Or.inl ⟨x, hx, rfl, rfl, rfl, rfl⟩
    · split at h
      · rw [Option.some_inj] at h
        exact Or.inr (Or.inl h.symm)
      · rw [Option.some_inj] at h
        exact Or.inr (Or.inr ⟨by omega, h.symm⟩)

theorem attemptRecover_settled (s : Decoder) :
    ∀ fec ∈ (attemptRecover s).fecPacketList,
      numCoveredPacketsMissing fec = 2 := by
  have hstep : ∀ t u : Attempt,
      (∀ fec ∈ t.scanned, numCoveredPacketsMissing fec = 2) →
      attemptStep t = some u →
      ∀ fec ∈ u.scanned, numCoveredPacketsMissing fec = 2 := by
    intro t u ht h
    obtain ⟨fec, rest, -, hcases⟩ := attemptStep_cases h
    rcases hcases with ⟨x, -, hscanned, -⟩ | rfl | ⟨htwo, rfl⟩
    · rw [hscanned]
      exact nofun
    · exact ht
    · intro f hf
      rcases List.mem_append.mp hf with hf | hf
      · exact ht f hf
      · rw [List.mem_singleton.mp hf]
        exact htwo
  obtain ⟨hscanned, hend⟩ := finish_invariant attemptStep_lowers hstep
    (s := s.attempt) nofun
  have hrest : (finish attemptStep Attempt.measure s.attempt).rest = [] := by
    unfold attemptStep at hend
    split at hend
    · assumption
    · dsimp only at hend
      split at hend
      · cases hend
      · split at hend <;> cases hend
  intro fec hfec
  refine hscanned fec ?_
  change fec ∈ _ ++ _ at hfec
  rwa [hrest, List.append_nil] at hfec

/-- `AttemptRecover` terminates: enough rounds come to its end. -/
theorem exists_attempt_end (s : Decoder) :
    ∃ n t, loop attemptStep n s.attempt = some t ∧
      attemptRecover s = t.decoder :=
  ⟨_, _, loop_eq_finish attemptStep_lowers s.attempt, rfl⟩

namespace Decoder

/-- Every missing packet that can be recovered has room in the list of recovered
packets: fewer than 48 packets that were received or can be recovered are
newer. -/
def Room (s : Decoder) : Prop :=
  ∀ x, s.Missing x → s.Recoverable x → ∀ newer : List UInt16, newer.Nodup →
    (∀ y ∈ newer, s.Recoverable y ∧ lessThan x y) →
    newer.length < kMaxMediaPackets

def waiting (l : List RecoveredPacket) : List RecoveredPacket :=
  l.filter fun r => !r.returned

variable {l : List RecoveredPacket}

theorem waiting_eq_nil (h : ∀ r ∈ l, r.returned) :
    waiting l = [] := by
  refine List.filter_eq_nil_iff.mpr fun r hr => ?_
  rw [h r hr]
  exact Bool.false_ne_true

/-- The loop of `AttemptRecover` that started with `s`, when `handed` had been
recovered before: what was recovered since then waits in the list. -/
structure Attempting (base : UInt16) (handed : List RecoveredPacket)
    (s : Decoder) (t : Attempt) : Prop where
  tidy : t.decoder.Tidy
  within : t.decoder.Within base
  length_le : t.recoveredPacketList.length ≤ kMaxMediaPackets
  recoverable : ∀ x, t.decoder.Recoverable x → s.Recoverable x
  missing : ∀ x, t.decoder.Missing x → s.Missing x
  fresh : ∀ r ∈ t.recoveredPacketList, r.returned = false →
    s.Missing r.seqNum
  waiting_perm : (handed ++ waiting t.recoveredPacketList).Perm t.recoveries

variable {s : Decoder} {t u : Attempt} {base : UInt16}
  {handed : List RecoveredPacket}

theorem Attempting.less (ht : Attempting base handed s t)
    (hstored : u.decoder.fecPacketList ⊆ t.decoder.fecPacketList)
    (hrecovered : u.recoveredPacketList = t.recoveredPacketList)
    (hrecoveries : u.recoveries = t.recoveries) :
    Attempting base handed s u := by
  have hless : Less u.decoder t.decoder := by
    refine ⟨?_, hstored⟩
    change u.recoveredPacketList.Sublist t.recoveredPacketList
    rw [hrecovered]
  constructor
  · exact ht.tidy.less hless
  · exact ht.within.less hless
  · rw [hrecovered]
    exact ht.length_le
  · exact fun x hx => ht.recoverable x (Recoverable.less hless hx)
  · rintro x ⟨fec, hfec, hx⟩
    exact ht.missing x ⟨fec, hstored hfec, hx⟩
  · rw [hrecovered]
    exact ht.fresh
  · rw [hrecovered, hrecoveries]
    exact ht.waiting_perm

/-- What `DiscardOldPackets` discards from an increasing list of at most 49
packets. -/
theorem discardOldPackets_cases
    (h : l.length ≤ kMaxMediaPackets + 1) :
    discardOldPackets l = l ∨
      ∃ oldest rest, l = oldest :: rest ∧ discardOldPackets l = rest ∧
        rest.length = kMaxMediaPackets := by
  unfold discardOldPackets
  rcases Nat.lt_or_ge kMaxMediaPackets l.length with hlt | hle
  · cases l with
    | nil => exact absurd hlt (Nat.not_lt_zero _)
    | cons oldest rest =>
      rw [List.length_cons] at h hlt ⊢
      have hlength : rest.length = kMaxMediaPackets := by omega
      refine Or.inr ⟨oldest, rest, rfl, ?_, hlength⟩
      rw [hlength, Nat.add_sub_cancel_left]
      rfl
  · rw [Nat.sub_eq_zero_of_le hle]
    exact Or.inl rfl

theorem waiting_learn (s : Decoder) (packet : RecoveredPacket)
    (h : packet.returned = false) :
    (waiting (s.learn packet).recoveredPacketList).Perm
      (waiting s.recoveredPacketList ++ [packet]) := by
  have hperm := (List.perm_insertionSort
    (fun a b : RecoveredPacket => ¬lessThan b.seqNum a.seqNum)
    (s.recoveredPacketList ++ [packet])).filter fun r => !r.returned
  have hpacket : [packet].filter (fun r => !r.returned) = [packet] := by
    rw [List.filter_cons_of_pos (by rw [h]; rfl), List.filter_nil]
  rwa [List.filter_append, hpacket] at hperm

theorem waiting_discardOldPackets (hroom : s.Room)
    (hincreasing : Increasing (l.map RecoveredPacket.seqNum))
    (hlength : l.length ≤ kMaxMediaPackets + 1)
    (hrecoverable : ∀ x ∈ l.map RecoveredPacket.seqNum, s.Recoverable x)
    (hfresh : ∀ r ∈ l, r.returned = false → s.Missing r.seqNum) :
    waiting (discardOldPackets l) = waiting l := by
  rcases discardOldPackets_cases hlength with heq | ⟨oldest, rest, rfl, heq, hfull⟩
  · rw [heq]
  · rw [heq, waiting, waiting, List.filter_cons_of_neg]
    intro hwaits
    rw [Bool.not_eq_true'] at hwaits
    rw [List.map_cons, Increasing, List.pairwise_cons] at hincreasing
    have hlt := hroom oldest.seqNum (hfresh oldest List.mem_cons_self hwaits)
      (hrecoverable _ List.mem_cons_self) (rest.map RecoveredPacket.seqNum)
      (Increasing.nodup hincreasing.2) fun y hy =>
        ⟨hrecoverable y (List.mem_cons_of_mem _ hy), hincreasing.1 y hy⟩
    rw [List.length_map, hfull] at hlt
    exact Nat.lt_irrefl _ hlt

theorem Attempting.recover (hroom : s.Room) (ht : Attempting base handed s t)
    {fec : FecPacket} {rest : List FecPacket} {x : UInt16}
    (hrest : t.rest = fec :: rest) (hx : fec.missing = [x])
    (hscanned : u.scanned = [])
    (hstored : u.rest = updateCoveringFecPackets (recoverPacket fec)
      (t.scanned ++ rest))
    (hrecovered : u.recoveredPacketList = discardOldPackets (sortBySeqNum
      RecoveredPacket.seqNum (t.recoveredPacketList ++ [recoverPacket fec])))
    (hrecoveries : u.recoveries = t.recoveries ++ [recoverPacket fec]) :
    Attempting base handed s u := by
  have hseq := recoverPacket_seqNum hx
  have hfec : fec ∈ t.decoder.fecPacketList := by
    refine List.mem_append_right _ ?_
    rw [hrest]
    exact List.mem_cons_self
  have hmem : x ∈ fec.missing := by
    rw [hx]
    exact List.mem_cons_self
  have hmissing : t.decoder.Missing x := ⟨fec, hfec, hmem⟩
  have hsolved : t.decoder.Recoverable x := by
    refine Solvable.single ?_
    rw [← hx]
    exact List.mem_map_of_mem hfec
  have hwindow := ht.within.missing fec hfec x hmem
  have hnew := ht.tidy.linked fec hfec x hmem
  rw [← hseq] at hwindow hnew hsolved hmissing
  have htidy := ht.tidy.learn ht.within hwindow hnew
  have hwithin := ht.within.learn ht.tidy hwindow
  have hless : Less u.decoder (t.decoder.learn (recoverPacket fec)) := by
    constructor
    · change u.recoveredPacketList.Sublist _
      rw [hrecovered]
      exact List.drop_sublist _ _
    · change u.scanned ++ u.rest ⊆ _
      rw [hscanned, hstored, List.nil_append]
      refine List.map_subset _ ?_
      change t.scanned ++ rest ⊆ t.scanned ++ t.rest
      rw [hrest]
      exact ((List.sublist_cons_self _ _).append_left _).subset
  have hfresh : ∀ r ∈ (t.decoder.learn (recoverPacket fec)).recoveredPacketList,
      r.returned = false → s.Missing r.seqNum := by
    intro r hr hwaits
    rcases List.mem_append.mp (mem_sortBySeqNum.mp hr) with hr | hr
    · exact ht.fresh r hr hwaits
    · rw [List.mem_singleton] at hr
      subst hr
      exact ht.missing _ hmissing
  have hrecoverable : ∀ y, (t.decoder.learn (recoverPacket fec)).Recoverable y →
      s.Recoverable y :=
    fun y hy => ht.recoverable y (Recoverable.of_learn ht.tidy hsolved hy)
  have hlength : (t.decoder.learn (recoverPacket fec)).recoveredPacketList.length
      ≤ kMaxMediaPackets + 1 := by
    change (sortBySeqNum _ _).length ≤ _
    rw [sortBySeqNum, List.length_insertionSort, List.length_append]
    exact Nat.add_le_add_right ht.length_le 1
  constructor
  · exact htidy.less hless
  · exact hwithin.less hless
  · rw [hrecovered, discardOldPackets, List.length_drop]
    omega
  · exact fun y hy => hrecoverable y (Recoverable.less hless hy)
  · rintro y ⟨f, hf, hy⟩
    obtain ⟨f', hf', heq, -⟩ := missing_learn ht.tidy (hless.stored hf)
    rw [heq] at hy
    exact ht.missing y ⟨f', hf', (List.mem_filter.mp hy).1⟩
  · exact fun r hr => hfresh r (hless.recovered.subset hr)
  · have hwaits := waiting_discardOldPackets hroom htidy.increasing hlength
      (fun y hy => hrecoverable y (.known hy)) hfresh
    have happend := waiting_learn t.decoder (recoverPacket fec) rfl
    rw [hrecovered, hrecoveries]
    change (handed ++ waiting (discardOldPackets
      (t.decoder.learn (recoverPacket fec)).recoveredPacketList)).Perm _
    rw [hwaits]
    calc
      handed ++ waiting (t.decoder.learn (recoverPacket fec)).recoveredPacketList
      _ ~ handed ++ (waiting t.recoveredPacketList ++ [recoverPacket fec]) :=
        happend.append_left handed
      _ = (handed ++ waiting t.recoveredPacketList) ++ [recoverPacket fec] :=
        (List.append_assoc _ _ _).symm
      _ ~ t.recoveries ++ [recoverPacket fec] :=
        ht.waiting_perm.append_right _

/-- The loop rule for `AttemptRecover`: with room, what it recovers waits in the
list. -/
theorem Ready.attemptRecover {recoveries : List RecoveredPacket}
    (hs : s.Ready base recoveries) (hroom : s.Room)
    (hlength : s.recoveredPacketList.length ≤ kMaxMediaPackets)
    (hhanded : handed.Perm recoveries) :
    (attemptRecover s).Tidy ∧
      (handed ++ waiting (attemptRecover s).recoveredPacketList).Perm
        (attemptRecover s).recoveries := by
  have hnone := waiting_eq_nil hs.returned
  have hstart : Attempting base handed s s.attempt := by
    refine ⟨hs.tidy, hs.within, hlength, fun _ => id, fun _ => id, ?_, ?_⟩
    · intro r hr hwaits
      rw [hs.returned r hr] at hwaits
      cases hwaits
    · change (handed ++ waiting s.recoveredPacketList).Perm s.recoveries
      rw [hnone, List.append_nil, hs.recoveries_eq]
      exact hhanded
  have hstep : ∀ t u, Attempting base handed s t → attemptStep t = some u →
      Attempting base handed s u := by
    intro t u ht h
    obtain ⟨fec, rest, hrest, hcases⟩ := attemptStep_cases h
    rcases hcases with ⟨x, hx, hscanned, hstored, hrecovered, hrecoveries⟩ |
      rfl | ⟨-, rfl⟩
    · exact ht.recover hroom hrest hx hscanned hstored hrecovered hrecoveries
    · refine ht.less ?_ rfl rfl
      change t.scanned ++ rest ⊆ t.scanned ++ t.rest
      rw [hrest]
      exact ((List.sublist_cons_self _ _).append_left _).subset
    · refine ht.less ?_ rfl rfl
      change t.scanned ++ [fec] ++ rest ⊆ t.scanned ++ t.rest
      rw [hrest, List.append_assoc]
      exact List.Subset.refl _
  obtain ⟨hend, -⟩ := finish_invariant attemptStep_lowers hstep hstart
  exact ⟨hend.tidy, hend.waiting_perm⟩

theorem room_of_few (h : (s.seqNums ++ s.fecPacketList.flatMap
    FecPacket.missing).length ≤ kMaxMediaPackets) : s.Room := by
  have hmem : ∀ y, s.Recoverable y → y ∈ s.seqNums ++ s.fecPacketList.flatMap
      FecPacket.missing := by
    intro y hy
    rcases Solvable.known_or_unknown hy with hy | ⟨e, he, hy⟩
    · exact List.mem_append_left _ hy
    · obtain ⟨fec, hfec, rfl⟩ := List.mem_map.mp he
      exact List.mem_append_right _ (List.mem_flatMap.mpr ⟨fec, hfec, hy⟩)
  intro x _ hx newer hnodup hnewer
  have hnotMem : x ∉ newer := fun hin => lessThan_irrefl (hnewer x hin).2
  have hsub : x :: newer ⊆ s.seqNums ++ s.fecPacketList.flatMap
      FecPacket.missing := by
    intro y hy
    rcases List.mem_cons.mp hy with rfl | hy
    · exact hmem y hx
    · exact hmem y (hnewer y hy).1
  have hle := ((hnodup.cons hnotMem).subperm hsub).length_le
  rw [List.length_cons] at hle
  omega

/-- A call of `DecodeFEC` is roomy when the numbers that matter in it are in a
half window, and there is room for what `AttemptRecover` can recover. -/
def Roomy (received : List ReceivedPacket) (s : Decoder) : Prop :=
  (∃ base, (resetAtGap received s).Within base ∧
    ∀ rx ∈ received, rx.Within base) ∧
  (insertPackets received (resetAtGap received s)).Room

end Decoder

/-! ## Runs of the receiver -/

namespace FecReceiver

/-- The decoder misses at least two packets of every stored FEC packet, has
recovered whatever can be recovered, and each recovered packet was handed over
exactly once. -/
structure CompleteOnce (s : FecReceiver) : Prop where
  settled : ∀ fec ∈ s.fec.fecPacketList, numCoveredPacketsMissing fec ≠ 1
  complete : ∀ x, s.fec.Recoverable x → x ∈ s.fec.seqNums
  once : s.handed.Perm s.fec.recoveries

/-- The invariant between the calls. -/
structure Inv (s : FecReceiver) : Prop where
  tidy : s.fec.Tidy
  settled : ∀ fec ∈ s.fec.fecPacketList, numCoveredPacketsMissing fec = 2
  returned : ∀ r ∈ s.fec.recoveredPacketList, r.returned
  once : s.handed.Perm s.fec.recoveries

/-- When a call comes to `DecodeFEC`, the decoding is roomy, and the callback
accepts the recovered packets. -/
def Roomy (s : FecReceiver) : Call → Prop
  | .addReceivedRedPacket _ => True
  | .processReceivedFec acceptsMedia accepts =>
    (∀ front ∈ s.receivedPacketList.head?, front.isFec ∨ acceptsMedia) →
      (∀ n, accepts n) ∧
        (s.receivedPacketList ≠ [] → s.fec.Roomy s.receivedPacketList)

variable {s t : FecReceiver}

theorem Inv.completeOnce (hs : s.Inv) : s.CompleteOnce where
  settled fec hfec := by
    rw [hs.settled fec hfec]
    decide
  complete _ hx := hs.tidy.complete hs.settled hx
  once := hs.once

theorem inv_new : new.Inv :=
  ⟨⟨List.Pairwise.nil, nofun, nofun⟩, nofun, nofun, List.Perm.refl _⟩

theorem inv_returnRecovered {accepts : ℕ → Bool} (haccepts : ∀ n, accepts n)
    (htidy : s.fec.Tidy)
    (hsettled : ∀ fec ∈ s.fec.fecPacketList, numCoveredPacketsMissing fec = 2)
    (hwaiting : (s.handed ++ Decoder.waiting s.fec.recoveredPacketList).Perm
      s.fec.recoveries) :
    (s.returnRecovered accepts).1.Inv := by
  unfold returnRecovered
  rw [returnPackets_of_accepts haccepts]
  have hseqNums : (s.fec.recoveredPacketList.map fun r =>
      { r with returned := true }).map RecoveredPacket.seqNum =
        s.fec.seqNums := by
    rw [List.map_map]
    rfl
  refine ⟨⟨?_, htidy.masks, ?_⟩, hsettled, ?_, hwaiting⟩
  · rw [Decoder.seqNums, hseqNums]
    exact htidy.increasing
  · intro fec hfec x hx
    rw [Decoder.seqNums, hseqNums]
    exact htidy.linked fec hfec x hx
  · intro r hr
    obtain ⟨r', -, rfl⟩ := List.mem_map.mp hr
    rfl

/-- A roomy call of `DecodeFEC` leaves what it recovers waiting. -/
theorem Inv.decodeFec (hs : s.Inv) {received : List ReceivedPacket}
    (hroomy : s.fec.Roomy received) :
    (decodeFec received s.fec).Tidy ∧
      (s.handed ++ Decoder.waiting
        (decodeFec received s.fec).recoveredPacketList).Perm
        (decodeFec received s.fec).recoveries := by
  obtain ⟨⟨base, hwithin, hrx⟩, hroom⟩ := hroomy
  obtain ⟨hless, hrecoveries⟩ := Decoder.less_resetAtGap received s.fec
  have hreset : (resetAtGap received s.fec).Ready base s.fec.recoveries :=
    ⟨hs.tidy.less hless, hwithin,
      fun r hr => hs.returned r (hless.recovered.subset hr), hrecoveries⟩
  exact (hreset.insertPackets hrx).attemptRecover hroom
    (Decoder.length_insertPackets_le _ _) hs.once

theorem Inv.step (hs : s.Inv) {call : Call} (hok : s.Roomy call)
    (hstep : s.step call = some t) : t.Inv := by
  cases call with
  | addReceivedRedPacket packets =>
    rw [FecReceiver.step, Option.some_inj] at hstep
    subst hstep
    exact ⟨hs.tidy, hs.settled, hs.returned, hs.once⟩
  | processReceivedFec acceptsMedia accepts =>
    rw [FecReceiver.step, Option.some_inj] at hstep
    subst hstep
    unfold processReceivedFec
    unfold Roomy at hok
    split
    · rename_i hnil
      rw [hnil] at hok
      obtain ⟨haccepts, -⟩ := hok nofun
      refine inv_returnRecovered haccepts hs.tidy hs.settled ?_
      rw [Decoder.waiting_eq_nil hs.returned, List.append_nil]
      exact hs.once
    · rename_i front rest hcons
      split
      · exact hs
      · rename_i hfront
        obtain ⟨haccepts, hroomy⟩ := hok (by
          rw [hcons]
          rintro _ ⟨⟩
          cases hfec : front.isFec <;> cases acceptsMedia <;> simp_all)
        obtain ⟨htidy, hwaiting⟩ := hs.decodeFec
          (hroomy (by rw [hcons]; exact List.cons_ne_nil _ _))
        exact inv_returnRecovered haccepts htidy
          (attemptRecover_settled _) hwaiting

/-- `AttemptRecover` terminates, and in runs whose calls are roomy and whose
callbacks accept, the decoding is complete and hands everything over once. -/
theorem completeOnce_of_roomy_run
    (hs : ReachableVia (· = new) FecReceiver.step Roomy s) :
    (∀ d : Decoder, ∃ n t, loop attemptStep n d.attempt = some t ∧
      attemptRecover d = t.decoder) ∧ s.CompleteOnce := by
  refine ⟨exists_attempt_end, Inv.completeOnce ?_⟩
  refine ReachableVia.invariant ?_ (fun _ _ _ hs hok h => hs.step hok h) hs
  rintro _ rfl
  exact inv_new

def received (packets : List ReceivedPacket) : FecReceiver :=
  (processReceivedFec true (fun _ => true)
    { new with receivedPacketList := packets }).1

theorem roomy_lossOfFirst_sampleBatch :
    Decoder.empty.Roomy (lossOfFirst sampleBatch) := by
  refine ⟨⟨65534, ⟨nofun, nofun⟩, ?_⟩, Decoder.room_of_few ?_⟩
  · decide
  · decide +kernel

theorem completeOnce_sampleBatch :
    ((received (lossOfFirst sampleBatch)).handed.map
      RecoveredPacket.seqNum) = [65534] ∧
    (received (lossOfFirst sampleBatch)).CompleteOnce :=
  ⟨by decide +kernel,
    (completeOnce_of_roomy_run (.step
      (e := .processReceivedFec true fun _ => true)
      (.step (e := .addReceivedRedPacket (lossOfFirst sampleBatch)) (.init rfl)
        trivial rfl)
      (fun _ => ⟨fun _ => rfl, fun _ => roomy_lossOfFirst_sampleBatch⟩)
      rfl)).2⟩

/-- Packets of one source, and a callback that accepts everything. -/
def Usual (ssrc : UInt32) (_ : FecReceiver) : Call → Prop
  | .addReceivedRedPacket packets => ∀ rx ∈ packets, rx.ssrc = ssrc
  | .processReceivedFec acceptsMedia accepts => acceptsMedia ∧ ∀ n, accepts n

/-- Two packets, of which the first one is the oldest of 49. -/
def oldestBatch : MediaBatch where
  first := sampleMedia 0
  rest := [sampleMedia 1]
  increasing := by decide
  span := by decide
  length_le := by decide

def lossOfOldest : List ReceivedPacket :=
  lossOfFirst oldestBatch ++
    (List.range 47).map fun i => receivedMedia (sampleMedia (.ofNat (i + 2)))

/-- A recovered packet that is older than 48 others is discarded before it is
handed over. -/
theorem not_forall_completeOnce :
    ¬∀ (ssrc : UInt32) (s : FecReceiver),
      ReachableVia (· = new) FecReceiver.step (Usual ssrc) s →
      (∀ d : Decoder, ∃ n t, loop attemptStep n d.attempt = some t ∧
        attemptRecover d = t.decoder) ∧ s.CompleteOnce := by
  intro h
  have hssrc : ∀ rx ∈ lossOfOldest, rx.ssrc = 0 := by decide
  have honce := (h 0 (received lossOfOldest) (.step
    (e := .processReceivedFec true fun _ => true)
    (.step (e := .addReceivedRedPacket lossOfOldest) (.init rfl) hssrc rfl)
    ⟨rfl, fun _ => rfl⟩ rfl)).2.once
  have hlength := honce.length_eq
  have hhanded : (received lossOfOldest).handed.length = 0 := by
    decide +kernel
  have hrecoveries : (received lossOfOldest).fec.recoveries.length = 1 := by
    decide +kernel
  omega

end FecReceiver

end WebrtcWinXp.Fec
