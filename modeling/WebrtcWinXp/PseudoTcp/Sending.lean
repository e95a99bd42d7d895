import WebrtcWinXp.PseudoTcp.Input

/-!
# What sending keeps

Sending is made up of a few updates of the connection.  A property that these
keep is kept by `transmit` and `attemptSend`, and by a retransmission.
-/

namespace WebrtcWinXp.PseudoTcp

open Support

/-- A property that the updates of sending keep. -/
structure KeptBySending (P : PseudoTcp → Prop) : Prop where
  packet : ∀ s seq flags offset len, P s →
    P (s.packet seq flags offset len).2
  reduceMss : ∀ s, ∀ maximum ∈ PACKET_MAXIMUMS, maximum ≠ 0 → P s →
    P (s.reduceMss maximum)
  transmitted : ∀ (s : PseudoTcp) slist nxt rto_base, P s →
    P { s with
      m_slist := slist
      m_snd_nxt := nxt
      m_rto_base := rto_base }
  undefined : ∀ (s : PseudoTcp), P s → P { s with undefined := true }
  delayed : ∀ (s : PseudoTcp) t_ack, P s → P { s.tick with m_t_ack := t_ack }
  restarted : ∀ (s : PseudoTcp), P s → P { s with m_cwnd := s.m_mss }
  closed : ∀ (s : PseudoTcp) err, P s → P (s.closedown err)

namespace KeptBySending

variable {P : PseudoTcp → Prop} {s t : PseudoTcp}

theorem tick (hP : KeptBySending P) (h : P s) : P s.tick :=
  hP.delayed s s.m_t_ack h

theorem slist (hP : KeptBySending P) (slist : List SSegment) (h : P s) :
    P { s with m_slist := slist } :=
  hP.transmitted s slist s.m_snd_nxt s.m_rto_base h

variable {seg : SSegment} {n : ℕ}

theorem segmentPacket (hP : KeptBySending P)
    {result : WriteResult} (h : P s)
    (heq : s.segmentPacket seg n = (result, t)) : P t := by
  have ht : (s.segmentPacket seg n).2 = t := congrArg Prod.snd heq
  rw [← ht]
  exact hP.packet _ _ _ _ _ h

theorem sendSmaller (hP : KeptBySending P)
    {maxima : List ℕ} (hmaxima : ∀ m ∈ maxima, m ∈ PACKET_MAXIMUMS)
    (h : P s) : P (s.sendSmaller seg maxima n).2 := by
  induction maxima generalizing s n with
  | nil => exact h
  | cons maximum maxima ih =>
    have hmaxima' : ∀ m ∈ maxima, m ∈ PACKET_MAXIMUMS :=
      fun m hm => hmaxima m (List.mem_cons_of_mem maximum hm)
    simp only [PseudoTcp.sendSmaller]
    split
    · exact h
    · next hne =>
        have hreduced : P (s.reduceMss maximum) :=
          hP.reduceMss s maximum (hmaxima maximum List.mem_cons_self) hne h
        split
        · split
          · next heq => exact hP.segmentPacket hreduced heq
          · next heq => exact hP.segmentPacket hreduced heq
          · next heq => exact ih hmaxima' (hP.segmentPacket hreduced heq)
        · exact ih hmaxima' hreduced

theorem sendSegment (hP : KeptBySending P)
    (h : P s) : P (s.sendSegment seg n).2 := by
  simp only [PseudoTcp.sendSegment]
  split
  · next heq => exact hP.segmentPacket h heq
  · next heq => exact hP.segmentPacket h heq
  · next heq =>
      exact hP.sendSmaller (fun m hm => List.mem_of_mem_drop hm)
        (hP.segmentPacket h heq)

variable {now : ℕ}

theorem transmit (hP : KeptBySending P) {before after : List SSegment} (h : P s) :
    P (s.transmit before seg after now).2 := by
  have hsent : P (s.sendSegment seg (min seg.len s.m_mss)).2 :=
    hP.sendSegment h
  by_cases hxmit : seg.xmit ≥ if s.m_state = .TCP_ESTABLISHED then 15 else 30
  · rw [PseudoTcp.transmit, if_pos hxmit]
    exact h
  · rw [PseudoTcp.transmit, if_neg hxmit]
    split
    · next heq =>
        rw [heq] at hsent
        exact hsent
    · next heq =>
        rw [heq] at hsent
        exact hP.transmitted _ _ _ _ hsent

theorem transmitFirst (hP : KeptBySending P) (h : P s) :
    P (s.transmitFirst now).2 := by
  rw [PseudoTcp.transmitFirst]
  split
  · exact hP.undefined s h
  · exact hP.transmit h

theorem retransmit (hP : KeptBySending P) (now : ℕ) (h : P s) :
    P (s.retransmit now).2 := by
  have hfirst : P (s.transmitFirst now).2 := hP.transmitFirst h
  rw [PseudoTcp.retransmit]
  split
  · next heq =>
      rw [heq] at hfirst
      exact hP.closed _ _ hfirst
  · next heq =>
      rw [heq] at hfirst
      exact hfirst

theorem transmitNext (hP : KeptBySending P) (h : P s) :
    P (s.transmitNext n now).2 := by
  simp only [PseudoTcp.transmitNext]
  split
  · exact hP.undefined s h
  · split
    · exact hP.transmit (hP.slist _ h)
    · exact hP.transmit h

variable {sflags : SendFlags}

theorem acknowledge (hP : KeptBySending P) (h : P s) :
    P (s.acknowledge sflags) := by
  rw [PseudoTcp.acknowledge]
  split
  · exact h
  · split
    · exact hP.packet _ _ _ _ _ h
    · exact hP.delayed s s.now h

theorem attemptSendLoop (hP : KeptBySending P) {fuel : ℕ} (h : P s) :
    P (PseudoTcp.attemptSendLoop now fuel sflags s) := by
  induction fuel generalizing s sflags with
  | zero => exact hP.undefined s h
  | succ fuel ih =>
    have hnext : P (s.transmitNext s.nAvailable now).2 := hP.transmitNext h
    simp only [PseudoTcp.attemptSendLoop]
    split
    · exact hP.acknowledge h
    · split
      · exact h
      · split
        · next heq =>
            rw [heq] at hnext
            exact hnext
        · next heq =>
            rw [heq] at hnext
            exact ih hnext

theorem attemptSend (hP : KeptBySending P) (h : P s) :
    P (s.attemptSend sflags) := by
  refine hP.attemptSendLoop ?_
  rw [restartWindow]
  split
  · exact hP.restarted _ (hP.tick h)
  · exact hP.tick h

end KeptBySending

end WebrtcWinXp.PseudoTcp
