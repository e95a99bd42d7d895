import WebrtcWinXp.PseudoTcp.Parsing

/-!
# Runs that parse safely

Only connect messages change the window scale of the peer, so it stays small
as long as they set it to small numbers.
-/

namespace WebrtcWinXp.PseudoTcp

open Support

variable {s t : PseudoTcp} {k : ℕ}

def Scaled (k : ℕ) (s : PseudoTcp) : Prop := s.m_swnd_scale = k

theorem keptBySending_scaled : KeptBySending (Scaled k) where
  packet s seq flags offset len h := by
    simp only [packet]
    split <;> exact h
  reduceMss _ _ _ _ h := h
  transmitted _ _ _ _ h := h
  undefined _ h := h
  delayed _ _ h := h
  restarted _ h := h
  closed _ _ h := h

namespace Scaled

theorem updateTimestamp (h : s.Scaled k) {seg : Segment} :
    (s.updateTimestamp seg).Scaled k := by
  rw [PseudoTcp.updateTimestamp]
  split <;> exact h

theorem measureRtt (h : s.Scaled k) {seg : Segment} {now : ℕ} :
    (s.measureRtt seg now).Scaled k := by
  simp only [PseudoTcp.measureRtt]
  split
  · split <;> exact h
  · exact h

theorem releaseAcked (h : s.Scaled k) {seg : Segment} {now : ℕ} :
    (s.releaseAcked seg now).Scaled k := by
  simp only [PseudoTcp.releaseAcked]
  split <;> exact h

theorem acceptAck (h : s.Scaled k) {seg : Segment} {now : ℕ} :
    (s.acceptAck seg now).2.Scaled k := by
  have hacked : ((s.measureRtt seg now).releaseAcked seg now).Scaled k :=
    h.measureRtt.releaseAcked
  have hsent := keptBySending_scaled.retransmit now hacked
  simp only [PseudoTcp.acceptAck]
  split
  · split
    · exact hacked
    · split
      · next heq =>
          rw [heq] at hsent
          exact hsent
      · next heq =>
          rw [heq] at hsent
          exact hsent
  · exact hacked

theorem duplicateAck (h : s.Scaled k) {seg : Segment} {now : ℕ} :
    (s.duplicateAck seg now).2.Scaled k := by
  have hsent := keptBySending_scaled.retransmit now
    (s := { s with
      m_snd_wnd := s.advertised seg
      m_dup_acks := (s.m_dup_acks + 1) % 256 }) (show Scaled k _ from h)
  simp only [PseudoTcp.duplicateAck]
  split
  · exact h
  · split
    · split
      · split
        · next heq =>
            rw [heq] at hsent
            exact hsent
        · next heq =>
            rw [heq] at hsent
            exact hsent
      · split <;> exact h
    · exact h

theorem processAck (h : s.Scaled k) {seg : Segment} {now : ℕ} :
    (s.processAck seg now).2.Scaled k := by
  rw [PseudoTcp.processAck]
  split
  · exact h.acceptAck
  · split
    · exact h.duplicateAck
    · exact h

theorem recoverSegments {rlist : List RSegment} (h : s.Scaled k) :
    (PseudoTcp.recoverSegments rlist s).2.Scaled k := by
  induction rlist generalizing s with
  | nil => exact h
  | cons it rest ih =>
    simp only [PseudoTcp.recoverSegments]
    split
    · split
      · exact ih (show Scaled k _ from h)
      · exact ih h
    · exact h

theorem receiveData (h : s.Scaled k) {seg : Segment} {sflags : SendFlags} :
    (s.receiveData seg sflags).2.2.Scaled k := by
  simp only [PseudoTcp.receiveData]
  split
  · split
    · split <;> exact h
    · split
      · exact recoverSegments (show Scaled k _ from h)
      · exact h
  · exact h

theorem completeHandshake (h : s.Scaled k) {bConnect : Bool} :
    (s.completeHandshake bConnect).Scaled k := by
  rw [PseudoTcp.completeHandshake]
  split <;> exact h

theorem notifyWriteable (h : s.Scaled k) : s.notifyWriteable.Scaled k := by
  simp only [PseudoTcp.notifyWriteable]
  split <;> exact h

theorem notifyReadable (h : s.Scaled k) {bNewData : Bool} :
    (s.notifyReadable bNewData).Scaled k := by
  rw [PseudoTcp.notifyReadable]
  split <;> exact h

theorem processData (h : s.Scaled k) {seg : Segment} {bConnect : Bool} :
    (s.processData seg bConnect).Scaled k := by
  simp only [PseudoTcp.processData]
  exact notifyReadable (keptBySending_scaled.attemptSend
    h.completeHandshake.notifyWriteable.receiveData)

end Scaled

theorem scaled_controlData {seg : Segment} {bConnect : Bool}
    (h : s.controlData seg = some (bConnect, t)) :
    t.m_swnd_scale =
      if seg.isCtl then
        (s.parseOptions (slice seg.data 1 (seg.len - 1))).m_swnd_scale
      else s.m_swnd_scale := by
  simp only [controlData] at h
  split at h
  · next hctl =>
      rw [if_pos hctl]
      split at h
      · cases h
      · split at h
        · split at h
          · cases h
            rfl
          · split at h
            · cases h
              rfl
            · cases h
              rfl
        · cases h
  · next hctl =>
      rw [if_neg hctl]
      cases h
      rfl

theorem readsControl_of_controlData {seg : Segment} {bConnect : Bool}
    (hctl : seg.isCtl) (h : s.controlData seg = some (bConnect, t)) :
    seg.len ≠ 0 ∧ seg.data 0 = CTL_CONNECT := by
  simp only [controlData, if_pos hctl] at h
  split at h
  · cases h
  · next hlen =>
      split at h
      · next hconnect => exact ⟨hlen, hconnect⟩
      · cases h

theorem controlData_ne_none {seg : Segment} (hctl : seg.isCtl)
    (hlen : seg.len ≠ 0) (hconnect : seg.data 0 = CTL_CONNECT) :
    s.controlData seg ≠ none := by
  simp only [controlData, if_pos hctl, if_neg hlen, if_pos hconnect]
  split
  · simp
  · split <;> simp

theorem Scaled.afterControl (h : s.Scaled k) (seg : Segment)
    (bConnect : Bool) (now : ℕ) :
    (match (s.updateTimestamp seg).processAck seg now with
      | (false, s) => (false, s)
      | (true, s) => (true, s.processData seg bConnect)).2.Scaled k := by
  have hacked : ((s.updateTimestamp seg).processAck seg now).2.Scaled k :=
    h.updateTimestamp.processAck
  split
  · next u heq =>
      rw [heq] at hacked
      exact hacked
  · next u heq =>
      rw [heq] at hacked
      have hu : u.Scaled k := hacked
      change (u.processData seg bConnect).Scaled k
      exact hu.processData

/-- The scale after a segment was processed: the options were parsed in a
state with the same scale, or it is as before. -/
theorem scale_process (s : PseudoTcp) (seg : Segment) :
    (∃ u : PseudoTcp, s.Connects seg ∧ u.m_swnd_scale = s.m_swnd_scale ∧
        (s.process seg).2.m_swnd_scale =
          (u.parseOptions (slice seg.data 1 (seg.len - 1))).m_swnd_scale) ∨
      ¬s.Connects seg ∧ (s.process seg).2.m_swnd_scale = s.m_swnd_scale := by
  have hnot : ¬s.Admits seg → ¬s.Connects seg :=
    fun hadmits hconnects => hadmits hconnects.1.1
  rw [process]
  split
  · next hconv =>
      exact Or.inr ⟨hnot fun hadmits => hconv hadmits.conv, rfl⟩
  · next hconv =>
      dsimp only
      split
      · next hclosed =>
          exact Or.inr ⟨hnot fun hadmits => hadmits.opened hclosed, rfl⟩
      · next hopen =>
          split
          · next hreset =>
              exact Or.inr ⟨hnot fun hadmits => hadmits.noReset hreset, rfl⟩
          · next hreset =>
              have hadmits : s.Admits seg := ⟨not_not.mp hconv, hopen, hreset⟩
              split
              · next heq =>
                  refine Or.inr ⟨?_, rfl⟩
                  rintro ⟨⟨-, hctl, hlen⟩, hconnect⟩
                  exact controlData_ne_none hctl hlen hconnect heq
              · next bConnect u heq =>
                  have hscale := scaled_controlData heq
                  have hsame : u.Scaled u.m_swnd_scale := rfl
                  have hprocessed := hsame.afterControl seg bConnect s.now
                  by_cases hctl : seg.isCtl
                  · rw [if_pos hctl] at hscale
                    obtain ⟨hlen, hconnect⟩ :=
                      readsControl_of_controlData hctl heq
                    refine Or.inl ⟨{ s.tick with
                      m_lasttraffic := s.now
                      m_lastrecv := s.now
                      m_bOutgoing := false },
                      ⟨⟨hadmits, hctl, hlen⟩, hconnect⟩, rfl, ?_⟩
                    exact hprocessed.trans hscale
                  · rw [if_neg hctl] at hscale
                    exact Or.inr ⟨fun hconnects => hctl hconnects.1.2.1,
                      hprocessed.trans hscale⟩

variable {buffer : Buffer}

theorem header_iff :
    (∀ a ∈ headerReads buffer, buffer.Inside a) ↔
      (buffer.size < 12 ∨ HEADER_SIZE ≤ buffer.size) := by
  rw [headerReads]
  split
  · next hshort => exact iff_of_true nofun (Or.inl hshort)
  · next hshort =>
      simp only [List.forall_mem_cons, Buffer.Inside, List.not_mem_nil,
        false_implies, implies_true, and_true, HEADER_SIZE]
      omega

theorem len_segmentOf (hsize : buffer.size ≤ MAX_PACKET)
    (hheader : HEADER_SIZE ≤ buffer.size) :
    (segmentOf buffer).len = buffer.size - HEADER_SIZE := by
  have hmax : MAX_PACKET < 2 ^ 32 := by decide
  exact sub32_of_le (by omega) hheader

theorem inside_controlReads (hsize : buffer.size ≤ MAX_PACKET)
    (hheader : buffer.size < 12 ∨ HEADER_SIZE ≤ buffer.size) :
    ∀ a ∈ controlReads buffer s, buffer.Inside a := by
  intro a ha
  rw [controlReads] at ha
  split at ha
  · next hreads =>
      have hlong : HEADER_SIZE ≤ buffer.size := by omega
      have hlen := len_segmentOf hsize hlong
      have hpos := hreads.2.2.2
      split at ha
      · simp only [List.mem_cons, List.not_mem_nil, or_false] at ha
        rcases ha with rfl | rfl
        · simp only [Buffer.Inside]
          omega
        · simp only [Buffer.Inside]
          omega
      · rw [List.mem_singleton.mp ha, Buffer.Inside]
        dsimp only
        omega
  · cases ha

theorem scale_notifyPacket_of_not_connects (h : s.m_swnd_scale ≤ 16)
    (hnot : ¬(12 ≤ buffer.size ∧ s.Connects (segmentOf buffer))) :
    (s.notifyPacket buffer).2.m_swnd_scale ≤ 16 := by
  rw [notifyPacket]
  split
  · exact h
  · rw [parse]
    split
    · exact h
    · rcases scale_process s (segmentOf buffer) with
        ⟨-, hconnects, -⟩ | ⟨-, hscale⟩
      · exact absurd ⟨by omega, hconnects⟩ hnot
      · rw [hscale]
        exact h

theorem scale_notifyPacket_of_connects (h : s.m_swnd_scale ≤ 16)
    (hsize : buffer.size ≤ MAX_PACKET) (hheader : 12 ≤ buffer.size)
    (hconnects : s.Connects (segmentOf buffer)) :
    (s.notifyPacket buffer).2.m_swnd_scale ≤ 16 ↔
      ∀ factor ∈ (windowScales (slice (segmentOf buffer).data 1
        ((segmentOf buffer).len - 1))).getLast?, factor.toNat ≤ 16 := by
  rw [notifyPacket, if_neg (by omega), parse, if_neg (by omega)]
  rcases scale_process s (segmentOf buffer) with
    ⟨u, -, hu, hscale⟩ | ⟨hnot, -⟩
  · rw [hscale]
    exact m_swnd_scale_parseOptions_le (by omega)
  · exact absurd hconnects hnot

theorem parsesSafely_iff_harmless (h : s.m_swnd_scale ≤ 16)
    (hsize : buffer.size ≤ MAX_PACKET) :
    ParsesSafely buffer s ↔ Harmless buffer s := by
  constructor
  · intro hsafe
    refine ⟨header_iff.mp hsafe.header, ?_⟩
    intro hheader hconnects
    exact (scale_notifyPacket_of_connects h hsize hheader hconnects).mp
      (shiftFits_iff.mp hsafe.shift)
  · intro hharmless
    refine ⟨header_iff.mpr hharmless.size, ?_,
      inside_controlReads hsize hharmless.size, ?_, ?_⟩
    · intro hheader
      have hlong : HEADER_SIZE ≤ buffer.size := by
        rcases hharmless.size with hshort | hlong
        · omega
        · exact hlong
      rw [len_segmentOf hsize hlong]
      omega
    · exact fun _ _ => readsOptions _ s
    · rw [shiftFits_iff]
      by_cases hconnects : 12 ≤ buffer.size ∧ s.Connects (segmentOf buffer)
      · exact (scale_notifyPacket_of_connects h hsize hconnects.1
          hconnects.2).mpr (hharmless.scale hconnects.1 hconnects.2)
      · exact scale_notifyPacket_of_not_connects h hconnects

/-! ## Runs -/

namespace Scaled

theorem clockRetransmit (h : s.Scaled k) (now : ℕ) :
    (s.clockRetransmit now).2.Scaled k := by
  have hsent := keptBySending_scaled.retransmit now h
  simp only [PseudoTcp.clockRetransmit]
  split
  · split
    · exact h
    · split
      · next heq =>
          rw [heq] at hsent
          exact hsent
      · next heq =>
          rw [heq] at hsent
          exact hsent
  · exact h

theorem clockProbe (h : s.Scaled k) (now : ℕ) :
    (s.clockProbe now).2.Scaled k := by
  simp only [PseudoTcp.clockProbe]
  split
  · split
    · exact h
    · exact keptBySending_scaled.packet _ _ _ _ _ h
  · exact h

theorem clockAck (h : s.Scaled k) {now : ℕ} : (s.clockAck now).Scaled k := by
  rw [PseudoTcp.clockAck]
  split
  · exact keptBySending_scaled.packet _ _ _ _ _ h
  · exact h

theorem notifyClock (h : s.Scaled k) {now : ℕ} :
    (s.notifyClock now).Scaled k := by
  have hretransmitted := h.clockRetransmit now
  rw [PseudoTcp.notifyClock]
  split
  · exact h
  · split
    · next t heq =>
        rw [heq] at hretransmitted
        exact hretransmitted
    · next t heq =>
        rw [heq] at hretransmitted
        have hprobed := Scaled.clockProbe hretransmitted now
        split
        · next u heq' =>
            rw [heq'] at hprobed
            exact hprobed
        · next u heq' =>
            rw [heq'] at hprobed
            exact Scaled.clockAck hprobed

theorem recv (h : s.Scaled k) {len : ℕ} : (s.recv len).2.Scaled k := by
  simp only [PseudoTcp.recv]
  split
  · exact h
  · split
    · split
      · split
        · exact keptBySending_scaled.attemptSend (show Scaled k _ from h)
        · exact h
      · exact h
    · exact h

theorem send (h : s.Scaled k) {buffer : Buffer} :
    (s.send buffer).2.Scaled k := by
  rw [PseudoTcp.send]
  split
  · exact h
  · split
    · exact h
    · exact keptBySending_scaled.attemptSend (show Scaled k _ from h)

theorem connect (h : s.Scaled k) : s.connect.2.Scaled k := by
  rw [PseudoTcp.connect]
  split
  · exact h
  · exact keptBySending_scaled.attemptSend (show Scaled k _ from h)

theorem notifyMTU (h : s.Scaled k) {mtu : UInt16} :
    (s.notifyMTU mtu).Scaled k := by
  simp only [PseudoTcp.notifyMTU]
  split <;> exact h

theorem setOption (h : s.Scaled k) {opt : OptionName} {value : UInt32}
    (hset : s.setOption opt value = some t) : t.Scaled k := by
  cases opt with
  | OPT_NODELAY =>
    cases hset
    exact h
  | OPT_ACKDELAY =>
    cases hset
    exact h
  | OPT_RCVBUF =>
    simp only [PseudoTcp.setOption] at hset
    split at hset
    · cases hset
      exact h
    · cases hset
  | OPT_SNDBUF =>
    simp only [PseudoTcp.setOption] at hset
    split at hset
    · cases hset
      exact h
    · cases hset

end Scaled

theorem Harmless.within (h : Harmless buffer s) (env : Environment) :
    Harmless buffer (s.within env) := by
  refine ⟨h.size, ?_⟩
  rintro hheader ⟨⟨hadmits, hcontrol⟩, hconnect⟩
  exact h.scale hheader
    ⟨⟨⟨hadmits.conv, hadmits.opened, hadmits.noReset⟩, hcontrol⟩, hconnect⟩

def SmallScale (s : PseudoTcp) : Prop := s.m_swnd_scale ≤ 16

/-- A step does not give `NotifyPacket` a datagram that is not harmless. -/
def HarmlessStep (s : PseudoTcp) (e : Environment × Command) : Prop :=
  match e.2 with
  | .call (.notifyPacket buffer) =>
    buffer.size ≤ MAX_PACKET → Harmless buffer s
  | _ => True

theorem SmallScale.step (h : s.SmallScale)
    {e : Environment × Command} (hok : s.HarmlessStep e)
    (hstep : s.command e = some t) : t.SmallScale := by
  obtain ⟨env, command⟩ := e
  have hwithin : (s.within env).Scaled s.m_swnd_scale := rfl
  have hle : ∀ {u : PseudoTcp}, u.Scaled s.m_swnd_scale → u.SmallScale :=
    fun hu => le_trans (le_of_eq hu) h
  cases command with
  | setOption opt value => exact hle (hwithin.setOption hstep)
  | call call =>
    cases hstep
    cases call with
    | connect => exact hle hwithin.connect
    | notifyMTU mtu => exact hle hwithin.notifyMTU
    | notifyClock now => exact hle hwithin.notifyClock
    | notifyPacket buffer =>
      by_cases hsize : buffer.size ≤ MAX_PACKET
      · have hharmless : Harmless buffer (s.within env) :=
          (hok hsize).within env
        have hsafe : ParsesSafely buffer (s.within env) :=
          (parsesSafely_iff_harmless (s := s.within env) h hsize).mpr
            hharmless
        exact shiftFits_iff.mp hsafe.shift
      · refine hle ?_
        change ((s.within env).notifyPacket buffer).2.Scaled _
        rw [PseudoTcp.notifyPacket, if_pos (by omega)]
        exact hwithin
    | recv len => exact hle hwithin.recv
    | send buffer => exact hle hwithin.send
    | close force => exact h

/-- In every state that runs over harmless datagrams reach, the datagrams that
are parsed safely are the harmless ones. -/
theorem parsesSafely_iff_of_harmless_run
    (h : ReachableVia Fresh command HarmlessStep s)
    (hsize : buffer.size ≤ MAX_PACKET) :
    ParsesSafely buffer s ↔ Harmless buffer s := by
  have hsmall : s.SmallScale := by
    refine h.invariant ?_ ?_
    · rintro s ⟨conv, now, memory, rfl⟩
      exact Nat.zero_le 16
    · intro s e t hs hok hstep
      exact hs.step hok hstep
  exact parsesSafely_iff_harmless hsmall hsize

theorem harmless_samplePacket (s : PseudoTcp) :
    Harmless (samplePacket 4 2 [0, 3, 1, 0]) s := by
  refine ⟨Or.inr (by decide), ?_⟩
  intro _ _
  have hoptions : slice (segmentOf (samplePacket 4 2 [0, 3, 1, 0])).data 1
      ((segmentOf (samplePacket 4 2 [0, 3, 1, 0])).len - 1) = [3, 1, 0] := rfl
  rw [hoptions]
  simp [windowScales, TCP_OPT_EOL, TCP_OPT_NOOP, TCP_OPT_WND_SCALE]

def harmlessCommands : List (Environment × Command) :=
  sampleCalls.map fun e => (e.1, .call e.2)

/-- The calls of `sampleCalls` reach a state in which the connect message is
parsed safely once more. -/
theorem parsesSafely_harmlessCommands :
    ∃ s, execute command (new 0 0 fun _ => 0) harmlessCommands = some s ∧
      (ParsesSafely (samplePacket 4 2 [0, 3, 1, 0]) s ↔
        Harmless (samplePacket 4 2 [0, 3, 1, 0]) s) := by
  obtain ⟨s, hs⟩ : ∃ s, execute command (new 0 0 fun _ => 0)
      harmlessCommands = some s := ⟨_, rfl⟩
  refine ⟨s, hs, parsesSafely_iff_of_harmless_run
    (ReachableVia.execute_of_mem (.init ⟨0, 0, fun _ => 0, rfl⟩) hs ?_)
    (by decide)⟩
  intro e he u
  simp only [harmlessCommands, sampleCalls, List.map_cons, List.map_nil,
    List.mem_cons, List.not_mem_nil, or_false] at he
  rcases he with rfl | rfl | rfl
  · trivial
  · exact fun _ => harmless_samplePacket u
  · trivial

/-- A datagram of 12 bytes is read beyond its end. -/
theorem not_parsesSafely_twelveBytes :
    ¬∀ s, Reachable Fresh command s → ∀ buffer : Buffer,
      buffer.size ≤ MAX_PACKET → ParsesSafely buffer s := by
  intro h
  have hsafe := h (new 0 0 fun _ => 0) (.init ⟨0, 0, fun _ => 0, rfl⟩)
    ⟨fun _ => 0, 12⟩ (by decide)
  have hinside := hsafe.header ⟨20, 4⟩ (by decide)
  exact absurd hinside (by decide)

end WebrtcWinXp.PseudoTcp
