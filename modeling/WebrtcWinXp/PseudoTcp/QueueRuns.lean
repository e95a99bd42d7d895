import WebrtcWinXp.PseudoTcp.SendQueue

/-!
# Runs that keep the send queue in order

The calls of the user and the packets of the peer, and what they do to the
send queue.
-/

namespace WebrtcWinXp.PseudoTcp

open Support

variable {s t u : PseudoTcp}

/-- While segments are recovered, the end of the recovery was sent already,
unless the sequence numbers have wrapped around. -/
def Recovering (s : PseudoTcp) : Prop :=
  s.m_state ≠ .TCP_CLOSED → 3 ≤ s.m_dup_acks → s.m_snd_una ≤ s.m_snd_nxt →
    s.m_recover ≤ s.m_snd_nxt

structure Orderly (s : PseudoTcp) : Prop where
  sound : s.Sound
  recovering : s.Recovering

/-- Nothing that the send queue depends on was touched. -/
structure Unmoved (s t : PseudoTcp) : Prop where
  side : t.sendSide = s.sendSide
  dup_acks : t.m_dup_acks = s.m_dup_acks
  recover : t.m_recover = s.m_recover

namespace Unmoved

theorem refl (s : PseudoTcp) : Unmoved s s := ⟨rfl, rfl, rfl⟩

theorem trans (h : Unmoved s t) (h' : Unmoved t u) : Unmoved s u :=
  ⟨h'.side.trans h.side, h'.dup_acks.trans h.dup_acks,
    h'.recover.trans h.recover⟩

theorem kept (h : Unmoved s t) : Kept s t :=
  ⟨⟨_, _, h.side⟩, h.dup_acks, h.recover⟩

end Unmoved

theorem recovering_of_lt (h : s.m_dup_acks < 3) : s.Recovering := by
  intro _ hdup
  omega

theorem Sends.recovering (h : Sends s t) (hs : s.Recovering) :
    t.Recovering := by
  intro hopen hdup hle
  obtain ⟨hle', hnxt⟩ := h.forward hle
  rw [h.state] at hopen
  rw [h.dup_acks] at hdup
  rw [h.recover]
  exact le_trans (hs hopen hdup hle') hnxt

theorem Orderly.sends (h : s.Orderly) (hsound : t.Sound) (hsends : Sends s t) :
    t.Orderly :=
  ⟨hsound, hsends.recovering h.recovering⟩

theorem Orderly.unmoved (h : s.Orderly) (hunmoved : Unmoved s t) :
    t.Orderly :=
  h.sends (h.sound.congr hunmoved.side) hunmoved.kept.sends

theorem orderly_new {conv now : ℕ} {memory : ℕ → UInt8} :
    (new conv now memory).Orderly :=
  ⟨sound_new, fun _ _ _ => Nat.le_refl 0⟩

theorem Orderly.attemptSend (h : s.Orderly) {sflags : SendFlags} :
    (s.attemptSend sflags).Orderly :=
  h.sends h.sound.attemptSend.1 h.sound.attemptSend.2

theorem Orderly.ackPacket (h : s.Orderly) {seq : ℕ} :
    (s.packet seq 0 0 0).2.Orderly :=
  h.sends h.sound.ackPacket packet_kept.sends

theorem Sound.withState (h : s.Sound) (state : TcpState)
    (hstate : state ≠ .TCP_LISTEN) : Sound { s with m_state := state } :=
  ⟨h.nonempty, h.contiguous, h.covers, h.transmitted, h.inside, h.defined,
    h.una, h.nxt, h.mss, h.mtu_lt, h.mtu_ne, h.buffer, h.capacity,
    fun hlisten => absurd hlisten hstate⟩

theorem Orderly.withState (h : s.Orderly) (state : TcpState)
    (hopen : s.m_state ≠ .TCP_CLOSED) (hstate : state ≠ .TCP_LISTEN) :
    Orderly { s with m_state := state } :=
  ⟨h.sound.withState state hstate, fun _ => h.recovering hopen⟩

theorem notify_unmoved {n : Notification} : Unmoved s (s.notify n) :=
  ⟨rfl, rfl, rfl⟩

theorem Sound.closedown (h : s.Sound) {err : Error} :
    (s.closedown err).Orderly :=
  ⟨(h.withState .TCP_CLOSED nofun).congr rfl,
    fun hopen => absurd rfl hopen⟩

theorem Orderly.adjustMTU (h : s.Orderly) : s.adjustMTU.Orderly where
  sound := by
    have hlt : s.m_mtu_advise < 2 ^ 16 := h.sound.mtu_lt
    have hne : s.m_mtu_advise ≠ PACKET_OVERHEAD := h.sound.mtu_ne
    have hmss : 0 < sub32 s.m_mtu_advise PACKET_OVERHEAD := by
      have hoverhead : PACKET_OVERHEAD = 116 := rfl
      rw [hoverhead] at hne ⊢
      simp only [sub32]
      omega
    exact ⟨h.sound.nonempty, h.sound.contiguous, h.sound.covers,
      h.sound.transmitted, h.sound.inside, h.sound.defined, h.sound.una,
      h.sound.nxt, hmss, hlt, hne, h.sound.buffer, h.sound.capacity,
      h.sound.listen⟩
  recovering := h.recovering

/-! ## Queueing -/

variable {slist : List SSegment} {n : ℕ}

theorem Transmitted.append_unsent {seg : SSegment} (h : Transmitted slist n) (hzero : seg.xmit = 0) :
    Transmitted (slist ++ [seg]) n := by
  obtain ⟨sent, unsent, rfl, hsent, hunsent, rfl⟩ := h
  refine ⟨sent, unsent ++ [seg], by simp, hsent, ?_, rfl⟩
  intro p hp
  rcases List.mem_append.mp hp with hp | hp
  · exact hunsent p hp
  · rw [List.mem_singleton.mp hp]
    exact hzero

theorem Transmitted.replace_last
    {back back' : SSegment} (h : Transmitted (slist ++ [back]) n)
    (hzero : back.xmit = 0) (hzero' : back'.xmit = 0) :
    Transmitted (slist ++ [back']) n := by
  obtain ⟨sent, unsent, hsplit, hsent, hunsent, rfl⟩ := h
  rcases List.eq_nil_or_concat' unsent with rfl | ⟨unsent, last, rfl⟩
  · rw [List.append_nil] at hsplit
    have := hsent back (by simp [← hsplit])
    omega
  · rw [← List.append_assoc] at hsplit
    obtain ⟨rfl, -⟩ := List.append_inj' hsplit rfl
    refine Transmitted.append_unsent ⟨sent, unsent, rfl, hsent, ?_, rfl⟩
      hzero'
    intro p hp
    exact hunsent p (List.mem_append_left _ hp)

/-- The segments after data was queued cover it too. -/
structure Queued (una : ℕ) (slist slist' : List SSegment) (len n : ℕ) :
    Prop where
  nonempty : ∀ seg ∈ slist', 0 < seg.len
  follows : Follows una 0 slist'
  covers : total SSegment.len slist' = total SSegment.len slist + len
  transmitted : Transmitted slist' n

theorem queueSegment_queued {una len : ℕ} {bCtrl : Bool} (hnonempty : ∀ seg ∈ slist, 0 < seg.len)
    (hfollows : Follows una 0 slist) (htransmitted : Transmitted slist n)
    (hlt : total SSegment.len slist + len < 2 ^ 32)
    (hlen : 0 < len ∨ ∃ back ∈ slist.getLast?, back.Joins bCtrl) :
    Queued una slist
      (queueSegment (u32 (una + total SSegment.len slist)) len bCtrl slist)
      len n := by
  have hpush (hpos : 0 < len) : Queued una slist
      (slist ++ [⟨u32 (una + total SSegment.len slist), len, 0, bCtrl⟩]) len
      n := by
    refine ⟨?_, ?_, by simp, htransmitted.append_unsent rfl⟩
    · intro p hp
      rcases List.mem_append.mp hp with hp | hp
      · exact hnonempty p hp
      · rw [List.mem_singleton.mp hp]
        exact hpos
    · refine follows_append.mpr ⟨hfollows, follows_cons.mpr ⟨?_, trivial⟩⟩
      rw [Nat.zero_add]
  rcases List.eq_nil_or_concat' slist with rfl | ⟨slist, back, rfl⟩
  · exact hpush (hlen.resolve_right (by simp))
  · simp only [queueSegment, List.getLast?_append, List.getLast?_singleton,
      Option.some_or, List.dropLast_concat]
    split
    · rename_i hjoins
      have hwrap : u32 (back.len + len) = back.len + len := by
        refine u32_of_lt ?_
        simp only [total_append, total_cons, total_nil] at hlt
        omega
      rw [hwrap]
      obtain ⟨hinit, hback⟩ := follows_append.mp hfollows
      refine ⟨?_, ?_, ?_, htransmitted.replace_last hjoins.2 hjoins.2⟩
      · intro p hp
        rcases List.mem_append.mp hp with hp | hp
        · exact hnonempty p (List.mem_append_left _ hp)
        · rw [List.mem_singleton.mp hp]
          exact Nat.add_pos_left (hnonempty back (by simp)) len
      · exact follows_append.mpr ⟨hinit,
          follows_cons.mpr ⟨(follows_cons.mp hback).1, trivial⟩⟩
      · simp [Nat.add_assoc]
    · rename_i hjoins
      refine hpush (hlen.resolve_right ?_)
      rintro ⟨back', hback', hjoins'⟩
      simp only [List.getLast?_append, List.getLast?_singleton,
        Option.some_or, Option.mem_some_iff] at hback'
      exact hjoins (hback' ▸ hjoins')

theorem Orderly.queue (h : s.Orderly) (hstate : s.m_state ≠ .TCP_LISTEN)
    {data : ℕ → UInt8} {len : ℕ} {bCtrl : Bool}
    (hlen : 0 < min len s.m_sbuf.getWriteRemaining ∨
      ∃ back ∈ s.m_slist.getLast?, back.Joins bCtrl) :
    (s.queue data len bCtrl).2.Orderly := by
  have hwell : s.m_sbuf.WellFormed := h.sound.buffer
  have hcapacity : s.m_sbuf.buffer_length = DEFAULT_SND_BUF_SIZE :=
    h.sound.capacity
  have hcovers : total SSegment.len s.m_slist = s.m_sbuf.data_length :=
    h.sound.covers
  have hlength := h.sound.data_length_le
  have hsmall : DEFAULT_SND_BUF_SIZE < 2 ^ 32 := by decide
  have hremaining : s.m_sbuf.getWriteRemaining =
    s.m_sbuf.buffer_length - s.m_sbuf.data_length := rfl
  obtain ⟨-, happended⟩ := FifoBuffer.write_appended hwell data
    (min len s.m_sbuf.getWriteRemaining)
  rw [Nat.min_assoc, Nat.min_self] at happended
  have hqueued : Queued s.m_snd_una s.m_slist
      (queueSegment (u32 (s.m_snd_una + total SSegment.len s.m_slist))
        (min len s.m_sbuf.getWriteRemaining) bCtrl s.m_slist)
      (min len s.m_sbuf.getWriteRemaining) s.nInFlight :=
    queueSegment_queued h.sound.nonempty h.sound.contiguous
      h.sound.transmitted (by omega) hlen
  rw [hcovers] at hqueued
  refine ⟨⟨hqueued.nonempty, hqueued.follows, ?_, hqueued.transmitted,
    h.sound.inside, h.sound.defined, h.sound.una, h.sound.nxt, h.sound.mss,
    h.sound.mtu_lt, h.sound.mtu_ne, happended.wellFormed,
    happended.buffer_length.trans hcapacity,
    fun hlisten => absurd hlisten hstate⟩, h.recovering⟩
  exact hqueued.covers.trans
    ((congrArg (· + _) hcovers).trans happended.data_length.symm)

theorem Orderly.queueConnectMessage (h : s.Orderly)
    (hstate : s.m_state ≠ .TCP_LISTEN) (hnil : s.m_slist = []) :
    s.queueConnectMessage.Orderly := by
  have hcovers : total SSegment.len s.m_slist = s.m_sbuf.data_length :=
    h.sound.covers
  have hcapacity : s.m_sbuf.buffer_length = DEFAULT_SND_BUF_SIZE :=
    h.sound.capacity
  have hsmall : 0 < DEFAULT_SND_BUF_SIZE := by decide
  rw [hnil, total_nil] at hcovers
  have hwindow : Orderly { s with m_snd_wnd := s.connectMessage.length } :=
    h.unmoved ⟨rfl, rfl, rfl⟩
  refine hwindow.queue hstate (Or.inl ?_)
  refine Nat.lt_min.mpr ⟨Nat.succ_pos _, ?_⟩
  change 0 < s.m_sbuf.buffer_length - s.m_sbuf.data_length
  omega

theorem applyOption_unmoved {kind : UInt8} {data : List UInt8} :
    Unmoved s (s.applyOption kind data) := by
  rw [applyOption]
  split <;> exact ⟨rfl, rfl, rfl⟩

theorem parseOptionsLoop_unmoved {fuel : ℕ}
    {buf options_specified : List UInt8} :
    Unmoved s (parseOptionsLoop fuel buf options_specified s).2 := by
  induction fuel generalizing s buf options_specified with
  | zero => exact .refl s
  | succ fuel ih =>
    cases buf with
    | nil => exact .refl s
    | cons kind buf =>
      simp only [parseOptionsLoop]
      split
      · exact .refl s
      · split
        · exact ih
        · split
          · exact applyOption_unmoved.trans ih
          · exact .refl s

theorem parseOptions_unmoved {data : List UInt8} :
    Unmoved s (s.parseOptions data) := by
  have hloop : Unmoved s
      (parseOptionsLoop data.length data [] s).2 := parseOptionsLoop_unmoved
  simp only [parseOptions]
  split
  · rename_i heq
    rw [heq] at hloop
    exact hloop
  · rename_i heq
    rw [heq] at hloop
    split
    · exact hloop.trans ⟨rfl, rfl, rfl⟩
    · exact hloop

/-- What the control data of a segment does. -/
structure Controlled (s : PseudoTcp) (seg : Segment) (t : PseudoTcp) :
    Prop where
  orderly : t.Orderly
  una : t.m_snd_una = s.m_snd_una
  nxt : t.m_snd_nxt = s.m_snd_nxt
  slist : t.m_slist = s.m_slist ∨ s.m_snd_una = s.m_snd_nxt
  opened : s.m_state ≠ .TCP_CLOSED → t.m_state ≠ .TCP_CLOSED
  valid : seg.isCtl → 0 < seg.len ∧ seg.data 0 = CTL_CONNECT

variable {seg : Segment} {bConnect : Bool}

theorem Orderly.controlData (h : s.Orderly)
    (heq : s.controlData seg = some (bConnect, t)) : Controlled s seg t := by
  have hparsed : Unmoved s
      (s.parseOptions (slice seg.data 1 (seg.len - 1))) :=
    parseOptions_unmoved
  have horderly := h.unmoved hparsed
  have hkept := hparsed.kept
  dsimp only [PseudoTcp.controlData] at heq
  split at heq
  · split at heq
    · cases heq
    · rename_i hlen
      split at heq
      · rename_i hconnect
        have hvalid : seg.isCtl → 0 < seg.len ∧ seg.data 0 = CTL_CONNECT :=
          fun _ => ⟨Nat.pos_of_ne_zero hlen, hconnect⟩
        split at heq
        · rename_i hlisten
          cases heq
          have hnil := horderly.sound.listen hlisten
          have hflight := horderly.sound.nInFlight_le
          have hcovers := horderly.sound.covers
          rw [hnil] at hcovers
          refine ⟨Orderly.queueConnectMessage
            (horderly.withState .TCP_SYN_RECEIVED ?_ nofun) nofun hnil, hkept.una, hkept.nxt, Or.inr ?_, nofun,
            hvalid⟩
          · rw [hlisten]
            nofun
          · have huna : s.m_snd_una < 2 ^ 32 := h.sound.una
            have hnxt : s.m_snd_nxt < 2 ^ 32 := h.sound.nxt
            have hzero : sub32 s.m_snd_nxt s.m_snd_una = 0 := by
              rw [← hkept.una, ← hkept.nxt]
              exact Nat.le_zero.mp (le_trans hflight hcovers.symm.le)
            unfold sub32 at hzero
            omega
        · split at heq
          · rename_i hsent
            cases heq
            refine ⟨(Orderly.adjustMTU
              (horderly.withState .TCP_ESTABLISHED ?_ nofun)).unmoved
                notify_unmoved, hkept.una, hkept.nxt, Or.inl hkept.slist,
              nofun, hvalid⟩
            rw [hsent]
            nofun
          · cases heq
            refine ⟨horderly, hkept.una, hkept.nxt, Or.inl hkept.slist, ?_,
              hvalid⟩
            rw [hkept.state]
            exact id
      · cases heq
  · rename_i hctl
    cases heq
    exact ⟨h, rfl, rfl, Or.inl rfl, id, fun hctl' => absurd hctl' hctl⟩

/-! ## Acknowledgements -/

theorem measureRtt_unmoved {now : ℕ} :
    Unmoved s (s.measureRtt seg now) := by
  simp only [measureRtt]
  split
  · split <;> exact ⟨rfl, rfl, rfl⟩
  · exact .refl s

theorem updateTimestamp_unmoved :
    Unmoved s (s.updateTimestamp seg) := by
  rw [updateTimestamp]
  split <;> exact ⟨rfl, rfl, rfl⟩

theorem splits_iff_of_same {ack : ℕ} (huna : t.m_snd_una = s.m_snd_una)
    (hslist : t.m_slist = s.m_slist) : t.Splits ack ↔ s.Splits ack := by
  simp only [Splits, huna, hslist]

theorem freeSegments_append {before : List SSegment}
    (hpos : ∀ p ∈ before, 0 < p.len) (after : List SSegment) (largest : ℕ) :
    ∃ largest', freeSegments (total SSegment.len before) largest
      (before ++ after) = some (after, largest') := by
  induction before generalizing largest with
  | nil =>
    cases after with
    | nil => exact ⟨largest, rfl⟩
    | cons front rest => exact ⟨largest, rfl⟩
  | cons front rest ih =>
    have hfront := hpos front List.mem_cons_self
    obtain ⟨largest', hfree⟩ := ih
      (fun p hp => hpos p (List.mem_cons_of_mem front hp))
      (max largest front.len)
    refine ⟨largest', ?_⟩
    rw [total_cons, List.cons_append, freeSegments, if_neg (by omega),
      if_neg (by omega), Nat.add_sub_cancel_left]
    exact hfree

/-- What a valuable acknowledgement of whole segments does. -/
structure Acked (s : PseudoTcp) (ack : ℕ) (t : PseudoTcp) : Prop where
  orderly : t.Orderly
  una : t.m_snd_una = ack
  nxt : t.m_snd_nxt = s.m_snd_nxt
  state : t.m_state = s.m_state
  dup_acks : t.m_dup_acks = s.m_dup_acks
  recover : t.m_recover = s.m_recover
  rest : ack ≠ s.m_snd_nxt → t.m_slist ≠ []

theorem Orderly.releaseAcked (h : s.Orderly)
    (hlow : s.m_snd_una < seg.ack) (hhigh : seg.ack ≤ s.m_snd_nxt)
    (hsplits : ¬s.Splits seg.ack) (now : ℕ) :
    Acked s seg.ack (s.releaseAcked seg now) := by
  have huna : s.m_snd_una < 2 ^ 32 := h.sound.una
  have hnxt : s.m_snd_nxt < 2 ^ 32 := h.sound.nxt
  have hcovers : total SSegment.len s.m_slist = s.m_sbuf.data_length :=
    h.sound.covers
  have hflight := h.sound.nInFlight_le
  have hnAcked : sub32 seg.ack s.m_snd_una = seg.ack - s.m_snd_una :=
    sub32_of_le (by omega) hlow.le
  have hnInFlight : s.nInFlight = s.m_snd_nxt - s.m_snd_una :=
    sub32_of_le hnxt (by omega)
  obtain ⟨before, after, hslist, hbefore⟩ := exists_split
    (show sub32 seg.ack s.m_snd_una ≤ total SSegment.len s.m_slist by omega)
    (by
      rintro before x after hsplit ⟨hleft, hright⟩
      obtain ⟨hoffset, -⟩ := h.sound.offset hsplit
      refine hsplits ⟨x, by rw [hsplit]; simp, ?_, ?_⟩ <;> rw [hoffset]
      · exact hleft
      · exact hright)
  have hnonempty : ∀ p ∈ s.m_slist, 0 < p.len := h.sound.nonempty
  rw [hslist] at hnonempty hcovers
  rw [total_append] at hcovers
  obtain ⟨sent, unsent, hsplit, hsent, hunsent, htotal⟩ :=
    h.sound.transmitted
  change s.m_slist = sent ++ unsent at hsplit
  change total SSegment.len sent = s.nInFlight at htotal
  rw [hslist] at hsplit
  obtain ⟨between, rfl, rfl⟩ :=
    prefix_of_total_le hnonempty hsplit (by omega)
  rw [total_append] at htotal
  have hfollows : Follows s.m_snd_una 0 s.m_slist := h.sound.contiguous
  rw [hslist, follows_append, Nat.zero_add] at hfollows
  obtain ⟨largest', hfree⟩ := freeSegments_append
    (fun p hp => hnonempty p (List.mem_append_left _ hp))
    (between ++ unsent) s.m_largest
  rw [hbefore, ← hslist] at hfree
  have hdropped := FifoBuffer.dropped_consumeReadData h.sound.buffer
    (n := sub32 seg.ack s.m_snd_una)
  simp only [PseudoTcp.releaseAcked, hfree]
  refine ⟨⟨⟨?_, ?_, ?_, ?_, h.sound.inside, h.sound.defined, ?_, hnxt,
    h.sound.mss, h.sound.mtu_lt, h.sound.mtu_ne, hdropped.wellFormed,
    hdropped.buffer_length.trans h.sound.capacity, ?_⟩, ?_⟩, rfl, rfl, rfl,
    rfl, rfl, ?_⟩
  · exact fun p hp => hnonempty p (List.mem_append_right _ hp)
  · have hacked := hfollows.2.acked
    have hack : s.m_snd_una + total SSegment.len before = seg.ack := by
      omega
    rw [hack] at hacked
    exact hacked
  · change total SSegment.len (between ++ unsent) =
      s.m_sbuf.data_length - sub32 seg.ack s.m_snd_una
    omega
  · refine ⟨between, unsent, rfl, ?_, hunsent, ?_⟩
    · exact fun p hp => hsent p (List.mem_append_right _ hp)
    · change total SSegment.len between = sub32 s.m_snd_nxt seg.ack
      rw [sub32_of_le hnxt hhigh]
      omega
  · change seg.ack < 2 ^ 32
    omega
  · intro hlisten
    have hnil : s.m_slist = [] := h.sound.listen hlisten
    rw [hslist, List.append_eq_nil_iff] at hnil
    exact hnil.2
  · intro hopen hdup hle
    exact h.recovering hopen hdup (by omega)
  · intro hne hnil
    change between ++ unsent = [] at hnil
    rw [List.append_eq_nil_iff] at hnil
    rw [hnil.1, total_nil] at htotal
    omega

/-- What a retransmission does: it may close the connection. -/
structure Retransmitted (s : PseudoTcp) (r : Bool × PseudoTcp) : Prop where
  sound : r.2.Sound
  closed : r.1 = false → r.2.Orderly
  sends : r.1 = true → Sends s r.2

theorem Sound.retransmit (h : s.Sound) (hne : s.m_slist ≠ []) (now : ℕ) :
    Retransmitted s (s.retransmit now) := by
  have hfirst := h.transmitFirst hne now
  simp only [PseudoTcp.retransmit]
  split
  · rename_i t heq
    rw [heq] at hfirst
    exact ⟨hfirst.1.closedown.sound, fun _ => hfirst.1.closedown, nofun⟩
  · rename_i t heq
    rw [heq] at hfirst
    exact ⟨hfirst.1, nofun, fun _ => hfirst.2⟩

theorem Orderly.acceptAck (h : s.Orderly)
    (hlow : s.m_snd_una < seg.ack) (hhigh : seg.ack ≤ s.m_snd_nxt)
    (hopen : s.m_state ≠ .TCP_CLOSED)
    (hsplits : ¬s.Splits seg.ack) (now : ℕ) :
    (s.acceptAck seg now).2.Orderly := by
  have hrtt : Unmoved s (s.measureRtt seg now) := measureRtt_unmoved
  have hkept := hrtt.kept
  have hacked : Acked (s.measureRtt seg now) seg.ack
      ((s.measureRtt seg now).releaseAcked seg now) := by
    refine (h.unmoved hrtt).releaseAcked ?_ ?_ ?_ now
    · rwa [hkept.una]
    · rwa [hkept.nxt]
    · rwa [splits_iff_of_same hkept.una hkept.slist]
  simp only [PseudoTcp.acceptAck]
  generalize (s.measureRtt seg now).releaseAcked seg now = t at hacked ⊢
  split
  · rename_i hdup
    split
    · exact ⟨hacked.orderly.sound.congr rfl,
        recovering_of_lt (show 0 < 3 by decide)⟩
    · rename_i hrecover
      have hlt : t.m_recover ≤ t.m_snd_nxt := by
        refine hacked.orderly.recovering ?_ hdup ?_
        · rw [hacked.state, hkept.state]
          exact hopen
        · rw [hacked.una, hacked.nxt, hkept.nxt]
          exact hhigh
      have hne : t.m_slist ≠ [] := by
        refine hacked.rest ?_
        rw [← hacked.nxt, ← hacked.una]
        omega
      have hretransmitted := hacked.orderly.sound.retransmit hne now
      split
      · rename_i u heq
        rw [heq] at hretransmitted
        exact hretransmitted.closed rfl
      · rename_i u heq
        rw [heq] at hretransmitted
        exact (hacked.orderly.sends hretransmitted.sound
          (hretransmitted.sends rfl)).unmoved ⟨rfl, rfl, rfl⟩
  · exact ⟨hacked.orderly.sound.congr rfl,
      recovering_of_lt (show 0 < 3 by decide)⟩

theorem Orderly.duplicateAck (h : s.Orderly)
    (hopen : s.m_state ≠ .TCP_CLOSED) (now : ℕ) :
    (s.duplicateAck seg now).2.Orderly := by
  have hwindow : Orderly { s with m_snd_wnd := s.advertised seg } :=
    h.unmoved ⟨rfl, rfl, rfl⟩
  simp only [PseudoTcp.duplicateAck]
  split
  · exact hwindow
  · split
    · rename_i hne
      have hcount (n : ℕ) : Sound { s with
          m_snd_wnd := s.advertised seg
          m_dup_acks := n } := h.sound.congr rfl
      have hslist : s.m_slist ≠ [] := by
        intro hnil
        have hcovers := h.sound.covers
        have hflight := h.sound.nInFlight_le
        have huna : s.m_snd_una < 2 ^ 32 := h.sound.una
        have hnxt : s.m_snd_nxt < 2 ^ 32 := h.sound.nxt
        change total SSegment.len s.m_slist = s.m_sbuf.data_length at hcovers
        rw [hnil, total_nil] at hcovers
        have hzero : sub32 s.m_snd_nxt s.m_snd_una = 0 := by
          change s.nInFlight = 0
          omega
        simp only [sub32] at hzero
        omega
      split
      · have hretransmitted := (hcount ((s.m_dup_acks + 1) % 256)).retransmit
          hslist now
        split
        · rename_i u heq
          rw [heq] at hretransmitted
          exact hretransmitted.closed rfl
        · rename_i u heq
          rw [heq] at hretransmitted
          exact ⟨hretransmitted.sound.congr rfl, fun _ _ _ => Nat.le_refl _⟩
      · split
        · rename_i hmore
          refine ⟨(hcount ((s.m_dup_acks + 1) % 256)).congr rfl, ?_⟩
          intro _ _ hle
          refine h.recovering hopen ?_ hle
          change (s.m_dup_acks + 1) % 256 > 3 at hmore
          omega
        · rename_i hthree hmore
          refine ⟨(hcount ((s.m_dup_acks + 1) % 256)).congr rfl,
            recovering_of_lt ?_⟩
          change (s.m_dup_acks + 1) % 256 < 3
          omega
    · exact ⟨h.sound.congr rfl, recovering_of_lt (show 0 < 3 by decide)⟩

theorem Orderly.processAck (h : s.Orderly)
    (hopen : s.m_state ≠ .TCP_CLOSED)
    (hsplits : s.m_snd_una < seg.ack → seg.ack ≤ s.m_snd_nxt →
      ¬s.Splits seg.ack) (now : ℕ) :
    (s.processAck seg now).2.Orderly := by
  rw [PseudoTcp.processAck]
  split
  · rename_i hack
    exact h.acceptAck hack.1 hack.2 hopen (hsplits hack.1 hack.2) now
  · split
    · exact h.duplicateAck hopen now
    · exact h

theorem Orderly.completeHandshake (h : s.Orderly) :
    (s.completeHandshake bConnect).Orderly := by
  rw [PseudoTcp.completeHandshake]
  split
  · rename_i hreceived
    refine (Orderly.adjustMTU
      (h.withState .TCP_ESTABLISHED ?_ nofun)).unmoved notify_unmoved
    rw [hreceived.1]
    nofun
  · exact h

theorem notifyWriteable_unmoved : Unmoved s s.notifyWriteable := by
  simp only [notifyWriteable]
  split <;> exact ⟨rfl, rfl, rfl⟩

theorem notifyReadable_unmoved {bNewData : Bool} :
    Unmoved s (s.notifyReadable bNewData) := by
  rw [notifyReadable]
  split <;> exact ⟨rfl, rfl, rfl⟩

theorem advance_unmoved : Unmoved s (s.advance n) :=
  ⟨rfl, rfl, rfl⟩

theorem recoverSegments_unmoved {rlist : List RSegment} :
    Unmoved s (recoverSegments rlist s).2 := by
  induction rlist generalizing s with
  | nil => exact ⟨rfl, rfl, rfl⟩
  | cons it rest ih =>
    simp only [recoverSegments]
    split
    · split
      · exact advance_unmoved.trans ih
      · exact ih
    · exact ⟨rfl, rfl, rfl⟩

theorem receiveData_unmoved {sflags : SendFlags} :
    Unmoved s (s.receiveData seg sflags).2.2 := by
  simp only [receiveData]
  split
  · split
    · split <;> exact ⟨rfl, rfl, rfl⟩
    · split
      · have hstored (f : FifoBuffer) : Unmoved s { s with m_rbuf := f } :=
          ⟨rfl, rfl, rfl⟩
        exact (hstored _).trans (advance_unmoved.trans
          recoverSegments_unmoved)
      · exact ⟨rfl, rfl, rfl⟩
  · exact .refl s

theorem Orderly.processData (h : s.Orderly) : (s.processData seg bConnect).Orderly := by
  simp only [PseudoTcp.processData]
  exact ((h.completeHandshake.unmoved notifyWriteable_unmoved).unmoved
    receiveData_unmoved).attemptSend.unmoved notifyReadable_unmoved

theorem Orderly.process (h : s.Orderly)
    (hsplits : s.Acknowledges seg → ¬s.Splits seg.ack) :
    (s.process seg).2.Orderly := by
  rw [PseudoTcp.process]
  split
  · exact h
  · rename_i hconv
    have hlogged : Orderly { s.tick with
        m_lasttraffic := s.now
        m_lastrecv := s.now
        m_bOutgoing := false } := h.unmoved ⟨rfl, rfl, rfl⟩
    dsimp only
    split
    · exact hlogged
    · rename_i hopen
      split
      · exact hlogged.sound.closedown
      · rename_i hreset
        split
        · exact hlogged
        · rename_i bConnect t heq
          have hcontrolled := hlogged.controlData heq
          have hstamped : Unmoved t (t.updateTimestamp seg) :=
            updateTimestamp_unmoved
          have hkept := hstamped.kept
          have hacked : ((t.updateTimestamp seg).processAck seg
              s.now).2.Orderly := by
            refine (hcontrolled.orderly.unmoved hstamped).processAck ?_ ?_ _
            · rw [hkept.state]
              exact hcontrolled.opened hopen
            · intro hlow hhigh
              rw [hkept.una, hcontrolled.una] at hlow
              rw [hkept.nxt, hcontrolled.nxt] at hhigh
              rw [splits_iff_of_same hkept.una hkept.slist]
              rcases hcontrolled.slist with hslist | hnone
              · rw [splits_iff_of_same hcontrolled.una hslist]
                exact hsplits ⟨not_not.mp hconv, hopen, hreset,
                  hcontrolled.valid, hlow, hhigh⟩
              · omega
          split
          · rename_i u heq'
            rw [heq'] at hacked
            exact hacked
          · rename_i u heq'
            rw [heq'] at hacked
            have hu : u.Orderly := hacked
            change (u.processData seg bConnect).Orderly
            exact hu.processData

/-! ## Calls -/

theorem Orderly.connect (h : s.Orderly) : s.connect.2.Orderly := by
  rw [PseudoTcp.connect]
  split
  · exact h.unmoved ⟨rfl, rfl, rfl⟩
  · rename_i hlisten
    have hlisten : s.m_state = .TCP_LISTEN := not_not.mp hlisten
    refine Orderly.attemptSend (Orderly.queueConnectMessage
      (h.withState .TCP_SYN_SENT ?_ nofun) nofun (h.sound.listen hlisten))
    rw [hlisten]
    nofun

theorem Orderly.notifyMTU (h : s.Orderly) {mtu : UInt16}
    (hmtu : mtu.toNat ≠ PACKET_OVERHEAD) : (s.notifyMTU mtu).Orderly := by
  have hadvised : Orderly { s with m_mtu_advise := mtu.toNat } :=
    ⟨⟨h.sound.nonempty, h.sound.contiguous, h.sound.covers,
      h.sound.transmitted, h.sound.inside, h.sound.defined, h.sound.una,
      h.sound.nxt, h.sound.mss, mtu.toNat_lt, hmtu, h.sound.buffer,
      h.sound.capacity, h.sound.listen⟩, h.recovering⟩
  simp only [PseudoTcp.notifyMTU]
  split
  · exact hadvised.adjustMTU
  · exact hadvised

theorem Orderly.clockRetransmit (h : s.Orderly) (now : ℕ) :
    (s.clockRetransmit now).2.Orderly := by
  simp only [PseudoTcp.clockRetransmit]
  split
  · split
    · exact h
    · rename_i hne
      have hretransmitted := h.sound.retransmit hne now
      split
      · rename_i u heq
        rw [heq] at hretransmitted
        exact hretransmitted.closed rfl
      · rename_i u heq
        rw [heq] at hretransmitted
        exact (h.sends hretransmitted.sound
          (hretransmitted.sends rfl)).unmoved ⟨rfl, rfl, rfl⟩
  · exact h

theorem Orderly.clockProbe (h : s.Orderly) (now : ℕ) :
    (s.clockProbe now).2.Orderly := by
  simp only [PseudoTcp.clockProbe]
  split
  · split
    · exact h.sound.closedown
    · exact h.ackPacket.unmoved ⟨rfl, rfl, rfl⟩
  · exact h

theorem Orderly.clockAck (h : s.Orderly) (now : ℕ) :
    (s.clockAck now).Orderly := by
  rw [PseudoTcp.clockAck]
  split
  · exact h.ackPacket
  · exact h

theorem Orderly.notifyClock (h : s.Orderly) (now : ℕ) :
    (s.notifyClock now).Orderly := by
  have hretransmitted := h.clockRetransmit now
  rw [PseudoTcp.notifyClock]
  split
  · exact h
  · split
    · rename_i t heq
      rw [heq] at hretransmitted
      exact hretransmitted
    · rename_i t heq
      rw [heq] at hretransmitted
      have hprobed := Orderly.clockProbe hretransmitted now
      split
      · rename_i u heq'
        rw [heq'] at hprobed
        exact hprobed
      · rename_i u heq'
        rw [heq'] at hprobed
        exact Orderly.clockAck hprobed now

theorem Orderly.notifyPacket (h : s.Orderly) {buffer : Buffer}
    (hsplits : buffer.size ≤ MAX_PACKET → 12 ≤ buffer.size →
      s.Acknowledges (segmentOf buffer) →
        ¬s.Splits (segmentOf buffer).ack) :
    (s.notifyPacket buffer).2.Orderly := by
  rw [PseudoTcp.notifyPacket]
  split
  · exact h
  · rename_i hsize
    rw [parse]
    split
    · exact h
    · rename_i hheader
      exact h.process (hsplits (by omega) (by omega))

theorem Orderly.recv (h : s.Orderly) (len : ℕ) :
    (s.recv len).2.Orderly := by
  simp only [PseudoTcp.recv]
  split
  · exact h.unmoved ⟨rfl, rfl, rfl⟩
  · split
    · rename_i read m_rbuf heq
      have hread : Orderly { s with m_rbuf := m_rbuf } :=
        h.unmoved ⟨rfl, rfl, rfl⟩
      have hwindow (n : ℕ) :
          Orderly { s with m_rbuf := m_rbuf, m_rcv_wnd := n } :=
        h.unmoved ⟨rfl, rfl, rfl⟩
      split
      · split
        · exact (hwindow _).attemptSend
        · exact hwindow _
      · exact hread
    · exact h.unmoved ⟨rfl, rfl, rfl⟩

theorem Orderly.send (h : s.Orderly) {buffer : Buffer}
    (hsize : u32 buffer.size = 0 → s.m_state = .TCP_ESTABLISHED →
      0 < s.m_sbuf.getWriteRemaining →
        ∃ back ∈ s.m_slist.getLast?, back.Joins false) :
    (s.send buffer).2.Orderly := by
  rw [PseudoTcp.send]
  split
  · exact h.unmoved ⟨rfl, rfl, rfl⟩
  · rename_i hstate
    have hstate : s.m_state = .TCP_ESTABLISHED := not_not.mp hstate
    split
    · exact h.unmoved ⟨rfl, rfl, rfl⟩
    · rename_i hspace
      have hspace : 0 < s.m_sbuf.getWriteRemaining :=
        Nat.pos_of_ne_zero hspace
      refine Orderly.attemptSend (h.queue ?_ ?_)
      · rw [hstate]
        nofun
      · rcases Nat.eq_zero_or_pos (u32 buffer.size) with hzero | hpos
        · exact Or.inr (hsize hzero hstate hspace)
        · exact Or.inl (Nat.lt_min.mpr ⟨hpos, hspace⟩)

theorem Orderly.step (h : s.Orderly) {e : Environment × Call}
    (hcareful : s.Careful e) (hstep : s.step e = some t) : t.Orderly := by
  obtain ⟨env, c⟩ := e
  have hwithin : (s.within env).Orderly := h.unmoved ⟨rfl, rfl, rfl⟩
  cases hstep
  cases c with
  | connect => exact hwithin.connect
  | notifyMTU mtu => exact hwithin.notifyMTU hcareful
  | notifyClock now => exact hwithin.notifyClock (u32 now)
  | notifyPacket buffer => exact hwithin.notifyPacket hcareful
  | recv len => exact hwithin.recv len
  | send buffer => exact hwithin.send hcareful
  | close force => exact h.unmoved ⟨rfl, rfl, rfl⟩

def Fresh (s : PseudoTcp) : Prop := ∃ conv now memory, s = new conv now memory

/-- In every run of careful calls the segments represent the bytes that are
buffered. -/
theorem queueConsistent_of_careful_run
    (h : ReachableVia Fresh step Careful s) : s.QueueConsistent := by
  have horderly : s.Orderly := by
    refine h.invariant ?_ ?_
    · rintro s ⟨conv, now, memory, rfl⟩
      exact orderly_new
    · intro s e t hs hcareful hstep
      exact hs.step hcareful hstep
  exact horderly.sound.queueConsistent

/-- The clock stands still, and every packet is written. -/
def sampleEnvironment : Environment :=
  ⟨fun _ => 1, fun _ _ => 0, fun _ => .WR_SUCCESS⟩

/-- A packet of conversation 0 at sequence number 0. -/
def samplePacket (ack : ℕ) (flags : UInt8) (data : List UInt8) : Buffer :=
  .ofList (toBE 8 0 ++ (toBE 4 ack ++ ([0, flags] ++ (toBE 2 4096 ++
    (toBE 8 0 ++ data))))) fun _ => 0

/-- The connection is set up, and a byte is sent. -/
def sampleCalls : List (Environment × Call) :=
  [(sampleEnvironment, .connect),
    (sampleEnvironment, .notifyPacket (samplePacket 4 2 [0, 3, 1, 0])),
    (sampleEnvironment, .send ⟨fun _ => 0x61, 1⟩)]

theorem queueConsistent_sampleCalls :
    QueueConsistent ((execute step (new 0 0 fun _ => 0) sampleCalls).getD
      (new 0 0 fun _ => 0)) := by
  refine queueConsistent_of_careful_run (.step (.step (.step
    (.init ⟨0, 0, fun _ => 0, rfl⟩)
    (e := (sampleEnvironment, .connect)) ?_ rfl)
    (e := (sampleEnvironment,
      .notifyPacket (samplePacket 4 2 [0, 3, 1, 0]))) ?_ rfl)
    (e := (sampleEnvironment, .send ⟨fun _ => 0x61, 1⟩)) ?_ rfl)
  · exact trivial
  · rintro - - - ⟨seg, hseg, -, hinside⟩
    have hfirst : seg = ⟨0, 4, 1, true⟩ := List.mem_singleton.mp hseg
    subst hfirst
    exact absurd hinside (by decide)
  · exact fun hzero => absurd hzero (by decide)

/-- An acknowledgement of two bytes of the connect message leaves a segment
that starts before the bytes that are buffered. -/
theorem not_forall_queueConsistent :
    ¬∀ s, Reachable Fresh step s → s.QueueConsistent := by
  intro h
  have hreach : ∀ s, execute step (new 0 0 fun _ => 0)
      [(sampleEnvironment, .connect),
        (sampleEnvironment, .notifyPacket (samplePacket 2 0 []))] = some s →
      Reachable Fresh step s :=
    fun s hs => reachable_of_execute ⟨0, 0, fun _ => 0, rfl⟩ hs
  have hcontiguous := (h _ (hreach _ rfl)).contiguous
  have hstart : 0 = u32 (2 + 0) := (follows_cons.mp hcontiguous).1
  exact absurd hstart (by decide)

end WebrtcWinXp.PseudoTcp
