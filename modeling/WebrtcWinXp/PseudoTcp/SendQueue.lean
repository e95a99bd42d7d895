import WebrtcWinXp.Support.Tiling
import WebrtcWinXp.Support.Transition
import WebrtcWinXp.PseudoTcp.Api

/-!
# The send queue

What the segments of `m_slist` say about the bytes that are buffered, and the
runs in which they say it: an acknowledgement must not end inside a segment,
no empty segment may be queued, and the packets must not shrink to nothing.
-/

namespace WebrtcWinXp.PseudoTcp

open Support

/-- The segments follow one another, from the `n`th byte after `una` on. -/
def Follows (una n : ℕ) (slist : List SSegment) : Prop :=
  Tiles SSegment.seq SSegment.len (fun k => u32 (una + k)) n slist

/-- The segments that were transmitted come first, and cover `n` bytes. -/
def Transmitted (slist : List SSegment) (n : ℕ) : Prop :=
  ∃ sent unsent, slist = sent ++ unsent ∧ (∀ seg ∈ sent, 0 < seg.xmit) ∧
    (∀ seg ∈ unsent, seg.xmit = 0) ∧ total SSegment.len sent = n

/-- The segments represent the bytes that are buffered, and the packets of
segments were read from those. -/
structure QueueConsistent (s : PseudoTcp) : Prop where
  nonempty : ∀ seg ∈ s.m_slist, 0 < seg.len
  contiguous : Follows s.m_snd_una 0 s.m_slist
  covers : total SSegment.len s.m_slist = s.m_sbuf.data_length
  transmitted : ∃ n, Transmitted s.m_slist n ∧
    s.m_snd_nxt = u32 (s.m_snd_una + n)
  inside : ∀ p ∈ s.sent, p.offset + p.len ≤ p.buffered
  defined : s.undefined = false

/-- `process` comes to the acknowledgement of a segment and finds it
valuable. -/
def Acknowledges (seg : Segment) (s : PseudoTcp) : Prop :=
  seg.conv = s.m_conv ∧ s.m_state ≠ .TCP_CLOSED ∧ ¬seg.isRst ∧
    (seg.isCtl → 0 < seg.len ∧ seg.data 0 = CTL_CONNECT) ∧
    s.m_snd_una < seg.ack ∧ seg.ack ≤ s.m_snd_nxt

/-- A sequence number lies inside a segment that was not acknowledged. -/
def Splits (ack : ℕ) (s : PseudoTcp) : Prop :=
  ∃ seg ∈ s.m_slist,
    sub32 seg.seq s.m_snd_una < sub32 ack s.m_snd_una ∧
      sub32 ack s.m_snd_una < sub32 seg.seq s.m_snd_una + seg.len

/-- A call that leaves the send queue in order: no size of packets without
room for data, no empty data that would need a segment of its own, and no
acknowledgement of a part of a segment. -/
def Careful (s : PseudoTcp) (e : Environment × Call) : Prop :=
  match e.2 with
  | .notifyMTU mtu => mtu.toNat ≠ PACKET_OVERHEAD
  | .send buffer =>
    u32 buffer.size = 0 → s.m_state = .TCP_ESTABLISHED →
      0 < s.m_sbuf.getWriteRemaining →
        ∃ back ∈ s.m_slist.getLast?, back.Joins false
  | .notifyPacket buffer =>
    buffer.size ≤ MAX_PACKET → 12 ≤ buffer.size →
      s.Acknowledges (segmentOf buffer) →
        ¬s.Splits (segmentOf buffer).ack
  | _ => True

theorem u32_lt (n : ℕ) : u32 n < 2 ^ 32 := Nat.mod_lt n (by decide)

theorem u32_of_lt {n : ℕ} (h : n < 2 ^ 32) : u32 n = n := Nat.mod_eq_of_lt h

section Arithmetic

variable {a b n : ℕ}

theorem sub32_of_le (ha : a < 2 ^ 32) (h : b ≤ a) : sub32 a b = a - b := by
  simp only [sub32]
  omega

theorem sub32_u32_add (hn : n < 2 ^ 32) :
    sub32 (u32 (b + n)) b = n := by
  simp only [sub32, u32]
  omega

theorem u32_add_sub32 (ha : a < 2 ^ 32) :
    u32 (b + sub32 a b) = a := by
  simp only [sub32, u32]
  omega

theorem sub32_add (h : sub32 a b + n < 2 ^ 32) :
    sub32 (u32 (a + n)) b = sub32 a b + n := by
  simp only [sub32, u32] at h ⊢
  omega

theorem forward_of_le (ha : a < 2 ^ 32) (hb : b < 2 ^ 32)
    (h : sub32 a b + n < 2 ^ 32) (hle : b ≤ u32 (a + n)) :
    b ≤ a ∧ a ≤ u32 (a + n) := by
  simp only [sub32, u32] at h hle ⊢
  omega

theorem u32_u32_add : u32 (u32 a + b) = u32 (a + b) := by
  simp only [u32]
  omega

end Arithmetic

section Segments

variable {una n : ℕ} {slist before after pieces : List SSegment}
  {seg : SSegment}

theorem follows_append {xs ys : List SSegment} :
    Follows una n (xs ++ ys) ↔
      Follows una n xs ∧ Follows una (n + total SSegment.len xs) ys :=
  tiles_append

theorem follows_cons {xs : List SSegment} :
    Follows una n (seg :: xs) ↔
      seg.seq = u32 (una + n) ∧ Follows una (n + seg.len) xs :=
  tiles_cons

/-- The segments after an acknowledgement of `k` bytes. -/
theorem Follows.acked {k : ℕ} (h : Follows una k slist) :
    Follows (una + k) 0 slist := by
  refine (tiles_shift (k := k) ?_).mpr h
  intro m
  rw [Nat.add_assoc]

theorem Follows.cut (h : Follows una n [seg]) {m xmit : ℕ} :
    Follows una n [seg.head m, seg.tail m xmit] := by
  obtain ⟨hseq, -⟩ := follows_cons.mp h
  refine follows_cons.mpr ⟨hseq, follows_cons.mpr ⟨?_, trivial⟩⟩
  change u32 (seg.seq + m) = u32 (una + (n + m))
  rw [hseq, u32_u32_add, Nat.add_assoc]

theorem Transmitted.le_total (h : Transmitted slist n) :
    n ≤ total SSegment.len slist := by
  obtain ⟨sent, unsent, rfl, -, -, rfl⟩ := h
  simp

theorem Transmitted.first (h : Transmitted slist n)
    (hlt : n < total SSegment.len slist) :
    ∃ before seg after, slist = before ++ seg :: after ∧
      (∀ p ∈ before, 0 < p.xmit) ∧ seg.xmit = 0 ∧
      (slist.takeWhile fun p => 0 < p.xmit) = before ∧
      (slist.dropWhile fun p => 0 < p.xmit) = seg :: after := by
  obtain ⟨sent, unsent, rfl, hsent, hunsent, rfl⟩ := h
  cases unsent with
  | nil => simp at hlt
  | cons seg after =>
    have hzero := hunsent seg List.mem_cons_self
    have hpos : ∀ p ∈ sent, decide (0 < p.xmit) = true := by simpa using hsent
    refine ⟨sent, seg, after, rfl, hsent, hzero, ?_, ?_⟩
    · rw [List.takeWhile_append_of_pos hpos]
      simp [hzero]
    · rw [List.dropWhile_append_of_pos hpos]
      simp [hzero]

theorem Transmitted.replace_sent
    (h : Transmitted (before ++ seg :: after) n) (hxmit : 0 < seg.xmit)
    (hpieces : ∀ p ∈ pieces, 0 < p.xmit)
    (htotal : total SSegment.len pieces = seg.len) :
    Transmitted (before ++ (pieces ++ after)) n := by
  obtain ⟨sent, unsent, hsplit, hsent, hunsent, rfl⟩ := h
  rcases List.append_eq_append_iff.mp hsplit with
    ⟨between, rfl, hafter⟩ | ⟨between, rfl, rfl⟩
  · cases between with
    | nil =>
      have hmem : seg ∈ unsent := by
        rw [← List.nil_append unsent, ← hafter]
        exact List.mem_cons_self
      have := hunsent seg hmem
      omega
    | cons seg' between =>
      obtain ⟨rfl, rfl⟩ := List.cons.inj hafter
      refine ⟨before ++ (pieces ++ between), unsent, by simp, ?_, hunsent,
        ?_⟩
      · intro p hp
        simp only [List.mem_append] at hp
        rcases hp with hp | hp | hp
        · exact hsent p (by simp [hp])
        · exact hpieces p hp
        · exact hsent p (by simp [hp])
      · simp only [total_append, total_cons, htotal]
  · have := hunsent seg (by simp)
    omega

theorem Transmitted.replace_unsent
    (h : Transmitted (before ++ seg :: after) n)
    (hbefore : ∀ p ∈ before, 0 < p.xmit) (hxmit : seg.xmit = 0)
    (sent unsent : List SSegment) (hsent : ∀ p ∈ sent, 0 < p.xmit)
    (hunsent : ∀ p ∈ unsent, p.xmit = 0) :
    Transmitted (before ++ (sent ++ unsent ++ after))
      (n + total SSegment.len sent) := by
  obtain ⟨sent', unsent', hsplit, hsent', hunsent', rfl⟩ := h
  have hmiddle : sent' = before ∧ unsent' = seg :: after := by
    rcases List.append_eq_append_iff.mp hsplit with
      ⟨between, rfl, hafter⟩ | ⟨between, rfl, rfl⟩
    · cases between with
      | nil => simpa using hafter.symm
      | cons seg' between =>
        obtain ⟨rfl, rfl⟩ := List.cons.inj hafter
        have := hsent' seg (by simp)
        omega
    · cases between with
      | nil => simp
      | cons seg' between =>
        have hpos := hbefore seg' (by simp)
        have hzero := hunsent' seg' (by simp)
        omega
  obtain ⟨rfl, rfl⟩ := hmiddle
  refine ⟨sent' ++ sent, unsent ++ after, by simp, ?_, ?_, by simp⟩
  · intro p hp
    rcases List.mem_append.mp hp with hp | hp
    · exact hbefore p hp
    · exact hsent p hp
  · intro p hp
    rcases List.mem_append.mp hp with hp | hp
    · exact hunsent p hp
    · exact hunsent' p (List.mem_cons_of_mem seg hp)

end Segments

/-! ## The invariant -/

/-- What the send queue depends on. -/
structure SendSide where
  slist : List SSegment
  una : ℕ
  nxt : ℕ
  sbuf : FifoBuffer
  mss : ℕ
  mtu_advise : ℕ
  state : TcpState
  undefined : Bool
  sent : List SentPacket

def sendSide (s : PseudoTcp) : SendSide where
  slist := s.m_slist
  una := s.m_snd_una
  nxt := s.m_snd_nxt
  sbuf := s.m_sbuf
  mss := s.m_mss
  mtu_advise := s.m_mtu_advise
  state := s.m_state
  undefined := s.undefined
  sent := s.sent

/-- A send queue in order, with what keeps it so. -/
structure SendSide.Sound (v : SendSide) : Prop where
  nonempty : ∀ seg ∈ v.slist, 0 < seg.len
  contiguous : Follows v.una 0 v.slist
  covers : total SSegment.len v.slist = v.sbuf.data_length
  transmitted : Transmitted v.slist (sub32 v.nxt v.una)
  inside : ∀ p ∈ v.sent, p.offset + p.len ≤ p.buffered
  defined : v.undefined = false
  una : v.una < 2 ^ 32
  nxt : v.nxt < 2 ^ 32
  mss : 0 < v.mss
  mtu_lt : v.mtu_advise < 2 ^ 16
  mtu_ne : v.mtu_advise ≠ PACKET_OVERHEAD
  buffer : v.sbuf.WellFormed
  capacity : v.sbuf.buffer_length = DEFAULT_SND_BUF_SIZE
  listen : v.state = .TCP_LISTEN → v.slist = []

def Sound (s : PseudoTcp) : Prop := s.sendSide.Sound

variable {s t u : PseudoTcp}

theorem Sound.congr (h : s.Sound) (heq : t.sendSide = s.sendSide) :
    t.Sound := by
  rw [Sound, heq]
  exact h

theorem Sound.queueConsistent (h : s.Sound) : s.QueueConsistent :=
  ⟨h.nonempty, h.contiguous, h.covers,
    ⟨_, h.transmitted, (u32_add_sub32 h.nxt).symm⟩, h.inside, h.defined⟩

theorem sound_new {conv now : ℕ} {memory : ℕ → UInt8} :
    (new conv now memory).Sound where
  nonempty := nofun
  contiguous := trivial
  covers := rfl
  transmitted :=
    ⟨[], [], rfl, nofun, nofun, show 0 = sub32 0 0 by decide⟩
  inside := nofun
  defined := rfl
  una := show 0 < 2 ^ 32 by decide
  nxt := show 0 < 2 ^ 32 by decide
  mss := Nat.sub_pos_of_lt (by decide)
  mtu_lt := show MAX_PACKET < 2 ^ 16 by decide
  mtu_ne := show MAX_PACKET ≠ PACKET_OVERHEAD by decide
  buffer := FifoBuffer.wellFormed_new (by decide)
  capacity := rfl
  listen _ := rfl

theorem Sound.nInFlight_le (h : s.Sound) :
    s.nInFlight ≤ s.m_sbuf.data_length := by
  obtain ⟨sent, unsent, hsplit, -, -, htotal⟩ := h.transmitted
  have hcovers := h.covers
  rw [hsplit, total_append, htotal] at hcovers
  exact le_trans (Nat.le_add_right _ _) hcovers.le

theorem Sound.data_length_le (h : s.Sound) :
    s.m_sbuf.data_length ≤ DEFAULT_SND_BUF_SIZE :=
  h.capacity ▸ h.buffer.length

theorem Sound.offset (h : s.Sound) {before after : List SSegment}
    {seg : SSegment} (hslist : s.m_slist = before ++ seg :: after) :
    sub32 seg.seq s.m_snd_una = total SSegment.len before ∧
      total SSegment.len before + seg.len ≤ s.m_sbuf.data_length := by
  have hcovers := h.covers
  have hcontiguous := h.contiguous
  have hlength := h.data_length_le
  change total SSegment.len s.m_slist = s.m_sbuf.data_length at hcovers
  change Follows s.m_snd_una 0 s.m_slist at hcontiguous
  rw [hslist] at hcovers hcontiguous
  simp only [total_append, total_cons] at hcovers
  have hseq := (follows_cons.mp (follows_append.mp hcontiguous).2).1
  have hbound : DEFAULT_SND_BUF_SIZE < 2 ^ 32 := by decide
  refine ⟨?_, by omega⟩
  rw [hseq, Nat.zero_add, sub32_u32_add (by omega)]

/-- Packets were sent, perhaps after the packets were made smaller. -/
structure Kept (s t : PseudoTcp) : Prop where
  side : ∃ mss sent,
    t.sendSide = { s.sendSide with mss := mss, sent := sent }
  dup_acks : t.m_dup_acks = s.m_dup_acks
  recover : t.m_recover = s.m_recover

/-- Segments were sent: the acknowledgements stand where they stood, and
`m_snd_nxt` moved forwards. -/
structure Sends (s t : PseudoTcp) : Prop where
  una : t.m_snd_una = s.m_snd_una
  sbuf : t.m_sbuf = s.m_sbuf
  state : t.m_state = s.m_state
  dup_acks : t.m_dup_acks = s.m_dup_acks
  recover : t.m_recover = s.m_recover
  forward : t.m_snd_una ≤ t.m_snd_nxt →
    s.m_snd_una ≤ s.m_snd_nxt ∧ s.m_snd_nxt ≤ t.m_snd_nxt

namespace Kept

theorem refl (s : PseudoTcp) : Kept s s := ⟨⟨_, _, rfl⟩, rfl, rfl⟩

theorem trans (h : Kept s t) (h' : Kept t u) : Kept s u := by
  obtain ⟨mss, sent, heq⟩ := h.side
  obtain ⟨mss', sent', heq'⟩ := h'.side
  exact ⟨⟨mss', sent', by rw [heq', heq]⟩, h'.dup_acks.trans h.dup_acks,
    h'.recover.trans h.recover⟩

theorem slist (h : Kept s t) : t.m_slist = s.m_slist := by
  obtain ⟨_, _, heq⟩ := h.side
  exact congrArg SendSide.slist heq

theorem una (h : Kept s t) : t.m_snd_una = s.m_snd_una := by
  obtain ⟨_, _, heq⟩ := h.side
  exact congrArg SendSide.una heq

theorem nxt (h : Kept s t) : t.m_snd_nxt = s.m_snd_nxt := by
  obtain ⟨_, _, heq⟩ := h.side
  exact congrArg SendSide.nxt heq

theorem sbuf (h : Kept s t) : t.m_sbuf = s.m_sbuf := by
  obtain ⟨_, _, heq⟩ := h.side
  exact congrArg SendSide.sbuf heq

theorem state (h : Kept s t) : t.m_state = s.m_state := by
  obtain ⟨_, _, heq⟩ := h.side
  exact congrArg SendSide.state heq

theorem sends (h : Kept s t) : Sends s t where
  una := h.una
  sbuf := h.sbuf
  state := h.state
  dup_acks := h.dup_acks
  recover := h.recover
  forward := by
    rw [h.una, h.nxt]
    exact fun hle => ⟨hle, le_rfl⟩

end Kept

namespace Sends

theorem refl (s : PseudoTcp) : Sends s s := (Kept.refl s).sends

theorem trans (h : Sends s t) (h' : Sends t u) : Sends s u where
  una := h'.una.trans h.una
  sbuf := h'.sbuf.trans h.sbuf
  state := h'.state.trans h.state
  dup_acks := h'.dup_acks.trans h.dup_acks
  recover := h'.recover.trans h.recover
  forward hle := by
    obtain ⟨hle', hnxt'⟩ := h'.forward hle
    obtain ⟨hle, hnxt⟩ := h.forward hle'
    exact ⟨hle, le_trans hnxt hnxt'⟩

end Sends

/-! ## Packets -/

variable {seq flags offset len : ℕ}

theorem packet_sendSide :
    (s.packet seq flags offset len).2.sendSide =
      { s.sendSide with
        sent := s.sent ++ [s.sentPacket seq flags offset len] } := by
  simp only [packet]
  split <;> rfl

theorem packet_kept :
    Kept s (s.packet seq flags offset len).2 := by
  refine ⟨⟨_, _, packet_sendSide⟩, ?_, ?_⟩ <;>
    · simp only [packet]
      split <;> rfl

theorem Sound.packet (h : s.Sound)
    (hinside : offset + len ≤ s.m_sbuf.data_length) :
    (s.packet seq flags offset len).2.Sound := by
  rw [Sound, packet_sendSide]
  refine ⟨h.nonempty, h.contiguous, h.covers, h.transmitted, ?_, h.defined,
    h.una, h.nxt, h.mss, h.mtu_lt, h.mtu_ne, h.buffer, h.capacity, h.listen⟩
  intro p hp
  rcases List.mem_append.mp hp with hp | hp
  · exact h.inside p hp
  · rw [List.mem_singleton.mp hp]
    exact hinside

theorem Sound.ackPacket (h : s.Sound) :
    (s.packet seq 0 0 0).2.Sound :=
  h.packet (Nat.zero_le _)

variable {maximum : ℕ}

theorem mss_pos (h : maximum ∈ PACKET_MAXIMUMS)
    (hne : maximum ≠ 0) : 0 < sub32 maximum PACKET_OVERHEAD := by
  have : ∀ m ∈ PACKET_MAXIMUMS, m ≠ 0 → 0 < sub32 m PACKET_OVERHEAD := by
    decide
  exact this maximum h hne

theorem reduceMss_kept : Kept s (s.reduceMss maximum) :=
  ⟨⟨_, _, rfl⟩, rfl, rfl⟩

theorem Sound.reduceMss (h : s.Sound)
    (hmaximum : maximum ∈ PACKET_MAXIMUMS) (hne : maximum ≠ 0) :
    (s.reduceMss maximum).Sound :=
  ⟨h.nonempty, h.contiguous, h.covers, h.transmitted, h.inside, h.defined,
    h.una, h.nxt, mss_pos hmaximum hne, h.mtu_lt, h.mtu_ne, h.buffer,
    h.capacity, h.listen⟩

theorem Sound.segmentPacket (h : s.Sound) {seg : SSegment} {n : ℕ}
    (hinside : sub32 seg.seq s.m_snd_una + n ≤ s.m_sbuf.data_length)
    {result : WriteResult} (heq : s.segmentPacket seg n = (result, t)) :
    t.Sound ∧ Kept s t := by
  have ht : (s.segmentPacket seg n).2 = t := congrArg Prod.snd heq
  rw [← ht]
  exact ⟨h.packet hinside, packet_kept⟩

/-- What sending at most `n` bytes of a segment gives: a number of bytes,
unless it fails. -/
structure SegmentSent (s : PseudoTcp) (n : ℕ) (r : Option ℕ × PseudoTcp) :
    Prop where
  sound : r.2.Sound
  kept : Kept s r.2
  count : ∀ m, r.1 = some m → 0 < m ∧ m ≤ n

theorem SegmentSent.weaken {r : Option ℕ × PseudoTcp} {m n : ℕ}
    (h : SegmentSent t m r) (hkept : Kept s t) (hle : m ≤ n) :
    SegmentSent s n r where
  sound := h.sound
  kept := hkept.trans h.kept
  count k hk := ⟨(h.count k hk).1, le_trans (h.count k hk).2 hle⟩

theorem sendSmaller_sent {seg : SSegment} {maxima : List ℕ} {n : ℕ}
    (h : s.Sound) (hmaxima : ∀ m ∈ maxima, m ∈ PACKET_MAXIMUMS)
    (hinside : sub32 seg.seq s.m_snd_una + n ≤ s.m_sbuf.data_length) :
    SegmentSent s n (s.sendSmaller seg maxima n) := by
  induction maxima generalizing s n with
  | nil => exact ⟨h, .refl s, nofun⟩
  | cons maximum maxima ih =>
    have hmaxima' : ∀ m ∈ maxima, m ∈ PACKET_MAXIMUMS :=
      fun m hm => hmaxima m (List.mem_cons_of_mem maximum hm)
    simp only [sendSmaller]
    split
    · exact ⟨h, .refl s, nofun⟩
    · rename_i hne
      have hreduced : (s.reduceMss maximum).Sound :=
        h.reduceMss (hmaxima maximum List.mem_cons_self) hne
      split
      · rename_i hsmaller
        have hinside' : sub32 seg.seq (s.reduceMss maximum).m_snd_una +
            (s.reduceMss maximum).m_mss ≤
              (s.reduceMss maximum).m_sbuf.data_length :=
          le_trans (Nat.add_le_add_left hsmaller.le _) hinside
        have hkept : Kept s (s.reduceMss maximum) := reduceMss_kept
        split
        · rename_i s' heq
          obtain ⟨hsound, hkept'⟩ := hreduced.segmentPacket hinside' heq
          refine ⟨hsound, hkept.trans hkept', ?_⟩
          rintro m ⟨⟩
          exact ⟨hreduced.mss, hsmaller.le⟩
        · rename_i s' heq
          obtain ⟨hsound, hkept'⟩ := hreduced.segmentPacket hinside' heq
          exact ⟨hsound, hkept.trans hkept', nofun⟩
        · rename_i s' heq
          obtain ⟨hsound, hkept'⟩ := hreduced.segmentPacket hinside' heq
          refine (ih hsound hmaxima' ?_).weaken (hkept.trans hkept')
            hsmaller.le
          rw [hkept'.una, hkept'.sbuf]
          exact hinside'
      · exact (ih hreduced hmaxima' hinside).weaken reduceMss_kept le_rfl

theorem sendSegment_sent {seg : SSegment} {n : ℕ} (h : s.Sound)
    (hn : 0 < n)
    (hinside : sub32 seg.seq s.m_snd_una + n ≤ s.m_sbuf.data_length) :
    SegmentSent s n (s.sendSegment seg n) := by
  simp only [sendSegment]
  split
  · rename_i s' heq
    obtain ⟨hsound, hkept⟩ := h.segmentPacket hinside heq
    refine ⟨hsound, hkept, ?_⟩
    rintro m ⟨⟩
    exact ⟨hn, le_rfl⟩
  · rename_i s' heq
    obtain ⟨hsound, hkept⟩ := h.segmentPacket hinside heq
    exact ⟨hsound, hkept, nofun⟩
  · rename_i s' heq
    obtain ⟨hsound, hkept⟩ := h.segmentPacket hinside heq
    refine (sendSmaller_sent hsound ?_ ?_).weaken hkept le_rfl
    · exact fun m hm => List.mem_of_mem_drop hm
    · rw [hkept.una, hkept.sbuf]
      exact hinside

/-! ## Transmission -/

theorem SendSide.Sound.replace {v : SendSide} (h : v.Sound)
    (pieces : List SSegment) {before after : List SSegment} {seg : SSegment}
    {nxt : ℕ} (hslist : v.slist = before ++ seg :: after)
    (hfollows : Follows v.una (total SSegment.len before) pieces)
    (htotal : total SSegment.len pieces = seg.len)
    (hpos : ∀ p ∈ pieces, 0 < p.len) (hnxt : nxt < 2 ^ 32)
    (htransmitted : Transmitted (before ++ (pieces ++ after))
      (sub32 nxt v.una)) :
    SendSide.Sound
      { v with slist := before ++ (pieces ++ after), nxt := nxt } := by
  have hnonempty := h.nonempty
  have hcontiguous := h.contiguous
  have hcovers := h.covers
  rw [hslist] at hnonempty hcontiguous hcovers
  refine ⟨?_, ?_, ?_, htransmitted, h.inside, h.defined, h.una, hnxt, h.mss,
    h.mtu_lt, h.mtu_ne, h.buffer, h.capacity, ?_⟩
  · intro p hp
    simp only [List.mem_append] at hp
    rcases hp with hp | hp | hp
    · exact hnonempty p (by simp [hp])
    · exact hpos p hp
    · exact hnonempty p (by simp [hp])
  · obtain ⟨hbefore, hrest⟩ := follows_append.mp hcontiguous
    refine follows_append.mpr ⟨hbefore, follows_append.mpr ⟨?_, ?_⟩⟩
    · rw [Nat.zero_add]
      exact hfollows
    · rw [htotal]
      exact (follows_cons.mp hrest).2
  · simpa [htotal] using hcovers
  · intro hlisten
    have hnil := h.listen hlisten
    rw [hslist] at hnil
    simp at hnil

theorem Sound.follows (h : s.Sound) {before after : List SSegment}
    {seg : SSegment} (hslist : s.m_slist = before ++ seg :: after) :
    Follows s.m_snd_una (total SSegment.len before) [seg] := by
  have hcontiguous : Follows s.m_snd_una 0 s.m_slist := h.contiguous
  rw [hslist] at hcontiguous
  have hrest := (follows_append.mp hcontiguous).2
  rw [Nat.zero_add] at hrest
  exact follows_cons.mpr ⟨(follows_cons.mp hrest).1, trivial⟩

/-- What a transmission gives: a transmission of new data moves
`m_snd_nxt`. -/
structure Advances (s : PseudoTcp) (new : Prop) (r : Bool × PseudoTcp) :
    Prop where
  sound : r.2.Sound
  sends : Sends s r.2
  progress : r.1 = true → new → s.nInFlight < r.2.nInFlight

/-- The segments after `n` bytes of one were transmitted. -/
def transmittedPieces (seg : SSegment) (n : ℕ) : List SSegment :=
  if n < seg.len then
    [(seg.head n).transmitted, seg.tail n seg.xmit]
  else [seg.transmitted]

theorem transmitted_pos {seg : SSegment} (h : seg.xmit < 30) :
    0 < seg.transmitted.xmit := by
  have : seg.transmitted.xmit = (seg.xmit + 1) % 256 := rfl
  omega

theorem transmit_eq {before after : List SSegment} {seg : SSegment}
    {now n : ℕ} (hxmit : ¬seg.xmit ≥
      if s.m_state = .TCP_ESTABLISHED then 15 else 30)
    (hsend : s.sendSegment seg (min seg.len s.m_mss) = (some n, t)) :
    s.transmit before seg after now =
      (true,
        { t with
          m_slist := before ++ (transmittedPieces seg n ++ after)
          m_snd_nxt :=
            if seg.xmit = 0 then u32 (t.m_snd_nxt + n) else t.m_snd_nxt
          m_rto_base := if t.m_rto_base = 0 then now else t.m_rto_base }) := by
  rw [transmit, if_neg hxmit, hsend]
  simp only [transmittedPieces]
  split <;> rfl

theorem transmittedPieces_spec {seg : SSegment} {una k n : ℕ}
    (hfollows : Follows una k [seg]) (hpos : 0 < n) (hle : n ≤ seg.len) :
    Follows una k (transmittedPieces seg n) ∧
      total SSegment.len (transmittedPieces seg n) = seg.len ∧
      ∀ p ∈ transmittedPieces seg n, 0 < p.len := by
  simp only [transmittedPieces]
  split
  · rename_i hlt
    refine ⟨hfollows.cut, ?_, ?_⟩
    · change n + (seg.len - n + 0) = seg.len
      omega
    · intro p hp
      simp only [List.mem_cons, List.not_mem_nil, or_false] at hp
      rcases hp with rfl | rfl
      · exact hpos
      · exact Nat.sub_pos_of_lt hlt
  · refine ⟨hfollows, Nat.add_zero _, ?_⟩
    intro p hp
    rw [List.mem_singleton.mp hp]
    exact lt_of_lt_of_le hpos hle

theorem transmittedPieces_transmitted {before after : List SSegment}
    {seg : SSegment} {k n : ℕ}
    (h : Transmitted (before ++ seg :: after) k) (hle : n ≤ seg.len)
    (hbefore : ∀ p ∈ before, 0 < p.xmit) (hxmit : seg.xmit < 30) :
    Transmitted (before ++ (transmittedPieces seg n ++ after))
      (if seg.xmit = 0 then k + n else k) := by
  have hpos := transmitted_pos hxmit
  simp only [transmittedPieces]
  by_cases hzero : seg.xmit = 0
  · rw [if_pos hzero]
    split
    · have := h.replace_unsent hbefore hzero
        [(seg.head n).transmitted] [seg.tail n seg.xmit] (by simpa using hpos) (by simpa using hzero)
      simpa using this
    · have := h.replace_unsent hbefore hzero [seg.transmitted] [] (by simpa using hpos) (by simp)
      have hlen : n = seg.len := by omega
      simpa [hlen] using this
  · rw [if_neg hzero]
    split
    · refine h.replace_sent (by omega) ?_ ?_
      · intro p hp
        simp only [List.mem_cons, List.not_mem_nil, or_false] at hp
        rcases hp with rfl | rfl
        · exact hpos
        · exact Nat.pos_of_ne_zero hzero
      · change n + (seg.len - n + 0) = seg.len
        omega
    · refine h.replace_sent (by omega) ?_ (Nat.add_zero _)
      intro p hp
      rw [List.mem_singleton.mp hp]
      exact hpos

theorem Sound.transmit (h : s.Sound) {before after : List SSegment}
    {seg : SSegment} (hslist : s.m_slist = before ++ seg :: after)
    (hbefore : ∀ p ∈ before, 0 < p.xmit) (now : ℕ) :
    Advances s (seg.xmit = 0) (s.transmit before seg after now) := by
  by_cases hxmit : seg.xmit ≥ if s.m_state = .TCP_ESTABLISHED then 15 else 30
  · rw [PseudoTcp.transmit, if_pos hxmit]
    exact ⟨h, .refl s, nofun⟩
  · obtain ⟨hoffset, hinside⟩ := h.offset hslist
    have hlen : 0 < seg.len := h.nonempty seg (by
      change seg ∈ s.m_slist
      rw [hslist]
      simp)
    have hmss : 0 < s.m_mss := h.mss
    have hsent : SegmentSent s (min seg.len s.m_mss)
        (s.sendSegment seg (min seg.len s.m_mss)) :=
      sendSegment_sent h (by omega) (by omega)
    cases hsend : s.sendSegment seg (min seg.len s.m_mss) with
    | mk result t =>
      rw [hsend] at hsent
      have hsound : t.Sound := hsent.sound
      have hkept : Kept s t := hsent.kept
      cases result with
      | none =>
        rw [PseudoTcp.transmit, if_neg hxmit, hsend]
        exact ⟨hsound, hkept.sends, nofun⟩
      | some n =>
        rw [transmit_eq hxmit hsend]
        obtain ⟨hpos, hle⟩ := hsent.count n rfl
        have hle : n ≤ seg.len := le_trans hle (Nat.min_le_left _ _)
        have hslist' : t.m_slist = before ++ seg :: after :=
          hkept.slist.trans hslist
        obtain ⟨hfollows, htotal, hpieces⟩ :=
          transmittedPieces_spec (hsound.follows hslist') hpos hle
        have hxmit' : seg.xmit < 30 := by
          split at hxmit <;> omega
        have htransmitted : Transmitted t.m_slist t.nInFlight :=
          hsound.transmitted
        rw [hslist'] at htransmitted
        have htransmitted' := transmittedPieces_transmitted
          htransmitted hle hbefore hxmit'
        have hbound := htransmitted'.le_total
        have hcovers : total SSegment.len t.m_slist =
          t.m_sbuf.data_length := hsound.covers
        have hlength := hsound.data_length_le
        have hsmall : DEFAULT_SND_BUF_SIZE < 2 ^ 32 := by decide
        rw [hslist'] at hcovers
        simp only [total_append, total_cons, htotal] at hbound hcovers
        have hnxt : t.m_snd_nxt < 2 ^ 32 := hsound.nxt
        have huna : t.m_snd_una < 2 ^ 32 := hsound.una
        by_cases hzero : seg.xmit = 0
        · simp only [if_pos hzero] at hbound htransmitted' ⊢
          have hlt : t.nInFlight + n < 2 ^ 32 := by omega
          have hflight : sub32 (u32 (t.m_snd_nxt + n)) t.m_snd_una =
            t.nInFlight + n := sub32_add hlt
          refine ⟨?_, ?_, ?_⟩
          · refine hsound.replace _ hslist' hfollows htotal hpieces
              (u32_lt _) ?_
            rw [← hflight] at htransmitted'
            exact htransmitted'
          · exact hkept.sends.trans
              ⟨rfl, rfl, rfl, rfl, rfl, forward_of_le hnxt huna hlt⟩
          · intro _ _
            change s.nInFlight <
              sub32 (u32 (t.m_snd_nxt + n)) t.m_snd_una
            have hsame : t.nInFlight = s.nInFlight := by
              rw [nInFlight, nInFlight, hkept.nxt, hkept.una]
            rw [hflight]
            omega
        · simp only [if_neg hzero] at htransmitted' ⊢
          refine ⟨?_, ?_, fun _ hnew => absurd hnew hzero⟩
          · exact hsound.replace _ hslist' hfollows htotal hpieces hnxt
              htransmitted'
          · exact hkept.sends.trans
              ⟨rfl, rfl, rfl, rfl, rfl, fun hle => ⟨hle, le_rfl⟩⟩

theorem Sound.transmitFirst (h : s.Sound) (hne : s.m_slist ≠ []) (now : ℕ) :
    (s.transmitFirst now).2.Sound ∧ Sends s (s.transmitFirst now).2 := by
  cases hslist : s.m_slist with
  | nil => exact absurd hslist hne
  | cons seg after =>
    simp only [PseudoTcp.transmitFirst, hslist]
    have hslist' : s.m_slist = [] ++ seg :: after := hslist
    have hadvances := h.transmit hslist' nofun now
    exact ⟨hadvances.sound, hadvances.sends⟩

theorem Sound.cut (h : s.Sound) {before after : List SSegment}
    {seg : SSegment} (hslist : s.m_slist = before ++ seg :: after)
    (hbefore : ∀ p ∈ before, 0 < p.xmit) (hzero : seg.xmit = 0) {n : ℕ}
    (hpos : 0 < n) (hlt : n < seg.len) :
    Sound { s with
      m_slist := before ++ seg.head n :: seg.tail n 0 :: after } := by
  refine h.replace [seg.head n, seg.tail n 0] hslist
    (h.follows hslist).cut ?_ ?_ h.nxt ?_
  · change n + (seg.len - n + 0) = seg.len
    omega
  · intro p hp
    simp only [List.mem_cons, List.not_mem_nil, or_false] at hp
    rcases hp with rfl | rfl
    · exact hpos
    · exact Nat.sub_pos_of_lt hlt
  · have htransmitted : Transmitted s.m_slist s.nInFlight := h.transmitted
    rw [hslist] at htransmitted
    exact htransmitted.replace_unsent hbefore hzero []
      [seg.head n, seg.tail n 0] nofun (by simp [hzero])

theorem Sound.transmitNext (h : s.Sound) (now : ℕ) {n : ℕ} (hpos : 0 < n)
    (hlt : s.nInFlight < s.m_sbuf.data_length) :
    Advances s True (s.transmitNext n now) := by
  have htransmitted : Transmitted s.m_slist s.nInFlight := h.transmitted
  have hcovers : total SSegment.len s.m_slist = s.m_sbuf.data_length :=
    h.covers
  obtain ⟨before, seg, after, hslist, hbefore, hzero, htake, hdrop⟩ :=
    htransmitted.first (by omega)
  simp only [PseudoTcp.transmitNext, htake, hdrop]
  split
  · rename_i hlong
    have hcut := h.cut hslist hbefore hzero hpos hlong
    have hadvances := hcut.transmit rfl hbefore now
    have hsends : Sends s { s with
        m_slist := before ++ seg.head n :: seg.tail n 0 :: after } :=
      ⟨rfl, rfl, rfl, rfl, rfl, fun hle => ⟨hle, le_rfl⟩⟩
    exact ⟨hadvances.sound, hsends.trans hadvances.sends,
      fun hok _ => hadvances.progress hok hzero⟩
  · have hadvances := h.transmit hslist hbefore now
    exact ⟨hadvances.sound, hadvances.sends,
      fun hok _ => hadvances.progress hok hzero⟩

theorem Sound.acknowledge (h : s.Sound) {sflags : SendFlags} :
    (s.acknowledge sflags).Sound ∧ Sends s (s.acknowledge sflags) := by
  simp only [PseudoTcp.acknowledge]
  split
  · exact ⟨h, .refl s⟩
  · split
    · exact ⟨h.ackPacket, packet_kept.sends⟩
    · exact ⟨h, ⟨rfl, rfl, rfl, rfl, rfl, fun hle => ⟨hle, le_rfl⟩⟩⟩

theorem Sound.nAvailable_le (h : s.Sound) :
    s.nAvailable ≤ s.m_sbuf.data_length - s.nInFlight := by
  have hflight := h.nInFlight_le
  have hlength := h.data_length_le
  have hsmall : DEFAULT_SND_BUF_SIZE < 2 ^ 32 := by decide
  simp only [nAvailable]
  generalize (if s.nInFlight < s.nWindow then s.nWindow - s.nInFlight
    else 0) = nUseable
  rw [sub32_of_le (by omega) hflight]
  split
  · split <;> omega
  · omega

theorem Sound.attemptSendLoop (h : s.Sound) (now : ℕ) (sflags : SendFlags)
    {fuel : ℕ} (hfuel : s.m_sbuf.data_length - s.nInFlight < fuel) :
    (PseudoTcp.attemptSendLoop now fuel sflags s).Sound ∧
      Sends s (PseudoTcp.attemptSendLoop now fuel sflags s) := by
  induction fuel generalizing s sflags with
  | zero => omega
  | succ fuel ih =>
    simp only [PseudoTcp.attemptSendLoop]
    split
    · exact h.acknowledge
    · rename_i havailable
      split
      · exact ⟨h, .refl s⟩
      · have hle := h.nAvailable_le
        have hpos : 0 < s.nAvailable := Nat.pos_of_ne_zero havailable
        have hadvances := h.transmitNext now hpos (by omega)
        split
        · rename_i t heq
          rw [heq] at hadvances
          exact ⟨hadvances.sound, hadvances.sends⟩
        · rename_i t heq
          rw [heq] at hadvances
          have hsound : t.Sound := hadvances.sound
          have hsends : Sends s t := hadvances.sends
          have hprogress : s.nInFlight < t.nInFlight :=
            hadvances.progress rfl trivial
          obtain ⟨hsound', hsends'⟩ := ih hsound .sfNone (by
            rw [hsends.sbuf]
            omega)
          exact ⟨hsound', hsends.trans hsends'⟩

theorem Sound.attemptSend (h : s.Sound) {sflags : SendFlags} :
    (s.attemptSend sflags).Sound ∧ Sends s (s.attemptSend sflags) := by
  have hside : (s.tick.restartWindow s.now).sendSide = s.sendSide ∧
      (s.tick.restartWindow s.now).m_dup_acks = s.m_dup_acks ∧
      (s.tick.restartWindow s.now).m_recover = s.m_recover := by
    rw [restartWindow]
    split <;> exact ⟨rfl, rfl, rfl⟩
  obtain ⟨hside, hdup, hrecover⟩ := hside
  have hkept : Kept s (s.tick.restartWindow s.now) :=
    ⟨⟨_, _, hside⟩, hdup, hrecover⟩
  have hfuel : (s.tick.restartWindow s.now).m_sbuf.data_length -
      (s.tick.restartWindow s.now).nInFlight < s.m_sbuf.data_length + 1 := by
    rw [hkept.sbuf]
    exact Nat.lt_succ_of_le (Nat.sub_le _ _)
  obtain ⟨hsound, hsends⟩ :=
    (h.congr hside).attemptSendLoop s.now sflags hfuel
  exact ⟨hsound, hkept.sends.trans hsends⟩

end WebrtcWinXp.PseudoTcp
