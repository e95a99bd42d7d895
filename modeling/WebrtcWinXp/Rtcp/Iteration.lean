import WebrtcWinXp.Rtcp.Blocks

/-!
# The iteration of the parser

The parser interprets every block that can be met from block to block, and no
other.  An item function that fails gets closer to the end of the buffer, so the
iteration ends.
-/

namespace WebrtcWinXp.Rtcp.Parser

variable {b : Buffer} {s t : Parser}

/-! ## What is kept -/

/-- Where the parser will look for the next block. -/
def pending (s : Parser) : ℕ :=
  if s.state = .topLevel then s.ptr else s.blockEnd

/-- A parser that has interpreted all blocks that it has met, up to the one that
is pending. -/
structure Running (b : Buffer) (s : Parser) : Prop where
  valid : s.validPacket = true
  accesses : AccessesOk b s.accesses
  blocks : ∀ p ∈ s.blocks, Met b p ∧ Interpretable b p
  followed : ∀ p ∈ s.blocks, ∀ q, b.follow p = some q →
    q ∈ s.blocks ∨ q = s.pending
  start : 0 ∈ s.blocks ∨ s.pending = 0
  met : Met b s.pending
  ptr_le : s.ptr ≤ b.size
  inBlock : s.state ≠ .topLevel → InBlock b s

/-- A parser that has interpreted every block that can be met. -/
structure Finished (b : Buffer) (s : Parser) : Prop where
  accesses : AccessesOk b s.accesses
  blocks : ∀ p, p ∈ s.blocks ↔ Met b p ∧ Interpretable b p

/-- What an iteration returns: an item behind the position, or the end. -/
def Returned (b : Buffer) (n : ℕ) (t : Parser) : Prop :=
  t.packetType ≠ .kRtcpNotValidCode ∧ Running b t ∧ n < t.ptr ∨
    t.packetType = .kRtcpNotValidCode ∧ Finished b t

theorem finished_of_closed (haccesses : AccessesOk b t.accesses)
    (hblocks : ∀ p ∈ t.blocks, Met b p ∧ Interpretable b p)
    (hclosed : ∀ p ∈ t.blocks, ∀ q, b.follow p = some q → Interpretable b q →
      q ∈ t.blocks)
    (hstart : Interpretable b 0 → 0 ∈ t.blocks) : Finished b t := by
  refine ⟨haccesses, fun p => ⟨hblocks p, ?_⟩⟩
  rintro ⟨hmet, hp⟩
  induction hmet with
  | zero => exact hstart hp
  | follow _ hp' hq ih => exact hclosed _ (ih hp') _ hq hp

theorem Running.finished (hs : Running b s)
    (hpending : ¬Interpretable b s.pending) (hblocks : t.blocks = s.blocks)
    (haccesses : AccessesOk b t.accesses) : Finished b t := by
  refine finished_of_closed haccesses ?_ ?_ ?_
  · rw [hblocks]
    exact hs.blocks
  · rw [hblocks]
    intro p hp q hq hinterpretable
    rcases hs.followed p hp q hq with hmem | rfl
    · exact hmem
    · exact absurd hinterpretable hpending
  · rw [hblocks]
    intro hinterpretable
    rcases hs.start with hmem | hzero
    · exact hmem
    · rw [hzero] at hpending
      exact absurd hinterpretable hpending

theorem accessesOk_headerAccesses (b : Buffer) (p : ℕ) {l : List Access}
    (h : AccessesOk b l) : AccessesOk b (headerAccesses b p ++ l) := by
  intro a ha
  rcases List.mem_append.mp ha with ha | ha
  · unfold headerAccesses at ha
    split at ha
    · cases ha
    · rename_i hsize
      rw [List.mem_singleton] at ha
      subst ha
      exact ⟨le_rfl, Nat.not_lt.mp hsize, le_rfl⟩
  · exact h a ha

theorem Running.next (hs : Running b s) (htop : s.state = .topLevel)
    (hinterpretable : Interpretable b s.ptr)
    (hfollow : b.follow s.ptr = some t.pending)
    (hvalid : t.validPacket = s.validPacket)
    (hblocks : t.blocks = s.blocks ++ [s.ptr])
    (haccesses : AccessesOk b t.accesses) (hptr : t.ptr ≤ b.size)
    (hinBlock : t.state ≠ .topLevel → InBlock b t) : Running b t := by
  have hpending : s.pending = s.ptr := if_pos htop
  have hmet := hs.met
  rw [hpending] at hmet
  refine ⟨hvalid.trans hs.valid, haccesses, ?_, ?_, ?_,
    .follow hmet hinterpretable hfollow, hptr, hinBlock⟩
  · rw [hblocks]
    intro p hp
    rcases List.mem_append.mp hp with hp | hp
    · exact hs.blocks p hp
    · rw [List.mem_singleton] at hp
      subst hp
      exact ⟨hmet, hinterpretable⟩
  · rw [hblocks]
    intro p hp q hq
    rcases List.mem_append.mp hp with hp | hp
    · rcases hs.followed p hp q hq with hmem | heq
      · exact Or.inl (List.mem_append_left _ hmem)
      · rw [heq, hpending]
        exact Or.inl (List.mem_append_right _ List.mem_cons_self)
    · rw [List.mem_singleton] at hp
      subst hp
      rw [hfollow, Option.some_inj] at hq
      exact Or.inr hq.symm
  · rw [hblocks]
    rcases hs.start with hmem | hzero
    · exact Or.inl (List.mem_append_left _ hmem)
    · rw [← hzero, hpending]
      exact Or.inl (List.mem_append_right _ List.mem_cons_self)

theorem Running.stopped (hs : Running b s) (htop : s.state = .topLevel)
    (hinterpretable : Interpretable b s.ptr) (hfollow : b.follow s.ptr = none)
    (hblocks : t.blocks = s.blocks ++ [s.ptr])
    (haccesses : AccessesOk b t.accesses) : Finished b t := by
  have hpending : s.pending = s.ptr := if_pos htop
  have hmet := hs.met
  rw [hpending] at hmet
  refine finished_of_closed haccesses ?_ ?_ fun _ => ?_
  · rw [hblocks]
    intro p hp
    rcases List.mem_append.mp hp with hp | hp
    · exact hs.blocks p hp
    · rw [List.mem_singleton] at hp
      subst hp
      exact ⟨hmet, hinterpretable⟩
  · rw [hblocks]
    intro p hp q hq _
    rcases List.mem_append.mp hp with hp | hp
    · rcases hs.followed p hp q hq with hmem | heq
      · exact List.mem_append_left _ hmem
      · rw [heq, hpending]
        exact List.mem_append_right _ List.mem_cons_self
    · rw [List.mem_singleton] at hp
      subst hp
      rw [hfollow] at hq
      cases hq
  · rw [hblocks]
    rcases hs.start with hmem | hzero
    · exact List.mem_append_left _ hmem
    · rw [← hzero, hpending]
      exact List.mem_append_right _ List.mem_cons_self

theorem topLevelRound_spec (hs : Running b s) (htop : s.state = .topLevel)
    (htype : s.packetType = .kRtcpNotValidCode) :
    ((topLevelRound b s).2 = true →
      Running b (topLevelRound b s).1 ∧
        (topLevelRound b s).1.state = .topLevel ∧
        (topLevelRound b s).1.packetType = .kRtcpNotValidCode ∧
        s.ptr < (topLevelRound b s).1.ptr) ∧
    ((topLevelRound b s).2 = false →
      Returned b s.ptr (topLevelRound b s).1) := by
  have haccesses := accessesOk_headerAccesses b s.ptr hs.accesses
  have hpending : s.pending = s.ptr := if_pos htop
  unfold topLevelRound
  dsimp only
  split
  · rename_i hnone
    refine ⟨nofun, fun _ => Or.inr ⟨htype, hs.finished ?_ rfl haccesses⟩⟩
    rw [hpending, Interpretable, hnone]
    exact fun h => Bool.false_ne_true h.1
  · rename_i header hheader
    obtain ⟨rfl, -⟩ := parseCommonHeader_eq_some hheader
    split
    · rename_i hbad
      refine ⟨nofun, fun _ => Or.inr ⟨htype, hs.finished ?_ rfl haccesses⟩⟩
      rw [hpending, Interpretable]
      exact fun h => absurd h.2 (Nat.not_le.mpr hbad)
    · rename_i hfits
      rw [Nat.not_lt] at hfits
      have hinterpretable : Interpretable b s.ptr := by
        refine ⟨?_, hfits⟩
        rw [hheader]
        rfl
      obtain ⟨hfour, hdvd, -⟩ := hinterpretable.length
      have hentered : Entered b (b.commonHeader s.ptr)
          (enterBlock (b.commonHeader s.ptr)
            { s with accesses := headerAccesses b s.ptr ++ s.accesses }) :=
        ⟨htop, htype, rfl, rfl, hfits, hfour, hdvd, haccesses⟩
      obtain ⟨hvalid, hblocks, haccesses', hposition⟩ :=
        blockDone_parseBlock hentered
      generalize parseBlock b (b.commonHeader s.ptr) _ = r
        at hvalid hblocks haccesses' hposition
      rcases hposition with ⟨hstop, htype', hfollow⟩ |
        ⟨hstop, htype', hitem, hinBlock, hptr, hfollow⟩ |
        ⟨hgoes, htop', hptr, hsize, hfollow⟩
      · exact ⟨fun h => absurd (hstop.symm.trans h) nofun, fun _ =>
          Or.inr ⟨htype', hs.stopped htop hinterpretable hfollow hblocks
            haccesses'⟩⟩
      · refine ⟨fun h => absurd (hstop.symm.trans h) nofun, fun _ =>
          Or.inl ⟨htype', hs.next htop hinterpretable ?_ hvalid hblocks
            haccesses' (hinBlock.ptr_le.trans hinBlock.end_le)
            fun _ => hinBlock, hptr⟩⟩
        rw [pending, if_neg hitem]
        exact hfollow
      · have hnext : Running b r.1 := by
          refine hs.next htop hinterpretable ?_ hvalid hblocks haccesses' hsize
            fun hitem => absurd htop' hitem
          rw [pending, if_pos htop']
          exact hfollow
        refine ⟨fun h => ⟨hnext, htop', hgoes.mp h, hptr⟩, fun h =>
          Or.inl ⟨fun htype' => ?_, hnext, hptr⟩⟩
        exact absurd (h.symm.trans (hgoes.mpr htype')) nofun

variable {fuel : ℕ}

theorem iterateTopLevel_spec (hs : Running b s)
    (htop : s.state = .topLevel) (htype : s.packetType = .kRtcpNotValidCode)
    (h : iterateTopLevel b fuel s = some t) : Returned b s.ptr t := by
  induction fuel generalizing s with
  | zero => cases h
  | succ fuel ih =>
    obtain ⟨hgoes, hstops⟩ := topLevelRound_spec hs htop htype
    rw [iterateTopLevel] at h
    split at h
    · rename_i u hu
      rw [hu] at hgoes
      obtain ⟨hrunning, htop', htype', hptr⟩ := hgoes rfl
      rcases ih hrunning htop' htype' h with ⟨hvalid, ht, hlt⟩ | hfinished
      · exact Or.inl ⟨hvalid, ht, hptr.trans hlt⟩
      · exact Or.inr hfinished
    · rename_i u hu
      rw [hu] at hstops
      rw [Option.some_inj] at h
      subst h
      exact hstops rfl

theorem iterateTopLevel_isSome (hs : Running b s)
    (htop : s.state = .topLevel) (htype : s.packetType = .kRtcpNotValidCode)
    (hfuel : b.size - s.ptr < fuel) :
    ∃ t, iterateTopLevel b fuel s = some t := by
  induction fuel generalizing s with
  | zero => exact absurd hfuel (Nat.not_lt_zero _)
  | succ fuel ih =>
    obtain ⟨hgoes, -⟩ := topLevelRound_spec hs htop htype
    rw [iterateTopLevel]
    split
    · rename_i u hu
      rw [hu] at hgoes
      obtain ⟨hrunning, htop', htype', hptr⟩ := hgoes rfl
      have hsize : u.ptr ≤ b.size := hrunning.ptr_le
      change s.ptr < u.ptr at hptr
      exact ih hrunning htop' htype' (by omega)
    · exact ⟨_, rfl⟩

variable {r : Parser × Bool}

theorem Running.item (hs : Running b s) (hitem : s.state ≠ .topLevel) (hdone : ItemDone b s r) : Running b r.1 := by
  have hpending : r.1.pending = s.pending := by
    have hend := hdone.same.blockEnd
    rw [pending, pending, if_neg hitem]
    split
    · rename_i htop
      cases hr : r.2 with
      | true => exact absurd htop (hdone.success hr).1
      | false =>
        rcases hdone.failure hr with ⟨-, hptr⟩ | ⟨hxr, -⟩
        · exact hptr
        · rw [htop] at hxr
          cases hxr
    · exact hend
  refine ⟨hdone.same.validPacket.trans hs.valid, hdone.inBlock.accesses,
    ?_, ?_, ?_, ?_, hdone.inBlock.ptr_le.trans hdone.inBlock.end_le,
    fun _ => hdone.inBlock⟩
  · rw [hdone.same.blocks]
    exact hs.blocks
  · rw [hdone.same.blocks, hpending]
    exact hs.followed
  · rw [hdone.same.blocks, hpending]
    exact hs.start
  · rw [hpending]
    exact hs.met

theorem Running.reset (hs : Running b s) :
    Running b { s with packetType := .kRtcpNotValidCode } :=
  ⟨hs.valid, hs.accesses, hs.blocks, hs.followed, hs.start, hs.met, hs.ptr_le,
    fun hitem => ⟨(hs.inBlock hitem).begin_le, (hs.inBlock hitem).ptr_le,
      (hs.inBlock hitem).end_le, (hs.inBlock hitem).aligned,
      (hs.inBlock hitem).accesses⟩⟩

theorem ptr_le_of_failure (hs : InBlock b s)
    (hdone : ItemDone b s r) (hr : r.2 = false) : s.ptr ≤ r.1.ptr := by
  have hptr := hs.ptr_le
  rcases hdone.failure hr with ⟨-, hleft⟩ | ⟨-, hlt | ⟨-, heq⟩⟩
  · omega
  · exact hlt.le
  · exact heq.ge

theorem iterate_spec (hs : Running b s)
    (h : iterate b fuel s = some t) : Returned b s.ptr t := by
  induction fuel generalizing s with
  | zero => cases h
  | succ fuel ih =>
    have hreset := hs.reset
    have hvalid := hs.valid
    rw [iterate] at h
    dsimp only at h
    rw [if_neg (by rw [hvalid]; decide)] at h
    split at h
    · rename_i htop
      have hreturned := iterateTopLevel_spec hreset htop rfl h
      exact hreturned
    · rename_i hitem
      have hinBlock := hreset.inBlock hitem
      have hdone := itemDone_parseItem hinBlock hitem
      have hrunning := hreset.item hitem hdone
      split at h
      · rename_i u hu
        rw [hu] at hdone hrunning
        rw [Option.some_inj] at h
        subst h
        obtain ⟨-, hptr, htype⟩ := hdone.success rfl
        exact Or.inl ⟨htype, hrunning, hptr⟩
      · rename_i u hu
        rw [hu] at hdone hrunning
        have hptr : s.ptr ≤ u.ptr := ptr_le_of_failure hinBlock hdone rfl
        rcases ih hrunning h with ⟨htype, ht, hlt⟩ | hfinished
        · exact Or.inl ⟨htype, ht, hptr.trans_lt hlt⟩
        · exact Or.inr hfinished

/-- How many times an item function can still fail at a position. -/
def rank : ParseState → ℕ
  | .topLevel => 0
  | .xrDlrrItem => 2
  | _ => 1

theorem rank_le (st : ParseState) : rank st ≤ 2 := by
  cases st <;> decide

theorem rank_pos {st : ParseState} (hst : st ≠ .topLevel) : 1 ≤ rank st := by
  cases st
  case topLevel => exact absurd rfl hst
  all_goals decide

theorem rank_lt_of_failure (hs : InBlock b s)
    (hitem : s.state ≠ .topLevel) (hdone : ItemDone b s r) (hr : r.2 = false) :
    3 * (b.size - r.1.ptr) + rank r.1.state <
      3 * (b.size - s.ptr) + rank s.state := by
  have hpos := rank_pos hitem
  have hptr := ptr_le_of_failure hs hdone hr
  have hle := hdone.inBlock.ptr_le
  have hend := hdone.inBlock.end_le
  have htop : rank .topLevel = 0 := rfl
  have hxr : rank .xrItem = 1 := rfl
  rcases hdone.failure hr with ⟨hstate, -⟩ | ⟨hstate, hlt | ⟨hdlrr, heq⟩⟩
  · rw [hstate]
    omega
  · rw [hstate]
    omega
  · have hrank : rank .xrDlrrItem = 2 := rfl
    rw [hstate, hdlrr, heq]
    omega

theorem iterate_isSome (hs : Running b s)
    (hfuel : 3 * (b.size - s.ptr) + rank s.state + 1 < fuel) :
    ∃ t, iterate b fuel s = some t := by
  induction fuel generalizing s with
  | zero => exact absurd hfuel (Nat.not_lt_zero _)
  | succ fuel ih =>
    have hreset := hs.reset
    have hvalid := hs.valid
    rw [iterate]
    dsimp only
    rw [if_neg (by rw [hvalid]; decide)]
    split
    · rename_i htop
      have hlt : b.size - s.ptr < fuel := by omega
      exact iterateTopLevel_isSome hreset htop rfl hlt
    · rename_i hitem
      have hinBlock := hreset.inBlock hitem
      have hdone := itemDone_parseItem hinBlock hitem
      have hrunning := hreset.item hitem hdone
      split
      · exact ⟨_, rfl⟩
      · rename_i u hu
        rw [hu] at hdone hrunning
        have hlt : 3 * (b.size - u.ptr) + rank u.state <
            3 * (b.size - s.ptr) + rank s.state :=
          rank_lt_of_failure hinBlock hitem hdone rfl
        exact ih hrunning (by omega)

theorem parseAll_spec {r : List (PacketType × Packet) × Parser}
    (hs : Running b s) (h : parseAll b fuel s = some r) : Finished b r.2 := by
  induction fuel generalizing s r with
  | zero => cases h
  | succ fuel ih =>
    rw [parseAll, Option.bind_eq_some_iff] at h
    obtain ⟨t, ht, h⟩ := h
    rcases iterate_spec hs ht with ⟨htype, hrunning, -⟩ | ⟨htype, hfinished⟩
    · rw [if_neg htype, Option.map_eq_some_iff] at h
      obtain ⟨rest, hrest, rfl⟩ := h
      have hfinished := ih hrunning hrest
      exact hfinished
    · rw [if_pos htype, Option.some_inj] at h
      subst h
      exact hfinished

theorem parseAll_isSome (hs : Running b s)
    (hfuel : 3 * (b.size - s.ptr) + 4 < fuel) :
    ∃ r, parseAll b fuel s = some r := by
  induction fuel generalizing s with
  | zero => exact absurd hfuel (Nat.not_lt_zero _)
  | succ fuel ih =>
    have hrank := rank_le s.state
    have hiterate : 3 * (b.size - s.ptr) + rank s.state + 1 < fuel := by omega
    obtain ⟨t, ht⟩ := iterate_isSome hs hiterate
    rw [parseAll, ht, Option.bind_some]
    split
    · exact ⟨_, rfl⟩
    · rename_i htype
      rcases iterate_spec hs ht with ⟨-, hrunning, hptr⟩ | ⟨htype', -⟩
      · have hsize := hrunning.ptr_le
        obtain ⟨rest, hrest⟩ := ih hrunning (by omega)
        rw [hrest]
        exact ⟨_, rfl⟩
      · exact absurd htype' htype

theorem running_new {rtcpReducedSizeEnable : Bool}
    (h : validate b rtcpReducedSizeEnable = true) :
    Running b (new b rtcpReducedSizeEnable) where
  valid := h
  accesses := by
    have hnil : AccessesOk b [] := fun _ ha => absurd ha List.not_mem_nil
    have haccesses := accessesOk_headerAccesses b 0 hnil
    rw [List.append_nil] at haccesses
    exact haccesses
  blocks _ hp := absurd hp List.not_mem_nil
  followed _ hp := absurd hp List.not_mem_nil
  start := Or.inr rfl
  met := .zero
  ptr_le := Nat.zero_le _
  inBlock hitem := absurd rfl hitem

end WebrtcWinXp.Rtcp.Parser
