import WebrtcWinXp.Rtcp.Items

/-!
# The parser and the blocks of a compound packet

The parser goes from one block to the position that follows it.  This is the end
of the block, except behind feedback without items, and except when the length
of the block does not fit in 16 bits.
-/

namespace WebrtcWinXp.Rtcp

/-- The length of the block at a position, from its length field. -/
def Buffer.blockLength (b : Buffer) (p : ℕ) : ℕ :=
  ((b.u16 (p + 2)).toNat + 1) * 4

/-- The positions at which the split of the buffer into consecutive blocks has a
boundary. -/
inductive Boundary (b : Buffer) : ℕ → Prop where
  | zero : Boundary b 0
  | next {p : ℕ} (h : Boundary b p) (hp : p + 4 ≤ b.size) :
      Boundary b (p + b.blockLength p)

/-- Feedback whose block should have no items: a PLI, or a request for a sender
report. -/
def CommonHeader.IsEmptyFeedback (header : CommonHeader) : Prop :=
  header.pt = PT_RTPFB ∧ header.ic = 5 ∨ header.pt = PT_PSFB ∧ header.ic = 1

instance (header : CommonHeader) : Decidable header.IsEmptyFeedback :=
  inferInstanceAs (Decidable (_ ∨ _))

/-- A report that is shorter than its first part. -/
def CommonHeader.IsShortReport (header : CommonHeader) : Prop :=
  header.pt = PT_SR ∧ header.lengthInOctets.toNat < 28 ∨
    header.pt = PT_RR ∧ header.lengthInOctets.toNat < 8

instance (header : CommonHeader) : Decidable header.IsShortReport :=
  inferInstanceAs (Decidable (_ ∨ _))

/-- Where the parser looks for the next block; nowhere when it stops at a report
that is too short. -/
def CommonHeader.follow (header : CommonHeader) (p : ℕ) : Option ℕ :=
  if header.IsShortReport then none
  else if header.IsEmptyFeedback ∧ 12 ≤ header.lengthInOctets.toNat then
    some (p + 12)
  else some (p + header.lengthInOctets.toNat)

def Buffer.follow (b : Buffer) (p : ℕ) : Option ℕ := (b.commonHeader p).follow p

/-- A header can be parsed at the position, and its block fits. -/
def Interpretable (b : Buffer) (p : ℕ) : Prop :=
  (parseCommonHeader b p).isSome ∧
    p + (b.commonHeader p).lengthInOctets.toNat ≤ b.size

instance (b : Buffer) (p : ℕ) : Decidable (Interpretable b p) :=
  inferInstanceAs (Decidable (_ ∧ _))

/-- The positions that are met from block to block. -/
inductive Met (b : Buffer) : ℕ → Prop where
  | zero : Met b 0
  | follow {p q : ℕ} (h : Met b p) (hp : Interpretable b p)
      (hq : b.follow p = some q) : Met b q

theorem parseCommonHeader_eq_some {b : Buffer} {p : ℕ} {header : CommonHeader}
    (h : parseCommonHeader b p = some header) :
    header = b.commonHeader p ∧ p + 4 ≤ b.size ∧ header.lengthInOctets ≠ 0 := by
  unfold parseCommonHeader at h
  split at h
  · cases h
  · rename_i hsize
    dsimp only at h
    split at h
    · cases h
    · rename_i hlength
      split at h
      · cases h
      · rw [Option.some_inj] at h
        subst h
        exact ⟨rfl, Nat.not_lt.mp hsize, hlength⟩

theorem lengthInOctets_toNat (b : Buffer) (p : ℕ) :
    (b.commonHeader p).lengthInOctets.toNat = b.blockLength p % 2 ^ 16 := by
  have hword := (b.u16 (p + 2)).toNat_lt
  simp only [Buffer.commonHeader, Buffer.blockLength, UInt16.toNat_mul,
    UInt16.toNat_add, UInt16.reduceToNat]
  omega

theorem Interpretable.length {b : Buffer} {p : ℕ} (h : Interpretable b p) :
    4 ≤ (b.commonHeader p).lengthInOctets.toNat ∧
      4 ∣ (b.commonHeader p).lengthInOctets.toNat ∧ p + 4 ≤ b.size := by
  obtain ⟨header, hheader⟩ := Option.isSome_iff_exists.mp h.1
  obtain ⟨rfl, hsize, hne⟩ := parseCommonHeader_eq_some hheader
  have hpos : (b.commonHeader p).lengthInOctets.toNat ≠ 0 :=
    fun hzero => hne (UInt16.toNat_inj.mp hzero)
  rw [lengthInOctets_toNat] at hpos ⊢
  unfold Buffer.blockLength at hpos ⊢
  omega

namespace Parser

variable {b : Buffer} {s t : Parser} {n : ℕ}

/-! ## One block -/

/-- A parser at a block that it interprets. -/
structure Entered (b : Buffer) (header : CommonHeader) (s : Parser) : Prop where
  state : s.state = .topLevel
  packetType : s.packetType = .kRtcpNotValidCode
  blockBegin : s.blockBegin = s.ptr
  blockEnd : s.blockEnd = s.ptr + header.lengthInOctets.toNat
  end_le : s.blockEnd ≤ b.size
  length_pos : 4 ≤ header.lengthInOctets.toNat
  length_dvd : 4 ∣ header.lengthInOctets.toNat
  accesses : AccessesOk b s.accesses

/-- Where the parser is behind the start of a block: it has stopped, or it is
inside the block, or it is at the position that follows. -/
structure BlockDone (b : Buffer) (header : CommonHeader) (s : Parser)
    (r : Parser × Bool) : Prop where
  validPacket : r.1.validPacket = s.validPacket
  blocks : r.1.blocks = s.blocks
  accesses : AccessesOk b r.1.accesses
  position :
    r.2 = false ∧ r.1.packetType = .kRtcpNotValidCode ∧
        header.follow s.ptr = none ∨
      r.2 = false ∧ r.1.packetType ≠ .kRtcpNotValidCode ∧
        r.1.state ≠ .topLevel ∧ InBlock b r.1 ∧ s.ptr < r.1.ptr ∧
        header.follow s.ptr = some r.1.blockEnd ∨
      (r.2 = true ↔ r.1.packetType = .kRtcpNotValidCode) ∧
        r.1.state = .topLevel ∧ s.ptr < r.1.ptr ∧ r.1.ptr ≤ b.size ∧
        header.follow s.ptr = some r.1.ptr

variable {header : CommonHeader}

theorem follow_eq_blockEnd (h : Entered b header s)
    (hsr : header.pt = PT_SR → s.ptr + 28 ≤ s.blockEnd)
    (hrr : header.pt = PT_RR → s.ptr + 8 ≤ s.blockEnd)
    (hempty : header.IsEmptyFeedback → s.blockEnd < s.ptr + 12) :
    header.follow s.ptr = some s.blockEnd := by
  rw [h.blockEnd] at hsr hrr hempty ⊢
  rw [CommonHeader.follow, if_neg, if_neg]
  · rintro ⟨hfeedback, hlength⟩
    have := hempty hfeedback
    omega
  · rintro (⟨hpt, hlength⟩ | ⟨hpt, hlength⟩)
    · have := hsr hpt
      omega
    · have := hrr hpt
      omega

theorem Entered.accesses_read (h : Entered b header s)
    (hle : s.ptr + 4 + n ≤ s.blockEnd) :
    AccessesOk b ((s.skip 4).read n).accesses := by
  refine Parser.accesses_read h.accesses ?_ hle h.end_le
  change s.blockBegin ≤ s.ptr + 4
  rw [h.blockBegin]
  omega

theorem Entered.counted (h : Entered b header s) (numberOfBlocks : UInt8) :
    Entered b header { s with numberOfBlocks := numberOfBlocks } :=
  ⟨h.state, h.packetType, h.blockBegin, h.blockEnd, h.end_le, h.length_pos,
    h.length_dvd, h.accesses⟩

theorem BlockDone.items (h : Entered b header s)
    (hfollow : header.follow s.ptr = some s.blockEnd) (hn : 4 ≤ n)
    (hle : s.ptr + n ≤ s.blockEnd) (hvalid : t.validPacket = s.validPacket)
    (hblocks : t.blocks = s.blocks) (hbegin : t.blockBegin = s.blockBegin)
    (hend : t.blockEnd = s.blockEnd) (hptr : t.ptr = s.ptr + n)
    (haccesses : AccessesOk b t.accesses) (hstate : t.state ≠ .topLevel)
    (hsdes : t.state = .sdesChunk → n = 4)
    (htype : t.packetType ≠ .kRtcpNotValidCode) :
    BlockDone b header s (t, false) := by
  refine ⟨hvalid, hblocks, haccesses,
    Or.inr (Or.inl ⟨rfl, htype, hstate, ?_, ?_, ?_⟩)⟩
  · have hdvd := h.length_dvd
    have hblockEnd := h.blockEnd
    refine ⟨?_, ?_, hend.le.trans h.end_le, fun hst => ?_, haccesses⟩
    · rw [hbegin, hptr, h.blockBegin]
      omega
    · rw [hend, hptr]
      exact hle
    · have hfour := hsdes hst
      change 4 ∣ t.blockEnd - t.ptr
      rw [hend, hptr]
      omega
  · rw [hptr]
    omega
  · rw [hend]
    exact hfollow

theorem BlockDone.skipped (h : Entered b header s)
    (hfollow : header.follow s.ptr = some s.blockEnd)
    (hvalid : t.validPacket = s.validPacket) (hblocks : t.blocks = s.blocks)
    (haccesses : AccessesOk b t.accesses) (hptr : t.ptr = s.blockEnd)
    (hstate : t.state = .topLevel) (htype : t.packetType = s.packetType) :
    BlockDone b header s (t, true) := by
  have hlength := h.length_pos
  have hblockEnd := h.blockEnd
  refine ⟨hvalid, hblocks, haccesses, Or.inr (Or.inr ⟨?_, hstate, ?_, ?_, ?_⟩)⟩
  · exact iff_of_true rfl (htype.trans h.packetType)
  · change s.ptr < t.ptr
    omega
  · exact hptr.le.trans h.end_le
  · change _ = some t.ptr
    rw [hptr]
    exact hfollow

theorem not_isEmptyFeedback (hrtpfb : header.pt ≠ PT_RTPFB)
    (hpsfb : header.pt ≠ PT_PSFB) : ¬header.IsEmptyFeedback := by
  rintro (⟨heq, -⟩ | ⟨heq, -⟩)
  · exact hrtpfb heq
  · exact hpsfb heq

theorem follow_of_pt (h : Entered b header s) (hsr : header.pt ≠ PT_SR)
    (hrr : header.pt ≠ PT_RR) (hrtpfb : header.pt ≠ PT_RTPFB)
    (hpsfb : header.pt ≠ PT_PSFB) : header.follow s.ptr = some s.blockEnd :=
  follow_eq_blockEnd h (fun heq => absurd heq hsr) (fun heq => absurd heq hrr)
    fun hempty => absurd hempty (not_isEmptyFeedback hrtpfb hpsfb)

theorem blockDone_parseSR (h : Entered b header s) (hpt : header.pt = PT_SR) :
    BlockDone b header s ((parseSR b s).1, false) := by
  have hpt' : header.pt ≠ PT_RR ∧ ¬header.IsEmptyFeedback :=
    ⟨hpt ▸ by decide, not_isEmptyFeedback (hpt ▸ by decide) (hpt ▸ by decide)⟩
  unfold parseSR
  split
  · rename_i hshort
    refine ⟨rfl, rfl, h.accesses, Or.inl ⟨rfl, h.packetType, ?_⟩⟩
    rw [h.blockEnd] at hshort
    exact if_pos (Or.inl ⟨hpt, by omega⟩)
  · rename_i hlong
    rw [Nat.not_lt] at hlong
    have hfollow := follow_eq_blockEnd h (fun _ => hlong)
      (fun hrr => absurd hrr hpt'.1) fun hempty => absurd hempty hpt'.2
    have hread : AccessesOk b ((s.skip 4).read 24).accesses :=
      h.accesses_read hlong
    dsimp only
    split
    · exact .items h hfollow (n := 28) (by omega) hlong rfl rfl rfl rfl rfl hread
        nofun nofun nofun
    · refine ⟨rfl, rfl, hread, Or.inr (Or.inr ⟨?_, rfl, ?_, h.end_le, hfollow⟩)⟩
      · exact iff_of_false nofun nofun
      · change s.ptr < s.blockEnd
        omega

theorem blockDone_parseRR (h : Entered b header s) (hpt : header.pt = PT_RR) :
    BlockDone b header s ((parseRR b s).1, false) := by
  have hpt' : header.pt ≠ PT_SR ∧ ¬header.IsEmptyFeedback :=
    ⟨hpt ▸ by decide, not_isEmptyFeedback (hpt ▸ by decide) (hpt ▸ by decide)⟩
  unfold parseRR
  split
  · rename_i hshort
    refine ⟨rfl, rfl, h.accesses, Or.inl ⟨rfl, h.packetType, ?_⟩⟩
    rw [h.blockEnd] at hshort
    exact if_pos (Or.inr ⟨hpt, by omega⟩)
  · rename_i hlong
    rw [Nat.not_lt] at hlong
    exact .items h (follow_eq_blockEnd h (fun hsr => absurd hsr hpt'.1)
      (fun _ => hlong) fun hempty => absurd hempty hpt'.2) (n := 8) (by omega)
      hlong rfl rfl rfl rfl rfl (h.accesses_read hlong) nofun nofun nofun

theorem blockDone_parseSDES (h : Entered b header s)
    (hfollow : header.follow s.ptr = some s.blockEnd) :
    BlockDone b header s ((parseSDES s).map id (!·)) := by
  unfold parseSDES
  split
  · exact .skipped h hfollow rfl rfl h.accesses rfl rfl rfl
  · exact .items h hfollow (n := 4) (by omega) (by omega) rfl rfl rfl rfl rfl
      h.accesses nofun (fun _ => rfl) nofun

theorem blockDone_parseBYE (h : Entered b header s)
    (hfollow : header.follow s.ptr = some s.blockEnd) :
    BlockDone b header s ((parseBYE b s).map id (!·)) := by
  unfold parseBYE parseBYEItem
  split
  · exact .skipped h hfollow rfl rfl h.accesses rfl rfl rfl
  · rename_i hlt
    rw [not_or, Nat.not_lt] at hlt
    have hread : AccessesOk b ((s.skip 4).read 4).accesses :=
      h.accesses_read hlt.1
    have hlong : s.ptr + 4 + 4 ≤ s.blockEnd := hlt.1
    have hnum : 0 < s.numberOfBlocks.toNat :=
      Nat.pos_of_ne_zero fun hzero => hlt.2 (UInt8.toNat_inj.mp hzero)
    dsimp only
    split
    · rename_i hroom
      change s.ptr + 4 + 4 * s.numberOfBlocks.toNat ≤ s.blockEnd at hroom
      refine .items h hfollow (n := 4 + s.numberOfBlocks.toNat * 4) (by omega)
        (by omega) rfl rfl rfl rfl ?_ hread nofun nofun nofun
      dsimp only [id, read, skip]
      omega
    · exact .items h hfollow (n := 8) (by omega) hlong rfl rfl rfl rfl rfl hread
        nofun nofun nofun

theorem blockDone_parseIJ (h : Entered b header s)
    (hfollow : header.follow s.ptr = some s.blockEnd) :
    BlockDone b header s ((parseIJ s).1, false) := by
  have hlength := h.length_pos
  have hblockEnd := h.blockEnd
  unfold parseIJ
  split
  · omega
  · exact .items h hfollow (n := 4) (by omega) (by omega) rfl rfl rfl rfl rfl
      h.accesses nofun nofun nofun

theorem BlockDone.guarded {c : Prop} [Decidable c] {r : Parser × Bool}
    (h : Entered b header s) (hfollow : c → header.follow s.ptr = some s.blockEnd)
    (hdone : ¬c → BlockDone b header s (r.map id (!·))) :
    BlockDone b header s
      ((if c then (s.endCurrentBlock, false) else r).map id (!·)) := by
  split
  · rename_i hc
    exact .skipped h (hfollow hc) rfl rfl h.accesses rfl h.state rfl
  · rename_i hc
    exact hdone hc

theorem BlockDone.empty (h : Entered b header s) (hempty : header.IsEmptyFeedback)
    (hlong : s.ptr + 12 ≤ s.blockEnd) (hvalid : t.validPacket = s.validPacket)
    (hblocks : t.blocks = s.blocks) (haccesses : AccessesOk b t.accesses)
    (hptr : t.ptr = s.ptr + 12) (hstate : t.state = .topLevel)
    (htype : t.packetType ≠ .kRtcpNotValidCode) :
    BlockDone b header s (t, false) := by
  have hpt : header.pt ≠ PT_SR ∧ header.pt ≠ PT_RR := by
    rcases hempty with ⟨hpt, -⟩ | ⟨hpt, -⟩ <;> rw [hpt] <;> decide
  have hend := h.end_le
  have hlong' := hlong
  rw [h.blockEnd] at hlong'
  refine ⟨hvalid, hblocks, haccesses, Or.inr (Or.inr ⟨?_, hstate, ?_, ?_, ?_⟩)⟩
  · exact iff_of_false nofun htype
  · change s.ptr < t.ptr
    omega
  · change t.ptr ≤ b.size
    omega
  · change _ = some t.ptr
    rw [hptr, CommonHeader.follow, if_neg]
    · exact if_pos ⟨hempty, by omega⟩
    · rintro (⟨hsr, -⟩ | ⟨hrr, -⟩)
      · exact hpt.1 hsr
      · exact hpt.2 hrr

theorem blockDone_parseFBCommon (h : Entered b header s)
    (hpt : header.pt = PT_RTPFB ∨ header.pt = PT_PSFB) :
    BlockDone b header s ((parseFBCommon b header s).map id (!·)) := by
  have hreport : header.pt ≠ PT_SR ∧ header.pt ≠ PT_RR := by
    rcases hpt with hpt | hpt <;> rw [hpt] <;> decide
  have hfollow : (header.IsEmptyFeedback → s.blockEnd < s.ptr + 12) →
      header.follow s.ptr = some s.blockEnd :=
    follow_eq_blockEnd h (fun heq => absurd heq hreport.1)
      fun heq => absurd heq hreport.2
  refine .guarded h (fun hshort => hfollow fun _ => hshort) fun hlong => ?_
  rw [Nat.not_lt] at hlong
  have hread : AccessesOk b ((s.skip 4).read 8).accesses := h.accesses_read hlong
  -- Feedback with items, and feedback of an unknown format.
  have hstart : ¬header.IsEmptyFeedback → ∀ type packet st, st ≠ .topLevel →
      st ≠ .sdesChunk → type ≠ .kRtcpNotValidCode →
      BlockDone b header s
        ((((s.skip 4).read 8).startFeedback type packet st).map id (!·)) :=
    fun hne type packet st hst hsdes htype =>
      .items h (hfollow fun hempty => absurd hempty hne) (n := 12) (by omega)
        hlong rfl rfl rfl rfl rfl hread hst (fun heq => absurd heq hsdes) htype
  have hother : ¬header.IsEmptyFeedback →
      BlockDone b header s
        ((((s.skip 4).read 8).endCurrentBlock, false).map id (!·)) :=
    fun hne => .skipped h (hfollow fun hempty => absurd hempty hne) rfl rfl hread
      rfl h.state rfl
  dsimp only
  by_cases hrtpfb : header.pt = PT_RTPFB
  · have hne : header.ic ≠ 5 → ¬header.IsEmptyFeedback := by
      rintro hic (⟨-, hfive⟩ | ⟨hpsfb, -⟩)
      · exact hic hfive
      · rw [hrtpfb] at hpsfb
        exact absurd hpsfb (by decide)
    rw [if_pos hrtpfb]
    split
    · exact hstart (hne (‹header.ic = 1› ▸ by decide)) _ _ _ nofun nofun nofun
    · split
      · exact hstart (hne (‹header.ic = 3› ▸ by decide)) _ _ _ nofun nofun nofun
      · split
        · exact hstart (hne (‹header.ic = 4› ▸ by decide)) _ _ _ nofun nofun
            nofun
        · split
          · exact .empty h (Or.inl ⟨hrtpfb, ‹_›⟩) hlong rfl rfl hread rfl h.state
              nofun
          · exact hother (hne ‹_›)
  · have hpsfb := hpt.resolve_left hrtpfb
    have hne : header.ic ≠ 1 → ¬header.IsEmptyFeedback := by
      rintro hic (⟨hpt, -⟩ | ⟨-, hone⟩)
      · exact hrtpfb hpt
      · exact hic hone
    rw [if_neg hrtpfb]
    split
    · exact .empty h (Or.inr ⟨hpsfb, ‹_›⟩) hlong rfl rfl hread rfl h.state nofun
    · have hformat := hne ‹_›
      split
      · exact hstart hformat _ _ _ nofun nofun nofun
      · split
        · exact hstart hformat _ _ _ nofun nofun nofun
        · split
          · exact hstart hformat _ _ _ nofun nofun nofun
          · split
            · exact hstart hformat _ _ _ nofun nofun nofun
            · exact hother hformat

theorem BlockDone.of_counted {numberOfBlocks : UInt8} {r : Parser × Bool}
    (h : BlockDone b header { s with numberOfBlocks := numberOfBlocks } r) :
    BlockDone b header s r :=
  ⟨h.validPacket, h.blocks, h.accesses, h.position⟩

theorem blockDone_parseBlock (h : Entered b header s) :
    BlockDone b header s (parseBlock b header s) := by
  have hcounted := h.counted header.ic
  unfold parseBlock
  dsimp only
  split
  · exact (blockDone_parseSR hcounted ‹_›).of_counted
  rename_i hsr
  split
  · exact (blockDone_parseRR hcounted ‹_›).of_counted
  rename_i hrr
  by_cases hfeedback : header.pt = PT_RTPFB ∨ header.pt = PT_PSFB
  · have hpt : header.pt ≠ PT_SDES ∧ header.pt ≠ PT_BYE ∧ header.pt ≠ PT_IJ := by
      rcases hfeedback with hpt | hpt <;> rw [hpt] <;> decide
    rw [if_neg hpt.1, if_neg hpt.2.1, if_neg hpt.2.2, if_pos hfeedback]
    exact blockDone_parseFBCommon h hfeedback
  have hfollow : header.follow s.ptr = some s.blockEnd :=
    follow_of_pt h hsr hrr (fun hpt => hfeedback (Or.inl hpt))
      fun hpt => hfeedback (Or.inr hpt)
  split
  · exact (blockDone_parseSDES hcounted hfollow).of_counted
  split
  · exact (blockDone_parseBYE hcounted hfollow).of_counted
  split
  · exact (blockDone_parseIJ hcounted hfollow).of_counted
  split
  · refine .guarded h (fun _ => hfollow) fun hlong => ?_
    rw [Nat.not_lt] at hlong
    exact .items h hfollow (n := 12) (by omega) hlong rfl rfl rfl rfl rfl
      (h.accesses_read hlong) nofun nofun nofun
  split
  · refine .guarded h (fun _ => hfollow) fun hlong => ?_
    rw [Nat.not_lt] at hlong
    exact .items h hfollow (n := 8) (by omega) hlong rfl rfl rfl rfl rfl
      (h.accesses_read hlong) nofun nofun nofun
  · exact .skipped h hfollow rfl rfl h.accesses rfl h.state rfl

end Parser

end WebrtcWinXp.Rtcp
