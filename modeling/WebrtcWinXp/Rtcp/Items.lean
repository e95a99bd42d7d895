import Mathlib
import WebrtcWinXp.Rtcp.Parser

/-!
# Items

An item function stays inside its block.  It returns an item and advances, or
leaves the block at its end, or goes on with the next block of an extended
report.
-/

namespace WebrtcWinXp.Rtcp

/-- Everything was read within the limits, which are within the buffer. -/
def AccessesOk (b : Buffer) (l : List Access) : Prop :=
  ∀ a ∈ l, a.limitBegin ≤ a.first ∧ a.first + a.count ≤ a.limitEnd ∧
    a.limitEnd ≤ b.size

namespace Parser

/-! ## Items -/

/-- A parser inside a block. -/
structure InBlock (b : Buffer) (s : Parser) : Prop where
  begin_le : s.blockBegin ≤ s.ptr
  ptr_le : s.ptr ≤ s.blockEnd
  end_le : s.blockEnd ≤ b.size
  aligned : s.state = .sdesChunk → 4 ∣ s.blockEnd - s.ptr
  accesses : AccessesOk b s.accesses

/-- A later state of the parser in the same block. -/
structure SameBlock (s t : Parser) : Prop where
  validPacket : t.validPacket = s.validPacket
  blockBegin : t.blockBegin = s.blockBegin
  blockEnd : t.blockEnd = s.blockEnd
  blocks : t.blocks = s.blocks

/-- What an item function does: it returns an item and advances, or it leaves
the block, or it goes on with the blocks of an extended report. -/
structure ItemDone (b : Buffer) (s : Parser) (r : Parser × Bool) : Prop where
  same : SameBlock s r.1
  inBlock : InBlock b r.1
  success : r.2 = true → r.1.state ≠ .topLevel ∧ s.ptr < r.1.ptr ∧
    r.1.packetType ≠ .kRtcpNotValidCode
  failure : r.2 = false →
    r.1.state = .topLevel ∧ r.1.ptr = s.blockEnd ∨
      r.1.state = .xrItem ∧
        (s.ptr < r.1.ptr ∨ s.state = .xrDlrrItem ∧ r.1.ptr = s.ptr)

variable {b : Buffer} {s t : Parser} {n : ℕ}

theorem accesses_read (h : AccessesOk b s.accesses) (hbegin : s.blockBegin ≤ s.ptr)
    (hle : s.ptr + n ≤ s.blockEnd) (hend : s.blockEnd ≤ b.size) :
    AccessesOk b (s.read n).accesses := by
  intro a ha
  rcases List.mem_cons.mp ha with rfl | ha
  · exact ⟨hbegin, hle, hend⟩
  · exact h a ha

theorem InBlock.accesses_read (h : InBlock b s) (hle : s.ptr + n ≤ s.blockEnd) :
    AccessesOk b (s.read n).accesses :=
  Parser.accesses_read h.accesses h.begin_le hle h.end_le

theorem ItemDone.leave (h : InBlock b s) (hsame : SameBlock s t)
    (haccesses : AccessesOk b t.accesses) : ItemDone b s t.leave where
  same := ⟨hsame.validPacket, hsame.blockBegin, hsame.blockEnd, hsame.blocks⟩
  inBlock := by
    have hbegin := h.begin_le
    have hptr := h.ptr_le
    refine ⟨?_, le_rfl, ?_, nofun, haccesses⟩
    · change t.blockBegin ≤ t.blockEnd
      rw [hsame.blockBegin, hsame.blockEnd]
      omega
    · change t.blockEnd ≤ b.size
      rw [hsame.blockEnd]
      exact h.end_le
  success := nofun
  failure _ := Or.inl ⟨rfl, hsame.blockEnd⟩

theorem ItemDone.item (h : InBlock b s) (hn : 0 < n)
    (hle : s.ptr + n ≤ s.blockEnd) (hsame : SameBlock s t)
    (hptr : t.ptr = s.ptr + n) (haccesses : AccessesOk b t.accesses)
    (hstate : t.state ≠ .topLevel ∧ t.state ≠ .sdesChunk)
    (htype : t.packetType ≠ .kRtcpNotValidCode) : ItemDone b s (t, true) where
  same := hsame
  inBlock := by
    have hbegin := h.begin_le
    refine ⟨?_, ?_, ?_, fun hsdes => absurd hsdes hstate.2, haccesses⟩
    · rw [hsame.blockBegin, hptr]
      omega
    · rw [hsame.blockEnd, hptr]
      exact hle
    · rw [hsame.blockEnd]
      exact h.end_le
  success _ := ⟨hstate.1, by rw [hptr]; omega, htype⟩
  failure := nofun

theorem ItemDone.readItem (h : InBlock b s) (hn : 0 < n)
    (hle : s.ptr + n ≤ s.blockEnd) (hsame : SameBlock s t)
    (hptr : t.ptr = s.ptr + n) (haccesses : t.accesses = (s.read n).accesses)
    (hstate : t.state ≠ .topLevel ∧ t.state ≠ .sdesChunk)
    (htype : t.packetType ≠ .kRtcpNotValidCode) : ItemDone b s (t, true) :=
  .item h hn hle hsame hptr (haccesses ▸ h.accesses_read hle) hstate htype

theorem SameBlock.refl (s : Parser) : SameBlock s s := ⟨rfl, rfl, rfl, rfl⟩

theorem ItemDone.leave_self (h : InBlock b s) : ItemDone b s s.leave :=
  .leave h (.refl s) h.accesses

theorem ItemDone.guarded {c : Prop} [Decidable c] (h : InBlock b s)
    (hn : 0 < n) (hle : ¬c → s.ptr + n ≤ s.blockEnd) (hsame : SameBlock s t)
    (hptr : t.ptr = s.ptr + n) (haccesses : t.accesses = (s.read n).accesses)
    (hstate : t.state ≠ .topLevel ∧ t.state ≠ .sdesChunk)
    (htype : t.packetType ≠ .kRtcpNotValidCode) :
    ItemDone b s (if c then s.leave else (t, true)) := by
  split
  · exact .leave_self h
  · rename_i hc
    exact .readItem h hn (hle hc) hsame hptr haccesses hstate htype

theorem InBlock.read (h : InBlock b s) (hle : s.ptr + n ≤ s.blockEnd)
    (hstate : s.state ≠ .sdesChunk) : InBlock b (s.read n) where
  begin_le := Nat.le_add_right_of_le h.begin_le
  ptr_le := hle
  end_le := h.end_le
  aligned hsdes := absurd hsdes hstate
  accesses := h.accesses_read hle

theorem ItemDone.after {r : Parser × Bool} (h : ItemDone b t r)
    (hle : s.ptr ≤ t.ptr) (hsame : SameBlock s t)
    (hstate : t.state ≠ .xrDlrrItem) : ItemDone b s r where
  same := ⟨h.same.validPacket.trans hsame.validPacket,
    h.same.blockBegin.trans hsame.blockBegin,
    h.same.blockEnd.trans hsame.blockEnd, h.same.blocks.trans hsame.blocks⟩
  inBlock := h.inBlock
  success hr := by
    obtain ⟨hitem, hlt, htype⟩ := h.success hr
    exact ⟨hitem, by omega, htype⟩
  failure hr := by
    rcases h.failure hr with ⟨htop, hptr⟩ | ⟨hxr, hlt | ⟨hdlrr, -⟩⟩
    · exact Or.inl ⟨htop, hptr.trans hsame.blockEnd⟩
    · exact Or.inr ⟨hxr, Or.inl (by omega)⟩
    · exact absurd hdlrr hstate

theorem itemDone_parseBYEItem (h : InBlock b s) (hstate : s.state = .byeItem) :
    ItemDone b s (parseBYEItem b s) := by
  unfold parseBYEItem
  split
  · exact .leave_self h
  · rename_i hlt
    rw [not_or, Nat.not_lt] at hlt
    have hread := h.accesses_read hlt.1
    dsimp only
    split
    · rename_i hroom
      have hnum : 0 < s.numberOfBlocks.toNat :=
        Nat.pos_of_ne_zero fun hzero => hlt.2 (UInt8.toNat_inj.mp hzero)
      refine .item h (n := s.numberOfBlocks.toNat * 4) (by omega) (by omega)
        ⟨rfl, rfl, rfl, rfl⟩ ?_ hread ⟨hstate ▸ nofun, hstate ▸ nofun⟩ nofun
      dsimp only [read, skip]
      omega
    · exact .readItem h (by omega) hlt.1 ⟨rfl, rfl, rfl, rfl⟩ rfl rfl
        ⟨hstate ▸ nofun, hstate ▸ nofun⟩ nofun

theorem itemDone_parseRPSIItem (h : InBlock b s)
    (hstate : s.state = .psfbRpsiItem) : ItemDone b s (parseRPSIItem b s) := by
  unfold parseRPSIItem
  dsimp only
  split
  · exact .leave_self h
  · have hle := h.ptr_le
    refine .guarded h (n := s.blockEnd - s.ptr) (by omega) (fun _ => by omega)
      ⟨rfl, rfl, rfl, rfl⟩ rfl rfl ⟨hstate ▸ nofun, hstate ▸ nofun⟩ nofun

theorem itemDone_parseFIRItem (h : InBlock b s)
    (hstate : s.state = .psfbFirItem) : ItemDone b s (parseFIRItem b s) := by
  unfold parseFIRItem
  split
  · exact .leave_self h
  · exact .item h (n := 8) (by omega) (by omega) ⟨rfl, rfl, rfl, rfl⟩ rfl
      (h.accesses_read (n := 5) (by omega)) ⟨hstate ▸ nofun, hstate ▸ nofun⟩
      nofun

theorem itemDone_parsePsfbAppItem (h : InBlock b s) :
    ItemDone b s (parsePsfbAppItem b s) := by
  have hleave : ∀ n, s.ptr + n ≤ s.blockEnd →
      ItemDone b s (s.read n).leave := fun n hle =>
    .leave h ⟨rfl, rfl, rfl, rfl⟩ (h.accesses_read hle)
  unfold parsePsfbAppItem
  split
  · exact .leave_self h
  · rename_i hlt
    rw [Nat.not_lt] at hlt
    split
    · exact hleave 1 (by omega)
    · split
      · exact hleave 2 (by omega)
      · split
        · exact hleave 3 (by omega)
        · split
          · exact hleave 4 (by omega)
          · exact .readItem h (by omega) hlt ⟨rfl, rfl, rfl, rfl⟩ rfl rfl
              ⟨nofun, nofun⟩ nofun

theorem itemDone_parsePsfbREMBItem (h : InBlock b s)
    (hstate : s.state = .psfbRembItem) :
    ItemDone b s (parsePsfbREMBItem b s) := by
  unfold parsePsfbREMBItem
  split
  · exact .leave_self h
  · rename_i hlt
    rw [Nat.not_lt] at hlt
    have hread : InBlock b (s.read 4) := h.read hlt (hstate ▸ nofun)
    dsimp only
    split
    · exact .leave h ⟨rfl, rfl, rfl, rfl⟩ hread.accesses
    · rename_i hroom
      rw [Nat.not_lt] at hroom
      refine .item h (n := 4 + 4 * (b.data s.ptr).toNat) (by omega) ?_
        ⟨rfl, rfl, rfl, rfl⟩ (Nat.add_assoc _ _ _) (hread.accesses_read hroom)
        ⟨hstate ▸ nofun, hstate ▸ nofun⟩ nofun
      rw [← Nat.add_assoc]
      exact hroom

theorem itemDone_parseXrItem (h : InBlock b s) (hstate : s.state = .xrItem) :
    ItemDone b s (parseXrItem b s) := by
  unfold parseXrItem
  split
  · exact .leave_self h
  · rename_i hlt
    rw [Nat.not_lt] at hlt
    have hread : InBlock b (s.read 4) := h.read hlt (hstate ▸ nofun)
    have hsame : SameBlock s (s.read 4) := ⟨rfl, rfl, rfl, rfl⟩
    have hafter : ∀ r, ItemDone b (s.read 4) r → ItemDone b s r :=
      fun r hr => hr.after (Nat.le_add_right _ _) hsame (hstate ▸ nofun)
    dsimp only
    split
    · refine hafter _ (.guarded hread (by omega) (fun hc => ?_)
        ⟨rfl, rfl, rfl, rfl⟩ rfl rfl ⟨nofun, nofun⟩ nofun)
      rw [not_or, Nat.not_lt] at hc
      exact hc.2
    · split
      · unfold parseXrDlrr
        split
        · exact hafter _ (.leave_self hread)
        · exact .readItem h (by omega) hlt ⟨rfl, rfl, rfl, rfl⟩ rfl rfl
            ⟨nofun, nofun⟩ nofun
      · split
        · refine hafter _ (.guarded hread (by omega) (fun hc => ?_)
            ⟨rfl, rfl, rfl, rfl⟩ rfl rfl ⟨nofun, nofun⟩ nofun)
          rw [not_or, Nat.not_lt] at hc
          exact hc.2
        · unfold parseXrUnsupportedBlockType
          split
          · exact hafter _ (.leave_self hread)
          · rename_i hroom
            rw [Nat.not_lt] at hroom
            refine ⟨⟨rfl, rfl, rfl, rfl⟩,
              ⟨?_, hroom, h.end_le, nofun, hread.accesses⟩, nofun,
              fun _ => Or.inr ⟨rfl, Or.inl ?_⟩⟩
            · exact Nat.le_add_right_of_le hread.begin_le
            · change s.ptr < s.ptr + 4 + _
              omega

theorem itemDone_parseXrDlrrItem (h : InBlock b s)
    (hstate : s.state = .xrDlrrItem) :
    ItemDone b s (parseXrDlrrItem b s) := by
  unfold parseXrDlrrItem
  split
  · exact ⟨⟨rfl, rfl, rfl, rfl⟩,
      ⟨h.begin_le, h.ptr_le, h.end_le, nofun, h.accesses⟩, nofun,
      fun _ => Or.inr ⟨rfl, Or.inr ⟨hstate, rfl⟩⟩⟩
  · exact .guarded h (by omega) Nat.not_lt.mp ⟨rfl, rfl, rfl, rfl⟩ rfl rfl
      ⟨nofun, nofun⟩ nofun

theorem itemDone_parseAPPItem (h : InBlock b s) (hstate : s.state = .appItem) :
    ItemDone b s (parseAPPItem b s) := by
  unfold parseAPPItem kRtcpAppCode_DATA_SIZE
  split
  · exact .leave_self h
  · exact .readItem h (by omega) (by omega) ⟨rfl, rfl, rfl, rfl⟩ rfl rfl
      ⟨hstate ▸ nofun, hstate ▸ nofun⟩ nofun

/-! ## Source descriptions -/

/-- What `ParseSDESItem` does for a chunk whose items start at `base`: it comes
to an aligned position behind the end tag, or it leaves the block. -/
structure SdesItemDone (b : Buffer) (s : Parser) (r : Parser × Bool) : Prop
    where
  same : SameBlock s r.1
  accesses : AccessesOk b r.1.accesses
  position : r.1.state = s.state ∧ s.ptr < r.1.ptr ∧ r.1.ptr ≤ s.blockEnd ∧
      4 ∣ s.blockEnd - r.1.ptr ∨
    r.2 = false ∧ r.1.state = .topLevel ∧ r.1.ptr = s.blockEnd
  found : r.2 = true → r.1.packetType = .kRtcpSdesChunkCode

theorem SdesItemDone.leave (hsame : SameBlock s t)
    (haccesses : AccessesOk b t.accesses) : SdesItemDone b s t.leave where
  same := ⟨hsame.validPacket, hsame.blockBegin, hsame.blockEnd, hsame.blocks⟩
  accesses := haccesses
  position := Or.inr ⟨rfl, rfl, hsame.blockEnd⟩
  found := nofun

theorem SdesItemDone.after {r : Parser × Bool} (h : SdesItemDone b t r)
    (hle : s.ptr ≤ t.ptr) (hstate : t.state = s.state)
    (hsame : SameBlock s t) : SdesItemDone b s r where
  same := ⟨h.same.validPacket.trans hsame.validPacket,
    h.same.blockBegin.trans hsame.blockBegin,
    h.same.blockEnd.trans hsame.blockEnd, h.same.blocks.trans hsame.blocks⟩
  accesses := h.accesses
  position := by
    have hposition := h.position
    rw [hsame.blockEnd, hstate] at hposition
    exact hposition.imp_left fun ⟨hst, hlt, hrest⟩ => ⟨hst, by omega, hrest⟩
  found := h.found

theorem sdesItemDone_loop {base itemOctetsRead : ℕ} {foundCName : Bool}
    (hptr : s.ptr = base + itemOctetsRead) (hbase : base ≤ s.blockEnd)
    (haligned : 4 ∣ s.blockEnd - base) (hbegin : s.blockBegin ≤ s.ptr)
    (hend : s.blockEnd ≤ b.size) (haccesses : AccessesOk b s.accesses)
    (hfound : foundCName = true → s.packetType = .kRtcpSdesChunkCode) :
    SdesItemDone b s (parseSDESItemLoop b s itemOctetsRead foundCName) := by
  fun_induction parseSDESItemLoop b s itemOctetsRead foundCName with
  | case1 s n found hlt tag htag =>
    have hread := accesses_read (n := 1) haccesses hbegin hlt hend
    refine ⟨⟨rfl, rfl, rfl, rfl⟩, hread, Or.inl ⟨rfl, ?_⟩, hfound⟩
    simp only [read, skip, alignment]
    omega
  | case2 s n found hlt tag htag hlt' len hone hroom =>
    exact .leave ⟨rfl, rfl, rfl, rfl⟩
      (accesses_read haccesses hbegin (by omega) hend)
  | case3 s n found hlt tag htag hlt' len hone hroom name hillegal =>
    exact .leave ⟨rfl, rfl, rfl, rfl⟩
      (accesses_read haccesses hbegin (by omega) hend)
  | case4 s n found hlt tag htag hlt' len hone hroom name hlegal ih =>
    have hread := accesses_read (n := 2 + len) haccesses hbegin (by omega) hend
    refine (ih ?_ hbase haligned (Nat.le_add_right_of_le hbegin) hend hread
      fun _ => rfl).after (Nat.le_add_right _ _) rfl ⟨rfl, rfl, rfl, rfl⟩
    simp only [read]
    omega
  | case5 s n found hlt tag htag hlt' len hother ih =>
    have hread := accesses_read (n := 2) haccesses hbegin hlt' hend
    refine (ih ?_ hbase haligned
      (Nat.le_add_right_of_le (Nat.le_add_right_of_le hbegin)) hend hread
      hfound).after (Nat.le_add_right_of_le (Nat.le_add_right _ _)) rfl
      ⟨rfl, rfl, rfl, rfl⟩
    simp only [read, skip]
    omega
  | case6 s n found hlt tag htag hlast ih =>
    have hread := accesses_read (n := 1) haccesses hbegin hlt hend
    refine (ih ?_ hbase haligned (Nat.le_add_right_of_le hbegin) hend hread
      hfound).after (Nat.le_add_right _ _) rfl ⟨rfl, rfl, rfl, rfl⟩
    simp only [read]
    omega
  | case7 s n found hge =>
    exact .leave (.refl s) haccesses

theorem sdesItemDone_chunk (h : InBlock b s) (hstate : s.state = .sdesChunk)
    (hroom : s.ptr + 4 ≤ s.blockEnd) :
    SdesItemDone b (s.read 4) (parseSDESItem b (s.read 4)) := by
  have halign := h.aligned hstate
  have halign' : 4 ∣ s.blockEnd - (s.ptr + 4) := by omega
  have hptr : (s.read 4).ptr = s.ptr + 4 + 0 := rfl
  exact sdesItemDone_loop hptr hroom halign'
    (Nat.le_add_right_of_le h.begin_le) h.end_le (h.accesses_read hroom) nofun

theorem SdesItemDone.inBlock {r : Parser × Bool} (h : InBlock b s)
    (hstate : s.state = .sdesChunk) (hdone : SdesItemDone b (s.read 4) r)
    (hposition : r.1.state ≠ .topLevel) :
    InBlock b r.1 ∧ r.1.state = .sdesChunk ∧ s.ptr < r.1.ptr := by
  obtain ⟨⟨-, hbegin, hend, -⟩, haccesses, hcases, -⟩ := hdone
  rcases hcases with ⟨hst, hptr, hle, hdvd⟩ | ⟨-, htop, -⟩
  · have hptr' : s.ptr + 4 < r.1.ptr := hptr
    have hle' := h.begin_le
    refine ⟨⟨?_, hle.trans hend.symm.le, hend.le.trans h.end_le, fun _ => ?_,
      haccesses⟩, hst.trans hstate, by omega⟩
    · rw [hbegin]
      change s.blockBegin ≤ r.1.ptr
      omega
    · rw [hend]
      exact hdvd
  · exact absurd htop hposition

theorem itemDone_chunkLoop (h : InBlock b s) (hstate : s.state = .sdesChunk) :
    ItemDone b s (parseSDESChunkLoop b s) := by
  fun_induction parseSDESChunkLoop b s with
  | case1 s hlt hshort => exact .leave_self h
  | case2 s hlt hroom t hitem =>
    have hdone := sdesItemDone_chunk h hstate (Nat.not_lt.mp hroom)
    rw [hitem] at hdone
    have hnot : t.state ≠ .topLevel := by
      rcases hdone.position with ⟨hst, -⟩ | ⟨hfalse, -⟩
      · exact (hst.trans hstate) ▸ nofun
      · cases hfalse
    obtain ⟨hinBlock, hst, hptr⟩ := hdone.inBlock h hstate hnot
    obtain ⟨hvalid, hbegin, hend, hblocks⟩ := hdone.same
    refine ⟨⟨hvalid, hbegin, hend, hblocks⟩, ⟨hinBlock.begin_le,
      hinBlock.ptr_le, hinBlock.end_le, hinBlock.aligned,
      hinBlock.accesses⟩, fun _ => ⟨hnot, hptr, ?_⟩, nofun⟩
    change t.packetType ≠ _
    rw [hdone.found rfl]
    nofun
  | case3 s hlt hroom t hitem ih =>
    have hdone := sdesItemDone_chunk h hstate (Nat.not_lt.mp hroom)
    rw [hitem] at hdone
    have hsame : SameBlock s t := ⟨hdone.same.validPacket,
      hdone.same.blockBegin, hdone.same.blockEnd, hdone.same.blocks⟩
    by_cases htop : t.state = .topLevel
    · have hptr : t.ptr = t.blockEnd := by
        rcases hdone.position with ⟨hst, -⟩ | ⟨-, -, hptr⟩
        · rw [htop] at hst
          exact absurd (hst.trans hstate) nofun
        · exact hptr.trans hdone.same.blockEnd.symm
      rw [parseSDESChunkLoop, dif_neg (by omega)]
      exact .leave h hsame hdone.accesses
    · obtain ⟨hinBlock, hst, hptr⟩ := hdone.inBlock h hstate htop
      exact (ih hinBlock hst).after hptr.le hsame (hst ▸ nofun)
  | case4 s hge => exact .leave_self h

theorem itemDone_parseSDESChunk (h : InBlock b s)
    (hstate : s.state = .sdesChunk) : ItemDone b s (parseSDESChunk b s) := by
  unfold parseSDESChunk
  split
  · exact .leave_self h
  · have hcounted :
        InBlock b { s with numberOfBlocks := s.numberOfBlocks - 1 } :=
      ⟨h.begin_le, h.ptr_le, h.end_le, h.aligned, h.accesses⟩
    refine (itemDone_chunkLoop hcounted hstate).after le_rfl
      ⟨rfl, rfl, rfl, rfl⟩ ?_
    change s.state ≠ _
    exact hstate ▸ nofun

theorem itemDone_parseItem (h : InBlock b s) (hstate : s.state ≠ .topLevel) :
    ItemDone b s (parseItem b s) := by
  unfold parseItem
  split
  · contradiction
  · rename_i hst
    refine .guarded h (n := 24) (by omega) (fun hc => ?_)
      ⟨rfl, rfl, rfl, rfl⟩ rfl rfl ⟨hst ▸ nofun, hst ▸ nofun⟩ nofun
    rw [not_or, Nat.not_lt] at hc
    exact hc.1
  · exact itemDone_parseSDESChunk h ‹_›
  · exact itemDone_parseBYEItem h ‹_›
  · rename_i hst
    refine .guarded h (n := 4) (by omega) (fun hc => ?_)
      ⟨rfl, rfl, rfl, rfl⟩ rfl rfl ⟨hst ▸ nofun, hst ▸ nofun⟩ nofun
    rw [not_or, Nat.not_lt] at hc
    exact hc.1
  · rename_i hst
    exact .guarded h (n := 4) (by omega) Nat.not_lt.mp ⟨rfl, rfl, rfl, rfl⟩ rfl
      rfl ⟨hst ▸ nofun, hst ▸ nofun⟩ nofun
  · rename_i hst
    exact .guarded h (n := 8) (by omega) Nat.not_lt.mp ⟨rfl, rfl, rfl, rfl⟩ rfl
      rfl ⟨hst ▸ nofun, hst ▸ nofun⟩ nofun
  · rename_i hst
    exact .guarded h (n := 8) (by omega) Nat.not_lt.mp ⟨rfl, rfl, rfl, rfl⟩ rfl
      rfl ⟨hst ▸ nofun, hst ▸ nofun⟩ nofun
  · rename_i hst
    exact .guarded h (n := 4) (by omega) Nat.not_lt.mp ⟨rfl, rfl, rfl, rfl⟩ rfl
      rfl ⟨hst ▸ nofun, hst ▸ nofun⟩ nofun
  · exact itemDone_parseRPSIItem h ‹_›
  · exact itemDone_parseFIRItem h ‹_›
  · exact itemDone_parsePsfbAppItem h
  · exact itemDone_parsePsfbREMBItem h ‹_›
  · exact itemDone_parseXrItem h ‹_›
  · exact itemDone_parseXrDlrrItem h ‹_›
  · exact itemDone_parseAPPItem h ‹_›

end Parser

end WebrtcWinXp.Rtcp
