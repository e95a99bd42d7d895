import WebrtcWinXp.Rtcp.Builders

/-!
# Feedback blocks in a buffer

What the parser returns for a feedback block that stands in a buffer: first the
header, then the items one by one.
-/

namespace WebrtcWinXp.Rtcp

open Support

/-- The bytes of the list stand in the buffer from a position on. -/
def Buffer.Holds (b : Buffer) : ℕ → List UInt8 → Prop
  | _, [] => True
  | i, x :: l => b.data i = x ∧ b.Holds (i + 1) l

instance Buffer.decidableHolds (b : Buffer) :
    ∀ i l, Decidable (b.Holds i l)
  | _, [] => inferInstanceAs (Decidable True)
  | i, x :: l =>
    have : Decidable (b.Holds (i + 1) l) := b.decidableHolds (i + 1) l
    inferInstanceAs (Decidable (b.data i = x ∧ b.Holds (i + 1) l))

namespace Buffer

variable {b : Buffer} {i : ℕ}

@[simp] theorem holds_nil : b.Holds i [] := trivial

variable {l : List UInt8}

@[simp] theorem holds_cons {x : UInt8} :
    b.Holds i (x :: l) ↔ b.data i = x ∧ b.Holds (i + 1) l :=
  Iff.rfl

@[simp] theorem holds_append {r : List UInt8} :
    b.Holds i (l ++ r) ↔ b.Holds i l ∧ b.Holds (i + l.length) r := by
  induction l generalizing i with
  | nil => simp
  | cons x l ih =>
    have hi : i + (l.length + 1) = i + 1 + l.length := by omega
    rw [List.cons_append, holds_cons, holds_cons, ih, List.length_cons, hi,
      and_assoc]

theorem Holds.bytes (h : b.Holds i l) :
    b.bytes i l.length = l := by
  induction l generalizing i with
  | nil => rfl
  | cons x l ih =>
    have hrest := ih h.2
    rw [Buffer.bytes] at hrest ⊢
    rw [List.length_cons, List.range_succ_eq_map, List.map_cons,
      List.map_map]
    refine congrArg₂ List.cons h.1 ((List.map_congr_left ?_).trans hrest)
    intro j _
    exact congrArg b.data (by simp only [Nat.succ_eq_add_one]; omega)

@[simp] theorem length_assignUWord16 (value : UInt16) :
    (assignUWord16 value).length = 2 :=
  toBE_length 2 _

@[simp] theorem length_assignUWord32 (value : UInt32) :
    (assignUWord32 value).length = 4 :=
  toBE_length 4 _

theorem Holds.u16 {value : UInt16} (h : b.Holds i (assignUWord16 value)) :
    b.u16 i = value := by
  obtain ⟨hhigh, hlow, -⟩ := h
  have hlt := value.toNat_lt
  apply UInt16.toNat_inj.mp
  rw [Buffer.u16, hhigh, hlow, UInt16.toNat_add, UInt16.toNat_shiftLeft,
    UInt8.toNat_toUInt16, UInt8.toNat_toUInt16, UInt8.toNat_ofNat',
    UInt8.toNat_ofNat', show (8 : UInt16).toNat % 16 = 8 from rfl,
    Nat.shiftLeft_eq]
  omega

theorem Holds.u32 {value : UInt32} (h : b.Holds i (assignUWord32 value)) :
    b.u32 i = value := by
  obtain ⟨h₃, h₂, h₁, h₀, -⟩ := h
  have hlt := value.toNat_lt
  apply UInt32.toNat_inj.mp
  rw [Buffer.u32, h₃, h₂, h₁, h₀]
  simp only [UInt32.toNat_add, UInt32.toNat_shiftLeft, UInt8.toNat_toUInt32,
    UInt8.toNat_ofNat', Nat.shiftLeft_eq, UInt32.toNat_ofNat, Nat.reduceMod,
    Nat.reducePow]
  omega

end Buffer

namespace Parser

variable {b : Buffer} {s : Parser} {i blockEnd : ℕ} (fuel : ℕ)

/-! ## The header of a block -/

/-- A valid parser in the given state, with its cursor and the end of its
block. -/
structure At (s : Parser) (state : ParseState) (ptr blockEnd : ℕ) : Prop where
  valid : s.validPacket = true
  state : s.state = state
  ptr : s.ptr = ptr
  blockEnd : s.blockEnd = blockEnd

theorem parseCommonHeader_feedback {fmt pt : UInt8} {length : UInt16}
    (hfmt : fmt < 32) (hlength : length.toNat + 1 < 2 ^ 14)
    (h : b.Holds i (feedbackHeader fmt pt length)) (hsize : i + 4 ≤ b.size) :
    parseCommonHeader b i = some ⟨2, false, fmt, pt, (length + 1) * 4⟩ := by
  obtain ⟨hfirst, hsecond, hword⟩ := h
  have hbits : ∀ fmt : UInt8, fmt < 32 → (0x80 + fmt) >>> 6 = 2 ∧
      (0x80 + fmt) &&& 0x20 = 0 ∧ (0x80 + fmt) &&& 0x1f = fmt := by
    apply forall_uint8
    decide +kernel
  obtain ⟨hversion, hpadding, hcount⟩ := hbits fmt hfmt
  have hheader : b.commonHeader i =
      ⟨2, false, fmt, pt, (length + 1) * 4⟩ := by
    rw [Buffer.commonHeader, hfirst, hsecond, hversion, hpadding, hcount,
      Buffer.Holds.u16 hword]
    rfl
  have hne : (length + 1) * 4 ≠ 0 := by
    intro hzero
    have hnat := congrArg UInt16.toNat hzero
    rw [UInt16.toNat_mul, UInt16.toNat_add] at hnat
    simp only [UInt16.reduceToNat] at hnat
    omega
  rw [parseCommonHeader, if_neg (by omega), hheader]
  dsimp only
  rw [if_neg hne, if_neg (by decide)]

/-- What `ParseFBCommon` does with the blocks of a kind whose items follow. -/
def Starts (b : Buffer) (fmt pt : UInt8) (packetType : PacketType)
    (packet : UInt32 → UInt32 → Packet) (state : ParseState) : Prop :=
  ∀ (header : CommonHeader) (u : Parser), header.ic = fmt → header.pt = pt →
    u.ptr + 12 ≤ u.blockEnd →
    parseFBCommon b header u =
      ((u.skip 4).read 8).startFeedback packetType
        (packet (b.u32 (u.ptr + 4)) (b.u32 (u.ptr + 8))) state

theorem starts_nack : Starts b 1 205 .kRtcpRtpfbNackCode .nack
    .rtpfbNackItem := by
  rintro header u hic hpt hend
  rw [parseFBCommon, if_neg (by omega), hic, hpt]
  rfl

theorem starts_tmmbr : Starts b 3 205 .kRtcpRtpfbTmmbrCode .tmmbr
    .rtpfbTmmbrItem := by
  rintro header u hic hpt hend
  rw [parseFBCommon, if_neg (by omega), hic, hpt]
  rfl

theorem starts_tmmbn : Starts b 4 205 .kRtcpRtpfbTmmbnCode .tmmbn
    .rtpfbTmmbnItem := by
  rintro header u hic hpt hend
  rw [parseFBCommon, if_neg (by omega), hic, hpt]
  rfl

theorem starts_rpsi : Starts b 3 206 .kRtcpPsfbRpsiCode
    (fun sender media => .rpsi ⟨sender, media, 0, 0, []⟩) .psfbRpsiItem := by
  rintro header u hic hpt hend
  rw [parseFBCommon, if_neg (by omega), hic, hpt]
  rfl

theorem starts_psfbApp : Starts b 15 206 .kRtcpPsfbAppCode .psfbApp
    .psfbAppItem := by
  rintro header u hic hpt hend
  rw [parseFBCommon, if_neg (by omega), hic, hpt]
  rfl

variable {state : ParseState}

theorem iterate_feedback {fmt pt : UInt8} {length : UInt16}
    {packetType : PacketType} {packet : UInt32 → UInt32 → Packet} {senderSsrc mediaSsrc : UInt32}
    (hstarts : Starts b fmt pt packetType packet state)
    (hpt : pt = 205 ∨ pt = 206) (hfmt : fmt < 32)
    (hlength : 2 ≤ length.toNat ∧ length.toNat + 1 < 2 ^ 14)
    (hs : s.At .topLevel i blockEnd)
    (h : b.Holds i (feedbackHeader fmt pt length ++
      (assignUWord32 senderSsrc ++ assignUWord32 mediaSsrc)))
    (hsize : i + 4 * (length.toNat + 1) ≤ b.size) :
    ∃ t, iterate b (fuel + 2) s = some t ∧
      t.At state (i + 12) (i + 4 * (length.toNat + 1)) ∧
      t.packetType = packetType ∧ t.packet = packet senderSsrc mediaSsrc := by
  obtain ⟨hheader, hsender, hmedia⟩ :
      b.Holds i (feedbackHeader fmt pt length) ∧
        b.Holds (i + 4) (assignUWord32 senderSsrc) ∧
        b.Holds (i + 8) (assignUWord32 mediaSsrc) := by
    rw [Buffer.holds_append, Buffer.holds_append] at h
    exact h
  have hoctets : ((length + 1) * 4).toNat = 4 * (length.toNat + 1) := by
    rw [UInt16.toNat_mul, UInt16.toNat_add]
    simp only [UInt16.reduceToNat]
    omega
  have hparse := parseCommonHeader_feedback hfmt hlength.2 hheader (by omega)
  have hblock : ∀ u : Parser, u.ptr = i → topLevelRound b u =
      ((parseFBCommon b ⟨2, false, fmt, pt, (length + 1) * 4⟩
        (({ u with accesses := headerAccesses b u.ptr ++ u.accesses } :
          Parser).enterBlock ⟨2, false, fmt, pt, (length + 1) * 4⟩)).map
        id (!·)) := by
    intro u hu
    rw [topLevelRound]
    dsimp only
    rw [hu, hparse]
    dsimp only
    rw [if_neg (by rw [hoctets]; omega)]
    rcases hpt with rfl | rfl <;> rfl
  rw [iterate]
  dsimp only
  rw [if_neg (by rw [hs.valid]; exact Bool.noConfusion), if_pos hs.state,
    iterateTopLevel,
    hblock { s with packetType := .kRtcpNotValidCode } hs.ptr,
    hstarts ⟨2, false, fmt, pt, (length + 1) * 4⟩ _ rfl rfl (by
      simp only [enterBlock, hs.ptr, hoctets]
      omega)]
  refine ⟨_, rfl, ⟨hs.valid, rfl, ?_, ?_⟩, rfl, ?_⟩
  · exact congrArg (· + 12) hs.ptr
  · exact congrArg₂ (· + ·) hs.ptr hoctets
  · change packet (b.u32 (s.ptr + 4)) (b.u32 (s.ptr + 8)) = _
    rw [hs.ptr, hsender.u32, hmedia.u32]

/-- The parser as `Iterate` hands it to an item function. -/
def cleared (s : Parser) : Parser :=
  { s with packetType := .kRtcpNotValidCode }

theorem At.cleared (hs : s.At state i blockEnd) :
    s.cleared.At state i blockEnd :=
  ⟨hs.valid, hs.state, hs.ptr, hs.blockEnd⟩

theorem iterate_item {t : Parser}
    (hs : s.At state i blockEnd) (hstate : state ≠ .topLevel)
    (hitem : parseItem b s.cleared = (t, true)) :
    iterate b (fuel + 1) s = some t := by
  rw [cleared] at hitem
  rw [iterate]
  dsimp only
  rw [if_neg (by rw [hs.valid]; exact Bool.noConfusion),
    if_neg (by rw [hs.state]; exact hstate), hitem]

theorem iterate_end (hs : s.At state i blockEnd)
    (hstate : state ≠ .topLevel)
    (hitem : parseItem b s.cleared = s.cleared.leave)
    (hsize : b.size < blockEnd + 4) :
    ∃ t, iterate b (fuel + 3) s = some t ∧
      t.packetType = .kRtcpNotValidCode := by
  have hend := hs.blockEnd
  rw [cleared, leave, endCurrentBlock] at hitem
  rw [iterate]
  dsimp only
  rw [if_neg (by rw [hs.valid]; exact Bool.noConfusion),
    if_neg (by rw [hs.state]; exact hstate), hitem]
  dsimp only
  rw [iterate]
  dsimp only
  rw [if_neg (by rw [hs.valid]; exact Bool.noConfusion), if_pos rfl,
    iterateTopLevel, topLevelRound]
  dsimp only
  rw [parseCommonHeader, if_pos (by omega)]
  exact ⟨_, rfl, rfl⟩

theorem iterate_nackItem (hs : s.At .rtpfbNackItem i blockEnd)
    (hend : i + 4 ≤ blockEnd) :
    ∃ t, iterate b (fuel + 1) s = some t ∧
      t.At .rtpfbNackItem (i + 4) blockEnd ∧
      t.packetType = .kRtcpRtpfbNackItemCode ∧
      t.packet = .nackItem (b.u16 i) (b.u16 (i + 2)) := by
  have hitem : parseItem b s.cleared = parseNACKItem b s.cleared := by
    rw [parseItem, hs.cleared.state]
  rw [parseNACKItem, if_neg (by rw [hs.cleared.ptr, hs.cleared.blockEnd]; omega),
    hs.cleared.ptr] at hitem
  refine ⟨_, iterate_item fuel hs nofun hitem, ⟨hs.valid, hs.state, ?_, hs.blockEnd⟩,
    rfl, rfl⟩
  exact congrArg (· + 4) hs.ptr

theorem iterate_nack_end (hs : s.At .rtpfbNackItem blockEnd blockEnd)
    (hsize : b.size < blockEnd + 4) :
    ∃ t, iterate b (fuel + 3) s = some t ∧
      t.packetType = .kRtcpNotValidCode := by
  have hitem : parseItem b s.cleared = s.cleared.leave := by
    rw [parseItem, hs.cleared.state]
    dsimp only
    rw [parseNACKItem,
      if_pos (by rw [hs.cleared.ptr, hs.cleared.blockEnd]; omega)]
  exact iterate_end fuel hs nofun hitem hsize

end Parser

end WebrtcWinXp.Rtcp
