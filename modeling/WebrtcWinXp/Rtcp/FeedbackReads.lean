import WebrtcWinXp.Rtcp.Items

/-!
# What the feedback handlers read

`HandleRPSI` takes the number of bytes from the number of valid bits, which the
parser computes from the length of the item and the padding that it announces.
-/

namespace WebrtcWinXp.Rtcp

namespace Parser

variable {b : Buffer} {s t : Parser} {fuel : ℕ}

/-! ## Where an RPSI comes from -/

theorem parseRPSIItem_eq_true (h : parseRPSIItem b s = (t, true)) :
    (4 ≤ s.blockEnd - s.ptr ∧ s.blockEnd - s.ptr ≤ 32) ∧
      t.packetType = .kRtcpPsfbRpsiCode ∧
      t.packet = .rpsi
        { s.packet.toRpsi with
          payloadType := b.data (s.ptr + 1)
          nativeBitString := b.bytes (s.ptr + 2) (s.blockEnd - s.ptr - 2)
          numberOfValidBits := UInt16.ofNat (s.blockEnd - s.ptr - 2) * 8 -
            (b.data s.ptr).toUInt16 } ∧
      t.ptr = s.ptr + (s.blockEnd - s.ptr) := by
  rw [parseRPSIItem, RTCP_RPSI_DATA_SIZE] at h
  dsimp only at h
  split_ifs at h with hshort hlong
  · simp [leave] at h
  · simp [leave] at h
  · rw [Prod.mk.injEq] at h
    obtain ⟨rfl, -⟩ := h
    exact ⟨⟨by omega, by omega⟩, rfl, rfl, rfl⟩

theorem parseSDESItemLoop_packetType (n : ℕ) (found : Bool)
    (h : s.packetType ≠ .kRtcpPsfbRpsiCode) :
    (parseSDESItemLoop b s n found).1.packetType ≠ .kRtcpPsfbRpsiCode := by
  fun_induction parseSDESItemLoop b s n found with
  | case1 | case2 | case3 | case7 => exact h
  | case4 s n found _ _ _ _ _ _ _ _ _ ih => exact ih fun h => by cases h
  | case5 s n found _ _ _ _ _ _ ih | case6 s n found _ _ _ _ ih => exact ih h

theorem parseSDESChunkLoop_packetType
    (h : s.packetType ≠ .kRtcpPsfbRpsiCode) :
    (parseSDESChunkLoop b s).1.packetType ≠ .kRtcpPsfbRpsiCode := by
  fun_induction parseSDESChunkLoop b s with
  | case1 | case4 => exact h
  | case2 s _ _ t hitem =>
    have hloop := parseSDESItemLoop_packetType (b := b) (s := s.read 4)
      0 false h
    rw [parseSDESItem] at hitem
    rw [hitem] at hloop
    exact hloop
  | case3 s _ _ t hitem ih =>
    have hloop := parseSDESItemLoop_packetType (b := b) (s := s.read 4)
      0 false h
    rw [parseSDESItem] at hitem
    rw [hitem] at hloop
    exact ih hloop

theorem packetType_guarded {c : Prop} [Decidable c]
    (h : s.packetType ≠ .kRtcpPsfbRpsiCode)
    (ht : t.packetType ≠ .kRtcpPsfbRpsiCode) :
    (if c then s.leave else (t, true)).1.packetType ≠
      .kRtcpPsfbRpsiCode := by
  split
  · exact h
  · exact ht

theorem parseXrItem_packetType (h : s.packetType ≠ .kRtcpPsfbRpsiCode) :
    (parseXrItem b s).1.packetType ≠ .kRtcpPsfbRpsiCode := by
  rw [parseXrItem]
  dsimp only
  split_ifs
  · exact h
  · exact packetType_guarded h nofun
  · exact packetType_guarded h nofun
  · exact packetType_guarded h nofun
  · rw [parseXrUnsupportedBlockType]
    split_ifs <;> exact h

theorem parseItem_packetType (h : s.packetType ≠ .kRtcpPsfbRpsiCode)
    (hstate : s.state ≠ .psfbRpsiItem) :
    (parseItem b s).1.packetType ≠ .kRtcpPsfbRpsiCode := by
  rw [parseItem]
  split
  · exact h
  · exact packetType_guarded h nofun
  · rw [parseSDESChunk]
    split_ifs
    · exact h
    · exact parseSDESChunkLoop_packetType h
  · rw [parseBYEItem]
    dsimp only
    split_ifs <;> first | exact h | exact nofun
  · exact packetType_guarded h nofun
  · exact packetType_guarded h nofun
  · exact packetType_guarded h nofun
  · exact packetType_guarded h nofun
  · exact packetType_guarded h nofun
  · contradiction
  · exact packetType_guarded h nofun
  · rw [parsePsfbAppItem]
    split_ifs <;> first | exact h | exact nofun
  · rw [parsePsfbREMBItem]
    dsimp only
    split_ifs <;> first | exact h | exact nofun
  · exact parseXrItem_packetType h
  · rw [parseXrDlrrItem]
    split_ifs <;> first | exact h | exact nofun
  · exact packetType_guarded h nofun

theorem parseReport_packetType (h : s.packetType ≠ .kRtcpPsfbRpsiCode) :
    (parseSR b s).1.packetType ≠ .kRtcpPsfbRpsiCode ∧
      (parseRR b s).1.packetType ≠ .kRtcpPsfbRpsiCode ∧
      (parseIJ s).1.packetType ≠ .kRtcpPsfbRpsiCode ∧
      (parseXr b s).1.packetType ≠ .kRtcpPsfbRpsiCode := by
  rw [parseSR, parseRR, parseIJ, parseXr]
  refine ⟨?_, ?_, ?_, ?_⟩ <;> dsimp only <;> split_ifs <;>
    first | exact h | exact nofun

theorem parseSource_packetType (header : CommonHeader)
    (h : s.packetType ≠ .kRtcpPsfbRpsiCode) :
    (parseSDES s).1.packetType ≠ .kRtcpPsfbRpsiCode ∧
      (parseBYE b s).1.packetType ≠ .kRtcpPsfbRpsiCode ∧
      (parseAPP b header s).1.packetType ≠ .kRtcpPsfbRpsiCode := by
  rw [parseSDES, parseBYE, parseBYEItem, parseAPP]
  refine ⟨?_, ?_, ?_⟩ <;> dsimp only <;> split_ifs <;>
    first | exact h | exact nofun

/-- No RPSI, or the header of one with the given result. -/
def HeaderOnly (ok : Bool) (r : Parser × Bool) : Prop :=
  r.1.packetType = .kRtcpPsfbRpsiCode →
    r.2 = ok ∧ r.1.packet.toRpsi.filled = 0

theorem HeaderOnly.of_ne {ok : Bool} {r : Parser × Bool}
    (h : r.1.packetType ≠ .kRtcpPsfbRpsiCode) : HeaderOnly ok r :=
  fun htype => absurd htype h

theorem headerOnly_parseFBCommon {header : CommonHeader}
    (h : s.packetType ≠ .kRtcpPsfbRpsiCode) :
    HeaderOnly true (parseFBCommon b header s) := by
  rw [parseFBCommon]
  dsimp only [startFeedback]
  repeat' split
  all_goals first
    | exact .of_ne h
    | exact fun _ => ⟨rfl, rfl⟩
    | exact .of_ne nofun

theorem headerOnly_parseBlock {header : CommonHeader}
    (h : s.packetType ≠ .kRtcpPsfbRpsiCode) :
    HeaderOnly false (parseBlock b header s) := by
  have hreport := parseReport_packetType (b := b)
    (s := { s with numberOfBlocks := header.ic }) h
  have hsource := parseSource_packetType (b := b)
    (s := { s with numberOfBlocks := header.ic }) header h
  rw [parseBlock]
  split
  · exact .of_ne hreport.1
  split
  · exact .of_ne hreport.2.1
  split
  · exact .of_ne hsource.1
  split
  · exact .of_ne hsource.2.1
  split
  · exact .of_ne hreport.2.2.1
  split
  · intro htype
    obtain ⟨hgo, hfilled⟩ := headerOnly_parseFBCommon h htype
    exact ⟨congrArg (!·) hgo, hfilled⟩
  split
  · exact .of_ne (parseSource_packetType header h).2.2
  split
  · exact .of_ne (parseReport_packetType h).2.2.2
  · exact .of_ne h

theorem headerOnly_topLevelRound (h : s.packetType ≠ .kRtcpPsfbRpsiCode) :
    HeaderOnly false (topLevelRound b s) := by
  rw [topLevelRound]
  dsimp only
  split
  · exact .of_ne h
  split
  · exact .of_ne h
  · exact headerOnly_parseBlock (s := enterBlock _ _) h

theorem iterateTopLevel_rpsi (h : s.packetType ≠ .kRtcpPsfbRpsiCode)
    (hiterate : iterateTopLevel b fuel s = some t)
    (htype : t.packetType = .kRtcpPsfbRpsiCode) :
    t.packet.toRpsi.filled = 0 := by
  induction fuel generalizing s with
  | zero => cases hiterate
  | succ fuel ih =>
    have hround := headerOnly_topLevelRound (b := b) h
    rw [iterateTopLevel] at hiterate
    split at hiterate
    · rename_i u hu
      rw [hu] at hround
      apply ih _ hiterate
      intro hu'
      exact Bool.false_ne_true (hround hu').1.symm
    · rename_i u hu
      rw [hu] at hround
      rw [Option.some_inj] at hiterate
      subst hiterate
      exact (hround htype).2

theorem iterate_rpsi (hiterate : iterate b fuel s = some t)
    (htype : t.packetType = .kRtcpPsfbRpsiCode) :
    (∃ u, parseRPSIItem b u = (t, true)) ∨ t.packet.toRpsi.filled = 0 := by
  induction fuel generalizing s with
  | zero => cases hiterate
  | succ fuel ih =>
    have hne : ({ s with packetType := .kRtcpNotValidCode } :
        Parser).packetType ≠ .kRtcpPsfbRpsiCode := by
      simp
    rw [iterate] at hiterate
    dsimp only at hiterate
    split_ifs at hiterate with hvalid htop
    · rw [Option.some_inj] at hiterate
      rw [← hiterate] at htype
      cases htype
    · exact .inr (iterateTopLevel_rpsi hne hiterate htype)
    · split at hiterate
      · rename_i u hu
        rw [Option.some_inj] at hiterate
        subst hiterate
        left
        by_cases hstate : s.state = .psfbRpsiItem
        · have hitem : parseItem b
              { s with packetType := .kRtcpNotValidCode } =
              parseRPSIItem b
                { s with packetType := .kRtcpNotValidCode } := by
            rw [parseItem]
            dsimp only
            rw [hstate]
          exact ⟨_, hitem.symm.trans hu⟩
        · have hother := parseItem_packetType (b := b) hne hstate
          rw [hu] at hother
          exact absurd htype hother
      · exact ih hiterate

/-! ## Reads of an RPSI -/

theorem rpsiReads_iff {k n : ℕ} :
    (∀ i ∈ rpsiReads k, 0 ≤ i ∧ i < (n : ℤ)) ↔ 0 < k ∧ k ≤ n := by
  constructor
  · intro h
    have hlast := h ((k : ℤ) - 1) (List.mem_append_right _
      (List.mem_singleton_self _))
    omega
  · rintro ⟨hpos, hle⟩ i hi
    rw [rpsiReads, List.mem_append, List.mem_map, List.mem_singleton] at hi
    obtain ⟨j, hj, rfl⟩ | rfl := hi
    · rw [List.mem_range] at hj
      omega
    · omega

theorem toNat_numberOfBytes (bits : UInt16) :
    numberOfBytes bits = bits.toNat / 8 % 2 ^ 8 := by
  rw [numberOfBytes, UInt16.toNat_toUInt8, UInt16.toNat_div]
  rfl

theorem mod_eight_ne_zero {bits : UInt16} :
    bits % 8 ≠ 0 ↔ ¬8 ∣ bits.toNat := by
  rw [Ne, ← UInt16.toNat_inj, UInt16.toNat_mod, Nat.dvd_iff_mod_eq_zero]
  rfl

/-- The reads that a number of valid bits leads to stay below `n`. -/
def ReadsBelow (bits : UInt16) (n : ℕ) : Prop :=
  8 ∣ bits.toNat → 0 < numberOfBytes bits ∧ numberOfBytes bits ≤ n

/-- The number of valid bits that the parser computes, for the bytes that it
has filled in and the padding that the item announces. -/
theorem readsBelow_item {n : ℕ} {paddingBits : UInt8} (hle : n ≤ 30)
    (hge : 2 ≤ n) :
    ReadsBelow (UInt16.ofNat n * 8 - paddingBits.toUInt16) n ↔
      ¬8 ∣ paddingBits.toNat ∨ paddingBits.toNat < 8 * n := by
  have hlt := paddingBits.toNat_lt
  have hbits : (UInt16.ofNat n * 8 - paddingBits.toUInt16).toNat =
      (2 ^ 16 - paddingBits.toNat + 8 * n) % 2 ^ 16 := by
    rw [UInt16.toNat_sub, UInt16.toNat_mul, UInt16.toNat_ofNat',
      UInt8.toNat_toUInt16, show (8 : UInt16).toNat = 8 from rfl]
    omega
  rw [ReadsBelow, toNat_numberOfBytes, hbits]
  omega

/-- The padding that is announced lies in the bytes that were filled in, or is
no number of bytes; a header leads to no reads at all. -/
def RpsiReadable (residue : Residue) (b : Buffer) (t : Parser) : Prop :=
  t.packetType = .kRtcpPsfbRpsiCode →
    if t.packet.toRpsi.filled = 0 then
      ¬8 ∣ residue.numberOfValidBits.toNat
    else
      ¬8 ∣ (b.data (t.ptr - (t.packet.toRpsi.filled + 2))).toNat ∨
        (b.data (t.ptr - (t.packet.toRpsi.filled + 2))).toNat <
          8 * t.packet.toRpsi.filled

theorem readsBelow_iff (residue : Residue) (hiterate : iterate b fuel s = some t)
    (htype : t.packetType = .kRtcpPsfbRpsiCode) :
    ReadsBelow (t.packet.toRpsi.validBits residue) t.packet.toRpsi.filled ↔
      RpsiReadable residue b t := by
  rw [RpsiReadable, Rpsi.validBits]
  simp only [htype, true_imp_iff]
  split_ifs with hnone
  · rw [ReadsBelow, hnone]
    constructor
    · intro h hdvd
      have hlt := h hdvd
      omega
    · intro h hdvd
      exact absurd hdvd h
  · obtain ⟨u, hu⟩ | hzero := iterate_rpsi hiterate htype
    · obtain ⟨⟨hge, hle⟩, _, hpacket, hptr⟩ := parseRPSIItem_eq_true hu
      have hfilled : t.packet.toRpsi.filled = u.blockEnd - u.ptr - 2 := by
        rw [hpacket]
        exact (List.length_map _).trans List.length_range
      have hat : t.ptr - (t.packet.toRpsi.filled + 2) = u.ptr := by
        omega
      rw [hat, hfilled, ← readsBelow_item (by omega) (by omega), hpacket]
      rfl
    · exact absurd hzero hnone

/-- `HandleRPSI` reads only what was filled in if the padding is readable. -/
theorem handleRPSI_reads {residue : Residue} {info : RTCPPacketInformation}
    {r : RpsiHandled} (hiterate : iterate b fuel s = some t)
    (hhandle : handleRPSI residue b fuel s info = some r) :
    (∀ i ∈ r.reads, 0 ≤ i ∧ i < (r.parser.packet.toRpsi.filled : ℤ)) ↔
      RpsiReadable residue b t := by
  rw [handleRPSI, hiterate, Option.bind_some] at hhandle
  by_cases htype : t.packetType = .kRtcpPsfbRpsiCode
  · rw [if_pos htype] at hhandle
    rw [← readsBelow_iff residue hiterate htype, ReadsBelow]
    dsimp only at hhandle
    split_ifs at hhandle with hbits
    · obtain ⟨u, _, rfl⟩ := Option.map_eq_some_iff.mp hhandle
      rw [mod_eight_ne_zero] at hbits
      constructor
      · intro _ hdvd
        exact absurd hdvd hbits
      · intro _ i hi
        exact absurd hi List.not_mem_nil
    · rw [Option.some_inj] at hhandle
      subst hhandle
      rw [mod_eight_ne_zero, not_not] at hbits
      rw [rpsiReads_iff]
      constructor
      · intro h _
        exact h
      · intro h
        exact h hbits
  · rw [if_neg htype, Option.some_inj] at hhandle
    subst hhandle
    constructor
    · intro _ hrpsi
      exact absurd hrpsi htype
    · intro _ i hi
      exact absurd hi List.not_mem_nil

def MAX_NUMBER_OF_REMB_FEEDBACK_SSRCS : ℕ := 255

def rembExponent (b : Buffer) (i : ℕ) : ℕ := (b.data (i + 1)).toNat / 4

def rembMantissa (b : Buffer) (i : ℕ) : ℕ :=
  (b.data (i + 1)).toNat % 4 * 2 ^ 16 + (b.data (i + 2)).toNat * 2 ^ 8 +
    (b.data (i + 3)).toNat

theorem toNat_shiftLeft_iff {m e : UInt32} :
    (m <<< e).toNat = m.toNat * 2 ^ e.toNat ↔
      m.toNat * 2 ^ e.toNat < 2 ^ 32 := by
  constructor
  · intro h
    rw [← h]
    exact UInt32.toNat_lt _
  · intro hlt
    rw [UInt32.toNat_shiftLeft, Nat.shiftLeft_eq]
    by_cases hzero : m.toNat = 0
    · rw [hzero, Nat.zero_mul, Nat.zero_mul, Nat.zero_mod]
    · have he : e.toNat < 32 := by
        apply (Nat.pow_lt_pow_iff_right (show 1 < 2 by decide)).mp
        exact lt_of_le_of_lt (Nat.le_mul_of_pos_left _ (by omega)) hlt
      rw [Nat.mod_eq_of_lt he, Nat.mod_eq_of_lt hlt]

theorem toNat_exponentBits (x : UInt8) :
    (x >>> 2 &&& 0x3f).toUInt32.toNat = x.toNat / 4 := by
  have hlt := x.toNat_lt
  rw [UInt8.toNat_toUInt32, UInt8.toNat_and, UInt8.toNat_shiftRight,
    show (0x3f : UInt8).toNat = 2 ^ 6 - 1 from rfl,
    Nat.and_two_pow_sub_one_eq_mod,
    show (2 : UInt8).toNat % 8 = 2 from rfl, Nat.shiftRight_eq_div_pow]
  omega

theorem toNat_lowBits (x : UInt8) :
    (x &&& 0x03).toUInt32.toNat = x.toNat % 4 := by
  rw [UInt8.toNat_toUInt32, UInt8.toNat_and]
  exact Nat.and_two_pow_sub_one_eq_mod x.toNat 2

theorem parsePsfbREMBItem_rate (h : parsePsfbREMBItem b s = (t, true)) :
    ∃ rate ssrcs, t.packet = .rembItem rate (b.data s.ptr) ssrcs ∧
      ssrcs.length ≤ MAX_NUMBER_OF_REMB_FEEDBACK_SSRCS ∧
      (rate.toNat = rembMantissa b s.ptr * 2 ^ rembExponent b s.ptr ↔
        rembMantissa b s.ptr * 2 ^ rembExponent b s.ptr < 2 ^ 32) := by
  rw [parsePsfbREMBItem] at h
  dsimp only at h
  split_ifs at h
  · simp [leave] at h
  · simp [leave] at h
  · rw [Prod.mk.injEq] at h
    obtain ⟨rfl, -⟩ := h
    refine ⟨_, _, rfl, ?_, ?_⟩
    · rw [List.length_map, List.length_range]
      have hlt := (b.data s.ptr).toNat_lt
      rw [MAX_NUMBER_OF_REMB_FEEDBACK_SSRCS]
      omega
    · have hexp : ((b.data (s.ptr + 1) >>> 2 &&& 0x3f).toUInt32).toNat =
          rembExponent b s.ptr := toNat_exponentBits _
      have hmantissa :
          (((b.data (s.ptr + 1) &&& 0x03).toUInt32 <<< 16) +
            ((b.data (s.ptr + 2)).toUInt32 <<< 8) +
              (b.data (s.ptr + 3)).toUInt32).toNat =
            rembMantissa b s.ptr := by
        have hlow := toNat_lowBits (b.data (s.ptr + 1))
        have hmid := (b.data (s.ptr + 2)).toNat_lt
        have hend := (b.data (s.ptr + 3)).toNat_lt
        rw [UInt32.toNat_add, UInt32.toNat_add, UInt32.toNat_shiftLeft,
          UInt32.toNat_shiftLeft, hlow, UInt8.toNat_toUInt32,
          UInt8.toNat_toUInt32, show (16 : UInt32).toNat % 32 = 16 from rfl,
          show (8 : UInt32).toNat % 32 = 8 from rfl, Nat.shiftLeft_eq,
          Nat.shiftLeft_eq, rembMantissa]
        omega
      rw [← hexp, ← hmantissa]
      exact toNat_shiftLeft_iff

/-- In any state of the parser, `HandleRPSI` reads what the item filled in
exactly if the padding is readable; an accepted REMB item has few SSRCs, and
its rate is the product exactly if this fits in 32 bits. -/
theorem feedback_inBounds (b : Buffer) :
    (∀ residue fuel s t info r, iterate b fuel s = some t →
      handleRPSI residue b fuel s info = some r →
      ((∀ i ∈ r.reads, 0 ≤ i ∧ i < (r.parser.packet.toRpsi.filled : ℤ)) ↔
        RpsiReadable residue b t)) ∧
    (∀ s t, parsePsfbREMBItem b s = (t, true) →
      ∃ rate ssrcs, t.packet = .rembItem rate (b.data s.ptr) ssrcs ∧
        ssrcs.length ≤ MAX_NUMBER_OF_REMB_FEEDBACK_SSRCS ∧
        (rate.toNat = rembMantissa b s.ptr * 2 ^ rembExponent b s.ptr ↔
          rembMantissa b s.ptr * 2 ^ rembExponent b s.ptr < 2 ^ 32)) :=
  ⟨fun _ _ _ _ _ _ hiterate hhandle => handleRPSI_reads hiterate hhandle,
    fun _ _ hparse => parsePsfbREMBItem_rate hparse⟩

/-- An RPSI with two bytes of its bit string, by the padding it announces. -/
def paddedRpsi (paddingBits : UInt8) : Buffer :=
  .ofList [0x83, 206, 0, 3, 0, 0, 0, 1, 0, 0, 0, 2, paddingBits, 96, 1, 2]

def rpsiHeader (paddingBits : UInt8) : Parser :=
  ((new (paddedRpsi paddingBits) true).iterate
    (paddedRpsi paddingBits) 5).getD (new (paddedRpsi paddingBits) true)

/-- With one byte of padding the first byte is read. -/
theorem feedback_inBounds_padded :
    ∃ r, handleRPSI ⟨0, fun _ => 0⟩ (paddedRpsi 8) 5 (rpsiHeader 8) {} =
        some r ∧
      ∀ i ∈ r.reads, 0 ≤ i ∧ i < (r.parser.packet.toRpsi.filled : ℤ) := by
  obtain ⟨r, hr⟩ := Option.isSome_iff_exists.mp
    (show (handleRPSI ⟨0, fun _ => 0⟩ (paddedRpsi 8) 5 (rpsiHeader 8)
      {}).isSome by decide)
  refine ⟨r, hr, ((feedback_inBounds (paddedRpsi 8)).1 _ _ _ _ _ _
    (Option.some_get (show ((rpsiHeader 8).iterate (paddedRpsi 8) 5).isSome
      by decide)).symm hr).mpr ?_⟩
  unfold RpsiReadable
  decide

/-- With all of the bit string announced as padding, the byte before it is
read. -/
theorem not_forall_rpsi_inBounds :
    ¬∀ b fuel s r, iterate b fuel (new b true) = some s →
      handleRPSI ⟨0, fun _ => 0⟩ b fuel s {} = some r →
      ∀ i ∈ r.reads, 0 ≤ i ∧ i < (r.parser.packet.toRpsi.filled : ℤ) := by
  intro h
  have hreads : (handleRPSI ⟨0, fun _ => 0⟩ (paddedRpsi 16) 5
      (rpsiHeader 16) {}).map (·.reads) = some [-1] := by decide
  obtain ⟨r, hr, hread⟩ := Option.map_eq_some_iff.mp hreads
  have hbounds := h (paddedRpsi 16) 5 (rpsiHeader 16) r rfl hr (-1) (by
    rw [hread]
    exact List.mem_singleton_self _)
  exact absurd hbounds.1 (by decide)

end Parser

end WebrtcWinXp.Rtcp
