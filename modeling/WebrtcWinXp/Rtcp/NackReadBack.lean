import WebrtcWinXp.Rtcp.FeedbackBlocks

/-!
# NACK lists that are read back

A field stands for a sequence number and for the marked ones among the sixteen
that follow it.  The fields that are built stand for the entries of the list
that they used up, and the receiver adds the numbers that they stand for.
-/

namespace WebrtcWinXp.Rtcp

open Support

def Marked (nack bitmask x : UInt16) : Prop :=
  ∃ j < 16, bitmask.toNat.testBit j = true ∧ x = nack + UInt16.ofNat (j + 1)

def StandsFor (field : UInt16 × UInt16) (x : UInt16) : Prop :=
  x = field.1 ∨ Marked field.1 field.2 x

theorem not_marked_zero {nack x : UInt16} : ¬Marked nack 0 x := by
  rintro ⟨j, _, hbit, _⟩
  rw [show (0 : UInt16).toNat = 0 from rfl, Nat.zero_testBit] at hbit
  cases hbit

theorem testBit_setBit (bitmask : UInt16) {k j : ℕ} (hk : k < 16) :
    (bitmask ||| 1 <<< UInt16.ofNat k).toNat.testBit j =
      (bitmask.toNat.testBit j || decide (k = j)) := by
  have hlt : 1 * 2 ^ k < 2 ^ 16 := by
    rw [one_mul]
    exact Nat.pow_lt_pow_right (by decide) hk
  have hshift : ((1 : UInt16) <<< UInt16.ofNat k).toNat = 2 ^ k := by
    rw [UInt16.toNat_shiftLeft, UInt16.toNat_ofNat', Nat.shiftLeft_eq,
      show k % 2 ^ 16 % 16 = k by omega]
    exact (Nat.mod_eq_of_lt hlt).trans (one_mul _)
  rw [UInt16.toNat_or, Nat.testBit_or, hshift, Nat.testBit_two_pow]

theorem marked_setBit {nack bitmask next x : UInt16}
    (h : 0 ≤ nackShift nack next ∧ nackShift nack next ≤ 15) :
    Marked nack (bitmask ||| 1 <<< UInt16.ofNat (nackShift nack next).toNat) x ↔
      Marked nack bitmask x ∨ x = next := by
  obtain ⟨k, hk⟩ : ∃ k : ℕ, (next - nack).toNat = k + 1 :=
    ⟨(next - nack).toNat - 1, by rw [nackShift] at h; omega⟩
  have hshift : (nackShift nack next).toNat = k := by
    rw [nackShift, hk]
    omega
  have hlt : k < 16 := by
    rw [nackShift, hk] at h
    omega
  have hnext : next = nack + UInt16.ofNat (k + 1) := by
    rw [← hk, UInt16.ofNat_toNat, add_sub_cancel]
  rw [hshift]
  constructor
  · rintro ⟨j, hj, hbit, rfl⟩
    rw [testBit_setBit _ hlt, Bool.or_eq_true, decide_eq_true_eq] at hbit
    obtain hbit | rfl := hbit
    · exact .inl ⟨j, hj, hbit, rfl⟩
    · exact .inr hnext.symm
  · rintro (⟨j, hj, hbit, rfl⟩ | rfl)
    · refine ⟨j, hj, ?_, rfl⟩
      rw [testBit_setBit _ hlt, hbit, Bool.true_or]
    · refine ⟨k, hlt, ?_, hnext⟩
      rw [testBit_setBit _ hlt, decide_eq_true rfl, Bool.or_true]

theorem collectBits_marks (nack bitmask : UInt16) (list : List UInt16) :
    ∃ taken, list = taken ++ (collectBits nack bitmask list).2 ∧
      ∀ x, Marked nack (collectBits nack bitmask list).1 x ↔
        Marked nack bitmask x ∨ x ∈ taken := by
  fun_induction collectBits nack bitmask list with
  | case1 bitmask => exact ⟨[], rfl, fun x => by simp⟩
  | case2 bitmask next rest hshift ih =>
    obtain ⟨taken, hlist, hmarked⟩ := ih
    refine ⟨next :: taken, congrArg (next :: ·) hlist, ?_⟩
    intro x
    rw [hmarked, marked_setBit hshift, List.mem_cons, or_assoc]
  | case3 bitmask next rest hshift => exact ⟨[], rfl, fun x => by simp⟩

theorem nackFields_standFor (maxFields : ℕ) (list : List UInt16) :
    ∃ taken, list = taken ++ (nackFields maxFields list).2 ∧
      ∀ x, (∃ field ∈ (nackFields maxFields list).1, StandsFor field x) ↔
        x ∈ taken := by
  fun_induction nackFields maxFields list with
  | case1 list => exact ⟨[], rfl, fun x => by simp⟩
  | case2 => exact ⟨[], rfl, fun x => by simp⟩
  | case3 maxFields nack list bits fields ih =>
    obtain ⟨marked, hmarked, hbits⟩ := collectBits_marks nack 0 list
    obtain ⟨taken, htaken, hfields⟩ := ih
    refine ⟨nack :: (marked ++ taken), ?_, ?_⟩
    · rw [List.cons_append, List.append_assoc, ← htaken, ← hmarked]
    · intro x
      rw [List.exists_mem_cons_iff, hfields, StandsFor, hbits,
        List.mem_cons, List.mem_append]
      simp only [not_marked_zero, false_or, or_assoc]

theorem length_nackFields_le (maxFields : ℕ) (list : List UInt16) :
    (nackFields maxFields list).1.length ≤ maxFields := by
  fun_induction nackFields maxFields list with
  | case1 | case2 => exact Nat.zero_le _
  | case3 maxFields nack list bits fields ih => exact Nat.succ_le_succ ih

theorem nackFields_rest (n : ℕ) (list : List UInt16) (h : list.length ≤ n) :
    (nackFields n list).2 = [] := by
  fun_induction nackFields n list with
  | case1 list => exact List.length_eq_zero_iff.mp (Nat.le_zero.mp h)
  | case2 => rfl
  | case3 n nack list bits fields ih =>
    apply ih
    exact le_trans (length_collectBits nack 0 list) (Nat.le_of_succ_le_succ h)

/-- The fields that the list needs when nothing limits them. -/
def fieldsNeeded (list : List UInt16) : ℕ :=
  (nackFields list.length list).1.length

theorem nackFields_of_length_le {n : ℕ} {list : List UInt16}
    (hrest : (nackFields n list).2 = []) :
    ∀ maxFields, (nackFields n list).1.length ≤ maxFields →
      (nackFields maxFields list).2 = [] := by
  fun_induction nackFields n list with
  | case1 list =>
    rintro maxFields -
    rw [show list = [] from hrest]
    cases maxFields <;> rfl
  | case2 =>
    rintro maxFields -
    cases maxFields <;> rfl
  | case3 n nack list bits fields ih =>
    intro maxFields hle
    rw [List.length_cons] at hle
    obtain ⟨k, rfl⟩ : ∃ k, maxFields = k + 1 := ⟨maxFields - 1, by omega⟩
    exact ih hrest k (Nat.le_of_succ_le_succ hle)

/-! ## Fields that are received -/

namespace RTCPPacketInformation

variable {info : RTCPPacketInformation} {packetId bitMask x : UInt16}

theorem testBit_shiftRight_one (j : ℕ) :
    (bitMask >>> 1).toNat.testBit j = bitMask.toNat.testBit (j + 1) := by
  rw [UInt16.toNat_shiftRight, show (1 : UInt16).toNat % 16 = 1 from rfl,
    Nat.testBit_shiftRight, Nat.add_comm]

theorem and_one_ne_zero :
    bitMask &&& 0x01 ≠ 0 ↔ bitMask.toNat.testBit 0 = true := by
  rw [Ne, ← UInt16.toNat_inj, UInt16.toNat_and, Nat.testBit_zero,
    decide_eq_true_eq, show (0x01 : UInt16).toNat = 1 from rfl,
    Nat.and_one_is_mod, show (0 : UInt16).toNat = 0 from rfl]
  omega

/-- Numbers are only added, at most `n` of them and those that satisfy `P`. -/
def Adds (info info' : RTCPPacketInformation) (n : ℕ) (P : UInt16 → Prop) :
    Prop :=
  info'.nackSequenceNumbers.length ≤ info.nackSequenceNumbers.length + n ∧
    ∀ x, x ∈ info'.nackSequenceNumbers ↔
      x ∈ info.nackSequenceNumbers ∨ P x

theorem Adds.trans {info₁ info₂ info₃ : RTCPPacketInformation} {m n : ℕ}
    {P Q : UInt16 → Prop} (h : Adds info₁ info₂ m P) (h' : Adds info₂ info₃ n Q) :
    Adds info₁ info₃ (m + n) fun x => P x ∨ Q x := by
  refine ⟨?_, ?_⟩
  · have hfirst := h.1
    have hsecond := h'.1
    omega
  · intro x
    rw [h'.2, h.2, or_assoc]

theorem Adds.congr {info info' : RTCPPacketInformation} {n : ℕ}
    {P Q : UInt16 → Prop} (h : Adds info info' n P) (hiff : ∀ x, P x ↔ Q x) :
    Adds info info' n Q :=
  ⟨h.1, fun x => (h.2 x).trans (or_congr Iff.rfl (hiff x))⟩

theorem adds_none (info : RTCPPacketInformation) (n : ℕ) {P : UInt16 → Prop}
    (h : ∀ x, ¬P x) : Adds info info n P :=
  ⟨Nat.le_add_right _ n, fun x => (or_iff_left (h x)).symm⟩

theorem adds_addNACKPacket (packetId : UInt16)
    (h : info.nackSequenceNumbers.length < kSendSideNackListSizeSanity) :
    Adds info (info.addNACKPacket packetId) 1 (· = packetId) := by
  rw [Adds, addNACKPacket, if_neg (Nat.not_le.mpr h)]
  refine ⟨?_, ?_⟩
  · rw [List.length_append, List.length_singleton]
  · intro x
    rw [List.mem_append, List.mem_singleton]

theorem adds_addBits (packetId bitMask : UInt16) {n i : ℕ}
    (h : info.nackSequenceNumbers.length + n ≤ kSendSideNackListSizeSanity) :
    Adds info (addBits packetId n i bitMask info) n fun x =>
      ∃ j < n, bitMask.toNat.testBit j = true ∧
        x = packetId + UInt16.ofNat (i + j) := by
  induction n generalizing i bitMask info with
  | zero =>
    refine adds_none info 0 ?_
    rintro x ⟨j, hj, _⟩
    exact absurd hj (Nat.not_lt_zero _)
  | succ n ih =>
    have hround : Adds info
        (if bitMask &&& 0x01 ≠ 0 then
          info.addNACKPacket (packetId + UInt16.ofNat i) else info) 1
        fun x => bitMask.toNat.testBit 0 = true ∧
          x = packetId + UInt16.ofNat i := by
      by_cases hbit : bitMask.toNat.testBit 0 = true
      · rw [if_pos (and_one_ne_zero.mpr hbit)]
        exact (adds_addNACKPacket _ (by omega)).congr fun x =>
          (and_iff_right hbit).symm
      · rw [if_neg (mt and_one_ne_zero.mp hbit)]
        exact adds_none info 1 fun x hx => hbit hx.1
    have hrest := hround.1
    rw [addBits, Nat.add_comm n 1]
    refine (hround.trans (ih (bitMask >>> 1) (by omega))).congr ?_
    intro x
    constructor
    · rintro (⟨hbit, rfl⟩ | ⟨j, hj, hbit, rfl⟩)
      · exact ⟨0, by omega, hbit, rfl⟩
      · rw [testBit_shiftRight_one] at hbit
        refine ⟨j + 1, by omega, hbit, ?_⟩
        rw [Nat.add_assoc, Nat.add_comm 1 j]
    · rintro ⟨j, hj, hbit, rfl⟩
      cases j with
      | zero => exact .inl ⟨hbit, rfl⟩
      | succ j =>
        refine .inr ⟨j, by omega, ?_, ?_⟩
        · rw [testBit_shiftRight_one]
          exact hbit
        · rw [Nat.add_assoc, Nat.add_comm 1 j]

theorem adds_handleNACKItem (packetId bitMask : UInt16)
    (h : info.nackSequenceNumbers.length + 17 ≤ kSendSideNackListSizeSanity) :
    Adds info (info.handleNACKItem packetId bitMask) 17
      (StandsFor (packetId, bitMask)) := by
  have hfirst := adds_addNACKPacket packetId
    (show info.nackSequenceNumbers.length < _ by omega)
  have hroom := hfirst.1
  refine Adds.congr (n := 1 + 16)
    (hfirst.trans (Q := Marked packetId bitMask) ?_) fun x => Iff.rfl
  by_cases hmask : bitMask = 0
  · rw [hmask]
    exact adds_none _ 16 fun x => not_marked_zero
  · have hbits := adds_addBits packetId bitMask (i := 1)
      (show (info.addNACKPacket packetId).nackSequenceNumbers.length +
        16 ≤ kSendSideNackListSizeSanity by omega)
    have hhandle : (info.handleNACKItem packetId bitMask).nackSequenceNumbers =
        (addBits packetId 16 1 bitMask
          (info.addNACKPacket packetId)).nackSequenceNumbers := by
      rw [handleNACKItem]
      dsimp only
      rw [if_pos hmask]
    rw [Adds, hhandle]
    refine hbits.congr ?_
    intro x
    simp only [Marked, Nat.add_comm 1]

end RTCPPacketInformation

namespace Parser

variable {b : Buffer} {s : Parser} {i blockEnd : ℕ}

open RTCPPacketInformation in
/-- The loop over the items ends behind the last one, and has added the numbers
that the items stand for. -/
theorem handleNACKItems_adds {fuel : ℕ} (fields : List (UInt16 × UInt16))
    {info : RTCPPacketInformation} (hs : s.At .rtpfbNackItem i blockEnd)
    (hholds : b.Holds i (fields.flatMap fun field =>
      assignUWord16 field.1 ++ assignUWord16 field.2))
    (hend : blockEnd = i + 4 * fields.length) (hsize : b.size < blockEnd + 4)
    (hroom : info.nackSequenceNumbers.length + 17 * fields.length ≤
      kSendSideNackListSizeSanity) (hfuel : fields.length + 4 ≤ fuel) :
    ∃ t info', handleNACKItems b fuel s info = some (t, info') ∧
      t.packetType = .kRtcpNotValidCode ∧
      Adds info info' (17 * fields.length) fun x =>
        ∃ field ∈ fields, StandsFor field x := by
  induction fields generalizing s info fuel i with
  | nil =>
    obtain ⟨fuel, rfl⟩ : ∃ k, fuel = k + 4 :=
      ⟨fuel - 4, by rw [List.length_nil] at hfuel; omega⟩
    rw [List.length_nil, Nat.mul_zero, Nat.add_zero] at hend
    subst hend
    obtain ⟨t, ht, htype⟩ := iterate_nack_end fuel hs hsize
    refine ⟨t, info, ?_, htype, adds_none info _ fun x => by simp⟩
    rw [handleNACKItems, ht, Option.bind_some, htype]
    rfl
  | cons field fields ih =>
    rw [List.length_cons] at hend hroom hfuel
    rw [List.flatMap_cons, List.append_assoc, Buffer.holds_append,
      Buffer.holds_append, Buffer.length_assignUWord16,
      Buffer.length_assignUWord16] at hholds
    obtain ⟨hid, hmask, hrest⟩ := hholds
    obtain ⟨fuel, rfl⟩ : ∃ k, fuel = k + 2 := ⟨fuel - 2, by omega⟩
    obtain ⟨t, ht, hat, htype, hpacket⟩ :=
      iterate_nackItem (b := b) fuel hs (by omega)
    rw [hid.u16, hmask.u16] at hpacket
    have hadds := adds_handleNACKItem field.1 field.2
      (show info.nackSequenceNumbers.length + 17 ≤ _ by omega)
    have hroom' := hadds.1
    obtain ⟨u, info', hu, hutype, hadds'⟩ := ih hat hrest (by omega)
      (show (info.handleNACKItem field.1 field.2).nackSequenceNumbers.length +
        17 * fields.length ≤ _ by omega)
      (show fields.length + 4 ≤ fuel + 1 by omega)
    refine ⟨u, info', ?_, hutype, ?_⟩
    · rw [handleNACKItems, ht, Option.bind_some, if_pos htype, hpacket]
      exact hu
    · rw [List.length_cons, Nat.mul_add, Nat.add_comm]
      refine (hadds.trans hadds').congr ?_
      intro x
      rw [List.exists_mem_cons_iff]

end Parser

namespace RTCPSender

theorem byte_header (fmt pt : UInt8) {n : ℕ} (h : n ≤ 255) :
    [0x80 + fmt, pt, 0, UInt8.ofNat n] =
      feedbackHeader fmt pt (UInt16.ofNat n) := by
  have hn : (UInt16.ofNat n).toNat = n := by
    rw [UInt16.toNat_ofNat']
    omega
  have hhigh : n / 256 = 0 := by omega
  rw [feedbackHeader, assignUWord16, hn, toBE, toBE, toBE, hhigh]
  rfl

variable {sender : RTCPSender} {pos m : ℕ} {nackList : List UInt16}
  {bytes : List UInt8}

/-- The fields that are written behind the position. -/
def fieldsAt (pos : ℕ) (nackList : List UInt16) : List (UInt16 × UInt16) :=
  (nackFields (maxNackFields (pos + 12)) nackList).1

theorem length_fieldsAt_le (pos : ℕ) (nackList : List UInt16) :
    (fieldsAt pos nackList).length ≤ 253 :=
  le_trans (length_nackFields_le _ nackList) (min_le_left _ _)

theorem buildNACK_eq_some (h : sender.buildNACK pos nackList = some (bytes, m)) :
    bytes = feedbackHeader 1 205
          (UInt16.ofNat (2 + (fieldsAt pos nackList).length)) ++
        (assignUWord32 sender.ssrc ++ assignUWord32 sender.remoteSsrc) ++
        (fieldsAt pos nackList).flatMap (fun field =>
          assignUWord16 field.1 ++ assignUWord16 field.2) ∧
      m = nackList.length -
        (nackFields (maxNackFields (pos + 12)) nackList).2.length := by
  have hle := length_fieldsAt_le pos nackList
  rw [buildNACK] at h
  split_ifs at h with hpos
  rw [Option.some_inj, Prod.mk.injEq] at h
  obtain ⟨rfl, rfl⟩ := h
  refine ⟨?_, rfl⟩
  rw [← byte_header 1 205 (by omega)]
  rfl

theorem mem_take_iff (h : sender.buildNACK pos nackList = some (bytes, m))
    (x : UInt16) :
    (∃ field ∈ fieldsAt pos nackList, StandsFor field x) ↔
      x ∈ nackList.take m := by
  obtain ⟨taken, hlist, hfields⟩ :=
    nackFields_standFor (maxNackFields (pos + 12)) nackList
  have hm : m = taken.length := by
    have hlength := congrArg List.length hlist
    rw [List.length_append] at hlength
    rw [(buildNACK_eq_some h).2]
    omega
  have htake : nackList.take m = taken := by
    rw [hlist, hm, List.take_left]
  rw [htake]
  exact hfields x

theorem eq_length_of_fit (h : sender.buildNACK pos nackList = some (bytes, m))
    (hfields : fieldsNeeded nackList ≤ kRtcpMaxNackFields)
    (hroom : pos + 12 + 4 * fieldsNeeded nackList ≤ IP_PACKET_SIZE) :
    m = nackList.length := by
  have hmax : fieldsNeeded nackList ≤ maxNackFields (pos + 12) := by
    rw [maxNackFields]
    omega
  rw [(buildNACK_eq_some h).2,
    nackFields_of_length_le (nackFields_rest _ nackList le_rfl) _ hmax]
  rfl

theorem length_flatMap_fields (fields : List (UInt16 × UInt16)) :
    (fields.flatMap fun field =>
      assignUWord16 field.1 ++ assignUWord16 field.2).length =
      4 * fields.length := by
  induction fields with
  | nil => rfl
  | cons field fields ih =>
    rw [List.flatMap_cons, List.length_append, ih, List.length_append,
      Buffer.length_assignUWord16, Buffer.length_assignUWord16,
      List.length_cons]
    omega

/-- The receiver of a packet that ends with the NACK gets the entries that were
used up; these are all entries if the fields for them fit.  The length byte is
that of the fields. -/
theorem nack_readBack
    (h : sender.buildNACK pos nackList = some (bytes, m)) {b : Buffer}
    {s : Parser} {blockEnd fuel : ℕ} (hs : s.At .topLevel pos blockEnd)
    (hholds : b.Holds pos bytes) (hsize : b.size = pos + bytes.length)
    (hfuel : kRtcpMaxNackFields + 4 ≤ fuel) (info : RTCPPacketInformation) :
    (∃ t u info', s.iterate b fuel = some t ∧
      t.packetType = .kRtcpRtpfbNackCode ∧
      t.packet = .nack sender.ssrc sender.remoteSsrc ∧
      handleNACK b fuel t info = some (u, info') ∧
      u.packetType = .kRtcpNotValidCode ∧
      ∀ x, x ∈ info'.nackSequenceNumbers ↔ x ∈ nackList.take m) ∧
    (fieldsNeeded nackList ≤ kRtcpMaxNackFields →
      pos + 12 + 4 * fieldsNeeded nackList ≤ IP_PACKET_SIZE →
      m = nackList.length) ∧
    ∃ n, bytes.length = 12 + 4 * n ∧ (bytes.getD 3 0).toNat = 2 + n := by
  obtain ⟨hbytes, -⟩ := buildNACK_eq_some h
  have hle := length_fieldsAt_le pos nackList
  have hlength : bytes.length = 12 + 4 * (fieldsAt pos nackList).length := by
    rw [hbytes, List.length_append, length_flatMap_fields]
    rfl
  have hn : (UInt16.ofNat (2 + (fieldsAt pos nackList).length)).toNat =
      2 + (fieldsAt pos nackList).length := by
    rw [UInt16.toNat_ofNat']
    omega
  rw [kRtcpMaxNackFields] at hfuel
  refine ⟨?_, eq_length_of_fit h, _, hlength, ?_⟩
  · rw [hbytes, Buffer.holds_append] at hholds
    obtain ⟨hheader, hfields⟩ := hholds
    obtain ⟨fuel, rfl⟩ : ∃ k, fuel = k + 2 := ⟨fuel - 2, by omega⟩
    obtain ⟨t, ht, hat, htype, hpacket⟩ :=
      Parser.iterate_feedback fuel Parser.starts_nack (.inl rfl) (by decide)
        ⟨by omega, by omega⟩ hs hheader (by omega)
    have hroom : ({ info with nackSequenceNumbers := [] } :
        RTCPPacketInformation).nackSequenceNumbers.length +
          17 * (fieldsAt pos nackList).length ≤
        kSendSideNackListSizeSanity := by
      rw [kSendSideNackListSizeSanity]
      simp only [List.length_nil]
      omega
    obtain ⟨u, info', hu, hutype, -, hmem⟩ :=
      Parser.handleNACKItems_adds (fieldsAt pos nackList) hat hfields
        (by omega) (by omega) hroom
        (show (fieldsAt pos nackList).length + 4 ≤ fuel + 2 by omega)
    refine ⟨t, u, info', ht, htype, hpacket, hu, hutype, ?_⟩
    intro x
    rw [hmem, or_iff_right List.not_mem_nil]
    exact mem_take_iff h x
  · have hbyte : bytes.getD 3 0 =
        UInt8.ofNat (2 + (fieldsAt pos nackList).length) := by
      rw [hbytes, ← byte_header 1 205 (by omega)]
      rfl
    rw [hbyte, UInt8.toNat_ofNat']
    omega

/-- A list across the wrap, with an entry that stands apart. -/
def wrappedNack : List UInt8 :=
  [0x81, 205, 0, 4, 0, 0, 0, 1, 0, 0, 0, 2, 0xff, 0xfe, 0, 5, 0, 20, 0, 0]

theorem nack_readBack_wrapped :
    ∃ t u info', (Parser.new (.ofList wrappedNack) true).iterate
        (.ofList wrappedNack) 257 = some t ∧
      handleNACK (.ofList wrappedNack) 257 t {} = some (u, info') ∧
      ∀ x, x ∈ info'.nackSequenceNumbers ↔ x ∈ [65534, 65535, 1, 20] := by
  have hbuild : (RTCPSender.mk 1 2 [] 0 0 0).buildNACK 0
      [65534, 65535, 1, 20] = some (wrappedNack, 4) := by decide
  have hs : (Parser.new (.ofList wrappedNack) true).At .topLevel 0 0 :=
    ⟨by decide, rfl, rfl, rfl⟩
  obtain ⟨⟨t, u, info', ht, -, -, hu, -, hmem⟩, -⟩ := nack_readBack hbuild hs
    (show (Buffer.ofList wrappedNack).Holds 0 wrappedNack by decide) rfl
    (show kRtcpMaxNackFields + 4 ≤ 257 by decide) {}
  exact ⟨t, u, info', ht, hu, hmem⟩

end RTCPSender

end WebrtcWinXp.Rtcp
