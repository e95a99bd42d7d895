import WebrtcWinXp.Fec.MaskTable

/-!
# Zero columns for gaps

The columns of the generated masks stand for consecutive media packets, those
of a mask that is sent for consecutive sequence numbers.
`InsertZerosInBitMasks` moves the columns apart where sequence numbers are
missing.
-/

namespace WebrtcWinXp.Fec

open Support

/-- The distance of a packet from a sequence number. -/
def offset (base : UInt16) (p : Packet) : ℕ := (p.seqNum - base).toNat

/-- Media packets whose sequence numbers increase and span fewer than
`kMaxMediaPackets`.  Each of them fits into its array. -/
structure MediaBatch where
  first : Packet
  rest : List Packet
  increasing : ((first :: rest).map (offset first.seqNum)).Pairwise (· < ·)
  span : ∀ p ∈ first :: rest, offset first.seqNum p < kMaxMediaPackets
  length_le : ∀ p ∈ first :: rest, p.length ≤ IP_PACKET_SIZE

namespace MediaBatch

def packets (batch : MediaBatch) : List Packet := batch.first :: batch.rest

/-- The sequence number that all FEC packets of the batch are based on. -/
def base (batch : MediaBatch) : UInt16 := batch.first.seqNum

/-- The distances of the packets from the first one. -/
def offsets (batch : MediaBatch) : List ℕ :=
  batch.packets.map (offset batch.base)

end MediaBatch

/-! ## The columns of a mask -/

/-- A bit of a mask row, and the bytes of the row. -/
structure BitAccess where
  bitIndex : ℕ
  rowBytes : ℕ

def BitAccess.Inside (a : BitAccess) : Prop := a.bitIndex / 8 < a.rowBytes

def insertZeroColumns (numZeros : ℕ) (newMask : ℕ → UInt8)
    (newMaskBytes numFecPackets newBitIndex : ℕ) : ℕ → UInt8 :=
  updateColumn newMaskBytes numFecPackets (newBitIndex / 8)
    (fun _ byte =>
      byte <<< UInt8.ofNat (min numZeros (7 - newBitIndex % 8)))
    newMask

/-- `CopyColumn`: the new and the old mask after it. -/
def copyColumn (newMask : ℕ → UInt8) (newMaskBytes : ℕ) (oldMask : ℕ → UInt8)
    (oldMaskBytes numFecPackets newBitIndex oldBitIndex : ℕ) :
    (ℕ → UInt8) × (ℕ → UInt8) :=
  (updateColumn newMaskBytes numFecPackets (newBitIndex / 8)
    (fun row byte =>
      let old := oldMask (row * oldMaskBytes + oldBitIndex / 8)
      let byte := byte ||| ((old &&& 0x80) >>> 7)
      if newBitIndex % 8 ≠ 7 then byte <<< 1 else byte)
    newMask,
  updateColumn oldMaskBytes numFecPackets (oldBitIndex / 8)
    (fun _ byte => byte <<< 1) oldMask)

/-- The variables of `InsertZerosInBitMasks`, and the bits it has used. -/
structure Insertion where
  newMask : ℕ → UInt8
  packetMask : ℕ → UInt8
  newBitIndex : ℕ
  oldBitIndex : ℕ
  prevSeqNum : UInt16
  touched : List BitAccess

/-- What the loop of `InsertZerosInBitMasks` does with a packet. -/
def insertZerosStep (numMaskBytes newMaskBytes numFecPackets : ℕ)
    (s : Insertion) (p : Packet) : Insertion :=
  let seqNum := p.seqNum
  let zerosToInsert := (seqNum - s.prevSeqNum - 1).toNat
  let newMask :=
    if zerosToInsert > 0 then
      insertZeroColumns zerosToInsert s.newMask newMaskBytes numFecPackets
        s.newBitIndex
    else s.newMask
  let newBitIndex := s.newBitIndex + zerosToInsert
  let copied :=
    copyColumn newMask newMaskBytes s.packetMask numMaskBytes numFecPackets
      newBitIndex s.oldBitIndex
  -- Without a gap, the first two uses are the same one.
  { newMask := copied.1
    packetMask := copied.2
    newBitIndex := newBitIndex + 1
    oldBitIndex := s.oldBitIndex + 1
    prevSeqNum := seqNum
    touched := s.touched ++
      [⟨s.newBitIndex, newMaskBytes⟩, ⟨newBitIndex, newMaskBytes⟩,
        ⟨s.oldBitIndex, numMaskBytes⟩] }

/-- The loop of `InsertZerosInBitMasks` over the packets after the first. -/
def insertZerosLoop (numMaskBytes newMaskBytes numFecPackets : ℕ) :
    List Packet → Insertion → Insertion
  | [], s => s
  | p :: rest, s =>
    if s.newBitIndex = 8 * kMaskSizeLBitSet then s
    else
      insertZerosLoop numMaskBytes newMaskBytes numFecPackets rest
        (insertZerosStep numMaskBytes newMaskBytes numFecPackets s p)

/-- What `InsertZerosInBitMasks` leaves in `packet_mask` and returns, and the
bits it has used. -/
structure Inserted where
  packetMask : ℕ → UInt8
  numMaskBits : ℕ
  touched : List BitAccess

/-- `InsertZerosInBitMasks` before its loop: the column of the first packet is
copied. -/
def insertFirstColumn (first : Packet) (packetMask : ℕ → UInt8)
    (numMaskBytes newMaskBytes numFecPackets : ℕ) : Insertion :=
  let copied :=
    copyColumn (fun _ => 0) newMaskBytes packetMask numMaskBytes numFecPackets
      0 0
  { newMask := copied.1
    packetMask := copied.2
    newBitIndex := 1
    oldBitIndex := 1
    prevSeqNum := first.seqNum
    touched := [⟨0, newMaskBytes⟩, ⟨0, numMaskBytes⟩] }

/-- `InsertZerosInBitMasks` from the allocation of the new mask on. -/
def insertColumns (first : Packet) (rest : List Packet)
    (packetMask : ℕ → UInt8) (numMaskBytes newMaskBytes numFecPackets : ℕ) :
    Inserted :=
  let s := insertZerosLoop numMaskBytes newMaskBytes numFecPackets rest
    (insertFirstColumn first packetMask numMaskBytes newMaskBytes numFecPackets)
  let newMask :=
    if s.newBitIndex % 8 ≠ 0 then
      updateColumn newMaskBytes numFecPackets (s.newBitIndex / 8)
        (fun _ byte => byte <<< UInt8.ofNat (7 - s.newBitIndex % 8)) s.newMask
    else s.newMask
  let touched :=
    if s.newBitIndex % 8 ≠ 0 then
      s.touched ++ [⟨s.newBitIndex, newMaskBytes⟩]
    else s.touched
  ⟨memcpy s.packetMask 0 newMask (kMaskSizeLBitSet * numFecPackets),
    s.newBitIndex, touched⟩

/-- `InsertZerosInBitMasks` for the packets `first :: rest`. -/
def insertZerosInBitMasks (first : Packet) (rest : List Packet)
    (packetMask : ℕ → UInt8) (numMaskBytes numFecPackets : ℕ) : Inserted :=
  let size := (first :: rest).length
  if size ≤ 1 then ⟨packetMask, size, []⟩
  else
    let lastSeqNum := ((first :: rest).getLast (List.cons_ne_nil _ _)).seqNum
    let firstSeqNum := first.seqNum
    let totalMissingSeqNums : ℤ := (lastSeqNum - firstSeqNum).toNat - size + 1
    if totalMissingSeqNums = 0 then ⟨packetMask, size, []⟩
    else
      insertColumns first rest packetMask numMaskBytes
        (maskSize (size + totalMissingSeqNums > 8 * kMaskSizeLBitClear))
        numFecPackets

/-! ## One row -/

/-- The byte that holds the columns from `8 * b` to `n - 1`, aligned so that
one more column can be added at its right end. -/
def Holds (byte : UInt8) (f : ℕ → Bool) (n : ℕ) : Prop :=
  ∀ i < 8, bit byte i =
    (decide (1 ≤ i) && (decide (i ≤ n % 8) && f (n - i)))

/-- The byte that holds the columns from `8 * b` to `8 * b + 7`. -/
def Full (byte : UInt8) (f : ℕ → Bool) (b : ℕ) : Prop :=
  ∀ p < 8, bit byte (7 - p) = f (8 * b + p)

/-- A new row of `width` bytes, of which the first `n` columns are there. -/
structure Columns (mem : ℕ → UInt8) (pos width : ℕ) (f : ℕ → Bool) (n : ℕ) :
    Prop where
  full : ∀ b < n / 8, b < width → Full (mem (pos + b)) f b
  holds : n / 8 < width → Holds (mem (pos + n / 8)) f n
  later : ∀ b, n / 8 < b → b < width → mem (pos + b) = 0

/-- An old row of which the first `k` columns are shifted out. -/
structure Shifted (mem orig : ℕ → UInt8) (pos width k : ℕ) : Prop where
  current : k / 8 < width → ∀ i < 8, bit (mem (pos + k / 8)) i =
    (decide (k % 8 ≤ i) && bit (orig (pos + k / 8)) (i - k % 8))
  later : ∀ b, k / 8 < b → b < width → mem (pos + b) = orig (pos + b)

variable {f : ℕ → Bool} {byte : UInt8} {n z : ℕ}

theorem holds_zero (h : n % 8 = 0) : Holds 0 f n := by
  intro i hi
  rw [bit_zero, h]
  by_cases hle : i ≤ 0
  · rw [decide_eq_false (show ¬1 ≤ i by omega), Bool.false_and]
  · rw [decide_eq_false hle, Bool.false_and, Bool.and_false]

theorem Holds.shift (h : Holds byte f n) (hz : z ≤ 7 - n % 8)
    (hf : ∀ c, n ≤ c → c < n + z → f c = false) :
    Holds (byte <<< UInt8.ofNat z) f (n + z) := by
  intro i hi
  have hmod : (n + z) % 8 = n % 8 + z := by omega
  rw [bit_shiftLeft byte (by omega) i, decide_eq_true hi, Bool.true_and, hmod]
  by_cases hzi : z ≤ i
  · rw [decide_eq_true hzi, Bool.true_and, h (i - z) (by omega)]
    by_cases h1 : 1 ≤ i - z
    · rw [show n + z - i = n - (i - z) by omega]
      simp only [decide_eq_true h1, decide_eq_true (show 1 ≤ i by omega)]
      rw [decide_eq_decide.mpr (show i - z ≤ n % 8 ↔ i ≤ n % 8 + z by omega)]
    · rw [decide_eq_false h1, Bool.false_and]
      by_cases hi0 : 1 ≤ i
      · rw [hf (n + z - i) (by omega) (by omega), Bool.and_false,
          Bool.and_false]
      · rw [decide_eq_false hi0, Bool.false_and]
  · rw [decide_eq_false hzi, Bool.false_and]
    by_cases hi0 : 1 ≤ i
    · rw [hf (n + z - i) (by omega) (by omega), Bool.and_false,
        Bool.and_false]
    · rw [decide_eq_false hi0, Bool.false_and]

theorem Holds.fill (h : Holds byte f n) (hz : 7 - n % 8 < z)
    (hf : ∀ c, n ≤ c → c < n + z → f c = false) :
    Full (byte <<< UInt8.ofNat (7 - n % 8)) f (n / 8) := by
  intro p hp
  rw [bit_shiftLeft byte (by omega), decide_eq_true (by omega), Bool.true_and]
  by_cases hpn : p < n % 8
  · rw [decide_eq_true (by omega), Bool.true_and, h _ (by omega),
      decide_eq_true (by omega), decide_eq_true (by omega), Bool.true_and,
      Bool.true_and]
    congr 1
    omega
  · rw [hf (8 * (n / 8) + p) (by omega) (by omega)]
    by_cases hle : 7 - n % 8 ≤ 7 - p
    · rw [h _ (by omega), decide_eq_false (show ¬1 ≤ 7 - p - (7 - n % 8) by omega),
        Bool.false_and, Bool.and_false]
    · rw [decide_eq_false hle, Bool.false_and]

theorem Holds.copy (h : Holds byte f n) (hn : n % 8 ≠ 7) {top : UInt8}
    (htop : bit top 7 = f n) :
    Holds ((byte ||| ((top &&& 0x80) >>> 7)) <<< 1) f (n + 1) := by
  intro i hi
  have hmod : (n + 1) % 8 = n % 8 + 1 := by omega
  have hone : (1 : UInt8) = UInt8.ofNat 1 := rfl
  rw [hone, bit_shiftLeft _ (by omega) i, decide_eq_true hi, Bool.true_and, hmod]
  by_cases h1 : 1 ≤ i
  · rw [decide_eq_true h1, Bool.true_and, Bool.true_and, bit_or, bit_topBit,
      h (i - 1) (by omega), htop]
    by_cases hi1 : i = 1
    · subst hi1
      simp
    · rw [decide_eq_true (show 1 ≤ i - 1 by omega),
        decide_eq_false (show ¬i - 1 = 0 by omega), Bool.true_and,
        Bool.false_and, Bool.or_false, show n - (i - 1) = n + 1 - i by omega,
        decide_eq_decide.mpr (show i - 1 ≤ n % 8 ↔ i ≤ n % 8 + 1 by omega)]
  · rw [decide_eq_false h1, Bool.false_and, Bool.false_and]

theorem Holds.copyLast (h : Holds byte f n) (hn : n % 8 = 7) {top : UInt8}
    (htop : bit top 7 = f n) :
    Full (byte ||| ((top &&& 0x80) >>> 7)) f (n / 8) := by
  intro p hp
  rw [bit_or, bit_topBit, h (7 - p) (by omega), htop]
  by_cases hp7 : p = 7
  · subst hp7
    rw [show 8 * (n / 8) + 7 = n by omega]
    simp
  · rw [decide_eq_true (by omega), decide_eq_true (by omega),
      decide_eq_false (show ¬7 - p = 0 by omega), Bool.true_and, Bool.true_and,
      Bool.false_and, Bool.or_false]
    congr 1
    omega

section Rows

variable {mem orig old : ℕ → UInt8} {width oldWidth numFec row k : ℕ}

theorem columns_zero : Columns (fun _ => 0) (row * width) width f 0 where
  full _ hb := absurd hb (Nat.not_lt_zero _)
  holds _ := holds_zero rfl
  later _ _ _ := rfl

theorem shifted_zero : Shifted old old (row * width) width 0 where
  current _ i _ := by simp
  later _ _ _ := rfl

/-- `InsertZeroColumns` adds columns in which no bit is set. -/
theorem Columns.insertZeros (h : Columns mem (row * width) width f n)
    (hrow : row < numFec) (hn : n / 8 < width)
    (hf : ∀ c, n ≤ c → c < n + z → f c = false) :
    Columns (insertZeroColumns z mem width numFec n) (row * width) width f
      (n + z) := by
  have hget : ∀ b, b < width →
      insertZeroColumns z mem width numFec n (row * width + b) =
        if b = n / 8 then
          mem (row * width + b) <<< UInt8.ofNat (min z (7 - n % 8))
        else mem (row * width + b) := by
    intro b hb
    rw [insertZeroColumns, updateColumn_row hn _ _ _ hb]
    simp only [hrow, true_and]
  rcases Nat.lt_or_ge (7 - n % 8) z with hz | hz
  · rw [min_eq_right (by omega)] at hget
    constructor
    · intro b hb hbw
      rw [hget b hbw]
      rcases Nat.lt_trichotomy b (n / 8) with hlt | heq | hgt
      · rw [if_neg (by omega)]
        exact h.full b hlt hbw
      · subst heq
        rw [if_pos rfl]
        exact (h.holds hn).fill hz hf
      · rw [if_neg (by omega), h.later b hgt hbw]
        intro p hp
        rw [bit_zero, hf (8 * b + p) (by omega) (by omega)]
    · intro hb
      rw [hget _ hb, if_neg (by omega), h.later _ (by omega) hb]
      intro i hi
      rw [bit_zero]
      by_cases hin : 1 ≤ i ∧ i ≤ (n + z) % 8
      · rw [hf (n + z - i) (by omega) (by omega), Bool.and_false,
          Bool.and_false]
      · by_cases h1 : 1 ≤ i
        · rw [decide_eq_false (show ¬i ≤ (n + z) % 8 by omega), Bool.false_and,
            Bool.and_false]
        · rw [decide_eq_false h1, Bool.false_and]
    · intro b hb hbw
      rw [hget b hbw, if_neg (by omega)]
      exact h.later b (by omega) hbw
  · rw [min_eq_left hz] at hget
    have hdiv : (n + z) / 8 = n / 8 := by omega
    constructor
    · intro b hb hbw
      rw [hget b hbw, if_neg (by omega)]
      exact h.full b (by omega) hbw
    · intro hb
      rw [hdiv] at hb ⊢
      rw [hget _ hb, if_pos rfl]
      exact (h.holds hn).shift hz hf
    · intro b hb hbw
      rw [hget b hbw, if_neg (by omega)]
      exact h.later b (by omega) hbw

/-- The bit that `CopyColumn` reads from the old mask. -/
theorem Shifted.bit_top (h : Shifted old orig (row * oldWidth) oldWidth k)
    (hk : k / 8 < oldWidth) :
    bit (old (row * oldWidth + k / 8)) 7 = maskBit orig (row * oldWidth) k := by
  rw [h.current hk 7 (by omega), decide_eq_true (by omega), Bool.true_and,
    maskBit]

/-- `CopyColumn` shifts one column out of the old mask. -/
theorem Shifted.copy (h : Shifted old orig (row * oldWidth) oldWidth k)
    (hrow : row < numFec) (hk : k / 8 < oldWidth) :
    Shifted (updateColumn oldWidth numFec (k / 8) (fun _ (byte : UInt8) => byte <<< 1)
      old) orig (row * oldWidth) oldWidth (k + 1) := by
  have hget : ∀ b, b < oldWidth →
      updateColumn oldWidth numFec (k / 8) (fun _ (byte : UInt8) => byte <<< 1)
          old (row * oldWidth + b) =
        if b = k / 8 then old (row * oldWidth + b) <<< 1
        else old (row * oldWidth + b) := by
    intro b hb
    rw [updateColumn_row hk _ _ _ hb]
    simp only [hrow, true_and]
  have hone : (1 : UInt8) = UInt8.ofNat 1 := rfl
  constructor
  · intro hb i hi
    rw [hget _ hb]
    by_cases hlast : k % 8 = 7
    · rw [if_neg (by omega), h.later _ (by omega) hb,
        show (k + 1) % 8 = 0 by omega, decide_eq_true (by omega),
        Bool.true_and, Nat.sub_zero]
    · rw [show (k + 1) / 8 = k / 8 by omega, if_pos rfl, hone,
        bit_shiftLeft _ (by omega), decide_eq_true hi, Bool.true_and,
        show (k + 1) % 8 = k % 8 + 1 by omega]
      by_cases h1 : 1 ≤ i
      · rw [decide_eq_true h1, Bool.true_and, h.current hk (i - 1) (by omega),
          show i - 1 - k % 8 = i - (k % 8 + 1) by omega,
          decide_eq_decide.mpr (show k % 8 ≤ i - 1 ↔ k % 8 + 1 ≤ i by omega)]
      · rw [decide_eq_false h1,
          decide_eq_false (show ¬k % 8 + 1 ≤ i by omega), Bool.false_and,
          Bool.false_and]
  · intro b hb hbw
    rw [hget b hbw, if_neg (by omega)]
    exact h.later b (by omega) hbw

/-- `CopyColumn` adds one column to the new mask. -/
theorem Columns.copy (h : Columns mem (row * width) width f n)
    (hold : Shifted old orig (row * oldWidth) oldWidth k)
    (hrow : row < numFec) (hn : n / 8 < width) (hk : k / 8 < oldWidth)
    (hf : f n = maskBit orig (row * oldWidth) k) :
    Columns (copyColumn mem width old oldWidth numFec n k).1 (row * width) width
      f (n + 1) := by
  have htop : bit (old (row * oldWidth + k / 8)) 7 = f n := by
    rw [hold.bit_top hk, hf]
  have hget : ∀ b, b < width → b ≠ n / 8 →
      (copyColumn mem width old oldWidth numFec n k).1 (row * width + b) =
        mem (row * width + b) := by
    intro b hb hne
    rw [copyColumn]
    dsimp only
    rw [updateColumn_row hn _ _ _ hb, if_neg (fun hc => hne hc.2)]
  have hself :
      (copyColumn mem width old oldWidth numFec n k).1 (row * width + n / 8) =
        (let byte := mem (row * width + n / 8) |||
          ((old (row * oldWidth + k / 8) &&& 0x80) >>> 7)
        if n % 8 ≠ 7 then byte <<< 1 else byte) := by
    rw [copyColumn]
    dsimp only
    rw [updateColumn_row hn _ _ _ hn, if_pos ⟨hrow, rfl⟩]
  by_cases hlast : n % 8 = 7
  · constructor
    · intro b hb hbw
      by_cases hbn : b = n / 8
      · subst hbn
        rw [hself, if_neg (by simpa using hlast)]
        exact (h.holds hn).copyLast hlast htop
      · rw [hget b hbw hbn]
        exact h.full b (by omega) hbw
    · intro hb
      rw [hget _ hb (by omega), h.later _ (by omega) hb]
      exact holds_zero (by omega)
    · intro b hb hbw
      rw [hget b hbw (by omega)]
      exact h.later b (by omega) hbw
  · have hdiv : (n + 1) / 8 = n / 8 := by omega
    constructor
    · intro b hb hbw
      rw [hget b hbw (by omega)]
      exact h.full b (by omega) hbw
    · intro hb
      rw [hdiv, hself, if_pos hlast]
      exact (h.holds hn).copy hlast htop
    · intro b hb hbw
      rw [hget b hbw (by omega)]
      exact h.later b (by omega) hbw

theorem Columns.maskBit (h : Columns mem (row * width) width f (8 * width))
    {c : ℕ} (hc : c < 8 * width) :
    Fec.maskBit mem (row * width) c = f c := by
  have hfull := h.full (c / 8) (by omega) (by omega) (c % 8) (by omega)
  rw [Fec.maskBit, hfull]
  congr 1
  omega

theorem Columns.finish (h : Columns mem (row * width) width f n)
    (hrow : row < numFec) (hn : n ≤ 8 * width)
    (hf : ∀ c, n ≤ c → c < 8 * width → f c = false) :
    Columns
      (if n % 8 ≠ 0 then
        updateColumn width numFec (n / 8)
          (fun _ byte => byte <<< UInt8.ofNat (7 - n % 8)) mem
      else mem)
      (row * width) width f (8 * width) := by
  by_cases hmod : n % 8 = 0
  · rw [if_neg (not_not.mpr hmod)]
    constructor
    · intro b _ hbw p hp
      rcases Nat.lt_trichotomy b (n / 8) with hlt | heq | hgt
      · exact h.full b hlt hbw p hp
      · subst heq
        rw [h.holds hbw (7 - p) (by omega),
          hf (8 * (n / 8) + p) (by omega) (by omega)]
        by_cases h1 : 1 ≤ 7 - p
        · rw [decide_eq_false (show ¬7 - p ≤ n % 8 by omega), Bool.false_and,
            Bool.and_false]
        · rw [decide_eq_false h1, Bool.false_and]
      · rw [h.later b hgt hbw, bit_zero, hf (8 * b + p) (by omega) (by omega)]
    · intro hb
      omega
    · intro b hb hbw
      omega
  · have hfill := h.insertZeros (z := 8 * width - n) hrow (by omega)
      (fun c hc hlt => hf c hc (by omega))
    rw [insertZeroColumns, min_eq_right (by omega), Nat.add_sub_cancel' hn]
      at hfill
    rw [if_pos hmod]
    exact hfill

end Rows

/-! ## The whole batch -/

theorem toNat_sub_sub {base a b : UInt16} (h : (b - base).toNat ≤ (a - base).toNat) :
    (a - b).toNat = (a - base).toNat - (b - base).toNat := by
  rw [← sub_sub_sub_cancel_right a b base, UInt16.toNat_sub_of_le]
  exact UInt16.le_iff_toNat_le.mpr h

theorem zeros_eq {base a b : UInt16} (h : (b - base).toNat < (a - base).toNat) :
    (a - b - 1).toNat = (a - base).toNat - (b - base).toNat - 1 := by
  have hsub := toNat_sub_sub h.le
  rw [UInt16.toNat_sub_of_le, hsub]
  · rfl
  · rw [UInt16.le_iff_toNat_le, hsub]
    change 1 ≤ _
    omega

/-- The rows that the loop has to do with. -/
structure Insertion.Progress (s : Insertion) (orig : ℕ → UInt8)
    (oldWidth width numFec : ℕ) (f : ℕ → ℕ → Bool) : Prop where
  columns : ∀ row < numFec,
    Columns s.newMask (row * width) width (f row) s.newBitIndex
  shifted : ∀ row < numFec,
    Shifted s.packetMask orig (row * oldWidth) oldWidth s.oldBitIndex
  inside : ∀ a ∈ s.touched, a.Inside

section Loop

variable {orig : ℕ → UInt8} {oldWidth width numFec : ℕ} {f : ℕ → ℕ → Bool}
  {base : UInt16} {s : Insertion}

theorem insertZerosStep_newBitIndex {p : Packet}
    (hnext : s.newBitIndex = (s.prevSeqNum - base).toNat + 1)
    (hp : (s.prevSeqNum - base).toNat < offset base p) :
    s.newBitIndex + (p.seqNum - s.prevSeqNum - 1).toNat = offset base p := by
  have hzeros : (p.seqNum - s.prevSeqNum - 1).toNat =
      offset base p - (s.prevSeqNum - base).toNat - 1 := zeros_eq hp
  omega

theorem Insertion.Progress.step {p : Packet}
    (h : s.Progress orig oldWidth width numFec f)
    (hnext : s.newBitIndex = (s.prevSeqNum - base).toNat + 1)
    (hp : (s.prevSeqNum - base).toNat < offset base p)
    (hpw : offset base p < 8 * width) (hold : s.oldBitIndex < 8 * oldWidth)
    (hbit : ∀ row < numFec, f row (offset base p) =
      maskBit orig (row * oldWidth) s.oldBitIndex)
    (hzero : ∀ row < numFec, ∀ c, s.newBitIndex ≤ c → c < offset base p →
      f row c = false) :
    (insertZerosStep oldWidth width numFec s p).Progress orig oldWidth width
      numFec f := by
  have hindex := insertZerosStep_newBitIndex hnext hp
  constructor
  · intro row hrow
    have hcols : Columns
        (if (p.seqNum - s.prevSeqNum - 1).toNat > 0 then
          insertZeroColumns (p.seqNum - s.prevSeqNum - 1).toNat s.newMask width
            numFec s.newBitIndex
        else s.newMask) (row * width) width (f row) (offset base p) := by
      rw [← hindex] at hzero ⊢
      split
      · exact (h.columns row hrow).insertZeros hrow (by omega) (hzero row hrow)
      · rw [show (p.seqNum - s.prevSeqNum - 1).toNat = 0 by omega]
        exact h.columns row hrow
    unfold insertZerosStep
    simp only [hindex]
    exact hcols.copy (h.shifted row hrow) hrow (by omega) (by omega)
      (hbit row hrow)
  · intro row hrow
    exact (h.shifted row hrow).copy hrow (by omega)
  · intro a ha
    unfold insertZerosStep at ha
    simp only [hindex, List.mem_append, List.mem_cons, List.not_mem_nil,
      or_false] at ha
    rcases ha with ha | rfl | rfl | rfl
    · exact h.inside a ha
    · change s.newBitIndex / 8 < width
      omega
    · change offset base p / 8 < width
      omega
    · change s.oldBitIndex / 8 < oldWidth
      omega

theorem insertZerosLoop_spec {rest : List Packet} (base : UInt16)
    (h : s.Progress orig oldWidth width numFec f)
    (hnext : s.newBitIndex = (s.prevSeqNum - base).toNat + 1)
    (hsorted : ((s.prevSeqNum - base).toNat ::
      rest.map (offset base)).Pairwise (· < ·))
    (hspan : ∀ p ∈ rest, offset base p < min (8 * width) kMaxMediaPackets)
    (hold : s.oldBitIndex + rest.length ≤ 8 * oldWidth)
    (hbit : ∀ row < numFec, ∀ j (hj : j < rest.length),
      f row (offset base rest[j]) =
        maskBit orig (row * oldWidth) (s.oldBitIndex + j))
    (hzero : ∀ row < numFec, ∀ c, (s.prevSeqNum - base).toNat < c →
      c ∉ rest.map (offset base) → f row c = false) :
    (insertZerosLoop oldWidth width numFec rest s).Progress orig oldWidth width
      numFec f ∧
    (insertZerosLoop oldWidth width numFec rest s).newBitIndex =
      ((s.prevSeqNum - base).toNat :: rest.map (offset base)).getLast
        (List.cons_ne_nil _ _) + 1 := by
  induction rest generalizing s with
  | nil =>
    rw [insertZerosLoop]
    exact ⟨h, hnext⟩
  | cons p rest ih =>
    rw [List.map_cons, List.pairwise_cons] at hsorted
    obtain ⟨hlt, hsorted'⟩ := hsorted
    have hp := hlt _ List.mem_cons_self
    have hpspan := hspan p List.mem_cons_self
    rw [lt_min_iff] at hpspan
    rw [List.length_cons] at hold
    have hindex := insertZerosStep_newBitIndex hnext hp
    have hzero' : ∀ row < numFec, ∀ c, s.newBitIndex ≤ c →
        c < offset base p → f row c = false := by
      intro row hrow c hc hcp
      refine hzero row hrow c (by omega) ?_
      rw [List.map_cons, List.mem_cons]
      rintro (heq | hmem)
      · omega
      · have := (List.pairwise_cons.mp hsorted').1 c hmem
        omega
    have hstep := h.step hnext hp hpspan.1 (by omega)
      (fun row hrow => hbit row hrow 0 (Nat.zero_lt_succ _)) hzero'
    have hbreak : s.newBitIndex ≠ 8 * kMaskSizeLBitSet := by
      have hp48 := hpspan.2
      unfold kMaxMediaPackets at hp48
      unfold kMaskSizeLBitSet
      omega
    have hnext' : (insertZerosStep oldWidth width numFec s p).newBitIndex =
        offset base p + 1 := congrArg (· + 1) hindex
    rw [insertZerosLoop, if_neg hbreak]
    obtain ⟨hprogress, hlast⟩ := ih hstep hnext' hsorted'
      (fun q hq => hspan q (List.mem_cons_of_mem _ hq))
      (by change s.oldBitIndex + 1 + _ ≤ _; omega)
      (fun row hrow j hj => by
        have hj' := hbit row hrow (j + 1) (Nat.succ_lt_succ hj)
        rw [show s.oldBitIndex + (j + 1) = s.oldBitIndex + 1 + j by omega]
          at hj'
        exact hj')
      (fun row hrow c hc hmem => by
        change offset base p < c at hc
        refine hzero row hrow c (by omega) ?_
        rw [List.map_cons, List.mem_cons, not_or]
        exact ⟨by omega, hmem⟩)
    refine ⟨hprogress, hlast.trans ?_⟩
    rw [List.map_cons, List.getLast_cons (List.cons_ne_nil _ _)]
    rfl

end Loop

/-! ## Offsets -/

theorem add_le_getElem {l : List ℕ} (h : l.Pairwise (· < ·)) {i k : ℕ}
    (hk : i + k < l.length) : l[i] + k ≤ l[i + k] := by
  induction k with
  | zero => exact le_rfl
  | succ k ih =>
    have hprev := ih (by omega)
    have hlt := List.pairwise_iff_getElem.mp h (i + k) (i + (k + 1)) (by omega)
      hk (by omega)
    omega

namespace MediaBatch

variable (batch : MediaBatch)

def lastOffset : ℕ :=
  offset batch.base (batch.packets.getLast (List.cons_ne_nil _ _))

/-- The bit for a sequence number in a mask in which gaps have columns: the
bit of the packet with this number in a mask without such columns. -/
def column (orig : ℕ → UInt8) (pos c : ℕ) : Bool :=
  decide (c ∈ batch.offsets) && maskBit orig pos (batch.offsets.idxOf c)

theorem offset_first : offset batch.base batch.first = 0 := by
  rw [offset, base, sub_self]
  rfl

theorem offsets_eq :
    batch.offsets = 0 :: batch.rest.map (offset batch.base) := by
  rw [offsets, packets, List.map_cons, offset_first]

theorem length_pos : 0 < batch.packets.length := Nat.zero_lt_succ _

theorem length_offsets : batch.offsets.length = batch.packets.length :=
  List.length_map _

theorem offsets_increasing : batch.offsets.Pairwise (· < ·) :=
  batch.increasing

theorem offsets_nodup : batch.offsets.Nodup :=
  batch.offsets_increasing.imp ne_of_lt

theorem getLast_offsets (h : batch.offsets ≠ []) :
    batch.offsets.getLast h = batch.lastOffset :=
  List.getLast_map _

theorem add_le_lastOffset {i : ℕ} (hi : i < batch.offsets.length) :
    batch.offsets[i] + (batch.offsets.length - 1 - i) ≤ batch.lastOffset := by
  have hlast := batch.getLast_offsets (List.ne_nil_of_length_pos (by omega))
  rw [List.getLast_eq_getElem] at hlast
  have hgrow := add_le_getElem batch.offsets_increasing
    (show i + (batch.offsets.length - 1 - i) < batch.offsets.length by omega)
  simp only [show i + (batch.offsets.length - 1 - i) = batch.offsets.length - 1
    by omega, hlast] at hgrow
  exact hgrow

theorem le_lastOffset {c : ℕ} (hc : c ∈ batch.offsets) :
    c ≤ batch.lastOffset := by
  obtain ⟨i, hi, rfl⟩ := List.mem_iff_getElem.mp hc
  exact (Nat.le_add_right _ _).trans (batch.add_le_lastOffset hi)

theorem lastOffset_lt : batch.lastOffset < kMaxMediaPackets :=
  batch.span _ (List.getLast_mem _)

theorem le_getElem_offsets {i : ℕ} (hi : i < batch.offsets.length) :
    i ≤ batch.offsets[i] := by
  have hgrow := add_le_getElem batch.offsets_increasing
    (show 0 + i < batch.offsets.length by omega)
  simp only [Nat.zero_add] at hgrow
  omega

theorem length_le_lastOffset : batch.packets.length ≤ batch.lastOffset + 1 := by
  have hpos : batch.packets.length - 1 < batch.offsets.length := by
    rw [length_offsets]
    exact Nat.sub_lt (Nat.zero_lt_succ _) Nat.zero_lt_one
  have hge := batch.le_getElem_offsets hpos
  have hle := batch.le_lastOffset (List.getElem_mem hpos)
  omega

theorem length_le_kMaxMediaPackets :
    batch.packets.length ≤ kMaxMediaPackets := by
  have hle := batch.length_le_lastOffset
  have hlt := batch.lastOffset_lt
  omega

theorem getElem_offsets_of_contiguous
    (h : batch.lastOffset + 1 = batch.packets.length) {i : ℕ}
    (hi : i < batch.offsets.length) : batch.offsets[i] = i := by
  have hge := batch.le_getElem_offsets hi
  have hgrow := batch.add_le_lastOffset hi
  have hlen := batch.length_offsets
  omega

theorem column_getElem (orig : ℕ → UInt8) (pos : ℕ) {i : ℕ}
    (hi : i < batch.offsets.length) :
    batch.column orig pos batch.offsets[i] = maskBit orig pos i := by
  rw [column, decide_eq_true (List.getElem_mem hi), Bool.true_and,
    batch.offsets_nodup.idxOf_getElem]

theorem column_of_notMem {orig : ℕ → UInt8} {pos c : ℕ}
    (hc : c ∉ batch.offsets) : batch.column orig pos c = false := by
  rw [column, decide_eq_false hc, Bool.false_and]

/-- The L bit that `GenerateFEC` sets. -/
def lBit : Bool := batch.lastOffset + 1 > 8 * kMaskSizeLBitClear

/-- The bytes of the mask rows after `InsertZerosInBitMasks`. -/
def maskBytes : ℕ := maskSize batch.lBit

theorem lastOffset_lt_maskBytes :
    batch.lastOffset < 8 * batch.maskBytes := by
  have hlt := batch.lastOffset_lt
  unfold kMaxMediaPackets at hlt
  unfold maskBytes lBit maskSize kMaskSizeLBitSet kMaskSizeLBitClear
  by_cases hlong : batch.lastOffset + 1 > 8 * 2
  · rw [decide_eq_true hlong, if_pos rfl]
    omega
  · rw [decide_eq_false hlong, if_neg Bool.false_ne_true]
    omega

end MediaBatch

section Insert

variable (batch : MediaBatch) {orig : ℕ → UInt8} {numFec : ℕ}

theorem column_of_contiguous
    (h : batch.lastOffset + 1 = batch.packets.length)
    (horig : ∀ row < numFec, ∀ p < 8 * numMaskBytes batch.packets.length,
      maskBit orig (row * numMaskBytes batch.packets.length) p →
        p < batch.packets.length)
    {row : ℕ} (hrow : row < numFec) {c : ℕ} (hc : c < 8 * batch.maskBytes) :
    maskBit orig (row * batch.maskBytes) c =
      batch.column orig (row * numMaskBytes batch.packets.length) c := by
  have hwidth : batch.maskBytes = numMaskBytes batch.packets.length := by
    rw [MediaBatch.maskBytes, MediaBatch.lBit, h]
    rfl
  rw [hwidth] at hc ⊢
  by_cases hlt : c < batch.offsets.length
  · have heq := batch.getElem_offsets_of_contiguous h hlt
    have hcol := batch.column_getElem orig
      (row * numMaskBytes batch.packets.length) hlt
    rw [heq] at hcol
    exact hcol.symm
  · rw [batch.length_offsets] at hlt
    rw [batch.column_of_notMem]
    · by_contra hset
      exact hlt (horig row hrow c hc (by simpa using hset))
    · intro hmem
      have hle := batch.le_lastOffset hmem
      omega

theorem insertFirstColumn_progress {first : Packet}
    {oldWidth width : ℕ} {f : ℕ → ℕ → Bool} (hold : 0 < oldWidth)
    (hwidth : 0 < width)
    (hf : ∀ row < numFec, f row 0 = maskBit orig (row * oldWidth) 0) :
    (insertFirstColumn first orig oldWidth width numFec).Progress orig oldWidth
      width numFec f := by
  constructor
  · intro row hrow
    exact columns_zero.copy shifted_zero hrow (by omega) (by omega) (hf row hrow)
  · intro row hrow
    exact shifted_zero.copy hrow (by omega)
  · intro a ha
    simp only [insertFirstColumn, List.mem_cons, List.not_mem_nil, or_false]
      at ha
    rcases ha with rfl | rfl
    · change 0 / 8 < width
      omega
    · change 0 / 8 < oldWidth
      omega

theorem column_offset {pos j : ℕ} (hj : j < batch.rest.length) :
    batch.column orig pos (offset batch.base batch.rest[j]) =
      maskBit orig pos (1 + j) := by
  have hj' : j + 1 < batch.offsets.length := by
    rw [batch.length_offsets]
    exact Nat.succ_lt_succ hj
  rw [Nat.add_comm 1 j, ← batch.column_getElem orig _ hj']
  simp only [batch.offsets_eq, List.getElem_cons_succ, List.getElem_map]

theorem column_zero {pos : ℕ} :
    batch.column orig pos 0 = maskBit orig pos 0 := by
  have h0 : 0 < batch.offsets.length := by
    rw [batch.length_offsets]
    exact Nat.zero_lt_succ _
  rw [← batch.column_getElem orig _ h0]
  simp only [batch.offsets_eq, List.getElem_cons_zero]

theorem maskBytes_le : batch.maskBytes ≤ kMaskSizeLBitSet := by
  unfold MediaBatch.maskBytes maskSize
  split
  · exact le_rfl
  · decide

theorem insertColumns_spec {oldWidth : ℕ}
    (hold : batch.packets.length ≤ 8 * oldWidth) :
    let r := insertColumns batch.first batch.rest orig oldWidth batch.maskBytes
      numFec
    r.numMaskBits = batch.lastOffset + 1 ∧ (∀ a ∈ r.touched, a.Inside) ∧
      ∀ row < numFec, ∀ c < 8 * batch.maskBytes,
        maskBit r.packetMask (row * batch.maskBytes) c =
          batch.column orig (row * oldWidth) c := by
  have hlast := batch.lastOffset_lt_maskBytes
  have hlen : batch.packets.length = batch.rest.length + 1 := List.length_cons
  have hzero : (batch.first.seqNum - batch.base).toNat = 0 :=
    batch.offset_first
  have hsorted := batch.offsets_increasing
  rw [batch.offsets_eq, ← hzero] at hsorted
  have hstart : (insertFirstColumn batch.first orig oldWidth batch.maskBytes
      numFec).Progress orig oldWidth batch.maskBytes numFec
      fun row => batch.column orig (row * oldWidth) :=
    insertFirstColumn_progress (by omega) (by omega)
      fun _ _ => column_zero batch
  have hspan : ∀ p ∈ batch.rest,
      offset batch.base p < min (8 * batch.maskBytes) kMaxMediaPackets := by
    intro p hp
    have hmem := List.mem_map_of_mem (f := offset batch.base)
      (List.mem_cons_of_mem batch.first hp)
    have hle := batch.le_lastOffset hmem
    exact lt_min (by omega) (batch.span p (List.mem_cons_of_mem _ hp))
  obtain ⟨hprogress, hbits⟩ := insertZerosLoop_spec batch.base hstart
    (congrArg (· + 1) hzero.symm) hsorted hspan
    (by change 1 + _ ≤ _; omega)
    (fun row _ j hj => column_offset batch hj)
    (fun row _ c hc hmem => batch.column_of_notMem (by
      rw [batch.offsets_eq, List.mem_cons, not_or]
      exact ⟨by omega, hmem⟩))
  have hbits' := hbits.trans (congrArg (· + 1)
    (batch.getLast_offsets (List.cons_ne_nil _ _)))
  unfold insertColumns
  generalize insertZerosLoop oldWidth batch.maskBytes numFec batch.rest
    (insertFirstColumn batch.first orig oldWidth batch.maskBytes numFec) = s
    at hprogress hbits'
  refine ⟨hbits', ?_, ?_⟩
  · intro a ha
    dsimp only at ha
    split at ha
    · rw [List.mem_append, List.mem_singleton] at ha
      rcases ha with ha | rfl
      · exact hprogress.inside a ha
      · change s.newBitIndex / 8 < batch.maskBytes
        omega
    · exact hprogress.inside a ha
  · intro row hrow c hc
    have hfinish := (hprogress.columns row hrow).finish hrow (by omega)
      (fun c hc _ => batch.column_of_notMem fun hmem => by
        have hle := batch.le_lastOffset hmem
        omega)
    rw [← hfinish.maskBit hc]
    refine maskBit_congr hc fun b hb => ?_
    have hlt := row_lt hrow hb
    have hle : numFec * batch.maskBytes ≤ kMaskSizeLBitSet * numFec := by
      rw [Nat.mul_comm]
      exact Nat.mul_le_mul_right _ (maskBytes_le batch)
    exact if_pos (by omega)

/-- What `InsertZerosInBitMasks` does to the rows of a mask. -/
theorem insertZerosInBitMasks_spec
    (horig : ∀ row < numFec, ∀ p < 8 * numMaskBytes batch.packets.length,
      maskBit orig (row * numMaskBytes batch.packets.length) p →
        p < batch.packets.length) :
    let r := insertZerosInBitMasks batch.first batch.rest orig
      (numMaskBytes batch.packets.length) numFec
    r.numMaskBits = batch.lastOffset + 1 ∧ (∀ a ∈ r.touched, a.Inside) ∧
      ∀ row < numFec, ∀ c < 8 * batch.maskBytes,
        maskBit r.packetMask (row * batch.maskBytes) c =
          batch.column orig (row * numMaskBytes batch.packets.length) c := by
  have hlen := batch.length_le_lastOffset
  have hcontiguous : batch.lastOffset + 1 = batch.packets.length →
      batch.packets.length = batch.lastOffset + 1 ∧
        (∀ a ∈ ([] : List BitAccess), a.Inside) ∧
        ∀ row < numFec, ∀ c < 8 * batch.maskBytes,
          maskBit orig (row * batch.maskBytes) c =
            batch.column orig (row * numMaskBytes batch.packets.length) c :=
    fun h => ⟨h.symm, nofun, fun _ hrow _ hc =>
      column_of_contiguous batch h horig hrow hc⟩
  intro r
  by_cases hone : batch.packets.length ≤ 1
  · have hrest : batch.rest = [] := by
      rw [MediaBatch.packets, List.length_cons] at hone
      exact List.length_eq_zero_iff.mp (by omega)
    have hlast : batch.lastOffset = 0 := by
      rw [MediaBatch.lastOffset]
      simp only [MediaBatch.packets, hrest, List.getLast_singleton,
        batch.offset_first]
    have hr : r = ⟨orig, batch.packets.length, []⟩ := if_pos hone
    rw [hr]
    exact hcontiguous (by rw [hlast, MediaBatch.packets, hrest]; rfl)
  by_cases hnone : batch.lastOffset + 1 = batch.packets.length
  · have hr : r = ⟨orig, batch.packets.length, []⟩ := by
      refine (if_neg hone).trans (if_pos ?_)
      change (batch.lastOffset : ℤ) - batch.packets.length + 1 = 0
      omega
    rw [hr]
    exact hcontiguous hnone
  · have hwidth : maskSize (decide ((batch.packets.length : ℤ) +
        ((batch.lastOffset : ℤ) - batch.packets.length + 1) >
          8 * (kMaskSizeLBitClear : ℕ))) = batch.maskBytes := by
      rw [MediaBatch.maskBytes, MediaBatch.lBit]
      congr 1
      rw [decide_eq_decide]
      omega
    have hr : r = insertColumns batch.first batch.rest orig
        (numMaskBytes batch.packets.length) batch.maskBytes numFec := by
      rw [← hwidth]
      refine (if_neg hone).trans (if_neg ?_)
      change ¬(batch.lastOffset : ℤ) - batch.packets.length + 1 = 0
      omega
    rw [hr]
    exact insertColumns_spec batch
      (numMaskBytes_le batch.length_le_kMaxMediaPackets)

end Insert

end WebrtcWinXp.Fec
