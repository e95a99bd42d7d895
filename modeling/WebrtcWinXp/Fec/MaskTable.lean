import WebrtcWinXp.Support.Rows
import WebrtcWinXp.Fec.Packet

/-!
# Packet masks

`GeneratePacketMasks` copies rows of precomputed tables into the mask array of
the encoder.  The tables of `fec_private_tables_random.h` and
`fec_private_tables_bursty.h` are a parameter; what the encoder relies on is
`MaskTable.Valid`.
-/

namespace WebrtcWinXp.Fec

open Support

inductive FecMaskType where
  | kFecMaskRandom
  | kFecMaskBursty
  deriving DecidableEq, Repr

/-- The mask tables: the bytes of the mask for some number of media packets
and some number of FEC packets, both counted from one. -/
def MaskTable := FecMaskType → ℕ → ℕ → ℕ → UInt8

/-- `sizeof(kPacketMaskBurstyTbl) / sizeof(*kPacketMaskBurstyTbl)`. -/
def maxBurstyMediaPackets : ℕ := 12

/-- `PacketMaskTable::InitMaskType`. -/
def initMaskType (fecMaskType : FecMaskType) (numMediaPackets : ℕ) :
    FecMaskType :=
  match fecMaskType with
  | .kFecMaskRandom => .kFecMaskRandom
  | .kFecMaskBursty =>
    if numMediaPackets > maxBurstyMediaPackets then .kFecMaskRandom
    else .kFecMaskBursty

/-- The bytes of a mask row for a number of media packets. -/
def numMaskBytes (numMediaPackets : ℕ) : ℕ :=
  maskSize (numMediaPackets > 16)

/-! ## Generating masks -/

/-- `FitSubMask`, which writes to `packetMask + pos`. -/
def fitSubMask (numMaskBytes numSubMaskBytes numRows : ℕ)
    (subMask packetMask : ℕ → UInt8) (pos : ℕ) : ℕ → UInt8 :=
  if numMaskBytes = numSubMaskBytes then
    memcpy packetMask pos subMask (numRows * numSubMaskBytes)
  else
    (List.range numRows).foldl
      (fun packetMask i =>
        memcpy packetMask (pos + i * numMaskBytes)
          (fun j => subMask (i * numSubMaskBytes + j)) numSubMaskBytes)
      packetMask

/-- `SetProtectionAllocation`.  The product with `0.5` is truncated. -/
def setProtectionAllocation (numMediaPackets numFecPackets numImpPackets : ℕ) :
    ℕ :=
  let maxNumFecForImp := numFecPackets / 2
  let numFecForImpPackets :=
    if numImpPackets < maxNumFecForImp then numImpPackets
    else maxNumFecForImp
  if numFecPackets = 1 ∧ numMediaPackets > 2 * numImpPackets then 0
  else numFecForImpPackets

/-- `UnequalProtectionMask`, in the mode `kModeOverlap` that it sets. -/
def unequalProtectionMask (table : ℕ → ℕ → ℕ → UInt8)
    (numMediaPackets numFecPackets numImpPackets maskBytes : ℕ)
    (packetMask : ℕ → UInt8) : ℕ → UInt8 :=
  let numFecForImpPackets :=
    setProtectionAllocation numMediaPackets numFecPackets numImpPackets
  let numFecRemaining := numFecPackets - numFecForImpPackets
  -- `ImportantPacketProtection`
  let packetMask :=
    if numFecForImpPackets > 0 then
      fitSubMask maskBytes (numMaskBytes numImpPackets) numFecForImpPackets
        (table numImpPackets numFecForImpPackets) packetMask 0
    else packetMask
  -- `RemainingPacketProtection`
  if numFecRemaining > 0 then
    fitSubMask maskBytes maskBytes numFecRemaining
      (table numMediaPackets numFecRemaining) packetMask
      (numFecForImpPackets * maskBytes)
  else packetMask

def generatePacketMasks (table : ℕ → ℕ → ℕ → UInt8)
    (numMediaPackets numFecPackets numImpPackets : ℕ)
    (useUnequalProtection : Bool) (packetMask : ℕ → UInt8) : ℕ → UInt8 :=
  let maskBytes := numMaskBytes numMediaPackets
  if ¬useUnequalProtection ∨ numImpPackets = 0 then
    memcpy packetMask 0 (table numMediaPackets numFecPackets)
      (numFecPackets * maskBytes)
  else
    unequalProtectionMask table numMediaPackets numFecPackets numImpPackets
      maskBytes packetMask

/-- The bit for position `p`, counted from the most significant bit of the
first byte, of a row that starts at `pos`. -/
def maskBit (mask : ℕ → UInt8) (pos p : ℕ) : Bool :=
  bit (mask (pos + p / 8)) (7 - p % 8)

/-- A row protects some of the first `n` packets and no others. -/
structure RowValid (mask : ℕ → UInt8) (pos maskBytes n : ℕ) : Prop where
  exists_bit : ∃ p < n, maskBit mask pos p
  lt_of_bit : ∀ p < 8 * maskBytes, maskBit mask pos p → p < n

/-- What the encoder relies on: each row of a table protects some packets, and
only packets that exist, and each packet is protected by some row. -/
structure MaskTable.Valid (table : MaskTable) : Prop where
  row : ∀ type n f, f ≤ n → n ≤ kMaxMediaPackets →
    (type = .kFecMaskBursty → n ≤ maxBurstyMediaPackets) →
    ∀ i < f, RowValid (table type n f) (i * numMaskBytes n) (numMaskBytes n) n
  column : ∀ type n f, 0 < f → f ≤ n → n ≤ kMaxMediaPackets →
    (type = .kFecMaskBursty → n ≤ maxBurstyMediaPackets) →
    ∀ p < n, ∃ i < f, maskBit (table type n f) (i * numMaskBytes n) p

variable {mask mask' : ℕ → UInt8} {pos' maskBytes : ℕ}

theorem maskBit_congr {pos p : ℕ}
    (hp : p < 8 * maskBytes)
    (heq : ∀ b < maskBytes, mask' (pos' + b) = mask (pos + b)) :
    maskBit mask' pos' p = maskBit mask pos p := by
  rw [maskBit, maskBit, heq (p / 8) (by omega)]

theorem RowValid.congr {pos n : ℕ}
    (h : RowValid mask pos maskBytes n) (hn : n ≤ 8 * maskBytes)
    (heq : ∀ b < maskBytes, mask' (pos' + b) = mask (pos + b)) :
    RowValid mask' pos' maskBytes n := by
  have hbit : ∀ p < 8 * maskBytes, maskBit mask' pos' p = maskBit mask pos p :=
    fun p hp => maskBit_congr hp heq
  obtain ⟨⟨p, hp, hset⟩, hlt⟩ := h
  constructor
  · exact ⟨p, hp, by rw [hbit p (by omega)]; exact hset⟩
  · intro q hq hset
    rw [hbit q hq] at hset
    exact hlt q hq hset

theorem RowValid.widen
    {pos maskBytes' n n' : ℕ}
    (h : RowValid mask pos maskBytes n) (hn : n ≤ 8 * maskBytes)
    (hle : n ≤ n')
    (heq : ∀ b < maskBytes, mask' (pos' + b) = mask (pos + b))
    (hzero : ∀ b, maskBytes ≤ b → b < maskBytes' → mask' (pos' + b) = 0) :
    RowValid mask' pos' maskBytes' n' := by
  have hbit : ∀ p < 8 * maskBytes, maskBit mask' pos' p = maskBit mask pos p :=
    fun p hp => maskBit_congr hp heq
  obtain ⟨⟨p, hp, hset⟩, hlt⟩ := h
  constructor
  · exact ⟨p, by omega, by rw [hbit p (by omega)]; exact hset⟩
  · intro q hq hset
    by_cases hin : q < 8 * maskBytes
    · rw [hbit q hin] at hset
      exact lt_of_lt_of_le (hlt q hin hset) hle
    · rw [maskBit, hzero (q / 8) (by omega) (by omega)] at hset
      simp at hset

theorem numMaskBytes_le {n : ℕ} (h : n ≤ kMaxMediaPackets) :
    n ≤ 8 * numMaskBytes n := by
  unfold numMaskBytes maskSize kMaskSizeLBitSet kMaskSizeLBitClear
  unfold kMaxMediaPackets at h
  split <;> simp_all

theorem numMaskBytes_mono {m n : ℕ} (h : m ≤ n) :
    numMaskBytes m ≤ numMaskBytes n := by
  simp only [numMaskBytes, maskSize, kMaskSizeLBitSet, kMaskSizeLBitClear,
    decide_eq_true_eq]
  split <;> split <;> omega

/-! ## The generated rows -/

variable {numBytes numSub numRows : ℕ} {subMask packetMask : ℕ → UInt8}
  {pos : ℕ}

variable (subMask packetMask pos) in
/-- What `FitSubMask` puts into the rows, and what it leaves. -/
theorem fitSubMask_spec (hle : numSub ≤ numBytes) :
    (∀ i < numRows, ∀ b < numBytes,
      fitSubMask numBytes numSub numRows subMask packetMask pos
          (pos + (i * numBytes + b)) =
        if b < numSub then subMask (i * numSub + b)
        else packetMask (pos + (i * numBytes + b))) ∧
    (∀ a, (∀ i < numRows, ∀ b < numBytes, a ≠ pos + (i * numBytes + b)) →
      fitSubMask numBytes numSub numRows subMask packetMask pos a =
        packetMask a) := by
  by_cases heq : numBytes = numSub
  · subst heq
    rw [fitSubMask, if_pos rfl]
    refine ⟨?_, ?_⟩
    · intro i hi b hb
      have hlt := row_lt hi hb
      rw [if_pos hb, memcpy, if_pos (by omega)]
      congr 1
      omega
    · intro a ha
      rw [memcpy, if_neg]
      rintro ⟨hle', hlt⟩
      have hpos : 0 < numBytes := by
        rcases Nat.eq_zero_or_pos numBytes with h0 | h0
        · subst h0
          simp at hlt
          omega
        · exact h0
      refine ha ((a - pos) / numBytes) ?_ ((a - pos) % numBytes)
        (Nat.mod_lt _ hpos) ?_
      · rw [Nat.div_lt_iff_lt_mul hpos]
        omega
      · have hdiv := Nat.div_add_mod (a - pos) numBytes
        rw [Nat.mul_comm] at hdiv
        omega
  · rw [fitSubMask, if_neg heq]
    induction numRows with
    | zero => exact ⟨fun i hi => absurd hi (Nat.not_lt_zero i), fun _ _ => rfl⟩
    | succ numRows ih =>
      obtain ⟨hrows, hrest⟩ := ih
      rw [List.range_succ, List.foldl_append]
      simp only [List.foldl_cons, List.foldl_nil]
      refine ⟨?_, ?_⟩
      · intro i hi b hb
        rw [memcpy]
        by_cases hlast : i = numRows
        · subst hlast
          by_cases hsub : b < numSub
          · rw [if_pos (by omega), if_pos hsub]
            congr 2
            omega
          · rw [if_neg (by omega), if_neg hsub]
            refine hrest _ fun j hj c hc h => ?_
            have hij := row_index hb hc (Nat.add_left_cancel h)
            omega
        · have hlt := row_lt (show i < numRows by omega) hb
          rw [if_neg (by omega), hrows i (by omega) b hb]
      · intro a ha
        rw [memcpy, if_neg]
        · exact hrest a fun i hi b hb => ha i (by omega) b hb
        · rintro ⟨hge, hlt⟩
          refine ha numRows (Nat.lt_succ_self _)
            (a - (pos + numRows * numBytes)) (by omega) (by omega)

theorem setProtectionAllocation_le (n f imp : ℕ) :
    setProtectionAllocation n f imp ≤ imp ∧
      setProtectionAllocation n f imp ≤ f / 2 := by
  unfold setProtectionAllocation
  dsimp only
  split
  · omega
  · split <;> omega

variable {i : ℕ}

theorem unequalProtectionMask_important (table : ℕ → ℕ → ℕ → UInt8)
    {n f imp b : ℕ} (himp : imp ≤ n)
    (hi : i < setProtectionAllocation n f imp) (hb : b < numMaskBytes n) :
    unequalProtectionMask table n f imp (numMaskBytes n) (fun _ => 0)
        (i * numMaskBytes n + b) =
      if b < numMaskBytes imp then
        table imp (setProtectionAllocation n f imp) (i * numMaskBytes imp + b)
      else 0 := by
  obtain ⟨-, hhalf⟩ := setProtectionAllocation_le n f imp
  unfold unequalProtectionMask
  generalize setProtectionAllocation n f imp = t at hi hhalf
  rw [if_pos (show t > 0 by omega), if_pos (by omega),
    (fitSubMask_spec _ _ _ (le_refl (numMaskBytes n))).2]
  · have hrow := (fitSubMask_spec (table imp t) (fun _ => 0) 0
      (numMaskBytes_mono himp)).1 i hi b hb
    rw [Nat.zero_add] at hrow
    exact hrow
  · intro j hj c hc heq
    have hlt := row_lt hi hb
    omega

theorem unequalProtectionMask_remaining (table : ℕ → ℕ → ℕ → UInt8)
    {n f imp b : ℕ} (hi : setProtectionAllocation n f imp ≤ i) (hif : i < f)
    (hb : b < numMaskBytes n) :
    unequalProtectionMask table n f imp (numMaskBytes n) (fun _ => 0)
        (i * numMaskBytes n + b) =
      table n (f - setProtectionAllocation n f imp)
        ((i - setProtectionAllocation n f imp) * numMaskBytes n + b) := by
  unfold unequalProtectionMask
  generalize setProtectionAllocation n f imp = t at hi
  rw [if_pos (by omega)]
  have hsum : i * numMaskBytes n + b =
      t * numMaskBytes n + ((i - t) * numMaskBytes n + b) := by
    rw [← Nat.add_assoc, ← Nat.add_mul, Nat.add_sub_cancel' hi]
  rw [hsum, (fitSubMask_spec _ _ _ (le_refl (numMaskBytes n))).1 (i - t) (by omega) b
    hb, if_pos hb]

section Generated

variable {table : MaskTable} {type : FecMaskType} {n f imp : ℕ}

theorem initMaskType_bursty (h : initMaskType type n = .kFecMaskBursty) :
    n ≤ maxBurstyMediaPackets := by
  unfold initMaskType at h
  cases type with
  | kFecMaskRandom => cases h
  | kFecMaskBursty =>
    dsimp only at h
    split at h
    · cases h
    · omega

theorem generatePacketMasks_equal {uep : Bool} (h : ¬uep ∨ imp = 0)
    {sub : ℕ → ℕ → ℕ → UInt8} {i b : ℕ} (hi : i < f) (hb : b < numMaskBytes n) :
    generatePacketMasks sub n f imp uep (fun _ => 0) (i * numMaskBytes n + b) =
      sub n f (i * numMaskBytes n + b) := by
  have hlt := row_lt hi hb
  rw [generatePacketMasks, if_pos h, memcpy, if_pos (by omega), Nat.sub_zero]

theorem generatePacketMasks_valid (type : FecMaskType) (h : table.Valid)
    (hf : f ≤ n)
    (hn : n ≤ kMaxMediaPackets) (himp : imp ≤ n) (uep : Bool) {i : ℕ}
    (hi : i < f) :
    RowValid
      (generatePacketMasks (table (initMaskType type n)) n f imp uep fun _ => 0)
      (i * numMaskBytes n) (numMaskBytes n) n := by
  by_cases hequal : ¬uep ∨ imp = 0
  · have hvalid :=
      h.row (initMaskType type n) n f hf hn initMaskType_bursty i hi
    refine hvalid.congr (numMaskBytes_le hn) ?_
    intro b hb
    exact generatePacketMasks_equal hequal hi hb
  · rw [generatePacketMasks, if_neg hequal]
    obtain ⟨hleImp, hleHalf⟩ := setProtectionAllocation_le n f imp
    by_cases hrow : i < setProtectionAllocation n f imp
    · have hvalid := h.row (initMaskType type n) imp _ hleImp (by omega)
        (fun hb => le_trans himp (initMaskType_bursty hb)) i hrow
      have hmono := numMaskBytes_mono himp
      refine hvalid.widen (numMaskBytes_le (by omega)) himp ?_ ?_
      · intro b hb
        rw [unequalProtectionMask_important _ himp hrow (by omega), if_pos hb]
      · intro b hb hb'
        rw [unequalProtectionMask_important _ himp hrow hb', if_neg (by omega)]
    · have hvalid := h.row (initMaskType type n) n
        (f - setProtectionAllocation n f imp) (by omega) hn initMaskType_bursty
        (i - setProtectionAllocation n f imp) (by omega)
      refine hvalid.congr (numMaskBytes_le hn) ?_
      intro b hb
      exact unequalProtectionMask_remaining _ (by omega) hi hb

theorem generatePacketMasks_covers (type : FecMaskType) (imp : ℕ)
    (h : table.Valid) (hpos : 0 < f)
    (hf : f ≤ n) (hn : n ≤ kMaxMediaPackets) (uep : Bool) {p : ℕ}
    (hp : p < n) :
    ∃ i < f, maskBit
      (generatePacketMasks (table (initMaskType type n)) n f imp uep fun _ => 0)
      (i * numMaskBytes n) p := by
  have hlt : p < 8 * numMaskBytes n :=
    lt_of_lt_of_le hp (numMaskBytes_le hn)
  by_cases hequal : ¬uep ∨ imp = 0
  · obtain ⟨i, hi, hset⟩ :=
      h.column (initMaskType type n) n f hpos hf hn initMaskType_bursty p hp
    refine ⟨i, hi, ?_⟩
    rw [maskBit_congr hlt fun b hb => generatePacketMasks_equal hequal hi hb]
    exact hset
  · rw [generatePacketMasks, if_neg hequal]
    obtain ⟨hleImp, hleHalf⟩ := setProtectionAllocation_le n f imp
    obtain ⟨i, hi, hset⟩ := h.column (initMaskType type n) n
      (f - setProtectionAllocation n f imp) (by omega) (by omega) hn
      initMaskType_bursty p hp
    refine ⟨i + setProtectionAllocation n f imp, by omega, ?_⟩
    rw [maskBit_congr hlt fun b hb =>
      unequalProtectionMask_remaining _ (by omega) (by omega) hb,
      Nat.add_sub_cancel]
    exact hset

end Generated

/-- A byte of which the first `k` bits are set. -/
def firstBits (k : ℕ) : UInt8 := UInt8.ofNat (256 - 2 ^ (8 - k))

/-- The table in which every FEC packet protects every media packet. -/
def fullProtection : MaskTable := fun _ n _ b =>
  firstBits (min 8 (n - 8 * (b % numMaskBytes n)))

theorem bit_firstBits : ∀ k ≤ 8, ∀ i < 8,
    bit (firstBits k) i = decide (8 - k ≤ i) := by
  decide

theorem maskBit_fullProtection {type : FecMaskType} {n f p : ℕ}
    (hp : p < 8 * numMaskBytes n) :
    maskBit (fullProtection type n f) (i * numMaskBytes n) p =
      decide (p < n) := by
  have hmod : (i * numMaskBytes n + p / 8) % numMaskBytes n = p / 8 := by
    rw [Nat.mul_comm, Nat.mul_add_mod, Nat.mod_eq_of_lt (by omega)]
  rw [maskBit, fullProtection, hmod, bit_firstBits _ (min_le_left _ _) _
    (by omega), decide_eq_decide]
  omega

theorem fullProtection_valid : fullProtection.Valid where
  row type n f hf hn _ i hi := by
    have hbytes := numMaskBytes_le hn
    constructor
    · refine ⟨0, by omega, ?_⟩
      rw [maskBit_fullProtection (by omega)]
      exact decide_eq_true (by omega)
    · intro p hp hset
      rw [maskBit_fullProtection hp] at hset
      exact of_decide_eq_true hset
  column type n f hf _ hn _ p hp := by
    have hbytes := numMaskBytes_le hn
    refine ⟨0, hf, ?_⟩
    rw [maskBit_fullProtection (by omega)]
    exact decide_eq_true hp

end WebrtcWinXp.Fec
