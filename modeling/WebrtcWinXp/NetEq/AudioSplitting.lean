import WebrtcWinXp.NetEq.PayloadSplitter

/-!
# Splitting audio payloads

A payload is cut in chunks of one size, and the last piece takes what is left.
The pieces consist of whole samples, and their timestamps are exact, exactly
where halving the chunk size never splits a sample.
-/

namespace WebrtcWinXp.NetEq.PayloadSplitter

open Support

/-- The bytes and the timestamps of a unit that is not to be split, for bytes
and timestamps per ms. -/
def sampleUnit (bytesPerMs timestampsPerMs : ℕ) : ℕ × ℕ :=
  (bytesPerMs / bytesPerMs.gcd timestampsPerMs,
    timestampsPerMs / bytesPerMs.gcd timestampsPerMs)

/-- The pieces have the payload of a packet, consist of whole units and carry
the timestamps of their first bytes. -/
structure Pieces (unit : ℕ × ℕ) (packet : Packet) (pieces : List Packet) :
    Prop where
  payload : pieces.flatMap Packet.payload = packet.payload
  whole : ∀ q ∈ pieces, unit.1 ∣ q.payload.length
  header : ∀ i q, pieces[i]? = some q → q.header = { packet.header with
    timestamp := packet.header.timestamp + UInt32.ofNat
      (((pieces.take i).flatMap Packet.payload).length / unit.1 * unit.2) }
  equal : ∀ q ∈ pieces.dropLast, ∀ r ∈ pieces.dropLast,
    q.payload.length = r.payload.length

variable {decoderDatabase : DecoderDatabase}

/-- What may stand in the place of a packet. -/
structure Conserved (decoderDatabase : DecoderDatabase) (packet : Packet)
    (pieces : List Packet) : Prop where
  kept : (packet.syncPacket = true ∨ ∀ codecType,
      decoderDatabase.getDecoderInfo packet.header.payloadType =
        some codecType →
      sampleRates codecType = none ∧ codecType ≠ .kDecoderILBC) →
    pieces = [packet]
  samples : ∀ codecType bytesPerMs timestampsPerMs,
    decoderDatabase.getDecoderInfo packet.header.payloadType =
      some codecType →
    sampleRates codecType = some (bytesPerMs, timestampsPerMs) →
    (sampleUnit bytesPerMs timestampsPerMs).1 ∣ packet.payloadLength →
    pieces = [packet] ∨
      (Pieces (sampleUnit bytesPerMs timestampsPerMs) packet pieces ∧
        (bytesPerMs * 20 ≤ packet.payloadLength →
          ∀ q ∈ pieces, bytesPerMs * 20 ≤ q.payload.length))
  frames : ∀ unit,
    decoderDatabase.getDecoderInfo packet.header.payloadType =
      some .kDecoderILBC →
    ilbcFrame packet.payloadLength = some unit →
    pieces = [packet] ∨ Pieces unit packet pieces

/-- Halving the chunk size does not split a sample, and there is a byte. -/
def Splittable (decoderDatabase : DecoderDatabase) (packet : Packet) : Prop :=
  ∀ codecType bytesPerMs timestampsPerMs,
    decoderDatabase.getDecoderInfo packet.header.payloadType =
      some codecType →
    sampleRates codecType = some (bytesPerMs, timestampsPerMs) →
    packet.syncPacket = false →
    (sampleUnit bytesPerMs timestampsPerMs).1 ∣ packet.payloadLength →
    0 < packet.payloadLength ∧ (sampleUnit bytesPerMs timestampsPerMs).1 ∣
      splitSize bytesPerMs packet.payloadLength

def passes (decoderDatabase : DecoderDatabase) (packet : Packet) : Bool :=
  match decoderDatabase.getDecoderInfo packet.header.payloadType with
  | none => false
  | some codecType =>
    packet.syncPacket || codecType != .kDecoderILBC ||
      (decide (packet.payloadLength < 950) &&
        (ilbcFrame packet.payloadLength).isSome)

variable {bytesPerMs timestampsPerMs size : ℕ}

theorem splitSize_cases (hbytes : 0 < bytesPerMs) (length : ℕ) :
    splitSize bytesPerMs length = length ∨
      (2 * splitSize bytesPerMs length ≤ length ∧
        bytesPerMs * 20 ≤ splitSize bytesPerMs length) := by
  have hlower : Lowers (halve (bytesPerMs * 20)) id := by
    intro s t h
    rw [halve] at h
    split at h
    · rw [Option.some_inj, Nat.shiftRight_one] at h
      subst h
      change s / 2 < s
      omega
    · cases h
  refine (finish_invariant hlower (P := fun s => s = length ∨
    (2 * s ≤ length ∧ bytesPerMs * 20 ≤ s)) ?_ (.inl rfl)).1
  intro s t hs h
  rw [halve] at h
  split at h
  · rw [Option.some_inj, Nat.shiftRight_one] at h
    subst h
    omega
  · cases h

variable {length : ℕ}

theorem splitSize_pos (hbytes : 0 < bytesPerMs)
    (hlength : 0 < length) : 0 < splitSize bytesPerMs length := by
  obtain h | h := splitSize_cases hbytes length <;> omega

/-! ## The pieces -/

section Chunks

variable (packet : Packet) (size timestamps : ℕ)

def chunk (i : ℕ) : Packet :=
  newPacket packet
    (packet.header.timestamp + UInt32.ofNat (i * timestamps))
    ((packet.payload.drop (i * size)).take size)

def lastPiece (n : ℕ) : Packet :=
  newPacket packet
    (packet.header.timestamp + UInt32.ofNat (n * timestamps))
    (packet.payload.drop (n * size))

def splittingAt (n : ℕ) : Splitting where
  timestamp := packet.header.timestamp + UInt32.ofNat (n * timestamps)
  payload := packet.payload.drop (n * size)
  newPackets := (List.range n).map (chunk packet size timestamps)

theorem splittingAt_zero :
    splittingAt packet size timestamps 0 =
      ⟨packet.header.timestamp, packet.payload, []⟩ := by
  rw [splittingAt, Nat.zero_mul, Nat.zero_mul, List.drop_zero]
  congr 1
  exact UInt32.add_zero _

theorem cut_splittingAt (n : ℕ) :
    (splittingAt packet size timestamps n).cut packet size timestamps =
      splittingAt packet size timestamps (n + 1) := by
  rw [Splitting.cut, splittingAt, splittingAt, List.drop_drop,
    List.range_succ, List.map_append, List.map_singleton, Nat.succ_mul,
    Nat.succ_mul, UInt32.ofNat_add, UInt32.add_assoc]
  rfl

variable {packet size timestamps}

variable {n : ℕ}

theorem loop_splittingAt {step : Splitting → Option Splitting}
    (hcut : ∀ k, k < n → step (splittingAt packet size timestamps k) =
      some (splittingAt packet size timestamps (k + 1)))
    (hend : step (splittingAt packet size timestamps n) = none) {rounds k : ℕ}
    (hrounds : n - k < rounds) (hk : k ≤ n) :
    loop step rounds (splittingAt packet size timestamps k) =
      some (splittingAt packet size timestamps n) := by
  induction rounds generalizing k with
  | zero => exact absurd hrounds (Nat.not_lt_zero _)
  | succ rounds ih =>
    rw [loop]
    obtain rfl | hlt := Nat.eq_or_lt_of_le hk
    · rw [hend]
    · rw [hcut k hlt]
      exact ih (by omega) hlt

def chunksAndLast (packet : Packet) (size timestamps n : ℕ) : List Packet :=
  (List.range n).map (chunk packet size timestamps) ++
    [lastPiece packet size timestamps n]

theorem flatMap_chunks (n : ℕ) :
    ((List.range n).map (chunk packet size timestamps)).flatMap
      Packet.payload = packet.payload.take (n * size) := by
  induction n with
  | zero => rw [Nat.zero_mul, List.take_zero, List.range_zero, List.map_nil,
      List.flatMap_nil]
  | succ n ih =>
    rw [List.range_succ, List.map_append, List.flatMap_append, ih,
      List.map_singleton, List.flatMap_singleton, Nat.succ_mul,
      List.take_add]
    rfl

variable {i : ℕ}

theorem length_chunk (hn : n * size ≤ packet.payloadLength)
    (hi : i < n) :
    (chunk packet size timestamps i).payload.length = size := by
  have hle : (i + 1) * size ≤ n * size := Nat.mul_le_mul_right size hi
  rw [Nat.succ_mul] at hle
  rw [Packet.payloadLength] at hn
  change ((packet.payload.drop (i * size)).take size).length = size
  rw [List.length_take, List.length_drop]
  omega

theorem take_chunksAndLast (hi : i ≤ n) :
    (chunksAndLast packet size timestamps n).take i =
      (List.range i).map (chunk packet size timestamps) := by
  rw [chunksAndLast, List.take_append_of_le_length (by
    rw [List.length_map, List.length_range]
    exact hi), ← List.map_take, List.take_range, Nat.min_eq_left hi]

theorem getElem?_chunksAndLast {q : Packet}
    (h : (chunksAndLast packet size timestamps n)[i]? = some q) :
    (i < n ∧ q = chunk packet size timestamps i) ∨
      (i = n ∧ q = lastPiece packet size timestamps n) := by
  have hlength : ((List.range n).map (chunk packet size timestamps)).length =
      n := by
    rw [List.length_map, List.length_range]
  rw [chunksAndLast] at h
  obtain hlt | hge := Nat.lt_or_ge i n
  · rw [List.getElem?_append_left (by omega), List.getElem?_map,
      List.getElem?_range hlt, Option.map_some, Option.some_inj] at h
    exact .inl ⟨hlt, h.symm⟩
  · rw [List.getElem?_append_right (by omega), hlength] at h
    obtain hzero | hpos := Nat.eq_zero_or_pos (i - n)
    · rw [hzero, List.getElem?_cons_zero, Option.some_inj] at h
      exact .inr ⟨by omega, h.symm⟩
    · rw [List.getElem?_eq_none (by rw [List.length_singleton]; omega)] at h
      cases h

theorem pieces_chunksAndLast {unit : ℕ × ℕ} (hsize : unit.1 ∣ size)
    (htimestamps : timestamps = size / unit.1 * unit.2)
    (hn : n * size ≤ packet.payloadLength)
    (hwhole : unit.1 ∣ packet.payloadLength) :
    Pieces unit packet (chunksAndLast packet size timestamps n) where
  payload := by
    rw [chunksAndLast, List.flatMap_append, flatMap_chunks,
      List.flatMap_singleton]
    exact List.take_append_drop _ _
  whole := by
    intro q hq
    obtain ⟨i, hi⟩ := List.mem_iff_getElem?.mp hq
    obtain ⟨hlt, rfl⟩ | ⟨-, rfl⟩ := getElem?_chunksAndLast hi
    · rw [length_chunk hn hlt]
      exact hsize
    · change unit.1 ∣ (packet.payload.drop (n * size)).length
      rw [List.length_drop]
      exact Nat.dvd_sub hwhole (Dvd.dvd.mul_left hsize n)
  header := by
    intro i q hi
    have hin : i ≤ n ∧ q.header = { packet.header with
        timestamp := packet.header.timestamp +
          UInt32.ofNat (i * timestamps) } := by
      obtain ⟨hlt, rfl⟩ | ⟨rfl, rfl⟩ := getElem?_chunksAndLast hi
      · exact ⟨hlt.le, rfl⟩
      · exact ⟨Nat.le_refl _, rfl⟩
    have hle : i * size ≤ packet.payload.length :=
      (Nat.mul_le_mul_right size hin.1).trans hn
    rw [hin.2, take_chunksAndLast hin.1, flatMap_chunks, List.length_take,
      Nat.min_eq_left hle, Nat.mul_div_assoc i hsize, Nat.mul_assoc,
      ← htimestamps]
  equal := by
    have hlength : ∀ q ∈ (chunksAndLast packet size timestamps n).dropLast,
        q.payload.length = size := by
      intro q hq
      rw [chunksAndLast, List.dropLast_concat] at hq
      obtain ⟨i, hi, rfl⟩ := List.mem_map.mp hq
      exact length_chunk hn (List.mem_range.mp hi)
    intro q hq r hr
    rw [hlength q hq, hlength r hr]

end Chunks

theorem sub_one_mul_le {size : ℕ} (hsize : 0 < size)
    (hle : size ≤ length) : (length / size - 1 + 1) * size ≤ length := by
  have hpos : 0 < length / size := Nat.div_pos hle hsize
  rw [Nat.sub_add_cancel hpos]
  exact Nat.div_mul_le_self length size

variable {packet : Packet} {rounds : ℕ}

theorem splitBySamples_eq (hbytes : 0 < bytesPerMs)
    (hlength : 0 < packet.payloadLength)
    (hrounds : packet.payloadLength < rounds) :
    splitBySamples rounds packet bytesPerMs timestampsPerMs =
      some (chunksAndLast packet (splitSize bytesPerMs packet.payloadLength)
        (splitSize bytesPerMs packet.payloadLength * timestampsPerMs /
          bytesPerMs)
        (packet.payloadLength / splitSize bytesPerMs packet.payloadLength -
          1)) := by
  have hpos := splitSize_pos hbytes hlength
  have hle : splitSize bytesPerMs packet.payloadLength ≤ packet.payloadLength :=
    by
    obtain h | h := splitSize_cases hbytes packet.payloadLength <;> omega
  rw [splitBySamples]
  set size := splitSize bytesPerMs packet.payloadLength
  set timestamps := size * timestampsPerMs / bytesPerMs
  set n := packet.payloadLength / size - 1 with hn
  have hmul : (n + 1) * size ≤ packet.payloadLength := sub_one_mul_le hpos hle
  have hpayload : ∀ k, (splittingAt packet size timestamps k).payload.length =
      packet.payloadLength - k * size := fun k => List.length_drop
  have hdiv : packet.payloadLength / size ≤ packet.payloadLength :=
    Nat.div_le_self _ _
  rw [← splittingAt_zero packet size timestamps, loop_splittingAt (n := n)]
  · rw [Option.map_some, if_pos]
    · rfl
    · rw [hpayload]
      rw [Nat.succ_mul] at hmul
      omega
  · intro k hk
    have hnext : (k + 2) * size ≤ packet.payloadLength :=
      (Nat.le_div_iff_mul_le hpos).mp (by omega)
    rw [cutChunk, if_pos, cut_splittingAt]
    rw [hpayload]
    rw [Nat.add_mul] at hnext
    omega
  · rw [cutChunk, if_neg]
    rw [hpayload]
    have hlast : packet.payloadLength < (n + 2) * size :=
      (Nat.div_lt_iff_lt_mul hpos).mp (by omega)
    rw [Nat.add_mul] at hlast
    omega
  · omega
  · exact Nat.zero_le n

theorem splitBySamples_nil (hbytes : 0 < bytesPerMs)
    (hlength : packet.payloadLength = 0) :
    splitBySamples rounds packet bytesPerMs timestampsPerMs = none := by
  have hsize : splitSize bytesPerMs packet.payloadLength = 0 := by
    obtain h | h := splitSize_cases hbytes packet.payloadLength <;> omega
  rw [splitBySamples, hsize, loop_eq_none (P := fun s => s.payload = [])]
  · rfl
  · intro s hs
    refine ⟨_, if_pos ?_, ?_⟩
    · rw [Nat.mul_zero]
      exact Nat.zero_le _
    · change s.payload.drop 0 = []
      rw [hs, List.drop_zero]
  · exact List.length_eq_zero_iff.mp hlength

variable {bytesPerFrame timestampsPerFrame : ℕ}

theorem splitByFrames_eq (hbytes : 0 < bytesPerFrame)
    (hwhole : packet.payloadLength % bytesPerFrame = 0)
    (hframes : packet.payloadLength / bytesPerFrame ≠ 1)
    (hrounds : packet.payloadLength < rounds) :
    splitByFrames rounds packet bytesPerFrame timestampsPerFrame =
      some (.kOK, (List.range (packet.payloadLength / bytesPerFrame)).map
        (chunk packet bytesPerFrame timestampsPerFrame)) := by
  set n := packet.payloadLength / bytesPerFrame with hn
  have hpayload : ∀ k, (splittingAt packet bytesPerFrame timestampsPerFrame
      k).payload.length = packet.payloadLength - k * bytesPerFrame :=
    fun k => List.length_drop
  have hmul : packet.payloadLength = n * bytesPerFrame := by
    rw [hn, Nat.div_mul_cancel (Nat.dvd_of_mod_eq_zero hwhole)]
  have hdiv : n ≤ packet.payloadLength := Nat.div_le_self _ _
  rw [splitByFrames, if_neg (not_not.mpr hwhole), if_neg hframes,
    ← splittingAt_zero packet bytesPerFrame timestampsPerFrame,
    loop_splittingAt (n := n)]
  · rfl
  · intro k hk
    have hnext : (k + 1) * bytesPerFrame ≤ n * bytesPerFrame :=
      Nat.mul_le_mul_right _ hk
    rw [cutFrame, if_pos, cut_splittingAt]
    rw [hpayload, hmul]
    rw [Nat.succ_mul] at hnext
    omega
  · rw [cutFrame, if_neg]
    rw [hpayload, hmul, Nat.sub_self]
    exact Nat.lt_irrefl 0
  · omega
  · exact Nat.zero_le n

theorem pieces_frames (hbytes : 0 < bytesPerFrame)
    (hwhole : packet.payloadLength % bytesPerFrame = 0) :
    Pieces (bytesPerFrame, timestampsPerFrame) packet
      ((List.range (packet.payloadLength / bytesPerFrame)).map
        (chunk packet bytesPerFrame timestampsPerFrame)) := by
  have hdvd := Nat.dvd_of_mod_eq_zero hwhole
  have hmul := Nat.div_mul_cancel hdvd
  cases hframes : packet.payloadLength / bytesPerFrame with
  | zero =>
    rw [hframes, Nat.zero_mul] at hmul
    have hnil : packet.payload = [] := List.length_eq_zero_iff.mp hmul.symm
    refine ⟨hnil.symm, ?_, ?_, ?_⟩
    · exact fun q hq => absurd hq List.not_mem_nil
    · exact fun i q hq => absurd hq (by simp)
    · exact fun q hq => absurd hq List.not_mem_nil
  | succ n =>
    rw [hframes] at hmul
    have hlast : chunk packet bytesPerFrame timestampsPerFrame n =
        lastPiece packet bytesPerFrame timestampsPerFrame n := by
      have hlength : (packet.payload.drop (n * bytesPerFrame)).length ≤
          bytesPerFrame := by
        rw [List.length_drop]
        rw [Nat.succ_mul, Packet.payloadLength] at hmul
        omega
      rw [chunk, lastPiece, List.take_of_length_le hlength]
    have hchunks : (List.range (n + 1)).map
        (chunk packet bytesPerFrame timestampsPerFrame) =
        chunksAndLast packet bytesPerFrame timestampsPerFrame n := by
      rw [List.range_succ, List.map_append, List.map_singleton, hlast]
      rfl
    rw [hchunks]
    refine pieces_chunksAndLast (Nat.dvd_refl _) ?_ ?_ hdvd
    · rw [Nat.div_self hbytes, Nat.one_mul]
    · rw [Nat.succ_mul] at hmul
      omega

/-! ## One packet -/

theorem sampleUnit_pos (hbytes : 0 < bytesPerMs) (timestampsPerMs : ℕ) :
    0 < (sampleUnit bytesPerMs timestampsPerMs).1 :=
  Nat.div_pos (Nat.le_of_dvd hbytes (Nat.gcd_dvd_left _ _))
    (Nat.gcd_pos_of_pos_left _ hbytes)

theorem timestampsPerChunk_eq (hbytes : 0 < bytesPerMs) {size : ℕ}
    (hsize : (sampleUnit bytesPerMs timestampsPerMs).1 ∣ size) :
    size * timestampsPerMs / bytesPerMs =
      size / (sampleUnit bytesPerMs timestampsPerMs).1 *
        (sampleUnit bytesPerMs timestampsPerMs).2 := by
  have hgcd := Nat.gcd_pos_of_pos_left timestampsPerMs hbytes
  have hb := Nat.div_mul_cancel (Nat.gcd_dvd_left bytesPerMs timestampsPerMs)
  have ht := Nat.div_mul_cancel (Nat.gcd_dvd_right bytesPerMs timestampsPerMs)
  have hpos := sampleUnit_pos hbytes timestampsPerMs
  rw [sampleUnit] at hsize hpos ⊢
  dsimp only at hsize hpos ⊢
  set g := bytesPerMs.gcd timestampsPerMs
  set u := bytesPerMs / g
  set v := timestampsPerMs / g
  obtain ⟨k, rfl⟩ := hsize
  rw [Nat.mul_div_cancel_left k hpos]
  have hleft : u * k * timestampsPerMs = bytesPerMs * (k * v) := by
    rw [← hb, ← ht]
    ring
  rw [hleft, Nat.mul_div_cancel_left _ hbytes]

theorem le_length_of_mem_chunksAndLast {minimum size timestamps n : ℕ}
    (hn : (n + 1) * size ≤ packet.payloadLength) (hminimum : minimum ≤ size)
    {q : Packet} (hq : q ∈ chunksAndLast packet size timestamps n) :
    minimum ≤ q.payload.length := by
  rw [Nat.succ_mul] at hn
  obtain ⟨i, hi⟩ := List.mem_iff_getElem?.mp hq
  obtain ⟨hlt, rfl⟩ | ⟨-, rfl⟩ := getElem?_chunksAndLast hi
  · rw [length_chunk (by omega) hlt]
    exact hminimum
  · change _ ≤ (packet.payload.drop (n * size)).length
    rw [List.length_drop]
    rw [Packet.payloadLength] at hn
    omega

theorem pieces_splitBySamples (hbytes : 0 < bytesPerMs)
    (hlength : 0 < packet.payloadLength)
    (hwhole : (sampleUnit bytesPerMs timestampsPerMs).1 ∣ packet.payloadLength)
    (hsize : (sampleUnit bytesPerMs timestampsPerMs).1 ∣
      splitSize bytesPerMs packet.payloadLength)
    (hrounds : packet.payloadLength < rounds) :
    ∃ pieces, splitBySamples rounds packet bytesPerMs timestampsPerMs =
        some pieces ∧
      Pieces (sampleUnit bytesPerMs timestampsPerMs) packet pieces ∧
      (bytesPerMs * 20 ≤ packet.payloadLength →
        ∀ q ∈ pieces, bytesPerMs * 20 ≤ q.payload.length) := by
  have hpos := splitSize_pos hbytes hlength
  have hcases := splitSize_cases hbytes packet.payloadLength
  have hmul := sub_one_mul_le hpos
    (show _ ≤ packet.payloadLength by omega)
  refine ⟨_, splitBySamples_eq hbytes hlength hrounds, ?_, ?_⟩
  · refine pieces_chunksAndLast hsize (timestampsPerChunk_eq hbytes hsize) ?_
      hwhole
    rw [Nat.succ_mul] at hmul
    omega
  · intro hminimum q hq
    exact le_length_of_mem_chunksAndLast hmul (by omega) hq

theorem splittable_of_pieces (hbytes : 0 < bytesPerMs) {pieces : List Packet}
    (h : splitBySamples rounds packet bytesPerMs timestampsPerMs = some pieces)
    (hrounds : packet.payloadLength < rounds)
    (hwhole : (sampleUnit bytesPerMs timestampsPerMs).1 ∣ packet.payloadLength)
    (hpieces : pieces = [packet] ∨
      Pieces (sampleUnit bytesPerMs timestampsPerMs) packet pieces) :
    0 < packet.payloadLength ∧ (sampleUnit bytesPerMs timestampsPerMs).1 ∣
      splitSize bytesPerMs packet.payloadLength := by
  have hlength : 0 < packet.payloadLength := by
    by_contra hnil
    rw [splitBySamples_nil hbytes (by omega)] at h
    cases h
  refine ⟨hlength, ?_⟩
  rw [splitBySamples_eq hbytes hlength hrounds, Option.some_inj] at h
  subst h
  have hpos := splitSize_pos hbytes hlength
  obtain hsame | ⟨hhalf, -⟩ := splitSize_cases hbytes packet.payloadLength
  · rw [hsame]
    exact hwhole
  · set size := splitSize bytesPerMs packet.payloadLength
    set n := packet.payloadLength / size - 1 with hn
    have htwo : 2 ≤ packet.payloadLength / size :=
      (Nat.le_div_iff_mul_le hpos).mpr hhalf
    have hmul : n * size ≤ packet.payloadLength :=
      (Nat.mul_le_mul_right size (Nat.sub_le _ 1)).trans
        (Nat.div_mul_le_self _ _)
    obtain hkept | hpieces := hpieces
    · have hcount := congrArg List.length hkept
      rw [chunksAndLast, List.length_append, List.length_map, List.length_range,
        List.length_singleton, List.length_singleton] at hcount
      omega
    · have hfirst := hpieces.whole (chunk packet size
        (size * timestampsPerMs / bytesPerMs) 0) (by
          refine List.mem_append_left _ (List.mem_map_of_mem ?_)
          exact List.mem_range.mpr (by omega))
      rwa [length_chunk hmul (by omega)] at hfirst

def Outcome.packets (packet : Packet) : Outcome → List Packet
  | .keep => [packet]
  | .replace newPackets => newPackets
  | .fail _ => [packet]

theorem conserved_keep (decoderDatabase : DecoderDatabase) (packet : Packet) :
    Conserved decoderDatabase packet [packet] where
  kept _ := rfl
  samples _ _ _ _ _ _ := .inl rfl
  frames _ _ _ := .inl rfl

theorem sampleRates_pos {codecType : NetEqDecoder}
    (h : sampleRates codecType = some (bytesPerMs, timestampsPerMs)) :
    0 < bytesPerMs ∧ codecType ≠ .kDecoderILBC := by
  cases codecType <;> cases h <;> decide

theorem ilbcFrame_pos {unit : ℕ × ℕ}
    (h : ilbcFrame length = some unit) : 0 < unit.1 ∧ length % unit.1 = 0 := by
  rw [ilbcFrame] at h
  split at h
  · rename_i hwhole
    cases h
    exact ⟨by decide, hwhole⟩
  · split at h
    · rename_i hwhole
      cases h
      exact ⟨by decide, hwhole⟩
    · cases h

theorem splitIlbc_conserved
    (hdatabase : decoderDatabase.getDecoderInfo packet.header.payloadType =
      some .kDecoderILBC) (hsync : packet.syncPacket = false)
    (hrounds : packet.payloadLength < rounds) :
    ∃ o, splitIlbc rounds packet = some o ∧
      Conserved decoderDatabase packet (o.packets packet) := by
  have hkeep := conserved_keep decoderDatabase packet
  rw [splitIlbc]
  split
  · exact ⟨_, rfl, hkeep⟩
  · cases hframe : ilbcFrame packet.payloadLength with
    | none => exact ⟨_, rfl, hkeep⟩
    | some unit =>
      obtain ⟨bytes, timestamps⟩ := unit
      obtain ⟨hpos, hwhole⟩ := ilbcFrame_pos hframe
      dsimp only at hpos hwhole ⊢
      by_cases hone : packet.payloadLength / bytes = 1
      · have hno : splitByFrames rounds packet bytes timestamps =
            some (.kNoSplit, []) := by
          rw [splitByFrames, if_neg (not_not.mpr hwhole), if_pos hone]
        rw [hno]
        exact ⟨.keep, rfl, hkeep⟩
      · rw [splitByFrames_eq hpos hwhole hone hrounds]
        refine ⟨.replace _, rfl, ?_, ?_, ?_⟩
        · rintro (h | h)
          · rw [hsync] at h
            cases h
          · exact absurd rfl (h _ hdatabase).2
        · intro codecType b t hcodec hrates
          rw [hdatabase, Option.some_inj] at hcodec
          subst hcodec
          cases hrates
        · intro unit _ hunit
          rw [hframe, Option.some_inj] at hunit
          subst hunit
          exact .inr (pieces_frames hpos hwhole)

theorem map_loop_mono {σ τ : Type} {step : σ → Option σ} {f : σ → τ}
    {m n : ℕ} (hmn : m ≤ n) {s : σ} {t : τ}
    (h : (loop step m s).map f = some t) : (loop step n s).map f = some t := by
  obtain ⟨u, hu, rfl⟩ := Option.map_eq_some_iff.mp h
  rw [loop_mono hmn hu, Option.map_some]

section Rounds

variable {rounds' : ℕ} (hle : rounds ≤ rounds')
include hle

theorem splitByFrames_mono {bytes timestamps : ℕ}
    {r : SplitterReturnCodes × List Packet}
    (h : splitByFrames rounds packet bytes timestamps = some r) :
    splitByFrames rounds' packet bytes timestamps = some r := by
  rw [splitByFrames] at h ⊢
  split at h
  · rename_i hwhole
    rw [if_pos hwhole]
    exact h
  · rename_i hwhole
    rw [if_neg hwhole]
    split at h
    · rename_i hone
      rw [if_pos hone]
      exact h
    · rename_i hone
      rw [if_neg hone]
      exact map_loop_mono hle h

theorem splitIlbc_mono {o : Outcome} (h : splitIlbc rounds packet = some o) :
    splitIlbc rounds' packet = some o := by
  rw [splitIlbc] at h ⊢
  split at h
  · rename_i hlarge
    rw [if_pos hlarge]
    exact h
  · rename_i hlarge
    rw [if_neg hlarge]
    cases hframe : ilbcFrame packet.payloadLength with
    | none =>
      rw [hframe] at h
      exact h
    | some unit =>
      rw [hframe] at h
      obtain ⟨r, hr, rfl⟩ := Option.map_eq_some_iff.mp h
      dsimp only
      rw [splitByFrames_mono hle hr, Option.map_some]

theorem splitPacket_mono {o : Outcome}
    (h : splitPacket rounds decoderDatabase packet = some o) :
    splitPacket rounds' decoderDatabase packet = some o := by
  rw [splitPacket] at h ⊢
  split at h
  · exact h
  · rename_i codecType hcodec
    split at h
    · rename_i hsync
      rw [if_pos hsync]
      exact h
    · rename_i hsync
      rw [if_neg hsync]
      split at h
      · rename_i hilbc
        rw [if_pos hilbc]
        exact splitIlbc_mono hle h
      · rename_i hilbc
        rw [if_neg hilbc]
        cases hrates : sampleRates codecType with
        | none =>
          rw [hrates] at h
          exact h
        | some rates =>
          rw [hrates] at h
          obtain ⟨pieces, hpieces, rfl⟩ := Option.map_eq_some_iff.mp h
          have hmore := map_loop_mono hle hpieces
          dsimp only
          rw [splitBySamples, hmore, Option.map_some]

end Rounds

theorem splitBySamples_conserved {codecType : NetEqDecoder}
    (hcodec : decoderDatabase.getDecoderInfo packet.header.payloadType =
      some codecType)
    (hrates : sampleRates codecType = some (bytesPerMs, timestampsPerMs))
    (hsync : packet.syncPacket = false)
    (hrounds : packet.payloadLength < rounds)
    (h : Splittable decoderDatabase packet) :
    ∃ pieces, splitBySamples rounds packet bytesPerMs timestampsPerMs =
        some pieces ∧ Conserved decoderDatabase packet pieces := by
  obtain ⟨hbytes, hilbc⟩ := sampleRates_pos hrates
  have hconserved : ∀ pieces : List Packet,
      ((sampleUnit bytesPerMs timestampsPerMs).1 ∣ packet.payloadLength →
        Pieces (sampleUnit bytesPerMs timestampsPerMs) packet pieces ∧
        (bytesPerMs * 20 ≤ packet.payloadLength →
          ∀ q ∈ pieces, bytesPerMs * 20 ≤ q.payload.length)) →
      Conserved decoderDatabase packet pieces := by
    intro pieces hpieces
    refine ⟨?_, ?_, ?_⟩
    · rintro (hkept | hkept)
      · rw [hsync] at hkept
        cases hkept
      · have hnone := (hkept _ hcodec).1
        rw [hrates] at hnone
        cases hnone
    · intro codecType' b t hcodec' hrates' hwhole
      rw [hcodec, Option.some_inj] at hcodec'
      subst hcodec'
      rw [hrates] at hrates'
      cases hrates'
      exact .inr (hpieces hwhole)
    · intro unit hcodec' _
      rw [hcodec, Option.some_inj] at hcodec'
      exact absurd hcodec' hilbc
  by_cases hwhole :
      (sampleUnit bytesPerMs timestampsPerMs).1 ∣ packet.payloadLength
  · obtain ⟨hlength, hsize⟩ := h _ _ _ hcodec hrates hsync hwhole
    obtain ⟨pieces, heq, hpieces⟩ :=
      pieces_splitBySamples hbytes hlength hwhole hsize hrounds
    exact ⟨pieces, heq, hconserved pieces fun _ => hpieces⟩
  · have hlength : 0 < packet.payloadLength := by
      by_contra hnil
      refine hwhole ?_
      rw [Nat.eq_zero_of_not_pos hnil]
      exact Nat.dvd_zero _
    exact ⟨_, splitBySamples_eq hbytes hlength hrounds,
      hconserved _ fun hdvd => absurd hdvd hwhole⟩

theorem splitPacket_conserved (hrounds : packet.payloadLength < rounds)
    (h : Splittable decoderDatabase packet) :
    ∃ o, splitPacket rounds decoderDatabase packet = some o ∧
      Conserved decoderDatabase packet (o.packets packet) := by
  have hkeep := conserved_keep decoderDatabase packet
  rw [splitPacket]
  cases hcodec : decoderDatabase.getDecoderInfo packet.header.payloadType with
  | none => exact ⟨_, rfl, hkeep⟩
  | some codecType =>
    dsimp only
    cases hsync : packet.syncPacket with
    | true => exact ⟨.keep, rfl, hkeep⟩
    | false =>
      rw [if_neg Bool.false_ne_true]
      by_cases hilbc : codecType = .kDecoderILBC
      · subst hilbc
        rw [if_pos rfl]
        exact splitIlbc_conserved hcodec hsync hrounds
      · rw [if_neg hilbc]
        cases hrates : sampleRates codecType with
        | none => exact ⟨.keep, rfl, hkeep⟩
        | some rates =>
          obtain ⟨pieces, hpieces, hgood⟩ :=
            splitBySamples_conserved hcodec hrates hsync hrounds h
          dsimp only
          rw [hpieces]
          exact ⟨.replace pieces, rfl, hgood⟩

variable {o : Outcome}

theorem splittable_of_splitPacket (hrounds : packet.payloadLength < rounds) (h : splitPacket rounds decoderDatabase packet = some o)
    (hconserved : Conserved decoderDatabase packet (o.packets packet)) :
    Splittable decoderDatabase packet := by
  intro codecType bytesPerMs timestampsPerMs hcodec hrates hsync hwhole
  obtain ⟨hbytes, hilbc⟩ := sampleRates_pos hrates
  rw [splitPacket, hcodec] at h
  dsimp only at h
  rw [hsync, if_neg Bool.false_ne_true, if_neg hilbc, hrates] at h
  obtain ⟨pieces, hpieces, rfl⟩ := Option.map_eq_some_iff.mp h
  refine splittable_of_pieces hbytes hpieces hrounds hwhole ?_
  obtain hkept | ⟨hpieces, -⟩ := hconserved.samples _ _ _ hcodec hrates hwhole
  · exact .inl hkept
  · exact .inr hpieces

theorem splitIlbc_outcome (h : splitIlbc rounds packet = some o) :
    (∃ ret, o = .fail ret) ↔ ¬(packet.payloadLength < 950 ∧
      (ilbcFrame packet.payloadLength).isSome) := by
  rw [splitIlbc] at h
  split at h
  · cases h
    exact ⟨fun _ hsmall => by omega, fun _ => ⟨_, rfl⟩⟩
  · cases hframe : ilbcFrame packet.payloadLength with
    | none =>
      rw [hframe] at h
      cases h
      exact ⟨fun _ hsome => Bool.false_ne_true hsome.2, fun _ => ⟨_, rfl⟩⟩
    | some unit =>
      rw [hframe] at h
      dsimp only at h
      refine ⟨?_, fun hnot => absurd ⟨by omega, rfl⟩ hnot⟩
      rintro ⟨ret, rfl⟩
      rw [splitByFrames, if_neg (not_not.mpr (ilbcFrame_pos hframe).2)] at h
      split at h
      · cases h
      · obtain ⟨r, hr, hfail⟩ := Option.map_eq_some_iff.mp h
        obtain ⟨u, -, rfl⟩ := Option.map_eq_some_iff.mp hr
        cases hfail

theorem fail_iff_of_splitPacket
    (h : splitPacket rounds decoderDatabase packet = some o) :
    (∃ ret, o = .fail ret) ↔ passes decoderDatabase packet = false := by
  rw [splitPacket] at h
  rw [passes]
  cases hcodec : decoderDatabase.getDecoderInfo packet.header.payloadType with
  | none =>
    rw [hcodec] at h
    cases h
    exact ⟨fun _ => rfl, fun _ => ⟨_, rfl⟩⟩
  | some codecType =>
    rw [hcodec] at h
    dsimp only at h ⊢
    split at h
    · rename_i hsync
      cases h
      rw [hsync]
      refine ⟨?_, fun hfalse => by cases hfalse⟩
      rintro ⟨ret, hret⟩
      cases hret
    · rename_i hsync
      split at h
      · rename_i hilbc
        rw [splitIlbc_outcome h]
        simp [hsync, hilbc]
      · rename_i hilbc
        have hpasses : (packet.syncPacket || codecType != .kDecoderILBC ||
            (decide (packet.payloadLength < 950) &&
              (ilbcFrame packet.payloadLength).isSome)) = true := by
          simp [hilbc]
        rw [hpasses]
        refine ⟨?_, fun hfalse => by cases hfalse⟩
        rintro ⟨ret, rfl⟩
        split at h
        · obtain ⟨pieces, -, hfail⟩ := Option.map_eq_some_iff.mp h
          cases hfail
        · cases h

/-! ## The packet list -/

variable {packetList : List Packet}

theorem forall₂_keep (decoderDatabase : DecoderDatabase)
    (packetList : List Packet) :
    List.Forall₂ (Conserved decoderDatabase) packetList
      (packetList.map fun p => [p]) := by
  induction packetList with
  | nil => exact .nil
  | cons packet packetList ih =>
    exact .cons (conserved_keep decoderDatabase packet) ih

theorem splitAudio_cons
    (h : splitPacket rounds decoderDatabase packet = some o)
    (hpasses : passes decoderDatabase packet = true) :
    splitAudio rounds decoderDatabase (packet :: packetList) =
      (splitAudio rounds decoderDatabase packetList).map fun r =>
        (r.1, o.packets packet :: r.2) := by
  have hfail := fail_iff_of_splitPacket h
  rw [hpasses] at hfail
  rw [splitAudio, h]
  cases o with
  | keep => rfl
  | replace newPackets => rfl
  | fail ret => exact absurd (hfail.mp ⟨ret, rfl⟩) Bool.true_eq_false_eq_False

theorem splittable_of_not_passes
    (hpasses : passes decoderDatabase packet = false) :
    Splittable decoderDatabase packet := by
  intro codecType bytesPerMs timestampsPerMs hcodec hrates hsync _
  have hilbc := (sampleRates_pos hrates).2
  rw [passes, hcodec] at hpasses
  simp [hilbc] at hpasses

theorem exists_splitAudio (hrounds : ∀ p ∈ packetList, p.payloadLength < rounds)
    (h : ∀ p ∈ packetList.takeWhile (passes decoderDatabase),
      Splittable decoderDatabase p) :
    ∃ ret groups,
      splitAudio rounds decoderDatabase packetList = some (ret, groups) ∧
      List.Forall₂ (Conserved decoderDatabase) packetList groups := by
  induction packetList with
  | nil => exact ⟨.kOK, [], rfl, .nil⟩
  | cons packet packetList ih =>
    obtain ⟨hhead, htail⟩ := List.forall_mem_cons.mp hrounds
    cases hpasses : passes decoderDatabase packet with
    | false =>
      obtain ⟨o, ho, -⟩ := splitPacket_conserved hhead
        (splittable_of_not_passes hpasses)
      obtain ⟨ret, rfl⟩ := (fail_iff_of_splitPacket ho).mpr hpasses
      refine ⟨ret, _, ?_, forall₂_keep decoderDatabase _⟩
      rw [splitAudio, ho]
    | true =>
      rw [List.takeWhile_cons, hpasses, if_pos rfl] at h
      obtain ⟨hsplittable, hrest⟩ := List.forall_mem_cons.mp h
      obtain ⟨o, ho, hconserved⟩ := splitPacket_conserved hhead hsplittable
      obtain ⟨ret, groups, heq, hforall⟩ := ih htail hrest
      refine ⟨ret, _, ?_, .cons hconserved hforall⟩
      rw [splitAudio_cons ho hpasses, heq, Option.map_some]

theorem splittable_of_splitAudio {ret : SplitterReturnCodes}
    {groups : List (List Packet)}
    (h : splitAudio rounds decoderDatabase packetList = some (ret, groups))
    (hforall : List.Forall₂ (Conserved decoderDatabase) packetList groups) :
    ∀ p ∈ packetList.takeWhile (passes decoderDatabase),
      Splittable decoderDatabase p := by
  induction packetList generalizing groups with
  | nil => exact fun p hp => absurd hp List.not_mem_nil
  | cons packet packetList ih =>
    cases hpasses : passes decoderDatabase packet with
    | false =>
      rw [List.takeWhile_cons, hpasses, if_neg Bool.false_ne_true]
      exact fun p hp => absurd hp List.not_mem_nil
    | true =>
      rw [List.takeWhile_cons, hpasses, if_pos rfl]
      cases ho : splitPacket rounds decoderDatabase packet with
      | none =>
        rw [splitAudio, ho] at h
        cases h
      | some o =>
        rw [splitAudio_cons ho hpasses] at h
        obtain ⟨⟨ret', groups'⟩, hr, heq⟩ := Option.map_eq_some_iff.mp h
        obtain ⟨rfl, rfl⟩ := Prod.mk.inj heq
        obtain ⟨hconserved, hrest⟩ := List.forall₂_cons.mp hforall
        have hmore := splitPacket_mono
          (Nat.le_add_right rounds (packet.payloadLength + 1)) ho
        exact List.forall_mem_cons.mpr
          ⟨splittable_of_splitPacket (by omega) hmore hconserved,
            ih hr hrest⟩

theorem exists_rounds (packetList : List Packet) :
    ∃ rounds, ∀ p ∈ packetList, p.payloadLength < rounds := by
  induction packetList with
  | nil => exact ⟨0, fun p hp => absurd hp List.not_mem_nil⟩
  | cons packet packetList ih =>
    obtain ⟨rounds, h⟩ := ih
    refine ⟨packet.payloadLength + 1 + rounds, List.forall_mem_cons.mpr
      ⟨by omega, fun p hp => ?_⟩⟩
    have hlt := h p hp
    omega

/-- SplitAudio conserves samples and time exactly when halving the chunk size
does not split a sample of a packet that it comes to. -/
theorem splitAudio_conserved_iff :
    (∃ rounds ret groups,
      splitAudio rounds decoderDatabase packetList = some (ret, groups) ∧
      List.Forall₂ (Conserved decoderDatabase) packetList groups) ↔
    ∀ p ∈ packetList.takeWhile (passes decoderDatabase),
      Splittable decoderDatabase p := by
  constructor
  · rintro ⟨rounds, ret, groups, h, hforall⟩
    exact splittable_of_splitAudio h hforall
  · intro h
    obtain ⟨rounds, hrounds⟩ := exists_rounds packetList
    exact ⟨rounds, exists_splitAudio hrounds h⟩

/-- 321 samples of two bytes are cut in the middle of a sample. -/
theorem not_forall_splitAudio :
    ¬∀ (decoderDatabase : DecoderDatabase) (packetList : List Packet),
      ∃ rounds ret groups,
        splitAudio rounds decoderDatabase packetList = some (ret, groups) ∧
        List.Forall₂ (Conserved decoderDatabase) packetList groups := by
  intro h
  let p : Packet :=
    { payload := List.replicate 642 0 }
  obtain ⟨rounds, ret, groups, heq, hforall⟩ :=
    h (fun _ => some .kDecoderPCM16B) [p]
  have hlength : p.payloadLength = 642 := List.length_replicate
  obtain ⟨-, hsize⟩ := splittable_of_splitAudio heq hforall p
    (List.mem_singleton_self p) .kDecoderPCM16B 16 8 rfl rfl rfl (by
      rw [hlength]
      decide)
  have hsplit : splitSize 16 642 = 321 := by decide
  rw [hlength, hsplit] at hsize
  exact absurd hsize (by decide)

end WebrtcWinXp.NetEq.PayloadSplitter
