import WebrtcWinXp.FileTransfer.Repository
import WebrtcWinXp.P2pData.Md5

/-!
# The MD5 of a file

`WebrtcFileMd5Parasitic::CaculateFileMd5`, which reads a file in pieces.  The
piece size is that of the caller as long as at least `PER_BLOCK_SIZE` bytes
remain; fewer are read at once.
-/

namespace WebrtcWinXp.P2pData

open Support
open FileTransfer (PER_BLOCK_SIZE)

/-- The loop: the place in the file, whether the stream is good, the size of a
piece, the context, and the pieces that it was given. -/
structure FileReading where
  position : ℕ
  good : Bool
  currentReadSize : ℕ
  context : MD5Context
  fed : List (List UInt8)

/-- One round, for a file whose size is a `long`. -/
def readStep (content : List UInt8) (s : FileReading) : Option FileReading :=
  if !s.good then none
  else
    let filesize := UInt32.ofNat content.length
    let curseek := UInt32.ofNat s.position
    let currentReadSize :=
      if filesize - curseek < UInt32.ofNat PER_BLOCK_SIZE then
        (filesize - curseek).toNat
      else s.currentReadSize
    if currentReadSize = 0 then none
    else
      let piece := (content.drop s.position).take currentReadSize
      some
        { position := s.position + piece.length
          good := piece.length = currentReadSize
          currentReadSize := currentReadSize
          context := md5Update s.context piece
          fed := s.fed ++ [piece] }

def hexDigits (digest : List UInt8) : List Char :=
  digest.flatMap fun b =>
    [Nat.digitChar (b.toNat / 16), Nat.digitChar (b.toNat % 16)]

/-- `CaculateFileMd5` of a file that can be opened, if the loop ends within
some rounds: the pieces for `MD5Update`, and the result.  The stack has
`input` where the context keeps its buffer. -/
def caculateFileMd5 (input : Octets 64) (content : List UInt8) (blocksize : ℕ)
    (rounds : ℕ) : Option (List (List UInt8) × List Char) :=
  if PER_BLOCK_SIZE < blocksize then some ([], [])
  else
    (loop (readStep content) rounds
      { position := 0
        good := true
        currentReadSize := blocksize
        context := md5Init input
        fed := [] }).map fun s => (s.fed, hexDigits (md5Final s.context))

/-! ## The loop -/

/-- The pieces are those of the part that was read, and fit the buffer. -/
structure FileReading.Sound (input : Octets 64) (content : List UInt8)
    (s : FileReading) : Prop where
  position_le : s.position ≤ content.length
  good : s.good
  size_pos : 0 < s.currentReadSize
  size_le : s.currentReadSize ≤ PER_BLOCK_SIZE
  fed : s.fed.flatten = content.take s.position
  pieces : ∀ piece ∈ s.fed, piece.length ≤ PER_BLOCK_SIZE
  context : s.context = s.fed.foldl md5Update (md5Init input)

variable {input : Octets 64} {content : List UInt8} {s t : FileReading}

theorem remaining_toNat (hlong : content.length < 2 ^ 31)
    (h : s.position ≤ content.length) :
    (UInt32.ofNat content.length - UInt32.ofNat s.position).toNat =
      content.length - s.position := by
  rw [UInt32.toNat_sub_of_le, UInt32.toNat_ofNat', UInt32.toNat_ofNat']
  · omega
  · rw [UInt32.le_iff_toNat_le, UInt32.toNat_ofNat', UInt32.toNat_ofNat']
    omega

theorem FileReading.Sound.round (h : s.Sound input content)
    (hlong : content.length < 2 ^ 31) :
    (readStep content s = none ∧ s.position = content.length) ∨
      ∃ t, readStep content s = some t ∧ t.Sound input content ∧
        s.position < t.position := by
  have hposition := h.position_le
  have hremaining := remaining_toNat hlong h.position_le
  have hblock : (UInt32.ofNat PER_BLOCK_SIZE).toNat = PER_BLOCK_SIZE := rfl
  have hsize_pos := h.size_pos
  have hsize_le := h.size_le
  -- The size of the piece fits what remains.
  obtain ⟨size, hsize, hle, hfits, hzero⟩ : ∃ size,
      (if UInt32.ofNat content.length - UInt32.ofNat s.position <
          UInt32.ofNat PER_BLOCK_SIZE then
        (UInt32.ofNat content.length - UInt32.ofNat s.position).toNat
      else s.currentReadSize) = size ∧ size ≤ PER_BLOCK_SIZE ∧
        size ≤ content.length - s.position ∧
        (size = 0 → s.position = content.length) := by
    refine ⟨_, rfl, ?_⟩
    simp only [UInt32.lt_iff_toNat_lt, hremaining, hblock]
    split <;> omega
  unfold readStep
  dsimp only
  rw [h.good, hsize, if_neg (by decide)]
  by_cases hend : size = 0
  · exact .inl ⟨if_pos hend, hzero hend⟩
  have hlength : ((content.drop s.position).take size).length = size := by
    rw [List.length_take, List.length_drop]
    omega
  refine .inr ⟨_, if_neg hend, ⟨?_, ?_, ?_, hle, ?_, ?_, ?_⟩, ?_⟩
  · dsimp only
    omega
  · simpa using hlength
  · exact Nat.pos_of_ne_zero hend
  · dsimp only
    rw [List.flatten_append, h.fed, List.flatten_singleton, hlength,
      List.take_add]
  · intro piece hpiece
    rcases List.mem_append.mp hpiece with hold | hnew
    · exact h.pieces piece hold
    · rw [List.mem_singleton.mp hnew, hlength]
      exact hle
  · rw [List.foldl_append, ← h.context]
    rfl
  · dsimp only
    omega

theorem FileReading.Sound.loop (h : s.Sound input content)
    (hlong : content.length < 2 ^ 31) :
    ∃ rounds t, Support.loop (readStep content) rounds s = some t ∧
      t.Sound input content ∧ t.position = content.length := by
  induction hleft : content.length - s.position using Nat.strongRecOn
    generalizing s with
  | ind left ih =>
    rcases h.round hlong with ⟨hnone, hend⟩ | ⟨t, hsome, ht, hlt⟩
    · exact ⟨1, s, by rw [Support.loop, hnone], h, hend⟩
    · have hle := ht.position_le
      obtain ⟨rounds, u, hloop, hu⟩ := ih _ (by omega) ht rfl
      exact ⟨rounds + 1, u, by rw [Support.loop, hsome]; exact hloop, hu⟩

/-- The loop ends for every block size up to `PER_BLOCK_SIZE`: it gives the
whole file to `MD5Update` in pieces that fit the buffer, and the result is the
MD5 of the file. -/
theorem caculateFileMd5_wholeFile (input : Octets 64) (content : List UInt8)
    (hlong : content.length < 2 ^ 31) (blocksize : ℕ) (hpos : 1 ≤ blocksize)
    (hle : blocksize ≤ PER_BLOCK_SIZE) :
    ∃ fed : List (List UInt8),
      fed.flatten = content ∧
      (∀ piece ∈ fed, piece.length ≤ PER_BLOCK_SIZE + 1) ∧
      (∃ rounds, caculateFileMd5 input content blocksize rounds =
        some (fed, hexDigits (md5 content))) ∧
      ∀ rounds result, caculateFileMd5 input content blocksize rounds =
        some result → result = (fed, hexDigits (md5 content)) := by
  have hstart : FileReading.Sound input content
      { position := 0
        good := true
        currentReadSize := blocksize
        context := md5Init input
        fed := [] } :=
    ⟨Nat.zero_le _, rfl, hpos, hle, rfl,
      fun _ hmem => absurd hmem List.not_mem_nil, rfl⟩
  obtain ⟨rounds, t, hloop, ht, hend⟩ := hstart.loop hlong
  have hwhole : t.fed.flatten = content := by
    rw [ht.fed, hend, List.take_length]
  have hdigest : md5Final t.context = md5 content := by
    rw [ht.context, md5Final_foldl_md5Update, hwhole]
  have hresult : caculateFileMd5 input content blocksize rounds =
      some (t.fed, hexDigits (md5 content)) := by
    rw [caculateFileMd5, if_neg (by omega), hloop, Option.map_some, hdigest]
  refine ⟨t.fed, hwhole, ?_, ⟨rounds, hresult⟩, ?_⟩
  · intro piece hpiece
    exact (ht.pieces piece hpiece).trans (Nat.le_succ _)
  · intro rounds' result hother
    rw [caculateFileMd5, if_neg (by omega)] at hother hresult
    obtain ⟨t', hloop', rfl⟩ := Option.map_eq_some_iff.mp hother
    obtain ⟨t'', hloop'', heq⟩ := Option.map_eq_some_iff.mp hresult
    rw [← heq]
    have hmax := loop_mono (Nat.le_max_left rounds rounds') hloop''
    have hmax' := loop_mono (Nat.le_max_right rounds rounds') hloop'
    rw [hmax] at hmax'
    cases hmax'
    rfl

/-- A file of 1030 bytes in blocks of 1000. -/
theorem caculateFileMd5_twoPieces :
    ∃ fed : List (List UInt8), fed.flatten = List.replicate 1030 7 ∧
      ∃ rounds, caculateFileMd5 ⟨List.replicate 64 0, rfl⟩
        (List.replicate 1030 7) 1000 rounds =
          some (fed, hexDigits (md5 (List.replicate 1030 7))) := by
  obtain ⟨fed, hwhole, -, hresult, -⟩ := caculateFileMd5_wholeFile
    ⟨List.replicate 64 0, rfl⟩ (List.replicate 1030 7)
      (by rw [List.length_replicate]; decide) 1000 (by decide) (by decide)
  exact ⟨fed, hwhole, hresult⟩

end WebrtcWinXp.P2pData
