import WebrtcWinXp.H264.Packetizer

/-!
# The queue of packets

What `GeneratePackets` leaves in the queue: the pieces of a fragment that is
too long for a payload, and runs of fragments that fit a payload together.
-/

namespace WebrtcWinXp.H264

open Support

namespace RtpPacketizerH264

variable (p : RtpPacketizerH264)

/-! ## Pieces of a fragment -/

/-- Packets of at most `room` bytes for `len` bytes of a fragment, from an
offset on. -/
inductive Pieces (fragmentOffset room : ℕ) : ℕ → ℕ → List Packet → Prop
  | nil {offset : ℕ} : Pieces fragmentOffset room offset 0 []
  | cons {offset size len : ℕ} {packets : List Packet} (hpos : 0 < size)
      (hroom : size ≤ room)
      (h : Pieces fragmentOffset room (offset + size) len packets) :
      Pieces fragmentOffset room offset (size + len)
        (⟨offset, size, decide (offset - kNalHeaderSize = fragmentOffset),
          decide (len = 0), false, p.headerAt fragmentOffset⟩ :: packets)

variable {p} {fragmentOffset avgSize room : ℕ}

theorem lowers_fuAStep (havg : 0 < avgSize) :
    Lowers (p.fuAStep fragmentOffset avgSize) FuA.fragmentLength := by
  intro c c' h
  unfold fuAStep at h
  split at h
  · cases h
    dsimp only
    split_ifs <;> omega
  · cases h

theorem finish_fuAStep (havg : 0 < avgSize) (hroom : avgSize ≤ room)
    (offset fragmentLength : ℕ) (packets : List Packet) :
    ∃ pieces,
      (finish (p.fuAStep fragmentOffset avgSize) FuA.fragmentLength
        ⟨offset, fragmentLength, packets⟩).packets = packets ++ pieces ∧
      p.Pieces fragmentOffset room offset fragmentLength pieces := by
  induction fragmentLength using Nat.strong_induction_on
    generalizing offset packets with
  | _ fragmentLength ih =>
    by_cases hzero : fragmentLength = 0
    · subst hzero
      refine ⟨[], ?_, .nil⟩
      rw [finish_of_eq_none rfl, List.append_nil]
    let size :=
      if fragmentLength < avgSize then fragmentLength else avgSize
    have hsize : 0 < size ∧ size ≤ avgSize ∧ size ≤ fragmentLength := by
      dsimp only [size]
      split_ifs <;> omega
    let packet : Packet :=
      ⟨offset, size, decide (offset - kNalHeaderSize = fragmentOffset),
        decide (fragmentLength = size), false, p.headerAt fragmentOffset⟩
    have hstep : p.fuAStep fragmentOffset avgSize
        ⟨offset, fragmentLength, packets⟩ =
          some ⟨offset + size, fragmentLength - size,
            packets ++ [packet]⟩ := by
      rw [fuAStep, if_pos (Nat.pos_of_ne_zero hzero)]
    obtain ⟨pieces, heq, hpieces⟩ := ih (fragmentLength - size) (by omega)
      (offset + size) (packets ++ [packet])
    refine ⟨packet :: pieces, ?_, ?_⟩
    · rw [finish_of_eq_some (lowers_fuAStep havg) hstep, heq,
        List.append_assoc]
      rfl
    · have hcons := Pieces.cons hsize.1 (hsize.2.1.trans hroom) hpieces
      have hlast : decide (fragmentLength - size = 0) =
          decide (fragmentLength = size) :=
        decide_eq_decide.mpr (by omega)
      rwa [Nat.add_sub_cancel' hsize.2.2, hlast] at hcons

theorem avgSize_le {len room : ℕ} (hroom : 0 < room) :
    (len + (len + (room - 1)) / room - 1) /
      ((len + (room - 1)) / room) ≤ room := by
  have hceil : len ≤ (len + (room - 1)) / room * room := by
    have hdiv := Nat.div_add_mod (len + (room - 1)) room
    have hmod := Nat.mod_lt (len + (room - 1)) hroom
    rw [Nat.mul_comm] at hdiv
    omega
  generalize (len + (room - 1)) / room = n at hceil
  rcases Nat.eq_zero_or_pos n with rfl | hn
  · rw [Nat.div_zero]
    exact Nat.zero_le _
  · have hlt : len + n - 1 < n * (room + 1) := by
      rw [Nat.mul_add, Nat.mul_one]
      omega
    exact Nat.lt_succ_iff.mp (Nat.div_lt_of_lt_mul hlt)

theorem avgSize_pos {len n : ℕ} (hlen : 0 < len) (hn : 0 < n) :
    0 < (len + n - 1) / n :=
  Nat.div_pos (by omega) hn

theorem packetizeFuA_eq (hroom : kFuAHeaderSize < p.maxPayloadLen)
    {fragmentLength : ℕ} (hlen : kNalHeaderSize < fragmentLength)
    (packets : List Packet) :
    ∃ pieces,
      p.packetizeFuA fragmentOffset fragmentLength packets =
        packets ++ pieces ∧
      p.Pieces fragmentOffset (p.maxPayloadLen - kFuAHeaderSize)
        (fragmentOffset + kNalHeaderSize) (fragmentLength - kNalHeaderSize)
        pieces := by
  have hpos : 0 < p.maxPayloadLen - kFuAHeaderSize := by omega
  refine finish_fuAStep (avgSize_pos (by omega) ?_) (avgSize_le hpos) _ _ _
  exact Nat.div_pos (by omega) hpos

variable (p) in
/-- The packets for fragments that share a payload. -/
def shared : Bool → List Fragment → List Packet
  | _, [] => []
  | first, f :: fs =>
    ⟨f.fragmentationOffset, f.fragmentationLength, first, fs.isEmpty, true,
      p.headerAt f.fragmentationOffset⟩ :: shared false fs

def sharedSize (fs : List Fragment) : ℕ :=
  (fs.map fun f => kLengthFieldSize + f.fragmentationLength).sum

theorem markLast_append (packets : List Packet) {back : List Packet}
    (hback : back ≠ []) :
    markLast (packets ++ back) = packets ++ markLast back := by
  induction packets with
  | nil => rfl
  | cons packet packets ih =>
    obtain ⟨packet', rest, heq⟩ := List.exists_cons_of_ne_nil
      (List.append_ne_nil_of_right_ne_nil packets hback)
    rw [List.cons_append, List.cons_append, ← ih, heq]
    rfl

theorem stapALoop_eq (left headers aggregated : ℕ) (h : aggregated ≠ 0)
    (fs : List Fragment) :
    ∃ done rest, fs = done ++ rest ∧
      (p.stapALoop left headers aggregated fs).2 = rest ∧
      (∀ packet : Packet, packet.lastFragment = false →
        markLast (packet :: (p.stapALoop left headers aggregated fs).1) =
          { packet with
            lastFragment := done.isEmpty } :: p.shared false done) ∧
      (done ≠ [] → sharedSize done + headers ≤ left + kLengthFieldSize) := by
  induction fs generalizing left headers aggregated with
  | nil => exact ⟨[], [], rfl, rfl, fun _ _ => rfl, fun h => absurd rfl h⟩
  | cons f fs ih =>
    rw [stapALoop]
    split_ifs with hfits
    · obtain ⟨done, rest, rfl, hrest, hmark, hsize⟩ :=
        ih (left - f.fragmentationLength - headers) kLengthFieldSize
          (aggregated + 1) (Nat.succ_ne_zero _)
      refine ⟨f :: done, rest, rfl, hrest, fun packet hpacket => ?_,
        fun _ => ?_⟩
      · have hnext := hmark ⟨f.fragmentationOffset, f.fragmentationLength,
          decide (aggregated = 0), false, true,
          p.headerAt f.fragmentationOffset⟩ rfl
        refine (congrArg (packet :: ·) hnext).trans ?_
        rw [decide_eq_false h]
        obtain ⟨offset, size, first, last, aggregated, header⟩ := packet
        cases hpacket
        rfl
      · rw [sharedSize, List.map_cons, List.sum_cons, ← sharedSize]
        by_cases hdone : done = []
        · subst hdone
          simp only [sharedSize, List.map_nil, List.sum_nil]
          omega
        · have hle := hsize hdone
          omega
    · exact ⟨[], f :: fs, rfl, rfl, fun _ _ => rfl, fun h => absurd rfl h⟩

theorem packetizeStapA_eq {f : Fragment}
    (hfits : f.fragmentationLength ≤ p.maxPayloadLen) (fs : List Fragment)
    (packets : List Packet) :
    ∃ done rest, fs = done ++ rest ∧
      p.packetizeStapA (f :: fs) packets =
        (packets ++ p.shared true (f :: done), rest) ∧
      (done ≠ [] →
        kNalHeaderSize + sharedSize (f :: done) ≤ p.maxPayloadLen) := by
  obtain ⟨done, rest, rfl, hrest, hmark, hsize⟩ := p.stapALoop_eq
    (p.maxPayloadLen - f.fragmentationLength - 0)
    (kLengthFieldSize + (kNalHeaderSize + kLengthFieldSize)) 1 Nat.one_ne_zero
    fs
  refine ⟨done, rest, rfl, ?_, fun hdone => ?_⟩
  · rw [packetizeStapA, stapALoop, if_pos (by omega), if_pos rfl]
    dsimp only
    rw [hrest, markLast_append _ (List.cons_ne_nil _ _), hmark _ rfl]
    rfl
  · have hle := hsize hdone
    rw [sharedSize, List.map_cons, List.sum_cons, ← sharedSize]
    omega

variable (p) in
/-- What one round of `GeneratePackets` puts into the queue, and for which
fragments. -/
inductive Group : List Packet → List Fragment → Prop
  | fuA {f : Fragment} {packets : List Packet}
      (hlong : p.maxPayloadLen < f.fragmentationLength)
      (h : p.Pieces f.fragmentationOffset (p.maxPayloadLen - kFuAHeaderSize)
        (f.fragmentationOffset + kNalHeaderSize)
        (f.fragmentationLength - kNalHeaderSize) packets) :
      Group packets [f]
  | single {f : Fragment} (h : f.fragmentationLength ≤ p.maxPayloadLen) :
      Group (p.shared true [f]) [f]
  | stapA {f f' : Fragment} {fs : List Fragment}
      (h : kNalHeaderSize + sharedSize (f :: f' :: fs) ≤ p.maxPayloadLen) :
      Group (p.shared true (f :: f' :: fs)) (f :: f' :: fs)

variable (p) in
/-- A queue of groups. -/
inductive Queued : List Packet → List Fragment → Prop
  | nil : Queued [] []
  | group {ps packets : List Packet} {fs fragments : List Fragment}
      (h : p.Group ps fs) (hrest : Queued packets fragments) :
      Queued (ps ++ packets) (fs ++ fragments)

theorem Queued.snoc {ps packets : List Packet} {fs fragments : List Fragment}
    (hqueued : p.Queued packets fragments) (h : p.Group ps fs) :
    p.Queued (packets ++ ps) (fragments ++ fs) := by
  induction hqueued with
  | nil =>
    have hgroup := Queued.group h .nil
    rwa [List.append_nil, List.append_nil] at hgroup
  | group h' _ ih =>
    rw [List.append_assoc, List.append_assoc]
    exact .group h' ih

/-- A round of `GeneratePackets` appends a group. -/
theorem generateStep_group (hmax : 3 ≤ p.maxPayloadLen)
    {packets packets' : List Packet} {fragments rest : List Fragment}
    (h : p.generateStep (packets, fragments) = some (packets', rest)) :
    ∃ ps fs, packets' = packets ++ ps ∧ fragments = fs ++ rest ∧ fs ≠ [] ∧
      p.Group ps fs := by
  cases fragments with
  | nil => cases h
  | cons f fs =>
    rw [generateStep] at h
    split_ifs at h with hlong
    · obtain ⟨pieces, heq, hpieces⟩ := p.packetizeFuA_eq
        (show kFuAHeaderSize < p.maxPayloadLen from hmax)
        (show kNalHeaderSize < f.fragmentationLength by
          rw [kNalHeaderSize]; omega) packets
      rw [heq] at h
      cases h
      exact ⟨pieces, [f], rfl, rfl, List.cons_ne_nil _ _,
        .fuA hlong hpieces⟩
    · have hfits := Nat.not_lt.mp hlong
      obtain ⟨done, rest', rfl, heq, hsize⟩ :=
        p.packetizeStapA_eq hfits fs packets
      rw [heq] at h
      cases h
      refine ⟨_, f :: done, rfl, rfl, List.cons_ne_nil _ _, ?_⟩
      cases done with
      | nil => exact .single hfits
      | cons f' done => exact .stapA (hsize (List.cons_ne_nil _ _))

theorem queued_generatePackets (hmax : 3 ≤ p.maxPayloadLen) :
    p.Queued p.generatePackets p.fragmentation := by
  have hround : ∀ s s' : List Packet × List Fragment,
      (∃ done, p.fragmentation = done ++ s.2 ∧ p.Queued s.1 done) →
      p.generateStep s = some s' →
      (∃ done, p.fragmentation = done ++ s'.2 ∧ p.Queued s'.1 done) ∧
        s'.2.length < s.2.length := by
    rintro ⟨packets, fragments⟩ ⟨packets', rest⟩ ⟨done, hdone, hqueued⟩ hstep
    obtain ⟨ps, fs, rfl, rfl, hne, hgroup⟩ := generateStep_group hmax hstep
    refine ⟨⟨done ++ fs, ?_, hqueued.snoc hgroup⟩, ?_⟩
    · rw [hdone, List.append_assoc]
    · have hpos := List.length_pos_iff.mpr hne
      dsimp only
      rw [List.length_append]
      omega
  have hstart : ∃ done, p.fragmentation =
      done ++ (([], p.fragmentation) : List Packet × List Fragment).2 ∧
        p.Queued [] done := ⟨[], rfl, .nil⟩
  obtain ⟨⟨done, hdone, hqueued⟩, hend⟩ := finish_of_invariant hround hstart
  rw [generatePackets]
  generalize finish p.generateStep (fun s => s.2.length)
    ([], p.fragmentation) = s at hdone hqueued hend
  obtain ⟨packets, rest⟩ := s
  cases rest with
  | nil => rwa [hdone, List.append_nil]
  | cons f fs =>
    rw [generateStep] at hend
    split_ifs at hend

end RtpPacketizerH264

end WebrtcWinXp.H264
