import WebrtcWinXp.Fec.Soundness

/-!
# Decoding is sound

In every run of `DecodeFEC` calls on packets of one batch, everything that is
stored is right, so that everything that is recovered is.
-/

namespace WebrtcWinXp.Fec

open Support

section Copies

variable {media : List Packet} {fec copy : Packet}

theorem SameBytes.decodable (h : SameBytes copy fec)
    (hfec : Decodable media fec) : Decodable media copy := by
  have hsize := hfec.size
  have hulp := ulpHeaderSize_eq fec.lBit
  unfold kFecHeaderSize at hsize
  have hdata : ∀ i < 12 + maskSize fec.lBit, copy.data i = fec.data i :=
    fun i hi => h.2 i (by omega)
  have hlBit : copy.lBit = fec.lBit := congrArg (fun x => bit x 6)
    (hdata 0 (by omega))
  have hbase : copy.snBase = fec.snBase := by
    unfold Packet.snBase bufferToUWord16
    rw [hdata 2 (by omega), hdata 3 (by omega)]
  have hlength : copy.protectionLength = fec.protectionLength := by
    unfold Packet.protectionLength bufferToUWord16
    rw [hdata 10 (by omega), hdata 11 (by omega)]
  have hmask : ∀ c < 8 * maskSize fec.lBit,
      maskBit copy.data 12 c = maskBit fec.data 12 c :=
    fun c hc => maskBit_congr hc fun b hb => hdata (12 + b) (by omega)
  have hannounces : copy.announces = fec.announces := by
    funext p
    unfold Packet.announces
    rw [hlBit, hbase]
    by_cases hlt : offset fec.snBase p < 8 * maskSize fec.lBit
    · rw [hmask _ hlt]
    · rw [decide_eq_false hlt, Bool.false_and, Bool.false_and]
  constructor
  · constructor
    · intro i hi
      rw [hannounces, hdata 0 (by omega), hfec.first_byte i hi]
    · rw [hannounces, hdata 1 (by omega), hfec.second_byte]
    · intro i h4 h8
      rw [hannounces, hdata i (by omega), hfec.timestamp i h4 h8]
    · rw [hannounces, hdata 8 (by omega), hfec.length_high]
    · rw [hannounces, hdata 9 (by omega), hfec.length_low]
    · rw [hannounces, hlength]
      exact hfec.protection_length
    · intro j hj
      rw [hlength] at hj
      rw [hannounces, hlBit, h.2 _ (by unfold kFecHeaderSize; omega),
        hfec.payload j hj]
    · rw [h.1, hlBit, hlength]
      exact hfec.size
    · rw [h.1]
      exact hfec.fits
  · intro c hc hset
    rw [hlBit] at hc
    rw [hmask c hc] at hset
    obtain ⟨p, hp, heq⟩ := hfec.exists_packet c hc hset
    exact ⟨p, hp, by rw [hbase]; exact heq⟩

end Copies

/-! ## One call -/

/-- What is delivered: a copy of a media packet or of a FEC packet, which may
have any sequence number of its own. -/
inductive Delivered (media fecPackets : List Packet) (ssrc : UInt32)
    (rx : ReceivedPacket) : Prop where
  | media (hfec : rx.isFec = false)
      (h : Original media rx.seqNum rx.pkt)
  | fec (hfec : rx.isFec = true) (hssrc : rx.ssrc = ssrc)
      (h : ∃ fec ∈ fecPackets, SameBytes rx.pkt fec)

/-- Everything that the decoder has is right. -/
structure Sound (media : List Packet) (ssrc : UInt32) (s : Decoder) : Prop where
  recovered : ∀ r ∈ s.recoveredPacketList, Original media r.seqNum r.pkt
  stored : ∀ fec ∈ s.fecPacketList, Stored media ssrc fec
  recoveries : ∀ r ∈ s.recoveries, Original media r.seqNum r.pkt

section Call

variable {media fecPackets : List Packet} {ssrc : UInt32} {s : Decoder}

theorem sound_empty : Sound media ssrc Decoder.empty :=
  ⟨nofun, nofun, nofun⟩

theorem Stored.updateCovering {fec : FecPacket} {packet : RecoveredPacket}
    (h : Stored media ssrc fec)
    (hpacket : Original media packet.seqNum packet.pkt) :
    Stored media ssrc { fec with
      protectedPktList := updateCovering packet fec.protectedPktList } where
  decodable := h.decodable
  ssrc := h.ssrc
  seqNums := (updateCovering_seqNums _ _).trans h.seqNums
  known p hp q hq := by
    rcases mem_updateCovering hp with hp | ⟨hseq, hpkt⟩
    · exact h.known p hp q hq
    · rw [hpkt, Option.some_inj] at hq
      rw [hseq, ← hq]
      exact hpacket

theorem stored_updateCovering {l : List FecPacket} {packet : RecoveredPacket}
    (h : ∀ fec ∈ l, Stored media ssrc fec)
    (hpacket : Original media packet.seqNum packet.pkt) :
    ∀ fec ∈ updateCoveringFecPackets packet l, Stored media ssrc fec := by
  intro fec hfec
  obtain ⟨f, hf, rfl⟩ := List.mem_map.mp hfec
  exact (h f hf).updateCovering hpacket

variable {rx : ReceivedPacket}

theorem Sound.insertMediaPacket
    (h : Sound media ssrc s) (hrx : Original media rx.seqNum rx.pkt) :
    Sound media ssrc (insertMediaPacket rx s) := by
  unfold Fec.insertMediaPacket
  split
  · exact h
  · refine ⟨?_, stored_updateCovering h.stored hrx, h.recoveries⟩
    intro r hr
    rcases List.mem_append.mp (mem_sortBySeqNum.mp hr) with hr | hr
    · exact h.recovered r hr
    · rw [List.mem_singleton] at hr
      subst hr
      exact hrx

theorem stored_assign (h : Sound media ssrc s)
    (hrx : Decodable media rx.pkt) (hssrc : rx.ssrc = ssrc) :
    Stored media ssrc
      (assignRecoveredPackets s.recoveredPacketList rx.fecPacket) where
  decodable := hrx
  ssrc := hssrc
  seqNums := assignRecovered_seqNums _ _
  known p hp q hq := by
    rcases mem_assignRecovered hp with hp | ⟨r, hr, hseq, hpkt⟩
    · rw [pkt_of_mem_protectedBy hp] at hq
      cases hq
    · rw [hpkt, Option.some_inj] at hq
      rw [hseq, ← hq]
      exact h.recovered r (mem_of_mem_setIntersection hr)

theorem Sound.insertFecPacket (h : Sound media ssrc s)
    (hrx : Decodable media rx.pkt) (hssrc : rx.ssrc = ssrc) :
    Sound media ssrc (insertFecPacket rx s) := by
  unfold Fec.insertFecPacket
  split
  · exact h
  · split
    · exact h
    · have hall : ∀ fec ∈ sortBySeqNum FecPacket.seqNum (s.fecPacketList ++
          [assignRecoveredPackets s.recoveredPacketList rx.fecPacket]),
          Stored media ssrc fec := by
        intro fec hfec
        rcases List.mem_append.mp (mem_sortBySeqNum.mp hfec) with hfec | hfec
        · exact h.stored fec hfec
        · rw [List.mem_singleton] at hfec
          subst hfec
          exact stored_assign h hrx hssrc
      refine ⟨h.recovered, ?_, h.recoveries⟩
      intro fec hfec
      dsimp only at hfec
      split at hfec
      · exact hall fec (List.mem_of_mem_tail hfec)
      · exact hall fec hfec

theorem Sound.insertPacket (hfecs : ∀ fec ∈ fecPackets, Decodable media fec) (h : Sound media ssrc s)
    (hrx : Delivered media fecPackets ssrc rx) :
    Sound media ssrc (insertPacket s rx) := by
  unfold Fec.insertPacket
  have haged : Sound media ssrc (discardOldFecPacket rx.seqNum s) := by
    unfold discardOldFecPacket
    split
    · exact h
    · rename_i oldest rest heq
      split
      · refine ⟨h.recovered, fun fec hfec => h.stored fec ?_, h.recoveries⟩
        rw [heq]
        exact List.mem_cons_of_mem _ hfec
      · exact h
  cases hrx with
  | media hfec horiginal =>
    rw [if_neg (by rw [hfec]; exact Bool.false_ne_true)]
    exact haged.insertMediaPacket horiginal
  | fec hfec hssrc hcopy =>
    obtain ⟨fec, hmem, hsame⟩ := hcopy
    rw [if_pos hfec]
    exact haged.insertFecPacket (hsame.decodable (hfecs fec hmem)) hssrc

theorem Sound.insertPackets (hfecs : ∀ fec ∈ fecPackets, Decodable media fec)
    {received : List ReceivedPacket} (h : Sound media ssrc s)
    (hrx : ∀ rx ∈ received, Delivered media fecPackets ssrc rx) :
    Sound media ssrc (insertPackets received s) := by
  have hfold : Sound media ssrc (received.foldl Fec.insertPacket s) := by
    induction received generalizing s with
    | nil => exact h
    | cons rx received ih =>
      exact ih (h.insertPacket hfecs (hrx rx List.mem_cons_self))
        fun rx hmem => hrx rx (List.mem_cons_of_mem _ hmem)
  exact ⟨fun r hr => hfold.recovered r (mem_of_mem_discardOldPackets hr),
    hfold.stored, hfold.recoveries⟩

/-- What the loop of `AttemptRecover` has is right. -/
structure Attempt.Sound (media : List Packet) (ssrc : UInt32) (t : Attempt) :
    Prop where
  recovered : ∀ r ∈ t.recoveredPacketList, Original media r.seqNum r.pkt
  stored : ∀ fec ∈ t.scanned ++ t.rest, Stored media ssrc fec
  recoveries : ∀ r ∈ t.recoveries, Original media r.seqNum r.pkt

theorem Attempt.Sound.step (hmedia : RtpMedia media ssrc) {t u : Attempt}
    (h : t.Sound media ssrc) (hstep : attemptStep t = some u) :
    u.Sound media ssrc := by
  unfold attemptStep at hstep
  split at hstep
  · cases hstep
  · rename_i fec rest hrest
    have hstored := h.stored
    rw [hrest] at hstored
    have hfec := hstored fec
      (List.mem_append_right _ List.mem_cons_self)
    have hothers : ∀ f ∈ t.scanned ++ rest, Stored media ssrc f := by
      intro f hf
      refine hstored f (List.mem_append.mpr ?_)
      exact (List.mem_append.mp hf).imp_right (List.mem_cons_of_mem _)
    dsimp only at hstep
    split at hstep
    · rename_i hone
      have hpacket := recoverPacket_original hmedia hfec hone
      rw [Option.some_inj] at hstep
      subst hstep
      refine ⟨?_, stored_updateCovering hothers hpacket, ?_⟩
      · intro r hr
        rcases List.mem_append.mp
          (mem_sortBySeqNum.mp (mem_of_mem_discardOldPackets hr)) with hr | hr
        · exact h.recovered r hr
        · rw [List.mem_singleton] at hr
          subst hr
          exact hpacket
      · intro r hr
        rcases List.mem_append.mp hr with hr | hr
        · exact h.recoveries r hr
        · rw [List.mem_singleton] at hr
          subst hr
          exact hpacket
    · split at hstep
      · rw [Option.some_inj] at hstep
        subst hstep
        exact ⟨h.recovered, hothers, h.recoveries⟩
      · rw [Option.some_inj] at hstep
        subst hstep
        refine ⟨h.recovered, ?_, h.recoveries⟩
        rw [List.append_assoc]
        exact hstored

theorem Sound.attemptRecover (hmedia : RtpMedia media ssrc)
    (h : Sound media ssrc s) : Sound media ssrc (attemptRecover s) := by
  have hstart : s.attempt.Sound media ssrc :=
    ⟨h.recovered, h.stored, h.recoveries⟩
  obtain ⟨hend, -⟩ := finish_invariant attemptStep_lowers
    (fun _ _ h hstep => Attempt.Sound.step hmedia h hstep) hstart
  exact ⟨hend.recovered, hend.stored, hend.recoveries⟩

/-- A call of `DecodeFEC` keeps what the decoder has right. -/
theorem Sound.decodeFec (hmedia : RtpMedia media ssrc)
    (hfecs : ∀ fec ∈ fecPackets, Decodable media fec)
    {received : List ReceivedPacket} (h : Sound media ssrc s)
    (hrx : ∀ rx ∈ received, Delivered media fecPackets ssrc rx) :
    Sound media ssrc (decodeFec received s) := by
  have hreset : Sound media ssrc (resetAtGap received s) := by
    unfold resetAtGap
    split
    · split
      · split
        · exact ⟨nofun, nofun, h.recoveries⟩
        · exact h
      · exact h
    · exact h
  exact (hreset.insertPackets hfecs hrx).attemptRecover hmedia

end Call

/-! ## Runs -/

/-- The media packets of a batch are RTP packets, version 2, of one source. -/
structure RtpBatch (batch : MediaBatch) (ssrc : UInt32) : Prop where
  version : ∀ p ∈ batch.packets, bit (p.data 0) 7 ∧ bit (p.data 0) 6 = false
  ssrc : ∀ p ∈ batch.packets, ∀ i, 8 ≤ i → i < 12 →
    p.data i = assignUWord32 (fun _ => 0) 8 ssrc i

/-- The states of a decoder to which calls of `DecodeFEC` have delivered copies
of the packets, in any order. -/
def DecodedStates (media fecPackets : List Packet) (ssrc : UInt32) :
    Decoder → Prop :=
  ReachableVia (· = Decoder.empty)
    (fun s received => some (decodeFec received s))
    fun _ received => ∀ rx ∈ received, Delivered media fecPackets ssrc rx

section Runs

variable {table : MaskTable} {batch : MediaBatch} {ssrc : UInt32}
  {protectionFactor : UInt8} {numImportantPackets : ℕ}
  {useUnequalProtection : Bool} {fecMaskType : FecMaskType}
  {undefinedShift : UndefinedShift} {g : Generated}

theorem RtpBatch.media (h : RtpBatch batch ssrc)
    (hlen : ∀ p ∈ batch.packets, kRtpHeaderSize ≤ p.length) :
    RtpMedia batch.packets ssrc where
  version := h.version
  ssrc := h.ssrc
  header := hlen
  length_le := batch.length_le
  distinct := by
    have hnodup := batch.offsets_nodup
    rw [MediaBatch.offsets, show offset batch.base =
      (fun x => (x - batch.base).toNat) ∘ Packet.seqNum from rfl,
      ← List.map_map] at hnodup
    exact hnodup.of_map _

theorem fecPacket_exists_packet {orig mask : ℕ → UInt8} {row : ℕ}
    (h : InsertedRow batch orig mask row) :
    ∀ c < 8 * maskSize (batch.fecPacket undefinedShift mask row).lBit,
      maskBit (batch.fecPacket undefinedShift mask row).data 12 c →
      ∃ p ∈ batch.packets,
        offset (batch.fecPacket undefinedShift mask row).snBase p = c := by
  intro c hc hset
  have hbase : (batch.fecPacket undefinedShift mask row).snBase = batch.base :=
    generateFecUlpHeader_snBase
  have hlBit : (batch.fecPacket undefinedShift mask row).lBit = batch.lBit :=
    generateFecUlpHeader_first_byte.1
  rw [hlBit] at hc
  have hmask : maskBit (batch.fecPacket undefinedShift mask row).data 12 c =
      maskBit mask (row * batch.maskBytes) c := generateFecUlpHeader_mask hc
  rw [hmask, h c hc] at hset
  have hmem : c ∈ batch.offsets := by
    by_contra hno
    rw [batch.column_of_notMem hno] at hset
    cases hset
  obtain ⟨p, hp, heq⟩ := List.mem_map.mp hmem
  exact ⟨p, hp, by rw [hbase]; exact heq⟩

theorem length_of_generateFec
    (hgen : generateFec undefinedShift table batch.first batch.rest
      protectionFactor numImportantPackets useUnequalProtection fecMaskType =
        some g) :
    ∀ p ∈ batch.packets, kRtpHeaderSize ≤ p.length := by
  intro p hp
  by_contra hlt
  rw [generateFec_of_short ⟨p, hp, Nat.not_le.mp hlt⟩] at hgen
  cases hgen

theorem decodable_of_generateFec (h : table.Valid)
    (himp : numImportantPackets ≤ batch.packets.length)
    (hgen : generateFec undefinedShift table batch.first batch.rest
      protectionFactor numImportantPackets useUnequalProtection fecMaskType =
        some g)
    (hencodable : batch.Encodable protectionFactor) :
    ∀ fec ∈ g.fecPackets, Decodable batch.packets fec := by
  have hlen := length_of_generateFec hgen
  intro fec hfec
  by_cases hpf : protectionFactor = 0
  · rw [generateFec_of_no_protection hlen hpf, Option.some_inj] at hgen
    subst hgen
    cases hfec
  · rw [generateFec_eq hlen hpf, Option.some_inj] at hgen
    obtain ⟨hbits, -, hrows⟩ := inserted_spec protectionFactor
      useUnequalProtection fecMaskType h himp
    rcases hencodable with h0 | ⟨p, hp, hlt⟩ | ⟨hhit, hfits⟩
    · exact absurd h0 hpf
    · exact absurd (hlen p hp) (Nat.not_le.mpr hlt)
    · have hcorrect := emitFecPackets_correct protectionFactor
        useUnequalProtection fecMaskType undefinedShift h himp hlen hhit hfits
      rw [hgen] at hcorrect
      refine ⟨hcorrect.encodes fec hfec, ?_⟩
      rw [← hgen, emitFecPackets_eq hbits] at hfec
      obtain ⟨row, hrow, rfl⟩ := List.mem_map.mp hfec
      exact fecPacket_exists_packet (hrows row (List.mem_range.mp hrow))

/-- Whatever is recovered in a run is the media packet that was sent, for a
batch without gaps that jump over a mask byte whose packets have room behind
the FEC header. -/
theorem recovered_original (h : table.Valid)
    (himp : numImportantPackets ≤ batch.packets.length)
    (hrtp : RtpBatch batch ssrc)
    (hgen : generateFec undefinedShift table batch.first batch.rest
      protectionFactor numImportantPackets useUnequalProtection fecMaskType =
        some g)
    (hencodable : batch.Encodable protectionFactor) {s : Decoder}
    (hs : DecodedStates batch.packets g.fecPackets ssrc s) :
    ∀ r ∈ s.recoveries ++ s.recoveredPacketList,
      Original batch.packets r.seqNum r.pkt := by
  have hmedia := hrtp.media (length_of_generateFec hgen)
  have hfecs := decodable_of_generateFec h himp hgen hencodable
  have hsound : Sound batch.packets ssrc s := by
    refine ReachableVia.invariant ?_ ?_ hs
    · rintro _ rfl
      exact sound_empty
    · intro s received t hsound hrx hstep
      rw [Option.some_inj] at hstep
      subst hstep
      exact hsound.decodeFec hmedia hfecs hrx
  intro r hr
  rcases List.mem_append.mp hr with hr | hr
  · exact hsound.recoveries r hr
  · exact hsound.recovered r hr

end Runs

def receivedMedia (p : Packet) : ReceivedPacket := ⟨p.seqNum, 0, false, p⟩

def receivedFec (seqNum : UInt16) (p : Packet) : ReceivedPacket :=
  ⟨seqNum, 0, true, p⟩

theorem delivered_media {media fecPackets : List Packet} {ssrc : UInt32}
    {p : Packet} (hp : p ∈ media) :
    Delivered media fecPackets ssrc (receivedMedia p) :=
  .media rfl ⟨p, hp, rfl, rfl, fun _ _ => rfl⟩

theorem delivered_fec {media fecPackets : List Packet} {p : Packet}
    {seqNum : UInt16} (hp : p ∈ fecPackets) :
    Delivered media fecPackets 0 (receivedFec seqNum p) :=
  .fec rfl rfl ⟨p, hp, rfl, fun _ _ => rfl⟩

/-- What `GenerateFEC` makes of a batch with one FEC packet. -/
def generated (batch : MediaBatch) : Generated :=
  emitFecPackets (fun _ _ => false)
    (batch.inserted fullProtection 28 0 false .kFecMaskRandom)
    (getNumberOfFecPackets batch.packets.length 28) batch.first batch.rest

theorem rtpBatch_sampleBatch : RtpBatch sampleBatch 0 := by
  constructor <;> decide

theorem rtpBatch_gapBatch : RtpBatch gapBatch 0 := by
  constructor <;> decide

/-- All packets but the first arrive, and then the FEC packet. -/
def lossOfFirst (batch : MediaBatch) : List ReceivedPacket :=
  batch.rest.map receivedMedia ++
    (generated batch).fecPackets.map (receivedFec 100)

theorem decodedStates_lossOfFirst (batch : MediaBatch) :
    DecodedStates batch.packets (generated batch).fecPackets 0
      (decodeFec (lossOfFirst batch) Decoder.empty) := by
  refine .step (.init rfl) ?_ rfl
  intro rx hrx
  rcases List.mem_append.mp hrx with hrx | hrx
  · obtain ⟨p, hp, rfl⟩ := List.mem_map.mp hrx
    exact delivered_media (List.mem_cons_of_mem _ hp)
  · obtain ⟨p, hp, rfl⟩ := List.mem_map.mp hrx
    exact delivered_fec hp

theorem recovered_original_sampleBatch :
    ((decodeFec (lossOfFirst sampleBatch) Decoder.empty).recoveries.map
      RecoveredPacket.seqNum) = [65534] ∧
    ∀ r ∈ (decodeFec (lossOfFirst sampleBatch) Decoder.empty).recoveries ++
        (decodeFec (lossOfFirst sampleBatch)
          Decoder.empty).recoveredPacketList,
      Original sampleBatch.packets r.seqNum r.pkt :=
  ⟨by decide +kernel,
    recovered_original fullProtection_valid (Nat.zero_le _)
      rtpBatch_sampleBatch
      (@generateFec_eq fullProtection sampleBatch 28 0 false .kFecMaskRandom
        (fun _ _ => false) (by decide) (by decide))
      (Or.inr (Or.inr ⟨fun m hm hle => absurd hle (by
        have hlast : sampleBatch.lastOffset = 3 := by decide
        omega), by unfold MediaBatch.Fits; decide⟩))
      (decodedStates_lossOfFirst sampleBatch)⟩

/-- Behind a gap at the start of a mask byte, a packet is announced that has not
been combined, and the first packet is recovered with the bytes of another
one. -/
theorem not_forall_recovered_original :
    ¬∀ (table : MaskTable) (undefinedShift : UndefinedShift)
      (batch : MediaBatch) (protectionFactor : UInt8)
      (numImportantPackets : ℕ) (useUnequalProtection : Bool)
      (fecMaskType : FecMaskType) (ssrc : UInt32) (g : Generated)
      (s : Decoder), table.Valid →
      numImportantPackets ≤ batch.packets.length → RtpBatch batch ssrc →
      generateFec undefinedShift table batch.first batch.rest
        protectionFactor numImportantPackets useUnequalProtection
          fecMaskType = some g →
      DecodedStates batch.packets g.fecPackets ssrc s →
      ∀ r ∈ s.recoveries ++ s.recoveredPacketList,
        Original batch.packets r.seqNum r.pkt := by
  intro h
  have horiginal := h fullProtection (fun _ _ => false) gapBatch 28 0 false
    .kFecMaskRandom 0 (generated gapBatch)
    (decodeFec (lossOfFirst gapBatch) Decoder.empty) fullProtection_valid
    (Nat.zero_le _) rtpBatch_gapBatch
    (generateFec_eq (by decide) (by decide))
    (decodedStates_lossOfFirst gapBatch)
  have hrecovered : ((decodeFec (lossOfFirst gapBatch)
      Decoder.empty).recoveries.map fun r => r.pkt.length) = [12] := by
    decide +kernel
  obtain ⟨r, hr, hlength⟩ := List.mem_map.mp
    (hrecovered ▸ List.mem_singleton_self 12)
  obtain ⟨m, hm, -, hsame⟩ := horiginal r (List.mem_append_left _ hr)
  have hmedia : ∀ p ∈ gapBatch.packets, p.length = 14 := by decide
  have hlen := hsame.1
  rw [hlength, hmedia m hm] at hlen
  omega

end WebrtcWinXp.Fec
