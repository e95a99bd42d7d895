import WebrtcWinXp.Rtp.ExtensionBlocks

/-!
# Parsing the header that was built

The parser accepts a packet that starts with a header the sender wrote, finds
its length, and reads the values in its blocks.
-/

namespace WebrtcWinXp.Rtp

open Support

theorem firstByte_bits {n : ℕ} (hn : n ≤ kRtpCsrcSize) (len : ℕ) :
    RTPSender.firstByte n len >>> 6 = kRtpExpectedVersion ∧
      (RTPSender.firstByte n len &&& 0x0f).toNat = n ∧
      (RTPSender.firstByte n len &&& 0x10 != 0) = decide (0 < len) := by
  have hbits : ∀ n : Fin 16, ∀ extended : Bool,
      let byte : UInt8 :=
        if n.1 > 0 then (0x80 &&& 0xf0) ||| UInt8.ofNat n else 0x80
      let byte := if extended then byte ||| 0x10 else byte
      byte >>> 6 = kRtpExpectedVersion ∧ (byte &&& 0x0f).toNat = n ∧
        (byte &&& 0x10 != 0) = extended := by
    decide
  have h := hbits ⟨n, Nat.lt_succ_of_le hn⟩ (decide (0 < len))
  simpa [RTPSender.firstByte] using h

namespace RtpHeaderExtensionMap

theorem length_entries_le (m : RtpHeaderExtensionMap) :
    m.entries.length ≤ 14 := by
  have hnodup : (m.entries.map Prod.fst).Nodup := by
    rw [List.Nodup, List.pairwise_map]
    exact m.increasing.imp fun h => Nat.ne_of_lt h
  have hsub : (m.entries.map Prod.fst).toFinset ⊆ Finset.Icc 1 14 := by
    intro id hid
    obtain ⟨e, he, rfl⟩ := List.mem_map.mp (List.mem_toFinset.mp hid)
    exact Finset.mem_Icc.mpr (m.inRange e he)
  have hcard := Finset.card_le_card hsub
  rwa [List.toFinset_card_of_nodup hnodup, List.length_map,
    Nat.card_Icc] at hcard

end RtpHeaderExtensionMap

/-! ## Accepting the header -/

/-- No extension, or one whose length field says how long it is. -/
def WellSized (extension : List UInt8) : Prop :=
  extension = [] ∨ ∃ (id data : List UInt8) (words : ℕ),
    extension = id ++ (toBE 2 words ++ data) ∧ id.length = 2 ∧
      data.length = 4 * words ∧ words < 2 ^ 14

theorem wellSized_extension (v : ExtensionValues) (m : RtpHeaderExtensionMap) :
    WellSized (v.extension m.entries) := by
  have hlength := m.length_entries_le
  unfold ExtensionValues.extension
  split
  · exact .inl rfl
  · exact .inr ⟨_, _, _, rfl, toBE_length _ _, v.length_blocks _, by omega⟩

theorem headerOcts_of_wellSized {b : Buffer} {n : ℕ}
    {extension rest : List UInt8} {beyond : ℕ → UInt8}
    (hcsrcs : RtpHeaderParser.csrcOcts b = 4 * n)
    (hbit : RtpHeaderParser.extensionBit b = true ↔ extension ≠ [])
    (hread : ∀ offset k, b.read ⟨offset + (12 + 4 * n), k⟩ =
      (Buffer.ofList (extension ++ rest) beyond).read ⟨offset, k⟩)
    (hsized : WellSized extension) :
    RtpHeaderParser.headerOcts b = 12 + 4 * n + extension.length := by
  rw [RtpHeaderParser.headerOcts, hcsrcs]
  rcases hsized with rfl | ⟨id, data, words, rfl, hid, hdata, hwords⟩
  · rw [if_neg (hbit.not.mpr (not_not.mpr rfl)), List.length_nil]
  · have hne : id ++ (toBE 2 words ++ data) ≠ [] := by
      simp [List.ne_nil_of_length_pos (by omega : 0 < id.length)]
    have hlen : b.read ⟨12 + 4 * n + 2, 2⟩ = toBE 2 words := by
      rw [Nat.add_comm, hread, List.append_assoc, List.append_assoc,
        Buffer.read_ofList_append hid (toBE_length _ _)]
    have hxlen : (RtpHeaderParser.xLen b (12 + 4 * n)).toNat = 4 * words := by
      rw [RtpHeaderParser.xLen, hlen, ofBE_toBE, UInt16.toNat_mul,
        UInt16.toNat_ofNat']
      change words % 65536 % 65536 * 4 % 65536 = _
      omega
    rw [if_pos (hbit.mpr hne), hxlen]
    simp only [List.length_append, toBE_length, hid, hdata]
    ring

namespace HeaderFields

open RtpHeaderParser

variable (f : HeaderFields) (v : ExtensionValues) (m : RtpHeaderExtensionMap)
  (payload : List UInt8) (beyond : ℕ → UInt8)

/-- The packet with the header of `f`, as it lies in memory. -/
def buffer : Buffer :=
  .ofList (f.headerBytes v m.entries ++ payload) beyond

theorem byte_zero_buffer :
    (f.buffer v m payload beyond).byte 0 =
      RTPSender.firstByte f.csrcs.length (v.extension m.entries).length := rfl

variable {f} in
theorem csrcOcts_buffer (hcsrcs : f.csrcs.length ≤ kRtpCsrcSize) :
    csrcOcts (f.buffer v m payload beyond) = 4 * f.csrcs.length := by
  rw [csrcOcts, byte_zero_buffer, (firstByte_bits hcsrcs _).2.1,
    Nat.mul_comm]

variable {f} in
theorem extensionBit_buffer (hcsrcs : f.csrcs.length ≤ kRtpCsrcSize) :
    extensionBit (f.buffer v m payload beyond) = true ↔ m.entries ≠ [] := by
  rw [extensionBit, byte_zero_buffer, (firstByte_bits hcsrcs _).2.2,
    decide_eq_true_iff, ExtensionValues.length_extension]
  split <;> simp_all

theorem read_buffer (offset n : ℕ) :
    (f.buffer v m payload beyond).read
        ⟨offset + (12 + 4 * f.csrcs.length), n⟩ =
      (Buffer.ofList (v.extension m.entries ++ payload)
        fun i => beyond (i + (12 + 4 * f.csrcs.length))).read ⟨offset, n⟩ := by
  have hassoc : f.headerBytes v m.entries ++ payload =
      (f.fixedBytes (v.extension m.entries).length ++ f.csrcBytes) ++
        (v.extension m.entries ++ payload) := by
    simp [headerBytes]
  rw [buffer, hassoc, Buffer.read_ofList_skip (by simp)]

variable {m} in
theorem read_extension (h : m.entries ≠ []) :
    (f.buffer v m payload beyond).read ⟨12 + 4 * f.csrcs.length, 2⟩ =
        toBE 2 kRtpOneByteHeaderExtensionId ∧
      (f.buffer v m payload beyond).read ⟨12 + 4 * f.csrcs.length + 2, 2⟩ =
        toBE 2 m.entries.length ∧
      (f.buffer v m payload beyond).read
          ⟨12 + 4 * f.csrcs.length + 4, 4 * m.entries.length⟩ =
        m.entries.flatMap v.block := by
  have hext : v.extension m.entries ++ payload =
      toBE 2 kRtpOneByteHeaderExtensionId ++ (toBE 2 m.entries.length ++
        (m.entries.flatMap v.block ++ payload)) := by
    rw [ExtensionValues.extension, if_neg h]
    simp only [List.append_assoc]
  have hzero : 12 + 4 * f.csrcs.length =
      0 + (12 + 4 * f.csrcs.length) := (Nat.zero_add _).symm
  refine ⟨?_, ?_, ?_⟩
  · rw [hzero, read_buffer, hext, Buffer.read_ofList_head (toBE_length _ _)]
  · rw [Nat.add_comm _ 2, read_buffer, hext,
      Buffer.read_ofList_append (toBE_length _ _) (toBE_length _ _)]
  · rw [Nat.add_comm _ 4, read_buffer, hext, ← List.append_assoc]
    refine Buffer.read_ofList_append ?_ (v.length_blocks _)
    rw [List.length_append, toBE_length, toBE_length]

variable {f}

theorem headerOcts_buffer (hcsrcs : f.csrcs.length ≤ kRtpCsrcSize) :
    headerOcts (f.buffer v m payload beyond) =
      (f.headerBytes v m.entries).length := by
  rw [length_headerBytes]
  refine headerOcts_of_wellSized (csrcOcts_buffer v m payload beyond hcsrcs)
    ?_ (fun offset n => f.read_buffer v m payload beyond offset n)
    (wellSized_extension v m)
  rw [extensionBit_buffer v m payload beyond hcsrcs,
    ExtensionValues.extension]
  by_cases hempty : m.entries = []
  · simp [hempty]
  · simp [hempty, List.ne_nil_of_length_pos]

theorem accepted_buffer (hcsrcs : f.csrcs.length ≤ kRtpCsrcSize) :
    Accepted (f.buffer v m payload beyond) := by
  have hsize : (f.buffer v m payload beyond).size =
      (f.headerBytes v m.entries).length + payload.length :=
    List.length_append
  refine ⟨?_, (firstByte_bits hcsrcs _).1, ?_⟩
  · rw [hsize, length_headerBytes, kRtpMinParseLength]
    omega
  · rw [headerOcts_buffer v m payload beyond hcsrcs, hsize]
    exact Nat.le_add_right _ _

/-- The parser accepts the packet, with the length of the header, the number
of CSRCs, and the values of the blocks. -/
theorem parse_buffer (hcsrcs : f.csrcs.length ≤ kRtpCsrcSize)
    (map : Option RtpHeaderExtensionMap) :
    (parse (f.buffer v m payload beyond) map {}).1 = true ∧
      (parse (f.buffer v m payload beyond) map {}).2.headerLength.toNat =
        (f.headerBytes v m.entries).length ∧
      (parse (f.buffer v m payload beyond) map {}).2.numCSRCs.toNat =
        f.csrcs.length := by
  have haccepted := accepted_buffer v m payload beyond hcsrcs
  have hparsed :
      Parsed _ (parse (f.buffer v m payload beyond) map {}).2 :=
    parsed haccepted
  have hlength := m.length_entries_le
  refine ⟨parse_fst.mpr haccepted, ?_, ?_⟩
  · rw [hparsed.headerLength, headerOcts_buffer v m payload beyond hcsrcs, UInt16.toNat_ofNat',
      length_headerBytes, ExtensionValues.length_extension]
    rw [kRtpCsrcSize] at hcsrcs
    refine Nat.mod_eq_of_lt ?_
    split <;> omega
  · rw [hparsed.numCSRCs]
    exact (firstByte_bits hcsrcs _).2.1

theorem extension_parse_buffer (hcsrcs : f.csrcs.length ≤ kRtpCsrcSize) :
    (parse (f.buffer v m payload beyond) (some m) {}).2.extension =
      m.entries.foldl v.record {} := by
  have haccepted := accepted_buffer v m payload beyond hcsrcs
  rw [parse_snd haccepted]
  by_cases hempty : m.entries = []
  · have hbit : ¬extensionBit (f.buffer v m payload beyond) = true := by
      rw [extensionBit_buffer v m payload beyond hcsrcs]
      exact not_not.mpr hempty
    rw [if_neg hbit, hempty]
    rfl
  · have hbit := (extensionBit_buffer v m payload beyond hcsrcs).mpr hempty
    obtain ⟨hid, -, hblocks⟩ := f.read_extension v payload beyond hempty
    have hstop : headerOcts (f.buffer v m payload beyond) =
        12 + 4 * f.csrcs.length + 4 + 4 * m.entries.length := by
      rw [headerOcts_buffer v m payload beyond hcsrcs, length_headerBytes,
        ExtensionValues.length_extension, if_neg hempty]
      ring
    rw [if_pos hbit, csrcOcts_buffer v m payload beyond hcsrcs]
    dsimp only
    rw [if_pos (by rw [hid]; rfl), parseOneByteExtensionHeader,
      finish_parseElement rfl (List.nil_append _).symm hblocks hstop]

end HeaderFields

end WebrtcWinXp.Rtp
