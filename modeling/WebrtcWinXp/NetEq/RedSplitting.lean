import WebrtcWinXp.NetEq.PayloadSplitter

/-!
# Splitting RED payloads

A payload whose chain of RED headers ends inside it is split without reading
anything else, into the blocks that are complete.  Where the chain does not end
inside the payload, bytes behind it are read.
-/

namespace WebrtcWinXp.NetEq.PayloadSplitter

open Support

/-! ## RED encodings -/

/-- The header of a redundant block. -/
structure RedundantHeader where
  payloadType : UInt8
  timestampOffset : ℕ
  length : ℕ
  payloadType_lt : payloadType &&& 0x80 = 0
  timestampOffset_lt : timestampOffset < 2 ^ 14
  length_lt : length < 2 ^ 10

/-- A bit that says that another header follows, the payload type, 14 bits of
timestamp offset and 10 bits of length. -/
def RedundantHeader.encode (h : RedundantHeader) : List UInt8 :=
  (0x80 ||| h.payloadType) :: toBE 3 (h.timestampOffset * 2 ^ 10 + h.length)

structure RedundantBlock where
  header : RedundantHeader
  bytes : List UInt8
  length_bytes : bytes.length = header.length

/-- The headers of some redundant blocks and of the primary one. -/
def encodeHeaders (headers : List RedundantHeader) (primaryType : UInt8) :
    List UInt8 :=
  headers.flatMap RedundantHeader.encode ++ [primaryType]

def redundantBytes (blocks : List RedundantBlock) : List UInt8 :=
  blocks.flatMap RedundantBlock.bytes

/-- A RED payload with some redundant blocks and a primary one. -/
def redEncoding (blocks : List RedundantBlock) (primaryType : UInt8)
    (primary : List UInt8) : List UInt8 :=
  encodeHeaders (blocks.map RedundantBlock.header) primaryType ++
    (redundantBytes blocks ++ primary)

/-- The chain of headers ends inside the payload. -/
def headersEnd : List UInt8 → Bool
  | [] => false
  | first :: rest =>
    if first &&& 0x80 = 0 then true
    else
      match rest with
      | _ :: _ :: _ :: rest => headersEnd rest
      | _ => false

def redundantPacket (redPacket : Packet) (block : RedundantBlock) : Packet where
  header := { redPacket.header with
    payloadType := block.header.payloadType
    timestamp := redPacket.header.timestamp -
      UInt32.ofNat block.header.timestampOffset }
  payload := block.bytes
  primary := false

def primaryPacket (redPacket : Packet) (primaryType : UInt8)
    (primary : List UInt8) : Packet where
  header := { redPacket.header with
    payloadType := primaryType }
  payload := primary
  primary := true

def WellFormed (payload : List UInt8) : Prop :=
  ∃ blocks primaryType primary, primaryType &&& 0x80 = 0 ∧
    payload = redEncoding blocks primaryType primary

/-- A well-formed payload is split into its blocks, the primary one first; of
any other payload the blocks are split off that are complete. -/
structure Splits (redPacket : Packet) (split : RedSplit) : Prop where
  wellFormed : ∀ blocks primaryType primary, primaryType &&& 0x80 = 0 →
    redPacket.payload = redEncoding blocks primaryType primary →
    split.complete = true ∧ split.packets =
      primaryPacket redPacket primaryType primary ::
        (blocks.map (redundantPacket redPacket)).reverse
  malformed : ¬WellFormed redPacket.payload →
    split.complete = false ∧
    ∃ blocks header headers primaryType rest,
      redPacket.payload = encodeHeaders
        (blocks.map RedundantBlock.header ++ header :: headers) primaryType ++
        (redundantBytes blocks ++ rest) ∧
      rest.length < header.length ∧
      split.packets = (blocks.map (redundantPacket redPacket)).reverse

/-- Nothing outside a payload is read, and no negative size allocated. -/
def Touch.Safe : Touch → Prop
  | .read payload a => payload.Inside a
  | .allocate size => 0 ≤ size

theorem and_type (b : UInt8) (h : b &&& 0x80 = 0) : b &&& 0x7F = b := by
  revert b
  refine forall_uint8 ?_
  decide +kernel

theorem or_and_type (b : UInt8) (h : b &&& 0x80 = 0) :
    (0x80 ||| b) &&& 0x80 ≠ 0 ∧ (0x80 ||| b) &&& 0x7F = b := by
  revert b
  refine forall_uint8 ?_
  decide +kernel

theorem or_of_and_ne_zero (b : UInt8) (h : b &&& 0x80 ≠ 0) :
    (0x80 ||| (b &&& 0x7F)) = b ∧ (b &&& 0x7F) &&& 0x80 = 0 := by
  revert b
  refine forall_uint8 ?_
  decide +kernel

theorem and_split (b : UInt8) :
    ((b &&& 0xFC) >>> 2).toNat = b.toNat / 4 ∧
      (b &&& 0x03).toNat = b.toNat % 4 := by
  revert b
  refine forall_uint8 ?_
  decide +kernel

theorem fields_eq (second third fourth : UInt8) :
    (second.toNat <<< 6) + ((third &&& 0xFC) >>> 2).toNat =
        ofBE [second, third, fourth] / 2 ^ 10 ∧
      ((third &&& 0x03).toNat <<< 8) + fourth.toNat =
        ofBE [second, third, fourth] % 2 ^ 10 := by
  have h₄ := fourth.toNat_lt
  have hbe : ofBE [second, third, fourth] =
      (second.toNat * 256 + third.toNat) * 256 + fourth.toNat := by
    change ((0 * 256 + _) * 256 + _) * 256 + _ = _
    rw [Nat.zero_mul, Nat.zero_add]
  rw [hbe, (and_split third).1, (and_split third).2, Nat.shiftLeft_eq,
    Nat.shiftLeft_eq]
  omega

theorem exists_encode_eq {first : UInt8} (h : first &&& 0x80 ≠ 0)
    (second third fourth : UInt8) :
    ∃ header : RedundantHeader,
      header.encode = [first, second, third, fourth] := by
  have hlt := ofBE_lt [second, third, fourth]
  set v := ofBE [second, third, fourth] with hv
  change v < 256 ^ 3 at hlt
  refine ⟨⟨first &&& 0x7F, v / 2 ^ 10, v % 2 ^ 10, (or_of_and_ne_zero first h).2,
    by omega, by omega⟩, ?_⟩
  change (0x80 ||| (first &&& 0x7F)) ::
    toBE 3 (v / 2 ^ 10 * 2 ^ 10 + v % 2 ^ 10) = _
  rw [(or_of_and_ne_zero first h).1, Nat.div_add_mod', hv]
  congr 1
  exact toBE_ofBE [second, third, fourth]

theorem RedundantHeader.encode_eq (h : RedundantHeader) :
    ∃ second third fourth : UInt8,
      h.encode = [0x80 ||| h.payloadType, second, third, fourth] ∧
      (second.toNat <<< 6) + ((third &&& 0xFC) >>> 2).toNat =
        h.timestampOffset ∧
      ((third &&& 0x03).toNat <<< 8) + fourth.toNat = h.length := by
  have hoffset := h.timestampOffset_lt
  have hlength := h.length_lt
  obtain ⟨second, third, fourth, hbytes⟩ : ∃ a b c : UInt8,
      toBE 3 (h.timestampOffset * 2 ^ 10 + h.length) = [a, b, c] :=
    ⟨_, _, _, rfl⟩
  obtain ⟨hfirst, hsecond⟩ := fields_eq second third fourth
  have hvalue := ofBE_toBE 3 (h.timestampOffset * 2 ^ 10 + h.length)
  rw [Nat.mod_eq_of_lt (by omega), hbytes] at hvalue
  refine ⟨second, third, fourth, ?_, ?_, ?_⟩
  · rw [encode, hbytes]
  · rw [hfirst, hvalue]
    omega
  · rw [hsecond, hvalue]
    omega

/-! ## Reading the headers -/

variable {redPacket : Packet} {beyond : ℕ → UInt8} {s : RedHeaders}

variable {bytes : List UInt8}

theorem byte_ofList {i : ℕ} {b : UInt8}
    (h : bytes[i]? = some b) : (Buffer.ofList bytes beyond).byte i = b := by
  change bytes.getD i _ = b
  rw [List.getD_eq_getElem?_getD, h, Option.getD_some]

theorem safe_byte {i : ℕ} {b : UInt8}
    (h : bytes[i]? = some b) :
    Touch.Safe (.read (.ofList bytes beyond) ⟨i, 1⟩) := by
  obtain ⟨hi, -⟩ := List.getElem?_eq_some_iff.mp h
  exact hi

theorem getElem?_append_length (front back : List UInt8) (i : ℕ) :
    (front ++ back)[front.length + i]? = back[i]? := by
  rw [List.getElem?_append_right (Nat.le_add_right _ _),
    Nat.add_sub_cancel_left]

theorem readRedHeader_last {first : UInt8}
    (hfirst : bytes[s.offset]? = some first) (hlast : s.lastBlock = false)
    (hbit : first &&& 0x80 = 0) :
    (readRedHeader redPacket (.ofList bytes beyond) s).Meets Touch.Safe
      fun r => r = some (lastHeader redPacket s first) := by
  rw [readRedHeader, hlast, if_neg Bool.false_ne_true, Traced.meets_bind]
  refine ⟨(Traced.all_touch _ _).mpr (safe_byte hfirst), ?_⟩
  rw [redByte, Traced.value_touch, byte_ofList hfirst, if_pos hbit]
  exact (Traced.meets_pure _).mpr rfl

variable (redPacket beyond) in
theorem readRedHeader_further {bytes : List UInt8}
    {first second third fourth : UInt8}
    (hfirst : bytes[s.offset]? = some first)
    (hsecond : bytes[s.offset + 1]? = some second)
    (hthird : bytes[s.offset + 2]? = some third)
    (hfourth : bytes[s.offset + 3]? = some fourth)
    (hlast : s.lastBlock = false) (hbit : first &&& 0x80 ≠ 0) :
    (readRedHeader redPacket (.ofList bytes beyond) s).Meets Touch.Safe
      fun r => r = some (furtherHeader redPacket s first second third
        fourth) := by
  rw [readRedHeader, hlast, if_neg Bool.false_ne_true, Traced.meets_bind]
  refine ⟨(Traced.all_touch _ _).mpr (safe_byte hfirst), ?_⟩
  rw [redByte, Traced.value_touch, byte_ofList hfirst, if_neg hbit]
  simp only [Traced.meets_bind, Traced.meets_pure, redByte, Traced.all_touch,
    Traced.value_touch, byte_ofList hsecond, byte_ofList hthird,
    byte_ofList hfourth, and_true]
  exact ⟨safe_byte hsecond, safe_byte hthird, safe_byte hfourth⟩

/-- What is known of the block of a redundant header. -/
def redBlock (redPacket : Packet) (h : RedundantHeader) : RedBlock where
  header := { redPacket.header with
    payloadType := h.payloadType
    timestamp :=
      redPacket.header.timestamp - UInt32.ofNat h.timestampOffset }
  payloadLength := h.length
  primary := false

/-- The bytes that the headers stand for, themselves included. -/
def headersLength (headers : List RedundantHeader) : ℤ :=
  (headers.map fun h => (h.length : ℤ) + 4).sum

def primaryBlock (redPacket : Packet) (primaryType : UInt8) (length : ℤ) :
    RedBlock where
  header := { redPacket.header with
    payloadType := primaryType }
  payloadLength := length
  primary := true

variable {payload : Buffer} {n : ℕ}

theorem meets_loop_succ {t : RedHeaders}
    {Q : Option RedHeaders → Prop}
    (hround : (readRedHeader redPacket payload s).Meets Touch.Safe
      fun r => r = some t)
    (h : (Traced.loop (readRedHeader redPacket payload) n t).Meets
      Touch.Safe Q) :
    (Traced.loop (readRedHeader redPacket payload) (n + 1) s).Meets
      Touch.Safe Q := by
  rw [Traced.loop, Traced.meets_bind, hround.2]
  exact ⟨hround.1, h⟩

variable {front : List UInt8}

theorem loop_headers {headers : List RedundantHeader} {primaryType : UInt8}
    (hprimary : primaryType &&& 0x80 = 0) {rest : List UInt8}
    (hn : headers.length + 2 ≤ n) (hoffset : s.offset = front.length)
    (hlast : s.lastBlock = false) :
    (Traced.loop (readRedHeader redPacket
      (.ofList (front ++ (encodeHeaders headers primaryType ++ rest)) beyond))
        n s).Meets Touch.Safe fun r => ∃ t, r = some t ∧
      t.offset = front.length + (encodeHeaders headers primaryType).length ∧
      t.newPackets = s.newPackets ++ (headers.map (redBlock redPacket) ++
        [primaryBlock redPacket primaryType (redPacket.payloadLength -
          (s.sumLength + headersLength headers + 1))]) := by
  induction headers generalizing s front n with
  | nil =>
    obtain ⟨n, rfl⟩ : ∃ k, n = k + 2 := ⟨n - 2, by
      rw [List.length_nil] at hn
      omega⟩
    refine meets_loop_succ (readRedHeader_last ?_ hlast hprimary) ?_
    · rw [hoffset]
      exact getElem?_append_length front _ 0
    · rw [Traced.loop, Traced.meets_bind]
      refine ⟨Traced.all_pure _, (Traced.meets_pure _).mpr
        ⟨_, rfl, ?_, ?_⟩⟩
      · change s.offset + 1 = _
        rw [hoffset]
        rfl
      · change s.newPackets ++ [_] = _
        rw [and_type _ hprimary]
        have hsum : headersLength [] = 0 := rfl
        rw [hsum, Int.add_zero]
        rfl
  | cons h headers ih =>
    obtain ⟨n, rfl⟩ : ∃ k, n = k + 1 := ⟨n - 1, by omega⟩
    obtain ⟨second, third, fourth, hencode, hfield, hlength⟩ := h.encode_eq
    have hlengthEncode : h.encode.length = 4 := by
      rw [hencode]
      rfl
    obtain ⟨hbit, htype⟩ := or_and_type _ h.payloadType_lt
    have hbytes : front ++ (encodeHeaders (h :: headers) primaryType ++ rest)
        = (front ++ h.encode) ++
          (encodeHeaders headers primaryType ++ rest) := by
      simp only [encodeHeaders, List.flatMap_cons, List.append_assoc]
    have hget : ∀ i, (front ++ (encodeHeaders (h :: headers) primaryType ++
        rest))[s.offset + i]? =
        (h.encode ++ (encodeHeaders headers primaryType ++ rest))[i]? := by
      intro i
      rw [hbytes, hoffset, List.append_assoc]
      exact getElem?_append_length front _ i
    rw [hencode] at hget
    refine meets_loop_succ (readRedHeader_further _ _ (hget 0) (hget 1)
      (hget 2) (hget 3) hlast hbit) ?_
    set t := furtherHeader redPacket s (0x80 ||| h.payloadType) second third
      fourth with ht
    have hblocks : t.newPackets = s.newPackets ++ [redBlock redPacket h] := by
      rw [ht, furtherHeader, hfield, hlength, htype]
      rfl
    have hsum : t.sumLength = s.sumLength + h.length + 4 := by
      rw [ht, furtherHeader, hlength]
    have hnext : t.offset = (front ++ h.encode).length := by
      rw [List.length_append, hlengthEncode, ← hoffset]
      rfl
    rw [List.length_cons] at hn
    have hrest := ih (show headers.length + 2 ≤ n by omega) hnext rfl
    rw [← hbytes] at hrest
    obtain ⟨hsafe, u, hu, hend, hnew⟩ := hrest
    refine ⟨hsafe, u, hu, ?_, ?_⟩
    · rw [hend, encodeHeaders, encodeHeaders, List.flatMap_cons]
      simp only [List.length_append]
      omega
    · have hcons : headersLength (h :: headers) =
          (h.length + 4) + headersLength headers := List.sum_cons
      have hprimaryLength : (redPacket.payloadLength : ℤ) -
          (s.sumLength + h.length + 4 + headersLength headers + 1) =
          redPacket.payloadLength - (s.sumLength +
            (h.length + 4 + headersLength headers) + 1) := by
        omega
      rw [hnew, hblocks, hsum, hcons, hprimaryLength, List.append_assoc]
      rfl

theorem first_inside (hlast : s.lastBlock = false)
    (h : (readRedHeader redPacket payload s).All Touch.Safe) :
    s.offset + 1 ≤ payload.size := by
  rw [readRedHeader, hlast, if_neg Bool.false_ne_true, Traced.all_bind, redByte,
    Traced.all_touch] at h
  exact h.1

theorem fourth_inside (hlast : s.lastBlock = false)
    (hbit : payload.byte s.offset &&& 0x80 ≠ 0)
    (h : (readRedHeader redPacket payload s).All Touch.Safe) :
    s.offset + 3 + 1 ≤ payload.size := by
  rw [readRedHeader, hlast, if_neg Bool.false_ne_true, Traced.all_bind, redByte,
    Traced.value_touch, if_neg hbit] at h
  simp only [Traced.all_bind, redByte, Traced.all_touch] at h
  exact h.2.2.2.1

theorem exists_three (h : 3 ≤ bytes.length) :
    ∃ a b c rest, bytes = a :: b :: c :: rest := by
  match bytes, h with
  | a :: b :: c :: rest, _ => exact ⟨a, b, c, rest, rfl⟩

theorem not_meets_loop (h : headersEnd bytes = false) (hoffset : s.offset = front.length)
    (hlast : s.lastBlock = false) :
    ¬(Traced.loop (readRedHeader redPacket (.ofList (front ++ bytes) beyond))
      n s).Meets Touch.Safe fun r => r.isSome := by
  induction n generalizing s front bytes with
  | zero => exact fun hmeets => Bool.false_ne_true hmeets.2
  | succ n ih =>
    intro hmeets
    have hsafe : (readRedHeader redPacket (.ofList (front ++ bytes) beyond)
        s).All Touch.Safe := by
      rw [Traced.loop, Traced.meets_bind] at hmeets
      exact hmeets.1
    have hinside := first_inside hlast hsafe
    change _ ≤ (front ++ bytes).length at hinside
    rw [List.length_append, hoffset] at hinside
    cases bytes with
    | nil =>
      rw [List.length_nil] at hinside
      omega
    | cons first rest =>
      have hget : ∀ i, (front ++ first :: rest)[s.offset + i]? =
          (first :: rest)[i]? := by
        intro i
        rw [hoffset]
        exact getElem?_append_length front _ i
      have hbit : first &&& 0x80 ≠ 0 := by
        intro hbit
        rw [headersEnd.eq_def] at h
        simp only [hbit, if_true] at h
        cases h
      have hbyte : (Buffer.ofList (front ++ first :: rest) beyond).byte
          s.offset = first := byte_ofList (hget 0)
      have hinside := fourth_inside hlast (by rwa [hbyte]) hsafe
      change _ ≤ (front ++ first :: rest).length at hinside
      rw [List.length_append, hoffset, List.length_cons] at hinside
      obtain ⟨second, third, fourth, rest, rfl⟩ :=
        exists_three (show 3 ≤ rest.length by omega)
      rw [headersEnd, if_neg hbit] at h
      have hround := readRedHeader_further redPacket beyond (hget 0)
        (hget 1) (hget 2) (hget 3) hlast hbit
      rw [Traced.loop, Traced.meets_bind, hround.2] at hmeets
      have hbytes : front ++ first :: second :: third :: fourth :: rest =
          (front ++ [first, second, third, fourth]) ++ rest := by
        rw [List.append_assoc]
        rfl
      rw [hbytes] at hmeets
      refine ih h ?_ rfl hmeets.2
      rw [List.length_append, ← hoffset]
      rfl

def RedBlock.packet (block : RedBlock) (bytes : List UInt8) : Packet where
  header := block.header
  payload := bytes
  primary := block.primary

theorem populate_cons {block : RedBlock} {blocks : List RedBlock}
    {rest : List UInt8} {ptr : ℤ} {tail : RedSplit}
    (hptr : ptr = front.length) (hlength : block.payloadLength = bytes.length)
    (h : (populate (.ofList (front ++ (bytes ++ rest)) beyond) blocks
      (ptr + bytes.length)).Meets Touch.Safe (· = tail)) :
    (populate (.ofList (front ++ (bytes ++ rest)) beyond) (block :: blocks)
      ptr).Meets Touch.Safe
      (· = ⟨block.packet bytes :: tail.packets, tail.complete⟩) := by
  have hsize : (Buffer.ofList (front ++ (bytes ++ rest)) beyond).size =
      front.length + (bytes.length + rest.length) := by
    change (front ++ (bytes ++ rest)).length = _
    rw [List.length_append, List.length_append]
  have hread : (Buffer.ofList (front ++ (bytes ++ rest)) beyond).read
      ⟨front.length, bytes.length⟩ = bytes := Buffer.read_ofList_append rfl rfl
  rw [populate, hlength, hptr, if_neg (by rw [hsize]; omega)]
  rw [hptr] at h
  simp only [Traced.meets_bind, Traced.meets_pure, Traced.all_touch,
    Traced.value_touch, Int.toNat_natCast]
  refine ⟨Int.natCast_nonneg _, ?_, h.1, ?_⟩
  · change front.length + bytes.length ≤ _
    rw [hsize]
    omega
  · rw [h.2, hread]
    rfl

variable (redPacket) in
theorem populate_redundant {blocks : List RedundantBlock}
    {more : List RedBlock} {front rest : List UInt8} {ptr : ℤ}
    {tail : RedSplit} (hptr : ptr = front.length)
    (h : (populate (.ofList (front ++ (redundantBytes blocks ++ rest)) beyond)
      more (ptr + (redundantBytes blocks).length)).Meets Touch.Safe
        (· = tail)) :
    (populate (.ofList (front ++ (redundantBytes blocks ++ rest)) beyond)
      ((blocks.map RedundantBlock.header).map (redBlock redPacket) ++ more)
      ptr).Meets Touch.Safe
      (· = ⟨blocks.map (redundantPacket redPacket) ++ tail.packets,
        tail.complete⟩) := by
  induction blocks generalizing front ptr with
  | nil =>
    have hnil : ((redundantBytes []).length : ℤ) = 0 := rfl
    rw [hnil, Int.add_zero] at h
    exact h
  | cons block blocks ih =>
    have hcons : redundantBytes (block :: blocks) =
        block.bytes ++ redundantBytes blocks := List.flatMap_cons
    have hbytes : front ++ (redundantBytes (block :: blocks) ++ rest) =
        (front ++ block.bytes) ++ (redundantBytes blocks ++ rest) := by
      rw [hcons]
      simp only [List.append_assoc]
    have hbytes' : front ++ (redundantBytes (block :: blocks) ++ rest) =
        front ++ (block.bytes ++ (redundantBytes blocks ++ rest)) := by
      rw [hbytes, List.append_assoc]
    have hnext : ptr + block.bytes.length = (front ++ block.bytes).length := by
      rw [hptr, List.length_append, Nat.cast_add]
    have htail := ih hnext (by
      rw [← hbytes]
      rw [hcons, List.length_append, Nat.cast_add, ← Int.add_assoc] at h
      exact h)
    rw [← hbytes, hbytes'] at htail
    rw [hbytes']
    have hlength : (redBlock redPacket block.header).payloadLength =
        block.bytes.length := by
      rw [block.length_bytes]
      rfl
    exact populate_cons hptr hlength htail

/-! ## One RED packet -/

variable {rounds : ℕ}

theorem meets_splitRedPacket
    {Q : Option RedSplit → Prop} {t : RedHeaders} {split : RedSplit}
    (hloop : (Traced.loop (readRedHeader redPacket payload) rounds {}).Meets
      Touch.Safe (· = some t))
    (hpopulate : (populate payload t.newPackets t.offset).Meets Touch.Safe
      (· = split))
    (h : Q (some ⟨split.packets.reverse, split.complete⟩)) :
    (splitRedPacket redPacket payload rounds).Meets Touch.Safe Q := by
  rw [splitRedPacket, Traced.meets_bind, hloop.2]
  refine ⟨hloop.1, (Traced.meets_bind _ _).mpr ⟨hpopulate.1, ?_⟩⟩
  rw [hpopulate.2]
  exact (Traced.meets_pure _).mpr h

theorem length_encodeHeaders (headers : List RedundantHeader)
    (primaryType : UInt8) :
    (encodeHeaders headers primaryType).length = 4 * headers.length + 1 := by
  induction headers with
  | nil => rfl
  | cons h headers ih =>
    have hcons : encodeHeaders (h :: headers) primaryType =
        h.encode ++ encodeHeaders headers primaryType := by
      simp only [encodeHeaders, List.flatMap_cons, List.append_assoc]
    have hlength : h.encode.length = 4 := by
      rw [RedundantHeader.encode, List.length_cons, toBE_length]
    rw [hcons, List.length_append, hlength, ih, List.length_cons]
    omega

theorem headersLength_map (blocks : List RedundantBlock) :
    headersLength (blocks.map RedundantBlock.header) =
      4 * blocks.length + (redundantBytes blocks).length := by
  induction blocks with
  | nil => rfl
  | cons block blocks ih =>
    have hcons : headersLength ((block :: blocks).map RedundantBlock.header) =
        (block.header.length + 4) +
          headersLength (blocks.map RedundantBlock.header) := List.sum_cons
    have hbytes : redundantBytes (block :: blocks) =
        block.bytes ++ redundantBytes blocks := List.flatMap_cons
    rw [hcons, ih, hbytes, List.length_append, block.length_bytes,
      List.length_cons]
    push_cast
    omega

theorem exists_loop_headers (redPacket : Packet) (beyond : ℕ → UInt8)
    (headers : List RedundantHeader) {primaryType : UInt8}
    (hprimary : primaryType &&& 0x80 = 0) (rest : List UInt8)
    (hrounds : headers.length + 2 ≤ rounds) :
    ∃ t, (Traced.loop (readRedHeader redPacket
        (.ofList (encodeHeaders headers primaryType ++ rest) beyond)) rounds
          {}).Meets Touch.Safe (· = some t) ∧
      t.offset = (encodeHeaders headers primaryType).length ∧
      t.newPackets = headers.map (redBlock redPacket) ++
        [primaryBlock redPacket primaryType
          (redPacket.payloadLength - (headersLength headers + 1))] := by
  have hstart : ({} : RedHeaders).offset = ([] : List UInt8).length := rfl
  obtain ⟨hsafe, t, ht, hoffset, hnew⟩ :=
    loop_headers hprimary hrounds hstart rfl
  refine ⟨t, ⟨hsafe, ht⟩, ?_, ?_⟩
  · rw [hoffset, List.length_nil, Nat.zero_add]
  · change _ = _ ++ [primaryBlock _ _ (_ - (0 + _ + _))] at hnew
    rw [Int.zero_add] at hnew
    exact hnew

variable (beyond) in
theorem splitRedPacket_wellFormed {blocks : List RedundantBlock}
    {primaryType : UInt8} {primary : List UInt8} {rounds : ℕ}
    (hprimary : primaryType &&& 0x80 = 0)
    (hpayload : redPacket.payload = redEncoding blocks primaryType primary)
    (hrounds : redPacket.payload.length + 2 ≤ rounds) :
    (splitRedPacket redPacket (.ofList redPacket.payload beyond) rounds).Meets
      Touch.Safe (· = some ⟨primaryPacket redPacket primaryType primary ::
        (blocks.map (redundantPacket redPacket)).reverse, true⟩) := by
  have hlength := congrArg List.length hpayload
  rw [redEncoding, List.length_append, List.length_append, length_encodeHeaders,
    List.length_map] at hlength
  obtain ⟨t, hloop, hoffset, hnew⟩ := exists_loop_headers redPacket beyond
    (blocks.map RedundantBlock.header) hprimary
    (redundantBytes blocks ++ primary) (show _ ≤ rounds by
      rw [List.length_map]
      omega)
  have hprimaryLength : (redPacket.payloadLength : ℤ) -
      (headersLength (blocks.map RedundantBlock.header) + 1) =
      primary.length := by
    rw [headersLength_map, Packet.payloadLength]
    omega
  rw [hprimaryLength] at hnew
  rw [hpayload, redEncoding]
  set headers := encodeHeaders (blocks.map RedundantBlock.header) primaryType
  have hbytes : headers ++ (redundantBytes blocks ++ primary) =
      (headers ++ redundantBytes blocks) ++ (primary ++ []) := by
    rw [List.append_nil, List.append_assoc]
  have htail : (populate (.ofList (headers ++ (redundantBytes blocks ++
      primary)) beyond) [primaryBlock redPacket primaryType primary.length]
      ((headers.length : ℤ) + (redundantBytes blocks).length)).Meets Touch.Safe
        (· = ⟨[primaryPacket redPacket primaryType primary], true⟩) := by
    rw [hbytes]
    have hnone : ∀ ptr : ℤ, (populate (.ofList ((headers ++ redundantBytes
        blocks) ++ (primary ++ [])) beyond) [] ptr).Meets Touch.Safe
          (· = ⟨[], true⟩) := fun _ => (Traced.meets_pure _).mpr rfl
    refine populate_cons ?_ rfl (hnone _)
    rw [List.length_append, Nat.cast_add]
  rw [← hoffset] at htail
  have hpopulate := populate_redundant redPacket
    (congrArg Nat.cast hoffset) htail
  rw [← hnew] at hpopulate
  refine meets_splitRedPacket hloop hpopulate ?_
  simp only [List.reverse_append, List.reverse_singleton,
    List.singleton_append]

variable (beyond) in
theorem splitRedPacket_malformed {blocks : List RedundantBlock}
    {header : RedundantHeader} {headers : List RedundantHeader}
    {primaryType : UInt8} {rest : List UInt8} {rounds : ℕ}
    (hprimary : primaryType &&& 0x80 = 0)
    (hpayload : redPacket.payload = encodeHeaders
      (blocks.map RedundantBlock.header ++ header :: headers) primaryType ++
        (redundantBytes blocks ++ rest))
    (hshort : rest.length < header.length)
    (hrounds : redPacket.payload.length + 2 ≤ rounds) :
    (splitRedPacket redPacket (.ofList redPacket.payload beyond) rounds).Meets
      Touch.Safe (· = some
        ⟨(blocks.map (redundantPacket redPacket)).reverse, false⟩) := by
  have hlength := congrArg List.length hpayload
  rw [List.length_append, length_encodeHeaders] at hlength
  obtain ⟨t, hloop, hoffset, hnew⟩ := exists_loop_headers redPacket beyond
    (blocks.map RedundantBlock.header ++ header :: headers) hprimary
    (redundantBytes blocks ++ rest) (show _ ≤ rounds by omega)
  rw [List.map_append, List.append_assoc, List.map_cons, List.cons_append]
    at hnew
  rw [hpayload]
  set front := encodeHeaders
    (blocks.map RedundantBlock.header ++ header :: headers) primaryType
  set more := headers.map (redBlock redPacket) ++ [primaryBlock redPacket
    primaryType _]
  have htail : (populate (.ofList (front ++ (redundantBytes blocks ++ rest))
      beyond) (redBlock redPacket header :: more)
      ((front.length : ℤ) + (redundantBytes blocks).length)).Meets Touch.Safe
        (· = ⟨[], false⟩) := by
    rw [populate, if_pos]
    · exact (Traced.meets_pure _).mpr rfl
    · change ((front ++ (redundantBytes blocks ++ rest)).length : ℤ) <
        _ + (header.length : ℤ)
      rw [List.length_append, List.length_append]
      omega
  rw [← hoffset] at htail
  have hpopulate := populate_redundant redPacket
    (congrArg Nat.cast hoffset) htail
  rw [← hnew] at hpopulate
  refine meets_splitRedPacket hloop hpopulate ?_
  rw [List.append_nil]

theorem exists_headers {payload : List UInt8} (h : headersEnd payload) :
    ∃ headers primaryType rest, primaryType &&& 0x80 = 0 ∧
      payload = encodeHeaders headers primaryType ++ rest := by
  fun_induction headersEnd payload with
  | case1 => cases h
  | case2 first rest hbit => exact ⟨[], first, rest, hbit, rfl⟩
  | case3 first hbit second third fourth rest ih =>
    obtain ⟨headers, primaryType, tail, hprimary, rfl⟩ := ih h
    obtain ⟨header, hencode⟩ := exists_encode_eq hbit second third fourth
    refine ⟨header :: headers, primaryType, tail, hprimary, ?_⟩
    simp only [encodeHeaders, List.flatMap_cons, hencode, List.append_assoc,
      List.cons_append, List.nil_append]
  | case4 => cases h

/-- The bytes behind the headers make up all redundant blocks, or those in front
of one that is not complete. -/
theorem exists_blocks (headers : List RedundantHeader) (bytes : List UInt8) :
    (∃ blocks rest, headers = blocks.map RedundantBlock.header ∧
      bytes = redundantBytes blocks ++ rest) ∨
    ∃ blocks header headers' rest,
      headers = blocks.map RedundantBlock.header ++ header :: headers' ∧
      bytes = redundantBytes blocks ++ rest ∧ rest.length < header.length := by
  induction headers generalizing bytes with
  | nil => exact .inl ⟨[], bytes, rfl, rfl⟩
  | cons header headers ih =>
    by_cases hlength : bytes.length < header.length
    · exact .inr ⟨[], header, headers, bytes, rfl, rfl, hlength⟩
    · let block : RedundantBlock :=
        ⟨header, bytes.take header.length, by
          rw [List.length_take]
          omega⟩
      have hcons : ∀ blocks rest, bytes.drop header.length =
          redundantBytes blocks ++ rest →
          bytes = redundantBytes (block :: blocks) ++ rest := by
        intro blocks rest hrest
        have hblock : redundantBytes (block :: blocks) =
            bytes.take header.length ++ redundantBytes blocks :=
          List.flatMap_cons
        rw [hblock, List.append_assoc, ← hrest, List.take_append_drop]
      obtain ⟨blocks, rest, rfl, hrest⟩ |
        ⟨blocks, header', headers', rest, rfl, hrest, hshort⟩ :=
        ih (bytes.drop header.length)
      · exact .inl ⟨block :: blocks, rest, rfl, hcons _ _ hrest⟩
      · exact .inr ⟨block :: blocks, header', headers', rest, rfl,
          hcons _ _ hrest, hshort⟩

variable (beyond) in
theorem splitRedPacket_splits (h : headersEnd redPacket.payload) {rounds : ℕ}
    (hrounds : redPacket.payload.length + 2 ≤ rounds) :
    (splitRedPacket redPacket (.ofList redPacket.payload beyond) rounds).Meets
      Touch.Safe fun r => ∃ split, r = some split ∧
        Splits redPacket split := by
  have hwellFormed : ∀ split blocks primaryType primary,
      (splitRedPacket redPacket (.ofList redPacket.payload beyond)
        rounds).value = some split → primaryType &&& 0x80 = 0 →
      redPacket.payload = redEncoding blocks primaryType primary →
      split = ⟨primaryPacket redPacket primaryType primary ::
        (blocks.map (redundantPacket redPacket)).reverse, true⟩ := by
    intro split blocks primaryType primary hsplit hprimary hpayload
    have hmeets := splitRedPacket_wellFormed beyond hprimary hpayload
      hrounds
    exact Option.some_inj.mp (hsplit.symm.trans hmeets.2)
  obtain ⟨headers, primaryType, bytes, hprimary, hpayload⟩ := exists_headers h
  obtain ⟨blocks, rest, rfl, rfl⟩ |
    ⟨blocks, header, headers', rest, rfl, rfl, hshort⟩ :=
    exists_blocks headers bytes
  · have hmeets := splitRedPacket_wellFormed beyond hprimary hpayload
      hrounds
    refine ⟨hmeets.1, _, hmeets.2, ?_, fun hmalformed => ?_⟩
    · intro blocks primaryType primary hprimary hpayload
      have hsplit := hwellFormed _ _ _ _ hmeets.2 hprimary hpayload
      rw [hsplit]
      exact ⟨rfl, rfl⟩
    · exact absurd ⟨blocks, primaryType, rest, hprimary, hpayload⟩ hmalformed
  · have hmeets := splitRedPacket_malformed beyond hprimary hpayload
      hshort hrounds
    refine ⟨hmeets.1, _, hmeets.2, ?_, fun _ => ⟨rfl, blocks, header,
      headers', primaryType, rest, hpayload, hshort, rfl⟩⟩
    intro blocks primaryType primary hprimary hpayload
    have hsplit := hwellFormed _ _ _ _ hmeets.2 hprimary hpayload
    exact absurd (congrArg RedSplit.complete hsplit) Bool.false_ne_true

theorem not_meets_splitRedPacket
    (h : headersEnd redPacket.payload = false) :
    ¬(splitRedPacket redPacket (.ofList redPacket.payload beyond)
      rounds).Meets Touch.Safe fun r => r.isSome := by
  intro hmeets
  have hstart : ({} : RedHeaders).offset = ([] : List UInt8).length := rfl
  rw [splitRedPacket, Traced.meets_bind] at hmeets
  refine not_meets_loop h hstart rfl ⟨hmeets.1, ?_⟩
  cases hloop : (Traced.loop (readRedHeader redPacket
      (.ofList ([] ++ redPacket.payload) beyond)) rounds {}).value with
  | none =>
    rw [List.nil_append] at hloop
    rw [hloop] at hmeets
    exact absurd ((Traced.meets_pure _).mp hmeets.2) Bool.false_ne_true
  | some t => rfl

variable {ret : SplitterReturnCodes} {packetList : List StoredPacket}

/-- The packets of the list are split, each in its place, and the return value
says whether all block lengths match. -/
def AllSplit (packetList : List StoredPacket)
    (r : SplitterReturnCodes × List Packet) : Prop :=
  ∃ splits : List RedSplit,
    List.Forall₂ (fun p split => Splits p.packet split) packetList splits ∧
    r.2 = splits.flatMap RedSplit.packets ∧
    r.1 = if splits.all RedSplit.complete then .kOK else .kRedLengthMismatch

/-- More than the rounds that any payload of the list needs. -/
def enoughRounds (packetList : List StoredPacket) : ℕ :=
  (packetList.map fun p => p.packet.payload.length + 2).sum

variable (ret) in
theorem splitRedFrom_meets {rounds : ℕ}
    (hrounds : enoughRounds packetList ≤ rounds)
    (h : ∀ p ∈ packetList, headersEnd p.packet.payload) :
    (splitRedFrom rounds ret packetList).Meets Touch.Safe fun r =>
      ∃ splits : List RedSplit, List.Forall₂
        (fun p split => Splits p.packet split) packetList splits ∧
      r = some (if splits.all RedSplit.complete then ret
        else .kRedLengthMismatch, splits.flatMap RedSplit.packets) := by
  induction packetList generalizing ret with
  | nil => exact (Traced.meets_pure _).mpr ⟨[], .nil, rfl⟩
  | cons p packetList ih =>
    have hcons : enoughRounds (p :: packetList) =
        (p.packet.payload.length + 2) + enoughRounds packetList :=
      List.sum_cons
    obtain ⟨hsafe, split, hsplit, hsplits⟩ := splitRedPacket_splits p.beyond
      (h p List.mem_cons_self) (show _ ≤ rounds by omega)
    obtain ⟨hrest, splits, hforall, hvalue⟩ := ih
      (if split.complete then ret else .kRedLengthMismatch) (by omega)
      fun q hq => h q (List.mem_cons_of_mem p hq)
    rw [splitRedFrom, Traced.meets_bind, StoredPacket.buffer, hsplit]
    refine ⟨hsafe, (Traced.meets_bind _ _).mpr ⟨hrest, ?_⟩⟩
    rw [hvalue]
    refine (Traced.meets_pure _).mpr ⟨split :: splits,
      .cons hsplits hforall, ?_⟩
    rw [Option.map_some, List.flatMap_cons, List.all_cons]
    cases split.complete <;> cases splits.all RedSplit.complete <;> rfl

theorem headersEnd_of_splitRedFrom
    (h : (splitRedFrom rounds ret packetList).Meets Touch.Safe
      fun r => r.isSome) :
    ∀ p ∈ packetList, headersEnd p.packet.payload := by
  induction packetList generalizing ret with
  | nil => exact fun p hp => absurd hp List.not_mem_nil
  | cons p packetList ih =>
    rw [splitRedFrom, Traced.meets_bind] at h
    obtain ⟨hsafe, hmeets⟩ := h
    cases hvalue : (splitRedPacket p.packet p.buffer rounds).value with
    | none =>
      rw [hvalue] at hmeets
      exact absurd ((Traced.meets_pure _).mp hmeets) Bool.false_ne_true
    | some split =>
      rw [hvalue] at hmeets
      dsimp only at hmeets
      obtain ⟨hrest, hsome⟩ := (Traced.meets_bind _ _).mp hmeets
      replace hsome := (Traced.meets_pure _).mp hsome
      rw [Option.isSome_map] at hsome
      refine List.forall_mem_cons.mpr ⟨?_, ih ⟨hrest, hsome⟩⟩
      by_contra hend
      refine not_meets_splitRedPacket (Bool.eq_false_of_not_eq_true hend)
        ⟨hsafe, ?_⟩
      exact Option.isSome_of_eq_some hvalue

/-- SplitRed is safe and exact exactly when the headers of each payload end
inside it. -/
theorem splitRed_meets_iff :
    (∃ rounds, (splitRed rounds packetList).Meets Touch.Safe fun r =>
      ∃ r', r = some r' ∧ AllSplit packetList r') ↔
    ∀ p ∈ packetList, headersEnd p.packet.payload := by
  constructor
  · rintro ⟨rounds, hsafe, r, hr, -⟩
    exact headersEnd_of_splitRedFrom ⟨hsafe, Option.isSome_of_eq_some hr⟩
  · intro h
    obtain ⟨hsafe, splits, hforall, hvalue⟩ :=
      splitRedFrom_meets .kOK (Nat.le_refl _) h
    exact ⟨enoughRounds packetList, hsafe, _, hvalue, splits, hforall, rfl, rfl⟩

/-- A payload of one byte that announces another header. -/
theorem not_forall_splitRed :
    ¬∀ packetList : List StoredPacket,
      (∀ p ∈ packetList, p.packet.payload ≠ []) →
      ∃ rounds, (splitRed rounds packetList).Meets Touch.Safe fun r =>
        ∃ r', r = some r' ∧ AllSplit packetList r' := by
  intro h
  let p : StoredPacket :=
    { packet := { payload := [0x80] }
      beyond := fun _ => 0 }
  obtain ⟨rounds, hsafe, r, hr, -⟩ := h [p] (by decide)
  have hend := headersEnd_of_splitRedFrom
    ⟨hsafe, Option.isSome_of_eq_some hr⟩ p (List.mem_singleton_self p)
  exact absurd hend (by decide)

end WebrtcWinXp.NetEq.PayloadSplitter
