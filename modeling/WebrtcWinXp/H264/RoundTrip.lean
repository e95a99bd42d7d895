import WebrtcWinXp.H264.Delivery
import WebrtcWinXp.H264.Queue

/-!
# Packetizing and depacketizing

The payloads of a frame, received in order, give back its NAL units.
-/

namespace WebrtcWinXp.H264

open Support

/-! ## Headers -/

theorem kTypeMask_stapA (header : UInt8) :
    (header &&& (kFBit ||| kNriMask) ||| kStapA) &&& kTypeMask = kStapA := by
  revert header
  refine forall_uint8 ?_
  decide +kernel

theorem kTypeMask_fuA (header : UInt8) :
    (header &&& (kFBit ||| kNriMask) ||| kFuA) &&& kTypeMask = kFuA := by
  revert header
  refine forall_uint8 ?_
  decide +kernel

theorem kSBit_fuHeader (header : UInt8) (first last : Bool) :
    decide (((if first then kSBit else 0) ||| (if last then kEBit else 0) |||
      (header &&& kTypeMask)) &&& kSBit > 0) = first := by
  revert header first last
  refine forall_uint8 ?_
  decide +kernel

theorem header_fuA (header : UInt8) (first last : Bool) :
    (header &&& (kFBit ||| kNriMask) ||| kFuA) &&& (kFBit ||| kNriMask) |||
      (((if first then kSBit else 0) ||| (if last then kEBit else 0) |||
        (header &&& kTypeMask)) &&& kTypeMask) = header := by
  revert header first last
  refine forall_uint8 ?_
  decide +kernel

def Fragment.nalUnit (payloadData : List UInt8) (f : Fragment) : List UInt8 :=
  slice payloadData f.fragmentationOffset f.fragmentationLength

/-- A fragment is a non-empty part of the frame, with a type of a single NAL
unit. -/
structure Fragment.LaidOut (payloadData : List UInt8) (f : Fragment) :
    Prop where
  pos : 0 < f.fragmentationLength
  inside : f.fragmentationOffset + f.fragmentationLength ≤ payloadData.length
  type : payloadData.getD f.fragmentationOffset 0 &&& kTypeMask < 24

variable {payloadData : List UInt8}

theorem length_slice {offset size : ℕ}
    (h : offset + size ≤ payloadData.length) :
    (slice payloadData offset size).length = size := by
  rw [slice, List.length_take, List.length_drop]
  omega

theorem slice_add (payloadData : List UInt8) (offset size len : ℕ) :
    slice payloadData offset (size + len) =
      slice payloadData offset size ++
        slice payloadData (offset + size) len := by
  rw [slice, slice, slice, List.take_add, List.drop_drop]

theorem slice_eq_cons {offset size : ℕ}
    (h : offset < payloadData.length) :
    slice payloadData offset (size + 1) =
      payloadData.getD offset 0 :: slice payloadData (offset + 1) size := by
  rw [slice, List.drop_eq_getElem_cons h, List.take_succ_cons, slice,
    List.getD_eq_getElem?_getD, List.getElem?_eq_getElem h]
  rfl

theorem Fragment.LaidOut.nalUnit_eq {f : Fragment}
    (h : f.LaidOut payloadData) :
    f.nalUnit payloadData =
      payloadData.getD f.fragmentationOffset 0 ::
        slice payloadData (f.fragmentationOffset + kNalHeaderSize)
          (f.fragmentationLength - kNalHeaderSize) := by
  have hpos := h.pos
  have hinside := h.inside
  obtain ⟨n, hn⟩ := Nat.exists_eq_add_one_of_ne_zero hpos.ne'
  rw [nalUnit, hn, slice_eq_cons (by omega)]
  rfl

theorem Fragment.LaidOut.length_nalUnit
    {f : Fragment} (h : f.LaidOut payloadData) :
    (f.nalUnit payloadData).length = f.fragmentationLength :=
  length_slice h.inside

theorem Fragment.LaidOut.nalUnit_ne {f : Fragment}
    (h : f.LaidOut payloadData) : f.nalUnit payloadData ≠ [] := by
  rw [h.nalUnit_eq]
  exact List.cons_ne_nil _ _

theorem parse_single {b : UInt8} (h : b &&& kTypeMask < 24)
    (rest : List UInt8) :
    ∃ parsed, parse (b :: rest) = some parsed ∧ parsed.stapA = false ∧
      parsed.isFirstPacket = true ∧ parsed.payload = b :: rest := by
  have hfuA : b &&& kTypeMask ≠ kFuA := fun heq => by
    rw [heq] at h
    exact absurd h (by decide)
  have hstapA : b &&& kTypeMask ≠ kStapA := fun heq => by
    rw [heq] at h
    exact absurd h (by decide)
  have hparse : parse (b :: rest) = parseSingleNalu (b :: rest) := by
    simp [parse, hfuA]
  rw [hparse]
  simp [parseSingleNalu, hstapA]

theorem parse_stapA (header a b c : UInt8) (rest : List UInt8) :
    ∃ parsed, parse ((header &&& (kFBit ||| kNriMask) ||| kStapA) ::
        a :: b :: c :: rest) = some parsed ∧ parsed.stapA = true ∧
      parsed.isFirstPacket = true ∧
      parsed.payload = (header &&& (kFBit ||| kNriMask) ||| kStapA) ::
        a :: b :: c :: rest := by
  have htype := kTypeMask_stapA header
  have hfuA : kStapA ≠ kFuA := by decide
  simp [parse, parseSingleNalu, htype, hfuA]

namespace RtpPacketizerH264

variable {p : RtpPacketizerH264}

theorem parse_nextFragmentPacket (packet : Packet) :
    ∃ parsed, parse (p.nextFragmentPacket packet) = some parsed ∧
      parsed.stapA = false ∧ parsed.isFirstPacket = packet.firstFragment ∧
      parsed.payload =
        if packet.firstFragment then
          packet.header :: slice p.payloadData packet.offset packet.size
        else slice p.payloadData packet.offset packet.size := by
  have htype := kTypeMask_fuA packet.header
  have hfirst := kSBit_fuHeader packet.header packet.firstFragment
    packet.lastFragment
  have hheader := header_fuA packet.header packet.firstFragment
    packet.lastFragment
  have hparse : parse (p.nextFragmentPacket packet) =
      parseFuaNalu (p.nextFragmentPacket packet) := by
    simp [parse, nextFragmentPacket, htype]
  rw [hparse]
  refine ⟨_, rfl, rfl, hfirst, ?_⟩
  dsimp only
  rw [hfirst, hheader]
  rfl

/-! ## Groups of fragments of one unit -/

variable {fragmentOffset room offset len : ℕ} {pieces : List Packet}

theorem buffers_pieces
    (h : p.Pieces fragmentOffset room offset len pieces)
    (hoffset : fragmentOffset + kNalHeaderSize ≤ offset)
    (hfirst : offset = fragmentOffset + kNalHeaderSize → room < len)
    (packets : List Packet) :
    (p.nextPackets (pieces ++ packets)).map Output.buffer =
      pieces.map p.nextFragmentPacket ++
        (p.nextPackets packets).map Output.buffer := by
  induction h with
  | nil => rfl
  | @cons offset size len pieces hpos hroom _ ih =>
    have hsingle : (decide (offset - kNalHeaderSize = fragmentOffset) &&
        decide (len = 0)) = false := by
      rw [Bool.and_eq_false_iff, decide_eq_false_iff_not,
        decide_eq_false_iff_not]
      by_contra hboth
      have hlong := hfirst (by omega)
      omega
    rw [List.cons_append, nextPackets_cons, nextBuffer,
      if_neg (ne_true_of_eq_false hsingle), if_neg Bool.false_ne_true,
      List.map_cons, List.map_cons, List.cons_append]
    dsimp only
    rw [ih (by omega) (by omega)]

theorem carried_nextFragmentPacket (packet : Packet) :
    carried (p.nextFragmentPacket packet) =
      if packet.firstFragment then
        packet.header :: slice p.payloadData packet.offset packet.size
      else slice p.payloadData packet.offset packet.size := by
  obtain ⟨parsed, hparsed, hstapA, -, hpayload⟩ :=
    p.parse_nextFragmentPacket packet
  simp only [carried, hparsed, hstapA]
  exact hpayload

theorem receive_pieces
    (h : p.Pieces fragmentOffset room offset len pieces)
    (hoffset : fragmentOffset + kNalHeaderSize < offset)
    (units : List (List UInt8)) (last : List UInt8) :
    (pieces.map p.nextFragmentPacket).foldlM receive (units ++ [last]) =
      some (units ++ [last ++ slice p.payloadData offset len]) := by
  induction h generalizing last with
  | @nil offset =>
    rw [slice, List.take_zero, List.append_nil]
    rfl
  | @cons offset size len pieces hpos _ _ ih =>
    obtain ⟨parsed, hparsed, hstapA, hfirst, hpayload⟩ :=
      p.parse_nextFragmentPacket ⟨offset, size,
        decide (offset - kNalHeaderSize = fragmentOffset), decide (len = 0),
        false, p.headerAt fragmentOffset⟩
    have hnot : decide (offset - kNalHeaderSize = fragmentOffset) = false :=
      decide_eq_false (by omega)
    dsimp only at hfirst hpayload
    rw [hnot] at hfirst hpayload
    have hreceive : receive (units ++ [last]) (p.nextFragmentPacket ⟨offset,
        size, decide (offset - kNalHeaderSize = fragmentOffset),
        decide (len = 0), false, p.headerAt fragmentOffset⟩) =
          some (units ++ [last ++ slice p.payloadData offset size]) := by
      rw [receive, hparsed, Option.bind_some, join, hstapA, hfirst, hpayload]
      simp
    rw [List.map_cons, List.foldlM_cons, hreceive, Option.bind_eq_bind,
      Option.bind_some, ih (by omega), List.append_assoc, ← slice_add]

theorem carried_pieces
    (h : p.Pieces fragmentOffset room offset len pieces)
    (hoffset : fragmentOffset + kNalHeaderSize < offset) :
    (pieces.map p.nextFragmentPacket).flatMap carried =
      slice p.payloadData offset len := by
  induction h with
  | nil => rfl
  | @cons offset size len pieces _ _ _ ih =>
    have hnot : decide (offset - kNalHeaderSize = fragmentOffset) = false :=
      decide_eq_false (by omega)
    rw [List.map_cons, List.flatMap_cons, carried_nextFragmentPacket,
      ih (by omega), slice_add]
    dsimp only
    rw [hnot]
    rfl

theorem carried_ne_pieces
    (h : p.Pieces fragmentOffset room offset len pieces)
    (hinside : offset + len ≤ p.payloadData.length) :
    ∀ d ∈ pieces.map p.nextFragmentPacket, carried d ≠ [] := by
  induction h with
  | nil => exact fun d hd => absurd hd List.not_mem_nil
  | @cons offset size len pieces hpos _ _ ih =>
    intro d hd
    rcases List.mem_cons.mp hd with rfl | hd
    · have hslice : slice p.payloadData offset size ≠ [] := by
        rw [← List.length_pos_iff, length_slice (by omega)]
        exact hpos
      rw [carried_nextFragmentPacket]
      split
      · exact List.cons_ne_nil _ _
      · exact hslice
    · exact ih (by omega) d hd

theorem not_first_pieces
    (h : p.Pieces fragmentOffset room offset len pieces)
    (hoffset : fragmentOffset + kNalHeaderSize < offset) :
    ∀ d ∈ pieces.map p.nextFragmentPacket, ∃ parsed,
      parse d = some parsed ∧ parsed.isFirstPacket = false := by
  induction h with
  | nil => exact fun d hd => absurd hd List.not_mem_nil
  | @cons offset size len pieces hpos _ _ ih =>
    intro d hd
    rcases List.mem_cons.mp hd with rfl | hd
    · obtain ⟨parsed, hparsed, -, hfirst, -⟩ :=
        p.parse_nextFragmentPacket ⟨offset, size,
          decide (offset - kNalHeaderSize = fragmentOffset),
          decide (len = 0), false, p.headerAt fragmentOffset⟩
      exact ⟨parsed, hparsed, hfirst.trans (decide_eq_false (by omega))⟩
    · exact ih (by omega) d hd

theorem length_pieces_le
    (h : p.Pieces fragmentOffset room offset len pieces) :
    ∀ d ∈ pieces.map p.nextFragmentPacket,
      d.length ≤ room + kFuAHeaderSize := by
  induction h with
  | nil => exact fun d hd => absurd hd List.not_mem_nil
  | @cons offset size len pieces hpos hroom _ ih =>
    intro d hd
    rcases List.mem_cons.mp hd with rfl | hd
    · have hslice : (slice p.payloadData offset size).length ≤ size :=
        List.length_take_le _ _
      rw [nextFragmentPacket, List.length_cons, List.length_cons]
      dsimp only
      rw [kFuAHeaderSize]
      omega
    · exact ih d hd

theorem delivers_fuA (hmax : 3 ≤ p.maxPayloadLen) {f : Fragment} (hlaid : f.LaidOut p.payloadData)
    (hlong : p.maxPayloadLen < f.fragmentationLength)
    (h : p.Pieces f.fragmentationOffset (p.maxPayloadLen - kFuAHeaderSize)
      (f.fragmentationOffset + kNalHeaderSize)
      (f.fragmentationLength - kNalHeaderSize) pieces) :
    Delivers (pieces.map p.nextFragmentPacket)
      [f.nalUnit p.payloadData] := by
  have hinside := hlaid.inside
  have hcarried := carried_ne_pieces h
    (by rw [kNalHeaderSize]; omega)
  have hunit := hlaid.nalUnit_eq
  have hlen : f.fragmentationLength - kNalHeaderSize ≠ 0 := by
    rw [kNalHeaderSize]
    omega
  generalize f.fragmentationLength - kNalHeaderSize = len at h hunit hlen
  generalize hstart : f.fragmentationOffset + kNalHeaderSize = start
    at h hunit
  cases h with
  | nil => exact absurd rfl hlen
  | @cons _ size len pieces hpos hroom h =>
    have hbehind : f.fragmentationOffset + kNalHeaderSize < start + size := by
      omega
    have hfirst : decide (start - kNalHeaderSize = f.fragmentationOffset) =
        true := decide_eq_true (by omega)
    obtain ⟨parsed, hparsed, hstapA, hisFirst, hpayload⟩ :=
      p.parse_nextFragmentPacket ⟨start, size,
        decide (start - kNalHeaderSize = f.fragmentationOffset),
        decide (len = 0), false, p.headerAt f.fragmentationOffset⟩
    dsimp only at hisFirst hpayload
    rw [hfirst] at hisFirst hpayload
    refine ⟨List.cons_ne_nil _ _, hcarried, ?_, ?_, ?_, ?_, .inr rfl⟩
    · intro n hn
      rw [List.mem_singleton.mp hn]
      exact hlaid.nalUnit_ne
    · rw [List.map_cons, List.flatMap_cons, carried_pieces h hbehind,
        carried_nextFragmentPacket]
      dsimp only
      rw [if_pos hfirst, List.flatten_singleton, hunit, slice_add]
      rfl
    · intro units
      have hreceive : receive units (p.nextFragmentPacket ⟨start, size,
          decide (start - kNalHeaderSize = f.fragmentationOffset),
          decide (len = 0), false, p.headerAt f.fragmentationOffset⟩) =
            some (units ++ [p.headerAt f.fragmentationOffset ::
              slice p.payloadData start size]) := by
        rw [receive, hparsed, Option.bind_some, join, hstapA, hisFirst,
          hpayload]
        rfl
      rw [List.map_cons, List.foldlM_cons, hreceive, Option.bind_eq_bind,
        Option.bind_some, receive_pieces h hbehind, hunit, slice_add]
      rfl
    · intro i d hd
      cases i with
      | zero =>
        cases hd
        exact ⟨parsed, hparsed, by simp [hisFirst]⟩
      | succ i =>
        obtain ⟨parsed', hparsed', hnot⟩ := not_first_pieces h hbehind d
          (List.mem_of_getElem? hd)
        exact ⟨parsed', hparsed', by simp [hnot]⟩

/-! ## Groups of units in one payload -/

/-- What is written for the units of a STAP-A payload. -/
def sharedBytes (payloadData : List UInt8) (fs : List Fragment) : List UInt8 :=
  fs.flatMap fun f =>
    toBE kLengthFieldSize f.fragmentationLength ++ f.nalUnit payloadData

variable {fs : List Fragment}

theorem aggregateLoop_shared (first : Bool)
    (hfs : fs ≠ []) (packets : List Packet) :
    p.aggregateLoop (p.shared first fs ++ packets) =
      (sharedBytes p.payloadData fs, packets) := by
  induction fs generalizing first with
  | nil => exact absurd rfl hfs
  | cons f fs ih =>
    rw [shared, List.cons_append, aggregateLoop, if_pos rfl, sharedBytes,
      List.flatMap_cons]
    cases fs with
    | nil =>
      rw [List.flatMap_nil, List.append_nil]
      rfl
    | cons f' fs =>
      dsimp only
      rw [List.isEmpty_cons, if_neg Bool.false_ne_true,
        ih _ (List.cons_ne_nil _ _)]
      rfl

theorem splitUnits_sharedBytes {payloadData : List UInt8} (hlaid : ∀ f ∈ fs, f.LaidOut payloadData)
    (hlength : ∀ f ∈ fs, f.fragmentationLength < 65536) :
    splitUnits (sharedBytes payloadData fs) =
      some (fs.map (Fragment.nalUnit payloadData)) := by
  induction fs with
  | nil =>
    rw [sharedBytes, List.flatMap_nil, splitUnits]
    rfl
  | cons f fs ih =>
    have hbytes : toBE kLengthFieldSize f.fragmentationLength =
        [UInt8.ofNat (f.fragmentationLength / 256),
          UInt8.ofNat f.fragmentationLength] := rfl
    have hvalue : ofBE [UInt8.ofNat (f.fragmentationLength / 256),
        UInt8.ofNat f.fragmentationLength] =
          (f.nalUnit payloadData).length := by
      rw [← hbytes, ofBE_toBE, (hlaid f List.mem_cons_self).length_nalUnit]
      exact Nat.mod_eq_of_lt (hlength f List.mem_cons_self)
    have hcons : sharedBytes payloadData (f :: fs) =
        UInt8.ofNat (f.fragmentationLength / 256) ::
          UInt8.ofNat f.fragmentationLength ::
            (f.nalUnit payloadData ++ sharedBytes payloadData fs) := by
      rw [sharedBytes, List.flatMap_cons, hbytes]
      rfl
    rw [hcons, splitUnits, hvalue, if_neg (by rw [List.length_append]; omega), List.drop_left,
      List.take_left,
      ih (fun g hg => hlaid g (List.mem_cons_of_mem _ hg))
        (fun g hg => hlength g (List.mem_cons_of_mem _ hg))]
    rfl

theorem length_sharedBytes {payloadData : List UInt8}
    (hlaid : ∀ f ∈ fs, f.LaidOut payloadData) :
    (sharedBytes payloadData fs).length = sharedSize fs := by
  induction fs with
  | nil => rfl
  | cons f fs ih =>
    rw [sharedBytes, List.flatMap_cons, List.length_append,
      List.length_append, toBE_length,
      (hlaid f List.mem_cons_self).length_nalUnit, ← sharedBytes,
      ih fun g hg => hlaid g (List.mem_cons_of_mem _ hg)]
    rfl

theorem length_nalUnit_le_sharedSize {f : Fragment}
    (h : f ∈ fs) :
    kLengthFieldSize + f.fragmentationLength ≤ sharedSize fs := by
  induction fs with
  | nil => cases h
  | cons g fs ih =>
    rw [sharedSize, List.map_cons, List.sum_cons, ← sharedSize]
    rcases List.mem_cons.mp h with rfl | h
    · exact Nat.le_add_right _ _
    · exact (ih h).trans (Nat.le_add_left _ _)

theorem delivers_stapA (hmax : p.maxPayloadLen < 65536) {f f' : Fragment}
    (hlaid : ∀ g ∈ f :: f' :: fs, g.LaidOut p.payloadData)
    (hsize : kNalHeaderSize + sharedSize (f :: f' :: fs) ≤ p.maxPayloadLen)
    (header : UInt8) :
    Delivers
      [(header &&& (kFBit ||| kNriMask) ||| kStapA) ::
        sharedBytes p.payloadData (f :: f' :: fs)]
      ((f :: f' :: fs).map (Fragment.nalUnit p.payloadData)) := by
  have hsplit := splitUnits_sharedBytes hlaid fun g hg => by
    have hle := length_nalUnit_le_sharedSize hg
    omega
  obtain ⟨a, b, c, rest, hbytes⟩ : ∃ a b c rest,
      sharedBytes p.payloadData (f :: f' :: fs) = a :: b :: c :: rest := by
    rw [sharedBytes, List.flatMap_cons,
      (hlaid f List.mem_cons_self).nalUnit_eq]
    exact ⟨_, _, _, _, rfl⟩
  rw [hbytes] at hsplit ⊢
  obtain ⟨parsed, hparsed, hstapA, hfirst, hpayload⟩ :=
    parse_stapA header a b c rest
  have hunits : splitStapA parsed.payload =
      some ((f :: f' :: fs).map (Fragment.nalUnit p.payloadData)) := by
    rw [splitStapA, hpayload, ← hsplit]
    rfl
  have hcarried : carried ((header &&& (kFBit ||| kNriMask) ||| kStapA) ::
      a :: b :: c :: rest) =
        ((f :: f' :: fs).map (Fragment.nalUnit p.payloadData)).flatten := by
    simp only [carried, hparsed, hstapA, if_true, hunits, Option.getD_some]
  refine ⟨List.cons_ne_nil _ _, ?_, ?_, ?_, ?_, ?_, .inl rfl⟩
  · intro d hd
    rw [List.mem_singleton.mp hd, hcarried, List.map_cons, List.flatten_cons,
      (hlaid f List.mem_cons_self).nalUnit_eq]
    exact List.cons_ne_nil _ _
  · intro n hn
    obtain ⟨g, hg, rfl⟩ := List.mem_map.mp hn
    exact (hlaid g hg).nalUnit_ne
  · rw [List.flatMap_singleton, hcarried]
  · intro units
    rw [List.foldlM_cons, receive, hparsed, Option.bind_some, join, hstapA,
      if_pos rfl, hunits]
    rfl
  · intro i d hd
    cases i with
    | zero =>
      cases hd
      exact ⟨parsed, hparsed, by simp [hfirst]⟩
    | succ i => cases hd

theorem delivers_single {f : Fragment} (hlaid : f.LaidOut p.payloadData) :
    Delivers [f.nalUnit p.payloadData] [f.nalUnit p.payloadData] := by
  obtain ⟨parsed, hparsed, hstapA, hfirst, hpayload⟩ := parse_single hlaid.type
    (slice p.payloadData (f.fragmentationOffset + kNalHeaderSize)
      (f.fragmentationLength - kNalHeaderSize))
  rw [← hlaid.nalUnit_eq] at hparsed hpayload
  have hcarried : carried (f.nalUnit p.payloadData) =
      f.nalUnit p.payloadData := by
    simp only [carried, hparsed, hstapA]
    exact hpayload
  refine ⟨List.cons_ne_nil _ _, ?_, ?_, ?_, ?_, ?_, .inl rfl⟩
  · intro d hd
    rw [List.mem_singleton.mp hd, hcarried]
    exact hlaid.nalUnit_ne
  · intro n hn
    rw [List.mem_singleton.mp hn]
    exact hlaid.nalUnit_ne
  · rw [List.flatMap_singleton, hcarried, List.flatten_singleton]
  · intro units
    rw [List.foldlM_cons, receive, hparsed, Option.bind_some, join, hstapA,
      hfirst, hpayload]
    rfl
  · intro i d hd
    cases i with
    | zero =>
      cases hd
      exact ⟨parsed, hparsed, by simp [hfirst]⟩
    | succ i => cases hd

/-! ## The whole frame -/

theorem Group.delivers (hmax : 3 ≤ p.maxPayloadLen ∧ p.maxPayloadLen < 65536)
    {ps : List Packet} (h : p.Group ps fs)
    (hlaid : ∀ f ∈ fs, f.LaidOut p.payloadData) (packets : List Packet) :
    ∃ buffers,
      (p.nextPackets (ps ++ packets)).map Output.buffer =
        buffers ++ (p.nextPackets packets).map Output.buffer ∧
      Delivers buffers (fs.map (Fragment.nalUnit p.payloadData)) ∧
      ∀ d ∈ buffers, d.length ≤ p.maxPayloadLen := by
  cases h with
  | @fuA f _ hlong h =>
    refine ⟨ps.map p.nextFragmentPacket, ?_,
      delivers_fuA hmax.1 (hlaid f List.mem_cons_self) hlong h, ?_⟩
    · refine buffers_pieces h le_rfl (fun _ => ?_) packets
      rw [kFuAHeaderSize, kNalHeaderSize]
      omega
    · intro d hd
      have hle := length_pieces_le h d hd
      rw [kFuAHeaderSize] at hle
      omega
  | @single f h =>
    have hf := hlaid f List.mem_cons_self
    refine ⟨[f.nalUnit p.payloadData], ?_, delivers_single hf, ?_⟩
    · rw [shared, shared, List.cons_append, nextPackets_cons]
      rfl
    · intro d hd
      rw [List.mem_singleton.mp hd, hf.length_nalUnit]
      exact h
  | @stapA f f' fs h =>
    refine ⟨_, ?_, delivers_stapA hmax.2 hlaid h
      (p.headerAt f.fragmentationOffset), ?_⟩
    · have hloop := p.aggregateLoop_shared true
        (List.cons_ne_nil f (f' :: fs)) packets
      rw [shared, List.cons_append] at hloop
      rw [shared, List.cons_append, nextPackets_cons, nextBuffer,
        if_neg (by simp), if_pos rfl, nextAggregatePacket, hloop]
      rfl
    · intro d hd
      rw [List.mem_singleton.mp hd, List.length_cons,
        length_sharedBytes hlaid, Nat.add_comm]
      exact h

theorem Queued.delivered (hmax : 3 ≤ p.maxPayloadLen ∧ p.maxPayloadLen < 65536)
    {packets : List Packet} {fragments : List Fragment}
    (h : p.Queued packets fragments)
    (hlaid : ∀ f ∈ fragments, f.LaidOut p.payloadData) :
    Delivered ((p.nextPackets packets).map Output.buffer)
        (fragments.map (Fragment.nalUnit p.payloadData)) ∧
      ∀ o ∈ p.nextPackets packets, o.buffer.length ≤ p.maxPayloadLen := by
  induction h with
  | nil =>
    rw [nextPackets_nil]
    exact ⟨.nil, fun o ho => absurd ho List.not_mem_nil⟩
  | @group ps packets fs fragments h _ ih =>
    obtain ⟨buffers, heq, hdelivers, hsize⟩ := h.delivers hmax
      (fun f hf => hlaid f (List.mem_append_left _ hf)) packets
    obtain ⟨hdelivered, hsizes⟩ := ih
      fun f hf => hlaid f (List.mem_append_right _ hf)
    refine ⟨?_, fun o ho => ?_⟩
    · rw [heq, List.map_append]
      exact .group hdelivers hdelivered
    · have hmem := List.mem_map_of_mem (f := Output.buffer) ho
      rw [heq, List.mem_append] at hmem
      rcases hmem with hmem | hmem
      · exact hsize _ hmem
      · obtain ⟨o', ho', hbuffer⟩ := List.mem_map.mp hmem
        rw [← hbuffer]
        exact hsizes o' ho'

theorem lastPacket_iff (packets : List Packet) {i : ℕ} {o : Output}
    (h : (p.nextPackets packets)[i]? = some o) :
    o.lastPacket = true ↔ i + 1 = (p.nextPackets packets).length := by
  induction hn : packets.length using Nat.strong_induction_on
    generalizing packets i with
  | _ n ih =>
    cases packets with
    | nil =>
      rw [nextPackets_nil] at h
      cases h
    | cons packet packets =>
      rw [nextPackets_cons] at h ⊢
      have hle := p.length_nextBuffer_le packet packets
      rw [List.length_cons] at hn
      generalize (p.nextBuffer packet packets).2 = rest at h hle ⊢
      rw [List.length_cons]
      cases i with
      | zero =>
        cases h
        cases rest with
        | nil => simp [nextPackets_nil]
        | cons packet' rest => simp [nextPackets_cons]
      | succ i =>
        rw [ih rest.length (by omega) rest h rfl]
        omega

/-- The payloads of a frame fit, the last one is marked, and received in order
they give back the NAL units; the parser calls those payloads first in which a
unit starts. -/
theorem depacketize_payloads (p : RtpPacketizerH264)
    (hmax : 3 ≤ p.maxPayloadLen ∧ p.maxPayloadLen < 65536)
    (hlaid : ∀ f ∈ p.fragmentation, f.LaidOut p.payloadData) :
    (∀ o ∈ p.payloads, o.buffer.length ≤ p.maxPayloadLen) ∧
      (∀ (i : ℕ) o, p.payloads[i]? = some o →
        (o.lastPacket = true ↔ i + 1 = p.payloads.length)) ∧
      depacketize (p.payloads.map Output.buffer) =
        some (p.fragmentation.map (Fragment.nalUnit p.payloadData)) ∧
      ∀ (i : ℕ) o, p.payloads[i]? = some o → ∃ parsed,
        parse o.buffer = some parsed ∧
          (parsed.isFirstPacket = true ↔
            StartsNalUnit (p.payloads.map Output.buffer)
              (p.fragmentation.map (Fragment.nalUnit p.payloadData)) i) := by
  obtain ⟨hdelivered, hsizes⟩ :=
    (queued_generatePackets hmax.1).delivered hmax hlaid
  refine ⟨hsizes, fun i o ho => lastPacket_iff _ ho, hdelivered.depacketize,
    fun i o ho => hdelivered.first ?_⟩
  rw [List.getElem?_map, show p.nextPackets p.generatePackets = p.payloads from
    rfl, ho]
  rfl

/-- A frame whose first two units share a payload and whose third one is
fragmented. -/
def samplePacketizer : RtpPacketizerH264 where
  payloadData := [0x67, 1, 2, 0x68, 3, 0x65, 4, 5, 6, 7, 8, 9, 10, 11, 12, 13]
  maxPayloadLen := 10
  fragmentation := [⟨0, 3⟩, ⟨3, 2⟩, ⟨5, 11⟩]

theorem depacketize_samplePacketizer :
    depacketize (samplePacketizer.payloads.map Output.buffer) =
      some [[0x67, 1, 2], [0x68, 3],
        [0x65, 4, 5, 6, 7, 8, 9, 10, 11, 12, 13]] := by
  refine (depacketize_payloads samplePacketizer (by decide) ?_).2.2.1
  intro f hf
  simp only [samplePacketizer, List.mem_cons, List.not_mem_nil,
    or_false] at hf
  rcases hf with rfl | rfl | rfl <;>
    exact ⟨by decide, by decide, by decide⟩

end RtpPacketizerH264

end WebrtcWinXp.H264
