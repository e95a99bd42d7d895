import WebrtcWinXp.StunTcp.Socket
import WebrtcWinXp.Support.Transition

/-!
# Framing over TCP loses nothing

The packets that `Send` puts on the stream are framed by their own lengths and
some padding.  `ProcessInput` takes exactly the complete frames off whatever
part of the stream stands in the input buffer.
-/

namespace WebrtcWinXp.StunTcp

open Support

/-! ## Lengths -/

def contents (data : Buffer) : List UInt8 := data.read ⟨0, data.size⟩

@[simp] theorem length_contents (data : Buffer) :
    (contents data).length = data.size :=
  data.length_read _

variable {data : Buffer}

theorem getExpectedLength_congr {data' : Buffer}
    (h : data.read ⟨0, 4⟩ = data'.read ⟨0, 4⟩) :
    getExpectedLength data = getExpectedLength data' := by
  have hsplit : ∀ d : Buffer, d.read ⟨0, 4⟩ = d.read ⟨0, 2⟩ ++ d.read ⟨2, 2⟩ :=
    fun d => d.read_add 0 2 2
  rw [hsplit, hsplit] at h
  obtain ⟨htype, hlength⟩ := List.append_inj h (by
    rw [Buffer.length_read, Buffer.length_read])
  have hmsgType : getBE16 data 0 = getBE16 data' 0 := by
    rw [getBE16, getBE16, htype]
  have hpktLen : getBE16 data kPacketLenOffset =
      getBE16 data' kPacketLenOffset := by
    rw [getBE16, getBE16, kPacketLenOffset, hlength]
  rw [getExpectedLength, getExpectedLength, hmsgType, hpktLen]

/-- The length and the padding that the first bytes of a list announce. -/
def announced (bytes : List UInt8) : ℕ × ℕ :=
  getExpectedLength (Buffer.ofList bytes fun _ => 0)

theorem announced_append {front : List UInt8} (h : 4 ≤ front.length)
    (back : List UInt8) : announced (front ++ back) = announced front := by
  refine getExpectedLength_congr ?_
  rw [Buffer.read_ofList (by rw [List.length_append]; omega),
    Buffer.read_ofList (by omega), List.drop_zero, List.drop_zero,
    List.take_append_of_le_length h]

theorem announced_contents (h : 4 ≤ data.size) :
    announced (contents data) = getExpectedLength data := by
  refine getExpectedLength_congr ?_
  obtain ⟨n, hn⟩ := Nat.exists_eq_add_of_le h
  rw [Buffer.read_ofList (by rw [length_contents]; omega), List.drop_zero,
    contents, hn, Buffer.read_add, List.take_left' (data.length_read ⟨0, 4⟩)]

theorem getExpectedLength_pos (data : Buffer) :
    4 ≤ (getExpectedLength data).1 := by
  unfold getExpectedLength
  split_ifs <;> simp only [kStunHeaderSize, kTurnChannelDataHdrSize] <;> omega

theorem getExpectedLength_lt (data : Buffer) :
    (getExpectedLength data).1 + (getExpectedLength data).2 < kBufSize := by
  have hlt := (getBE16 data kPacketLenOffset).toNat_lt
  have hpad : ∀ n, (if n % 4 ≠ 0 then 4 - n % 4 else 0) ≤ 3 := by
    intro n
    split <;> omega
  have hsize : kBufSize = 65556 := rfl
  unfold getExpectedLength
  split
  · have hheader : kStunHeaderSize = 20 := rfl
    dsimp only
    omega
  · have hheader : kTurnChannelDataHdrSize = 4 := rfl
    have hle := hpad
      (kTurnChannelDataHdrSize + (getBE16 data kPacketLenOffset).toNat)
    dsimp only
    omega

/-- A packet of the length that its first bytes announce. -/
def Complete (packet : List UInt8) : Prop :=
  4 ≤ packet.length ∧ packet.length = (announced packet).1

def frame (packet : List UInt8) : List UInt8 :=
  packet ++ List.replicate (announced packet).2 0

/-- What `ProcessInput` takes off the front. -/
def peel (bytes : List UInt8) : Option (List UInt8 × List UInt8) :=
  if bytes.length < 4 then none
  else if bytes.length < (announced bytes).1 + (announced bytes).2 then none
  else
    some (bytes.take (announced bytes).1,
      bytes.drop ((announced bytes).1 + (announced bytes).2))

variable {packet : List UInt8}

theorem length_frame (h : Complete packet) :
    (frame packet).length = (announced packet).1 + (announced packet).2 := by
  rw [frame, List.length_append, List.length_replicate, ← h.2]

theorem length_frame_lt (h : Complete packet) :
    (frame packet).length < kBufSize := by
  rw [length_frame h]
  exact getExpectedLength_lt _

theorem announced_frame (h : Complete packet)
    (rest : List UInt8) :
    announced (frame packet ++ rest) = announced packet := by
  rw [frame, List.append_assoc, announced_append h.1]

theorem peel_frame (h : Complete packet)
    (rest : List UInt8) : peel (frame packet ++ rest) = some (packet, rest) := by
  have hlength := length_frame h
  have hpos := h.1
  rw [peel, announced_frame h, List.length_append, hlength,
    if_neg (by have := h.2; omega), if_neg (by omega), ← hlength,
    List.drop_left, frame, List.append_assoc, ← h.2, List.take_left]

theorem peel_short {front back : List UInt8} (h : Complete packet)
    (hfront : front ++ back = frame packet) (hback : back ≠ []) :
    peel front = none := by
  rw [peel]
  split_ifs with hshort hlt
  · rfl
  · rfl
  · have hannounced := announced_frame h []
    rw [List.append_nil, ← hfront,
      announced_append (Nat.not_lt.mp hshort)] at hannounced
    have hlength := congrArg List.length hfront
    have hpos := List.length_pos_iff.mpr hback
    rw [List.length_append, length_frame h, ← hannounced] at hlength
    omega

theorem peel_lt {bytes rest : List UInt8}
    (h : peel bytes = some (packet, rest)) : rest.length < bytes.length := by
  unfold peel at h
  split_ifs at h with hshort hlt
  cases h
  rw [List.length_drop]
  have hpos : 4 ≤ (announced bytes).1 := getExpectedLength_pos _
  omega

def framing : Framing (List UInt8) UInt8 where
  frame := frame
  peel := peel
  Valid := Complete
  peel_frame h rest := peel_frame h rest
  peel_short h := peel_short h
  peel_lt := peel_lt

/-! ## ProcessInput -/

theorem contents_shift (data : Buffer) (n : ℕ) :
    contents
      { byte := fun i =>
          if i < data.size - n then data.byte (i + n) else data.byte i
        size := data.size - n } = (contents data).drop n := by
  apply List.ext_getElem
  · simp
  · intro i h₁ h₂
    rw [length_contents] at h₁
    dsimp only at h₁
    simp only [contents, Buffer.read, List.getElem_drop, List.getElem_map,
      List.getElem_range, Nat.zero_add, if_pos h₁]
    rw [Nat.add_comm]

theorem read_eq_take {n : ℕ} (h : n ≤ data.size) :
    data.read ⟨0, n⟩ = (contents data).take n := by
  obtain ⟨m, hm⟩ := Nat.exists_eq_add_of_le h
  rw [contents, hm, Buffer.read_add, List.take_left' (data.length_read ⟨0, n⟩)]

theorem peel_contents (data : Buffer) :
    peel (contents data) =
      if data.size < 4 then none
      else if data.size <
          (getExpectedLength data).1 + (getExpectedLength data).2 then none
      else
        some (data.read ⟨0, (getExpectedLength data).1⟩,
          (contents data).drop
            ((getExpectedLength data).1 + (getExpectedLength data).2)) := by
  rw [peel, length_contents]
  split_ifs with hshort h h' h'
  · rfl
  · rfl
  · rw [announced_contents (Nat.not_lt.mp hshort)] at h
    exact absurd h h'
  · rw [announced_contents (Nat.not_lt.mp hshort)] at h
    exact absurd h' h
  · rw [announced_contents (Nat.not_lt.mp hshort), read_eq_take (by omega)]

/-- A round of `ProcessInput` takes a frame off the bytes of the buffer. -/
theorem peelStep_processStep (s : Processing) :
    framing.peelStep (s.packets, contents s.data) =
      (processStep s).map fun t => (t.packets, contents t.data) := by
  have hpeel : framing.peelStep (s.packets, contents s.data) =
      (peel (contents s.data)).map fun r => (s.packets ++ [r.1], r.2) := rfl
  have hfour : kPacketLenOffset + kPacketLenSize = 4 := rfl
  rw [hpeel, peel_contents, processStep, hfour]
  dsimp only
  split_ifs
  · rfl
  · rfl
  · rw [Option.map_some, Option.map_some, contents_shift]

theorem peelAll_processInput (data : Buffer) :
    framing.peelAll ([], contents data) =
      ((processInput data).packets, contents (processInput data).data) := by
  exact finish_map (f := fun s : Processing => (s.packets, contents s.data))
    peelStep_processStep (fun s => length_contents s.data) ⟨[], data⟩

/-- The loop in `ProcessInput` ends. -/
theorem lowers_processStep : Lowers processStep fun s => s.data.size := by
  intro s t h
  have hfour : kPacketLenOffset + kPacketLenSize = 4 := rfl
  have hpos := getExpectedLength_pos s.data
  rw [processStep, hfour] at h
  dsimp only at h
  split_ifs at h
  cases h
  dsimp only
  omega

/-- What `ProcessInput` does depends on the bytes of the buffer only. -/
theorem processInput_congr {data' : Buffer}
    (h : contents data = contents data') :
    (processInput data).packets = (processInput data').packets ∧
      contents (processInput data).data =
        contents (processInput data').data := by
  have hpeel := peelAll_processInput data
  rw [h, peelAll_processInput] at hpeel
  obtain ⟨hpackets, hcontents⟩ := Prod.mk.inj hpeel
  exact ⟨hpackets.symm, hcontents.symm⟩

theorem contents_recv (data : Buffer) (bytes : List UInt8) :
    contents (recv data bytes) = contents data ++ bytes := by
  apply List.ext_getElem
  · rw [length_contents, List.length_append, length_contents]
    rfl
  · intro i h₁ h₂
    rw [length_contents] at h₁
    have hi : i < data.size + bytes.length := h₁
    simp only [contents, Buffer.read, List.getElem_map, List.getElem_range,
      Nat.zero_add, recv, List.getElem_append, List.length_map,
      List.length_range]
    by_cases hlt : i < data.size
    · rw [if_neg (by omega), dif_pos hlt]
    · have hbyte : i - data.size < bytes.length := by omega
      rw [if_pos (by omega), dif_neg hlt, List.getD_eq_getElem?_getD,
        List.getElem?_eq_getElem hbyte]
      rfl

theorem flushOutBuffer_cases (outbuf : List UInt8) (res : ℤ) :
    ((flushOutBuffer outbuf res).result ≤ 0 ∧
      (flushOutBuffer outbuf res).outbuf = outbuf ∧
      (flushOutBuffer outbuf res).written = []) ∨
    (0 < (flushOutBuffer outbuf res).result ∧
      (flushOutBuffer outbuf res).written ≠ [] ∧
      (flushOutBuffer outbuf res).written ++
        (flushOutBuffer outbuf res).outbuf = outbuf) := by
  unfold flushOutBuffer
  split_ifs with hres hle
  · exact .inl ⟨hres, rfl, rfl⟩
  · refine .inr ⟨by dsimp only; omega, ?_, List.take_append_drop _ _⟩
    rw [← List.length_pos_iff, List.length_take]
    omega
  · exact .inl ⟨by dsimp only; omega, rfl, rfl⟩

/-- `Send` writes nothing and keeps the output buffer, or it starts a frame. -/
theorem send_cases (outbuf : List UInt8) (pv : Buffer) (res : ℤ) :
    ((send outbuf pv res).written = [] ∧
      (send outbuf pv res).outbuf = outbuf) ∨
    (outbuf = [] ∧ Complete (contents pv) ∧
      (send outbuf pv res).written ≠ [] ∧
      (send outbuf pv res).written ++ (send outbuf pv res).outbuf =
        frame (contents pv)) := by
  have hfour : kPacketLenSize + kPacketLenOffset = 4 := rfl
  rw [send, hfour]
  dsimp only
  split_ifs with hsize hempty hlength hflushed
  · exact .inl ⟨rfl, rfl⟩
  · exact .inl ⟨rfl, rfl⟩
  · exact .inl ⟨rfl, rfl⟩
  · rw [not_not] at hempty
    rcases flushOutBuffer_cases (pv.read ⟨0, pv.size⟩ ++
        List.replicate (getExpectedLength pv).2 0) res with
      ⟨-, -, hwritten⟩ | ⟨hpos, -, -⟩
    · exact .inl ⟨hwritten, hempty.symm⟩
    · omega
  · rw [not_not] at hempty hlength
    rcases flushOutBuffer_cases (pv.read ⟨0, pv.size⟩ ++
        List.replicate (getExpectedLength pv).2 0) res with
      ⟨hle, -, -⟩ | ⟨-, hwritten, hsplit⟩
    · exact absurd hle hflushed
    · have hfits : 4 ≤ pv.size := by omega
      have hannounced := announced_contents hfits
      refine .inr ⟨hempty, ⟨?_, ?_⟩, hwritten, ?_⟩
      · rwa [length_contents]
      · rw [length_contents, hannounced, hlength]
      · rw [hsplit, frame, hannounced]
        rfl

/-! ## Runs -/

/-- The packets behind those that were emitted stand on the stream, from the
input buffer on, and the first of them is not complete in the input buffer. -/
structure Flows (s : Connection) (rest : List (List UInt8)) : Prop where
  sent : s.sent = s.emitted ++ rest
  stream : contents s.inbuf ++ (s.wire ++ s.outbuf) = framing.stream rest
  incomplete : ∀ p ∈ rest.head?, s.inbuf.size < (frame p).length

structure Inv (s : Connection) : Prop where
  complete : ∀ p ∈ s.sent, Complete p
  flows : ∃ rest, Flows s rest
  outbuf_lt : s.outbuf.length < kBufSize

variable {s : Connection}

theorem Started.inv (h : Started s) : Inv s := by
  obtain ⟨houtbuf, hsent, hwire, hsize, hemitted⟩ := h
  have hcontents : contents s.inbuf = [] := by
    rw [← List.length_eq_zero_iff, length_contents, hsize]
  refine ⟨?_, ⟨[], ?_, ?_, ?_⟩, ?_⟩
  · rw [hsent]
    exact fun p hp => absurd hp List.not_mem_nil
  · rw [hsent, hemitted]
    rfl
  · rw [hcontents, hwire, houtbuf]
    rfl
  · exact fun p hp => by cases hp
  · rw [houtbuf]
    exact Nat.succ_pos _

theorem Inv.size_lt (h : Inv s) :
    s.inbuf.size < kBufSize := by
  obtain ⟨rest, hflows⟩ := h.flows
  cases rest with
  | nil =>
    have hlength := congrArg List.length hflows.stream
    rw [List.length_append, length_contents] at hlength
    have hzero : s.inbuf.size = 0 := Nat.eq_zero_of_add_eq_zero_right hlength
    rw [hzero]
    exact Nat.succ_pos _
  | cons p rest =>
    have hmem : p ∈ s.sent := by
      rw [hflows.sent]
      exact List.mem_append_right _ List.mem_cons_self
    exact (hflows.incomplete p rfl).trans
      (length_frame_lt (h.complete p hmem))

theorem Inv.put (h : Inv s) {written outbuf : List UInt8}
    (hpacket : Complete packet) (hempty : s.outbuf = [])
    (hframe : written ++ outbuf = frame packet) :
    Inv
      { s with
        outbuf := outbuf
        wire := s.wire ++ written
        sent := s.sent ++ [packet] } := by
  obtain ⟨rest, hflows⟩ := h.flows
  refine ⟨?_, ⟨rest ++ [packet], ?_, ?_, ?_⟩, ?_⟩
  · intro p hp
    rcases List.mem_append.mp hp with hp | hp
    · exact h.complete p hp
    · rwa [List.mem_singleton.mp hp]
  · dsimp only
    rw [hflows.sent, List.append_assoc]
  · have hstream := hflows.stream
    rw [hempty, List.append_nil] at hstream
    have hlast : framing.stream [packet] = frame packet :=
      List.flatMap_singleton ..
    dsimp only
    rw [List.append_assoc, hframe, ← List.append_assoc, hstream,
      Framing.stream, Framing.stream, List.flatMap_append, ← hlast]
    rfl
  · cases rest with
    | nil =>
      have hlength := congrArg List.length hflows.stream
      rw [List.length_append, length_contents] at hlength
      have hzero : s.inbuf.size = 0 :=
        Nat.eq_zero_of_add_eq_zero_right hlength
      rintro p hp
      cases hp
      dsimp only
      rw [hzero, length_frame hpacket]
      have hpos := hpacket.1
      have hlen := hpacket.2
      omega
    | cons p rest => exact hflows.incomplete
  · have hlength := congrArg List.length hframe
    have hlt := length_frame_lt hpacket
    rw [List.length_append] at hlength
    dsimp only
    omega

theorem Inv.flush (h : Inv s) {written outbuf : List UInt8}
    (hsplit : written ++ outbuf = s.outbuf) :
    Inv
      { s with
        outbuf := outbuf
        wire := s.wire ++ written } := by
  obtain ⟨rest, hflows⟩ := h.flows
  refine ⟨h.complete, ⟨rest, hflows.sent, ?_, hflows.incomplete⟩, ?_⟩
  · dsimp only
    rw [List.append_assoc, hsplit]
    exact hflows.stream
  · have hlength := congrArg List.length hsplit
    have hlt := h.outbuf_lt
    rw [List.length_append] at hlength
    dsimp only
    omega

theorem Inv.receive (h : Inv s) (n : ℕ) :
    Inv
      { s with
        wire := s.wire.drop n
        inbuf := (processInput (recv s.inbuf (s.wire.take n))).data
        emitted := s.emitted ++
          (processInput (recv s.inbuf (s.wire.take n))).packets } := by
  obtain ⟨rest, hflows⟩ := h.flows
  have hvalid : ∀ p ∈ rest, framing.Valid p := fun p hp =>
    h.complete p (hflows.sent ▸ List.mem_append_right _ hp)
  have hstream : contents (recv s.inbuf (s.wire.take n)) ++
      (s.wire.drop n ++ s.outbuf) = framing.stream rest := by
    rw [contents_recv, List.append_assoc, ← List.append_assoc (s.wire.take n),
      List.take_append_drop]
    exact hflows.stream
  obtain ⟨taken, rest', front, rfl, hpeel, hback, hlast⟩ :=
    framing.peelAll_of_stream hvalid hstream []
  rw [peelAll_processInput, List.nil_append] at hpeel
  obtain ⟨rfl, rfl⟩ := Prod.mk.inj hpeel
  refine ⟨h.complete, ⟨rest', ?_, hback, ?_⟩, h.outbuf_lt⟩
  · dsimp only
    rw [hflows.sent, List.append_assoc]
  · intro p hp
    have hlt := hlast p hp
    rwa [length_contents] at hlt

theorem Inv.onReadEvent (h : Inv s) (n : ℕ) :
    onReadEvent s.inbuf (s.wire.take n) =
      processInput (recv s.inbuf (s.wire.take n)) := by
  rw [StunTcp.onReadEvent]
  exact if_neg (Nat.not_le.mpr (h.receive n).size_lt)

theorem Inv.next {t : Connection} {e : Event} (h : Inv s)
    (hstep : step s e = some t) : Inv t := by
  cases e with
  | send pv res =>
    cases hstep
    rcases send_cases s.outbuf pv res with
      ⟨hwritten, houtbuf⟩ | ⟨hempty, hcomplete, hwritten, hframe⟩
    · rw [hwritten, houtbuf, List.append_nil, if_pos rfl]
      exact h
    · rw [if_neg hwritten]
      exact h.put hcomplete hempty hframe
  | write res =>
    rw [step] at hstep
    split_ifs at hstep
    · cases hstep
      exact h
    · cases hstep
      refine h.flush ?_
      rcases flushOutBuffer_cases s.outbuf res with
        ⟨-, houtbuf, hwritten⟩ | ⟨-, -, hsplit⟩
      · rw [hwritten, houtbuf, List.nil_append]
      · exact hsplit
  | read n =>
    rw [step] at hstep
    split_ifs at hstep
    cases hstep
    rw [h.onReadEvent]
    exact h.receive n

/-! ## What holds in a run -/

/-- What was emitted is what was put on the stream, in order, up to the packet
that is not complete in the input buffer. -/
def EmitsSent (s : Connection) : Prop :=
  ∃ rest, s.sent = s.emitted ++ rest ∧
    contents s.inbuf ++ (s.wire ++ s.outbuf) = rest.flatMap frame ∧
    ∀ p ∈ rest.head?, s.inbuf.size < (frame p).length

/-- The buffers have room for a packet of any length and its padding. -/
def HasRoom (s : Connection) : Prop :=
  s.inbuf.size < kBufSize ∧ s.outbuf.length < kBufSize ∧
    ∀ p ∈ s.sent, (frame p).length < kBufSize

def Event.IsSend : Event → Prop
  | .send _ _ => True
  | _ => False

/-- Without sending any more, all packets on the stream can be emitted. -/
def CanComplete (s : Connection) : Prop :=
  ∃ es t, (∀ e ∈ es, ¬e.IsSend) ∧ execute step s es = some t ∧
    t.sent = s.sent ∧ t.emitted = s.sent

theorem Inv.emitted_eq (h : Inv s) (hwire : s.wire = [])
    (houtbuf : s.outbuf = []) : s.emitted = s.sent := by
  obtain ⟨rest, hflows⟩ := h.flows
  cases rest with
  | nil => rw [hflows.sent, List.append_nil]
  | cons p rest =>
    have hlength := congrArg List.length hflows.stream
    have hlt := hflows.incomplete p rfl
    have hframe : framing.stream (p :: rest) =
        frame p ++ framing.stream rest := List.flatMap_cons
    rw [hwire, houtbuf, List.append_nil, List.append_nil, length_contents,
      hframe, List.length_append] at hlength
    omega

theorem Inv.exists_flushed (h : Inv s) :
    ∃ t, step s (.write s.outbuf.length) = some t ∧ Inv t ∧
      t.sent = s.sent ∧ t.outbuf = [] := by
  by_cases hempty : s.outbuf = []
  · exact ⟨s, by rw [step, if_pos hempty], h, rfl, hempty⟩
  · have hpos := List.length_pos_iff.mpr hempty
    have hflush : flushOutBuffer s.outbuf s.outbuf.length =
        ⟨s.outbuf.length, [], s.outbuf⟩ := by
      rw [flushOutBuffer, if_neg (by omega), Int.toNat_natCast,
        if_pos le_rfl, List.drop_length, List.take_length]
    have hwrite : step s (.write s.outbuf.length) =
        some
          { s with
            outbuf := []
            wire := s.wire ++ s.outbuf } := by
      rw [step, if_neg hempty, hflush]
    exact ⟨_, hwrite, h.next hwrite, rfl, rfl⟩

theorem Inv.exists_read (h : Inv s)
    (houtbuf : s.outbuf = []) :
    ∃ es t, (∀ e ∈ es, ¬e.IsSend) ∧ execute step s es = some t ∧
      t.sent = s.sent ∧ t.emitted = s.sent := by
  induction hn : s.wire.length generalizing s with
  | zero =>
    exact ⟨[], s, fun e he => absurd he List.not_mem_nil, rfl, rfl,
      h.emitted_eq (List.length_eq_zero_iff.mp hn) houtbuf⟩
  | succ n ih =>
    have hlt := h.size_lt
    have hread : step s (.read 1) =
        some
          { s with
            wire := s.wire.drop 1
            inbuf := (StunTcp.onReadEvent s.inbuf (s.wire.take 1)).data
            emitted := s.emitted ++
              (StunTcp.onReadEvent s.inbuf (s.wire.take 1)).packets } := by
      rw [step, if_pos ⟨by omega, by omega⟩]
    obtain ⟨es, t, hes, hrun, hsent, hemitted⟩ := ih (h.next hread) houtbuf
      (by dsimp only; rw [List.length_drop]; omega)
    refine ⟨.read 1 :: es, t, ?_, ?_, hsent, hemitted⟩
    · intro e he
      rcases List.mem_cons.mp he with rfl | he
      · exact id
      · exact hes e he
    · rw [execute, hread, Option.bind_some, hrun]

theorem Inv.canComplete (h : Inv s) : CanComplete s := by
  obtain ⟨t, hstep, ht, hsent, houtbuf⟩ := h.exists_flushed
  obtain ⟨es, u, hes, hrun, hsent', hemitted⟩ := ht.exists_read houtbuf
  refine ⟨.write s.outbuf.length :: es, u, ?_, ?_, hsent'.trans hsent,
    hemitted.trans hsent⟩
  · intro e he
    rcases List.mem_cons.mp he with rfl | he
    · exact id
    · exact hes e he
  · rw [execute, hstep, Option.bind_some, hrun]

/-- The loop in `ProcessInput` ends, and what it does depends on the bytes in
the input buffer only. -/
def ReadsBufferOnly : Prop :=
  ∀ data, (∃ s, loop processStep (data.size + 1) ⟨[], data⟩ = some s ∧
      processInput data = s) ∧
    ∀ data', contents data = contents data' →
      (processInput data).packets = (processInput data').packets ∧
        contents (processInput data).data =
          contents (processInput data').data

theorem readsBufferOnly : ReadsBufferOnly :=
  fun data => ⟨⟨_, loop_eq_finish lowers_processStep ⟨[], data⟩, rfl⟩,
    fun _ h => processInput_congr h⟩

/-- Whatever is written and read at a time, the packets on the stream are
emitted in order, and each of them can be completed. -/
theorem emitsSent_of_run {s : Connection} (hs : Reachable Started step s) :
    EmitsSent s ∧ (s.wire = [] → s.outbuf = [] → s.emitted = s.sent) ∧
      HasRoom s ∧ CanComplete s ∧ ReadsBufferOnly := by
  have h : Inv s := hs.invariant (fun _ => Started.inv) fun _ _ _ => Inv.next
  obtain ⟨rest, hflows⟩ := h.flows
  exact ⟨⟨rest, hflows.sent, hflows.stream, hflows.incomplete⟩, h.emitted_eq,
    ⟨h.size_lt, h.outbuf_lt, fun p hp => length_frame_lt (h.complete p hp)⟩,
    h.canComplete, readsBufferOnly⟩

def start : Connection where
  outbuf := []
  sent := []
  wire := []
  inbuf := Buffer.ofList [] fun _ => 0
  emitted := []

/-- One byte of channel data, of which the first write takes three bytes. -/
def sampleEvents : List Event :=
  [.send (Buffer.ofList [0x40, 0, 0, 1, 0xAB] fun _ => 0) 3, .read 2,
    .write 5, .read 6]

theorem execute_sampleEvents :
    ((execute step start sampleEvents).map fun s =>
      (s.wire, s.outbuf, s.sent)) =
      some ([], [], [[0x40, 0, 0, 1, 0xAB]]) := by
  decide

theorem emitsSent_of_run_sampleEvents :
    ∃ s, execute step start sampleEvents = some s ∧
      s.emitted = [[0x40, 0, 0, 1, 0xAB]] := by
  obtain ⟨s, hs, hview⟩ := Option.map_eq_some_iff.mp execute_sampleEvents
  obtain ⟨hwire, houtbuf, hsent⟩ := by simpa only [Prod.mk.injEq] using hview
  have hstart : Started start := ⟨rfl, rfl, rfl, rfl, rfl⟩
  refine ⟨s, hs, ?_⟩
  rw [← hsent]
  exact (emitsSent_of_run (reachable_of_execute hstart hs)).2.1 hwire houtbuf

end WebrtcWinXp.StunTcp
