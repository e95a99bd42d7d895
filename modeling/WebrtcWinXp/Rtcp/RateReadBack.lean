import WebrtcWinXp.Rtcp.NackReadBack
import WebrtcWinXp.Rtcp.PictureIds
import WebrtcWinXp.Rtcp.Rates

/-!
# Rates and picture ids that are read back

The blocks that are built for REMB, TMMBR, TMMBN and RPSI, and what the parser
returns for a packet that ends with one of them.
-/

namespace WebrtcWinXp.Rtcp

open Support

/-! ## Items of rates -/

namespace Parser

variable {b : Buffer} {s t u : Parser} {i blockEnd : ℕ} (fuel : ℕ)

theorem parseAll_cons {l : List (PacketType × Packet)}
    (h : iterate b fuel s = some t) (htype : t.packetType ≠ .kRtcpNotValidCode)
    (hrest : parseAll b fuel t = some (l, u)) :
    parseAll b (fuel + 1) s = some ((t.packetType, t.packet) :: l, u) := by
  rw [parseAll, h, Option.bind_some, if_neg htype, hrest]
  rfl

theorem parseAll_nil (h : iterate b fuel s = some t)
    (htype : t.packetType = .kRtcpNotValidCode) :
    parseAll b (fuel + 1) s = some ([], t) := by
  rw [parseAll, h, Option.bind_some, if_pos htype]

theorem parseItem_tmmbr (hs : s.At .rtpfbTmmbrItem i blockEnd) :
    parseItem b s =
      if blockEnd < i + 8 then s.leave
      else
        ({ s.read 8 with
            packetType := .kRtcpRtpfbTmmbrItemCode
            packet := .tmmbrItem (b.u32 i) (bitRateAndOverhead b (i + 4)).1
              (bitRateAndOverhead b (i + 4)).2 }, true) := by
  rw [parseItem, hs.state]
  dsimp only
  rw [parseTMMBRItem, hs.ptr, hs.blockEnd]

theorem parseItem_tmmbn (hs : s.At .rtpfbTmmbnItem i blockEnd) :
    parseItem b s =
      if blockEnd < i + 8 then s.leave
      else
        ({ s.read 8 with
            packetType := .kRtcpRtpfbTmmbnItemCode
            packet := .tmmbnItem (b.u32 i) (bitRateAndOverhead b (i + 4)).1
              (bitRateAndOverhead b (i + 4)).2 }, true) := by
  rw [parseItem, hs.state]
  dsimp only
  rw [parseTMMBNItem, hs.ptr, hs.blockEnd]

theorem iterate_rembCode (hs : s.At .psfbAppItem i blockEnd)
    (hend : i + 4 ≤ blockEnd) (hname : b.Holds i [0x52, 0x45, 0x4d, 0x42]) :
    ∃ t, iterate b (fuel + 1) s = some t ∧
      t.At .psfbRembItem (i + 4) blockEnd ∧
      t.packetType = .kRtcpPsfbRembCode ∧ t.packet = s.packet := by
  obtain ⟨h₀, h₁, h₂, h₃, -⟩ := hname
  have hitem : parseItem b s.cleared =
      ({ s.cleared.read 4 with
          packetType := .kRtcpPsfbRembCode
          state := .psfbRembItem }, true) := by
    rw [parseItem, hs.cleared.state]
    dsimp only
    rw [parsePsfbAppItem, hs.cleared.ptr, hs.cleared.blockEnd,
      if_neg (by omega), h₀, h₁, h₂, h₃]
    rfl
  refine ⟨_, iterate_item fuel hs (by decide) hitem,
    ⟨hs.valid, rfl, congrArg (· + 4) hs.ptr, hs.blockEnd⟩, rfl, rfl⟩

theorem iterate_rembItem (hs : s.At .psfbRembItem i blockEnd)
    (hend : i + 4 + 4 * (b.data i).toNat ≤ blockEnd) :
    ∃ t rate, iterate b (fuel + 1) s = some t ∧
      t.At .psfbRembItem (i + 4 + 4 * (b.data i).toNat) blockEnd ∧
      t.packetType = .kRtcpPsfbRembItemCode ∧
      t.packet = .rembItem rate (b.data i)
        ((List.range (b.data i).toNat).map fun j => b.u32 (i + 4 + 4 * j)) ∧
      (rate.toNat = rembMantissa b i * 2 ^ rembExponent b i ↔
        rembMantissa b i * 2 ^ rembExponent b i < 2 ^ 32) := by
  have hitem : ∃ v, parsePsfbREMBItem b s.cleared = (v, true) ∧
      v.At .psfbRembItem (i + 4 + 4 * (b.data i).toNat) blockEnd ∧
      v.packetType = .kRtcpPsfbRembItemCode ∧
      ∃ rate, v.packet = .rembItem rate (b.data i)
        ((List.range (b.data i).toNat).map fun j => b.u32 (i + 4 + 4 * j)) := by
    have hroom : ¬(s.cleared.read 4).blockEnd <
        (s.cleared.read 4).ptr + 4 * (b.data i).toNat := by
      change ¬s.blockEnd < s.ptr + 4 + 4 * (b.data i).toNat
      rw [hs.ptr, hs.blockEnd]
      omega
    rw [parsePsfbREMBItem, hs.cleared.ptr, hs.cleared.blockEnd,
      if_neg (by omega)]
    dsimp only
    have hptr : (s.cleared.read 4).ptr = i + 4 := congrArg (· + 4) hs.ptr
    rw [if_neg hroom]
    simp only [hptr]
    exact ⟨_, rfl, ⟨hs.valid, hs.state,
      congrArg (· + 4 * (b.data i).toNat) hptr, hs.blockEnd⟩, rfl, _, rfl⟩
  obtain ⟨v, hv, hat, htype, rate, hpacket⟩ := hitem
  obtain ⟨rate', ssrcs, hpacket', -, hrate⟩ := parsePsfbREMBItem_rate hv
  rw [hs.cleared.ptr] at hpacket' hrate
  have heq : rate = rate' := (Packet.rembItem.inj (hpacket.symm.trans hpacket')).1
  subst heq
  refine ⟨v, rate, iterate_item fuel hs (by decide) ?_, hat, htype, hpacket,
    hrate⟩
  rw [parseItem, hs.cleared.state]
  exact hv

theorem iterate_rpsiItem {n : ℕ} (hs : s.At .psfbRpsiItem i blockEnd)
    (hend : blockEnd = i + 2 + n) (hn : 2 ≤ n ∧ n ≤ 30) :
    ∃ t, iterate b (fuel + 1) s = some t ∧
      t.At .psfbRpsiItem blockEnd blockEnd ∧
      parseRPSIItem b s.cleared = (t, true) ∧
      t.packetType = .kRtcpPsfbRpsiCode ∧
      t.packet = .rpsi
        { s.packet.toRpsi with
          payloadType := b.data (i + 1)
          nativeBitString := b.bytes (i + 2) n
          numberOfValidBits :=
            UInt16.ofNat n * 8 - (b.data i).toUInt16 } := by
  have hlength : s.cleared.blockEnd - s.cleared.ptr = n + 2 := by
    rw [hs.cleared.blockEnd, hs.cleared.ptr]
    omega
  have hparse := parseRPSIItem.eq_1 b s.cleared
  rw [RTCP_RPSI_DATA_SIZE] at hparse
  dsimp only at hparse
  rw [hlength, if_neg (by omega), if_neg (by omega), Nat.add_sub_cancel,
    hs.cleared.ptr] at hparse
  have hitem : parseItem b s.cleared = parseRPSIItem b s.cleared := by
    rw [parseItem, hs.cleared.state]
  refine ⟨_, iterate_item fuel hs (by decide) (hitem.trans hparse),
    ⟨hs.valid, hs.state, ?_, hs.blockEnd⟩, hparse, rfl, rfl⟩
  change s.ptr + (n + 2) = blockEnd
  rw [hs.ptr, hend]
  omega

end Parser

/-- The packet ends with the bytes at the position, where the parser is. -/
structure ReadsAt (b : Buffer) (s : Parser) (pos : ℕ) (bytes : List UInt8) :
    Prop where
  parser : ∃ blockEnd, s.At .topLevel pos blockEnd
  holds : b.Holds pos bytes
  size : b.size = pos + bytes.length

/-- The length of a block as its header gives it. -/
def announcedLength (b : Buffer) (pos : ℕ) : ℕ :=
  4 * ((b.u16 (pos + 2)).toNat + 1)

theorem length_flatMap_words (l : List UInt32) :
    (l.flatMap assignUWord32).length = 4 * l.length := by
  induction l with
  | nil => rfl
  | cons x l ih =>
    rw [List.flatMap_cons, List.length_append, ih,
      Buffer.length_assignUWord32, List.length_cons]
    omega

theorem Buffer.Holds.words {b : Buffer} {l : List UInt32} {i : ℕ}
    (h : b.Holds i (l.flatMap assignUWord32)) :
    ((List.range l.length).map fun j => b.u32 (i + 4 * j)) = l := by
  induction l generalizing i with
  | nil => rfl
  | cons x l ih =>
    rw [List.flatMap_cons, Buffer.holds_append,
      Buffer.length_assignUWord32] at h
    rw [List.length_cons, List.range_succ_eq_map, List.map_cons,
      List.map_map]
    refine congrArg₂ List.cons h.1.u32
      ((List.map_congr_left ?_).trans (ih h.2))
    intro j _
    exact congrArg b.u32 (by simp only [Nat.succ_eq_add_one]; omega)

namespace RTCPSender

variable {sender : RTCPSender} {pos : ℕ} {bytes : List UInt8} {b : Buffer}
  {s : Parser} {fuel : ℕ}

/-! ## REMB -/

/-- The block is as long as its header says, and the parser returns it with a
rate that is close to the one that was sent. -/
def RembReadBack (sender : RTCPSender) (b : Buffer) (s : Parser)
    (pos fuel : ℕ) (bytes : List UInt8) : Prop :=
  announcedLength b pos = bytes.length ∧
    ∃ rate t, s.parseAll b fuel = some
      ([(.kRtcpPsfbAppCode, .psfbApp sender.ssrc 0),
        (.kRtcpPsfbRembCode, .psfbApp sender.ssrc 0),
        (.kRtcpPsfbRembItemCode,
          .rembItem rate (UInt8.ofNat sender.rembSsrc.length)
            sender.rembSsrc)], t) ∧
      Close 17 sender.rembBitrate.toNat rate.toNat

theorem buildREMB_eq_some (h : sender.buildREMB pos = some bytes) :
    bytes = [0x8f, 206, 0, UInt8.ofNat (sender.rembSsrc.length + 4)] ++
      ((assignUWord32 sender.ssrc ++ assignUWord32 0) ++
        ([0x52, 0x45, 0x4d, 0x42] ++
          ([UInt8.ofNat sender.rembSsrc.length] ++
            (rembRate sender.rembBitrate ++
              sender.rembSsrc.flatMap assignUWord32)))) := by
  rw [buildREMB] at h
  split_ifs at h
  rw [Option.some_inj] at h
  rw [← h, feedbackSsrcs]
  simp only [List.append_assoc]

theorem length_buildREMB (h : sender.buildREMB pos = some bytes) :
    bytes.length = 20 + 4 * sender.rembSsrc.length := by
  have hrate : (rembRate sender.rembBitrate).length = 3 := rfl
  rw [buildREMB_eq_some h]
  simp only [List.length_append, length_flatMap_words, List.length_cons,
    List.length_nil, Buffer.length_assignUWord32, hrate]
  omega

theorem toNat_u16_of_byte {i : ℕ} (h : b.data i = 0) :
    (b.u16 i).toNat = (b.data (i + 1)).toNat := by
  have hzero : (0 : UInt8).toUInt16 <<< (8 : UInt16) = 0 := rfl
  rw [Buffer.u16, h, hzero, zero_add, UInt8.toNat_toUInt16]

theorem announcedLength_remb (h : sender.buildREMB pos = some bytes)
    (hn : sender.rembSsrc.length < 2 ^ 8) (hholds : b.Holds pos bytes) :
    announcedLength b pos = bytes.length ↔ sender.rembSsrc.length ≤ 251 := by
  have hlength := length_buildREMB h
  rw [buildREMB_eq_some h] at hholds
  obtain ⟨-, -, hhigh, hlow, -⟩ := hholds
  rw [announcedLength, toNat_u16_of_byte hhigh, hlow, UInt8.toNat_ofNat',
    hlength]
  omega

theorem parseAll_remb (h : sender.buildREMB pos = some bytes)
    (hn : sender.rembSsrc.length ≤ 251) (hreads : ReadsAt b s pos bytes)
    (fuel : ℕ) :
    ∃ rate t, s.parseAll b (fuel + 8) = some
      ([(.kRtcpPsfbAppCode, .psfbApp sender.ssrc 0),
        (.kRtcpPsfbRembCode, .psfbApp sender.ssrc 0),
        (.kRtcpPsfbRembItemCode,
          .rembItem rate (UInt8.ofNat sender.rembSsrc.length)
            sender.rembSsrc)], t) ∧
      (Close 17 sender.rembBitrate.toNat rate.toNat ↔
        sender.rembBitrate.toNat ≤ maxRate 18) := by
  have hbytes := buildREMB_eq_some h
  obtain ⟨⟨blockEnd, hs⟩, hholds, hsize⟩ := hreads
  have hlength := length_buildREMB h
  have hword : (UInt16.ofNat (sender.rembSsrc.length + 4)).toNat =
      sender.rembSsrc.length + 4 := by
    rw [UInt16.toNat_ofNat']
    omega
  have hcount : (UInt8.ofNat sender.rembSsrc.length).toNat =
      sender.rembSsrc.length := by
    rw [UInt8.toNat_ofNat']
    omega
  have hheader : [0x8f, 206, 0, UInt8.ofNat (sender.rembSsrc.length + 4)] =
      feedbackHeader 15 206 (UInt16.ofNat (sender.rembSsrc.length + 4)) :=
    byte_header 15 206 (by omega)
  rw [hbytes, hheader, ← List.append_assoc, Buffer.holds_append] at hholds
  obtain ⟨hstart, hrest⟩ := hholds
  obtain ⟨hname, hnumber, hrate, hwords⟩ :
      b.Holds (pos + 12) [0x52, 0x45, 0x4d, 0x42] ∧
        b.Holds (pos + 16) [UInt8.ofNat sender.rembSsrc.length] ∧
        b.Holds (pos + 17) (rembRate sender.rembBitrate) ∧
        b.Holds (pos + 20) (sender.rembSsrc.flatMap assignUWord32) := by
    rw [Buffer.holds_append, Buffer.holds_append, Buffer.holds_append] at hrest
    exact hrest
  obtain ⟨t₁, ht₁, hat₁, htype₁, hpacket₁⟩ :=
    Parser.iterate_feedback (fuel + 5) Parser.starts_psfbApp (.inr rfl)
      (by decide) ⟨by omega, by omega⟩ hs hstart (by omega)
  rw [hword] at hat₁
  obtain ⟨t₂, ht₂, hat₂, htype₂, hpacket₂⟩ :=
    Parser.iterate_rembCode (fuel + 5) hat₁ (by omega) hname
  rw [hpacket₁] at hpacket₂
  obtain ⟨t₃, rate, ht₃, hat₃, htype₃, hpacket₃, hvalue⟩ :=
    Parser.iterate_rembItem (b := b) (fuel + 4) hat₂
      (by rw [hnumber.1, hcount]; omega)
  rw [hnumber.1, hcount] at hat₃ hpacket₃
  rw [hwords.words] at hpacket₃
  have hleave : Parser.parseItem b t₃.cleared = t₃.cleared.leave := by
    rw [Parser.parseItem, hat₃.cleared.state]
    dsimp only
    rw [Parser.parsePsfbREMBItem, hat₃.cleared.ptr, hat₃.cleared.blockEnd,
      if_pos (by omega)]
  obtain ⟨t₄, ht₄, htype₄⟩ := Parser.iterate_end (fuel + 1) hat₃ (by decide)
    hleave (by omega)
  refine ⟨rate, t₄, ?_, rembRate_close hrate hvalue⟩
  have hend := Parser.parseAll_nil (fuel + 4) ht₄ htype₄
  have hitem := Parser.parseAll_cons (fuel + 5) ht₃ (by rw [htype₃]; decide)
    hend
  have hcode := Parser.parseAll_cons (fuel + 6) ht₂ (by rw [htype₂]; decide)
    hitem
  have hall := Parser.parseAll_cons (fuel + 7) ht₁ (by rw [htype₁]; decide)
    hcode
  rw [htype₁, hpacket₁, htype₂, hpacket₂, htype₃, hpacket₃] at hall
  exact hall

/-- The parser returns the request with its overhead and a rate that is close to
the one that was sent. -/
def TmmbrReadBack (sender : RTCPSender) (b : Buffer) (s : Parser)
    (fuel : ℕ) : Prop :=
  ∃ rate t, s.parseAll b fuel = some
    ([(.kRtcpRtpfbTmmbrCode, .tmmbr sender.ssrc 0),
      (.kRtcpRtpfbTmmbrItemCode,
        .tmmbrItem sender.remoteSsrc rate sender.packetOhSend)], t) ∧
    CloseKbps sender.tmmbrSend.toNat rate.toNat

theorem parseAll_tmmbr (h : sender.writeTMMBR pos = some bytes)
    (hsend : sender.tmmbrSend ≠ 0)
    (hrate : sender.tmmbrSend.toNat * 1000 < 2 ^ 32)
    (hoh : sender.packetOhSend.toNat < 2 ^ 9) (hreads : ReadsAt b s pos bytes)
    (fuel : ℕ) :
    ∃ rate t, s.parseAll b (fuel + 6) = some
      ([(.kRtcpRtpfbTmmbrCode, .tmmbr sender.ssrc 0),
        (.kRtcpRtpfbTmmbrItemCode,
          .tmmbrItem sender.remoteSsrc rate sender.packetOhSend)], t) ∧
      (CloseKbps sender.tmmbrSend.toNat rate.toNat ↔
        sender.tmmbrSend.toNat ≤ maxKbps) := by
  have hbytes : bytes = feedbackHeader 3 205 4 ++
      (assignUWord32 sender.ssrc ++ assignUWord32 0) ++
      (assignUWord32 sender.remoteSsrc ++
        tmmbrRate sender.tmmbrSend sender.packetOhSend) := by
    rw [writeTMMBR, if_neg hsend] at h
    split_ifs at h
    rw [Option.some_inj] at h
    rw [← h, feedbackSsrcs, List.append_assoc]
    rfl
  obtain ⟨⟨blockEnd, hs⟩, hholds, hsize⟩ := hreads
  have hlength : bytes.length = 20 := by
    rw [hbytes]
    rfl
  rw [hbytes, Buffer.holds_append] at hholds
  obtain ⟨hstart, hrest⟩ := hholds
  obtain ⟨hssrc, hvalue⟩ : b.Holds (pos + 12) (assignUWord32 sender.remoteSsrc) ∧
      b.Holds (pos + 16)
        (tmmbrRate sender.tmmbrSend sender.packetOhSend) := by
    rw [Buffer.holds_append] at hrest
    exact hrest
  obtain ⟨t₁, ht₁, hat₁, htype₁, hpacket₁⟩ :=
    Parser.iterate_feedback (fuel + 3) Parser.starts_tmmbr (.inl rfl)
      (by decide) ⟨by decide, by decide⟩ hs hstart
      (by rw [show (4 : UInt16).toNat = 4 from rfl]; omega)
  rw [show (4 : UInt16).toNat = 4 from rfl] at hat₁
  have hitem := Parser.parseItem_tmmbr (b := b) hat₁.cleared
  rw [if_neg (by omega), hssrc.u32] at hitem
  obtain ⟨hoverhead, hclose⟩ := tmmbrRate_close hrate hoh hvalue
  rw [hoverhead] at hitem
  have ht₂ := Parser.iterate_item (fuel + 3) hat₁ nofun hitem
  generalize hv : ({ t₁.cleared.read 8 with
      packetType := .kRtcpRtpfbTmmbrItemCode
      packet := .tmmbrItem sender.remoteSsrc
        (Parser.bitRateAndOverhead b (pos + 12 + 4)).1
        sender.packetOhSend } : Parser) = t₂ at ht₂
  have hat₂ : t₂.At .rtpfbTmmbrItem (pos + 20) (pos + 20) := by
    rw [← hv]
    exact ⟨hat₁.valid, hat₁.state, congrArg (· + 8) hat₁.ptr, hat₁.blockEnd⟩
  have hleave := Parser.parseItem_tmmbr (b := b) hat₂.cleared
  rw [if_pos (by omega)] at hleave
  obtain ⟨t₃, ht₃, htype₃⟩ := Parser.iterate_end fuel hat₂ nofun hleave
    (by omega)
  refine ⟨_, t₃, ?_, hclose⟩
  have hend := Parser.parseAll_nil (fuel + 3) ht₃ htype₃
  have hlast := Parser.parseAll_cons (fuel + 4) ht₂ (by rw [← hv]; nofun) hend
  have hall := Parser.parseAll_cons (fuel + 5) ht₁ (by rw [htype₁]; nofun) hlast
  rw [htype₁, hpacket₁, ← hv] at hall
  exact hall

/-! ## TMMBN -/

/-- The item that is returned for an entry: its SSRC, its overhead and a rate
that satisfies `P`. -/
def ReadsEntry (P : TmmbnEntry → UInt32 → Prop) (entry : TmmbnEntry)
    (item : PacketType × Packet) : Prop :=
  ∃ rate, item = (.kRtcpRtpfbTmmbnItemCode,
    .tmmbnItem entry.ssrc rate entry.packetOh) ∧ P entry rate

def CloseEntry (entry : TmmbnEntry) (rate : UInt32) : Prop :=
  CloseKbps entry.tmmbr.toNat rate.toNat

def written (boundingSet : List TmmbnEntry) : List TmmbnEntry :=
  boundingSet.filter fun entry => entry.tmmbr > 0

/-- The parser returns the entries in order, with rates that are close to those
that were sent. -/
def TmmbnReadBack (sender : RTCPSender) (boundingSet : List TmmbnEntry)
    (b : Buffer) (s : Parser) (fuel : ℕ) : Prop :=
  ∃ items t, s.parseAll b fuel =
      some ((.kRtcpRtpfbTmmbnCode, .tmmbn sender.ssrc 0) :: items, t) ∧
    List.Forall₂ (ReadsEntry CloseEntry) (written boundingSet) items

/-- An entry whose rate in bit/s fits in 32 bits and whose overhead fits in its
bits. -/
def TmmbnEntry.Ok (entry : TmmbnEntry) : Prop :=
  entry.tmmbr.toNat * 1000 < 2 ^ 32 ∧ entry.packetOh.toNat < 2 ^ 9

theorem parseAll_tmmbnItems {i blockEnd : ℕ} (entries : List TmmbnEntry)
    (hok : ∀ entry ∈ entries, entry.Ok) (hs : s.At .rtpfbTmmbnItem i blockEnd)
    (hholds : b.Holds i (entries.flatMap fun entry =>
      assignUWord32 entry.ssrc ++ tmmbrRate entry.tmmbr entry.packetOh))
    (hend : blockEnd = i + 8 * entries.length) (hsize : b.size < blockEnd + 4)
    (hfuel : entries.length + 4 ≤ fuel) :
    ∃ items t, s.parseAll b fuel = some (items, t) ∧
      List.Forall₂ (ReadsEntry fun entry rate =>
        CloseEntry entry rate ↔ entry.tmmbr.toNat ≤ maxKbps) entries items := by
  induction entries generalizing s i fuel with
  | nil =>
    obtain ⟨fuel, rfl⟩ : ∃ k, fuel = k + 4 :=
      ⟨fuel - 4, by rw [List.length_nil] at hfuel; omega⟩
    rw [List.length_nil, Nat.mul_zero, Nat.add_zero] at hend
    have hleave := Parser.parseItem_tmmbn (b := b) hs.cleared
    rw [if_pos (by omega)] at hleave
    obtain ⟨t, ht, htype⟩ := Parser.iterate_end fuel hs nofun hleave hsize
    exact ⟨[], t, Parser.parseAll_nil (fuel + 3) ht htype, .nil⟩
  | cons entry entries ih =>
    rw [List.length_cons] at hend hfuel
    obtain ⟨fuel, rfl⟩ : ∃ k, fuel = k + 2 := ⟨fuel - 2, by omega⟩
    rw [List.flatMap_cons, List.append_assoc, Buffer.holds_append,
      Buffer.holds_append, Buffer.length_assignUWord32] at hholds
    obtain ⟨hssrc, hvalue, hrest⟩ := hholds
    obtain ⟨hrate, hoh⟩ := hok entry List.mem_cons_self
    obtain ⟨hoverhead, hclose⟩ := tmmbrRate_close hrate hoh hvalue
    have hitem := Parser.parseItem_tmmbn (b := b) hs.cleared
    rw [if_neg (by omega), hssrc.u32, hoverhead] at hitem
    have ht := Parser.iterate_item fuel hs nofun hitem
    generalize hv : ({ s.cleared.read 8 with
        packetType := .kRtcpRtpfbTmmbnItemCode
        packet := .tmmbnItem entry.ssrc
          (Parser.bitRateAndOverhead b (i + 4)).1
          entry.packetOh } : Parser) = t at ht
    have hat : t.At .rtpfbTmmbnItem (i + 8) blockEnd := by
      rw [← hv]
      exact ⟨hs.valid, hs.state, congrArg (· + 8) hs.ptr, hs.blockEnd⟩
    obtain ⟨items, u, hu, hitems⟩ := ih
      (fun entry hentry => hok entry (List.mem_cons_of_mem _ hentry)) hat
      hrest (by omega) (show entries.length + 4 ≤ fuel + 1 by omega)
    have hall := Parser.parseAll_cons (fuel + 1) ht (by rw [← hv]; nofun) hu
    rw [← hv] at hall
    exact ⟨_, u, hall, .cons ⟨_, rfl, hclose⟩ hitems⟩

theorem forall₂_closeEntry_iff {entries : List TmmbnEntry}
    {items : List (PacketType × Packet)}
    (h : List.Forall₂ (ReadsEntry fun entry rate =>
      CloseEntry entry rate ↔ entry.tmmbr.toNat ≤ maxKbps) entries items) :
    List.Forall₂ (ReadsEntry CloseEntry) entries items ↔
      ∀ entry ∈ entries, entry.tmmbr.toNat ≤ maxKbps := by
  induction h with
  | nil => simp
  | @cons entry item entries items hitem _ ih =>
    obtain ⟨rate, rfl, hclose⟩ := hitem
    rw [List.forall₂_cons, ih, List.forall_mem_cons, ← hclose]
    refine and_congr_left' ?_
    constructor
    · rintro ⟨rate', heq, hclose'⟩
      rw [Prod.mk.injEq, Packet.tmmbnItem.injEq] at heq
      rwa [heq.2.2.1]
    · exact fun hclose' => ⟨rate, rfl, hclose'⟩

theorem length_flatMap_entries (entries : List TmmbnEntry) :
    (entries.flatMap fun entry =>
      assignUWord32 entry.ssrc ++
        tmmbrRate entry.tmmbr entry.packetOh).length = 8 * entries.length := by
  induction entries with
  | nil => rfl
  | cons entry entries ih =>
    have hrate : (tmmbrRate entry.tmmbr entry.packetOh).length = 4 := rfl
    rw [List.flatMap_cons, List.length_append, ih, List.length_append,
      Buffer.length_assignUWord32, hrate, List.length_cons]
    omega

theorem parseAll_tmmbn {boundingSet : List TmmbnEntry}
    (h : sender.buildTMMBN pos boundingSet = some bytes)
    (hok : ∀ entry ∈ boundingSet, entry.Ok) (hreads : ReadsAt b s pos bytes)
    (hfuel : boundingSet.length + 6 ≤ fuel) :
    ∃ items t, s.parseAll b fuel =
        some ((.kRtcpRtpfbTmmbnCode, .tmmbn sender.ssrc 0) :: items, t) ∧
      List.Forall₂ (ReadsEntry fun entry rate =>
        CloseEntry entry rate ↔ entry.tmmbr.toNat ≤ maxKbps)
        (written boundingSet) items := by
  have hle : (written boundingSet).length ≤ boundingSet.length :=
    List.length_filter_le _ _
  rw [buildTMMBN] at h
  split_ifs at h with hroom
  rw [Option.some_inj] at h
  rw [IP_PACKET_SIZE] at hroom
  have hbytes : bytes =
      feedbackHeader 4 205 (UInt16.ofNat (2 + 2 * (written boundingSet).length)) ++
        (assignUWord32 sender.ssrc ++ assignUWord32 0) ++
        (written boundingSet).flatMap fun entry =>
          assignUWord32 entry.ssrc ++
            tmmbrRate entry.tmmbr entry.packetOh := h.symm
  have hlength : bytes.length = 12 + 8 * (written boundingSet).length := by
    rw [hbytes, List.length_append, length_flatMap_entries]
    rfl
  have hword : (UInt16.ofNat (2 + 2 * (written boundingSet).length)).toNat =
      2 + 2 * (written boundingSet).length := by
    rw [UInt16.toNat_ofNat']
    omega
  obtain ⟨⟨blockEnd, hs⟩, hholds, hsize⟩ := hreads
  rw [hbytes, Buffer.holds_append] at hholds
  obtain ⟨hstart, hentries⟩ := hholds
  obtain ⟨fuel, rfl⟩ : ∃ k, fuel = k + 3 := ⟨fuel - 3, by omega⟩
  obtain ⟨t, ht, hat, htype, hpacket⟩ :=
    Parser.iterate_feedback fuel Parser.starts_tmmbn (.inl rfl) (by decide)
      ⟨by omega, by omega⟩ hs hstart (by omega)
  rw [hword] at hat
  obtain ⟨items, u, hu, hitems⟩ := parseAll_tmmbnItems (written boundingSet)
    (fun entry hentry => hok entry (List.mem_filter.mp hentry).1) hat hentries
    (by omega) (by omega)
    (show (written boundingSet).length + 4 ≤ fuel + 2 by omega)
  have hall := Parser.parseAll_cons (fuel + 2) ht (by rw [htype]; nofun) hu
  rw [htype, hpacket] at hall
  exact ⟨items, u, hall, hitems⟩

/-! ## RPSI -/

/-- The numbers of an RPSI with `n` bytes of a picture id. -/
theorem rpsi_numbers : ∀ n < 10, 0 < n →
    4 * ((rpsiSize n).toNat + 1) = 14 + (n + paddingBytes n) ∧
      2 ≤ n + paddingBytes n ∧ n + paddingBytes n ≤ 30 ∧
      (UInt16.ofNat (n + paddingBytes n) * 8 -
        (UInt8.ofNat (paddingBytes n * 8)).toUInt16) = UInt16.ofNat (8 * n) ∧
      UInt16.ofNat (8 * n) % 8 = 0 ∧
      numberOfBytes (UInt16.ofNat (8 * n)) = n ∧
      2 ≤ (rpsiSize n).toNat ∧ (rpsiSize n).toNat ≤ 5 := by
  decide

theorem exists_buildRPSI {pictureId : UInt64} (payloadType : UInt8)
    (hid : pictureId.toNat < 2 ^ 63) (hpos : pos + 24 < IP_PACKET_SIZE)
    (hfuel : 9 ≤ fuel) :
    ∃ bytes, sender.buildRPSI fuel pos pictureId payloadType = some bytes := by
  obtain ⟨n, -, -, -, hloop⟩ := loop_countBits hid fuel (k := 1) (by decide)
    (by decide) (by omega)
  rw [buildRPSI, if_neg (Nat.not_le.mpr hpos),
    show ((7, 1) : UInt64 × ℕ) = (UInt64.ofNat (7 * 1), 1) from rfl, hloop]
  exact ⟨_, rfl⟩

theorem buildRPSI_eq_some {pictureId : UInt64} {payloadType : UInt8}
    (hid : pictureId.toNat < 2 ^ 63)
    (h : sender.buildRPSI fuel pos pictureId payloadType = some bytes) :
    ∃ n, 0 < n ∧ n ≤ 9 ∧ pictureId.toNat < 2 ^ (7 * n) ∧
      bytes = [0x83, 206, 0, rpsiSize n] ++
        (assignUWord32 sender.ssrc ++ assignUWord32 sender.remoteSsrc) ++
        ([UInt8.ofNat (paddingBytes n * 8), payloadType] ++
          (nativeBitString pictureId n ++
            List.replicate (paddingBytes n) 0)) := by
  obtain ⟨n, hpos, hle, hfits, hloop⟩ := loop_countBits hid (fuel + 9)
    (k := 1) (by decide) (by decide) (by omega)
  rw [buildRPSI] at h
  split_ifs at h
  obtain ⟨⟨bits, m⟩, hm, hbytes⟩ := Option.map_eq_some_iff.mp h
  have heq := (loop_mono (Nat.le_add_right fuel 9) hm).symm.trans hloop
  rw [Option.some_inj, Prod.mk.injEq] at heq
  refine ⟨n, hpos, hle, hfits, ?_⟩
  rw [← hbytes]
  dsimp only
  rw [heq.2, feedbackSsrcs]
  simp only [List.append_assoc]

/-- The item is accepted, and the picture id is put together again. -/
def RpsiReadBack (pictureId : UInt64) (payloadType : UInt8) (b : Buffer)
    (s : Parser) (fuel : ℕ) : Prop :=
  ∀ residue info, ∃ t r, s.iterate b fuel = some t ∧
    handleRPSI residue b fuel t info = some r ∧
    (∃ u, Parser.parseRPSIItem b u = (r.parser, true)) ∧
    r.parser.packet.toRpsi.payloadType = payloadType ∧
    r.info.rpsiPictureId = pictureId

theorem rpsi_readBack {pictureId : UInt64} {payloadType : UInt8} {n : ℕ}
    (hid : pictureId.toNat < 2 ^ 63)
    (h : sender.buildRPSI n pos pictureId payloadType = some bytes)
    (hreads : ReadsAt b s pos bytes) (fuel : ℕ) :
    RpsiReadBack pictureId payloadType b s (fuel + 2) := by
  intro residue info
  obtain ⟨n, hpos, hle, hfits, hbytes⟩ := buildRPSI_eq_some hid h
  obtain ⟨hsize', hmin, hmax, hbits, height, hcount, hwords, hfive⟩ :=
    rpsi_numbers n (by omega) hpos
  have hlength : bytes.length = 14 + (n + paddingBytes n) := by
    rw [hbytes]
    simp only [List.length_append, List.length_cons, List.length_nil,
      Buffer.length_assignUWord32, length_nativeBitString hpos,
      List.length_replicate]
    omega
  have hheader : [0x83, 206, 0, rpsiSize n] =
      feedbackHeader 3 206 (UInt16.ofNat (rpsiSize n).toNat) := by
    have hbyte := byte_header 3 206 (n := (rpsiSize n).toNat) (by omega)
    rw [UInt8.ofNat_toNat] at hbyte
    exact hbyte
  have hword : (UInt16.ofNat (rpsiSize n).toNat).toNat = (rpsiSize n).toNat := by
    rw [UInt16.toNat_ofNat']
    omega
  obtain ⟨⟨blockEnd, hs⟩, hholds, hsize⟩ := hreads
  rw [hbytes, hheader, Buffer.holds_append] at hholds
  obtain ⟨hstart, hrest⟩ := hholds
  obtain ⟨hpadding, hpayload, hstring⟩ :
      b.data (pos + 12) = UInt8.ofNat (paddingBytes n * 8) ∧
        b.data (pos + 13) = payloadType ∧
        b.Holds (pos + 14) (nativeBitString pictureId n ++
          List.replicate (paddingBytes n) 0) :=
    hrest
  obtain ⟨t, ht, hat, htype, hpacket⟩ :=
    Parser.iterate_feedback fuel Parser.starts_rpsi (.inr rfl)
      (by decide) ⟨by omega, by omega⟩ hs hstart (by omega)
  rw [hword] at hat
  obtain ⟨u, hu, -, hparse, hutype, hupacket⟩ :=
    Parser.iterate_rpsiItem (b := b) (fuel + 1) hat (by omega) ⟨hmin, hmax⟩
  have hstring' := hstring.bytes
  rw [List.length_append, length_nativeBitString hpos,
    List.length_replicate] at hstring'
  rw [hpadding, hpayload, hbits, hpacket, hstring'] at hupacket
  have hrpsi : u.packet.toRpsi = ⟨sender.ssrc, sender.remoteSsrc, payloadType,
      UInt16.ofNat (8 * n), nativeBitString pictureId n ++
        List.replicate (paddingBytes n) 0⟩ := by
    rw [hupacket]
    rfl
  have hfilled : u.packet.toRpsi.filled = n + paddingBytes n := by
    rw [hrpsi, Rpsi.filled, List.length_append, length_nativeBitString hpos,
      List.length_replicate]
  have hvalid : u.packet.toRpsi.validBits residue = UInt16.ofNat (8 * n) := by
    rw [Rpsi.validBits, if_neg (by omega), hrpsi]
  have hid' : rpsiPictureId (u.packet.toRpsi.byteAt residue) n = pictureId := by
    apply UInt64.toNat_inj.mp
    apply rpsiPictureId_groups hpos hid hfits
    intro i hi
    rw [Rpsi.byteAt, if_pos ⟨by omega, by omega⟩, Int.toNat_natCast, hrpsi]
    dsimp only
    rw [List.getD_append _ _ _ _ (by rwa [length_nativeBitString hpos])]
    exact nativeBitString_group hle hi
  have hhandle : handleRPSI residue b (fuel + 2) t info = some
      ⟨u, { info with
          rtcpPacketTypeFlags := info.rtcpPacketTypeFlags ||| kRtcpRpsi
          rpsiPictureId := pictureId }, rpsiReads n⟩ := by
    rw [handleRPSI, hu, Option.bind_some, if_pos hutype]
    dsimp only
    rw [hvalid, hcount, hid', if_neg (by rw [height]; decide)]
  refine ⟨t, _, ht, hhandle, ⟨_, hparse⟩, ?_, rfl⟩
  rw [hrpsi]

/-! ## All four blocks -/

theorem rembReadBack_iff (h : sender.buildREMB pos = some bytes)
    (hn : sender.rembSsrc.length < 2 ^ 8) (hreads : ReadsAt b s pos bytes)
    (hfuel : 8 ≤ fuel) :
    RembReadBack sender b s pos fuel bytes ↔
      sender.rembSsrc.length ≤ 251 ∧
        sender.rembBitrate.toNat ≤ maxRate 18 := by
  obtain ⟨fuel, rfl⟩ : ∃ k, fuel = k + 8 := ⟨fuel - 8, by omega⟩
  rw [RembReadBack, announcedLength_remb h hn hreads.holds]
  refine and_congr_right fun hle => ?_
  obtain ⟨rate, t, hall, hclose⟩ := parseAll_remb h hle hreads fuel
  rw [← hclose]
  constructor
  · rintro ⟨rate', t', hall', hclose'⟩
    have heq := hall.symm.trans hall'
    simp only [Option.some_inj, Prod.mk.injEq, List.cons.injEq,
      Packet.rembItem.injEq, true_and, and_true] at heq
    rwa [heq.1]
  · exact fun hclose' => ⟨rate, t, hall, hclose'⟩

theorem tmmbrReadBack_iff (h : sender.writeTMMBR pos = some bytes)
    (hsend : sender.tmmbrSend ≠ 0)
    (hrate : sender.tmmbrSend.toNat * 1000 < 2 ^ 32)
    (hoh : sender.packetOhSend.toNat < 2 ^ 9) (hreads : ReadsAt b s pos bytes)
    (hfuel : 6 ≤ fuel) :
    TmmbrReadBack sender b s fuel ↔ sender.tmmbrSend.toNat ≤ maxKbps := by
  obtain ⟨fuel, rfl⟩ : ∃ k, fuel = k + 6 := ⟨fuel - 6, by omega⟩
  obtain ⟨rate, t, hall, hclose⟩ := parseAll_tmmbr h hsend hrate hoh hreads fuel
  rw [← hclose]
  constructor
  · rintro ⟨rate', t', hall', hclose'⟩
    have heq := hall.symm.trans hall'
    simp only [Option.some_inj, Prod.mk.injEq, List.cons.injEq,
      Packet.tmmbrItem.injEq, true_and, and_true] at heq
    rwa [heq.1]
  · exact fun hclose' => ⟨rate, t, hall, hclose'⟩

theorem tmmbnReadBack_iff {boundingSet : List TmmbnEntry}
    (h : sender.buildTMMBN pos boundingSet = some bytes)
    (hok : ∀ entry ∈ boundingSet, entry.Ok) (hreads : ReadsAt b s pos bytes)
    (hfuel : boundingSet.length + 6 ≤ fuel) :
    TmmbnReadBack sender boundingSet b s fuel ↔
      ∀ entry ∈ written boundingSet, entry.tmmbr.toNat ≤ maxKbps := by
  obtain ⟨items, t, hall, hitems⟩ := parseAll_tmmbn h hok hreads hfuel
  rw [← forall₂_closeEntry_iff hitems]
  constructor
  · rintro ⟨items', t', hall', hclose'⟩
    have heq := hall.symm.trans hall'
    rw [Option.some_inj, Prod.mk.injEq, List.cons.injEq] at heq
    rwa [heq.1.2]
  · exact fun hclose' => ⟨items, t, hall, hclose'⟩

/-- Rates are read back close to what was sent exactly up to the greatest rate
whose mantissa and exponent fit in 32 bits; the length of an REMB fits in its
byte for at most 251 SSRCs.  A picture id below `2 ^ 63` is read back. -/
theorem feedback_readBack (sender : RTCPSender) (pos : ℕ) :
    (∀ bytes b s fuel, sender.buildREMB pos = some bytes →
      sender.rembSsrc.length < 2 ^ 8 → ReadsAt b s pos bytes → 8 ≤ fuel →
      (RembReadBack sender b s pos fuel bytes ↔
        sender.rembSsrc.length ≤ 251 ∧
          sender.rembBitrate.toNat ≤ maxRate 18)) ∧
    (∀ bytes b s fuel, sender.writeTMMBR pos = some bytes →
      sender.tmmbrSend ≠ 0 → sender.tmmbrSend.toNat * 1000 < 2 ^ 32 →
      sender.packetOhSend.toNat < 2 ^ 9 → ReadsAt b s pos bytes → 6 ≤ fuel →
      (TmmbrReadBack sender b s fuel ↔ sender.tmmbrSend.toNat ≤ maxKbps)) ∧
    (∀ boundingSet bytes b s fuel,
      sender.buildTMMBN pos boundingSet = some bytes →
      (∀ entry ∈ boundingSet, entry.Ok) → ReadsAt b s pos bytes →
      boundingSet.length + 6 ≤ fuel →
      (TmmbnReadBack sender boundingSet b s fuel ↔
        ∀ entry ∈ written boundingSet, entry.tmmbr.toNat ≤ maxKbps)) ∧
    ∀ pictureId payloadType n, pictureId.toNat < 2 ^ 63 → 9 ≤ n →
      pos + 24 < IP_PACKET_SIZE →
      ∃ bytes, sender.buildRPSI n pos pictureId payloadType = some bytes ∧
        ∀ b s fuel, ReadsAt b s pos bytes → 2 ≤ fuel →
          RpsiReadBack pictureId payloadType b s fuel := by
  refine ⟨fun _ _ _ _ h hn hreads hfuel => rembReadBack_iff h hn hreads hfuel,
    fun _ _ _ _ h hsend hrate hoh hreads hfuel =>
      tmmbrReadBack_iff h hsend hrate hoh hreads hfuel,
    fun _ _ _ _ _ h hok hreads hfuel =>
      tmmbnReadBack_iff h hok hreads hfuel, ?_⟩
  intro pictureId payloadType n hid hn hpos
  obtain ⟨bytes, hbytes⟩ := exists_buildRPSI payloadType hid hpos hn
  refine ⟨bytes, hbytes, ?_⟩
  intro b s fuel hreads hfuel
  obtain ⟨fuel, rfl⟩ : ∃ k, fuel = k + 2 := ⟨fuel - 2, by omega⟩
  exact rpsi_readBack hid hbytes hreads fuel

def rembBlock (rate : List UInt8) : List UInt8 :=
  [0x8f, 206, 0, 5, 0, 0, 0, 1, 0, 0, 0, 0, 0x52, 0x45, 0x4d, 0x42, 1] ++
    (rate ++ [0, 0, 0, 7])

theorem readsAt_rembBlock (rate : List UInt8)
    (h : (Buffer.ofList (rembBlock rate)).Holds 0 (rembBlock rate))
    (hvalid : (Parser.new (.ofList (rembBlock rate)) true).validPacket = true) :
    ReadsAt (.ofList (rembBlock rate))
      (Parser.new (.ofList (rembBlock rate)) true) 0 (rembBlock rate) :=
  ⟨⟨0, hvalid, rfl, rfl, rfl⟩, h, (Nat.zero_add _).symm⟩

theorem feedback_readBack_remb :
    RembReadBack ⟨1, 2, [7], 300000, 0, 0⟩
      (.ofList (rembBlock [6, 0x49, 0xf0]))
      (Parser.new (.ofList (rembBlock [6, 0x49, 0xf0])) true) 0 8
      (rembBlock [6, 0x49, 0xf0]) :=
  ((feedback_readBack ⟨1, 2, [7], 300000, 0, 0⟩ 0).1 _ _ _ 8
    (show _ = some (rembBlock [6, 0x49, 0xf0]) by decide) (by decide)
    (readsAt_rembBlock _ (by decide) (by decide)) (by decide)).mpr (by decide)

/-- No exponent is found for the greatest bitrate, so that its low bits are
sent. -/
theorem not_forall_rembReadBack :
    ¬∀ (sender : RTCPSender) (pos : ℕ) bytes b s,
      sender.buildREMB pos = some bytes → ReadsAt b s pos bytes →
      RembReadBack sender b s pos 8 bytes := by
  intro h
  obtain ⟨-, rate, t, hall, -, hclose⟩ := h ⟨1, 2, [7], 0xffffffff, 0, 0⟩ 0
    (rembBlock [3, 0xff, 0xff]) _ _ (by decide)
    (readsAt_rembBlock _ (by decide) (by decide))
  have hitems : ((Parser.new (.ofList (rembBlock [3, 0xff, 0xff])) true).parseAll
      (.ofList (rembBlock [3, 0xff, 0xff])) 8).map (·.1) =
        some [(.kRtcpPsfbAppCode, .psfbApp 1 0),
          (.kRtcpPsfbRembCode, .psfbApp 1 0),
          (.kRtcpPsfbRembItemCode, .rembItem 262143 1 [7])] := by
    decide
  rw [hall, Option.map_some, Option.some_inj] at hitems
  simp only [List.cons.injEq, Prod.mk.injEq, Packet.rembItem.injEq, true_and,
    and_true] at hitems
  rw [hitems.1] at hclose
  exact absurd hclose (by decide)

end RTCPSender

end WebrtcWinXp.Rtcp
