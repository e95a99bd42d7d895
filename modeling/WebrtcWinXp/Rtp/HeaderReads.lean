import WebrtcWinXp.Rtp.HeaderParser
import WebrtcWinXp.Support.Traced

/-!
# What parsing an RTP header reads

`RtpHeaderParser::Parse` with its reads, those of the loop over the extension
elements apart from the others.
-/

namespace WebrtcWinXp.Rtp

open Support

/-- The bytes that are read of a registered extension. -/
def RTPExtensionType.dataLength : RTPExtensionType → ℕ
  | .kRtpExtensionTransmissionTimeOffset => 3
  | .kRtpExtensionAudioLevel => 1
  | .kRtpExtensionAbsoluteSendTime => 3

namespace RtpHeaderParser

/-- A range that `Parse` reads itself, or one that the loop over the elements
reads. -/
inductive Read where
  | header (a : Access)
  | extension (a : Access)

section Reads

variable (b : Buffer)

def readZeroBytes : ℕ → ℕ → Traced Read ℕ
  | 0, _ => pure 0
  | n + 1, ptr => do
      let byte ← Traced.touch (.extension ⟨ptr, 1⟩) (b.byte ptr)
      if byte ≠ 0 then return 0
      let count ← readZeroBytes n (ptr + 1)
      return count + 1

def readPaddingBytes (stop ptr : ℕ) : Traced Read ℕ := do
  let count ← readZeroBytes b (stop - ptr) ptr
  return count % 2 ^ 8

/-- The data of a registered extension, when its length is the one expected. -/
def readData (ptr len : ℕ) (ext : RTPHeaderExtension)
    (type : RTPExtensionType) : Traced Read (Option RTPHeaderExtension) :=
  if len + 1 ≠ type.dataLength then pure none
  else
    .touch (.extension ⟨ptr, type.dataLength⟩) (readElement b ptr len ext type)

/-- The bytes that are skipped: the data of an element, and the zero bytes. -/
def readBehind (stop ptr len : ℕ) (ext : RTPHeaderExtension) :
    Traced Read (Option (ℕ × RTPHeaderExtension)) := do
  let padding ← readPaddingBytes b stop (ptr + (len + 1))
  return some (ptr + (len + 1) + padding, ext)

def readRound (map : RtpHeaderExtensionMap) (stop : ℕ)
    (s : ℕ × RTPHeaderExtension) :
    Traced Read (Option (ℕ × RTPHeaderExtension)) := do
  if stop ≤ s.1 then return none
  let first ← Traced.touch (.extension ⟨s.1, 1⟩) (b.byte s.1)
  let id := ((first &&& 0xf0) >>> 4).toNat
  let len := (first &&& 0x0f).toNat
  let ptr := s.1 + 1
  if id = 15 then return none
  match map.getType id with
  | none => readBehind b stop ptr len s.2
  | some type =>
    match ← readData b ptr len s.2 type with
    | none => return none
    | some ext => readBehind b stop ptr len ext

def readOneByteExtensionHeader (map : Option RtpHeaderExtensionMap)
    (stop ptr : ℕ) (ext : RTPHeaderExtension) :
    Traced Read RTPHeaderExtension :=
  match map with
  | none => pure ext
  | some map => do
      let last ← .finish (readRound b map stop) (fun s => stop - s.1) (ptr, ext)
      return last.2

/-- The elements of an extension with this profile. -/
def readProfile (map : Option RtpHeaderExtensionMap) (profile stop ptr : ℕ)
    (ext : RTPHeaderExtension) : Traced Read RTPHeaderExtension :=
  if profile = kRtpOneByteHeaderExtensionId then
    readOneByteExtensionHeader b map stop ptr ext
  else pure ext

def readExtension (map : Option RtpHeaderExtensionMap) (header : RTPHeader)
    (ptr : ℕ) : Traced Read (Bool × RTPHeader) := do
  if b.size - ptr < 4 then return (false, header)
  let header := { header with headerLength := header.headerLength + 4 }
  let profile ← Traced.touch (.header ⟨ptr, 2⟩) (ofBE (b.read ⟨ptr, 2⟩))
  let octs ← Traced.touch (.header ⟨ptr + 2, 2⟩) (xLen b ptr)
  if b.size - ptr < 4 + octs.toNat then return (false, header)
  let extension ← readProfile b map profile (ptr + 4 + octs.toNat) (ptr + 4)
    header.extension
  return (true,
    { header with
      headerLength := header.headerLength + octs
      extension := extension })

/-- The last byte is the padding length when the P bit is set. -/
def paddingBit : Bool := b.byte 0 &&& 0x20 != 0

/-- What is read behind the first twelve bytes in front of an extension. -/
def readFixedHeader (header : RTPHeader) : Traced Read RTPHeader := do
  if paddingBit b then
    Traced.touch (.header ⟨b.size - 1, 1⟩) ()
  Traced.touch (.header ⟨12, csrcOcts b⟩) ()
  return fixedHeader b header

/-- `Parse` reads all of the first twelve bytes before it looks at them. -/
def readParse (map : Option RtpHeaderExtensionMap) (header : RTPHeader) :
    Traced Read (Bool × RTPHeader) := do
  if b.size < kRtpMinParseLength then return (false, header)
  Traced.touch (.header ⟨0, 12⟩) ()
  if b.byte 0 >>> 6 ≠ kRtpExpectedVersion then return (false, header)
  if 12 + csrcOcts b > b.size then return (false, header)
  let header ← readFixedHeader b header
  if extensionBit b then readExtension b map header (12 + csrcOcts b)
  else return (true, header)

end Reads

/-! ## The same header -/

section Values

variable {b : Buffer}

theorem value_readZeroBytes (n ptr : ℕ) :
    (readZeroBytes b n ptr).value = zeroBytes b n ptr := by
  induction n generalizing ptr with
  | zero => rfl
  | succ n ih =>
    rw [readZeroBytes, zeroBytes, Traced.value_bind, Traced.value_touch]
    split
    · rfl
    · rw [Traced.value_bind, ih]
      rfl

theorem value_readData (ptr len : ℕ) (ext : RTPHeaderExtension)
    (type : RTPExtensionType) :
    (readData b ptr len ext type).value = readElement b ptr len ext type := by
  unfold readData
  split
  next hlen =>
    cases type with
    | kRtpExtensionTransmissionTimeOffset =>
      exact (if_pos fun h => hlen (by rw [h]; rfl)).symm
    | kRtpExtensionAudioLevel =>
      exact (if_pos fun h => hlen (by rw [h]; rfl)).symm
    | kRtpExtensionAbsoluteSendTime =>
      exact (if_pos fun h => hlen (by rw [h]; rfl)).symm
  · rfl

theorem value_readBehind (stop ptr len : ℕ) (ext : RTPHeaderExtension) :
    (readBehind b stop ptr len ext).value =
      some (ptr + (len + 1) + parsePaddingBytes b stop (ptr + (len + 1)),
        ext) := by
  unfold readBehind readPaddingBytes parsePaddingBytes
  rw [Traced.value_bind, Traced.value_bind, value_readZeroBytes]
  rfl

theorem value_readRound (map : RtpHeaderExtensionMap) (stop : ℕ)
    (s : ℕ × RTPHeaderExtension) :
    (readRound b map stop s).value = parseElement b map stop s := by
  unfold readRound parseElement
  split
  · rfl
  rw [Traced.value_bind, Traced.value_touch]
  dsimp only
  split
  · rfl
  cases map.getType ((b.byte s.1 &&& 0xf0) >>> 4).toNat with
  | none => exact value_readBehind _ _ _ _
  | some type =>
    dsimp only
    rw [Traced.value_bind, value_readData]
    cases readElement b (s.1 + 1) (b.byte s.1 &&& 0x0f).toNat s.2 type with
    | none => rfl
    | some ext => exact value_readBehind _ _ _ _

theorem lowers_readRound (map : RtpHeaderExtensionMap) (stop : ℕ) :
    Lowers (fun s => (readRound b map stop s).value) fun s => stop - s.1 := by
  rw [funext (value_readRound map stop)]
  exact lowers_parseElement b map stop

theorem value_readOneByteExtensionHeader
    (map : Option RtpHeaderExtensionMap) (stop ptr : ℕ)
    (ext : RTPHeaderExtension) :
    (readOneByteExtensionHeader b map stop ptr ext).value =
      parseOneByteExtensionHeader b map stop ptr ext := by
  cases map with
  | none => rfl
  | some map =>
    unfold readOneByteExtensionHeader parseOneByteExtensionHeader
    rw [Traced.value_bind, Traced.value_finish,
      funext (value_readRound map stop)]
    rfl

theorem value_readProfile (map : Option RtpHeaderExtensionMap)
    (profile stop ptr : ℕ) (ext : RTPHeaderExtension) :
    (readProfile b map profile stop ptr ext).value =
      if profile = kRtpOneByteHeaderExtensionId then
        parseOneByteExtensionHeader b map stop ptr ext
      else ext := by
  unfold readProfile
  split
  · exact value_readOneByteExtensionHeader map stop ptr ext
  · rfl

theorem value_readExtension (map : Option RtpHeaderExtensionMap)
    (header : RTPHeader) (ptr : ℕ) :
    (readExtension b map header ptr).value =
      parseExtension b map header ptr := by
  unfold readExtension parseExtension
  by_cases hword : b.size - ptr < 4
  · rw [if_pos hword, if_pos hword]
    rfl
  rw [if_neg hword, if_neg hword, Traced.value_bind, Traced.value_touch,
    Traced.value_bind, Traced.value_touch]
  by_cases hocts : b.size - ptr < 4 + (xLen b ptr).toNat
  · rw [if_pos hocts, if_pos hocts]
    rfl
  rw [if_neg hocts, if_neg hocts, Traced.value_bind, value_readProfile]
  rfl

theorem value_readFixedHeader (header : RTPHeader) :
    (readFixedHeader b header).value = fixedHeader b header := by
  unfold readFixedHeader
  split <;> rfl

/-- The header that is read is the one of `parse`. -/
theorem value_readParse (map : Option RtpHeaderExtensionMap)
    (header : RTPHeader) :
    (readParse b map header).value = parse b map header := by
  unfold readParse parse
  by_cases hsize : b.size < kRtpMinParseLength
  · rw [if_pos hsize, if_pos hsize]
    rfl
  rw [if_neg hsize, if_neg hsize, Traced.value_bind]
  by_cases hversion : b.byte 0 >>> 6 ≠ kRtpExpectedVersion
  · rw [if_pos hversion, if_pos hversion]
    rfl
  rw [if_neg hversion, if_neg hversion]
  by_cases hcsrcs : 12 + csrcOcts b > b.size
  · rw [if_pos hcsrcs, if_pos hcsrcs]
    rfl
  rw [if_neg hcsrcs, if_neg hcsrcs, Traced.value_bind, value_readFixedHeader]
  by_cases hbit : extensionBit b
  · rw [if_pos hbit, if_pos hbit]
    exact value_readExtension map _ _
  · rw [if_neg hbit, if_neg hbit]
    rfl

end Values

/-! ## The elements of an extension -/

section Elements

variable (b : Buffer) (map : RtpHeaderExtensionMap)

def elementId (p : ℕ) : ℕ := ((b.byte p &&& 0xf0) >>> 4).toNat

/-- The announced data of the element at a position, in bytes. -/
def elementLength (p : ℕ) : ℕ := (b.byte p &&& 0x0f).toNat + 1

def elementEnd (p : ℕ) : ℕ := p + 1 + elementLength b p

/-- Where the loop looks for an element behind this one. -/
def nextElement (stop p : ℕ) : ℕ :=
  elementEnd b p + parsePaddingBytes b stop (elementEnd b p)

def Skipped (p : ℕ) : Prop :=
  elementId b p ≠ 15 ∧
    ∀ type, map.getType (elementId b p) = some type →
      elementLength b p = type.dataLength

/-- A position at which the loop arrives, from `start` to `stop`. -/
inductive ElementAt (stop start : ℕ) : ℕ → Prop where
  | first : ElementAt stop start start
  | next {p : ℕ} (h : ElementAt stop start p) (hp : p < stop)
      (hskip : Skipped b map p) :
      ElementAt stop start (nextElement b stop p)

/-- A registered extension of the expected length at this position ends inside
the block. -/
def ElementFits (stop p : ℕ) : Prop :=
  p < stop → ∀ type, map.getType (elementId b p) = some type →
    elementLength b p = type.dataLength → elementEnd b p ≤ stop

/-- The registered extensions that the loop reaches do. -/
def ElementsFit (stop start : ℕ) : Prop :=
  ∀ p, ElementAt b map stop start p → ElementFits b map stop p

variable {b map}

theorem getType_ne_fifteen {id : ℕ} {type : RTPExtensionType}
    (h : map.getType id = some type) : id ≠ 15 := by
  obtain ⟨e, hfind, -⟩ := Option.map_eq_some_iff.mp h
  have hid : e.1 = id := by simpa using List.find?_some hfind
  have hrange := (map.inRange e (List.mem_of_find?_eq_some hfind)).2
  omega

theorem parseElement_eq_ite (stop p : ℕ) (ext : RTPHeaderExtension) :
    parseElement b map stop (p, ext) =
      if stop ≤ p then none
      else if elementId b p = 15 then none
      else
        match map.getType (elementId b p) with
        | none => some (nextElement b stop p, ext)
        | some type =>
          (readElement b (p + 1) (b.byte p &&& 0x0f).toNat ext type).map
            fun ext => (nextElement b stop p, ext) :=
  rfl

theorem readElement_isSome (b : Buffer) (ptr len : ℕ)
    (ext : RTPHeaderExtension) (type : RTPExtensionType) :
    (readElement b ptr len ext type).isSome ↔ len + 1 = type.dataLength := by
  cases type with
  | kRtpExtensionTransmissionTimeOffset =>
    simp [readElement, RTPExtensionType.dataLength]
  | kRtpExtensionAudioLevel =>
    simp [readElement, RTPExtensionType.dataLength]
  | kRtpExtensionAbsoluteSendTime =>
    simp [readElement, RTPExtensionType.dataLength]

variable {stop p : ℕ} {ext : RTPHeaderExtension}

theorem exists_round_iff {q : ℕ} :
    (∃ ext', Traced.Round (readRound b map stop) (p, ext) (q, ext')) ↔
      p < stop ∧ Skipped b map p ∧ q = nextElement b stop p := by
  have hnone : ¬∃ ext', (none : Option (ℕ × RTPHeaderExtension)) =
      some (q, ext') := fun ⟨_, h⟩ => nomatch h
  have hsome : ∀ ext' : RTPHeaderExtension,
      (∃ e, some (nextElement b stop p, ext') = some (q, e)) ↔
        q = nextElement b stop p :=
    fun ext' => ⟨fun ⟨_, h⟩ => (congrArg Prod.fst (Option.some_inj.mp h)).symm,
      fun h => ⟨ext', by rw [h]⟩⟩
  unfold Traced.Round
  rw [value_readRound, parseElement_eq_ite]
  by_cases hstop : stop ≤ p
  · rw [if_pos hstop]
    exact ⟨fun h => absurd h hnone, fun h => absurd h.1 (by omega)⟩
  rw [if_neg hstop, and_iff_right (Nat.lt_of_not_le hstop)]
  by_cases hid : elementId b p = 15
  · rw [if_pos hid]
    exact ⟨fun h => absurd h hnone, fun h => absurd hid h.1.1⟩
  rw [if_neg hid]
  cases htype : map.getType (elementId b p) with
  | none =>
    have hskip : Skipped b map p := ⟨hid, fun _ h => by
      rw [htype] at h
      cases h⟩
    rw [and_iff_right hskip]
    exact hsome ext
  | some type =>
    have hskip : Skipped b map p ↔ elementLength b p = type.dataLength := by
      refine ⟨fun h => h.2 type htype, fun h => ⟨hid, fun t ht => ?_⟩⟩
      rw [htype] at ht
      cases ht
      exact h
    have hread := readElement_isSome b (p + 1) (b.byte p &&& 0x0f).toNat ext
      type
    rw [hskip, elementLength, ← hread]
    dsimp only
    cases readElement b (p + 1) (b.byte p &&& 0x0f).toNat ext type with
    | none =>
      exact ⟨fun h => absurd h hnone, fun h => absurd h.1 (by decide)⟩
    | some ext' => exact (hsome ext').trans (and_iff_right rfl).symm

variable {start : ℕ}

theorem elementAt_iff (ext : RTPHeaderExtension) :
    ElementAt b map stop start p ↔
      ∃ ext', Relation.ReflTransGen (Traced.Round (readRound b map stop))
        (start, ext) (p, ext') := by
  constructor
  · intro h
    induction h with
    | first => exact ⟨ext, .refl⟩
    | next h hp hskip ih =>
      obtain ⟨ext', hreach⟩ := ih
      obtain ⟨ext'', hround⟩ := exists_round_iff.mpr ⟨hp, hskip, rfl⟩
      exact ⟨ext'', hreach.tail hround⟩
  · rintro ⟨ext', hreach⟩
    generalize hs : (p, ext') = s at hreach
    induction hreach generalizing p ext' with
    | refl =>
      cases hs
      exact .first
    | @tail t u hreach hround ih =>
      subst hs
      obtain ⟨hp, hskip, rfl⟩ := exists_round_iff.mp ⟨ext', hround⟩
      exact .next (ih t.2 rfl) hp hskip

/-! ## Reading inside the block -/

/-- Every read is inside the packet, and those of the loop inside the block. -/
def Read.Proper (b : Buffer) (block : Access) : Read → Prop
  | .header a => b.Inside a
  | .extension a => b.Inside a ∧ a.Within block

variable {n : ℕ}

theorem proper_extension {i k : ℕ} (hfits : start + n ≤ b.size)
    (hi : start ≤ i) (hk : i + k ≤ start + n) :
    Read.Proper b ⟨start, n⟩ (.extension ⟨i, k⟩) :=
  ⟨Nat.le_trans hk hfits, hi, hk⟩

variable {ptr : ℕ}

theorem readZeroBytes_proper (hfits : start + n ≤ b.size)
    {k : ℕ} (hptr : start ≤ ptr) (hk : ptr + k ≤ start + n) :
    (readZeroBytes b k ptr).All (Read.Proper b ⟨start, n⟩) := by
  induction k generalizing ptr with
  | zero => exact Traced.all_pure _
  | succ k ih =>
    rw [readZeroBytes, Traced.all_bind, Traced.all_touch]
    refine ⟨proper_extension hfits hptr (by omega), ?_⟩
    split
    · exact Traced.all_pure _
    · rw [Traced.all_bind]
      exact ⟨ih (by omega) (by omega), Traced.all_pure _⟩

theorem readPaddingBytes_proper
    (hfits : start + n ≤ b.size) (hptr : start ≤ ptr) :
    (readPaddingBytes b (start + n) ptr).All (Read.Proper b ⟨start, n⟩) := by
  unfold readPaddingBytes
  rw [Traced.all_bind]
  refine ⟨?_, Traced.all_pure _⟩
  by_cases hstop : start + n ≤ ptr
  · rw [Nat.sub_eq_zero_of_le hstop]
    exact Traced.all_pure _
  · exact readZeroBytes_proper hfits hptr (by omega)

theorem readBehind_proper {len : ℕ}
    (hfits : start + n ≤ b.size) (hptr : start ≤ ptr) :
    (readBehind b (start + n) ptr len ext).All (Read.Proper b ⟨start, n⟩) := by
  unfold readBehind
  rw [Traced.all_bind]
  exact ⟨readPaddingBytes_proper hfits (by omega), Traced.all_pure _⟩

theorem readRound_eq (stop p : ℕ) (ext : RTPHeaderExtension) :
    readRound b map stop (p, ext) =
      if stop ≤ p then pure none
      else Traced.touch (.extension ⟨p, 1⟩) (b.byte p) >>= fun _ =>
        if elementId b p = 15 then pure none
        else
          match map.getType (elementId b p) with
          | none => readBehind b stop (p + 1) (b.byte p &&& 0x0f).toNat ext
          | some type =>
            readData b (p + 1) (b.byte p &&& 0x0f).toNat ext type >>= fun o =>
              match o with
              | none => pure none
              | some ext =>
                readBehind b stop (p + 1) (b.byte p &&& 0x0f).toNat ext :=
  rfl

theorem readData_proper_iff (ext : RTPHeaderExtension)
    {type : RTPExtensionType} (hfits : start + n ≤ b.size)
    (hp : start ≤ p) :
    (readData b (p + 1) (b.byte p &&& 0x0f).toNat ext type).All
        (Read.Proper b ⟨start, n⟩) ↔
      (elementLength b p = type.dataLength → elementEnd b p ≤ start + n) := by
  unfold readData
  by_cases hlen : (b.byte p &&& 0x0f).toNat + 1 ≠ type.dataLength
  · rw [if_pos hlen]
    exact ⟨fun _ h => absurd h hlen, fun _ => Traced.all_pure _⟩
  · have hlen' : elementLength b p = type.dataLength := not_not.mp hlen
    rw [if_neg hlen, Traced.all_touch, elementEnd, hlen', imp_iff_right rfl]
    exact ⟨fun h => h.2.2, fun h => proper_extension hfits (by omega) h⟩

theorem readRound_proper_iff
    (hfits : start + n ≤ b.size) (hp : start ≤ p) :
    (readRound b map (start + n) (p, ext)).All (Read.Proper b ⟨start, n⟩) ↔
      ElementFits b map (start + n) p := by
  unfold ElementFits
  rw [readRound_eq]
  by_cases hstop : start + n ≤ p
  · rw [if_pos hstop]
    exact ⟨fun _ h => absurd h (by omega), fun _ => Traced.all_pure _⟩
  rw [if_neg hstop, imp_iff_right (Nat.lt_of_not_le hstop), Traced.all_bind,
    Traced.all_touch,
    and_iff_right (proper_extension hfits hp (by omega))]
  by_cases hid : elementId b p = 15
  · rw [if_pos hid]
    exact ⟨fun _ type htype => absurd hid (getType_ne_fifteen htype),
      fun _ => Traced.all_pure _⟩
  rw [if_neg hid]
  cases htype : map.getType (elementId b p) with
  | none =>
    exact ⟨fun _ type h => (nomatch h),
      fun _ => readBehind_proper hfits (by omega)⟩
  | some type =>
    have honly : (∀ t, some type = some t →
        elementLength b p = t.dataLength → elementEnd b p ≤ start + n) ↔
        (elementLength b p = type.dataLength →
          elementEnd b p ≤ start + n) :=
      ⟨fun h => h type rfl, fun h t ht => by
        cases ht
        exact h⟩
    rw [honly, ← readData_proper_iff ext hfits hp]
    dsimp only
    rw [Traced.all_bind]
    refine and_iff_left ?_
    split
    · exact Traced.all_pure _
    · exact readBehind_proper hfits (by omega)

theorem ElementAt.start_le
    (h : ElementAt b map stop start p) : start ≤ p := by
  induction h with
  | first => exact Nat.le_refl _
  | next h hp hskip ih =>
    unfold nextElement elementEnd
    omega

theorem readOneByteExtensionHeader_proper_iff (hfits : start + n ≤ b.size) :
    (readOneByteExtensionHeader b (some map) (start + n) start ext).All
        (Read.Proper b ⟨start, n⟩) ↔
      ElementsFit b map (start + n) start := by
  unfold readOneByteExtensionHeader ElementsFit
  dsimp only
  rw [Traced.all_bind, and_iff_left (Traced.all_pure _),
    Traced.all_finish_iff (lowers_readRound map (start + n))]
  constructor
  · intro h p hp
    obtain ⟨ext', hreach⟩ := (elementAt_iff ext).mp hp
    exact (readRound_proper_iff hfits hp.start_le).mp (h _ hreach)
  · rintro h ⟨p, ext'⟩ hreach
    have hp : ElementAt b map (start + n) start p :=
      (elementAt_iff ext).mpr ⟨ext', hreach⟩
    exact (readRound_proper_iff hfits hp.start_le).mpr (h p hp)

end Elements

end RtpHeaderParser

end WebrtcWinXp.Rtp
