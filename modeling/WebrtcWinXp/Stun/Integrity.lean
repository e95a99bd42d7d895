import WebrtcWinXp.Stun.RoundTrip
import WebrtcWinXp.Support.Memory

/-!
# Message integrity and fingerprint

`AddMessageIntegrity` and `AddFingerprint` compute their values from the
bytes that `Write` produces, `ValidateMessageIntegrity` and
`ValidateFingerprint` from the bytes that were received.  HMAC-SHA1 and
CRC-32 are parameters.
-/

namespace WebrtcWinXp.Stun

open Support ByteBuffer

def STUN_ATTR_MESSAGE_INTEGRITY : UInt16 := 0x0008

def STUN_ATTR_FINGERPRINT : UInt16 := 0x8028

def kStunMessageIntegritySize : ℕ := 20

def kStunTransactionIdOffset : ℕ := 8

def STUN_FINGERPRINT_XOR_VALUE : UInt32 := 0x5354554E

/-- `GetBE16(data + offset)`. -/
def getBE16 (data : Buffer) (offset : ℕ) : UInt16 :=
  UInt16.ofNat (ofBE (data.read ⟨offset, 2⟩))

/-- `GetBE32(data + offset)`. -/
def getBE32 (data : Buffer) (offset : ℕ) : UInt32 :=
  UInt32.ofNat (ofBE (data.read ⟨offset, 4⟩))

/-- `SetBE16(data + offset, v)`. -/
def setBE16 (data : List UInt8) (offset : ℕ) (v : UInt16) : List UInt8 :=
  data.take offset ++ writeUInt16 v ++ data.drop (offset + 2)

/-- `ComputeHmac(DIGEST_SHA_1, …)`, of a key and a message. -/
abbrev Hmac := List UInt8 → List UInt8 → Octets 20

/-- `ComputeCrc32`. -/
abbrev Crc32 := List UInt8 → UInt32

namespace StunMessage

/-! ## Validating -/

/-- The loop of `ValidateMessageIntegrity`: the position of the attribute, or
`none` where the function returns false. -/
def findMessageIntegrity (data : Buffer) (currentPos : ℕ) : Option ℕ :=
  if currentPos < data.size then
    let attrType := getBE16 data currentPos
    let attrLength := getBE16 data (currentPos + 2)
    if attrType = STUN_ATTR_MESSAGE_INTEGRITY then
      if attrLength.toNat ≠ kStunMessageIntegritySize ∨
          currentPos + attrLength.toNat > data.size then none
      else some currentPos
    else
      findMessageIntegrity data (currentPos + kStunAttributeHeaderSize +
        attrLength.toNat + paddingLength attrLength.toNat)
  else none
termination_by data.size - currentPos
decreasing_by
  simp only [kStunAttributeHeaderSize]
  omega

/-- `StunMessage::ValidateMessageIntegrity`. -/
def validateMessageIntegrity (hmac : Hmac) (data : Buffer)
    (password : List UInt8) : Bool :=
  if data.size % 4 ≠ 0 then false
  else if data.size ≠ (getBE16 data 2).toNat + kStunHeaderSize then false
  else
    match findMessageIntegrity data kStunHeaderSize with
    | none => false
    | some miPos =>
      let attrEnd :=
        miPos + kStunAttributeHeaderSize + kStunMessageIntegritySize
      let tempData := data.read ⟨0, miPos⟩
      let tempData :=
        if data.size > attrEnd then
          let extraOffset := data.size - attrEnd
          let newAdjustedLen := data.size - extraOffset - kStunHeaderSize
          setBE16 tempData 2 (UInt16.ofNat newAdjustedLen)
        else tempData
      data.read ⟨miPos + kStunAttributeHeaderSize,
        kStunMessageIntegritySize⟩ == (hmac password tempData).1

/-- `StunMessage::ValidateFingerprint`. -/
def validateFingerprint (crc32 : Crc32) (data : Buffer) : Bool :=
  let fingerprintAttrSize := kStunAttributeHeaderSize + 4
  if data.size % 4 ≠ 0 ∨ data.size < kStunHeaderSize + fingerprintAttrSize then
    false
  else if getBE32 data (kStunTransactionIdOffset - kStunMagicCookieLength) ≠
      kStunMagicCookie then false
  else
    let fingerprintAttrData := data.size - fingerprintAttrSize
    if getBE16 data fingerprintAttrData ≠ STUN_ATTR_FINGERPRINT ∨
        getBE16 data (fingerprintAttrData + 2) ≠ 4 then false
    else
      let fingerprint :=
        getBE32 data (fingerprintAttrData + kStunAttributeHeaderSize)
      fingerprint ^^^ STUN_FINGERPRINT_XOR_VALUE ==
        crc32 (data.read ⟨0, data.size - fingerprintAttrSize⟩)

/-- Changes the attribute added last, through the pointer to it. -/
def updateLast (f : StunAttribute → StunAttribute) (msg : StunMessage) :
    StunMessage :=
  { msg with attrs := msg.attrs.dropLast ++ (msg.attrs.getLast?.map f).toList }

/-- The attribute with a dummy value that `AddMessageIntegrity` adds. -/
def dummyMessageIntegrity : StunAttribute :=
  .newByteString STUN_ATTR_MESSAGE_INTEGRITY
    (List.replicate kStunMessageIntegritySize 0x30)

/-- `StunMessage::AddMessageIntegrity`: its result and the message. -/
def addMessageIntegrity (cls : MessageClass) (hmac : Hmac) (key : List UInt8)
    (msg : StunMessage) : Bool × StunMessage :=
  let msg := msg.addAttribute cls dummyMessageIntegrity
  match msg.write with
  | none => (false, msg)
  | some buf =>
    let msgLenForHmac := buf.length - kStunAttributeHeaderSize -
      dummyMessageIntegrity.length.toNat
    let digest := hmac key (buf.take msgLenForHmac)
    (true, msg.updateLast (·.copyBytes digest.1))

/-- `StunMessage::AddFingerprint`: its result and the message. -/
def addFingerprint (cls : MessageClass) (crc32 : Crc32) (msg : StunMessage) :
    Bool × StunMessage :=
  let fingerprintAttr := StunAttribute.newUInt32 STUN_ATTR_FINGERPRINT 0
  let msg := msg.addAttribute cls fingerprintAttr
  match msg.write with
  | none => (false, msg)
  | some buf =>
    let msgLenForCrc32 := buf.length - kStunAttributeHeaderSize -
      fingerprintAttr.length.toNat
    let c := crc32 (buf.take msgLenForCrc32)
    (true, msg.updateLast (·.setUInt32 (c ^^^ STUN_FINGERPRINT_XOR_VALUE)))

variable {cls : MessageClass} {msg : StunMessage} {hmac : Hmac}
  {crc32 : Crc32} {transactionId : List UInt8}

def idBytes (msg : StunMessage) : List UInt8 :=
  (if msg.isLegacy then [] else magicCookieBytes) ++ msg.transactionId

theorem WellBuilt.idBytes_length (h : WellBuilt cls msg) :
    msg.idBytes.length = 16 := by
  have hvalid := h.validId
  simp only [isValidTransactionId, Bool.or_eq_true, beq_iff_eq] at hvalid
  by_cases hid : msg.isLegacy
  · have hlen : msg.transactionId.length = 16 := by
      simpa [isLegacy, kStunLegacyTransactionIdLength] using hid
    simp [idBytes, hid, hlen]
  · have hlen : msg.transactionId.length = 12 :=
      hvalid.resolve_right (by simpa [isLegacy] using hid)
    simp [idBytes, hid, hlen]

variable {bytes : List UInt8}

theorem write_eq_some_iff :
    msg.write = some bytes ↔
      ∃ body, writeAttributes msg.transactionId msg.attrs = some body ∧
        bytes = writeUInt16 msg.type ++ writeUInt16 msg.length ++
          msg.idBytes ++ body := by
  simp only [write, idBytes, Option.bind_eq_bind, Option.bind_eq_some_iff,
    Option.some.injEq]
  constructor
  · rintro ⟨body, hbody, rfl⟩
    exact ⟨body, hbody, by simp⟩
  · rintro ⟨body, hbody, rfl⟩
    exact ⟨body, hbody, by simp⟩

theorem writeAttributes_append_eq_some_iff {attrs extra : List StunAttribute} :
    writeAttributes transactionId (attrs ++ extra) = some bytes ↔
      ∃ front back, writeAttributes transactionId attrs = some front ∧
        writeAttributes transactionId extra = some back ∧
        bytes = front ++ back := by
  induction attrs generalizing bytes with
  | nil =>
    simp [writeAttributes]
  | cons attr attrs ih =>
    simp only [List.cons_append, writeAttributes, Option.bind_eq_bind,
      Option.bind_eq_some_iff, ih, Option.some.injEq]
    constructor
    · rintro ⟨body, hbody, _, ⟨front, back, hfront, hback, rfl⟩, rfl⟩
      exact ⟨_, back, ⟨body, hbody, front, hfront, rfl⟩, hback, by simp⟩
    · rintro ⟨_, back, ⟨body, hbody, front, hfront, rfl⟩, hback, rfl⟩
      exact ⟨body, hbody, front ++ back, ⟨front, back, hfront, hback, rfl⟩,
        by simp⟩

variable {head : List UInt8}

theorem getBE16_ofList (v : UInt16) (rest : List UInt8)
    (beyond : ℕ → UInt8) {offset : ℕ}
    (h : head.length = offset) :
    getBE16 (Buffer.ofList (head ++ (writeUInt16 v ++ rest)) beyond) offset =
      v := by
  rw [getBE16, Buffer.read_ofList_append h (writeUInt16_length v),
    writeUInt16, ofBE_toBE]
  exact UInt16.toNat_inj.mp (by simp)

theorem getBE32_ofList (v : UInt32) (rest : List UInt8)
    (beyond : ℕ → UInt8) {offset : ℕ}
    (h : head.length = offset) :
    getBE32 (Buffer.ofList (head ++ (writeUInt32 v ++ rest)) beyond) offset =
      v := by
  rw [getBE32, Buffer.read_ofList_append h (writeUInt32_length v),
    writeUInt32, ofBE_toBE]
  exact UInt32.toNat_inj.mp (by simp)

variable {body : List UInt8}

/-- The loop steps over the attributes that `Write` wrote. -/
theorem findMessageIntegrity_skip {attrs : List StunAttribute}
    (hlength : ∀ attr ∈ attrs, attr.LengthStored)
    (howned : ∀ attr ∈ attrs, attr.Owned)
    (hsize : (attrs.map StunAttribute.wireSize).sum ≤ 65535)
    (hno : ∀ attr ∈ attrs, attr.type ≠ STUN_ATTR_MESSAGE_INTEGRITY) (h : writeAttributes transactionId attrs = some body)
    (head rest : List UInt8) (beyond : ℕ → UInt8) :
    findMessageIntegrity (Buffer.ofList (head ++ (body ++ rest)) beyond)
        head.length =
      findMessageIntegrity (Buffer.ofList (head ++ (body ++ rest)) beyond)
        (head.length + body.length) := by
  induction attrs generalizing body head with
  | nil =>
    obtain rfl := Option.some.inj h
    rfl
  | cons attr attrs ih =>
    obtain ⟨value, back, hvalue, hback, rfl⟩ := writeAttributes_cons h
    simp only [List.forall_mem_cons, List.map_cons, List.sum_cons] at *
    have hwire : attr.wireSize ≤ 65535 := by omega
    have hnat := hlength.1.toNat_length hwire
    have hlen := StunAttribute.write_length hlength.1 howned.1 hwire hvalue
    simp only [StunAttribute.wireSize] at hlen
    have hloop := ih hlength.2 howned.2 (by omega) hno.2 hback
      (head ++ (writeUInt16 attr.type ++ (writeUInt16 attr.length ++ value)))
    simp only [List.append_assoc] at hloop ⊢
    have htype := getBE16_ofList attr.type
      (writeUInt16 attr.length ++ (value ++ (back ++ rest))) beyond
      (Eq.refl head.length)
    have hattrLength := getBE16_ofList attr.length
      (value ++ (back ++ rest)) beyond
      (show (head ++ writeUInt16 attr.type).length = head.length + 2 by
        simp)
    rw [List.append_assoc] at hattrLength
    rw [findMessageIntegrity]
    simp only [htype, hattrLength, hno.1, if_false, hnat]
    rw [if_pos (by simp [Buffer.ofList])]
    have hnext : head.length + kStunAttributeHeaderSize +
        attr.value.size + paddingLength attr.value.size =
        (head ++ (writeUInt16 attr.type ++
          (writeUInt16 attr.length ++ value))).length := by
      simp only [List.length_append, writeUInt16_length]
      simp only [kStunAttributeHeaderSize] at hlen ⊢
      omega
    rw [hnext, hloop]
    congr 1
    simp only [List.length_append]
    omega

theorem findMessageIntegrity_here {digest rest : List UInt8}
    {beyond : ℕ → UInt8} (hdigest : digest.length = 20) :
    findMessageIntegrity
        (Buffer.ofList (head ++ (writeUInt16 STUN_ATTR_MESSAGE_INTEGRITY ++
          (writeUInt16 20 ++ (digest ++ rest)))) beyond) head.length =
      some head.length := by
  have htype := getBE16_ofList STUN_ATTR_MESSAGE_INTEGRITY
    (writeUInt16 20 ++ (digest ++ rest)) beyond (Eq.refl head.length)
  have hattrLength := getBE16_ofList 20 (digest ++ rest) beyond
    (show (head ++ writeUInt16 STUN_ATTR_MESSAGE_INTEGRITY).length =
      head.length + 2 by simp)
  rw [List.append_assoc] at hattrLength
  rw [findMessageIntegrity]
  simp only [htype, hattrLength, if_true]
  rw [if_pos (by simp [Buffer.ofList]), if_neg]
  simp [Buffer.ofList, kStunMessageIntegritySize, hdigest]
  omega

/-! ## What is added -/

def push (msg : StunMessage) (attr : StunAttribute) : StunMessage :=
  { msg with
    attrs := msg.attrs ++ [attr]
    length := msg.length + UInt16.ofNat attr.wireSize }

/-- What `AddAttribute` makes sure of for an initialised attribute. -/
structure Addable (cls : MessageClass) (attr : StunAttribute) : Prop where
  lengthStored : attr.LengthStored
  owned : attr.Owned
  known : attr.valueType = getAttributeValueType cls attr.type

variable {attr : StunAttribute}

theorem addAttribute_eq_push (msg : StunMessage)
    (hlength : attr.LengthStored)
    (hknown : attr.valueType = getAttributeValueType cls attr.type) :
    msg.addAttribute cls attr = msg.push attr.setOwner := by
  rw [addAttribute, if_neg (not_not.mpr hknown)]
  simp only [push, addAttribute_length_step hlength,
    StunAttribute.wireSize_setOwner]

theorem WellBuilt.push (h : WellBuilt cls msg)
    (hattr : Addable cls attr) : WellBuilt cls (msg.push attr) := by
  have hadd := addAttribute_eq_push msg hattr.lengthStored
    hattr.known
  rw [hattr.owned] at hadd
  rw [← hadd]
  exact h.addAttribute hattr.lengthStored

theorem updateLast_push
    {f : StunAttribute → StunAttribute}
    (h : (f attr).wireSize = attr.wireSize) :
    (msg.push attr).updateLast f = msg.push (f attr) := by
  simp [updateLast, push, h]

/-- The attribute that `AddMessageIntegrity` leaves in the message. -/
def messageIntegrity (digest : Octets 20) : StunAttribute :=
  .newByteString STUN_ATTR_MESSAGE_INTEGRITY digest.1

/-- The attribute that `AddFingerprint` leaves in the message. -/
def fingerprint (c : UInt32) : StunAttribute :=
  .newUInt32 STUN_ATTR_FINGERPRINT c

theorem valueType_integrity (cls : MessageClass) :
    getAttributeValueType cls STUN_ATTR_MESSAGE_INTEGRITY = .byteString := by
  cases cls <;> rfl

theorem valueType_fingerprint (cls : MessageClass) :
    getAttributeValueType cls STUN_ATTR_FINGERPRINT = .uint32 := by
  cases cls <;> rfl

theorem addable_newByteString (bytes : List UInt8) :
    Addable cls (.newByteString STUN_ATTR_MESSAGE_INTEGRITY bytes) where
  lengthStored := rfl
  owned := rfl
  known := (valueType_integrity cls).symm

theorem addable_fingerprint (c : UInt32) : Addable cls (fingerprint c) where
  lengthStored := rfl
  owned := rfl
  known := (valueType_fingerprint cls).symm

theorem wireSize_messageIntegrity (digest : Octets 20) :
    (messageIntegrity digest).wireSize = 24 := by
  simp [messageIntegrity, StunAttribute.newByteString,
    StunAttribute.wireSize, StunAttributeValue.size, digest.2,
    kStunAttributeHeaderSize, paddingLength]

theorem wireSize_fingerprint (c : UInt32) : (fingerprint c).wireSize = 8 := by
  simp [fingerprint, StunAttribute.newUInt32, StunAttribute.wireSize,
    StunAttributeValue.size, kStunAttributeHeaderSize, paddingLength]

/-- The header and the attributes that the two values are computed from,
when the length field counts `size` more bytes than the message. -/
def covered (msg : StunMessage) (size : ℕ) (body : List UInt8) : List UInt8 :=
  writeUInt16 msg.type ++ writeUInt16 (msg.length + UInt16.ofNat size) ++
    msg.idBytes ++ body

theorem addMessageIntegrity_eq (cls : MessageClass) (hmac : Hmac) (key : List UInt8)
    (h : writeAttributes msg.transactionId msg.attrs = some body) :
    addMessageIntegrity cls hmac key msg =
      (true, msg.push
        (messageIntegrity (hmac key (msg.covered 24 body)))) := by
  have hdummy : msg.addAttribute cls dummyMessageIntegrity =
      msg.push dummyMessageIntegrity :=
    addAttribute_eq_push msg rfl (valueType_integrity cls).symm
  have hwrite : (msg.push dummyMessageIntegrity).write =
      some (msg.covered 24 body ++
        (writeUInt16 STUN_ATTR_MESSAGE_INTEGRITY ++ writeUInt16 20 ++
          List.replicate 20 0x30)) := by
    refine write_eq_some_iff.mpr ⟨body ++ (writeUInt16
      STUN_ATTR_MESSAGE_INTEGRITY ++ writeUInt16 20 ++
        List.replicate 20 0x30), ?_, ?_⟩
    · exact writeAttributes_append_eq_some_iff.mpr
        ⟨body, _, h, rfl, rfl⟩
    · simp only [covered, List.append_assoc]
      rfl
  have hlen : (msg.covered 24 body ++
      (writeUInt16 STUN_ATTR_MESSAGE_INTEGRITY ++ writeUInt16 20 ++
        List.replicate 20 0x30)).length - kStunAttributeHeaderSize -
      dummyMessageIntegrity.length.toNat = (msg.covered 24 body).length := by
    simp [kStunAttributeHeaderSize, dummyMessageIntegrity,
      StunAttribute.newByteString, kStunMessageIntegritySize]
  simp only [addMessageIntegrity, hdummy, hwrite, hlen, List.take_left']
  rw [updateLast_push]
  · rfl
  · exact wireSize_messageIntegrity _

theorem addFingerprint_eq
    (h : writeAttributes msg.transactionId msg.attrs = some body) :
    addFingerprint cls crc32 msg =
      (true, msg.push (fingerprint
        (crc32 (msg.covered 8 body) ^^^ STUN_FINGERPRINT_XOR_VALUE))) := by
  have hdummy : msg.addAttribute cls (.newUInt32 STUN_ATTR_FINGERPRINT 0) =
      msg.push (fingerprint 0) :=
    addAttribute_eq_push msg rfl (valueType_fingerprint cls).symm
  have hwrite : (msg.push (fingerprint 0)).write =
      some (msg.covered 8 body ++ (writeUInt16 STUN_ATTR_FINGERPRINT ++
        writeUInt16 4 ++ writeUInt32 0)) := by
    refine write_eq_some_iff.mpr ⟨body ++ (writeUInt16
      STUN_ATTR_FINGERPRINT ++ writeUInt16 4 ++ writeUInt32 0), ?_, ?_⟩
    · exact writeAttributes_append_eq_some_iff.mpr
        ⟨body, _, h, rfl, rfl⟩
    · simp only [covered, List.append_assoc]
      rfl
  have hlen : (msg.covered 8 body ++ (writeUInt16 STUN_ATTR_FINGERPRINT ++
      writeUInt16 4 ++ writeUInt32 0)).length - kStunAttributeHeaderSize -
      (StunAttribute.newUInt32 STUN_ATTR_FINGERPRINT 0).length.toNat =
      (msg.covered 8 body).length := by
    simp [kStunAttributeHeaderSize, StunAttribute.newUInt32]
  simp only [addFingerprint, hdummy, hwrite, hlen, List.take_left']
  rw [updateLast_push]
  · rfl
  · rfl

/-- A call that adds to a message after its integrity was computed. -/
inductive Addition where
  | addAttribute (attr : StunAttribute)
  | addMessageIntegrity (key : List UInt8)
  | addFingerprint

def Addition.apply (cls : MessageClass) (hmac : Hmac) (crc32 : Crc32) :
    Addition → StunMessage → StunMessage
  | .addAttribute attr => StunMessage.addAttribute cls attr
  | .addMessageIntegrity key =>
    fun msg => (StunMessage.addMessageIntegrity cls hmac key msg).2
  | .addFingerprint => fun msg => (StunMessage.addFingerprint cls crc32 msg).2

def extend (cls : MessageClass) (hmac : Hmac) (crc32 : Crc32)
    (additions : List Addition) (msg : StunMessage) : StunMessage :=
  additions.foldl (fun msg call => call.apply cls hmac crc32 msg) msg

theorem write_push_eq_none
    (h : writeAttributes msg.transactionId msg.attrs = none)
    (attr : StunAttribute) : (msg.push attr).write = none := by
  by_contra hne
  obtain ⟨bytes, hbytes⟩ := Option.ne_none_iff_exists'.mp hne
  obtain ⟨body, hbody, -⟩ := write_eq_some_iff.mp hbytes
  obtain ⟨front, -, hfront, -⟩ := writeAttributes_append_eq_some_iff.mp hbody
  change writeAttributes msg.transactionId msg.attrs = some front at hfront
  rw [h] at hfront
  cases hfront

theorem addMessageIntegrity_push (cls : MessageClass) (hmac : Hmac)
    (key : List UInt8) (msg : StunMessage) :
    ∃ attr, Addable cls attr ∧
      (addMessageIntegrity cls hmac key msg).2 = msg.push attr := by
  cases h : writeAttributes msg.transactionId msg.attrs with
  | some body =>
    exact ⟨_, addable_newByteString _,
      congrArg Prod.snd (addMessageIntegrity_eq cls hmac key h)⟩
  | none =>
    have hdummy : msg.addAttribute cls dummyMessageIntegrity =
        msg.push dummyMessageIntegrity :=
      addAttribute_eq_push msg rfl (valueType_integrity cls).symm
    refine ⟨dummyMessageIntegrity, addable_newByteString _, ?_⟩
    simp only [addMessageIntegrity, hdummy, write_push_eq_none h]

theorem addFingerprint_push (cls : MessageClass) (crc32 : Crc32)
    (msg : StunMessage) :
    ∃ attr, Addable cls attr ∧
      (addFingerprint cls crc32 msg).2 = msg.push attr := by
  cases h : writeAttributes msg.transactionId msg.attrs with
  | some body =>
    exact ⟨_, addable_fingerprint _,
      congrArg Prod.snd (addFingerprint_eq h)⟩
  | none =>
    have hdummy : msg.addAttribute cls
        (.newUInt32 STUN_ATTR_FINGERPRINT 0) = msg.push (fingerprint 0) :=
      addAttribute_eq_push msg rfl (valueType_fingerprint cls).symm
    refine ⟨fingerprint 0, addable_fingerprint _, ?_⟩
    simp only [addFingerprint, hdummy, write_push_eq_none h]

theorem Addition.apply_cases (cls : MessageClass) (hmac : Hmac)
    (crc32 : Crc32) (msg : StunMessage) {call : Addition}
    (hinit : ∀ attr, call = .addAttribute attr → attr.Initialised) :
    call.apply cls hmac crc32 msg = msg ∨
      ∃ attr, Addable cls attr ∧
        call.apply cls hmac crc32 msg = msg.push attr := by
  cases call with
  | addAttribute attr =>
    have hlength := (hinit attr rfl).lengthStored
    by_cases hknown : attr.valueType = getAttributeValueType cls attr.type
    · refine .inr ⟨attr.setOwner, ⟨?_, attr.setOwner_owned, ?_⟩,
        addAttribute_eq_push msg hlength hknown⟩
      · rw [StunAttribute.LengthStored, attr.setOwner_length,
          attr.setOwner_value_size]
        exact hlength
      · rw [attr.setOwner_valueType, attr.setOwner_type]
        exact hknown
    · exact .inl (if_pos hknown)
  | addMessageIntegrity key => exact .inr (addMessageIntegrity_push cls hmac key msg)
  | addFingerprint => exact .inr (addFingerprint_push cls crc32 msg)

/-- What a message keeps when attributes are put behind it. -/
structure Extends (cls : MessageClass) (msg final : StunMessage) : Prop where
  wellBuilt : WellBuilt cls final
  type_eq : final.type = msg.type
  transactionId_eq : final.transactionId = msg.transactionId
  attrs_eq : ∃ extra, final.attrs = msg.attrs ++ extra

theorem extends_extend (h : WellBuilt cls msg) {additions : List Addition}
    (hinit : ∀ attr, Addition.addAttribute attr ∈ additions →
      attr.Initialised) :
    Extends cls msg (msg.extend cls hmac crc32 additions) := by
  induction additions using List.reverseRecOn with
  | nil => exact ⟨h, rfl, rfl, [], (List.append_nil _).symm⟩
  | append_singleton additions call ih =>
    obtain ⟨hbuilt, htype, hid, extra, hattrs⟩ :=
      ih fun attr hmem => hinit attr (by simp [hmem])
    have hrun : msg.extend cls hmac crc32 (additions ++ [call]) =
        call.apply cls hmac crc32
          (msg.extend cls hmac crc32 additions) := by
      simp [extend]
    rw [hrun]
    have hcall : ∀ attr, call = .addAttribute attr → attr.Initialised :=
      fun attr heq => hinit attr (by simp [heq])
    rcases Addition.apply_cases cls hmac crc32
        (msg.extend cls hmac crc32 additions) hcall
      with hsame | ⟨attr, haddable, hpush⟩
    · rw [hsame]
      exact ⟨hbuilt, htype, hid, extra, hattrs⟩
    · rw [hpush]
      refine ⟨hbuilt.push haddable, htype, hid, extra ++ [attr], ?_⟩
      rw [← List.append_assoc, ← hattrs]
      rfl

/-! ## What was added is accepted -/

theorem wireSize_mod_four (attr : StunAttribute) : attr.wireSize % 4 = 0 := by
  unfold StunAttribute.wireSize kStunAttributeHeaderSize paddingLength
  split <;> omega

theorem bodySize_mod_four (msg : StunMessage) : msg.bodySize % 4 = 0 := by
  unfold bodySize
  induction msg.attrs with
  | nil => rfl
  | cons attr attrs ih =>
    have hattr := wireSize_mod_four attr
    simp only [List.map_cons, List.sum_cons]
    omega

theorem WellBuilt.written (h : WellBuilt cls msg)
    (hsize : msg.bodySize ≤ 65535)
    (hwrite : msg.write = some bytes) :
    bytes.length = kStunHeaderSize + msg.bodySize ∧
      msg.length.toNat = msg.bodySize ∧
      ∀ beyond, getBE16 (Buffer.ofList bytes beyond) 2 = msg.length := by
  obtain ⟨body, hbody, rfl⟩ := write_eq_some_iff.mp hwrite
  have hbodyLen := writeAttributes_length h.lengthStored h.owned hsize hbody
  refine ⟨?_, ?_, ?_⟩
  · simp only [List.length_append, writeUInt16_length, h.idBytes_length,
      hbodyLen, kStunHeaderSize, bodySize]
  · rw [h.length_eq]
    exact UInt16.toNat_ofNat_of_lt' (Nat.lt_succ_of_le hsize)
  · intro beyond
    rw [List.append_assoc, List.append_assoc]
    exact getBE16_ofList _ _ _ (writeUInt16_length _)

variable {final : StunMessage}

theorem idBytes_congr
    (h : final.transactionId = msg.transactionId) :
    final.idBytes = msg.idBytes := by
  unfold idBytes isLegacy
  rw [h]

/-- The header bytes of a message, up to its first attribute. -/
def headerBytes (msg : StunMessage) : List UInt8 :=
  writeUInt16 msg.type ++ writeUInt16 msg.length ++ msg.idBytes

theorem WellBuilt.headerBytes_length (h : WellBuilt cls msg) :
    msg.headerBytes.length = kStunHeaderSize := by
  simp [headerBytes, h.idBytes_length, kStunHeaderSize]

theorem write_messageIntegrity (digest : Octets 20) :
    (messageIntegrity digest).write transactionId = some digest.1 := by
  have htake : digest.1.take 20 = digest.1 :=
    List.take_of_length_le (le_of_eq digest.2)
  simp [messageIntegrity, StunAttribute.newByteString, StunAttribute.write,
    digest.2, writePadding, htake]

theorem Extends.written_integrity {digest : Octets 20}
    (h : Extends cls (msg.push (messageIntegrity digest)) final)
    (hbody : writeAttributes msg.transactionId msg.attrs = some body) (hwrite : final.write = some bytes) :
    ∃ extra tail,
      final.bodySize = msg.bodySize + (24 + extra) ∧
      bytes = final.headerBytes ++ (body ++
        (writeUInt16 STUN_ATTR_MESSAGE_INTEGRITY ++
          (writeUInt16 20 ++ (digest.1 ++ tail)))) := by
  obtain ⟨-, -, hid, extra, hattrs⟩ := h
  change final.transactionId = msg.transactionId at hid
  have hsplit : final.attrs =
      msg.attrs ++ (messageIntegrity digest :: extra) := by
    rw [hattrs]
    simp [push]
  obtain ⟨all, hall, hbytes⟩ := write_eq_some_iff.mp hwrite
  rw [hid, hsplit] at hall
  obtain ⟨front, back, hfront, hback, rfl⟩ :=
    writeAttributes_append_eq_some_iff.mp hall
  obtain rfl := Option.some.inj (hbody.symm.trans hfront)
  obtain ⟨value, tail, hvalue, htail, rfl⟩ := writeAttributes_cons hback
  obtain rfl := Option.some.inj
    ((write_messageIntegrity digest).symm.trans hvalue)
  have htwenty : (messageIntegrity digest).length = 20 := by
    simp only [messageIntegrity, StunAttribute.newByteString, digest.2]
    rfl
  refine ⟨(extra.map StunAttribute.wireSize).sum, tail, ?_, ?_⟩
  · simp [bodySize, hsplit, wireSize_messageIntegrity]
  · rw [hbytes, htwenty, headerBytes]
    simp only [List.append_assoc]
    rfl

/-- The attribute that `AddMessageIntegrity` left is accepted wherever it
stands. -/
theorem validateMessageIntegrity_of_extends
    (hno : ∀ attr ∈ msg.attrs, attr.type ≠ STUN_ATTR_MESSAGE_INTEGRITY)
    (hbuilt : WellBuilt cls msg) {password : List UInt8}
    (hbody : writeAttributes msg.transactionId msg.attrs = some body)
    (hextends : Extends cls (msg.push (messageIntegrity
      (hmac password (msg.covered 24 body)))) final)
    (hsize : final.bodySize ≤ 65535)
    (hwrite : final.write = some bytes) (beyond : ℕ → UInt8) :
    validateMessageIntegrity hmac (Buffer.ofList bytes beyond) password := by
  obtain ⟨hlen, hfield, hget⟩ := hextends.wellBuilt.written hsize hwrite
  obtain ⟨extra, tail, hbodySize, hsplit⟩ :=
    hextends.written_integrity hbody hwrite
  have hheadLen := hextends.wellBuilt.headerBytes_length
  have hmsgSize : msg.bodySize ≤ 65535 := by omega
  have hbodyLen : body.length = msg.bodySize :=
    writeAttributes_length hbuilt.lengthStored hbuilt.owned hmsgSize hbody
  set digest := hmac password (msg.covered 24 body) with hdigest
  have hfind : findMessageIntegrity (Buffer.ofList bytes beyond)
      kStunHeaderSize = some (kStunHeaderSize + body.length) := by
    rw [hsplit, ← hheadLen, findMessageIntegrity_skip hbuilt.lengthStored
      hbuilt.owned hmsgSize hno hbody, ← List.append_assoc,
      ← List.length_append]
    exact findMessageIntegrity_here digest.2
  have hvalue : (Buffer.ofList bytes beyond).read
      ⟨kStunHeaderSize + body.length + kStunAttributeHeaderSize,
        kStunMessageIntegritySize⟩ = digest.1 := by
    have hassoc : bytes = (final.headerBytes ++ body ++
        (writeUInt16 STUN_ATTR_MESSAGE_INTEGRITY ++ writeUInt16 20)) ++
          (digest.1 ++ tail) := by
      rw [hsplit]
      simp only [List.append_assoc]
    rw [hassoc]
    refine Buffer.read_ofList_append ?_ digest.2
    simp only [List.length_append, hheadLen, writeUInt16_length,
      kStunAttributeHeaderSize]
  have hbefore : (Buffer.ofList bytes beyond).read
      ⟨0, kStunHeaderSize + body.length⟩ = final.headerBytes ++ body := by
    rw [hsplit, ← List.append_assoc]
    exact Buffer.read_ofList_head (by rw [List.length_append, hheadLen])
  have hsizeEq : (Buffer.ofList bytes beyond).size = bytes.length := rfl
  have hmod := bodySize_mod_four final
  unfold validateMessageIntegrity
  rw [if_neg (by rw [hsizeEq, hlen]; simp only [kStunHeaderSize]; omega),
    hget, hfield, if_neg (by rw [hsizeEq, hlen]; omega), hfind]
  simp only [hvalue, hbefore, beq_iff_eq]
  rw [hdigest]
  congr 2
  have hlength : msg.length + UInt16.ofNat 24 =
      UInt16.ofNat (msg.bodySize + 24) := by
    rw [hbuilt.length_eq, UInt16.ofNat_add]
  have htype : final.type = msg.type := hextends.type_eq
  have hid : final.idBytes = msg.idBytes :=
    idBytes_congr hextends.transactionId_eq
  simp only [covered, headerBytes, htype, hid, hlength, hsizeEq, hlen,
    hbodyLen, hbodySize, kStunHeaderSize, kStunAttributeHeaderSize,
    kStunMessageIntegritySize]
  split
  · -- The length field is set to what it was when the value was computed.
    have hnew : 20 + (msg.bodySize + (24 + extra)) -
        (20 + (msg.bodySize + (24 + extra)) - (20 + msg.bodySize + 4 + 20)) -
        20 = msg.bodySize + 24 := by
      omega
    rw [hnew, setBE16]
    simp [List.drop_append]
  · have hsame : final.length = UInt16.ofNat (msg.bodySize + 24) := by
      rw [hextends.wellBuilt.length_eq, hbodySize]
      congr 1
      omega
    rw [hsame]

/-- The fingerprint that `AddFingerprint` left is accepted. -/
theorem validateFingerprint_addFingerprint (hbuilt : WellBuilt cls msg)
    (hlegacy : ¬msg.isLegacy)
    (hsize : (addFingerprint cls crc32 msg).2.bodySize ≤ 65535)
    (hwrite : (addFingerprint cls crc32 msg).2.write = some bytes)
    (beyond : ℕ → UInt8) :
    validateFingerprint crc32 (Buffer.ofList bytes beyond) := by
  obtain ⟨body, hbody⟩ :
      ∃ body, writeAttributes msg.transactionId msg.attrs = some body := by
    by_contra hne
    obtain ⟨attr, -, hpush⟩ := addFingerprint_push cls crc32 msg
    rw [hpush, write_push_eq_none (Option.eq_none_iff_forall_ne_some.mpr
      fun body h => hne ⟨body, h⟩)] at hwrite
    cases hwrite
  rw [addFingerprint_eq hbody] at hsize hwrite
  set c := crc32 (msg.covered 8 body) with hc
  obtain ⟨hlen, -, -⟩ :=
    (hbuilt.push (addable_fingerprint _)).written hsize hwrite
  have hmod := bodySize_mod_four
    (msg.push (fingerprint (c ^^^ STUN_FINGERPRINT_XOR_VALUE)))
  have hsplit : bytes = msg.covered 8 body ++
      (writeUInt16 STUN_ATTR_FINGERPRINT ++ (writeUInt16 4 ++
        (writeUInt32 (c ^^^ STUN_FINGERPRINT_XOR_VALUE) ++ []))) := by
    obtain ⟨all, hall, hbytes⟩ := write_eq_some_iff.mp hwrite
    obtain ⟨front, back, hfront, hback, rfl⟩ :=
      writeAttributes_append_eq_some_iff.mp hall
    obtain rfl := Option.some.inj (hbody.symm.trans hfront)
    obtain rfl := Option.some.inj hback
    have hid : (msg.push (fingerprint
        (c ^^^ STUN_FINGERPRINT_XOR_VALUE))).idBytes = msg.idBytes :=
      idBytes_congr rfl
    have hlength : (msg.push (fingerprint
        (c ^^^ STUN_FINGERPRINT_XOR_VALUE))).length =
        msg.length + UInt16.ofNat 8 := by
      rw [push, wireSize_fingerprint]
    simp only [hbytes, covered, List.append_assoc, hid, hlength]
    rfl
  have hsizeEq : (Buffer.ofList bytes beyond).size =
      (msg.covered 8 body).length + 8 := by
    change bytes.length = _
    rw [hsplit]
    simp
  have hcoveredLen : kStunHeaderSize ≤ (msg.covered 8 body).length := by
    simp only [covered, List.length_append, writeUInt16_length,
      hbuilt.idBytes_length, kStunHeaderSize]
    omega
  have hcookie : getBE32 (Buffer.ofList bytes beyond) 4 =
      kStunMagicCookie := by
    have hid : msg.idBytes = magicCookieBytes ++ msg.transactionId := by
      simp [idBytes, hlegacy]
    rw [hsplit, covered, hid]
    simp only [List.append_assoc]
    rw [← List.append_assoc (writeUInt16 msg.type)]
    exact getBE32_ofList _ _ _ (by simp)
  have htype : getBE16 (Buffer.ofList bytes beyond)
      (msg.covered 8 body).length = STUN_ATTR_FINGERPRINT := by
    rw [hsplit]
    exact getBE16_ofList _ _ _ rfl
  have hfour : getBE16 (Buffer.ofList bytes beyond)
      ((msg.covered 8 body).length + 2) = 4 := by
    rw [hsplit, ← List.append_assoc]
    exact getBE16_ofList _ _ _ (by simp)
  have hvalue : getBE32 (Buffer.ofList bytes beyond)
      ((msg.covered 8 body).length + 4) =
      c ^^^ STUN_FINGERPRINT_XOR_VALUE := by
    rw [hsplit, ← List.append_assoc, ← List.append_assoc]
    exact getBE32_ofList _ _ _ (by simp)
  have hbefore : (Buffer.ofList bytes beyond).read
      ⟨0, (msg.covered 8 body).length⟩ = msg.covered 8 body := by
    rw [hsplit]
    exact Buffer.read_ofList_head rfl
  have hlen' : (msg.covered 8 body).length + 8 = kStunHeaderSize +
      (msg.push (fingerprint (c ^^^ STUN_FINGERPRINT_XOR_VALUE))).bodySize :=
    hsizeEq.symm.trans hlen
  simp only [kStunHeaderSize] at hlen' hcoveredLen
  unfold validateFingerprint
  simp only [hsizeEq, kStunHeaderSize, kStunAttributeHeaderSize,
    kStunTransactionIdOffset, kStunMagicCookieLength, Nat.reduceSub,
    Nat.reduceAdd, Nat.add_sub_cancel, hcookie, htype, hfour, hvalue, hbefore]
  rw [if_neg (by omega), if_neg (not_not.mpr rfl), if_neg (by simp),
    beq_iff_eq, ← hc, UInt32.xor_assoc, UInt32.xor_self, UInt32.xor_zero]

/-- What `AddMessageIntegrity` and `AddFingerprint` leave is accepted from
the written bytes, whatever is added after the integrity. -/
theorem validate_added (hbuilt : WellBuilt cls msg)
    (hno : ∀ attr ∈ msg.attrs, attr.type ≠ STUN_ATTR_MESSAGE_INTEGRITY)
    (hmac : Hmac) (crc32 : Crc32) (password : List UInt8)
    {additions : List Addition}
    (hinit : ∀ attr, Addition.addAttribute attr ∈ additions →
      attr.Initialised)
    (hsize : ((addMessageIntegrity cls hmac password msg).2.extend cls hmac
      crc32 additions).bodySize ≤ 65535)
    {bytes : List UInt8}
    (hwrite : ((addMessageIntegrity cls hmac password msg).2.extend cls hmac
      crc32 additions).write = some bytes)
    (beyond : ℕ → UInt8) :
    (addMessageIntegrity cls hmac password msg).1 ∧
      validateMessageIntegrity hmac (Buffer.ofList bytes beyond) password ∧
      ∀ earlier, additions = earlier ++ [.addFingerprint] →
        ¬msg.isLegacy →
        validateFingerprint crc32 (Buffer.ofList bytes beyond) := by
  obtain ⟨attr, haddable, hpush⟩ :=
    addMessageIntegrity_push cls hmac password msg
  have hextends (calls : List Addition)
      (hcalls : ∀ attr, Addition.addAttribute attr ∈ calls →
        attr.Initialised) :
      Extends cls (addMessageIntegrity cls hmac password msg).2
        ((addMessageIntegrity cls hmac password msg).2.extend cls hmac crc32
          calls) := by
    refine extends_extend ?_ hcalls
    rw [hpush]
    exact hbuilt.push haddable
  obtain ⟨body, hbody⟩ :
      ∃ body, writeAttributes msg.transactionId msg.attrs = some body := by
    obtain ⟨-, -, hid, extra, hattrs⟩ := hextends additions hinit
    obtain ⟨all, hall, -⟩ := write_eq_some_iff.mp hwrite
    rw [hid, hattrs, hpush, push, List.append_assoc] at hall
    obtain ⟨front, -, hfront, -⟩ :=
      writeAttributes_append_eq_some_iff.mp hall
    exact ⟨front, hfront⟩
  have hadded := addMessageIntegrity_eq cls hmac password hbody
  refine ⟨by rw [hadded], ?_, ?_⟩
  · have hfinal := hextends additions hinit
    rw [hadded] at hfinal hsize hwrite
    exact validateMessageIntegrity_of_extends hno hbuilt hbody hfinal hsize
      hwrite beyond
  · rintro earlier rfl hlegacy
    have hearlier := hextends earlier fun attr hmem =>
      hinit attr (by simp [hmem])
    rw [extend, List.foldl_append] at hsize hwrite
    refine validateFingerprint_addFingerprint hearlier.wellBuilt ?_ hsize
      hwrite beyond
    have hid := hearlier.transactionId_eq
    rw [hpush] at hid
    rw [isLegacy, hpush, hid]
    exact hlegacy

/-- A binding request with a user name of odd length. -/
def signedCalls : List BuildCall :=
  [.setTransactionID [1, 2, 3, 4, 5, 6, 7, 8, 9, 10, 11, 12],
    .setType 0x0001,
    .addAttribute (.newByteString 0x0006 [97, 58, 98, 99, 100])]

def lengthHmac : Hmac := fun key data =>
  ⟨List.replicate 20 (UInt8.ofNat (16 * key.length + data.length)),
    List.length_replicate⟩

def lengthCrc32 : Crc32 := fun data => UInt32.ofNat data.length

def signedAdditions : List Addition :=
  [.addAttribute (.newByteString 0x8022 [120]), .addFingerprint]

/-- The request, signed and followed by a software attribute and a
fingerprint. -/
def signedBytes : List UInt8 :=
  ((addMessageIntegrity .ice lengthHmac [112, 119]
    (build .ice signedCalls)).2.extend .ice lengthHmac lengthCrc32
      signedAdditions).write.getD []

theorem validate_signed :
    (addMessageIntegrity .ice lengthHmac [112, 119]
        (build .ice signedCalls)).1 ∧
      validateMessageIntegrity lengthHmac
        (Buffer.ofList signedBytes fun _ => 0) [112, 119] ∧
      ∀ earlier, signedAdditions = earlier ++ [.addFingerprint] →
        ¬(build .ice signedCalls).isLegacy →
        validateFingerprint lengthCrc32
          (Buffer.ofList signedBytes fun _ => 0) := by
  refine validate_added (wellBuilt_build ?_) (by decide)
    lengthHmac lengthCrc32 [112, 119] ?_ (by decide)
    (by decide +kernel) _
  · intro attr hattr
    simp only [signedCalls, List.mem_cons, List.not_mem_nil, reduceCtorEq,
      BuildCall.addAttribute.injEq, false_or, or_false] at hattr
    obtain rfl := hattr
    exact .newByteString _ _
  · intro attr hattr
    simp only [signedAdditions, List.mem_cons, List.not_mem_nil,
      reduceCtorEq, Addition.addAttribute.injEq, or_false] at hattr
    obtain rfl := hattr
    exact .newByteString _ _

end StunMessage

end WebrtcWinXp.Stun
