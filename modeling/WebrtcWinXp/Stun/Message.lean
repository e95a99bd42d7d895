import WebrtcWinXp.Stun.Attribute

/-!
# STUN messages

`StunMessage` and its subclasses `RelayMessage`, `TurnMessage` and
`IceMessage`, which differ in the attribute types they know.
-/

namespace WebrtcWinXp.Stun

open Support ByteBuffer

/-- The class of a message, which selects `GetAttributeValueType`. -/
inductive MessageClass where
  | stun
  | relay
  | turn
  | ice
  deriving DecidableEq, Repr

/-- `StunMessage::GetAttributeValueType`. -/
def stunValueType (type : ℕ) : StunAttributeValueType :=
  match type with
  | 0x0001 => .address     -- STUN_ATTR_MAPPED_ADDRESS
  | 0x0006 => .byteString  -- STUN_ATTR_USERNAME
  | 0x0008 => .byteString  -- STUN_ATTR_MESSAGE_INTEGRITY
  | 0x0009 => .errorCode   -- STUN_ATTR_ERROR_CODE
  | 0x000a => .uint16List  -- STUN_ATTR_UNKNOWN_ATTRIBUTES
  | 0x0014 => .byteString  -- STUN_ATTR_REALM
  | 0x0015 => .byteString  -- STUN_ATTR_NONCE
  | 0x0020 => .xorAddress  -- STUN_ATTR_XOR_MAPPED_ADDRESS
  | 0x8022 => .byteString  -- STUN_ATTR_SOFTWARE
  | 0x8023 => .byteString  -- STUN_ATTR_ALTERNATE_SERVER
  | 0x8028 => .uint32      -- STUN_ATTR_FINGERPRINT
  | 0xFF00 => .uint32      -- STUN_ATTR_RETRANSMIT_COUNT
  | _ => .unknown

/-- `RelayMessage::GetAttributeValueType`. -/
def relayValueType (type : ℕ) : StunAttributeValueType :=
  match type with
  | 0x000d => .uint32      -- STUN_ATTR_LIFETIME
  | 0x000f => .byteString  -- STUN_ATTR_MAGIC_COOKIE
  | 0x0010 => .uint32      -- STUN_ATTR_BANDWIDTH
  | 0x0011 => .address     -- STUN_ATTR_DESTINATION_ADDRESS
  | 0x0012 => .address     -- STUN_ATTR_SOURCE_ADDRESS2
  | 0x0013 => .byteString  -- STUN_ATTR_DATA
  | 0x8001 => .uint32      -- STUN_ATTR_OPTIONS
  | _ => stunValueType type

/-- `TurnMessage::GetAttributeValueType`. -/
def turnValueType (type : ℕ) : StunAttributeValueType :=
  match type with
  | 0x000C => .uint32      -- STUN_ATTR_CHANNEL_NUMBER
  | 0x000d => .uint32      -- STUN_ATTR_TURN_LIFETIME
  | 0x0012 => .xorAddress  -- STUN_ATTR_XOR_PEER_ADDRESS
  | 0x0013 => .byteString  -- STUN_ATTR_DATA
  | 0x0016 => .xorAddress  -- STUN_ATTR_XOR_RELAYED_ADDRESS
  | 0x0018 => .byteString  -- STUN_ATTR_EVEN_PORT
  | 0x0019 => .uint32      -- STUN_ATTR_REQUESTED_TRANSPORT
  | 0x001A => .byteString  -- STUN_ATTR_DONT_FRAGMENT
  | 0x0022 => .byteString  -- STUN_ATTR_RESERVATION_TOKEN
  | _ => stunValueType type

/-- `IceMessage::GetAttributeValueType`. -/
def iceValueType (type : ℕ) : StunAttributeValueType :=
  match type with
  | 0x0024 => .uint32      -- STUN_ATTR_PRIORITY
  | 0x0025 => .byteString  -- STUN_ATTR_USE_CANDIDATE
  | 0x8029 => .uint64      -- STUN_ATTR_ICE_CONTROLLED
  | 0x802A => .uint64      -- STUN_ATTR_ICE_CONTROLLING
  | _ => stunValueType type

/-- `virtual GetAttributeValueType`. -/
def getAttributeValueType (cls : MessageClass) (type : UInt16) :
    StunAttributeValueType :=
  match cls with
  | .stun => stunValueType type.toNat
  | .relay => relayValueType type.toNat
  | .turn => turnValueType type.toNat
  | .ice => iceValueType type.toNat

structure StunMessage where
  type : UInt16
  length : UInt16
  transactionId : List UInt8
  attrs : List StunAttribute
  deriving DecidableEq

namespace StunMessage

/-- The default constructor, with sixteen `'0'` characters as the id. -/
def new : StunMessage :=
  ⟨0, 0, List.replicate 16 0x30, []⟩

def isLegacy (msg : StunMessage) : Bool :=
  msg.transactionId.length == kStunLegacyTransactionIdLength

def isValidTransactionId (transactionId : List UInt8) : Bool :=
  transactionId.length == kStunTransactionIdLength ||
    transactionId.length == kStunLegacyTransactionIdLength

def setType (type : ℤ) (msg : StunMessage) : StunMessage :=
  { msg with type := UInt16.ofInt type }

/-- `SetTransactionID`, which ignores ids of other lengths. -/
def setTransactionID (str : List UInt8) (msg : StunMessage) : StunMessage :=
  if isValidTransactionId str then { msg with transactionId := str }
  else msg

/-- `AddAttribute`, which ignores attributes of the wrong value type. -/
def addAttribute (cls : MessageClass) (attr : StunAttribute)
    (msg : StunMessage) : StunMessage :=
  if attr.valueType ≠ getAttributeValueType cls attr.type then msg
  else
    let attrLength := attr.length.toNat
    let attrLength :=
      if attrLength % 4 ≠ 0 then attrLength + (4 - attrLength % 4)
      else attrLength
    { msg with
      attrs := msg.attrs ++ [attr.setOwner]
      length := msg.length + UInt16.ofNat (attrLength + 4) }

/-! ## Reading -/

/-- One round of the attribute loop of `Read`: the attribute, or `none` for
a skipped one, and the rest of the buffer. -/
def readAttribute (cls : MessageClass) (transactionId : List UInt8)
    (buf : ByteBuffer) : Option (Option StunAttribute × ByteBuffer) := do
  let (attrType, buf) ← buf.readUInt16
  let (attrLength, buf) ← buf.readUInt16
  match StunAttribute.create (getAttributeValueType cls attrType) attrType
      attrLength with
  | none =>
    -- The sum is taken in `uint16`.
    let attrLength :=
      if attrLength % 4 ≠ 0 then attrLength + (4 - attrLength % 4)
      else attrLength
    let buf ← buf.consume attrLength.toNat
    some (none, buf)
  | some attr => do
      let (attr, buf) ← attr.read transactionId buf
      some (some attr, buf)

/-- The attribute loop of `Read`, for at most `fuel` rounds. -/
def readAttributes (cls : MessageClass) (transactionId : List UInt8) :
    ℕ → ByteBuffer → Option (List StunAttribute)
  | 0, buf => if buf.length > 0 then none else some []
  | fuel + 1, buf =>
    if buf.length > 0 then do
      let (attr, buf) ← readAttribute cls transactionId buf
      let attrs ← readAttributes cls transactionId fuel buf
      some (attr.toList ++ attrs)
    else some []

/-- `StunMessage::Read`.  Every round of the loop consumes at least a header,
so the length of the buffer is enough fuel (`readAttributes_fuel`). -/
def read (cls : MessageClass) (buf : ByteBuffer) : Option StunMessage := do
  let (type, buf) ← buf.readUInt16
  if type &&& 0x8000 ≠ 0 then none
  else
    let (length, buf) ← buf.readUInt16
    let (magicCookie, buf) ← buf.readBytes kStunMagicCookieLength
    let (transactionId, buf) ← buf.readBytes kStunTransactionIdLength
    let transactionId :=
      if UInt32.ofNat (ofBE magicCookie) ≠ kStunMagicCookie then
        magicCookie ++ transactionId
      else transactionId
    if length.toNat ≠ buf.length then none
    else
      let attrs ← readAttributes cls transactionId buf.length buf
      some ⟨type, length, transactionId, attrs⟩

/-- The attribute loop of `Write`. -/
def writeAttributes (transactionId : List UInt8) :
    List StunAttribute → Option (List UInt8)
  | [] => some []
  | attr :: attrs => do
      let body ← attr.write transactionId
      let rest ← writeAttributes transactionId attrs
      some (writeUInt16 attr.type ++ writeUInt16 attr.length ++ body ++ rest)

/-- `StunMessage::Write` into an empty buffer. -/
def write (msg : StunMessage) : Option (List UInt8) := do
  let body ← writeAttributes msg.transactionId msg.attrs
  some (writeUInt16 msg.type ++ writeUInt16 msg.length ++
    (if msg.isLegacy then [] else magicCookieBytes) ++ msg.transactionId ++
    body)

variable {cls : MessageClass} {buf : ByteBuffer} {msg : StunMessage}

/-- The four bytes after the length are recognised as the cookie exactly when
they are its network-order bytes. -/
theorem ofBE_eq_kStunMagicCookie_iff {bs : List UInt8}
    (h : bs.length = kStunMagicCookieLength) :
    UInt32.ofNat (ofBE bs) = kStunMagicCookie ↔ bs = magicCookieBytes := by
  constructor
  · intro heq
    rw [magicCookieBytes, ← heq, writeUInt32_ofNat_ofBE h]
  · rintro rfl
    rw [magicCookieBytes, writeUInt32, ofBE_toBE]
    rfl

/-- The transaction id that `Read` stores for the eight header bytes after
the length and the twelve after them. -/
def readTransactionId (magicCookie transactionId : List UInt8) :
    List UInt8 :=
  if magicCookie = magicCookieBytes then transactionId
  else magicCookie ++ transactionId

theorem ite_ofBE_eq_readTransactionId {magicCookie : List UInt8}
    (h : magicCookie.length = kStunMagicCookieLength)
    (transactionId : List UInt8) :
    (if UInt32.ofNat (ofBE magicCookie) ≠ kStunMagicCookie then
        magicCookie ++ transactionId
      else transactionId) =
      readTransactionId magicCookie transactionId := by
  unfold readTransactionId
  by_cases hc : magicCookie = magicCookieBytes
  · rw [if_neg (not_not.mpr ((ofBE_eq_kStunMagicCookie_iff h).mpr hc)),
      if_pos hc]
  · rw [if_pos (mt (ofBE_eq_kStunMagicCookie_iff h).mp hc), if_neg hc]

/-- `Read` as a split of the buffer into header fields and attributes. -/
theorem read_eq_some_iff :
    read cls buf = some msg ↔
      ∃ magicCookie transactionId body,
        buf = writeUInt16 msg.type ++ writeUInt16 msg.length ++
          magicCookie ++ transactionId ++ body ∧
        magicCookie.length = kStunMagicCookieLength ∧
        transactionId.length = kStunTransactionIdLength ∧
        msg.type &&& 0x8000 = 0 ∧
        msg.transactionId = readTransactionId magicCookie transactionId ∧
        msg.length.toNat = body.length ∧
        readAttributes cls msg.transactionId body.length body =
          some msg.attrs := by
  simp only [read, Option.bind_eq_bind, Option.bind_eq_some_iff,
    Prod.exists, readUInt16_eq_some_iff, readBytes_eq_some_iff,
    Option.ite_none_left_eq_some]
  constructor
  · rintro ⟨type, _, rfl, htype, length, _, rfl, magicCookie, _,
      ⟨rfl, hcookie⟩, transactionId, body, ⟨rfl, hid⟩, hlength, attrs,
      hattrs, hmsg⟩
    rw [ite_ofBE_eq_readTransactionId hcookie] at hattrs hmsg
    obtain rfl := Option.some.inj hmsg
    exact ⟨magicCookie, transactionId, body, by simp, hcookie, hid,
      not_not.mp htype, rfl, not_not.mp hlength, hattrs⟩
  · rintro ⟨magicCookie, transactionId, body, rfl, hcookie, hid, htype,
      htid, hlength, hattrs⟩
    refine ⟨msg.type, _, by simp only [List.append_assoc], not_not.mpr htype,
      msg.length, _, rfl, magicCookie, _, ⟨rfl, hcookie⟩, transactionId,
      body, ⟨rfl, hid⟩, not_not.mpr hlength, msg.attrs, ?_, ?_⟩
    · rw [ite_ofBE_eq_readTransactionId hcookie, ← htid]
      exact hattrs
    · rw [ite_ofBE_eq_readTransactionId hcookie, ← htid]

end StunMessage

end WebrtcWinXp.Stun
