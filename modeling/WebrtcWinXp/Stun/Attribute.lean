import WebrtcWinXp.Stun.ByteBuffer

/-!
# STUN attributes

The attribute classes of `p2p/base/stun.h`: their fields, constructors,
setters, and their `Read` and `Write` functions.  Every attribute stores its
own 16-bit `length_`, which is set by a constructor or setter and is not
computed from the value.
-/

namespace WebrtcWinXp.Stun

open Support ByteBuffer

/-- `STUN_VALUE_*`. -/
inductive StunAttributeValueType where
  | unknown
  | address
  | xorAddress
  | uint32
  | uint64
  | byteString
  | errorCode
  | uint16List
  deriving DecidableEq, Repr

/-- `rtc::IPAddress`, with the address bytes in network order. -/
inductive IPAddress where
  | unspec
  | v4 (addr : Octets 4)
  | v6 (addr : Octets 16)
  deriving DecidableEq

/-- The part of `rtc::SocketAddress` that a STUN attribute reads and writes. -/
structure SocketAddress where
  ip : IPAddress
  port : UInt16
  deriving DecidableEq

/-- The fields that the attribute classes add to `StunAttribute`.  The owner
of an XOR-address attribute is the message it was added to, or missing. -/
inductive StunAttributeValue where
  | address (addr : SocketAddress)
  | xorAddress (addr : SocketAddress) (owner : Bool)
  | uint32 (bits : UInt32)
  | uint64 (bits : UInt64)
  | byteString (bytes : List UInt8)
  | errorCode (eclass number : UInt8) (reason : List UInt8)
  | uint16List (attrTypes : List UInt16)
  deriving DecidableEq

structure StunAttribute where
  type : UInt16
  length : UInt16
  value : StunAttributeValue
  deriving DecidableEq

def kStunMagicCookie : UInt32 := 0x2112A442

def kStunMagicCookieLength : ℕ := 4

def kStunTransactionIdLength : ℕ := 12

def kStunLegacyTransactionIdLength : ℕ := 16

def kStunHeaderSize : ℕ := 20

def kStunAttributeHeaderSize : ℕ := 4

/-- `StunAddressAttribute::SIZE_*`. -/
def SIZE_UNDEF : UInt16 := 0
def SIZE_IP4 : UInt16 := 8
def SIZE_IP6 : UInt16 := 20

/-- `StunErrorCodeAttribute::MIN_SIZE`. -/
def MIN_SIZE : UInt16 := 4

/-- The magic cookie as its bytes in network order. -/
def magicCookieBytes : List UInt8 := writeUInt32 kStunMagicCookie

@[simp] theorem magicCookieBytes_length : magicCookieBytes.length = 4 :=
  writeUInt32_length _

/-! ## Constructors and setters -/

def StunAttributeValue.valueType :
    StunAttributeValue → StunAttributeValueType
  | .address _ => .address
  | .xorAddress _ _ => .xorAddress
  | .uint32 _ => .uint32
  | .uint64 _ => .uint64
  | .byteString _ => .byteString
  | .errorCode _ _ _ => .errorCode
  | .uint16List _ => .uint16List

/-- `StunAddressAttribute::family`, as the `STUN_ADDRESS_*` code. -/
def IPAddress.stunFamily : IPAddress → UInt8
  | .unspec => 0
  | .v4 _ => 1
  | .v6 _ => 2

/-- The bytes of `in_addr` or `in6_addr`. -/
def IPAddress.bytes : IPAddress → List UInt8
  | .unspec => []
  | .v4 addr => addr.1
  | .v6 addr => addr.1

/-- The length that `EnsureAddressLength` stores. -/
def IPAddress.attributeLength : IPAddress → UInt16
  | .v4 _ => SIZE_IP4
  | .v6 _ => SIZE_IP6
  | .unspec => SIZE_UNDEF

namespace StunAttribute

/-- `virtual value_type()`. -/
def valueType (attr : StunAttribute) : StunAttributeValueType :=
  attr.value.valueType

/-- `StunAddressAttribute(type, addr)`. -/
def newAddress (type : UInt16) (addr : SocketAddress) : StunAttribute :=
  ⟨type, addr.ip.attributeLength, .address addr⟩

/-- `StunXorAddressAttribute(type, addr)`. -/
def newXorAddress (type : UInt16) (addr : SocketAddress) : StunAttribute :=
  ⟨type, addr.ip.attributeLength, .xorAddress addr false⟩

/-- `StunUInt32Attribute(type, value)`. -/
def newUInt32 (type : UInt16) (value : UInt32) : StunAttribute :=
  ⟨type, 4, .uint32 value⟩

/-- `StunUInt64Attribute(type, value)`. -/
def newUInt64 (type : UInt16) (value : UInt64) : StunAttribute :=
  ⟨type, 8, .uint64 value⟩

/-- `StunByteStringAttribute(type, bytes, length)`. -/
def newByteString (type : UInt16) (bytes : List UInt8) : StunAttribute :=
  ⟨type, UInt16.ofNat bytes.length, .byteString bytes⟩

/-- `StunErrorCodeAttribute(type, code, reason)`. -/
def newErrorCode (type : UInt16) (code : ℤ) (reason : List UInt8) :
    StunAttribute :=
  ⟨type, MIN_SIZE + UInt16.ofNat reason.length,
    .errorCode (UInt8.ofInt (code.tdiv 100)) (UInt8.ofInt (code.tmod 100))
      reason⟩

/-- `StunUInt16ListAttribute(type, 0)`. -/
def newUInt16List (type : UInt16) : StunAttribute :=
  ⟨type, 0, .uint16List []⟩

def setAddress (addr : SocketAddress) : StunAttribute → StunAttribute
  | ⟨type, _, .address _⟩ => ⟨type, addr.ip.attributeLength, .address addr⟩
  | ⟨type, _, .xorAddress _ owner⟩ =>
    ⟨type, addr.ip.attributeLength, .xorAddress addr owner⟩
  | attr => attr

/-- `SetValue` of the two integer attributes. -/
def setUInt32 (bits : UInt32) : StunAttribute → StunAttribute
  | ⟨type, length, .uint32 _⟩ => ⟨type, length, .uint32 bits⟩
  | attr => attr

def setUInt64 (bits : UInt64) : StunAttribute → StunAttribute
  | ⟨type, length, .uint64 _⟩ => ⟨type, length, .uint64 bits⟩
  | attr => attr

def copyBytes (bytes : List UInt8) : StunAttribute → StunAttribute
  | ⟨type, _, .byteString _⟩ =>
    ⟨type, UInt16.ofNat bytes.length, .byteString bytes⟩
  | attr => attr

def setClass (eclass : UInt8) : StunAttribute → StunAttribute
  | ⟨type, length, .errorCode _ number reason⟩ =>
    ⟨type, length, .errorCode eclass number reason⟩
  | attr => attr

def setNumber (number : UInt8) : StunAttribute → StunAttribute
  | ⟨type, length, .errorCode eclass _ reason⟩ =>
    ⟨type, length, .errorCode eclass number reason⟩
  | attr => attr

def setReason (reason : List UInt8) : StunAttribute → StunAttribute
  | ⟨type, _, .errorCode eclass number _⟩ =>
    ⟨type, MIN_SIZE + UInt16.ofNat reason.length,
      .errorCode eclass number reason⟩
  | attr => attr

/-- `AddType`, which recomputes the length from the new list. -/
def addType (value : UInt16) : StunAttribute → StunAttribute
  | ⟨type, _, .uint16List attrTypes⟩ =>
    ⟨type, UInt16.ofNat ((attrTypes ++ [value]).length * 2),
      .uint16List (attrTypes ++ [value])⟩
  | attr => attr

/-- `SetOwner`, which only XOR-address attributes override. -/
def setOwner : StunAttribute → StunAttribute
  | ⟨type, length, .xorAddress addr _⟩ =>
    ⟨type, length, .xorAddress addr true⟩
  | attr => attr

/-- `StunAttribute::Create`: an empty attribute to read into.  The integer
attributes ignore the declared length. -/
def create (valueType : StunAttributeValueType) (type length : UInt16) :
    Option StunAttribute :=
  match valueType with
  | .unknown => none
  | .address => some ⟨type, length, .address ⟨.unspec, 0⟩⟩
  | .xorAddress => some ⟨type, length, .xorAddress ⟨.unspec, 0⟩ true⟩
  | .uint32 => some ⟨type, 4, .uint32 0⟩
  | .uint64 => some ⟨type, 8, .uint64 0⟩
  | .byteString => some ⟨type, length, .byteString []⟩
  | .errorCode => some ⟨type, length, .errorCode 0 0 []⟩
  | .uint16List => some ⟨type, length, .uint16List []⟩

end StunAttribute

/-- The bytes that pad a value of `length` bytes to a multiple of four. -/
def paddingLength (length : ℕ) : ℕ :=
  if length % 4 > 0 then 4 - length % 4 else 0

theorem paddingLength_eq_zero_iff {length : ℕ} :
    paddingLength length = 0 ↔ length % 4 = 0 := by
  unfold paddingLength
  split <;> omega

theorem paddingLength_attributeLength (ip : IPAddress) :
    paddingLength ip.attributeLength.toNat = 0 := by
  cases ip <;>
    simp [IPAddress.attributeLength, SIZE_UNDEF, SIZE_IP4, SIZE_IP6,
      paddingLength]

/-- `ConsumePadding`, which ignores the result of `Consume`. -/
def consumePadding (length : UInt16) (buf : ByteBuffer) : ByteBuffer :=
  if length.toNat % 4 > 0 then
    (buf.consume (4 - length.toNat % 4)).getD buf
  else buf

def writePadding (length : UInt16) : List UInt8 :=
  if length.toNat % 4 > 0 then List.replicate (4 - length.toNat % 4) 0
  else []

@[simp] theorem writePadding_length (length : UInt16) :
    (writePadding length).length = paddingLength length.toNat := by
  unfold writePadding paddingLength
  split <;> simp

theorem consumePadding_append {length : UInt16} {padding : List UInt8}
    (h : padding.length = paddingLength length.toNat) (rest : ByteBuffer) :
    consumePadding length (padding ++ rest) = rest := by
  unfold paddingLength at h
  unfold consumePadding
  split at h
  · rename_i hrem
    rw [if_pos hrem, ← h]
    simp [consume]
  · rename_i hrem
    rw [if_neg hrem, List.length_eq_zero_iff.mp h, List.nil_append]

/-! ## Reading -/

/-- `StunAddressAttribute::Read` for an attribute of the declared length. -/
def readAddress (length : UInt16) (buf : ByteBuffer) :
    Option (SocketAddress × ByteBuffer) := do
  let (_, buf) ← buf.readUInt8
  let (family, buf) ← buf.readUInt8
  let (port, buf) ← buf.readUInt16
  if family = 1 then
    if length ≠ SIZE_IP4 then none
    else
      let (v4addr, buf) ← buf.readOctets 4
      some (⟨.v4 v4addr, port⟩, buf)
  else if family = 2 then
    if length ≠ SIZE_IP6 then none
    else
      let (v6addr, buf) ← buf.readOctets 16
      some (⟨.v6 v6addr, port⟩, buf)
  else none

/-- `GetXoredIP`, given the transaction id of the owner. -/
def getXoredIP (transactionId : List UInt8) (owner : Bool) (ip : IPAddress) :
    IPAddress :=
  if owner then
    match ip with
    | .v4 addr => .v4 (addr.xor ⟨magicCookieBytes, by simp⟩)
    | .v6 addr =>
      if h : transactionId.length = kStunTransactionIdLength then
        .v6 (addr.xor ⟨magicCookieBytes ++ transactionId, by
          simp [h, kStunTransactionIdLength]⟩)
      else .unspec
    | .unspec => .unspec
  else .unspec

def xoredPort (port : UInt16) : UInt16 :=
  port ^^^ (kStunMagicCookie >>> 16).toUInt16

/-- The loop of `StunUInt16ListAttribute::Read`. -/
def readTypes : ℕ → ByteBuffer → Option (List UInt16 × ByteBuffer)
  | 0, buf => some ([], buf)
  | n + 1, buf => do
      let (attr, buf) ← buf.readUInt16
      let (attrs, buf) ← readTypes n buf
      some (attr :: attrs, buf)

theorem flatMap_writeUInt16_length (attrTypes : List UInt16) :
    (attrTypes.flatMap writeUInt16).length = attrTypes.length * 2 := by
  induction attrTypes with
  | nil => rfl
  | cons attr attrs ih =>
    simp [ih]
    omega

/-- `virtual Read` of an attribute made by `create`.  The transaction id is
that of the message being read, which owns the attribute. -/
def StunAttribute.read (transactionId : List UInt8) (attr : StunAttribute)
    (buf : ByteBuffer) : Option (StunAttribute × ByteBuffer) :=
  match attr.value with
  | .address _ => do
      let (addr, buf) ← readAddress attr.length buf
      some (attr.setAddress addr, buf)
  | .xorAddress _ owner => do
      let (addr, buf) ← readAddress attr.length buf
      let ip := getXoredIP transactionId owner addr.ip
      some (attr.setAddress ⟨ip, xoredPort addr.port⟩, buf)
  | .uint32 _ =>
    if attr.length ≠ 4 then none
    else do
      let (bits, buf) ← buf.readUInt32
      some (attr.setUInt32 bits, buf)
  | .uint64 _ =>
    if attr.length ≠ 8 then none
    else do
      let (bits, buf) ← buf.readUInt64
      some (attr.setUInt64 bits, buf)
  | .byteString _ => do
      let (bytes, buf) ← buf.readBytes attr.length.toNat
      some ({ attr with value := .byteString bytes },
        consumePadding attr.length buf)
  | .errorCode _ _ _ =>
    if attr.length < MIN_SIZE then none
    else do
      let (val, buf) ← buf.readUInt32
      let eclass := ((val >>> 8) &&& 0x7).toUInt8
      let number := (val &&& 0xff).toUInt8
      let (reason, buf) ← buf.readBytes (attr.length.toNat - 4)
      some ({ attr with value := .errorCode eclass number reason },
        consumePadding attr.length buf)
  | .uint16List _ =>
    if attr.length % 2 ≠ 0 then none
    else do
      let (attrTypes, buf) ← readTypes (attr.length.toNat / 2) buf
      some ({ attr with value := .uint16List attrTypes },
        consumePadding attr.length buf)

/-- `StunAddressAttribute::Write`. -/
def writeAddress (addr : SocketAddress) : Option (List UInt8) :=
  if addr.ip.stunFamily = 0 then none
  else
    some (writeUInt8 0 ++ writeUInt8 addr.ip.stunFamily ++
      writeUInt16 addr.port ++ addr.ip.bytes)

/-- `StunXorAddressAttribute::Write`. -/
def writeXorAddress (transactionId : List UInt8) (owner : Bool)
    (addr : SocketAddress) : Option (List UInt8) :=
  if addr.ip.stunFamily = 0 then none
  else
    let xoredIP := getXoredIP transactionId owner addr.ip
    if xoredIP = .unspec then none
    else
      some (writeUInt8 0 ++ writeUInt8 addr.ip.stunFamily ++
        writeUInt16 (xoredPort addr.port) ++ xoredIP.bytes)

/-- `virtual Write`: the value and its padding. -/
def StunAttribute.write (transactionId : List UInt8) (attr : StunAttribute) :
    Option (List UInt8) :=
  match attr.value with
  | .address addr => writeAddress addr
  | .xorAddress addr owner => writeXorAddress transactionId owner addr
  | .uint32 bits => some (writeUInt32 bits)
  | .uint64 bits => some (writeUInt64 bits)
  | .byteString bytes =>
    some (bytes.take attr.length.toNat ++ writePadding attr.length)
  | .errorCode eclass number reason =>
    some (writeUInt32 (eclass.toUInt32 <<< 8 ||| number.toUInt32) ++
      reason ++ writePadding attr.length)
  | .uint16List attrTypes =>
    some (attrTypes.flatMap writeUInt16 ++ writePadding attr.length)

end WebrtcWinXp.Stun
