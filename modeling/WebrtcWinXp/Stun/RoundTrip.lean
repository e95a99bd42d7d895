import WebrtcWinXp.Stun.Message

/-!
# Encoding and decoding STUN messages

A message assembled by the setters and `AddAttribute` is read back unchanged
from the bytes that `Write` produces for it.
-/

namespace WebrtcWinXp.Stun

open Support ByteBuffer

/-! ## Sizes -/

/-- The number of value bytes an attribute value is written to. -/
def StunAttributeValue.size : StunAttributeValue → ℕ
  | .address addr => addr.ip.attributeLength.toNat
  | .xorAddress addr _ => addr.ip.attributeLength.toNat
  | .uint32 _ => 4
  | .uint64 _ => 8
  | .byteString bytes => bytes.length
  | .errorCode _ _ reason => 4 + reason.length
  | .uint16List attrTypes => attrTypes.length * 2

namespace StunAttribute

/-- The bytes an attribute takes in a message: header, value and padding. -/
def wireSize (attr : StunAttribute) : ℕ :=
  kStunAttributeHeaderSize + attr.value.size + paddingLength attr.value.size

/-- The stored 16-bit length agrees with the value. -/
def LengthStored (attr : StunAttribute) : Prop :=
  attr.length = UInt16.ofNat attr.value.size

/-- The stored class of an error code fits the three bits it is read from. -/
def ClassFits (attr : StunAttribute) : Prop :=
  match attr.value with
  | .errorCode eclass _ _ => eclass ≤ 7
  | _ => True

/-- XOR addresses know the message they are written in. -/
def Owned (attr : StunAttribute) : Prop := attr.setOwner = attr

/-- Attributes made by a constructor that sets the value, then changed by
setters. -/
inductive Initialised : StunAttribute → Prop where
  | newAddress (type : UInt16) (addr : SocketAddress) :
      Initialised (newAddress type addr)
  | newXorAddress (type : UInt16) (addr : SocketAddress) :
      Initialised (newXorAddress type addr)
  | newUInt32 (type : UInt16) (value : UInt32) :
      Initialised (newUInt32 type value)
  | newUInt64 (type : UInt16) (value : UInt64) :
      Initialised (newUInt64 type value)
  | newByteString (type : UInt16) (bytes : List UInt8) :
      Initialised (newByteString type bytes)
  | newErrorCode (type : UInt16) (code : ℤ) (reason : List UInt8) :
      Initialised (newErrorCode type code reason)
  | newUInt16List (type : UInt16) : Initialised (newUInt16List type)
  | setAddress {attr} (addr : SocketAddress) (h : Initialised attr) :
      Initialised (attr.setAddress addr)
  | setUInt32 {attr} (bits : UInt32) (h : Initialised attr) :
      Initialised (attr.setUInt32 bits)
  | setUInt64 {attr} (bits : UInt64) (h : Initialised attr) :
      Initialised (attr.setUInt64 bits)
  | copyBytes {attr} (bytes : List UInt8) (h : Initialised attr) :
      Initialised (attr.copyBytes bytes)
  | setClass {attr} (eclass : UInt8) (h : Initialised attr) :
      Initialised (attr.setClass eclass)
  | setNumber {attr} (number : UInt8) (h : Initialised attr) :
      Initialised (attr.setNumber number)
  | setReason {attr} (reason : List UInt8) (h : Initialised attr) :
      Initialised (attr.setReason reason)
  | addType {attr} (value : UInt16) (h : Initialised attr) :
      Initialised (attr.addType value)

theorem Initialised.lengthStored {attr : StunAttribute}
    (h : Initialised attr) : attr.LengthStored := by
  induction h with
  | newAddress type addr =>
    simp [LengthStored, StunAttribute.newAddress, StunAttributeValue.size]
  | newXorAddress type addr =>
    simp [LengthStored, StunAttribute.newXorAddress,
      StunAttributeValue.size]
  | newUInt32 type value => rfl
  | newUInt64 type value => rfl
  | newByteString type bytes => rfl
  | newErrorCode type code reason =>
    simp [LengthStored, StunAttribute.newErrorCode,
      StunAttributeValue.size, MIN_SIZE]
  | newUInt16List type => rfl
  | @setAddress attr addr _ ih =>
    obtain ⟨type, length, value⟩ := attr
    cases value <;>
      simp_all [LengthStored, StunAttribute.setAddress,
        StunAttributeValue.size]
  | @setUInt32 attr bits _ ih =>
    obtain ⟨type, length, value⟩ := attr
    cases value <;>
      simp_all [LengthStored, StunAttribute.setUInt32,
        StunAttributeValue.size]
  | @setUInt64 attr bits _ ih =>
    obtain ⟨type, length, value⟩ := attr
    cases value <;>
      simp_all [LengthStored, StunAttribute.setUInt64,
        StunAttributeValue.size]
  | @copyBytes attr bytes _ ih =>
    obtain ⟨type, length, value⟩ := attr
    cases value <;>
      simp_all [LengthStored, StunAttribute.copyBytes,
        StunAttributeValue.size]
  | @setClass attr eclass _ ih =>
    obtain ⟨type, length, value⟩ := attr
    cases value <;>
      simp_all [LengthStored, StunAttribute.setClass,
        StunAttributeValue.size]
  | @setNumber attr number _ ih =>
    obtain ⟨type, length, value⟩ := attr
    cases value <;>
      simp_all [LengthStored, StunAttribute.setNumber,
        StunAttributeValue.size]
  | @setReason attr reason _ ih =>
    obtain ⟨type, length, value⟩ := attr
    cases value <;>
      simp_all [LengthStored, StunAttribute.setReason,
        StunAttributeValue.size, MIN_SIZE]
  | @addType attr value _ ih =>
    obtain ⟨type, length, value⟩ := attr
    cases value <;>
      simp_all [LengthStored, StunAttribute.addType,
        StunAttributeValue.size]

theorem setOwner_owned (attr : StunAttribute) : attr.setOwner.Owned := by
  obtain ⟨type, length, value⟩ := attr
  cases value <;> rfl

theorem setOwner_value_size (attr : StunAttribute) :
    attr.setOwner.value.size = attr.value.size := by
  obtain ⟨type, length, value⟩ := attr
  cases value <;> rfl

theorem setOwner_length (attr : StunAttribute) :
    attr.setOwner.length = attr.length := by
  obtain ⟨type, length, value⟩ := attr
  cases value <;> rfl

theorem setOwner_valueType (attr : StunAttribute) :
    attr.setOwner.valueType = attr.valueType := by
  obtain ⟨type, length, value⟩ := attr
  cases value <;> rfl

theorem setOwner_type (attr : StunAttribute) :
    attr.setOwner.type = attr.type := by
  obtain ⟨type, length, value⟩ := attr
  cases value <;> rfl

theorem wireSize_setOwner (attr : StunAttribute) :
    attr.setOwner.wireSize = attr.wireSize := by
  simp [wireSize, setOwner_value_size]

theorem LengthStored.toNat_length {attr : StunAttribute}
    (h : attr.LengthStored) (hsize : attr.wireSize ≤ 65535) :
    attr.length.toNat = attr.value.size := by
  have hlt : attr.value.size < 65536 := by
    unfold wireSize at hsize
    omega
  rw [h]
  exact UInt16.toNat_ofNat_of_lt' hlt

end StunAttribute

/-! ## Values -/

@[simp] theorem writeAddress_unspec (port : UInt16) :
    writeAddress ⟨.unspec, port⟩ = none := rfl

@[simp] theorem writeAddress_v4 (octets : Octets 4) (port : UInt16) :
    writeAddress ⟨.v4 octets, port⟩ =
      some (writeUInt8 0 ++ writeUInt8 1 ++ writeUInt16 port ++ octets.1) :=
  rfl

@[simp] theorem writeAddress_v6 (octets : Octets 16) (port : UInt16) :
    writeAddress ⟨.v6 octets, port⟩ =
      some (writeUInt8 0 ++ writeUInt8 2 ++ writeUInt16 port ++ octets.1) :=
  rfl

theorem readAddress_writeAddress {addr : SocketAddress} {bytes : List UInt8}
    (h : writeAddress addr = some bytes) (rest : ByteBuffer) :
    readAddress addr.ip.attributeLength (bytes ++ rest) =
      some (addr, rest) := by
  obtain ⟨ip, port⟩ := addr
  cases ip with
  | unspec => simp at h
  | v4 octets =>
    rw [writeAddress_v4, Option.some.injEq] at h
    subst h
    simp [readAddress, IPAddress.attributeLength]
  | v6 octets =>
    rw [writeAddress_v6, Option.some.injEq] at h
    subst h
    simp [readAddress, IPAddress.attributeLength]

theorem writeAddress_length {addr : SocketAddress} {bytes : List UInt8}
    (h : writeAddress addr = some bytes) :
    bytes.length = addr.ip.attributeLength.toNat := by
  obtain ⟨ip, port⟩ := addr
  cases ip with
  | unspec => simp at h
  | v4 octets =>
    rw [writeAddress_v4, Option.some.injEq] at h
    subst h
    simp [octets.2, IPAddress.attributeLength, SIZE_IP4]
  | v6 octets =>
    rw [writeAddress_v6, Option.some.injEq] at h
    subst h
    simp [octets.2, IPAddress.attributeLength, SIZE_IP6]

theorem xoredPort_xoredPort (port : UInt16) :
    xoredPort (xoredPort port) = port := by
  simp only [xoredPort, UInt16.xor_assoc, UInt16.xor_self, UInt16.xor_zero]

theorem getXoredIP_cases (transactionId : List UInt8) (ip : IPAddress) :
    getXoredIP transactionId true ip = .unspec ∨
      (getXoredIP transactionId true (getXoredIP transactionId true ip) = ip ∧
        (getXoredIP transactionId true ip).stunFamily = ip.stunFamily ∧
        (getXoredIP transactionId true ip).attributeLength =
          ip.attributeLength) := by
  cases ip with
  | unspec => exact .inl rfl
  | v4 addr =>
    refine .inr ⟨?_, rfl, rfl⟩
    simp [getXoredIP]
  | v6 addr =>
    by_cases h : transactionId.length = kStunTransactionIdLength
    · refine .inr ⟨?_, ?_, ?_⟩ <;>
        simp [getXoredIP, h, IPAddress.stunFamily,
          IPAddress.attributeLength]
    · exact .inl (by simp [getXoredIP, h])

theorem writeXorAddress_eq_some {transactionId bytes : List UInt8}
    {addr : SocketAddress}
    (h : writeXorAddress transactionId true addr = some bytes) :
    let ip := getXoredIP transactionId true addr.ip
    writeAddress ⟨ip, xoredPort addr.port⟩ = some bytes ∧
      getXoredIP transactionId true ip = addr.ip ∧
      ip.attributeLength = addr.ip.attributeLength := by
  unfold writeXorAddress at h
  split at h
  · cases h
  · rename_i hfamily
    dsimp only at h
    split at h
    · cases h
    · rename_i hip
      rcases getXoredIP_cases transactionId addr.ip with hun | ⟨hx, hf, hl⟩
      · exact absurd hun hip
      · refine ⟨?_, hx, hl⟩
        rw [writeAddress, if_neg (by rwa [hf]), ← h, hf]

theorem errorCode_toNat (eclass number : UInt8) :
    (eclass.toUInt32 <<< 8 ||| number.toUInt32).toNat =
      eclass.toNat * 256 + number.toNat := by
  have hclass := eclass.toNat_lt
  have hnumber := number.toNat_lt
  have hmod : eclass.toNat <<< 8 % 2 ^ 32 = eclass.toNat <<< 8 := by
    rw [Nat.shiftLeft_eq]
    omega
  simp only [UInt32.toNat_or, UInt32.toNat_shiftLeft, UInt8.toNat_toUInt32]
  rw [show UInt32.toNat 8 % 32 = 8 from rfl, hmod,
    ← Nat.shiftLeft_add_eq_or_of_lt hnumber, Nat.shiftLeft_eq]

theorem errorCode_fields {eclass : UInt8} (number : UInt8)
    (h : eclass ≤ 7) :
    ((eclass.toUInt32 <<< 8 ||| number.toUInt32) >>> 8 &&& 0x7).toUInt8 =
        eclass ∧
      ((eclass.toUInt32 <<< 8 ||| number.toUInt32) &&& 0xff).toUInt8 =
        number := by
  have hclass : eclass.toNat ≤ 7 := h
  have hnumber := number.toNat_lt
  constructor
  · apply UInt8.toNat_inj.mp
    simp only [UInt32.toNat_toUInt8, UInt32.toNat_and,
      UInt32.toNat_shiftRight, errorCode_toNat]
    rw [show UInt32.toNat 7 = 2 ^ 3 - 1 from rfl,
      Nat.and_two_pow_sub_one_eq_mod, show UInt32.toNat 8 % 32 = 8 from rfl,
      Nat.shiftRight_eq_div_pow]
    omega
  · apply UInt8.toNat_inj.mp
    simp only [UInt32.toNat_toUInt8, UInt32.toNat_and, errorCode_toNat]
    rw [show UInt32.toNat 255 = 2 ^ 8 - 1 from rfl,
      Nat.and_two_pow_sub_one_eq_mod]
    omega

theorem readTypes_append (attrTypes : List UInt16) (rest : ByteBuffer) :
    readTypes attrTypes.length (attrTypes.flatMap writeUInt16 ++ rest) =
      some (attrTypes, rest) := by
  induction attrTypes with
  | nil => rfl
  | cons attr attrs ih => simp [readTypes, ih]

namespace StunAttribute

theorem Owned.owner_eq_true {type length : UInt16} {addr : SocketAddress}
    {owner : Bool}
    (h : Owned ⟨type, length, .xorAddress addr owner⟩) : owner = true := by
  simpa [Owned, setOwner, eq_comm] using h

variable {attr : StunAttribute} {transactionId body : List UInt8}

theorem write_length (hlength : attr.LengthStored) (howned : attr.Owned)
    (hsize : attr.wireSize ≤ 65535)
    (h : attr.write transactionId = some body) :
    kStunAttributeHeaderSize + body.length = attr.wireSize := by
  have hnat := hlength.toNat_length hsize
  obtain ⟨type, length, value⟩ := attr
  cases value with
  | address addr =>
    have hbody := writeAddress_length h
    simp [wireSize, StunAttributeValue.size, hbody,
      paddingLength_attributeLength]
  | xorAddress addr owner =>
    obtain rfl := howned.owner_eq_true
    obtain ⟨hw, _, hl⟩ := writeXorAddress_eq_some h
    have hbody := writeAddress_length hw
    simp [wireSize, StunAttributeValue.size, hbody, hl,
      paddingLength_attributeLength]
  | uint32 bits =>
    obtain rfl := Option.some.inj h
    simp [wireSize, StunAttributeValue.size, paddingLength]
  | uint64 bits =>
    obtain rfl := Option.some.inj h
    simp [wireSize, StunAttributeValue.size, paddingLength]
  | byteString bytes =>
    obtain rfl := Option.some.inj h
    simp only [StunAttributeValue.size] at hnat
    simp [wireSize, StunAttributeValue.size, hnat, Nat.add_assoc]
  | errorCode eclass number reason =>
    obtain rfl := Option.some.inj h
    simp only [StunAttributeValue.size] at hnat
    simp [wireSize, StunAttributeValue.size, hnat, Nat.add_assoc]
  | uint16List attrTypes =>
    obtain rfl := Option.some.inj h
    simp only [StunAttributeValue.size] at hnat
    simp only [wireSize, StunAttributeValue.size, List.length_append,
      flatMap_writeUInt16_length, writePadding_length, hnat, Nat.add_assoc]

theorem read_write_append (hlength : attr.LengthStored)
    (howned : attr.Owned) (hclass : attr.ClassFits)
    (hsize : attr.wireSize ≤ 65535)
    (h : attr.write transactionId = some body) (rest : ByteBuffer) :
    ∃ blank, create attr.valueType attr.type attr.length = some blank ∧
      blank.read transactionId (body ++ rest) = some (attr, rest) := by
  have hnat := hlength.toNat_length hsize
  obtain ⟨type, length, value⟩ := attr
  cases value with
  | address addr =>
    obtain rfl : length = addr.ip.attributeLength := by
      simpa [LengthStored, StunAttributeValue.size] using hlength
    refine ⟨_, rfl, ?_⟩
    simp [StunAttribute.read, readAddress_writeAddress h, setAddress]
  | xorAddress addr owner =>
    obtain rfl : length = addr.ip.attributeLength := by
      simpa [LengthStored, StunAttributeValue.size] using hlength
    obtain rfl := howned.owner_eq_true
    obtain ⟨hw, hip, hl⟩ := writeXorAddress_eq_some h
    have hread := readAddress_writeAddress hw rest
    rw [hl] at hread
    refine ⟨_, rfl, ?_⟩
    simp [StunAttribute.read, hread, setAddress, hip, xoredPort_xoredPort]
  | uint32 bits =>
    obtain rfl := Option.some.inj h
    obtain rfl : length = 4 := hlength
    refine ⟨_, rfl, ?_⟩
    simp [StunAttribute.read, setUInt32]
  | uint64 bits =>
    obtain rfl := Option.some.inj h
    obtain rfl : length = 8 := hlength
    refine ⟨_, rfl, ?_⟩
    simp [StunAttribute.read, setUInt64]
  | byteString bytes =>
    obtain rfl := Option.some.inj h
    simp only [StunAttributeValue.size] at hnat
    refine ⟨_, rfl, ?_⟩
    simp [StunAttribute.read, hnat, consumePadding_append]
  | errorCode eclass number reason =>
    obtain rfl := Option.some.inj h
    simp only [StunAttributeValue.size] at hnat
    have hmin : ¬length < MIN_SIZE := by
      rw [UInt16.lt_iff_toNat_lt, hnat]
      simp [MIN_SIZE]
    refine ⟨_, rfl, ?_⟩
    simpa [StunAttribute.read, hmin, hnat, consumePadding_append] using
      errorCode_fields number hclass
  | uint16List attrTypes =>
    obtain rfl := Option.some.inj h
    simp only [StunAttributeValue.size] at hnat
    have heven : length % 2 = 0 := by
      apply UInt16.toNat_inj.mp
      simp [hnat]
    refine ⟨_, rfl, ?_⟩
    simp [StunAttribute.read, heven, hnat, readTypes_append,
      consumePadding_append]

end StunAttribute

namespace StunMessage

/-- A call on a message that is being assembled. -/
inductive BuildCall where
  | setType (type : ℤ)
  | setTransactionID (str : List UInt8)
  | addAttribute (attr : StunAttribute)

def BuildCall.apply (cls : MessageClass) :
    BuildCall → StunMessage → StunMessage
  | .setType type => StunMessage.setType type
  | .setTransactionID str => StunMessage.setTransactionID str
  | .addAttribute attr => StunMessage.addAttribute cls attr

/-- The message after a sequence of calls on a new one. -/
def build (cls : MessageClass) (calls : List BuildCall) : StunMessage :=
  calls.foldl (fun msg call => call.apply cls msg) new

def bodySize (msg : StunMessage) : ℕ :=
  (msg.attrs.map StunAttribute.wireSize).sum

/-- What holds of every message assembled from initialised attributes.  The
running length is the size of the body modulo `2 ^ 16`. -/
structure WellBuilt (cls : MessageClass) (msg : StunMessage) : Prop where
  lengthStored : ∀ attr ∈ msg.attrs, attr.LengthStored
  owned : ∀ attr ∈ msg.attrs, attr.Owned
  known : ∀ attr ∈ msg.attrs,
    attr.valueType = getAttributeValueType cls attr.type
  validId : isValidTransactionId msg.transactionId
  length_eq : msg.length = UInt16.ofNat msg.bodySize

variable {cls : MessageClass} {msg : StunMessage}

theorem wellBuilt_new : WellBuilt cls new where
  lengthStored := by simp [new]
  owned := by simp [new]
  known := by simp [new]
  validId := rfl
  length_eq := rfl

theorem WellBuilt.setType (h : WellBuilt cls msg) (type : ℤ) :
    WellBuilt cls (msg.setType type) :=
  ⟨h.lengthStored, h.owned, h.known, h.validId, h.length_eq⟩

theorem WellBuilt.setTransactionID (h : WellBuilt cls msg)
    (str : List UInt8) : WellBuilt cls (msg.setTransactionID str) := by
  unfold StunMessage.setTransactionID
  split
  · rename_i hvalid
    exact ⟨h.lengthStored, h.owned, h.known, hvalid, h.length_eq⟩
  · exact h

/-- The padded length added by `AddAttribute` is the wire size, in 16 bits. -/
theorem addAttribute_length_step {attr : StunAttribute}
    (h : attr.LengthStored) :
    UInt16.ofNat
        ((if attr.length.toNat % 4 ≠ 0 then
            attr.length.toNat + (4 - attr.length.toNat % 4)
          else attr.length.toNat) + 4) =
      UInt16.ofNat attr.wireSize := by
  have hnat : attr.length.toNat = attr.value.size % 65536 := by
    rw [h]
    simp
  have hmod : attr.value.size % 65536 % 4 = attr.value.size % 4 := by omega
  apply UInt16.toNat_inj.mp
  simp only [UInt16.toNat_ofNat', StunAttribute.wireSize,
    kStunAttributeHeaderSize, paddingLength, hnat, hmod]
  split <;> split <;> omega

theorem WellBuilt.addAttribute (h : WellBuilt cls msg)
    {attr : StunAttribute} (hattr : attr.LengthStored) :
    WellBuilt cls (msg.addAttribute cls attr) := by
  unfold StunMessage.addAttribute
  split
  · exact h
  · rename_i hknown
    have hmem : ∀ a, a ∈ msg.attrs ++ [attr.setOwner] →
        a ∈ msg.attrs ∨ a = attr.setOwner := by
      simp
    refine ⟨fun a ha => ?_, fun a ha => ?_, fun a ha => ?_, h.validId, ?_⟩
    · rcases hmem a ha with ha | rfl
      · exact h.lengthStored a ha
      · rw [StunAttribute.LengthStored, StunAttribute.setOwner_length,
          StunAttribute.setOwner_value_size]
        exact hattr
    · rcases hmem a ha with ha | rfl
      · exact h.owned a ha
      · exact attr.setOwner_owned
    · rcases hmem a ha with ha | rfl
      · exact h.known a ha
      · rw [StunAttribute.setOwner_valueType, StunAttribute.setOwner_type]
        exact not_not.mp hknown
    · dsimp only
      rw [addAttribute_length_step hattr, h.length_eq, ← UInt16.ofNat_add]
      simp [bodySize, StunAttribute.wireSize_setOwner]

theorem wellBuilt_build {calls : List BuildCall}
    (hinit : ∀ attr, BuildCall.addAttribute attr ∈ calls →
      attr.Initialised) : WellBuilt cls (build cls calls) := by
  induction calls using List.reverseRecOn with
  | nil => exact wellBuilt_new
  | append_singleton calls call ih =>
    have hprev : WellBuilt cls (build cls calls) :=
      ih fun attr hmem => hinit attr (by simp [hmem])
    rw [build, List.foldl_append]
    cases call with
    | setType type => exact hprev.setType type
    | setTransactionID str => exact hprev.setTransactionID str
    | addAttribute attr =>
      exact hprev.addAttribute (hinit attr (by simp)).lengthStored

/-! ## The attribute loops -/

variable {transactionId : List UInt8}

theorem readAttribute_write {attr : StunAttribute} {body : List UInt8}
    (hlength : attr.LengthStored) (howned : attr.Owned)
    (hknown : attr.valueType = getAttributeValueType cls attr.type)
    (hclass : attr.ClassFits) (hsize : attr.wireSize ≤ 65535)
    (h : attr.write transactionId = some body) (rest : ByteBuffer) :
    readAttribute cls transactionId
        (writeUInt16 attr.type ++ writeUInt16 attr.length ++ body ++ rest) =
      some (some attr, rest) := by
  obtain ⟨blank, hcreate, hread⟩ :=
    attr.read_write_append hlength howned hclass hsize h rest
  rw [hknown] at hcreate
  simp [readAttribute, hcreate, hread]

theorem writeAttributes_cons {attr : StunAttribute}
    {attrs : List StunAttribute} {bytes : List UInt8}
    (h : writeAttributes transactionId (attr :: attrs) = some bytes) :
    ∃ body rest, attr.write transactionId = some body ∧
      writeAttributes transactionId attrs = some rest ∧
      bytes = writeUInt16 attr.type ++ writeUInt16 attr.length ++ body ++
        rest := by
  simp only [writeAttributes, Option.bind_eq_bind, Option.bind_eq_some_iff,
    Option.some.injEq] at h
  obtain ⟨body, hbody, rest, hrest, rfl⟩ := h
  exact ⟨body, rest, hbody, hrest, rfl⟩

theorem writeAttributes_length {attrs : List StunAttribute}
    (hlength : ∀ attr ∈ attrs, attr.LengthStored)
    (howned : ∀ attr ∈ attrs, attr.Owned)
    (hsize : (attrs.map StunAttribute.wireSize).sum ≤ 65535)
    {bytes : List UInt8}
    (h : writeAttributes transactionId attrs = some bytes) :
    bytes.length = (attrs.map StunAttribute.wireSize).sum := by
  induction attrs generalizing bytes with
  | nil =>
    obtain rfl := Option.some.inj h
    rfl
  | cons attr attrs ih =>
    obtain ⟨body, rest, hbody, hrest, rfl⟩ := writeAttributes_cons h
    simp only [List.forall_mem_cons, List.map_cons, List.sum_cons] at *
    have hrestLen := ih hlength.2 howned.2 (by omega) hrest
    have hwire := StunAttribute.write_length hlength.1 howned.1
      (by omega) hbody
    simp [kStunAttributeHeaderSize] at hwire
    simp [hrestLen, ← hwire]
    omega

theorem readAttributes_writeAttributes {attrs : List StunAttribute}
    (hlength : ∀ attr ∈ attrs, attr.LengthStored)
    (howned : ∀ attr ∈ attrs, attr.Owned)
    (hknown : ∀ attr ∈ attrs,
      attr.valueType = getAttributeValueType cls attr.type)
    (hclass : ∀ attr ∈ attrs, attr.ClassFits)
    (hsize : (attrs.map StunAttribute.wireSize).sum ≤ 65535)
    {bytes : List UInt8} (h : writeAttributes transactionId attrs = some bytes)
    {fuel : ℕ} (hfuel : attrs.length ≤ fuel) :
    readAttributes cls transactionId fuel bytes = some attrs := by
  induction attrs generalizing bytes fuel with
  | nil =>
    obtain rfl := Option.some.inj h
    cases fuel <;> simp [readAttributes]
  | cons attr attrs ih =>
    obtain ⟨body, rest, hbody, hrest, rfl⟩ := writeAttributes_cons h
    simp only [List.forall_mem_cons, List.map_cons, List.sum_cons] at *
    obtain ⟨fuel, rfl⟩ : ∃ n, fuel = n + 1 :=
      Nat.exists_eq_add_one.mpr (Nat.lt_of_lt_of_le (by simp) hfuel)
    have hloop := ih hlength.2 howned.2 hknown.2 hclass.2 (by omega) hrest
      (Nat.le_of_succ_le_succ hfuel)
    have hfirst := readAttribute_write hlength.1 howned.1 hknown.1 hclass.1
      (by omega) hbody rest
    rw [readAttributes, if_pos (by simp), hfirst]
    simp [hloop]

theorem attrs_length_le_bodySize (msg : StunMessage) :
    msg.attrs.length ≤ msg.bodySize := by
  unfold bodySize
  induction msg.attrs with
  | nil => simp
  | cons attr attrs ih =>
    simp only [List.length_cons, List.map_cons, List.sum_cons,
      StunAttribute.wireSize, kStunAttributeHeaderSize]
    omega

/-- The twenty header bytes that `Write` puts before the attributes split
into the fields that `Read` takes. -/
theorem exists_header_split (hvalid : isValidTransactionId msg.transactionId)
    (hlegacy : msg.isLegacy →
      msg.transactionId.take 4 ≠ magicCookieBytes) :
    ∃ magicCookie transactionId,
      (if msg.isLegacy then [] else magicCookieBytes) ++ msg.transactionId =
        magicCookie ++ transactionId ∧
      magicCookie.length = kStunMagicCookieLength ∧
      transactionId.length = kStunTransactionIdLength ∧
      msg.transactionId = readTransactionId magicCookie transactionId := by
  by_cases hid : msg.isLegacy
  · have hlen : msg.transactionId.length = 16 := by
      simpa [isLegacy, kStunLegacyTransactionIdLength] using hid
    refine ⟨msg.transactionId.take 4, msg.transactionId.drop 4, ?_, ?_, ?_,
      ?_⟩
    · simp [hid]
    · simp [hlen, kStunMagicCookieLength]
    · simp [hlen, kStunTransactionIdLength]
    · simp [readTransactionId, hlegacy hid]
  · have hlen : msg.transactionId.length = kStunTransactionIdLength := by
      simp only [isValidTransactionId, isLegacy, Bool.or_eq_true,
        beq_iff_eq] at hvalid hid
      exact hvalid.resolve_right hid
    exact ⟨magicCookieBytes, msg.transactionId, by simp [hid],
      magicCookieBytes_length, hlen, by simp [readTransactionId]⟩

/-- `Read` undoes `Write` on a message assembled from initialised
attributes. -/
theorem read_write_build {calls : List BuildCall}
    (hinit : ∀ attr, BuildCall.addAttribute attr ∈ calls →
      attr.Initialised)
    (htype : (build cls calls).type &&& 0x8000 = 0)
    (hlegacy : (build cls calls).isLegacy →
      (build cls calls).transactionId.take 4 ≠ magicCookieBytes)
    (hclass : ∀ attr ∈ (build cls calls).attrs, attr.ClassFits)
    (hsize : (build cls calls).bodySize ≤ 65535)
    {buf : List UInt8} (hwrite : (build cls calls).write = some buf) :
    read cls buf = some (build cls calls) ∧
      buf.length = kStunHeaderSize + (build cls calls).length.toNat := by
  have hbuilt : WellBuilt cls (build cls calls) := wellBuilt_build hinit
  generalize build cls calls = msg at *
  simp only [write, Option.bind_eq_bind, Option.bind_eq_some_iff,
    Option.some.injEq] at hwrite
  obtain ⟨body, hbody, rfl⟩ := hwrite
  have hlen : msg.length.toNat = msg.bodySize := by
    rw [hbuilt.length_eq]
    exact UInt16.toNat_ofNat_of_lt' (Nat.lt_succ_of_le hsize)
  have hbodyLen : body.length = msg.bodySize :=
    writeAttributes_length hbuilt.lengthStored hbuilt.owned hsize hbody
  have hloop := readAttributes_writeAttributes hbuilt.lengthStored
    hbuilt.owned hbuilt.known hclass hsize hbody
    (hbodyLen ▸ attrs_length_le_bodySize msg)
  obtain ⟨magicCookie, transactionId, hsplit, hcookie, hid, htid⟩ :=
    exists_header_split hbuilt.validId hlegacy
  constructor
  · refine read_eq_some_iff.mpr ⟨magicCookie, transactionId, body, ?_,
      hcookie, hid, htype, htid, by rw [hlen, hbodyLen], hloop⟩
    have hrest := congrArg (· ++ body) hsplit
    simp only [List.append_assoc] at hrest ⊢
    rw [hrest]
  · have hsplitLen := congrArg List.length hsplit
    rw [List.length_append, List.length_append, hcookie, hid] at hsplitLen
    simp only [List.length_append, writeUInt16_length, hlen, hbodyLen,
      kStunHeaderSize]
    simp only [kStunMagicCookieLength, kStunTransactionIdLength] at hsplitLen
    omega

/-- A binding error response with a masked IPv6 address, padded strings and a
list of odd length. -/
def sampleCalls : List BuildCall :=
  [.setTransactionID [1, 2, 3, 4, 5, 6, 7, 8, 9, 10, 11, 12],
    .addAttribute (.newXorAddress 0x0020
      ⟨.v6 ⟨[32, 1, 13, 184, 0, 0, 0, 0, 0, 0, 0, 0, 0, 0, 0, 1], rfl⟩, 3478⟩),
    .addAttribute (.newErrorCode 0x0009 420 [66, 97, 100]),
    .setType 0x0111,
    .addAttribute (.addType 0x0024 (.newUInt16List 0x000a)),
    .addAttribute (.newUInt32 0x8028 0xdeadbeef),
    .addAttribute (.newByteString 0x0006 [97, 58, 98, 99, 100])]

def sampleBytes : List UInt8 :=
  (build .stun sampleCalls).write.getD []

theorem read_write_sample :
    read .stun sampleBytes = some (build .stun sampleCalls) ∧
      sampleBytes.length =
        kStunHeaderSize + (build .stun sampleCalls).length.toNat := by
  refine read_write_build ?_ (by decide) (by decide) ?_ (by decide)
    (by decide)
  · intro attr hattr
    simp only [sampleCalls, List.mem_cons, List.not_mem_nil, reduceCtorEq,
      BuildCall.addAttribute.injEq, false_or, or_false] at hattr
    rcases hattr with rfl | rfl | rfl | rfl | rfl
    · exact .newXorAddress _ _
    · exact .newErrorCode _ _ _
    · exact .addType _ (.newUInt16List _)
    · exact .newUInt32 _ _
    · exact .newByteString _ _
  · intro attr hattr
    have hattrs : (build .stun sampleCalls).attrs.all fun a =>
        match a.value with
        | .errorCode eclass _ _ => eclass ≤ 7
        | _ => true := by decide
    have hfits := List.all_eq_true.mp hattrs attr hattr
    unfold StunAttribute.ClassFits
    split <;> simp_all

end StunMessage

end WebrtcWinXp.Stun
