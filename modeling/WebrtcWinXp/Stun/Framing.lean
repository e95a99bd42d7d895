import WebrtcWinXp.Stun.Message

/-!
# The framing of accepted messages

A body is well framed when it is a sequence of frames: a header, the declared
number of value bytes, and padding to a multiple of four.  `Read` follows this
framing except for three kinds of attribute, which it also accepts: an unknown
one whose declared length wraps when it is rounded up, an integer whose
declared length is not its size, and a padded value at the very end of the
message without its padding.
-/

namespace WebrtcWinXp.Stun

open Support ByteBuffer

/-! ## Values -/

/-- An address value: an ignored byte, the family, the port and the bytes of
the IP address. -/
def addressValue (dummy : UInt8) (addr : SocketAddress) : List UInt8 :=
  writeUInt8 dummy ++ writeUInt8 addr.ip.stunFamily ++
    writeUInt16 addr.port ++ addr.ip.bytes

namespace StunAttributeValueType

/-- The declared lengths that the integer attributes should have. -/
def fixedSize : StunAttributeValueType → Option ℕ
  | .uint32 => some 4
  | .uint64 => some 8
  | _ => none

/-- The number of value bytes that `Read` takes. -/
def valueSize (vt : StunAttributeValueType) (length : UInt16) : ℕ :=
  vt.fixedSize.getD length.toNat

/-- The value types whose `Read` consumes padding. -/
def padded : StunAttributeValueType → Bool
  | .byteString | .errorCode | .uint16List => true
  | _ => false

/-- The bytes that the `Read` of each value type accepts. -/
def Accepts (vt : StunAttributeValueType) (value : List UInt8) : Prop :=
  match vt with
  | .unknown => False
  | .address | .xorAddress =>
    ∃ dummy addr, addr.ip ≠ .unspec ∧ value = addressValue dummy addr
  | .uint32 => value.length = 4
  | .uint64 => value.length = 8
  | .byteString => True
  | .errorCode => 4 ≤ value.length
  | .uint16List => value.length % 2 = 0

/-- The buffer after the value, past the padding where there is any. -/
def afterValue (vt : StunAttributeValueType) (length : UInt16)
    (tail : ByteBuffer) : ByteBuffer :=
  if vt.padded then consumePadding length tail else tail

end StunAttributeValueType

open StunAttributeValueType

variable {length : UInt16} {value tail rest buf : ByteBuffer}

theorem addressValue_length {addr : SocketAddress} (h : addr.ip ≠ .unspec)
    (dummy : UInt8) :
    (addressValue dummy addr).length = addr.ip.attributeLength.toNat := by
  obtain ⟨ip, port⟩ := addr
  cases ip with
  | unspec => exact absurd rfl h
  | v4 octets =>
    simp [addressValue, IPAddress.bytes, IPAddress.attributeLength,
      octets.2, SIZE_IP4]
  | v6 octets =>
    simp [addressValue, IPAddress.bytes, IPAddress.attributeLength,
      octets.2, SIZE_IP6]

theorem readAddress_eq_some_iff {addr : SocketAddress} :
    readAddress length buf = some (addr, rest) ↔
      ∃ dummy, buf = addressValue dummy addr ++ rest ∧
        addr.ip ≠ .unspec ∧ length = addr.ip.attributeLength := by
  simp only [readAddress, Option.bind_eq_bind, Option.bind_eq_some_iff,
    Prod.exists, readUInt8_eq_some_iff, readUInt16_eq_some_iff]
  constructor
  · rintro ⟨dummy, _, rfl, family, _, rfl, port, buf, rfl, h⟩
    split at h
    · rename_i hfamily
      simp only [ite_not, Option.ite_none_right_eq_some, Option.bind_eq_some_iff,
        Prod.exists, readOctets_eq_some_iff, Option.some.injEq,
        Prod.mk.injEq] at h
      obtain ⟨hlen, octets, _, rfl, rfl, rfl⟩ := h
      exact ⟨dummy, by simp [addressValue, hfamily, IPAddress.stunFamily,
        IPAddress.bytes], by simp, hlen⟩
    · split at h
      · rename_i hfamily
        simp only [ite_not, Option.ite_none_right_eq_some, Option.bind_eq_some_iff,
          Prod.exists, readOctets_eq_some_iff, Option.some.injEq,
          Prod.mk.injEq] at h
        obtain ⟨hlen, octets, _, rfl, rfl, rfl⟩ := h
        exact ⟨dummy, by simp [addressValue, hfamily, IPAddress.stunFamily,
          IPAddress.bytes], by simp, hlen⟩
      · cases h
  · rintro ⟨dummy, rfl, hip, rfl⟩
    refine ⟨dummy, _, ?_, addr.ip.stunFamily, _, rfl, addr.port,
      addr.ip.bytes ++ rest, rfl, ?_⟩
    · simp only [addressValue, List.append_assoc]
    obtain ⟨ip, port⟩ := addr
    cases ip with
    | unspec => exact absurd rfl hip
    | v4 octets =>
      simp [IPAddress.stunFamily, IPAddress.bytes,
        IPAddress.attributeLength]
    | v6 octets =>
      simp [IPAddress.stunFamily, IPAddress.bytes,
        IPAddress.attributeLength]

theorem readTypes_eq_some_iff {n : ℕ} {attrTypes : List UInt16} :
    readTypes n buf = some (attrTypes, rest) ↔
      attrTypes.length = n ∧ buf = attrTypes.flatMap writeUInt16 ++ rest := by
  induction n generalizing attrTypes buf rest with
  | zero =>
    simp only [readTypes, Option.some.injEq, Prod.mk.injEq,
      List.length_eq_zero_iff]
    constructor
    · rintro ⟨rfl, rfl⟩
      exact ⟨rfl, rfl⟩
    · rintro ⟨rfl, rfl⟩
      exact ⟨rfl, rfl⟩
  | succ n ih =>
    simp only [readTypes, Option.bind_eq_bind, Option.bind_eq_some_iff,
      Prod.exists, readUInt16_eq_some_iff, ih, Option.some.injEq,
      Prod.mk.injEq]
    constructor
    · rintro ⟨attr, _, rfl, attrs, _, ⟨hlen, rfl⟩, rfl, rfl⟩
      exact ⟨by simp [hlen], by simp⟩
    · rintro ⟨hlen, rfl⟩
      cases attrTypes with
      | nil => simp at hlen
      | cons attr attrs =>
        refine ⟨attr, attrs.flatMap writeUInt16 ++ rest, ?_, attrs,
          rest, ⟨by simpa using hlen, rfl⟩, rfl, rfl⟩
        simp only [List.flatMap_cons, List.append_assoc]

/-- A list of `n` 16-bit types and a value of `2 * n` bytes are the same. -/
theorem exists_flatMap_writeUInt16 {n : ℕ} (h : value.length = 2 * n) :
    ∃ attrTypes : List UInt16,
      attrTypes.length = n ∧ value = attrTypes.flatMap writeUInt16 := by
  induction n generalizing value with
  | zero => exact ⟨[], rfl, by simpa using h⟩
  | succ n ih =>
    have hdrop : (value.drop 2).length = 2 * n := by
      rw [List.length_drop]
      omega
    have htake : (value.take 2).length = 2 := by
      rw [List.length_take]
      omega
    obtain ⟨attrs, hlen, hattrs⟩ := ih hdrop
    refine ⟨UInt16.ofNat (ofBE (value.take 2)) :: attrs, by simp [hlen],
      ?_⟩
    rw [List.flatMap_cons, writeUInt16_ofNat_ofBE htake, ← hattrs,
      List.take_append_drop]

namespace StunAttribute

variable {vt : StunAttributeValueType} {type : UInt16}
  {blank attr : StunAttribute} {transactionId : List UInt8}

/-- A successful `Read` of a created attribute takes an accepted value of the
expected size and its padding. -/
theorem read_create_split (hcreate : create vt type length = some blank)
    (h : blank.read transactionId buf = some (attr, rest)) :
    ∃ value tail, buf = value ++ tail ∧ vt.Accepts value ∧
      value.length = vt.valueSize length ∧
      rest = vt.afterValue length tail := by
  cases vt with
  | unknown => cases hcreate
  | address | xorAddress =>
    obtain rfl := Option.some.inj hcreate
    simp only [StunAttribute.read, Option.bind_eq_bind,
      Option.bind_eq_some_iff, Prod.exists, readAddress_eq_some_iff,
      Option.some.injEq, Prod.mk.injEq] at h
    obtain ⟨addr, _, ⟨dummy, rfl, hip, rfl⟩, rfl, rfl⟩ := h
    exact ⟨_, _, rfl, ⟨dummy, addr, hip, rfl⟩,
      addressValue_length hip dummy, rfl⟩
  | uint32 =>
    obtain rfl := Option.some.inj hcreate
    simp only [StunAttribute.read, ne_eq, not_true, if_false,
      Option.bind_eq_bind, Option.bind_eq_some_iff, Prod.exists,
      readUInt32_eq_some_iff, Option.some.injEq, Prod.mk.injEq] at h
    obtain ⟨bits, _, rfl, rfl, rfl⟩ := h
    exact ⟨_, _, rfl, writeUInt32_length _, writeUInt32_length _, rfl⟩
  | uint64 =>
    obtain rfl := Option.some.inj hcreate
    simp only [StunAttribute.read, ne_eq, not_true, if_false,
      Option.bind_eq_bind, Option.bind_eq_some_iff, Prod.exists,
      readUInt64_eq_some_iff, Option.some.injEq, Prod.mk.injEq] at h
    obtain ⟨bits, _, rfl, rfl, rfl⟩ := h
    exact ⟨_, _, rfl, writeUInt64_length _, writeUInt64_length _, rfl⟩
  | byteString =>
    obtain rfl := Option.some.inj hcreate
    simp only [StunAttribute.read, Option.bind_eq_bind,
      Option.bind_eq_some_iff, Prod.exists, readBytes_eq_some_iff,
      Option.some.injEq, Prod.mk.injEq] at h
    obtain ⟨bytes, _, ⟨rfl, hlen⟩, rfl, rfl⟩ := h
    exact ⟨_, _, rfl, trivial, hlen, rfl⟩
  | errorCode =>
    obtain rfl := Option.some.inj hcreate
    simp only [StunAttribute.read, Option.ite_none_left_eq_some,
      Option.bind_eq_bind, Option.bind_eq_some_iff, Prod.exists,
      readUInt32_eq_some_iff, readBytes_eq_some_iff, Option.some.injEq,
      Prod.mk.injEq] at h
    obtain ⟨hmin, val, _, rfl, reason, tail, ⟨rfl, hlen⟩, rfl, rfl⟩ := h
    rw [UInt16.lt_iff_toNat_lt, not_lt] at hmin
    have hfour : 4 ≤ length.toNat := hmin
    refine ⟨writeUInt32 val ++ reason, tail, by simp, ?_, ?_, rfl⟩
    · simp [Accepts]
    · simp [valueSize, fixedSize, hlen]
      omega
  | uint16List =>
    obtain rfl := Option.some.inj hcreate
    simp only [StunAttribute.read, ite_not, Option.ite_none_right_eq_some,
      Option.bind_eq_bind, Option.bind_eq_some_iff, Prod.exists,
      readTypes_eq_some_iff, Option.some.injEq, Prod.mk.injEq] at h
    obtain ⟨heven, attrTypes, tail, ⟨hlen, rfl⟩, rfl, rfl⟩ := h
    have hmod : length.toNat % 2 = 0 := congrArg UInt16.toNat heven
    have hsize : (attrTypes.flatMap writeUInt16).length = length.toNat := by
      rw [flatMap_writeUInt16_length]
      omega
    exact ⟨_, _, rfl, by rw [Accepts, hsize, hmod], hsize, rfl⟩

theorem exists_read_of_accepts (type : UInt16)
    (transactionId : List UInt8) (haccepts : vt.Accepts value)
    (hsize : value.length = vt.valueSize length) :
    ∃ blank attr, create vt type length = some blank ∧
      ∀ tail, blank.read transactionId (value ++ tail) =
        some (attr, vt.afterValue length tail) := by
  cases vt with
  | unknown => exact haccepts.elim
  | address =>
    obtain ⟨dummy, addr, hip, rfl⟩ := haccepts
    have hlen : length = addr.ip.attributeLength :=
      UInt16.toNat_inj.mp (hsize.symm.trans (addressValue_length hip dummy))
    refine ⟨_, newAddress type addr, rfl, fun tail => ?_⟩
    have hread : readAddress length (addressValue dummy addr ++ tail) =
        some (addr, tail) :=
      readAddress_eq_some_iff.mpr ⟨dummy, rfl, hip, hlen⟩
    simp only [StunAttribute.read, hread]
    rfl
  | xorAddress =>
    obtain ⟨dummy, addr, hip, rfl⟩ := haccepts
    have hlen : length = addr.ip.attributeLength :=
      UInt16.toNat_inj.mp (hsize.symm.trans (addressValue_length hip dummy))
    refine ⟨_, (newXorAddress type ⟨getXoredIP transactionId true addr.ip,
      xoredPort addr.port⟩).setOwner, rfl, fun tail => ?_⟩
    have hread : readAddress length (addressValue dummy addr ++ tail) =
        some (addr, tail) :=
      readAddress_eq_some_iff.mpr ⟨dummy, rfl, hip, hlen⟩
    simp only [StunAttribute.read, hread]
    rfl
  | uint32 =>
    refine ⟨_, newUInt32 type (UInt32.ofNat (ofBE value)), rfl,
      fun tail => ?_⟩
    have hread := readUInt32_append (UInt32.ofNat (ofBE value)) tail
    rw [writeUInt32_ofNat_ofBE hsize] at hread
    simp only [StunAttribute.read, hread]
    rfl
  | uint64 =>
    refine ⟨_, newUInt64 type (UInt64.ofNat (ofBE value)), rfl,
      fun tail => ?_⟩
    have hread := readUInt64_append (UInt64.ofNat (ofBE value)) tail
    rw [writeUInt64_ofNat_ofBE hsize] at hread
    simp only [StunAttribute.read, hread]
    rfl
  | byteString =>
    refine ⟨_, ⟨type, length, .byteString value⟩, rfl, fun tail => ?_⟩
    have hread : readBytes length.toNat (value ++ tail) =
        some (value, tail) := readBytes_eq_some_iff.mpr ⟨rfl, hsize⟩
    simp only [StunAttribute.read, hread]
    rfl
  | errorCode =>
    have hfour : 4 ≤ value.length := haccepts
    have hlen : value.length = length.toNat := hsize
    have hmin : ¬length < MIN_SIZE := by
      rw [UInt16.lt_iff_toNat_lt, not_lt, ← hlen]
      exact hfour
    let val := UInt32.ofNat (ofBE (value.take 4))
    refine ⟨_, ⟨type, length, .errorCode ((val >>> 8) &&& 0x7).toUInt8
      (val &&& 0xff).toUInt8 (value.drop 4)⟩, rfl, fun tail => ?_⟩
    have hval : readUInt32 (value ++ tail) =
        some (val, value.drop 4 ++ tail) := by
      rw [readUInt32_eq_some_iff, writeUInt32_ofNat_ofBE (by simpa),
        ← List.append_assoc, List.take_append_drop]
    have hreason : readBytes (length.toNat - 4) (value.drop 4 ++ tail) =
        some (value.drop 4, tail) :=
      readBytes_eq_some_iff.mpr ⟨rfl, by
        rw [List.length_drop, hlen]⟩
    simp only [StunAttribute.read, hmin, if_false, hval,
      Option.bind_eq_bind, Option.bind_some, hreason]
    rfl
  | uint16List =>
    have heven : value.length % 2 = 0 := haccepts
    have hlen : value.length = length.toNat := hsize
    have hmod : length % 2 = 0 :=
      UInt16.toNat_inj.mp (by rw [hlen] at heven; simpa using heven)
    obtain ⟨attrTypes, hcount, rfl⟩ :=
      exists_flatMap_writeUInt16 (show value.length =
        2 * (length.toNat / 2) by omega)
    refine ⟨_, ⟨type, length, .uint16List attrTypes⟩, rfl,
      fun tail => ?_⟩
    have hread : readTypes (length.toNat / 2)
        (attrTypes.flatMap writeUInt16 ++ tail) = some (attrTypes, tail) :=
      readTypes_eq_some_iff.mpr ⟨hcount, rfl⟩
    simp only [StunAttribute.read, hmod, ne_eq, not_true, if_false, hread]
    rfl

theorem read_create_append (hcreate : create vt type length = some blank)
    (h : blank.read transactionId (value ++ tail) =
      some (attr, vt.afterValue length tail))
    (haccepts : vt.Accepts value)
    (hsize : value.length = vt.valueSize length) (tail' : ByteBuffer) :
    blank.read transactionId (value ++ tail') =
      some (attr, vt.afterValue length tail') := by
  obtain ⟨blank', attr', hcreate', hread⟩ :=
    exists_read_of_accepts type transactionId haccepts hsize
  obtain rfl : blank' = blank :=
    Option.some.inj (hcreate'.symm.trans hcreate)
  obtain rfl : attr' = attr :=
    congrArg Prod.fst (Option.some.inj ((hread tail).symm.trans h))
  exact hread tail'

end StunAttribute

/-- An attribute as the protocol lays it out. -/
structure Frame where
  type : UInt16
  value : List UInt8
  padding : List UInt8
  value_lt : value.length < 65536
  padding_length : padding.length = paddingLength value.length

namespace Frame

def declaredLength (f : Frame) : UInt16 := UInt16.ofNat f.value.length

def bytes (f : Frame) : List UInt8 :=
  writeUInt16 f.type ++ writeUInt16 f.declaredLength ++ f.value ++ f.padding

@[simp] theorem declaredLength_toNat (f : Frame) :
    f.declaredLength.toNat = f.value.length :=
  UInt16.toNat_ofNat_of_lt' f.value_lt

/-- What a frame contributes to the attribute list: nothing if its type is
unknown, else the attribute that is read from all of its value. -/
def Yields (cls : MessageClass) (transactionId : List UInt8) (f : Frame) :
    Option StunAttribute → Prop
  | none => getAttributeValueType cls f.type = .unknown
  | some attr =>
    ∃ blank,
      StunAttribute.create (getAttributeValueType cls f.type) f.type
        f.declaredLength = some blank ∧
      blank.read transactionId f.value = some (attr, [])

end Frame

/-- A body that splits into frames which yield exactly these attributes. -/
def WellFramed (cls : MessageClass) (transactionId : List UInt8)
    (body : List UInt8) (attrs : List StunAttribute) : Prop :=
  ∃ (frames : List Frame) (yielded : List (Option StunAttribute)),
    body = frames.flatMap Frame.bytes ∧
    List.Forall₂ (Frame.Yields cls transactionId) frames yielded ∧
    attrs = yielded.reduceOption

/-! ## Records -/

/-- One attribute that `Read` accepts, as its bytes and the bytes after it.
The flag tells whether it is a frame. -/
inductive Record (cls : MessageClass) : Bool → List UInt8 → List UInt8 → Prop
  | skipped (f : Frame) (rest : List UInt8)
      (hunknown : getAttributeValueType cls f.type = .unknown)
      (hlength : f.value.length < 0xFFFD) : Record cls true f.bytes rest
  | known (f : Frame) (rest : List UInt8)
      (haccepts : (getAttributeValueType cls f.type).Accepts f.value) :
      Record cls true f.bytes rest
  | wrapped (type length : UInt16) (rest : List UInt8)
      (hunknown : getAttributeValueType cls type = .unknown)
      (hlength : 0xFFFD ≤ length.toNat) :
      Record cls false (writeUInt16 type ++ writeUInt16 length) rest
  | integer (type length : UInt16) (value rest : List UInt8)
      (hfixed : (getAttributeValueType cls type).fixedSize =
        some value.length)
      (hlength : length.toNat ≠ value.length) :
      Record cls false (writeUInt16 type ++ writeUInt16 length ++ value) rest
  | unpadded (type length : UInt16) (value : List UInt8)
      (haccepts : (getAttributeValueType cls type).Accepts value)
      (hpadded : (getAttributeValueType cls type).padded)
      (hlength : length.toNat = value.length)
      (hmod : value.length % 4 ≠ 0) :
      Record cls false (writeUInt16 type ++ writeUInt16 length ++ value) []

/-- A body that is a sequence of accepted records.  The flag tells whether
all of them are frames. -/
inductive Body (cls : MessageClass) : Bool → List UInt8 → Prop
  | nil : Body cls true []
  | cons {framed framed' : Bool} {bytes rest : List UInt8}
      (hrecord : Record cls framed bytes rest)
      (hrest : Body cls framed' rest) :
      Body cls (framed && framed') (bytes ++ rest)

variable {cls : MessageClass} {transactionId : List UInt8} {framed : Bool}
  {bytes : List UInt8}

theorem create_eq_none_iff {vt : StunAttributeValueType}
    {type length : UInt16} :
    StunAttribute.create vt type length = none ↔ vt = .unknown := by
  cases vt <;> simp [StunAttribute.create]

/-- The number of bytes skipped for an unknown attribute: rounding up wraps
for the last three lengths. -/
theorem skippedLength_toNat (length : UInt16) :
    (if length % 4 ≠ 0 then length + (4 - length % 4) else length).toNat =
      if 0xFFFD ≤ length.toNat then 0
      else length.toNat + paddingLength length.toNat := by
  have hlt := length.toNat_lt
  have hmod : (length % 4).toNat = length.toNat % 4 := by simp
  have hzero : length % 4 = 0 ↔ length.toNat % 4 = 0 := by
    rw [← UInt16.toNat_inj, hmod]
    rfl
  unfold paddingLength
  by_cases h : length % 4 = 0
  · rw [if_neg (not_not.mpr h)]
    have hrem := hzero.mp h
    split
    · omega
    · rw [if_neg (show ¬length.toNat % 4 > 0 by omega), Nat.add_zero]
  · rw [if_pos h, UInt16.toNat_add, UInt16.toNat_sub_of_le _ _ (by
      rw [UInt16.le_iff_toNat_le, hmod]
      exact Nat.le_of_lt (Nat.mod_lt _ (by decide))), hmod]
    have hrem := mt hzero.mpr h
    rw [show UInt16.toNat 4 = 4 from rfl,
      if_pos (show length.toNat % 4 > 0 by omega)]
    split <;> omega

namespace StunAttributeValueType

variable {vt : StunAttributeValueType}

theorem valueSize_of_accepts (h : vt.Accepts value)
    (hlength : length.toNat = value.length) :
    value.length = vt.valueSize length := by
  cases vt <;> simp_all [Accepts, valueSize, fixedSize]

theorem accepts_of_fixedSize (h : vt.fixedSize = some value.length) :
    vt.Accepts value := by
  cases vt <;> simp_all [Accepts, fixedSize]

theorem paddingLength_of_not_padded (h : vt.Accepts value)
    (hpadded : ¬vt.padded) : paddingLength value.length = 0 := by
  cases vt with
  | unknown => exact h.elim
  | address | xorAddress =>
    obtain ⟨dummy, addr, hip, rfl⟩ := h
    rw [addressValue_length hip, paddingLength_attributeLength]
  | uint32 | uint64 =>
    rw [show value.length = _ from h]
    rfl
  | byteString | errorCode | uint16List => exact absurd rfl hpadded

theorem afterValue_append (h : vt.Accepts value)
    (hlength : length.toNat = value.length) {padding : List UInt8}
    (hpadding : padding.length = paddingLength value.length)
    (rest : ByteBuffer) :
    vt.afterValue length (padding ++ rest) = rest := by
  unfold afterValue
  split
  · exact consumePadding_append (by rw [hpadding, hlength]) rest
  · rename_i hpadded
    rw [paddingLength_of_not_padded h hpadded,
      List.length_eq_zero_iff] at hpadding
    rw [hpadding, List.nil_append]

theorem afterValue_of_fixedSize {n : ℕ} (h : vt.fixedSize = some n)
    (tail : ByteBuffer) : vt.afterValue length tail = tail := by
  cases vt <;> first | rfl | cases h

theorem afterValue_nil : vt.afterValue length [] = [] := by
  unfold afterValue consumePadding
  split
  · split
    · rw [consume_eq_none_iff.mpr (by simp; omega), Option.getD_none]
    · rfl
  · rfl

theorem consumePadding_cases (length : UInt16) (tail : ByteBuffer) :
    (∃ padding, tail = padding ++ consumePadding length tail ∧
        padding.length = paddingLength length.toNat) ∨
      (length.toNat % 4 ≠ 0 ∧ consumePadding length tail = tail ∧
        tail.length < 4) := by
  unfold consumePadding paddingLength
  split
  · cases hconsume : consume (4 - length.toNat % 4) tail with
    | none =>
      have hshort := consume_eq_none_iff.mp hconsume
      exact .inr ⟨by omega, rfl, by omega⟩
    | some rest =>
      obtain ⟨padding, rfl, hlen⟩ := consume_eq_some_iff.mp hconsume
      exact .inl ⟨padding, rfl, hlen⟩
  · exact .inl ⟨[], rfl, rfl⟩

/-- An accepted value is followed by its padding, or it is an integer of the
wrong declared length, or its padding is missing. -/
theorem afterValue_cases (haccepts : vt.Accepts value)
    (hsize : value.length = vt.valueSize length) (tail : ByteBuffer) :
    (length.toNat = value.length ∧
      ∃ padding, tail = padding ++ vt.afterValue length tail ∧
        padding.length = paddingLength value.length) ∨
      (vt.fixedSize = some value.length ∧ length.toNat ≠ value.length) ∨
      (vt.padded ∧ length.toNat = value.length ∧ value.length % 4 ≠ 0 ∧
        vt.afterValue length tail = tail ∧ tail.length < 4) := by
  by_cases hlength : length.toNat = value.length
  · by_cases hpadded : vt.padded
    · rw [afterValue, if_pos hpadded, ← hlength]
      rcases consumePadding_cases length tail with h | ⟨hmod, hrest, hlt⟩
      · exact .inl ⟨rfl, h⟩
      · exact .inr (.inr ⟨hpadded, rfl, hmod, hrest, hlt⟩)
    · refine .inl ⟨hlength, [], ?_, ?_⟩
      · rw [afterValue, if_neg hpadded, List.nil_append]
      · rw [paddingLength_of_not_padded haccepts hpadded, List.length_nil]
  · refine .inr (.inl ⟨?_, hlength⟩)
    cases hfixed : vt.fixedSize with
    | none =>
      rw [valueSize, hfixed, Option.getD_none] at hsize
      exact absurd hsize.symm hlength
    | some n =>
      rw [valueSize, hfixed, Option.getD_some] at hsize
      rw [hsize]

end StunAttributeValueType

theorem Frame.exists_of_parts (type : UInt16) {padding : List UInt8}
    (hlength : length.toNat = value.length)
    (hpadding : padding.length = paddingLength value.length) :
    ∃ f : Frame, f.type = type ∧ f.value = value ∧
      f.declaredLength = length ∧
      f.bytes =
        writeUInt16 type ++ writeUInt16 length ++ value ++ padding := by
  have hdeclared : UInt16.ofNat value.length = length := by
    rw [← hlength, UInt16.ofNat_toNat]
  refine ⟨⟨type, value, padding, hlength ▸ length.toNat_lt, hpadding⟩, rfl,
    rfl, hdeclared, ?_⟩
  rw [Frame.bytes, Frame.declaredLength, hdeclared]

/-- A value that is followed by its padding makes a frame that yields the
attribute which was read. -/
theorem Frame.yields_of_read {type : UInt16} {blank attr : StunAttribute}
    (hcreate : StunAttribute.create (getAttributeValueType cls type) type
      length = some blank)
    (hread : blank.read transactionId (value ++ tail) =
      some (attr, (getAttributeValueType cls type).afterValue length tail))
    (haccepts : (getAttributeValueType cls type).Accepts value)
    (hsize : value.length = (getAttributeValueType cls type).valueSize length)
    {f : Frame} (htype : f.type = type) (hvalue : f.value = value)
    (hlength : f.declaredLength = length) :
    f.Yields cls transactionId (some attr) := by
  subst htype hvalue hlength
  refine ⟨blank, hcreate, ?_⟩
  have h := StunAttribute.read_create_append hcreate hread haccepts hsize []
  rwa [List.append_nil, afterValue_nil] at h

namespace StunMessage

theorem exists_header_of_readAttribute
    {p : Option StunAttribute × ByteBuffer}
    (h : readAttribute cls transactionId buf = some p) :
    ∃ type length tail,
      buf = writeUInt16 type ++ writeUInt16 length ++ tail := by
  simp only [readAttribute, Option.bind_eq_bind, Option.bind_eq_some_iff,
    Prod.exists, readUInt16_eq_some_iff] at h
  obtain ⟨type, _, rfl, length, tail, rfl, -⟩ := h
  exact ⟨type, length, tail, by simp⟩

theorem readAttribute_unknown {type length : UInt16}
    (h : getAttributeValueType cls type = .unknown) (buf : ByteBuffer) :
    readAttribute cls transactionId
        (writeUInt16 type ++ writeUInt16 length ++ buf) =
      (buf.consume (if 0xFFFD ≤ length.toNat then 0
        else length.toNat + paddingLength length.toNat)).map (none, ·) := by
  rw [← skippedLength_toNat]
  simp only [readAttribute, List.append_assoc, readUInt16_append,
    Option.bind_eq_bind, Option.bind_some, h, StunAttribute.create]
  cases buf.consume _ <;> rfl

theorem readAttribute_known {type length : UInt16} {blank : StunAttribute}
    (h : StunAttribute.create (getAttributeValueType cls type) type length =
      some blank) (buf : ByteBuffer) :
    readAttribute cls transactionId
        (writeUInt16 type ++ writeUInt16 length ++ buf) =
      (blank.read transactionId buf).map fun p => (some p.1, p.2) := by
  simp only [readAttribute, List.append_assoc, readUInt16_append,
    Option.bind_eq_bind, Option.bind_some, h]
  cases blank.read transactionId buf <;> rfl

theorem readAttribute_of_record (h : Record cls framed bytes rest)
    (transactionId : List UInt8) :
    ∃ attr, readAttribute cls transactionId (bytes ++ rest) =
      some (attr, rest) := by
  cases h with
  | skipped f rest hunknown hlength =>
    have hconsume : consume (f.value.length + paddingLength f.value.length)
        (f.value ++ (f.padding ++ rest)) = some rest :=
      consume_eq_some_iff.mpr ⟨f.value ++ f.padding, by simp,
        by simp [f.padding_length]⟩
    refine ⟨none, ?_⟩
    rw [Frame.bytes, List.append_assoc, List.append_assoc,
      readAttribute_unknown hunknown, f.declaredLength_toNat,
      if_neg (by omega), hconsume]
    rfl
  | known f rest haccepts =>
    obtain ⟨blank, attr, hcreate, hread⟩ :=
      StunAttribute.exists_read_of_accepts f.type transactionId haccepts
        (valueSize_of_accepts haccepts f.declaredLength_toNat)
    refine ⟨some attr, ?_⟩
    rw [Frame.bytes, List.append_assoc, List.append_assoc,
      readAttribute_known hcreate, hread,
      afterValue_append haccepts f.declaredLength_toNat f.padding_length]
    rfl
  | wrapped type length rest hunknown hlength =>
    refine ⟨none, ?_⟩
    rw [readAttribute_unknown hunknown, if_pos hlength]
    rfl
  | integer type length value rest hfixed hlength =>
    obtain ⟨blank, attr, hcreate, hread⟩ :=
      StunAttribute.exists_read_of_accepts type transactionId
        (accepts_of_fixedSize hfixed)
        (show value.length = valueSize _ length by
          rw [valueSize, hfixed, Option.getD_some])
    refine ⟨some attr, ?_⟩
    rw [List.append_assoc, readAttribute_known hcreate, hread,
      afterValue_of_fixedSize hfixed]
    rfl
  | unpadded type length value haccepts hpadded hlength hmod =>
    obtain ⟨blank, attr, hcreate, hread⟩ :=
      StunAttribute.exists_read_of_accepts type transactionId haccepts
        (valueSize_of_accepts haccepts hlength)
    refine ⟨some attr, ?_⟩
    rw [List.append_assoc, readAttribute_known hcreate, hread,
      afterValue_nil]
    rfl

theorem Record.four_le_length (h : Record cls framed bytes rest) :
    4 ≤ bytes.length := by
  cases h <;> simp [Frame.bytes] <;> omega

/-- A successful round reads a record, or it leaves one to three bytes after
a value that lacks its padding. -/
theorem record_of_readAttribute {attr : Option StunAttribute}
    (h : readAttribute cls transactionId buf = some (attr, rest)) :
    (∃ framed bytes, buf = bytes ++ rest ∧ Record cls framed bytes rest ∧
      (framed = true →
        ∃ f : Frame, f.bytes = bytes ∧ f.Yields cls transactionId attr)) ∨
      (0 < rest.length ∧ rest.length < 4) := by
  obtain ⟨type, length, tail, rfl⟩ := exists_header_of_readAttribute h
  cases hcreate : StunAttribute.create (getAttributeValueType cls type) type
      length with
  | none =>
    have hunknown := create_eq_none_iff.mp hcreate
    rw [readAttribute_unknown hunknown, Option.map_eq_some_iff] at h
    obtain ⟨_, hconsume, heq⟩ := h
    cases heq
    obtain ⟨skipped, rfl, hskipped⟩ := consume_eq_some_iff.mp hconsume
    split at hskipped
    · rename_i hwrap
      rw [List.length_eq_zero_iff.mp hskipped, List.nil_append]
      exact .inl ⟨false, _, rfl, .wrapped type length rest hunknown hwrap,
        fun h => by cases h⟩
    · rename_i hwrap
      have hvalue : length.toNat = (skipped.take length.toNat).length := by
        rw [List.length_take, hskipped]
        omega
      have hpadding : (skipped.drop length.toNat).length =
          paddingLength (skipped.take length.toNat).length := by
        rw [← hvalue, List.length_drop, hskipped, Nat.add_sub_cancel_left]
      obtain ⟨f, htype, -, hlength, hbytes⟩ :=
        Frame.exists_of_parts type hvalue hpadding
      rw [List.append_assoc _ (List.take _ _), List.take_append_drop]
        at hbytes
      have hfunknown : getAttributeValueType cls f.type = .unknown := by
        rw [htype, hunknown]
      have hflength : f.value.length < 0xFFFD := by
        rw [← f.declaredLength_toNat, hlength]
        omega
      refine .inl ⟨true, f.bytes, ?_, .skipped f rest hfunknown hflength,
        fun _ => ⟨f, rfl, hfunknown⟩⟩
      simp only [hbytes, List.append_assoc]
  | some blank =>
    rw [readAttribute_known hcreate, Option.map_eq_some_iff] at h
    obtain ⟨⟨attr, _⟩, hread, heq⟩ := h
    cases heq
    obtain ⟨value, tail, rfl, haccepts, hsize, rfl⟩ :=
      StunAttribute.read_create_split hcreate hread
    rcases afterValue_cases haccepts hsize tail with
      ⟨hlength, padding, htail, hpadding⟩ | ⟨hfixed, hlength⟩ |
        ⟨hpadded, hlength, hmod, hrest, hlt⟩
    · obtain ⟨f, htype, hvalue, hdeclared, hbytes⟩ :=
        Frame.exists_of_parts type hlength hpadding
      refine .inl ⟨true, f.bytes, ?_, ?_, fun _ => ⟨f, rfl,
        Frame.yields_of_read hcreate hread haccepts hsize htype hvalue
          hdeclared⟩⟩
      · rw [hbytes, List.append_assoc _ padding, ← htail]
        simp only [List.append_assoc]
      · exact .known f _ (by rwa [htype, hvalue])
    · refine .inl ⟨false, _, ?_, .integer type length value _ hfixed
        hlength, fun h => by cases h⟩
      simp only [afterValue_of_fixedSize hfixed, List.append_assoc]
    · rw [hrest]
      by_cases hempty : tail = []
      · subst hempty
        refine .inl ⟨false, _, ?_, .unpadded type length value haccepts
          hpadded hlength hmod, fun h => by cases h⟩
        simp
      · exact .inr ⟨List.length_pos_iff.mpr hempty, hlt⟩

theorem header_inj {type length type' length' : UInt16} {xs ys : List UInt8}
    (h : writeUInt16 type ++ writeUInt16 length ++ xs =
      writeUInt16 type' ++ writeUInt16 length' ++ ys) :
    type = type' ∧ length = length' ∧ xs = ys := by
  rw [List.append_assoc, List.append_assoc] at h
  obtain ⟨htype, h⟩ := writeUInt16_append_inj h
  exact ⟨htype, writeUInt16_append_inj h⟩

variable {f : Frame}

theorem frame_bytes_inj {g : Frame} {xs ys : List UInt8}
    (h : f.bytes ++ xs = g.bytes ++ ys) : f.bytes = g.bytes ∧ xs = ys := by
  have hlength : f.bytes.length = g.bytes.length := by
    have h' := h
    simp only [Frame.bytes, List.append_assoc _ f.value,
      List.append_assoc _ g.value] at h'
    rw [List.append_assoc (_ ++ _), List.append_assoc (_ ++ _)] at h'
    obtain ⟨-, hdeclared, -⟩ := header_inj h'
    have hvalue : f.value.length = g.value.length := by
      rw [← f.declaredLength_toNat, ← g.declaredLength_toNat, hdeclared]
    simp [Frame.bytes, f.padding_length, g.padding_length, hvalue]
  exact List.append_inj h hlength

theorem Frame.value_length_of_fixedSize
    {attr : Option StunAttribute} {n : ℕ}
    (hyields : f.Yields cls transactionId attr)
    (hfixed : (getAttributeValueType cls f.type).fixedSize = some n) :
    f.value.length = n := by
  cases attr with
  | none =>
    rw [show getAttributeValueType cls f.type = .unknown from hyields]
      at hfixed
    cases hfixed
  | some attr =>
    obtain ⟨blank, hcreate, hread⟩ := hyields
    obtain ⟨value, tail, hvalue, -, hsize, hrest⟩ :=
      StunAttribute.read_create_split hcreate hread
    rw [afterValue_of_fixedSize hfixed] at hrest
    rw [valueSize, hfixed, Option.getD_some] at hsize
    rw [hvalue, ← hrest, List.append_nil, hsize]

theorem frame_eq_of_record {rest' : List UInt8}
    (h : Record cls true bytes rest)
    (heq : bytes ++ rest = f.bytes ++ rest') : rest = rest' := by
  cases h with
  | skipped g rest _ _ => exact (frame_bytes_inj heq).2
  | known g rest _ => exact (frame_bytes_inj heq).2

theorem not_frame_of_record {rest' : List UInt8}
    {attr : Option StunAttribute} (h : Record cls false bytes rest)
    (hsize : (bytes ++ rest).length ≤ 65535)
    (hyields : f.Yields cls transactionId attr) :
    bytes ++ rest ≠ f.bytes ++ rest' := by
  intro heq
  have hlength := congrArg List.length heq
  rw [Frame.bytes, List.append_assoc (_ ++ _), List.append_assoc (_ ++ _)]
    at heq
  cases h with
  | wrapped type length rest hunknown hwrap =>
    obtain ⟨-, rfl, -⟩ := header_inj heq
    rw [f.declaredLength_toNat] at hwrap
    simp [Frame.bytes] at hlength hsize
    omega
  | integer type length value rest hfixed hne =>
    rw [List.append_assoc (_ ++ _)] at heq
    obtain ⟨rfl, rfl, -⟩ := header_inj heq
    rw [f.declaredLength_toNat] at hne
    exact hne (Frame.value_length_of_fixedSize hyields hfixed)
  | unpadded type length value haccepts hpadded hdeclared hmod =>
    rw [List.append_assoc (_ ++ _)] at heq
    obtain ⟨-, rfl, -⟩ := header_inj heq
    rw [f.declaredLength_toNat] at hdeclared
    have hpad : paddingLength f.value.length ≠ 0 := by
      rw [Ne, paddingLength_eq_zero_iff, hdeclared]
      exact hmod
    simp [Frame.bytes, f.padding_length] at hlength
    omega

/-! ## Bodies -/

theorem wellFramed_nil : WellFramed cls transactionId [] [] :=
  ⟨[], [], rfl, .nil, rfl⟩

variable {body : List UInt8} {attrs : List StunAttribute}

theorem wellFramed_cons {attr : Option StunAttribute}
    (hyields : f.Yields cls transactionId attr)
    (h : WellFramed cls transactionId body attrs) :
    WellFramed cls transactionId (f.bytes ++ body) (attr.toList ++ attrs) := by
  obtain ⟨frames, yielded, rfl, hframes, rfl⟩ := h
  refine ⟨f :: frames, attr :: yielded, rfl, .cons hyields hframes, ?_⟩
  cases attr <;> rfl

variable {fuel : ℕ}

theorem readAttributes_succ_eq_some
    (h : readAttributes cls transactionId (fuel + 1) body = some attrs) :
    (body = [] ∧ attrs = []) ∨
      ∃ attr rest attrs', readAttribute cls transactionId body =
          some (attr, rest) ∧
        readAttributes cls transactionId fuel rest = some attrs' ∧
        attrs = attr.toList ++ attrs' := by
  simp only [readAttributes] at h
  split at h
  · simp only [Option.bind_eq_bind, Option.bind_eq_some_iff, Prod.exists,
      Option.some.injEq] at h
    obtain ⟨attr, rest, hround, attrs', hloop, rfl⟩ := h
    exact .inr ⟨attr, rest, attrs', hround, hloop, rfl⟩
  · rename_i hempty
    exact .inl ⟨by simpa using hempty, (Option.some.inj h).symm⟩

theorem readAttributes_short
    (hpos : 0 < body.length) (hlt : body.length < 4) :
    readAttributes cls transactionId fuel body = none := by
  cases fuel with
  | zero => simp [readAttributes, hpos]
  | succ fuel =>
    rw [Option.eq_none_iff_forall_ne_some]
    intro attrs h
    rcases readAttributes_succ_eq_some h with
      ⟨rfl, -⟩ | ⟨attr, rest, attrs', hround, -, -⟩
    · simp at hpos
    · obtain ⟨type, length, tail, rfl⟩ :=
        exists_header_of_readAttribute hround
      simp at hlt
      omega

theorem body_of_readAttributes
    (h : readAttributes cls transactionId fuel body = some attrs) :
    ∃ framed, Body cls framed body ∧
      (framed = true → WellFramed cls transactionId body attrs) := by
  induction fuel generalizing body attrs with
  | zero =>
    simp only [readAttributes] at h
    split at h
    · cases h
    · rename_i hempty
      obtain rfl : body = [] := by simpa using hempty
      obtain rfl := Option.some.inj h
      exact ⟨true, .nil, fun _ => wellFramed_nil⟩
  | succ fuel ih =>
    rcases readAttributes_succ_eq_some h with
      ⟨rfl, rfl⟩ | ⟨attr, rest, attrs', hround, hloop, rfl⟩
    · exact ⟨true, .nil, fun _ => wellFramed_nil⟩
    · rcases record_of_readAttribute hround with
        ⟨framed, bytes, rfl, hrecord, hframe⟩ | ⟨hpos, hlt⟩
      · obtain ⟨framed', hbody, hwell⟩ := ih hloop
        refine ⟨framed && framed', .cons hrecord hbody, fun hboth => ?_⟩
        rw [Bool.and_eq_true] at hboth
        obtain ⟨f, rfl, hyields⟩ := hframe hboth.1
        exact wellFramed_cons hyields (hwell hboth.2)
      · rw [readAttributes_short hpos hlt] at hloop
        cases hloop

theorem readAttributes_of_body
    (h : Body cls framed body) (transactionId : List UInt8)
    (hfuel : body.length ≤ fuel) :
    ∃ attrs, readAttributes cls transactionId fuel body = some attrs := by
  induction h generalizing fuel with
  | nil => exact ⟨[], by cases fuel <;> simp [readAttributes]⟩
  | @cons framed framed' bytes rest hrecord _ ih =>
    have hfour := Record.four_le_length hrecord
    rw [List.length_append] at hfuel
    obtain ⟨fuel, rfl⟩ : ∃ n, fuel = n + 1 :=
      Nat.exists_eq_add_one.mpr (by omega)
    obtain ⟨attr, hround⟩ := readAttribute_of_record hrecord transactionId
    obtain ⟨attrs, hloop⟩ := ih (show rest.length ≤ fuel by omega)
    refine ⟨attr.toList ++ attrs, ?_⟩
    rw [readAttributes, if_pos (by rw [List.length_append]; omega), hround]
    simp [hloop]

theorem not_wellFramed_of_body
    (h : Body cls framed body) (hframed : framed = false)
    (hsize : body.length ≤ 65535) (attrs : List StunAttribute) :
    ¬WellFramed cls transactionId body attrs := by
  induction h generalizing attrs with
  | nil => cases hframed
  | @cons framed framed' bytes rest hrecord hbody ih =>
    rintro ⟨frames, yielded, heq, hyielded, -⟩
    cases hyielded with
    | nil =>
      have hfour := Record.four_le_length hrecord
      have hnil := (List.append_eq_nil_iff.mp heq).1
      rw [hnil] at hfour
      cases hfour
    | @cons f attr frames yielded hyields hrest =>
      rw [List.flatMap_cons] at heq
      cases framed with
      | false => exact not_frame_of_record hrecord hsize hyields heq
      | true =>
        have hrestEq := frame_eq_of_record hrecord heq
        rw [List.length_append] at hsize
        exact ih (by simpa using hframed) (by omega) _
          ⟨frames, yielded, hrestEq, hrest, rfl⟩

/-- The header is well formed, and the bytes after it split into records that
`Read` accepts, one of which is not a frame. -/
def Misframed (cls : MessageClass) (buf : List UInt8) : Prop :=
  ∃ (type length : UInt16) (ids body : List UInt8),
    buf = writeUInt16 type ++ writeUInt16 length ++ ids ++ body ∧
    type &&& 0x8000 = 0 ∧
    ids.length = kStunMagicCookieLength + kStunTransactionIdLength ∧
    length.toNat = body.length ∧
    Body cls false body

/-- What an accepted message should satisfy: its length is that of the bytes
after the header, and these are well framed. -/
def WellFramedMessage (cls : MessageClass) (buf : List UInt8)
    (msg : StunMessage) : Prop :=
  msg.length.toNat = (buf.drop kStunHeaderSize).length ∧
    WellFramed cls msg.transactionId (buf.drop kStunHeaderSize) msg.attrs

theorem drop_header {type length : UInt16} {ids : List UInt8}
    (h : ids.length = kStunMagicCookieLength + kStunTransactionIdLength) :
    (writeUInt16 type ++ writeUInt16 length ++ ids ++ body).drop
      kStunHeaderSize = body := by
  apply List.drop_left'
  simp [h, kStunMagicCookieLength, kStunTransactionIdLength, kStunHeaderSize]

/-- `Read` accepts only well-framed messages, unless the message has one of
the three kinds of record that are no frames. -/
theorem read_wellFramed_iff (cls : MessageClass) (buf : List UInt8) :
    (∀ msg, read cls buf = some msg → WellFramedMessage cls buf msg) ↔
      ¬Misframed cls buf := by
  constructor
  · rintro h ⟨type, length, ids, body, rfl, htype, hids, hlength, hbody⟩
    have hsize : body.length ≤ 65535 :=
      hlength ▸ Nat.le_of_lt_succ length.toNat_lt
    have hcookie : (ids.take kStunMagicCookieLength).length =
        kStunMagicCookieLength := by
      rw [List.length_take, hids]
      exact Nat.min_eq_left (Nat.le_add_right _ _)
    have hid : (ids.drop kStunMagicCookieLength).length =
        kStunTransactionIdLength := by
      rw [List.length_drop, hids, Nat.add_sub_cancel_left]
    obtain ⟨attrs, hattrs⟩ := readAttributes_of_body hbody
      (readTransactionId (ids.take kStunMagicCookieLength)
        (ids.drop kStunMagicCookieLength)) le_rfl
    have hread := h ⟨type, length, _, attrs⟩ (read_eq_some_iff.mpr
      ⟨ids.take kStunMagicCookieLength, ids.drop kStunMagicCookieLength, body,
        by rw [List.append_assoc (_ ++ _) (List.take _ _),
          List.take_append_drop], hcookie, hid, htype, rfl, hlength, hattrs⟩)
    have hframed := hread.2
    rw [drop_header hids] at hframed
    exact not_wellFramed_of_body hbody rfl hsize attrs hframed
  · intro h msg hread
    obtain ⟨magicCookie, transactionId, body, rfl, hcookie, hid, htype, -,
      hlength, hattrs⟩ := read_eq_some_iff.mp hread
    have hids : (magicCookie ++ transactionId).length =
        kStunMagicCookieLength + kStunTransactionIdLength := by
      rw [List.length_append, hcookie, hid]
    rw [List.append_assoc (_ ++ _) magicCookie] at h ⊢
    rw [WellFramedMessage, drop_header hids]
    obtain ⟨framed, hbody, hwell⟩ := body_of_readAttributes hattrs
    cases framed with
    | true => exact ⟨hlength, hwell rfl⟩
    | false =>
      exact absurd ⟨msg.type, msg.length, magicCookie ++ transactionId,
        body, rfl, htype, hids, hlength, hbody⟩ h

/-- A message of one unknown attribute that declares 65535 bytes and has
none is accepted. -/
def wrappedSample : List UInt8 :=
  [0x00, 0x01, 0x00, 0x04, 0x21, 0x12, 0xA4, 0x42,
    1, 2, 3, 4, 5, 6, 7, 8, 9, 10, 11, 12,
    0x00, 0x02, 0xFF, 0xFF]

theorem not_forall_read_wellFramed :
    ¬∀ cls buf msg, read cls buf = some msg →
      WellFramedMessage cls buf msg := by
  intro h
  have hread : read .stun wrappedSample =
      some ⟨1, 4, [1, 2, 3, 4, 5, 6, 7, 8, 9, 10, 11, 12], []⟩ := by decide
  obtain ⟨-, frames, yielded, heq, hyielded, -⟩ := h _ _ _ hread
  cases hyielded with
  | nil => cases heq
  | @cons f attr frames yielded hyields _ =>
    have hrecord : Record .stun false
        (writeUInt16 0x0002 ++ writeUInt16 0xFFFF) [] :=
      .wrapped _ _ _ (by decide) (by decide)
    exact not_frame_of_record hrecord (by decide) hyields heq

end StunMessage

end WebrtcWinXp.Stun
