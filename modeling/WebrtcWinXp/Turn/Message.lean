import WebrtcWinXp.Stun.Integrity
import Mathlib.Tactic.IntervalCases

/-!
# TURN messages

The message types, error codes and timeouts of the TURN server, the typed
access to attributes, the responses to a request, and the nonces with which
requests are authorised.  HMAC-MD5, as a string of hexadecimal digits, is a
parameter.
-/

namespace WebrtcWinXp.Turn

open Support Stun ByteBuffer

abbrev TurnMessage := StunMessage

def kNonceTimeout : ℕ := 60 * 60 * 1000

def kDefaultAllocationTimeout : ℕ := 10 * 60 * 1000

def kPermissionTimeout : ℕ := 5 * 60 * 1000

def kChannelTimeout : ℕ := 10 * 60 * 1000

def kMinChannelNumber : ℕ := 0x4000

def kMaxChannelNumber : ℕ := 0x7FFF

def kNonceSize : ℕ := 40

def TURN_CHANNEL_HEADER_SIZE : ℕ := 4

def STUN_BINDING_REQUEST : UInt16 := 0x0001
def STUN_ALLOCATE_REQUEST : UInt16 := 0x0003
def STUN_ALLOCATE_RESPONSE : UInt16 := 0x0103
def TURN_REFRESH_REQUEST : UInt16 := 0x0004
def TURN_REFRESH_RESPONSE : UInt16 := 0x0104
def TURN_SEND_INDICATION : UInt16 := 0x0016
def TURN_DATA_INDICATION : UInt16 := 0x0017
def TURN_CREATE_PERMISSION_REQUEST : UInt16 := 0x0008
def TURN_CHANNEL_BIND_REQUEST : UInt16 := 0x0009

def STUN_ATTR_USERNAME : UInt16 := 0x0006
def STUN_ATTR_ERROR_CODE : UInt16 := 0x0009
def STUN_ATTR_CHANNEL_NUMBER : UInt16 := 0x000C
def STUN_ATTR_LIFETIME : UInt16 := 0x000d
def STUN_ATTR_XOR_PEER_ADDRESS : UInt16 := 0x0012
def STUN_ATTR_DATA : UInt16 := 0x0013
def STUN_ATTR_REALM : UInt16 := 0x0014
def STUN_ATTR_NONCE : UInt16 := 0x0015
def STUN_ATTR_XOR_RELAYED_ADDRESS : UInt16 := 0x0016
def STUN_ATTR_REQUESTED_TRANSPORT : UInt16 := 0x0019
def STUN_ATTR_XOR_MAPPED_ADDRESS : UInt16 := 0x0020
def STUN_ATTR_SOFTWARE : UInt16 := 0x8022

def IPPROTO_UDP : ℕ := 17

/-- The codes and reasons of the error responses. -/
inductive TurnError where
  | badRequest
  | unauthorized
  | allocationMismatch
  | staleNonce
  | wrongCredentials
  | unsupportedProtocol
  | serverError
  deriving DecidableEq, Repr

def chars (s : String) : List UInt8 := s.toList.map fun c => UInt8.ofNat c.toNat

def TurnError.code : TurnError → ℤ
  | .badRequest => 400
  | .unauthorized => 401
  | .allocationMismatch => 437
  | .staleNonce => 438
  | .wrongCredentials => 441
  | .unsupportedProtocol => 442
  | .serverError => 500

def TurnError.reason : TurnError → List UInt8
  | .badRequest => chars "Bad Request"
  | .unauthorized => chars "Unauthorized"
  | .allocationMismatch => chars "Allocation Mismatch"
  | .staleNonce => chars "Stale Nonce"
  | .wrongCredentials => chars "Wrong Credentials"
  | .unsupportedProtocol => chars "Unsupported Protocol"
  | .serverError => chars "Failed to allocate socket"

def isTurnChannelData (msgType : UInt16) : Bool :=
  msgType &&& 0xC000 == 0x4000

def isStunRequestType (msgType : UInt16) : Bool :=
  msgType &&& 0x0110 == 0

/-- `GetStunSuccessResponseType`, with `none` for -1. -/
def getStunSuccessResponseType (reqType : UInt16) : Option UInt16 :=
  if isStunRequestType reqType then some (reqType ||| 0x100) else none

/-- `GetStunErrorResponseType`, with `none` for -1. -/
def getStunErrorResponseType (reqType : UInt16) : Option UInt16 :=
  if isStunRequestType reqType then some (reqType ||| 0x110) else none

def getAttribute (msg : TurnMessage) (type : UInt16) : Option StunAttribute :=
  msg.attrs.find? (·.type == type)

/-- `GetByteString(type)->GetString()`. -/
def getByteString (msg : TurnMessage) (type : UInt16) :
    Option (List UInt8) :=
  match (getAttribute msg type).map StunAttribute.value with
  | some (.byteString bytes) => some bytes
  | _ => none

/-- `GetUInt32(type)->value()`. -/
def getUInt32 (msg : TurnMessage) (type : UInt16) : Option UInt32 :=
  match (getAttribute msg type).map StunAttribute.value with
  | some (.uint32 bits) => some bits
  | _ => none

/-- `GetAddress(type)->GetAddress()`. -/
def getAddress (msg : TurnMessage) (type : UInt16) : Option SocketAddress :=
  match (getAttribute msg type).map StunAttribute.value with
  | some (.address addr) => some addr
  | some (.xorAddress addr _) => some addr
  | _ => none

/-! ## Responses -/

/-- `msg->AddAttribute(attr)`. -/
def addAttribute (attr : StunAttribute) (msg : TurnMessage) : TurnMessage :=
  msg.addAttribute .turn attr

/-- `InitResponse` on a fresh message, which is left as it is when the
request has no response type. -/
def initResponse (req : TurnMessage) : TurnMessage :=
  match getStunSuccessResponseType req.type with
  | none => StunMessage.new
  | some type =>
    (StunMessage.new.setType type.toNat).setTransactionID req.transactionId

/-- `InitErrorResponse` on a fresh message. -/
def initErrorResponse (req : TurnMessage) (error : TurnError) : TurnMessage :=
  match getStunErrorResponseType req.type with
  | none => StunMessage.new
  | some type =>
    addAttribute (.newErrorCode STUN_ATTR_ERROR_CODE error.code error.reason)
      ((StunMessage.new.setType type.toNat).setTransactionID
        req.transactionId)

/-- `msg'` is `msg` with attributes added. -/
structure Extends (msg msg' : TurnMessage) : Prop where
  type_eq : msg'.type = msg.type
  attrs_prefix : msg.attrs <+: msg'.attrs

theorem Extends.refl (msg : TurnMessage) : Extends msg msg :=
  ⟨rfl, List.prefix_rfl⟩

theorem Extends.trans {msg₁ msg₂ msg₃ : TurnMessage}
    (h : Extends msg₁ msg₂) (h' : Extends msg₂ msg₃) : Extends msg₁ msg₃ :=
  ⟨h'.type_eq.trans h.type_eq, h.attrs_prefix.trans h'.attrs_prefix⟩

theorem extends_addAttribute (attr : StunAttribute) (msg : TurnMessage) :
    Extends msg (addAttribute attr msg) := by
  unfold addAttribute StunMessage.addAttribute
  split
  · exact .refl msg
  · exact ⟨rfl, List.prefix_append _ _⟩

/-- `AddMessageIntegrity` changes no attribute that was there before. -/
theorem extends_addMessageIntegrity (hmac : Hmac) (key : List UInt8)
    (msg : TurnMessage) :
    Extends msg (msg.addMessageIntegrity .turn hmac key).2 := by
  have hadded : (msg.addAttribute .turn StunMessage.dummyMessageIntegrity) =
      { msg with
        attrs := msg.attrs ++ [StunMessage.dummyMessageIntegrity.setOwner]
        length := msg.length + 24 } := rfl
  unfold StunMessage.addMessageIntegrity
  rw [hadded]
  dsimp only
  split
  · exact ⟨rfl, List.prefix_append _ _⟩
  · refine ⟨rfl, ?_⟩
    simp [StunMessage.updateLast]

variable {msg msg' : TurnMessage}

theorem Extends.getAttribute (h : Extends msg msg')
    {type : UInt16} {attr : StunAttribute}
    (hattr : getAttribute msg type = some attr) :
    getAttribute msg' type = some attr := by
  obtain ⟨attrs, hattrs⟩ := h.attrs_prefix
  unfold Turn.getAttribute at hattr ⊢
  rw [← hattrs, List.find?_append, hattr]
  rfl

theorem Extends.getUInt32 (h : Extends msg msg')
    {type : UInt16} {bits : UInt32} (hbits : getUInt32 msg type = some bits) :
    getUInt32 msg' type = some bits := by
  cases hattr : Turn.getAttribute msg type with
  | none => simp [Turn.getUInt32, hattr] at hbits
  | some attr =>
    unfold Turn.getUInt32 at hbits ⊢
    rw [h.getAttribute hattr]
    rwa [hattr] at hbits

theorem type_setType (type : UInt16) (msg : TurnMessage) :
    (msg.setType type.toNat).type = type := by
  have hlt : (type.toNat : ℤ) < 2 ^ 16 := by exact_mod_cast type.toNat_lt
  rw [StunMessage.setType, UInt16.ofInt,
    Int.emod_eq_of_lt (Int.natCast_nonneg _) hlt, Int.toNat_natCast,
    UInt16.ofNat_toNat]

theorem type_setTransactionID (id : List UInt8) (msg : TurnMessage) :
    (msg.setTransactionID id).type = msg.type := by
  unfold StunMessage.setTransactionID
  split <;> rfl

theorem type_initResponse {req : TurnMessage}
    (h : isStunRequestType req.type = true) :
    (initResponse req).type = req.type ||| 0x100 := by
  unfold initResponse getStunSuccessResponseType
  rw [if_pos h]
  exact (type_setTransactionID _ _).trans (type_setType _ _)

/-- The messages that grant an allocation some time to live. -/
def IsGrant (msg : TurnMessage) : Prop :=
  msg.type = STUN_ALLOCATE_RESPONSE ∨ msg.type = TURN_REFRESH_RESPONSE

instance (msg : TurnMessage) : Decidable (IsGrant msg) :=
  inferInstanceAs (Decidable (_ ∨ _))

theorem Extends.isGrant_iff (h : Extends msg msg') :
    IsGrant msg' ↔ IsGrant msg := by
  unfold IsGrant
  rw [h.type_eq]

theorem or_0x110_and_0x10 (type : UInt16) :
    (type ||| 0x110) &&& 0x10 = 0x10 := by
  rw [← UInt16.toBitVec_inj]
  simp only [UInt16.toBitVec_and, UInt16.toBitVec_or]
  ext i hi
  simp
  intro h
  right
  interval_cases i <;> simp_all

/-- An error response, or the empty message where a request has no response
type, grants nothing. -/
theorem not_isGrant_initErrorResponse (req : TurnMessage)
    (error : TurnError) : ¬IsGrant (initErrorResponse req error) := by
  unfold initErrorResponse getStunErrorResponseType
  by_cases h : isStunRequestType req.type = true
  · rw [if_pos h]
    intro hgrant
    rw [(extends_addAttribute _ _).isGrant_iff, IsGrant,
      type_setTransactionID, type_setType] at hgrant
    have hbit := or_0x110_and_0x10 req.type
    rcases hgrant with hgrant | hgrant <;>
      · rw [hgrant] at hbit
        cases hbit
  · rw [if_neg h]
    show ¬IsGrant StunMessage.new
    decide

/-- `ComputeHmac(DIGEST_MD5, …)`, of a key and a message. -/
abbrev HmacMd5 := List UInt8 → List UInt8 → List UInt8

/-- `hex_encode(unsigned char)`. -/
def hexDigit (val : UInt8) : UInt8 :=
  if val < 10 then 0x30 + val else 0x61 + (val - 10)

def hexEncode (source : List UInt8) : List UInt8 :=
  source.flatMap fun (ch : UInt8) =>
    [hexDigit (ch >>> 4), hexDigit (ch &&& 0xF)]

/-- `hex_decode(char, …)`, which accepts every letter. -/
def hexValue (ch : UInt8) : Option UInt8 :=
  if 0x30 ≤ ch ∧ ch ≤ 0x39 then some (ch - 0x30)
  else if 0x41 ≤ ch ∧ ch ≤ 0x5A then some (ch - 0x41 + 10)
  else if 0x61 ≤ ch ∧ ch ≤ 0x7A then some (ch - 0x61 + 10)
  else none

/-- The loop of `hex_decode`. -/
def hexDecode : List UInt8 → Option (List UInt8)
  | [] => some []
  | [_] => none
  | c₁ :: c₂ :: rest => do
      let h₁ ← hexValue c₁
      let h₂ ← hexValue c₂
      let bytes ← hexDecode rest
      some ((h₁ <<< 4 ||| h₂) :: bytes)

/-- `rtc::Time()` as the bytes of a `uint32`. -/
def timeBytes (now : ℕ) : List UInt8 := toLE 4 now

/-- `TimeDiff(later, earlier)`. -/
def timeDiff (later earlier : UInt32) : ℤ := (later - earlier).toBitVec.toInt

/-- `TurnServer::GenerateNonce`. -/
def generateNonce (hmacMd5 : HmacMd5) (nonceKey : List UInt8) (now : ℕ) :
    List UInt8 :=
  hexEncode (timeBytes now) ++ hmacMd5 nonceKey (timeBytes now)

/-- `TurnServer::ValidateNonce`. -/
def validateNonce (hmacMd5 : HmacMd5) (nonceKey : List UInt8) (now : ℕ)
    (nonce : List UInt8) : Bool :=
  if nonce.length ≠ kNonceSize then false
  else
    match hexDecode (nonce.take 8) with
    | none => false
    | some p =>
      if nonce.drop 8 ≠ hmacMd5 nonceKey p then false
      else
        timeDiff (UInt32.ofNat now) (UInt32.ofNat (ofLE p)) < kNonceTimeout

end WebrtcWinXp.Turn
