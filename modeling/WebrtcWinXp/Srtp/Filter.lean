import WebrtcWinXp.Support.Transition
import Mathlib.Data.List.Basic

/-!
# The SRTP filter

A filter takes part in the negotiation of the crypto parameters of a media
content and owns the sessions that protect and unprotect its packets.  Whether
it is active is read off the order of its states.
-/

namespace WebrtcWinXp.Srtp

/-- `CS_LOCAL` and `CS_REMOTE`. -/
inductive ContentSource where
  | csLocal
  | csRemote
  deriving DecidableEq

structure CryptoParams where
  tag : Int
  cipherSuite : String
  keyParams : String
  sessionParams : String
  deriving DecidableEq

def CryptoParams.empty : CryptoParams := ⟨0, "", "", ""⟩

/-- `Matches` of two crypto parameters. -/
def CryptoParams.matchesParams (p q : CryptoParams) : Bool :=
  p.tag = q.tag ∧ p.cipherSuite = q.cipherSuite

def CS_AES_CM_128_HMAC_SHA1_80 : String := "AES_CM_128_HMAC_SHA1_80"
def CS_AES_CM_128_HMAC_SHA1_32 : String := "AES_CM_128_HMAC_SHA1_32"

def SRTP_MASTER_KEY_LEN : ℕ := 30

/-- `ssrc_any_outbound` and `ssrc_any_inbound`. -/
inductive SsrcType where
  | anyOutbound
  | anyInbound
  deriving DecidableEq

/-- The policy that `srtp_create` gets. -/
structure Policy where
  type : SsrcType
  cipherSuite : String
  key : List UInt8
  deriving DecidableEq

/-- A session with its `session_`, if that has been created. -/
structure SrtpSession where
  policy : Option Policy

namespace SrtpSession

def new : SrtpSession := ⟨none⟩

/-- Whether `SetKey` accepts a cipher suite and a key. -/
def supports (cs : String) (key : Option (List UInt8)) : Bool :=
  (cs = CS_AES_CM_128_HMAC_SHA1_80 ∨ cs = CS_AES_CM_128_HMAC_SHA1_32) ∧
    ∃ k ∈ key, k.length = SRTP_MASTER_KEY_LEN

/-- `SetKey` for a key that may be null.  Whether `Init` and `srtp_create`
succeed is given. -/
def setKey (s : SrtpSession) (type : SsrcType) (cs : String)
    (key : Option (List UInt8)) (created : Bool) : SrtpSession × Bool :=
  if s.policy.isSome then (s, false)
  else if !supports cs key then (s, false)
  else if !created then (s, false)
  else (⟨key.map fun k => ⟨type, cs, k⟩⟩, true)

def setSend (s : SrtpSession) : String → Option (List UInt8) → Bool →
    SrtpSession × Bool :=
  s.setKey .anyOutbound

def setRecv (s : SrtpSession) : String → Option (List UInt8) → Bool →
    SrtpSession × Bool :=
  s.setKey .anyInbound

end SrtpSession

/-! ## The filter -/

inductive State where
  | init
  | sentOffer
  | receivedOffer
  | sentPranswerNoCrypto
  | receivedPranswerNoCrypto
  | active
  | sentUpdatedOffer
  | receivedUpdatedOffer
  | sentPranswer
  | receivedPranswer
  deriving DecidableEq

structure SrtpFilter where
  state : State
  offerParams : List CryptoParams
  sendSession : Option SrtpSession
  recvSession : Option SrtpSession
  sendRtcpSession : Option SrtpSession
  recvRtcpSession : Option SrtpSession
  appliedSendParams : CryptoParams
  appliedRecvParams : CryptoParams

/-- Whether the creation of the send and of the receive session succeeds in
the library. -/
structure Created where
  send : Bool
  recv : Bool

namespace SrtpFilter

def new : SrtpFilter where
  state := .init
  offerParams := []
  sendSession := none
  recvSession := none
  sendRtcpSession := none
  recvRtcpSession := none
  appliedSendParams := .empty
  appliedRecvParams := .empty

section

variable (f : SrtpFilter)

def isActive : Bool := State.active.ctorIdx ≤ f.state.ctorIdx

def expectOffer (source : ContentSource) : Bool :=
  f.state = .init ∨ f.state = .active ∨
    (f.state = .sentOffer ∧ source = .csLocal) ∨
    (f.state = .sentUpdatedOffer ∧ source = .csLocal) ∨
    (f.state = .receivedOffer ∧ source = .csRemote) ∨
    (f.state = .receivedUpdatedOffer ∧ source = .csRemote)

def storeParams (params : List CryptoParams) (source : ContentSource) :
    SrtpFilter :=
  { f with
    offerParams := params
    state :=
      if f.state = .init then
        if source = .csLocal then .sentOffer else .receivedOffer
      else
        if source = .csLocal then .sentUpdatedOffer
        else .receivedUpdatedOffer }

def setOffer (offerParams : List CryptoParams) (source : ContentSource) :
    SrtpFilter × Bool :=
  if !f.expectOffer source then (f, false)
  else (f.storeParams offerParams source, true)

def expectAnswer (source : ContentSource) : Bool :=
  (f.state = .sentOffer ∧ source = .csRemote) ∨
    (f.state = .receivedOffer ∧ source = .csLocal) ∨
    (f.state = .sentUpdatedOffer ∧ source = .csRemote) ∨
    (f.state = .receivedUpdatedOffer ∧ source = .csLocal) ∨
    (f.state = .sentPranswerNoCrypto ∧ source = .csLocal) ∨
    (f.state = .sentPranswer ∧ source = .csLocal) ∨
    (f.state = .receivedPranswerNoCrypto ∧ source = .csRemote) ∨
    (f.state = .receivedPranswer ∧ source = .csRemote)

def resetParams : SrtpFilter :=
  { f with
    offerParams := []
    state := .init }

def createSrtpSessions : SrtpFilter :=
  { f with
    sendSession := some .new
    appliedSendParams := .empty
    recvSession := some .new
    appliedRecvParams := .empty }

/-- The offered parameters that match the single parameters of an answer. -/
def negotiateParams (answerParams : List CryptoParams) : Option CryptoParams :=
  match answerParams with
  | [answer] => f.offerParams.find? answer.matchesParams
  | _ => none

/-- Whether parameters are the ones that are applied already. -/
def sameParams (sendParams recvParams : CryptoParams) : Bool :=
  f.appliedSendParams.cipherSuite = sendParams.cipherSuite ∧
    f.appliedSendParams.keyParams = sendParams.keyParams ∧
    f.appliedRecvParams.cipherSuite = recvParams.cipherSuite ∧
    f.appliedRecvParams.keyParams = recvParams.keyParams

/-- Key both sessions, the receive session only after the send session. -/
def setKeys (sendCs : String) (sendKey : Option (List UInt8)) (recvCs : String)
    (recvKey : Option (List UInt8)) (created : Created) : SrtpFilter × Bool :=
  let f := f.createSrtpSessions
  let (send, sent) := SrtpSession.new.setSend sendCs sendKey created.send
  let f :=
    { f with
      sendSession := some send }
  if !sent then (f, false)
  else
    let (recv, received) := SrtpSession.new.setRecv recvCs recvKey created.recv
    ({ f with
       recvSession := some recv }, received)

def setRtpParams (sendCs : String) (sendKey : Option (List UInt8))
    (recvCs : String) (recvKey : Option (List UInt8)) (created : Created) :
    SrtpFilter × Bool :=
  if f.state = .active then (f, false)
  else
    let (f, ok) := f.setKeys sendCs sendKey recvCs recvKey created
    if !ok then (f, false)
    else
      ({ f with
         state := .active }, true)

end

section

/- The base64 decoder. -/
variable (decode : String → Option (List UInt8))

/-- `ParseKeyParams` for a key of `SRTP_MASTER_KEY_LEN` bytes. -/
def parseKeyParams (keyParams : String) : Option (List UInt8) :=
  if !"inline:".toList.isPrefixOf keyParams.toList then none
  else
    match decode (String.ofList (keyParams.toList.drop 7)) with
    | none => none
    | some key => if key.length ≠ SRTP_MASTER_KEY_LEN then none else some key

variable (f : SrtpFilter)

def applyParams (sendParams recvParams : CryptoParams) (created : Created) :
    SrtpFilter × Bool :=
  if f.sameParams sendParams recvParams then (f, true)
  else
    match parseKeyParams decode sendParams.keyParams,
        parseKeyParams decode recvParams.keyParams with
    | some sendKey, some recvKey =>
      let (f, ok) := f.setKeys sendParams.cipherSuite sendKey
        recvParams.cipherSuite recvKey created
      if ok then
        ({ f with
           appliedSendParams := sendParams
           appliedRecvParams := recvParams }, true)
      else (f, false)
    | _, _ => (f, false)

def doSetAnswer (answerParams : List CryptoParams) (source : ContentSource)
    (final : Bool) (created : Created) : SrtpFilter × Bool :=
  if !f.expectAnswer source then (f, false)
  else
    match answerParams with
    | [] =>
      if final then (f.resetParams, true)
      else
        ({ f with
           state :=
             if source = .csLocal then .sentPranswerNoCrypto
             else .receivedPranswerNoCrypto }, true)
    | answer :: _ =>
      match f.negotiateParams answerParams with
      | none => (f, false)
      | some selected =>
        let sendParams := if source = .csRemote then selected else answer
        let recvParams := if source = .csRemote then answer else selected
        let (f, ok) := f.applyParams decode sendParams recvParams created
        if !ok then (f, false)
        else if final then
          ({ f with
             offerParams := []
             state := .active }, true)
        else
          ({ f with
             state :=
               if source = .csLocal then .sentPranswer
               else .receivedPranswer }, true)

end

/-- What becomes of a packet: it is refused, a missing session is used, or it
goes to the library with a policy. -/
inductive PacketUse where
  | refused
  | missing
  | keyed (policy : Policy)
  deriving DecidableEq

/-- The check for `session_` in the functions of a session. -/
def useSession : Option SrtpSession → PacketUse
  | none => .missing
  | some s =>
    match s.policy with
    | none => .refused
    | some policy => .keyed policy

variable (f : SrtpFilter)

def protectRtp : PacketUse :=
  if !f.isActive then .refused else useSession f.sendSession

def protectRtcp : PacketUse :=
  if !f.isActive then .refused
  else if f.sendRtcpSession.isSome then useSession f.sendRtcpSession
  else useSession f.sendSession

def unprotectRtp : PacketUse :=
  if !f.isActive then .refused else useSession f.recvSession

def unprotectRtcp : PacketUse :=
  if !f.isActive then .refused
  else if f.recvRtcpSession.isSome then useSession f.recvRtcpSession
  else useSession f.recvSession

end SrtpFilter

end WebrtcWinXp.Srtp
