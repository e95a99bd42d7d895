import WebrtcWinXp.MediaSession.Offer
import WebrtcWinXp.MediaSession.Streams

/-!
# Answers

An answer has a section for each content of the offer, which negotiates with
the first content of its media type. With bundling the sections then share
their transport and their cryptos.
-/

namespace WebrtcWinXp.MediaSession

open Support

def kInline : Str := ['i', 'n', 'l', 'i', 'n', 'e', ':']

def kAutoBandwidth : Int32 := -1

def CS_AES_CM_128_HMAC_SHA1_80 : Str :=
  ['A', 'E', 'S', '_', 'C', 'M', '_', '1', '2', '8', '_', 'H', 'M', 'A', 'C',
    '_', 'S', 'H', 'A', '1', '_', '8', '0']

def CS_AES_CM_128_HMAC_SHA1_32 : Str :=
  ['A', 'E', 'S', '_', 'C', 'M', '_', '1', '2', '8', '_', 'H', 'M', 'A', 'C',
    '_', 'S', 'H', 'A', '1', '_', '3', '2']

def kMediaProtocolAvpf : Str := ['R', 'T', 'P', '/', 'A', 'V', 'P', 'F']

def kMediaProtocolSavpf : Str := ['R', 'T', 'P', '/', 'S', 'A', 'V', 'P', 'F']

def kMediaProtocolDtlsSavpf : Str :=
  ['U', 'D', 'P', '/', 'T', 'L', 'S', '/', 'R', 'T', 'P', '/', 'S', 'A', 'V',
    'P', 'F']

def kMediaProtocolRtpPrefix : Str := ['R', 'T', 'P', '/']

def kMediaProtocolSctp : Str := ['S', 'C', 'T', 'P']

def kMediaProtocolDtlsSctp : Str :=
  ['D', 'T', 'L', 'S', '/', 'S', 'C', 'T', 'P']

def GROUP_TYPE_BUNDLE : Str := ['B', 'U', 'N', 'D', 'L', 'E']

inductive DataChannelType where
  | none
  | rtp
  | sctp
  deriving DecidableEq

structure TransportOptions where
  iceRestart : Bool

structure MediaSessionOptions where
  hasAudio : Bool
  hasVideo : Bool
  dataChannelType : DataChannelType
  vadEnabled : Bool
  rtcpMuxEnabled : Bool
  bundleEnabled : Bool
  videoBandwidth : Int32
  dataBandwidth : Int32
  transportOptions : TransportOptions
  streams : List Stream

namespace MediaSessionOptions

def hasData (options : MediaSessionOptions) : Bool :=
  options.dataChannelType ≠ .none

end MediaSessionOptions

namespace ContentDescription

def protocol : ContentDescription → Str
  | audio desc => desc.protocol
  | video desc => desc.protocol
  | data desc => desc.protocol

def cryptos : ContentDescription → List CryptoParams
  | audio desc => desc.cryptos
  | video desc => desc.cryptos
  | data desc => desc.cryptos

def streams : ContentDescription → List StreamParams
  | audio desc => desc.streams
  | video desc => desc.streams
  | data desc => desc.streams

def setCryptos (cryptos : List CryptoParams) :
    ContentDescription → ContentDescription
  | audio desc =>
    .audio { desc with
      cryptos := cryptos }
  | video desc =>
    .video { desc with
      cryptos := cryptos }
  | data desc =>
    .data { desc with
      cryptos := cryptos }

end ContentDescription

/-- A kind of codecs, and the descriptions that have its codecs. -/
class MediaKind (κ : Type) extends CodecKind κ where
  type : MediaType
  content : MediaContentDescription κ → ContentDescription
  description? : ContentDescription → Option (MediaContentDescription κ)
  description?_eq_some : ∀ {c d}, description? c = some d ↔ c = content d
  type_content : ∀ d, (content d).type = type
  exists_content : ∀ {c}, c.type = type → ∃ d, c = content d
  protocol_content : ∀ d, (content d).protocol = d.protocol
  cryptos_content : ∀ d, (content d).cryptos = d.cryptos
  setCryptos_content : ∀ d cryptos, (content d).setCryptos cryptos =
    content { d with
      cryptos := cryptos }

attribute [simp] MediaKind.type_content MediaKind.protocol_content
  MediaKind.cryptos_content MediaKind.setCryptos_content

instance : MediaKind AudioFields where
  type := .audio
  content := .audio
  description? := ContentDescription.audio?
  description?_eq_some {c d} := by cases c <;> simp [ContentDescription.audio?]
  type_content _ := rfl
  exists_content {c} := by cases c <;> simp [ContentDescription.type]
  protocol_content _ := rfl
  cryptos_content _ := rfl
  setCryptos_content _ _ := rfl

instance : MediaKind VideoFields where
  type := .video
  content := .video
  description? := ContentDescription.video?
  description?_eq_some {c d} := by cases c <;> simp [ContentDescription.video?]
  type_content _ := rfl
  exists_content {c} := by cases c <;> simp [ContentDescription.type]
  protocol_content _ := rfl
  cryptos_content _ := rfl
  setCryptos_content _ _ := rfl

instance : MediaKind Unit where
  type := .data
  content := .data
  description? := ContentDescription.data?
  description?_eq_some {c d} := by cases c <;> simp [ContentDescription.data?]
  type_content _ := rfl
  exists_content {c} := by cases c <;> simp [ContentDescription.type]
  protocol_content _ := rfl
  cryptos_content _ := rfl
  setCryptos_content _ _ := rfl

namespace ContentGroup

def hasContentName (group : ContentGroup) (name : Str) : Bool :=
  group.contentNames.contains name

def addContentName (group : ContentGroup) (name : Str) : ContentGroup :=
  if group.hasContentName name then group
  else
    { group with
      contentNames := group.contentNames ++ [name] }

end ContentGroup

namespace SessionDescription

variable (sdesc : SessionDescription)

def getContentByName (name : Str) : Option ContentInfo :=
  sdesc.contents.find? fun content => content.name = name

def getTransportInfoByName (name : Str) : Option TransportInfo :=
  sdesc.transportInfos.find? fun info => info.contentName = name

def getGroupByName (name : Str) : Option ContentGroup :=
  sdesc.contentGroups.find? fun group => group.semantics = name

def hasGroup (name : Str) : Bool :=
  sdesc.contentGroups.any fun group => group.semantics = name

def addContent (content : ContentInfo) : SessionDescription :=
  { sdesc with
    contents := sdesc.contents ++ [content] }

/-- `AddTransportInfo`, which keeps the one that is there. -/
def addTransportInfo (info : TransportInfo) : Option SessionDescription :=
  match sdesc.getTransportInfoByName info.contentName with
  | some _ => none
  | none =>
    some { sdesc with
      transportInfos := sdesc.transportInfos ++ [info] }

def addGroup (group : ContentGroup) : SessionDescription :=
  { sdesc with
    contentGroups := sdesc.contentGroups ++ [group] }

def getTransportDescription (name : Str) : Option TransportDescription :=
  (sdesc.getTransportInfoByName name).map TransportInfo.description

end SessionDescription

section

variable {κ : Type} [CodecKind κ]

/-- What the answer to an offered codec takes from ours and from theirs. -/
def negotiate (ours theirs : Codec κ) : Option (Codec κ) :=
  if ours.Matches theirs then
    let negotiated := ours.intersectFeedbackParams theirs
    if negotiated.isRtx then
      (theirs.getParam kCodecParamAssociatedPayloadType).map fun apt =>
        { negotiated.setParam kCodecParamAssociatedPayloadType apt with
          id := theirs.id
          preference := theirs.preference }
    else
      some { negotiated with
        id := theirs.id
        preference := theirs.preference }
  else none

def negotiateCodecs (localCodecs offeredCodecs : List (Codec κ)) :
    List (Codec κ) :=
  localCodecs.flatMap fun ours => offeredCodecs.filterMap (negotiate ours)

omit [CodecKind κ] in
/-- `SortCodecs`, by decreasing preference. -/
def sortCodecs (codecs : List (Codec κ)) : List (Codec κ) :=
  codecs.insertionSort fun a b => b.preference ≤ a.preference

end

def negotiateRtpHeaderExtensions
    (localExtensions offeredExtensions : List RtpHeaderExtension) :
    List RtpHeaderExtension :=
  localExtensions.filterMap (findByUri offeredExtensions)

def stripCNCodecs (audioCodecs : List AudioCodec) : List AudioCodec :=
  audioCodecs.filter fun codec => !stricmpEq codec.name kComfortNoiseCodecName

/-- `CreateCryptoParams`, which draws a key. -/
def createCryptoParams (tag : Int32) (cipher : Str) (random : Random) :
    Option (Option CryptoParams × Random) :=
  match random.strings with
  | [] => none
  | key :: strings =>
    some (key.map fun key => ⟨tag, cipher, kInline ++ key, []⟩,
      ⟨random.ids, strings⟩)

def isSupportedCrypto (type : MediaType) (bundle : Bool)
    (crypto : CryptoParams) : Bool :=
  crypto.cipherSuite = CS_AES_CM_128_HMAC_SHA1_80 ||
    (crypto.cipherSuite = CS_AES_CM_128_HMAC_SHA1_32 &&
      decide (type = .audio) && !bundle)

def selectCrypto (type : MediaType) (cryptos : List CryptoParams)
    (bundle : Bool) (random : Random) :
    Option (Option CryptoParams × Random) :=
  match cryptos.find? (isSupportedCrypto type bundle) with
  | some crypto => createCryptoParams crypto.tag crypto.cipherSuite random
  | none => some (none, random)

def findMatchingCrypto (cryptos : List CryptoParams) (crypto : CryptoParams) :
    Option CryptoParams :=
  cryptos.find? crypto.Matches

def isMediaProtocolSupported (type : MediaType) (protocol : Str)
    (secureTransport : Bool) : Bool :=
  (decide (type = .data) &&
      ((decide (protocol = kMediaProtocolSctp) && !secureTransport) ||
        (decide (protocol = kMediaProtocolDtlsSctp) && secureTransport))) ||
    decide (protocol = kMediaProtocolAvpf) || protocol.isEmpty ||
    decide (protocol = kMediaProtocolSavpf) ||
    (decide (protocol = kMediaProtocolDtlsSavpf) && secureTransport)

def isSctp (protocol : Str) : Bool :=
  protocol = kMediaProtocolSctp || protocol = kMediaProtocolDtlsSctp

def answerDirection : MediaContentDirection → MediaContentDirection
  | .inactive => .inactive
  | .sendonly => .recvonly
  | .recvonly => .sendonly
  | .sendrecv => .sendrecv

/-- How a transport is answered. Whether the ICE variants and the security of
an offered transport can be answered is left open, and so is the fingerprint
of the answer. -/
structure TransportDescriptionFactory where
  negotiate : Option TransportDescription → Option (Option Str)

/-- `TransportDescriptionFactory::CreateAnswer`. -/
def TransportDescriptionFactory.createAnswer
    (factory : TransportDescriptionFactory)
    (offer : Option TransportDescription) (options : TransportOptions)
    (current : Option TransportDescription) (random : Random) :
    Option (TransportDescription × Random) := do
  let fingerprint ← factory.negotiate offer
  match current, options.iceRestart, random.strings with
  | some current, false, _ =>
    some (⟨current.iceUfrag, current.icePwd, fingerprint⟩, random)
  | _, _, ufrag :: pwd :: strings =>
    some (⟨ufrag.getD [], pwd.getD [], fingerprint⟩, ⟨random.ids, strings⟩)
  | _, _, _ => none

/-! ## Sections -/

/-- What a kind of section is answered with. -/
structure AnswerSection (κ : Type) where
  enabled : Bool
  codecs : List (Codec κ)
  rtpExtensions : List RtpHeaderExtension
  bandwidth : Int32
  /-- Whether a failure to add the transport is overlooked. -/
  lenient : Bool

structure AnswerState where
  answer : SessionDescription
  currentStreams : List StreamParams
  random : Random

/-- What `CreateAnswer` is called with, and on. -/
structure Negotiation where
  factory : MediaSessionDescriptionFactory
  transportDescFactory : TransportDescriptionFactory
  offer : SessionDescription
  options : MediaSessionOptions
  currentDescription : Option SessionDescription

namespace Negotiation

variable (n : Negotiation)

def bundleEnabled : Bool :=
  n.offer.hasGroup GROUP_TYPE_BUNDLE && n.options.bundleEnabled

def createTransportAnswer (name : Str) (random : Random) :
    Option (TransportDescription × Random) :=
  n.transportDescFactory.createAnswer (n.offer.getTransportDescription name)
    n.options.transportOptions
    (n.currentDescription.bind fun desc => desc.getTransportDescription name)
    random

section

variable {κ : Type} [MediaKind κ]

def answerCryptos (offer : MediaContentDescription κ)
    (sdesPolicy : SecurePolicy) (random : Random) :
    Option (List CryptoParams × Random) :=
  if sdesPolicy = .disabled then some ([], random)
  else do
    let (crypto, random) ← selectCrypto (MediaKind.type κ) offer.cryptos
      n.bundleEnabled random
    let current := (n.currentDescription.bind fun desc =>
      desc.firstContent (MediaKind.type κ)).map fun content =>
        content.description.cryptos
    let crypto := crypto.map fun crypto =>
      (current.bind fun cryptos => findMatchingCrypto cryptos crypto).getD
        crypto
    some (crypto.toList, random)

def createMediaContentAnswer (part : AnswerSection κ)
    (offer : MediaContentDescription κ) (sdesPolicy : SecurePolicy)
    (currentStreams : List StreamParams) (random : Random) :
    Option (MediaContentDescription κ × List StreamParams × Random) := do
  let codecs := sortCodecs (negotiateCodecs part.codecs offer.codecs)
  let (cryptos, random) ← n.answerCryptos offer sdesPolicy random
  if cryptos.isEmpty && (decide (offer.cryptoRequired = .sdes) ||
      decide (sdesPolicy = .required)) then none
  else
    let kind : StreamKind := ⟨MediaKind.type κ, isSctp offer.protocol,
      codecs.any Codec.isRtx⟩
    let added ← kind.addStreamParams n.options.streams n.factory.addLegacy
      currentStreams random
    some (
      { protocol := offer.protocol
        rtcpMux := n.options.rtcpMuxEnabled && offer.rtcpMux
        bandwidth := kAutoBandwidth
        cryptos := cryptos
        cryptoRequired := .none
        rtpHeaderExtensions := negotiateRtpHeaderExtensions part.rtpExtensions
          offer.rtpHeaderExtensions
        multistream := added.multistream
        streams := added.streams
        direction := answerDirection offer.direction
        codecs := codecs },
      added.currentStreams, added.random)

/-- A transport is added for the sections that are not rejected. -/
def addTransportAnswer (lenient : Bool) (answer : SessionDescription)
    (info : TransportInfo) : Option SessionDescription :=
  match answer.addTransportInfo info with
  | some answer => some answer
  | none => if lenient then some answer else none

def addContentForAnswer (part : AnswerSection κ) (s : AnswerState) :
    Option AnswerState := do
  let content ← n.offer.firstContent (MediaKind.type κ)
  let offered ← MediaKind.description? (κ := κ) content.description
  let (transport, random) ← n.createTransportAnswer content.name s.random
  -- SDES is not used on a DTLS transport.
  let sdesPolicy := if transport.secure then .disabled else n.factory.secure
  let (desc, currentStreams, random) ← n.createMediaContentAnswer part offered
    sdesPolicy s.currentStreams random
  if part.enabled && !content.rejected &&
      isMediaProtocolSupported (MediaKind.type κ) desc.protocol
        transport.secure then
    let answer ← addTransportAnswer part.lenient s.answer
      ⟨content.name, transport⟩
    let desc :=
      { desc with
        bandwidth := part.bandwidth }
    some ⟨answer.addContent ⟨content.name, content.type, false,
      MediaKind.content desc⟩, currentStreams, random⟩
  else
    some ⟨s.answer.addContent ⟨content.name, content.type, true,
      MediaKind.content desc⟩, currentStreams, random⟩

end

def audioSection : AnswerSection AudioFields where
  enabled := n.options.hasAudio
  codecs :=
    if n.options.vadEnabled then n.factory.audioCodecs
    else stripCNCodecs n.factory.audioCodecs
  rtpExtensions := n.factory.audioRtpExtensions
  bandwidth := kAutoBandwidth
  lenient := true

def videoSection : AnswerSection VideoFields where
  enabled := n.options.hasVideo
  codecs := n.factory.videoCodecs
  rtpExtensions := n.factory.videoRtpExtensions
  bandwidth := n.options.videoBandwidth
  lenient := false

/-- The data codecs are not filtered for the type of the data channel. -/
def dataSection : AnswerSection Unit where
  enabled := n.options.hasData
  codecs := n.factory.dataCodecs
  rtpExtensions := []
  bandwidth := n.options.dataBandwidth
  lenient := false

def addAudioContentForAnswer : AnswerState → Option AnswerState :=
  n.addContentForAnswer n.audioSection

def addVideoContentForAnswer : AnswerState → Option AnswerState :=
  n.addContentForAnswer n.videoSection

def addDataContentForAnswer : AnswerState → Option AnswerState :=
  n.addContentForAnswer n.dataSection

def addSection (s : AnswerState) (content : ContentInfo) :
    Option AnswerState :=
  match content.description.type with
  | .audio => n.addAudioContentForAnswer s
  | .video => n.addVideoContentForAnswer s
  | .data => n.addDataContentForAnswer s

end Negotiation

/-! ## Bundling -/

def updateTransportInfoForBundle (group : ContentGroup)
    (sdesc : SessionDescription) : Option SessionDescription := do
  let selectedName ← group.contentNames.head?
  let selected ← sdesc.getTransportDescription selectedName
  some { sdesc with
    transportInfos := sdesc.transportInfos.map fun info =>
      if group.hasContentName info.contentName &&
          decide (info.contentName ≠ selectedName) then
        ⟨info.contentName, selected.iceUfrag, selected.icePwd,
          info.description.identityFingerprint⟩
      else info }

/-- `PruneCryptos`, which keeps the cipher suites that are in the filter. -/
def pruneCryptos (filter target : List CryptoParams) : List CryptoParams :=
  target.filter fun crypto =>
    filter.any fun it => it.cipherSuite = crypto.cipherSuite

def isRtpProtocol (protocol : Str) : Bool :=
  protocol.isEmpty || kMediaProtocolRtpPrefix.isPrefixOf protocol

def isRtpContent (sdesc : SessionDescription) (name : Str) : Bool :=
  match sdesc.getContentByName name with
  | some content => isRtpProtocol content.description.protocol
  | none => false

structure CommonCryptos where
  needed : Bool
  cryptos : List CryptoParams

/-- The cryptos that the bundled contents have in common, which start with
those of the first name of the group. An error is what the function returns
before its loop is over. -/
def commonCryptos (sdesc : SessionDescription) (isBegin : Bool)
    (s : CommonCryptos) : List Str → Except Bool CommonCryptos
  | [] => .ok s
  | name :: names =>
    if isRtpContent sdesc name then
      match sdesc.getTransportDescription name,
          sdesc.getContentByName name with
      | some transport, some content =>
        let cryptos := content.description.cryptos
        let needed := s.needed || !transport.secure
        if isBegin then
          if cryptos.isEmpty then .error true
          else commonCryptos sdesc false ⟨needed, cryptos⟩ names
        else commonCryptos sdesc false
          ⟨needed, pruneCryptos cryptos s.cryptos⟩ names
      | _, _ => .error false
    else commonCryptos sdesc false s names

/-- The first content of a name gets other cryptos. -/
def setCryptosByName (cryptos : List CryptoParams) (name : Str) :
    List ContentInfo → List ContentInfo
  | [] => []
  | content :: contents =>
    if content.name = name then
      { content with
        description := content.description.setCryptos cryptos } :: contents
    else content :: setCryptosByName cryptos name contents

def setCommonCryptos (cryptos : List CryptoParams)
    (sdesc : SessionDescription) (name : Str) : SessionDescription :=
  if isRtpContent sdesc name then
    { sdesc with
      contents := setCryptosByName cryptos name sdesc.contents }
  else sdesc

/-- `UpdateCryptoParamsForBundle`: the description that it leaves, and what it
returns. -/
def updateCryptoParamsForBundle (group : ContentGroup)
    (sdesc : SessionDescription) : SessionDescription × Bool :=
  if group.contentNames.isEmpty then (sdesc, false)
  else
    match commonCryptos sdesc true ⟨false, []⟩ group.contentNames with
    | .error result => (sdesc, result)
    | .ok s =>
      if s.cryptos.isEmpty && s.needed then (sdesc, false)
      else
        (group.contentNames.foldl (setCommonCryptos s.cryptos) sdesc, true)

/-- The contents that are accepted and that the offer bundles. -/
def answerBundle (offerBundle : ContentGroup) (contents : List ContentInfo) :
    ContentGroup :=
  (contents.filter fun content =>
    !content.rejected && offerBundle.hasContentName content.name).foldl
      (fun group content => group.addContentName content.name)
      ⟨GROUP_TYPE_BUNDLE, []⟩

def getCurrentStreamParams (sdesc : Option SessionDescription) :
    List StreamParams :=
  match sdesc with
  | some sdesc =>
    sdesc.contents.flatMap fun content => content.description.streams
  | none => []

namespace Negotiation

variable (n : Negotiation)

/-- The end of `CreateAnswer`, which bundles the sections. -/
def bundleAnswer (answer : SessionDescription) : Option SessionDescription :=
  match n.offer.getGroupByName GROUP_TYPE_BUNDLE with
  | none => some answer
  | some offerBundle =>
    if n.options.bundleEnabled then
      let group := answerBundle offerBundle answer.contents
      if group.contentNames.isEmpty then some answer
      else do
        let answer ← updateTransportInfoForBundle group
          (answer.addGroup group)
        let (answer, updated) := updateCryptoParamsForBundle group answer
        if updated then some answer else none
    else some answer

/-- `MediaSessionDescriptionFactory::CreateAnswer`. -/
def createAnswer (random : Random) : Option SessionDescription := do
  let s ← n.offer.contents.foldlM n.addSection
    ⟨⟨[], [], []⟩, getCurrentStreamParams n.currentDescription, random⟩
  n.bundleAnswer s.answer

end Negotiation

end WebrtcWinXp.MediaSession
