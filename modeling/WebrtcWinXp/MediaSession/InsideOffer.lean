import WebrtcWinXp.MediaSession.Answer

/-!
# Answers inside their offers

What an answer may contain, and the offers and settings for which it contains
nothing else.
-/

namespace WebrtcWinXp.MediaSession

open Support

section

variable {κ : Type}

section

variable [CodecKind κ]

/-- An offered codec that a codec of ours answers. RTX codecs are only answered
when they have an associated payload type. -/
def Answers (ours theirs : Codec κ) : Prop :=
  ours.Matches theirs ∧
    (ours.isRtx → (theirs.getParam kCodecParamAssociatedPayloadType).isSome)

/-- A section of an answer that stays inside the contents that are offered
under its name. -/
structure Inside (offers : List (MediaContentDescription κ))
    (answer : MediaContentDescription κ) : Prop where
  distinct : (answer.codecs.map Codec.id).Nodup
  codecs : ∀ codec ∈ answer.codecs, ∃ offer ∈ offers,
    ∃ theirs ∈ offer.codecs, theirs.id = codec.id ∧ codec.Matches theirs
  rtx : ∀ codec ∈ answer.codecs, codec.isRtx →
    ∃ other ∈ answer.codecs, other.isRtx = false ∧
      other.id.toInt = codec.associatedPayloadType
  extensions : ∀ ext ∈ answer.rtpHeaderExtensions, ∃ offer ∈ offers,
    ext ∈ offer.rtpHeaderExtensions
  rtcpMux : answer.rtcpMux → ∃ offer ∈ offers, offer.rtcpMux
  cryptos : ∀ crypto ∈ answer.cryptos, ∃ offer ∈ offers,
    ∃ theirs ∈ offer.cryptos, crypto.Matches theirs

/-- The codecs of ours and theirs whose answers have distinct payload types and
complete RTX codecs. -/
structure CodecsFit (ours theirs : List (Codec κ)) : Prop where
  /-- No codec of ours answers a payload type twice. -/
  offeredOnce : ∀ codec ∈ ours, theirs.Pairwise fun a b =>
    Answers codec a → Answers codec b → a.id ≠ b.id
  /-- No two codecs of ours answer the same payload type. -/
  answeredOnce : ours.Pairwise fun codec other =>
    ∀ a ∈ theirs, ∀ b ∈ theirs, Answers codec a → Answers other b → a.id ≠ b.id
  /-- The RTX codecs that are answered refer to codecs that are answered. -/
  referenced : ∀ codec ∈ ours, codec.isRtx → ∀ a ∈ theirs, Answers codec a →
    ∃ other ∈ ours, other.isRtx = false ∧
      ∃ b ∈ theirs, Answers other b ∧ b.id.toInt = a.associatedPayloadType

end

variable [MediaKind κ]

/-- The contents that are offered under a name for a kind of codecs. -/
def SessionDescription.offeredAs (offer : SessionDescription) (name : Str) :
    List (MediaContentDescription κ) :=
  offer.contents.filterMap fun content =>
    if content.name = name then MediaKind.description? content.description
    else none

end

/-- A section of an answer stays inside the offer. -/
def InsideContent (offer : SessionDescription) (content : ContentInfo) :
    Prop :=
  match content.description with
  | .audio desc => Inside (offer.offeredAs content.name) desc
  | .video desc => Inside (offer.offeredAs content.name) desc
  | .data desc => Inside (offer.offeredAs content.name) desc

/-- An answer with the names of the offer in their positions, and with sections
that stay inside the offer. -/
structure InsideOffer (offer answer : SessionDescription) : Prop where
  names : answer.contents.map ContentInfo.name =
    offer.contents.map ContentInfo.name
  contents : ∀ content ∈ answer.contents, InsideContent offer content

namespace Negotiation

variable (n : Negotiation)

/-- Whether the transport of a content is answered with DTLS. -/
def secureAnswer (name : Str) : Bool :=
  ((n.transportDescFactory.negotiate
    (n.offer.getTransportDescription name)).getD none).isSome

def sdesPolicy (name : Str) : SecurePolicy :=
  if n.secureAnswer name then .disabled else n.factory.secure

def enabled : MediaType → Bool
  | .audio => n.options.hasAudio
  | .video => n.options.hasVideo
  | .data => n.options.hasData

def accepts (content : ContentInfo) : Bool :=
  n.enabled content.description.type && !content.rejected &&
    isMediaProtocolSupported content.description.type
      content.description.protocol (n.secureAnswer content.name)

/-- An offered content, with the decision on the first content of its media
type. -/
def decided (content : ContentInfo) : ContentInfo :=
  { content with
    rejected := !(n.offer.firstContent content.description.type).any n.accepts }

def bundledNames (offerBundle : ContentGroup) : List Str :=
  (answerBundle offerBundle (n.offer.contents.map n.decided)).contentNames

/-- The offered crypto that is answered, if the content is an RTP content. -/
def selectedCrypto (name : Str) : Option CryptoParams :=
  (n.offer.getContentByName name).bind fun content =>
    if isRtpProtocol content.description.protocol &&
        decide (n.sdesPolicy name ≠ .disabled) then
      content.description.cryptos.find?
        (isSupportedCrypto content.description.type n.bundleEnabled)
    else none

/-- The cryptos that are offered under a name for the media type of its first
content. -/
def offeredCryptos (name : Str) : List CryptoParams :=
  match n.offer.getContentByName name with
  | some content =>
    (n.offer.contents.filter fun other =>
      decide (other.name = name) && decide (other.description.type =
        content.description.type)).flatMap fun other =>
          other.description.cryptos
  | none => []

/-- The crypto of the first bundled content is offered for the others, unless
one of them selects none. -/
def SharesCrypto : List Str → Prop
  | [] => True
  | first :: rest => ∀ crypto, n.selectedCrypto first = some crypto →
      (∀ name ∈ rest, isRtpContent n.offer name →
        (n.selectedCrypto name).isSome) →
      ∀ name ∈ rest, isRtpContent n.offer name →
        ∃ theirs ∈ n.offeredCryptos name, crypto.Matches theirs

/-- The codecs of a section fit those of the content that it answers. -/
def SectionFits {κ : Type} [MediaKind κ] (part : AnswerSection κ) : Prop :=
  ∀ content desc, n.offer.firstContent (MediaKind.type κ) = some content →
    content.description = MediaKind.content desc →
    CodecsFit part.codecs desc.codecs

/-- The offers and settings whose answers stay inside the offer. -/
structure Careful : Prop where
  /-- Contents of the same media type have the same name. -/
  names : ∀ content ∈ n.offer.contents, ∀ first,
    n.offer.firstContent content.description.type = some first →
    first.name = content.name
  audio : n.SectionFits n.audioSection
  video : n.SectionFits n.videoSection
  data : n.SectionFits n.dataSection
  cryptos : n.options.bundleEnabled → ∀ offerBundle,
    n.offer.getGroupByName GROUP_TYPE_BUNDLE = some offerBundle →
    n.SharesCrypto (n.bundledNames offerBundle)

end Negotiation

end WebrtcWinXp.MediaSession
