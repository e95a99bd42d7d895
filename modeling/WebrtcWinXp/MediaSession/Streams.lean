import WebrtcWinXp.MediaSession.Codec

/-!
# The streams of a content

Streams that are new get identifiers that are drawn until one of them is not
taken.
-/

namespace WebrtcWinXp.MediaSession

open Support

def kMaxSctpSid : UInt32 := 1023

def kFidSsrcGroupSemantics : Str := ['F', 'I', 'D']

def kSimSsrcGroupSemantics : Str := ['S', 'I', 'M']

/-- What `CreateRandomNonZeroId` and `CreateRandomString` return, call by call.
A string is missing where its call fails. -/
structure Random where
  ids : List UInt32
  strings : List (Option Str)

/-- No `CreateRandomString` fails. -/
def Random.Works (random : Random) : Prop :=
  ∀ s ∈ random.strings, s.isSome

/-- A loop that draws until a candidate is not taken. -/
def drawId (taken : UInt32 → Bool) : List UInt32 →
    Option (UInt32 × List UInt32)
  | [] => none
  | id :: ids => if taken id then drawId taken ids else some (id, ids)

/-- The same for strings, which gives up when a call fails. -/
def drawString (taken : Str → Bool) : List (Option Str) →
    Option (Str × List (Option Str))
  | [] => none
  | none :: _ => none
  | some s :: strings =>
    if taken s then drawString taken strings else some (s, strings)

/-- A stream that the application sends. -/
structure Stream where
  type : MediaType
  id : Str
  syncLabel : Str
  numSimLayers : Int32

/-- A stream is selected by its ids or, where it is not zero, by its ssrc. -/
structure StreamSelector where
  ssrc : UInt32
  groupid : Str
  streamid : Str

def StreamSelector.Matches (selector : StreamSelector)
    (stream : StreamParams) : Bool :=
  if selector.ssrc = 0 then
    stream.groupid = selector.groupid && stream.id = selector.streamid
  else stream.ssrcs.contains selector.ssrc

def getStream (streams : List StreamParams) (selector : StreamSelector) :
    Option StreamParams :=
  streams.find? selector.Matches

def getStreamBySsrc (streams : List StreamParams) (ssrc : UInt32) :
    Option StreamParams :=
  getStream streams ⟨ssrc, [], []⟩

def getStreamByIds (streams : List StreamParams) (groupid id : Str) :
    Option StreamParams :=
  getStream streams ⟨0, groupid, id⟩

namespace StreamParams

def createLegacy (ssrc : UInt32) : StreamParams where
  groupid := []
  id := []
  ssrcs := [ssrc]
  ssrcGroups := []
  cname := []
  syncLabel := []

def addFidSsrc (stream : StreamParams) (primary fid : UInt32) : StreamParams :=
  if stream.ssrcs.contains primary then
    { stream with
      ssrcs := stream.ssrcs ++ [fid]
      ssrcGroups :=
        stream.ssrcGroups ++ [⟨kFidSsrcGroupSemantics, [primary, fid]⟩] }
  else stream

end StreamParams

/-- The CNAME of a stream that is synchronised with this one, or a new one. -/
def generateCname (paramsVec : List StreamParams) (streams : List Stream)
    (synchLabel : Str) (random : Random) : Option (Str × Random) :=
  let synched := streams.filter fun stream => stream.syncLabel = synchLabel
  match synched.findSome? fun stream =>
    getStreamByIds paramsVec [] stream.id with
  | some param => some (param.cname, random)
  | none => do
      let (cname, strings) ← drawString
        (fun cname => paramsVec.any fun param => param.cname = cname)
        random.strings
      some (cname, ⟨random.ids, strings⟩)

def generateSsrcs (paramsVec : List StreamParams) : ℕ → List UInt32 →
    Random → Option (List UInt32 × Random)
  | 0, ssrcs, random => some (ssrcs, random)
  | numSsrcs + 1, ssrcs, random => do
      let (candidate, ids) ← drawId
        (fun id => (getStreamBySsrc paramsVec id).isSome || ssrcs.contains id)
        random.ids
      generateSsrcs paramsVec numSsrcs (ssrcs ++ [candidate])
        ⟨ids, random.strings⟩

/-- `GenerateSctpSids`, which adds none when too many streams are there. -/
def generateSctpSids (paramsVec : List StreamParams) (random : Random) :
    Option (List UInt32 × Random) :=
  if kMaxSctpSid.toNat < paramsVec.length then some ([], random)
  else do
    let (id, ids) ← drawId
      (fun id => (getStreamBySsrc paramsVec (id % kMaxSctpSid)).isSome)
      random.ids
    some ([id % kMaxSctpSid], ⟨ids, random.strings⟩)

/-- What `AddStreamParams` adds to a content and to the current streams. -/
structure AddedStreams where
  streams : List StreamParams
  multistream : Bool
  currentStreams : List StreamParams
  random : Random

/-- The part of a content that its streams depend on. -/
structure StreamKind where
  type : MediaType
  isSctp : Bool
  includeRtxStream : Bool

namespace StreamKind

variable (kind : StreamKind)

def generate (paramsVec : List StreamParams) (numSsrcs : Int32)
    (random : Random) : Option (List UInt32 × Random) :=
  if kind.isSctp then generateSctpSids paramsVec random
  else generateSsrcs paramsVec numSsrcs.toInt.toNat [] random

def addLegacyStream (currentStreams : List StreamParams) (random : Random) :
    Option AddedStreams := do
  let (ssrcs, random) ← kind.generate currentStreams
    (if kind.includeRtxStream then 2 else 1) random
  let ssrc ← ssrcs[0]?
  if kind.includeRtxStream then
    let fidSsrc ← ssrcs[1]?
    let stream := (StreamParams.createLegacy ssrc).addFidSsrc ssrc fidSsrc
    some ⟨[stream], true, currentStreams, random⟩
  else some ⟨[.createLegacy ssrc], false, currentStreams, random⟩

/-- The parameters of a stream that is not among the current ones. -/
def newStream (streams : List Stream) (stream : Stream)
    (currentStreams : List StreamParams) (random : Random) :
    Option (StreamParams × Random) := do
  let (cname, random) ←
    generateCname currentStreams streams stream.syncLabel random
  let (ssrcs, random) ←
    kind.generate currentStreams stream.numSimLayers random
  let groups := if 1 < stream.numSimLayers.toInt then
    [⟨kSimSsrcGroupSemantics, ssrcs⟩] else []
  let param := ⟨[], stream.id, ssrcs, groups, cname, stream.syncLabel⟩
  if kind.includeRtxStream then
    let (rtxSsrc, random) ← generateSsrcs currentStreams 1 [] random
    let ssrc ← ssrcs[0]?
    let fidSsrc ← rtxSsrc[0]?
    some (StreamParams.addFidSsrc param ssrc fidSsrc, random)
  else some (param, random)

def addStream (streams : List Stream) (s : AddedStreams) (stream : Stream) :
    Option AddedStreams :=
  if stream.type ≠ kind.type then some s
  else
    match getStreamByIds s.currentStreams [] stream.id with
    | some param =>
      some { s with
        streams := s.streams ++ [param] }
    | none => do
        let (param, random) ←
          kind.newStream streams stream s.currentStreams s.random
        some ⟨s.streams ++ [param], s.multistream || kind.includeRtxStream,
          s.currentStreams ++ [param], random⟩

/-- `AddStreamParams`, which has no result where it fails. -/
def addStreamParams (streams : List Stream) (addLegacyStream : Bool)
    (currentStreams : List StreamParams) (random : Random) :
    Option AddedStreams :=
  if streams.isEmpty && addLegacyStream then
    kind.addLegacyStream currentStreams random
  else
    streams.foldlM (kind.addStream streams)
      ⟨[], false, currentStreams, random⟩

end StreamKind

end WebrtcWinXp.MediaSession
