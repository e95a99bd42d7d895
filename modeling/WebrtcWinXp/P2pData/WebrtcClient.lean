import WebrtcWinXp.Support.CString
import WebrtcWinXp.Support.Search
import WebrtcWinXp.Support.StdMap
import WebrtcWinXp.Support.Traced

/-!
# The client of the signalling server

How `WebrtcClient` reads a response of the signalling server.  `int` and
`size_t` have 32 bits, and assertions are not compiled in.  Callbacks of the
parent and the peers that are recorded are events.
-/

namespace WebrtcWinXp.P2pData

open Support

inductive State where
  | NOT_CONNECTED
  | RESOLVING
  | SIGNING_IN
  | CONNECTED
  | SIGNING_OUT_WAITING
  | SIGNING_OUT
deriving DecidableEq

/-- `WebrtcClient`; the pointers to its parent and to the inner client may be
null. -/
structure WebrtcClient where
  myID : Int32
  oppositePeerID : Int32
  peers : StdMap Int32 Str
  parent : Bool
  inner : Bool

/-- `WebrtcClientBase`, with whether its sockets are closed. -/
structure WebrtcClientBase where
  state : State
  connectData : Str
  controlData : Str
  controlClosed : Bool
  hangingClosed : Bool
  outter : Bool

structure Session where
  client : WebrtcClient
  base : WebrtcClientBase

inductive ClientEvent where
  | onSignedIn
  | onDisconnected
  | recordPeer (id : UInt32) (name : Str)
deriving DecidableEq

/-- What lies outside: whether sockets connect, and what `atoi` gives for a
number that is no `int`. -/
structure Environment where
  controlConnects : Bool
  hangingConnects : Bool
  outOfRange : ℤ → Int32

/-! ## Strings -/

/-- The digits at the start of a string, with a sign. -/
def readSigned : Str → ℤ
  | '-' :: s => -readDigits s
  | '+' :: s => readDigits s
  | s => readDigits s

def readInt (s : Str) : ℤ := readSigned (s.dropWhile isSpace)

def kHeaderEnd : Str := "\r\n\r\n".toList

def kContentLength : Str := "\r\nContent-Length: ".toList

def kConnection : Str := "\r\nConnection: ".toList

def kPragma : Str := "\r\nPragma: ".toList

variable (env : Environment)

def atoi (s : Str) : Int32 :=
  if intMin ≤ readInt s ∧ readInt s ≤ intMax then Int32.ofInt (readInt s)
  else env.outOfRange (readInt s)

/-- A number of `GetHeaderValue`. -/
def getHeaderNumber (data : Str) (eoh : ℕ) (headerPattern : Str) :
    Option UInt32 :=
  match find headerPattern data 0 with
  | none => none
  | some found =>
    if found < eoh then
      some (atoi env (data.drop (found + headerPattern.length))).toUInt32
    else none

/-- A string of `GetHeaderValue`. -/
def getHeaderString (data : Str) (eoh : ℕ) (headerPattern : Str) :
    Option Str :=
  match find headerPattern data 0 with
  | none => none
  | some found =>
    if found < eoh then
      let start := found + headerPattern.length
      let stop := (find "\r\n".toList data start).getD eoh
      some (substr data start (stop - start))
    else none

def getResponseStatus (response : Str) : Int32 :=
  match find [' '] response 0 with
  | none => -1
  | some pos => atoi env (response.drop (pos + 1))

/-- What `ParseEntry` writes. -/
structure PeerEntry where
  name : Str
  id : UInt32
  connected : Bool

/-- `ParseEntry`; the name and the identifier stay without a comma. -/
def parseEntry (entry : Str) (e : PeerEntry) : Bool × PeerEntry :=
  let e := { e with connected := false }
  let e :=
    match find [','] entry 0 with
    | none => e
    | some separator =>
      { name := substr entry 0 separator
        id := (atoi env (entry.drop (separator + 1))).toUInt32
        connected :=
          match find [','] entry (separator + 1) with
          | none => false
          | some separator => atoi env (entry.drop (separator + 1)) ≠ 0 }
  (!e.name.isEmpty, e)

/-- What `ReadIntoBuffer` finds in the data of the socket. -/
structure ReadResult where
  ret : Bool
  contentLength : UInt32
  close : Bool

/-- The result of `ParseServerResponse`, with what it writes. -/
structure ParseResult where
  ok : Bool
  peerId : UInt32
  eoh : ℕ

/-- The result for a header that ends at `eoh`. -/
def parseHeader (response : Str) (eoh : ℕ) : ParseResult where
  ok := true
  peerId := (getHeaderNumber env response eoh kPragma).getD (-1)
  eoh := eoh

/-- `ParseServerResponse` from the search for the end of the header on. -/
def parseEnd (response : Str) : ParseResult :=
  match find kHeaderEnd response 0 with
  | none => ⟨false, 0, 0⟩
  | some eoh => parseHeader env response eoh

/-- The position of the loop over the lines, and the peers. -/
structure PeerLoop where
  pos : ℕ
  peers : StdMap Int32 Str

def peerStep (text : Str) (myID : Int32) (l : PeerLoop) :
    Traced ClientEvent (Option PeerLoop) :=
  if l.pos < text.length then
    match find ['\n'] text l.pos with
    | none => pure none
    | some eol =>
      let (ok, e) := parseEntry env (substr text l.pos (eol - l.pos))
        ⟨[], 0, false⟩
      if ok && e.id ≠ myID.toUInt32 then
        .touch (.recordPeer e.id e.name)
          (some ⟨eol + 1, l.peers.assign e.id.toInt32 e.name⟩)
      else pure (some ⟨eol + 1, l.peers⟩)
  else pure none

namespace Session

variable (s : Session)

def isConnectSuccese : Bool := s.client.myID > 0

/-- `WebrtcClientBase::Close`. -/
def closeBase : Session where
  client :=
    if s.base.outter then
      { s.client with
        myID := -1
        inner := false }
    else s.client
  base :=
    { s.base with
      controlClosed := true
      hangingClosed := true
      connectData := []
      state := .NOT_CONNECTED }

/-- `WebrtcClient::Close`. -/
def close : Session :=
  let s :=
    { s with
      client :=
        { s.client with
          myID := 0
          oppositePeerID := 0
          peers := .empty } }
  if s.client.inner then s.closeBase else s

def signOutHeaderMsg : Session :=
  if s.client.inner then
    { s with
      base :=
        { s.base with
          connectData := "GET /sign_out?peer_id=".toList ++
            intToString s.client.myID.toInt ++ " HTTP/1.0\r\n\r\n".toList } }
  else s

def connectControlSocket : Session :=
  if env.controlConnects then
    { s with
      base :=
        { s.base with controlClosed := false } }
  else s.closeBase

def signOut : Session :=
  if s.base.state = .NOT_CONNECTED ∨ s.base.state = .SIGNING_OUT then s
  else
    let s :=
      { s with
        base :=
          { s.base with hangingClosed := true } }
    if s.base.controlClosed then
      let s :=
        { s with
          base :=
            { s.base with state := .SIGNING_OUT } }
      if s.base.outter && s.isConnectSuccese then
        s.signOutHeaderMsg.connectControlSocket env
      else s
    else
      { s with
        base :=
          { s.base with state := .SIGNING_OUT_WAITING } }

/-- `ReadIntoBuffer`: the size is added up in `size_t`. -/
def readIntoBuffer (data : Str) : ReadResult :=
  match find kHeaderEnd data 0 with
  | none => ⟨false, 0, false⟩
  | some i =>
    match getHeaderNumber env data i kContentLength with
    | none => ⟨false, 0, false⟩
    | some contentLength =>
      if data.length ≥ (UInt32.ofNat (i + 4) + contentLength).toNat then
        let close :=
          getHeaderString data i kConnection = some "close".toList
        ⟨!close || s.client.inner, contentLength, close⟩
      else ⟨false, contentLength, false⟩

/-- A status other than 200 closes the client; that ends the function only
without a parent. -/
def parseServerResponse (response : Str) :
    Traced ClientEvent (ParseResult × Session) :=
  if getResponseStatus env (cStr response) ≠ 200 then
    if s.client.parent then
      .touch .onDisconnected (parseEnd env response, s.close)
    else pure (⟨false, 0, 0⟩, s.close)
  else pure (parseEnd env response, s)

def readPeers (text : Str) (eoh : ℕ) : Traced ClientEvent Session := do
  let l ← Traced.finish (peerStep env text s.client.myID)
    (fun l => text.length - l.pos) ⟨eoh + 4, s.client.peers⟩
  return { s with
    client :=
      { s.client with peers := l.peers } }

/-- The first response has the identifier of the client, and the other
clients in its body. -/
def signIn (text : Str) (contentLength : UInt32) (r : ParseResult) :
    Traced ClientEvent Session :=
  let s :=
    { s with
      client :=
        { s.client with myID := r.peerId.toInt32 } }
  if contentLength ≠ 0 then s.readPeers env text r.eoh else pure s

/-- What `OnRead` does with a response that was parsed; nothing where it
returns. -/
def handleResponse (text : Str) (contentLength : UInt32) (r : ParseResult) :
    Traced ClientEvent (Session × Bool) :=
  if !s.isConnectSuccese then do
    let s ← s.signIn env text contentLength r
    if s.client.parent then .touch .onSignedIn (s, true) else pure (s, false)
  else if s.base.state = .SIGNING_OUT then
    if s.close.client.parent then .touch .onDisconnected (s.close, true)
    else pure (s.close, false)
  else if s.base.state = .SIGNING_OUT_WAITING then pure (s.signOut env, true)
  else pure (s, true)

/-- The end of `OnRead`, where the other socket connects. -/
def finishRead : Session :=
  { s with
    base :=
      { s.base with
        controlData := []
        state := if s.base.state = .SIGNING_IN then .CONNECTED
          else s.base.state
        hangingClosed :=
          if s.base.state = .SIGNING_IN ∧ env.hangingConnects then false
          else s.base.hangingClosed } }

/-- The socket and the buffer after a response was read. -/
def storeResponse (data : Str) (close : Bool) : Session :=
  { s with
    base :=
      { s.base with
        controlData := data
        controlClosed := s.base.controlClosed || close } }

/-- `OnRead` for the data of the control socket. -/
def onRead (data : Str) : Traced ClientEvent Session :=
  let read := s.readIntoBuffer env data
  if !s.client.inner then pure s
  else if !read.ret then pure s
  else do
    let (r, s) ← (s.storeResponse data read.close).parseServerResponse env data
    if r.ok then
      let (s, stay) ← s.handleResponse env data read.contentLength r
      return if stay then s.finishRead env else s
    else return s.finishRead env

end Session

end WebrtcWinXp.P2pData
