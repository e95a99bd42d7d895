import WebrtcWinXp.Turn.Server

/-!
# What a step of the server does

Every way in which the server handles a packet of a client, with the
conditions under which it is taken, and what the handlers of an allocation
leave as it is.
-/

namespace WebrtcWinXp.Turn

open Support Stun

/-! ## Handlers of an allocation -/

namespace Allocation

variable {cfg : Config} {now : ℕ} {msg : TurnMessage} {a : Allocation}

/-- Allocations with the same connection, key and external socket. -/
structure SameIdentity (a a' : Allocation) : Prop where
  conn_eq : a'.conn = a.conn
  key_eq : a'.key = a.key
  externalSocket_eq : a'.externalSocket = a.externalSocket

theorem addPermission_sameIdentity (addr : IPAddress) (a : Allocation) :
    SameIdentity a (a.addPermission now addr) := by
  unfold addPermission
  cases a.findPermission addr <;> exact ⟨rfl, rfl, rfl⟩

theorem bindChannel_sameIdentity (channelId : ℕ) (peer : SocketAddress)
    (a : Allocation) : SameIdentity a (a.bindChannel now channelId peer) := by
  unfold bindChannel
  cases a.findChannelById channelId <;> exact ⟨rfl, rfl, rfl⟩

theorem SameIdentity.trans {a₁ a₂ a₃ : Allocation}
    (h : SameIdentity a₁ a₂) (h' : SameIdentity a₂ a₃) :
    SameIdentity a₁ a₃ :=
  ⟨h'.conn_eq.trans h.conn_eq, h'.key_eq.trans h.key_eq,
    h'.externalSocket_eq.trans h.externalSocket_eq⟩

/-- What `HandleTurnMessage` does to an allocation, and what is sent. -/
inductive Handled (cfg : Config) (now : ℕ) (msg : TurnMessage)
    (a : Allocation) : Allocation × List Output → Prop where
  | allocate (h : msg.type = STUN_ALLOCATE_REQUEST) :
      Handled cfg now msg a (a.handleAllocateRequest cfg now msg)
  | refresh (h : msg.type = TURN_REFRESH_REQUEST) :
      Handled cfg now msg a (a.handleRefreshRequest cfg now msg)
  | send {data : List UInt8} {peer : SocketAddress}
      (h : msg.type = TURN_SEND_INDICATION)
      (hdata : getByteString msg STUN_ATTR_DATA = some data)
      (hpeer : getAddress msg STUN_ATTR_XOR_PEER_ADDRESS = some peer)
      (hperm : a.hasPermission peer.ip = true) :
      Handled cfg now msg a (a, [.toPeer data peer])
  | permit {peer : SocketAddress}
      (h : msg.type = TURN_CREATE_PERMISSION_REQUEST)
      (hpeer : getAddress msg STUN_ATTR_XOR_PEER_ADDRESS = some peer) :
      Handled cfg now msg a
        (a.addPermission now peer.ip, [a.sendResponse cfg (initResponse msg)])
  | bind {channelAttr : UInt32} {peer : SocketAddress}
      (h : msg.type = TURN_CHANNEL_BIND_REQUEST)
      (hchannel : getUInt32 msg STUN_ATTR_CHANNEL_NUMBER = some channelAttr)
      (hpeer : getAddress msg STUN_ATTR_XOR_PEER_ADDRESS = some peer)
      (hrange : kMinChannelNumber ≤ (channelAttr >>> 16).toNat ∧
        (channelAttr >>> 16).toNat ≤ kMaxChannelNumber)
      (hfree : a.findChannelById (channelAttr >>> 16).toNat =
        a.findChannelByPeer peer) :
      Handled cfg now msg a
        ((a.bindChannel now (channelAttr >>> 16).toNat peer).addPermission now
          peer.ip, [a.sendResponse cfg (initResponse msg)])
  | reject : Handled cfg now msg a (a, [a.sendBadRequestResponse cfg msg])
  | ignore : Handled cfg now msg a (a, [])

theorem handled : Handled cfg now msg a (a.handleTurnMessage cfg now msg) := by
  unfold handleTurnMessage
  split_ifs with halloc hrefresh hsend hpermit hbind
  · exact .allocate halloc
  · exact .refresh hrefresh
  · unfold handleSendIndication
    split
    · rename_i data peer hdata hpeer
      split_ifs with hperm
      · exact .send hsend hdata hpeer hperm
      · exact .ignore
    · exact .ignore
  · unfold handleCreatePermissionRequest
    split
    · exact .reject
    · rename_i peer hpeer
      exact .permit hpermit hpeer
  · unfold handleChannelBindRequest
    split
    · rename_i channelAttr peer hchannel hpeer
      dsimp only
      split_ifs with hrange hfree
      · exact .reject
      · exact .reject
      · exact .bind hbind hchannel hpeer (by omega) (not_not.mp hfree)
    · exact .reject
  · exact .ignore

theorem Handled.sameIdentity {r : Allocation × List Output}
    (h : Handled cfg now msg a r) : SameIdentity a r.1 := by
  cases h with
  | allocate | refresh | send | reject | ignore => exact ⟨rfl, rfl, rfl⟩
  | permit => exact addPermission_sameIdentity _ _
  | bind =>
    exact (bindChannel_sameIdentity _ _ _).trans
      (addPermission_sameIdentity _ _)

end Allocation

namespace Server

variable {cfg : Config} {s : Server} {conn : Connection}
  {msg : TurnMessage} {data : Buffer}

def withNonce (nonce : List UInt8) :
    Option (ℕ × Allocation) → Option (ℕ × Allocation) :=
  Option.map fun x => (x.1, { x.2 with lastNonce := nonce })

theorem not_isGrant_withRealmAndNonce (now : ℕ) (error : TurnError) :
    ∃ msg', sendErrorResponseWithRealmAndNonce cfg now conn msg error =
      sendStun cfg conn msg' ∧ ¬IsGrant msg' := by
  refine ⟨_, rfl, ?_⟩
  rw [(extends_addAttribute _ _).isGrant_iff,
    (extends_addAttribute _ _).isGrant_iff]
  exact not_isGrant_initErrorResponse msg error

theorem authorize_cases (cfg : Config) (now : ℕ) (conn : Connection)
    (msg : TurnMessage) (data : Buffer)
    (allocation : Option (ℕ × Allocation)) :
    (∃ msg', authorize cfg now conn msg data allocation =
        .error (sendStun cfg conn msg') ∧ ¬IsGrant msg') ∨
      ∃ nonce, authorize cfg now conn msg data allocation =
        .ok (withNonce nonce allocation) := by
  have herror : ∀ error, ∃ msg',
      (.error (sendErrorResponseWithRealmAndNonce cfg now conn msg error) :
        Except Output (Option (ℕ × Allocation))) =
          .error (sendStun cfg conn msg') ∧ ¬IsGrant msg' := by
    intro error
    obtain ⟨msg', h, hgrant⟩ := not_isGrant_withRealmAndNonce now error
    exact ⟨msg', congrArg _ h, hgrant⟩
  unfold authorize
  split
  · unfold checkAuthorization
    split
    · exact .inl (herror .unauthorized)
    · split
      · split_ifs
        · exact .inl (herror .staleNonce)
        · exact .inl (herror .unauthorized)
        · exact .inl (herror .staleNonce)
        · exact .inr ⟨_, rfl⟩
      · exact .inl ⟨_, rfl, not_isGrant_initErrorResponse msg _⟩
  · refine .inr ⟨(allocation.map fun x => x.2.lastNonce).getD [], ?_⟩
    cases allocation <;> rfl

/-! ## Packets of clients -/

/-- What the server does with a packet of a client, and what it sends. -/
inductive Effect (cfg : Config) (conn : Connection) (data : Buffer)
    (s : Server) : Server × List Output → Prop where
  /-- The map points to a deleted allocation. -/
  | fault (h : s.deref (s.findAllocation conn) = none) :
      Effect cfg conn data s ({ s with fault := true }, [])
  | ignore : Effect cfg conn data s (s, [])
  | answer {msg : TurnMessage} (h : ¬IsGrant msg) :
      Effect cfg conn data s (s, [sendStun cfg conn msg])
  | relay {id : ℕ} {a : Allocation}
      (hfind : s.findAllocation conn = some id)
      (ha : s.heap.find id = some a)
      (hsize : TURN_CHANNEL_HEADER_SIZE ≤ data.size)
      (hchannel : isTurnChannelData (getBE16 data 0) = true) :
      Effect cfg conn data s (s, a.handleChannelData data)
  | refuse {id : ℕ} {a : Allocation} {nonce : List UInt8} {msg : TurnMessage}
      (hfind : s.findAllocation conn = some id)
      (ha : s.heap.find id = some a) (h : ¬IsGrant msg) :
      Effect cfg conn data s
        (s.store id { a with lastNonce := nonce }, [sendStun cfg conn msg])
  | handle {id : ℕ} {a a' : Allocation} {nonce : List UInt8}
      {msg : TurnMessage} {outputs : List Output}
      (hfind : s.findAllocation conn = some id)
      (ha : s.heap.find id = some a)
      (hstun : isTurnChannelData (getBE16 data 0) = false)
      (hread : StunMessage.read .turn (data.read ⟨0, data.size⟩) = some msg)
      (hauth : authorize cfg s.now conn msg data (some (id, a)) =
        .ok (some (id, { a with lastNonce := nonce })))
      (hretransmit : msg.type = STUN_ALLOCATE_REQUEST →
        msg.transactionId = a.transactionId)
      (huser : isStunRequestType msg.type = true →
        (getByteString msg STUN_ATTR_USERNAME).getD [] = a.username)
      (hhandled : Allocation.Handled cfg s.now msg
        { a with lastNonce := nonce } (a', outputs)) :
      Effect cfg conn data s (s.store id a', outputs)
  | create {msg : TurnMessage} {key : List UInt8} {addr : SocketAddress}
      (hfind : s.findAllocation conn = none)
      (hallocate : msg.type = STUN_ALLOCATE_REQUEST) :
      Effect cfg conn data s (s.createAllocation cfg conn addr key msg)

theorem deref_eq_some {p : Option ℕ} {id : ℕ} {a : Allocation}
    (h : s.deref p = some (some (id, a))) :
    p = some id ∧ s.heap.find id = some a := by
  cases p with
  | none => cases h
  | some id' =>
    simp only [deref, Option.map_eq_some_iff] at h
    obtain ⟨a', ha', heq⟩ := h
    cases heq
    exact ⟨rfl, ha'⟩

theorem deref_eq_null {p : Option ℕ} (h : s.deref p = some none) :
    p = none := by
  cases p with
  | none => rfl
  | some id => simp [deref] at h

theorem dispatch_none_effect (hfind : s.findAllocation conn = none)
    (key : List UInt8) (externalSocket : Option SocketAddress) :
    Effect cfg conn data s
      (s.dispatch cfg conn msg key externalSocket none) := by
  rw [dispatch]
  split_ifs with hallocate
  · unfold handleAllocateRequest
    cases getUInt32 msg STUN_ATTR_REQUESTED_TRANSPORT with
    | none => exact .answer (not_isGrant_initErrorResponse _ _)
    | some transport =>
      dsimp only
      split_ifs
      · exact .answer (not_isGrant_initErrorResponse _ _)
      · cases externalSocket with
        | none => exact .answer (not_isGrant_initErrorResponse _ _)
        | some addr => exact .create hfind hallocate
  · exact .answer (not_isGrant_initErrorResponse _ _)

theorem dispatch_some_effect {id : ℕ} {a : Allocation} {nonce : List UInt8}
    (hfind : s.findAllocation conn = some id)
    (ha : s.heap.find id = some a)
    (hstun : isTurnChannelData (getBE16 data 0) = false)
    (hread : StunMessage.read .turn (data.read ⟨0, data.size⟩) = some msg)
    (hauth : authorize cfg s.now conn msg data (some (id, a)) =
      .ok (some (id, { a with lastNonce := nonce })))
    (key : List UInt8) (externalSocket : Option SocketAddress) :
    Effect cfg conn data s
      (s.dispatch cfg conn msg key externalSocket
        (some (id, { a with lastNonce := nonce }))) := by
  rw [dispatch]
  split_ifs with htype huser
  · exact .refuse hfind ha (not_isGrant_initErrorResponse _ _)
  · exact .handle hfind ha hstun hread hauth
      (fun h => htype.resolve_left (not_not.mpr h))
      (fun h => not_not.mp fun hne => huser ⟨h, hne⟩) Allocation.handled
  · exact .refuse hfind ha (not_isGrant_initErrorResponse _ _)

theorem handleTurnMessage_effect
    (hstun : isTurnChannelData (getBE16 data 0) = false)
    (hread : StunMessage.read .turn (data.read ⟨0, data.size⟩) = some msg)
    (externalSocket : Option SocketAddress) :
    Effect cfg conn data s
      (s.handleTurnMessage cfg conn msg data externalSocket) := by
  unfold handleTurnMessage
  split_ifs with hbinding
  · refine .answer ?_
    rw [(extends_addAttribute _ _).isGrant_iff, IsGrant,
      type_initResponse (by rw [hbinding]; decide), hbinding]
    decide
  · cases hderef : s.deref (s.findAllocation conn) with
    | none => exact .fault hderef
    | some allocation =>
      dsimp only
      rcases authorize_cases cfg s.now conn msg data allocation with
        ⟨msg', herror, hgrant⟩ | ⟨nonce, hok⟩
      · rw [herror]
        exact .answer hgrant
      · rw [hok]
        rcases allocation with _ | ⟨id, a⟩
        · exact dispatch_none_effect (deref_eq_null hderef) _ _
        · obtain ⟨hfind, ha⟩ := deref_eq_some hderef
          exact dispatch_some_effect hfind ha hstun hread hok _ _

theorem onInternalPacket_effect (cfg : Config) (conn : Connection)
    (data : Buffer) (externalSocket : Option SocketAddress) (s : Server) :
    Effect cfg conn data s
      (s.onInternalPacket cfg conn data externalSocket) := by
  unfold onInternalPacket
  split_ifs with hsize hchannel
  · exact .ignore
  · unfold handleStunMessage
    split
    · exact .ignore
    · rename_i msg hread
      exact handleTurnMessage_effect (by simpa using hchannel) hread
        externalSocket
  · unfold handleChannelData
    split
    · rename_i hderef
      exact .fault hderef
    · exact .ignore
    · rename_i id a hderef
      obtain ⟨hfind, ha⟩ := deref_eq_some hderef
      exact .relay hfind ha (not_lt.mp hsize) (by simpa using hchannel)

/-- What an event does, and what is sent. -/
inductive Steps (cfg : Config) (s : Server) :
    Event → Server × List Output → Prop where
  | addInternalSocket {proto : ProtocolType} {remote : HostAddress} :
      Steps cfg s (.addInternalSocket proto remote)
        (s.addInternalSocket ⟨proto, remote, false⟩, [])
  | addInternalServerSocket {proto : ProtocolType} :
      Steps cfg s (.addInternalServerSocket proto)
        (s.addInternalServerSocket proto, [])
  | acceptConnection {serverSocket : ℕ} {remote : HostAddress}
      {proto : ProtocolType} :
      Steps cfg s (.acceptConnection serverSocket remote)
        (s.addInternalSocket ⟨proto, remote, true⟩, [])
  | internalSocketClose {socket : ℕ} :
      Steps cfg s (.internalSocketClose socket)
        ({ s with serverSockets := s.serverSockets.erase socket }, [])
  | internalPacket {socket : ℕ} {data : Buffer} {addr : HostAddress}
      {externalSocket : Option SocketAddress} {internal : InternalSocket}
      {r : Server × List Output}
      (hsocket : s.serverSockets.find socket = some internal)
      (hfrom : internal.ReceivesFrom addr)
      (heffect : Effect cfg (connection socket addr internal) data s r) :
      Steps cfg s (.internalPacket socket data addr externalSocket)
        (deliver r)
  | externalPacket {id : ℕ} {data : List UInt8} {addr : SocketAddress}
      {transactionId : List UInt8} {a : Allocation}
      (ha : s.heap.find id = some a) (hsize : data.length < 2 ^ 16) :
      Steps cfg s (.externalPacket id data addr transactionId)
        (deliver (s, a.onExternalPacket cfg transactionId data addr))
  | advance {now : ℕ} (hnow : s.now ≤ now) (hidle : s.Idle now) :
      Steps cfg s (.advance now) ({ s with now := now }, [])
  | allocationTimeout {id : ℕ} {a : Allocation}
      (ha : s.heap.find id = some a) (hdue : ∃ due ∈ a.timers, due ≤ s.now) :
      Steps cfg s (.allocationTimeout id)
        (s.onAllocationDestroyed cfg id a, [])
  | permissionTimeout {id : ℕ} {perm : Permission} {a : Allocation}
      (ha : s.heap.find id = some a) :
      Steps cfg s (.permissionTimeout id perm)
        (s.store id (a.onPermissionDestroyed perm), [])
  | channelTimeout {id : ℕ} {channel : Channel} {a : Allocation}
      (ha : s.heap.find id = some a) :
      Steps cfg s (.channelTimeout id channel)
        (s.store id (a.onChannelDestroyed channel), [])

theorem steps_of_step {e : Event} {r : Server × List Output}
    (h : s.step cfg e = some r) : Steps cfg s e r := by
  cases e with
  | addInternalSocket =>
    cases h
    exact .addInternalSocket
  | addInternalServerSocket =>
    cases h
    exact .addInternalServerSocket
  | acceptConnection =>
    obtain ⟨proto, -, hr⟩ := Option.map_eq_some_iff.mp h
    cases hr
    exact .acceptConnection
  | internalSocketClose =>
    obtain ⟨internal, hsocket, hr⟩ := Option.bind_eq_some_iff.mp h
    split at hr
    · cases hr
      unfold destroyInternalSocket
      rw [hsocket]
      exact .internalSocketClose
    · cases hr
  | internalPacket =>
    obtain ⟨internal, hsocket, hr⟩ := Option.bind_eq_some_iff.mp h
    split at hr
    · rename_i hfrom
      cases hr
      exact .internalPacket hsocket hfrom (onInternalPacket_effect ..)
    · cases hr
  | externalPacket =>
    obtain ⟨a, ha, hr⟩ := Option.bind_eq_some_iff.mp h
    obtain ⟨hsize, hr⟩ := Option.ite_none_right_eq_some.mp hr
    cases hr
    exact .externalPacket ha hsize
  | advance =>
    obtain ⟨⟨hnow, hidle⟩, hr⟩ := Option.ite_none_right_eq_some.mp h
    cases hr
    exact .advance hnow hidle
  | allocationTimeout =>
    obtain ⟨a, ha, hr⟩ := Option.bind_eq_some_iff.mp h
    obtain ⟨hdue, hr⟩ := Option.ite_none_right_eq_some.mp hr
    cases hr
    exact .allocationTimeout ha (by simpa using hdue)
  | permissionTimeout =>
    obtain ⟨a, ha, hr⟩ := Option.bind_eq_some_iff.mp h
    obtain ⟨-, hr⟩ := Option.ite_none_right_eq_some.mp hr
    cases hr
    exact .permissionTimeout ha
  | channelTimeout =>
    obtain ⟨a, ha, hr⟩ := Option.bind_eq_some_iff.mp h
    obtain ⟨-, hr⟩ := Option.ite_none_right_eq_some.mp hr
    cases hr
    exact .channelTimeout ha

end Server

end WebrtcWinXp.Turn
