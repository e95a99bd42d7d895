import WebrtcWinXp.Turn.Lookup

/-!
# The life of an allocation

An allocation should live until the lifetime granted by the last Allocate or
Refresh response has passed, and its client's socket with it.  A closing socket
and a retransmitted Allocate request break this.
-/

namespace WebrtcWinXp.Turn

open Support Stun

/-! ## Grants -/

/-- The end of the lifetime that a response grants to a connection. -/
def Output.grant (conn : Connection) (now : ℕ) : Output → Option ℕ
  | .stun c msg =>
    if c = conn ∧ IsGrant msg then
      (getUInt32 msg STUN_ATTR_LIFETIME).map fun secs =>
        now + secs.toNat * 1000
    else none
  | _ => none

/-- The end of the lifetime that what is sent grants to a connection. -/
def grantIn (conn : Connection) (now : ℕ) (outputs : List Output) :
    Option ℕ :=
  outputs.findSome? (Output.grant conn now)

theorem extends_sendStun (cfg : Config) (conn : Connection)
    (msg : TurnMessage) :
    ∃ msg', sendStun cfg conn msg = .stun conn msg' ∧ Extends msg msg' := by
  refine ⟨_, rfl, ?_⟩
  split
  · exact .refl msg
  · exact extends_addAttribute _ _

theorem grant_sendStun_of_not {cfg : Config} {conn c : Connection} {now : ℕ}
    {msg : TurnMessage} (h : ¬(c = conn ∧ IsGrant msg)) :
    (sendStun cfg c msg).grant conn now = none := by
  obtain ⟨msg', heq, hextends⟩ := extends_sendStun cfg c msg
  rw [heq, Output.grant]
  exact if_neg fun ⟨hc, hgrant⟩ => h ⟨hc, hextends.isGrant_iff.mp hgrant⟩

namespace Allocation

variable {cfg : Config} {now : ℕ} {msg : TurnMessage} {a a' : Allocation}
  {outputs : List Output} {conn : Connection}

theorem extends_sendResponse (cfg : Config) (a : Allocation)
    (msg : TurnMessage) :
    ∃ msg', a.sendResponse cfg msg = .stun a.conn msg' ∧
      Extends msg msg' := by
  obtain ⟨msg', heq, hextends⟩ := extends_sendStun cfg a.conn
    (msg.addMessageIntegrity .turn cfg.hmac a.key).2
  exact ⟨msg', heq, (extends_addMessageIntegrity _ _ msg).trans hextends⟩

theorem computeLifetime_le (msg : TurnMessage) :
    computeLifetime msg ≤ kDefaultAllocationTimeout / 1000 := by
  unfold computeLifetime
  dsimp only
  split
  · exact le_rfl
  · split <;> omega

theorem grant_sendResponse {base : TurnMessage}
    (hbase : getAttribute base STUN_ATTR_LIFETIME = none)
    (hgrant : IsGrant base) :
    (a.sendResponse cfg (addAttribute (lifetimeAttr (computeLifetime msg))
      base)).grant a.conn now = some (now + computeLifetime msg * 1000) := by
  obtain ⟨msg', heq, hextends⟩ := extends_sendResponse cfg a
    (addAttribute (lifetimeAttr (computeLifetime msg)) base)
  have hattr : getAttribute
      (addAttribute (lifetimeAttr (computeLifetime msg)) base)
        STUN_ATTR_LIFETIME = some (lifetimeAttr (computeLifetime msg)) := by
    have hattrs : (addAttribute (lifetimeAttr (computeLifetime msg))
        base).attrs = base.attrs ++ [lifetimeAttr (computeLifetime msg)] := rfl
    unfold getAttribute at hbase ⊢
    rw [hattrs, List.find?_append, hbase]
    rfl
  have hbits : getUInt32
      (addAttribute (lifetimeAttr (computeLifetime msg)) base)
        STUN_ATTR_LIFETIME = some (UInt32.ofNat (computeLifetime msg)) := by
    rw [getUInt32, hattr]
    rfl
  have hlt : computeLifetime msg < 2 ^ 32 :=
    (computeLifetime_le msg).trans_lt (by decide)
  have hmsg' : IsGrant msg' := by
    rwa [hextends.isGrant_iff, (extends_addAttribute _ _).isGrant_iff]
  rw [heq, Output.grant, if_pos ⟨rfl, hmsg'⟩, hextends.getUInt32 hbits,
    Option.map_some, UInt32.toNat_ofNat_of_lt' hlt]

theorem attrs_initResponse (req : TurnMessage) :
    (initResponse req).attrs = [] := by
  unfold initResponse
  split
  · rfl
  · unfold StunMessage.setTransactionID
    split <;> rfl

theorem grant_handleAllocateRequest (h : msg.type = STUN_ALLOCATE_REQUEST) :
    grantIn a.conn now (a.handleAllocateRequest cfg now msg).2 =
      some (now + computeLifetime msg * 1000) := by
  refine List.findSome?_eq_some_iff.mpr ⟨[], _, [], rfl, ?_, by simp⟩
  refine grant_sendResponse ?_ ?_
  · have hattrs : ∀ attr, (initResponse msg |> addAttribute
        (.newXorAddress STUN_ATTR_XOR_MAPPED_ADDRESS attr)
        |> addAttribute (.newXorAddress STUN_ATTR_XOR_RELAYED_ADDRESS
          a.externalSocket)).attrs = (initResponse msg).attrs ++
            [StunAttribute.setOwner
              (.newXorAddress STUN_ATTR_XOR_MAPPED_ADDRESS attr)] ++
            [StunAttribute.setOwner
              (.newXorAddress STUN_ATTR_XOR_RELAYED_ADDRESS
                a.externalSocket)] := fun attr => rfl
    unfold getAttribute
    rw [hattrs, attrs_initResponse]
    rfl
  · rw [(extends_addAttribute _ _).isGrant_iff,
      (extends_addAttribute _ _).isGrant_iff, IsGrant,
      type_initResponse (by rw [h]; decide), h]
    decide

theorem grant_handleRefreshRequest (h : msg.type = TURN_REFRESH_REQUEST) :
    grantIn a.conn now (a.handleRefreshRequest cfg now msg).2 =
      some (now + computeLifetime msg * 1000) := by
  refine List.findSome?_eq_some_iff.mpr ⟨[], _, [], rfl, ?_, by simp⟩
  refine grant_sendResponse ?_ ?_
  · rw [getAttribute, attrs_initResponse]
    rfl
  · rw [IsGrant, type_initResponse (by rw [h]; decide), h]
    decide

theorem grant_sendResponse_of_not {base : TurnMessage}
    (h : ¬IsGrant base) :
    (a.sendResponse cfg base).grant conn now = none := by
  refine grant_sendStun_of_not fun ⟨_, hgrant⟩ => h ?_
  exact (extends_addMessageIntegrity _ _ _).isGrant_iff.mp hgrant

theorem Handled.output_cases (h : Handled cfg now msg a (a', outputs)) :
    ∀ o ∈ outputs, (∃ msg', o = .stun a.conn msg') ∨
      ∃ bytes peer, o = .toPeer bytes peer := by
  intro o ho
  cases h with
  | allocate | refresh | permit | bind | reject =>
    obtain rfl := List.mem_singleton.mp ho
    exact .inl ⟨_, rfl⟩
  | send =>
    obtain rfl := List.mem_singleton.mp ho
    exact .inr ⟨_, _, rfl⟩
  | ignore => cases ho

theorem Handled.grant_of_ne (h : Handled cfg now msg a (a', outputs))
    (hne : a.conn ≠ conn) : grantIn conn now outputs = none := by
  refine List.findSome?_eq_none_iff.mpr fun o ho => ?_
  rcases h.output_cases o ho with ⟨msg', rfl⟩ | ⟨bytes, peer, rfl⟩
  · exact if_neg fun hconn => hne hconn.1
  · rfl

theorem timers_addPermission (addr : IPAddress) (a : Allocation) :
    (a.addPermission now addr).timers = a.timers := by
  unfold addPermission
  cases a.findPermission addr <;> rfl

theorem timers_bindChannel (channelId : ℕ) (peer : SocketAddress)
    (a : Allocation) : (a.bindChannel now channelId peer).timers = a.timers := by
  unfold bindChannel
  cases a.findChannelById channelId <;> rfl

theorem grantIn_initResponse (h : isStunRequestType msg.type = true)
    (hgrant : msg.type ||| 0x100 ≠ STUN_ALLOCATE_RESPONSE ∧
      msg.type ||| 0x100 ≠ TURN_REFRESH_RESPONSE) :
    grantIn a.conn now [a.sendResponse cfg (initResponse msg)] = none := by
  refine List.findSome?_eq_none_iff.mpr fun o ho => ?_
  obtain rfl := List.mem_singleton.mp ho
  refine grant_sendResponse_of_not ?_
  rw [IsGrant, type_initResponse h]
  exact fun hor => hor.elim hgrant.1 hgrant.2

/-- A handled message grants a lifetime, whose timeout is then pending, or it
leaves the timeouts as they are. -/
theorem Handled.grant_cases (h : Handled cfg now msg a (a', outputs)) :
    (msg.type = STUN_ALLOCATE_REQUEST ∧
        grantIn a.conn now outputs =
          some (now + computeLifetime msg * 1000) ∧
        a'.timers = a.timers ++ [now + computeLifetime msg * 1000]) ∨
      (grantIn a.conn now outputs =
          some (now + computeLifetime msg * 1000) ∧
        a'.timers = [now + computeLifetime msg * 1000]) ∨
      (grantIn a.conn now outputs = none ∧ a'.timers = a.timers) := by
  cases h with
  | allocate htype =>
    exact .inl ⟨htype, grant_handleAllocateRequest htype, rfl⟩
  | refresh htype =>
    exact .inr (.inl ⟨grant_handleRefreshRequest htype, rfl⟩)
  | send | ignore => exact .inr (.inr ⟨rfl, rfl⟩)
  | permit htype =>
    exact .inr (.inr ⟨grantIn_initResponse (by rw [htype]; decide)
      (by rw [htype]; decide), timers_addPermission _ _⟩)
  | bind htype =>
    exact .inr (.inr ⟨grantIn_initResponse (by rw [htype]; decide)
      (by rw [htype]; decide),
      (timers_addPermission _ _).trans (timers_bindChannel _ _ _)⟩)
  | reject =>
    refine .inr (.inr ⟨List.findSome?_eq_none_iff.mpr fun o ho => ?_, rfl⟩)
    obtain rfl := List.mem_singleton.mp ho
    exact grant_sendStun_of_not fun h =>
      not_isGrant_initErrorResponse msg _ h.2

theorem onExternalPacket_output {transactionId bytes : List UInt8}
    {addr : SocketAddress} :
    ∀ o ∈ a.onExternalPacket cfg transactionId bytes addr,
      o.socket = some a.conn.socket ∧
        ∀ conn now, o.grant conn now = none := by
  intro o ho
  unfold onExternalPacket at ho
  split at ho
  · obtain rfl := List.mem_singleton.mp ho
    exact ⟨rfl, fun _ _ => rfl⟩
  · split at ho
    · obtain rfl := List.mem_singleton.mp ho
      refine ⟨rfl, fun conn now => grant_sendStun_of_not fun ⟨_, hgrant⟩ => ?_⟩
      rw [dataIndication, (extends_addAttribute _ _).isGrant_iff,
        (extends_addAttribute _ _).isGrant_iff, IsGrant,
        type_setTransactionID, type_setType] at hgrant
      exact absurd hgrant (by decide)
    · cases ho

end Allocation

namespace Server

variable {cfg : Config} {s t : Server} {conn : Connection} {data : Buffer}
  {r : Server × List Output} {outputs : List Output}

/-! ## Sockets of allocations -/

/-- The socket of a connection as the server knows it. -/
def Serves (internal : InternalSocket) (conn : Connection) : Prop :=
  conn.dst = internal.remote ∧ conn.proto = internal.proto ∧
    (internal.proto ≠ .udp → conn.src = internal.remote)

/-- Every live allocation has its socket, and no deleted object has been
used. -/
structure Rooted (s : Server) : Prop where
  fresh : ∀ k internal, s.serverSockets.find k = some internal →
    k < s.nextSocket
  socket : ∀ conn ∈ s.connections, ∃ internal,
    s.serverSockets.find conn.socket = some internal ∧ Serves internal conn
  fault : s.fault = false

variable {internal : InternalSocket}

theorem serves_connection {addr : HostAddress}
    (h : internal.ReceivesFrom addr) (socket : ℕ) :
    Serves internal (connection socket addr internal) :=
  ⟨rfl, rfl, fun hproto => h (.inr hproto)⟩

theorem eq_of_serves {c c' : Connection}
    (h : Serves internal c) (h' : Serves internal c')
    (hproto : internal.proto ≠ .udp) : c.eq c' = true := by
  rw [Connection.eq_iff, Connection.rank, Connection.rank, h.1, h'.1, h.2.1,
    h'.2.1, h.2.2 hproto, h'.2.2 hproto]

/-- What is sent goes to the client whose packet is handled, to the client of
an allocation, or to a peer. -/
theorem Effect.output_cases (h : Effect cfg conn data s r) :
    ∀ o ∈ r.2, (∃ c msg, o = .stun c msg ∧
      (c = conn ∨ c ∈ s.connections)) ∨
        ∃ bytes peer, o = .toPeer bytes peer := by
  intro o ho
  cases h with
  | fault | ignore => cases ho
  | answer | refuse =>
    obtain rfl := List.mem_singleton.mp ho
    exact .inl ⟨_, _, rfl, .inl rfl⟩
  | relay =>
    unfold Allocation.handleChannelData at ho
    split at ho
    · cases ho
    · obtain rfl := List.mem_singleton.mp ho
      exact .inr ⟨_, _, rfl⟩
  | handle _ ha _ _ _ _ _ hhandled =>
    rcases hhandled.output_cases o ho with ⟨msg', rfl⟩ | hpeer
    · exact .inl ⟨_, msg', rfl, .inr ⟨_, _, ha, rfl⟩⟩
    · exact .inr hpeer
  | create =>
    rcases Allocation.handled.output_cases o ho with ⟨msg', rfl⟩ | hpeer
    · exact .inl ⟨_, msg', rfl, .inl rfl⟩
    · exact .inr hpeer

theorem Effect.serverSockets_eq (h : Effect cfg conn data s r) :
    r.1.serverSockets = s.serverSockets ∧ r.1.nextSocket = s.nextSocket ∧
      r.1.now = s.now := by
  cases h <;> exact ⟨rfl, rfl, rfl⟩

theorem Tracked.deref_ne_none (hs : s.Tracked) (conn : Connection) :
    s.deref (s.findAllocation conn) ≠ none := by
  cases hfind : s.findAllocation conn with
  | none => simp [deref]
  | some id =>
    obtain ⟨a, ha, -⟩ := (hs.found conn id).mp hfind
    simp [deref, ha]

theorem Effect.fault_eq (h : Effect cfg conn data s r) (hs : s.Tracked) :
    r.1.fault = s.fault := by
  cases h with
  | fault hderef => exact absurd hderef (hs.deref_ne_none conn)
  | ignore | answer | relay | refuse | handle | create => rfl

theorem Effect.connections_subset (h : Effect cfg conn data s r) :
    r.1.connections ⊆ insert conn s.connections := by
  rintro c ⟨id, a, ha, hc⟩
  rcases h.alike_or_created with halike | ⟨a', hcreated⟩
  · exact .inr ⟨id, (halike.exists_iff c id).mp ⟨a, ha, hc⟩⟩
  · rw [hcreated.heap_eq, StdMap.find_assign_eq_some_iff] at ha
    rcases ha with ⟨rfl, rfl⟩ | ⟨-, ha⟩
    · exact .inl (hc.symm.trans hcreated.conn_eq)
    · exact .inr ⟨id, a, ha, hc⟩

theorem deliver_fault (hfault : r.1.fault = false)
    (h : ∀ o ∈ r.2, ∀ k, o.socket = some k →
      ∃ internal, r.1.serverSockets.find k = some internal) :
    (deliver r).1.fault = false := by
  simp only [deliver, hfault, Bool.false_or, List.any_eq_false]
  intro o ho
  cases hk : o.socket with
  | none => simp
  | some k =>
    obtain ⟨internal, hfind⟩ := h o ho k hk
    simp [hfind]

/-- A retransmission of the Allocate request that made an allocation. -/
structure Retransmits (cfg : Config) (s : Server) (conn : Connection)
    (data : Buffer) (id : ℕ) (a : Allocation) (msg : TurnMessage) : Prop where
  find_eq : s.findAllocation conn = some id
  heap_eq : s.heap.find id = some a
  read_eq : StunMessage.read .turn (data.read ⟨0, data.size⟩) = some msg
  type_eq : msg.type = STUN_ALLOCATE_REQUEST
  transactionId_eq : msg.transactionId = a.transactionId
  username_eq : (getByteString msg STUN_ATTR_USERNAME).getD [] = a.username
  authorized : ∃ nonce, authorize cfg s.now conn msg data (some (id, a)) =
    .ok (some (id, { a with lastNonce := nonce }))

/-- A packet has an aligned connection, and does not ask for more time by
retransmitting the Allocate request; a socket that closes has no live
allocation. -/
def CarefulEvent (cfg : Config) (s : Server) : Event → Prop
  | .internalPacket socket data addr externalSocket =>
    s.AlignedEvent (.internalPacket socket data addr externalSocket) ∧
      ∀ internal, s.serverSockets.find socket = some internal →
        ∀ id a msg, Retransmits cfg s (connection socket addr internal) data
          id a msg →
            ∀ due ∈ a.timers,
              s.now + Allocation.computeLifetime msg * 1000 ≤ due
  | .internalSocketClose socket => ∀ c ∈ s.connections, c.socket ≠ socket
  | _ => True

variable {e : Event}

theorem CarefulEvent.aligned (h : s.CarefulEvent cfg e) :
    s.AlignedEvent e := by
  cases e with
  | internalPacket => exact h.1
  | _ => trivial

theorem onAllocationDestroyed_serverSockets (cfg : Config) (id : ℕ)
    {a : Allocation}
    (h : s.serverSockets.find a.conn.socket = some internal) :
    (s.onAllocationDestroyed cfg id a).fault = s.fault ∧
      (s.onAllocationDestroyed cfg id a).nextSocket = s.nextSocket ∧
      (s.onAllocationDestroyed cfg id a).serverSockets =
        if internal.proto ≠ .udp then s.serverSockets.erase a.conn.socket
        else s.serverSockets := by
  unfold onAllocationDestroyed destroyInternalSocket
  rw [h]
  dsimp only
  split <;> exact ⟨rfl, rfl, rfl⟩

theorem now_onAllocationDestroyed (cfg : Config) (id : ℕ) (a : Allocation)
    (s : Server) : (s.onAllocationDestroyed cfg id a).now = s.now := by
  unfold onAllocationDestroyed destroyInternalSocket
  dsimp only
  repeat' split
  all_goals rfl

variable {id : ℕ}

theorem Rooted.of_destroyed (hs : s.Rooted) (htracked : s.Tracked)
    {a : Allocation} (ha : s.heap.find id = some a) :
    (s.onAllocationDestroyed cfg id a).Rooted := by
  obtain ⟨internal, hsocket, hserves⟩ := hs.socket a.conn ⟨id, a, ha, rfl⟩
  obtain ⟨hfault, hnext, hsockets⟩ :=
    onAllocationDestroyed_serverSockets cfg id hsocket
  refine ⟨?_, ?_, hfault.trans hs.fault⟩
  · intro k internal' hk
    rw [hnext]
    rw [hsockets] at hk
    split at hk
    · exact hs.fresh k internal' (StdMap.find_erase_eq_some_iff.mp hk).2
    · exact hs.fresh k internal' hk
  · rintro c ⟨id', a', ha', rfl⟩
    rw [heap_onAllocationDestroyed ha,
      StdMap.find_erase_eq_some_iff] at ha'
    obtain ⟨hne, ha'⟩ := ha'
    obtain ⟨internal', hsocket', hserves'⟩ :=
      hs.socket a'.conn ⟨id', a', ha', rfl⟩
    refine ⟨internal', ?_, hserves'⟩
    rw [hsockets]
    split_ifs with hproto
    · rw [StdMap.find_erase_eq_some_iff]
      refine ⟨fun hk => hne ?_, hsocket'⟩
      rw [hk] at hsocket'
      cases hsocket.symm.trans hsocket'
      exact htracked.id_unique ha' ha (eq_of_serves hserves' hserves hproto)
    · exact hsocket'

theorem Rooted.of_alike (hs : s.Rooted) (h : Alike s t)
    (hsockets : t.serverSockets = s.serverSockets)
    (hnext : t.nextSocket = s.nextSocket) (hfault : t.fault = s.fault) :
    t.Rooted := by
  refine ⟨?_, ?_, hfault.trans hs.fault⟩
  · rw [hsockets, hnext]
    exact hs.fresh
  · rintro c ⟨id, hc⟩
    rw [hsockets]
    exact hs.socket c ⟨id, (h.exists_iff c id).mp hc⟩

theorem Rooted.of_deliver {r : Server × List Output}
    (hfresh : ∀ k internal, r.1.serverSockets.find k = some internal →
      k < r.1.nextSocket)
    (hsocket : ∀ conn ∈ r.1.connections, ∃ internal,
      r.1.serverSockets.find conn.socket = some internal ∧
        Serves internal conn)
    (hfault : (deliver r).1.fault = false) : (deliver r).1.Rooted :=
  ⟨hfresh, hsocket, hfault⟩

theorem step_rooted (hs : s.Rooted) (htracked : s.Tracked)
    (hok : s.CarefulEvent cfg e) (h : s.step cfg e = some (t, outputs)) :
    t.Rooted := by
  cases steps_of_step h with
  | addInternalSocket | acceptConnection =>
    refine ⟨?_, ?_, hs.fault⟩
    · intro k internal hk
      rcases StdMap.find_assign_eq_some_iff.mp hk with
        ⟨rfl, -⟩ | ⟨-, hk⟩
      · exact Nat.lt_succ_self _
      · exact Nat.lt_succ_of_lt (hs.fresh k internal hk)
    · intro c hc
      obtain ⟨internal, hsocket, hserves⟩ := hs.socket c hc
      exact ⟨internal, StdMap.find_assign_eq_some_iff.mpr
        (.inr ⟨(hs.fresh _ _ hsocket).ne, hsocket⟩), hserves⟩
  | addInternalServerSocket =>
    exact ⟨fun k internal hk => Nat.lt_succ_of_lt (hs.fresh k internal hk),
      hs.socket, hs.fault⟩
  | internalSocketClose =>
    refine ⟨?_, ?_, hs.fault⟩
    · intro k internal hk
      exact hs.fresh k internal (StdMap.find_erase_eq_some_iff.mp hk).2
    · intro c hc
      obtain ⟨internal, hsocket, hserves⟩ := hs.socket c hc
      exact ⟨internal, StdMap.find_erase_eq_some_iff.mpr
        ⟨hok c hc, hsocket⟩, hserves⟩
  | internalPacket hsocket hfrom heffect =>
    rename_i socket data addr externalSocket internal r
    obtain ⟨hsockets, hnext, -⟩ := heffect.serverSockets_eq
    have hserved : ∀ c ∈ insert (connection socket addr internal)
        s.connections, ∃ internal,
          s.serverSockets.find c.socket = some internal ∧
            Serves internal c := by
      rintro c (rfl | hc)
      · exact ⟨internal, hsocket, serves_connection hfrom socket⟩
      · exact hs.socket c hc
    refine .of_deliver ?_ ?_ (deliver_fault ?_ ?_)
    · rw [hsockets, hnext]
      exact hs.fresh
    · intro c hc
      rw [hsockets]
      exact hserved c (heffect.connections_subset hc)
    · rw [heffect.fault_eq htracked, hs.fault]
    · intro o ho k hk
      rw [hsockets]
      rcases heffect.output_cases o ho with
        ⟨c, msg, rfl, hc⟩ | ⟨bytes, peer, rfl⟩
      · cases hk
        obtain ⟨internal', hsocket', -⟩ := hserved c hc
        exact ⟨internal', hsocket'⟩
      · cases hk
  | externalPacket ha =>
    refine .of_deliver hs.fresh hs.socket (deliver_fault hs.fault ?_)
    intro o ho k hk
    obtain ⟨internal, hsocket, -⟩ := hs.socket _ ⟨_, _, ha, rfl⟩
    rw [(Allocation.onExternalPacket_output o ho).1] at hk
    cases hk
    exact ⟨internal, hsocket⟩
  | advance => exact ⟨hs.fresh, hs.socket, hs.fault⟩
  | allocationTimeout ha => exact hs.of_destroyed htracked ha
  | permissionTimeout ha | channelTimeout ha =>
    exact hs.of_alike (alike_store ha rfl) rfl rfl rfl

theorem grantIn_singleton_of_not {c : Connection} {now : ℕ}
    {msg : TurnMessage} (h : ¬IsGrant msg) :
    grantIn c now [sendStun cfg conn msg] = none := by
  refine List.findSome?_eq_none_iff.mpr fun o ho => ?_
  obtain rfl := List.mem_singleton.mp ho
  exact grant_sendStun_of_not fun hgrant => h hgrant.2

theorem Tracked.conn_ne (hs : s.Tracked) {id' : ℕ} {a a' : Allocation}
    (ha : s.heap.find id = some a) (ha' : s.heap.find id' = some a')
    (hne : id' ≠ id) : a.conn ≠ a'.conn := fun h =>
  hne (hs.id_unique ha' ha ((Connection.eq_iff _ _).mpr (by rw [h])))

/-- After a packet an allocation has its old timeouts and no new grant, or a
grant whose timeout is pending, with older ones only after a retransmission
of the Allocate request. -/
theorem Effect.granted_cases (h : Effect cfg conn data s r) (hs : s.Tracked) {a' : Allocation} (ha' : r.1.heap.find id = some a') :
    (grantIn a'.conn s.now r.2 = none ∧
      ∃ a, s.heap.find id = some a ∧ a.conn = a'.conn ∧
        a'.timers = a.timers) ∨
      ∃ delay, grantIn a'.conn s.now r.2 = some (s.now + delay) ∧
        (a'.timers = [s.now + delay] ∨
          ∃ a msg, Retransmits cfg s conn data id a msg ∧
            delay = Allocation.computeLifetime msg * 1000 ∧
            a'.timers = a.timers ++ [s.now + delay]) := by
  cases h with
  | fault | ignore => exact .inl ⟨rfl, a', ha', rfl, rfl⟩
  | answer hgrant =>
    exact .inl ⟨grantIn_singleton_of_not hgrant, a', ha', rfl, rfl⟩
  | relay =>
    refine .inl ⟨?_, a', ha', rfl, rfl⟩
    unfold Allocation.handleChannelData
    split <;> rfl
  | refuse _ ha hgrant =>
    refine .inl ⟨grantIn_singleton_of_not hgrant, ?_⟩
    rcases StdMap.find_assign_eq_some_iff.mp ha' with
      ⟨rfl, rfl⟩ | ⟨-, ha'⟩
    · exact ⟨_, ha, rfl, rfl⟩
    · exact ⟨a', ha', rfl, rfl⟩
  | @handle _ a _ nonce msg _ hfind ha _ hread hauth hretransmit huser
      hhandled =>
      rcases StdMap.find_assign_eq_some_iff.mp ha' with
        ⟨rfl, rfl⟩ | ⟨hne, ha'⟩
      · have hconn := hhandled.sameIdentity.conn_eq
        rcases hhandled.grant_cases with
          ⟨htype, hgrant, htimers⟩ | ⟨hgrant, htimers⟩ | ⟨hgrant, htimers⟩
        · have hagain : Retransmits cfg s conn data id a msg :=
            ⟨hfind, ha, hread, htype, hretransmit htype,
              huser (by rw [htype]; decide), nonce, hauth⟩
          exact .inr ⟨_, hconn ▸ hgrant, .inr ⟨a, msg, hagain, rfl, htimers⟩⟩
        · exact .inr ⟨_, hconn ▸ hgrant, .inl htimers⟩
        · exact .inl ⟨hconn ▸ hgrant, _, ha, hconn.symm, htimers⟩
      · have hconn := hs.conn_ne ha ha' hne
        exact .inl ⟨hhandled.grant_of_ne hconn, a', ha', rfl, rfl⟩
  | @create msg key addr hfind hallocate =>
    have hnew := @Allocation.handleTurnMessage_of_allocate cfg s.now msg
      (Allocation.new conn addr key) hallocate
    rcases StdMap.find_assign_eq_some_iff.mp ha' with
      ⟨rfl, rfl⟩ | ⟨-, hold⟩
    · refine .inr ⟨Allocation.computeLifetime msg * 1000, ?_, .inl ?_⟩
      · simp only [createAllocation, hnew]
        exact Allocation.grant_handleAllocateRequest hallocate
      · simp only [hnew]
        rfl
    · have hne : conn ≠ a'.conn := by
        rintro rfl
        have hfound := (hs.found a'.conn id).mpr
          ⟨a', hold, (Connection.eq_iff _ _).mpr rfl⟩
        rw [hfind] at hfound
        cases hfound
      exact .inl ⟨Allocation.handled.grant_of_ne hne, a', hold, rfl, rfl⟩

/-- The states and events of a run, the last one first. -/
abbrev History := List (Server × Event)

def sent (cfg : Config) (s : Server) (e : Event) : List Output :=
  ((s.step cfg e).map Prod.snd).getD []

/-- The end of the lifetime granted to a connection by the last Allocate or
Refresh response. -/
def grantedEnd (cfg : Config) (conn : Connection) : History → Option ℕ
  | [] => none
  | (s, e) :: past =>
    (grantIn conn s.now (sent cfg s e)).or (grantedEnd cfg conn past)

/-- The first pending timeout of every live allocation is the end of its
granted lifetime, which has not passed. -/
def Timed (cfg : Config) (s : Server) (past : History) : Prop :=
  ∀ id a, s.heap.find id = some a → ∃ finish,
    grantedEnd cfg a.conn past = some finish ∧ finish ∈ a.timers ∧
      (∀ due ∈ a.timers, finish ≤ due) ∧ s.now ≤ finish

variable {past : History}

theorem grantedEnd_cons
    (h : s.step cfg e = some (t, outputs)) :
    grantedEnd cfg conn ((s, e) :: past) =
      (grantIn conn s.now outputs).or (grantedEnd cfg conn past) := by
  simp only [grantedEnd, sent, h, Option.map_some, Option.getD_some]

theorem Timed.of_kept (hs : Timed cfg s past)
    (h : s.step cfg e = some (t, outputs)) {a a' : Allocation}
    (ha : s.heap.find id = some a) (hconn : a.conn = a'.conn)
    (htimers : a'.timers = a.timers)
    (hgrant : grantIn a'.conn s.now outputs = none) (hnow : t.now = s.now) :
    ∃ finish, grantedEnd cfg a'.conn ((s, e) :: past) = some finish ∧
      finish ∈ a'.timers ∧ (∀ due ∈ a'.timers, finish ≤ due) ∧
        t.now ≤ finish := by
  rw [grantedEnd_cons h, hgrant, Option.none_or, ← hconn, htimers, hnow]
  exact hs id a ha

theorem step_timed (hs : Timed cfg s past)
    (htracked : s.Tracked) (hok : s.CarefulEvent cfg e)
    (h : s.step cfg e = some (t, outputs)) :
    Timed cfg t ((s, e) :: past) := by
  intro id a' ha'
  cases steps_of_step h with
  | addInternalSocket | acceptConnection | addInternalServerSocket
  | internalSocketClose => exact hs.of_kept h ha' rfl rfl rfl rfl
  | @internalPacket socket data addr externalSocket _ r hsocket _ heffect =>
    have hnow := heffect.serverSockets_eq.2.2
    rcases heffect.granted_cases htracked ha' with
      ⟨hgrant, a, ha, hconn, htimers⟩ | ⟨delay, hgrant, htimers⟩
    · exact hs.of_kept h ha hconn htimers hgrant hnow
    · have hend : grantedEnd cfg a'.conn
          ((s, .internalPacket socket data addr externalSocket) :: past) =
            some (s.now + delay) := by
        rw [grantedEnd_cons h]
        exact congrArg (Option.or · _) hgrant
      have hle : (deliver r).1.now ≤ s.now + delay := by
        have hdeliver : (deliver r).1.now = r.1.now := rfl
        omega
      rcases htimers with htimers | ⟨a, msg, hagain, rfl, htimers⟩
      · exact ⟨_, hend, by simp [htimers], by simp [htimers], hle⟩
      · refine ⟨_, hend, by simp [htimers], ?_, hle⟩
        intro due hdue
        rw [htimers, List.mem_append, List.mem_singleton] at hdue
        rcases hdue with hdue | rfl
        · exact hok.2 _ hsocket id a msg hagain due hdue
        · exact le_rfl
  | externalPacket ha =>
    refine hs.of_kept h ha' rfl rfl ?_ rfl
    exact List.findSome?_eq_none_iff.mpr fun o ho =>
      (Allocation.onExternalPacket_output o ho).2 _ _
  | advance hnow hidle =>
    obtain ⟨finish, hgrant, hmem, hle, -⟩ := hs id a' ha'
    refine ⟨finish, ?_, hmem, hle, ?_⟩
    · rw [grantedEnd_cons h]
      exact hgrant
    · exact hidle id (htracked.fresh id a' ha') a' ha' finish
        (List.mem_append_left _ hmem)
  | allocationTimeout ha =>
    rw [heap_onAllocationDestroyed ha,
      StdMap.find_erase_eq_some_iff] at ha'
    exact hs.of_kept h ha'.2 rfl rfl rfl (now_onAllocationDestroyed ..)
  | permissionTimeout ha | channelTimeout ha =>
    rcases StdMap.find_assign_eq_some_iff.mp ha' with
      ⟨rfl, rfl⟩ | ⟨-, ha'⟩
    · exact hs.of_kept h ha rfl rfl rfl rfl
    · exact hs.of_kept h ha' rfl rfl rfl rfl

/-! ## Runs -/

def Started (r : Server × History) : Prop := r.1.Initial ∧ r.2 = []

/-- Sockets and allocations live as long as they should. -/
structure LivesAsGranted (cfg : Config) (s : Server) (past : History) :
    Prop where
  socket : ∀ id a, s.heap.find id = some a →
    (s.serverSockets.find a.conn.socket).isSome
  fault : s.fault = false
  not_late : ∀ id a, s.heap.find id = some a →
    ∃ finish, grantedEnd cfg a.conn past = some finish ∧ s.now ≤ finish
  not_early : ∀ id a e t outputs, s.heap.find id = some a →
    s.step cfg e = some (t, outputs) → t.heap.find id = none →
      grantedEnd cfg a.conn past = some s.now

theorem Alike.find_eq_none (h : Alike s t)
    (hnone : t.heap.find id = none) : s.heap.find id = none := by
  have hconn := h.conn_eq id
  rw [hnone, Option.map_none] at hconn
  exact Option.map_eq_none_iff.mp hconn.symm

theorem due_of_destroyed {a : Allocation}
    (ha : s.heap.find id = some a) (h : s.step cfg e = some (t, outputs))
    (hnone : t.heap.find id = none) : ∃ due ∈ a.timers, due ≤ s.now := by
  have hkept : ∀ t, Alike s t → t.heap.find id ≠ none := by
    intro t halike hnone
    rw [halike.find_eq_none hnone] at ha
    cases ha
  cases steps_of_step h with
  | addInternalSocket | addInternalServerSocket | acceptConnection
  | internalSocketClose | externalPacket | advance =>
    exact absurd hnone (hkept _ (.of_heap_eq rfl rfl rfl))
  | @internalPacket _ _ _ _ _ r _ _ heffect =>
    have hrnone : r.1.heap.find id = none := hnone
    rcases heffect.alike_or_created with halike | ⟨a', hcreated⟩
    · exact absurd hrnone (hkept _ halike)
    · rw [hcreated.heap_eq] at hrnone
      by_cases hid : id = s.nextAllocation
      · rw [hid, StdMap.find_assign_self] at hrnone
        cases hrnone
      · rw [StdMap.find_assign_of_ne hid, ha] at hrnone
        cases hrnone
  | @allocationTimeout id' a' ha' hdue =>
    rw [heap_onAllocationDestroyed ha'] at hnone
    by_cases hid : id = id'
    · subst hid
      cases ha.symm.trans ha'
      exact hdue
    · rw [StdMap.find_erase_of_ne hid, ha] at hnone
      cases hnone
  | permissionTimeout ha' | channelTimeout ha' =>
    exact absurd hnone (hkept _ (alike_store ha' rfl))

theorem Initial.rooted (h : s.Initial) : s.Rooted := by
  obtain ⟨now, rfl⟩ := h
  refine ⟨?_, ?_, rfl⟩
  · simp [new]
  · rintro c ⟨id, a, ha, -⟩
    simp [new] at ha

theorem Initial.timed (h : s.Initial) : Timed cfg s [] := by
  obtain ⟨now, rfl⟩ := h
  intro id a ha
  simp [new] at ha

/-- What holds in every state of a careful run. -/
structure Kept (cfg : Config) (r : Server × History) : Prop where
  tracked : r.1.Tracked
  rooted : r.1.Rooted
  timed : Timed cfg r.1 r.2

theorem kept_of_careful_run {r : Server × History}
    (hr : ReachableVia Started (recorded (next cfg))
      (fun r e => r.1.CarefulEvent cfg e) r) : Kept cfg r := by
  refine hr.invariant ?_ ?_
  · rintro ⟨s, past⟩ ⟨hinitial, rfl⟩
    exact ⟨hinitial.tracked, hinitial.rooted, hinitial.timed⟩
  · rintro ⟨s, past⟩ e r' ⟨htracked, hrooted, htimed⟩ hok h
    obtain ⟨hnext, hpast⟩ := recorded_eq_some h
    obtain ⟨⟨t, outputs⟩, hstep, heq⟩ := Option.map_eq_some_iff.mp hnext
    refine ⟨?_, ?_, ?_⟩
    · rw [← heq]
      exact step_tracked htracked hok.aligned hstep
    · rw [← heq]
      exact step_rooted hrooted htracked hok hstep
    · rw [hpast, ← heq]
      exact step_timed htimed htracked hok hstep

/-- In a run of packets with aligned connections, without retransmissions
that ask for more time, and without closing sockets of live allocations,
every allocation keeps its socket and is destroyed at the end of the lifetime
it was granted last. -/
theorem livesAsGranted_of_careful_run (cfg : Config) {r : Server × History}
    (hr : ReachableVia Started (recorded (next cfg))
      (fun r e => r.1.CarefulEvent cfg e) r) :
    LivesAsGranted cfg r.1 r.2 := by
  obtain ⟨-, hrooted, htimed⟩ := kept_of_careful_run hr
  refine ⟨?_, hrooted.fault, ?_, ?_⟩
  · intro id a ha
    obtain ⟨internal, hsocket, -⟩ := hrooted.socket a.conn ⟨id, a, ha, rfl⟩
    simp [hsocket]
  · intro id a ha
    obtain ⟨finish, hend, -, -, hle⟩ := htimed id a ha
    exact ⟨finish, hend, hle⟩
  · intro id a e t outputs ha h hnone
    obtain ⟨finish, hend, -, hfirst, hle⟩ := htimed id a ha
    obtain ⟨due, hmem, hdue⟩ := due_of_destroyed ha h hnone
    have heq : finish = r.1.now := by
      have := hfirst due hmem
      omega
    rw [hend, heq]

/-- A TCP client makes an allocation and closes its socket. -/
def closedClient : List Event :=
  [.addInternalServerSocket .tcp,
    .acceptConnection 0 (.ofSocket (sampleAddress 1)),
    allocateFrom 1 1, .internalSocketClose 1]

/-- A UDP client sends its Allocate request again after a second, and ten
minutes pass after the first one. -/
def impatientClient : List Event :=
  [.addInternalSocket .udp nilAddress, allocateFrom 0 3, .advance 1000,
    allocateFrom 0 3, .advance 600000]

theorem execute_closedClient :
    ((execute (recorded (next sampleConfig)) (new 0, [])
        closedClient).map fun r => (r.1.heap.find 0).map fun a =>
          (r.1.serverSockets.find a.conn.socket).isSome) =
      some (some false) := by
  decide +kernel

theorem execute_impatientClient :
    ((execute (recorded (next sampleConfig)) (new 0, [])
        impatientClient).map fun r =>
      (r.1.now, (r.1.heap.find 0).map Allocation.conn,
        grantedEnd sampleConfig udpConnection r.2,
        (r.1.step sampleConfig (.allocationTimeout 0)).map fun x =>
          (x.1.heap.find 0).isNone)) =
      some (600000, some udpConnection, some 601000, some true) := by
  decide +kernel

/-- An allocation outlives its client's socket, and one that was granted ten
more minutes a second after it was made is destroyed a second too early. -/
theorem not_livesAsGranted :
    (∃ r, execute (recorded (next sampleConfig)) (new 0, []) closedClient =
        some r ∧ ¬LivesAsGranted sampleConfig r.1 r.2) ∧
      ∃ r, execute (recorded (next sampleConfig)) (new 0, [])
        impatientClient = some r ∧ ¬LivesAsGranted sampleConfig r.1 r.2 := by
  constructor
  · obtain ⟨r, hr, hview⟩ := Option.map_eq_some_iff.mp execute_closedClient
    obtain ⟨a, ha, hsocket⟩ := Option.map_eq_some_iff.mp hview
    refine ⟨r, hr, fun h => ?_⟩
    rw [h.socket 0 a ha] at hsocket
    cases hsocket
  · obtain ⟨r, hr, hview⟩ :=
      Option.map_eq_some_iff.mp execute_impatientClient
    obtain ⟨hnow, hconn, hend, hstep⟩ := by
      simpa only [Prod.mk.injEq] using hview
    obtain ⟨a, ha, hconn⟩ := Option.map_eq_some_iff.mp hconn
    obtain ⟨⟨t, outputs⟩, hstep, hnone⟩ := Option.map_eq_some_iff.mp hstep
    refine ⟨r, hr, fun h => ?_⟩
    have hexact := h.not_early 0 a _ t outputs ha hstep
      (Option.isNone_iff_eq_none.mp hnone)
    rw [hconn, hend, hnow] at hexact
    cases hexact

/-- The careful run of a UDP client that makes one allocation. -/
theorem livesAsGranted_of_careful_run_udp :
    ∃ r, ReachableVia Started (recorded (next sampleConfig))
        (fun r e => r.1.CarefulEvent sampleConfig e) r ∧
      (r.1.heap.find 0).map Allocation.conn = some udpConnection ∧
        LivesAsGranted sampleConfig r.1 r.2 := by
  have hsocket : ReachableVia Started (recorded (next sampleConfig))
      (fun r e => r.1.CarefulEvent sampleConfig e)
      ((new 0).addInternalSocket ⟨.udp, nilAddress, false⟩,
        [(new 0, .addInternalSocket .udp nilAddress)]) :=
    .step (s := (new 0, [])) (e := .addInternalSocket .udp nilAddress)
      (.init ⟨⟨0, rfl⟩, rfl⟩) trivial rfl
  have hok : CarefulEvent sampleConfig
      ((new 0).addInternalSocket ⟨.udp, nilAddress, false⟩)
        (allocateFrom 0 3) := by
    constructor
    · rintro internal - c ⟨id, a, ha, -⟩
      simp [addInternalSocket, new] at ha
    · intro internal _ id a msg hagain
      have ha := hagain.heap_eq
      simp [addInternalSocket, new] at ha
  obtain ⟨r, hr, hconn⟩ : ∃ r, recorded (next sampleConfig)
      ((new 0).addInternalSocket ⟨.udp, nilAddress, false⟩,
        [(new 0, .addInternalSocket .udp nilAddress)])
        (allocateFrom 0 3) = some r ∧
          (r.1.heap.find 0).map Allocation.conn = some udpConnection := by
    rw [← Option.map_eq_some_iff (f := fun r : Server × History =>
      (r.1.heap.find 0).map Allocation.conn)]
    decide +kernel
  have hrun := ReachableVia.step hsocket hok hr
  exact ⟨r, hrun, hconn, livesAsGranted_of_careful_run sampleConfig hrun⟩

end Server

end WebrtcWinXp.Turn
