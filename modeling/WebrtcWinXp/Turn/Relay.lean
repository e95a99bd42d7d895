import WebrtcWinXp.Turn.Lifetime

/-!
# Permissions of relayed data

The channels of an allocation are one-to-one in every run, and every
permission was installed or refreshed by an authorised request at most
`kPermissionTimeout` ago.  Only what goes through a channel is relayed without
a permission, and channel data up to the end of the packet, whatever length
its header announces.
-/

namespace WebrtcWinXp.Turn

open Support Stun ByteBuffer

/-! ## Channels -/

namespace Allocation

variable {cfg : Config} {now : ℕ} {msg : TurnMessage} {a a' : Allocation}
  {outputs : List Output}

/-- The channels relate channel numbers to peers one-to-one. -/
structure ChannelsOneToOne (a : Allocation) : Prop where
  range : ∀ channel ∈ a.channels,
    kMinChannelNumber ≤ channel.id ∧ channel.id ≤ kMaxChannelNumber
  ids : (a.channels.map Channel.id).Nodup
  peers : (a.channels.map Channel.peer).Nodup

theorem channels_addPermission (addr : IPAddress) (a : Allocation) :
    (a.addPermission now addr).channels = a.channels := by
  unfold addPermission
  cases a.findPermission addr <;> rfl

theorem ChannelsOneToOne.congr (h : a.ChannelsOneToOne)
    (hids : a'.channels.map Channel.id = a.channels.map Channel.id)
    (hpeers : a'.channels.map Channel.peer = a.channels.map Channel.peer) :
    a'.ChannelsOneToOne := by
  refine ⟨?_, hids ▸ h.ids, hpeers ▸ h.peers⟩
  intro channel hchannel
  have hid : channel.id ∈ a.channels.map Channel.id := by
    rw [← hids]
    exact List.mem_map_of_mem hchannel
  obtain ⟨channel', hchannel', heq⟩ := List.mem_map.mp hid
  rw [← heq]
  exact h.range channel' hchannel'

theorem ChannelsOneToOne.of_channels_eq (h : a.ChannelsOneToOne)
    (heq : a'.channels = a.channels) : a'.ChannelsOneToOne :=
  h.congr (by rw [heq]) (by rw [heq])

theorem ChannelsOneToOne.bindChannel (h : a.ChannelsOneToOne)
    {channelId : ℕ} {peer : SocketAddress}
    (hrange : kMinChannelNumber ≤ channelId ∧ channelId ≤ kMaxChannelNumber)
    (hfree : a.findChannelById channelId = a.findChannelByPeer peer) :
    (a.bindChannel now channelId peer).ChannelsOneToOne := by
  cases hid : a.findChannelById channelId with
  | none =>
    have hpeer : a.findChannelByPeer peer = none := hfree.symm.trans hid
    have hnoid : channelId ∉ a.channels.map Channel.id := by
      simpa [findChannelById] using hid
    have hnopeer : peer ∉ a.channels.map Channel.peer := by
      simpa [findChannelByPeer] using hpeer
    have hchannels : (a.bindChannel now channelId peer).channels =
        a.channels ++ [⟨channelId, peer, now + kChannelTimeout⟩] := by
      simp [Allocation.bindChannel, hid]
    refine ⟨?_, ?_, ?_⟩
    · intro channel hchannel
      rw [hchannels, List.mem_append, List.mem_singleton] at hchannel
      rcases hchannel with hchannel | rfl
      · exact h.range channel hchannel
      · exact hrange
    · rw [hchannels, List.map_append]
      simpa using List.Nodup.concat hnoid h.ids
    · rw [hchannels, List.map_append]
      simpa using List.Nodup.concat hnopeer h.peers
  | some channel =>
    have hchannels : (a.bindChannel now channelId peer).channels =
        a.channels.map fun channel =>
          if channel.id == channelId then
            { channel with deadline := now + kChannelTimeout }
          else channel := by
      simp [Allocation.bindChannel, hid]
    refine h.congr ?_ ?_
    · rw [hchannels, List.map_map]
      exact List.map_congr_left fun channel _ => by
        dsimp only [Function.comp]
        split <;> rfl
    · rw [hchannels, List.map_map]
      exact List.map_congr_left fun channel _ => by
        dsimp only [Function.comp]
        split <;> rfl

theorem Handled.channelsOneToOne (h : Handled cfg now msg a (a', outputs))
    (ha : a.ChannelsOneToOne) : a'.ChannelsOneToOne := by
  cases h with
  | allocate | refresh | send | reject | ignore => exact ha.of_channels_eq rfl
  | permit => exact ha.of_channels_eq (channels_addPermission _ _)
  | bind _ _ _ hrange hfree =>
    exact (ha.bindChannel hrange hfree).of_channels_eq
      (channels_addPermission _ _)

theorem ChannelsOneToOne.onChannelDestroyed (h : a.ChannelsOneToOne)
    (channel : Channel) : (a.onChannelDestroyed channel).ChannelsOneToOne where
  range c hc := h.range c (List.mem_of_mem_erase hc)
  ids := h.ids.sublist (List.erase_sublist.map _)
  peers := h.peers.sublist (List.erase_sublist.map _)

/-- The requests that install or refresh a permission. -/
def Permits (msg : TurnMessage) (ip : IPAddress) : Prop :=
  (msg.type = TURN_CREATE_PERMISSION_REQUEST ∨
      msg.type = TURN_CHANNEL_BIND_REQUEST) ∧
    ∃ peer, getAddress msg STUN_ATTR_XOR_PEER_ADDRESS = some peer ∧
      peer.ip = ip

theorem mem_addPermission {addr : IPAddress} {perm : Permission}
    (h : perm ∈ (a.addPermission now addr).perms) :
    perm ∈ a.perms ∨ perm = ⟨addr, now + kPermissionTimeout⟩ := by
  unfold addPermission at h
  cases hfind : a.findPermission addr with
  | none => simpa [hfind] using h
  | some perm' =>
    rw [hfind] at h
    obtain ⟨perm'', hmem, rfl⟩ := List.mem_map.mp h
    by_cases heq : perm''.peer = addr
    · simp [heq]
    · simp [heq, hmem]

theorem perms_bindChannel (channelId : ℕ) (peer : SocketAddress)
    (a : Allocation) : (a.bindChannel now channelId peer).perms = a.perms := by
  unfold bindChannel
  cases a.findChannelById channelId <;> rfl

theorem Handled.mem_perms (h : Handled cfg now msg a (a', outputs))
    {perm : Permission} (hperm : perm ∈ a'.perms) :
    perm ∈ a.perms ∨
      Permits msg perm.peer ∧ perm.deadline = now + kPermissionTimeout := by
  cases h with
  | allocate | refresh | send | reject | ignore => exact .inl hperm
  | permit htype hpeer =>
    rcases mem_addPermission hperm with hold | rfl
    · exact .inl hold
    · exact .inr ⟨⟨.inl htype, _, hpeer, rfl⟩, rfl⟩
  | bind htype _ hpeer =>
    rcases mem_addPermission hperm with hold | rfl
    · rw [perms_bindChannel] at hold
      exact .inl hold
    · exact .inr ⟨⟨.inr htype, _, hpeer, rfl⟩, rfl⟩

theorem hasPermission_iff {ip : IPAddress} :
    a.hasPermission ip = true ↔ ∃ perm ∈ a.perms, perm.peer = ip := by
  simp [hasPermission, findPermission]

end Allocation

/-- The payload of what is sent, as its receiver reads it. -/
def Output.payload : Output → Option (List UInt8)
  | .toPeer bytes _ => some bytes
  | .channelData _ bytes =>
    some ((bytes.drop TURN_CHANNEL_HEADER_SIZE).take
      (ofBE ((bytes.drop 2).take 2)))
  | .stun _ msg => getByteString msg STUN_ATTR_DATA

namespace Server

variable {cfg : Config} {s t : Server} {conn : Connection} {data : Buffer}
  {r : Server × List Output} {outputs : List Output} {past : History}

/-- The payload of a packet: of channel data, as many bytes as the header
announces. -/
def received : Event → Option (List UInt8)
  | .internalPacket _ data _ _ =>
    if isTurnChannelData (getBE16 data 0) then
      some (data.read ⟨TURN_CHANNEL_HEADER_SIZE, (getBE16 data 2).toNat⟩)
    else
      (StunMessage.read .turn (data.read ⟨0, data.size⟩)).bind fun msg =>
        getByteString msg STUN_ATTR_DATA
  | .externalPacket _ data _ _ => some data
  | _ => none

/-- What is sent to or from a peer through an allocation. -/
inductive Relayed (s : Server) :
    Event → Output → ℕ → SocketAddress → Prop where
  | toPeer {socket id : ℕ} {data : Buffer} {addr : HostAddress}
      {externalSocket : Option SocketAddress} {internal : InternalSocket}
      {bytes : List UInt8} {peer : SocketAddress}
      (hsocket : s.serverSockets.find socket = some internal)
      (hfind : s.findAllocation (connection socket addr internal) = some id) :
      Relayed s (.internalPacket socket data addr externalSocket)
        (.toPeer bytes peer) id peer
  | toClient {id : ℕ} {data : List UInt8} {addr : SocketAddress}
      {transactionId : List UInt8} {o : Output} :
      Relayed s (.externalPacket id data addr transactionId) o id addr

/-- An authorised request of the client of an allocation for a permission. -/
def Authorizes (cfg : Config) (s : Server) (e : Event) (id : ℕ)
    (ip : IPAddress) : Prop :=
  ∃ socket data addr externalSocket internal a msg r,
    e = .internalPacket socket data addr externalSocket ∧
      s.serverSockets.find socket = some internal ∧
      s.findAllocation (connection socket addr internal) = some id ∧
      s.heap.find id = some a ∧
      StunMessage.read .turn (data.read ⟨0, data.size⟩) = some msg ∧
      Allocation.Permits msg ip ∧
      checkAuthorization cfg s.now (connection socket addr internal) msg data
        a.key (some (id, a)) = .ok r

/-- A permission of an allocation that is live, and was installed or refreshed
by an authorised request within the last `kPermissionTimeout`. -/
def PermissionLive (cfg : Config) (s : Server) (past : History) (id : ℕ)
    (ip : IPAddress) : Prop :=
  ∃ a, s.heap.find id = some a ∧
    ∃ perm ∈ a.perms, perm.peer = ip ∧ s.now ≤ perm.deadline ∧
      ∃ x ∈ past, Authorizes cfg x.1 x.2 id ip ∧
        x.1.now ≤ s.now ∧ s.now ≤ x.1.now + kPermissionTimeout

/-- Channel data comes while the permission of its peer is live, in a packet
of the announced length, and a packet of a peer with a channel while its
permission is live. -/
def PermittedEvent (s : Server) : Event → Prop
  | .internalPacket socket data addr _ =>
    isTurnChannelData (getBE16 data 0) = true →
      ∀ internal id a channel,
        s.serverSockets.find socket = some internal →
        s.findAllocation (connection socket addr internal) = some id →
        s.heap.find id = some a →
        a.findChannelById (getBE16 data 0).toNat = some channel →
          a.hasPermission channel.peer.ip = true ∧
            data.size = TURN_CHANNEL_HEADER_SIZE + (getBE16 data 2).toNat
  | .externalPacket id _ addr _ =>
    ∀ a channel, s.heap.find id = some a →
      a.findChannelByPeer addr = some channel →
        a.hasPermission addr.ip = true
  | _ => True

/-! ## The invariant -/

/-- What holds of the permissions and channels in every run. -/
structure Permitted (cfg : Config) (s : Server) (past : History) : Prop where
  fresh : ∀ id a, s.heap.find id = some a → id < s.nextAllocation
  channels : ∀ id a, s.heap.find id = some a → a.ChannelsOneToOne
  perms : ∀ id a, s.heap.find id = some a → ∀ perm ∈ a.perms,
    s.now ≤ perm.deadline ∧ ∃ x ∈ past, Authorizes cfg x.1 x.2 id perm.peer ∧
      x.1.now ≤ s.now ∧ perm.deadline = x.1.now + kPermissionTimeout

/-- What an event may leave of the permissions and channels of an
allocation. -/
structure Inherits (cfg : Config) (s : Server) (e : Event) (t : Server)
    (id : ℕ) (a' : Allocation) : Prop where
  fresh : id < t.nextAllocation
  channels : a'.ChannelsOneToOne
  perms : ∀ perm ∈ a'.perms, t.now ≤ perm.deadline ∧
    ((∃ a, s.heap.find id = some a ∧ perm ∈ a.perms) ∨
      Authorizes cfg s e id perm.peer ∧
        perm.deadline = s.now + kPermissionTimeout)

variable {e : Event}

theorem Permitted.step (hs : Permitted cfg s past)
    (hnow : s.now ≤ t.now)
    (h : ∀ id a', t.heap.find id = some a' → Inherits cfg s e t id a') :
    Permitted cfg t ((s, e) :: past) where
  fresh id a' ha' := (h id a' ha').fresh
  channels id a' ha' := (h id a' ha').channels
  perms id a' ha' perm hperm := by
    obtain ⟨hdue, ⟨a, ha, hold⟩ | ⟨hauth, hdeadline⟩⟩ :=
      (h id a' ha').perms perm hperm
    · obtain ⟨-, x, hx, hauth, hbefore, hdeadline⟩ :=
        hs.perms id a ha perm hold
      exact ⟨hdue, x, List.mem_cons_of_mem _ hx, hauth, hbefore.trans hnow,
        hdeadline⟩
    · exact ⟨hdue, (s, e), List.mem_cons_self, hauth, hnow, hdeadline⟩

variable {id : ℕ}

theorem Permitted.inherits (hs : Permitted cfg s past)
    {a a' : Allocation} (ha : s.heap.find id = some a)
    (hnext : s.nextAllocation ≤ t.nextAllocation) (hnow : t.now = s.now)
    (hchannels : a'.ChannelsOneToOne) (hperms : a'.perms ⊆ a.perms) :
    Inherits cfg s e t id a' where
  fresh := (hs.fresh id a ha).trans_le hnext
  channels := hchannels
  perms perm hperm := by
    rw [hnow]
    exact ⟨(hs.perms id a ha perm (hperms hperm)).1,
      .inl ⟨a, ha, hperms hperm⟩⟩

theorem Permitted.inherits_self (hs : Permitted cfg s past) {a : Allocation} (ha : s.heap.find id = some a)
    (hnext : s.nextAllocation ≤ t.nextAllocation) (hnow : t.now = s.now) :
    Inherits cfg s e t id a :=
  hs.inherits ha hnext hnow (hs.channels id a ha) (List.Subset.refl _)

theorem Permitted.inherits_handled (hs : Permitted cfg s past) {a a₀ a' : Allocation} {msg : TurnMessage}
    (ha : s.heap.find id = some a)
    (hhandled : Allocation.Handled cfg s.now msg a₀ (a', outputs))
    (hperms : a₀.perms = a.perms) (hchannels : a₀.channels = a.channels)
    (hauth : ∀ ip, Allocation.Permits msg ip → Authorizes cfg s e id ip)
    (hnext : s.nextAllocation ≤ t.nextAllocation) (hnow : t.now = s.now) :
    Inherits cfg s e t id a' where
  fresh := (hs.fresh id a ha).trans_le hnext
  channels := hhandled.channelsOneToOne
    ((hs.channels id a ha).of_channels_eq hchannels)
  perms perm hperm := by
    rw [hnow]
    rcases hhandled.mem_perms hperm with hold | ⟨hpermits, hdeadline⟩
    · rw [hperms] at hold
      exact ⟨(hs.perms id a ha perm hold).1, .inl ⟨a, ha, hold⟩⟩
    · exact ⟨by omega, .inr ⟨hauth _ hpermits, hdeadline⟩⟩

theorem step_permitted (hs : Permitted cfg s past)
    (h : s.step cfg e = some (t, outputs)) :
    Permitted cfg t ((s, e) :: past) := by
  cases steps_of_step h with
  | addInternalSocket | addInternalServerSocket | acceptConnection
  | internalSocketClose | externalPacket =>
    exact hs.step le_rfl fun id a' ha' => hs.inherits_self ha' le_rfl rfl
  | @internalPacket socket data addr externalSocket internal r hsocket hfrom
      heffect =>
      refine hs.step heffect.serverSockets_eq.2.2.ge fun id a' ha' => ?_
      cases heffect with
      | fault | ignore | answer | relay => exact hs.inherits_self ha' le_rfl rfl
      | refuse _ ha =>
        rcases StdMap.find_assign_eq_some_iff.mp ha' with
          ⟨rfl, rfl⟩ | ⟨-, hold⟩
        · exact hs.inherits ha le_rfl rfl
            ((hs.channels _ _ ha).of_channels_eq rfl) (List.Subset.refl _)
        · exact hs.inherits_self hold le_rfl rfl
      | @handle _ a _ nonce msg _ hfind ha _ hread hauth _ _ hhandled =>
        rcases StdMap.find_assign_eq_some_iff.mp ha' with
          ⟨rfl, rfl⟩ | ⟨-, hold⟩
        · refine hs.inherits_handled ha hhandled rfl rfl ?_ le_rfl rfl
          intro ip hpermits
          have hrequest : isStunRequestType msg.type = true := by
            rcases hpermits.1 with htype | htype <;> rw [htype] <;> decide
          rw [authorize, if_pos hrequest] at hauth
          exact ⟨socket, data, addr, externalSocket, internal, a, msg, _,
            rfl, hsocket, hfind, ha, hread, hpermits, hauth⟩
        · exact hs.inherits_self hold le_rfl rfl
      | @create msg key external hfind hallocate =>
        rcases StdMap.find_assign_eq_some_iff.mp ha' with
          ⟨rfl, rfl⟩ | ⟨-, hold⟩
        · rw [Allocation.handleTurnMessage_of_allocate hallocate]
          exact ⟨Nat.lt_succ_self _,
            ⟨fun c hc => (List.not_mem_nil hc).elim, List.nodup_nil,
              List.nodup_nil⟩, fun c hc => (List.not_mem_nil hc).elim⟩
        · exact hs.inherits_self hold (Nat.le_succ _) rfl
  | advance hnow hidle =>
    refine hs.step hnow fun id a' ha' => ?_
    refine ⟨hs.fresh id a' ha', hs.channels id a' ha', ?_⟩
    intro perm hperm
    refine ⟨?_, .inl ⟨a', ha', hperm⟩⟩
    refine hidle id (hs.fresh id a' ha') a' ha' perm.deadline ?_
    exact List.mem_append_right _ (List.mem_append_left _
      (List.mem_map_of_mem hperm))
  | @allocationTimeout id a ha =>
    refine hs.step (now_onAllocationDestroyed ..).ge fun id a' ha' => ?_
    rw [heap_onAllocationDestroyed ha,
      StdMap.find_erase_eq_some_iff] at ha'
    exact hs.inherits_self ha'.2 (destroyed ha).nextAllocation_eq.ge
      (now_onAllocationDestroyed ..)
  | permissionTimeout ha =>
    refine hs.step le_rfl fun id a' ha' => ?_
    rcases StdMap.find_assign_eq_some_iff.mp ha' with
      ⟨rfl, rfl⟩ | ⟨-, hold⟩
    · exact hs.inherits ha le_rfl rfl
        ((hs.channels _ _ ha).of_channels_eq rfl) (List.erase_subset)
    · exact hs.inherits_self hold le_rfl rfl
  | channelTimeout ha =>
    refine hs.step le_rfl fun id a' ha' => ?_
    rcases StdMap.find_assign_eq_some_iff.mp ha' with
      ⟨rfl, rfl⟩ | ⟨-, hold⟩
    · exact hs.inherits ha le_rfl rfl
        ((hs.channels _ _ ha).onChannelDestroyed _) (List.Subset.refl _)
    · exact hs.inherits_self hold le_rfl rfl

theorem permitted_of_run {ok : Server × History → Event → Prop}
    {r : Server × History}
    (hr : ReachableVia Started (recorded (next cfg)) ok r) :
    Permitted cfg r.1 r.2 := by
  induction hr with
  | init h =>
    obtain ⟨⟨now, hnew⟩, -⟩ := h
    rw [hnew]
    exact ⟨fun id a ha => by simp [new] at ha,
      fun id a ha => by simp [new] at ha,
      fun id a ha => by simp [new] at ha⟩
  | step _ _ h ih =>
    obtain ⟨hnext, hpast⟩ := recorded_eq_some h
    obtain ⟨⟨t, outputs⟩, hstep, heq⟩ := Option.map_eq_some_iff.mp hnext
    rw [hpast, ← heq]
    exact step_permitted ih hstep

/-! ## Datagrams -/

theorem Permitted.live (hs : Permitted cfg s past) {a : Allocation}
    {ip : IPAddress} (ha : s.heap.find id = some a)
    (hperm : a.hasPermission ip = true) :
    PermissionLive cfg s past id ip := by
  obtain ⟨perm, hmem, rfl⟩ := Allocation.hasPermission_iff.mp hperm
  obtain ⟨hdue, x, hx, hauth, hbefore, hdeadline⟩ := hs.perms id a ha perm hmem
  exact ⟨a, ha, perm, hmem, rfl, hdue, x, hx, hauth, hbefore, by omega⟩

variable {bytes : List UInt8}

theorem Effect.toPeer_cases {peer : SocketAddress}
    (h : Effect cfg conn data s r) (ho : .toPeer bytes peer ∈ r.2) :
    ∃ id a, s.findAllocation conn = some id ∧ s.heap.find id = some a ∧
      ((∃ channel, a.findChannelById (getBE16 data 0).toNat = some channel ∧
          isTurnChannelData (getBE16 data 0) = true ∧
          TURN_CHANNEL_HEADER_SIZE ≤ data.size ∧ channel.peer = peer ∧
          bytes = data.read ⟨TURN_CHANNEL_HEADER_SIZE,
            data.size - TURN_CHANNEL_HEADER_SIZE⟩) ∨
        ∃ msg, isTurnChannelData (getBE16 data 0) = false ∧
          StunMessage.read .turn (data.read ⟨0, data.size⟩) = some msg ∧
          getByteString msg STUN_ATTR_DATA = some bytes ∧
          a.hasPermission peer.ip = true) := by
  cases h with
  | fault | ignore => cases ho
  | answer | refuse => simp [sendStun] at ho
  | @relay id a hfind ha hsize hchannel =>
    unfold Allocation.handleChannelData at ho
    split at ho
    · cases ho
    · rename_i channel hfound
      cases List.mem_singleton.mp ho
      exact ⟨id, a, hfind, ha,
        .inl ⟨channel, hfound, hchannel, hsize, rfl, rfl⟩⟩
  | @handle id a _ _ msg _ hfind ha hstun hread _ _ _ hhandled =>
    cases hhandled with
    | send _ hdata _ hperm =>
      cases List.mem_singleton.mp ho
      exact ⟨id, a, hfind, ha, .inr ⟨msg, hstun, hread, hdata, hperm⟩⟩
    | allocate | refresh | permit | bind | reject =>
      cases List.mem_singleton.mp ho
    | ignore => cases ho
  | @create msg key external _ hallocate =>
    rw [createAllocation, Allocation.handleTurnMessage_of_allocate hallocate]
      at ho
    cases List.mem_singleton.mp ho

theorem payload_channelData (channel : ℕ)
    (h : bytes.length < 2 ^ 16) :
    (Output.channelData conn (writeUInt16 (UInt16.ofNat channel) ++
      writeUInt16 (UInt16.ofNat bytes.length) ++ bytes)).payload =
        some bytes := by
  have hskip (v : UInt16) (rest : List UInt8) :
      (writeUInt16 v ++ rest).drop 2 = rest :=
    List.drop_left' (writeUInt16_length v)
  have hlength : ofBE (writeUInt16 (UInt16.ofNat bytes.length)) =
      bytes.length := by
    rw [writeUInt16, ofBE_toBE, UInt16.toNat_ofNat_of_lt' h,
      Nat.mod_eq_of_lt (by simpa using h)]
  have hhead : (writeUInt16 (UInt16.ofNat bytes.length) ++ bytes).take 2 =
      writeUInt16 (UInt16.ofNat bytes.length) :=
    List.take_left' (writeUInt16_length _)
  have htail : (writeUInt16 (UInt16.ofNat channel) ++
      (writeUInt16 (UInt16.ofNat bytes.length) ++ bytes)).drop
        TURN_CHANNEL_HEADER_SIZE = bytes := by
    rw [TURN_CHANNEL_HEADER_SIZE, ← List.drop_drop (i := 2) (j := 2), hskip,
      hskip]
  rw [List.append_assoc, Output.payload, htail, hskip, hhead, hlength,
    List.take_length]

theorem attrs_setTransactionID (id : List UInt8) (msg : TurnMessage) :
    (msg.setTransactionID id).attrs = msg.attrs := by
  unfold StunMessage.setTransactionID
  split <;> rfl

theorem getAttribute_dataIndication (transactionId bytes : List UInt8)
    (addr : SocketAddress) :
    getAttribute (Allocation.dataIndication transactionId bytes addr) STUN_ATTR_DATA =
      some (.newByteString STUN_ATTR_DATA bytes) := by
  have hattrs : (Allocation.dataIndication transactionId bytes addr).attrs =
      ((StunMessage.new.setType TURN_DATA_INDICATION.toNat).setTransactionID
        transactionId).attrs ++
        [StunAttribute.setOwner
          (.newXorAddress STUN_ATTR_XOR_PEER_ADDRESS addr)] ++
        [.newByteString STUN_ATTR_DATA bytes] := rfl
  rw [getAttribute, hattrs, attrs_setTransactionID]
  rfl

/-- A packet of a peer is forwarded whole, and under a permission unless the
peer has a channel. -/
theorem onExternalPacket_payload {a : Allocation}
    {transactionId : List UInt8} {addr : SocketAddress}
    (hsize : bytes.length < 2 ^ 16) :
    ∀ o ∈ a.onExternalPacket cfg transactionId bytes addr,
      o.payload = some bytes ∧
        (a.hasPermission addr.ip = true ∨
          ∃ channel, a.findChannelByPeer addr = some channel) := by
  intro o ho
  unfold Allocation.onExternalPacket at ho
  split at ho
  · rename_i channel hchannel
    obtain rfl := List.mem_singleton.mp ho
    exact ⟨payload_channelData _ hsize, .inr ⟨channel, hchannel⟩⟩
  · split at ho
    · rename_i hperm
      obtain rfl := List.mem_singleton.mp ho
      refine ⟨?_, .inl hperm⟩
      obtain ⟨msg', heq, hextends⟩ := extends_sendStun cfg a.conn
        (Allocation.dataIndication transactionId bytes addr)
      rw [heq, Output.payload, getByteString, hextends.getAttribute
        (getAttribute_dataIndication transactionId bytes addr)]
      rfl
    · cases ho

/-- Everything relayed by a permitted event is under a live permission and
has the payload that was received. -/
theorem Permitted.relayed (hs : Permitted cfg s past)
    (hok : s.PermittedEvent e) (h : s.step cfg e = some (t, outputs))
    {o : Output} (ho : o ∈ outputs) {peer : SocketAddress}
    (hrelayed : Relayed s e o id peer) :
    PermissionLive cfg s past id peer.ip ∧ o.payload = received e := by
  cases hrelayed with
  | toPeer hsocket hfind =>
    cases steps_of_step h with
    | internalPacket hsocket' _ heffect =>
      cases hsocket.symm.trans hsocket'
      obtain ⟨id', a, hfind', ha, hcases⟩ := heffect.toPeer_cases ho
      cases hfind.symm.trans hfind'
      rcases hcases with ⟨channel, hfound, hchannel, -, rfl, rfl⟩ |
        ⟨msg, hstun, hread, hdata, hperm⟩
      · obtain ⟨hperm, hsize⟩ :=
          hok hchannel _ _ a channel hsocket hfind ha hfound
        refine ⟨hs.live ha hperm, ?_⟩
        rw [received, if_pos hchannel, hsize, Nat.add_sub_cancel_left]
        rfl
      · refine ⟨hs.live ha hperm, ?_⟩
        rw [received, if_neg (by simp [hstun]), hread, Option.bind_some,
          hdata]
        rfl
  | toClient =>
    cases steps_of_step h with
    | @externalPacket _ _ _ _ a ha hsize =>
      obtain ⟨hpayload, hperm⟩ := onExternalPacket_payload hsize o ho
      refine ⟨hs.live ha ?_, hpayload⟩
      rcases hperm with hperm | ⟨channel, hchannel⟩
      · exact hperm
      · exact hok a channel ha hchannel

/-! ## Runs -/

/-- Channels are one-to-one in every run; and when channel data and packets
of peers with channels come while the permission is live, and channel data
has the announced length, everything is relayed whole and under a permission
that was authorised within the last `kPermissionTimeout`. -/
theorem relays_of_permitted_run (cfg : Config) {r : Server × History}
    (hr : ReachableVia Started (recorded (next cfg))
      (fun r e => r.1.PermittedEvent e) r) :
    (∀ id a, r.1.heap.find id = some a → a.ChannelsOneToOne) ∧
      ∀ e t outputs, r.1.PermittedEvent e →
        r.1.step cfg e = some (t, outputs) →
          ∀ o ∈ outputs, ∀ id peer, Relayed r.1 e o id peer →
            PermissionLive cfg r.1 r.2 id peer.ip ∧
              o.payload = received e := by
  have hs := permitted_of_run hr
  exact ⟨hs.channels, fun e t outputs hok h o ho id peer hrelayed =>
    hs.relayed hok h ho hrelayed⟩

def samplePeer : SocketAddress := sampleAddress 9

/-- A ChannelBind request for channel 0x4000 and the peer. -/
def sampleChannelBind : Buffer :=
  sampleRequest TURN_CHANNEL_BIND_REQUEST
    (sampleAttr STUN_ATTR_CHANNEL_NUMBER [0x40, 0, 0, 0] ++
      sampleAttr STUN_ATTR_XOR_PEER_ADDRESS
        [0, 1, 0x22, 0xFA, 0x2B, 0x12, 0xA4, 0x4B])

/-- One byte of data for channel 0x4000, padded to eight bytes. -/
def samplePadded : Buffer :=
  Buffer.ofList [0x40, 0, 0, 1, 0xAB, 0, 0, 0] fun _ => 0

def fromUdpClient (data : Buffer) : Event :=
  .internalPacket 0 data (.ofSocket (sampleAddress 3)) none

/-- A UDP client binds a channel, whose permission then expires. -/
def expiredPermission : List Event :=
  [.addInternalSocket .udp nilAddress, allocateFrom 0 3,
    fromUdpClient sampleChannelBind, .advance 300000,
    .permissionTimeout 0 ⟨samplePeer.ip, 300000⟩]

set_option synthInstance.maxSize 512 in
theorem execute_expiredPermission :
    ((execute (recorded (next sampleConfig)) (new 0, [])
        expiredPermission).map fun r =>
      (r.1.serverSockets.find 0, r.1.findAllocation udpConnection,
        (r.1.heap.find 0).map Allocation.perms,
        (r.1.step sampleConfig (fromUdpClient samplePadded)).map Prod.snd)) =
      some (some ⟨.udp, nilAddress, false⟩, some 0, some [],
        some [.toPeer [0xAB, 0, 0, 0] samplePeer]) := by
  decide +kernel

/-- Channel data is relayed after the permission has expired, with the padding
that follows it. -/
theorem not_relays :
    ∃ r, execute (recorded (next sampleConfig)) (new 0, [])
        expiredPermission = some r ∧
      ∃ t outputs, r.1.step sampleConfig (fromUdpClient samplePadded) =
          some (t, outputs) ∧
        ∃ o ∈ outputs, Relayed r.1 (fromUdpClient samplePadded) o 0
            samplePeer ∧
          ¬PermissionLive sampleConfig r.1 r.2 0 samplePeer.ip ∧
            o.payload ≠ received (fromUdpClient samplePadded) := by
  obtain ⟨r, hr, hview⟩ :=
    Option.map_eq_some_iff.mp execute_expiredPermission
  obtain ⟨hsocket, hfind, hperms, hsent⟩ := by
    simpa only [Prod.mk.injEq] using hview
  obtain ⟨a, ha, hperms⟩ := Option.map_eq_some_iff.mp hperms
  obtain ⟨⟨t, outputs⟩, hstep, houtputs⟩ := Option.map_eq_some_iff.mp hsent
  refine ⟨r, hr, t, outputs, hstep, .toPeer [0xAB, 0, 0, 0] samplePeer,
    ?_, .toPeer hsocket hfind, ?_, by decide⟩
  · have hsingle : outputs = [.toPeer [0xAB, 0, 0, 0] samplePeer] := houtputs
    simp [hsingle]
  · rintro ⟨a', ha', perm, hperm, -⟩
    cases ha.symm.trans ha'
    rw [hperms] at hperm
    cases hperm

def boundChannel : List Event :=
  [.addInternalSocket .udp nilAddress, allocateFrom 0 3,
    fromUdpClient sampleChannelBind]

def sampleData : Buffer := Buffer.ofList [0x40, 0, 0, 1, 0xAB] fun _ => 0

set_option synthInstance.maxSize 512 in
theorem execute_boundChannel :
    ((execute (recorded (next sampleConfig)) (new 0, [])
        boundChannel).map fun r =>
      (r.1.serverSockets.find 0, r.1.findAllocation udpConnection,
        (r.1.heap.find 0).map fun a => (a.findChannelById 0x4000).map
          fun channel => (channel.peer, a.hasPermission channel.peer.ip),
        (r.1.step sampleConfig (fromUdpClient sampleData)).map Prod.snd)) =
      some (some ⟨.udp, nilAddress, false⟩, some 0,
        some (some (samplePeer, true)), some [.toPeer [0xAB] samplePeer]) := by
  decide +kernel

/-- Data for the channel is relayed under its permission. -/
theorem relays_of_permitted_run_udp :
    ∃ r, ReachableVia Started (recorded (next sampleConfig))
        (fun r e => r.1.PermittedEvent e) r ∧
      PermissionLive sampleConfig r.1 r.2 0 samplePeer.ip := by
  obtain ⟨r, hr, hview⟩ := Option.map_eq_some_iff.mp execute_boundChannel
  obtain ⟨hsocket, hfind, hview, hsent⟩ := by
    simpa only [Prod.mk.injEq] using hview
  obtain ⟨a, ha, hview⟩ := Option.map_eq_some_iff.mp hview
  obtain ⟨channel, hchannel, hview⟩ := Option.map_eq_some_iff.mp hview
  obtain ⟨hpeer, hperm⟩ := Prod.mk.inj hview
  obtain ⟨⟨t, outputs⟩, hstep, houtputs⟩ := Option.map_eq_some_iff.mp hsent
  have hsingle : outputs = [.toPeer [0xAB] samplePeer] := houtputs
  have hrun : ReachableVia Started (recorded (next sampleConfig))
      (fun r e => r.1.PermittedEvent e) r := by
    refine ReachableVia.execute_of_mem (.init ⟨⟨0, rfl⟩, rfl⟩) hr ?_
    intro e he u
    simp only [boundChannel, List.mem_cons, List.not_mem_nil, or_false] at he
    rcases he with rfl | rfl | rfl
    · trivial
    · exact fun h => absurd h (by decide)
    · exact fun h => absurd h (by decide)
  have hok : r.1.PermittedEvent (fromUdpClient sampleData) := by
    intro _ internal id a' channel' hsocket' hfind' ha' hchannel'
    cases hsocket.symm.trans hsocket'
    cases hfind.symm.trans hfind'
    cases ha.symm.trans ha'
    cases hchannel.symm.trans hchannel'
    exact ⟨hperm, by decide⟩
  refine ⟨r, hrun, ?_⟩
  exact ((relays_of_permitted_run sampleConfig hrun).2 _ t outputs hok hstep
    (.toPeer [0xAB] samplePeer) (by simp [hsingle]) 0 samplePeer
    (.toPeer hsocket hfind)).1

end Server

end WebrtcWinXp.Turn
