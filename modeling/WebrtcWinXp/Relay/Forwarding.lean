import WebrtcWinXp.Relay.Server

/-!
# Who gets the packets of external connections

As long as a client does not open a connection to an address with which another
binding has a connection already, the table is consistent.  The first
connection of that kind breaks it.
-/

namespace WebrtcWinXp.Relay

open Support Stun
open Turn (getByteString getUInt32 getAddress chars STUN_ALLOCATE_REQUEST
  STUN_ATTR_USERNAME STUN_ATTR_DATA)

/-- A packet goes to a client of the binding whose user name was proved, or
whose client has opened the connection. -/
def Output.Justified (admitted : List Admission) : Output → Prop
  | .toInternal ext binding ap _ _ =>
    ∃ username, .client ap username binding ∈ admitted ∧
      (.proved ext username binding ∈ admitted ∨
        .opened ext binding ∈ admitted)
  | _ => True

theorem Output.Justified.mono {admitted admitted' : List Admission}
    {o : Output} (h : o.Justified admitted) (hsub : admitted ⊆ admitted') :
    o.Justified admitted' := by
  cases o with
  | toInternal ext binding ap bytes wrapped =>
    obtain ⟨username, hclient, hext⟩ := h
    exact ⟨username, hsub hclient, hext.imp (@hsub _) (@hsub _)⟩
  | _ => trivial

namespace RelayServer

variable (cfg : Config) (s : RelayServer)

/-- What the server should do. -/
structure Sound : Prop where
  consistent : s.table.Consistent
  forwards : ∀ o ∈ s.sent, o.Justified s.admitted
  removes : ∀ binding t, step cfg s (.dispose binding) = some t →
    s.table.RemovesExactly binding t.table

/-- The address pair of the connection that a client opens with a packet. -/
def opens : Event → Option SocketAddressPair
  | .internalPacket bytes ap _ => do
      let id ← s.table.connections.find ap
      let conn ← s.table.connectionAt.find id
      let b ← s.table.bindingAt.find conn.binding
      let request ← StunMessage.read .relay bytes
      let extAddr ← getAddress request STUN_ATTR_DESTINATION_ADDRESS
      let _ ← getByteString request STUN_ATTR_DATA
      if hasMagicCookie bytes ∧ request.type = STUN_SEND_REQUEST ∧
          getByteString request STUN_ATTR_USERNAME = some b.username ∧
          s.getExternalConnection conn.binding extAddr = none then
        some ⟨extAddr, cfg.externalSocket⟩
      else none
  | _ => none

/-- No binding has a connection with the address pair that is opened. -/
def Careful (e : Event) : Prop :=
  ∀ ap ∈ s.opens cfg e, s.table.connections.find ap = none

instance (e : Event) : Decidable (Careful cfg s e) :=
  inferInstanceAs (Decidable (∀ ap ∈ s.opens cfg e, _))

/-- The connections of a binding came to be in the right way. -/
structure Admitted (binding : ℕ) (b : Binding) : Prop where
  client : ∀ id ∈ b.internalConnections, ∀ ap,
    s.table.connectionAt.find id = some ⟨binding, ap⟩ →
      ap.destination ∈ cfg.internalSockets ∧
        .client ap b.username binding ∈ s.admitted
  external : ∀ id ∈ b.externalConnections, ∀ ap,
    s.table.connectionAt.find id = some ⟨binding, ap⟩ →
      ap.destination ∈ cfg.externalSockets ∧
        (.proved ap b.username binding ∈ s.admitted ∨
          .opened ap binding ∈ s.admitted)

structure Inv : Prop where
  table : s.table.Inv
  forwards : ∀ o ∈ s.sent, o.Justified s.admitted
  admitted : ∀ binding b, s.table.bindingAt.find binding = some b →
    s.Admitted cfg binding b
  timers : ∀ binding ∈ s.timers, ∃ b, s.table.bindingAt.find binding = some b
  disposals : ∀ binding ∈ s.disposals,
    ∃ b, s.table.bindingAt.find binding = some b

/-- Every binding has a client, other than the one of a request. -/
def Served (except : ℕ → Prop) : Prop :=
  ∀ binding b, s.table.bindingAt.find binding = some b →
    except binding ∨ b.internalConnections ≠ []

/-- The objects stay as they are, and packets are only forwarded as they
should be. -/
structure Quiet (t : RelayServer) : Prop where
  table : t.table = s.table
  timers : t.timers = s.timers
  disposals : t.disposals = s.disposals
  admitted : t.admitted = s.admitted
  sent : ∀ o ∈ t.sent, o ∈ s.sent ∨ o.Justified s.admitted

variable {cfg s} {t u : RelayServer} {except : ℕ → Prop}

theorem Quiet.refl : Quiet s s :=
  ⟨rfl, rfl, rfl, rfl, fun _ => Or.inl⟩

theorem Quiet.trans (h : Quiet s t) (h' : Quiet t u) : Quiet s u where
  table := h'.table.trans h.table
  timers := h'.timers.trans h.timers
  disposals := h'.disposals.trans h.disposals
  admitted := h'.admitted.trans h.admitted
  sent o ho := by
    rcases h'.sent o ho with ho | ho
    · exact h.sent o ho
    · rw [h.admitted] at ho
      exact Or.inr ho

theorem Inv.quiet (h : s.Inv cfg) (hq : Quiet s t) : t.Inv cfg := by
  refine ⟨?_, fun o ho => ?_, fun binding b hb => ?_, ?_, ?_⟩
  · rw [hq.table]
    exact h.table
  · rw [hq.admitted]
    exact (hq.sent o ho).elim (h.forwards o) id
  · rw [hq.table] at hb
    obtain ⟨hclient, hexternal⟩ := h.admitted binding b hb
    constructor
    · rw [hq.table, hq.admitted]
      exact hclient
    · rw [hq.table, hq.admitted]
      exact hexternal
  · rw [hq.table, hq.timers]
    exact h.timers
  · rw [hq.table, hq.disposals]
    exact h.disposals

theorem Served.quiet (h : s.Served except) (hq : Quiet s t) :
    t.Served except := by
  rw [Served, hq.table]
  exact h

theorem quiet_send {o : Output} (ho : o.Justified s.admitted) :
    Quiet s (s.send o) := by
  refine ⟨rfl, rfl, rfl, rfl, fun o' ho' => ?_⟩
  rcases List.mem_append.mp ho' with ho' | ho'
  · exact Or.inl ho'
  · cases List.mem_singleton.mp ho'
    exact Or.inr ho

theorem quiet_noteUsed (binding : ℕ) : Quiet s (s.noteUsed binding) :=
  ⟨rfl, rfl, rfl, rfl, fun _ => Or.inl⟩

theorem quiet_lock (id : ℕ) : Quiet s (s.lock id) :=
  ⟨rfl, rfl, rfl, rfl, fun _ => Or.inl⟩

theorem quiet_sendStun (conn : Connection) (msg : RelayMessage) :
    Quiet s (s.sendStun conn msg) :=
  (quiet_noteUsed _).trans (quiet_send trivial)

theorem quiet_sendStunError (ap : SocketAddressPair) (msg : StunMessage)
    (errorCode : ℤ) (errorDesc : String) :
    Quiet s (s.sendStunError ap msg errorCode errorDesc) :=
  quiet_send trivial

section

variable {id : ℕ} {conn : Connection} {bytes : List UInt8}

theorem quiet_sendExternal (hlive : s.table.connectionAt.find id = some conn) :
    Quiet s (s.sendExternal id bytes) := by
  rw [sendExternal, hlive]
  exact (quiet_noteUsed _).trans (quiet_send trivial)

theorem quiet_answerSend (request : StunMessage) (extAddr : SocketAddress) :
    Quiet s (s.answerSend id conn request extAddr) := by
  rw [answerSend]
  split
  · exact .refl
  · split
    · exact .refl
    · refine Quiet.trans ?_ (quiet_sendStun conn _)
      exact ⟨rfl, rfl, rfl, rfl, fun _ => Or.inl⟩

theorem live_of_getExternalConnection {binding : ℕ} {extAddr : SocketAddress}
    (hfind : s.getExternalConnection binding extAddr = some id) :
    ∃ conn, s.table.connectionAt.find id = some conn := by
  obtain ⟨b, -, hb⟩ := Option.bind_eq_some_iff.mp hfind
  have hany := List.find?_some hb
  obtain ⟨conn, hconn, -⟩ := (Option.any_eq_true _ _).mp hany
  exact ⟨conn, hconn⟩

theorem Inv.binding_of_live (h : s.Inv cfg)
    (hlive : s.table.connectionAt.find id = some conn) :
    ∃ b, s.table.bindingAt.find conn.binding = some b ∧
      id ∈ b.connections :=
  h.table.consistent.live id conn hlive

variable (cfg conn) in
theorem quiet_allocate {b : Binding}
    (hb : s.table.bindingAt.find conn.binding = some b)
    (request : StunMessage) (rand : ℕ) :
    Quiet s (s.allocate cfg conn request rand) := by
  rw [allocate, hb]
  exact quiet_sendStun conn _

theorem readRequest_cases (bytes : List UInt8) (ap : SocketAddressPair) :
    ((∃ t, s.readRequest bytes ap = (t, none) ∧ Quiet s t) ∧
      ∀ request, StunMessage.read .relay bytes = some request →
        getByteString request STUN_ATTR_USERNAME = none) ∨
    ∃ username request,
      s.readRequest bytes ap = (s, some (username, request)) ∧
      StunMessage.read .relay bytes = some request ∧
      getByteString request STUN_ATTR_USERNAME = some username := by
  unfold readRequest
  cases hread : StunMessage.read .relay bytes with
  | none => exact Or.inl ⟨⟨s, rfl, .refl⟩, fun _ h => by cases h⟩
  | some request =>
    dsimp only
    cases hname : getByteString request STUN_ATTR_USERNAME with
    | none =>
      refine Or.inl ⟨⟨_, rfl, quiet_sendStunError ..⟩, fun _ h => ?_⟩
      cases h
      exact hname
    | some username => exact Or.inr ⟨_, _, rfl, rfl, hname⟩

end

/-! ## New objects -/

section

variable {binding : ℕ} {b : Binding} {ap : SocketAddressPair}
  {dir : Direction} {admission : Admission}

variable (dir) in
theorem Inv.newConnection (h : s.Inv cfg)
    (hb : s.table.bindingAt.find binding = some b)
    (hnone : s.table.connections.find ap = none)
    (hclient : dir = .internal → ap.destination ∈ cfg.internalSockets ∧
      admission = .client ap b.username binding)
    (hexternal : dir = .external → ap.destination ∈ cfg.externalSockets ∧
      (admission = .proved ap b.username binding ∨
        admission = .opened ap binding)) :
    (s.newConnection binding ap dir admission).Inv cfg := by
  have htable := h.table.newConnection hb hnone dir
  have hkeep : ∀ binding', (∃ b, s.table.bindingAt.find binding' = some b) →
      ∃ b, (s.table.newConnection binding ap dir).bindingAt.find binding' =
        some b := by
    rintro binding' ⟨b', hb'⟩
    rw [Table.newConnection_eq hb]
    by_cases hne : binding' = binding
    · subst hne
      exact ⟨_, StdMap.find_assign_self⟩
    · exact ⟨b', (StdMap.find_assign_of_ne hne).trans hb'⟩
  -- A connection that a binding had before is not the new one.
  have hold : ∀ {binding' b' id ap'},
      s.table.bindingAt.find binding' = some b' → id ∈ b'.connections →
      (s.table.newConnection binding ap dir).connectionAt.find id =
        some ⟨binding', ap'⟩ →
      s.table.connectionAt.find id = some ⟨binding', ap'⟩ := by
    intro binding' b' id ap' hb' hid hlive
    obtain ⟨ap'', hlive'⟩ := h.table.consistent.owned binding' id ⟨b', hb', hid⟩
    rw [Table.newConnection_eq hb] at hlive
    exact (StdMap.find_assign_of_ne
      (h.table.connection_lt id _ hlive').ne).symm.trans hlive
  have hnew : ∀ {binding' ap'},
      (s.table.newConnection binding ap dir).connectionAt.find
        s.table.nextConnection = some ⟨binding', ap'⟩ → ap' = ap := by
    intro binding' ap' hlive
    rw [Table.newConnection_eq hb] at hlive
    cases StdMap.find_assign_self.symm.trans hlive
    rfl
  refine ⟨htable, fun o ho => ?_, fun binding' b' hb' => ?_,
    fun binding' hmem => hkeep _ (h.timers _ hmem),
    fun binding' hmem => hkeep _ (h.disposals _ hmem)⟩
  · exact (h.forwards o ho).mono (List.subset_cons_self _ _)
  · change (s.table.newConnection binding ap dir).bindingAt.find _ = _ at hb'
    rw [Table.newConnection_eq hb] at hb'
    rcases StdMap.find_assign_eq_some_iff.mp hb' with ⟨rfl, rfl⟩ | ⟨-, hb'⟩
    · have hadmitted := h.admitted _ b hb
      constructor
      · intro id hid ap' hlive
        rw [Binding.username_add]
        rcases Binding.mem_internalConnections_add.mp hid with
          hid | ⟨hdir, rfl⟩
        · have hlive := hold hb (List.mem_append_left _ hid) hlive
          obtain ⟨hdest, hmem⟩ := hadmitted.client id hid ap' hlive
          exact ⟨hdest, List.mem_cons_of_mem _ hmem⟩
        · cases hnew hlive
          obtain ⟨hdest, rfl⟩ := hclient hdir
          exact ⟨hdest, List.mem_cons_self⟩
      · intro id hid ap' hlive
        rw [Binding.username_add]
        rcases Binding.mem_externalConnections_add.mp hid with
          hid | ⟨hdir, rfl⟩
        · have hlive := hold hb (List.mem_append_right _ hid) hlive
          obtain ⟨hdest, hmem⟩ := hadmitted.external id hid ap' hlive
          exact ⟨hdest, hmem.imp (List.mem_cons_of_mem _)
            (List.mem_cons_of_mem _)⟩
        · cases hnew hlive
          obtain ⟨hdest, rfl | rfl⟩ := hexternal hdir
          · exact ⟨hdest, Or.inl List.mem_cons_self⟩
          · exact ⟨hdest, Or.inr List.mem_cons_self⟩
    · have hadmitted := h.admitted _ b' hb'
      constructor
      · intro id hid ap' hlive
        have hlive := hold hb' (List.mem_append_left _ hid) hlive
        obtain ⟨hdest, hmem⟩ := hadmitted.client id hid ap' hlive
        exact ⟨hdest, List.mem_cons_of_mem _ hmem⟩
      · intro id hid ap' hlive
        have hlive := hold hb' (List.mem_append_right _ hid) hlive
        obtain ⟨hdest, hmem⟩ := hadmitted.external id hid ap' hlive
        exact ⟨hdest, hmem.imp (List.mem_cons_of_mem _)
          (List.mem_cons_of_mem _)⟩

variable (ap dir admission) in
theorem Served.newConnection (h : s.Served except)
    (hb : s.table.bindingAt.find binding = some b) :
    (s.newConnection binding ap dir admission).Served except := by
  intro binding' b' hb'
  change (s.table.newConnection binding ap dir).bindingAt.find _ = _ at hb'
  rw [Table.newConnection_eq hb] at hb'
  rcases StdMap.find_assign_eq_some_iff.mp hb' with ⟨rfl, rfl⟩ | ⟨-, hb'⟩
  · refine (h _ b hb).imp_right fun hne heq => hne ?_
    refine List.eq_nil_iff_forall_not_mem.mpr fun id hid => ?_
    have hmem : id ∈ (b.add dir s.table.nextConnection).internalConnections :=
      Binding.mem_internalConnections_add.mpr (Or.inl hid)
    rw [heq] at hmem
    cases hmem
  · exact h binding' b' hb'

variable (ap admission) in
theorem Served.newClient (h : s.Served (· = binding))
    (hb : s.table.bindingAt.find binding = some b) :
    (s.newConnection binding ap .internal admission).Served
      fun _ => False := by
  intro binding' b' hb'
  change (s.table.newConnection binding ap .internal).bindingAt.find _ = _
    at hb'
  rw [Table.newConnection_eq hb] at hb'
  rcases StdMap.find_assign_eq_some_iff.mp hb' with ⟨rfl, rfl⟩ | ⟨hne, hb'⟩
  · exact Or.inr (List.append_ne_nil_of_right_ne_nil _ (List.cons_ne_nil _ _))
  · exact Or.inr ((h binding' b' hb').resolve_left hne)

theorem Inv.newBinding (h : s.Inv cfg) {username : List UInt8}
    (hnone : s.table.bindings.find username = none) (lifetime : UInt32) :
    (s.newBinding username lifetime).Inv cfg := by
  have hkeep : ∀ binding, (∃ b, s.table.bindingAt.find binding = some b) →
      ∃ b, (s.table.newBinding username lifetime).bindingAt.find binding =
        some b := by
    rintro binding ⟨b, hb⟩
    exact ⟨b, (StdMap.find_assign_of_ne (h.table.binding_lt _ b hb).ne).trans hb⟩
  refine ⟨h.table.newBinding hnone lifetime, h.forwards,
    fun binding b hb => ?_, fun binding hmem => ?_,
    fun binding hmem => hkeep _ (h.disposals _ hmem)⟩
  · rcases StdMap.find_assign_eq_some_iff.mp hb with ⟨-, rfl⟩ | ⟨-, hb⟩
    · exact ⟨fun id hid => (by cases hid), fun id hid => (by cases hid)⟩
    · obtain ⟨hclient, hexternal⟩ := h.admitted binding b hb
      exact ⟨hclient, hexternal⟩
  · rcases List.mem_cons.mp hmem with rfl | hmem
    · exact ⟨_, StdMap.find_assign_self⟩
    · exact hkeep _ (h.timers _ hmem)

theorem Inv.findBinding (h : s.Inv cfg) (hserved : s.Served fun _ => False)
    (username : List UInt8) (request : StunMessage) :
    (s.findBinding username request).1.Inv cfg ∧
    (s.findBinding username request).1.Served
      (· = (s.findBinding username request).2) ∧
    (s.findBinding username request).1.table.connections =
      s.table.connections ∧
    ∃ b, (s.findBinding username request).1.table.bindingAt.find
        (s.findBinding username request).2 = some b ∧
      b.username = username := by
  rw [RelayServer.findBinding]
  cases hfind : s.table.bindings.find username with
  | some binding =>
    refine ⟨h, fun binding' b' hb' => ?_, rfl, ?_⟩
    · exact Or.inr ((hserved binding' b' hb').resolve_left id)
    · exact (h.table.consistent.bindings username binding).mp hfind
  | none =>
    refine ⟨h.newBinding hfind _, fun binding' b' hb' => ?_, rfl,
      _, StdMap.find_assign_self, rfl⟩
    rcases StdMap.find_assign_eq_some_iff.mp hb' with ⟨rfl, -⟩ | ⟨-, hb'⟩
    · exact Or.inl rfl
    · exact Or.inr ((hserved binding' b' hb').resolve_left id)

end

/-! ## Packets -/

theorem Inv.quiet_forward (h : s.Inv cfg) (hserved : s.Served fun _ => False)
    (ext : Connection) {b : Binding}
    (hb : s.table.bindingAt.find ext.binding = some b)
    (hext : .proved ext.addrPair b.username ext.binding ∈ s.admitted ∨
      .opened ext.addrPair ext.binding ∈ s.admitted) (bytes : List UInt8) :
    Quiet s (s.forward ext bytes) := by
  have hne := (hserved _ b hb).resolve_left id
  obtain ⟨id, hid, hget⟩ : ∃ id ∈ b.internalConnections,
      s.getInternalConnection ext.binding ext.addrPair.source = some id := by
    rw [getInternalConnection, hb, Option.bind_some]
    cases hfind : b.internalConnections.find? _ with
    | some id => exact ⟨id, List.mem_of_find?_eq_some hfind, rfl⟩
    | none =>
      rw [Option.none_or]
      exact ⟨_, List.head_mem hne, List.head?_eq_some_head hne⟩
  obtain ⟨ap, hlive⟩ := h.table.consistent.owned ext.binding id
    ⟨b, hb, List.mem_append_left _ hid⟩
  obtain ⟨-, hclient⟩ := (h.admitted _ b hb).client id hid ap hlive
  rw [forward, hget]
  dsimp only
  rw [hlive]
  exact (quiet_noteUsed _).trans (quiet_send ⟨b.username, hclient, hext⟩)

section

variable {id : ℕ} {binding : ℕ} {b : Binding} {ap : SocketAddressPair}
  {bytes : List UInt8} {rand : ℕ}

theorem quiet_finishSend {ext : ℕ} {conn : Connection}
    (hlive : ∃ conn, s.table.connectionAt.find ext = some conn)
    (request : StunMessage) (extAddr : SocketAddress) (data : List UInt8) :
    Quiet s ((if s.locked ext then s.sendExternal ext data else s).answerSend
      id conn request extAddr) := by
  obtain ⟨conn', hlive⟩ := hlive
  refine Quiet.trans ?_ (quiet_answerSend request extAddr)
  split
  · exact quiet_sendExternal hlive
  · exact .refl

variable (cfg bytes rand) in
theorem opens_eq (hfind : s.table.connections.find ap = some id)
    (hlive : s.table.connectionAt.find id = some ⟨binding, ap⟩)
    (hb : s.table.bindingAt.find binding = some b) :
    s.opens cfg (.internalPacket bytes ap rand) =
      (StunMessage.read .relay bytes).bind fun request =>
      (getAddress request STUN_ATTR_DESTINATION_ADDRESS).bind fun extAddr =>
      (getByteString request STUN_ATTR_DATA).bind fun _ =>
        if hasMagicCookie bytes ∧ request.type = STUN_SEND_REQUEST ∧
            getByteString request STUN_ATTR_USERNAME = some b.username ∧
            s.getExternalConnection binding extAddr = none then
          some ⟨extAddr, cfg.externalSocket⟩
        else none := by
  simp only [opens, hfind, hlive, hb, Option.bind_eq_bind, Option.bind_some]

/-- What a packet of a client does: it opens a connection, or it leaves the
objects alone. -/
inductive Handled (cfg : Config) (s : RelayServer) (e : Event) :
    RelayServer → Prop where
  | quiet {t : RelayServer} (hopens : s.opens cfg e = none) (h : Quiet s t) :
      Handled cfg s e t
  | opened {t : RelayServer} {binding : ℕ} {b : Binding}
      {ap : SocketAddressPair} (hopens : s.opens cfg e = some ap)
      (hb : s.table.bindingAt.find binding = some b)
      (hdest : ap.destination ∈ cfg.externalSockets)
      (h : Quiet
        (s.newConnection binding ap .external (.opened ap binding)) t) :
      Handled cfg s e t

theorem handled_handleStunSend {request : StunMessage}
    (hfind : s.table.connections.find ap = some id)
    (hlive : s.table.connectionAt.find id = some ⟨binding, ap⟩)
    (hb : s.table.bindingAt.find binding = some b)
    (hcookie : hasMagicCookie bytes)
    (hread : StunMessage.read .relay bytes = some request)
    (hname : getByteString request STUN_ATTR_USERNAME = some b.username)
    (htype : request.type = STUN_SEND_REQUEST) :
    Handled cfg s (.internalPacket bytes ap rand)
      (s.handleStunSend cfg id ⟨binding, ap⟩ request) := by
  have hopens := opens_eq cfg bytes rand hfind hlive hb
  rw [hread, Option.bind_some] at hopens
  unfold handleStunSend
  cases haddr : getAddress request STUN_ATTR_DESTINATION_ADDRESS with
  | none =>
    rw [haddr, Option.bind_none] at hopens
    exact .quiet hopens (quiet_sendStunError ..)
  | some extAddr =>
    cases hdata : getByteString request STUN_ATTR_DATA with
    | none =>
      rw [haddr, Option.bind_some, hdata, Option.bind_none] at hopens
      exact .quiet hopens (quiet_sendStunError ..)
    | some data =>
      rw [haddr, Option.bind_some, hdata, Option.bind_some] at hopens
      dsimp only
      rw [openExternal]
      cases hext : s.getExternalConnection binding extAddr with
      | some ext =>
        rw [hext, if_neg (fun h => by cases h.2.2.2)] at hopens
        refine .quiet hopens ?_
        exact quiet_finishSend (live_of_getExternalConnection hext) ..
      | none =>
        rw [if_pos ⟨hcookie, htype, hname, hext⟩] at hopens
        refine .opened hopens hb cfg.externalSocket_mem ?_
        refine quiet_finishSend ?_ ..
        change ∃ conn, (s.table.newConnection binding _ _).connectionAt.find
          _ = some conn
        rw [Table.newConnection_eq hb]
        exact ⟨_, StdMap.find_assign_self⟩

variable (cfg bytes rand) in
theorem opens_eq_none (hfind : s.table.connections.find ap = some id)
    (hlive : s.table.connectionAt.find id = some ⟨binding, ap⟩)
    (hb : s.table.bindingAt.find binding = some b)
    (h : ∀ request, StunMessage.read .relay bytes = some request →
      hasMagicCookie bytes → request.type = STUN_SEND_REQUEST →
      getByteString request STUN_ATTR_USERNAME ≠ some b.username) :
    s.opens cfg (.internalPacket bytes ap rand) = none := by
  rw [opens_eq cfg bytes rand hfind hlive hb, Option.bind_eq_none_iff]
  intro request hread
  rw [Option.bind_eq_none_iff]
  intro extAddr _
  rw [Option.bind_eq_none_iff]
  intro _ _
  exact if_neg fun hcond => h request hread hcond.1 hcond.2.1 hcond.2.2.1

theorem handled_handleStun
    (hfind : s.table.connections.find ap = some id)
    (hlive : s.table.connectionAt.find id = some ⟨binding, ap⟩)
    (hb : s.table.bindingAt.find binding = some b)
    (hcookie : hasMagicCookie bytes) :
    Handled cfg s (.internalPacket bytes ap rand)
      (s.handleStun cfg id ⟨binding, ap⟩ bytes rand) := by
  have hnone := opens_eq_none cfg bytes rand hfind hlive hb
  unfold handleStun
  rcases s.readRequest_cases bytes ap with
    ⟨⟨t, ht, hq⟩, hname⟩ | ⟨username, request, hr, hread, hname⟩
  · rw [ht]
    refine .quiet (hnone fun request hread _ _ => ?_) hq
    rw [hname request hread]
    exact fun h => by cases h
  · rw [hr]
    dsimp only
    rw [hb]
    dsimp only
    by_cases hsame : username = b.username
    · subst hsame
      rw [if_neg (not_not_intro rfl)]
      by_cases htype : request.type = STUN_SEND_REQUEST
      · rw [if_pos htype]
        exact handled_handleStunSend hfind hlive hb hcookie hread hname htype
      · rw [if_neg htype]
        refine .quiet (hnone fun request' hread' _ htype' => ?_) ?_
        · cases hread.symm.trans hread'
          exact absurd htype' htype
        · split
          · exact quiet_allocate cfg _ hb request rand
          · exact quiet_sendStunError ..
    · rw [if_pos hsame]
      refine .quiet (hnone fun request' hread' _ _ => ?_)
        (quiet_sendStunError ..)
      cases hread.symm.trans hread'
      rw [hname]
      exact fun h => hsame (Option.some_inj.mp h)

theorem Inv.handled_onInternalPacket (h : s.Inv cfg)
    (hfind : s.table.connections.find ap = some id) :
    Handled cfg s (.internalPacket bytes ap rand)
      (s.onInternalPacket cfg bytes ap rand) := by
  obtain ⟨binding, hlive⟩ := h.table.consistent.live_of_find hfind
  obtain ⟨b, hb, -⟩ := h.binding_of_live hlive
  rw [onInternalPacket, hfind]
  dsimp only
  rw [hlive]
  dsimp only
  by_cases hcookie : hasMagicCookie bytes
  · rw [if_pos hcookie]
    exact handled_handleStun hfind hlive hb hcookie
  · rw [if_neg hcookie]
    refine .quiet (opens_eq_none cfg bytes rand hfind hlive hb
      fun _ _ h => absurd h hcookie) ?_
    split
    · exact .refl
    · split
      · exact .refl
      · next ext hext =>
          split
          · obtain ⟨conn, hext⟩ := live_of_getExternalConnection hext
            exact quiet_sendExternal hext
          · exact .refl

theorem Inv.allocateNew (h : s.Inv cfg) (hserved : s.Served fun _ => False)
    (hnone : s.table.connections.find ap = none)
    (hdest : ap.destination ∈ cfg.internalSockets) :
    (s.allocateNew cfg bytes ap rand).Inv cfg ∧
      (s.allocateNew cfg bytes ap rand).Served fun _ => False := by
  unfold RelayServer.allocateNew
  rcases s.readRequest_cases bytes ap with
    ⟨⟨t, ht, hq⟩, -⟩ | ⟨username, request, hr, -, -⟩
  · rw [ht]
    exact ⟨h.quiet hq, hserved.quiet hq⟩
  · rw [hr]
    dsimp only
    split
    · have hq : Quiet s (s.sendStunError ap request 600
          "Operation Not Supported") := quiet_sendStunError ..
      exact ⟨h.quiet hq, hserved.quiet hq⟩
    · obtain ⟨hinv, hserved, hconnections, b, hb, rfl⟩ :=
        h.findBinding hserved username request
      rw [← hconnections] at hnone
      have hinv := hinv.newConnection .internal hb hnone
        (fun _ => ⟨hdest, rfl⟩) (fun hdir => by cases hdir)
      have hserved := hserved.newClient ap (.client ap b.username
        (s.findBinding b.username request).2) hb
      obtain ⟨b', hb'⟩ : ∃ b', ((s.findBinding b.username
          request).1.newConnection (s.findBinding b.username request).2 ap
          .internal (.client ap b.username (s.findBinding b.username
            request).2)).table.bindingAt.find
              (s.findBinding b.username request).2 = some b' := by
        change ∃ b', (Table.newConnection _ _ _ _).bindingAt.find _ = some b'
        rw [Table.newConnection_eq hb]
        exact ⟨_, StdMap.find_assign_self⟩
      have hq := quiet_allocate cfg ⟨(s.findBinding b.username request).2, ap⟩
        hb' request rand
      exact ⟨hinv.quiet hq, hserved.quiet hq⟩

theorem Inv.onExternalPacket (h : s.Inv cfg)
    (hserved : s.Served fun _ => False)
    (hdest : ap.destination ∈ cfg.externalSockets) :
    (s.onExternalPacket bytes ap).Inv cfg ∧
      (s.onExternalPacket bytes ap).Served fun _ => False := by
  unfold RelayServer.onExternalPacket
  cases hfind : s.table.connections.find ap with
  | some id =>
    obtain ⟨binding, hlive⟩ := h.table.consistent.live_of_find hfind
    obtain ⟨b, hb, hmem⟩ := h.binding_of_live hlive
    have hadmitted := h.admitted binding b hb
    have hid : id ∈ b.externalConnections := by
      refine (List.mem_append.mp hmem).resolve_left fun hid => ?_
      exact cfg.disjoint _ (hadmitted.client id hid ap hlive).1 hdest
    have hq : Quiet s ((s.forward ⟨binding, ap⟩ bytes).lock id) :=
      (h.quiet_forward hserved ⟨binding, ap⟩ hb
        (hadmitted.external id hid ap hlive).2 bytes).trans (quiet_lock id)
    dsimp only
    rw [hlive]
    exact ⟨h.quiet hq, hserved.quiet hq⟩
  | none =>
    dsimp only
    split
    · exact ⟨h, hserved⟩
    · next bytes' _ =>
        cases hname : s.table.bindings.find (bytes'.take USERNAME_LENGTH) with
        | none => exact ⟨h, hserved⟩
        | some binding =>
          dsimp only
          obtain ⟨b, hb, husername⟩ :=
            (h.table.consistent.bindings _ _).mp hname
          rw [← husername]
          have hinv := h.newConnection .external hb hfind
            (fun hdir => by cases hdir) (fun _ => ⟨hdest, Or.inl rfl⟩)
          have hserved' := hserved.newConnection ap .external
            (.proved ap b.username binding) hb
          have hb' : (s.table.newConnection binding ap
              .external).bindingAt.find binding =
                some (b.add .external s.table.nextConnection) := by
            rw [Table.newConnection_eq hb]
            exact StdMap.find_assign_self
          have hlock : Quiet _ ((s.newConnection binding ap .external
              (.proved ap b.username binding)).lock
                s.table.nextConnection) := quiet_lock _
          have hinv := hinv.quiet hlock
          have hserved' := hserved'.quiet hlock
          have hext : .proved ap (b.add .external
              s.table.nextConnection).username binding ∈
                Admission.proved ap b.username binding :: s.admitted := by
            rw [Binding.username_add]
            exact List.mem_cons_self
          have hq := hinv.quiet_forward hserved' ⟨binding, ap⟩ hb'
            (Or.inl hext) bytes
          exact ⟨hinv.quiet hq, hserved'.quiet hq⟩

theorem Inv.lifetimeTimer (h : s.Inv cfg)
    (hb : s.table.bindingAt.find binding = some b) :
    (s.lifetimeTimer binding).Inv cfg ∧
      (s.lifetimeTimer binding).table = s.table := by
  rw [RelayServer.lifetimeTimer, hb]
  dsimp only
  split
  · refine ⟨⟨h.table, h.forwards, fun binding' b' hb' => ?_, ?_, ?_⟩, rfl⟩
    · exact ⟨(h.admitted _ b' hb').client, (h.admitted _ b' hb').external⟩
    · exact fun binding' hmem => h.timers _ (List.mem_filter.mp hmem).1
    · intro binding' hmem
      rcases List.mem_cons.mp hmem with rfl | hmem
      · exact ⟨b, hb⟩
      · exact h.disposals _ hmem
  · exact ⟨h, rfl⟩

theorem Inv.dispose (h : s.Inv cfg)
    (hb : s.table.bindingAt.find binding = some b) :
    (s.dispose binding).Inv cfg := by
  have hfind : ∀ {binding' b'},
      (s.table.deleteBinding binding).bindingAt.find binding' = some b' ↔
        binding' ≠ binding ∧ s.table.bindingAt.find binding' = some b' := by
    intro binding' b'
    rw [h.table.bindingAt_deleteBinding hb]
    exact StdMap.find_erase_eq_some_iff
  have hlive : ∀ {id conn},
      (s.table.deleteBinding binding).connectionAt.find id = some conn →
        s.table.connectionAt.find id = some conn := fun hlive =>
    ((h.table.connectionAt_deleteBinding hb _ _).mp hlive).1
  have hkeep : ∀ (bindings : List ℕ), (∀ binding' ∈ bindings,
        ∃ b', s.table.bindingAt.find binding' = some b') →
      ∀ binding' ∈ bindings.filter (· ≠ binding),
        ∃ b', (s.table.deleteBinding binding).bindingAt.find binding' =
          some b' := by
    intro bindings hall binding' hmem
    obtain ⟨hmem, hne⟩ := List.mem_filter.mp hmem
    obtain ⟨b', hb'⟩ := hall binding' hmem
    exact ⟨b', hfind.mpr ⟨of_decide_eq_true hne, hb'⟩⟩
  refine ⟨h.table.deleteBinding hb, h.forwards, fun binding' b' hb' => ?_,
    hkeep _ h.timers, hkeep _ h.disposals⟩
  have hadmitted := h.admitted binding' b' (hfind.mp hb').2
  exact ⟨fun id hid ap hap => hadmitted.client id hid ap (hlive hap),
    fun id hid ap hap => hadmitted.external id hid ap (hlive hap)⟩

theorem Served.dispose (h : s.Inv cfg) (hserved : s.Served except)
    (hb : s.table.bindingAt.find binding = some b) :
    (s.dispose binding).Served except := by
  intro binding' b' hb'
  change (s.table.deleteBinding binding).bindingAt.find _ = _ at hb'
  rw [h.table.bindingAt_deleteBinding hb] at hb'
  exact hserved binding' b' (StdMap.find_erase_eq_some_iff.mp hb').2

end

/-! ## Runs -/

theorem inv_new : (new : RelayServer).Inv cfg ∧
    (new : RelayServer).Served fun _ => False := by
  refine ⟨⟨Table.inv_empty, fun o ho => (by cases ho),
    fun binding b hb => (by cases hb), fun binding hmem => (by cases hmem),
    fun binding hmem => (by cases hmem)⟩, fun binding b hb => (by cases hb)⟩

theorem Inv.step (h : s.Inv cfg) (hserved : s.Served fun _ => False)
    {e : Event} (hstep : step cfg s e = some t) :
    (s.opens cfg e = none ∧ t.Inv cfg ∧ t.Served fun _ => False) ∨
      ∃ binding b ap, s.opens cfg e = some ap ∧
        s.table.bindingAt.find binding = some b ∧
        ap.destination ∈ cfg.externalSockets ∧
        Quiet (s.newConnection binding ap .external (.opened ap binding)) t := by
  cases e with
  | clock now =>
    cases hstep
    have hq : Quiet s
        { s with
          now := now } := ⟨rfl, rfl, rfl, rfl, fun _ => Or.inl⟩
    exact Or.inl ⟨rfl, h.quiet hq, hserved.quiet hq⟩
  | internalPacket bytes ap rand =>
    obtain ⟨hdest, heq⟩ := Option.ite_none_right_eq_some.mp hstep
    cases heq
    cases hfind : s.table.connections.find ap with
    | none =>
      have hopens : s.opens cfg (.internalPacket bytes ap rand) = none := by
        simp only [opens, hfind, Option.bind_eq_bind, Option.bind_none]
      rw [onInternalPacket, hfind]
      exact Or.inl ⟨hopens, h.allocateNew hserved hfind hdest⟩
    | some id =>
      have hhandled : Handled cfg s (.internalPacket bytes ap rand) _ :=
        h.handled_onInternalPacket hfind
      cases hhandled with
      | quiet hopens hq =>
        exact Or.inl ⟨hopens, h.quiet hq, hserved.quiet hq⟩
      | opened hopens hb hdest hq =>
        exact Or.inr ⟨_, _, _, hopens, hb, hdest, hq⟩
  | externalPacket bytes ap =>
    obtain ⟨hdest, heq⟩ := Option.ite_none_right_eq_some.mp hstep
    cases heq
    exact Or.inl ⟨rfl, h.onExternalPacket hserved hdest⟩
  | lifetimeTimer binding =>
    obtain ⟨hmem, heq⟩ := Option.ite_none_right_eq_some.mp hstep
    cases heq
    obtain ⟨b, hb⟩ := h.timers binding hmem
    obtain ⟨hinv, htable⟩ := h.lifetimeTimer hb
    refine Or.inl ⟨rfl, hinv, ?_⟩
    rw [Served, htable]
    exact hserved
  | dispose binding =>
    obtain ⟨hmem, heq⟩ := Option.ite_none_right_eq_some.mp hstep
    cases heq
    obtain ⟨b, hb⟩ := h.disposals binding hmem
    exact Or.inl ⟨rfl, h.dispose hb, Served.dispose h hserved hb⟩

theorem Inv.step_of_careful (h : s.Inv cfg)
    (hserved : s.Served fun _ => False) {e : Event}
    (hok : Careful cfg s e) (hstep : RelayServer.step cfg s e = some t) :
    t.Inv cfg ∧ t.Served fun _ => False := by
  rcases h.step hserved hstep with
    ⟨-, hinv, hserved⟩ | ⟨binding, b, ap, hopens, hb, hdest, hq⟩
  · exact ⟨hinv, hserved⟩
  · have hinv := h.newConnection .external hb (hok ap hopens)
      (fun hdir => by cases hdir) (fun _ => ⟨hdest, Or.inr rfl⟩)
    exact ⟨hinv.quiet hq, (hserved.newConnection _ _ _ hb).quiet hq⟩

theorem Inv.sound (h : s.Inv cfg) : s.Sound cfg := by
  refine ⟨h.table.consistent, h.forwards, fun binding t hstep => ?_⟩
  obtain ⟨hmem, heq⟩ := Option.ite_none_right_eq_some.mp hstep
  cases heq
  obtain ⟨b, hb⟩ := h.disposals binding hmem
  exact h.table.removesExactly hb

/-- In every careful run the table is right, and it stays right in a step if
and only if the step is careful. -/
theorem sound_of_careful
    (hs : ReachableVia (· = new) (step cfg) (Careful cfg) s) :
    s.Sound cfg ∧ ∀ e t, step cfg s e = some t →
      (t.table.Consistent ↔ Careful cfg s e) := by
  obtain ⟨h, hserved⟩ : s.Inv cfg ∧ s.Served fun _ => False :=
    hs.invariant (fun s hs => hs ▸ inv_new)
      fun s e t hinv hok hstep => hinv.1.step_of_careful hinv.2 hok hstep
  refine ⟨h.sound, fun e t hstep => ⟨fun hc ap hopens => ?_, fun hok => ?_⟩⟩
  · rcases h.step hserved hstep with
      ⟨hnone, -, -⟩ | ⟨binding, b, ap', hopens', hb, -, hq⟩
    · rw [Option.mem_def, hnone] at hopens
      cases hopens
    · cases hopens.symm.trans hopens'
      cases htaken : s.table.connections.find ap with
      | none => rfl
      | some id =>
        rw [hq.table] at hc
        exact absurd hc
          (Table.Consistent.not_newConnection h.table hb htaken .external)
  · exact (h.step_of_careful hserved hok hstep).1.table.consistent

theorem length_host (host : UInt8) : [10, 0, 0, host].length = 4 := rfl

def hostAddress (host : UInt8) (port : UInt16) : SocketAddress :=
  ⟨.v4 ⟨[10, 0, 0, host], length_host host⟩, port⟩

def twoSockets : Config where
  internalSockets := [hostAddress 9 80]
  externalSockets := [hostAddress 9 81]
  nonempty := List.cons_ne_nil _ _
  disjoint := by decide

/-- The header of a request, where the length is that of its attributes. -/
def requestHeader (type length : UInt8) : List UInt8 :=
  [0, type, 0, length, 0x21, 0x12, 0xa4, 0x42] ++ List.replicate 12 0

def usernameBytes (name : UInt8) : List UInt8 :=
  [0, 6, 0, 4, name, name, name, name]

def allocateBytes (name : UInt8) : List UInt8 :=
  requestHeader 3 8 ++ usernameBytes name

def sendBytes (name : UInt8) : List UInt8 :=
  requestHeader 4 36 ++ [0, 15, 0, 4] ++ TURN_MAGIC_COOKIE_VALUE ++
    usernameBytes name ++ [0, 17, 0, 8, 0, 1, 0x1F, 0x90, 9, 9, 9, 9] ++
    [0, 19, 0, 4, 1, 2, 3, 4]

def fromClient (host : UInt8) (bytes : List UInt8) : Event :=
  .internalPacket bytes ⟨hostAddress host 1000, hostAddress 9 80⟩ 0

/-- Two clients allocate, the first one sends, and its binding expires. -/
def expiringRun : List Event :=
  [fromClient 1 (allocateBytes 65), fromClient 1 (sendBytes 65), .clock 1000,
    fromClient 2 (allocateBytes 66), .clock 900000, .lifetimeTimer 0,
    .dispose 0]

theorem sound_of_careful_expiringRun :
    ∃ s, execute (step twoSockets) new expiringRun = some s ∧
      s.Sound twoSockets ∧ s.table.bindings.find (List.replicate 4 66) = some 1 ∧
      s.table.bindings.find (List.replicate 4 65) = none := by
  have hrun : ∃ s, execute (step twoSockets) new expiringRun = some s ∧
      s.table.bindings.find (List.replicate 4 66) = some 1 ∧
      s.table.bindings.find (List.replicate 4 65) = none := ⟨_, rfl, rfl, rfl⟩
  obtain ⟨s, hrun, hkept, hremoved⟩ := hrun
  have hnew : ReachableVia (· = new) (step twoSockets) (Careful twoSockets)
      new := .init rfl
  have hs := hnew.execute_of_allowed hrun (by decide)
  exact ⟨s, hrun, (sound_of_careful hs).1, hkept, hremoved⟩

def collidingRun : List Event :=
  [fromClient 1 (allocateBytes 65), fromClient 2 (allocateBytes 66),
    fromClient 1 (sendBytes 65), fromClient 2 (sendBytes 66)]

theorem not_sound_collidingRun :
    ¬ ∀ (cfg : Config) (s : RelayServer),
      Reachable (· = new) (step cfg) s → s.Sound cfg := by
  intro hall
  have hrun : ∃ s, execute (step twoSockets) new collidingRun = some s ∧
      (s.table.connectionAt.find 2).map Connection.binding = some 0 ∧
      ((s.table.connectionAt.find 2).bind fun conn =>
        s.table.connections.find conn.addrPair) = some 3 := ⟨_, rfl, rfl, rfl⟩
  obtain ⟨s, hrun, hlive, hentry⟩ := hrun
  have hsound := hall twoSockets s (reachable_of_execute rfl hrun)
  obtain ⟨conn, hconn, -⟩ := Option.map_eq_some_iff.mp hlive
  rw [hconn, Option.bind_some, hsound.consistent.find_of_live hconn] at hentry
  cases hentry

end RelayServer

end WebrtcWinXp.Relay
