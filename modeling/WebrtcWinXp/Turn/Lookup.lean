import Mathlib
import WebrtcWinXp.Turn.Effects

/-!
# Allocations are found by their connection

The map is right as long as the connections of the live allocations are
pairwise aligned.  The addresses of a UDP client and of a TCP client are not
aligned when the one of the TCP client is smaller, because a UDP socket has
no remote address.
-/

namespace WebrtcWinXp.Turn

open Support Stun ByteBuffer

namespace Server

variable {cfg : Config} {s t : Server} {conn : Connection} {id : ℕ}
  {a : Allocation} {outputs : List Output}

/-- `FindAllocation` returns exactly the live allocation that was created for
an equal connection. -/
def Found (s : Server) : Prop :=
  ∀ conn id, s.findAllocation conn = some id ↔
    ∃ a, s.heap.find id = some a ∧ a.conn.eq conn = true

/-- The entry of `conn` is gone, and every other one is as it was. -/
def ErasesExactly (conn : Connection) (s t : Server) : Prop :=
  ∀ conn', t.findAllocation conn' =
    if conn.eq conn' = true then none else s.findAllocation conn'

def connections (s : Server) : Set Connection :=
  {conn | ∃ id a, s.heap.find id = some a ∧ a.conn = conn}

/-- The entries of the map are the live allocations, in order. -/
structure Tracked (s : Server) : Prop where
  sorted : s.allocations.Sorted Connection.less
  mem_iff : ∀ conn id, (conn, id) ∈ s.allocations.toList ↔
    ∃ a, s.heap.find id = some a ∧ a.conn = conn
  fresh : ∀ id a, s.heap.find id = some a → id < s.nextAllocation
  aligned : ∀ c ∈ s.connections, ∀ c' ∈ s.connections, c.Aligned c'

theorem Tracked.key_mem (h : s.Tracked) :
    ∀ e ∈ s.allocations.toList, e.1 ∈ s.connections := fun e he => by
  obtain ⟨a, ha, hconn⟩ := (h.mem_iff e.1 e.2).mp he
  exact ⟨e.2, a, ha, hconn⟩

theorem Tracked.strictWeakOn (h : s.Tracked)
    (hconn : ∀ c ∈ s.connections, conn.Aligned c) :
    StrictWeakOn Connection.less (insert conn s.connections) := by
  rw [Connection.strictWeakOn_iff]
  rintro c (rfl | hc) c' (rfl | hc')
  · exact .inl le_rfl
  · exact hconn c' hc'
  · exact (hconn c hc).symm
  · exact h.aligned c hc c' hc'

theorem Tracked.aligned_of_eq (h : s.Tracked)
    (ha : s.heap.find id = some a) (heq : a.conn.eq conn = true) :
    ∀ c ∈ s.connections, conn.Aligned c := by
  intro c hc
  have haligned := h.aligned a.conn ⟨id, a, ha, rfl⟩ c hc
  unfold Connection.Aligned at haligned ⊢
  rwa [(Connection.eq_iff _ _).mp heq] at haligned

theorem Tracked.found (h : s.Tracked) : s.Found := by
  intro conn id
  unfold findAllocation
  rw [Option.map_eq_some_iff]
  constructor
  · rintro ⟨e, hfind, rfl⟩
    obtain ⟨he, hequiv⟩ := SearchTree.find_eq_some hfind
    obtain ⟨a, ha, hconn⟩ := (h.mem_iff e.1 e.2).mp he
    refine ⟨a, ha, ?_⟩
    rw [hconn]
    exact (Connection.equivalent_iff _ _).mp hequiv
  · rintro ⟨a, ha, heq⟩
    have hweak := h.strictWeakOn (h.aligned_of_eq ha heq)
    refine ⟨(a.conn, id), ?_, rfl⟩
    rw [h.sorted.find_eq_some_iff hweak (Set.mem_insert _ _)
      fun e he => Set.mem_insert_of_mem _ (h.key_mem e he)]
    exact ⟨(h.mem_iff _ _).mpr ⟨a, ha, rfl⟩,
      (Connection.equivalent_iff _ _).mpr heq⟩

theorem Tracked.id_unique (h : s.Tracked) {id' : ℕ} {a' : Allocation}
    (ha : s.heap.find id = some a) (ha' : s.heap.find id' = some a')
    (heq : a.conn.eq a'.conn = true) : id = id' := by
  have hfind := (h.found a'.conn id).mpr ⟨a, ha, heq⟩
  have hfind' := (h.found a'.conn id').mpr
    ⟨a', ha', (Connection.eq_iff _ _).mpr rfl⟩
  exact Option.some.inj (hfind.symm.trans hfind')

/-! ## Steps -/

/-- The map and the connections of the allocations are the same. -/
structure Alike (s t : Server) : Prop where
  allocations_eq : t.allocations = s.allocations
  nextAllocation_eq : t.nextAllocation = s.nextAllocation
  conn_eq : ∀ id, (t.heap.find id).map Allocation.conn =
    (s.heap.find id).map Allocation.conn

theorem Alike.of_heap_eq (hallocations : t.allocations = s.allocations)
    (hnext : t.nextAllocation = s.nextAllocation)
    (hheap : t.heap = s.heap) : Alike s t :=
  ⟨hallocations, hnext, fun id => by rw [hheap]⟩

theorem alike_store {a' : Allocation} (ha : s.heap.find id = some a)
    (hconn : a'.conn = a.conn) : Alike s (s.store id a') :=
  ⟨rfl, rfl, StdMap.map_find_assign (by rw [ha, Option.map_some, hconn])⟩

theorem Alike.exists_iff (h : Alike s t) (conn : Connection) (id : ℕ) :
    (∃ a, t.heap.find id = some a ∧ a.conn = conn) ↔
      ∃ a, s.heap.find id = some a ∧ a.conn = conn := by
  rw [← Option.map_eq_some_iff, h.conn_eq, Option.map_eq_some_iff]

theorem Tracked.of_alike (hs : s.Tracked) (h : Alike s t) : t.Tracked where
  sorted := by
    rw [h.allocations_eq]
    exact hs.sorted
  mem_iff conn id := by
    rw [h.allocations_eq, hs.mem_iff, h.exists_iff]
  fresh id a ha := by
    obtain ⟨a', ha', -⟩ := (h.exists_iff a.conn id).mp ⟨a, ha, rfl⟩
    rw [h.nextAllocation_eq]
    exact hs.fresh id a' ha'
  aligned := by
    have heq : t.connections = s.connections := by
      ext conn
      exact exists_congr fun id => h.exists_iff conn id
    rw [heq]
    exact hs.aligned

/-- A new allocation. -/
structure Created (cfg : Config) (conn : Connection) (a : Allocation)
    (s t : Server) : Prop where
  find_eq_none : s.findAllocation conn = none
  conn_eq : a.conn = conn
  allocations_eq : t.allocations =
    s.allocations.assign Connection.less cfg.rebalance conn s.nextAllocation
  heap_eq : t.heap = s.heap.assign s.nextAllocation a
  nextAllocation_eq : t.nextAllocation = s.nextAllocation + 1

theorem Tracked.of_created (hs : s.Tracked) (h : Created cfg conn a s t)
    (hconn : ∀ c ∈ s.connections, conn.Aligned c) : t.Tracked := by
  have hweak := hs.strictWeakOn hconn
  have hkeys : ∀ e ∈ s.allocations.toList,
      e.1 ∈ insert conn s.connections := fun e he =>
    Set.mem_insert_of_mem _ (hs.key_mem e he)
  have hnone : s.allocations.find Connection.less conn = none := by
    simpa [findAllocation] using h.find_eq_none
  have hentry : ∀ conn' id', (∃ a', t.heap.find id' = some a' ∧
      a'.conn = conn') ↔ (conn' = conn ∧ id' = s.nextAllocation) ∨
        ∃ a', s.heap.find id' = some a' ∧ a'.conn = conn' := by
    intro conn' id'
    rw [h.heap_eq]
    by_cases hid : id' = s.nextAllocation
    · subst hid
      constructor
      · rintro ⟨a', ha', rfl⟩
        rw [StdMap.find_assign_self] at ha'
        cases ha'
        exact .inl ⟨h.conn_eq, rfl⟩
      · rintro (⟨rfl, -⟩ | ⟨a', ha', -⟩)
        · exact ⟨a, StdMap.find_assign_self, h.conn_eq⟩
        · exact absurd (hs.fresh _ _ ha') (lt_irrefl _)
    · rw [StdMap.find_assign_of_ne hid]
      simp [hid]
  have hconnections : t.connections = insert conn s.connections := by
    ext c
    simp only [connections, Set.mem_ofPred_eq, hentry, Set.mem_insert_iff]
    constructor
    · rintro ⟨id', ⟨rfl, -⟩ | hold⟩
      · exact .inl rfl
      · exact .inr ⟨id', hold⟩
    · rintro (rfl | ⟨id', hold⟩)
      · exact ⟨s.nextAllocation, .inl ⟨rfl, rfl⟩⟩
      · exact ⟨id', .inr hold⟩
  refine ⟨?_, ?_, ?_, ?_⟩
  · rw [h.allocations_eq]
    exact hs.sorted.assign hweak (Set.mem_insert _ _) hkeys hnone
  · intro conn' id'
    rw [h.allocations_eq, hs.sorted.mem_assign hweak (Set.mem_insert _ _)
      hkeys hnone, hs.mem_iff, hentry, Prod.mk.injEq]
  · intro id' a' ha'
    rw [h.nextAllocation_eq]
    rcases (hentry a'.conn id').mp ⟨a', ha', rfl⟩ with
      ⟨-, rfl⟩ | ⟨a'', ha'', -⟩
    · exact Nat.lt_succ_self _
    · exact Nat.lt_succ_of_lt (hs.fresh id' a'' ha'')
  · rw [hconnections]
    exact (Connection.strictWeakOn_iff _).mp hweak

/-- An allocation that is destroyed. -/
structure Destroyed (cfg : Config) (id : ℕ) (a : Allocation)
    (s t : Server) : Prop where
  find_eq_some : s.heap.find id = some a
  allocations_eq : t.allocations =
    s.allocations.erase Connection.less cfg.rebalance a.conn
  heap_eq : t.heap = s.heap.erase id
  nextAllocation_eq : t.nextAllocation = s.nextAllocation

theorem Tracked.of_destroyed (hs : s.Tracked) (h : Destroyed cfg id a s t) :
    t.Tracked := by
  have hlive : a.conn ∈ s.connections := ⟨id, a, h.find_eq_some, rfl⟩
  have hweak := (Connection.strictWeakOn_iff s.connections).mpr hs.aligned
  have hentry : ∀ conn' id', (∃ a', t.heap.find id' = some a' ∧
      a'.conn = conn') ↔ id' ≠ id ∧
        ∃ a', s.heap.find id' = some a' ∧ a'.conn = conn' := by
    intro conn' id'
    rw [h.heap_eq]
    simp only [StdMap.find_erase_eq_some_iff, and_assoc]
    exact exists_and_left
  have hsub : t.connections ⊆ s.connections := by
    rintro c ⟨id', a', ha', hc⟩
    exact ⟨id', ((hentry c id').mp ⟨a', ha', hc⟩).2⟩
  refine ⟨?_, ?_, ?_, ?_⟩
  · rw [h.allocations_eq]
    exact hs.sorted.erase hweak hlive hs.key_mem
  · intro conn' id'
    rw [h.allocations_eq, hs.sorted.mem_erase hweak hlive hs.key_mem,
      hs.mem_iff, hentry, and_comm]
    refine and_congr_left fun hlive' => not_congr ?_
    obtain ⟨a', ha', hconn'⟩ := hlive'
    rw [Connection.equivalent_iff, ← hconn']
    constructor
    · exact fun heq => hs.id_unique ha' h.find_eq_some heq
    · rintro rfl
      cases ha'.symm.trans h.find_eq_some
      exact (Connection.eq_iff _ _).mpr rfl
  · intro id' a' ha'
    obtain ⟨-, a'', ha'', -⟩ := (hentry a'.conn id').mp ⟨a', ha', rfl⟩
    rw [h.nextAllocation_eq]
    exact hs.fresh id' a'' ha''
  · exact fun c hc c' hc' => hs.aligned c (hsub hc) c' (hsub hc')

theorem Tracked.erasesExactly (hs : s.Tracked) (ht : t.Tracked)
    (h : Destroyed cfg id a s t) : ErasesExactly a.conn s t := by
  intro conn'
  apply Option.ext
  intro id'
  rw [ht.found, h.heap_eq]
  simp only [StdMap.find_erase_eq_some_iff]
  split_ifs with heq
  · constructor
    · rintro ⟨a', ⟨hne, ha'⟩, heq'⟩
      have hconn : a'.conn.eq a.conn = true := by
        rw [Connection.eq_iff] at heq heq' ⊢
        rw [heq, heq']
      exact absurd (hs.id_unique ha' h.find_eq_some hconn) hne
    · intro hnone
      cases hnone
  · rw [hs.found]
    constructor
    · rintro ⟨a', ⟨-, ha'⟩, heq'⟩
      exact ⟨a', ha', heq'⟩
    · rintro ⟨a', ha', heq'⟩
      refine ⟨a', ⟨?_, ha'⟩, heq'⟩
      rintro rfl
      cases ha'.symm.trans h.find_eq_some
      exact heq heq'

theorem destroyed (ha : s.heap.find id = some a) :
    Destroyed cfg id a s (s.onAllocationDestroyed cfg id a) := by
  unfold onAllocationDestroyed
  split
  · exact ⟨ha, rfl, rfl, rfl⟩
  · split
    · unfold destroyInternalSocket
      split <;> exact ⟨ha, rfl, rfl, rfl⟩
    · exact ⟨ha, rfl, rfl, rfl⟩

theorem heap_onAllocationDestroyed (ha : s.heap.find id = some a) :
    (s.onAllocationDestroyed cfg id a).heap = s.heap.erase id :=
  (destroyed ha).heap_eq

/-- A packet changes no connection of an allocation, and creates at most one
allocation, for its own connection. -/
theorem Effect.alike_or_created {data : Buffer} {r : Server × List Output}
    (h : Effect cfg conn data s r) :
    Alike s r.1 ∨ ∃ a, Created cfg conn a s r.1 := by
  cases h with
  | fault | ignore | answer | relay => exact .inl (.of_heap_eq rfl rfl rfl)
  | refuse _ ha => exact .inl (alike_store ha rfl)
  | handle _ ha _ _ _ _ _ hhandled =>
    exact .inl (alike_store ha hhandled.sameIdentity.conn_eq)
  | create hfind =>
    exact .inr ⟨_, hfind, Allocation.handled.sameIdentity.conn_eq, rfl, rfl,
      rfl⟩

/-- The connection of a packet is aligned with those of all live
allocations. -/
def AlignedEvent (s : Server) : Event → Prop
  | .internalPacket socket _ addr _ =>
    ∀ internal, s.serverSockets.find socket = some internal →
      ∀ c ∈ s.connections, (connection socket addr internal).Aligned c
  | _ => True

theorem step_tracked (hs : s.Tracked) {e : Event} (hok : s.AlignedEvent e)
    (h : s.step cfg e = some (t, outputs)) : t.Tracked := by
  cases steps_of_step h with
  | addInternalSocket | addInternalServerSocket | acceptConnection
  | internalSocketClose | externalPacket | advance =>
    exact hs.of_alike (.of_heap_eq rfl rfl rfl)
  | internalPacket hsocket _ heffect =>
    rcases heffect.alike_or_created with halike | ⟨a, hcreated⟩
    · exact (hs.of_alike halike).of_alike (.of_heap_eq rfl rfl rfl)
    · exact (hs.of_created hcreated (hok _ hsocket)).of_alike
        (.of_heap_eq rfl rfl rfl)
  | allocationTimeout ha => exact hs.of_destroyed (destroyed ha)
  | permissionTimeout ha | channelTimeout ha =>
    exact hs.of_alike (alike_store ha rfl)

def next (cfg : Config) (s : Server) (e : Event) : Option Server :=
  (s.step cfg e).map Prod.fst

def Initial (s : Server) : Prop := ∃ now, s = .new now

theorem Initial.tracked (h : s.Initial) : s.Tracked := by
  obtain ⟨now, rfl⟩ := h
  refine ⟨SearchTree.sorted_leaf, ?_, ?_, ?_⟩
  · simp [new]
  · simp [new]
  · rintro c ⟨id, a, ha, -⟩
    simp [new] at ha

theorem tracked_of_run (hs : ReachableVia Initial (next cfg) AlignedEvent s) :
    s.Tracked := by
  refine hs.invariant (fun s h => h.tracked) ?_
  intro s e t hs hok h
  obtain ⟨⟨t', outputs⟩, hstep, rfl⟩ := Option.map_eq_some_iff.mp h
  exact step_tracked hs hok hstep

/-- `operator<` is a strict weak ordering with `operator==` as equivalence on
exactly the sets of pairwise aligned connections; and in every run in which
each packet's connection is aligned with the live ones, the map finds exactly
the live allocations and a destroyed one loses exactly its own entry. -/
theorem lookup_of_aligned_run (cfg : Config) :
    (∀ S : Set Connection,
      (StrictWeakOn Connection.less S ∧ ∀ a ∈ S, ∀ b ∈ S,
        Equivalent Connection.less a b ↔ a.eq b = true) ↔
          ∀ a ∈ S, ∀ b ∈ S, a.Aligned b) ∧
      ∀ s, ReachableVia Initial (next cfg) AlignedEvent s →
        s.Found ∧ ∀ id a t outputs, s.heap.find id = some a →
          s.step cfg (.allocationTimeout id) = some (t, outputs) →
            ErasesExactly a.conn s t := by
  constructor
  · intro S
    rw [Connection.strictWeakOn_iff]
    exact and_iff_left fun a _ b _ => Connection.equivalent_iff a b
  · intro s hs
    have htracked := tracked_of_run hs
    refine ⟨htracked.found, ?_⟩
    intro id a t outputs ha h
    have ht := step_tracked (e := .allocationTimeout id) htracked trivial h
    cases steps_of_step h with
    | allocationTimeout ha' =>
      cases ha.symm.trans ha'
      exact htracked.erasesExactly ht (destroyed ha)

/-! ## A server with three clients -/

/-- The rotation that a red-black tree makes when three nodes form a chain to
the right. -/
def rotateChain : SearchTree Connection ℕ → SearchTree Connection ℕ
  | .node .leaf k₁ v₁ (.node .leaf k₂ v₂ (.node .leaf k₃ v₃ .leaf)) =>
    .node (.node .leaf k₁ v₁ .leaf) k₂ v₂ (.node .leaf k₃ v₃ .leaf)
  | t => t

def sampleRebalancing : SearchTree.Rebalancing Connection ℕ where
  apply := rotateChain
  toList_apply t := by
    unfold rotateChain
    split <;> rfl

/-- A server whose users all have one key.  The digests are constant. -/
def sampleConfig : Config where
  nonceKey := []
  realm := chars "realm"
  software := []
  authHook := some fun _ _ => chars "key"
  enableOtuNonce := false
  hmac := fun _ _ => ⟨List.replicate 20 0, rfl⟩
  hmacMd5 := fun _ _ => List.replicate 32 0x30
  rebalance := sampleRebalancing

/-- An attribute on the wire, of a length that needs no padding. -/
def sampleAttr (type : UInt16) (bytes : List UInt8) : List UInt8 :=
  writeUInt16 type ++ writeUInt16 (UInt16.ofNat bytes.length) ++ bytes

def sampleRequest (type : UInt16) (attrs : List UInt8) : Buffer :=
  let body :=
    sampleAttr STUN_ATTR_USERNAME (chars "user") ++
    sampleAttr STUN_ATTR_REALM (chars "host") ++
    sampleAttr STUN_ATTR_NONCE (List.replicate 40 0x30) ++ attrs ++
    sampleAttr STUN_ATTR_MESSAGE_INTEGRITY (List.replicate 20 0)
  Buffer.ofList
    (writeUInt16 type ++ writeUInt16 (UInt16.ofNat body.length) ++
      magicCookieBytes ++ List.replicate 12 0 ++ body)
    fun _ => 0

def sampleAllocate : Buffer :=
  sampleRequest STUN_ALLOCATE_REQUEST
    (sampleAttr STUN_ATTR_REQUESTED_TRANSPORT [17, 0, 0, 0])

/-- The address 10.0.0.`n` with port 1000. -/
def sampleAddress (n : UInt8) : SocketAddress :=
  ⟨.v4 ⟨[10, 0, 0, n], rfl⟩, 1000⟩

def nilAddress : HostAddress := .ofSocket ⟨.unspec, 0⟩

/-- An Allocate request from 10.0.0.`n` through a socket. -/
def allocateFrom (socket : ℕ) (n : UInt8) : Event :=
  .internalPacket socket sampleAllocate (.ofSocket (sampleAddress n))
    (some (sampleAddress 200))

def udpConnection : Connection :=
  ⟨.ofSocket (sampleAddress 3), nilAddress, .udp, 0⟩

/-- A UDP client and two TCP clients with smaller addresses, each of which
makes an allocation. -/
def threeClients : List Event :=
  [.addInternalSocket .udp nilAddress,
    .addInternalServerSocket .tcp,
    .acceptConnection 1 (.ofSocket (sampleAddress 1)),
    .acceptConnection 1 (.ofSocket (sampleAddress 2)),
    allocateFrom 0 3, allocateFrom 2 1, allocateFrom 3 2]

theorem execute_threeClients :
    ((execute (next sampleConfig) (new 0) threeClients).map fun s =>
      (s.findAllocation udpConnection,
        (s.heap.find 0).map Allocation.conn)) =
      some (none, some udpConnection) := by
  decide +kernel

/-- `operator<` holds both ways between the UDP client and a TCP client, and
the allocation of the UDP client is lost while it lives. -/
theorem not_lookup :
    ¬StrictWeakOn Connection.less Set.univ ∧
      ∃ s, Reachable Initial (next sampleConfig) s ∧ ¬s.Found := by
  constructor
  · intro h
    let tcpConnection : Connection := ⟨.ofSocket (sampleAddress 1),
      .ofSocket (sampleAddress 1), .tcp, 2⟩
    have hless : Connection.less udpConnection tcpConnection = true := by
      decide
    have hless' : Connection.less tcpConnection udpConnection = true := by
      decide
    have hself := h.trans _ trivial _ trivial _ trivial hless hless'
    rw [h.irrefl _ trivial] at hself
    cases hself
  · obtain ⟨s, hs, hview⟩ := Option.map_eq_some_iff.mp execute_threeClients
    obtain ⟨hfind, hlive⟩ := Prod.mk.inj hview
    obtain ⟨a, ha, hconn⟩ := Option.map_eq_some_iff.mp hlive
    refine ⟨s, reachable_of_execute ⟨0, rfl⟩ hs, fun hfound => ?_⟩
    have h := (hfound udpConnection 0).mpr
      ⟨a, ha, by rw [hconn, Connection.eq_iff]⟩
    rw [hfind] at h
    cases h

/-- The UDP client alone is found. -/
theorem lookup_of_aligned_run_udp :
    ∃ s, ReachableVia Initial (next sampleConfig) AlignedEvent s ∧
      s.findAllocation udpConnection = some 0 := by
  obtain ⟨t, ht, hview⟩ : ∃ t, next sampleConfig
      ((new 0).addInternalSocket ⟨.udp, nilAddress, false⟩)
        (allocateFrom 0 3) = some t ∧
          (t.heap.find 0).map Allocation.conn = some udpConnection := by
    rw [← Option.map_eq_some_iff (f := fun t : Server =>
      (t.heap.find 0).map Allocation.conn)]
    decide +kernel
  have hsocket : ReachableVia Initial (next sampleConfig) AlignedEvent
      ((new 0).addInternalSocket ⟨.udp, nilAddress, false⟩) :=
    .step (e := .addInternalSocket .udp nilAddress) (.init ⟨0, rfl⟩) trivial
      rfl
  have hok : AlignedEvent
      ((new 0).addInternalSocket ⟨.udp, nilAddress, false⟩)
        (allocateFrom 0 3) := by
    rintro internal - c ⟨id, a, ha, -⟩
    simp [addInternalSocket, new] at ha
  have hrun := ReachableVia.step hsocket hok ht
  obtain ⟨a, ha, hconn⟩ := Option.map_eq_some_iff.mp hview
  refine ⟨t, hrun, ?_⟩
  rw [((lookup_of_aligned_run sampleConfig).2 t hrun).1]
  exact ⟨a, ha, by rw [hconn, Connection.eq_iff]⟩

end Server

end WebrtcWinXp.Turn
