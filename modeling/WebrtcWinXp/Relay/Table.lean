import WebrtcWinXp.Support.StdMap
import WebrtcWinXp.Stun.Attribute
import Mathlib.Data.List.Nodup

/-!
# The connection table of the relay server

Bindings and connections are objects with numbers, which are not used again.
The server finds bindings by user name and connections by address pair, and a
binding finds its own connections in two lists.  Looking for an entry that is
not there, or using a deleted object, is recorded in `fault`.
-/

namespace WebrtcWinXp.Relay

open Support Stun

/-- A remote address and the address of a socket of the server. -/
structure SocketAddressPair where
  source : SocketAddress
  destination : SocketAddress
  deriving DecidableEq

structure Connection where
  binding : ℕ
  addrPair : SocketAddressPair

structure Binding where
  username : List UInt8
  lifetime : UInt32
  internalConnections : List ℕ
  externalConnections : List ℕ

inductive Direction where
  | internal
  | external
  deriving DecidableEq

namespace Binding

/-- All connections of a binding, in the order in which they are deleted. -/
def connections (b : Binding) : List ℕ :=
  b.internalConnections ++ b.externalConnections

/-- `AddInternalConnection` or `AddExternalConnection`. -/
def add (b : Binding) (dir : Direction) (id : ℕ) : Binding :=
  match dir with
  | .internal =>
    { b with
      internalConnections := b.internalConnections ++ [id] }
  | .external =>
    { b with
      externalConnections := b.externalConnections ++ [id] }

variable {b : Binding}

variable {dir : Direction} {id' : ℕ}

theorem mem_connections_add {id : ℕ} :
    id' ∈ (b.add dir id).connections ↔ id' ∈ b.connections ∨ id' = id := by
  cases dir <;> simp only [Binding.add, Binding.connections, List.mem_append,
    List.mem_singleton]
  · rw [or_right_comm]
  · rw [or_assoc]

theorem mem_internalConnections_add {id : ℕ} :
    id' ∈ (b.add dir id).internalConnections ↔
      id' ∈ b.internalConnections ∨ dir = .internal ∧ id' = id := by
  cases dir <;> simp [Binding.add]

theorem mem_externalConnections_add {id : ℕ} :
    id' ∈ (b.add dir id).externalConnections ↔
      id' ∈ b.externalConnections ∨ dir = .external ∧ id' = id := by
  cases dir <;> simp [Binding.add]

@[simp] theorem username_add (dir : Direction) (id : ℕ) :
    (b.add dir id).username = b.username := by
  cases dir <;> rfl

theorem nodup_connections_add {id : ℕ}
    (h : b.connections.Nodup) (hid : id ∉ b.connections) :
    (b.add dir id).connections.Nodup := by
  have hperm : (b.add dir id).connections.Perm (id :: b.connections) := by
    cases dir with
    | internal =>
      rw [Binding.add, Binding.connections, List.append_assoc]
      exact List.perm_middle
    | external =>
      rw [Binding.add, Binding.connections, ← List.append_assoc]
      exact List.perm_append_singleton ..
  exact hperm.nodup_iff.mpr (List.nodup_cons.mpr ⟨hid, h⟩)

end Binding

structure Table where
  bindings : StdMap (List UInt8) ℕ
  connections : StdMap SocketAddressPair ℕ
  bindingAt : StdMap ℕ Binding
  connectionAt : StdMap ℕ Connection
  nextBinding : ℕ
  nextConnection : ℕ
  fault : Bool

namespace Table

def empty : Table := ⟨.empty, .empty, .empty, .empty, 0, 0, false⟩

variable (t : Table)

def faulted : Table :=
  { t with
    fault := true }

/-- A new binding, which gets the number `nextBinding`. -/
def newBinding (username : List UInt8) (lifetime : UInt32) : Table :=
  { t with
    bindings := t.bindings.assign username t.nextBinding
    bindingAt := t.bindingAt.assign t.nextBinding ⟨username, lifetime, [], []⟩
    nextBinding := t.nextBinding + 1 }

/-- A new connection, which gets the number `nextConnection` and is added to
its binding and with `AddConnection`. -/
def newConnection (binding : ℕ) (ap : SocketAddressPair) (dir : Direction) :
    Table :=
  match t.bindingAt.find binding with
  | none => t.faulted
  | some b =>
    { t with
      connections := t.connections.assign ap t.nextConnection
      bindingAt := t.bindingAt.assign binding (b.add dir t.nextConnection)
      connectionAt := t.connectionAt.assign t.nextConnection ⟨binding, ap⟩
      nextConnection := t.nextConnection + 1 }

def removeConnection (conn : Connection) : Table :=
  match t.connections.find conn.addrPair with
  | none => t.faulted
  | some _ =>
    { t with
      connections := t.connections.erase conn.addrPair }

def deleteConnection (id : ℕ) : Table :=
  match t.connectionAt.find id with
  | none => t.faulted
  | some conn =>
    { t.removeConnection conn with
      connectionAt := t.connectionAt.erase id }

def removeBinding (b : Binding) : Table :=
  match t.bindings.find b.username with
  | none => t.faulted
  | some _ =>
    { t with
      bindings := t.bindings.erase b.username }

def deleteBinding (binding : ℕ) : Table :=
  match t.bindingAt.find binding with
  | none => t.faulted
  | some b =>
    let t := b.connections.foldl deleteConnection t
    { t.removeBinding b with
      bindingAt := t.bindingAt.erase binding }

def Owns (binding id : ℕ) : Prop :=
  ∃ b, t.bindingAt.find binding = some b ∧ id ∈ b.connections

structure Consistent : Prop where
  fault : t.fault = false
  /-- The entries are the connections of the live bindings under their own
  address pairs. -/
  entries : ∀ ap id, t.connections.find ap = some id ↔
    ∃ binding, t.Owns binding id ∧
      t.connectionAt.find id = some ⟨binding, ap⟩
  /-- An owned connection is live and knows its owner. -/
  owned : ∀ binding id, t.Owns binding id →
    ∃ ap, t.connectionAt.find id = some ⟨binding, ap⟩
  live : ∀ id conn, t.connectionAt.find id = some conn →
    t.Owns conn.binding id
  nodup : ∀ binding b, t.bindingAt.find binding = some b → b.connections.Nodup
  bindings : ∀ username binding, t.bindings.find username = some binding ↔
    ∃ b, t.bindingAt.find binding = some b ∧ b.username = username

/-- A deleted binding takes exactly its own entries with it. -/
def RemovesExactly (binding : ℕ) (t' : Table) : Prop :=
  (∀ ap id, t'.connections.find ap = some id ↔
    t.connections.find ap = some id ∧ ¬ t.Owns binding id) ∧
  ∀ username binding', t'.bindings.find username = some binding' ↔
    t.bindings.find username = some binding' ∧ binding' ≠ binding

/-- The numbers of objects are used. -/
structure Inv : Prop where
  consistent : t.Consistent
  binding_lt : ∀ binding b, t.bindingAt.find binding = some b →
    binding < t.nextBinding
  connection_lt : ∀ id conn, t.connectionAt.find id = some conn →
    id < t.nextConnection

variable {t} {t' : Table}

theorem inv_empty : Inv empty := by
  refine ⟨⟨rfl, fun ap id => ⟨fun h => (by cases h), ?_⟩, ?_,
    fun id conn h => (by cases h), fun binding b h => (by cases h),
    fun username binding => ⟨fun h => (by cases h), ?_⟩⟩,
    fun binding b h => (by cases h), fun id conn h => (by cases h)⟩
  · rintro ⟨_, _, h⟩
    cases h
  · rintro _ _ ⟨_, h, _⟩
    cases h
  · rintro ⟨_, h, _⟩
    cases h

theorem Consistent.find_of_live (h : t.Consistent) {id : ℕ} {conn : Connection}
    (hlive : t.connectionAt.find id = some conn) :
    t.connections.find conn.addrPair = some id :=
  (h.entries _ _).mpr ⟨conn.binding, h.live id conn hlive, hlive⟩

theorem Consistent.live_of_find (h : t.Consistent) {id : ℕ}
    {ap : SocketAddressPair} (hfind : t.connections.find ap = some id) :
    ∃ binding, t.connectionAt.find id = some ⟨binding, ap⟩ := by
  obtain ⟨binding, -, hlive⟩ := (h.entries _ _).mp hfind
  exact ⟨binding, hlive⟩

theorem Consistent.owner_unique (h : t.Consistent) {binding binding' id : ℕ}
    (hb : t.Owns binding id) (hb' : t.Owns binding' id) :
    binding = binding' := by
  obtain ⟨ap, hap⟩ := h.owned binding id hb
  obtain ⟨ap', hap'⟩ := h.owned binding' id hb'
  cases hap.symm.trans hap'
  rfl

/-! ### New objects -/

theorem Inv.owns_newBinding (h : t.Inv) (username : List UInt8)
    (lifetime : UInt32) (binding id : ℕ) :
    (t.newBinding username lifetime).Owns binding id ↔ t.Owns binding id := by
  constructor
  · rintro ⟨b, hb, hid⟩
    rcases StdMap.find_assign_eq_some_iff.mp hb with ⟨-, rfl⟩ | ⟨-, hb⟩
    · cases hid
    · exact ⟨b, hb, hid⟩
  · rintro ⟨b, hb, hid⟩
    have hne := (h.binding_lt binding b hb).ne
    exact ⟨b, (StdMap.find_assign_of_ne hne).trans hb, hid⟩

theorem Inv.newBinding (h : t.Inv) {username : List UInt8}
    (hnone : t.bindings.find username = none) (lifetime : UInt32) :
    (t.newBinding username lifetime).Inv := by
  have howns := h.owns_newBinding username lifetime
  refine ⟨⟨h.consistent.fault, fun ap id => ?_, fun binding id hown => ?_,
    fun id conn hlive => ?_, fun binding b hb => ?_,
    fun username' binding => ?_⟩, fun binding b hb => ?_, h.connection_lt⟩
  · simp only [howns]
    exact h.consistent.entries ap id
  · exact h.consistent.owned binding id ((howns binding id).mp hown)
  · exact (howns conn.binding id).mpr (h.consistent.live id conn hlive)
  · rcases StdMap.find_assign_eq_some_iff.mp hb with ⟨-, rfl⟩ | ⟨-, hb⟩
    · exact List.nodup_nil
    · exact h.consistent.nodup binding b hb
  · have hold := h.consistent.bindings username' binding
    constructor
    · intro hfind
      rcases StdMap.find_assign_eq_some_iff.mp hfind with
        ⟨rfl, rfl⟩ | ⟨-, hfind⟩
      · exact ⟨_, StdMap.find_assign_self, rfl⟩
      · obtain ⟨b, hb, hname⟩ := hold.mp hfind
        have hne := (h.binding_lt binding b hb).ne
        exact ⟨b, (StdMap.find_assign_of_ne hne).trans hb, hname⟩
    · rintro ⟨b, hb, hname⟩
      rcases StdMap.find_assign_eq_some_iff.mp hb with ⟨rfl, rfl⟩ | ⟨-, hb⟩
      · exact hname ▸ StdMap.find_assign_self
      · have hfind := hold.mpr ⟨b, hb, hname⟩
        have hne : username' ≠ username := by
          rintro rfl
          rw [hnone] at hfind
          cases hfind
        exact (StdMap.find_assign_of_ne hne).trans hfind
  · rcases StdMap.find_assign_eq_some_iff.mp hb with ⟨rfl, -⟩ | ⟨-, hb⟩
    · exact Nat.lt_succ_self _
    · exact Nat.lt_succ_of_lt (h.binding_lt binding b hb)

section

variable {binding : ℕ} {b : Binding} {ap : SocketAddressPair}

theorem newConnection_eq (hb : t.bindingAt.find binding = some b)
    (ap : SocketAddressPair) (dir : Direction) :
    t.newConnection binding ap dir =
      { t with
        connections := t.connections.assign ap t.nextConnection
        bindingAt := t.bindingAt.assign binding (b.add dir t.nextConnection)
        connectionAt := t.connectionAt.assign t.nextConnection ⟨binding, ap⟩
        nextConnection := t.nextConnection + 1 } := by
  rw [newConnection, hb]

theorem owns_newConnection (hb : t.bindingAt.find binding = some b)
    (ap : SocketAddressPair) (dir : Direction) (binding' id : ℕ) :
    (t.newConnection binding ap dir).Owns binding' id ↔
      t.Owns binding' id ∨ binding' = binding ∧ id = t.nextConnection := by
  rw [newConnection_eq hb]
  constructor
  · rintro ⟨b', hb', hid⟩
    rcases StdMap.find_assign_eq_some_iff.mp hb' with ⟨rfl, rfl⟩ | ⟨-, hb'⟩
    · rcases Binding.mem_connections_add.mp hid with hid | hid
      · exact Or.inl ⟨b, hb, hid⟩
      · exact Or.inr ⟨rfl, hid⟩
    · exact Or.inl ⟨b', hb', hid⟩
  · rintro (⟨b', hb', hid⟩ | ⟨rfl, rfl⟩)
    · by_cases hne : binding' = binding
      · subst hne
        cases hb.symm.trans hb'
        exact ⟨_, StdMap.find_assign_self,
          Binding.mem_connections_add.mpr (Or.inl hid)⟩
      · exact ⟨b', (StdMap.find_assign_of_ne hne).trans hb', hid⟩
    · exact ⟨_, StdMap.find_assign_self,
        Binding.mem_connections_add.mpr (Or.inr rfl)⟩

theorem Inv.newConnection (h : t.Inv) (hb : t.bindingAt.find binding = some b)
    (hnone : t.connections.find ap = none) (dir : Direction) :
    (t.newConnection binding ap dir).Inv := by
  have howns := owns_newConnection hb ap dir
  rw [newConnection_eq hb] at howns ⊢
  have hlt : ∀ {id conn}, t.connectionAt.find id = some conn →
      id ≠ t.nextConnection := fun hlive => (h.connection_lt _ _ hlive).ne
  refine ⟨⟨h.consistent.fault, fun ap' id => ?_, fun binding' id hown => ?_,
    fun id conn hlive => ?_, fun binding' b' hb' => ?_,
    fun username binding' => ?_⟩, fun binding' b' hb' => ?_,
    fun id conn hlive => ?_⟩
  · constructor
    · intro hfind
      rcases StdMap.find_assign_eq_some_iff.mp hfind with
        ⟨rfl, rfl⟩ | ⟨-, hfind⟩
      · exact ⟨binding, (howns _ _).mpr (Or.inr ⟨rfl, rfl⟩),
          StdMap.find_assign_self⟩
      · obtain ⟨binding', hown, hlive⟩ := (h.consistent.entries _ _).mp hfind
        exact ⟨binding', (howns _ _).mpr (Or.inl hown),
          (StdMap.find_assign_of_ne (hlt hlive)).trans hlive⟩
    · rintro ⟨binding', -, hlive⟩
      rcases StdMap.find_assign_eq_some_iff.mp hlive with
        ⟨rfl, heq⟩ | ⟨-, hlive⟩
      · cases heq
        exact StdMap.find_assign_self
      · have hfind := h.consistent.find_of_live hlive
        have hne : ap' ≠ ap := by
          rintro rfl
          rw [hnone] at hfind
          cases hfind
        exact (StdMap.find_assign_of_ne hne).trans hfind
  · rcases (howns binding' id).mp hown with hown | ⟨rfl, rfl⟩
    · obtain ⟨ap', hlive⟩ := h.consistent.owned binding' id hown
      exact ⟨ap', (StdMap.find_assign_of_ne (hlt hlive)).trans hlive⟩
    · exact ⟨ap, StdMap.find_assign_self⟩
  · rw [howns]
    rcases StdMap.find_assign_eq_some_iff.mp hlive with ⟨rfl, rfl⟩ | ⟨-, hlive⟩
    · exact Or.inr ⟨rfl, rfl⟩
    · exact Or.inl (h.consistent.live id conn hlive)
  · rcases StdMap.find_assign_eq_some_iff.mp hb' with ⟨rfl, rfl⟩ | ⟨-, hb'⟩
    · refine Binding.nodup_connections_add (h.consistent.nodup _ b hb) ?_
      intro hmem
      obtain ⟨ap', hlive⟩ := h.consistent.owned _ _ ⟨b, hb, hmem⟩
      exact hlt hlive rfl
    · exact h.consistent.nodup binding' b' hb'
  · rw [h.consistent.bindings username binding']
    constructor
    · rintro ⟨b', hb', hname⟩
      by_cases hne : binding' = binding
      · subst hne
        cases hb.symm.trans hb'
        exact ⟨_, StdMap.find_assign_self, by cases dir <;> exact hname⟩
      · exact ⟨b', (StdMap.find_assign_of_ne hne).trans hb', hname⟩
    · rintro ⟨b', hb', hname⟩
      rcases StdMap.find_assign_eq_some_iff.mp hb' with ⟨rfl, rfl⟩ | ⟨-, hb'⟩
      · exact ⟨b, hb, by cases dir <;> exact hname⟩
      · exact ⟨b', hb', hname⟩
  · rcases StdMap.find_assign_eq_some_iff.mp hb' with ⟨rfl, -⟩ | ⟨-, hb'⟩
    · exact h.binding_lt _ b hb
    · exact h.binding_lt binding' b' hb'
  · rcases StdMap.find_assign_eq_some_iff.mp hlive with ⟨rfl, -⟩ | ⟨-, hlive⟩
    · exact Nat.lt_succ_self _
    · exact Nat.lt_succ_of_lt (h.connection_lt id conn hlive)

end

theorem Consistent.not_newConnection (h : t.Inv) {binding : ℕ} {b : Binding}
    (hb : t.bindingAt.find binding = some b) {ap : SocketAddressPair} {id : ℕ}
    (htaken : t.connections.find ap = some id) (dir : Direction) :
    ¬ (t.newConnection binding ap dir).Consistent := by
  intro hc
  obtain ⟨binding', hlive⟩ := h.consistent.live_of_find htaken
  have hne : id ≠ t.nextConnection :=
    (h.connection_lt id _ hlive).ne
  rw [Table.newConnection, hb] at hc
  have hlive : (t.connectionAt.assign t.nextConnection ⟨binding, ap⟩).find id =
      some ⟨binding', ap⟩ := (StdMap.find_assign_of_ne hne).trans hlive
  have hlive' := hc.find_of_live hlive
  rw [StdMap.find_assign_self] at hlive'
  exact hne (Option.some_inj.mp hlive').symm

/-! ### Deleted objects -/

/-- Some connections are deleted. -/
structure Deletes (ids : List ℕ) (t t' : Table) : Prop where
  bindings : t'.bindings = t.bindings
  bindingAt : t'.bindingAt = t.bindingAt
  nextBinding : t'.nextBinding = t.nextBinding
  nextConnection : t'.nextConnection = t.nextConnection
  fault : t'.fault = t.fault
  connections : ∀ ap id, t'.connections.find ap = some id ↔
    t.connections.find ap = some id ∧ id ∉ ids
  connectionAt : ∀ id conn, t'.connectionAt.find id = some conn ↔
    t.connectionAt.find id = some conn ∧ id ∉ ids

theorem deletes_deleteConnection {id : ℕ} {conn : Connection}
    (hlive : t.connectionAt.find id = some conn)
    (hfind : t.connections.find conn.addrPair = some id)
    (hkey : ∀ ap, t.connections.find ap = some id → ap = conn.addrPair) :
    Deletes [id] t (t.deleteConnection id) := by
  rw [deleteConnection, hlive]
  dsimp only
  rw [removeConnection, hfind]
  refine ⟨rfl, rfl, rfl, rfl, rfl, fun ap id' => ?_, fun id' conn' => ?_⟩
  · rw [StdMap.find_erase_eq_some_iff, List.mem_singleton]
    constructor
    · rintro ⟨hne, hap⟩
      refine ⟨hap, ?_⟩
      rintro rfl
      exact hne (hkey ap hap)
    · rintro ⟨hap, hne⟩
      refine ⟨?_, hap⟩
      rintro rfl
      exact hne (Option.some_inj.mp (hap.symm.trans hfind))
  · rw [StdMap.find_erase_eq_some_iff, List.mem_singleton, and_comm]

theorem Deletes.trans {ids ids' : List ℕ} {t₁ t₂ t₃ : Table}
    (h : Deletes ids t₁ t₂) (h' : Deletes ids' t₂ t₃) :
    Deletes (ids ++ ids') t₁ t₃ where
  bindings := h'.bindings.trans h.bindings
  bindingAt := h'.bindingAt.trans h.bindingAt
  nextBinding := h'.nextBinding.trans h.nextBinding
  nextConnection := h'.nextConnection.trans h.nextConnection
  fault := h'.fault.trans h.fault
  connections ap id := by
    rw [h'.connections, h.connections, List.mem_append, not_or, and_assoc]
  connectionAt id conn := by
    rw [h'.connectionAt, h.connectionAt, List.mem_append, not_or, and_assoc]

theorem deletes_foldl (hfind : ∀ id conn, t.connectionAt.find id = some conn →
      t.connections.find conn.addrPair = some id)
    (hlive : ∀ ap id, t.connections.find ap = some id →
      ∃ binding, t.connectionAt.find id = some ⟨binding, ap⟩)
    {ids : List ℕ} (hids : ∀ id ∈ ids, ∃ conn,
      t.connectionAt.find id = some conn) (hnodup : ids.Nodup) :
    Deletes ids t (ids.foldl deleteConnection t) := by
  induction ids generalizing t with
  | nil =>
    exact ⟨rfl, rfl, rfl, rfl, rfl, fun ap id => by simp,
      fun id conn => by simp⟩
  | cons id ids ih =>
    obtain ⟨hid, hnodup⟩ := List.nodup_cons.mp hnodup
    obtain ⟨conn, hconn⟩ := hids id List.mem_cons_self
    have hfirst : Deletes [id] t (t.deleteConnection id) := by
      refine deletes_deleteConnection hconn (hfind id conn hconn) ?_
      intro ap hap
      obtain ⟨binding, hlive⟩ := hlive ap id hap
      cases hconn.symm.trans hlive
      rfl
    rw [List.foldl_cons]
    refine hfirst.trans (ih ?_ ?_ ?_ hnodup)
    · intro id' conn' hconn'
      obtain ⟨hconn', hne⟩ := (hfirst.connectionAt _ _).mp hconn'
      exact (hfirst.connections _ _).mpr ⟨hfind id' conn' hconn', hne⟩
    · intro ap id' hap
      obtain ⟨hap, hne⟩ := (hfirst.connections _ _).mp hap
      obtain ⟨binding, hlive⟩ := hlive ap id' hap
      exact ⟨binding, (hfirst.connectionAt _ _).mpr ⟨hlive, hne⟩⟩
    · intro id' hid'
      obtain ⟨conn', hconn'⟩ := hids id' (List.mem_cons_of_mem _ hid')
      refine ⟨conn', (hfirst.connectionAt _ _).mpr ⟨hconn', ?_⟩⟩
      rw [List.mem_singleton]
      rintro rfl
      exact hid hid'

section

variable {binding : ℕ} {b : Binding}

theorem Inv.deletes_connections (h : t.Inv)
    (hb : t.bindingAt.find binding = some b) :
    Deletes b.connections t (b.connections.foldl deleteConnection t) := by
  refine deletes_foldl (fun _ _ => h.consistent.find_of_live)
    (fun _ _ => h.consistent.live_of_find) (fun id hid => ?_)
    (h.consistent.nodup binding b hb)
  obtain ⟨ap, hlive⟩ := h.consistent.owned binding id ⟨b, hb, hid⟩
  exact ⟨_, hlive⟩

theorem Inv.deleteBinding_eq (h : t.Inv)
    (hb : t.bindingAt.find binding = some b) :
    t.deleteBinding binding =
      { b.connections.foldl deleteConnection t with
        bindings := t.bindings.erase b.username
        bindingAt := t.bindingAt.erase binding } := by
  have hdeletes := h.deletes_connections hb
  have hname := (h.consistent.bindings b.username binding).mpr ⟨b, hb, rfl⟩
  rw [Table.deleteBinding, hb]
  dsimp only
  rw [removeBinding, hdeletes.bindings, hname, hdeletes.bindingAt]

theorem owns_iff (hb : t.bindingAt.find binding = some b) (id : ℕ) :
    t.Owns binding id ↔ id ∈ b.connections := by
  constructor
  · rintro ⟨b', hb', hid⟩
    cases hb.symm.trans hb'
    exact hid
  · exact fun hid => ⟨b, hb, hid⟩

theorem Inv.ne_iff_not_mem (h : t.Inv)
    (hb : t.bindingAt.find binding = some b) {binding' id : ℕ}
    (hown : t.Owns binding' id) :
    binding' ≠ binding ↔ id ∉ b.connections := by
  rw [← owns_iff hb id, not_iff_not]
  constructor
  · rintro rfl
    exact hown
  · exact h.consistent.owner_unique hown

theorem Inv.find_erase_username (h : t.Inv)
    (hb : t.bindingAt.find binding = some b) (username : List UInt8)
    (binding' : ℕ) :
    (t.bindings.erase b.username).find username = some binding' ↔
      t.bindings.find username = some binding' ∧ binding' ≠ binding := by
  have hname := (h.consistent.bindings b.username binding).mpr ⟨b, hb, rfl⟩
  rw [StdMap.find_erase_eq_some_iff, and_comm]
  refine and_congr_right fun hfind => not_congr ?_
  obtain ⟨b', hb', rfl⟩ := (h.consistent.bindings _ _).mp hfind
  constructor
  · intro heq
    rw [heq] at hfind
    exact Option.some_inj.mp (hfind.symm.trans hname)
  · rintro rfl
    cases hb.symm.trans hb'
    rfl

theorem Inv.bindingAt_deleteBinding (h : t.Inv)
    (hb : t.bindingAt.find binding = some b) :
    (t.deleteBinding binding).bindingAt = t.bindingAt.erase binding := by
  rw [h.deleteBinding_eq hb]

theorem Inv.connections_deleteBinding (h : t.Inv)
    (hb : t.bindingAt.find binding = some b) (ap : SocketAddressPair)
    (id : ℕ) :
    (t.deleteBinding binding).connections.find ap = some id ↔
      t.connections.find ap = some id ∧ id ∉ b.connections := by
  rw [h.deleteBinding_eq hb]
  exact (h.deletes_connections hb).connections ap id

theorem Inv.connectionAt_deleteBinding (h : t.Inv)
    (hb : t.bindingAt.find binding = some b) (id : ℕ) (conn : Connection) :
    (t.deleteBinding binding).connectionAt.find id = some conn ↔
      t.connectionAt.find id = some conn ∧ id ∉ b.connections := by
  rw [h.deleteBinding_eq hb]
  exact (h.deletes_connections hb).connectionAt id conn

theorem Inv.bindings_deleteBinding (h : t.Inv)
    (hb : t.bindingAt.find binding = some b) (username : List UInt8)
    (binding' : ℕ) :
    (t.deleteBinding binding).bindings.find username = some binding' ↔
      t.bindings.find username = some binding' ∧ binding' ≠ binding := by
  rw [h.deleteBinding_eq hb]
  exact h.find_erase_username hb username binding'

theorem Inv.owns_deleteBinding (h : t.Inv)
    (hb : t.bindingAt.find binding = some b) (binding' id : ℕ) :
    (t.deleteBinding binding).Owns binding' id ↔
      t.Owns binding' id ∧ binding' ≠ binding := by
  rw [Owns, h.bindingAt_deleteBinding hb]
  constructor
  · rintro ⟨b', hb', hid⟩
    obtain ⟨hne, hb'⟩ := StdMap.find_erase_eq_some_iff.mp hb'
    exact ⟨⟨b', hb', hid⟩, hne⟩
  · rintro ⟨⟨b', hb', hid⟩, hne⟩
    exact ⟨b', StdMap.find_erase_eq_some_iff.mpr ⟨hne, hb'⟩, hid⟩

theorem Inv.removesExactly (h : t.Inv)
    (hb : t.bindingAt.find binding = some b) :
    t.RemovesExactly binding (t.deleteBinding binding) := by
  refine ⟨fun ap id => ?_, h.bindings_deleteBinding hb⟩
  rw [h.connections_deleteBinding hb, owns_iff hb]

theorem Inv.consistent_deleteBinding (h : t.Inv)
    (hb : t.bindingAt.find binding = some b) :
    (t.deleteBinding binding).Consistent := by
  have hlives := h.connectionAt_deleteBinding hb
  have howns := h.owns_deleteBinding hb
  refine ⟨?_, fun ap id => ?_, fun binding' id hown => ?_,
    fun id conn hlive => ?_, fun binding' b' hb' => ?_,
    fun username binding' => ?_⟩
  · rw [h.deleteBinding_eq hb]
    exact (h.deletes_connections hb).fault.trans h.consistent.fault
  · rw [h.connections_deleteBinding hb, h.consistent.entries]
    simp only [howns, hlives]
    constructor
    · rintro ⟨⟨binding', hown, hlive⟩, hid⟩
      exact ⟨binding', ⟨hown, (h.ne_iff_not_mem hb hown).mpr hid⟩, hlive, hid⟩
    · rintro ⟨binding', ⟨hown, -⟩, hlive, hid⟩
      exact ⟨⟨binding', hown, hlive⟩, hid⟩
  · obtain ⟨hown, hne⟩ := (howns _ _).mp hown
    obtain ⟨ap, hlive⟩ := h.consistent.owned binding' id hown
    have hid := (h.ne_iff_not_mem hb hown).mp hne
    exact ⟨ap, (hlives _ _).mpr ⟨hlive, hid⟩⟩
  · obtain ⟨hlive, hid⟩ := (hlives _ _).mp hlive
    have hown := h.consistent.live id conn hlive
    exact (howns _ _).mpr ⟨hown, (h.ne_iff_not_mem hb hown).mpr hid⟩
  · rw [h.bindingAt_deleteBinding hb] at hb'
    exact h.consistent.nodup binding' b'
      (StdMap.find_erase_eq_some_iff.mp hb').2
  · rw [h.bindings_deleteBinding hb, h.bindingAt_deleteBinding hb,
      h.consistent.bindings]
    constructor
    · rintro ⟨⟨b', hb', hname⟩, hne⟩
      exact ⟨b', StdMap.find_erase_eq_some_iff.mpr ⟨hne, hb'⟩, hname⟩
    · rintro ⟨b', hb', hname⟩
      obtain ⟨hne, hb'⟩ := StdMap.find_erase_eq_some_iff.mp hb'
      exact ⟨⟨b', hb', hname⟩, hne⟩

theorem Inv.deleteBinding (h : t.Inv)
    (hb : t.bindingAt.find binding = some b) :
    (t.deleteBinding binding).Inv := by
  have hdeletes := h.deletes_connections hb
  refine ⟨h.consistent_deleteBinding hb, fun binding' b' hb' => ?_,
    fun id conn hlive => ?_⟩
  · rw [h.bindingAt_deleteBinding hb] at hb'
    rw [h.deleteBinding_eq hb]
    change binding' < (b.connections.foldl deleteConnection t).nextBinding
    rw [hdeletes.nextBinding]
    exact h.binding_lt binding' b' (StdMap.find_erase_eq_some_iff.mp hb').2
  · have hlive' := ((h.connectionAt_deleteBinding hb _ _).mp hlive).1
    rw [h.deleteBinding_eq hb]
    change id < (b.connections.foldl deleteConnection t).nextConnection
    rw [hdeletes.nextConnection]
    exact h.connection_lt id conn hlive'

end

end Table

end WebrtcWinXp.Relay
