import WebrtcWinXp.P2p.ShiftedClock

/-!
# Channels on shifted clocks

A channel that reads a clock of 32 bits does what it would do with a clock that
never wraps, as long as the times that it compares are not separated by a
wrap.  Two runs of the same events then agree wherever their clocks start.
-/

namespace WebrtcWinXp.P2p

open Support

/-- What happens to a channel. -/
inductive ChannelEvent where
  | addConnection (this : ℕ) (port : ConnectionPort)
      (localPriority remotePriority remoteGeneration : UInt32)
      (remoteIceLite connected : Bool)
  | connection (this : ℕ) (e : ConnectionEvent)
  | sort
  | select

/-- The states of the connections, and the choice of a connection to ping when
each one that could be chosen was pinged before. -/
structure Outcome where
  states : List (ℕ × ReadState × WriteState)
  choice : Option (Option ℕ)
  deriving DecidableEq

namespace P2PTransportChannel

section

variable {τ : Type} (ch : P2PTransportChannel τ)

def states : List (ℕ × ReadState × WriteState) :=
  ch.connections.map fun c => (c.this, c.readState, c.writeState)

/-- Each connection that may be chosen was pinged before. -/
def AllPinged : Prop :=
  ∀ c ∈ ch.connections, ch.isPingable c ∨ ch.bestConnection = some c.this →
    c.state ≠ .STATE_WAITING

instance : Decidable ch.AllPinged :=
  inferInstanceAs (Decidable (∀ c ∈ ch.connections, _ → _))

variable [Clock τ] [DecidableLT τ] [DecidableLE τ]

def handle (now : τ) : ChannelEvent → P2PTransportChannel τ
  | .addConnection this port localPriority remotePriority remoteGeneration
      remoteIceLite connected =>
        ch.addConnection (.new this port localPriority remotePriority
          remoteGeneration remoteIceLite connected)
  | .connection this e => ch.modify this fun c => c.handle now e
  | .sort => ch.sortConnections now
  | .select => ch

def choice (now : τ) : ChannelEvent → Option (Option ℕ)
  | .select =>
    if ch.AllPinged then some (ch.findNextPingableConnection now) else none
  | _ => none

def outcome (now : τ) (e : ChannelEvent) : Outcome :=
  ⟨(ch.handle now e).states, ch.choice now e⟩

/-- What is seen of a run with the times of its events. -/
def trace (clock : ℕ → τ) :
    P2PTransportChannel τ → List (ℕ × ChannelEvent) → List Outcome
  | _, [] => []
  | ch, (now, e) :: events =>
    ch.outcome (clock now) e :: trace clock (ch.handle (clock now) e) events

end

section

variable {τ σ : Type} (f : τ → σ) (ch : P2PTransportChannel τ)

def map : P2PTransportChannel σ where
  protocolType := ch.protocolType
  iceRole := ch.iceRole
  connections := ch.connections.map (Connection.map f)
  bestConnection := ch.bestConnection
  writable := ch.writable
  wasWritable := ch.wasWritable
  readable := ch.readable

theorem head?_map :
    (ch.map f).connections.head? =
      ch.connections.head?.map (Connection.map f) :=
  List.head?_map

end

/-! ## The oldest connection -/

/-- The clock does not wrap between the last pings of two connections that may
be pinged. -/
def PingsInOneLap (start : ℕ) (ch : P2PTransportChannel Instant) : Prop :=
  ∀ c ∈ ch.connections, ∀ c' ∈ ch.connections,
    ch.isPingable c → ch.isPingable c' → ∀ u v,
      c.lastPingSent = .time u → c'.lastPingSent = .time v →
        SameLap start u v

section

variable {start now : ℕ} {ch : P2PTransportChannel Instant}

/-- What the loops on both clocks have found. -/
structure Found (start : ℕ) (ch : P2PTransportChannel Instant)
    (oldest : Option ℕ × Instant) (oldest' : Option ℕ × UInt32) : Prop where
  time : oldest'.2 = reading start oldest.2
  conn : oldest'.1 = oldest.1 ∨ oldest'.1 = none ∧ oldest'.2 = 0xFFFFFFFF
  pinged : oldest = (none, .last) ∨
    ∃ c ∈ ch.connections, ch.isPingable c ∧ oldest.2 = c.lastPingSent

theorem Found.older {oldest : Option ℕ × Instant}
    {oldest' : Option ℕ × UInt32} (h : Found start ch oldest oldest')
    (hlap : PingsInOneLap start ch)
    (hpinged : ∀ c ∈ ch.connections, ch.isPingable c →
      ∃ u, c.lastPingSent = .time u)
    {c : Connection Instant} (hc : c ∈ ch.connections) :
    Found start ch (ch.older oldest c)
      ((ch.map (reading start)).older oldest' (c.map (reading start))) := by
  have hpingable : (ch.map (reading start)).isPingable
      (c.map (reading start)) = ch.isPingable c := rfl
  rw [P2PTransportChannel.older, P2PTransportChannel.older, hpingable]
  by_cases hping : ch.isPingable c
  · obtain ⟨u, hu⟩ := hpinged c hc hping
    have hfound : Found start ch (some c.this, c.lastPingSent)
        (some c.this, reading start c.lastPingSent) :=
      ⟨rfl, .inl rfl, .inr ⟨c, hc, hping, rfl⟩⟩
    simp only [hping, Bool.true_and, decide_eq_true_eq]
    change Found start ch _ (if reading start c.lastPingSent < oldest'.2 then
      (some c.this, reading start c.lastPingSent) else oldest')
    rw [h.time]
    obtain rfl | ⟨c', hc', hping', htime⟩ := h.pinged
    · have hlt : c.lastPingSent < Instant.last := by
        rw [hu]
        exact Instant.time_lt_last
      rw [if_pos hlt]
      split
      · exact hfound
      · next hmax =>
          -- the connection is only found on the clock that never wraps
          have hreading : reading start c.lastPingSent = 0xFFFFFFFF := by
            change ¬reading start c.lastPingSent < 0xFFFFFFFF at hmax
            rw [UInt32.lt_iff_toNat_lt] at hmax
            have hlimit := (reading start c.lastPingSent).toNat_lt
            apply UInt32.toNat_inj.mp
            simp only [UInt32.toNat_ofNat] at hmax ⊢
            omega
          have hlast : oldest'.2 = 0xFFFFFFFF := h.time
          refine ⟨hlast.trans hreading.symm, .inr ⟨?_, hlast⟩,
            .inr ⟨c, hc, hping, rfl⟩⟩
          exact h.conn.elim id And.left
    · obtain ⟨v, hv⟩ := hpinged c' hc' hping'
      have hlt : reading start c.lastPingSent < reading start oldest.2 ↔
          c.lastPingSent < oldest.2 := by
        rw [htime, hu, hv, Instant.time_lt_time]
        exact reading_lt_reading (hlap c hc c' hc' hping hping' u v hu hv)
      by_cases hold : c.lastPingSent < oldest.2
      · rw [if_pos hold, if_pos (hlt.mpr hold)]
        exact hfound
      · rw [if_neg hold, if_neg (hlt.not.mpr hold)]
        exact h
  · simp only [hping, Bool.false_and, Bool.false_eq_true, if_false]
    exact h

theorem Found.foldl {oldest : Option ℕ × Instant}
    {oldest' : Option ℕ × UInt32} (h : Found start ch oldest oldest')
    (hlap : PingsInOneLap start ch)
    (hpinged : ∀ c ∈ ch.connections, ch.isPingable c →
      ∃ u, c.lastPingSent = .time u)
    {l : List (Connection Instant)} (hl : ∀ c ∈ l, c ∈ ch.connections) :
    Found start ch (l.foldl ch.older oldest)
      ((l.map (Connection.map (reading start))).foldl
        (ch.map (reading start)).older oldest') := by
  induction l generalizing oldest oldest' with
  | nil => exact h
  | cons c l ih =>
    rw [List.map_cons, List.foldl_cons, List.foldl_cons]
    exact ih (h.older hlap hpinged (hl c List.mem_cons_self))
      fun c' hc' => hl c' (List.mem_cons_of_mem c hc')

end

/-! ## Runs -/

/-- The times in a channel are those of its connections. -/
def Stamped (ch : P2PTransportChannel Instant) : Prop :=
  ∀ c ∈ ch.connections, c.Stamped

section

variable {τ : Type} {ch : P2PTransportChannel τ} {p : Connection τ → Prop}

theorem forall_pruneNetwork (hprune : ∀ c, p c → p c.prune)
    (h : ∀ c ∈ ch.connections, p c) (network : ℕ) :
    ∀ c ∈ (ch.pruneNetwork network).connections, p c := by
  rw [pruneNetwork]
  cases ch.getBestConnectionOnNetwork network with
  | none => exact h
  | some primier =>
    dsimp only
    split
    · rw [List.forall_mem_map]
      intro c hc
      split
      · exact hprune c (h c hc)
      · exact h c hc
    · exact h

theorem forall_pruneConnections (hprune : ∀ c, p c → p c.prune)
    (h : ∀ c ∈ ch.connections, p c) :
    ∀ c ∈ ch.pruneConnections.connections, p c := by
  rw [pruneConnections]
  generalize (ch.connections.map fun c => c.port.network).dedup = networks
  induction networks generalizing ch with
  | nil => exact h
  | cons network networks ih =>
    exact ih (forall_pruneNetwork hprune h network)

theorem connections_switchToTop :
    ch.switchToTop.connections = ch.connections := by
  rw [switchToTop]
  split <;> rfl

theorem connections_updateWritable :
    ch.updateWritable.connections = ch.connections := by
  rw [updateWritable, handleNotWritable]
  split
  · rfl
  · split <;> rfl

variable [Clock τ] [DecidableLT τ] [DecidableLE τ]

theorem forall_sortConnections (hprune : ∀ c, p c → p c.prune) {now : τ}
    (hupdate : ∀ c, p c → p (c.updateState now))
    (h : ∀ c ∈ ch.connections, p c) :
    ∀ c ∈ (ch.sortConnections now).connections, p c := by
  have hupdated : ∀ c ∈ (ch.updateConnectionStates now).connections, p c :=
    List.forall_mem_map.mpr fun c hc => hupdate c (h c hc)
  rw [sortConnections]
  split
  · exact hupdated
  · change ∀ c ∈ (updateWritable _).connections, p c
    rw [connections_updateWritable]
    refine forall_pruneConnections hprune ?_
    rw [connections_switchToTop]
    intro c hc
    exact hupdated c ((List.mem_insertionSort _).mp hc)

end

section

variable {start now : ℕ} {ch : P2PTransportChannel Instant}
  {e : ChannelEvent}

theorem Stamped.handle (h : ch.Stamped) (e : ChannelEvent) :
    (ch.handle (.time now) e).Stamped := by
  cases e with
  | addConnection this port localPriority remotePriority remoteGeneration
      remoteIceLite connected =>
      refine List.forall_mem_append.mpr ⟨h, ?_⟩
      rw [List.forall_mem_singleton]
      exact ⟨nofun, nofun, fun hstate => absurd rfl hstate, fun _ => ⟨rfl, rfl⟩⟩
  | connection this e =>
    refine List.forall_mem_map.mpr fun c hc => ?_
    split
    · exact (h c hc).handle e
    · exact h c hc
  | sort =>
    exact forall_sortConnections (fun c hc => hc.prune)
      (fun c hc => hc.updateState) h
  | select => exact h

theorem Stamped.exists_sent (h : ch.Stamped) (hpinged : ch.AllPinged) :
    ∀ c ∈ ch.connections, ch.isPingable c → ∃ u, c.lastPingSent = .time u :=
  fun c hc hping => (h c hc).pinged (hpinged c hc (.inl hping))

end

section

variable {τ : Type} {ch : P2PTransportChannel τ}

/-- What holds between the events: in hybrid mode there is no best connection
yet. -/
structure Tracked (ch : P2PTransportChannel τ) : Prop where
  wasWritable : ch.wasWritable = ch.writable
  hybrid : ch.protocolType = .ICEPROTO_HYBRID →
    ch.bestConnection = none ∧ ch.writable = false

/-- What `UpdateChannelState` asserts, and the readable state that it sets. -/
structure Settled (ch : P2PTransportChannel τ) : Prop where
  writable : ch.writable = ch.best.any Connection.writable
  readable : ch.readable = ch.connections.any fun c =>
    c.readState = .STATE_READABLE

theorem Tracked.switchToTop (h : ch.Tracked)
    (hother : ch.protocolType ≠ .ICEPROTO_HYBRID) : ch.switchToTop.Tracked := by
  rw [P2PTransportChannel.switchToTop]
  split
  · exact ⟨h.wasWritable, fun hhybrid => absurd hhybrid hother⟩
  · exact h

theorem Tracked.pruneNetwork (h : ch.Tracked) (network : ℕ) :
    (ch.pruneNetwork network).Tracked := by
  rw [P2PTransportChannel.pruneNetwork]
  split
  · split
    · exact ⟨h.wasWritable, h.hybrid⟩
    · exact h
  · exact h

theorem Tracked.pruneConnections (h : ch.Tracked) :
    ch.pruneConnections.Tracked := by
  rw [P2PTransportChannel.pruneConnections]
  exact List.foldlRecOn _ _ h fun _ h network _ => h.pruneNetwork network

theorem Tracked.updateWritable (h : ch.Tracked) :
    ch.updateWritable.updateChannelState.Tracked ∧
      ch.updateWritable.updateChannelState.Settled := by
  rw [P2PTransportChannel.updateWritable]
  split
  · next hwritable =>
    refine ⟨⟨rfl, fun hhybrid => ?_⟩, hwritable.symm, rfl⟩
    rw [best, (h.hybrid hhybrid).1] at hwritable
    cases hwritable
  · next hwritable =>
    rw [Bool.not_eq_true] at hwritable
    rw [handleNotWritable]
    split
    · exact ⟨⟨rfl, fun hhybrid => ⟨(h.hybrid hhybrid).1, rfl⟩⟩,
        hwritable.symm, rfl⟩
    · next hwas =>
      rw [Bool.not_eq_true, h.wasWritable] at hwas
      exact ⟨⟨h.wasWritable, h.hybrid⟩, hwas.trans hwritable.symm, rfl⟩

variable [Clock τ] [DecidableLT τ] [DecidableLE τ]

theorem Tracked.sortConnections (h : ch.Tracked) (now : τ) :
    (ch.sortConnections now).Tracked ∧ (ch.sortConnections now).Settled := by
  have hupdated : (ch.updateConnectionStates now).sorted.Tracked :=
    ⟨h.wasWritable, h.hybrid⟩
  rw [P2PTransportChannel.sortConnections]
  split
  · next hhybrid =>
    obtain ⟨hnone, hwritable⟩ := h.hybrid hhybrid
    refine ⟨⟨h.wasWritable, h.hybrid⟩, ?_, rfl⟩
    change ch.writable = (ch.bestConnection.bind _).any _
    rw [hwritable, hnone]
    rfl
  · next hother =>
    exact (hupdated.switchToTop hother).pruneConnections.updateWritable

theorem Tracked.handle (h : ch.Tracked) (now : τ) (e : ChannelEvent) :
    (ch.handle now e).Tracked := by
  cases e with
  | addConnection | connection => exact ⟨h.wasWritable, h.hybrid⟩
  | sort => exact (h.sortConnections now).1
  | select => exact h

end

end P2PTransportChannel

end WebrtcWinXp.P2p
