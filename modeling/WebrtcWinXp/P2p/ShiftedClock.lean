import WebrtcWinXp.P2p.SortConnections

/-!
# Where the clock starts

The clock of a channel counts milliseconds modulo `2 ^ 32`.  Next to it stands
a clock that never wraps.  A run reads the same from both as long as no wrap
comes between a time that is compared with the clock and the clock itself.
-/

namespace WebrtcWinXp.P2p

open Support

/-! ## A clock that never wraps -/

/-- Milliseconds since the start of a run, between a time that was not recorded
yet and one that is never reached. -/
inductive Instant where
  | unset
  | time (ms : ℕ)
  | last
  deriving DecidableEq

namespace Instant

def lt : Instant → Instant → Bool
  | unset, unset => false
  | unset, _ => true
  | time a, time b => a < b
  | time _, last => true
  | _, _ => false

def add : Instant → Instant → Instant
  | time a, time b => time (a + b)
  | unset, _ => unset
  | t, _ => t

instance : Clock Instant where
  add := add
  lt a b := lt a b = true
  le a b := a = b ∨ lt a b = true
  unset := unset
  last := last
  millis ms := time ms.toNat
  elapsed later earlier :=
    match later, earlier with
    | time v, time u => UInt32.ofNat v - UInt32.ofNat u
    | _, _ => 0

instance : DecidableLT Instant :=
  fun a b => inferInstanceAs (Decidable (lt a b = true))

instance : DecidableLE Instant :=
  fun a b => inferInstanceAs (Decidable (a = b ∨ lt a b = true))

variable {u v : ℕ} {d : UInt32}

@[simp] theorem time_add_millis :
    time u + Clock.millis d = time (u + d.toNat) := rfl

@[simp] theorem time_lt_time : time u < time v ↔ u < v :=
  decide_eq_true_iff

@[simp] theorem time_le_time : time u ≤ time v ↔ u ≤ v := by
  change time u = time v ∨ decide (u < v) = true ↔ u ≤ v
  rw [time.injEq, decide_eq_true_iff]
  omega

theorem unset_le_time : unset ≤ time u := .inr rfl

theorem time_lt_last : time u < last := rfl

end Instant

/-- What a clock of 32 bits shows that starts with `start`. -/
def reading (start : ℕ) : Instant → UInt32
  | .unset => 0
  | .time ms => UInt32.ofNat (start + ms)
  | .last => 0xFFFFFFFF

def SameLap (start x y : ℕ) : Prop :=
  (start + x) / 2 ^ 32 = (start + y) / 2 ^ 32

instance (start x y : ℕ) : Decidable (SameLap start x y) :=
  inferInstanceAs (Decidable (_ = _))

/-- A time-out that started at `t` can be compared with the clock.  A time that
was not recorded counts as zero, so the clock has to be beyond the
time-out. -/
def Comparable (start : ℕ) (t : Instant) (timeout : UInt32) (now : ℕ) : Prop :=
  match t with
  | .time u => SameLap start (u + timeout.toNat) now
  | .unset => timeout ≤ reading start (.time now)
  | .last => False

section

variable {start u v now : ℕ} {t : Instant} {d : UInt32}

theorem mod_lt_mod_iff {x y m : ℕ} (h : x / m = y / m) :
    x % m < y % m ↔ x < y := by
  have hx := Nat.div_add_mod x m
  have hy := Nat.div_add_mod y m
  rw [h] at hx
  omega

theorem toNat_reading (start u : ℕ) :
    (reading start (.time u)).toNat = (start + u) % 2 ^ 32 :=
  UInt32.toNat_ofNat

theorem reading_lt_reading (h : SameLap start u v) :
    reading start (.time u) < reading start (.time v) ↔ u < v := by
  rw [UInt32.lt_iff_toNat_lt, toNat_reading, toNat_reading, mod_lt_mod_iff h]
  omega

theorem reading_le_reading (h : SameLap start u v) :
    reading start (.time u) ≤ reading start (.time v) ↔ u ≤ v := by
  rw [← UInt32.not_lt, reading_lt_reading h.symm, not_lt]

theorem reading_add (start u : ℕ) (d : UInt32) :
    reading start (.time u) + d = reading start (.time (u + d.toNat)) := by
  rw [reading, reading, ← Nat.add_assoc, UInt32.ofNat_add (start + u),
    UInt32.ofNat_toNat]

theorem Comparable.passed (h : Comparable start (.time u) d now) :
    reading start (.time u) + Clock.millis d < reading start (.time now) ↔
      Instant.time u + Clock.millis d < .time now := by
  rw [Instant.time_add_millis, Instant.time_lt_time]
  exact reading_add start u d ▸ reading_lt_reading h

theorem Comparable.reached (h : Comparable start t d now) :
    reading start t + Clock.millis d ≤ reading start (.time now) ↔
      t + Clock.millis d ≤ .time now := by
  cases t with
  | time u =>
    rw [Instant.time_add_millis, Instant.time_le_time]
    exact reading_add start u d ▸ reading_le_reading h
  | unset =>
    refine iff_of_true ?_ Instant.unset_le_time
    change 0 + d ≤ _
    rw [UInt32.zero_add]
    exact h
  | last => exact h.elim

end

/-! ## Connections on two clocks -/

namespace Connection

section

variable {τ σ : Type} (f : τ → σ) (c : Connection τ)

def map : Connection σ where
  this := c.this
  port := c.port
  localPriority := c.localPriority
  remotePriority := c.remotePriority
  remoteGeneration := c.remoteGeneration
  remoteIceLite := c.remoteIceLite
  readState := c.readState
  writeState := c.writeState
  connected := c.connected
  pruned := c.pruned
  state := c.state
  unsent := c.unsent
  requests := c.requests.map fun request => (request.1, f request.2)
  rtt := c.rtt
  lastPingSent := f c.lastPingSent
  lastPingReceived := f c.lastPingReceived
  lastDataReceived := f c.lastDataReceived
  lastPingResponseReceived := f c.lastPingResponseReceived
  pingsSinceLastResponse := c.pingsSinceLastResponse.map f

end

/-- What the times of a connection are: those of requests and pings were
recorded, and a connection that was not pinged has no requests. -/
structure Stamped (c : Connection Instant) : Prop where
  requests : ∀ request ∈ c.requests, ∃ u, request.2 = .time u
  pings : ∀ ping ∈ c.pingsSinceLastResponse, ∃ u, ping = .time u
  pinged : c.state ≠ .STATE_WAITING → ∃ u, c.lastPingSent = .time u
  waiting : c.state = .STATE_WAITING → c.unsent = [] ∧ c.requests = []

variable {start now : ℕ} {c : Connection Instant}

/-- The times that `UpdateState` compares with the clock can be compared. -/
structure Comparable (start now : ℕ) (c : Connection Instant) : Prop where
  pingReceived : c.isGoogleIce → c.readState = .STATE_READABLE →
    P2p.Comparable start c.lastPingReceived CONNECTION_READ_TIMEOUT now
  dataReceived : c.isGoogleIce → c.readState = .STATE_READABLE →
    c.lastPingReceived + Clock.millis CONNECTION_READ_TIMEOUT ≤ .time now →
    P2p.Comparable start c.lastDataReceived CONNECTION_READ_TIMEOUT now
  failures : c.writeState = .STATE_WRITABLE →
    ∀ ping ∈ c.pingsSinceLastResponse[CONNECTION_WRITE_CONNECT_FAILURES - 1]?,
      P2p.Comparable start ping (conservativeRTTEstimate c.rtt) now
  response : c.writeState = .STATE_WRITABLE →
    tooManyFailures c.pingsSinceLastResponse CONNECTION_WRITE_CONNECT_FAILURES
      (conservativeRTTEstimate c.rtt) (.time now) →
    ∀ ping ∈ c.pingsSinceLastResponse.head?,
      P2p.Comparable start ping CONNECTION_WRITE_CONNECT_TIMEOUT now
  unwritable : (c.updateWritable (.time now)).writeState =
      .STATE_WRITE_UNRELIABLE ∨ c.writeState = .STATE_WRITE_INIT →
    ∀ ping ∈ c.pingsSinceLastResponse.head?,
      P2p.Comparable start ping CONNECTION_WRITE_TIMEOUT now

theorem updateReadState_cases {τ : Type} [Clock τ] [DecidableLE τ]
    (c : Connection τ) (now : τ) :
    c.updateReadState now = c ∨
      c.updateReadState now = c.setReadState .STATE_READ_TIMEOUT := by
  rw [updateReadState]
  split
  · exact .inr rfl
  · exact .inl rfl

theorem updateWritable_cases {τ : Type} [Clock τ] [DecidableLT τ]
    (c : Connection τ) (now : τ) :
    c.updateWritable now = c ∨ c.writeState = .STATE_WRITABLE ∧
      c.updateWritable now = c.setWriteState .STATE_WRITE_UNRELIABLE := by
  rw [updateWritable]
  split
  · next h =>
      simp only [Bool.and_eq_true, decide_eq_true_eq] at h
      exact .inr ⟨h.1.1, rfl⟩
  · exact .inl rfl

theorem updateUnwritable_cases {τ : Type} [Clock τ] [DecidableLT τ]
    (c : Connection τ) (now : τ) :
    c.updateUnwritable now = c ∨
      c.updateUnwritable now = c.setWriteState .STATE_WRITE_TIMEOUT := by
  rw [updateUnwritable]
  split
  · exact .inr rfl
  · exact .inl rfl

theorem Stamped.of_eq {c' : Connection Instant} (h : c.Stamped)
    (hrequests : c'.requests = c.requests)
    (hpings : c'.pingsSinceLastResponse = c.pingsSinceLastResponse)
    (hsent : c'.lastPingSent = c.lastPingSent) (hstate : c'.state = c.state)
    (hunsent : c'.unsent = c.unsent) : c'.Stamped where
  requests := by simpa only [hrequests] using h.requests
  pings := by simpa only [hpings] using h.pings
  pinged := by simpa only [hstate, hsent] using h.pinged
  waiting := by simpa only [hstate, hunsent, hrequests] using h.waiting

theorem Stamped.updateReadState (h : c.Stamped) :
    (c.updateReadState (.time now)).Stamped := by
  obtain heq | heq := c.updateReadState_cases (.time now) <;> rw [heq]
  · exact h
  · exact h.of_eq rfl rfl rfl rfl rfl

theorem Stamped.updateWritable (h : c.Stamped) :
    (c.updateWritable (.time now)).Stamped := by
  obtain heq | ⟨-, heq⟩ := c.updateWritable_cases (.time now) <;> rw [heq]
  · exact h
  · exact h.of_eq rfl rfl rfl rfl rfl

theorem Stamped.updateState (h : c.Stamped) :
    (c.updateState (.time now)).Stamped := by
  rw [Connection.updateState]
  obtain heq | heq :=
    ((c.updateReadState (.time now)).updateWritable
      (.time now)).updateUnwritable_cases (.time now) <;> rw [heq]
  · exact h.updateReadState.updateWritable
  · exact h.updateReadState.updateWritable.of_eq rfl rfl rfl rfl rfl

theorem updateWritable_setReadState {τ : Type} [Clock τ] [DecidableLT τ]
    (c : Connection τ) (value : ReadState) (now : τ) :
    (c.setReadState value).updateWritable now =
      (c.updateWritable now).setReadState value := by
  rw [updateWritable, updateWritable, apply_ite (setReadState · value)]
  rfl

theorem Comparable.updateReadState (h : c.Comparable start now) :
    (c.updateReadState (.time now)).Comparable start now := by
  obtain heq | heq := c.updateReadState_cases (.time now) <;> rw [heq]
  · exact h
  · refine ⟨nofun, nofun, h.failures, h.response, ?_⟩
    rw [updateWritable_setReadState]
    exact h.unwritable

theorem Comparable.updateWritable (h : c.Comparable start now)
    (hstate : (c.updateWritable (.time now)).writeState =
        .STATE_WRITE_UNRELIABLE ∨
      (c.updateWritable (.time now)).writeState = .STATE_WRITE_INIT) :
    ∀ ping ∈ (c.updateWritable (.time now)).pingsSinceLastResponse.head?,
      P2p.Comparable start ping CONNECTION_WRITE_TIMEOUT now := by
  have hunwritable := h.unwritable
  obtain heq | ⟨-, heq⟩ := c.updateWritable_cases (.time now)
  · rw [heq] at hstate hunwritable ⊢
    exact hunwritable hstate
  · rw [heq] at hunwritable ⊢
    exact hunwritable (.inl rfl)

theorem Stamped.restart (h : c.Stamped) : c.restart.Stamped := by
  rw [Connection.restart]
  split
  · exact h.of_eq rfl rfl rfl rfl rfl
  · exact h

theorem Stamped.prune (h : c.Stamped) : c.prune.Stamped := by
  rw [Connection.prune]
  split
  · exact h
  · exact ⟨nofun, h.pings, h.pinged, fun _ => ⟨rfl, rfl⟩⟩

theorem Stamped.ping (h : c.Stamped) (id : ℕ) :
    (c.ping id (.time now)).Stamped where
  requests := h.requests
  pings p hp := by
    obtain hp | hp := List.mem_append.mp hp
    · exact h.pings p hp
    · exact ⟨now, List.mem_singleton.mp hp⟩
  pinged _ := ⟨now, rfl⟩
  waiting := nofun

theorem Stamped.sendRequest (h : c.Stamped) (id : ℕ) :
    (c.sendRequest id (.time now)).Stamped := by
  rw [Connection.sendRequest]
  split
  · next hid =>
      refine ⟨fun request hrequest => ?_, h.pings, h.pinged, fun hwait => ?_⟩
      · obtain hold | hnew := List.mem_append.mp hrequest
        · exact h.requests request hold
        · exact ⟨now, by rw [List.mem_singleton.mp hnew]⟩
      · rw [(h.waiting hwait).1] at hid
        exact absurd hid (by simp)
  · exact h

theorem Stamped.removeRequest (h : c.Stamped) (id : ℕ) :
    (c.removeRequest id).Stamped where
  requests request hrequest :=
    h.requests request (List.mem_of_mem_filter hrequest)
  pings := h.pings
  pinged := h.pinged
  waiting hwait := by
    refine ⟨(h.waiting hwait).1, ?_⟩
    rw [Connection.removeRequest, (h.waiting hwait).2]
    rfl

theorem Stamped.exists_sent (h : c.Stamped) {request : ℕ × Instant}
    (hrequest : request ∈ c.requests) : ∃ u, c.lastPingSent = .time u := by
  refine h.pinged fun hwait => ?_
  rw [(h.waiting hwait).2] at hrequest
  exact List.not_mem_nil hrequest

theorem Stamped.checkResponse (h : c.Stamped) (id : ℕ) :
    (c.checkResponse id (.time now)).Stamped := by
  rw [Connection.checkResponse]
  split
  · next request hrequest =>
      have hsent := h.exists_sent (List.mem_of_find?_eq_some hrequest)
      refine Stamped.removeRequest ?_ id
      rw [onConnectionRequestResponse]
      split <;> exact ⟨h.requests, nofun, fun _ => hsent, nofun⟩
  · exact h

theorem Stamped.checkErrorResponse (h : c.Stamped) (id : ℕ)
    (recoverable : Bool) : (c.checkErrorResponse id recoverable).Stamped := by
  rw [Connection.checkErrorResponse]
  split
  · next hany =>
      obtain ⟨request, hrequest, -⟩ := List.any_eq_true.mp hany
      refine Stamped.removeRequest ?_ id
      rw [onConnectionRequestErrorResponse]
      split
      · exact h
      · exact ⟨h.requests, h.pings, fun _ => h.exists_sent hrequest, nofun⟩
  · exact h

theorem Stamped.receivedPing (h : c.Stamped) :
    (c.receivedPing (.time now)).Stamped :=
  h.of_eq rfl rfl rfl rfl rfl

theorem Stamped.handle (h : c.Stamped) (e : ConnectionEvent) :
    (c.handle (.time now) e).Stamped := by
  cases e with
  | ping id => exact h.ping id
  | sendRequest id => exact h.sendRequest id
  | response id => exact h.checkResponse id
  | errorResponse id recoverable => exact h.checkErrorResponse id recoverable
  | requestTimeout id => exact h.removeRequest id
  | bindingRequest => exact h.receivedPing.restart
  | bindingIndication =>
    rw [Connection.handle, Connection.onBindingIndication]
    split
    · exact h.receivedPing
    · exact h
  | data =>
    rw [Connection.handle, Connection.onData]
    split
    · refine Stamped.restart ?_
      exact h.of_eq rfl rfl rfl rfl rfl
    · exact h
  | updateState => exact h.updateState

end Connection

end WebrtcWinXp.P2p
