import WebrtcWinXp.Dtls.Wrapper

/-!
# Sound wrappers

What is asked of an event of the wrapper, the events that keep it, and
what the wrapper keeps between such events.
-/

namespace WebrtcWinXp.Dtls

/-! ## What is asked of an event -/

namespace Wrapper

/-- The states in which the wrapper shows the lower channel. -/
def Transparent (w : Wrapper) : Prop :=
  w.dtlsState = .STATE_NONE ∨ w.dtlsState = .STATE_OPEN

instance (w : Wrapper) : Decidable w.Transparent :=
  inferInstanceAs (Decidable (_ ∨ _))

/-- `readable()` and `writable()` are right for the state. -/
def Sync (w : Wrapper) : Prop :=
  if w.Transparent then
    w.readable = w.lower.readable ∧ w.writable = w.lower.writable
  else w.readable = false ∧ w.writable = false

def Stalled (w : Wrapper) : Prop :=
  w.dtlsState = .STATE_ACCEPTED ∧ w.lower.writable

instance (w : Wrapper) : Decidable w.Sync :=
  inferInstanceAs (Decidable (if w.Transparent then _ ∧ _ else _ ∧ _))

instance (w : Wrapper) : Decidable w.Stalled :=
  inferInstanceAs (Decidable (_ ∧ _))

end Wrapper

/-- An output that is allowed while DTLS is offered: an unencrypted packet is
an RTP packet with the bypass flag in `STATE_OPEN`, and a signal comes from a
stream that has been opened. -/
def Output.Encrypted : Output → Prop
  | .sendPacket data bypass state =>
    state = .STATE_OPEN ∧ bypass ∧ isRtpPacket data
  | .writeAll _ => True
  | .signal _ opened => opened

instance (o : Output) : Decidable o.Encrypted :=
  match o with
  | .sendPacket _ _ _ => inferInstanceAs (Decidable (_ ∧ _ ∧ _))
  | .writeAll _ => inferInstanceAs (Decidable True)
  | .signal _ opened => inferInstanceAs (Decidable (opened = true))

/-- What is asked of the wrapper after an event. -/
structure Guarded (offered : Bool) (w : Wrapper) : Prop where
  sync : w.Sync
  not_stalled : ¬w.Stalled
  encrypted : offered → ∀ o ∈ w.outputs, o.Encrypted

instance (offered : Bool) (w : Wrapper) : Decidable (Guarded offered w) :=
  decidable_of_iff (w.Sync ∧ ¬w.Stalled ∧
    (offered → ∀ o ∈ w.outputs, o.Encrypted))
    ⟨fun h => ⟨h.1, h.2.1, h.2.2⟩, fun h => ⟨h.1, h.2, h.3⟩⟩

/-- A computation has a result, with a property. -/
def Yields {α : Type} (r : Except Part α) (P : α → Prop) : Prop :=
  match r with
  | .ok a => P a
  | .error _ => False

instance {α : Type} (r : Except Part α) (P : α → Prop) [DecidablePred P] :
    Decidable (Yields r P) :=
  match r with
  | .ok a => inferInstanceAs (Decidable (P a))
  | .error _ => inferInstanceAs (Decidable False)

/-- The gate for one event of a session: nothing missing is used, and the
wrapper is guarded after it. -/
def Gate (s : Session) (e : Event) : Prop :=
  Yields (e.apply s.cleared) fun r => Guarded s.offered r.2

instance (s : Session) (e : Event) : Decidable (Gate s e) :=
  inferInstanceAs (Decidable (Yields _ _))

/-- The answers with which `SetupDtls` succeeds. -/
def Setup.succeeds (setup : Setup) (ciphers : List (List UInt8)) : Bool :=
  setup.created && setup.digestSet && (ciphers == [] || setup.ciphersSet)

/-- An event that keeps the gate.  DTLS is offered, or the peer said not to
support it, only while the lower channel is neither readable nor writable;
the handshake is set up while the lower channel is not writable; the handshake
ends while it is readable and writable; and a channel is reset after an
identity was set. -/
def Event.Safe (w : Wrapper) : Event → Prop
  | .setLocalIdentity identity =>
    identity.isSome → w.dtlsState = .STATE_NONE →
      ¬w.lower.readable ∧ ¬w.lower.writable
  | .setRemoteFingerprint digestAlg digest setup =>
    w.dtlsState = .STATE_OFFERED →
      if digestAlg = [] then ¬w.lower.readable ∧ ¬w.lower.writable
      else w.remoteFingerprintValue ≠ digest →
        setup.succeeds w.srtpCiphers → ¬w.lower.writable
  | .reset setup => setup.created → w.localIdentity.isSome
  | .onDtlsEvent event =>
    event.seOpen → event.isOpen → ¬event.seClose →
      w.lower.readable ∧ w.lower.writable
  | _ => True

namespace Wrapper

variable {w w' : Wrapper}

def opened (w : Wrapper) : Bool := w.dtls.any (·.opened)

/-- All outputs are allowed while DTLS is offered. -/
def Clean (w : Wrapper) : Prop := ∀ o ∈ w.outputs, o.Encrypted

/-- Everything but the flags and the outputs is the same. -/
structure SameCore (w w' : Wrapper) : Prop where
  lower_eq : w'.lower = w.lower
  dtls_eq : w'.dtls = w.dtls
  downward_eq : w'.downward = w.downward
  state_eq : w'.dtlsState = w.dtlsState
  identity_eq : w'.localIdentity = w.localIdentity
  ciphers_eq : w'.srtpCiphers = w.srtpCiphers

theorem SameCore.refl (w : Wrapper) : SameCore w w :=
  ⟨rfl, rfl, rfl, rfl, rfl, rfl⟩

theorem SameCore.trans {w'' : Wrapper} (h : SameCore w w')
    (h' : SameCore w' w'') : SameCore w w'' :=
  ⟨h'.1.trans h.1, h'.2.trans h.2, h'.3.trans h.3, h'.4.trans h.4,
    h'.5.trans h.5, h'.6.trans h.6⟩

theorem Clean.signal (h : w.Clean) (hopened : w.opened) (signal : Signal) :
    (w.signal signal).Clean := by
  intro o ho
  rcases List.mem_append.mp ho with ho | ho
  · exact h o ho
  · rw [List.mem_singleton.mp ho]
    exact hopened

/-- What `set_readable` does. -/
theorem setReadable_spec (readable : Bool) (w : Wrapper) :
    SameCore w (w.setReadable readable) ∧
      (w.setReadable readable).readable = readable ∧
      (w.setReadable readable).writable = w.writable ∧
      (w.Clean → (w.readable ≠ readable → w.opened) →
        (w.setReadable readable).Clean) := by
  unfold setReadable
  by_cases heq : w.readable = readable
  · rw [if_pos heq]
    exact ⟨.refl w, heq, rfl, fun h _ => h⟩
  · rw [if_neg heq]
    refine ⟨⟨rfl, rfl, rfl, rfl, rfl, rfl⟩, rfl, rfl, fun h hopened => ?_⟩
    exact Clean.signal (w := { w with readable := readable }) h (hopened heq) _

/-- What `set_writable` does. -/
theorem setWritable_spec (writable : Bool) (w : Wrapper) :
    SameCore w (w.setWritable writable) ∧
      (w.setWritable writable).writable = writable ∧
      (w.setWritable writable).readable = w.readable ∧
      (w.Clean → (w.writable ≠ writable → w.opened) →
        (w.setWritable writable).Clean) := by
  unfold setWritable
  by_cases heq : w.writable = writable
  · rw [if_pos heq]
    exact ⟨.refl w, heq, rfl, fun h _ => h⟩
  rw [if_neg heq]
  have hset (h : w.Clean) : Clean { w with writable := writable } := h
  cases writable with
  | false =>
    refine ⟨⟨rfl, rfl, rfl, rfl, rfl, rfl⟩, rfl, rfl, fun h hopened => ?_⟩
    exact (hset h).signal (hopened heq) _
  | true =>
    refine ⟨⟨rfl, rfl, rfl, rfl, rfl, rfl⟩, rfl, rfl, fun h hopened => ?_⟩
    exact ((hset h).signal (hopened heq) _).signal (hopened heq) _

/-- What the wrapper keeps between events that keep the gate. -/
structure Sound (w : Wrapper) : Prop where
  sync : w.Sync
  not_stalled : ¬w.Stalled
  live : w.dtlsState = .STATE_ACCEPTED ∨ w.dtlsState = .STATE_STARTED ∨
    w.dtlsState = .STATE_OPEN → w.dtls.isSome
  downward_of : ∀ stream, w.dtls = some stream →
    w.downward = some stream.downward
  identity_of : w.dtlsState = .STATE_OFFERED → w.localIdentity.isSome
  opened_of : w.dtlsState = .STATE_OPEN → w.opened

theorem sync_iff : w.Sync ↔
    (w.Transparent →
      w.readable = w.lower.readable ∧ w.writable = w.lower.writable) ∧
    (¬w.Transparent → w.readable = false ∧ w.writable = false) := by
  unfold Sync
  split <;> simp_all

theorem sync_of_transparent (h : w.Transparent) :
    w.Sync ↔ w.readable = w.lower.readable ∧ w.writable = w.lower.writable := by
  rw [Sync, if_pos h]

theorem sync_of_not (h : ¬w.Transparent) :
    w.Sync ↔ w.readable = false ∧ w.writable = false := by
  rw [Sync, if_neg h]

theorem Sound.sameCore (h : w.Sound) (hcore : SameCore w w')
    (hreadable : w'.readable = w.readable)
    (hwritable : w'.writable = w.writable) : w'.Sound where
  sync := by
    have hsync := sync_iff.mp h.sync
    rw [sync_iff, Transparent, hcore.state_eq, hcore.lower_eq, hreadable,
      hwritable]
    exact hsync
  not_stalled := by
    have hnot := h.not_stalled
    unfold Stalled at hnot ⊢
    rw [hcore.state_eq, hcore.lower_eq]
    exact hnot
  live := by
    rw [hcore.state_eq, hcore.dtls_eq]
    exact h.live
  downward_of := by
    rw [hcore.dtls_eq, hcore.downward_eq]
    exact h.downward_of
  identity_of := by
    rw [hcore.state_eq, hcore.identity_eq]
    exact h.identity_of
  opened_of := by
    unfold opened
    rw [hcore.state_eq, hcore.dtls_eq]
    exact h.opened_of

theorem sameCore_signal (signal : Signal) (w : Wrapper) :
    SameCore w (w.signal signal) :=
  ⟨rfl, rfl, rfl, rfl, rfl, rfl⟩

/-- A flag that is set is shown in `STATE_NONE` or `STATE_OPEN`. -/
theorem Sound.opened_of_flag (h : w.Sound)
    (hne : w.dtlsState ≠ .STATE_NONE) (hflag : w.readable ∨ w.writable) :
    w.opened := by
  by_cases htransparent : w.Transparent
  · exact h.opened_of (htransparent.resolve_left hne)
  · simp [(sync_of_not htransparent).mp h.sync] at hflag

def streamed (w : Wrapper) : Wrapper :=
  { w with
    created := w.created + 1
    dtls := some ⟨w.created, false⟩
    downward := some w.created }

/-- The results of `SetupDtls`. -/
theorem setupDtls_eq {setup : Setup}
    (hidentity : setup.created → w.localIdentity.isSome) :
    w.setupDtls setup = .ok (setup.succeeds w.srtpCiphers,
      if setup.created then w.streamed
      else { w with created := w.created + 1, dtls := none }) := by
  unfold setupDtls Setup.succeeds
  by_cases hcreated : setup.created
  swap
  · simp [hcreated]
  obtain ⟨identity, hsome⟩ := Option.isSome_iff_exists.mp (hidentity hcreated)
  simp only [hcreated, not_true_eq_false, if_false, useIdentity, hsome]
  by_cases hdigest : setup.digestSet
  swap
  · simp [hdigest, streamed, hsome]
  by_cases hciphers : w.srtpCiphers = []
  · simp [hdigest, hciphers, streamed, hsome]
  · cases hset : setup.ciphersSet <;>
      simp [hdigest, hciphers, streamed, hsome]

theorem setupDtls_spec {setup : Setup}
    (hidentity : setup.created → w.localIdentity.isSome) :
    ∃ w', w.setupDtls setup = .ok (setup.succeeds w.srtpCiphers, w') ∧
      w'.lower = w.lower ∧ w'.readable = w.readable ∧
      w'.writable = w.writable ∧ w'.outputs = w.outputs ∧
      w'.localIdentity = w.localIdentity ∧
      (setup.succeeds w.srtpCiphers → w'.dtls.isSome) ∧
      ∀ stream, w'.dtls = some stream →
        w'.downward = some stream.downward := by
  refine ⟨_, setupDtls_eq hidentity, ?_⟩
  by_cases hcreated : setup.created
  · rw [if_pos hcreated]
    refine ⟨rfl, rfl, rfl, rfl, rfl, fun _ => rfl, ?_⟩
    rintro _ ⟨rfl⟩
    rfl
  · rw [if_neg hcreated]
    refine ⟨rfl, rfl, rfl, rfl, rfl, ?_, nofun⟩
    simp [Setup.succeeds, hcreated]

theorem setupDtls_missing {setup : Setup} (hcreated : setup.created)
    (hnone : w.localIdentity = none) :
    w.setupDtls setup = .error .identity := by
  simp [setupDtls, hcreated, useIdentity, hnone]

/-! ## The lower channel -/

theorem Sound.onReadyToSend (h : w.Sound) :
    w.onReadyToSend.Sound ∧ SameCore w w.onReadyToSend ∧
      (w.dtlsState ≠ .STATE_NONE → w.Clean → w.onReadyToSend.Clean) := by
  unfold Wrapper.onReadyToSend
  by_cases hwritable : w.writable
  · rw [if_pos hwritable]
    refine ⟨h.sameCore (sameCore_signal _ w) rfl rfl, sameCore_signal _ w, ?_⟩
    intro hne hclean
    exact hclean.signal (h.opened_of_flag hne (.inr hwritable)) _
  · rw [if_neg hwritable]
    exact ⟨h, .refl w, fun _ hclean => hclean⟩

def withLower (lower : Lower) (w : Wrapper) : Wrapper :=
  { w with lower := lower }

theorem Sound.of_lower (h : w.Sound) {lower : Lower}
    (hcore : SameCore (w.withLower lower) w')
    (hsync : w'.Sync) (hnot : ¬w'.Stalled) : w'.Sound where
  sync := hsync
  not_stalled := hnot
  live := by
    rw [hcore.state_eq, hcore.dtls_eq]
    exact h.live
  downward_of := by
    rw [hcore.dtls_eq, hcore.downward_eq]
    exact h.downward_of
  identity_of := by
    rw [hcore.state_eq, hcore.identity_eq]
    exact h.identity_of
  opened_of := by
    unfold opened
    rw [hcore.state_eq, hcore.dtls_eq]
    exact h.opened_of

theorem onReadableState_of_transparent (h : w.Transparent) :
    w.onReadableState = w.setReadable w.lower.readable := if_pos h

theorem onReadableState_of_not (h : ¬w.Transparent) :
    w.onReadableState = w := if_neg h

theorem Sound.lowerSetReadable (h : w.Sound) (readable : Bool) :
    (w.lowerSetReadable readable).Sound ∧
      SameCore (w.withLower ⟨readable, w.lower.writable⟩)
        (w.lowerSetReadable readable) ∧
      (w.dtlsState ≠ .STATE_NONE → w.Clean →
        (w.lowerSetReadable readable).Clean) := by
  unfold Wrapper.lowerSetReadable
  by_cases heq : w.lower.readable = readable
  · rw [if_pos heq]
    refine ⟨h, ?_, fun _ hclean => hclean⟩
    subst heq
    exact .refl w
  rw [if_neg heq]
  change (onReadableState (w.withLower ⟨readable, w.lower.writable⟩)).Sound ∧
    SameCore _ (onReadableState (w.withLower ⟨readable, w.lower.writable⟩)) ∧
    (_ → _ → (onReadableState (w.withLower ⟨readable, w.lower.writable⟩)).Clean)
  generalize hlower : Lower.mk readable w.lower.writable = lower
  have hsync := sync_iff.mp h.sync
  have hwritable : w.lower.writable = lower.writable := by rw [← hlower]
  by_cases htransparent : w.Transparent
  · rw [onReadableState_of_transparent
      (show (w.withLower lower).Transparent from htransparent)]
    obtain ⟨hcore, hread, hwrite, hclean⟩ :=
      setReadable_spec (w.withLower lower).lower.readable (w.withLower lower)
    refine ⟨h.of_lower hcore ?_ ?_, hcore, fun hne hw => hclean hw fun _ => ?_⟩
    · rw [sync_iff, hread, hwrite, hcore.lower_eq, Transparent, hcore.state_eq]
      refine ⟨fun _ => ⟨rfl, ?_⟩, fun hnot => absurd htransparent hnot⟩
      exact (hsync.1 htransparent).2.trans hwritable
    · rw [Stalled, hcore.state_eq, hcore.lower_eq]
      change ¬(w.dtlsState = _ ∧ lower.writable)
      rw [← hwritable]
      exact h.not_stalled
    · exact h.opened_of (htransparent.resolve_left hne)
  · rw [onReadableState_of_not
      (show ¬(w.withLower lower).Transparent from htransparent)]
    refine ⟨h.of_lower (.refl _) ?_ ?_, .refl _, fun _ hw => hw⟩
    · rw [sync_iff]
      exact ⟨fun ht => absurd ht htransparent, hsync.2⟩
    · change ¬(w.dtlsState = _ ∧ lower.writable)
      rw [← hwritable]
      exact h.not_stalled

/-- `MaybeStartDtls` leaves no stalled handshake. -/
theorem maybeStartDtls_eq {started : Bool} (hdtls : w.dtls.isSome) :
    w.maybeStartDtls started = .ok (if w.lower.writable then
      { w with
        dtlsState := if started then .STATE_STARTED else .STATE_CLOSED }
      else w) := by
  obtain ⟨stream, hstream⟩ := Option.isSome_iff_exists.mp hdtls
  unfold maybeStartDtls
  split <;> simp [useDtls, hstream]

theorem Sound.started (h : w.Sound) (hdtls : w.dtls.isSome)
    (hflags : w.readable = false ∧ w.writable = false) {lower : Lower}
    {state : State} (hstate : state = .STATE_STARTED ∨ state = .STATE_CLOSED) :
    Sound { w with lower := lower, dtlsState := state } := by
  have hopaque : state ≠ .STATE_NONE ∧ state ≠ .STATE_OFFERED ∧
      state ≠ .STATE_ACCEPTED ∧ state ≠ .STATE_OPEN := by
    rcases hstate with rfl | rfl <;> simp
  refine ⟨?_, fun hstalled => hopaque.2.2.1 hstalled.1, fun _ => hdtls,
    h.downward_of, fun ho => absurd ho hopaque.2.1,
    fun ho => absurd ho hopaque.2.2.2⟩
  refine (sync_of_not fun ht => ?_).mpr hflags
  rcases ht with ht | ht
  · exact absurd ht hopaque.1
  · exact absurd ht hopaque.2.2.2

/-- A change of the lower channel's `writable()`. -/
theorem Sound.lowerSetWritable (h : w.Sound) (writable started : Bool) :
    ∃ w', w.lowerSetWritable writable started = .ok w' ∧ w'.Sound ∧
      w'.lower = ⟨w.lower.readable, writable⟩ ∧
      w'.localIdentity = w.localIdentity ∧ w'.srtpCiphers = w.srtpCiphers ∧
      (w.dtlsState ≠ .STATE_NONE → w'.dtlsState ≠ .STATE_NONE ∧
        (w.Clean → w'.Clean)) := by
  unfold Wrapper.lowerSetWritable
  by_cases heq : w.lower.writable = writable
  · rw [if_pos heq]
    refine ⟨w, rfl, h, ?_, rfl, rfl, fun hne => ⟨hne, id⟩⟩
    rw [← heq]
  rw [if_neg heq]
  have hsync := sync_iff.mp h.sync
  have hidle : writable → w.writable = false := by
    intro htrue
    by_cases htransparent : w.Transparent
    · rw [(hsync.1 htransparent).2]
      cases hlower : w.lower.writable with
      | false => rfl
      | true => exact absurd (hlower.trans htrue.symm) heq
    · exact (hsync.2 htransparent).2
  let moved := w.withLower ⟨w.lower.readable, writable⟩
  have hready : (if writable then moved.onReadyToSend else moved) = moved := by
    split
    · rename_i htrue
      rw [Wrapper.onReadyToSend, if_neg]
      change ¬w.writable
      simp [hidle htrue]
    · rfl
  change ∃ w', onWritableState started
    (if writable then moved.onReadyToSend else moved) = .ok w' ∧ _
  rw [hready]
  have hstill (hnot : ¬w.Transparent) (hne : w.dtlsState ≠ .STATE_ACCEPTED) :
      moved.Sound := by
    refine h.of_lower (.refl moved) ?_ fun hstalled => hne hstalled.1
    rw [sync_iff]
    exact ⟨fun ht => absurd ht hnot, hsync.2⟩
  have hset (htransparent : w.Transparent) :
      (moved.setWritable writable).Sound ∧
        SameCore moved (moved.setWritable writable) ∧
          (w.dtlsState ≠ .STATE_NONE → w.Clean →
            (moved.setWritable writable).Clean) := by
    obtain ⟨hcore, hwrite, hread, hclean⟩ := setWritable_spec writable moved
    refine ⟨h.of_lower hcore ?_ ?_, hcore, fun hne hw => hclean hw fun _ => ?_⟩
    · rw [sync_iff, hread, hwrite, hcore.lower_eq, Transparent, hcore.state_eq]
      refine ⟨fun _ => ⟨?_, rfl⟩, fun hnot => absurd htransparent hnot⟩
      exact (hsync.1 htransparent).1
    · rintro ⟨hstate, -⟩
      rw [hcore.state_eq] at hstate
      rcases htransparent with ht | ht <;>
        exact absurd (ht.symm.trans hstate) (by simp)
    · exact h.opened_of (htransparent.resolve_left hne)
  unfold onWritableState
  have hmoved : moved.dtlsState = w.dtlsState := rfl
  rw [hmoved]
  cases hstate : w.dtlsState with
  | STATE_NONE =>
    obtain ⟨hsound, hcore, -⟩ := hset (.inl hstate)
    exact ⟨_, rfl, hsound, hcore.lower_eq, hcore.identity_eq,
      hcore.ciphers_eq, fun hne => absurd rfl hne⟩
  | STATE_OPEN =>
    obtain ⟨hsound, hcore, hclean⟩ := hset (.inr hstate)
    refine ⟨_, rfl, hsound, hcore.lower_eq, hcore.identity_eq,
      hcore.ciphers_eq, fun hne => ⟨fun hnone => ?_, hclean (hstate ▸ hne)⟩⟩
    have hopen := hcore.state_eq.symm.trans hnone
    rw [hmoved, hstate] at hopen
    exact hne hopen
  | STATE_ACCEPTED =>
    have hdtls : moved.dtls.isSome := h.live (.inl hstate)
    have hflags := hsync.2 (by simp [Transparent, hstate])
    refine ⟨_, maybeStartDtls_eq hdtls, ?_⟩
    by_cases hwritable : moved.lower.writable
    · rw [if_pos hwritable]
      refine ⟨?_, rfl, rfl, rfl, fun _ => ⟨?_, id⟩⟩
      · refine h.started hdtls hflags ?_
        cases started <;> simp
      · cases started <;> simp
    · rw [if_neg hwritable]
      refine ⟨h.of_lower (.refl moved) ?_ fun hstalled =>
        hwritable hstalled.2, rfl, rfl, rfl, fun hne => ⟨?_, id⟩⟩
      · rw [sync_iff]
        refine ⟨fun ht => ?_, fun _ => hflags⟩
        simp [Transparent, hmoved, hstate] at ht
      · rw [hmoved, hstate]
        exact hne
  | STATE_OFFERED =>
    exact ⟨moved, rfl, hstill (by simp [Transparent, hstate])
      (by simp [hstate]), rfl, rfl, rfl, fun hne =>
        ⟨by rw [hmoved, hstate]; exact hne, id⟩⟩
  | STATE_STARTED =>
    exact ⟨moved, rfl, hstill (by simp [Transparent, hstate])
      (by simp [hstate]), rfl, rfl, rfl, fun hne =>
        ⟨by rw [hmoved, hstate]; exact hne, id⟩⟩
  | STATE_CLOSED =>
    exact ⟨moved, rfl, hstill (by simp [Transparent, hstate])
      (by simp [hstate]), rfl, rfl, rfl, fun hne =>
        ⟨by rw [hmoved, hstate]; exact hne, id⟩⟩

end Wrapper

end WebrtcWinXp.Dtls
