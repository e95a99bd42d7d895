import WebrtcWinXp.Dtls.Methods

/-!
# The DTLS gate

The wrapper shows the state of the lower channel when it does not do DTLS or
when its handshake is done, and is neither readable nor writable otherwise; a
handshake that can start does; no application data passes it unencrypted; and
nothing that is missing is used.
-/

namespace WebrtcWinXp.Dtls

open Support Wrapper

theorem Yields.mono {α : Type} {r : Except Part α} {P Q : α → Prop}
    (h : Yields r P) (hle : ∀ a, P a → Q a) : Yields r Q := by
  cases r with
  | ok a => exact hle a h
  | error part => exact h

theorem yields_map {α β : Type} {r : Except Part α} {f : α → β}
    {P : β → Prop} : Yields (r.map f) P ↔ Yields r fun a => P (f a) := by
  cases r <;> rfl

/-- What a session keeps between events that keep the gate. -/
structure Session.Sound (s : Session) : Prop where
  sound : s.wrapper.Sound
  in_dtls : s.offered → s.wrapper.dtlsState ≠ .STATE_NONE

variable {s : Session} {e : Event}

theorem Session.Sound.cleared (h : s.Sound) : s.cleared.Sound :=
  h.sound.sameCore ⟨rfl, rfl, rfl, rfl, rfl, rfl⟩ rfl rfl

theorem clean_cleared (s : Session) : s.cleared.Clean := by
  intro o ho
  cases ho

/-- What a session keeps in an event, and what the event shows. -/
def Keeps (s : Session) (e : Event) (r : Bool × Wrapper) : Prop :=
  Guarded s.offered r.2 ∧ Session.Sound ⟨r.2, e.offers s.offered r.1⟩

theorem Session.Sound.keeps (h : s.Sound) {result : Bool} {w : Wrapper}
    (hkept : Kept s.cleared w)
    (hoffers : e.offers s.offered result = s.offered) :
    Keeps s e (result, w) := by
  refine ⟨⟨hkept.sound.sync, hkept.sound.not_stalled, fun hoffered => ?_⟩,
    hkept.sound, fun hoffered => ?_⟩
  · exact hkept.clean (h.in_dtls hoffered) (clean_cleared s)
  · rw [hoffers] at hoffered
    exact hkept.in_dtls (h.in_dtls hoffered)

theorem Session.Sound.yields (h : s.Sound) (henabled : e.Enabled s.wrapper)
    (hsafe : e.Safe s.wrapper) : Yields (e.apply s.cleared) (Keeps s e) := by
  have hcleared := h.cleared
  cases e with
  | setLocalIdentity identity =>
    obtain ⟨houtputs, hsound, -, hstate⟩ := hcleared.setLocalIdentity identity
    refine ⟨⟨(hsound hsafe).sync, (hsound hsafe).not_stalled,
      fun _ o ho => ?_⟩, hsound hsafe, fun hoffered => hstate ?_⟩
    · rw [show (s.cleared.setLocalIdentity identity).2.outputs = [] from
        houtputs] at ho
      cases ho
    · cases identity with
      | none => exact .inl (h.in_dtls hoffered)
      | some identity => exact .inr rfl
  | setRemoteFingerprint digestAlg digest setup =>
    obtain ⟨result, w', hw', houtputs, hsound, -, hstate⟩ :=
      hcleared.setRemoteFingerprint digestAlg digest setup
    change Yields (s.cleared.setRemoteFingerprint digestAlg digest setup) _
    rw [hw']
    refine ⟨⟨(hsound hsafe).sync, (hsound hsafe).not_stalled,
      fun _ o ho => ?_⟩, hsound hsafe, fun hoffered => ?_⟩
    · rw [show w'.outputs = [] from houtputs] at ho
      cases ho
    · cases digestAlg with
      | nil =>
        simp only [Event.offers, Bool.and_eq_true, Bool.not_eq_true']
          at hoffered
        exact hstate (.inr hoffered.2) (h.in_dtls hoffered.1)
      | cons first rest =>
        exact hstate (.inl (by simp)) (h.in_dtls hoffered)
  | setSslRole role => exact h.keeps (hcleared.setSslRole role) rfl
  | setSrtpCiphers ciphers hasCipher =>
    exact (hcleared.setSrtpCiphers ciphers hasCipher).mono
      fun r hr => h.keeps hr rfl
  | getSrtpCipher hasCipher =>
    exact (hcleared.getSrtpCipher hasCipher).mono fun r hr => h.keeps hr rfl
  | connect => exact h.keeps hcleared.kept rfl
  | reset setup =>
    refine yields_map.mpr ((hcleared.reset hsafe).mono fun w hw => ?_)
    exact h.keeps hw rfl
  | sendPacket data bypass =>
    refine yields_map.mpr ((hcleared.sendPacket data bypass).mono
      fun w hw => ?_)
    exact h.keeps hw rfl
  | lowerSetReadable readable =>
    obtain ⟨hsound, hcore, hclean⟩ := hcleared.lowerSetReadable readable
    refine h.keeps ⟨hsound, fun hne => ?_, hclean⟩ rfl
    rw [hcore.state_eq]
    exact hne
  | lowerSetWritable writable started =>
    obtain ⟨w', hw', hsound, -, -, -, hdtls⟩ :=
      hcleared.lowerSetWritable writable started
    refine yields_map.mpr ?_
    rw [hw']
    exact h.keeps ⟨hsound, fun hne => (hdtls hne).1,
      fun hne => (hdtls hne).2⟩ rfl
  | lowerReadyToSend =>
    obtain ⟨hsound, hcore, hclean⟩ := hcleared.onReadyToSend
    refine h.keeps ⟨hsound, fun hne => ?_, hclean⟩ rfl
    rw [hcore.state_eq]
    exact hne
  | onReadPacket data =>
    refine yields_map.mpr ((hcleared.onReadPacket data).mono fun w hw => ?_)
    exact h.keeps hw rfl
  | onDtlsEvent event =>
    obtain ⟨w', hw', hkept, -⟩ :=
      hcleared.onDtlsEvent event henabled.1 henabled.2
    refine yields_map.mpr ?_
    rw [hw']
    exact h.keeps (hkept hsafe) rfl

theorem Session.Sound.not_gate (h : s.Sound) (henabled : e.Enabled s.wrapper)
    (hlate : ¬e.Safe s.wrapper) : ¬Gate s e := by
  have hcleared := h.cleared
  cases e with
  | setLocalIdentity identity =>
    obtain ⟨-, -, hsync, -⟩ := hcleared.setLocalIdentity identity
    exact fun hgate => hsync hlate hgate.sync
  | setRemoteFingerprint digestAlg digest setup =>
    obtain ⟨result, w', hw', -, -, hbroken, -⟩ :=
      hcleared.setRemoteFingerprint digestAlg digest setup
    change ¬Yields (s.cleared.setRemoteFingerprint digestAlg digest setup) _
    rw [hw']
    exact fun hgate => hbroken hlate ⟨hgate.sync, hgate.not_stalled⟩
  | reset setup =>
    have hcreated : setup.created := by
      by_contra hnot
      exact hlate fun hc => absurd hc hnot
    have hnone : s.cleared.localIdentity = none := by
      by_contra hsome
      exact hlate fun _ => Option.isSome_iff_ne_none.mpr hsome
    obtain ⟨w', hw', hkept, hlower, hidentity, -⟩ := hcleared.lowerReset
    have hflags :=
      hkept.sound.flags_of_lower (by rw [hlower]) (by rw [hlower])
    have hreset : s.cleared.reset setup = .error .identity := by
      rw [Wrapper.reset, hw']
      dsimp only
      rw [setFlags_of_clear hflags,
        setupDtls_missing hcreated (hidentity.trans hnone)]
    change ¬Yields ((s.cleared.reset setup).map _) _
    rw [hreset]
    exact id
  | onDtlsEvent event =>
    obtain ⟨w', hw', -, hsync⟩ :=
      hcleared.onDtlsEvent event henabled.1 henabled.2
    change ¬Yields ((s.cleared.onDtlsEvent event).map _) _
    rw [hw']
    exact fun hgate => hsync hlate hgate.sync
  | _ => exact absurd trivial hlate

theorem Session.Sound.step (h : s.Sound) (hsafe : e.Safe s.wrapper)
    {t : Session} (hstep : s.step e = some t) : t.Sound := by
  unfold Session.step at hstep
  split at hstep
  · cases hstep
  rename_i henabled
  have hyields := h.yields (not_not.mp henabled) hsafe
  cases happly : e.apply s.cleared with
  | error part =>
    rw [happly] at hstep
    cases hstep
  | ok r =>
    rw [happly] at hstep hyields
    obtain rfl := Option.some.inj hstep
    exact hyields.2

theorem Session.sound_initial (h : s.Initial) : s.Sound := by
  subst h
  refine ⟨⟨by decide, by decide, ?_, nofun, nofun, nofun⟩, nofun⟩
  rintro (ho | ho | ho) <;> cases ho

/-- After any run of safe events, an event keeps the gate exactly when it is
safe. -/
theorem gate_iff_safe
    (h : ReachableVia Session.Initial Session.step
      (fun s e => e.Safe s.wrapper) s) (henabled : e.Enabled s.wrapper) :
    Gate s e ↔ e.Safe s.wrapper := by
  have hsound : s.Sound :=
    h.invariant (fun s hs => Session.sound_initial hs)
      fun s e t hs hok hstep => hs.step hok hstep
  constructor
  · intro hgate
    by_contra hlate
    exact hsound.not_gate henabled hlate hgate
  · intro hsafe
    exact (hsound.yields henabled hsafe).mono fun r hr => hr.1

instance (w : Wrapper) (e : Event) : Decidable (e.Safe w) :=
  match e with
  | .setLocalIdentity _ => inferInstanceAs (Decidable (_ → _ → ¬_ ∧ ¬_))
  | .setRemoteFingerprint digestAlg _ _ =>
    inferInstanceAs (Decidable (_ → if digestAlg = [] then ¬_ ∧ ¬_
      else _ ≠ _ → _ → ¬_))
  | .reset _ => inferInstanceAs (Decidable (_ → _))
  | .onDtlsEvent _ => inferInstanceAs (Decidable (_ → _ → ¬_ → _ ∧ _))
  | .setSslRole _ | .setSrtpCiphers _ _ | .getSrtpCipher _ | .connect
  | .sendPacket _ _ | .lowerSetReadable _ | .lowerSetWritable _ _
  | .lowerReadyToSend | .onReadPacket _ => inferInstanceAs (Decidable True)

def allSet : Setup := ⟨true, true, true⟩

def handshakeDone : DtlsEvent := ⟨true, false, false, true, none⟩

/-- Both sides support DTLS, and the lower channel is ready afterwards. -/
def handshake : List Event :=
  [.setLocalIdentity (some 0), .setRemoteFingerprint [1] [2] allSet,
    .lowerSetReadable true, .lowerSetWritable true true,
    .onDtlsEvent handshakeDone]

def handshaken : Session :=
  (execute Session.step ⟨.new, false⟩ handshake).getD ⟨.new, false⟩

theorem gate_handshaken : Gate handshaken (.sendPacket [1, 2, 3] false) := by
  obtain ⟨s, hs⟩ : ∃ s, execute Session.step ⟨.new, false⟩ handshake = some s :=
    ⟨_, rfl⟩
  have hallowed : Allowed Session.step (fun s e => e.Safe s.wrapper)
      ⟨.new, false⟩ handshake := by decide
  have hreach := ReachableVia.execute_of_allowed
    (.init (show Session.Initial ⟨.new, false⟩ from rfl)) hs hallowed
  have hend : handshaken = s := by
    rw [handshaken, hs, Option.getD_some]
  rw [hend]
  exact (gate_iff_safe (e := .sendPacket [1, 2, 3] false) hreach
    trivial).mpr trivial

/-- The lower channel is ready before the peer's fingerprint arrives, before
the peer is said not to support DTLS, or before an identity is set; the
handshake ends while the lower channel is not readable; and a channel without
an identity is reset. -/
def failures : List (List Event × Event) :=
  [([.setLocalIdentity (some 0), .lowerSetReadable true,
      .lowerSetWritable true true], .setRemoteFingerprint [1] [2] allSet),
    ([.setLocalIdentity (some 0), .lowerSetReadable true,
      .lowerSetWritable true true], .setRemoteFingerprint [] [] allSet),
    ([.lowerSetReadable true], .setLocalIdentity (some 0)),
    ([.setLocalIdentity (some 0), .setRemoteFingerprint [1] [2] allSet,
      .lowerSetWritable true true], .onDtlsEvent handshakeDone),
    ([.connect], .reset allSet)]

def Breaks (failure : List Event × Event) : Prop :=
  ∃ s, execute Session.step ⟨.new, false⟩ failure.1 = some s ∧
    failure.2.Enabled s.wrapper ∧ ¬Gate s failure.2

theorem not_gate_failures : failures.Forall Breaks := by
  refine ⟨⟨_, rfl, ?_⟩, ⟨_, rfl, ?_⟩, ⟨_, rfl, ?_⟩, ⟨_, rfl, ?_⟩,
    ⟨_, rfl, ?_⟩⟩ <;> decide

end WebrtcWinXp.Dtls
