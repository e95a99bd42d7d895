import WebrtcWinXp.Dtls.Sound

/-!
# The methods of the wrapper

Each method keeps a sound wrapper sound.  The methods that can break it, by
an identity, a fingerprint or the end of the handshake, do so exactly when
they are called out of time.
-/

namespace WebrtcWinXp.Dtls

namespace Wrapper

variable {w w' : Wrapper}

/-! ## The methods -/

/-- The wrapper stays sound, and it stays in DTLS and adds only outputs that
are allowed then. -/
structure Kept (w w' : Wrapper) : Prop where
  sound : w'.Sound
  in_dtls : w.dtlsState ≠ .STATE_NONE → w'.dtlsState ≠ .STATE_NONE
  clean : w.dtlsState ≠ .STATE_NONE → w.Clean → w'.Clean

theorem Sound.kept (h : w.Sound) : Kept w w := ⟨h, id, fun _ => id⟩

theorem Sound.kept_of_sameCore (h : w.Sound) (hcore : SameCore w w')
    (hreadable : w'.readable = w.readable)
    (hwritable : w'.writable = w.writable)
    (hclean : w.dtlsState ≠ .STATE_NONE → w.Clean → w'.Clean) : Kept w w' where
  sound := h.sameCore hcore hreadable hwritable
  in_dtls hne := by rwa [hcore.state_eq]
  clean := hclean

theorem Sound.useDtls (h : w.Sound)
    (hstate : w.dtlsState = .STATE_STARTED ∨ w.dtlsState = .STATE_OPEN) :
    ∃ stream, w.useDtls = .ok stream := by
  obtain ⟨stream, hstream⟩ :=
    Option.isSome_iff_exists.mp (h.live (.inr hstate))
  exact ⟨stream, by rw [Wrapper.useDtls, hstream]⟩

theorem Sound.setSrtpCiphers (h : w.Sound) (ciphers : List (List UInt8))
    (hasCipher : Bool) :
    Yields (w.setSrtpCiphers ciphers hasCipher) fun r => Kept w r.2 := by
  unfold Wrapper.setSrtpCiphers
  by_cases hsame : w.srtpCiphers = ciphers
  · rw [if_pos hsame]
    exact h.kept
  rw [if_neg hsame]
  by_cases hstarted : w.dtlsState = .STATE_STARTED
  · rw [if_pos hstarted]
    exact h.kept
  rw [if_neg hstarted]
  by_cases hopen : w.dtlsState = .STATE_OPEN
  · obtain ⟨stream, hstream⟩ := h.useDtls (.inr hopen)
    rw [if_pos hopen, hstream]
    exact h.kept
  rw [if_neg hopen]
  split
  · exact h.kept
  · exact ⟨⟨h.sync, h.not_stalled, h.live, h.downward_of, h.identity_of,
      h.opened_of⟩, id, fun _ hclean => hclean⟩

theorem Sound.getSrtpCipher (h : w.Sound) (hasCipher : Bool) :
    Yields (w.getSrtpCipher hasCipher) fun r => Kept w r.2 := by
  unfold Wrapper.getSrtpCipher
  by_cases hopen : w.dtlsState = .STATE_OPEN
  · obtain ⟨stream, hstream⟩ := h.useDtls (.inr hopen)
    rw [if_neg (not_not.mpr hopen), hstream]
    exact h.kept
  · rw [if_pos hopen]
    exact h.kept

theorem Sound.setSslRole (h : w.Sound) (role : SSLRole) :
    Kept w (w.setSslRole role).2 := by
  unfold Wrapper.setSslRole
  split
  · exact h.kept
  · exact h.kept_of_sameCore ⟨rfl, rfl, rfl, rfl, rfl, rfl⟩ rfl rfl
      fun _ hclean => hclean

theorem Sound.kept_output (h : w.Sound) {o : Output}
    (ho : w.dtlsState ≠ .STATE_NONE → o.Encrypted) :
    Kept w { w with outputs := w.outputs ++ [o] } := by
  refine h.kept_of_sameCore ⟨rfl, rfl, rfl, rfl, rfl, rfl⟩ rfl rfl ?_
  intro hne hclean o' ho'
  rcases List.mem_append.mp ho' with ho' | ho'
  · exact hclean o' ho'
  · rw [List.mem_singleton.mp ho']
    exact ho hne

theorem Sound.sendPacket (h : w.Sound) (data : List UInt8) (bypass : Bool) :
    Yields (w.sendPacket data bypass) (Kept w) := by
  unfold Wrapper.sendPacket
  split
  case h_1 hopen =>
    split
    · rename_i hbypass
      split
      · exact h.kept
      · rename_i hrtp
        refine h.kept_output (o := .sendPacket data bypass w.dtlsState) ?_
        exact fun _ => ⟨hopen, hbypass, not_not.mp hrtp⟩
    · obtain ⟨stream, hstream⟩ := h.useDtls (.inr hopen)
      rw [hstream]
      exact h.kept_output (o := .writeAll data) fun _ => trivial
  case h_2 hnone => exact h.kept_output fun hne => absurd hnone hne
  all_goals exact h.kept

theorem Sound.useDownward (h : w.Sound)
    (hstate : w.dtlsState = .STATE_STARTED ∨ w.dtlsState = .STATE_OPEN) :
    ∃ downward, w.useDownward = .ok downward := by
  obtain ⟨stream, hstream⟩ :=
    Option.isSome_iff_exists.mp (h.live (.inr hstate))
  refine ⟨stream.downward, ?_⟩
  simp [Wrapper.useDownward, hstream, h.downward_of stream hstream]

theorem Sound.handleDtlsPacket (h : w.Sound)
    (hstate : w.dtlsState = .STATE_STARTED ∨ w.dtlsState = .STATE_OPEN)
    (data : List UInt8) : Yields (w.handleDtlsPacket data) (Kept w) := by
  unfold Wrapper.handleDtlsPacket
  obtain ⟨downward, hdownward⟩ := h.useDownward hstate
  split
  · exact h.kept
  · rw [hdownward]
    exact h.kept

theorem Sound.onReadPacket (h : w.Sound) (data : List UInt8) :
    Yields (w.onReadPacket data) (Kept w) := by
  unfold Wrapper.onReadPacket
  cases hstate : w.dtlsState with
  | STATE_NONE => exact h.kept_output fun hne => absurd hstate hne
  | STATE_STARTED =>
    dsimp only
    split
    · exact h.handleDtlsPacket (.inl hstate) data
    · simp only [ne_eq, reduceCtorEq, not_false_eq_true, if_true]
      exact h.kept
  | STATE_OPEN =>
    dsimp only
    split
    · exact h.handleDtlsPacket (.inr hstate) data
    · simp only [ne_eq, not_true_eq_false, if_false]
      split
      · exact h.kept
      · exact h.kept_output fun _ => h.opened_of hstate
  | STATE_OFFERED => exact h.kept
  | STATE_ACCEPTED => exact h.kept
  | STATE_CLOSED => exact h.kept

theorem sound_of_setup {succeeded : Bool}
    (hdtls : succeeded → w.dtls.isSome)
    (hdownward : ∀ stream, w.dtls = some stream →
      w.downward = some stream.downward)
    (hflags : w.readable = false ∧ w.writable = false)
    (hlower : succeeded → ¬w.lower.writable) :
    Sound { w with
      dtlsState := if succeeded then .STATE_ACCEPTED else .STATE_CLOSED } := by
  cases succeeded with
  | false =>
    refine ⟨?_, fun hs => absurd hs.1 (by simp), by simp, hdownward,
      by simp, by simp⟩
    exact (sync_of_not (by simp [Transparent])).mpr hflags
  | true =>
    refine ⟨?_, fun hs => hlower rfl hs.2, fun _ => hdtls rfl, hdownward,
      by simp, by simp⟩
    exact (sync_of_not (by simp [Transparent])).mpr hflags

theorem Sound.flags_of_lower (h : w.Sound)
    (hreadable : w.lower.readable = false)
    (hwritable : w.lower.writable = false) :
    w.readable = false ∧ w.writable = false := by
  by_cases ht : w.Transparent
  · obtain ⟨hread, hwrite⟩ := (sync_of_transparent ht).mp h.sync
    exact ⟨hread.trans hreadable, hwrite.trans hwritable⟩
  · exact (sync_of_not ht).mp h.sync

/-- The wrapper after the lower channel's own `Reset`. -/
theorem Sound.lowerReset (h : w.Sound) :
    ∃ w', (w.lowerSetReadable false).lowerSetWritable false false = .ok w' ∧
      Kept w w' ∧ w'.lower = ⟨false, false⟩ ∧
      w'.localIdentity = w.localIdentity ∧ w'.srtpCiphers = w.srtpCiphers := by
  obtain ⟨hsound, hcore, hclean⟩ := h.lowerSetReadable false
  obtain ⟨w', hw', hsound', hlower, hidentity, hciphers, hdtls⟩ :=
    hsound.lowerSetWritable false false
  refine ⟨w', hw', ⟨hsound', fun hne => ?_, fun hne hw => ?_⟩, ?_,
    hidentity.trans hcore.identity_eq, hciphers.trans hcore.ciphers_eq⟩
  · refine (hdtls ?_).1
    rw [hcore.state_eq]
    exact hne
  · refine (hdtls ?_).2 (hclean hne hw)
    rw [hcore.state_eq]
    exact hne
  · rw [hlower, hcore.lower_eq]
    rfl

theorem setFlags_of_clear (hflags : w.readable = false ∧ w.writable = false) :
    (w.setWritable false).setReadable false = w := by
  rw [setWritable, if_pos hflags.2, setReadable, if_pos hflags.1]

theorem Sound.reset (h : w.Sound) {setup : Setup}
    (hidentity : setup.created → w.localIdentity.isSome) :
    Yields (w.reset setup) (Kept w) := by
  obtain ⟨w₁, hw₁, hkept, hlower, hidentity₁, hciphers₁⟩ := h.lowerReset
  have hflags := hkept.sound.flags_of_lower (by rw [hlower]) (by rw [hlower])
  obtain ⟨w₂, hw₂, hlower₂, hreadable₂, hwritable₂, houtputs₂, -, hdtls,
    hdownward⟩ := setupDtls_spec (w := w₁)
      (show setup.created → _ by rw [hidentity₁]; exact hidentity)
  have hresult : w.reset setup = .ok { w₂ with
      dtlsState := if setup.succeeds w₁.srtpCiphers then .STATE_ACCEPTED
        else .STATE_CLOSED } := by
    rw [Wrapper.reset, hw₁]
    dsimp only
    rw [setFlags_of_clear hflags, hw₂]
    cases setup.succeeds w₁.srtpCiphers <;> rfl
  rw [hresult]
  refine ⟨sound_of_setup hdtls hdownward ?_ ?_, fun _ => ?_,
    fun hne hclean => ?_⟩
  · rw [hreadable₂, hwritable₂]
    exact hflags
  · rw [hlower₂, hlower]
    simp
  · dsimp only
    split <;> simp
  · intro o ho
    rw [show w₂.outputs = w₁.outputs from houtputs₂] at ho
    exact hkept.clean hne hclean o ho

/-! ## Events of the stack -/

def DtlsEvent.Opens (event : DtlsEvent) : Prop := event.seOpen ∧ event.isOpen

instance (event : DtlsEvent) : Decidable event.Opens :=
  inferInstanceAs (Decidable (_ ∧ _))

def opening (w : Wrapper) : Wrapper :=
  (setReadable true { w.openStream with dtlsState := .STATE_OPEN }).setWritable
    true

theorem opened_openStream (hdtls : w.dtls.isSome) :
    opened { w.openStream with dtlsState := .STATE_OPEN } := by
  obtain ⟨stream, hstream⟩ := Option.isSome_iff_exists.mp hdtls
  simp [opened, openStream, hstream]

theorem opening_spec (hdtls : w.dtls.isSome) :
    w.opening.lower = w.lower ∧ w.opening.dtlsState = .STATE_OPEN ∧
      w.opening.readable = true ∧ w.opening.writable = true ∧
      w.opening.dtls.isSome ∧ w.opening.opened ∧
      ((∀ stream, w.dtls = some stream →
        w.downward = some stream.downward) →
        ∀ stream, w.opening.dtls = some stream →
          w.opening.downward = some stream.downward) ∧
      (w.Clean → w.opening.Clean) := by
  have hopened := opened_openStream hdtls
  obtain ⟨hcore, hread, -, hclean⟩ := setReadable_spec true
    { w.openStream with dtlsState := .STATE_OPEN }
  obtain ⟨hcore', hwrite, hread', hclean'⟩ := setWritable_spec true
    (setReadable true { w.openStream with dtlsState := .STATE_OPEN })
  have hboth := hcore.trans hcore'
  have hopening : w.opening.opened := by
    unfold opened opening
    rw [hboth.dtls_eq]
    exact hopened
  refine ⟨hboth.lower_eq, hboth.state_eq, hread'.trans hread, hwrite, ?_,
    hopening, ?_, fun hw => hclean' (hclean hw fun _ => hopened) fun _ => ?_⟩
  · unfold opening
    rw [hboth.dtls_eq]
    simpa [openStream] using hdtls
  · intro hdownward stream hstream
    unfold opening at hstream ⊢
    rw [hboth.dtls_eq] at hstream
    rw [hboth.downward_eq]
    obtain ⟨old, hold, rfl⟩ := Option.map_eq_some_iff.mp hstream
    exact hdownward old hold
  · unfold opened
    rw [hcore.dtls_eq]
    exact hopened

theorem onDtlsOpen_eq (event : DtlsEvent) (hdtls : w.dtls.isSome) :
    w.onDtlsOpen event = .ok (if event.Opens then w.opening else w) := by
  obtain ⟨stream, hstream⟩ := Option.isSome_iff_exists.mp hdtls
  unfold onDtlsOpen
  by_cases hopen : event.seOpen <;> by_cases his : event.isOpen <;>
    simp [useDtls, hstream, opening, DtlsEvent.Opens, hopen, his]

theorem onDtlsRead_eq (event : DtlsEvent) (hdtls : w.dtls.isSome) :
    ∃ w', w.onDtlsRead event = .ok w' ∧ SameCore w w' ∧
      w'.readable = w.readable ∧ w'.writable = w.writable ∧
      ((event.seRead → event.read.isSome → w.opened) → w.Clean → w'.Clean) := by
  obtain ⟨stream, hstream⟩ := Option.isSome_iff_exists.mp hdtls
  unfold onDtlsRead
  by_cases hread : event.seRead
  · rw [if_neg (not_not.mpr hread), useDtls, hstream]
    cases hdata : event.read with
    | none => exact ⟨w, rfl, .refl w, rfl, rfl, fun _ => id⟩
    | some data =>
      exact ⟨_, rfl, sameCore_signal _ w, rfl, rfl,
        fun hopened hclean => hclean.signal (hopened hread rfl) _⟩
  · rw [if_pos hread]
    exact ⟨w, rfl, .refl w, rfl, rfl, fun _ => id⟩

theorem onDtlsClose_spec (event : DtlsEvent) (hclose : event.seClose) :
    let w' := w.onDtlsClose event
    w'.dtlsState = .STATE_CLOSED ∧ w'.readable = false ∧ w'.writable = false ∧
      w'.dtls = w.dtls ∧ w'.downward = w.downward ∧
      ((w.readable ∨ w.writable → w.opened) → w.Clean → w'.Clean) := by
  obtain ⟨hcore, hread, hwrite, hclean⟩ := setReadable_spec false w
  obtain ⟨hcore', hwrite', hread', hclean'⟩ :=
    setWritable_spec false (w.setReadable false)
  have hboth := hcore.trans hcore'
  unfold onDtlsClose
  rw [if_neg (not_not.mpr hclose)]
  refine ⟨rfl, hread'.trans hread, hwrite', hboth.dtls_eq, hboth.downward_eq,
    fun hopened hw => ?_⟩
  refine hclean' (hclean hw fun hne => hopened (.inl ?_)) fun hne => ?_
  · simpa using hne
  · unfold opened
    rw [hcore.dtls_eq]
    refine hopened (.inr ?_)
    rw [hwrite] at hne
    simpa using hne

theorem sound_of_closed (hstate : w.dtlsState = .STATE_CLOSED)
    (hflags : w.readable = false ∧ w.writable = false)
    (hdownward : ∀ stream, w.dtls = some stream →
      w.downward = some stream.downward) : w.Sound := by
  refine ⟨?_, fun hs => ?_, fun hl => ?_, hdownward, fun ho => ?_,
    fun ho => ?_⟩
  · exact (sync_of_not (by simp [Transparent, hstate])).mpr hflags
  · exact absurd (hstate.symm.trans hs.1) (by simp)
  · simp [hstate] at hl
  · simp [hstate] at ho
  · simp [hstate] at ho

/-- What holds of the wrapper before the stack is read from, whether the event
ends the handshake or not. -/
theorem Sound.afterOpen (h : w.Sound) {event : DtlsEvent} {w₁ : Wrapper}
    (hdtls : w.dtls.isSome)
    (hw₁ : w₁ = if event.Opens then w.opening else w) :
    w₁.dtls.isSome ∧
      (∀ stream, w₁.dtls = some stream →
        w₁.downward = some stream.downward) ∧
      (w.dtlsState ≠ .STATE_NONE → w₁.readable ∨ w₁.writable → w₁.opened) ∧
      (w.Clean → w₁.Clean) ∧ (w.opened ∨ event.Opens → w₁.opened) := by
  obtain ⟨-, -, -, -, hstream, hopened, hdownward, hclean⟩ :=
    opening_spec hdtls
  rw [hw₁]
  split
  · exact ⟨hstream, hdownward h.downward_of, fun _ _ => hopened, hclean,
      fun _ => hopened⟩
  · rename_i hnot
    exact ⟨hdtls, h.downward_of, h.opened_of_flag, id,
      fun hor => hor.resolve_right hnot⟩

/-- An event of the stack keeps the wrapper sound, unless it ends the
handshake while the lower channel is not both readable and writable. -/
theorem Sound.onDtlsEvent (h : w.Sound) (event : DtlsEvent)
    (hdtls : w.dtls.isSome)
    (hyields : event.seRead → event.read.isSome → w.opened ∨ event.Opens) :
    ∃ w', w.onDtlsEvent event = .ok w' ∧
      ((Event.onDtlsEvent event).Safe w → Kept w w') ∧
      (¬(Event.onDtlsEvent event).Safe w → ¬w'.Sync) := by
  obtain ⟨hlower, hstate, hread, hwrite, -, hopened, -, -⟩ :=
    opening_spec hdtls
  obtain ⟨w₁, hw₁⟩ : ∃ w₁, w₁ = if event.Opens then w.opening else w :=
    ⟨_, rfl⟩
  obtain ⟨hdtls₁, hdownward₁, hflag₁, hclean₁, hopened₁⟩ :=
    h.afterOpen hdtls hw₁
  have hyields₁ : event.seRead → event.read.isSome → w₁.opened :=
    fun hseRead hsome => hopened₁ (hyields hseRead hsome)
  obtain ⟨w₂, hw₂, hcore, hread₂, hwrite₂, hclean₂⟩ :=
    onDtlsRead_eq event hdtls₁
  have hclean' (hw : w.Clean) : w₂.Clean := hclean₂ hyields₁ (hclean₁ hw)
  refine ⟨w₂.onDtlsClose event, ?_, ?_⟩
  · rw [Wrapper.onDtlsEvent, onDtlsOpen_eq event hdtls]
    dsimp only
    rw [← hw₁, hw₂]
  by_cases hclose : event.seClose
  · obtain ⟨hstate', hread', hwrite', hdtls', hdownward', hclosed⟩ :=
      onDtlsClose_spec event hclose (w := w₂)
    refine ⟨fun _ => ⟨?_, fun _ => by rw [hstate']; simp, fun hne hw => ?_⟩,
      fun hnot => absurd (fun _ _ hn => absurd hclose hn) hnot⟩
    · refine sound_of_closed hstate' ⟨hread', hwrite'⟩ ?_
      rw [hdtls', hdownward', hcore.dtls_eq, hcore.downward_eq]
      exact hdownward₁
    · refine hclosed ?_ (hclean' hw)
      rw [hread₂, hwrite₂]
      unfold opened
      rw [hcore.dtls_eq]
      exact hflag₁ hne
  have hend : w₂.onDtlsClose event = w₂ := by
    rw [onDtlsClose, if_pos hclose]
  rw [hend]
  by_cases hopens : event.Opens
  swap
  · rw [if_neg hopens] at hw₁
    rw [hw₁] at hcore hread₂ hwrite₂
    exact ⟨fun _ => h.kept_of_sameCore hcore hread₂ hwrite₂ fun _ => hclean',
      fun hnot => absurd (fun ho his _ => absurd ⟨ho, his⟩ hopens) hnot⟩
  rw [if_pos hopens] at hw₁
  rw [hw₁] at hcore hread₂ hwrite₂ hdtls₁ hdownward₁
  rw [hread] at hread₂
  rw [hwrite] at hwrite₂
  have hopen : w₂.dtlsState = .STATE_OPEN := hcore.state_eq.trans hstate
  have hlower₂ : w₂.lower = w.lower := hcore.lower_eq.trans hlower
  have hsync : w₂.Sync ↔ w.lower.readable ∧ w.lower.writable := by
    rw [sync_of_transparent (.inr hopen), hread₂, hwrite₂, hlower₂]
    exact ⟨fun hs => ⟨hs.1.symm, hs.2.symm⟩, fun hs => ⟨hs.1.symm, hs.2.symm⟩⟩
  have hsafe : (Event.onDtlsEvent event).Safe w ↔
      w.lower.readable ∧ w.lower.writable :=
    ⟨fun hs => hs hopens.1 hopens.2 hclose, fun hb _ _ _ => hb⟩
  rw [hsafe, ← hsync]
  refine ⟨fun hs => ⟨⟨hs, fun hst => ?_, fun _ => ?_, ?_, fun ho => ?_,
    fun _ => ?_⟩, fun _ => by rw [hopen]; simp, fun _ => hclean'⟩, id⟩
  · exact absurd (hopen.symm.trans hst.1) (by simp)
  · rw [hcore.dtls_eq]
    exact hdtls₁
  · rw [hcore.dtls_eq, hcore.downward_eq]
    exact hdownward₁
  · exact absurd (hopen.symm.trans ho) (by simp)
  · unfold opened
    rw [hcore.dtls_eq]
    exact hopened

/-! ## Identities and fingerprints -/

theorem Sound.setLocalIdentity (h : w.Sound) (identity : Option ℕ) :
    let w' := (w.setLocalIdentity identity).2
    w'.outputs = w.outputs ∧
      ((Event.setLocalIdentity identity).Safe w → w'.Sound) ∧
      (¬(Event.setLocalIdentity identity).Safe w → ¬w'.Sync) ∧
      (w.dtlsState ≠ .STATE_NONE ∨ identity.isSome →
        w'.dtlsState ≠ .STATE_NONE) := by
  unfold Wrapper.setLocalIdentity
  by_cases hnone : w.dtlsState = .STATE_NONE
  swap
  · rw [if_pos hnone]
    exact ⟨rfl, fun _ => h, fun hnot => absurd (fun _ hn => absurd hn hnone)
      hnot, fun _ => hnone⟩
  rw [if_neg (not_not.mpr hnone)]
  cases identity with
  | none =>
    exact ⟨rfl, fun _ => h, fun hnot => absurd nofun hnot,
      fun hor => absurd hnone (hor.resolve_right (by simp))⟩
  | some identity =>
    have hflags := (sync_of_transparent (.inl hnone)).mp h.sync
    let w' : Wrapper := { w with
      localIdentity := some identity
      dtlsState := .STATE_OFFERED }
    have hsync : w'.Sync ↔ ¬w.lower.readable ∧ ¬w.lower.writable := by
      rw [sync_of_not (by simp [w', Transparent])]
      change w.readable = false ∧ w.writable = false ↔ _
      rw [hflags.1, hflags.2, Bool.not_eq_true, Bool.not_eq_true]
    have hsafe : (Event.setLocalIdentity (some identity)).Safe w ↔
        ¬w.lower.readable ∧ ¬w.lower.writable :=
      ⟨fun hs => hs rfl hnone, fun hb _ _ => hb⟩
    rw [hsafe, ← hsync]
    refine ⟨rfl, fun hs => ⟨hs, fun hst => ?_, fun hl => ?_, h.downward_of,
      fun _ => rfl, fun ho => ?_⟩, id, fun _ => by simp⟩
    · exact absurd hst.1 (by simp)
    · simp at hl
    · simp at ho

theorem Sound.unoffered (h : w.Sound)
    (hoffered : w.dtlsState = .STATE_OFFERED) :
    let w' := { w with dtlsState := .STATE_NONE }
    (w'.Sync ↔ ¬w.lower.readable ∧ ¬w.lower.writable) ∧
      (w'.Sync → w'.Sound) := by
  have hflags := (sync_of_not (by simp [Transparent, hoffered])).mp h.sync
  refine ⟨?_, fun hs => ⟨hs, fun hst => ?_, fun hl => ?_, h.downward_of,
    fun ho => ?_, fun ho => ?_⟩⟩
  · rw [sync_of_transparent (.inl rfl)]
    change w.readable = w.lower.readable ∧ w.writable = w.lower.writable ↔ _
    rw [hflags.1, hflags.2, Bool.not_eq_true, Bool.not_eq_true]
    exact ⟨fun hs => ⟨hs.1.symm, hs.2.symm⟩, fun hs => ⟨hs.1.symm, hs.2.symm⟩⟩
  · exact absurd hst.1 (by simp)
  · simp at hl
  · simp at ho
  · simp at ho

theorem Sound.setRemoteFingerprint (h : w.Sound) (digestAlg digest : List UInt8)
    (setup : Setup) :
    ∃ result w', w.setRemoteFingerprint digestAlg digest setup =
        .ok (result, w') ∧ w'.outputs = w.outputs ∧
      ((Event.setRemoteFingerprint digestAlg digest setup).Safe w →
        w'.Sound) ∧
      (¬(Event.setRemoteFingerprint digestAlg digest setup).Safe w →
        ¬(w'.Sync ∧ ¬w'.Stalled)) ∧
      (digestAlg ≠ [] ∨ result = false → w.dtlsState ≠ .STATE_NONE →
        w'.dtlsState ≠ .STATE_NONE) := by
  unfold Wrapper.setRemoteFingerprint
  by_cases hoffered : w.dtlsState = .STATE_OFFERED
  swap
  · have hsafe : (Event.setRemoteFingerprint digestAlg digest setup).Safe w :=
      fun ho => absurd ho hoffered
    split
    · exact ⟨_, w, rfl, rfl, fun _ => h, fun hnot => absurd hsafe hnot,
        fun _ => id⟩
    split
    · exact ⟨_, w, rfl, rfl, fun _ => h, fun hnot => absurd hsafe hnot,
        fun _ => id⟩
    rename_i hsame hrefused
    have hnone : w.dtlsState = .STATE_NONE := by
      cases hstate : w.dtlsState <;> simp_all [State.index]
    have halg : digestAlg = [] := by
      by_contra halg
      exact hrefused (.inr ⟨hnone, halg⟩)
    rw [if_pos halg]
    have hcore : SameCore w { w with dtlsState := .STATE_NONE } :=
      ⟨rfl, rfl, rfl, hnone.symm, rfl, rfl⟩
    exact ⟨_, _, rfl, rfl, fun _ => h.sameCore hcore rfl rfl,
      fun hnot => absurd hsafe hnot, fun _ hne => absurd hnone hne⟩
  have hflags := (sync_of_not (by simp [Transparent, hoffered])).mp h.sync
  have hgo : ¬(w.dtlsState.index > State.STATE_OFFERED.index ∨
      w.dtlsState = .STATE_NONE ∧ digestAlg ≠ []) := by
    simp [hoffered]
  by_cases halg : digestAlg = []
  · rw [if_neg (by simp [halg]), if_neg hgo, if_pos halg]
    obtain ⟨hsync, hsound⟩ := h.unoffered hoffered
    have hsafe : (Event.setRemoteFingerprint digestAlg digest setup).Safe w ↔
        ¬w.lower.readable ∧ ¬w.lower.writable := by
      simp only [Event.Safe, if_pos halg]
      exact ⟨fun hs => hs hoffered, fun hb _ => hb⟩
    rw [hsafe, ← hsync]
    refine ⟨_, _, rfl, rfl, hsound, fun hnot hs => hnot hs.1, fun hor => ?_⟩
    exact absurd halg (hor.resolve_right (by simp))
  · by_cases hsame : w.remoteFingerprintValue = digest
    · rw [if_pos ⟨by simp [hoffered], hsame, halg⟩]
      have hsafe :
          (Event.setRemoteFingerprint digestAlg digest setup).Safe w := by
        intro _
        rw [if_neg halg]
        exact fun hne => absurd hsame hne
      exact ⟨_, w, rfl, rfl, fun _ => h, fun hnot => absurd hsafe hnot,
        fun _ => id⟩
    rw [if_neg (fun hall => hsame hall.2.1), if_neg hgo, if_neg halg]
    let w₁ : Wrapper := { w with
      remoteFingerprintValue := digest
      remoteFingerprintAlgorithm := digestAlg }
    obtain ⟨w₂, hw₂, hlower, hread, hwrite, houtputs, -, hdtls, hdownward⟩ :=
      setupDtls_spec (w := w₁)
        (show setup.created → _ from fun _ => h.identity_of hoffered)
    refine ⟨setup.succeeds w.srtpCiphers, { w₂ with
      dtlsState := if setup.succeeds w.srtpCiphers then .STATE_ACCEPTED
        else .STATE_CLOSED }, ?_, houtputs, ?_, ?_, fun _ _ => ?_⟩
    · dsimp only
      rw [show w₁.setupDtls setup = _ from hw₂]
      change _ = Except.ok (setup.succeeds w₁.srtpCiphers, _)
      cases setup.succeeds w₁.srtpCiphers <;> rfl
    · intro hs
      have hsafe := hs hoffered
      rw [if_neg halg] at hsafe
      refine sound_of_setup hdtls hdownward ?_ ?_
      · rw [hread, hwrite]
        exact hflags
      · rw [hlower]
        exact hsafe hsame
    · intro hnot hgate
      refine hnot fun _ => ?_
      rw [if_neg halg]
      intro _ hsucceeds hwritable
      refine hgate.2 ⟨if_pos hsucceeds, ?_⟩
      change w₂.lower.writable
      rw [hlower]
      exact hwritable
    · dsimp only
      split <;> simp

end Wrapper

end WebrtcWinXp.Dtls
