import WebrtcWinXp.MediaSession.Bundle

/-!
# When bundled contents share their cryptos

`UpdateCryptoParamsForBundle` should give the RTP contents of a group the
cryptos that all of them can use, and fail when there are none although they
are needed.  Its loop starts the common cryptos only if the first name of the
group is one of an RTP content.
-/

namespace WebrtcWinXp.MediaSession

open Support

section

variable (sdesc : SessionDescription) (names : List Str)

instance decidableIsCommon (crypto : CryptoParams) :
    Decidable (IsCommon sdesc names crypto) :=
  inferInstanceAs (Decidable (∀ name ∈ names, _ → _))

/-- The cryptos of the first RTP content whose cipher suites occur in every RTP
content. -/
def cryptosInCommon : List CryptoParams :=
  match names.find? (isRtpContent sdesc) with
  | some first => (cryptosByName sdesc first).filter
      fun crypto => IsCommon sdesc names crypto
  | none => []

def HasTransports : Prop :=
  ∀ name ∈ names, isRtpContent sdesc name →
    (sdesc.getTransportDescription name).isSome

/-- Some RTP content has a transport without DTLS. -/
def Insecure : Prop :=
  ∃ name ∈ names, isRtpContent sdesc name ∧
    ∃ transport ∈ sdesc.getTransportDescription name,
      transport.secure = false

def Offered : Prop :=
  ∃ name ∈ names, cryptosByName sdesc name ≠ []

instance decidableHasTransports : Decidable (HasTransports sdesc names) :=
  inferInstanceAs (Decidable (∀ name ∈ names, _ → _))

instance decidableInsecure : Decidable (Insecure sdesc names) :=
  inferInstanceAs (Decidable (∃ name ∈ names, _))

def HaveCryptos (cryptos : List CryptoParams) (after : SessionDescription) :
    Prop :=
  ∀ name ∈ names, isRtpContent sdesc name →
    cryptosByName after name = cryptos

/-- The loop does what it should.  The first name is that of an RTP content with
cryptos, or has none like all the other RTP contents and nothing depends on
cryptos; or it is not that of an RTP content, where the contents have no
cryptos in common and are secured unless some cryptos were offered. -/
def StartsWell : List Str → Prop
  | [] => False
  | first :: rest =>
    if isRtpContent sdesc first then
      cryptosByName sdesc first ≠ [] ∨
        HaveCryptos sdesc (first :: rest) [] sdesc ∧
          ¬(Insecure sdesc (first :: rest) ∧ Offered sdesc (first :: rest))
    else
      cryptosInCommon sdesc (first :: rest) = [] ∧
        (Insecure sdesc (first :: rest) → Offered sdesc (first :: rest))

end

/-- What `UpdateCryptoParamsForBundle` is there for. -/
@[mk_iff] structure SharesCryptos (group : ContentGroup)
    (sdesc : SessionDescription) (r : SessionDescription × Bool) : Prop where
  shared : r = (sdesc, false) ∨
    HaveCryptos sdesc group.contentNames
      (cryptosInCommon sdesc group.contentNames) r.1
  failed_iff : r.2 = false ↔ Insecure sdesc group.contentNames ∧
    Offered sdesc group.contentNames ∧
    cryptosInCommon sdesc group.contentNames = []

/-! ## The loop -/

section

variable {sdesc : SessionDescription} {names : List Str} {name : Str}
  {s : CommonCryptos} {cryptos : List CryptoParams}

@[simp] theorem isCommon_cons {crypto : CryptoParams} :
    IsCommon sdesc (name :: names) crypto ↔
      (isRtpContent sdesc name → ∃ it ∈ cryptosByName sdesc name,
        it.cipherSuite = crypto.cipherSuite) ∧
      IsCommon sdesc names crypto := by
  simp [IsCommon]

theorem decide_isCommon_cons {crypto : CryptoParams}
    (hrtp : isRtpContent sdesc name) :
    decide (IsCommon sdesc (name :: names) crypto) =
      (decide (IsCommon sdesc names crypto) &&
        (cryptosByName sdesc name).any
          fun it => it.cipherSuite = crypto.cipherSuite) := by
  rw [Bool.eq_iff_iff]
  simp [hrtp, and_comm]

theorem cryptosInCommon_of_rtp (hrtp : isRtpContent sdesc name) :
    cryptosInCommon sdesc (name :: names) =
      (cryptosByName sdesc name).filter
        fun crypto => IsCommon sdesc names crypto := by
  rw [cryptosInCommon, List.find?_cons_of_pos hrtp]
  refine List.filter_congr fun crypto hcrypto => ?_
  rw [Bool.eq_iff_iff]
  simp only [isCommon_cons, decide_eq_true_eq, and_iff_right_iff_imp]
  exact fun _ _ => ⟨crypto, hcrypto, rfl⟩

theorem hasTransports_cons :
    HasTransports sdesc (name :: names) ↔
      (isRtpContent sdesc name →
        (sdesc.getTransportDescription name).isSome) ∧
      HasTransports sdesc names := by
  simp [HasTransports]

theorem insecure_cons :
    Insecure sdesc (name :: names) ↔
      (isRtpContent sdesc name ∧
        ∃ transport ∈ sdesc.getTransportDescription name,
          transport.secure = false) ∨
      Insecure sdesc names := by
  simp [Insecure]

theorem getContentByName_of_isRtpContent (h : isRtpContent sdesc name) :
    ∃ content, sdesc.getContentByName name = some content ∧
      content.description.cryptos = cryptosByName sdesc name := by
  obtain ⟨content, hcontent, -⟩ := isRtpContent_iff.mp h
  refine ⟨content, hcontent, ?_⟩
  rw [cryptosByName, hcontent]
  rfl

theorem commonCryptos_cons (isBegin : Bool) :
    commonCryptos sdesc isBegin s (name :: names) =
      if isRtpContent sdesc name then
        match sdesc.getTransportDescription name,
            sdesc.getContentByName name with
        | some transport, some content =>
          if isBegin then
            if content.description.cryptos.isEmpty then .error true
            else commonCryptos sdesc false
              ⟨s.needed || !transport.secure,
                content.description.cryptos⟩ names
          else commonCryptos sdesc false
            ⟨s.needed || !transport.secure,
              pruneCryptos content.description.cryptos s.cryptos⟩ names
        | _, _ => .error false
      else commonCryptos sdesc false s names := rfl

theorem commonCryptos_of_rtp (s : CommonCryptos) (names : List Str)
    (hrtp : isRtpContent sdesc name)
    (htransport : (sdesc.getTransportDescription name).isSome)
    (isBegin : Bool) :
    ∃ needed, (needed = true ↔ s.needed = true ∨
        ∃ transport ∈ sdesc.getTransportDescription name,
          transport.secure = false) ∧
      commonCryptos sdesc isBegin s (name :: names) =
        if isBegin then
          if (cryptosByName sdesc name).isEmpty then .error true
          else commonCryptos sdesc false ⟨needed, cryptosByName sdesc name⟩
            names
        else commonCryptos sdesc false
          ⟨needed, pruneCryptos (cryptosByName sdesc name) s.cryptos⟩
          names := by
  obtain ⟨content, hcontent, hcryptos⟩ :=
    getContentByName_of_isRtpContent hrtp
  obtain ⟨transport, htransport⟩ := Option.isSome_iff_exists.mp htransport
  refine ⟨s.needed || !transport.secure, by simp [htransport], ?_⟩
  rw [commonCryptos_cons, if_pos hrtp, htransport, hcontent, ← hcryptos]

theorem commonCryptos_false_eq (htransports : HasTransports sdesc names) :
    ∃ needed, (needed = true ↔ s.needed = true ∨ Insecure sdesc names) ∧
      commonCryptos sdesc false s names =
        .ok ⟨needed, s.cryptos.filter
          fun crypto => IsCommon sdesc names crypto⟩ := by
  induction names generalizing s with
  | nil =>
    refine ⟨s.needed, by simp [Insecure], ?_⟩
    simp [commonCryptos, IsCommon]
  | cons name names ih =>
    obtain ⟨hfirst, hrest⟩ := hasTransports_cons.mp htransports
    by_cases hrtp : isRtpContent sdesc name
    · obtain ⟨needed, hneeded, hstep⟩ :=
        commonCryptos_of_rtp s names hrtp (hfirst hrtp) false
      rw [if_neg Bool.false_ne_true] at hstep
      obtain ⟨needed', hneeded', hloop⟩ := ih (s := ⟨needed,
        pruneCryptos (cryptosByName sdesc name) s.cryptos⟩) hrest
      refine ⟨needed', ?_, ?_⟩
      · rw [hneeded', hneeded, insecure_cons, and_iff_right hrtp, or_assoc]
      · rw [hstep, hloop, pruneCryptos, List.filter_filter]
        congr 3
        funext crypto
        rw [decide_isCommon_cons hrtp]
    · obtain ⟨needed, hneeded, hloop⟩ := ih (s := s) hrest
      refine ⟨needed, ?_, ?_⟩
      · have hrest : Insecure sdesc (name :: names) ↔
            Insecure sdesc names := by
          rw [insecure_cons]
          exact or_iff_right fun h => hrtp h.1
        rw [hneeded, hrest]
      · rw [commonCryptos_cons, if_neg hrtp, hloop]
        simp [hrtp]

theorem haveCryptos_foldl_setCommonCryptos :
    HaveCryptos sdesc names cryptos
      (names.foldl (setCommonCryptos cryptos) sdesc) := by
  intro name hname hrtp
  obtain ⟨content, hcontent, hprotocol⟩ := isRtpContent_iff.mp hrtp
  have hset :
      (names.foldl (setCommonCryptos cryptos) sdesc).getContentByName name =
        some (content.withCryptos cryptos) :=
    getContentByName_foldl_setCommonCryptos hname hcontent hprotocol
  rw [cryptosByName, hset]
  exact ContentDescription.cryptos_setCryptos _ _

theorem commonCryptos_true_eq
    (htransports : HasTransports sdesc (name :: names))
    (hstart : isRtpContent sdesc name → cryptosByName sdesc name ≠ []) :
    ∃ needed, (needed = true ↔ Insecure sdesc (name :: names)) ∧
      commonCryptos sdesc true ⟨false, []⟩ (name :: names) =
        .ok ⟨needed, if isRtpContent sdesc name then
          cryptosInCommon sdesc (name :: names) else []⟩ := by
  obtain ⟨hfirst, hrest⟩ := hasTransports_cons.mp htransports
  by_cases hrtp : isRtpContent sdesc name
  · obtain ⟨needed, hneeded, hstep⟩ :=
      commonCryptos_of_rtp ⟨false, []⟩ names hrtp (hfirst hrtp) true
    rw [if_pos rfl, if_neg (by simpa using hstart hrtp)] at hstep
    obtain ⟨needed', hneeded', hloop⟩ := commonCryptos_false_eq
      (s := ⟨needed, cryptosByName sdesc name⟩) hrest
    refine ⟨needed', ?_, ?_⟩
    · rw [hneeded', hneeded, insecure_cons, and_iff_right hrtp]
      simp
    · rw [hstep, hloop, if_pos hrtp, cryptosInCommon_of_rtp hrtp]
  · obtain ⟨needed, hneeded, hloop⟩ := commonCryptos_false_eq
      (s := ⟨false, []⟩) hrest
    refine ⟨needed, ?_, ?_⟩
    · rw [hneeded, insecure_cons]
      simp [hrtp]
    · rw [commonCryptos_cons, if_neg hrtp, hloop, if_neg hrtp]
      rfl

end

/-! ## The exact condition -/

section

variable {group : ContentGroup} {sdesc : SessionDescription}
  {name : Str} {names : List Str}

theorem updateCryptoParamsForBundle_of_nil (h : group.contentNames = []) :
    updateCryptoParamsForBundle group sdesc = (sdesc, false) := by
  rw [updateCryptoParamsForBundle, h]
  rfl

theorem updateCryptoParamsForBundle_of_empty
    (h : group.contentNames = name :: names)
    (htransports : HasTransports sdesc (name :: names))
    (hrtp : isRtpContent sdesc name) (hempty : cryptosByName sdesc name = []) :
    updateCryptoParamsForBundle group sdesc = (sdesc, true) := by
  obtain ⟨needed, -, hstep⟩ := commonCryptos_of_rtp ⟨false, []⟩ names hrtp
    (htransports name List.mem_cons_self hrtp) true
  rw [if_pos rfl, hempty, if_pos List.isEmpty_nil] at hstep
  rw [updateCryptoParamsForBundle, h, if_neg (by simp), hstep]

theorem updateCryptoParamsForBundle_of_start
    (h : group.contentNames = name :: names)
    (htransports : HasTransports sdesc (name :: names))
    (hstart : isRtpContent sdesc name → cryptosByName sdesc name ≠ [])
    {cryptos : List CryptoParams}
    (hcryptos : cryptos = if isRtpContent sdesc name then
      cryptosInCommon sdesc (name :: names) else []) :
    updateCryptoParamsForBundle group sdesc =
      if cryptos = [] ∧ Insecure sdesc (name :: names) then (sdesc, false)
      else (group.contentNames.foldl (setCommonCryptos cryptos) sdesc,
        true) := by
  obtain ⟨needed, hneeded, hloop⟩ := commonCryptos_true_eq htransports hstart
  rw [← hcryptos] at hloop
  rw [updateCryptoParamsForBundle, h, if_neg (by simp), hloop]
  refine if_congr ?_ rfl rfl
  rw [Bool.and_eq_true, List.isEmpty_iff, hneeded]

theorem cryptosInCommon_eq_nil {after : SessionDescription}
    (hcommon : HaveCryptos sdesc names (cryptosInCommon sdesc names) after)
    (hnone : HaveCryptos sdesc names [] after) :
    cryptosInCommon sdesc names = [] := by
  cases hfirst : names.find? (isRtpContent sdesc) with
  | none => rw [cryptosInCommon, hfirst]
  | some first =>
    have hmem := List.mem_of_find?_eq_some hfirst
    have hrtp := List.find?_some hfirst
    rw [← hcommon first hmem hrtp]
    exact hnone first hmem hrtp

theorem sharesCryptos_of_nonempty
    (h : group.contentNames = name :: names)
    (htransports : HasTransports sdesc (name :: names))
    (hrtp : isRtpContent sdesc name)
    (hcryptos : cryptosByName sdesc name ≠ []) :
    SharesCryptos group sdesc (updateCryptoParamsForBundle group sdesc) := by
  have hoffered : Offered sdesc (name :: names) :=
    ⟨name, List.mem_cons_self, hcryptos⟩
  rw [updateCryptoParamsForBundle_of_start h htransports (fun _ => hcryptos)
    (if_pos hrtp).symm, sharesCryptos_iff, h]
  by_cases hfails : cryptosInCommon sdesc (name :: names) = [] ∧
      Insecure sdesc (name :: names)
  · rw [if_pos hfails]
    exact ⟨.inl rfl, fun _ => ⟨hfails.2, hoffered, hfails.1⟩, fun _ => rfl⟩
  · rw [if_neg hfails]
    refine ⟨.inr haveCryptos_foldl_setCommonCryptos, ?_⟩
    refine iff_of_false Bool.noConfusion ?_
    rintro ⟨hinsecure, -, hcommon⟩
    exact hfails ⟨hcommon, hinsecure⟩

theorem sharesCryptos_iff_of_empty
    (h : group.contentNames = name :: names)
    (htransports : HasTransports sdesc (name :: names))
    (hrtp : isRtpContent sdesc name) (hempty : cryptosByName sdesc name = []) :
    SharesCryptos group sdesc (updateCryptoParamsForBundle group sdesc) ↔
      HaveCryptos sdesc (name :: names) [] sdesc ∧
        ¬(Insecure sdesc (name :: names) ∧ Offered sdesc (name :: names)) := by
  have hcommon : cryptosInCommon sdesc (name :: names) = [] := by
    rw [cryptosInCommon_of_rtp hrtp, hempty, List.filter_nil]
  rw [updateCryptoParamsForBundle_of_empty h htransports hrtp hempty,
    sharesCryptos_iff, h, hcommon]
  refine and_congr ?_ ?_
  · rw [or_iff_right]
    simp
  · simp

theorem sharesCryptos_iff_of_not_rtp
    (h : group.contentNames = name :: names)
    (htransports : HasTransports sdesc (name :: names))
    (hrtp : ¬isRtpContent sdesc name) :
    SharesCryptos group sdesc (updateCryptoParamsForBundle group sdesc) ↔
      cryptosInCommon sdesc (name :: names) = [] ∧
        (Insecure sdesc (name :: names) → Offered sdesc (name :: names)) := by
  rw [updateCryptoParamsForBundle_of_start h htransports
    (fun hname => absurd hname hrtp) (if_neg hrtp).symm, sharesCryptos_iff, h]
  by_cases hinsecure : Insecure sdesc (name :: names)
  · rw [if_pos ⟨rfl, hinsecure⟩]
    simp [hinsecure, and_comm]
  · rw [if_neg fun hfails => hinsecure hfails.2]
    have hnone : HaveCryptos sdesc (name :: names) []
        ((name :: names).foldl (setCommonCryptos []) sdesc) :=
      haveCryptos_foldl_setCommonCryptos
    constructor
    · rintro ⟨hshared, -⟩
      have hcommon := hshared.resolve_left (by simp)
      exact ⟨cryptosInCommon_eq_nil hcommon hnone,
        fun hinsecure' => absurd hinsecure' hinsecure⟩
    · rintro ⟨hcommon, -⟩
      rw [hcommon]
      exact ⟨.inr hnone, by simp [hinsecure]⟩

/-- The bundled contents share their cryptos exactly when the loop starts
well. -/
theorem sharesCryptos_iff_startsWell
    (htransports : HasTransports sdesc group.contentNames) :
    SharesCryptos group sdesc (updateCryptoParamsForBundle group sdesc) ↔
      StartsWell sdesc group.contentNames := by
  cases hnames : group.contentNames with
  | nil =>
    rw [updateCryptoParamsForBundle_of_nil hnames, sharesCryptos_iff, hnames]
    simp [StartsWell, Insecure]
  | cons name names =>
    rw [hnames] at htransports
    rw [StartsWell]
    by_cases hrtp : isRtpContent sdesc name
    · rw [if_pos hrtp]
      by_cases hempty : cryptosByName sdesc name = []
      · rw [sharesCryptos_iff_of_empty hnames htransports hrtp hempty,
          or_iff_right (not_not_intro hempty)]
      · exact iff_of_true
          (sharesCryptos_of_nonempty hnames htransports hrtp hempty)
          (.inl hempty)
    · rw [if_neg hrtp]
      exact sharesCryptos_iff_of_not_rtp hnames htransports hrtp

end

def suiteDescription {κ : Type} (protocol : Str) (cryptos : List CryptoParams) :
    MediaContentDescription κ where
  protocol := protocol
  rtcpMux := true
  bandwidth := kAutoBandwidth
  cryptos := cryptos
  cryptoRequired := .sdes
  rtpHeaderExtensions := []
  multistream := false
  streams := []
  direction := .sendrecv
  codecs := []

/-- Audio and video with the same cipher suite next to data over SCTP, and no
DTLS. -/
def bundledDescription : SessionDescription :=
  let cryptos := [⟨1, CS_AES_CM_128_HMAC_SHA1_80, kInline, []⟩]
  let info (name : Str) : TransportInfo := ⟨name, ⟨['u'], ['p'], none⟩⟩
  { contents := [
      ⟨['d'], .draftSctp, false,
        .data (suiteDescription kMediaProtocolSctp [])⟩,
      ⟨['a'], .rtp, false,
        .audio (suiteDescription kMediaProtocolSavpf cryptos)⟩,
      ⟨['v'], .rtp, false,
        .video (suiteDescription kMediaProtocolSavpf cryptos)⟩]
    transportInfos := [info ['d'], info ['a'], info ['v']]
    contentGroups := [] }

theorem sharesCryptos_audio_first :
    SharesCryptos ⟨GROUP_TYPE_BUNDLE, [['a'], ['v'], ['d']]⟩ bundledDescription
      (updateCryptoParamsForBundle
        ⟨GROUP_TYPE_BUNDLE, [['a'], ['v'], ['d']]⟩ bundledDescription) ↔
      StartsWell bundledDescription [['a'], ['v'], ['d']] :=
  sharesCryptos_iff_startsWell (by decide)

/-- With the data first, the function fails, although there are cryptos in
common. -/
theorem not_sharesCryptos_data_first :
    ¬∀ (group : ContentGroup) (sdesc : SessionDescription),
      group.contentNames.Nodup → HasTransports sdesc group.contentNames →
          SharesCryptos group sdesc
            (updateCryptoParamsForBundle group sdesc) := by
  intro h
  have hshares := h ⟨GROUP_TYPE_BUNDLE, [['d'], ['a'], ['v']]⟩
    bundledDescription (by decide) (by decide)
  have hfails : (updateCryptoParamsForBundle
      ⟨GROUP_TYPE_BUNDLE, [['d'], ['a'], ['v']]⟩ bundledDescription).2 =
        false := rfl
  have hcommon := (hshares.failed_iff.mp hfails).2.2
  exact absurd hcommon (by decide)

end WebrtcWinXp.MediaSession
