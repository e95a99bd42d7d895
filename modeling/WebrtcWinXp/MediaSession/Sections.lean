import WebrtcWinXp.MediaSession.NegotiatedCodecs

/-!
# Sections of an answer

What a section has in common with the content that it answers, and which crypto
it selects.
-/

namespace WebrtcWinXp.MediaSession

open Support

/-! ## What is drawn -/

def Random.Follows (later random : Random) : Prop :=
  later.strings <:+ random.strings

namespace Random.Follows

theorem refl (random : Random) : random.Follows random :=
  List.suffix_refl _

theorem trans {a b c : Random} (h : a.Follows b) (h' : b.Follows c) :
    a.Follows c :=
  List.IsSuffix.trans h h'

theorem works {later random : Random} (h : later.Follows random)
    (hworks : random.Works) : later.Works :=
  fun s hs => hworks s (h.mem hs)

end Random.Follows

theorem drawString_suffix {taken : Str → Bool} {strings rest} {s : Str}
    (h : drawString taken strings = some (s, rest)) : rest <:+ strings := by
  induction strings with
  | nil => cases h
  | cons t strings ih =>
    cases t with
    | none => cases h
    | some t =>
      rw [drawString] at h
      split at h
      · exact (ih h).trans (List.suffix_cons _ _)
      · cases h
        exact List.suffix_cons _ _

theorem generateCname_follows {params streams label} {random random' : Random}
    {cname : Str}
    (h : generateCname params streams label random = some (cname, random')) :
    random'.Follows random := by
  rw [generateCname] at h
  split at h
  · cases h
    exact .refl _
  · obtain ⟨⟨s, strings⟩, hdraw, heq⟩ := Option.bind_eq_some_iff.mp h
    cases heq
    exact drawString_suffix hdraw

theorem generateSsrcs_follows {params} {numSsrcs : ℕ} {ssrcs ssrcs'}
    {random random' : Random}
    (h : generateSsrcs params numSsrcs ssrcs random = some (ssrcs', random')) :
    random'.Follows random := by
  induction numSsrcs generalizing ssrcs random with
  | zero =>
    cases h
    exact .refl _
  | succ numSsrcs ih =>
    rw [generateSsrcs] at h
    obtain ⟨⟨id, ids⟩, -, h⟩ := Option.bind_eq_some_iff.mp h
    have hfollows := ih h
    exact hfollows

namespace StreamKind

variable {kind : StreamKind} {random random' : Random}

theorem generate_follows {params numSsrcs ssrcs}
    (h : kind.generate params numSsrcs random = some (ssrcs, random')) :
    random'.Follows random := by
  rw [generate] at h
  split at h
  · rw [generateSctpSids] at h
    split at h
    · cases h
      exact .refl _
    · obtain ⟨⟨id, ids⟩, -, heq⟩ := Option.bind_eq_some_iff.mp h
      cases heq
      exact .refl _
  · exact generateSsrcs_follows h

theorem addLegacyStream_follows {currentStreams added}
    (h : kind.addLegacyStream currentStreams random = some added) :
    added.random.Follows random := by
  rw [addLegacyStream] at h
  obtain ⟨⟨ssrcs, random₁⟩, hgenerate, h⟩ := Option.bind_eq_some_iff.mp h
  obtain ⟨ssrc, -, h⟩ := Option.bind_eq_some_iff.mp h
  split at h
  · obtain ⟨fidSsrc, -, heq⟩ := Option.bind_eq_some_iff.mp h
    cases heq
    exact generate_follows hgenerate
  · cases h
    exact generate_follows hgenerate

theorem newStream_follows {streams stream currentStreams param}
    (h : kind.newStream streams stream currentStreams random =
      some (param, random')) : random'.Follows random := by
  rw [newStream] at h
  obtain ⟨⟨cname, random₁⟩, hcname, h⟩ := Option.bind_eq_some_iff.mp h
  obtain ⟨⟨ssrcs, random₂⟩, hgenerate, h⟩ := Option.bind_eq_some_iff.mp h
  have hfollows : random₂.Follows random :=
    (generate_follows hgenerate).trans (generateCname_follows hcname)
  dsimp only at h
  split at h
  · obtain ⟨⟨rtxSsrc, random₃⟩, hrtx, h⟩ := Option.bind_eq_some_iff.mp h
    obtain ⟨ssrc, -, h⟩ := Option.bind_eq_some_iff.mp h
    obtain ⟨fidSsrc, -, heq⟩ := Option.bind_eq_some_iff.mp h
    cases heq
    exact (generateSsrcs_follows hrtx).trans hfollows
  · cases h
    exact hfollows

theorem addStream_follows {streams s stream s'}
    (h : kind.addStream streams s stream = some s') :
    s'.random.Follows s.random := by
  rw [addStream] at h
  split at h
  · cases h
    exact .refl _
  · split at h
    · cases h
      exact .refl _
    · obtain ⟨⟨param, random₁⟩, hnew, heq⟩ := Option.bind_eq_some_iff.mp h
      cases heq
      exact newStream_follows hnew

theorem addStreamParams_follows {streams addLegacy currentStreams added}
    (h : kind.addStreamParams streams addLegacy currentStreams random =
      some added) : added.random.Follows random := by
  rw [addStreamParams] at h
  split at h
  · exact addLegacyStream_follows h
  · have hfold : ∀ (left : List Stream) (s : AddedStreams),
        left.foldlM (kind.addStream streams) s = some added →
          added.random.Follows s.random := by
      intro left
      induction left with
      | nil =>
        rintro s ⟨⟩
        exact .refl _
      | cons stream left ih =>
        intro s h
        rw [List.foldlM_cons] at h
        obtain ⟨s₁, hs₁, h⟩ := Option.bind_eq_some_iff.mp h
        exact (ih s₁ h).trans (addStream_follows hs₁)
    exact hfold _ _ h

end StreamKind

theorem TransportDescriptionFactory.createAnswer_spec
    {factory : TransportDescriptionFactory} {offer options current desc}
    {random random' : Random}
    (h : factory.createAnswer offer options current random =
      some (desc, random')) :
    factory.negotiate offer = some desc.identityFingerprint ∧
      random'.Follows random := by
  rw [createAnswer] at h
  obtain ⟨fingerprint, hfingerprint, h⟩ := Option.bind_eq_some_iff.mp h
  split at h
  · cases h
    exact ⟨hfingerprint, .refl _⟩
  · next ufrag pwd strings hstrings _ _ =>
      cases h
      refine ⟨hfingerprint, ?_⟩
      rw [Random.Follows, hstrings]
      exact (List.suffix_cons _ _).trans (List.suffix_cons _ _)
  · cases h

/-! ## The crypto of a section -/

/-- The cryptos of a section for the offered one that it selects, which it
only lacks when no key can be drawn. -/
structure AnswersCrypto (works : Prop) (selected : Option CryptoParams)
    (cryptos : List CryptoParams) : Prop where
  matching : cryptos = [] ∨ ∃ theirs crypto, selected = some theirs ∧
    cryptos = [crypto] ∧ crypto.Matches theirs
  complete : works → selected.isSome → cryptos ≠ []

variable {crypto theirs : CryptoParams}

theorem CryptoParams.matches_iff :
    crypto.Matches theirs ↔
      crypto.tag = theirs.tag ∧ crypto.cipherSuite = theirs.cipherSuite := by
  simp [CryptoParams.Matches]

theorem CryptoParams.matches_trans {other : CryptoParams}
    (h : crypto.Matches other) (h' : other.Matches theirs) :
    crypto.Matches theirs := by
  rw [CryptoParams.matches_iff] at h h' ⊢
  exact ⟨h.1.trans h'.1, h.2.trans h'.2⟩

theorem CryptoParams.matches_symm
    (h : crypto.Matches theirs) : theirs.Matches crypto := by
  rw [CryptoParams.matches_iff] at h ⊢
  exact ⟨h.1.symm, h.2.symm⟩

theorem selectCrypto_spec {type cryptos bundle} {random random' : Random}
    {crypto : Option CryptoParams}
    (h : selectCrypto type cryptos bundle random = some (crypto, random')) :
    AnswersCrypto random.Works (cryptos.find? (isSupportedCrypto type bundle))
        crypto.toList ∧
      random'.Follows random := by
  rw [selectCrypto] at h
  split at h
  · next theirs hfind =>
      rw [createCryptoParams] at h
      split at h
      · cases h
      · next key strings hstrings =>
          cases h
          refine ⟨⟨?_, ?_⟩, ?_⟩
          · cases key with
            | none => exact .inl rfl
            | some key =>
              exact .inr ⟨theirs, _, hfind, rfl,
                CryptoParams.matches_iff.mpr ⟨rfl, rfl⟩⟩
          · intro hworks _
            have hkey : key.isSome := hworks key (hstrings ▸
              List.mem_cons_self)
            obtain ⟨key, rfl⟩ := Option.isSome_iff_exists.mp hkey
            simp
          · rw [Random.Follows, hstrings]
            exact List.suffix_cons _ _
  · next hfind =>
      cases h
      refine ⟨⟨.inl rfl, ?_⟩, .refl _⟩
      intro _ hsome
      rw [hfind] at hsome
      cases hsome

theorem matches_currentCrypto (current : Option (List CryptoParams))
    (crypto : CryptoParams) :
    ((current.bind fun cryptos => findMatchingCrypto cryptos crypto).getD
      crypto).Matches crypto := by
  cases hcurrent : current.bind fun cryptos =>
      findMatchingCrypto cryptos crypto with
  | none => simp [CryptoParams.Matches]
  | some found =>
    obtain ⟨cryptos, -, hfound⟩ := Option.bind_eq_some_iff.mp hcurrent
    have hmatching := List.find?_some hfound
    exact CryptoParams.matches_symm hmatching

namespace Negotiation

variable {n : Negotiation} {κ : Type} [MediaKind κ] {part : AnswerSection κ}
  {offered answer : MediaContentDescription κ} {content : ContentInfo}
  {random random' : Random}

def selected (n : Negotiation) (content : ContentInfo) :
    Option CryptoParams :=
  if n.sdesPolicy content.name = .disabled then none
  else content.description.cryptos.find?
    (isSupportedCrypto content.description.type n.bundleEnabled)

theorem answerCryptos_spec {cryptos}
    (hcontent : content.description = MediaKind.content offered)
    (h : n.answerCryptos offered (n.sdesPolicy content.name) random =
      some (cryptos, random')) :
    AnswersCrypto random.Works (n.selected content) cryptos ∧
      random'.Follows random := by
  rw [answerCryptos] at h
  split at h
  · next hdisabled =>
      cases h
      refine ⟨⟨.inl rfl, ?_⟩, .refl _⟩
      intro _ hsome
      rw [selected, if_pos hdisabled] at hsome
      cases hsome
  · next hpolicy =>
      obtain ⟨⟨crypto, random₁⟩, hselect, heq⟩ := Option.bind_eq_some_iff.mp h
      obtain ⟨hanswers, hfollows⟩ := selectCrypto_spec hselect
      cases heq
      refine ⟨?_, hfollows⟩
      rw [selected, if_neg hpolicy, hcontent, MediaKind.cryptos_content,
        MediaKind.type_content]
      constructor
      · rcases hanswers.matching with hnil | ⟨theirs, chosen, hfind, hone,
          hmatches⟩
        · exact .inl (by simpa using hnil)
        · have hchosen : crypto = some chosen := by
            cases crypto with
            | none => cases hone
            | some crypto => exact congrArg some (List.cons_eq_cons.mp hone).1
          exact .inr ⟨theirs, _, hfind, by rw [hchosen]; rfl,
            CryptoParams.matches_trans (matches_currentCrypto _ chosen)
              hmatches⟩
      · intro hworks hsome hnil
        refine hanswers.complete hworks hsome ?_
        simpa using hnil

/-! ## Sections -/

/-- What a section has in common with the content that it answers. -/
structure Answered (part : AnswerSection κ)
    (offered answer : MediaContentDescription κ) : Prop where
  codecs : answer.codecs =
    sortCodecs (negotiateCodecs part.codecs offered.codecs)
  protocol : answer.protocol = offered.protocol
  rtpHeaderExtensions : answer.rtpHeaderExtensions =
    negotiateRtpHeaderExtensions part.rtpExtensions offered.rtpHeaderExtensions
  rtcpMux : answer.rtcpMux → offered.rtcpMux

theorem createMediaContentAnswer_spec {currentStreams currentStreams'}
    (hcontent : content.description = MediaKind.content offered)
    (h : n.createMediaContentAnswer part offered (n.sdesPolicy content.name)
      currentStreams random = some (answer, currentStreams', random')) :
    Answered part offered answer ∧
      AnswersCrypto random.Works (n.selected content) answer.cryptos ∧
      random'.Follows random := by
  rw [createMediaContentAnswer] at h
  obtain ⟨⟨cryptos, random₁⟩, hcryptos, h⟩ := Option.bind_eq_some_iff.mp h
  obtain ⟨hanswers, hfollows⟩ := answerCryptos_spec hcontent hcryptos
  dsimp only at h
  split at h
  · cases h
  · obtain ⟨added, hadded, heq⟩ := Option.bind_eq_some_iff.mp h
    cases heq
    refine ⟨⟨rfl, rfl, rfl, ?_⟩, hanswers,
      (StreamKind.addStreamParams_follows hadded).trans hfollows⟩
    intro hmux
    exact (Bool.and_eq_true_iff.mp hmux).2

/-- A section that answers the first content of its media type. -/
def AnswersFirst (n : Negotiation) (works : Prop) (part : AnswerSection κ)
    (a : ContentInfo) : Prop :=
  ∃ content offered desc,
    n.offer.firstContent (MediaKind.type κ) = some content ∧
    content.description = MediaKind.content offered ∧
    a = ⟨content.name, content.type, !n.accepts content,
      MediaKind.content desc⟩ ∧
    Answered part offered desc ∧
    AnswersCrypto works (n.selected content) desc.cryptos

theorem contents_of_addTransportAnswer {lenient : Bool}
    {sdesc sdesc' : SessionDescription} {info : TransportInfo}
    (h : addTransportAnswer lenient sdesc info = some sdesc') :
    sdesc'.contents = sdesc.contents := by
  rw [addTransportAnswer] at h
  split at h
  · next added hadded =>
      cases h
      rw [SessionDescription.addTransportInfo] at hadded
      split at hadded
      · cases hadded
      · cases hadded
        rfl
  · split at h
    · cases h
      rfl
    · cases h

variable {s s' : AnswerState}

theorem addContentForAnswer_spec
    (henabled : part.enabled = n.enabled (MediaKind.type κ))
    (h : n.addContentForAnswer part s = some s') :
    (∃ a, s'.answer.contents = s.answer.contents ++ [a] ∧
      n.AnswersFirst s.random.Works part a) ∧
      s'.random.Follows s.random := by
  rw [addContentForAnswer] at h
  obtain ⟨content, hfirst, h⟩ := Option.bind_eq_some_iff.mp h
  obtain ⟨offered, hoffered, h⟩ := Option.bind_eq_some_iff.mp h
  obtain ⟨⟨transport, random₁⟩, htransport, h⟩ := Option.bind_eq_some_iff.mp h
  obtain ⟨⟨desc, currentStreams, random₂⟩, hdesc, h⟩ :=
    Option.bind_eq_some_iff.mp h
  have hcontent := MediaKind.description?_eq_some.mp hoffered
  obtain ⟨hnegotiate, hfollows⟩ :=
    TransportDescriptionFactory.createAnswer_spec htransport
  have hsecure : transport.secure = n.secureAnswer content.name := by
    rw [secureAnswer, hnegotiate]
    rfl
  have hpolicy : (if transport.secure then SecurePolicy.disabled
      else n.factory.secure) = n.sdesPolicy content.name := by
    rw [sdesPolicy, hsecure]
  rw [hpolicy] at hdesc
  obtain ⟨hanswered, hcryptos, hfollows'⟩ :=
    createMediaContentAnswer_spec hcontent hdesc
  have hcryptos : AnswersCrypto s.random.Works (n.selected content)
      desc.cryptos :=
    ⟨hcryptos.matching, fun hworks => hcryptos.complete (hfollows.works hworks)⟩
  have haccepts : (part.enabled && !content.rejected &&
      isMediaProtocolSupported (MediaKind.type κ) desc.protocol
        transport.secure) = n.accepts content := by
    rw [accepts, hcontent, MediaKind.type_content, MediaKind.protocol_content,
      henabled, hanswered.protocol, hsecure]
  dsimp only at h
  rw [haccepts] at h
  split at h
  · next haccepted =>
      obtain ⟨added, hadded, heq⟩ := Option.bind_eq_some_iff.mp h
      cases heq
      have hanswers : n.AnswersFirst s.random.Works part
          ⟨content.name, content.type, !n.accepts content,
            MediaKind.content
              { desc with
                bandwidth := part.bandwidth }⟩ :=
        ⟨content, offered, _, hfirst, hcontent, rfl,
          ⟨hanswered.codecs, hanswered.protocol,
            hanswered.rtpHeaderExtensions, hanswered.rtcpMux⟩, hcryptos⟩
      rw [haccepted] at hanswers
      refine ⟨⟨_, ?_, hanswers⟩, hfollows'.trans hfollows⟩
      exact congrArg (· ++ _) (contents_of_addTransportAnswer hadded)
  · next hrejected =>
      cases h
      refine ⟨⟨_, ?_, content, offered, desc, hfirst, hcontent, rfl, hanswered,
        hcryptos⟩, hfollows'.trans hfollows⟩
      rw [Bool.eq_false_iff.mpr hrejected]
      rfl

def AnswersContent (n : Negotiation) (works : Prop) (content a : ContentInfo) :
    Prop :=
  match content.description.type with
  | .audio => n.AnswersFirst works n.audioSection a
  | .video => n.AnswersFirst works n.videoSection a
  | .data => n.AnswersFirst works n.dataSection a

theorem addSection_spec
    (h : n.addSection s content = some s') :
    (∃ a, s'.answer.contents = s.answer.contents ++ [a] ∧
      n.AnswersContent s.random.Works content a) ∧
      s'.random.Follows s.random := by
  cases htype : content.description.type with
  | audio =>
    simp only [addSection, AnswersContent, htype] at h ⊢
    exact addContentForAnswer_spec rfl h
  | video =>
    simp only [addSection, AnswersContent, htype] at h ⊢
    exact addContentForAnswer_spec rfl h
  | data =>
    simp only [addSection, AnswersContent, htype] at h ⊢
    exact addContentForAnswer_spec rfl h

theorem AnswersFirst.mono {works works' : Prop} {a : ContentInfo}
    (hworks : works' → works) (h : n.AnswersFirst works part a) :
    n.AnswersFirst works' part a := by
  obtain ⟨content, offered, desc, hfirst, hcontent, ha, hanswered, hcryptos⟩ :=
    h
  exact ⟨content, offered, desc, hfirst, hcontent, ha, hanswered,
    hcryptos.matching, fun h => hcryptos.complete (hworks h)⟩

theorem AnswersContent.mono {works works' : Prop} {a : ContentInfo}
    (hworks : works' → works) (h : n.AnswersContent works content a) :
    n.AnswersContent works' content a := by
  unfold AnswersContent at h ⊢
  split at h
  · exact h.mono hworks
  · exact h.mono hworks
  · exact h.mono hworks

theorem foldlM_addSection_spec {contents : List ContentInfo} (h : contents.foldlM n.addSection s = some s') :
    ∃ sections, s'.answer.contents = s.answer.contents ++ sections ∧
      List.Forall₂ (n.AnswersContent s.random.Works) contents sections := by
  induction contents generalizing s with
  | nil =>
    cases h
    exact ⟨[], (List.append_nil _).symm, .nil⟩
  | cons content contents ih =>
    rw [List.foldlM_cons] at h
    obtain ⟨s₁, hs₁, h⟩ := Option.bind_eq_some_iff.mp h
    obtain ⟨⟨a, hcontents, ha⟩, hfollows⟩ := addSection_spec hs₁
    obtain ⟨sections, hsections, hanswers⟩ := ih h
    refine ⟨a :: sections, ?_, .cons ha ?_⟩
    · rw [hsections, hcontents, List.append_assoc]
      rfl
    · exact hanswers.imp fun _ _ h => h.mono hfollows.works

end Negotiation

end WebrtcWinXp.MediaSession
