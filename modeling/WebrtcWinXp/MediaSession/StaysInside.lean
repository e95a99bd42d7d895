import WebrtcWinXp.MediaSession.Bundle
import WebrtcWinXp.MediaSession.Sections

/-!
# When answers stay inside their offers

The sections of an answer are compared with the contents of the offer, first
as they are created and then as they are bundled.
-/

namespace WebrtcWinXp.MediaSession

open Support

namespace Negotiation

variable {n : Negotiation} {works : Prop} {content first a a' : ContentInfo}
  {sections : List ContentInfo} {name : Str}

/-- What all kinds of sections have in common. -/
structure SectionOf (n : Negotiation) (works : Prop)
    (content first a : ContentInfo) : Prop where
  found : n.offer.firstContent content.description.type = some first
  name : a.name = first.name
  rejected : a.rejected = !n.accepts first
  type : a.description.type = content.description.type
  protocol : a.description.protocol = first.description.protocol
  cryptos : AnswersCrypto works (n.selected first) a.description.cryptos

theorem AnswersFirst.sectionOf {κ : Type} [MediaKind κ]
    {part : AnswerSection κ} (h : n.AnswersFirst works part a)
    (htype : content.description.type = MediaKind.type κ) :
    ∃ first, n.SectionOf works content first a := by
  obtain ⟨first, offered, desc, hfirst, hdesc, rfl, hanswered, hcryptos⟩ := h
  refine ⟨first, htype ▸ hfirst, rfl, rfl, ?_, ?_, ?_⟩
  · rw [MediaKind.type_content, htype]
  · rw [MediaKind.protocol_content, hanswered.protocol, hdesc,
      MediaKind.protocol_content]
  · rw [MediaKind.cryptos_content]
    exact hcryptos

theorem AnswersContent.sectionOf (h : n.AnswersContent works content a) :
    ∃ first, n.SectionOf works content first a := by
  cases htype : content.description.type with
  | audio =>
    simp only [AnswersContent, htype] at h
    exact h.sectionOf htype
  | video =>
    simp only [AnswersContent, htype] at h
    exact h.sectionOf htype
  | data =>
    simp only [AnswersContent, htype] at h
    exact h.sectionOf htype

variable {sdesc : SessionDescription}

theorem type_of_firstContent {type : MediaType}
    (h : sdesc.firstContent type = some first) :
    first.description.type = type := by
  have hfound := List.find?_some h
  simpa using hfound

/-! ## Names -/

variable {contents : List ContentInfo}

/-- The sections have the names of the offer exactly when contents of the same
media type have the same name. -/
theorem names_eq_iff
    (h : List.Forall₂ (n.AnswersContent works) contents sections) :
    sections.map ContentInfo.name = contents.map ContentInfo.name ↔
      ∀ content ∈ contents, ∀ first,
        n.offer.firstContent content.description.type = some first →
        first.name = content.name := by
  induction h with
  | nil => simp
  | @cons content a contents sections ha hrest ih =>
    obtain ⟨first, hsection⟩ := ha.sectionOf
    have hhead : a.name = content.name ↔ ∀ first,
        n.offer.firstContent content.description.type = some first →
        first.name = content.name := by
      rw [hsection.name]
      constructor
      · intro hname other hother
        rw [hsection.found] at hother
        cases hother
        exact hname
      · exact fun hnames => hnames first hsection.found
    rw [List.map_cons, List.map_cons, List.cons_eq_cons, ih,
      List.forall_mem_cons, hhead]

/-- With the names of the offer, a section answers the content in its
position. -/
structure InPlace (n : Negotiation) (works : Prop)
    (content a : ContentInfo) : Prop where
  answers : n.AnswersContent works content a
  name : a.name = content.name

theorem forall₂_inPlace
    (h : List.Forall₂ (n.AnswersContent works) contents sections)
    (hnames : sections.map ContentInfo.name =
      contents.map ContentInfo.name) :
    List.Forall₂ (n.InPlace works) contents sections := by
  induction h with
  | nil => exact .nil
  | cons ha hrest ih =>
    rw [List.map_cons, List.map_cons, List.cons_eq_cons] at hnames
    exact .cons ⟨ha, hnames.1⟩ (ih hnames.2)

theorem find?_eq_find? {α : Type*} {l : List α} {p q : α → Bool} {x y : α}
    (hx : l.find? p = some x) (hy : l.find? q = some y) (hqx : q x)
    (hpy : p y) : x = y := by
  induction l with
  | nil => cases hx
  | cons z l ih =>
    rw [List.find?_cons] at hx hy
    split at hx
    · next hpz =>
        cases hx
        rw [hqx] at hy
        cases hy
        rfl
    · next hpz =>
        split at hy
        · cases hy
          rw [hpy] at hpz
          cases hpz
        · exact ih hx hy

theorem firstContent_of_getContentByName
    (hnames : ∀ content ∈ n.offer.contents, ∀ first,
      n.offer.firstContent content.description.type = some first →
      first.name = content.name)
    (h : n.offer.getContentByName name = some content)
    (hfirst : n.offer.firstContent content.description.type = some first) :
    first = content := by
  have hmem := List.mem_of_find?_eq_some h
  have hfound := List.find?_some h
  refine find?_eq_find? hfirst h ?_ ?_
  · rw [hnames content hmem first hfirst]
    exact hfound
  · simp

section

variable (hnames : ∀ content ∈ n.offer.contents, ∀ first,
    n.offer.firstContent content.description.type = some first →
    first.name = content.name)
  (hplace : List.Forall₂ (n.InPlace works) n.offer.contents sections)
  {answer : SessionDescription} (hsections : answer.contents = sections)

include hnames hplace hsections

theorem sectionOf_of_getContentByName
    (h : answer.getContentByName name = some a) :
    ∃ content, n.offer.getContentByName name = some content ∧
      n.SectionOf works content content a := by
  rw [SessionDescription.getContentByName, hsections] at h
  obtain ⟨content, hcontent, hin⟩ := find?_of_forall₂
    (fun _ _ h => h.name.symm) hplace.flip h
  obtain ⟨first, hsection⟩ := hin.answers.sectionOf
  have hfirst := firstContent_of_getContentByName hnames hcontent
    hsection.found
  exact ⟨content, hcontent, hfirst ▸ hsection⟩

theorem getContentByName_answer
    (h : n.offer.getContentByName name = some content) :
    ∃ a, answer.getContentByName name = some a ∧
      n.SectionOf works content content a := by
  obtain ⟨a, ha, -⟩ := find?_of_forall₂ (fun _ _ h => h.name) hplace h
  rw [← hsections] at ha
  obtain ⟨content', hcontent', hsection⟩ :=
    sectionOf_of_getContentByName hnames hplace hsections ha
  rw [hcontent'] at h
  cases h
  exact ⟨a, ha, hsection⟩

theorem isRtpContent_answer :
    isRtpContent answer name ↔ isRtpContent n.offer name := by
  rw [isRtpContent_iff, isRtpContent_iff]
  constructor
  · rintro ⟨a, ha, hrtp⟩
    obtain ⟨content, hcontent, hsection⟩ :=
      sectionOf_of_getContentByName hnames hplace hsections ha
    exact ⟨content, hcontent, hsection.protocol ▸ hrtp⟩
  · rintro ⟨content, hcontent, hrtp⟩
    obtain ⟨a, ha, hsection⟩ :=
      getContentByName_answer hnames hplace hsections hcontent
    exact ⟨a, ha, hsection.protocol ▸ hrtp⟩

theorem answersCrypto_of_isRtpContent (hrtp : isRtpContent n.offer name) :
    AnswersCrypto works (n.selectedCrypto name)
      (cryptosByName answer name) := by
  obtain ⟨content, hcontent, hprotocol⟩ := isRtpContent_iff.mp hrtp
  obtain ⟨a, ha, hsection⟩ :=
    getContentByName_answer hnames hplace hsections hcontent
  have hname : content.name = name := by
    have hfound := List.find?_some hcontent
    simpa using hfound
  have hselected : n.selectedCrypto name = n.selected content := by
    rw [selectedCrypto, hcontent, Option.bind_some, selected, hname, hprotocol]
    by_cases hpolicy : n.sdesPolicy name = .disabled
    · simp [hpolicy]
    · simp [hpolicy]
  rw [hselected, cryptosByName, ha]
  exact hsection.cryptos

theorem answerBundle_answer (offerBundle : ContentGroup) :
    (answerBundle offerBundle answer.contents).contentNames =
      n.bundledNames offerBundle := by
  rw [bundledNames, hsections]
  refine congrArg _ (answerBundle_eq ?_)
  rw [List.forall₂_map_right_iff]
  refine hplace.flip.imp fun a content hin => ⟨hin.name, ?_⟩
  obtain ⟨first, hsection⟩ := hin.answers.sectionOf
  rw [hsection.rejected, decided, hsection.found]
  rfl

end

/-! ## Single sections -/

theorem exists_of_forall₂ {α β : Type*} {R : α → β → Prop} {l : List α}
    {l' : List β} {x : α} (h : List.Forall₂ R l l') (hx : x ∈ l) :
    ∃ y ∈ l', R x y := by
  induction h with
  | nil => cases hx
  | cons hxy hrest ih =>
    rcases List.mem_cons.mp hx with rfl | hx
    · exact ⟨_, List.mem_cons_self, hxy⟩
    · obtain ⟨y, hy, hR⟩ := ih hx
      exact ⟨y, List.mem_cons_of_mem _ hy, hR⟩

/-- Every crypto of a section is offered under its name for its media type. -/
def CryptosOffered (offer : SessionDescription) (a : ContentInfo) : Prop :=
  ∀ crypto ∈ a.description.cryptos, ∃ other ∈ offer.contents,
    other.name = a.name ∧ other.description.type = a.description.type ∧
      ∃ theirs ∈ other.description.cryptos, crypto.Matches theirs

variable {offer : SessionDescription}

theorem mem_offeredAs {κ : Type} [MediaKind κ]
    {desc : MediaContentDescription κ} :
    desc ∈ offer.offeredAs name ↔ ∃ content ∈ offer.contents,
      content.name = name ∧ content.description = MediaKind.content desc := by
  rw [SessionDescription.offeredAs, List.mem_filterMap]
  constructor
  · rintro ⟨content, hmem, h⟩
    split at h
    · next hname =>
        exact ⟨content, hmem, hname, MediaKind.description?_eq_some.mp h⟩
    · cases h
  · rintro ⟨content, hmem, hname, h⟩
    refine ⟨content, hmem, ?_⟩
    rw [if_pos hname]
    exact MediaKind.description?_eq_some.mpr h

theorem cryptosOffered_iff {κ : Type} [MediaKind κ] {desc : MediaContentDescription κ}
    (ha : a.description = MediaKind.content desc) :
    CryptosOffered offer a ↔ ∀ crypto ∈ desc.cryptos,
      ∃ other ∈ offer.offeredAs (κ := κ) a.name, ∃ theirs ∈ other.cryptos,
        crypto.Matches theirs := by
  rw [CryptosOffered, ha, MediaKind.cryptos_content, MediaKind.type_content]
  refine forall₂_congr fun crypto _ => ?_
  constructor
  · rintro ⟨other, hother, hname, htype, theirs, htheirs, hmatches⟩
    obtain ⟨desc', hdesc'⟩ := MediaKind.exists_content htype
    rw [hdesc', MediaKind.cryptos_content] at htheirs
    exact ⟨desc', mem_offeredAs.mpr ⟨other, hother, hname, hdesc'⟩, theirs,
      htheirs, hmatches⟩
  · rintro ⟨desc', hdesc', theirs, htheirs, hmatches⟩
    obtain ⟨other, hother, hname, hcontent⟩ := mem_offeredAs.mp hdesc'
    refine ⟨other, hother, hname, ?_, theirs, ?_, hmatches⟩
    · rw [hcontent, MediaKind.type_content]
    · rwa [hcontent, MediaKind.cryptos_content]

theorem mem_of_mem_negotiateRtpHeaderExtensions
    {ours theirs : List RtpHeaderExtension} {ext : RtpHeaderExtension}
    (h : ext ∈ negotiateRtpHeaderExtensions ours theirs) : ext ∈ theirs := by
  obtain ⟨own, -, hfound⟩ := List.mem_filterMap.mp h
  exact List.mem_of_find?_eq_some hfound

/-- A section after bundling. -/
structure Bundled (a a' : ContentInfo) : Prop where
  name : a'.name = a.name
  description :
    a'.description = a.description.setCryptos a'.description.cryptos

theorem bundled_of_getsCryptos {cryptos names}
    (h : GetsCryptos sdesc cryptos names a a') : Bundled a a' := by
  rcases h with rfl | ⟨rfl, -⟩
  · refine ⟨rfl, ?_⟩
    cases a'.description <;> rfl
  · refine ⟨rfl, ?_⟩
    rw [ContentInfo.withCryptos, ContentDescription.cryptos_setCryptos]

section

variable {κ : Type} [MediaKind κ] {part : AnswerSection κ}

theorem AnswersFirst.inside (h : n.AnswersFirst works part a)
    (hfits : n.SectionFits part) (hbundled : Bundled a a')
    (hcryptos : CryptosOffered n.offer a') :
    ∃ desc : MediaContentDescription κ,
      a'.description = MediaKind.content desc ∧
        Inside (n.offer.offeredAs a'.name) desc := by
  obtain ⟨first, offered, desc, hfirst, hdesc, rfl, hanswered, -⟩ := h
  have hname : a'.name = first.name := hbundled.name
  have hmem : offered ∈ n.offer.offeredAs (κ := κ) a'.name :=
    mem_offeredAs.mpr ⟨first, List.mem_of_find?_eq_some hfirst, hname.symm,
      hdesc⟩
  have ha' := hbundled.description
  rw [MediaKind.setCryptos_content] at ha'
  have hcodecs := codecsFit_iff.mp (hfits first offered hfirst hdesc)
  rw [← hanswered.codecs] at hcodecs
  refine ⟨_, ha', ?_⟩
  constructor
  · exact hcodecs.1
  · intro codec hcodec
    have hcodec : codec ∈ desc.codecs := hcodec
    rw [hanswered.codecs, mem_sortCodecs, mem_negotiateCodecs] at hcodec
    obtain ⟨ours, -, theirs, htheirs, hnegotiate⟩ := hcodec
    have hnegotiated := negotiated_of_negotiate hnegotiate
    exact ⟨offered, hmem, theirs, htheirs, hnegotiated.id.symm,
      hnegotiated.matches_theirs⟩
  · exact hcodecs.2
  · intro ext hext
    have hext : ext ∈ desc.rtpHeaderExtensions := hext
    rw [hanswered.rtpHeaderExtensions] at hext
    exact ⟨offered, hmem, mem_of_mem_negotiateRtpHeaderExtensions hext⟩
  · exact fun hmux => ⟨offered, hmem, hanswered.rtcpMux hmux⟩
  · exact (cryptosOffered_iff ha').mp hcryptos

theorem AnswersFirst.sectionFits (h : n.AnswersFirst works part a)
    (hbundled : Bundled a a')
    (hinside : ∀ desc : MediaContentDescription κ,
      a'.description = MediaKind.content desc →
        Inside (n.offer.offeredAs a'.name) desc) :
    n.SectionFits part := by
  obtain ⟨first, offered, desc, hfirst, hdesc, rfl, hanswered, -⟩ := h
  have ha' := hbundled.description
  rw [MediaKind.setCryptos_content] at ha'
  have hinside := hinside _ ha'
  intro content desc' hcontent hdesc'
  rw [hfirst] at hcontent
  cases hcontent
  have hsame : offered = desc' := by
    have hoffered := MediaKind.description?_eq_some.mpr hdesc
    rw [MediaKind.description?_eq_some.mpr hdesc'] at hoffered
    exact (Option.some.inj hoffered).symm
  subst hsame
  refine codecsFit_iff.mpr ?_
  rw [← hanswered.codecs]
  exact ⟨hinside.distinct, hinside.rtx⟩

end

theorem AnswersContent.insideContent (h : n.AnswersContent works content a)
    (hcareful : n.Careful) (hbundled : Bundled a a')
    (hcryptos : CryptosOffered n.offer a') :
    InsideContent n.offer a' := by
  cases htype : content.description.type with
  | audio =>
    simp only [AnswersContent, htype] at h
    obtain ⟨desc, hdesc, hinside⟩ :=
      h.inside hcareful.audio hbundled hcryptos
    change a'.description = .audio desc at hdesc
    simpa only [InsideContent, hdesc] using hinside
  | video =>
    simp only [AnswersContent, htype] at h
    obtain ⟨desc, hdesc, hinside⟩ :=
      h.inside hcareful.video hbundled hcryptos
    change a'.description = .video desc at hdesc
    simpa only [InsideContent, hdesc] using hinside
  | data =>
    simp only [AnswersContent, htype] at h
    obtain ⟨desc, hdesc, hinside⟩ :=
      h.inside hcareful.data hbundled hcryptos
    change a'.description = .data desc at hdesc
    simpa only [InsideContent, hdesc] using hinside

theorem cryptosOffered_of_insideContent
    (h : InsideContent offer a) : CryptosOffered offer a := by
  cases hdesc : a.description with
  | audio desc =>
    simp only [InsideContent, hdesc] at h
    exact (cryptosOffered_iff (κ := AudioFields) hdesc).mpr h.cryptos
  | video desc =>
    simp only [InsideContent, hdesc] at h
    exact (cryptosOffered_iff (κ := VideoFields) hdesc).mpr h.cryptos
  | data desc =>
    simp only [InsideContent, hdesc] at h
    exact (cryptosOffered_iff (κ := Unit) hdesc).mpr h.cryptos

/-! ## The cryptos in common -/

variable {crypto : CryptoParams}

theorem cipherSuite_of_selectedCrypto
    (hbundle : n.bundleEnabled) (h : n.selectedCrypto name = some crypto) :
    crypto.cipherSuite = CS_AES_CM_128_HMAC_SHA1_80 := by
  obtain ⟨content, -, h⟩ := Option.bind_eq_some_iff.mp h
  split at h
  · have hsupported := List.find?_some h
    simpa [isSupportedCrypto, hbundle] using hsupported
  · cases h

theorem isRtpContent_of_selectedCrypto
    (h : n.selectedCrypto name = some crypto) :
    isRtpContent n.offer name := by
  obtain ⟨content, hcontent, h⟩ := Option.bind_eq_some_iff.mp h
  split at h
  · next hrtp =>
      exact isRtpContent_iff.mpr
        ⟨content, hcontent, (Bool.and_eq_true_iff.mp hrtp).1⟩
  · cases h

theorem mem_offeredCryptos
    (hcontent : n.offer.getContentByName name = some content) :
    crypto ∈ n.offeredCryptos name ↔ ∃ other ∈ n.offer.contents,
      other.name = name ∧
        other.description.type = content.description.type ∧
        crypto ∈ other.description.cryptos := by
  simp only [offeredCryptos, hcontent, List.mem_flatMap, List.mem_filter,
    Bool.and_eq_true, decide_eq_true_eq]
  constructor
  · rintro ⟨other, ⟨hmem, hname, htype⟩, hcrypto⟩
    exact ⟨other, hmem, hname, htype, hcrypto⟩
  · rintro ⟨other, hmem, hname, htype, hcrypto⟩
    exact ⟨other, ⟨hmem, hname, htype⟩, hcrypto⟩

theorem selectedCrypto_mem_offeredCryptos
    (h : n.selectedCrypto name = some crypto) :
    crypto ∈ n.offeredCryptos name := by
  obtain ⟨content, hcontent, h⟩ := Option.bind_eq_some_iff.mp h
  have hname : content.name = name := by
    have hfound := List.find?_some hcontent
    simpa using hfound
  split at h
  · exact (mem_offeredCryptos hcontent).mpr ⟨content,
      List.mem_of_find?_eq_some hcontent, hname, rfl,
      List.mem_of_find?_eq_some h⟩
  · cases h

theorem bundleEnabled_of_getGroupByName {offerBundle : ContentGroup}
    (hbundle : n.options.bundleEnabled)
    (hgroup : n.offer.getGroupByName GROUP_TYPE_BUNDLE = some offerBundle) :
    n.bundleEnabled := by
  have hhas : n.offer.hasGroup GROUP_TYPE_BUNDLE := by
    rw [SessionDescription.hasGroup, List.any_eq_true]
    exact ⟨offerBundle, List.mem_of_find?_eq_some hgroup, by
      have hfound := List.find?_some hgroup
      simpa using hfound⟩
  rw [bundleEnabled, hhas, hbundle]
  rfl

section

variable (hnames : ∀ content ∈ n.offer.contents, ∀ first,
    n.offer.firstContent content.description.type = some first →
    first.name = content.name)
  (hplace : List.Forall₂ (n.InPlace works) n.offer.contents sections)
  {answer answer' : SessionDescription} {cryptos : List CryptoParams}
  (hsections : answer.contents = sections)
  (hshares : Shares (n.groupNames answer.contents) answer answer' cryptos)

include hnames hplace hsections hshares

theorem exists_offeredCryptos_of_common (hcareful : n.Careful)
    {crypto : CryptoParams} (hcrypto : crypto ∈ cryptos)
    (hname : name ∈ n.groupNames answer.contents)
    (hrtp : isRtpContent n.offer name) :
    ∃ theirs ∈ n.offeredCryptos name, crypto.Matches theirs := by
  obtain ⟨first, rest, hgroup, hfirstRtp, hfirst, hcommon⟩ :=
    hshares.common crypto hcrypto
  have hfirstRtp := (isRtpContent_answer hnames hplace hsections).mp hfirstRtp
  obtain ⟨own, hown, hmatches⟩ : ∃ own, n.selectedCrypto first = some own ∧
      crypto.Matches own := by
    rcases (answersCrypto_of_isRtpContent hnames hplace hsections
      hfirstRtp).matching with hnil | ⟨own, chosen, hown, hone, hmatches⟩
    · rw [hnil] at hfirst
      cases hfirst
    · rw [hone, List.mem_singleton] at hfirst
      exact ⟨own, hown, hfirst ▸ hmatches⟩
  have hrest : ∀ name ∈ rest, isRtpContent n.offer name →
      (n.selectedCrypto name).isSome := by
    intro other hother hotherRtp
    obtain ⟨it, hit, -⟩ := hcommon other hother
      ((isRtpContent_answer hnames hplace hsections).mpr hotherRtp)
    rcases (answersCrypto_of_isRtpContent hnames hplace hsections
      hotherRtp).matching with hnil | ⟨theirs, chosen, htheirs, -⟩
    · rw [hnil] at hit
      cases hit
    · rw [htheirs]
      rfl
  rw [hgroup] at hname
  rcases List.mem_cons.mp hname with rfl | hname
  · exact ⟨own, selectedCrypto_mem_offeredCryptos hown, hmatches⟩
  · have hshared : n.SharesCrypto (first :: rest) := by
      rw [groupNames] at hgroup
      split at hgroup
      · next offerBundle hoffer =>
          split at hgroup
          · next hbundle =>
              rw [← hgroup, answerBundle_answer hnames hplace hsections]
              exact hcareful.cryptos hbundle offerBundle hoffer
          · cases hgroup
      · cases hgroup
    obtain ⟨theirs, htheirs, hown⟩ := hshared own hown hrest name hname hrtp
    exact ⟨theirs, htheirs, CryptoParams.matches_trans hmatches hown⟩

theorem cryptosOffered_of_careful (hcareful : n.Careful)
    (hin : n.InPlace works content a)
    (hgets : GetsCryptos answer cryptos (n.groupNames answer.contents) a a') :
    CryptosOffered n.offer a' := by
  rcases hgets with rfl | ⟨rfl, hname, hfound, hrtp⟩
  · obtain ⟨first, hsection⟩ := hin.answers.sectionOf
    intro crypto hcrypto
    rcases hsection.cryptos.matching with hnil | ⟨theirs, chosen, hselected,
      hone, hmatches⟩
    · rw [hnil] at hcrypto
      cases hcrypto
    · rw [hone, List.mem_singleton] at hcrypto
      refine ⟨first, List.mem_of_find?_eq_some hsection.found,
        hsection.name.symm, ?_, theirs, ?_, hcrypto ▸ hmatches⟩
      · rw [hsection.type, type_of_firstContent hsection.found]
      · rw [selected] at hselected
        split at hselected
        · cases hselected
        · exact List.mem_of_find?_eq_some hselected
  · intro crypto hcrypto
    rw [ContentInfo.withCryptos, ContentDescription.cryptos_setCryptos]
      at hcrypto
    obtain ⟨own, hown, hsection⟩ :=
      sectionOf_of_getContentByName hnames hplace hsections hfound
    have hrtp : isRtpContent n.offer a.name :=
      isRtpContent_iff.mpr ⟨own, hown, hsection.protocol ▸ hrtp⟩
    obtain ⟨theirs, htheirs, hmatches⟩ := exists_offeredCryptos_of_common
      hnames hplace hsections hshares hcareful hcrypto hname hrtp
    obtain ⟨other, hother, hothername, htype, hmem⟩ :=
      (mem_offeredCryptos hown).mp htheirs
    refine ⟨other, hother, hothername, ?_, theirs, hmem, hmatches⟩
    rw [ContentInfo.withCryptos, ContentDescription.type_setCryptos,
      hsection.type, htype]

/-- An answer that stays inside the offer has a crypto in common only if it is
offered for all the bundled contents. -/
theorem sharesCrypto_of_insideOffer (hworks : works)
    (hinside : InsideOffer n.offer answer') {offerBundle : ContentGroup}
    (hbundle : n.options.bundleEnabled)
    (hoffer : n.offer.getGroupByName GROUP_TYPE_BUNDLE = some offerBundle) :
    n.SharesCrypto (n.bundledNames offerBundle) := by
  have hgroup : n.groupNames answer.contents =
      n.bundledNames offerBundle := by
    simp only [groupNames, hoffer, if_pos hbundle]
    exact answerBundle_answer hnames hplace hsections offerBundle
  have henabled := bundleEnabled_of_getGroupByName hbundle hoffer
  -- What is selected is also answered, since all keys can be drawn.
  have hselected : ∀ name theirs, n.selectedCrypto name = some theirs →
      ∃ crypto, cryptosByName answer name = [crypto] ∧
        crypto.Matches theirs := by
    intro name theirs htheirs
    have hanswers := answersCrypto_of_isRtpContent hnames hplace hsections
      (isRtpContent_of_selectedCrypto htheirs)
    rcases hanswers.matching with hnil | ⟨own, crypto, hown, hone, hmatches⟩
    · exact absurd hnil (hanswers.complete hworks (by rw [htheirs]; rfl))
    · rw [htheirs] at hown
      cases hown
      exact ⟨crypto, hone, hmatches⟩
  rw [← hgroup]
  cases hcases : n.groupNames answer.contents with
  | nil => trivial
  | cons first rest =>
    intro own hown hrest name hname hrtp
    obtain ⟨crypto, hcrypto, hmatches⟩ := hselected first own hown
    have hfirstRtp := (isRtpContent_answer hnames hplace hsections).mpr
      (isRtpContent_of_selectedCrypto hown)
    have hcommon : IsCommon answer rest crypto := by
      intro other hother hotherRtp
      have hotherRtp :=
        (isRtpContent_answer hnames hplace hsections).mp hotherRtp
      obtain ⟨theirs, htheirs⟩ := Option.isSome_iff_exists.mp
        (hrest other hother hotherRtp)
      obtain ⟨it, hit, hitmatches⟩ := hselected other theirs htheirs
      refine ⟨it, by rw [hit]; exact List.mem_singleton_self it, ?_⟩
      rw [(CryptoParams.matches_iff.mp hitmatches).2,
        (CryptoParams.matches_iff.mp hmatches).2,
        cipherSuite_of_selectedCrypto henabled htheirs,
        cipherSuite_of_selectedCrypto henabled hown]
    obtain ⟨hmem, hshared⟩ := hshares.shared crypto first rest hcases
      hfirstRtp (by rw [hcrypto]; exact List.mem_singleton_self crypto)
      hcommon
    obtain ⟨content, hcontent, hprotocol⟩ := isRtpContent_iff.mp hrtp
    obtain ⟨a, ha, hsection⟩ :=
      getContentByName_answer hnames hplace hsections hcontent
    have hoffered := cryptosOffered_of_insideContent (hinside.contents _
      (hshared name hname a ha (hsection.protocol ▸ hprotocol)))
    obtain ⟨other, hother, hothername, htype, theirs, htheirs, hcmatches⟩ :=
      hoffered crypto (by
        rwa [ContentInfo.withCryptos, ContentDescription.cryptos_setCryptos])
    have haname : a.name = name := by
      have hfound := List.find?_some ha
      simpa using hfound
    refine ⟨theirs, (mem_offeredCryptos hcontent).mpr ⟨other, hother, ?_,
      ?_, htheirs⟩, CryptoParams.matches_trans
        (CryptoParams.matches_symm hmatches) hcmatches⟩
    · rw [hothername, ContentInfo.name_withCryptos, haname]
    · rw [htype, ContentInfo.withCryptos, ContentDescription.type_setCryptos,
        hsection.type]

end

/-! ## Answers -/

theorem names_of_forall₂ {cryptos : List CryptoParams} {names : List Str} {contents' : List ContentInfo}
    (h : List.Forall₂ (GetsCryptos sdesc cryptos names) contents contents') :
    contents'.map ContentInfo.name = contents.map ContentInfo.name := by
  induction h with
  | nil => rfl
  | cons ha hl ih => rw [List.map_cons, List.map_cons, ha.name_eq, ih]

/-- With careful offers and settings, whatever is drawn, an answer stays inside
the offer. When no string fails to be drawn, it only does so with careful offers
and settings. -/
theorem insideOffer_iff {random : Random} {answer : SessionDescription}
    (h : n.createAnswer random = some answer) :
    (n.Careful → InsideOffer n.offer answer) ∧
      (random.Works → InsideOffer n.offer answer → n.Careful) := by
  obtain ⟨s, hfold, hbundle⟩ := Option.bind_eq_some_iff.mp h
  obtain ⟨sections, hsections, hanswers⟩ := foldlM_addSection_spec hfold
  obtain ⟨cryptos, hshares⟩ := shares_of_bundleAnswer hbundle
  rw [List.nil_append] at hsections
  have hanswerNames : answer.contents.map ContentInfo.name =
      sections.map ContentInfo.name :=
    hsections ▸ names_of_forall₂ hshares.contents
  constructor
  · intro hcareful
    have hnames := (names_eq_iff hanswers).mpr hcareful.names
    have hplace := forall₂_inPlace hanswers hnames
    refine ⟨hanswerNames.trans hnames, ?_⟩
    intro a' ha'
    obtain ⟨a, ha, hgets⟩ := exists_of_forall₂ hshares.contents.flip ha'
    rw [hsections] at ha
    obtain ⟨content, -, hin⟩ := exists_of_forall₂ hplace.flip ha
    exact AnswersContent.insideContent hin.answers hcareful
      (bundled_of_getsCryptos hgets)
      (cryptosOffered_of_careful hcareful.names hplace hsections hshares
        hcareful hin hgets)
  · intro hworks hinside
    have hnames := (names_eq_iff hanswers).mp
      (hanswerNames.symm.trans hinside.names)
    have hplace := forall₂_inPlace hanswers
      (hanswerNames.symm.trans hinside.names)
    have hfits : ∀ {κ : Type} [MediaKind κ] (part : AnswerSection κ),
        (∀ content a, content.description.type = MediaKind.type κ →
          n.AnswersContent random.Works content a →
            n.AnswersFirst random.Works part a) →
        (∀ a (desc : MediaContentDescription κ),
          a.description = MediaKind.content desc →
            InsideContent n.offer a → Inside (n.offer.offeredAs a.name) desc) →
        n.SectionFits part := by
      intro κ _ part hanswersFirst hinsideContent content desc hfirst hdesc
      have hmem := List.mem_of_find?_eq_some hfirst
      obtain ⟨a, ha, hanswer⟩ := exists_of_forall₂ hanswers hmem
      rw [← hsections] at ha
      obtain ⟨a', ha', hgets⟩ := exists_of_forall₂ hshares.contents ha
      have hsection := hanswersFirst content a
        (type_of_firstContent hfirst) hanswer
      exact hsection.sectionFits (bundled_of_getsCryptos hgets)
        (fun desc hdesc => hinsideContent a' desc hdesc
          (hinside.contents a' ha')) content desc hfirst hdesc
    constructor
    · exact hnames
    · refine hfits _ (fun content a htype h => ?_) (fun a desc hdesc h => ?_)
      · change content.description.type = .audio at htype
        simpa only [AnswersContent, htype] using h
      · change a.description = .audio desc at hdesc
        simpa only [InsideContent, hdesc] using h
    · refine hfits _ (fun content a htype h => ?_) (fun a desc hdesc h => ?_)
      · change content.description.type = .video at htype
        simpa only [AnswersContent, htype] using h
      · change a.description = .video desc at hdesc
        simpa only [InsideContent, hdesc] using h
    · refine hfits _ (fun content a htype h => ?_) (fun a desc hdesc h => ?_)
      · change content.description.type = .data at htype
        simpa only [AnswersContent, htype] using h
      · change a.description = .data desc at hdesc
        simpa only [InsideContent, hdesc] using h
    · intro hbundled offerBundle hoffer
      exact sharesCrypto_of_insideOffer hnames hplace hsections hshares
        hworks hinside hbundled hoffer

end Negotiation

def rtxCodecs : List VideoCodec :=
  let codec (id : Int32) (name : Str) (params : StdMap Str Str) : VideoCodec :=
    ⟨id, name, 90000, 0, params, [], ⟨640, 400, 30⟩⟩
  let apt := kCodecParamAssociatedPayloadType
  [codec 100 ['V', 'P', '8'] .empty,
    codec 101 ['r', 't', 'x'] (StdMap.empty.assign apt ['1', '0', '0']),
    codec 102 ['H', '2', '6', '4'] .empty,
    codec 103 ['r', 't', 'x'] (StdMap.empty.assign apt ['1', '0', '2'])]

/-- A video content with some codecs is offered to an application that supports
the same ones. -/
def videoNegotiation (codecs : List VideoCodec) : Negotiation where
  factory := ⟨[], [], codecs, [], [], .enabled, false⟩
  transportDescFactory := ⟨fun _ => some none⟩
  offer :=
    { contents := [⟨['v'], .rtp, false, .video
        { protocol := kMediaProtocolSavpf
          rtcpMux := true
          bandwidth := kAutoBandwidth
          cryptos := [⟨1, CS_AES_CM_128_HMAC_SHA1_80, kInline, []⟩]
          cryptoRequired := .sdes
          rtpHeaderExtensions := []
          multistream := false
          streams := []
          direction := .sendrecv
          codecs := codecs }⟩]
      transportInfos := []
      contentGroups := [⟨GROUP_TYPE_BUNDLE, [['v']]⟩] }
  options := ⟨true, true, .none, true, true, true, kAutoBandwidth,
    kAutoBandwidth, ⟨false⟩, []⟩
  currentDescription := none

def drawn : Random :=
  ⟨[], [some ['u'], some ['p'], some ['k']]⟩

/-- The payload types of the sections of an answer. -/
def payloadTypes (answer : SessionDescription) : List (List Int32) :=
  answer.contents.filterMap fun content =>
    content.description.video?.map fun desc => desc.codecs.map Codec.id

theorem Negotiation.insideOffer_iff_oneCodec :
    ∃ answer, (videoNegotiation (rtxCodecs.take 2)).createAnswer drawn =
        some answer ∧
      (InsideOffer (videoNegotiation (rtxCodecs.take 2)).offer answer →
        (videoNegotiation (rtxCodecs.take 2)).Careful) := by
  have hrun : ∃ answer,
      (videoNegotiation (rtxCodecs.take 2)).createAnswer drawn =
        some answer := ⟨_, rfl⟩
  obtain ⟨answer, hanswer⟩ := hrun
  have hworks : drawn.Works := by simp [Random.Works, drawn]
  exact ⟨answer, hanswer, (insideOffer_iff hanswer).2 hworks⟩

/-- Each of two RTX codecs answers both offered RTX codecs. -/
theorem not_insideOffer_rtxCodecs :
    ∃ answer, (videoNegotiation rtxCodecs).createAnswer drawn = some answer ∧
      ¬InsideOffer (videoNegotiation rtxCodecs).offer answer := by
  have hrun : ∃ answer,
      (videoNegotiation rtxCodecs).createAnswer drawn = some answer ∧
        payloadTypes answer = [[100, 101, 103, 102, 101, 103]] :=
    ⟨_, rfl, rfl⟩
  obtain ⟨answer, hanswer, htypes⟩ := hrun
  refine ⟨answer, hanswer, fun hinside => ?_⟩
  have hmem : [(100 : Int32), 101, 103, 102, 101, 103] ∈ payloadTypes answer := by
    rw [htypes]
    exact List.mem_singleton_self _
  obtain ⟨content, hcontent, hvideo⟩ := List.mem_filterMap.mp hmem
  obtain ⟨desc, hdesc, hids⟩ := Option.map_eq_some_iff.mp hvideo
  have hdescription : content.description = .video desc :=
    (MediaKind.description?_eq_some (κ := VideoFields)).mp hdesc
  have hsection := hinside.contents content hcontent
  simp only [InsideContent, hdescription] at hsection
  have hdistinct := hsection.distinct
  rw [hids] at hdistinct
  exact absurd hdistinct (by decide)

end WebrtcWinXp.MediaSession
