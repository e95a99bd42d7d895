import WebrtcWinXp.MediaSession.Answer

/-!
# Bundled sections

The sections that are bundled get the cryptos that they have in common, and
nothing else of them changes.
-/

namespace WebrtcWinXp.MediaSession

open Support

namespace ContentDescription

variable (desc : ContentDescription) (cryptos cryptos' : List CryptoParams)

@[simp] theorem cryptos_setCryptos :
    (desc.setCryptos cryptos).cryptos = cryptos := by
  cases desc <;> rfl

@[simp] theorem protocol_setCryptos :
    (desc.setCryptos cryptos).protocol = desc.protocol := by
  cases desc <;> rfl

@[simp] theorem type_setCryptos :
    (desc.setCryptos cryptos).type = desc.type := by
  cases desc <;> rfl

@[simp] theorem setCryptos_setCryptos :
    (desc.setCryptos cryptos).setCryptos cryptos' = desc.setCryptos cryptos' := by
  cases desc <;> rfl

end ContentDescription

namespace ContentInfo

variable (content : ContentInfo) (cryptos cryptos' : List CryptoParams)

def withCryptos : ContentInfo :=
  { content with
    description := content.description.setCryptos cryptos }

@[simp] theorem name_withCryptos :
    (content.withCryptos cryptos).name = content.name := rfl

@[simp] theorem withCryptos_withCryptos :
    (content.withCryptos cryptos).withCryptos cryptos' =
      content.withCryptos cryptos' := by
  simp [withCryptos]

end ContentInfo

def cryptosByName (sdesc : SessionDescription) (name : Str) :
    List CryptoParams :=
  ((sdesc.getContentByName name).map fun content =>
    content.description.cryptos).getD []

/-- A crypto whose cipher suite all the RTP contents of some names have. -/
def IsCommon (sdesc : SessionDescription) (names : List Str)
    (crypto : CryptoParams) : Prop :=
  ∀ name ∈ names, isRtpContent sdesc name →
    ∃ it ∈ cryptosByName sdesc name, it.cipherSuite = crypto.cipherSuite

section

variable {sdesc : SessionDescription} {s s' : CommonCryptos}
  {names : List Str} {name : Str} {crypto : CryptoParams}

theorem mem_pruneCryptos {filter target : List CryptoParams} :
    crypto ∈ pruneCryptos filter target ↔ crypto ∈ target ∧
      ∃ it ∈ filter, it.cipherSuite = crypto.cipherSuite := by
  simp [pruneCryptos]

theorem commonCryptos_false_ne_error :
    commonCryptos sdesc false s names ≠ .error true := by
  induction names generalizing s with
  | nil => simp [commonCryptos]
  | cons name names ih =>
    rw [commonCryptos]
    split
    · split
      · exact ih
      · simp
    · exact ih

theorem mem_commonCryptos
    (h : commonCryptos sdesc false s names = .ok s') :
    crypto ∈ s'.cryptos ↔ crypto ∈ s.cryptos ∧ IsCommon sdesc names crypto := by
  induction names generalizing s with
  | nil =>
    cases h
    simp [IsCommon]
  | cons name names ih =>
    rw [commonCryptos] at h
    split at h
    · next hrtp =>
        split at h
        · next transport content _ hcontent =>
            have hcryptos : cryptosByName sdesc name =
                content.description.cryptos := by
              rw [cryptosByName, hcontent]
              rfl
            rw [ih h]
            simp [mem_pruneCryptos, IsCommon, hrtp, hcryptos, and_assoc]
        · cases h
    · next hrtp =>
        rw [ih h]
        simp [IsCommon, hrtp]

theorem mem_commonCryptos_group
    (h : commonCryptos sdesc true ⟨false, []⟩ (name :: names) = .ok s') :
    crypto ∈ s'.cryptos ↔ isRtpContent sdesc name ∧
      crypto ∈ cryptosByName sdesc name ∧ IsCommon sdesc names crypto := by
  rw [commonCryptos] at h
  split at h
  · next hrtp =>
      split at h
      · next transport content _ hcontent =>
          have hcryptos : cryptosByName sdesc name =
              content.description.cryptos := by
            rw [cryptosByName, hcontent]
            rfl
          dsimp only at h
          rw [if_pos rfl] at h
          split at h
          · cases h
          · rw [mem_commonCryptos h, hcryptos]
            simp [hrtp]
      · cases h
  · next hrtp =>
      rw [mem_commonCryptos h]
      simp [hrtp]

theorem cryptosByName_of_error
    (h : commonCryptos sdesc true ⟨false, []⟩ (name :: names) = .error true) :
    cryptosByName sdesc name = [] := by
  rw [commonCryptos] at h
  split at h
  · split at h
    · next transport content _ hcontent =>
        dsimp only at h
        rw [if_pos rfl] at h
        split at h
        · next hempty =>
            rw [cryptosByName, hcontent]
            simpa using hempty
        · exact absurd h commonCryptos_false_ne_error
    · cases h
  · exact absurd h commonCryptos_false_ne_error

end

/-! ## Setting the cryptos in common -/

theorem find?_of_forall₂ {R : ContentInfo → ContentInfo → Prop}
    {contents contents' : List ContentInfo} {name : Str} {a : ContentInfo}
    (hR : ∀ a a', R a a' → a'.name = a.name)
    (h : List.Forall₂ R contents contents')
    (hfind : contents.find? (fun content => content.name = name) = some a) :
    ∃ a', contents'.find? (fun content => content.name = name) = some a' ∧
      R a a' := by
  induction h with
  | nil => cases hfind
  | @cons b b' l l' hb hl ih =>
    have hname' := hR b b' hb
    by_cases hname : b.name = name
    · rw [List.find?_cons_of_pos (by simpa using hname)] at hfind
      cases hfind
      exact ⟨b', List.find?_cons_of_pos (by simp [hname', hname]), hb⟩
    · rw [List.find?_cons_of_neg (by simpa using hname)] at hfind
      rw [List.find?_cons_of_neg (by simp [hname', hname])]
      exact ih hfind

theorem isRtpContent_iff {sdesc : SessionDescription} {name : Str} :
    isRtpContent sdesc name ↔ ∃ a, sdesc.getContentByName name = some a ∧
      isRtpProtocol a.description.protocol := by
  rw [isRtpContent]
  cases sdesc.getContentByName name <;> simp

/-- A content that keeps its cryptos, or a bundled RTP content that gets those
in common, if it is the first of its name. -/
def GetsCryptos (sdesc : SessionDescription) (cryptos : List CryptoParams)
    (names : List Str) (a a' : ContentInfo) : Prop :=
  a' = a ∨ a' = a.withCryptos cryptos ∧ a.name ∈ names ∧
    sdesc.getContentByName a.name = some a ∧
    isRtpProtocol a.description.protocol

section

variable {cryptos : List CryptoParams} {names : List Str} {name : Str}
  {a a' : ContentInfo} {contents contents' : List ContentInfo}
  {sdesc sdesc' : SessionDescription}

theorem GetsCryptos.name_eq (h : GetsCryptos sdesc cryptos names a a') :
    a'.name = a.name := by
  rcases h with rfl | ⟨rfl, -⟩ <;> rfl

theorem GetsCryptos.protocol_eq (h : GetsCryptos sdesc cryptos names a a') :
    a'.description.protocol = a.description.protocol := by
  rcases h with rfl | ⟨rfl, -⟩
  · rfl
  · exact ContentDescription.protocol_setCryptos _ _

theorem GetsCryptos.withCryptos_eq
    (h : GetsCryptos sdesc cryptos names a a') :
    a'.withCryptos cryptos = a.withCryptos cryptos := by
  rcases h with rfl | ⟨rfl, -⟩
  · rfl
  · exact ContentInfo.withCryptos_withCryptos _ _ _

theorem forall₂_getsCryptos_refl :
    List.Forall₂ (GetsCryptos sdesc cryptos names) contents contents :=
  List.forall₂_same.mpr fun _ _ => .inl rfl

theorem forall₂_setCryptosByName
    (h : List.Forall₂ (GetsCryptos sdesc cryptos names) contents contents')
    (hfirst : ∀ a, contents.find? (fun content => content.name = name) =
      some a → GetsCryptos sdesc cryptos names a (a.withCryptos cryptos)) :
    List.Forall₂ (GetsCryptos sdesc cryptos names) contents
      (setCryptosByName cryptos name contents') := by
  induction h with
  | nil => exact .nil
  | @cons b b' l l' hb hl ih =>
    rw [setCryptosByName]
    by_cases hname : b.name = name
    · rw [if_pos (hb.name_eq.trans hname)]
      have hgets := hfirst b (List.find?_cons_of_pos (by simpa using hname))
      rw [← hb.withCryptos_eq] at hgets
      exact .cons hgets hl
    · rw [if_neg (by rwa [hb.name_eq])]
      refine .cons hb (ih fun a ha => hfirst a ?_)
      rwa [List.find?_cons_of_neg (by simpa using hname)]

theorem find?_setCryptosByName
    (h : contents.find? (fun content => content.name = name) = some a) :
    (setCryptosByName cryptos name contents).find?
      (fun content => content.name = name) = some (a.withCryptos cryptos) := by
  induction contents with
  | nil => cases h
  | cons b l ih =>
    rw [setCryptosByName]
    by_cases hb : b.name = name
    · rw [List.find?_cons_of_pos (by simpa using hb)] at h
      cases h
      rw [if_pos hb]
      exact List.find?_cons_of_pos (by simpa using hb)
    · rw [List.find?_cons_of_neg (by simpa using hb)] at h
      rw [if_neg hb, List.find?_cons_of_neg (by simpa using hb)]
      exact ih h

theorem forall₂_setCommonCryptos (hname : name ∈ names)
    (h : List.Forall₂ (GetsCryptos sdesc cryptos names) sdesc.contents
      sdesc'.contents) :
    List.Forall₂ (GetsCryptos sdesc cryptos names) sdesc.contents
      (setCommonCryptos cryptos sdesc' name).contents := by
  rw [setCommonCryptos]
  split
  · next hrtp =>
      obtain ⟨b, hb, hprotocol⟩ := isRtpContent_iff.mp hrtp
      refine forall₂_setCryptosByName h fun a ha => ?_
      obtain ⟨a', ha', hgets⟩ :=
        find?_of_forall₂ (fun _ _ h => h.name_eq) h ha
      rw [SessionDescription.getContentByName, ha'] at hb
      cases hb
      have hfound := List.find?_some ha
      have haname : a.name = name := by simpa using hfound
      refine .inr ⟨rfl, haname ▸ hname, ?_, hgets.protocol_eq ▸ hprotocol⟩
      rw [haname]
      exact ha
  · exact h

theorem forall₂_foldl_setCommonCryptos {left : List Str}
    (hleft : ∀ name ∈ left, name ∈ names)
    (h : List.Forall₂ (GetsCryptos sdesc cryptos names) sdesc.contents
      sdesc'.contents) :
    List.Forall₂ (GetsCryptos sdesc cryptos names) sdesc.contents
      (left.foldl (setCommonCryptos cryptos) sdesc').contents := by
  induction left generalizing sdesc' with
  | nil => exact h
  | cons name left ih =>
    rw [List.foldl_cons]
    exact ih (fun name' h => hleft name' (List.mem_cons_of_mem _ h))
      (forall₂_setCommonCryptos (hleft name List.mem_cons_self) h)

theorem foldl_setCommonCryptos (left : List Str) :
    List.Forall₂ (GetsCryptos sdesc cryptos left) sdesc.contents
      (left.foldl (setCommonCryptos cryptos) sdesc).contents :=
  forall₂_foldl_setCommonCryptos (fun _ h => h) forall₂_getsCryptos_refl

theorem getContentByName_foldl_of_withCryptos {left : List Str}
    (ha : sdesc.getContentByName name = some (a.withCryptos cryptos)) :
    (left.foldl (setCommonCryptos cryptos) sdesc).getContentByName name =
      some (a.withCryptos cryptos) := by
  obtain ⟨a', ha', hgets⟩ := find?_of_forall₂ (fun _ _ h => h.name_eq)
    (foldl_setCommonCryptos left) ha
  rcases hgets with rfl | ⟨rfl, -⟩
  · exact ha'
  · rw [ContentInfo.withCryptos_withCryptos] at ha'
    exact ha'

theorem getContentByName_foldl_setCommonCryptos {left : List Str}
    (hname : name ∈ left) (ha : sdesc.getContentByName name = some a)
    (hrtp : isRtpProtocol a.description.protocol) :
    (left.foldl (setCommonCryptos cryptos) sdesc).getContentByName name =
      some (a.withCryptos cryptos) := by
  induction left generalizing sdesc a with
  | nil => cases hname
  | cons name' left ih =>
    rw [List.foldl_cons]
    rcases List.mem_cons.mp hname with rfl | hleft
    · apply getContentByName_foldl_of_withCryptos
      rw [setCommonCryptos, if_pos (isRtpContent_iff.mpr ⟨a, ha, hrtp⟩)]
      exact find?_setCryptosByName ha
    · have hstep : List.Forall₂ (GetsCryptos sdesc cryptos [name'])
          sdesc.contents (setCommonCryptos cryptos sdesc name').contents :=
        foldl_setCommonCryptos [name']
      obtain ⟨a', ha', hgets⟩ :=
        find?_of_forall₂ (fun _ _ h => h.name_eq) hstep ha
      rw [ih hleft ha' (hgets.protocol_eq ▸ hrtp), hgets.withCryptos_eq]

end

/-! ## The end of an answer -/

theorem answerBundle_eq {offerBundle : ContentGroup}
    {contents contents' : List ContentInfo}
    (h : List.Forall₂ (fun a a' : ContentInfo => a.name = a'.name ∧
      a.rejected = a'.rejected) contents contents') :
    answerBundle offerBundle contents = answerBundle offerBundle contents' := by
  rw [answerBundle, answerBundle]
  generalize (⟨GROUP_TYPE_BUNDLE, []⟩ : ContentGroup) = group
  induction h generalizing group with
  | nil => rfl
  | @cons a a' l l' ha hl ih =>
    rw [List.filter_cons, List.filter_cons, ha.1, ha.2]
    split
    · rw [List.foldl_cons, List.foldl_cons, ha.1]
      exact ih _
    · exact ih _

theorem contents_updateTransportInfoForBundle {group : ContentGroup}
    {sdesc sdesc' : SessionDescription}
    (h : updateTransportInfoForBundle group sdesc = some sdesc') :
    sdesc'.contents = sdesc.contents := by
  rw [updateTransportInfoForBundle] at h
  obtain ⟨name, -, h⟩ := Option.bind_eq_some_iff.mp h
  obtain ⟨desc, -, heq⟩ := Option.bind_eq_some_iff.mp h
  cases heq
  rfl

/-- The cryptos that the contents of a group get. -/
structure Shares (names : List Str) (sdesc sdesc' : SessionDescription)
    (cryptos : List CryptoParams) : Prop where
  contents :
    List.Forall₂ (GetsCryptos sdesc cryptos names) sdesc.contents
      sdesc'.contents
  common : ∀ crypto ∈ cryptos, ∃ first rest, names = first :: rest ∧
    isRtpContent sdesc first ∧ crypto ∈ cryptosByName sdesc first ∧
    IsCommon sdesc rest crypto
  shared : ∀ crypto first rest, names = first :: rest →
    isRtpContent sdesc first → crypto ∈ cryptosByName sdesc first →
    IsCommon sdesc rest crypto → crypto ∈ cryptos ∧
      ∀ name ∈ rest, ∀ a, sdesc.getContentByName name = some a →
        isRtpProtocol a.description.protocol →
        a.withCryptos cryptos ∈ sdesc'.contents

theorem shares_of_updateCryptoParamsForBundle {group : ContentGroup}
    {sdesc sdesc' : SessionDescription}
    (h : updateCryptoParamsForBundle group sdesc = (sdesc', true)) :
    ∃ cryptos, Shares group.contentNames sdesc sdesc' cryptos := by
  rw [updateCryptoParamsForBundle] at h
  split at h
  · cases h
  split at h
  · next herror =>
      cases h
      refine ⟨[], forall₂_getsCryptos_refl, by simp, ?_⟩
      intro crypto first rest hnames _ hcrypto
      rw [hnames] at herror
      rw [cryptosByName_of_error herror] at hcrypto
      cases hcrypto
  · next s hok =>
      split at h
      · cases h
      · cases h
        refine ⟨s.cryptos, foldl_setCommonCryptos _, ?_, ?_⟩
        · intro crypto hcrypto
          cases hnames : group.contentNames with
          | nil =>
            rw [hnames] at hok
            cases hok
            cases hcrypto
          | cons first rest =>
            rw [hnames] at hok
            exact ⟨first, rest, rfl, (mem_commonCryptos_group hok).mp hcrypto⟩
        · intro crypto first rest hnames hrtp hcrypto hcommon
          rw [hnames] at hok
          refine ⟨(mem_commonCryptos_group hok).mpr ⟨hrtp, hcrypto, hcommon⟩, ?_⟩
          intro name hname a ha hprotocol
          have hmem : name ∈ group.contentNames :=
            hnames ▸ List.mem_cons_of_mem _ hname
          exact List.mem_of_find?_eq_some
            (getContentByName_foldl_setCommonCryptos hmem ha hprotocol)

theorem Shares.of_contents_eq {names : List Str} {cryptos : List CryptoParams}
    {sdesc sdesc₁ sdesc' : SessionDescription}
    (hcontents : sdesc₁.contents = sdesc.contents)
    (h : Shares names sdesc₁ sdesc' cryptos) :
    Shares names sdesc sdesc' cryptos := by
  have hget : sdesc₁.getContentByName = sdesc.getContentByName := by
    funext name
    rw [SessionDescription.getContentByName, hcontents,
      SessionDescription.getContentByName]
  have hrtp : isRtpContent sdesc₁ = isRtpContent sdesc := by
    funext name
    rw [isRtpContent, isRtpContent, hget]
  have hcryptos : cryptosByName sdesc₁ = cryptosByName sdesc := by
    funext name
    rw [cryptosByName, cryptosByName, hget]
  have hcommon : IsCommon sdesc₁ = IsCommon sdesc := by
    funext names crypto
    rw [IsCommon, IsCommon, hrtp, hcryptos]
  have hgets : GetsCryptos sdesc₁ cryptos names =
      GetsCryptos sdesc cryptos names := by
    funext a a'
    rw [GetsCryptos, GetsCryptos, hget]
  refine ⟨?_, ?_, ?_⟩
  · rw [← hgets, ← hcontents]
    exact h.contents
  · rw [← hrtp, ← hcryptos, ← hcommon]
    exact h.common
  · rw [← hrtp, ← hcryptos, ← hcommon, ← hget]
    exact h.shared

def Negotiation.groupNames (n : Negotiation) (contents : List ContentInfo) :
    List Str :=
  match n.offer.getGroupByName GROUP_TYPE_BUNDLE with
  | some offerBundle =>
    if n.options.bundleEnabled then
      (answerBundle offerBundle contents).contentNames
    else []
  | none => []

theorem shares_nil {sdesc : SessionDescription} : Shares [] sdesc sdesc [] :=
  ⟨forall₂_getsCryptos_refl, by simp, by simp⟩

theorem eq_of_some_of_updated {r : SessionDescription × Bool}
    {sdesc : SessionDescription}
    (h : (if r.2 then some r.1 else none) = some sdesc) :
    r = (sdesc, true) := by
  split at h
  · next hupdated =>
      cases h
      exact Prod.ext rfl hupdated
  · cases h

theorem Negotiation.shares_of_bundleAnswer {n : Negotiation}
    {answer answer' : SessionDescription}
    (h : n.bundleAnswer answer = some answer') :
    ∃ cryptos, Shares (n.groupNames answer.contents) answer answer'
      cryptos := by
  cases hgroup : n.offer.getGroupByName GROUP_TYPE_BUNDLE with
  | none =>
    simp only [bundleAnswer, groupNames, hgroup] at h ⊢
    cases h
    exact ⟨[], shares_nil⟩
  | some offerBundle =>
    simp only [bundleAnswer, groupNames, hgroup] at h ⊢
    split at h
    · next hbundle =>
        rw [if_pos hbundle]
        split at h
        · next hempty =>
            cases h
            rw [List.isEmpty_iff.mp hempty]
            exact ⟨[], shares_nil⟩
        · obtain ⟨answer₁, htransport, hcryptos⟩ :=
            Option.bind_eq_some_iff.mp h
          obtain ⟨cryptos, hshares⟩ :=
            shares_of_updateCryptoParamsForBundle
              (eq_of_some_of_updated hcryptos)
          have hcontents :=
            contents_updateTransportInfoForBundle htransport
          exact ⟨cryptos, hshares.of_contents_eq hcontents⟩
    · next hbundle =>
        cases h
        rw [if_neg hbundle]
        exact ⟨[], shares_nil⟩

end WebrtcWinXp.MediaSession
