import WebrtcWinXp.Srtp.Filter

/-!
# Active filters are keyed

A run of calls is accounted for apart from the filter: the last offer that was
accepted, and the keys of the last answer or of the last direct keying that
were accepted.  An active filter should own sessions with these keys.
-/

namespace WebrtcWinXp.Srtp

open Support

inductive Event where
  | setOffer (offerParams : List CryptoParams) (source : ContentSource)
  | setProvisionalAnswer (answerParams : List CryptoParams)
      (source : ContentSource) (created : Created)
  | setAnswer (answerParams : List CryptoParams) (source : ContentSource)
      (created : Created)
  | setRtpParams (sendCs : String) (sendKey : Option (List UInt8))
      (recvCs : String) (recvKey : Option (List UInt8)) (created : Created)

/-- The policies of the two sessions. -/
structure Keys where
  send : Policy
  recv : Policy

/-- A filter with the last accepted offer and the keys that were negotiated
last. -/
structure Run where
  filter : SrtpFilter
  offered : List CryptoParams
  negotiated : Option Keys

variable (decode : String → Option (List UInt8))

/-- The keys of two crypto parameters, if they can be parsed. -/
def keysOf (sendParams recvParams : CryptoParams) : Option Keys :=
  (SrtpFilter.parseKeyParams decode sendParams.keyParams).bind fun sendKey =>
    (SrtpFilter.parseKeyParams decode recvParams.keyParams).map fun recvKey =>
      ⟨⟨.anyOutbound, sendParams.cipherSuite, sendKey⟩,
        ⟨.anyInbound, recvParams.cipherSuite, recvKey⟩⟩

/-- The parameters that are sent with and received with: those of the answer
and those of the offer that the answer matches. -/
def agreedParams (offered : List CryptoParams) (answer : CryptoParams)
    (source : ContentSource) : Option (CryptoParams × CryptoParams) :=
  (offered.find? answer.matchesParams).map fun selected =>
    if source = .csRemote then (selected, answer) else (answer, selected)

def answeredKeys (offered : List CryptoParams)
    (answerParams : List CryptoParams) (source : ContentSource) :
    Option Keys :=
  answerParams.head?.bind fun answer =>
    (agreedParams offered answer source).bind fun p => keysOf decode p.1 p.2

namespace Run

variable (r : Run)

/-- What a call returns is accounted for when it is true. -/
def step : Event → Option Run
  | .setOffer offerParams source =>
    let (f, ok) := r.filter.setOffer offerParams source
    some ⟨f, if ok then offerParams else r.offered, r.negotiated⟩
  | .setProvisionalAnswer answerParams source created =>
    let (f, ok) :=
      r.filter.doSetAnswer decode answerParams source false created
    some ⟨f, r.offered,
      if ok then answeredKeys decode r.offered answerParams source
      else r.negotiated⟩
  | .setAnswer answerParams source created =>
    let (f, ok) :=
      r.filter.doSetAnswer decode answerParams source true created
    some ⟨f, r.offered,
      if ok then answeredKeys decode r.offered answerParams source
      else r.negotiated⟩
  | .setRtpParams sendCs sendKey recvCs recvKey created =>
    let (f, ok) :=
      r.filter.setRtpParams sendCs sendKey recvCs recvKey created
    some ⟨f, r.offered,
      if ok then
        sendKey.bind fun sendKey => recvKey.map fun recvKey =>
          ⟨⟨.anyOutbound, sendCs, sendKey⟩, ⟨.anyInbound, recvCs, recvKey⟩⟩
      else r.negotiated⟩

def Started : Prop := r = ⟨.new, [], none⟩

/-! ## What should hold -/

/-- An active filter has sessions with the negotiated keys. -/
def Keyed : Prop :=
  r.filter.isActive → ∃ keys, r.negotiated = some keys ∧
    r.filter.sendSession = some ⟨some keys.send⟩ ∧
    r.filter.recvSession = some ⟨some keys.recv⟩

/-- A packet only goes to the library with the given key. -/
def UsesKey (key : Option Policy) (use : SrtpFilter.PacketUse) : Prop :=
  match use with
  | .refused => True
  | .missing => False
  | .keyed policy => key = some policy

/-- Packets only go to the library with negotiated keys. -/
def UsesNegotiated : Prop :=
  UsesKey (r.negotiated.map Keys.send) r.filter.protectRtp ∧
    UsesKey (r.negotiated.map Keys.send) r.filter.protectRtcp ∧
    UsesKey (r.negotiated.map Keys.recv) r.filter.unprotectRtp ∧
    UsesKey (r.negotiated.map Keys.recv) r.filter.unprotectRtcp

def Creatable (sendCs : String) (sendKey : Option (List UInt8))
    (recvCs : String) (recvKey : Option (List UInt8)) (created : Created) :
    Prop :=
  (SrtpSession.supports sendCs sendKey ∧ created.send) ∧
    (SrtpSession.supports recvCs recvKey ∧ created.recv)

/-- An answer in crypto parameters that do not count as applied already makes
sessions, which succeeds if the filter is active.  Parameters without a cipher
suite do not count as applied. -/
def CarefulAnswer (answerParams : List CryptoParams) (source : ContentSource)
    (created : Created) : Prop :=
  r.filter.expectAnswer source → ∀ answer sendParams recvParams,
    answerParams = [answer] →
    agreedParams r.filter.offerParams answer source =
      some (sendParams, recvParams) →
    if r.filter.sameParams sendParams recvParams then
      sendParams.cipherSuite ≠ ""
    else
      r.filter.isActive → ∀ sendKey recvKey,
        SrtpFilter.parseKeyParams decode sendParams.keyParams = some sendKey →
        SrtpFilter.parseKeyParams decode recvParams.keyParams = some recvKey →
        Creatable sendParams.cipherSuite sendKey recvParams.cipherSuite recvKey
          created

/-- The first offer is not repeated before its answer, and whenever an active
filter makes new sessions this succeeds. -/
def Careful : Event → Prop
  | .setOffer _ source =>
    ¬ (r.filter.state = .sentOffer ∧ source = .csLocal) ∧
      ¬ (r.filter.state = .receivedOffer ∧ source = .csRemote)
  | .setProvisionalAnswer answerParams source created =>
    r.CarefulAnswer decode answerParams source created
  | .setAnswer answerParams source created =>
    r.CarefulAnswer decode answerParams source created
  | .setRtpParams sendCs sendKey recvCs recvKey created =>
    r.filter.isActive → r.filter.state ≠ .active →
      Creatable sendCs sendKey recvCs recvKey created

end Run

section

variable {f : SrtpFilter} {sendCs recvCs : String}
  {sendKey recvKey : Option (List UInt8)} {created : Created}

theorem SrtpSession.setKey_new (type : SsrcType) {cs : String}
    {key : Option (List UInt8)} {ok : Bool} (h : supports cs key ∧ ok) :
    ∃ k, key = some k ∧
      SrtpSession.new.setKey type cs key ok = (⟨some ⟨type, cs, k⟩⟩, true) := by
  obtain ⟨hs, rfl⟩ := h
  obtain ⟨_, k, hk, _⟩ := of_decide_eq_true hs
  refine ⟨k, hk, ?_⟩
  rw [setKey, hs, hk]
  rfl

theorem SrtpSession.setKey_new_of_not (type : SsrcType) {cs : String}
    {key : Option (List UInt8)} {ok : Bool} (h : ¬ (supports cs key ∧ ok)) :
    SrtpSession.new.setKey type cs key ok = (.new, false) := by
  cases hs : supports cs key with
  | false =>
    rw [setKey, hs]
    rfl
  | true =>
    cases ok with
    | false =>
      rw [setKey, hs]
      rfl
    | true => exact absurd ⟨hs, rfl⟩ h

theorem setKeys_of_creatable
    (h : Run.Creatable sendCs sendKey recvCs recvKey created) :
    ∃ sk rk, sendKey = some sk ∧ recvKey = some rk ∧
      f.setKeys sendCs sendKey recvCs recvKey created =
        ({ f with
           sendSession := some ⟨some ⟨.anyOutbound, sendCs, sk⟩⟩
           recvSession := some ⟨some ⟨.anyInbound, recvCs, rk⟩⟩
           appliedSendParams := .empty
           appliedRecvParams := .empty }, true) := by
  obtain ⟨sk, hsk, hsend⟩ := SrtpSession.setKey_new .anyOutbound h.1
  obtain ⟨rk, hrk, hrecv⟩ := SrtpSession.setKey_new .anyInbound h.2
  refine ⟨sk, rk, hsk, hrk, ?_⟩
  rw [SrtpFilter.setKeys, SrtpSession.setSend, hsend, SrtpSession.setRecv,
    hrecv]
  rfl

theorem setKeys_of_not_creatable
    (h : ¬ Run.Creatable sendCs sendKey recvCs recvKey created) :
    ∃ send, f.setKeys sendCs sendKey recvCs recvKey created =
      ({ f with
         sendSession := some send
         recvSession := some .new
         appliedSendParams := .empty
         appliedRecvParams := .empty }, false) := by
  by_cases hsend : SrtpSession.supports sendCs sendKey ∧ created.send
  · have hrecv := SrtpSession.setKey_new_of_not .anyInbound
      fun hrecv => h ⟨hsend, hrecv⟩
    obtain ⟨sk, _, hsend⟩ :=
      SrtpSession.setKey_new .anyOutbound hsend
    refine ⟨⟨some ⟨.anyOutbound, sendCs, sk⟩⟩, ?_⟩
    rw [SrtpFilter.setKeys, SrtpSession.setSend, hsend, SrtpSession.setRecv,
      hrecv]
    rfl
  · have hsend := SrtpSession.setKey_new_of_not .anyOutbound hsend
    refine ⟨.new, ?_⟩
    rw [SrtpFilter.setKeys, SrtpSession.setSend, hsend]
    rfl

end

/-! ## What an answer does -/

/-- The filter after an answer that requests crypto. -/
def SrtpFilter.concluded (f : SrtpFilter) (source : ContentSource)
    (final : Bool) : SrtpFilter :=
  if final then
    { f with
      offerParams := []
      state := .active }
  else
    { f with
      state :=
        if source = .csLocal then .sentPranswer else .receivedPranswer }

/-- The filter with sessions for applied parameters. -/
def SrtpFilter.withKeys (f : SrtpFilter) (keys : Keys)
    (sendParams recvParams : CryptoParams) : SrtpFilter :=
  { f with
    sendSession := some ⟨some keys.send⟩
    recvSession := some ⟨some keys.recv⟩
    appliedSendParams := sendParams
    appliedRecvParams := recvParams }

/-- The filter after sessions could not be keyed. -/
def SrtpFilter.withoutKeys (f : SrtpFilter) (send : SrtpSession) :
    SrtpFilter :=
  { f with
    sendSession := some send
    recvSession := some .new
    appliedSendParams := .empty
    appliedRecvParams := .empty }

def SrtpFilter.unencrypted (f : SrtpFilter) (source : ContentSource)
    (final : Bool) : SrtpFilter :=
  if final then f.resetParams
  else
    { f with
      state :=
        if source = .csLocal then .sentPranswerNoCrypto
        else .receivedPranswerNoCrypto }

def Keys.Creatable (keys : Keys) (created : Created) : Prop :=
  Run.Creatable keys.send.cipherSuite (some keys.send.key)
    keys.recv.cipherSuite (some keys.recv.key) created

/-- The cases of `DoSetAnswer` with what it returns. -/
inductive Answered (f : SrtpFilter) (answerParams : List CryptoParams)
    (source : ContentSource) (final : Bool) (created : Created) :
    SrtpFilter × Bool → Prop where
  | refused (h : f.expectAnswer source → ∀ answer p, answerParams = [answer] →
      agreedParams f.offerParams answer source = some p →
        f.sameParams p.1 p.2 = false ∧ keysOf decode p.1 p.2 = none) :
      Answered f answerParams source final created (f, false)
  | unencrypted (hexpect : f.expectAnswer source) (hanswer : answerParams = []) :
      Answered f answerParams source final created
        (f.unencrypted source final, true)
  | same {answer : CryptoParams} {p : CryptoParams × CryptoParams}
      (hexpect : f.expectAnswer source) (hanswer : answerParams = [answer])
      (hagreed : agreedParams f.offerParams answer source = some p)
      (hsame : f.sameParams p.1 p.2) :
      Answered f answerParams source final created
        (f.concluded source final, true)
  | applied {answer : CryptoParams} {p : CryptoParams × CryptoParams}
      {keys : Keys}
      (hexpect : f.expectAnswer source) (hanswer : answerParams = [answer])
      (hagreed : agreedParams f.offerParams answer source = some p)
      (hsame : f.sameParams p.1 p.2 = false)
      (hkeys : keysOf decode p.1 p.2 = some keys)
      (hcreatable : keys.Creatable created) :
      Answered f answerParams source final created
        ((f.withKeys keys p.1 p.2).concluded source final, true)
  | failed {answer : CryptoParams} {p : CryptoParams × CryptoParams}
      {keys : Keys} (send : SrtpSession)
      (hexpect : f.expectAnswer source) (hanswer : answerParams = [answer])
      (hagreed : agreedParams f.offerParams answer source = some p)
      (hsame : f.sameParams p.1 p.2 = false)
      (hkeys : keysOf decode p.1 p.2 = some keys)
      (hcreatable : ¬ keys.Creatable created) :
      Answered f answerParams source final created (f.withoutKeys send, false)

variable {decode}

variable {sendParams recvParams : CryptoParams} {keys : Keys}

theorem keysOf_eq_some
    (h : keysOf decode sendParams recvParams = some keys) :
    ∃ sendKey recvKey,
      SrtpFilter.parseKeyParams decode sendParams.keyParams = some sendKey ∧
      SrtpFilter.parseKeyParams decode recvParams.keyParams = some recvKey ∧
      keys = ⟨⟨.anyOutbound, sendParams.cipherSuite, sendKey⟩,
        ⟨.anyInbound, recvParams.cipherSuite, recvKey⟩⟩ := by
  obtain ⟨sendKey, hsend, h⟩ := Option.bind_eq_some_iff.mp h
  obtain ⟨recvKey, hrecv, rfl⟩ := Option.map_eq_some_iff.mp h
  exact ⟨sendKey, recvKey, hsend, hrecv, rfl⟩

/-- `ApplyParams` returns its third case exactly when no keys are parsed. -/
theorem applyParams_of_keysOf_none {f : SrtpFilter} {created : Created}
    (hsame : f.sameParams sendParams recvParams = false)
    (hkeys : keysOf decode sendParams recvParams = none) :
    f.applyParams decode sendParams recvParams created = (f, false) := by
  rw [SrtpFilter.applyParams, hsame]
  cases hsend : SrtpFilter.parseKeyParams decode sendParams.keyParams with
  | none => rfl
  | some sendKey =>
    cases hrecv : SrtpFilter.parseKeyParams decode recvParams.keyParams with
    | none => rfl
    | some recvKey =>
      rw [keysOf, hsend, hrecv] at hkeys
      cases hkeys

theorem applyParams_of_creatable {f : SrtpFilter} {created : Created}
    (hsame : f.sameParams sendParams recvParams = false)
    (hkeys : keysOf decode sendParams recvParams = some keys)
    (hcreatable : keys.Creatable created) :
    f.applyParams decode sendParams recvParams created =
      (f.withKeys keys sendParams recvParams, true) := by
  obtain ⟨sendKey, recvKey, hsend, hrecv, rfl⟩ := keysOf_eq_some hkeys
  obtain ⟨sk, rk, hsk, hrk, heq⟩ := setKeys_of_creatable (f := f) hcreatable
  cases hsk
  cases hrk
  rw [SrtpFilter.applyParams, hsame, hsend, hrecv, if_neg Bool.false_ne_true]
  dsimp only at heq ⊢
  rw [heq]
  rfl

theorem applyParams_of_not_creatable {f : SrtpFilter} {created : Created}
    (hsame : f.sameParams sendParams recvParams = false)
    (hkeys : keysOf decode sendParams recvParams = some keys)
    (hcreatable : ¬ keys.Creatable created) :
    ∃ send, f.applyParams decode sendParams recvParams created =
      (f.withoutKeys send, false) := by
  obtain ⟨sendKey, recvKey, hsend, hrecv, rfl⟩ := keysOf_eq_some hkeys
  obtain ⟨send, heq⟩ := setKeys_of_not_creatable (f := f) hcreatable
  refine ⟨send, ?_⟩
  rw [SrtpFilter.applyParams, hsame, hsend, hrecv, if_neg Bool.false_ne_true]
  dsimp only at heq ⊢
  rw [heq]
  rfl

theorem doSetAnswer_of_agreed {f : SrtpFilter} {answer : CryptoParams}
    {source : ContentSource} {p : CryptoParams × CryptoParams}
    (hexpect : f.expectAnswer source)
    (hagreed : agreedParams f.offerParams answer source = some p) (final : Bool)
    (created : Created) :
    f.doSetAnswer decode [answer] source final created =
      if (f.applyParams decode p.1 p.2 created).2 then
        ((f.applyParams decode p.1 p.2 created).1.concluded source final, true)
      else ((f.applyParams decode p.1 p.2 created).1, false) := by
  obtain ⟨selected, hfind, rfl⟩ := Option.map_eq_some_iff.mp hagreed
  unfold SrtpFilter.doSetAnswer
  rw [hexpect]
  dsimp only [SrtpFilter.negotiateParams]
  rw [hfind]
  have hsend : (if source = .csRemote then (selected, answer)
      else (answer, selected)).1 =
        if source = .csRemote then selected else answer := by
    split_ifs <;> rfl
  have hrecv : (if source = .csRemote then (selected, answer)
      else (answer, selected)).2 =
        if source = .csRemote then answer else selected := by
    split_ifs <;> rfl
  rw [hsend, hrecv]
  dsimp only
  generalize f.applyParams decode _ _ created = result
  obtain ⟨g, ok⟩ := result
  cases ok <;> cases final <;> rfl

theorem doSetAnswer_eq_self {f : SrtpFilter} {answerParams : List CryptoParams}
    {source : ContentSource} (hne : answerParams ≠ [])
    (hagreed : ∀ answer, answerParams = [answer] →
      agreedParams f.offerParams answer source = none)
    (final : Bool) (created : Created) :
    f.doSetAnswer decode answerParams source final created = (f, false) := by
  unfold SrtpFilter.doSetAnswer
  have hnone : f.negotiateParams answerParams = none := by
    unfold SrtpFilter.negotiateParams
    split
    · rename_i answer
      exact Option.map_eq_none_iff.mp (hagreed answer rfl)
    · rfl
  cases answerParams with
  | nil => exact absurd rfl hne
  | cons answer rest =>
    dsimp only
    rw [hnone]
    cases f.expectAnswer source <;> rfl

theorem answered (f : SrtpFilter) (answerParams : List CryptoParams)
    (source : ContentSource) (final : Bool) (created : Created) :
    Answered decode f answerParams source final created
      (f.doSetAnswer decode answerParams source final created) := by
  cases hexpect : f.expectAnswer source with
  | false =>
    have heq : f.doSetAnswer decode answerParams source final created =
        (f, false) := by
      unfold SrtpFilter.doSetAnswer
      rw [hexpect]
      rfl
    rw [heq]
    refine .refused fun htrue => ?_
    rw [hexpect] at htrue
    cases htrue
  | true =>
    by_cases hnil : answerParams = []
    · subst hnil
      have heq : f.doSetAnswer decode [] source final created =
          (f.unencrypted source final, true) := by
        unfold SrtpFilter.doSetAnswer
        rw [hexpect]
        cases final <;> rfl
      rw [heq]
      exact .unencrypted hexpect rfl
    · by_cases hagreed : ∃ answer p, answerParams = [answer] ∧
          agreedParams f.offerParams answer source = some p
      · obtain ⟨answer, p, rfl, hagreed⟩ := hagreed
        rw [doSetAnswer_of_agreed hexpect hagreed]
        cases hsame : f.sameParams p.1 p.2 with
        | true =>
          have heq : f.applyParams decode p.1 p.2 created = (f, true) := by
            unfold SrtpFilter.applyParams
            rw [hsame, if_pos rfl]
          rw [heq]
          exact .same hexpect rfl hagreed hsame
        | false =>
          cases hkeys : keysOf decode p.1 p.2 with
          | none =>
            rw [applyParams_of_keysOf_none hsame hkeys]
            refine .refused fun _ answer' p' hanswer' hagreed' => ?_
            cases hanswer'
            cases hagreed.symm.trans hagreed'
            exact ⟨hsame, hkeys⟩
          | some keys =>
            by_cases hcreatable : keys.Creatable created
            · rw [applyParams_of_creatable hsame hkeys hcreatable]
              exact .applied hexpect rfl hagreed hsame hkeys hcreatable
            · obtain ⟨send, heq⟩ :=
                applyParams_of_not_creatable hsame hkeys hcreatable
              rw [heq]
              exact .failed send hexpect rfl hagreed hsame hkeys
                hcreatable
      · have hnone : ∀ answer, answerParams = [answer] →
            agreedParams f.offerParams answer source = none := by
          intro answer hanswer
          cases hp : agreedParams f.offerParams answer source with
          | none => rfl
          | some p => exact absurd ⟨answer, p, hanswer, hp⟩ hagreed
        rw [doSetAnswer_eq_self hnil hnone]
        refine .refused fun _ answer p hanswer hp => ?_
        exact absurd ⟨answer, p, hanswer, hp⟩ hagreed

namespace Run

variable (decode) in
structure Inv (r : Run) : Prop where
  sendRtcp : r.filter.sendRtcpSession = none
  recvRtcp : r.filter.recvRtcpSession = none
  inactive : r.filter.isActive = false → r.negotiated = none
  keyed : r.Keyed
  offered : r.filter.state ≠ .init → r.filter.state ≠ .active →
    r.filter.offerParams = r.offered
  applied :
    (r.filter.appliedSendParams.cipherSuite = "" ∧
      r.filter.appliedSendParams.keyParams = "") ∨
    ∃ keys, keysOf decode r.filter.appliedSendParams
        r.filter.appliedRecvParams = some keys ∧
      r.filter.sendSession = some ⟨some keys.send⟩ ∧
      r.filter.recvSession = some ⟨some keys.recv⟩ ∧
      r.filter.appliedSendParams.cipherSuite ≠ ""

variable {r t : Run}

theorem Started.inv (h : r.Started) : r.Inv decode := by
  subst h
  exact ⟨rfl, rfl, fun _ => rfl, fun h => absurd h Bool.false_ne_true,
    fun h => absurd rfl h, Or.inl ⟨rfl, rfl⟩⟩

theorem not_keyed_of_negotiated_none (hactive : r.filter.isActive)
    (hnone : r.negotiated = none) : ¬ r.Keyed := by
  intro h
  obtain ⟨keys, hkeys, _⟩ := h hactive
  rw [hnone] at hkeys
  cases hkeys

variable {source : ContentSource}

theorem expectOffer_cases {f : SrtpFilter}
    (h : f.expectOffer source) :
    f.state = .init ∨ f.state ≠ .init ∧ f.isActive ∨
      (f.state = .sentOffer ∧ source = .csLocal ∨
        f.state = .receivedOffer ∧ source = .csRemote) := by
  have h := of_decide_eq_true h
  rcases h with h | h | ⟨h, hs⟩ | ⟨h, _⟩ | ⟨h, hs⟩ | ⟨h, _⟩
  · exact Or.inl h
  · exact Or.inr (Or.inl (by rw [SrtpFilter.isActive, h]; decide))
  · exact Or.inr (Or.inr (Or.inl ⟨h, hs⟩))
  · exact Or.inr (Or.inl (by rw [SrtpFilter.isActive, h]; decide))
  · exact Or.inr (Or.inr (Or.inr ⟨h, hs⟩))
  · exact Or.inr (Or.inl (by rw [SrtpFilter.isActive, h]; decide))

theorem isActive_storeParams {f : SrtpFilter} (h : f.state ≠ .init)
    (offerParams : List CryptoParams) (source : ContentSource) :
    (f.storeParams offerParams source).isActive := by
  unfold SrtpFilter.storeParams
  rw [if_neg h]
  cases source <;> rfl

theorem Inv.setOffer (h : r.Inv decode) {offerParams : List CryptoParams} (hcareful : r.Careful decode
      (.setOffer offerParams source))
    (hstep : r.step decode (.setOffer offerParams source) = some t) :
    t.Inv decode := by
  cases hexpect : r.filter.expectOffer source with
  | false =>
    rw [step, SrtpFilter.setOffer, hexpect] at hstep
    cases hstep
    exact h
  | true =>
    rw [step, SrtpFilter.setOffer, hexpect] at hstep
    cases hstep
    refine ⟨h.sendRtcp, h.recvRtcp, ?_, ?_, fun _ _ => rfl, h.applied⟩
    · intro hactive
      by_cases hinit : r.filter.state = .init
      · refine h.inactive ?_
        rw [SrtpFilter.isActive, hinit]
        rfl
      · rw [isActive_storeParams hinit] at hactive
        cases hactive
    · rcases expectOffer_cases hexpect with hinit | ⟨_, hactive⟩ | hfirst
      · intro hactive
        unfold SrtpFilter.storeParams at hactive
        rw [if_pos hinit] at hactive
        cases source <;> cases hactive
      · exact fun _ => h.keyed hactive
      · rcases hfirst with hfirst | hfirst
        · exact absurd hfirst hcareful.1
        · exact absurd hfirst hcareful.2

theorem Inv.not_keyed_setOffer (h : r.Inv decode)
    {offerParams : List CryptoParams}
    (hcareless : ¬ r.Careful decode (.setOffer offerParams source))
    (hstep : r.step decode (.setOffer offerParams source) = some t) :
    ¬ t.Keyed := by
  have hfirst : r.filter.state = .sentOffer ∧ source = .csLocal ∨
      r.filter.state = .receivedOffer ∧ source = .csRemote := by
    by_contra hne
    exact hcareless ⟨fun h => hne (Or.inl h), fun h => hne (Or.inr h)⟩
  have hexpect : r.filter.expectOffer source = true := by
    rw [SrtpFilter.expectOffer]
    rcases hfirst with ⟨hstate, rfl⟩ | ⟨hstate, rfl⟩ <;> rw [hstate] <;> rfl
  have hinactive : r.filter.isActive = false := by
    rw [SrtpFilter.isActive]
    rcases hfirst with ⟨hstate, _⟩ | ⟨hstate, _⟩ <;> rw [hstate] <;> rfl
  have hinit : r.filter.state ≠ .init := by
    rcases hfirst with ⟨hstate, _⟩ | ⟨hstate, _⟩ <;> rw [hstate] <;> decide
  rw [step, SrtpFilter.setOffer, hexpect] at hstep
  cases hstep
  exact not_keyed_of_negotiated_none (isActive_storeParams hinit _ _)
    (h.inactive hinactive)

/-! ### Answers -/

variable (decode) in
def answerWith (r : Run) (answerParams : List CryptoParams)
    (source : ContentSource) (result : SrtpFilter × Bool) : Run :=
  ⟨result.1, r.offered,
    if result.2 then answeredKeys decode r.offered answerParams source
    else r.negotiated⟩

theorem expectAnswer_state {f : SrtpFilter}
    (h : f.expectAnswer source) : f.state ≠ .init ∧ f.state ≠ .active := by
  constructor
  · intro hstate
    rw [SrtpFilter.expectAnswer, hstate] at h
    cases source <;> cases h
  · intro hstate
    rw [SrtpFilter.expectAnswer, hstate] at h
    cases source <;> cases h

theorem Inv.answeredKeys_eq (h : r.Inv decode)
    {answer : CryptoParams} {p : CryptoParams × CryptoParams}
    (hexpect : r.filter.expectAnswer source)
    (hagreed : agreedParams r.filter.offerParams answer source = some p) :
    answeredKeys decode r.offered [answer] source = keysOf decode p.1 p.2 := by
  obtain ⟨hinit, hactive⟩ := expectAnswer_state hexpect
  rw [h.offered hinit hactive] at hagreed
  change (agreedParams r.offered answer source).bind _ = _
  rw [hagreed]
  rfl

theorem isActive_concluded (f : SrtpFilter) (source : ContentSource)
    (final : Bool) : (f.concluded source final).isActive := by
  cases final <;> cases source <;> rfl

theorem isActive_unencrypted (f : SrtpFilter) (source : ContentSource)
    (final : Bool) : (f.unencrypted source final).isActive = false := by
  cases final <;> cases source <;> rfl

variable (decode) in
theorem keysOf_of_sameParams {f : SrtpFilter}
    {sendParams recvParams : CryptoParams}
    (h : f.sameParams sendParams recvParams) :
    keysOf decode sendParams recvParams =
      keysOf decode f.appliedSendParams f.appliedRecvParams := by
  obtain ⟨hsendCs, hsendKey, hrecvCs, hrecvKey⟩ := of_decide_eq_true h
  rw [keysOf, keysOf, hsendCs, hsendKey, hrecvCs, hrecvKey]

theorem concluded_sendSession (f : SrtpFilter) (source : ContentSource)
    (final : Bool) :
    (f.concluded source final).sendSession = f.sendSession := by
  cases final <;> rfl

theorem concluded_recvSession (f : SrtpFilter) (source : ContentSource)
    (final : Bool) :
    (f.concluded source final).recvSession = f.recvSession := by
  cases final <;> rfl

theorem Inv.concluded (h : r.Inv decode)
    (hexpect : r.filter.expectAnswer source) {f : SrtpFilter} {keys : Keys}
    (hsendRtcp : f.sendRtcpSession = none)
    (hrecvRtcp : f.recvRtcpSession = none)
    (hoffer : f.offerParams = r.filter.offerParams)
    (hkeys : keysOf decode f.appliedSendParams f.appliedRecvParams = some keys)
    (hsend : f.sendSession = some ⟨some keys.send⟩)
    (hrecv : f.recvSession = some ⟨some keys.recv⟩)
    (hcs : f.appliedSendParams.cipherSuite ≠ "") (final : Bool) :
    (Run.mk (f.concluded source final) r.offered (some keys)).Inv decode := by
  obtain ⟨hinit, hactive⟩ := expectAnswer_state hexpect
  refine ⟨?_, ?_, ?_, fun _ => ⟨keys, rfl, ?_, ?_⟩, ?_, Or.inr ⟨keys, ?_⟩⟩
  · cases final <;> exact hsendRtcp
  · cases final <;> exact hrecvRtcp
  · intro hfalse
    rw [isActive_concluded] at hfalse
    cases hfalse
  · exact (concluded_sendSession ..).trans hsend
  · exact (concluded_recvSession ..).trans hrecv
  · intro _ hne
    cases final with
    | true => exact absurd rfl hne
    | false => exact hoffer.trans (h.offered hinit hactive)
  · cases final <;> exact ⟨hkeys, hsend, hrecv, hcs⟩

theorem Creatable.send_cs_ne {sendCs recvCs : String}
    {sendKey recvKey : Option (List UInt8)} {created : Created}
    (h : Creatable sendCs sendKey recvCs recvKey created) : sendCs ≠ "" := by
  rintro rfl
  have hcs := (of_decide_eq_true h.1.1).1
  revert hcs
  decide

theorem Inv.answer (h : r.Inv decode) {answerParams : List CryptoParams} {final : Bool} {created : Created}
    {result : SrtpFilter × Bool}
    (hresult : Answered decode r.filter answerParams source final created
      result)
    (hcareful : r.CarefulAnswer decode answerParams source created) :
    (r.answerWith decode answerParams source result).Inv decode := by
  cases hresult with
  | refused _ => exact h
  | unencrypted hexpect hanswer =>
    subst hanswer
    have hinactive := isActive_unencrypted r.filter source final
    obtain ⟨hinit, hactive⟩ := expectAnswer_state hexpect
    refine ⟨?_, ?_, fun _ => rfl, fun hkeyed => ?_, fun hne _ => ?_, ?_⟩
    · cases final <;> exact h.sendRtcp
    · cases final <;> exact h.recvRtcp
    · exact absurd (hinactive.symm.trans hkeyed) Bool.false_ne_true
    · cases final with
      | true => exact absurd rfl hne
      | false => exact h.offered hinit hactive
    · cases final <;> exact h.applied
  | @same answer p hexpect hanswer hagreed hsame =>
    subst hanswer
    have hcs := hcareful hexpect answer p.1 p.2 rfl hagreed
    rw [if_pos hsame] at hcs
    have hkeys := keysOf_of_sameParams decode hsame
    have hsend := (of_decide_eq_true hsame).1
    rcases h.applied with ⟨hempty, _⟩ | ⟨keys, happlied, hs, hr, hne⟩
    · exact absurd (hsend.symm.trans hempty) hcs
    · have heq := (h.answeredKeys_eq hexpect hagreed).trans
        (hkeys.trans happlied)
      rw [answerWith, if_pos rfl, heq]
      exact h.concluded hexpect h.sendRtcp h.recvRtcp rfl happlied hs hr hne
        final
  | @applied answer p keys hexpect hanswer hagreed hsame hkeys hcreatable =>
    subst hanswer
    have hcs := Creatable.send_cs_ne hcreatable
    rw [answerWith, if_pos rfl, (h.answeredKeys_eq hexpect hagreed), hkeys]
    obtain ⟨_, _, _, _, rfl⟩ := keysOf_eq_some hkeys
    exact h.concluded hexpect (f := r.filter.withKeys _ p.1 p.2)
      h.sendRtcp h.recvRtcp rfl hkeys rfl rfl hcs final
  | @failed answer p keys send hexpect hanswer hagreed hsame hkeys hcreatable =>
    have hinactive : r.filter.isActive = false := by
      by_contra hactive
      have hactive := Bool.of_not_eq_false hactive
      have hc := hcareful hexpect answer p.1 p.2 hanswer hagreed
      rw [if_neg (Bool.not_eq_true _ ▸ hsame)] at hc
      obtain ⟨sendKey, recvKey, hsend, hrecv, rfl⟩ := keysOf_eq_some hkeys
      exact hcreatable (hc hactive sendKey recvKey hsend hrecv)
    refine ⟨h.sendRtcp, h.recvRtcp, fun _ => h.inactive hinactive,
      fun hkeyed => ?_, h.offered, Or.inl ⟨rfl, rfl⟩⟩
    exact absurd (hinactive.symm.trans hkeyed) Bool.false_ne_true

theorem Inv.not_keyed_answer (h : r.Inv decode)
    {answerParams : List CryptoParams} {final : Bool}
    {created : Created} {result : SrtpFilter × Bool}
    (hresult : Answered decode r.filter answerParams source final created
      result)
    (hcareless : ¬ r.CarefulAnswer decode answerParams source created) :
    ¬ (r.answerWith decode answerParams source result).Keyed := by
  cases hresult with
  | refused hrefused =>
    refine absurd ?_ hcareless
    intro hexpect answer sendParams recvParams hanswer hagreed
    obtain ⟨hsame, hkeys⟩ := hrefused hexpect answer _ hanswer hagreed
    rw [if_neg (Bool.not_eq_true _ ▸ hsame)]
    intro _ sendKey recvKey hsend hrecv
    dsimp only at hkeys
    rw [keysOf, hsend, hrecv] at hkeys
    cases hkeys
  | unencrypted _ hanswer =>
    refine absurd ?_ hcareless
    intro _ answer _ _ hanswer'
    cases hanswer.symm.trans hanswer'
  | @same answer p hexpect hanswer hagreed hsame =>
    subst hanswer
    have hcs : p.1.cipherSuite = "" := by
      by_contra hcs
      refine hcareless fun _ answer' sendParams recvParams hanswer' hp => ?_
      cases hanswer'
      cases hagreed.symm.trans hp
      rw [if_pos hsame]
      exact hcs
    have hsend := of_decide_eq_true hsame
    have hnone : keysOf decode p.1 p.2 = none := by
      rw [keysOf_of_sameParams decode hsame]
      rcases h.applied with ⟨_, hempty⟩ | ⟨_, _, _, _, hne⟩
      · rw [keysOf, hempty]
        rfl
      · exact absurd (hsend.1.trans hcs) hne
    refine not_keyed_of_negotiated_none (isActive_concluded ..) ?_
    exact (h.answeredKeys_eq hexpect hagreed).trans hnone
  | @applied answer p keys hexpect hanswer hagreed hsame hkeys hcreatable =>
    refine absurd ?_ hcareless
    intro _ answer' sendParams recvParams hanswer' hp
    cases hanswer.symm.trans hanswer'
    cases hagreed.symm.trans hp
    rw [if_neg (Bool.not_eq_true _ ▸ hsame)]
    intro _ sendKey recvKey hsend hrecv
    obtain ⟨_, _, hs, hr, rfl⟩ := keysOf_eq_some hkeys
    cases hs.symm.trans hsend
    cases hr.symm.trans hrecv
    exact hcreatable
  | @failed answer p keys send hexpect hanswer hagreed hsame hkeys hcreatable =>
    have hactive : r.filter.isActive := by
      by_contra hinactive
      refine hcareless fun _ answer' sendParams recvParams hanswer' hp => ?_
      cases hanswer.symm.trans hanswer'
      cases hagreed.symm.trans hp
      rw [if_neg (Bool.not_eq_true _ ▸ hsame)]
      exact fun hactive => absurd hactive hinactive
    intro hkeyed
    obtain ⟨_, _, _, hrecv⟩ := hkeyed hactive
    cases hrecv

section

variable {sendCs recvCs : String} {sendKey recvKey : Option (List UInt8)}
  {created : Created}

theorem Inv.setRtpParams (h : r.Inv decode)
    (hcareful : r.Careful decode
      (.setRtpParams sendCs sendKey recvCs recvKey created))
    (hstep : r.step decode
      (.setRtpParams sendCs sendKey recvCs recvKey created) = some t) :
    t.Inv decode := by
  rw [step, SrtpFilter.setRtpParams] at hstep
  by_cases hstate : r.filter.state = .active
  · rw [if_pos hstate] at hstep
    cases hstep
    exact h
  · rw [if_neg hstate] at hstep
    by_cases hcreatable : Creatable sendCs sendKey recvCs recvKey created
    · obtain ⟨sk, rk, rfl, rfl, heq⟩ :=
        setKeys_of_creatable (f := r.filter) hcreatable
      rw [heq] at hstep
      cases hstep
      exact ⟨h.sendRtcp, h.recvRtcp, fun hfalse => (by cases hfalse),
        fun _ => ⟨_, rfl, rfl, rfl⟩, fun _ hne => absurd rfl hne,
        Or.inl ⟨rfl, rfl⟩⟩
    · obtain ⟨send, heq⟩ := setKeys_of_not_creatable (f := r.filter) hcreatable
      rw [heq] at hstep
      cases hstep
      have hinactive : ¬ r.filter.isActive :=
        fun hactive => hcreatable (hcareful hactive hstate)
      exact ⟨h.sendRtcp, h.recvRtcp, h.inactive,
        fun hactive => absurd hactive hinactive, h.offered, Or.inl ⟨rfl, rfl⟩⟩

theorem not_keyed_setRtpParams
    (hcareless : ¬ r.Careful decode
      (.setRtpParams sendCs sendKey recvCs recvKey created))
    (hstep : r.step decode
      (.setRtpParams sendCs sendKey recvCs recvKey created) = some t) :
    ¬ t.Keyed := by
  have hactive : r.filter.isActive := by
    by_contra hinactive
    exact hcareless fun hactive => absurd hactive hinactive
  have hstate : r.filter.state ≠ .active := by
    intro hstate
    exact hcareless fun _ hne => absurd hstate hne
  have hcreatable : ¬ Creatable sendCs sendKey recvCs recvKey created :=
    fun hcreatable => hcareless fun _ _ => hcreatable
  obtain ⟨send, heq⟩ := setKeys_of_not_creatable (f := r.filter) hcreatable
  rw [step, SrtpFilter.setRtpParams, if_neg hstate, heq] at hstep
  cases hstep
  intro hkeyed
  obtain ⟨_, _, _, hrecv⟩ := hkeyed hactive
  cases hrecv

end

theorem Inv.step {e : Event} (h : r.Inv decode) (hcareful : r.Careful decode e)
    (hstep : r.step decode e = some t) : t.Inv decode := by
  cases e with
  | setOffer offerParams source => exact h.setOffer hcareful hstep
  | setProvisionalAnswer answerParams source created =>
    cases hstep
    exact h.answer (answered ..) hcareful
  | setAnswer answerParams source created =>
    cases hstep
    exact h.answer (answered ..) hcareful
  | setRtpParams sendCs sendKey recvCs recvKey created =>
    exact h.setRtpParams hcareful hstep

theorem Inv.not_keyed {e : Event} (h : r.Inv decode)
    (hcareless : ¬ r.Careful decode e) (hstep : r.step decode e = some t) :
    ¬ t.Keyed := by
  cases e with
  | setOffer offerParams source => exact h.not_keyed_setOffer hcareless hstep
  | setProvisionalAnswer answerParams source created =>
    cases hstep
    exact h.not_keyed_answer (answered ..) hcareless
  | setAnswer answerParams source created =>
    cases hstep
    exact h.not_keyed_answer (answered ..) hcareless
  | setRtpParams sendCs sendKey recvCs recvKey created =>
    exact not_keyed_setRtpParams hcareless hstep

theorem Inv.usesNegotiated (h : r.Inv decode) : r.UsesNegotiated := by
  rw [UsesNegotiated, SrtpFilter.protectRtp, SrtpFilter.protectRtcp,
    SrtpFilter.unprotectRtp, SrtpFilter.unprotectRtcp, h.sendRtcp, h.recvRtcp]
  cases hactive : r.filter.isActive with
  | false => exact ⟨trivial, trivial, trivial, trivial⟩
  | true =>
    obtain ⟨keys, hkeys, hsend, hrecv⟩ := h.keyed hactive
    rw [hkeys, hsend, hrecv]
    exact ⟨rfl, rfl, rfl, rfl⟩

variable (decode) in
/-- In careful runs an active filter has sessions with the negotiated keys and
uses no others.  The first careless call breaks this. -/
theorem keyed_of_careful
    (hr : ReachableVia Started (Run.step decode) (Run.Careful decode) r) :
    r.Keyed ∧ r.UsesNegotiated ∧
      ∀ e t, r.step decode e = some t → (t.Keyed ↔ r.Careful decode e) := by
  have h : r.Inv decode := hr.invariant (fun _ => Started.inv)
    fun _ _ _ h hcareful hstep => h.step hcareful hstep
  refine ⟨h.keyed, h.usesNegotiated, fun e t hstep => ⟨fun hkeyed => ?_,
    fun hcareful => (h.step hcareful hstep).keyed⟩⟩
  by_contra hcareless
  exact h.not_keyed hcareless hstep hkeyed

/-- Parameters with a key of zeros, and its decoding. -/
def zeroParams (cipherSuite : String) : CryptoParams where
  tag := 1
  cipherSuite
  keyParams := "inline:AAAAAAAAAAAAAAAAAAAAAAAAAAAAAAAAAAAAAAAA"
  sessionParams := ""

def decodeZeros (_ : String) : Option (List UInt8) :=
  some (List.replicate 30 0)

def answeredOffer : List Event :=
  [.setOffer [zeroParams CS_AES_CM_128_HMAC_SHA1_80] .csLocal,
    .setAnswer [zeroParams CS_AES_CM_128_HMAC_SHA1_80] .csRemote ⟨true, true⟩]

/-- A second offer and an answer that cannot be received with. -/
def refusedUpdate : List Event :=
  answeredOffer ++ [.setOffer [zeroParams CS_AES_CM_128_HMAC_SHA1_32] .csLocal,
    .setAnswer [zeroParams CS_AES_CM_128_HMAC_SHA1_32] .csRemote ⟨true, false⟩]

def repeatedOffer : List Event :=
  [.setOffer [] .csLocal, .setOffer [] .csLocal]

theorem keyed_of_careful_answeredOffer :
    ∃ r, execute (Run.step decodeZeros) ⟨.new, [], none⟩ answeredOffer =
        some r ∧
      r.filter.isActive ∧ r.UsesNegotiated := by
  have hallowed : Allowed (Run.step decodeZeros) (Run.Careful decodeZeros)
      ⟨.new, [], none⟩ answeredOffer := by
    refine ⟨⟨by rintro ⟨⟨⟩, _⟩, by rintro ⟨⟨⟩, _⟩⟩, fun t ht => ⟨?_,
      fun _ _ => trivial⟩⟩
    cases ht
    intro _ answer sendParams recvParams hanswer hagreed
    cases hanswer
    cases hagreed
    exact fun hactive => absurd hactive Bool.false_ne_true
  have hinit : ReachableVia Started (Run.step decodeZeros)
      (Run.Careful decodeZeros) ⟨.new, [], none⟩ := .init rfl
  exact ⟨_, rfl, rfl, (keyed_of_careful decodeZeros
    (hinit.execute_of_allowed rfl hallowed)).2.1⟩

/-- A first offer that is repeated makes the filter active without sessions.
An answer that is refused while the filter is active may leave its key in
use. -/
theorem not_usesNegotiated :
    (∃ r, execute (Run.step decodeZeros) ⟨.new, [], none⟩ repeatedOffer =
        some r ∧ Reachable Started (Run.step decodeZeros) r ∧
      r.filter.isActive ∧ r.filter.sendSession = none ∧
      r.filter.protectRtp = .missing) ∧
    ∃ r policy, execute (Run.step decodeZeros) ⟨.new, [], none⟩ refusedUpdate =
        some r ∧ Reachable Started (Run.step decodeZeros) r ∧
      r.filter.protectRtp = .keyed policy ∧
      r.negotiated.map Keys.send ≠ some policy := by
  constructor
  · have hr : ∃ r, execute (Run.step decodeZeros) ⟨.new, [], none⟩
        repeatedOffer = some r ∧ r.filter.isActive ∧
        r.filter.sendSession = none ∧ r.filter.protectRtp = .missing :=
      ⟨_, rfl, rfl, rfl, rfl⟩
    obtain ⟨r, hr, h⟩ := hr
    exact ⟨r, hr, reachable_of_execute rfl hr, h⟩
  · have hr : ∃ r policy, execute (Run.step decodeZeros) ⟨.new, [], none⟩
        refusedUpdate = some r ∧ r.filter.protectRtp = .keyed policy ∧
        r.negotiated.map Keys.send ≠ some policy :=
      ⟨_, _, rfl, rfl, by decide⟩
    obtain ⟨r, policy, hr, h⟩ := hr
    exact ⟨r, policy, hr, reachable_of_execute rfl hr, h⟩

end Run

end WebrtcWinXp.Srtp
