import WebrtcWinXp.Srtp.Keyed

/-!
# Rejected calls

A call that returns false should change nothing.  Sessions with the same keys
are told apart by counting how often sessions are made, since a session that is
made starts without the roll-over counters of the one that it replaces.
-/

namespace WebrtcWinXp.Srtp

/-- A filter with the number of times that its sessions were made. -/
structure NumberedFilter where
  filter : SrtpFilter
  made : ℕ

variable (decode : String → Option (List UInt8))

namespace NumberedFilter

variable (c : NumberedFilter)

def setOffer (offerParams : List CryptoParams) (source : ContentSource) :
    NumberedFilter × Bool :=
  let (f, ok) := c.filter.setOffer offerParams source
  (⟨f, c.made⟩, ok)

/-- `CreateSrtpSessions` and the keys of both sessions. -/
def setKeys (sendCs : String) (sendKey : Option (List UInt8)) (recvCs : String)
    (recvKey : Option (List UInt8)) (created : Created) :
    NumberedFilter × Bool :=
  let (f, ok) := c.filter.setKeys sendCs sendKey recvCs recvKey created
  (⟨f, c.made + 1⟩, ok)

def setRtpParams (sendCs : String) (sendKey : Option (List UInt8))
    (recvCs : String) (recvKey : Option (List UInt8)) (created : Created) :
    NumberedFilter × Bool :=
  if c.filter.state = .active then (c, false)
  else
    let (c, ok) := c.setKeys sendCs sendKey recvCs recvKey created
    if !ok then (c, false)
    else
      ({ c with
         filter := { c.filter with
           state := .active } }, true)

def applyParams (sendParams recvParams : CryptoParams) (created : Created) :
    NumberedFilter × Bool :=
  if c.filter.sameParams sendParams recvParams then (c, true)
  else
    match SrtpFilter.parseKeyParams decode sendParams.keyParams,
        SrtpFilter.parseKeyParams decode recvParams.keyParams with
    | some sendKey, some recvKey =>
      let (c, ok) := c.setKeys sendParams.cipherSuite sendKey
        recvParams.cipherSuite recvKey created
      if ok then
        ({ c with
           filter := { c.filter with
             appliedSendParams := sendParams
             appliedRecvParams := recvParams } }, true)
      else (c, false)
    | _, _ => (c, false)

def doSetAnswer (answerParams : List CryptoParams) (source : ContentSource)
    (final : Bool) (created : Created) : NumberedFilter × Bool :=
  if !c.filter.expectAnswer source then (c, false)
  else
    match answerParams with
    | [] => (⟨c.filter.unencrypted source final, c.made⟩, true)
    | answer :: _ =>
      match c.filter.negotiateParams answerParams with
      | none => (c, false)
      | some selected =>
        let sendParams := if source = .csRemote then selected else answer
        let recvParams := if source = .csRemote then answer else selected
        let (c, ok) := c.applyParams decode sendParams recvParams created
        if !ok then (c, false)
        else (⟨c.filter.concluded source final, c.made⟩, true)

def call : Event → NumberedFilter × Bool
  | .setOffer offerParams source => c.setOffer offerParams source
  | .setProvisionalAnswer answerParams source created =>
    c.doSetAnswer decode answerParams source false created
  | .setAnswer answerParams source created =>
    c.doSetAnswer decode answerParams source true created
  | .setRtpParams sendCs sendKey recvCs recvKey created =>
    c.setRtpParams sendCs sendKey recvCs recvKey created

end NumberedFilter

/-- What new sessions are keyed with. -/
structure Attempt where
  sendCs : String
  sendKey : Option (List UInt8)
  recvCs : String
  recvKey : Option (List UInt8)
  created : Created

def Attempt.Creatable (a : Attempt) : Prop :=
  Run.Creatable a.sendCs a.sendKey a.recvCs a.recvKey a.created

/-- The new sessions of an answer that is expected, matches the offer and has
keys that are not applied already. -/
def SrtpFilter.attemptAnswer (f : SrtpFilter) (answerParams : List CryptoParams)
    (source : ContentSource) (created : Created) : Option Attempt :=
  if f.expectAnswer source then
    match answerParams with
    | [answer] =>
      (agreedParams f.offerParams answer source).bind fun p =>
        if f.sameParams p.1 p.2 then none
        else
          (keysOf decode p.1 p.2).map fun keys =>
            ⟨keys.send.cipherSuite, keys.send.key, keys.recv.cipherSuite,
              keys.recv.key, created⟩
    | _ => none
  else none

def SrtpFilter.attempt (f : SrtpFilter) : Event → Option Attempt
  | .setOffer _ _ => none
  | .setProvisionalAnswer answerParams source created =>
    f.attemptAnswer decode answerParams source created
  | .setAnswer answerParams source created =>
    f.attemptAnswer decode answerParams source created
  | .setRtpParams sendCs sendKey recvCs recvKey created =>
    if f.state = .active then none
    else some ⟨sendCs, sendKey, recvCs, recvKey, created⟩

section

variable {decode} {f : SrtpFilter} {c : NumberedFilter}
  {answerParams : List CryptoParams} {source : ContentSource} {final : Bool}
  {created : Created} {a : Attempt}

theorem attemptAnswer_eq_some_iff :
    f.attemptAnswer decode answerParams source created = some a ↔
      f.expectAnswer source ∧ ∃ answer p keys, answerParams = [answer] ∧
        agreedParams f.offerParams answer source = some p ∧
        f.sameParams p.1 p.2 = false ∧ keysOf decode p.1 p.2 = some keys ∧
        a = ⟨keys.send.cipherSuite, keys.send.key, keys.recv.cipherSuite,
          keys.recv.key, created⟩ := by
  constructor
  · intro h
    unfold SrtpFilter.attemptAnswer at h
    split at h
    · rename_i hexpect
      split at h
      · rename_i answer
        obtain ⟨p, hagreed, h⟩ := Option.bind_eq_some_iff.mp h
        split at h
        · cases h
        · rename_i hsame
          obtain ⟨keys, hkeys, rfl⟩ := Option.map_eq_some_iff.mp h
          exact ⟨hexpect, answer, p, keys, rfl, hagreed,
            eq_false_of_ne_true hsame, hkeys, rfl⟩
      · cases h
    · cases h
  · rintro ⟨hexpect, answer, p, keys, rfl, hagreed, hsame, hkeys, rfl⟩
    rw [SrtpFilter.attemptAnswer, if_pos hexpect, hagreed, Option.bind_some, hsame, hkeys]
    rfl

theorem setKeys_eq (sendCs : String) (sendKey : Option (List UInt8))
    (recvCs : String) (recvKey : Option (List UInt8)) :
    c.setKeys sendCs sendKey recvCs recvKey created =
      (⟨(c.filter.setKeys sendCs sendKey recvCs recvKey created).1, c.made + 1⟩,
        (c.filter.setKeys sendCs sendKey recvCs recvKey created).2) := rfl

theorem setRtpParams_filter (sendCs : String) (sendKey : Option (List UInt8))
    (recvCs : String) (recvKey : Option (List UInt8)) :
    c.setRtpParams sendCs sendKey recvCs recvKey created =
      (⟨(c.filter.setRtpParams sendCs sendKey recvCs recvKey created).1,
          if c.filter.state = .active then c.made else c.made + 1⟩,
        (c.filter.setRtpParams sendCs sendKey recvCs recvKey created).2) := by
  rw [NumberedFilter.setRtpParams, SrtpFilter.setRtpParams, setKeys_eq]
  split_ifs with hactive
  · rfl
  · dsimp only
    cases (c.filter.setKeys sendCs sendKey recvCs recvKey created).2 <;> rfl

theorem applyParams_filter (sendParams recvParams : CryptoParams) :
    c.applyParams decode sendParams recvParams created =
      (⟨(c.filter.applyParams decode sendParams recvParams created).1,
          if c.filter.sameParams sendParams recvParams then c.made
          else (keysOf decode sendParams recvParams).elim c.made
            fun _ => c.made + 1⟩,
        (c.filter.applyParams decode sendParams recvParams created).2) := by
  rw [NumberedFilter.applyParams, SrtpFilter.applyParams, keysOf]
  split_ifs with hsame
  · rfl
  · cases SrtpFilter.parseKeyParams decode sendParams.keyParams with
    | none => rfl
    | some sendKey =>
      cases SrtpFilter.parseKeyParams decode recvParams.keyParams with
      | none => rfl
      | some recvKey =>
        dsimp only
        rw [setKeys_eq]
        dsimp only
        cases (c.filter.setKeys sendParams.cipherSuite sendKey
          recvParams.cipherSuite recvKey created).2 <;> rfl

theorem doSetAnswer_filter :
    c.doSetAnswer decode answerParams source final created =
      (⟨(c.filter.doSetAnswer decode answerParams source final created).1,
          (c.filter.attemptAnswer decode answerParams source created).elim
            c.made fun _ => c.made + 1⟩,
        (c.filter.doSetAnswer decode answerParams source final created).2) := by
  unfold NumberedFilter.doSetAnswer SrtpFilter.doSetAnswer
    SrtpFilter.attemptAnswer
  cases c.filter.expectAnswer source with
  | false => rfl
  | true =>
    cases answerParams with
    | nil =>
      cases final <;> rfl
    | cons answer rest =>
      cases rest with
      | cons _ _ => rfl
      | nil =>
        dsimp only [SrtpFilter.negotiateParams]
        rw [agreedParams]
        cases c.filter.offerParams.find? answer.matchesParams with
        | none => rfl
        | some selected =>
          have hpair : (if source = .csRemote then (selected, answer)
              else (answer, selected)) =
                (if source = .csRemote then selected else answer,
                  if source = .csRemote then answer else selected) := by
            split_ifs <;> rfl
          rw [Option.map_some, Option.bind_some, hpair]
          dsimp only
          generalize (if source = .csRemote then selected
            else answer) = sendParams
          generalize (if source = .csRemote then answer
            else selected) = recvParams
          rw [applyParams_filter]
          cases c.filter.sameParams sendParams recvParams <;>
            cases keysOf decode sendParams recvParams <;>
            cases (c.filter.applyParams decode sendParams recvParams
              created).2 <;>
            cases final <;> rfl

/-! ## What a rejected call changes -/

theorem doSetAnswer_eq_self_of_attempt_none
    (h : f.attemptAnswer decode answerParams source created = none)
    (hrejected :
      (f.doSetAnswer decode answerParams source final created).2 = false) :
    (f.doSetAnswer decode answerParams source final created).1 = f := by
  have hcases : Answered decode f answerParams source final created
      (f.doSetAnswer decode answerParams source final created) :=
    answered f answerParams source final created
  generalize f.doSetAnswer decode answerParams source final created = result
    at hcases hrejected
  cases hcases with
  | refused => rfl
  | unencrypted => cases hrejected
  | same => cases hrejected
  | applied => cases hrejected
  | failed send hexpect hanswer hagreed hsame hkeys =>
    rw [attemptAnswer_eq_some_iff.mpr
      ⟨hexpect, _, _, _, hanswer, hagreed, hsame, hkeys, rfl⟩] at h
    cases h

theorem doSetAnswer_accepted_iff
    (h : f.attemptAnswer decode answerParams source created = some a) :
    (f.doSetAnswer decode answerParams source final created).2 = true ↔
      a.Creatable := by
  obtain ⟨hexpect, answer, p, keys, rfl, hagreed, hsame, hkeys, rfl⟩ :=
    attemptAnswer_eq_some_iff.mp h
  rw [doSetAnswer_of_agreed hexpect hagreed]
  by_cases hcreatable : keys.Creatable created
  · rw [applyParams_of_creatable hsame hkeys hcreatable]
    exact iff_of_true rfl hcreatable
  · obtain ⟨send, heq⟩ := applyParams_of_not_creatable hsame hkeys hcreatable
    rw [heq]
    exact iff_of_false Bool.false_ne_true hcreatable

theorem setRtpParams_accepted_iff {sendCs recvCs : String}
    {sendKey recvKey : Option (List UInt8)} (h : f.state ≠ .active) :
    (f.setRtpParams sendCs sendKey recvCs recvKey created).2 = true ↔
      Run.Creatable sendCs sendKey recvCs recvKey created := by
  rw [SrtpFilter.setRtpParams, if_neg h]
  by_cases hcreatable : Run.Creatable sendCs sendKey recvCs recvKey created
  · obtain ⟨sk, rk, -, -, heq⟩ := setKeys_of_creatable (f := f) hcreatable
    rw [heq]
    exact iff_of_true rfl hcreatable
  · obtain ⟨send, heq⟩ := setKeys_of_not_creatable (f := f) hcreatable
    rw [heq]
    exact iff_of_false Bool.false_ne_true hcreatable

theorem call_eq_self {e : Event} (h : c.filter.attempt decode e = none)
    (hrejected : (c.call decode e).2 = false) : (c.call decode e).1 = c := by
  have hanswer : ∀ answerParams source created final,
      c.filter.attemptAnswer decode answerParams source created = none →
      (c.doSetAnswer decode answerParams source final created).2 = false →
      (c.doSetAnswer decode answerParams source final created).1 = c := by
    intro answerParams source created final h hrejected
    rw [doSetAnswer_filter, h] at hrejected ⊢
    rw [doSetAnswer_eq_self_of_attempt_none h hrejected]
    rfl
  cases e with
  | setOffer offerParams source =>
    rw [NumberedFilter.call, NumberedFilter.setOffer, SrtpFilter.setOffer]
      at hrejected ⊢
    cases hexpect : c.filter.expectOffer source with
    | false => rfl
    | true =>
      rw [hexpect] at hrejected
      cases hrejected
  | setProvisionalAnswer answerParams source created =>
    exact hanswer answerParams source created false h hrejected
  | setAnswer answerParams source created =>
    exact hanswer answerParams source created true h hrejected
  | setRtpParams sendCs sendKey recvCs recvKey created =>
    have hactive : c.filter.state = .active := by
      by_contra hactive
      rw [SrtpFilter.attempt, if_neg hactive] at h
      cases h
    rw [NumberedFilter.call, NumberedFilter.setRtpParams, if_pos hactive]

theorem call_of_attempt {e : Event}
    (h : c.filter.attempt decode e = some a) :
    (c.call decode e).1.made = c.made + 1 ∧
      ((c.call decode e).2 = true ↔ a.Creatable) := by
  have hanswer : ∀ answerParams source created final,
      c.filter.attemptAnswer decode answerParams source created = some a →
      (c.doSetAnswer decode answerParams source final created).1.made =
          c.made + 1 ∧
        ((c.doSetAnswer decode answerParams source final created).2 = true ↔
          a.Creatable) := by
    intro answerParams source created final h
    rw [doSetAnswer_filter, h]
    exact ⟨rfl, doSetAnswer_accepted_iff h⟩
  cases e with
  | setOffer offerParams source => cases h
  | setProvisionalAnswer answerParams source created =>
    exact hanswer answerParams source created false h
  | setAnswer answerParams source created =>
    exact hanswer answerParams source created true h
  | setRtpParams sendCs sendKey recvCs recvKey created =>
    rw [SrtpFilter.attempt] at h
    split at h
    · cases h
    · rename_i hactive
      rw [Option.some_inj] at h
      subst h
      rw [NumberedFilter.call, setRtpParams_filter, if_neg hactive]
      exact ⟨rfl, setRtpParams_accepted_iff hactive⟩

variable (decode c) in
/-- A rejected call changes nothing exactly when it makes no new sessions or
these can be keyed. -/
theorem rejected_unchanged_iff (e : Event) :
    ((c.call decode e).2 = false → (c.call decode e).1 = c) ↔
      ∀ a ∈ c.filter.attempt decode e, a.Creatable := by
  cases hattempt : c.filter.attempt decode e with
  | none => exact iff_of_true (call_eq_self hattempt) nofun
  | some a =>
    obtain ⟨hmade, haccepted⟩ := call_of_attempt hattempt
    constructor
    · intro h a' ha'
      cases ha'
      by_contra hcreatable
      have hself := h (eq_false_of_ne_true (hcreatable ∘ haccepted.mp))
      rw [hself] at hmade
      omega
    · intro h hrejected
      rw [haccepted.mpr (h a rfl)] at hrejected
      cases hrejected

end

/-- A filter that is active with the keys of an answer and has sent an updated
offer. -/
def updatedFilter : NumberedFilter where
  filter :=
    { SrtpFilter.new with
      state := .sentUpdatedOffer
      offerParams := [Run.zeroParams CS_AES_CM_128_HMAC_SHA1_32]
      sendSession := some ⟨some ⟨.anyOutbound, CS_AES_CM_128_HMAC_SHA1_80,
        List.replicate 30 0⟩⟩
      recvSession := some ⟨some ⟨.anyInbound, CS_AES_CM_128_HMAC_SHA1_80,
        List.replicate 30 0⟩⟩
      appliedSendParams := Run.zeroParams CS_AES_CM_128_HMAC_SHA1_80
      appliedRecvParams := Run.zeroParams CS_AES_CM_128_HMAC_SHA1_80 }
  made := 1

/-- The new receive session cannot be made, and the one that was in use is
gone. -/
theorem not_forall_rejected_unchanged :
    ¬∀ (decode : String → Option (List UInt8)) (c : NumberedFilter) (e : Event),
      (c.call decode e).2 = false → (c.call decode e).1 = c := by
  intro h
  have hsame := h Run.decodeZeros updatedFilter
    (.setAnswer [Run.zeroParams CS_AES_CM_128_HMAC_SHA1_32] .csRemote
      ⟨true, false⟩) (by decide)
  have hrecv := congrArg
    (fun c => c.filter.recvSession.bind SrtpSession.policy) hsame
  revert hrecv
  decide

end WebrtcWinXp.Srtp
