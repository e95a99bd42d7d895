import WebrtcWinXp.DataChannel.Channel
import WebrtcWinXp.Support.Transition
import Mathlib.Data.List.Basic

/-!
# The order of sent messages

On an SCTP channel the provider accepts the messages in the order in which
`Send` took them, and an open channel loses none.  The one way to break this
is a drain of the queue in which a message is blocked and a later one is
accepted.
-/

namespace WebrtcWinXp.DataChannel

open Support

/-- What is asked of a channel: the accepted messages keep the order of
`Send`, and an open channel has accepted or still holds every message. -/
structure SendOrder (s : Session) : Prop where
  ordered : s.channel.provider.accepted.Sublist s.taken
  kept : s.channel.state = .kOpen →
    s.taken.Perm
      (s.channel.provider.accepted ++ s.channel.queuedSendData.packets)

namespace Channel

variable {ch ch' ch'' : Channel} {buffer : DataBuffer}

def Shut (ch : Channel) : Prop := ch.state = .kClosing ∨ ch.state = .kClosed

/-- A change that neither sends nor queues data, and that opens a channel
only when it was connecting. -/
structure Quiet (ch ch' : Channel) : Prop where
  type_eq : ch'.dataChannelType = ch.dataChannelType
  answers_eq : ch'.provider.sendAnswers = ch.provider.sendAnswers
  accepted_eq : ch'.provider.accepted = ch.provider.accepted
  queued_eq : ch'.queuedSendData = ch.queuedSendData
  state_cases : ch.state ≠ .kConnecting → ch'.state = ch.state ∨ ch'.Shut

theorem Quiet.refl (ch : Channel) : Quiet ch ch :=
  ⟨rfl, rfl, rfl, rfl, fun _ => .inl rfl⟩

theorem Shut.ne_kConnecting (h : ch.Shut) : ch.state ≠ .kConnecting := by
  rcases h with h | h <;> simp [h]

theorem Quiet.shut (h : Quiet ch ch') (hshut : ch.Shut) : ch'.Shut := by
  rcases h.state_cases hshut.ne_kConnecting with heq | hs
  · rw [Shut, heq]
    exact hshut
  · exact hs

theorem Quiet.trans (h : Quiet ch ch') (h' : Quiet ch' ch'') :
    Quiet ch ch'' where
  type_eq := h'.type_eq.trans h.type_eq
  answers_eq := h'.answers_eq.trans h.answers_eq
  accepted_eq := h'.accepted_eq.trans h.accepted_eq
  queued_eq := h'.queued_eq.trans h.queued_eq
  state_cases := by
    intro hne
    rcases h.state_cases hne with heq | hshut
    · rcases h'.state_cases (heq ▸ hne) with heq' | hshut'
      · exact .inl (heq'.trans heq)
      · exact .inr hshut'
    · exact .inr (h'.shut hshut)

theorem setState_state (state : DataState) (ch : Channel) :
    (ch.setState state).state = state := by
  unfold setState
  split <;> simp_all

theorem quiet_setState {state : DataState}
    (h : ch.state ≠ .kConnecting → state = .kClosing ∨ state = .kClosed) :
    Quiet ch (ch.setState state) := by
  unfold setState
  split
  · exact .refl _
  · exact ⟨rfl, rfl, rfl, rfl, fun hne => .inr (h hne)⟩

theorem quiet_disconnectFromTransport (ch : Channel) :
    Quiet ch ch.disconnectFromTransport := by
  unfold disconnectFromTransport
  split
  · exact .refl _
  · exact ⟨rfl, rfl, rfl, rfl, fun _ => .inl rfl⟩

theorem quiet_updateClosing (ch : Channel) : Quiet ch ch.updateClosing := by
  unfold updateClosing
  dsimp only
  split
  · exact (quiet_disconnectFromTransport ch).trans
      (quiet_setState fun _ => .inr rfl)
  · exact quiet_disconnectFromTransport ch

/-- `Close` and `DoClose` end in a shut channel. -/
theorem quiet_shut_updateClosing (ch : Channel) {changed : Channel}
    (h : Quiet ch changed) :
    Quiet ch (updateClosing (changed.setState .kClosing)) ∧
      (updateClosing (changed.setState .kClosing)).Shut := by
  have hset : Quiet changed (changed.setState .kClosing) :=
    quiet_setState fun _ => .inl rfl
  have hupdate := quiet_updateClosing (changed.setState .kClosing)
  exact ⟨h.trans (hset.trans hupdate),
    hupdate.shut (.inl (setState_state _ _))⟩

theorem quiet_close (ch : Channel) : Quiet ch ch.close ∧ ch.close.Shut := by
  unfold close
  split
  · rename_i h
    exact ⟨.refl _, .inr h⟩
  · exact quiet_shut_updateClosing ch
      ⟨rfl, rfl, rfl, rfl, fun _ => .inl rfl⟩

theorem quiet_doClose (ch : Channel) : Quiet ch ch.doClose := by
  unfold doClose
  split
  · exact .refl _
  · refine (quiet_shut_updateClosing ch ?_).1
    exact ⟨rfl, rfl, rfl, rfl, fun _ => .inl rfl⟩

/-! ## Control messages -/

/-- The channel after a request that was not accepted. -/
def asked (ch : Channel) : Channel :=
  { ch with
    provider := { ch.provider with
      sendsAsked := ch.provider.sendsAsked + 1 } }

/-- One request to the provider. -/
structure Asked (ch ch' : Channel) : Prop where
  asked_eq : ch'.provider.sendsAsked = ch.provider.sendsAsked + 1
  shut_of_error :
    ch.provider.sendAnswers ch.provider.sendsAsked = .error → ch'.Shut

@[simp] theorem setState_provider (state : DataState) (ch : Channel) :
    (ch.setState state).provider = ch.provider := by
  unfold setState
  split <;> rfl

@[simp] theorem updateClosing_provider (ch : Channel) :
    ch.updateClosing.provider = ch.provider := by
  have hdisconnect : ch.disconnectFromTransport.provider = ch.provider := by
    unfold disconnectFromTransport
    split <;> rfl
  unfold updateClosing
  dsimp only
  split
  · rw [setState_provider, hdisconnect]
  · exact hdisconnect

@[simp] theorem close_provider (ch : Channel) :
    ch.close.provider = ch.provider := by
  unfold close
  split <;> simp

theorem sendControlMessage_spec (payload : List UInt8) (ch : Channel) :
    Quiet ch (ch.sendControlMessage payload) ∧
      Asked ch (ch.sendControlMessage payload) := by
  unfold sendControlMessage sendData
  dsimp only
  cases hanswer : ch.provider.sendAnswers ch.provider.sendsAsked with
  | success =>
    refine ⟨⟨?_, ?_, ?_, ?_, ?_⟩, ?_, ?_⟩
    all_goals
      simp only [hanswer]
      split <;> simp [Provider.accepted, toDataBuffer]
  | block =>
    exact ⟨⟨rfl, rfl, rfl, rfl, fun _ => .inl rfl⟩, rfl,
      fun h => by rw [hanswer] at h; cases h⟩
  | error =>
    obtain ⟨hquiet, hshut⟩ := quiet_close ch.asked
    refine ⟨Quiet.trans ?_ hquiet, ?_, fun _ => hshut⟩
    · exact ⟨rfl, rfl, rfl, rfl, fun _ => .inl rfl⟩
    · exact (congrArg Provider.sendsAsked (close_provider ch.asked)).trans
        rfl

theorem sendControlMessages_spec (packets : List DataBuffer) (ch : Channel) :
    let ch' := packets.foldl
      (fun ch buf => ch.sendControlMessage buf.data) ch
    Quiet ch ch' ∧
      ch'.provider.sendsAsked = ch.provider.sendsAsked + packets.length ∧
      ((∃ k < packets.length, ch.provider.sendAnswers
          (ch.provider.sendsAsked + k) = .error) → ch'.Shut) := by
  induction packets generalizing ch with
  | nil => exact ⟨.refl _, rfl, fun ⟨k, hk, _⟩ => by simp at hk⟩
  | cons packet packets ih =>
    obtain ⟨hquiet, hasked⟩ := sendControlMessage_spec packet.data ch
    obtain ⟨hquiet', hasked', herror⟩ :=
      ih (ch.sendControlMessage packet.data)
    refine ⟨hquiet.trans hquiet', ?_, ?_⟩
    · rw [List.foldl_cons, hasked', hasked.asked_eq, List.length_cons]
      omega
    · rintro ⟨k, hk, hanswer⟩
      cases k with
      | zero => exact hquiet'.shut (hasked.shut_of_error hanswer)
      | succ k =>
        refine herror ⟨k, Nat.lt_of_succ_lt_succ hk, ?_⟩
        rw [hquiet.answers_eq, hasked.asked_eq]
        rw [show ch.provider.sendsAsked + 1 + k =
          ch.provider.sendsAsked + (k + 1) by omega]
        exact hanswer

theorem sendQueuedControlMessages_spec (ch : Channel) :
    let ch' := ch.sendQueuedControlMessages
    Quiet ch ch' ∧
      ch'.provider.sendsAsked = ch.provider.sendsAsked +
        ch.queuedControlData.packets.length ∧
      ((∃ k < ch.queuedControlData.packets.length,
        ch.provider.sendAnswers (ch.provider.sendsAsked + k) = .error) →
          ch'.Shut) := by
  obtain ⟨hquiet, hasked, herror⟩ := sendControlMessages_spec
    ch.queuedControlData.packets { ch with queuedControlData := .empty }
  have hswap : Quiet ch { ch with queuedControlData := .empty } :=
    ⟨rfl, rfl, rfl, rfl, fun _ => .inl rfl⟩
  exact ⟨hswap.trans hquiet, hasked, herror⟩

theorem quiet_deliverQueuedReceivedData (ch : Channel) :
    Quiet ch ch.deliverQueuedReceivedData := by
  unfold deliverQueuedReceivedData
  split
  · exact .refl _
  · clear * -
    generalize ch.queuedReceivedData.packets = packets
    induction packets generalizing ch with
    | nil => exact .refl _
    | cons packet packets ih =>
      refine Quiet.trans ?_ (ih _)
      exact ⟨rfl, rfl, rfl, rfl, fun _ => .inl rfl⟩

theorem quiet_updateState (ch : Channel) : Quiet ch ch.updateState := by
  unfold updateState
  split
  case h_1 hstate =>
    split
    · generalize hconnected : (if ch.dataChannelType = .rtp ∧
        ¬ch.connectedToProvider then ch.connectDataChannel else ch) =
          connected
      have hconnect : Quiet ch connected := by
        subst hconnected
        split
        · exact ⟨rfl, rfl, rfl, rfl, fun _ => .inl rfl⟩
        · exact .refl _
      dsimp only
      split
      · obtain ⟨hcontrol, -, -⟩ := sendQueuedControlMessages_spec connected
        have hdeliver := quiet_deliverQueuedReceivedData
          (connected.sendQueuedControlMessages.setState .kOpen)
        have hopen : Quiet { connected.sendQueuedControlMessages with
            state := .kConnecting }
            (connected.sendQueuedControlMessages.setState .kOpen) := by
          refine ⟨?_, ?_, ?_, ?_, fun h => absurd rfl h⟩
          all_goals
            unfold setState
            split <;> rfl
        refine ⟨?_, ?_, ?_, ?_, fun h => absurd hstate h⟩
        · exact (hdeliver.type_eq.trans hopen.type_eq).trans
            (hcontrol.type_eq.trans hconnect.type_eq)
        · exact (hdeliver.answers_eq.trans hopen.answers_eq).trans
            (hcontrol.answers_eq.trans hconnect.answers_eq)
        · exact (hdeliver.accepted_eq.trans hopen.accepted_eq).trans
            (hcontrol.accepted_eq.trans hconnect.accepted_eq)
        · exact (hdeliver.queued_eq.trans hopen.queued_eq).trans
            (hcontrol.queued_eq.trans hconnect.queued_eq)
      · exact hconnect
    · exact .refl _
  case h_2 => exact .refl _
  case h_3 => exact quiet_updateClosing ch
  case h_4 => exact .refl _

theorem quiet_onDataReceived (params : ReceiveDataParams)
    (payload : List UInt8) (ch : Channel) :
    Quiet ch (ch.onDataReceived params payload) := by
  unfold onDataReceived
  dsimp only
  split
  · exact .refl _
  split
  · split
    · exact .refl _
    · split
      · exact ⟨rfl, rfl, rfl, rfl, fun _ => .inl rfl⟩
      · exact .refl _
  split
  · exact ⟨rfl, rfl, rfl, rfl, fun _ => .inl rfl⟩
  split
  · split
    · refine Quiet.trans ?_ (quiet_close _).1
      exact ⟨rfl, rfl, rfl, rfl, fun _ => .inl rfl⟩
    · exact ⟨rfl, rfl, rfl, rfl, fun _ => .inl rfl⟩
  · exact ⟨rfl, rfl, rfl, rfl, fun _ => .inl rfl⟩

/-! ## Data messages -/

/-- What one request with a data message does on an SCTP channel. -/
structure Sends (buffer : DataBuffer) (ch ch' : Channel) : Prop where
  type_eq : ch'.dataChannelType = ch.dataChannelType
  answers_eq : ch'.provider.sendAnswers = ch.provider.sendAnswers
  asked_eq : ch'.provider.sendsAsked = ch.provider.sendsAsked + 1
  accepted_eq : ch'.provider.accepted = ch.provider.accepted ++
    if ch.provider.sendAnswers ch.provider.sendsAsked = .success then [buffer]
    else []
  outcome : ch'.Shut ∨
    ch.provider.sendAnswers ch.provider.sendsAsked ≠ .error ∧
      ch'.state = ch.state ∧
      ch'.queuedSendData.packets = ch.queuedSendData.packets ++
        if ch.provider.sendAnswers ch.provider.sendsAsked = .block then
          [buffer]
        else []

theorem toDataBuffer_sendDataParams (buffer : DataBuffer) (ch : Channel) :
    toDataBuffer (ch.sendDataParams buffer, buffer.data) = some buffer := by
  obtain ⟨data, binary⟩ := buffer
  unfold sendDataParams
  dsimp only
  cases binary <;> split <;> rfl

theorem sendData_of_ne_success {result : SendDataResult}
    (hanswer : ch.provider.sendAnswers ch.provider.sendsAsked = result)
    (hne : result ≠ .success) (params : SendDataParams)
    (payload : List UInt8) :
    ch.sendData params payload = (result, ch.asked) := by
  simp [sendData, hanswer, hne, asked]

theorem asked_sends_close (hne :
    ch.provider.sendAnswers ch.provider.sendsAsked ≠ .success) :
    Sends buffer ch ch.asked.close := by
  obtain ⟨hquiet, hshut⟩ := quiet_close ch.asked
  refine ⟨hquiet.type_eq, hquiet.answers_eq, ?_, ?_, .inl hshut⟩
  · rw [close_provider]
    rfl
  · rw [close_provider, if_neg hne, List.append_nil]
    rfl

theorem sendDataMessage_sends (buffer : DataBuffer)
    (hsctp : ch.dataChannelType = .sctp) :
    Sends buffer ch (ch.sendDataMessage buffer).2 := by
  have hasked : ch.asked.dataChannelType = .sctp := hsctp
  unfold sendDataMessage
  cases hanswer : ch.provider.sendAnswers ch.provider.sendsAsked with
  | success =>
    simp only [sendData, hanswer, if_true]
    refine ⟨rfl, rfl, rfl, ?_, .inr ⟨?_, rfl, ?_⟩⟩
    · simp [hanswer, Provider.accepted, toDataBuffer_sendDataParams]
    · simp [hanswer]
    · simp [hanswer]
  | block =>
    have hne : ch.provider.sendAnswers ch.provider.sendsAsked ≠
        .success := by simp [hanswer]
    rw [sendData_of_ne_success hanswer (by simp)]
    simp only [if_pos hasked, queueSendDataMessage]
    by_cases hfull : ch.asked.queuedSendData.byteCount ≥
        kMaxQueuedSendDataBytes
    · simp only [if_pos hfull]
      exact asked_sends_close hne
    · simp only [if_neg hfull]
      refine ⟨rfl, rfl, rfl, ?_, .inr ⟨?_, rfl, ?_⟩⟩
      · simp [hanswer, Provider.accepted, asked]
      · simp [hanswer]
      · simp [hanswer, PacketQueue.push, asked]
  | error =>
    rw [sendData_of_ne_success hanswer (by simp)]
    simp only [if_pos hasked]
    exact asked_sends_close (by simp [hanswer])

/-- The messages that get a certain answer when a list of them is sent from
request `n` on. -/
def answered (result : SendDataResult) (answers : ℕ → SendDataResult) :
    ℕ → List DataBuffer → List DataBuffer
  | _, [] => []
  | n, packet :: packets =>
    if answers n = result then packet :: answered result answers (n + 1) packets
    else answered result answers (n + 1) packets

theorem answered_sublist (result : SendDataResult)
    (answers : ℕ → SendDataResult) (n : ℕ) (packets : List DataBuffer) :
    (answered result answers n packets).Sublist packets := by
  induction packets generalizing n with
  | nil => exact .refl _
  | cons packet packets ih =>
    rw [answered]
    split
    · exact (ih (n + 1)).cons_cons packet
    · exact (ih (n + 1)).cons packet

/-- After a block, no later one of `count` requests is accepted. -/
def NoneAfterBlock (answers : ℕ → SendDataResult) (first count : ℕ) : Prop :=
  ∀ i j, i < j → j < count → answers (first + i) = .block →
    answers (first + j) ≠ .success

theorem answered_of_blocked {answers : ℕ → SendDataResult} {n : ℕ}
    {packets : List DataBuffer}
    (h : ∀ k < packets.length, answers (n + k) = .block) :
    answered .success answers n packets = [] ∧
      answered .block answers n packets = packets := by
  induction packets generalizing n with
  | nil => exact ⟨rfl, rfl⟩
  | cons packet packets ih =>
    have hhead : answers n = .block := h 0 (by simp)
    obtain ⟨hsuccess, hblock⟩ := ih (n := n + 1) fun k hk => by
      rw [Nat.add_assoc, Nat.add_comm 1 k]
      exact h (k + 1) (by simpa using hk)
    simp [answered, hhead, hsuccess, hblock]

theorem answered_append {answers : ℕ → SendDataResult} {n : ℕ}
    {packets : List DataBuffer}
    (herror : ∀ k < packets.length, answers (n + k) ≠ .error)
    (horder : NoneAfterBlock answers n packets.length) :
    answered .success answers n packets ++ answered .block answers n packets =
      packets := by
  induction packets generalizing n with
  | nil => rfl
  | cons packet packets ih =>
    have hnext (k : ℕ) : n + 1 + k = n + (k + 1) := by omega
    cases hhead : answers n with
    | success =>
      have htail := ih (n := n + 1)
        (fun k hk => hnext k ▸ herror (k + 1) (by simpa using hk))
        (fun i j hij hj => hnext i ▸ hnext j ▸
          horder (i + 1) (j + 1) (by omega) (by simpa using hj))
      simp [answered, hhead, htail]
    | block =>
      have hblocked : ∀ k < packets.length,
          answers (n + 1 + k) = .block := by
        intro k hk
        have hne := horder 0 (k + 1) (by omega) (by simpa using hk) hhead
        have hne' := herror (k + 1) (by simpa using hk)
        rw [hnext]
        cases hk : answers (n + (k + 1)) <;> simp_all
      obtain ⟨hsuccess, hblock⟩ := answered_of_blocked hblocked
      simp [answered, hhead, hsuccess, hblock]
    | error => exact absurd hhead (herror 0 (by simp))

theorem sendDataMessages_spec (packets : List DataBuffer) (ch : Channel)
    (hsctp : ch.dataChannelType = .sctp) :
    let ch' := packets.foldl (fun ch buffer => (ch.sendDataMessage buffer).2) ch
    ch'.dataChannelType = .sctp ∧
      ch'.provider.accepted = ch.provider.accepted ++
        answered .success ch.provider.sendAnswers ch.provider.sendsAsked
          packets ∧
      (ch.Shut → ch'.Shut) ∧
      (ch'.Shut ∨
        (∀ k < packets.length, ch.provider.sendAnswers
          (ch.provider.sendsAsked + k) ≠ .error) ∧
        ch'.state = ch.state ∧
        ch'.queuedSendData.packets = ch.queuedSendData.packets ++
          answered .block ch.provider.sendAnswers ch.provider.sendsAsked
            packets) := by
  induction packets generalizing ch with
  | nil =>
    refine ⟨hsctp, (List.append_nil _).symm, id, .inr ⟨?_, rfl, ?_⟩⟩
    · intro k hk
      simp at hk
    · exact (List.append_nil _).symm
  | cons packet packets ih =>
    have hsend := sendDataMessage_sends packet hsctp
    obtain ⟨htype, haccepted, hshut, houtcome⟩ :=
      ih (ch.sendDataMessage packet).2
        (hsend.type_eq.trans hsctp)
    rw [hsend.answers_eq, hsend.asked_eq] at haccepted houtcome
    have hkeep : ch.Shut → (ch.sendDataMessage packet).2.Shut := by
      intro h
      rcases hsend.outcome with hs | ⟨-, heq, -⟩
      · exact hs
      · rw [Shut, heq]
        exact h
    refine ⟨htype, ?_, fun h => hshut (hkeep h), ?_⟩
    · rw [List.foldl_cons, haccepted, hsend.accepted_eq, answered]
      split <;> simp
    · rcases hsend.outcome with hs | ⟨hne, hstate, hqueue⟩
      · exact .inl (hshut hs)
      rcases houtcome with hs | ⟨herror, hstate', hqueue'⟩
      · exact .inl hs
      refine .inr ⟨?_, hstate'.trans hstate, ?_⟩
      · intro k hk
        cases k with
        | zero => exact hne
        | succ k =>
          have := herror k (Nat.lt_of_succ_lt_succ hk)
          rwa [Nat.add_assoc, Nat.add_comm 1 k] at this
      · rw [List.foldl_cons, hqueue', hqueue, answered]
        split <;> simp

/-- In a drain of the send queue no message is accepted after one that was
blocked, unless an error closes the channel. -/
def DrainsInOrder (ch : Channel) : Prop :=
  let control := ch.queuedControlData.packets.length
  let data := ch.queuedSendData.packets.length
  (∃ k < control + data, ch.provider.sendAnswers
      (ch.provider.sendsAsked + k) = .error) ∨
    NoneAfterBlock ch.provider.sendAnswers
      (ch.provider.sendsAsked + control) data

/-- A call of `Send` on an open SCTP channel takes the message, and accepts
it, queues it or shuts the channel. -/
theorem send_spec (hsctp : ch.dataChannelType = .sctp)
    (hopen : ch.state = .kOpen) (hsize : buffer.size ≠ 0) :
    let ch' := (ch.send buffer).2
    (ch.send buffer).1 = true ∧ ch'.dataChannelType = .sctp ∧
      (ch'.Shut ∧ (ch'.provider.accepted = ch.provider.accepted ∨
        ch.queuedSendData.packets = [] ∧
          ch'.provider.accepted = ch.provider.accepted ++ [buffer]) ∨
      ch'.state = .kOpen ∧
        ch'.provider.accepted ++ ch'.queuedSendData.packets =
          ch.provider.accepted ++ ch.queuedSendData.packets ++ [buffer]) := by
  unfold send
  rw [if_neg (not_not.mpr hopen), if_neg hsize]
  by_cases hempty : ch.queuedSendData.packets = []
  · have hsend := sendDataMessage_sends buffer hsctp
    rw [if_neg (by simp [PacketQueue.isEmpty, hempty])]
    have htype := hsend.type_eq.trans hsctp
    simp only [htype, reduceCtorEq, if_false]
    have haccepted := hsend.accepted_eq
    refine ⟨trivial, trivial, ?_⟩
    rcases hsend.outcome with hshut | ⟨hne, hstate, hqueue⟩
    · refine .inl ⟨hshut, ?_⟩
      split at haccepted
      · exact .inr ⟨hempty, haccepted⟩
      · exact .inl (by simpa using haccepted)
    · refine .inr ⟨hstate.trans hopen, ?_⟩
      rw [haccepted, hqueue, hempty]
      cases hanswer : ch.provider.sendAnswers ch.provider.sendsAsked with
      | success => simp
      | block => simp
      | error => exact absurd hanswer hne
  · rw [if_pos (by simp [PacketQueue.isEmpty, hempty])]
    unfold queueSendDataMessage
    by_cases hfull : ch.queuedSendData.byteCount ≥ kMaxQueuedSendDataBytes
    · obtain ⟨hquiet, hshut⟩ := quiet_close ch
      rw [if_pos hfull]
      exact ⟨rfl, hquiet.type_eq.trans hsctp,
        .inl ⟨hshut, .inl hquiet.accepted_eq⟩⟩
    · rw [if_neg hfull]
      refine ⟨rfl, hsctp, .inr ⟨hopen, ?_⟩⟩
      simp [PacketQueue.push]

theorem drain_spec (hsctp : ch.dataChannelType = .sctp)
    (hopen : ch.state = .kOpen) (horder : ch.DrainsInOrder) :
    let ch' := ch.sendQueuedControlMessages.sendQueuedDataMessages
    ch'.dataChannelType = .sctp ∧
      (ch'.Shut ∧ (∃ sent, sent.Sublist ch.queuedSendData.packets ∧
        ch'.provider.accepted = ch.provider.accepted ++ sent) ∨
      ch'.state = .kOpen ∧
        ch'.provider.accepted ++ ch'.queuedSendData.packets =
          ch.provider.accepted ++ ch.queuedSendData.packets) := by
  obtain ⟨hquiet, hasked, herror⟩ := sendQueuedControlMessages_spec ch
  set mid := ch.sendQueuedControlMessages with hmid
  have hsctp' : mid.dataChannelType = .sctp := hquiet.type_eq.trans hsctp
  obtain ⟨htype, haccepted, hshut, houtcome⟩ := sendDataMessages_spec
    mid.queuedSendData.packets { mid with queuedSendData := .empty } hsctp'
  rw [← sendQueuedDataMessages] at htype haccepted hshut houtcome
  change _ = mid.provider.accepted ++ answered .success
    mid.provider.sendAnswers mid.provider.sendsAsked _ at haccepted
  refine ⟨htype, ?_⟩
  rw [hquiet.accepted_eq, hquiet.queued_eq] at haccepted
  have hsublist : ∃ sent, sent.Sublist ch.queuedSendData.packets ∧
      mid.sendQueuedDataMessages.provider.accepted =
        ch.provider.accepted ++ sent :=
    ⟨_, answered_sublist _ _ _ _, haccepted⟩
  rcases houtcome with hs | ⟨hnone, hstate, hqueue⟩
  · exact .inl ⟨hs, hsublist⟩
  rcases hquiet.state_cases (by simp [hopen]) with hstate' | hs
  swap
  · exact .inl ⟨hshut hs, hsublist⟩
  change ∀ k < mid.queuedSendData.packets.length,
    mid.provider.sendAnswers (mid.provider.sendsAsked + k) ≠ .error at hnone
  change _ = [] ++ answered .block mid.provider.sendAnswers
    mid.provider.sendsAsked _ at hqueue
  rw [hquiet.queued_eq, hquiet.answers_eq, hasked] at hnone hqueue
  rw [hquiet.answers_eq, hasked] at haccepted
  have hnot : ¬∃ k < ch.queuedControlData.packets.length +
      ch.queuedSendData.packets.length, ch.provider.sendAnswers
        (ch.provider.sendsAsked + k) = .error := by
    rintro ⟨k, hk, hanswer⟩
    by_cases hcontrol : k < ch.queuedControlData.packets.length
    · have hs := herror ⟨k, hcontrol, hanswer⟩
      rw [Shut, hstate', hopen] at hs
      rcases hs with hs | hs <;> cases hs
    · refine hnone (k - ch.queuedControlData.packets.length) (by omega) ?_
      rw [show ch.provider.sendsAsked + ch.queuedControlData.packets.length +
        (k - ch.queuedControlData.packets.length) =
          ch.provider.sendsAsked + k by omega]
      exact hanswer
  refine .inr ⟨hstate.trans (hstate'.trans hopen), ?_⟩
  rw [haccepted, hqueue, List.nil_append, List.append_assoc,
    answered_append hnone (horder.resolve_left hnot)]

end Channel

/-! ## Runs -/

def Session.Accounted (s : Session) : Prop :=
  let accepted := s.channel.provider.accepted
  let queued := s.channel.queuedSendData.packets
  match s.channel.state with
  | .kConnecting => s.taken = [] ∧ accepted = [] ∧ queued = []
  | .kOpen => s.taken = accepted ++ queued
  | _ => accepted.Sublist s.taken

/-- The calls after which the order of the messages is kept: no empty message
is sent, and the queue is drained in order. -/
def Call.Orderly (s : Session) : Call → Prop
  | .send buffer => s.channel.state = .kOpen → buffer.size ≠ 0
  | .onChannelReady writable =>
    writable → s.channel.wasEverWritable → s.channel.state = .kOpen →
      s.channel.DrainsInOrder
  | _ => True

namespace Session

open Channel

variable {s t : Session}

theorem Accounted.sublist (h : s.Accounted) :
    s.channel.provider.accepted.Sublist s.taken := by
  unfold Accounted at h
  dsimp only at h
  split at h
  · simp [h.1, h.2.1]
  · rw [h]
    exact List.sublist_append_left _ _
  · exact h

theorem accounted_of_shut (hshut : s.channel.Shut)
    (h : s.channel.provider.accepted.Sublist s.taken) : s.Accounted := by
  unfold Accounted
  rcases hshut with hstate | hstate <;> simp only [hstate, h]

theorem accounted_of_open (hopen : s.channel.state = .kOpen)
    (h : s.taken = s.channel.provider.accepted ++
      s.channel.queuedSendData.packets) : s.Accounted := by
  unfold Accounted
  simp only [hopen, h]

theorem Accounted.quiet (h : s.Accounted) (hquiet : Quiet s.channel t.channel)
    (htaken : t.taken = s.taken) : t.Accounted := by
  by_cases hconnecting : s.channel.state = .kConnecting
  · simp only [Accounted, hconnecting] at h
    simp only [Accounted, htaken, hquiet.accepted_eq, hquiet.queued_eq, h.1,
      h.2.1, h.2.2]
    split <;> simp
  · rcases hquiet.state_cases hconnecting with hstate | hshut
    · simp only [Accounted, hstate, htaken, hquiet.accepted_eq,
        hquiet.queued_eq] at h ⊢
      exact h
    · refine accounted_of_shut hshut ?_
      rw [htaken, hquiet.accepted_eq]
      exact h.sublist

theorem quiet_sendHandshake (ch : Channel) : Quiet ch ch.sendHandshake := by
  unfold sendHandshake
  split
  · split
    · exact (sendControlMessage_spec _ ch).1
    · exact (sendControlMessage_spec _ ch).1
    · exact .refl _
  · exact .refl _

theorem quiet_connectDataChannel (ch : Channel) :
    Quiet ch ch.connectDataChannel :=
  ⟨rfl, rfl, rfl, rfl, fun _ => .inl rfl⟩

/-- Every call other than `Send` and a drain is quiet. -/
theorem quiet_apply (call : Call) {ch : Channel}
    (hsend : ∀ buffer, call ≠ .send buffer)
    (hdrain : ∀ writable, call = .onChannelReady writable →
      ¬(writable ∧ ch.wasEverWritable ∧ ch.state = .kOpen)) :
    Quiet ch (call.apply ch) := by
  cases call with
  | send buffer => exact absurd rfl (hsend buffer)
  | close => exact (quiet_close ch).1
  | onChannelReady writable =>
    have hnot := hdrain writable rfl
    change Quiet ch (ch.onChannelReady writable)
    unfold onChannelReady
    split
    · exact .refl _
    rename_i hwritable
    split
    · refine Quiet.trans ?_ ((quiet_sendHandshake _).trans
        (quiet_updateState _))
      exact ⟨rfl, rfl, rfl, rfl, fun _ => .inl rfl⟩
    rename_i hever
    split
    · rename_i hopen
      exact absurd ⟨not_not.mp hwritable, not_not.mp hever, hopen⟩ hnot
    · exact .refl _
  | onDataReceived params payload => exact quiet_onDataReceived params payload ch
  | registerObserver observer =>
    refine Quiet.trans ?_ (quiet_deliverQueuedReceivedData _)
    exact ⟨rfl, rfl, rfl, rfl, fun _ => .inl rfl⟩
  | unregisterObserver => exact ⟨rfl, rfl, rfl, rfl, fun _ => .inl rfl⟩
  | setReceiveSsrc receiveSsrc =>
    change Quiet ch (ch.setReceiveSsrc receiveSsrc)
    unfold setReceiveSsrc
    split
    · exact .refl _
    · refine Quiet.trans ?_ (quiet_updateState _)
      exact ⟨rfl, rfl, rfl, rfl, fun _ => .inl rfl⟩
  | setSendSsrc sendSsrc =>
    change Quiet ch (ch.setSendSsrc sendSsrc)
    unfold setSendSsrc
    split
    · exact .refl _
    · refine Quiet.trans ?_ (quiet_updateState _)
      exact ⟨rfl, rfl, rfl, rfl, fun _ => .inl rfl⟩
  | setSctpSid sid =>
    change Quiet ch (ch.setSctpSid sid)
    unfold setSctpSid
    split
    · exact .refl _
    · exact ⟨rfl, rfl, rfl, rfl, fun _ => .inl rfl⟩
  | onTransportChannelCreated =>
    change Quiet ch ch.onTransportChannelCreated
    unfold onTransportChannelCreated
    split
    · exact quiet_connectDataChannel ch
    · exact .refl _
  | remotePeerRequestClose => exact quiet_doClose ch
  | onDataEngineClose => exact quiet_doClose ch

/-- A call of `Send` keeps the account. -/
theorem Accounted.send (h : s.Accounted)
    (hsctp : s.channel.dataChannelType = .sctp) {buffer : DataBuffer}
    (hok : Call.Orderly s (.send buffer))
    (hstep : s.step (.send buffer) = some t) :
    t.channel.dataChannelType = .sctp ∧ t.Accounted := by
  obtain rfl := Option.some.inj hstep
  by_cases hopen : s.channel.state = .kOpen
  · obtain ⟨htrue, htype, houtcome⟩ := send_spec hsctp hopen (hok hopen)
    have haccount : s.taken = s.channel.provider.accepted ++
        s.channel.queuedSendData.packets := by
      simpa only [Accounted, hopen] using h
    refine ⟨htype, ?_⟩
    rcases houtcome with ⟨hshut, haccepted⟩ | ⟨hopen', haccepted⟩
    · refine accounted_of_shut hshut ?_
      change List.Sublist (s.channel.send buffer).2.provider.accepted
        (s.taken ++ (Call.taken? s.channel (.send buffer)).toList)
      simp only [Call.taken?, htrue, if_true, Option.toList_some, haccount]
      rcases haccepted with heq | ⟨hempty, heq⟩
      · rw [heq, List.append_assoc]
        exact List.sublist_append_left _ _
      · rw [heq, hempty, List.append_nil]
    · refine accounted_of_open hopen' ?_
      change s.taken ++ (Call.taken? s.channel (.send buffer)).toList =
        (s.channel.send buffer).2.provider.accepted ++
          (s.channel.send buffer).2.queuedSendData.packets
      simp only [Call.taken?, htrue, if_true, Option.toList_some, haccount,
        haccepted]
  · have hsend : s.channel.send buffer = (false, s.channel) := by
      rw [Channel.send, if_pos hopen]
    refine ⟨?_, ?_⟩
    · change (s.channel.send buffer).2.dataChannelType = .sctp
      rw [hsend]
      exact hsctp
    · refine h.quiet ?_ ?_
      · change Quiet s.channel (s.channel.send buffer).2
        rw [hsend]
        exact .refl _
      · simp [Call.taken?, hsend]

theorem Accounted.drain (h : s.Accounted)
    (hsctp : s.channel.dataChannelType = .sctp)
    (hever : s.channel.wasEverWritable) (hopen : s.channel.state = .kOpen)
    (horder : s.channel.DrainsInOrder)
    (hstep : s.step (.onChannelReady true) = some t) :
    t.channel.dataChannelType = .sctp ∧ t.Accounted := by
  obtain rfl := Option.some.inj hstep
  have hready : s.channel.onChannelReady true =
      s.channel.sendQueuedControlMessages.sendQueuedDataMessages := by
    rw [onChannelReady, if_neg (by simp), if_neg (by simp [hever]),
      if_pos hopen]
  obtain ⟨htype, houtcome⟩ := drain_spec hsctp hopen horder
  rw [← hready] at htype houtcome
  have haccount : s.taken = s.channel.provider.accepted ++
      s.channel.queuedSendData.packets := by
    simpa only [Accounted, hopen] using h
  refine ⟨htype, ?_⟩
  rcases houtcome with ⟨hshut, sent, hsent, haccepted⟩ | ⟨hopen', haccepted⟩
  · refine accounted_of_shut hshut ?_
    change List.Sublist (s.channel.onChannelReady true).provider.accepted
      (s.taken ++ [])
    rw [List.append_nil, haccepted, haccount]
    exact List.Sublist.append (.refl _) hsent
  · refine accounted_of_open hopen' ?_
    change s.taken ++ [] = _
    rw [List.append_nil, haccount]
    exact haccepted.symm

theorem Accounted.step (h : s.Accounted)
    (hsctp : s.channel.dataChannelType = .sctp) {call : Call}
    (hok : call.Orderly s) (hstep : s.step call = some t) :
    t.channel.dataChannelType = .sctp ∧ t.Accounted := by
  by_cases hsend : ∃ buffer, call = .send buffer
  · obtain ⟨buffer, rfl⟩ := hsend
    exact h.send hsctp hok hstep
  by_cases hdrain : call = .onChannelReady true ∧ s.channel.wasEverWritable ∧
      s.channel.state = .kOpen
  · obtain ⟨rfl, hever, hopen⟩ := hdrain
    exact h.drain hsctp hever hopen (hok rfl hever hopen) hstep
  have hquiet : Quiet s.channel (call.apply s.channel) := by
    refine quiet_apply call (fun buffer heq => hsend ⟨buffer, heq⟩) ?_
    rintro writable rfl ⟨hwritable, hever, hopen⟩
    exact hdrain ⟨by rw [hwritable], hever, hopen⟩
  obtain rfl := Option.some.inj hstep
  refine ⟨hquiet.type_eq.trans hsctp, h.quiet hquiet ?_⟩
  cases call with
  | send buffer => exact absurd ⟨buffer, rfl⟩ hsend
  | _ => exact List.append_nil _

theorem accounted_initial (h : s.Initial .sctp) :
    s.channel.dataChannelType = .sctp ∧ s.Accounted := by
  obtain ⟨sendAnswers, connectAnswers, label, config, hcreate, htaken, -⟩ := h
  simp only [create, reduceCtorEq, false_and, if_false, if_true,
    Option.ite_none_left_eq_some, Option.some.injEq] at hcreate
  obtain ⟨-, -, hcreate⟩ := hcreate
  have hquiet : Quiet { Channel.new (.new sendAnswers connectAnswers) .sctp
      label with config := config } s.channel := by
    rw [← hcreate]
    exact quiet_apply .onTransportChannelCreated (by simp) (by simp)
  have hnew : Session.Accounted ⟨{ Channel.new (.new sendAnswers
      connectAnswers) .sctp label with config := config }, [], []⟩ :=
    ⟨rfl, rfl, rfl⟩
  exact ⟨hquiet.type_eq, hnew.quiet hquiet htaken⟩

/-- Messages are accepted in the order of `Send`, and an open channel loses
none, in every run of orderly calls. -/
theorem sendOrder_of_orderly_run
    (h : ReachableVia (Initial .sctp) Session.step
      (fun s call => call.Orderly s) s) : SendOrder s := by
  have haccount : s.channel.dataChannelType = .sctp ∧ s.Accounted := by
    refine h.invariant (fun s hs => accounted_initial hs) ?_
    intro s call t hs hok hstep
    exact hs.2.step hs.1 hok hstep
  refine ⟨haccount.2.sublist, ?_⟩
  intro hopen
  have htaken := haccount.2
  simp only [Accounted, hopen] at htaken
  rw [htaken]

def negotiated : InternalDataChannelInit :=
  { InternalDataChannelInit.new with
    negotiated := true
    id := 1
    openHandshakeRole := .kNone }

def started (sendAnswers : ℕ → SendDataResult) (dct : DataChannelType)
    (config : InternalDataChannelInit) : Session :=
  let provider := Provider.new sendAnswers fun _ => true
  ⟨(Channel.create provider dct [] config).getD (.new provider dct []),
    [], []⟩

theorem initial_started {sendAnswers : ℕ → SendDataResult}
    {dct : DataChannelType} {config : InternalDataChannelInit}
    (h : (Channel.create (.new sendAnswers fun _ => true) dct [] config).isSome) :
    (started sendAnswers dct config).Initial dct := by
  obtain ⟨ch, hcreate⟩ := Option.isSome_iff_exists.mp h
  refine ⟨sendAnswers, fun _ => true, [], config, ?_, rfl, rfl⟩
  simp [started, hcreate]

/-- The first message is blocked, everything later is accepted. -/
def firstBlocked : ℕ → SendDataResult
  | 0 => .block
  | _ => .success

/-- Two messages, of which the drain sends both. -/
theorem sendOrder_firstBlocked :
    SendOrder ((execute Session.step (started firstBlocked .sctp negotiated)
      [.onChannelReady true, .send ⟨[1], true⟩, .send ⟨[2], true⟩,
        .onChannelReady true]).getD (started firstBlocked .sctp negotiated)) := by
  refine sendOrder_of_orderly_run (.step (.step (.step (.step
    (.init (initial_started rfl))
    (e := .onChannelReady true) ?_ rfl)
    (e := .send ⟨[1], true⟩) ?_ rfl)
    (e := .send ⟨[2], true⟩) ?_ rfl)
    (e := .onChannelReady true) ?_ rfl)
  · intro _ hever
    cases hever
  · intro _
    decide
  · intro _
    decide
  · intro _ _ _
    refine .inr fun i j _ _ hblock => ?_
    change firstBlocked (1 + i) = .block at hblock
    rw [Nat.add_comm] at hblock
    cases hblock

/-- The answers to two messages and two drains: the second drain finds the
first message blocked and the second one accepted. -/
def overtakingAnswers : ℕ → SendDataResult
  | 0 => .block
  | 1 => .block
  | _ => .success

def overtakingCalls : List Call :=
  [.onChannelReady true, .send ⟨[1], true⟩, .send ⟨[2], true⟩,
    .onChannelReady true, .onChannelReady true]

/-- Two messages of an ordered channel are accepted in the wrong order. -/
theorem not_forall_sendOrder :
    ¬∀ s, Reachable (Initial .sctp) Session.step s →
      s.channel.config.ordered → SendOrder s := by
  intro h
  have hreach : ∀ s, execute Session.step
      (started overtakingAnswers .sctp negotiated) overtakingCalls = some s →
      Reachable (Initial .sctp) Session.step s :=
    fun s hs => reachable_of_execute (initial_started rfl) hs
  have hsublist := (h _ (hreach _ rfl) rfl).ordered
  have hswapped : ¬List.Sublist [DataBuffer.mk [2] true, ⟨[1], true⟩]
      [⟨[1], true⟩, ⟨[2], true⟩] := by decide
  exact hswapped hsublist

end Session

end WebrtcWinXp.DataChannel
