import WebrtcWinXp.DataChannel.SendOrder

/-!
# The order of received messages

Observers are handed the messages in the order in which they arrive, and the
receive queue counts the bytes that wait in it.  The one way to break the
order is an arrival that is handed over directly while older messages wait.
-/

namespace WebrtcWinXp.DataChannel

open Support

namespace PacketQueue

/-- The byte count is the total size of the packets. -/
def Counted (q : PacketQueue) : Prop :=
  q.byteCount = (q.packets.map DataBuffer.size).sum

theorem counted_empty : Counted empty := rfl

theorem Counted.push {q : PacketQueue} (h : q.Counted) (packet : DataBuffer) :
    (q.push packet).Counted := by
  simp only [Counted] at h
  simp [Counted, PacketQueue.push, h]

theorem Counted.pop {q : PacketQueue} (h : q.Counted) : q.pop.Counted := by
  obtain ⟨packets, byteCount⟩ := q
  cases packets with
  | nil => exact h
  | cons packet packets =>
    simp only [Counted, List.map_cons, List.sum_cons] at h
    simp [Counted, PacketQueue.pop, h]

end PacketQueue

/-- What is asked of a channel: observers were handed the first of the
messages that arrived, and the receive queue is counted. -/
structure ReceiveOrder (s : Session) : Prop where
  handed : s.channel.handed <+: s.arrived
  counted : s.channel.queuedReceivedData.Counted

namespace Channel

variable {ch ch' ch'' : Channel}

/-- A change that only moves messages from the front of the receive queue to
an observer. -/
structure Conserves (ch ch' : Channel) : Prop where
  messages_eq : ch'.handed ++ ch'.queuedReceivedData.packets =
    ch.handed ++ ch.queuedReceivedData.packets
  counted : ch.queuedReceivedData.Counted → ch'.queuedReceivedData.Counted

theorem Conserves.refl (ch : Channel) : Conserves ch ch := ⟨rfl, id⟩

theorem Conserves.trans (h : Conserves ch ch') (h' : Conserves ch' ch'') :
    Conserves ch ch'' :=
  ⟨h'.messages_eq.trans h.messages_eq, fun hq => h'.counted (h.counted hq)⟩

theorem conserves_foldl {f : Channel → DataBuffer → Channel}
    (hf : ∀ ch packet, Conserves ch (f ch packet))
    (packets : List DataBuffer) (ch : Channel) :
    Conserves ch (packets.foldl f ch) := by
  induction packets generalizing ch with
  | nil => exact .refl _
  | cons packet packets ih => exact (hf ch packet).trans (ih _)

theorem conserves_setState (state : DataState) (ch : Channel) :
    Conserves ch (ch.setState state) := by
  unfold setState
  split
  · exact .refl _
  · refine ⟨?_, id⟩
    simp only [handed]
    split <;> simp [Notice.buffer?]

theorem conserves_updateClosing (ch : Channel) :
    Conserves ch ch.updateClosing := by
  have hdisconnect : Conserves ch ch.disconnectFromTransport := by
    unfold disconnectFromTransport
    split
    · exact .refl _
    · exact ⟨rfl, id⟩
  unfold updateClosing
  dsimp only
  split
  · exact hdisconnect.trans (conserves_setState _ _)
  · exact hdisconnect

theorem conserves_close (ch : Channel) : Conserves ch ch.close := by
  unfold close
  split
  · exact .refl _
  · refine Conserves.trans ?_
      ((conserves_setState _ _).trans (conserves_updateClosing _))
    exact ⟨rfl, id⟩

theorem conserves_doClose (ch : Channel) : Conserves ch ch.doClose := by
  unfold doClose
  split
  · exact .refl _
  · refine Conserves.trans ?_
      ((conserves_setState _ _).trans (conserves_updateClosing _))
    exact ⟨rfl, id⟩

theorem conserves_sendData (params : SendDataParams) (payload : List UInt8)
    (ch : Channel) : Conserves ch (ch.sendData params payload).2 :=
  ⟨rfl, id⟩

theorem conserves_sendControlMessage (payload : List UInt8) (ch : Channel) :
    Conserves ch (ch.sendControlMessage payload) := by
  unfold sendControlMessage
  dsimp only
  generalize hparams : SendDataParams.mk _ _ _ _ _ = params
  have hsend := conserves_sendData params payload ch
  split
  · rename_i heq
    rw [heq] at hsend
    split
    · exact hsend.trans ⟨rfl, id⟩
    · exact hsend
  · rename_i heq
    rw [heq] at hsend
    exact hsend.trans ⟨rfl, id⟩
  · rename_i heq
    rw [heq] at hsend
    exact hsend.trans (conserves_close _)

theorem conserves_sendQueuedControlMessages (ch : Channel) :
    Conserves ch ch.sendQueuedControlMessages := by
  refine Conserves.trans ?_ (conserves_foldl
    (fun ch packet => conserves_sendControlMessage packet.data ch) _ _)
  exact ⟨rfl, id⟩

theorem deliver_spec (packets : List DataBuffer) (ch : Channel)
    (h : ch.queuedReceivedData.packets = packets) :
    let ch' := packets.foldl (fun ch buffer =>
      let ch := ch.onMessage buffer
      { ch with queuedReceivedData := ch.queuedReceivedData.pop }) ch
    Conserves ch ch' ∧ ch'.queuedReceivedData.packets = [] := by
  induction packets generalizing ch with
  | nil => exact ⟨.refl _, h⟩
  | cons packet packets ih =>
    obtain ⟨hconserves, hempty⟩ := ih
      { ch.onMessage packet with
        queuedReceivedData := (ch.onMessage packet).queuedReceivedData.pop }
      (by simp [onMessage, PacketQueue.pop, h])
    refine ⟨Conserves.trans ⟨?_, ?_⟩ hconserves, hempty⟩
    · simp [onMessage, PacketQueue.pop, handed, Notice.buffer?, h]
    · exact fun hq => hq.pop

theorem conserves_deliverQueuedReceivedData (ch : Channel) :
    Conserves ch ch.deliverQueuedReceivedData := by
  unfold deliverQueuedReceivedData
  split
  · exact .refl _
  · exact (deliver_spec _ ch rfl).1

theorem conserves_updateState (ch : Channel) :
    Conserves ch ch.updateState := by
  unfold updateState
  split
  case h_1 =>
    split
    · generalize hconnected : (if ch.dataChannelType = .rtp ∧
        ¬ch.connectedToProvider then ch.connectDataChannel else ch) =
          connected
      have hconnect : Conserves ch connected := by
        subst hconnected
        split
        · exact ⟨rfl, id⟩
        · exact .refl _
      dsimp only
      split
      · exact hconnect.trans ((conserves_sendQueuedControlMessages _).trans
          ((conserves_setState _ _).trans
            (conserves_deliverQueuedReceivedData _)))
      · exact hconnect
    · exact .refl _
  case h_2 => exact .refl _
  case h_3 => exact conserves_updateClosing ch
  case h_4 => exact .refl _

theorem conserves_queueSendDataMessage (buffer : DataBuffer) (ch : Channel) :
    Conserves ch (ch.queueSendDataMessage buffer).2 := by
  unfold queueSendDataMessage
  split
  · exact .refl _
  · exact ⟨rfl, id⟩

theorem conserves_sendDataMessage (buffer : DataBuffer) (ch : Channel) :
    Conserves ch (ch.sendDataMessage buffer).2 := by
  unfold sendDataMessage
  have hsend := conserves_sendData (ch.sendDataParams buffer) buffer.data ch
  split
  · rename_i heq
    rw [heq] at hsend
    exact hsend
  · rename_i asked heq
    rw [heq] at hsend
    split
    · have hqueue := conserves_queueSendDataMessage buffer asked
      split
      · rename_i heq'
        rw [heq'] at hqueue
        exact hsend.trans hqueue
      · rename_i heq'
        rw [heq'] at hqueue
        exact hsend.trans (hqueue.trans (conserves_close _))
    · exact hsend
  · rename_i heq
    rw [heq] at hsend
    dsimp only
    split
    · exact hsend.trans (conserves_close _)
    · exact hsend

theorem conserves_sendQueuedDataMessages (ch : Channel) :
    Conserves ch ch.sendQueuedDataMessages := by
  refine Conserves.trans ?_ (conserves_foldl
    (fun ch buffer => conserves_sendDataMessage buffer ch) _ _)
  exact ⟨rfl, id⟩

theorem conserves_send (buffer : DataBuffer) (ch : Channel) :
    Conserves ch (ch.send buffer).2 := by
  unfold send
  split
  · exact .refl _
  split
  · exact .refl _
  split
  · have hqueue := conserves_queueSendDataMessage buffer ch
    split
    · rename_i heq
      rw [heq] at hqueue
      exact hqueue
    · rename_i heq
      rw [heq] at hqueue
      exact hqueue.trans (conserves_close _)
  · have hsend := conserves_sendDataMessage buffer ch
    dsimp only
    split
    · exact hsend
    · exact hsend

theorem conserves_onChannelReady (writable : Bool) (ch : Channel) :
    Conserves ch (ch.onChannelReady writable) := by
  have hhandshake (ch : Channel) : Conserves ch ch.sendHandshake := by
    unfold sendHandshake
    split
    · split
      · exact conserves_sendControlMessage _ _
      · exact conserves_sendControlMessage _ _
      · exact .refl _
    · exact .refl _
  unfold onChannelReady
  split
  · exact .refl _
  split
  · refine Conserves.trans ?_
      ((hhandshake _).trans (conserves_updateState _))
    exact ⟨rfl, id⟩
  split
  · exact (conserves_sendQueuedControlMessages _).trans
      (conserves_sendQueuedDataMessages _)
  · exact .refl _

/-- The queue has room for a message that is not handed over directly. -/
def Fits (buffer : DataBuffer) (ch : Channel) : Prop :=
  ¬(ch.wasEverWritable ∧ ch.observer.isSome) →
    ch.queuedReceivedData.byteCount + buffer.size ≤ kMaxQueuedReceivedDataBytes

/-- No message waits when one is handed over directly. -/
def NoneWaiting (ch : Channel) : Prop :=
  ch.wasEverWritable → ch.observer.isSome → ch.queuedReceivedData.packets = []

theorem onDataReceived_arrival {params : ReceiveDataParams}
    {payload : List UInt8} {buffer : DataBuffer}
    (harrival : Call.arrival? ch (.onDataReceived params payload) =
      some buffer)
    (hfits : ch.Fits buffer) (hnone : ch.NoneWaiting) :
    let ch' := ch.onDataReceived params payload
    ch'.handed ++ ch'.queuedReceivedData.packets =
        ch.handed ++ ch.queuedReceivedData.packets ++ [buffer] ∧
      (ch.queuedReceivedData.Counted → ch'.queuedReceivedData.Counted) := by
  simp only [Call.arrival?, Option.ite_none_right_eq_some,
    Option.some.injEq] at harrival
  obtain ⟨⟨hssrc, htype⟩, rfl⟩ := harrival
  unfold onDataReceived
  rw [if_neg (not_not.mpr hssrc), if_neg htype]
  dsimp only
  by_cases hdirect : ch.wasEverWritable ∧ ch.observer.isSome
  · have hempty := hnone hdirect.1 hdirect.2
    rw [if_pos hdirect]
    refine ⟨?_, id⟩
    simp [onMessage, handed, Notice.buffer?, hempty]
  · have hroom := hfits hdirect
    rw [if_neg hdirect, if_neg (by simpa [DataBuffer.size] using hroom)]
    refine ⟨?_, fun hq => hq.push _⟩
    simp [PacketQueue.push, handed]

theorem conserves_onDataReceived {params : ReceiveDataParams}
    {payload : List UInt8}
    (harrival : Call.arrival? ch (.onDataReceived params payload) = none) :
    Conserves ch (ch.onDataReceived params payload) := by
  simp only [Call.arrival?, ite_eq_right_iff, reduceCtorEq, imp_false,
    not_and] at harrival
  unfold onDataReceived
  by_cases hssrc : params.ssrc = ch.expectedSsrc
  · rw [if_neg (not_not.mpr hssrc), if_pos (not_not.mp (harrival hssrc))]
    split
    · exact .refl _
    · split
      · exact ⟨rfl, id⟩
      · exact .refl _
  · rw [if_pos hssrc]
    exact .refl _

theorem conserves_apply {call : Call} (harrival : call.arrival? ch = none) :
    Conserves ch (call.apply ch) := by
  cases call with
  | send buffer => exact conserves_send buffer ch
  | close => exact conserves_close ch
  | onChannelReady writable => exact conserves_onChannelReady writable ch
  | onDataReceived params payload => exact conserves_onDataReceived harrival
  | registerObserver observer =>
    refine Conserves.trans ?_ (conserves_deliverQueuedReceivedData _)
    exact ⟨rfl, id⟩
  | unregisterObserver => exact ⟨rfl, id⟩
  | setReceiveSsrc receiveSsrc =>
    change Conserves ch (ch.setReceiveSsrc receiveSsrc)
    unfold setReceiveSsrc
    split
    · exact .refl _
    · refine Conserves.trans ?_ (conserves_updateState _)
      exact ⟨rfl, id⟩
  | setSendSsrc sendSsrc =>
    change Conserves ch (ch.setSendSsrc sendSsrc)
    unfold setSendSsrc
    split
    · exact .refl _
    · refine Conserves.trans ?_ (conserves_updateState _)
      exact ⟨rfl, id⟩
  | setSctpSid sid =>
    change Conserves ch (ch.setSctpSid sid)
    unfold setSctpSid
    split
    · exact .refl _
    · exact ⟨rfl, id⟩
  | onTransportChannelCreated =>
    change Conserves ch ch.onTransportChannelCreated
    unfold onTransportChannelCreated
    split
    · exact ⟨rfl, id⟩
    · exact .refl _
  | remotePeerRequestClose => exact conserves_doClose ch
  | onDataEngineClose => exact conserves_doClose ch

end Channel

/-! ## Runs -/

/-- The receive queue does not overflow in a call. -/
def Call.Fits (s : Session) (call : Call) : Prop :=
  ∀ buffer, call.arrival? s.channel = some buffer → s.channel.Fits buffer

/-- A call does not bring a message to a writable channel with an observer
while older messages wait. -/
def Call.NotOvertaking (s : Session) (call : Call) : Prop :=
  ∀ buffer, call.arrival? s.channel = some buffer → s.channel.NoneWaiting

def Call.Receiving : Call → Prop
  | .onDataReceived _ _ => True
  | .registerObserver _ => True
  | .unregisterObserver => True
  | .onChannelReady _ => True
  | .setSendSsrc _ => True
  | .setReceiveSsrc _ => True
  | _ => False

namespace Session

open Channel

variable {s t : Session} {dct : DataChannelType}

/-- Everything that arrived was handed over or waits. -/
structure Received (s : Session) : Prop where
  arrived_eq : s.arrived =
    s.channel.handed ++ s.channel.queuedReceivedData.packets
  counted : s.channel.queuedReceivedData.Counted

theorem Received.step (h : s.Received) {call : Call} (hfits : call.Fits s)
    (hnone : call.NotOvertaking s) (hstep : s.step call = some t) :
    t.Received := by
  obtain rfl := Option.some.inj hstep
  cases harrival : call.arrival? s.channel with
  | none =>
    obtain ⟨hmessages, hcounted⟩ := conserves_apply harrival
    refine ⟨?_, hcounted h.counted⟩
    rw [hmessages, ← h.arrived_eq]
    simp
  | some buffer =>
    cases call with
    | onDataReceived params payload =>
      obtain ⟨hmessages, hcounted⟩ := onDataReceived_arrival harrival
        (hfits buffer harrival) (hnone buffer harrival)
      refine ⟨?_, hcounted h.counted⟩
      change s.arrived ++ _ = _
      rw [Option.toList_some, h.arrived_eq]
      exact hmessages.symm
    | _ => cases harrival

theorem received_initial (h : s.Initial dct) : s.Received := by
  obtain ⟨sendAnswers, connectAnswers, label, config, hcreate, -, harrived⟩ := h
  have hnew : s.channel.notices = [] ∧
      s.channel.queuedReceivedData = .empty := by
    unfold Channel.create at hcreate
    dsimp only at hcreate
    split at hcreate
    · cases hcreate
    split at hcreate
    · split at hcreate
      · cases hcreate
      split at hcreate
      · cases hcreate
      · rw [← Option.some.inj hcreate]
        unfold onTransportChannelCreated
        split <;> exact ⟨rfl, rfl⟩
    · rw [← Option.some.inj hcreate]
      exact ⟨rfl, rfl⟩
  constructor
  · rw [harrived, handed, hnew.1, hnew.2]
    rfl
  · rw [hnew.2]
    exact PacketQueue.counted_empty

/-- Messages are handed over in the order in which they arrive, in every run
in which none overtakes a waiting one. -/
theorem receiveOrder_of_run
    (h : ReachableVia (Initial dct) Session.step
      (fun s call => call.Fits s ∧ call.NotOvertaking s) s) :
    ReceiveOrder s := by
  have hreceived : s.Received := by
    refine h.invariant (fun s hs => received_initial hs) ?_
    intro s call t hs hok hstep
    exact hs.step hok.1 hok.2 hstep
  refine ⟨?_, hreceived.counted⟩
  rw [hreceived.arrived_eq]
  exact List.prefix_append _ _

/-- An SCTP channel with an observer is opened, and two messages arrive. -/
theorem receiveOrder_twoMessages :
    ReceiveOrder ((execute Session.step (started firstBlocked .sctp negotiated)
      [.onDataReceived ⟨1, .text⟩ [7], .registerObserver (some 0),
        .onChannelReady true, .onDataReceived ⟨1, .binary⟩ [8]]).getD
          (started firstBlocked .sctp negotiated)) := by
  refine receiveOrder_of_run (.step (.step (.step (.step
    (.init (initial_started rfl))
    (e := .onDataReceived ⟨1, .text⟩ [7]) ?_ rfl)
    (e := .registerObserver (some 0)) ?_ rfl)
    (e := .onChannelReady true) ?_ rfl)
    (e := .onDataReceived ⟨1, .binary⟩ [8]) ?_ rfl)
  · refine ⟨fun buffer hbuffer _ => ?_, fun _ _ hever => by cases hever⟩
    cases hbuffer
    decide
  · exact ⟨nofun, nofun⟩
  · exact ⟨nofun, nofun⟩
  · refine ⟨fun buffer hbuffer hqueued => ?_, fun _ _ _ _ => rfl⟩
    exact absurd ⟨rfl, rfl⟩ hqueued

/-- A message that arrives when an RTP channel became writable with one SSRC
overtakes the one that arrived before. -/
theorem not_forall_receiveOrder :
    ¬∀ dct s, ReachableVia (Initial dct) Session.step
      (fun s call => call.Receiving ∧ call.Fits s) s →
        ¬s.channel.Shut → ReceiveOrder s := by
  intro h
  have hreach : ReachableVia (Initial .rtp) Session.step
      (fun s call => call.Receiving ∧ call.Fits s)
      ((execute Session.step (started firstBlocked .rtp .new)
        [.setReceiveSsrc 7, .registerObserver (some 0),
          .onDataReceived ⟨7, .text⟩ [1], .onChannelReady true,
          .onDataReceived ⟨7, .text⟩ [2]]).getD
            (started firstBlocked .rtp .new)) := by
    refine .step (.step (.step (.step (.step
      (.init (initial_started rfl))
      (e := .setReceiveSsrc 7) ?_ rfl)
      (e := .registerObserver (some 0)) ?_ rfl)
      (e := .onDataReceived ⟨7, .text⟩ [1]) ?_ rfl)
      (e := .onChannelReady true) ?_ rfl)
      (e := .onDataReceived ⟨7, .text⟩ [2]) ?_ rfl
    · exact ⟨trivial, nofun⟩
    · exact ⟨trivial, nofun⟩
    · refine ⟨trivial, fun buffer hbuffer _ => ?_⟩
      cases hbuffer
      decide
    · exact ⟨trivial, nofun⟩
    · refine ⟨trivial, fun buffer hbuffer hqueued => ?_⟩
      exact absurd ⟨rfl, rfl⟩ hqueued
  have hhanded := (h .rtp _ hreach (by rintro (hshut | hshut) <;>
    cases hshut)).handed
  have hnot : ¬[DataBuffer.mk [2] false] <+:
      [⟨[1], false⟩, ⟨[2], false⟩] := by decide
  exact hnot hhanded

/-- Two channels over a transport that delivers in order what the provider of
the first one accepted: the observers of the second one get messages that were
sent, in order and once each; and all of them when nothing waits any more. -/
theorem handed_of_runs
    (hs : ReachableVia (Initial .sctp) Session.step
      (fun s call => call.Orderly s) s)
    (ht : ReachableVia (Initial dct) Session.step
      (fun t call => call.Fits t ∧ call.NotOvertaking t) t)
    (hnetwork : t.arrived <+: s.channel.provider.accepted) :
    t.channel.handed.Sublist s.taken ∧
      (s.channel.state = .kOpen → s.channel.queuedSendData.packets = [] →
        t.arrived = s.channel.provider.accepted →
        t.channel.queuedReceivedData.packets = [] →
        t.channel.handed = s.taken) := by
  have haccount : s.channel.dataChannelType = .sctp ∧ s.Accounted :=
    hs.invariant (fun s hs => accounted_initial hs)
      fun s call t hs hok hstep => hs.2.step hs.1 hok hstep
  have hreceived : t.Received :=
    ht.invariant (fun t ht => received_initial ht)
      fun t call u ht hok hstep => ht.step hok.1 hok.2 hstep
  constructor
  · refine .trans ?_ (hnetwork.sublist.trans haccount.2.sublist)
    rw [hreceived.arrived_eq]
    exact List.sublist_append_left _ _
  · intro hopen hsent harrived hhanded
    have htaken := haccount.2
    rw [Accounted, hopen] at htaken
    dsimp only at htaken
    rw [htaken, hsent, List.append_nil, ← harrived, hreceived.arrived_eq,
      hhanded, List.append_nil]

theorem handed_of_runs_single :
    ((execute Session.step (started firstBlocked .sctp negotiated)
      [.registerObserver (some 0), .onChannelReady true,
        .onDataReceived ⟨1, .text⟩ [7]]).getD
          (started firstBlocked .sctp negotiated)).channel.handed.Sublist
      ((execute Session.step (started (fun _ => .success) .sctp negotiated)
        [.onChannelReady true, .send ⟨[7], false⟩]).getD
          (started firstBlocked .sctp negotiated)).taken := by
  refine (handed_of_runs (.step (.step (.init (initial_started rfl))
    (e := .onChannelReady true) ?_ rfl) (e := .send ⟨[7], false⟩) ?_ rfl)
    (.step (.step (.step (.init (initial_started rfl))
      (e := .registerObserver (some 0)) ⟨nofun, nofun⟩ rfl)
      (e := .onChannelReady true) ⟨nofun, nofun⟩ rfl)
      (e := .onDataReceived ⟨1, .text⟩ [7]) ⟨?_, ?_⟩ rfl) ?_).1
  · intro _ hever
    cases hever
  · intro _
    decide
  · intro buffer hbuffer hqueued
    exact absurd ⟨rfl, rfl⟩ hqueued
  · exact fun _ _ _ _ => rfl
  · exact List.prefix_refl _

end Session

end WebrtcWinXp.DataChannel
