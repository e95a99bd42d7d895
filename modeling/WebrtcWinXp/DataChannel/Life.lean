import WebrtcWinXp.DataChannel.SendOrder

/-!
# Lives of data channels

The state of a channel, its connection and its requests make a small machine:
a request may close it, and a change keeps the life cycle when the state moves
forward, a closing channel is not connected and a closed one asks nothing.
`Close` can be entered in the middle of another call.
-/

namespace WebrtcWinXp.DataChannel

open Support

def DataState.rank : DataState → ℕ
  | .kConnecting => 0
  | .kOpen => 1
  | .kClosing => 2
  | .kClosed => 3

theorem DataState.eq_kClosed_of_rank {state state' : DataState}
    (h : state.rank ≤ state'.rank) (hclosed : state = .kClosed) :
    state' = .kClosed := by
  subst hclosed
  cases state' <;> simp [DataState.rank] at h ⊢

namespace Channel

def outcomes (send : DataBuffer → Channel → Channel) :
    Channel → List DataBuffer → List Channel
  | _, [] => []
  | ch, packet :: packets =>
    send packet ch :: outcomes send (send packet ch) packets

/-- The channels after each message of `SendQueuedControlMessages`. -/
def controlMoments (ch : Channel) : List Channel :=
  outcomes (fun buf ch => ch.sendControlMessage buf.data)
    { ch with queuedControlData := .empty } ch.queuedControlData.packets

/-- The channels after each message of `SendQueuedDataMessages`. -/
def dataMoments (ch : Channel) : List Channel :=
  outcomes (fun buffer ch => (ch.sendDataMessage buffer).2)
    { ch with queuedSendData := .empty } ch.queuedSendData.packets

/-- The channels inside `UpdateState`. -/
def updateMoments (ch : Channel) : List Channel :=
  match ch.state with
  | .kConnecting =>
    if ch.sendSsrcSet = ch.receiveSsrcSet then
      let ch :=
        if ch.dataChannelType = .rtp ∧ ¬ch.connectedToProvider then
          ch.connectDataChannel
        else ch
      if ch.wasEverWritable then ch :: ch.controlMoments else []
    else []
  | _ => []

end Channel

/-! ## The life of a channel -/

/-- What the life cycle of a channel depends on. -/
structure Life where
  state : DataState
  connectedToProvider : Bool
  receiveSsrcSet : Bool
  sendAnswers : ℕ → SendDataResult
  sendsAsked : ℕ

namespace Life

variable {l l' l'' : Life}

def Attached (l : Life) : Prop :=
  l.connectedToProvider → l.state = .kConnecting ∨ l.state = .kOpen

/-- A change that keeps the life cycle. -/
structure Forward (l l' : Life) : Prop where
  state_le : l.state.rank ≤ l'.state.rank
  attached : l'.Attached
  silent : l.state = .kClosed → l'.sendsAsked = l.sendsAsked

theorem Forward.trans (h : Forward l l') (h' : Forward l' l'') :
    Forward l l'' where
  state_le := h.state_le.trans h'.state_le
  attached := h'.attached
  silent hclosed :=
    (h'.silent (DataState.eq_kClosed_of_rank h.state_le hclosed)).trans
      (h.silent hclosed)

theorem Attached.forward_refl (h : l.Attached) : Forward l l :=
  ⟨le_rfl, h, fun _ => rfl⟩

theorem isChain_congr_head (hstate : l'.state = l.state)
    (hasked : l'.sendsAsked = l.sendsAsked) (lives : List Life) :
    (l :: lives).IsChain Forward ↔ (l' :: lives).IsChain Forward := by
  cases lives with
  | nil => simp
  | cons next lives =>
    rw [List.isChain_cons_cons, List.isChain_cons_cons]
    refine and_congr_left fun _ => ⟨fun h => ⟨?_, h.attached, ?_⟩,
      fun h => ⟨?_, h.attached, ?_⟩⟩
    · rw [hstate]
      exact h.state_le
    · rw [hstate, hasked]
      exact h.silent
    · rw [← hstate]
      exact h.state_le
    · rw [← hstate, ← hasked]
      exact h.silent

theorem Attached.final {lives : List Life} (h : l.Attached)
    (hchain : (l :: lives).IsChain Forward) : (final l lives).Attached := by
  induction lives generalizing l with
  | nil => exact h
  | cons next lives ih =>
    rw [final_cons]
    exact ih hchain.rel.attached hchain.tail

def close (l : Life) : Life :=
  if l.state = .kClosed then l
  else
    { l with
      state := if l.receiveSsrcSet then .kClosing else .kClosed
      connectedToProvider := false }

/-- One request to the provider, which closes the channel on an error. -/
def request (l : Life) : Life :=
  if l.sendAnswers l.sendsAsked = .error then
    close { l with sendsAsked := l.sendsAsked + 1 }
  else { l with sendsAsked := l.sendsAsked + 1 }

/-- The lives after each of `n` requests. -/
def requests : ℕ → Life → List Life
  | 0, _ => []
  | n + 1, l => l.request :: requests n l.request

/-- The next `n` requests are answered without an error. -/
def Clean (n : ℕ) (l : Life) : Prop :=
  ∀ k < n, l.sendAnswers (l.sendsAsked + k) ≠ .error

theorem clean_succ {n : ℕ} :
    l.Clean (n + 1) ↔ l.sendAnswers l.sendsAsked ≠ .error ∧
      Clean n { l with sendsAsked := l.sendsAsked + 1 } := by
  simp only [Clean, Nat.forall_lt_succ_left', Nat.add_zero, Nat.add_assoc,
    Nat.add_comm 1]

theorem request_of_ne (h : l.sendAnswers l.sendsAsked ≠ .error) :
    l.request = { l with sendsAsked := l.sendsAsked + 1 } := by
  rw [request, if_neg h]

theorem Attached.close (h : l.Attached) : l.close.Attached := by
  unfold Life.close
  split
  · exact h
  · intro hconnected
    cases hconnected

theorem Attached.forward_close (h : l.Attached) : Forward l l.close := by
  refine ⟨?_, h.close, ?_⟩
  · unfold Life.close
    split
    · exact le_rfl
    · rename_i hopen
      cases hstate : l.state <;> cases l.receiveSsrcSet <;>
        simp_all [DataState.rank]
  · intro hclosed
    rw [Life.close, if_pos hclosed]

theorem Attached.request (h : l.Attached) : l.request.Attached := by
  unfold Life.request
  split
  · exact Attached.close h
  · exact h

theorem Attached.forward_request (h : l.Attached) (hne : l.state ≠ .kClosed) :
    Forward l l.request := by
  have hasked : Forward l { l with sendsAsked := l.sendsAsked + 1 } :=
    ⟨le_rfl, h, fun hclosed => absurd hclosed hne⟩
  unfold Life.request
  split
  · exact hasked.trans hasked.attached.forward_close
  · exact hasked

theorem not_forward_request (hclosed : l.state = .kClosed) :
    ¬Forward l l.request := by
  intro h
  have hsilent := h.silent hclosed
  unfold request close at hsilent
  simp [hclosed] at hsilent

theorem request_of_error (herror : l.sendAnswers l.sendsAsked = .error)
    (hne : l.state ≠ .kClosed) :
    l.request.state = (if l.receiveSsrcSet then .kClosing else .kClosed) ∧
      l.request.receiveSsrcSet = l.receiveSsrcSet := by
  rw [request, if_pos herror, close, if_neg hne]
  exact ⟨rfl, rfl⟩

/-- Requests on a channel that is not closed keep the life cycle when only
the last of them can close it. -/
theorem isChain_requests_iff {n : ℕ} (h : l.Attached)
    (hne : l.state ≠ .kClosed) :
    (l :: requests n l).IsChain Forward ↔
      (¬l.receiveSsrcSet → l.Clean (n - 1)) := by
  induction n generalizing l with
  | zero => simp [requests, Clean]
  | succ n ih =>
    rw [requests, List.isChain_cons_cons,
      and_iff_right (h.forward_request hne)]
    cases n with
    | zero => simp [requests, Clean]
    | succ n =>
      have hnext := (h.forward_request hne).attached
      by_cases hanswer : l.sendAnswers l.sendsAsked = .error
      · obtain ⟨hstate, hreceive⟩ := request_of_error hanswer hne
        by_cases hset : l.receiveSsrcSet
        · rw [ih hnext (by simp [hstate, hset]), hreceive]
          simp [hset]
        · simp only [hset, Bool.false_eq_true, if_false] at hstate
          rw [requests, List.isChain_cons_cons]
          refine iff_of_false (fun hchain =>
            not_forward_request hstate hchain.1) fun hclean => ?_
          exact hclean hset 0 (by simp) hanswer
      · have hrequest := request_of_ne hanswer
        rw [ih hnext (by rw [hrequest]; exact hne), hrequest]
        simp only [Nat.add_sub_cancel, clean_succ, ne_eq, hanswer,
          not_false_eq_true, true_and]

/-- A connecting channel opens after requests only when all of them are
answered without an error. -/
theorem isChain_requests_open_iff {n : ℕ} (h : l.Attached)
    (hconnecting : l.state = .kConnecting) (hopen : l'.state = .kOpen)  :
    (l :: (requests n l ++ [l'])).IsChain Forward ↔ l.Clean n := by
  induction n generalizing l with
  | zero =>
    have hforward : Forward l l' := by
      refine ⟨?_, fun _ => .inr hopen, ?_⟩
      · simp [hconnecting, DataState.rank]
      · simp [hconnecting]
    simpa [requests, Clean] using hforward
  | succ n ih =>
    have hne : l.state ≠ .kClosed := by simp [hconnecting]
    have hfirst := h.forward_request hne
    rw [requests, List.cons_append, List.isChain_cons_cons,
      and_iff_right hfirst, clean_succ]
    by_cases hanswer : l.sendAnswers l.sendsAsked = .error
    · refine iff_of_false ?_ fun hclean => hclean.1 hanswer
      intro hchain
      have hlast := rel_final_of_isChain (R := Forward)
        (fun _ _ _ h h' => h.trans h')
        (List.append_ne_nil_of_right_ne_nil _ (List.cons_ne_nil _ _)) hchain
      have hstate := (request_of_error hanswer hne).1
      have hle := hlast.state_le
      simp only [final_append, final_cons, final_nil, hstate, hopen] at hle
      cases hset : l.receiveSsrcSet <;> simp [hset, DataState.rank] at hle
    · have hrequest := request_of_ne hanswer
      rw [ih hfirst.attached (by rw [hrequest]; exact hconnecting), hrequest]
      simp [hanswer]

theorem requests_append (m n : ℕ) (l : Life) :
    requests (m + n) l =
      requests m l ++ requests n (final l (requests m l)) := by
  induction m generalizing l with
  | zero => simp [requests]
  | succ m ih =>
    rw [Nat.succ_add, requests, requests, ih, List.cons_append, final_cons]

end Life

namespace Channel

variable {ch ch' : Channel}

def life (ch : Channel) : Life :=
  ⟨ch.state, ch.connectedToProvider, ch.receiveSsrcSet,
    ch.provider.sendAnswers, ch.provider.sendsAsked⟩

theorem life_close (ch : Channel) : ch.close.life = ch.life.close := by
  unfold close Life.close
  by_cases hclosed : ch.state = .kClosed
  · rw [if_pos hclosed, if_pos (show ch.life.state = .kClosed from hclosed)]
  · rw [if_neg hclosed,
      if_neg (show ch.life.state ≠ .kClosed from hclosed)]
    unfold updateClosing disconnectFromTransport setState
    cases hreceive : ch.receiveSsrcSet <;>
      cases hconnected : ch.connectedToProvider <;>
        by_cases hclosing : ch.state = .kClosing <;>
          simp_all [life]

theorem life_request_of_ne
    (h : ch.provider.sendAnswers ch.provider.sendsAsked ≠ .error) :
    ch.life.request = ch.asked.life :=
  Life.request_of_ne h

theorem life_request_of_error
    (h : ch.provider.sendAnswers ch.provider.sendsAsked = .error) :
    ch.life.request = ch.asked.close.life := by
  rw [life_close, Life.request, if_pos (show ch.life.sendAnswers
    ch.life.sendsAsked = .error from h)]
  rfl

theorem life_sendControlMessage (payload : List UInt8) (ch : Channel) :
    (ch.sendControlMessage payload).life = ch.life.request := by
  unfold sendControlMessage
  dsimp only
  cases hanswer : ch.provider.sendAnswers ch.provider.sendsAsked with
  | success =>
    rw [life_request_of_ne (by simp [hanswer])]
    simp only [sendData, hanswer]
    split <;> rfl
  | block =>
    rw [life_request_of_ne (by simp [hanswer]),
      sendData_of_ne_success hanswer (by simp)]
    rfl
  | error =>
    rw [life_request_of_error hanswer,
      sendData_of_ne_success hanswer (by simp)]

theorem life_sendDataMessage (buffer : DataBuffer)
    (hsctp : ch.dataChannelType = .sctp)
    (hfits : ch.queuedSendData.byteCount < kMaxQueuedSendDataBytes) :
    (ch.sendDataMessage buffer).2.life = ch.life.request := by
  have hasked : ch.asked.dataChannelType = .sctp := hsctp
  have hqueue : ¬ch.asked.queuedSendData.byteCount ≥
      kMaxQueuedSendDataBytes := Nat.not_le.mpr hfits
  unfold sendDataMessage
  cases hanswer : ch.provider.sendAnswers ch.provider.sendsAsked with
  | success =>
    rw [life_request_of_ne (by simp [hanswer])]
    simp only [sendData, hanswer]
    rfl
  | block =>
    rw [life_request_of_ne (by simp [hanswer]),
      sendData_of_ne_success hanswer (by simp)]
    simp only [if_pos hasked, queueSendDataMessage, if_neg hqueue]
    rfl
  | error =>
    rw [life_request_of_error hanswer,
      sendData_of_ne_success hanswer (by simp)]
    simp only [if_pos hasked]

/-! ## The queues -/

/-- A queue in which every packet but the last found room. -/
def FitsButLast (q : PacketQueue) : Prop :=
  q.byteCount = (q.packets.map DataBuffer.size).sum ∧
    (q.packets.dropLast.map DataBuffer.size).sum < kMaxQueuedSendDataBytes

theorem fitsButLast_empty : FitsButLast .empty := ⟨rfl, by decide⟩

theorem FitsButLast.push {q : PacketQueue} (h : FitsButLast q)
    (packet : DataBuffer) (hroom : q.byteCount < kMaxQueuedSendDataBytes) :
    FitsButLast (q.push packet) := by
  constructor
  · simp [PacketQueue.push, h.1]
  · simpa [PacketQueue.push, ← h.1] using hroom

/-- Only a writable SCTP channel queues messages to send, and the queue of
its data messages fits. -/
structure Ready (ch : Channel) : Prop where
  control_nil : ¬(ch.dataChannelType = .sctp ∧ ch.wasEverWritable) →
    ch.queuedControlData.packets = []
  data_nil : ch.dataChannelType ≠ .sctp → ch.queuedSendData.packets = []
  ever_of_open : ch.state = .kOpen → ch.wasEverWritable
  fits : FitsButLast ch.queuedSendData

/-- A change that leaves the queues alone and opens nothing. -/
structure Steady (ch ch' : Channel) : Prop where
  type_eq : ch'.dataChannelType = ch.dataChannelType
  ever_eq : ch'.wasEverWritable = ch.wasEverWritable
  control_eq : ch'.queuedControlData = ch.queuedControlData
  data_eq : ch'.queuedSendData = ch.queuedSendData
  open_of_open : ch'.state = .kOpen → ch.state = .kOpen

theorem Steady.refl (ch : Channel) : Steady ch ch := ⟨rfl, rfl, rfl, rfl, id⟩

theorem Steady.trans {ch'' : Channel} (h : Steady ch ch')
    (h' : Steady ch' ch'') : Steady ch ch'' where
  type_eq := h'.type_eq.trans h.type_eq
  ever_eq := h'.ever_eq.trans h.ever_eq
  control_eq := h'.control_eq.trans h.control_eq
  data_eq := h'.data_eq.trans h.data_eq
  open_of_open hopen := h.open_of_open (h'.open_of_open hopen)

theorem Ready.steady (h : ch.Ready) (hsteady : Steady ch ch') : ch'.Ready where
  control_nil := by
    rw [hsteady.type_eq, hsteady.ever_eq, hsteady.control_eq]
    exact h.control_nil
  data_nil := by
    rw [hsteady.type_eq, hsteady.data_eq]
    exact h.data_nil
  ever_of_open hopen := by
    rw [hsteady.ever_eq]
    exact h.ever_of_open (hsteady.open_of_open hopen)
  fits := by
    rw [hsteady.data_eq]
    exact h.fits

theorem ready_of_writable (hsctp : ch.dataChannelType = .sctp)
    (hever : ch.wasEverWritable) (hfits : FitsButLast ch.queuedSendData) :
    ch.Ready :=
  ⟨fun hnot => absurd ⟨hsctp, hever⟩ hnot, fun hne => absurd hsctp hne,
    fun _ => hever, hfits⟩

theorem steady_setState {state : DataState} (hstate : state ≠ .kOpen)
    (ch : Channel) : Steady ch (ch.setState state) := by
  unfold setState
  split
  · exact .refl _
  · exact ⟨rfl, rfl, rfl, rfl, fun hopen => absurd hopen hstate⟩

theorem steady_updateClosing (ch : Channel) : Steady ch ch.updateClosing := by
  have hdisconnect : Steady ch ch.disconnectFromTransport := by
    unfold disconnectFromTransport
    split
    · exact .refl _
    · exact ⟨rfl, rfl, rfl, rfl, id⟩
  unfold updateClosing
  dsimp only
  split
  · exact hdisconnect.trans (steady_setState (by simp) _)
  · exact hdisconnect

theorem steady_close (ch : Channel) : Steady ch ch.close := by
  unfold close
  split
  · exact .refl _
  · refine Steady.trans ?_ ((steady_setState (by simp) _).trans
      (steady_updateClosing _))
    exact ⟨rfl, rfl, rfl, rfl, id⟩

theorem steady_doClose (ch : Channel) : Steady ch ch.doClose := by
  unfold doClose
  split
  · exact .refl _
  · refine Steady.trans ?_ ((steady_setState (by simp) _).trans
      (steady_updateClosing _))
    exact ⟨rfl, rfl, rfl, rfl, id⟩

theorem steady_deliverQueuedReceivedData (ch : Channel) :
    Steady ch ch.deliverQueuedReceivedData := by
  unfold deliverQueuedReceivedData
  split
  · exact .refl _
  · clear * -
    generalize ch.queuedReceivedData.packets = packets
    induction packets generalizing ch with
    | nil => exact .refl _
    | cons packet packets ih =>
      refine Steady.trans ?_ (ih _)
      exact ⟨rfl, rfl, rfl, rfl, id⟩

theorem steady_onDataReceived (params : ReceiveDataParams)
    (payload : List UInt8) (ch : Channel) :
    Steady ch (ch.onDataReceived params payload) := by
  unfold onDataReceived
  dsimp only
  split
  · exact .refl _
  split
  · split
    · exact .refl _
    · split
      · exact ⟨rfl, rfl, rfl, rfl, id⟩
      · exact .refl _
  split
  · exact ⟨rfl, rfl, rfl, rfl, id⟩
  split
  · split
    · refine Steady.trans ?_ (steady_close _)
      exact ⟨rfl, rfl, rfl, rfl, id⟩
    · exact ⟨rfl, rfl, rfl, rfl, id⟩
  · exact ⟨rfl, rfl, rfl, rfl, id⟩

theorem sendControlMessage_queues (payload : List UInt8) (ch : Channel) :
    let ch' := ch.sendControlMessage payload
    ch'.wasEverWritable = ch.wasEverWritable ∧
      ch'.queuedControlData =
        if ch.provider.sendAnswers ch.provider.sendsAsked = .block then
          ch.queuedControlData.push ⟨payload, true⟩
        else ch.queuedControlData := by
  unfold sendControlMessage
  dsimp only
  cases hanswer : ch.provider.sendAnswers ch.provider.sendsAsked with
  | success =>
    simp only [sendData, hanswer]
    split <;> simp
  | block =>
    rw [sendData_of_ne_success hanswer (by simp)]
    exact ⟨rfl, rfl⟩
  | error =>
    rw [sendData_of_ne_success hanswer (by simp)]
    have hsteady := steady_close ch.asked
    exact ⟨hsteady.ever_eq, hsteady.control_eq⟩

theorem ever_sendQueuedControlMessages (ch : Channel) :
    ch.sendQueuedControlMessages.wasEverWritable = ch.wasEverWritable := by
  unfold sendQueuedControlMessages
  change _ = Channel.wasEverWritable { ch with queuedControlData := .empty }
  generalize { ch with queuedControlData := PacketQueue.empty } = swapped
  induction ch.queuedControlData.packets generalizing swapped with
  | nil => rfl
  | cons packet packets ih =>
    rw [List.foldl_cons, ih]
    exact (sendControlMessage_queues packet.data swapped).1

theorem Ready.sendQueuedControlMessages (h : ch.Ready) :
    ch.sendQueuedControlMessages.Ready := by
  have hquiet := (sendQueuedControlMessages_spec ch).1
  have hever := ever_sendQueuedControlMessages ch
  by_cases hwritable : ch.dataChannelType = .sctp ∧ ch.wasEverWritable
  · refine ready_of_writable (hquiet.type_eq.trans hwritable.1)
      (hever.trans hwritable.2) ?_
    rw [hquiet.queued_eq]
    exact h.fits
  · have hnil := h.control_nil hwritable
    have hswap : ch.sendQueuedControlMessages =
        { ch with queuedControlData := .empty } := by
      rw [Channel.sendQueuedControlMessages, hnil]
      rfl
    rw [hswap]
    exact ⟨fun _ => rfl, h.data_nil, h.ever_of_open, h.fits⟩

theorem sendDataMessage_writable (buffer : DataBuffer)
    (hsctp : ch.dataChannelType = .sctp) (hfits : FitsButLast ch.queuedSendData)
    (hroom : ch.queuedSendData.byteCount < kMaxQueuedSendDataBytes) :
    let ch' := (ch.sendDataMessage buffer).2
    ch'.dataChannelType = .sctp ∧ ch'.wasEverWritable = ch.wasEverWritable ∧
      FitsButLast ch'.queuedSendData ∧ ch'.queuedSendData.byteCount ≤
        ch.queuedSendData.byteCount + buffer.size := by
  have hasked : ch.asked.dataChannelType = .sctp := hsctp
  have hqueue : ¬ch.asked.queuedSendData.byteCount ≥
      kMaxQueuedSendDataBytes := Nat.not_le.mpr hroom
  unfold sendDataMessage
  cases hanswer : ch.provider.sendAnswers ch.provider.sendsAsked with
  | success =>
    simp only [sendData, hanswer]
    exact ⟨hsctp, trivial, hfits, Nat.le_add_right _ _⟩
  | block =>
    rw [sendData_of_ne_success hanswer (by simp)]
    simp only [if_pos hasked, queueSendDataMessage, if_neg hqueue]
    exact ⟨hsctp, rfl, hfits.push buffer hroom, le_rfl⟩
  | error =>
    rw [sendData_of_ne_success hanswer (by simp)]
    simp only [if_pos hasked]
    have hsteady := steady_close ch.asked
    rw [hsteady.type_eq, hsteady.ever_eq, hsteady.data_eq]
    exact ⟨hsctp, rfl, hfits, Nat.le_add_right _ _⟩

theorem final_outcomes (send : DataBuffer → Channel → Channel)
    (ch : Channel) (packets : List DataBuffer) :
    final ch (outcomes send ch packets) =
      packets.foldl (fun ch packet => send packet ch) ch := by
  induction packets generalizing ch with
  | nil => rfl
  | cons packet packets ih => rw [outcomes, final_cons, ih, List.foldl_cons]

theorem life_controlMoments (ch : Channel) :
    ch.controlMoments.map life =
      Life.requests ch.queuedControlData.packets.length ch.life := by
  unfold controlMoments
  change _ = Life.requests _ (life { ch with queuedControlData := .empty })
  generalize { ch with queuedControlData := PacketQueue.empty } = swapped
  induction ch.queuedControlData.packets generalizing swapped with
  | nil => rfl
  | cons packet packets ih =>
    rw [outcomes, List.map_cons, List.length_cons, Life.requests, ih,
      life_sendControlMessage]

theorem life_sendQueuedControlMessages (ch : Channel) :
    ch.sendQueuedControlMessages.life =
      final ch.life (ch.controlMoments.map life) := by
  change _ = final (life { ch with queuedControlData := .empty }) _
  rw [final_map, controlMoments, final_outcomes]
  rfl

theorem outcomes_data (packets : List DataBuffer) (ch : Channel)
    (hsctp : ch.dataChannelType = .sctp) (hfits : FitsButLast ch.queuedSendData)
    (hroom : ch.queuedSendData.byteCount +
      (packets.dropLast.map DataBuffer.size).sum < kMaxQueuedSendDataBytes) :
    let moments :=
      outcomes (fun buffer ch => (ch.sendDataMessage buffer).2) ch packets
    moments.map life = Life.requests packets.length ch.life ∧
      (final ch moments).dataChannelType = .sctp ∧
      (final ch moments).wasEverWritable = ch.wasEverWritable ∧
      FitsButLast (final ch moments).queuedSendData := by
  induction packets generalizing ch with
  | nil => exact ⟨rfl, hsctp, rfl, hfits⟩
  | cons packet packets ih =>
    have hroom' : ch.queuedSendData.byteCount < kMaxQueuedSendDataBytes :=
      lt_of_le_of_lt (Nat.le_add_right _ _) hroom
    obtain ⟨hsctp', hever, hfits', hcount⟩ :=
      sendDataMessage_writable packet hsctp hfits hroom'
    cases packets with
    | nil =>
      refine ⟨?_, hsctp', hever, hfits'⟩
      simp [outcomes, Life.requests,
        life_sendDataMessage packet hsctp hroom']
    | cons next packets =>
      rw [List.dropLast_cons_cons, List.map_cons, List.sum_cons] at hroom
      obtain ⟨hlives, hfinal⟩ := ih _ hsctp' hfits' (by omega)
      rw [hever] at hfinal
      dsimp only at hlives hfinal ⊢
      rw [outcomes, final_cons, List.map_cons, hlives,
        life_sendDataMessage packet hsctp hroom']
      exact ⟨rfl, hfinal⟩

theorem Ready.data_moments (h : ch.Ready) :
    ch.dataMoments.map life =
      Life.requests ch.queuedSendData.packets.length ch.life := by
  by_cases hsctp : ch.dataChannelType = .sctp
  · refine (outcomes_data ch.queuedSendData.packets
      { ch with queuedSendData := .empty } hsctp fitsButLast_empty ?_).1
    simpa [PacketQueue.empty] using h.fits.2
  · simp [dataMoments, h.data_nil hsctp, outcomes, Life.requests]

theorem Ready.sendQueuedDataMessages (h : ch.Ready)
    (hever : ch.wasEverWritable) : ch.sendQueuedDataMessages.Ready := by
  by_cases hsctp : ch.dataChannelType = .sctp
  · obtain ⟨-, hsctp', hever', hfits⟩ := outcomes_data
      ch.queuedSendData.packets { ch with queuedSendData := .empty } hsctp
      fitsButLast_empty (by simpa [PacketQueue.empty] using h.fits.2)
    rw [final_outcomes] at hsctp' hever' hfits
    exact ready_of_writable hsctp' (hever'.trans hever) hfits
  · have hnil := h.data_nil hsctp
    have hswap : ch.sendQueuedDataMessages =
        { ch with queuedSendData := .empty } := by
      rw [Channel.sendQueuedDataMessages, hnil]
      rfl
    rw [hswap]
    exact ⟨h.control_nil, fun _ => rfl, h.ever_of_open, fitsButLast_empty⟩

theorem life_sendQueuedDataMessages (ch : Channel) :
    ch.sendQueuedDataMessages.life =
      final ch.life (ch.dataMoments.map life) := by
  change _ = final (life { ch with queuedSendData := .empty }) _
  rw [final_map, dataMoments, final_outcomes]
  rfl

/-! ## `UpdateState` -/

theorem life_deliverQueuedReceivedData (ch : Channel) :
    ch.deliverQueuedReceivedData.life = ch.life := by
  unfold deliverQueuedReceivedData
  split
  · rfl
  · clear * -
    generalize ch.queuedReceivedData.packets = packets
    induction packets generalizing ch with
    | nil => rfl
    | cons packet packets ih => exact (ih _).trans rfl

/-- The channel that `UpdateState` drains. -/
def linked (ch : Channel) : Channel :=
  if ch.dataChannelType = .rtp ∧ ¬ch.connectedToProvider then
    ch.connectDataChannel
  else ch

theorem steady_linked (ch : Channel) : Steady ch ch.linked := by
  unfold linked
  split
  · exact ⟨rfl, rfl, rfl, rfl, id⟩
  · exact .refl _

theorem life_linked (ch : Channel) :
    ∃ connected, ch.linked.life =
      { ch.life with connectedToProvider := connected } := by
  unfold linked
  split
  · exact ⟨_, rfl⟩
  · exact ⟨_, rfl⟩

/-- A connecting channel that an ssrc change opens. -/
structure Opens (ch : Channel) : Prop where
  connecting : ch.state = .kConnecting
  matching : ch.sendSsrcSet = ch.receiveSsrcSet
  writable : ch.wasEverWritable

theorem Opens.updateState (h : ch.Opens) :
    ch.updateState = (ch.linked.sendQueuedControlMessages.setState
      .kOpen).deliverQueuedReceivedData := by
  have hever : ch.linked.wasEverWritable :=
    (steady_linked ch).ever_eq.trans h.writable
  rw [linked] at hever ⊢
  simp only [Channel.updateState, h.connecting, if_pos h.matching, if_pos hever]

theorem Opens.updateMoments (h : ch.Opens) :
    ch.updateMoments = ch.linked :: ch.linked.controlMoments := by
  have hever : ch.linked.wasEverWritable :=
    (steady_linked ch).ever_eq.trans h.writable
  rw [linked] at hever ⊢
  simp only [Channel.updateMoments, h.connecting, if_pos h.matching,
    if_pos hever]

theorem life_updateClosing (ch : Channel) :
    ch.updateClosing.life.connectedToProvider = false ∧
      ch.updateClosing.life.sendsAsked = ch.life.sendsAsked ∧
      (ch.updateClosing.state = ch.state ∨
        ch.updateClosing.state = .kClosed) := by
  refine ⟨?_, ?_, ?_⟩
  · unfold updateClosing disconnectFromTransport setState life
    grind
  · exact congrArg Provider.sendsAsked (updateClosing_provider ch)
  · unfold updateClosing disconnectFromTransport setState
    grind

/-- Without opening, `UpdateState` keeps the life cycle in one step. -/
theorem updateState_of_not_opens (hattached : ch.life.Attached)
    (h : ¬ch.Opens) :
    ch.updateMoments = [] ∧ Life.Forward ch.life ch.updateState.life ∧
      Steady ch ch.updateState := by
  unfold updateMoments updateState
  cases hstate : ch.state with
  | kConnecting =>
    by_cases hmatching : ch.sendSsrcSet = ch.receiveSsrcSet
    · have hever : ¬ch.linked.wasEverWritable := fun hever =>
        h ⟨hstate, hmatching, (steady_linked ch).ever_eq.symm.trans hever⟩
      obtain ⟨connected, hlife⟩ := life_linked ch
      have hforward : Life.Forward ch.life ch.linked.life := by
        rw [hlife]
        exact ⟨le_rfl, fun _ => .inl hstate, fun _ => rfl⟩
      have hsteady := steady_linked ch
      rw [linked] at hever hforward hsteady
      simp only [if_pos hmatching, if_neg hever]
      exact ⟨trivial, hforward, hsteady⟩
    · simp only [if_neg hmatching]
      exact ⟨trivial, hattached.forward_refl, .refl _⟩
  | kOpen => exact ⟨rfl, hattached.forward_refl, .refl _⟩
  | kClosing =>
    obtain ⟨hconnected, hasked, hclosing⟩ := life_updateClosing ch
    refine ⟨rfl, ⟨?_, ?_, fun _ => hasked⟩, steady_updateClosing ch⟩
    · change ch.state.rank ≤ ch.updateClosing.state.rank
      rcases hclosing with hclosing | hclosing <;>
        simp [hclosing, hstate, DataState.rank]
    · intro htrue
      rw [hconnected] at htrue
      cases htrue
  | kClosed => exact ⟨rfl, hattached.forward_refl, .refl _⟩

/-- `UpdateState` keeps the life cycle exactly when no control message that
it sends before it opens the channel is answered with an error. -/
theorem isChain_updateState_iff (hattached : ch.life.Attached) :
    ((ch :: (ch.updateMoments ++ [ch.updateState])).map life).IsChain
        Life.Forward ↔
      (ch.Opens → ch.life.Clean ch.queuedControlData.packets.length) := by
  by_cases hopens : ch.Opens
  · rw [hopens.updateMoments, hopens.updateState]
    obtain ⟨connected, hlife⟩ := life_linked ch
    have hlinked : ch.linked.life.Attached := by
      rw [hlife]
      exact fun _ => .inl hopens.connecting
    have hconnecting : ch.linked.life.state = .kConnecting := by
      rw [hlife]
      exact hopens.connecting
    have hopen : Channel.state
        (ch.linked.sendQueuedControlMessages.setState .kOpen) = .kOpen :=
      setState_state _ _
    simp only [List.cons_append, List.map_cons, List.map_append, List.map_nil,
      life_controlMoments, life_deliverQueuedReceivedData,
      List.isChain_cons_cons]
    rw [Life.isChain_requests_open_iff hlinked hconnecting hopen,
      (steady_linked ch).control_eq, hlife]
    have hforward : Life.Forward ch.life
        { ch.life with connectedToProvider := connected } :=
      ⟨le_rfl, fun _ => .inl hopens.connecting, fun _ => rfl⟩
    rw [and_iff_right hforward]
    exact ⟨fun hclean _ => hclean, fun hclean => hclean hopens⟩
  · obtain ⟨hnil, hforward, -⟩ := updateState_of_not_opens hattached hopens
    rw [hnil]
    simpa [hopens] using hforward

theorem Ready.updateState (h : ch.Ready) (hattached : ch.life.Attached) :
    ch.updateState.Ready := by
  by_cases hopens : ch.Opens
  · rw [hopens.updateState]
    have hdrained :=
      (h.steady (steady_linked ch)).sendQueuedControlMessages
    have hever : ch.linked.sendQueuedControlMessages.wasEverWritable :=
      (ever_sendQueuedControlMessages ch.linked).trans
        ((steady_linked ch).ever_eq.trans hopens.writable)
    refine Ready.steady ?_ (steady_deliverQueuedReceivedData _)
    unfold setState
    split
    · exact hdrained
    · exact ⟨hdrained.control_nil, hdrained.data_nil, fun _ => hever,
        hdrained.fits⟩
  · exact h.steady (updateState_of_not_opens hattached hopens).2.2

/-! ## The handshake -/

/-- The channel sends an OPEN or an OPEN_ACK message when it is writable for
the first time. -/
def SendsHandshake (ch : Channel) : Prop :=
  ch.dataChannelType = .sctp ∧ ch.config.openHandshakeRole ≠ .kNone

instance (ch : Channel) : Decidable ch.SendsHandshake :=
  inferInstanceAs (Decidable (_ ∧ _))

theorem sendHandshake_of_not (h : ¬ch.SendsHandshake) :
    ch.sendHandshake = ch := by
  unfold sendHandshake
  split
  · rename_i hsctp
    cases hrole : ch.config.openHandshakeRole with
    | kNone => rfl
    | kOpener => exact absurd ⟨hsctp, by simp [hrole]⟩ h
    | kAcker => exact absurd ⟨hsctp, by simp [hrole]⟩ h
  · rfl

theorem SendsHandshake.exists_payload (h : ch.SendsHandshake) :
    ∃ payload, ch.sendHandshake = ch.sendControlMessage payload := by
  unfold sendHandshake
  rw [if_pos h.1]
  cases hrole : ch.config.openHandshakeRole with
  | kNone => exact absurd hrole h.2
  | kOpener => exact ⟨_, rfl⟩
  | kAcker => exact ⟨_, rfl⟩

theorem sendSsrcSet_sendControlMessage (payload : List UInt8)
    (h : ch.provider.sendAnswers ch.provider.sendsAsked ≠ .error) :
    (ch.sendControlMessage payload).sendSsrcSet = ch.sendSsrcSet := by
  unfold sendControlMessage
  dsimp only
  cases hanswer : ch.provider.sendAnswers ch.provider.sendsAsked with
  | success =>
    simp only [sendData, hanswer]
    split <;> rfl
  | block =>
    rw [sendData_of_ne_success hanswer (by simp)]
    rfl
  | error => exact absurd hanswer h

/-- The first time that a channel is writable, its handshake is sent before
the channel is closed, and a blocked one is not refused when `UpdateState`
sends it again. -/
def HandshakeKeepsLife (ch : Channel) : Prop :=
  ch.SendsHandshake → ch.state ≠ .kClosed ∧
    (ch.state = .kConnecting → ch.sendSsrcSet = ch.receiveSsrcSet →
      ch.provider.sendAnswers ch.provider.sendsAsked = .block →
      ch.provider.sendAnswers (ch.provider.sendsAsked + 1) ≠ .error)

def firstWritable (ch : Channel) : Channel :=
  { ch with wasEverWritable := true }

theorem Ready.firstWritable (h : ch.Ready) (hever : ¬ch.wasEverWritable) :
    ch.firstWritable.Ready where
  control_nil _ := h.control_nil fun hwritable => hever hwritable.2
  data_nil := h.data_nil
  ever_of_open _ := rfl
  fits := h.fits

theorem Ready.sendHandshake (h : ch.Ready) (hever : ch.wasEverWritable) :
    ch.sendHandshake.Ready := by
  by_cases hhandshake : ch.SendsHandshake
  · obtain ⟨payload, hpayload⟩ := hhandshake.exists_payload
    obtain ⟨hquiet, -⟩ := sendControlMessage_spec payload ch
    rw [hpayload]
    refine ready_of_writable (hquiet.type_eq.trans hhandshake.1) ?_ ?_
    · rw [(sendControlMessage_queues payload ch).1]
      exact hever
    · rw [hquiet.queued_eq]
      exact h.fits
  · rw [sendHandshake_of_not hhandshake]
    exact h

theorem attached_sendHandshake (h : ch.life.Attached) :
    ch.sendHandshake.life.Attached := by
  by_cases hhandshake : ch.SendsHandshake
  · obtain ⟨payload, hpayload⟩ := hhandshake.exists_payload
    rw [hpayload, life_sendControlMessage]
    exact h.request
  · rw [sendHandshake_of_not hhandshake]
    exact h

theorem SendsHandshake.life_eq (h : ch.SendsHandshake) :
    ch.firstWritable.sendHandshake.life = ch.life.request := by
  obtain ⟨payload, hpayload⟩ :=
    (show ch.firstWritable.SendsHandshake from h).exists_payload
  exact (congrArg life hpayload).trans (life_sendControlMessage _ _)

theorem SendsHandshake.opens_iff (h : ch.SendsHandshake)
    (herror : ch.provider.sendAnswers ch.provider.sendsAsked ≠ .error) :
    ch.firstWritable.sendHandshake.Opens ↔ ch.state = .kConnecting ∧
      ch.sendSsrcSet = ch.receiveSsrcSet := by
  have hlife := h.life_eq.trans (Life.request_of_ne (l := ch.life) herror)
  obtain ⟨payload, hpayload⟩ :=
    (show ch.firstWritable.SendsHandshake from h).exists_payload
  have hstate : ch.firstWritable.sendHandshake.state = ch.state :=
    congrArg Life.state hlife
  have hreceive : ch.firstWritable.sendHandshake.receiveSsrcSet =
      ch.receiveSsrcSet := congrArg Life.receiveSsrcSet hlife
  have hsend : ch.firstWritable.sendHandshake.sendSsrcSet = ch.sendSsrcSet :=
    (congrArg sendSsrcSet hpayload).trans
      (sendSsrcSet_sendControlMessage payload
        (show ch.firstWritable.provider.sendAnswers
          ch.firstWritable.provider.sendsAsked ≠ .error from herror))
  have hever : ch.firstWritable.sendHandshake.wasEverWritable := by
    rw [hpayload]
    exact (sendControlMessage_queues payload ch.firstWritable).1
  refine ⟨fun h => ⟨hstate.symm.trans h.connecting, ?_⟩,
    fun h => ⟨hstate.trans h.1, ?_, hever⟩⟩
  · rw [← hsend, ← hreceive]
    exact h.matching
  · rw [hsend, hreceive]
    exact h.2

theorem SendsHandshake.clean_iff (h : ch.SendsHandshake)
    (herror : ch.provider.sendAnswers ch.provider.sendsAsked ≠ .error)
    (hnil : ch.firstWritable.queuedControlData.packets = []) :
    Life.Clean
        ch.firstWritable.sendHandshake.queuedControlData.packets.length
        ch.life.request ↔
      (ch.provider.sendAnswers ch.provider.sendsAsked = .block →
        ch.provider.sendAnswers (ch.provider.sendsAsked + 1) ≠ .error) := by
  obtain ⟨payload, hpayload⟩ :=
    (show ch.firstWritable.SendsHandshake from h).exists_payload
  rw [Life.request_of_ne (l := ch.life) herror, hpayload,
    (sendControlMessage_queues payload ch.firstWritable).2]
  by_cases hblock : ch.provider.sendAnswers ch.provider.sendsAsked = .block
  · rw [if_pos (show ch.firstWritable.provider.sendAnswers
      ch.firstWritable.provider.sendsAsked = .block from hblock)]
    simp [PacketQueue.push, hnil, Life.Clean, hblock, life]
  · rw [if_neg (show ch.firstWritable.provider.sendAnswers
      ch.firstWritable.provider.sendsAsked ≠ .block from hblock)]
    simp [hnil, Life.Clean, hblock]

theorem isChain_handshake_iff (hready : ch.Ready)
    (hattached : ch.life.Attached) (hever : ¬ch.wasEverWritable) :
    let sent := ch.firstWritable.sendHandshake
    ((ch :: sent :: (sent.updateMoments ++ [sent.updateState])).map
        life).IsChain Life.Forward ↔ ch.HandshakeKeepsLife := by
  have hready' := hready.firstWritable hever
  have hnil : ch.firstWritable.queuedControlData.packets = [] :=
    hready.control_nil fun hwritable => hever hwritable.2
  intro sent
  rw [List.map_cons, List.map_cons, List.isChain_cons_cons, ← List.map_cons]
  by_cases hhandshake : ch.SendsHandshake
  swap
  · have hsent : sent = ch.firstWritable :=
      sendHandshake_of_not
        (show ¬ch.firstWritable.SendsHandshake from hhandshake)
    have hattached' : ch.firstWritable.life.Attached := hattached
    rw [hsent, isChain_updateState_iff hattached', hnil]
    refine iff_of_true ⟨hattached.forward_refl, fun _ k hk => ?_⟩
      fun h => absurd h hhandshake
    simp at hk
  have hreadySent : sent.Ready := hready'.sendHandshake rfl
  have hlife : sent.life = ch.life.request := hhandshake.life_eq
  by_cases hclosed : ch.state = .kClosed
  · refine iff_of_false (fun h => ?_) fun h => (h hhandshake).1 hclosed
    rw [hlife] at h
    exact Life.not_forward_request hclosed h.1
  have hforward := hattached.forward_request hclosed
  rw [isChain_updateState_iff (hlife ▸ hforward.attached), hlife,
    and_iff_right hforward]
  by_cases herror : ch.provider.sendAnswers ch.provider.sendsAsked = .error
  · refine iff_of_true (fun hopens => ?_) fun _ => ⟨hclosed, ?_⟩
    · have hstate := (Life.request_of_error (l := ch.life) herror hclosed).1
      rw [← hlife] at hstate
      have hconnecting : sent.life.state = .kConnecting := hopens.connecting
      rw [hconnecting] at hstate
      split at hstate <;> cases hstate
    · intro _ _ hblock
      rw [herror] at hblock
      cases hblock
  rw [hhandshake.opens_iff herror, hhandshake.clean_iff herror hnil,
    HandshakeKeepsLife]
  refine ⟨fun h _ => ⟨hclosed, fun hc hm => h ⟨hc, hm⟩⟩,
    fun h hconnecting => ?_⟩
  exact (h hhandshake).2 hconnecting.1 hconnecting.2

/-! ## The other calls -/

/-- A drain of an open channel keeps the life cycle when only the answer to
its last message can close the channel for good. -/
theorem isChain_drain_iff (hready : ch.Ready) (hattached : ch.life.Attached)
    (hopen : ch.state = .kOpen) :
    ((ch :: (ch.controlMoments ++ ch.sendQueuedControlMessages.dataMoments ++
        [ch.sendQueuedControlMessages.sendQueuedDataMessages])).map
          life).IsChain Life.Forward ↔
      (¬ch.receiveSsrcSet → ch.life.Clean
        (ch.queuedControlData.packets.length +
          ch.queuedSendData.packets.length - 1)) := by
  have hqueued := (sendQueuedControlMessages_spec ch).1.queued_eq
  have hlives : (ch.controlMoments ++
      ch.sendQueuedControlMessages.dataMoments).map life =
      Life.requests (ch.queuedControlData.packets.length +
        ch.queuedSendData.packets.length) ch.life := by
    rw [List.map_append, life_controlMoments,
      hready.sendQueuedControlMessages.data_moments, Life.requests_append,
      life_sendQueuedControlMessages, life_controlMoments, hqueued]
  have hlast : ch.sendQueuedControlMessages.sendQueuedDataMessages.life =
      final ch.life ((ch.controlMoments ++
        ch.sendQueuedControlMessages.dataMoments).map life) := by
    rw [life_sendQueuedDataMessages, life_sendQueuedControlMessages,
      List.map_append, final_append]
  rw [List.map_cons, List.map_append, List.map_cons, List.map_nil, hlast,
    isChain_append_iff, List.isChain_pair, hlives,
    Life.isChain_requests_iff hattached (by simp [life, hopen])]
  refine and_iff_left_of_imp fun hclean => ?_
  rw [← Life.isChain_requests_iff hattached (by simp [life, hopen])] at hclean
  exact (hattached.final hclean).forward_refl

def withReceiveSsrc (receiveSsrc : UInt32) (ch : Channel) : Channel :=
  { ch with receiveSsrc := receiveSsrc, receiveSsrcSet := true }

def withSendSsrc (sendSsrc : UInt32) (ch : Channel) : Channel :=
  { ch with sendSsrc := sendSsrc, sendSsrcSet := true }

theorem steady_withReceiveSsrc (receiveSsrc : UInt32) (ch : Channel) :
    Steady ch (ch.withReceiveSsrc receiveSsrc) :=
  ⟨rfl, rfl, rfl, rfl, id⟩

theorem steady_withSendSsrc (sendSsrc : UInt32) (ch : Channel) :
    Steady ch (ch.withSendSsrc sendSsrc) :=
  ⟨rfl, rfl, rfl, rfl, id⟩

theorem setSsrc_iff (hsteady : Steady ch ch')
    (hattached : ch.life.Attached) (hstate : ch'.state = ch.state)
    (hconnected : ch'.connectedToProvider = ch.connectedToProvider)
    (hprovider : ch'.provider = ch.provider) :
    ((ch :: (ch'.updateMoments ++ [ch'.updateState])).map life).IsChain
        Life.Forward ↔
      (ch'.Opens → ch.life.Clean ch.queuedControlData.packets.length) := by
  have hattached' : ch'.life.Attached := by
    change ch'.connectedToProvider →
      ch'.state = .kConnecting ∨ ch'.state = .kOpen
    rw [hconnected, hstate]
    exact hattached
  have hiff := isChain_updateState_iff hattached'
  have hasked : ch'.life.sendsAsked = ch.life.sendsAsked :=
    congrArg Provider.sendsAsked hprovider
  rw [List.map_cons, Life.isChain_congr_head hstate hasked, ← List.map_cons,
    hiff, hsteady.control_eq]
  unfold life Life.Clean
  rw [hprovider]

theorem sendDataMessage_unreliable (buffer : DataBuffer)
    (hsctp : ch.dataChannelType ≠ .sctp) :
    (ch.sendDataMessage buffer).2.life = ch.asked.life ∧
      Steady ch (ch.sendDataMessage buffer).2 := by
  have hasked : ch.asked.dataChannelType ≠ .sctp := hsctp
  unfold sendDataMessage
  cases hanswer : ch.provider.sendAnswers ch.provider.sendsAsked with
  | success =>
    simp only [sendData, hanswer]
    exact ⟨rfl, rfl, rfl, rfl, rfl, id⟩
  | block =>
    rw [sendData_of_ne_success hanswer (by simp)]
    simp only [if_neg hasked]
    exact ⟨trivial, rfl, rfl, rfl, rfl, id⟩
  | error =>
    rw [sendData_of_ne_success hanswer (by simp)]
    simp only [if_neg hasked]
    exact ⟨trivial, rfl, rfl, rfl, rfl, id⟩

theorem Ready.send (h : ch.Ready) (hattached : ch.life.Attached)
    (buffer : DataBuffer) :
    Life.Forward ch.life (ch.send buffer).2.life ∧
      (ch.send buffer).2.Ready := by
  unfold Channel.send
  by_cases hopen : ch.state = .kOpen
  swap
  · rw [if_pos hopen]
    exact ⟨hattached.forward_refl, h⟩
  have hclose : Life.Forward ch.life ch.close.life ∧ ch.close.Ready := by
    rw [life_close]
    exact ⟨hattached.forward_close, h.steady (steady_close ch)⟩
  rw [if_neg (not_not.mpr hopen)]
  split
  · exact ⟨hattached.forward_refl, h⟩
  split
  · rename_i hqueue
    have hsctp : ch.dataChannelType = .sctp := by
      by_contra hsctp
      simp [PacketQueue.isEmpty, h.data_nil hsctp] at hqueue
    unfold queueSendDataMessage
    by_cases hfull : ch.queuedSendData.byteCount ≥ kMaxQueuedSendDataBytes
    · simp only [if_pos hfull]
      exact hclose
    · simp only [if_neg hfull]
      exact ⟨hattached.forward_refl, ready_of_writable hsctp
        (h.ever_of_open hopen) (h.fits.push buffer (Nat.not_le.mp hfull))⟩
  · rename_i hqueue
    have hsent : Life.Forward ch.life (ch.sendDataMessage buffer).2.life ∧
        (ch.sendDataMessage buffer).2.Ready := by
      have hne : ch.life.state ≠ .kClosed := by simp [life, hopen]
      by_cases hsctp : ch.dataChannelType = .sctp
      · have hnil : ch.queuedSendData.packets = [] := by
          simpa [PacketQueue.isEmpty] using hqueue
        have hroom : ch.queuedSendData.byteCount < kMaxQueuedSendDataBytes := by
          rw [h.fits.1, hnil]
          decide
        obtain ⟨hsctp', hever, hfits, -⟩ :=
          sendDataMessage_writable buffer hsctp h.fits hroom
        rw [life_sendDataMessage buffer hsctp hroom]
        exact ⟨hattached.forward_request hne,
          ready_of_writable hsctp' (hever.trans (h.ever_of_open hopen)) hfits⟩
      · obtain ⟨hlife, hsteady⟩ := sendDataMessage_unreliable buffer hsctp
        rw [hlife]
        exact ⟨⟨le_rfl, hattached, fun hclosed => absurd hclosed hne⟩,
          h.steady hsteady⟩
    dsimp only
    split <;> exact hsent

theorem forward_doClose (hattached : ch.life.Attached) :
    Life.Forward ch.life ch.doClose.life := by
  unfold doClose
  by_cases hclosed : ch.state = .kClosed
  · rw [if_pos hclosed]
    exact hattached.forward_refl
  rw [if_neg hclosed]
  generalize hcleared : ({ ch with
    receiveSsrcSet := false
    sendSsrcSet := false } : Channel) = cleared
  obtain ⟨hconnected, hasked, hstate⟩ :=
    life_updateClosing (cleared.setState .kClosing)
  refine ⟨?_, fun h => ?_, fun h => absurd h hclosed⟩
  · rw [setState_state] at hstate
    change ch.state.rank ≤
      (updateClosing (cleared.setState .kClosing)).state.rank
    rcases hstate with hstate | hstate <;> rw [hstate] <;>
      cases hch : ch.state <;> simp_all [DataState.rank]
  · rw [hconnected] at h
    cases h

theorem forward_onDataReceived (hattached : ch.life.Attached)
    (params : ReceiveDataParams) (payload : List UInt8) :
    Life.Forward ch.life (ch.onDataReceived params payload).life := by
  unfold onDataReceived
  dsimp only
  split
  · exact hattached.forward_refl
  split
  · split
    · exact hattached.forward_refl
    · split <;> exact hattached.forward_refl
  split
  · exact hattached.forward_refl
  split
  · split
    · rw [life_close]
      exact Life.Attached.forward_close hattached
    · exact hattached.forward_refl
  · exact hattached.forward_refl

end Channel

end WebrtcWinXp.DataChannel
