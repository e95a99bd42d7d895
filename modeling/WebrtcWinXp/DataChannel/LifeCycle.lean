import Mathlib
import WebrtcWinXp.DataChannel.Life

/-!
# The life cycle of a data channel

The state of a channel moves from connecting over open and closing to closed,
the channel is connected to its provider only before it closes, and a closed
channel sends nothing.  A run keeps all this, also in the middle of its calls,
exactly when each of its calls does.
-/

namespace WebrtcWinXp.DataChannel

open Support

/-- What is asked of the moments that a channel passes. -/
structure LifeCycle (moments : List Channel) : Prop where
  forward : moments.Pairwise fun ch ch' => ch.state.rank ≤ ch'.state.rank
  connected : ∀ ch ∈ moments, ch.connectedToProvider →
    ch.state = .kConnecting ∨ ch.state = .kOpen
  silent : moments.Pairwise fun ch ch' =>
    ch.state = .kClosed → ch'.provider.sendsAsked = ch.provider.sendsAsked

/-- The channels inside a call, before its result. -/
def Call.moments (ch : Channel) : Call → List Channel
  | .onChannelReady writable =>
    if ¬writable then []
    else if ¬ch.wasEverWritable then
      let ch := Channel.sendHandshake { ch with wasEverWritable := true }
      ch :: ch.updateMoments
    else if ch.state = .kOpen then
      ch.controlMoments ++ ch.sendQueuedControlMessages.dataMoments
    else []
  | .setReceiveSsrc receiveSsrc =>
    if ch.receiveSsrcSet then []
    else
      Channel.updateMoments
        { ch with receiveSsrc := receiveSsrc, receiveSsrcSet := true }
  | .setSendSsrc sendSsrc =>
    if ch.sendSsrcSet then []
    else
      Channel.updateMoments
        { ch with sendSsrc := sendSsrc, sendSsrcSet := true }
  | _ => []

def Channel.lived (ch : Channel) (calls : List Call) : List Channel :=
  ch :: passed Call.moments (fun ch call => call.apply ch) ch calls

/-! ## Calls and runs -/

open Channel

/-- A call that keeps the life cycle of a channel.  It does not send the
handshake of a closed channel, does not open a channel that an error just
closed, sends nothing after an error closed the channel in a drain, and
connects only a channel that is not closing. -/
def Call.KeepsLife (ch : Channel) : Call → Prop
  | .onChannelReady writable =>
    writable →
      if ch.wasEverWritable then
        ch.state = .kOpen → ¬ch.receiveSsrcSet → ch.life.Clean
          (ch.queuedControlData.packets.length +
            ch.queuedSendData.packets.length - 1)
      else ch.HandshakeKeepsLife
  | .setReceiveSsrc _ =>
    ¬ch.receiveSsrcSet → ch.sendSsrcSet → ch.state = .kConnecting →
      ch.wasEverWritable →
        ch.life.Clean ch.queuedControlData.packets.length
  | .setSendSsrc _ =>
    ¬ch.sendSsrcSet → ch.receiveSsrcSet → ch.state = .kConnecting →
      ch.wasEverWritable →
        ch.life.Clean ch.queuedControlData.packets.length
  | .onTransportChannelCreated =>
    ¬ch.connectedToProvider →
      ch.provider.connectAnswers ch.provider.connectsAsked → ¬ch.Shut
  | _ => True

/-- What a channel keeps between the calls. -/
structure Channel.Sound (ch : Channel) : Prop where
  ready : ch.Ready
  attached : ch.life.Attached

variable {ch : Channel}

theorem Channel.Sound.forward_iff {ch' : Channel} :
    ((ch :: ([] ++ [ch'])).map life).IsChain Life.Forward ↔
      Life.Forward ch.life ch'.life := by
  rw [List.nil_append, List.map_cons, List.map_cons, List.map_nil,
    List.isChain_pair]

theorem forward_onTransportChannelCreated_iff
    (hattached : ch.life.Attached) :
    Life.Forward ch.life ch.onTransportChannelCreated.life ↔
      Call.KeepsLife ch .onTransportChannelCreated := by
  unfold onTransportChannelCreated Call.KeepsLife
  by_cases hconnected : ch.connectedToProvider
  · rw [if_neg (not_not.mpr hconnected)]
    exact iff_of_true hattached.forward_refl fun h => absurd hconnected h
  · rw [if_pos hconnected]
    constructor
    · intro h _ hanswer hshut
      rcases h.attached hanswer with hstate | hstate <;>
        rcases hshut with hshut | hshut <;>
          exact absurd (hstate.symm.trans hshut) (by simp)
    · intro h
      refine ⟨le_rfl, fun hanswer => ?_, fun _ => rfl⟩
      have hshut := h hconnected hanswer
      change ch.state = _ ∨ ch.state = _
      cases hstate : ch.state <;> simp_all [Shut]

theorem Channel.Sound.isChain_iff (h : ch.Sound)
    (call : Call) :
    ((ch :: (call.moments ch ++ [call.apply ch])).map life).IsChain
        Life.Forward ↔ call.KeepsLife ch := by
  obtain ⟨hready, hattached⟩ := h
  cases call with
  | send buffer =>
    exact Channel.Sound.forward_iff.trans
      (iff_of_true (hready.send hattached buffer).1 trivial)
  | close =>
    refine Channel.Sound.forward_iff.trans (iff_of_true ?_ trivial)
    exact (life_close ch).symm ▸ hattached.forward_close
  | onChannelReady writable =>
    change ((ch :: (Call.moments ch (.onChannelReady writable) ++
      [ch.onChannelReady writable])).map life).IsChain _ ↔ _
    simp only [Call.moments, onChannelReady, Call.KeepsLife]
    by_cases hwritable : writable
    swap
    · simp only [hwritable]
      exact Channel.Sound.forward_iff.trans
        (iff_of_true hattached.forward_refl (by simp))
    simp only [hwritable, not_true_eq_false, if_false, true_imp_iff]
    by_cases hever : ch.wasEverWritable
    · simp only [hever, not_true_eq_false, if_false, if_true]
      by_cases hopen : ch.state = .kOpen
      · simp only [hopen, true_imp_iff]
        exact isChain_drain_iff hready hattached hopen
      · simp only [if_neg hopen]
        exact Channel.Sound.forward_iff.trans
          (iff_of_true hattached.forward_refl fun h => absurd h hopen)
    · simp only [hever]
      exact isChain_handshake_iff hready hattached hever
  | onDataReceived params payload =>
    exact Channel.Sound.forward_iff.trans (iff_of_true
      (forward_onDataReceived hattached params payload) trivial)
  | registerObserver observer =>
    refine Channel.Sound.forward_iff.trans (iff_of_true ?_ trivial)
    change Life.Forward ch.life (life (deliverQueuedReceivedData _))
    rw [life_deliverQueuedReceivedData]
    exact hattached.forward_refl
  | unregisterObserver =>
    exact Channel.Sound.forward_iff.trans
      (iff_of_true hattached.forward_refl trivial)
  | setReceiveSsrc receiveSsrc =>
    change ((ch :: (Call.moments ch (.setReceiveSsrc receiveSsrc) ++
      [ch.setReceiveSsrc receiveSsrc])).map life).IsChain _ ↔ _
    simp only [Call.moments, setReceiveSsrc, Call.KeepsLife]
    by_cases hset : ch.receiveSsrcSet
    · simp only [if_pos hset]
      exact Channel.Sound.forward_iff.trans
        (iff_of_true hattached.forward_refl fun h => absurd hset h)
    simp only [if_neg hset]
    refine (setSsrc_iff (steady_withReceiveSsrc receiveSsrc ch) hattached
      rfl rfl rfl).trans ⟨?_, ?_⟩
    · intro h _ hsend hconnecting hever
      exact h ⟨hconnecting, hsend, hever⟩
    · intro h hopens
      exact h hset hopens.matching hopens.connecting hopens.writable
  | setSendSsrc sendSsrc =>
    change ((ch :: (Call.moments ch (.setSendSsrc sendSsrc) ++
      [ch.setSendSsrc sendSsrc])).map life).IsChain _ ↔ _
    simp only [Call.moments, setSendSsrc, Call.KeepsLife]
    by_cases hset : ch.sendSsrcSet
    · simp only [if_pos hset]
      exact Channel.Sound.forward_iff.trans
        (iff_of_true hattached.forward_refl fun h => absurd hset h)
    simp only [if_neg hset]
    refine (setSsrc_iff (steady_withSendSsrc sendSsrc ch) hattached rfl rfl
      rfl).trans ⟨?_, ?_⟩
    · intro h _ hreceive hconnecting hever
      exact h ⟨hconnecting, hreceive.symm, hever⟩
    · intro h hopens
      exact h hset hopens.matching.symm hopens.connecting hopens.writable
  | setSctpSid sid =>
    refine Channel.Sound.forward_iff.trans (iff_of_true ?_ trivial)
    change Life.Forward ch.life (ch.setSctpSid sid).life
    unfold setSctpSid
    split <;> exact hattached.forward_refl
  | onTransportChannelCreated =>
    exact Channel.Sound.forward_iff.trans
      (forward_onTransportChannelCreated_iff hattached)
  | remotePeerRequestClose =>
    exact Channel.Sound.forward_iff.trans
      (iff_of_true (forward_doClose hattached) trivial)
  | onDataEngineClose =>
    exact Channel.Sound.forward_iff.trans
      (iff_of_true (forward_doClose hattached) trivial)

theorem Channel.Sound.ready_apply (h : ch.Sound)
    (call : Call) : (call.apply ch).Ready := by
  obtain ⟨hready, hattached⟩ := h
  cases call with
  | send buffer => exact (hready.send hattached buffer).2
  | close => exact hready.steady (steady_close ch)
  | onChannelReady writable =>
    change (ch.onChannelReady writable).Ready
    unfold onChannelReady
    split
    · exact hready
    split
    · rename_i hever
      have hsent := (hready.firstWritable hever).sendHandshake rfl
      have hattached' : ch.firstWritable.life.Attached := hattached
      exact hsent.updateState (attached_sendHandshake hattached')
    split
    · rename_i hever _
      refine hready.sendQueuedControlMessages.sendQueuedDataMessages ?_
      rw [ever_sendQueuedControlMessages]
      exact not_not.mp hever
    · exact hready
  | onDataReceived params payload =>
    exact hready.steady (steady_onDataReceived params payload ch)
  | registerObserver observer =>
    refine hready.steady (Steady.trans ?_
      (steady_deliverQueuedReceivedData _))
    exact ⟨rfl, rfl, rfl, rfl, id⟩
  | unregisterObserver => exact hready.steady ⟨rfl, rfl, rfl, rfl, id⟩
  | setReceiveSsrc receiveSsrc =>
    change (ch.setReceiveSsrc receiveSsrc).Ready
    unfold setReceiveSsrc
    split
    · exact hready
    · exact (hready.steady (steady_withReceiveSsrc receiveSsrc ch)).updateState
        hattached
  | setSendSsrc sendSsrc =>
    change (ch.setSendSsrc sendSsrc).Ready
    unfold setSendSsrc
    split
    · exact hready
    · exact (hready.steady (steady_withSendSsrc sendSsrc ch)).updateState
        hattached
  | setSctpSid sid =>
    change (ch.setSctpSid sid).Ready
    unfold setSctpSid
    split
    · exact hready
    · exact hready.steady ⟨rfl, rfl, rfl, rfl, id⟩
  | onTransportChannelCreated =>
    change ch.onTransportChannelCreated.Ready
    unfold onTransportChannelCreated
    split
    · exact hready.steady ⟨rfl, rfl, rfl, rfl, id⟩
    · exact hready
  | remotePeerRequestClose => exact hready.steady (steady_doClose ch)
  | onDataEngineClose => exact hready.steady (steady_doClose ch)

theorem Channel.Sound.apply (h : ch.Sound) {call : Call}
    (hok : call.KeepsLife ch) : (call.apply ch).Sound := by
  refine ⟨h.ready_apply call, ?_⟩
  have hfinal := h.attached.final ((h.isChain_iff call).mpr hok)
  rw [final_map] at hfinal
  simpa using hfinal

instance : Trans Life.Forward Life.Forward Life.Forward :=
  ⟨fun h h' => h.trans h'⟩

theorem lifeCycle_iff_isChain (hattached : ch.life.Attached)
    (moments : List Channel) :
    LifeCycle (ch :: moments) ↔
      ((ch :: moments).map life).IsChain Life.Forward := by
  rw [List.isChain_iff_pairwise, List.pairwise_map]
  constructor
  · intro h
    refine (h.forward.and h.silent).imp_of_mem ?_
    intro a b _ hb hab
    exact ⟨hab.1, h.connected b hb, hab.2⟩
  · intro h
    refine ⟨h.imp fun hab => hab.state_le, ?_, h.imp fun hab => hab.silent⟩
    intro m hm
    rcases List.mem_cons.mp hm with rfl | hm
    · exact hattached
    · exact (List.rel_of_pairwise_cons h hm).attached

theorem sound_create {provider : Provider} {dct : DataChannelType}
    {label : List UInt8} {config : InternalDataChannelInit}
    (h : create provider dct label config = some ch) : ch.Sound := by
  have hnew : (new provider dct label).Sound :=
    ⟨⟨fun _ => rfl, fun _ => rfl, nofun, fitsButLast_empty⟩, nofun⟩
  have hconfig : ({ new provider dct label with config := config } :
      Channel).Sound :=
    ⟨hnew.ready.steady ⟨rfl, rfl, rfl, rfl, id⟩, nofun⟩
  unfold create at h
  dsimp only at h
  split at h
  · cases h
  split at h
  · split at h
    · cases h
    split at h
    · cases h
    · cases h
      have hkeeps : Call.KeepsLife { new provider dct label with
          config := config } .onTransportChannelCreated := by
        rintro _ _ (hshut | hshut) <;> cases hshut
      exact hconfig.apply hkeeps
  · cases h
    exact hnew

/-- A channel keeps its life cycle in a run exactly when each call keeps
it. -/
theorem lifeCycle_lived_iff {provider : Provider} {dct : DataChannelType}
    {label : List UInt8} {config : InternalDataChannelInit} {ch : Channel}
    (h : create provider dct label config = some ch) (calls : List Call) :
    LifeCycle (ch.lived calls) ↔
      Allowed (fun ch call => some (call.apply ch))
        (fun ch call => call.KeepsLife ch) ch calls := by
  have hsound := sound_create h
  rw [lived, lifeCycle_iff_isChain hsound.attached, List.isChain_map]
  refine isChain_passed_iff (fun ch call hch => ?_)
    (fun ch call (hch : ch.Sound) hok => hch.apply hok) hsound calls
  rw [← List.isChain_map (R := Life.Forward)]
  exact hch.isChain_iff call

instance (n : ℕ) (l : Life) : Decidable (l.Clean n) :=
  inferInstanceAs (Decidable (∀ k < n, _))

instance (ch : Channel) : Decidable ch.Shut :=
  inferInstanceAs (Decidable (_ ∨ _))

instance (ch : Channel) : Decidable ch.HandshakeKeepsLife :=
  inferInstanceAs (Decidable (_ → _ ∧ (_ → _ → _ → _)))

instance (ch : Channel) (call : Call) : Decidable (call.KeepsLife ch) :=
  match call with
  | .onChannelReady writable =>
    inferInstanceAs (Decidable (writable →
      if ch.wasEverWritable then
        ch.state = .kOpen → ¬ch.receiveSsrcSet → ch.life.Clean _
      else ch.HandshakeKeepsLife))
  | .setReceiveSsrc _ => inferInstanceAs (Decidable (_ → _ → _ → _ → _))
  | .setSendSsrc _ => inferInstanceAs (Decidable (_ → _ → _ → _ → _))
  | .onTransportChannelCreated => inferInstanceAs (Decidable (_ → _ → _))
  | .send _ | .close | .onDataReceived _ _ | .registerObserver _
  | .unregisterObserver | .setSctpSid _ | .remotePeerRequestClose
  | .onDataEngineClose => inferInstanceAs (Decidable True)

def inBand : InternalDataChannelInit :=
  { InternalDataChannelInit.new with id := 1 }

/-- The calls of a channel that opens, is blocked, drains and closes. -/
def wholeLife : List Call :=
  [.onChannelReady true, .send ⟨[1], true⟩, .onChannelReady true, .close,
    .onDataEngineClose]

theorem create_inBand (sendAnswers : ℕ → SendDataResult) :
    create (.new sendAnswers fun _ => true) .sctp [] inBand =
      some (Session.started sendAnswers .sctp inBand).channel := rfl

/-- The handshake is blocked once, everything later is accepted. -/
theorem lifeCycle_wholeLife :
    LifeCycle ((Session.started Session.firstBlocked .sctp
      inBand).channel.lived wholeLife) :=
  (lifeCycle_lived_iff (create_inBand _) wholeLife).mpr (by decide)

def refusedHandshake : ℕ → SendDataResult
  | 0 => .block
  | _ => .error

/-- A channel that was closed before it is writable still sends its
handshake, and one whose handshake is refused when it is sent again is opened
after it was closed. -/
theorem not_lifeCycle_closedHandshake :
    ¬LifeCycle ((Session.started (fun _ => .success) .sctp
        inBand).channel.lived [.close, .onChannelReady true]) ∧
      ¬LifeCycle ((Session.started refusedHandshake .sctp
        inBand).channel.lived [.onChannelReady true]) := by
  constructor
  · intro h
    exact absurd h.silent (by decide)
  · intro h
    exact absurd h.forward (by decide)

end WebrtcWinXp.DataChannel
