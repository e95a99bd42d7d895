import WebrtcWinXp.DataChannel.Channel

/-!
# The OPEN message

What `ParseDataChannelOpenMessage` reads from the message that
`WriteDataChannelOpenMessage` writes.
-/

namespace WebrtcWinXp.DataChannel

open Stun Stun.ByteBuffer

def DCOMCT_ORDERED_PARTIAL_RTXS : UInt8 := 0x01

def DCOMCT_ORDERED_PARTIAL_TIME : UInt8 := 0x02

def DCOMCT_UNORDERED_RELIABLE : UInt8 := 0x80

def DCOMCT_UNORDERED_PARTIAL_RTXS : UInt8 := 0x81

def DCOMCT_UNORDERED_PARTIAL_TIME : UInt8 := 0x82

namespace InternalDataChannelInit

/-- What a channel type and a reliability parameter say of a configuration. A
parameter is read as an `int`. -/
def setChannelType (channelType : UInt8) (reliabilityParam : UInt32)
    (config : InternalDataChannelInit) : InternalDataChannelInit :=
  { config with
    ordered := !(channelType == DCOMCT_UNORDERED_RELIABLE ||
      channelType == DCOMCT_UNORDERED_PARTIAL_RTXS ||
      channelType == DCOMCT_UNORDERED_PARTIAL_TIME)
    maxRetransmits :=
      if channelType = DCOMCT_ORDERED_PARTIAL_RTXS ∨
          channelType = DCOMCT_UNORDERED_PARTIAL_RTXS then
        reliabilityParam.toInt32.toInt
      else -1
    maxRetransmitTime :=
      if channelType = DCOMCT_ORDERED_PARTIAL_TIME ∨
          channelType = DCOMCT_UNORDERED_PARTIAL_TIME then
        reliabilityParam.toInt32.toInt
      else -1 }

end InternalDataChannelInit

/-- `ParseDataChannelOpenMessage`, whose strings are appended to what `label`
and `config` hold. -/
def parseDataChannelOpenMessage (payload label : List UInt8)
    (config : InternalDataChannelInit) :
    Option (List UInt8 × InternalDataChannelInit) := do
  let (messageType, buffer) ← readUInt8 payload
  if messageType ≠ DATA_CHANNEL_OPEN_MESSAGE_TYPE then none
  else
    let (channelType, buffer) ← readUInt8 buffer
    let (_, buffer) ← readUInt16 buffer
    let (reliabilityParam, buffer) ← readUInt32 buffer
    let (labelLength, buffer) ← readUInt16 buffer
    let (protocolLength, buffer) ← readUInt16 buffer
    let (labelBytes, buffer) ← readBytes labelLength.toNat buffer
    let (protocolBytes, _) ← readBytes protocolLength.toNat buffer
    let config :=
      { config with
        protocol := config.protocol ++ protocolBytes }
    some (label ++ labelBytes,
      config.setChannelType channelType reliabilityParam)

/-! ## Round trip -/

/-- A configuration whose numbers are `int`s that are at least -1, of which at
most one is set. -/
structure InternalDataChannelInit.Valid (config : InternalDataChannelInit) :
    Prop where
  maxRetransmits_min : -1 ≤ config.maxRetransmits
  maxRetransmits_max : config.maxRetransmits < 2 ^ 31
  maxRetransmitTime_min : -1 ≤ config.maxRetransmitTime
  maxRetransmitTime_max : config.maxRetransmitTime < 2 ^ 31
  atMostOne : config.maxRetransmits = -1 ∨ config.maxRetransmitTime = -1

/-- What the OPEN message is to carry over. -/
structure InternalDataChannelInit.Agrees
    (config config' : InternalDataChannelInit) : Prop where
  protocol : config'.protocol = config.protocol
  ordered : config'.ordered = config.ordered
  maxRetransmits : config'.maxRetransmits = config.maxRetransmits
  maxRetransmitTime : config'.maxRetransmitTime = config.maxRetransmitTime

variable {label : List UInt8} {config config₀ : InternalDataChannelInit}

theorem toInt_toInt32_ofInt {n : ℤ} (hmin : 0 ≤ n) (hmax : n < 2 ^ 31) :
    (UInt32.ofInt n).toInt32.toInt = n := by
  obtain ⟨m, rfl⟩ := Int.eq_ofNat_of_zero_le hmin
  have hmod : ((m : ℤ) % 2 ^ 32).toNat = m := by omega
  rw [UInt32.ofInt, hmod, UInt32.toInt32_ofNat']
  exact Int32.toInt_ofNat_of_lt (by omega)

theorem setChannelType_openMessageChannelType
    (config₀ : InternalDataChannelInit) (h : config.Valid) :
    let (channelType, reliabilityParam) := config.openMessageChannelType
    let config' := config₀.setChannelType channelType reliabilityParam
    config'.ordered = config.ordered ∧
      config'.maxRetransmits = config.maxRetransmits ∧
      config'.maxRetransmitTime = config.maxRetransmitTime := by
  obtain ⟨hrtxs, hrtxs', htime, htime', hone⟩ := h
  by_cases hrtx : config.maxRetransmits > -1
  · have hread := toInt_toInt32_ofInt (by omega : 0 ≤ config.maxRetransmits)
      hrtxs'
    have htimeUnset : config.maxRetransmitTime = -1 :=
      hone.resolve_left (by omega)
    cases hordered : config.ordered <;>
      simp [InternalDataChannelInit.openMessageChannelType, hordered, hrtx,
        InternalDataChannelInit.setChannelType, hread, htimeUnset,
        DCOMCT_ORDERED_PARTIAL_RTXS, DCOMCT_ORDERED_PARTIAL_TIME,
        DCOMCT_UNORDERED_RELIABLE, DCOMCT_UNORDERED_PARTIAL_RTXS,
        DCOMCT_UNORDERED_PARTIAL_TIME]
  · have hrtxUnset : config.maxRetransmits = -1 := by omega
    by_cases hms : config.maxRetransmitTime > -1
    · have hread := toInt_toInt32_ofInt
        (by omega : 0 ≤ config.maxRetransmitTime) htime'
      cases hordered : config.ordered <;>
        simp [InternalDataChannelInit.openMessageChannelType, hordered, hms,
          InternalDataChannelInit.setChannelType, hread, hrtxUnset,
          DCOMCT_ORDERED_PARTIAL_RTXS, DCOMCT_ORDERED_PARTIAL_TIME,
          DCOMCT_UNORDERED_RELIABLE, DCOMCT_UNORDERED_PARTIAL_RTXS,
          DCOMCT_UNORDERED_PARTIAL_TIME]
    · have hmsUnset : config.maxRetransmitTime = -1 := by omega
      cases hordered : config.ordered <;>
        simp [InternalDataChannelInit.openMessageChannelType, hordered,
          InternalDataChannelInit.setChannelType, hmsUnset, hrtxUnset,
          DCOMCT_ORDERED_PARTIAL_RTXS, DCOMCT_ORDERED_PARTIAL_TIME,
          DCOMCT_UNORDERED_RELIABLE, DCOMCT_UNORDERED_PARTIAL_RTXS,
          DCOMCT_UNORDERED_PARTIAL_TIME]

theorem parse_write :
    parseDataChannelOpenMessage (writeDataChannelOpenMessage label config) []
        config₀ =
      some (
        (label ++ config.protocol).take (label.length % 2 ^ 16),
        { config₀ with
          protocol := config₀.protocol ++
            ((label ++ config.protocol).drop (label.length % 2 ^ 16)).take
              (config.protocol.length % 2 ^ 16) }.setChannelType
          config.openMessageChannelType.1 config.openMessageChannelType.2) := by
  have hlabel : readBytes (label.length % 2 ^ 16) (label ++ config.protocol) =
      some ((label ++ config.protocol).take (label.length % 2 ^ 16),
        (label ++ config.protocol).drop (label.length % 2 ^ 16)) := by
    have hle := Nat.mod_le label.length (2 ^ 16)
    rw [readBytes, if_neg (by rw [List.length_append]; omega)]
  have hprotocol : readBytes (config.protocol.length % 2 ^ 16)
      ((label ++ config.protocol).drop (label.length % 2 ^ 16)) =
      some (((label ++ config.protocol).drop (label.length % 2 ^ 16)).take
          (config.protocol.length % 2 ^ 16),
        ((label ++ config.protocol).drop (label.length % 2 ^ 16)).drop
          (config.protocol.length % 2 ^ 16)) := by
    have hle := Nat.mod_le label.length (2 ^ 16)
    have hle' := Nat.mod_le config.protocol.length (2 ^ 16)
    rw [readBytes, if_neg (by
      rw [List.length_drop, List.length_append]; omega)]
  simp only [writeDataChannelOpenMessage, parseDataChannelOpenMessage,
    List.append_assoc, readUInt8_append, readUInt16_append, readUInt32_append,
    Option.bind_eq_bind, Option.bind_some, UInt16.toNat_ofNat', hlabel,
    hprotocol]
  rfl

/-- A written message is parsed as what it was written from, into an empty
label and a configuration without a protocol. -/
def RoundTrips (label : List UInt8)
    (config config₀ : InternalDataChannelInit) : Prop :=
  ∃ config', parseDataChannelOpenMessage
      (writeDataChannelOpenMessage label config) [] config₀ =
    some (label, config') ∧ config.Agrees config'

theorem length_lt_of_roundTrips (h : RoundTrips label config config₀) :
    label.length < 2 ^ 16 := by
  obtain ⟨config', hparsed, -⟩ := h
  rw [parse_write] at hparsed
  have hlabel := congrArg List.length
    (Prod.ext_iff.mp (Option.some.inj hparsed)).1
  simp only [List.length_take, List.length_append] at hlabel
  have hmod := Nat.mod_lt label.length (by decide : 2 ^ 16 > 0)
  omega

/-- OPEN messages round trip exactly for the strings whose lengths fit into
their fields. -/
theorem roundTrips_iff (hvalid : config.Valid) (hempty : config₀.protocol = []) :
    RoundTrips label config config₀ ↔
      label.length < 2 ^ 16 ∧ config.protocol.length < 2 ^ 16 := by
  constructor
  · intro h
    refine ⟨length_lt_of_roundTrips h, ?_⟩
    obtain ⟨config', hparsed, hagrees⟩ := h
    rw [parse_write, hempty, List.nil_append] at hparsed
    obtain ⟨-, rfl⟩ := Prod.ext_iff.mp (Option.some.inj hparsed)
    have hprotocol := congrArg List.length hagrees.protocol
    simp only [InternalDataChannelInit.setChannelType, List.length_take]
      at hprotocol
    have hmod := Nat.mod_lt config.protocol.length (by decide : 2 ^ 16 > 0)
    omega
  · rintro ⟨hlabel, hprotocol⟩
    obtain ⟨hordered, hrtxs, htime⟩ :=
      setChannelType_openMessageChannelType
        { config₀ with
          protocol := config.protocol } hvalid
    rw [RoundTrips, parse_write, hempty, List.nil_append,
      Nat.mod_eq_of_lt hlabel, Nat.mod_eq_of_lt hprotocol, List.take_left,
      List.drop_left, List.take_length]
    exact ⟨_, rfl, rfl, hordered, hrtxs, htime⟩

theorem roundTrips_iff_partialRtxs :
    RoundTrips [97] { InternalDataChannelInit.new with
      maxRetransmits := 3 } .new ↔
        ([97] : List UInt8).length < 2 ^ 16 ∧
          InternalDataChannelInit.new.protocol.length < 2 ^ 16 :=
  roundTrips_iff ⟨by decide, by decide, by decide, by decide, by decide⟩ rfl

/-- The length of a label of 65536 bytes is written as zero. -/
theorem not_roundTrips_longLabel :
    ¬RoundTrips (List.replicate 65536 97) .new .new := by
  intro h
  have hlength := length_lt_of_roundTrips h
  rw [List.length_replicate] at hlength
  omega

end WebrtcWinXp.DataChannel
