import WebrtcWinXp.PseudoTcp.QueueRuns
import WebrtcWinXp.PseudoTcp.Sending
import WebrtcWinXp.Support.Loop

/-!
# Safe parsing

The ranges of a datagram that `parse` and `process` read, and the loop of
`parseOptions` with the bytes it reads of its `ByteBuffer`.
-/

namespace WebrtcWinXp.PseudoTcp

open Support

/-- The fields of the header that `parse` reads. -/
def headerReads (buffer : Buffer) : List Access :=
  if buffer.size < 12 then []
  else [⟨0, 4⟩, ⟨4, 4⟩, ⟨8, 4⟩, ⟨13, 1⟩, ⟨14, 2⟩, ⟨16, 4⟩, ⟨20, 4⟩]

/-- A segment is processed as far as its control data. -/
structure Admits (s : PseudoTcp) (seg : Segment) : Prop where
  conv : seg.conv = s.m_conv
  opened : s.m_state ≠ .TCP_CLOSED
  noReset : ¬seg.isRst

instance (s : PseudoTcp) (seg : Segment) : Decidable (s.Admits seg) :=
  decidable_of_iff
    (seg.conv = s.m_conv ∧ s.m_state ≠ .TCP_CLOSED ∧ ¬seg.isRst)
    ⟨fun h => ⟨h.1, h.2.1, h.2.2⟩, fun h => ⟨h.conv, h.opened, h.noReset⟩⟩

/-- Control data is read, because there is a byte of it. -/
def ReadsControl (s : PseudoTcp) (seg : Segment) : Prop :=
  s.Admits seg ∧ seg.isCtl ∧ seg.len ≠ 0

instance (s : PseudoTcp) (seg : Segment) : Decidable (s.ReadsControl seg) :=
  inferInstanceAs (Decidable (_ ∧ _))

/-- The segment is a connect message, whose options are parsed. -/
def Connects (s : PseudoTcp) (seg : Segment) : Prop :=
  s.ReadsControl seg ∧ seg.data 0 = CTL_CONNECT

instance (s : PseudoTcp) (seg : Segment) : Decidable (s.Connects seg) :=
  inferInstanceAs (Decidable (_ ∧ _))

/-- The control code, and the options that are copied to a `ByteBuffer`. -/
def controlReads (buffer : Buffer) (s : PseudoTcp) : List Access :=
  let seg := segmentOf buffer
  if 12 ≤ buffer.size ∧ s.ReadsControl seg then
    if s.Connects seg then
      [⟨HEADER_SIZE, 1⟩, ⟨HEADER_SIZE + 1, seg.len - 1⟩]
    else [⟨HEADER_SIZE, 1⟩]
  else []

/-! ## The loop of `parseOptions` -/

/-- The reader of the options, with the options it has met and the scale
factor that is in force. -/
structure OptionReader where
  position : ℕ
  stopped : Bool
  invalid : Bool
  options_specified : List UInt8
  m_swnd_scale : ℕ
  reads : List Access

namespace OptionReader

/-- `ReadUInt8`, which leaves the value of `opt_len` as it was when nothing
is left. -/
def readUInt8 (payload : Buffer) (r : OptionReader) : UInt8 × OptionReader :=
  if r.position < payload.size then
    (payload.byte r.position,
      { r with
        position := r.position + 1
        reads := r.reads ++ [⟨r.position, 1⟩] })
  else (0, r)

/-- `applyOption`, which reads the content of a window scale option only. -/
def applyOption (payload : Buffer) (kind : UInt8) (opt_len : ℕ)
    (r : OptionReader) : OptionReader :=
  if kind = TCP_OPT_WND_SCALE ∧ opt_len = 1 then
    { r with
      m_swnd_scale := (payload.byte r.position).toNat
      reads := r.reads ++ [⟨r.position, 1⟩] }
  else r

def round (payload : Buffer) (r : OptionReader) : Option OptionReader :=
  if r.stopped ∨ payload.size ≤ r.position then none
  else
    let (kind, r) := r.readUInt8 payload
    if kind = TCP_OPT_EOL then
      some { r with
        stopped := true }
    else if kind = TCP_OPT_NOOP then some r
    else
      let (opt_len, r) := r.readUInt8 payload
      if opt_len.toNat ≤ payload.size - r.position then
        let r := r.applyOption payload kind opt_len.toNat
        some { r with
          position := r.position + opt_len.toNat
          options_specified := kind :: r.options_specified }
      else
        some { r with
          stopped := true
          invalid := true }

def new (m_swnd_scale : ℕ) : OptionReader := ⟨0, false, false, [], m_swnd_scale, []⟩

end OptionReader

/-- The payload behind the control code, as a `ByteBuffer`. -/
def optionsOf (seg : Segment) : Buffer := ⟨fun i => seg.data (1 + i), seg.len - 1⟩

namespace OptionReader

variable {payload : Buffer} {r r' : OptionReader}

/-- The reader is in the payload, and so is all it has read. -/
structure Inside (payload : Buffer) (r : OptionReader) : Prop where
  position : r.position ≤ payload.size
  reads : ∀ a ∈ r.reads, payload.Inside a

theorem Inside.read {r₀ : OptionReader} (h : Inside payload r₀)
    {position : ℕ} (hposition : position < payload.size) :
    ∀ a ∈ r₀.reads ++ [⟨position, 1⟩], payload.Inside a := by
  intro a ha
  rcases List.mem_append.mp ha with ha | ha
  · exact h.reads a ha
  · rw [List.mem_singleton.mp ha]
    exact hposition

theorem Inside.readUInt8 (h : Inside payload r) :
    Inside payload (r.readUInt8 payload).2 := by
  rw [OptionReader.readUInt8]
  split
  · next hlt => exact ⟨hlt, h.read hlt⟩
  · exact h

theorem Inside.applyOption (h : Inside payload r) {kind : UInt8}
    {opt_len : ℕ} (hfits : opt_len ≤ payload.size - r.position) :
    Inside payload (r.applyOption payload kind opt_len) := by
  rw [OptionReader.applyOption]
  split
  · next happlies =>
      refine ⟨h.position, h.read ?_⟩
      have hone := happlies.2
      omega
  · exact h

theorem position_readUInt8 (payload : Buffer) (r : OptionReader) :
    r.position ≤ (r.readUInt8 payload).2.position := by
  rw [readUInt8]
  split
  · exact Nat.le_succ _
  · exact Nat.le_refl _

@[simp] theorem position_applyOption (payload : Buffer) (kind : UInt8)
    (opt_len : ℕ) (r : OptionReader) :
    (r.applyOption payload kind opt_len).position = r.position := by
  rw [applyOption]
  split <;> rfl

/-- The cases of a round: the end of the list, no operation, an option that
fits, and one that does not. -/
theorem round_cases (hround : r.round payload = some r') :
    r.stopped = false ∧ r.position < payload.size ∧
      ∃ r₁, r.readUInt8 payload = (payload.byte r.position, r₁) ∧
        (r' = { r₁ with stopped := true } ∨ r' = r₁ ∨
          (∃ opt_len r₂, r₁.readUInt8 payload = (opt_len, r₂) ∧
            (opt_len.toNat ≤ payload.size - r₂.position ∧
              r' = { r₂.applyOption payload (payload.byte r.position)
                  opt_len.toNat with
                position := (r₂.applyOption payload (payload.byte r.position)
                  opt_len.toNat).position + opt_len.toNat
                options_specified := payload.byte r.position ::
                  (r₂.applyOption payload (payload.byte r.position)
                    opt_len.toNat).options_specified } ∨
              r' = { r₂ with
                stopped := true
                invalid := true }))) := by
  rw [round] at hround
  split at hround
  · cases hround
  · next hmore =>
      have hrun : r.stopped = false := by
        by_contra hstopped
        exact hmore (Or.inl (Bool.not_eq_false _ ▸ hstopped))
      have hlt : r.position < payload.size := by
        by_contra hle
        exact hmore (Or.inr (Nat.not_lt.mp hle))
      refine ⟨hrun, hlt, _, by rw [readUInt8, if_pos hlt], ?_⟩
      rw [readUInt8, if_pos hlt] at hround
      dsimp only at hround
      split at hround
      · cases hround
        exact Or.inl rfl
      · split at hround
        · cases hround
          exact Or.inr (Or.inl rfl)
        · refine Or.inr (Or.inr ⟨_, _, rfl, ?_⟩)
          split at hround
          · next hfits =>
              cases hround
              exact Or.inl ⟨hfits, rfl⟩
          · cases hround
            exact Or.inr rfl

theorem Inside.round (h : Inside payload r)
    (hround : r.round payload = some r') : Inside payload r' := by
  obtain ⟨-, -, r₁, hkind, hcases⟩ := round_cases hround
  have h₁ : Inside payload r₁ := by
    have hread := h.readUInt8
    rwa [hkind] at hread
  rcases hcases with rfl | rfl | ⟨opt_len, r₂, hlen, ⟨hfits, rfl⟩ | rfl⟩
  · exact ⟨h₁.position, h₁.reads⟩
  · exact h₁
  · have h₂ : Inside payload r₂ := by
      have hread := h₁.readUInt8
      rwa [hlen] at hread
    have hposition := h₂.position
    refine ⟨?_, (h₂.applyOption hfits).reads⟩
    simp only [position_applyOption]
    omega
  · have h₂ : Inside payload r₂ := by
      have hread := h₁.readUInt8
      rwa [hlen] at hread
    exact ⟨h₂.position, h₂.reads⟩

def left (payload : Buffer) (r : OptionReader) : ℕ :=
  if r.stopped then 0 else payload.size - r.position

theorem lowers_round : Lowers (round payload) (left payload) := by
  intro r r' hround
  obtain ⟨hrun, hlt, r₁, hkind, hcases⟩ := round_cases hround
  have hpositive : left payload r = payload.size - r.position := by
    simp [left, hrun]
  have hnext : r₁.position = r.position + 1 := by
    rw [readUInt8, if_pos hlt] at hkind
    exact (congrArg (fun p => p.2.position) hkind).symm
  have hmoved : ∀ r₂ : OptionReader, r.position < r₂.position →
      left payload r₂ < payload.size - r.position := by
    intro r₂ hposition
    rw [left]
    split <;> omega
  rw [hpositive]
  rcases hcases with rfl | rfl | ⟨opt_len, r₂, hlen, ⟨-, rfl⟩ | rfl⟩
  · exact hmoved _ (by dsimp only; omega)
  · exact hmoved _ (by omega)
  · have hle := position_readUInt8 payload r₁
    rw [hlen] at hle
    exact hmoved _ (by simp only [position_applyOption] at hle ⊢; omega)
  · have hle := position_readUInt8 payload r₁
    rw [hlen] at hle
    exact hmoved _ (by dsimp only at hle ⊢; omega)

/-- The options that are left, as the list that the model parses. -/
def rest (payload : Buffer) (r : OptionReader) : List UInt8 :=
  slice payload.byte r.position (payload.size - r.position)

theorem readUInt8_of_lt (hlt : r.position < payload.size) :
    (rest payload r) = payload.byte r.position ::
        rest payload (r.readUInt8 payload).2 ∧
      (r.readUInt8 payload).1 = payload.byte r.position := by
  obtain ⟨k, hk⟩ : ∃ k, payload.size - r.position = 1 + k :=
    ⟨payload.size - r.position - 1, by omega⟩
  have hk' : payload.size - (r.position + 1) = k := by omega
  rw [readUInt8, if_pos hlt, rest, rest, hk, slice_add]
  simp only [hk', and_true]
  rfl

theorem readUInt8_eq (payload : Buffer) (r : OptionReader) :
    (r.readUInt8 payload).1 = (rest payload r).headD 0 ∧
      rest payload (r.readUInt8 payload).2 = (rest payload r).tail := by
  by_cases hlt : r.position < payload.size
  · obtain ⟨hrest, hbyte⟩ := readUInt8_of_lt hlt
    rw [hrest, hbyte]
    exact ⟨rfl, rfl⟩
  · have hnil : rest payload r = [] := by
      rw [rest, show payload.size - r.position = 0 by omega, slice_zero]
    rw [readUInt8, if_neg hlt, hnil]
    exact ⟨rfl, rfl⟩

theorem length_rest (payload : Buffer) (r : OptionReader) :
    (rest payload r).length = payload.size - r.position :=
  length_slice _ _ _

/-- The result in terms of the model: the options, and the scale factor. -/
def result (r : OptionReader) (s : PseudoTcp) :
    Option (List UInt8) × PseudoTcp :=
  (if r.invalid then none else some r.options_specified,
    { s with
      m_swnd_scale := r.m_swnd_scale })

theorem readUInt8_same (payload : Buffer) (r : OptionReader) :
    (r.readUInt8 payload).2.stopped = r.stopped ∧
      (r.readUInt8 payload).2.invalid = r.invalid ∧
      (r.readUInt8 payload).2.options_specified = r.options_specified ∧
      (r.readUInt8 payload).2.m_swnd_scale = r.m_swnd_scale := by
  rw [readUInt8]
  split <;> exact ⟨rfl, rfl, rfl, rfl⟩

theorem applyOption_same (payload : Buffer) (kind : UInt8) (opt_len : ℕ)
    (r : OptionReader) :
    (r.applyOption payload kind opt_len).stopped = r.stopped ∧
      (r.applyOption payload kind opt_len).invalid = r.invalid ∧
      (r.applyOption payload kind opt_len).options_specified =
        r.options_specified ∧
      (r.applyOption payload kind opt_len).position = r.position := by
  rw [applyOption]
  split <;> exact ⟨rfl, rfl, rfl, rfl⟩

theorem applyOption_eq {kind : UInt8} {opt_len : ℕ} {s : PseudoTcp}
    (hfits : opt_len ≤ payload.size - r.position) :
    PseudoTcp.applyOption kind ((rest payload r).take opt_len)
        { s with
          m_swnd_scale := r.m_swnd_scale } =
      { s with
        m_swnd_scale :=
          (r.applyOption payload kind opt_len).m_swnd_scale } := by
  have hlength : ((rest payload r).take opt_len).length = opt_len := by
    rw [List.length_take, length_rest]
    omega
  rw [PseudoTcp.applyOption, hlength, applyOption]
  split
  · next happlies =>
      have hlt : r.position < payload.size := by omega
      rw [happlies.2, (readUInt8_of_lt hlt).1]
      rfl
  · rfl

theorem loop_of_stopped (hstopped : r.stopped = true) {n : ℕ}
    (h : loop (round payload) n r = some r') : r' = r := by
  cases n with
  | zero => cases h
  | succ n =>
    rw [loop, round, if_pos (Or.inl hstopped)] at h
    exact (Option.some.inj h).symm

/-- The loop of the reader is the loop of `parseOptions`. -/
theorem parseOptionsLoop_eq {n fuel : ℕ} {s : PseudoTcp}
    (hrun : r.stopped = false) (hvalid : r.invalid = false)
    (hfuel : payload.size - r.position ≤ fuel)
    (h : loop (round payload) n r = some r') :
    parseOptionsLoop fuel (rest payload r) r.options_specified
        { s with
          m_swnd_scale := r.m_swnd_scale } = r'.result s := by
  induction n generalizing r fuel with
  | zero => cases h
  | succ n ih =>
    by_cases hlt : r.position < payload.size
    · obtain ⟨fuel, rfl⟩ : ∃ k, fuel = k + 1 := ⟨fuel - 1, by omega⟩
      obtain ⟨hrest, hkind⟩ := readUInt8_of_lt hlt
      have hmore : ¬(r.stopped = true ∨ payload.size ≤ r.position) := by
        rintro (hstopped | hle)
        · rw [hrun] at hstopped
          cases hstopped
        · omega
      obtain ⟨hrun₁, hvalid₁, hspecified₁, hscale₁⟩ :=
        readUInt8_same payload r
      have hposition₁ : (r.readUInt8 payload).2.position =
          r.position + 1 := by
        rw [readUInt8, if_pos hlt]
      rw [loop, round, if_neg hmore] at h
      rw [hrest, parseOptionsLoop]
      dsimp only at h
      rw [hkind] at h
      generalize (r.readUInt8 payload).2 = r₁ at *
      rw [← hspecified₁, ← hscale₁]
      split
      · next heol =>
          rw [if_pos heol] at h
          rw [loop_of_stopped rfl h, result, hvalid₁, hvalid]
          rfl
      · next heol =>
          rw [if_neg heol] at h
          split
          · next hnoop =>
              rw [if_pos hnoop] at h
              exact ih (hrun₁.trans hrun) (hvalid₁.trans hvalid) (by omega) h
          · next hnoop =>
              rw [if_neg hnoop] at h
              obtain ⟨hlen, hrest₂⟩ := readUInt8_eq payload r₁
              obtain ⟨hrun₂, hvalid₂, hspecified₂, hscale₂⟩ :=
                readUInt8_same payload r₁
              have hmoved := position_readUInt8 payload r₁
              rw [← hlen, ← hrest₂]
              generalize r₁.readUInt8 payload = p at *
              obtain ⟨opt_len, r₂⟩ := p
              dsimp only at *
              rw [length_rest]
              split
              · next hfits =>
                  rw [if_pos hfits] at h
                  obtain ⟨hrun₃, hvalid₃, hspecified₃, hposition₃⟩ :=
                    applyOption_same payload (payload.byte r.position)
                      opt_len.toNat r₂
                  rw [← hscale₂, applyOption_eq hfits, ← hspecified₂,
                    ← hspecified₃]
                  have hdrop : (rest payload r₂).drop opt_len.toNat =
                      rest payload
                        { r₂.applyOption payload (payload.byte r.position)
                            opt_len.toNat with
                          position := r₂.position + opt_len.toNat
                          options_specified := payload.byte r.position ::
                            (r₂.applyOption payload
                              (payload.byte r.position)
                              opt_len.toNat).options_specified } := by
                    rw [rest, rest, drop_slice, Nat.sub_sub]
                  rw [hdrop]
                  rw [hposition₃] at h
                  refine ih ?_ ?_ ?_ h
                  · exact (hrun₃.trans hrun₂).trans (hrun₁.trans hrun)
                  · exact (hvalid₃.trans hvalid₂).trans
                      (hvalid₁.trans hvalid)
                  · dsimp only
                    omega
              · next hfits =>
                  rw [if_neg hfits] at h
                  rw [loop_of_stopped rfl h, result, ← hscale₂]
                  rfl
    · rw [loop, round, if_pos (Or.inr (Nat.not_lt.mp hlt))] at h
      rw [← Option.some.inj h, result, hvalid, rest,
        show payload.size - r.position = 0 by omega, slice_zero]
      cases fuel <;> rfl

end OptionReader

/-- The window scale options of a list of options, up to its end or to an
option that is longer than the rest. -/
def windowScales : List UInt8 → List UInt8
  | [] => []
  | kind :: buf =>
    if kind = TCP_OPT_EOL then []
    else if kind = TCP_OPT_NOOP then windowScales buf
    else
      match buf with
      | [] => []
      | opt_len :: buf =>
        if opt_len.toNat ≤ buf.length then
          (if kind = TCP_OPT_WND_SCALE ∧ opt_len = 1 then buf.take 1
            else []) ++ windowScales (buf.drop opt_len.toNat)
        else []
termination_by buf => buf.length
decreasing_by all_goals simp <;> omega

/-- The options are parsed with reads that stay in the payload, in a loop that
ends. -/
def ReadsOptions (payload : Buffer) (s : PseudoTcp) : Prop :=
  ∃ r, loop (OptionReader.round payload) (payload.size + 1)
      (.new s.m_swnd_scale) = some r ∧
    (∀ a ∈ r.reads, payload.Inside a) ∧
    parseOptionsLoop payload.size (slice payload.byte 0 payload.size) [] s =
      r.result s

/-- A window of 16 bits can be shifted without leaving 32 bits. -/
def ShiftFits (s : PseudoTcp) : Prop :=
  ∀ wnd < 2 ^ 16, wnd <<< s.m_swnd_scale < 2 ^ 32

/-- What is asked of a datagram that is given to `NotifyPacket`. -/
structure ParsesSafely (buffer : Buffer) (s : PseudoTcp) : Prop where
  header : ∀ a ∈ headerReads buffer, buffer.Inside a
  length : 12 ≤ buffer.size →
    (segmentOf buffer).len + HEADER_SIZE = buffer.size
  control : ∀ a ∈ controlReads buffer s, buffer.Inside a
  options : 12 ≤ buffer.size → s.Connects (segmentOf buffer) →
    ReadsOptions (optionsOf (segmentOf buffer)) s
  shift : (s.notifyPacket buffer).2.ShiftFits

/-- A datagram is too short to be looked at or has a whole header, and the
last window scale that it sets is no more than 16. -/
structure Harmless (buffer : Buffer) (s : PseudoTcp) : Prop where
  size : buffer.size < 12 ∨ HEADER_SIZE ≤ buffer.size
  scale : 12 ≤ buffer.size → s.Connects (segmentOf buffer) →
    ∀ factor ∈ (windowScales (slice (segmentOf buffer).data 1
      ((segmentOf buffer).len - 1))).getLast?, factor.toNat ≤ 16

variable {s t : PseudoTcp}

theorem readsOptions (payload : Buffer) (s : PseudoTcp) :
    ReadsOptions payload s := by
  have hleft : OptionReader.left payload (.new s.m_swnd_scale) <
      payload.size + 1 := by
    simp [OptionReader.left, OptionReader.new]
  obtain ⟨r, hr⟩ := exists_loop_eq_some OptionReader.lowers_round hleft
  have hinside : OptionReader.Inside payload (.new s.m_swnd_scale) :=
    ⟨Nat.zero_le _, nofun⟩
  have hend := (loop_invariant
    (fun _ _ h hround => OptionReader.Inside.round h hround) hinside hr).1
  exact ⟨r, hr, hend.reads,
    OptionReader.parseOptionsLoop_eq rfl rfl (Nat.sub_le _ _) hr⟩

/-! ### The window scale -/

theorem shiftFits_iff : s.ShiftFits ↔ s.m_swnd_scale ≤ 16 := by
  constructor
  · intro h
    by_contra hlarge
    have hshift := h (2 ^ 16 - 1) (by decide)
    have hpow : 2 ^ 17 ≤ 2 ^ s.m_swnd_scale :=
      Nat.pow_le_pow_right (by decide) (by omega)
    rw [Nat.shiftLeft_eq] at hshift
    omega
  · intro h wnd hwnd
    have hpow : 2 ^ s.m_swnd_scale ≤ 2 ^ 16 :=
      Nat.pow_le_pow_right (by decide) h
    rw [Nat.shiftLeft_eq]
    calc wnd * 2 ^ s.m_swnd_scale
        ≤ wnd * 2 ^ 16 := Nat.mul_le_mul_left wnd hpow
      _ < 2 ^ 32 := by omega

variable {fuel : ℕ} {buf options_specified : List UInt8}

theorem mem_parseOptionsLoop
    {specified : List UInt8} {kind : UInt8} (hmem : kind ∈ options_specified)
    (h : (parseOptionsLoop fuel buf options_specified s).1 =
      some specified) : kind ∈ specified := by
  induction fuel generalizing buf options_specified s with
  | zero =>
    cases h
    exact hmem
  | succ fuel ih =>
    cases buf with
    | nil =>
      cases h
      exact hmem
    | cons first buf =>
      simp only [parseOptionsLoop] at h
      split at h
      · cases h
        exact hmem
      · split at h
        · exact ih hmem h
        · split at h
          · exact ih (List.mem_cons_of_mem _ hmem) h
          · cases h

theorem m_swnd_scale_applyOption {kind opt_len : UInt8}
    (hfits : opt_len.toNat ≤ buf.length) :
    (s.applyOption kind (buf.take opt_len.toNat)).m_swnd_scale =
      (((if kind = TCP_OPT_WND_SCALE ∧ opt_len = 1 then buf.take 1
        else []).getLast?).map UInt8.toNat).getD s.m_swnd_scale := by
  have hlength : (buf.take opt_len.toNat).length = opt_len.toNat := by
    rw [List.length_take]
    omega
  have hone : opt_len.toNat = 1 ↔ opt_len = 1 := by
    rw [← UInt8.toNat_inj]
    rfl
  rw [applyOption, hlength]
  simp only [hone]
  split
  · next happlies =>
      rw [happlies.2] at hfits ⊢
      cases buf with
      | nil => exact absurd hfits (by decide)
      | cons factor buf => rfl
  · rfl

theorem m_swnd_scale_parseOptionsLoop (hfuel : buf.length ≤ fuel) :
    (parseOptionsLoop fuel buf options_specified s).2.m_swnd_scale =
      ((windowScales buf).getLast?.map UInt8.toNat).getD s.m_swnd_scale := by
  induction fuel generalizing buf options_specified s with
  | zero =>
    rw [List.eq_nil_of_length_eq_zero (Nat.le_zero.mp hfuel), windowScales]
    rfl
  | succ fuel ih =>
    cases buf with
    | nil =>
      rw [windowScales]
      rfl
    | cons kind buf =>
      rw [List.length_cons] at hfuel
      rw [parseOptionsLoop, windowScales.eq_def]
      dsimp only
      split
      · rfl
      · split
        · exact ih (by omega)
        · cases buf with
          | nil =>
            have hsame : s.applyOption kind [] = s := by
              simp [applyOption]
            simp only [List.headD_nil, List.tail_nil, List.drop_nil,
              List.take_nil, hsame]
            rw [if_pos (by decide), ih (by simp), windowScales]
          | cons opt_len buf =>
            rw [List.length_cons] at hfuel
            by_cases hfits : opt_len.toNat ≤ buf.length
            · have hhead : ((opt_len :: buf).headD 0).toNat ≤
                  (opt_len :: buf).tail.length := hfits
              rw [if_pos hhead]
              simp only [List.headD_cons, List.tail_cons]
              rw [if_pos hfits, ih (by rw [List.length_drop]; omega),
                m_swnd_scale_applyOption hfits, List.getLast?_append]
              cases (windowScales (buf.drop opt_len.toNat)).getLast?
              · rfl
              · rfl
            · have hhead : ¬((opt_len :: buf).headD 0).toNat ≤
                  (opt_len :: buf).tail.length := hfits
              rw [if_neg hhead]
              simp only
              rw [if_neg hfits]
              rfl

theorem specified_of_windowScales
    {specified : List UInt8} (hfuel : buf.length ≤ fuel)
    (hscales : windowScales buf ≠ [])
    (h : (parseOptionsLoop fuel buf options_specified s).1 =
      some specified) : TCP_OPT_WND_SCALE ∈ specified := by
  induction fuel generalizing buf options_specified s with
  | zero =>
    rw [List.eq_nil_of_length_eq_zero (Nat.le_zero.mp hfuel),
      windowScales] at hscales
    exact absurd rfl hscales
  | succ fuel ih =>
    cases buf with
    | nil =>
      rw [windowScales] at hscales
      exact absurd rfl hscales
    | cons kind buf =>
      rw [List.length_cons] at hfuel
      rw [parseOptionsLoop] at h
      rw [windowScales.eq_def] at hscales
      dsimp only at hscales
      split at h
      · next heol =>
          rw [if_pos heol] at hscales
          exact absurd rfl hscales
      · next heol =>
          rw [if_neg heol] at hscales
          split at h
          · next hnoop =>
              rw [if_pos hnoop] at hscales
              exact ih (by omega) hscales h
          · next hnoop =>
              rw [if_neg hnoop] at hscales
              cases buf with
              | nil => exact absurd rfl hscales
              | cons opt_len buf =>
                rw [List.length_cons] at hfuel
                simp only at hscales
                split at hscales
                · next hfits =>
                    have hhead : ((opt_len :: buf).headD 0).toNat ≤
                        (opt_len :: buf).tail.length := hfits
                    rw [if_pos hhead] at h
                    simp only [List.headD_cons, List.tail_cons] at h
                    by_cases hrest :
                        windowScales (buf.drop opt_len.toNat) = []
                    · have hkind : kind = TCP_OPT_WND_SCALE := by
                        by_contra hkind
                        rw [hrest, if_neg (fun happlies =>
                          hkind happlies.1)] at hscales
                        exact absurd rfl hscales
                      rw [hkind] at h
                      exact mem_parseOptionsLoop List.mem_cons_self h
                    · exact ih (by rw [List.length_drop]; omega) hrest h
                · exact absurd rfl hscales

theorem m_swnd_scale_parseOptions_le {data : List UInt8}
    (h : s.m_swnd_scale ≤ 16) :
    (s.parseOptions data).m_swnd_scale ≤ 16 ↔
      ∀ factor ∈ (windowScales data).getLast?, factor.toNat ≤ 16 := by
  have hscale : (parseOptionsLoop data.length data [] s).2.m_swnd_scale =
      ((windowScales data).getLast?.map UInt8.toNat).getD s.m_swnd_scale :=
    m_swnd_scale_parseOptionsLoop (Nat.le_refl _)
  have hloop : (parseOptionsLoop data.length data [] s).2.m_swnd_scale ≤ 16 ↔
      ∀ factor ∈ (windowScales data).getLast?, factor.toNat ≤ 16 := by
    rw [hscale]
    cases (windowScales data).getLast? with
    | none => simpa using h
    | some factor => simp
  rw [← hloop, parseOptions]
  split
  · next heq => rw [heq]
  · next specified u heq =>
      rw [heq]
      split
      · next hmissing =>
          have hnone : windowScales data = [] := by
            by_contra hscales
            have hmem := specified_of_windowScales (Nat.le_refl _) hscales
              (congrArg Prod.fst heq)
            exact hmissing.1 hmem
          rw [heq, hnone] at hscale
          dsimp only at hscale ⊢
          rw [hscale]
          exact iff_of_true (Nat.zero_le _) h
      · exact Iff.rfl

end WebrtcWinXp.PseudoTcp
