import WebrtcWinXp.Stun.Integrity
import WebrtcWinXp.Support.Loop

/-!
# What validating the integrity reads

`ValidateMessageIntegrity` reads the length in the header, the headers of
attributes up to the integrity attribute, the bytes before it and the HMAC in
it.
-/

namespace WebrtcWinXp.Stun

open Support

namespace StunMessage

def attributeHeaderReads (currentPos : ℕ) : List Access :=
  [⟨currentPos, 2⟩, ⟨currentPos + 2, 2⟩]

/-- One round of the loop that skips an attribute. -/
def nextAttribute (data : Buffer) (currentPos : ℕ) : Option ℕ :=
  if currentPos < data.size ∧
      getBE16 data currentPos ≠ STUN_ATTR_MESSAGE_INTEGRITY then
    let attrLength := getBE16 data (currentPos + 2)
    some (currentPos + kStunAttributeHeaderSize + attrLength.toNat +
      paddingLength attrLength.toNat)
  else none

/-- The reads of the loop of `ValidateMessageIntegrity`. -/
def findMessageIntegrityReads (data : Buffer) (currentPos : ℕ) : List Access :=
  if currentPos < data.size then
    let attrType := getBE16 data currentPos
    let attrLength := getBE16 data (currentPos + 2)
    if attrType = STUN_ATTR_MESSAGE_INTEGRITY then
      attributeHeaderReads currentPos
    else
      attributeHeaderReads currentPos ++
        findMessageIntegrityReads data (currentPos + kStunAttributeHeaderSize +
          attrLength.toNat + paddingLength attrLength.toNat)
  else []
termination_by data.size - currentPos
decreasing_by
  simp only [kStunAttributeHeaderSize]
  omega

/-- The reads of `ValidateMessageIntegrity`. -/
def validateMessageIntegrityReads (data : Buffer) : List Access :=
  if data.size % 4 ≠ 0 then []
  else ⟨2, 2⟩ ::
    if data.size ≠ (getBE16 data 2).toNat + kStunHeaderSize then []
    else findMessageIntegrityReads data kStunHeaderSize ++
      match findMessageIntegrity data kStunHeaderSize with
      | none => []
      | some miPos =>
        [⟨0, miPos⟩, ⟨miPos + kStunAttributeHeaderSize,
          kStunMessageIntegritySize⟩]

variable {data data' : Buffer}

/-! ## The loop -/

variable {pos next : ℕ}

theorem nextAttribute_eq_some :
    nextAttribute data pos = some next ↔ pos < data.size ∧
      getBE16 data pos ≠ STUN_ATTR_MESSAGE_INTEGRITY ∧
      next = pos + kStunAttributeHeaderSize +
        (getBE16 data (pos + 2)).toNat +
        paddingLength (getBE16 data (pos + 2)).toNat := by
  simp [nextAttribute, and_assoc, eq_comm]

theorem lowers_nextAttribute :
    Lowers (nextAttribute data) fun pos => data.size - pos := by
  intro pos next h
  obtain ⟨hlt, -, rfl⟩ := nextAttribute_eq_some.mp h
  simp only [kStunAttributeHeaderSize]
  omega

theorem exists_loop_nextAttribute (pos : ℕ) :
    ∃ last, loop (nextAttribute data) (data.size + 1) pos = some last :=
  exists_loop_eq_some lowers_nextAttribute (by omega)

theorem findMessageIntegrity_of_next
    (h : nextAttribute data pos = some next) :
    findMessageIntegrity data pos = findMessageIntegrity data next := by
  obtain ⟨hlt, htype, rfl⟩ := nextAttribute_eq_some.mp h
  rw [findMessageIntegrity, if_pos hlt]
  dsimp only
  rw [if_neg htype]

/-- A position at which the walk arrives. -/
inductive AttributeAt (data : Buffer) : ℕ → Prop where
  | first : AttributeAt data kStunHeaderSize
  | next {pos next : ℕ} (h : AttributeAt data pos)
      (hnext : nextAttribute data pos = some next) : AttributeAt data next

theorem mod_four_of_next (hpos : pos % 4 = 0)
    (h : nextAttribute data pos = some next) : next % 4 = 0 := by
  obtain ⟨-, -, rfl⟩ := nextAttribute_eq_some.mp h
  simp only [kStunAttributeHeaderSize, paddingLength]
  split <;> omega

theorem findMessageIntegrity_eq_some {miPos : ℕ} (hpos : pos % 4 = 0)
    (hat : AttributeAt data pos)
    (h : findMessageIntegrity data pos = some miPos) :
    AttributeAt data miPos ∧ miPos % 4 = 0 ∧
      getBE16 data miPos = STUN_ATTR_MESSAGE_INTEGRITY ∧
      (getBE16 data (miPos + 2)).toNat = kStunMessageIntegritySize ∧
      miPos + kStunMessageIntegritySize ≤ data.size := by
  fun_induction findMessageIntegrity data pos with
  | case1 pos hlt attrType attrLength htype hbad => cases h
  | case2 pos hlt attrType attrLength htype hgood =>
    cases h
    simp only [not_or, not_not, not_lt, gt_iff_lt] at hgood
    exact ⟨hat, hpos, htype, hgood.1, hgood.1 ▸ hgood.2⟩
  | case3 pos hlt attrType attrLength htype ih =>
    have hnext : nextAttribute data pos = some (pos +
        kStunAttributeHeaderSize + attrLength.toNat +
        paddingLength attrLength.toNat) :=
      nextAttribute_eq_some.mpr ⟨hlt, htype, rfl⟩
    exact ih (mod_four_of_next hpos hnext) (hat.next hnext) h
  | case4 pos hlt => cases h

theorem AttributeAt.findMessageIntegrity_eq
    (h : AttributeAt data pos) :
    findMessageIntegrity data kStunHeaderSize =
      findMessageIntegrity data pos := by
  induction h with
  | first => rfl
  | next h hnext ih => rw [ih, findMessageIntegrity_of_next hnext]

theorem inside_findMessageIntegrityReads (hsize : data.size % 4 = 0)
    (hpos : pos % 4 = 0) :
    ∀ a ∈ findMessageIntegrityReads data pos, data.Inside a := by
  have hheader : ∀ pos, pos % 4 = 0 → pos < data.size →
      ∀ a ∈ attributeHeaderReads pos, data.Inside a := by
    intro pos hpos hlt a ha
    simp only [attributeHeaderReads, List.mem_cons, List.not_mem_nil,
      or_false] at ha
    rcases ha with rfl | rfl <;> simp only [Buffer.Inside] <;> omega
  fun_induction findMessageIntegrityReads data pos with
  | case1 pos hlt attrType htype => exact hheader pos hpos hlt
  | case2 pos hlt attrType attrLength htype ih =>
    have hnext : nextAttribute data pos = some (pos +
        kStunAttributeHeaderSize + attrLength.toNat +
        paddingLength attrLength.toNat) :=
      nextAttribute_eq_some.mpr ⟨hlt, htype, rfl⟩
    intro a ha
    rcases List.mem_append.mp ha with ha | ha
    · exact hheader pos hpos hlt a ha
    · exact ih (mod_four_of_next hpos hnext) a ha
  | case3 pos hlt => simp

theorem getBE16_congr {offset : ℕ}
    (h : data'.read ⟨offset, 2⟩ = data.read ⟨offset, 2⟩) :
    getBE16 data' offset = getBE16 data offset := by
  rw [getBE16, getBE16, h]

theorem findMessageIntegrity_congr (hsize : data'.size = data.size)
    (h : ∀ a ∈ findMessageIntegrityReads data pos, data'.read a = data.read a) :
    findMessageIntegrity data' pos = findMessageIntegrity data pos := by
  fun_induction findMessageIntegrityReads data pos with
  | case1 pos hlt attrType htype =>
    have hattr := getBE16_congr (h ⟨pos, 2⟩ (by simp [attributeHeaderReads]))
    have hlength :=
      getBE16_congr (h ⟨pos + 2, 2⟩ (by simp [attributeHeaderReads]))
    have htype : getBE16 data pos = STUN_ATTR_MESSAGE_INTEGRITY := htype
    rw [findMessageIntegrity, findMessageIntegrity]
    simp only [hattr, hlength, hsize, if_pos htype]
  | case2 pos hlt attrType attrLength htype ih =>
    have hattr := getBE16_congr (h ⟨pos, 2⟩ (by simp [attributeHeaderReads]))
    have hlength :=
      getBE16_congr (h ⟨pos + 2, 2⟩ (by simp [attributeHeaderReads]))
    have ih := ih fun a ha => h a (List.mem_append_right _ ha)
    have htype : ¬getBE16 data pos = STUN_ATTR_MESSAGE_INTEGRITY := htype
    rw [findMessageIntegrity, findMessageIntegrity.eq_def data pos]
    simp only [hattr, hlength, hsize, if_neg htype]
    rw [ih]
  | case3 pos hlt =>
    rw [findMessageIntegrity, findMessageIntegrity, hsize, if_neg hlt,
      if_neg hlt]

/-- The outcome depends on nothing but the size and the bytes that are read. -/
theorem validateMessageIntegrity_congr {hmac : Hmac} {password : List UInt8}
    (hsize : data'.size = data.size)
    (h : ∀ a ∈ validateMessageIntegrityReads data,
      data'.read a = data.read a) :
    validateMessageIntegrity hmac data' password =
      validateMessageIntegrity hmac data password := by
  rw [validateMessageIntegrityReads] at h
  rw [validateMessageIntegrity, validateMessageIntegrity, hsize]
  split
  · rfl
  · next haligned =>
      rw [if_neg haligned, List.forall_mem_cons] at h
      rw [getBE16_congr h.1]
      split
      · rfl
      · next hlength =>
          have hreads := h.2
          rw [if_neg hlength, List.forall_mem_append] at hreads
          rw [findMessageIntegrity_congr hsize hreads.1]
          cases hfind : findMessageIntegrity data kStunHeaderSize with
          | none => rfl
          | some miPos =>
            have hbytes := hreads.2
            simp only [hfind, List.forall_mem_cons] at hbytes
            dsimp only
            rw [hbytes.1, hbytes.2.1]

/-- Nothing behind a wrong length is looked at. -/
theorem validateMessageIntegrity_congr_length :
    validateMessageIntegrity lengthHmac
        (.ofList ([0, 1, 0, 8] ++ List.replicate 20 7) fun _ => 0) [] =
      validateMessageIntegrity lengthHmac
        (.ofList ([0, 1, 0, 8] ++ List.replicate 20 0) fun _ => 9) [] :=
  validateMessageIntegrity_congr rfl (by decide)

/-- The reads stay inside the packet, and the walk ends. -/
structure ReadsInside (data : Buffer) : Prop where
  inside : ∀ a ∈ validateMessageIntegrityReads data, data.Inside a
  ends : ∃ last, loop (nextAttribute data) (data.size + 1) kStunHeaderSize =
    some last

/-- A packet of the size in its header, in which the header of an integrity
attribute leaves sixteen bytes for its twenty. -/
structure TruncatedIntegrity (data : Buffer) : Prop where
  aligned : data.size % 4 = 0
  length : data.size = (getBE16 data 2).toNat + kStunHeaderSize
  reached : AttributeAt data (data.size - kStunMessageIntegritySize)
  attrType : getBE16 data (data.size - kStunMessageIntegritySize) =
    STUN_ATTR_MESSAGE_INTEGRITY
  attrLength : (getBE16 data
    (data.size - kStunMessageIntegritySize + 2)).toNat =
      kStunMessageIntegritySize

theorem findMessageIntegrity_at (hlt : pos < data.size)
    (htype : getBE16 data pos = STUN_ATTR_MESSAGE_INTEGRITY)
    (hlength : (getBE16 data (pos + 2)).toNat = kStunMessageIntegritySize)
    (hroom : pos + kStunMessageIntegritySize ≤ data.size) :
    findMessageIntegrity data pos = some pos := by
  rw [findMessageIntegrity, if_pos hlt]
  dsimp only
  rw [if_pos htype, hlength, if_neg (by simpa using hroom)]

theorem TruncatedIntegrity.findMessageIntegrity_eq
    (h : TruncatedIntegrity data) :
    findMessageIntegrity data kStunHeaderSize =
      some (data.size - kStunMessageIntegritySize) := by
  have hroom : kStunMessageIntegritySize ≤ data.size := by
    rw [h.length]
    exact Nat.le_add_left _ _
  have hpos : 0 < kStunMessageIntegritySize := by decide
  rw [h.reached.findMessageIntegrity_eq]
  exact findMessageIntegrity_at (by omega) h.attrType h.attrLength
    (by omega)

/-- The reads stay inside the packet unless it is empty or its integrity
attribute is cut off. -/
theorem readsInside_iff (data : Buffer) :
    ReadsInside data ↔ data.size ≠ 0 ∧ ¬TruncatedIntegrity data := by
  constructor
  · intro h
    have hinside := h.inside
    rw [validateMessageIntegrityReads] at hinside
    refine ⟨?_, ?_⟩
    · intro hzero
      rw [if_neg (by omega)] at hinside
      have hlength := hinside ⟨2, 2⟩ List.mem_cons_self
      rw [Buffer.Inside, hzero] at hlength
      exact absurd hlength (by decide)
    · intro htruncated
      have hfind := htruncated.findMessageIntegrity_eq
      rw [if_neg (not_not.mpr htruncated.aligned),
        if_neg (not_not.mpr htruncated.length), hfind] at hinside
      have hhmac := hinside
        ⟨data.size - kStunMessageIntegritySize + kStunAttributeHeaderSize,
          kStunMessageIntegritySize⟩ (by simp)
      simp only [Buffer.Inside, kStunAttributeHeaderSize,
        kStunMessageIntegritySize] at hhmac
      omega
  · rintro ⟨hzero, htruncated⟩
    refine ⟨?_, exists_loop_nextAttribute _⟩
    rw [validateMessageIntegrityReads]
    split
    · simp
    · next haligned =>
        have haligned : data.size % 4 = 0 := not_not.mp haligned
        rw [List.forall_mem_cons]
        refine ⟨by simp only [Buffer.Inside]; omega, ?_⟩
        split
        · simp
        · next hlength =>
            have hlength := not_not.mp hlength
            rw [List.forall_mem_append]
            refine ⟨inside_findMessageIntegrityReads haligned rfl, ?_⟩
            split
            · simp
            · next miPos hfind =>
                obtain ⟨hat, hmod, htype, hmiLength, hroom⟩ :=
                  findMessageIntegrity_eq_some rfl .first hfind
                simp only [kStunMessageIntegritySize] at hroom
                have hne : miPos ≠ data.size - kStunMessageIntegritySize := by
                  rintro rfl
                  exact htruncated ⟨haligned, hlength, hat, htype, hmiLength⟩
                simp only [kStunMessageIntegritySize] at hne
                simp only [List.forall_mem_cons, Buffer.Inside,
                  kStunAttributeHeaderSize, kStunMessageIntegritySize]
                refine ⟨by omega, by omega, by simp⟩

/-- A header for twenty bytes, and an integrity attribute of which sixteen bytes
are there. -/
def truncatedPacket : Buffer :=
  .ofList ([0, 1, 0, 20] ++ List.replicate 16 0 ++ [0, 8, 0, 20] ++
    List.replicate 16 0) fun _ => 0

theorem not_readsInside_truncatedPacket : ¬ReadsInside truncatedPacket := by
  intro h
  have hfind : findMessageIntegrity truncatedPacket kStunHeaderSize = some 20 :=
    findMessageIntegrity_at (by decide) (by decide) (by decide) (by decide)
  have hinside := h.inside
  rw [validateMessageIntegrityReads, if_neg (by decide), if_neg (by decide),
    hfind] at hinside
  have hhmac := hinside ⟨24, 20⟩ (by simp [kStunAttributeHeaderSize,
    kStunMessageIntegritySize])
  exact absurd hhmac (by decide)

end StunMessage

end WebrtcWinXp.Stun
