import Mathlib

/-!
# Registered header extensions

`RtpHeaderExtensionMap` as the entries of its `std::map`, in the order of their
ids.  Sender and receiver walk it in this order, and several of its functions
look an extension up by its type.
-/

namespace WebrtcWinXp.Rtp

/-- The extensions; `none` stands for `kRtpExtensionNone`. -/
inductive RTPExtensionType where
  | kRtpExtensionTransmissionTimeOffset
  | kRtpExtensionAudioLevel
  | kRtpExtensionAbsoluteSendTime
  deriving DecidableEq

def kRtpOneByteHeaderExtensionId : ℕ := 0xBEDE

def kRtpOneByteHeaderLength : ℕ := 4

def kTransmissionTimeOffsetLength : ℕ := 4

def kAudioLevelLength : ℕ := 4

def kAbsoluteSendTimeLength : ℕ := 4

/-- `HeaderExtension::length`. -/
def RTPExtensionType.length : RTPExtensionType → ℕ
  | .kRtpExtensionTransmissionTimeOffset => kTransmissionTimeOffsetLength
  | .kRtpExtensionAudioLevel => kAudioLevelLength
  | .kRtpExtensionAbsoluteSendTime => kAbsoluteSendTimeLength

@[simp] theorem RTPExtensionType.length_eq (type : RTPExtensionType) :
    type.length = 4 := by
  cases type <;> rfl

structure RtpHeaderExtensionMap where
  entries : List (ℕ × RTPExtensionType)
  increasing : entries.Pairwise fun a b => a.1 < b.1
  inRange : ∀ e ∈ entries, 1 ≤ e.1 ∧ e.1 ≤ 14

namespace RtpHeaderExtensionMap

variable (m : RtpHeaderExtensionMap)

def empty : RtpHeaderExtensionMap where
  entries := []
  increasing := .nil
  inRange := by simp

def size : ℕ := m.entries.length

def getType (id : ℕ) : Option RTPExtensionType :=
  (m.entries.find? fun e => e.1 == id).map Prod.snd

/-- The first id the extension is registered with. -/
def getId (type : RTPExtensionType) : Option ℕ :=
  (m.entries.find? fun e => e.2 == type).map Prod.fst

def getLengthUntilBlockStartInBytes (type : RTPExtensionType) : Option ℕ :=
  match m.getId type with
  | none => none
  | some _ =>
    some (kRtpOneByteHeaderLength +
      ((m.entries.takeWhile fun e => e.2 != type).map
        fun e => e.2.length).sum)

def first : Option RTPExtensionType := m.entries.head?.map Prod.snd

/-- The extension registered behind the first id of this one. -/
def next (type : RTPExtensionType) : Option RTPExtensionType :=
  match m.getId type with
  | none => none
  | some id =>
    (m.entries.dropWhile fun e => e.1 != id).tail.head?.map Prod.snd

def insertEntry (e : ℕ × RTPExtensionType) :
    List (ℕ × RTPExtensionType) → List (ℕ × RTPExtensionType)
  | [] => [e]
  | e' :: l => if e.1 < e'.1 then e :: e' :: l else e' :: insertEntry e l

theorem insertEntry_perm (e : ℕ × RTPExtensionType)
    (l : List (ℕ × RTPExtensionType)) : (insertEntry e l).Perm (e :: l) := by
  induction l with
  | nil => exact .refl _
  | cons e' l ih =>
    rw [insertEntry]
    split
    · exact .refl _
    · exact (ih.cons e').trans (.swap e e' l)

theorem increasing_insertEntry {e : ℕ × RTPExtensionType}
    {l : List (ℕ × RTPExtensionType)}
    (h : l.Pairwise fun a b => a.1 < b.1) (hnew : ∀ e' ∈ l, e'.1 ≠ e.1) :
    (insertEntry e l).Pairwise fun a b => a.1 < b.1 := by
  induction l with
  | nil => exact List.pairwise_singleton _ _
  | cons e' l ih =>
    rw [List.pairwise_cons] at h
    rw [insertEntry]
    split
    · rename_i hlt
      refine List.pairwise_cons.mpr ⟨?_, List.pairwise_cons.mpr h⟩
      intro x hx
      rcases List.mem_cons.mp hx with rfl | hx
      · exact hlt
      · exact Nat.lt_trans hlt (h.1 x hx)
    · rename_i hlt
      refine List.pairwise_cons.mpr ⟨?_, ih h.2 fun x hx =>
        hnew x (List.mem_cons_of_mem _ hx)⟩
      intro x hx
      rcases List.mem_cons.mp ((insertEntry_perm e l).mem_iff.mp hx) with
        rfl | hx
      · have hne := hnew e' List.mem_cons_self
        omega
      · exact h.1 x hx

theorem getType_eq_none_iff {id : ℕ} :
    m.getType id = none ↔ ∀ e ∈ m.entries, e.1 ≠ id := by
  simp [getType]

/-- `Register`, with its return value. -/
def register (type : RTPExtensionType) (id : ℕ) : RtpHeaderExtensionMap × ℤ :=
  if hid : id < 1 ∨ id > 14 then (m, -1)
  else
    match h : m.getType id with
    | some registered => if registered ≠ type then (m, -1) else (m, 0)
    | none =>
      ({ entries := insertEntry (id, type) m.entries
         increasing := increasing_insertEntry m.increasing
           (m.getType_eq_none_iff.mp h)
         inRange := by
           intro e he
           rcases List.mem_cons.mp
               ((insertEntry_perm _ _).mem_iff.mp he) with rfl | he
           · exact ⟨by omega, by omega⟩
           · exact m.inRange e he }, 0)

def OneId : Prop := (m.entries.map Prod.snd).Nodup

instance : Decidable m.OneId := inferInstanceAs (Decidable (List.Nodup _))

section Entry

variable {m} {front back : List (ℕ × RTPExtensionType)} {id : ℕ}
  {type : RTPExtensionType}

theorem front_id_ne (h : m.entries = front ++ (id, type) :: back) :
    ∀ e ∈ front, e.1 ≠ id := by
  intro e he
  have hincreasing := m.increasing
  rw [h, List.pairwise_append] at hincreasing
  exact Nat.ne_of_lt (hincreasing.2.2 e he _ List.mem_cons_self)

theorem OneId.front_type_ne (hone : m.OneId)
    (h : m.entries = front ++ (id, type) :: back) :
    ∀ e ∈ front, e.2 ≠ type := by
  intro e he heq
  rw [OneId, h, List.map_append, List.nodup_append] at hone
  exact hone.2.2 e.2 (List.mem_map_of_mem he) type
    (List.mem_map_of_mem List.mem_cons_self) heq

theorem OneId.back_type_ne (hone : m.OneId)
    (h : m.entries = front ++ (id, type) :: back) :
    ∀ e ∈ back, e.2 ≠ type := by
  intro e he heq
  rw [OneId, h, List.map_append, List.nodup_append, List.map_cons,
    List.nodup_cons] at hone
  exact hone.2.1.1 (List.mem_map.mpr ⟨e, he, heq⟩)

theorem getType_eq (h : m.entries = front ++ (id, type) :: back) :
    m.getType id = some type := by
  have hfront : front.find? (fun e => e.1 == id) = none := by
    simpa using fun a b hab => front_id_ne h (a, b) hab
  rw [getType, h, List.find?_append, hfront]
  simp

theorem OneId.getId_eq (hone : m.OneId)
    (h : m.entries = front ++ (id, type) :: back) :
    m.getId type = some id := by
  have hfront : front.find? (fun e => e.2 == type) = none := by
    simpa using fun a b hab => hone.front_type_ne h (a, b) hab
  rw [getId, h, List.find?_append, hfront]
  simp

theorem OneId.getLengthUntilBlockStartInBytes_eq (hone : m.OneId)
    (h : m.entries = front ++ (id, type) :: back) :
    m.getLengthUntilBlockStartInBytes type =
      some (kRtpOneByteHeaderLength + 4 * front.length) := by
  have hfront : (m.entries.takeWhile fun e => e.2 != type) = front := by
    rw [h, List.takeWhile_append_of_pos]
    · simp
    · intro e he
      simpa using hone.front_type_ne h e he
  rw [getLengthUntilBlockStartInBytes, hone.getId_eq h]
  simp [hfront, Nat.mul_comm]

theorem OneId.next_eq (hone : m.OneId)
    (h : m.entries = front ++ (id, type) :: back) :
    m.next type = back.head?.map Prod.snd := by
  have hdrop : (m.entries.dropWhile fun e => e.1 != id) =
      (id, type) :: back := by
    rw [h, List.dropWhile_append_of_pos]
    · simp
    · intro e he
      simpa using front_id_ne h e he
  rw [next, hone.getId_eq h]
  simp [hdrop]

theorem exists_entry {type : RTPExtensionType}
    (h : type ∈ m.entries.map Prod.snd) :
    ∃ front id back, m.entries = front ++ (id, type) :: back := by
  obtain ⟨⟨id, _⟩, he, rfl⟩ := List.mem_map.mp h
  obtain ⟨front, back, heq⟩ := List.append_of_mem he
  exact ⟨front, id, back, heq⟩

end Entry

end RtpHeaderExtensionMap

end WebrtcWinXp.Rtp
