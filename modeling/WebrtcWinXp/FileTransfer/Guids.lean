import WebrtcWinXp.FileTransfer.Registry
import WebrtcWinXp.FileTransfer.TaskTable
import WebrtcWinXp.FileTransfer.Wire

/-!
# Guids on the wire

`SetSuserResGuid` and `SetRuserResGuid` as the stores they do to the memory
of a `FileResourceParam`, and the guids that a peer reads from a packet.

The structure begins at address 0 and ends at 88; `sUserResGuid` are the bytes
from 8 on, and `rUserResGuid` those from 48 on.
-/

namespace WebrtcWinXp.FileTransfer

open Support

/-- A guid that `CreateSendFile` accepts: `strlen(guidStr) < 128`. -/
abbrev AcceptedGuid := {guid : Str // cString guid = guid ∧ guid.length < 128}

/-- The 40 bytes of a guid are cleared, `n` characters are copied, and the
terminator is written behind them. -/
def guidStores (field n : ℕ) (str : Str) : List Store :=
  [⟨field, List.replicate 40 0⟩, ⟨field, str.take n⟩, ⟨field + n, [0]⟩]

def sUserResGuidField : Access := ⟨8, 40⟩

def rUserResGuidField : Access := ⟨48, 40⟩

def setSuserResGuidStores (str : Str) : List Store :=
  let strLength := (cString str).length
  guidStores sUserResGuidField.offset
    (if strLength > 40 then 39 else strLength) (cString str)

def setRuserResGuidStores (str : Str) : List Store :=
  let strLength := (cString str).length
  guidStores rUserResGuidField.offset
    (if strLength > 40 then 40 else strLength) (cString str)

def paramOf (memory : ℕ → UInt8) : FileResourceParam :=
  owerInfoAt ⟨memory, 88⟩ 0

/-! ## What the stores leave -/

section Stores

variable {memory : ℕ → UInt8} {field n : ℕ} {str : Str}

theorem applyAll_guidStores (hn : n ≤ str.length) (i : ℕ) :
    Store.applyAll memory (guidStores field n str) i =
      if i = field + n then 0
      else if field ≤ i ∧ i < field + n then str.getD (i - field) 0
      else if field ≤ i ∧ i < field + 40 then 0
      else memory i := by
  have htake : (str.take n).length = n := by
    rw [List.length_take]
    omega
  simp only [guidStores, Store.applyAll, List.foldl_cons, List.foldl_nil,
    Store.apply, htake, List.length_replicate, List.length_singleton]
  by_cases hend : i = field + n
  · subst hend
    simp
  · rw [if_neg hend, if_neg (by omega)]
    by_cases hcopied : field ≤ i ∧ i < field + n
    · rw [if_pos hcopied, if_pos hcopied, List.getD_eq_getElem?_getD,
        List.getElem?_take_of_lt (by omega), ← List.getD_eq_getElem?_getD]
    · rw [if_neg hcopied, if_neg hcopied]
      split
      · rw [List.getD_eq_getElem?_getD, List.getElem?_replicate]
        split
        · rfl
        · rfl
      · rfl

theorem read_applyAll_guidStores (hn : n ≤ str.length) (hcopy : n ≤ 40)
    (size : ℕ) :
    (Buffer.mk (Store.applyAll memory (guidStores field n str)) size).read
      ⟨field, 40⟩ = (Octets.ofStr 40 (str.take n)).1 := by
  have htake : ((str.take n).take 40).length = n := by
    simp only [List.length_take]
    omega
  apply List.ext_getElem
  · rw [Buffer.length_read, (Octets.ofStr 40 (str.take n)).2]
  · intro i h₁ h₂
    rw [Buffer.length_read] at h₁
    change i < 40 at h₁
    simp only [Buffer.read, List.getElem_map, List.getElem_range,
      applyAll_guidStores hn, Octets.ofStr]
    by_cases hi : i < n
    · rw [if_neg (by omega), if_pos (by omega), Nat.add_sub_cancel_left,
        List.getElem_append_left (by omega)]
      simp [List.getElem?_eq_getElem (show i < str.length by omega)]
    · rw [List.getElem_append_right (by omega), List.getElem_replicate]
      by_cases hend : field + i = field + n
      · rw [if_pos hend]
      · rw [if_neg hend, if_neg (by omega), if_pos (by omega)]

theorem read_applyAll_guidStores_of_le (hn : n ≤ str.length)
    {a : Access} (h : a.offset + a.length ≤ field) (size : ℕ) :
    (Buffer.mk (Store.applyAll memory (guidStores field n str)) size).read a =
      (Buffer.mk memory size).read a := by
  apply List.map_congr_left
  intro i hi
  rw [List.mem_range] at hi
  simp only [applyAll_guidStores hn]
  rw [if_neg (by omega), if_neg (by omega), if_neg (by omega)]

/-- Of the bytes behind the field only the first one can change, to the
terminator of a guid of 40 characters. -/
theorem read_applyAll_guidStores_of_ge (hn : n ≤ str.length) (hcopy : n ≤ 40)
    {length : ℕ} (size : ℕ) :
    (Buffer.mk (Store.applyAll memory (guidStores field n str)) size).read
        ⟨field + 40, length⟩ =
      if n = 40 then
        ((Buffer.mk memory size).read ⟨field + 40, length⟩).set 0 0
      else (Buffer.mk memory size).read ⟨field + 40, length⟩ := by
  apply List.ext_getElem
  · split <;> simp
  · intro i h₁ h₂
    rw [Buffer.length_read] at h₁
    simp only [Buffer.read, List.getElem_map, List.getElem_range,
      applyAll_guidStores hn]
    by_cases hfull : n = 40
    · simp only [if_pos hfull, List.getElem_set, List.getElem_map,
        List.getElem_range]
      by_cases hi : i = 0
      · rw [if_pos (by omega), if_pos (by omega)]
      · rw [if_neg (by omega), if_neg (by omega), if_neg (by omega),
          if_neg (by omega)]
    · simp only [if_neg hfull, List.getElem_map, List.getElem_range]
      rw [if_neg (by omega), if_neg (by omega), if_neg (by omega)]

/-- The stores of `SetSuserResGuid` do what the setter does. -/
theorem paramOf_setSuserResGuidStores (str : Str) :
    paramOf (Store.applyAll memory (setSuserResGuidStores str)) =
      (paramOf memory).setSuserResGuid str := by
  have hstores : ∀ n, n ≤ (cString str).length → n ≤ 40 →
      paramOf (Store.applyAll memory (guidStores 8 n (cString str))) =
        { paramOf memory with
          sUserResGuid := Octets.ofStr 40 ((cString str).take n)
          rUserResGuid :=
            if n = 40 then
              ⟨(paramOf memory).rUserResGuid.1.set 0 0, by
                simp [(paramOf memory).rUserResGuid.2]⟩
            else (paramOf memory).rUserResGuid } := by
    intro n hn hcopy
    simp only [paramOf, owerInfoAt, dwordAt, octetsAt, Nat.zero_add,
      FileResourceParam.mk.injEq, FilePathParam.mk.injEq, Subtype.ext_iff]
    rw [read_applyAll_guidStores_of_le hn (by decide),
      read_applyAll_guidStores_of_le hn (by decide),
      read_applyAll_guidStores hn hcopy,
      read_applyAll_guidStores_of_ge hn hcopy]
    refine ⟨⟨rfl, rfl⟩, rfl, ?_⟩
    split <;> rfl
  simp only [setSuserResGuidStores, sUserResGuidField,
    FileResourceParam.setSuserResGuid]
  by_cases hlong : (cString str).length > 40
  · rw [if_pos hlong, if_pos hlong, hstores 39 (by omega) (by omega),
      if_neg (by decide)]
  · rw [if_neg hlong, if_neg hlong,
      hstores _ (Nat.le_refl _) (by omega), List.take_length]

/-- So do those of `SetRuserResGuid`, as far as the structure goes. -/
theorem paramOf_setRuserResGuidStores (str : Str) :
    paramOf (Store.applyAll memory (setRuserResGuidStores str)) =
      { paramOf memory with
        rUserResGuid := Octets.ofStr 40 (cString str) } := by
  have hstores : ∀ n, n ≤ (cString str).length → n ≤ 40 →
      paramOf (Store.applyAll memory (guidStores 48 n (cString str))) =
        { paramOf memory with
          rUserResGuid := Octets.ofStr 40 ((cString str).take n) } := by
    intro n hn hcopy
    simp only [paramOf, owerInfoAt, dwordAt, octetsAt, Nat.zero_add,
      FileResourceParam.mk.injEq, FilePathParam.mk.injEq, Subtype.ext_iff]
    rw [read_applyAll_guidStores_of_le hn (by decide),
      read_applyAll_guidStores_of_le hn (by decide),
      read_applyAll_guidStores_of_le hn (by decide),
      read_applyAll_guidStores hn hcopy]
    exact ⟨⟨rfl, rfl⟩, rfl, rfl⟩
  simp only [setRuserResGuidStores, rUserResGuidField]
  by_cases hlong : (cString str).length > 40
  · rw [if_pos hlong, hstores 40 (by omega) (Nat.le_refl _)]
    simp [Octets.ofStr, List.take_take]
  · rw [if_neg hlong, hstores _ (Nat.le_refl _) (by omega), List.take_length]

end Stores

/-! ## The guids of a packet -/

/-- The parameter that a peer deserialises from a packet sent with `p`, into
whatever packet it has. -/
inductive CarriedAs (p : FileResourceParam) : FileResourceParam → Prop where
  | fileDataBase (messageId : UInt32) (after : ℕ → UInt8)
      (initial : FileDataBase) :
      CarriedAs p (FileDataBase.deserialize
        (.ofList (FileDataBase.serialize 3000 ⟨messageId, p⟩) after)
        initial).msg.owerInfo
  | fileDataPack (messageId : UInt32) (data : DataChannelTransfer)
      (after : ℕ → UInt8) (initial : FileDataPack) :
      CarriedAs p (FileDataPack.deserialize
        (.ofList (FileDataPack.serialize 3000 ⟨⟨messageId, p⟩, data⟩) after)
        initial).msg.owerInfo

theorem CarriedAs.eq {p p' : FileResourceParam} (h : CarriedAs p p') :
    p' = p := by
  cases h with
  | fileDataBase => rw [FileDataBase.deserialize_serialize]
  | fileDataPack => rw [FileDataPack.deserialize_serialize]

/-- The guids a peer reads are `s` and `r`, and lead to the tasks and to the
repositories that are registered under them. -/
structure ReadAs (s r beyond : Str) (p : FileResourceParam) : Prop where
  sGuid : p.sUserString beyond = s
  rGuid : p.rUserString beyond = r
  task : ∀ table : TaskTable,
    table.threadMap.find (p.sUserString beyond) = table.threadMap.find s
  sender : ∀ registry : Registry,
    registry.dataMap.find (p.sUserString beyond) = registry.dataMap.find s
  receiver : ∀ registry : Registry,
    registry.dataMap.find (p.rUserString beyond) = registry.dataMap.find r

def eitherOrder (s r : Str) : List (List Store) :=
  [setSuserResGuidStores s ++ setRuserResGuidStores r,
    setRuserResGuidStores r ++ setSuserResGuidStores s]

/-- Both setters write to their own fields only, and after both calls, in
whatever memory, the fields are terminated and a peer reads the guids. -/
structure GuidsSurvive (s r : Str) : Prop where
  sOwnField : ∀ w ∈ setSuserResGuidStores s,
    w.access.Within sUserResGuidField
  rOwnField : ∀ w ∈ setRuserResGuidStores r,
    w.access.Within rUserResGuidField
  terminated : ∀ stores ∈ eitherOrder s r, ∀ memory,
    0 ∈ (paramOf (Store.applyAll memory stores)).sUserResGuid.1 ∧
      0 ∈ (paramOf (Store.applyAll memory stores)).rUserResGuid.1
  readBack : ∀ stores ∈ eitherOrder s r, ∀ memory p' beyond,
    CarriedAs (paramOf (Store.applyAll memory stores)) p' →
      ReadAs s r beyond p'

theorem within_guidStores_iff {field n : ℕ} {str : Str} (hn : n ≤ str.length) :
    (∀ w ∈ guidStores field n str, w.access.Within ⟨field, 40⟩) ↔
      n < 40 := by
  simp only [guidStores, List.forall_mem_cons, Store.access, Access.Within,
    List.length_replicate, List.length_take, List.length_singleton,
    List.not_mem_nil, false_implies, implies_true, and_true]
  omega

theorem zero_mem_ofStr {str : Str} {n : ℕ} (h : str.length < n) :
    0 ∈ (Octets.ofStr n str).1 := by
  have hzeros : n - (str.take n).length ≠ 0 := by
    rw [List.length_take]
    omega
  exact List.mem_append_right _ (List.mem_replicate.mpr ⟨hzeros, rfl⟩)

theorem paramOf_eitherOrder {s r : Str} {stores : List Store}
    (hs : (cString s).length < 40) (hstores : stores ∈ eitherOrder s r)
    (memory : ℕ → UInt8) :
    paramOf (Store.applyAll memory stores) =
      ⟨(paramOf memory).filepath, Octets.ofStr 40 (cString s),
        Octets.ofStr 40 (cString r)⟩ := by
  simp only [eitherOrder, List.mem_cons, List.not_mem_nil, or_false]
    at hstores
  rcases hstores with rfl | rfl
  · rw [Store.applyAll_append, paramOf_setRuserResGuidStores,
      paramOf_setSuserResGuidStores,
      FileResourceParam.setSuserResGuid_of_short hs]
  · rw [Store.applyAll_append, paramOf_setSuserResGuidStores,
      FileResourceParam.setSuserResGuid_of_short hs,
      paramOf_setRuserResGuidStores]

theorem GuidsSurvive.length_le {s r : Str} (h : GuidsSurvive s r)
    (hs : cString s = s) : s.length ≤ 40 := by
  by_contra hlong
  have hread := (h.readBack _ (List.mem_cons_of_mem _ List.mem_cons_self)
    (fun _ => 0) _ [] (.fileDataBase 0 (fun _ => 0)
      ⟨0, paramOf fun _ => 0⟩)).sGuid
  rw [FileDataBase.deserialize_serialize, Store.applyAll_append,
    paramOf_setSuserResGuidStores, FileResourceParam.setSuserResGuid, hs,
    if_pos (by omega), FileResourceParam.sUserString] at hread
  have hcut : cString (s.take 39) = s.take 39 := by
    rw [cString, List.takeWhile_eq_self_iff]
    intro c hc
    rw [← hs] at hc
    exact List.mem_takeWhile_imp (p := fun c => decide (c ≠ 0))
      (List.mem_of_mem_take hc)
  rw [cString_ofStr hcut (by simp)] at hread
  have hlength := congrArg List.length hread
  rw [List.length_take] at hlength
  omega

/-- Guids survive exactly when each leaves room for its terminator. -/
theorem guidsSurvive_iff (s r : AcceptedGuid) :
    GuidsSurvive s.1 r.1 ↔ s.1.length < 40 ∧ r.1.length < 40 := by
  obtain ⟨s, hs, -⟩ := s
  obtain ⟨r, hr, -⟩ := r
  change GuidsSurvive s r ↔ s.length < 40 ∧ r.length < 40
  constructor
  · intro h
    have hle := h.length_le hs
    have hsOwn := h.sOwnField
    have hrOwn := h.rOwnField
    simp only [setSuserResGuidStores, setRuserResGuidStores, hs, hr]
      at hsOwn hrOwn
    rw [if_neg (by omega)] at hsOwn
    have hsLength := (within_guidStores_iff (Nat.le_refl _)).mp hsOwn
    have hrLength := (within_guidStores_iff (by split <;> omega)).mp hrOwn
    refine ⟨hsLength, ?_⟩
    split at hrLength
    · omega
    · exact hrLength
  · rintro ⟨hsLength, hrLength⟩
    have hparam : ∀ stores ∈ eitherOrder s r, ∀ memory,
        paramOf (Store.applyAll memory stores) =
          ⟨(paramOf memory).filepath, Octets.ofStr 40 s,
            Octets.ofStr 40 r⟩ := by
      intro stores hstores memory
      have h := paramOf_eitherOrder (by rwa [hs]) hstores memory
      rwa [hs, hr] at h
    refine ⟨?_, ?_, ?_, ?_⟩
    · simp only [setSuserResGuidStores, hs]
      rw [if_neg (by omega)]
      exact (within_guidStores_iff (Nat.le_refl _)).mpr hsLength
    · simp only [setRuserResGuidStores, hr]
      rw [if_neg (by omega)]
      exact (within_guidStores_iff (Nat.le_refl _)).mpr hrLength
    · intro stores hstores memory
      rw [hparam stores hstores memory]
      exact ⟨zero_mem_ofStr hsLength, zero_mem_ofStr hrLength⟩
    · intro stores hstores memory p' beyond hcarried
      have hsGuid : p'.sUserString beyond = s := by
        rw [hcarried.eq, hparam stores hstores memory]
        exact cString_ofStr hs hsLength _
      have hrGuid : p'.rUserString beyond = r := by
        rw [hcarried.eq, hparam stores hstores memory]
        exact cString_ofStr hr hrLength _
      exact ⟨hsGuid, hrGuid, fun _ => by rw [hsGuid],
        fun _ => by rw [hsGuid], fun _ => by rw [hrGuid]⟩

/-- Of a guid of exactly 40 characters `SetSuserResGuid` writes the terminator
to the first byte of `rUserResGuid`. -/
theorem not_guidsSurvive_fortyCharacters :
    ¬∀ s r : AcceptedGuid, GuidsSurvive s.1 r.1 := by
  intro h
  have hown := (h ⟨List.replicate 40 97, by decide, by decide⟩
    ⟨[98], by decide, by decide⟩).sOwnField ⟨48, [0]⟩ (by decide)
  exact absurd hown (by decide)

end WebrtcWinXp.FileTransfer
