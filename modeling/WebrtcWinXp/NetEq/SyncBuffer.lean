import WebrtcWinXp.NetEq.AudioVector
import WebrtcWinXp.Support.Transition

/-!
# The buffer between decoding and playing

All channels of the buffer have one size that never changes.  Samples are pushed
in at the end and leave at the start; what has not been played lies behind an
index that moves along.
-/

namespace WebrtcWinXp.NetEq

open Support AudioVector

/-- The samples of the channels of an `AudioMultiVector` that is only read. -/
abbrev MultiSamples := List (List Int16)

def MultiSamples.size (m : MultiSamples) : ℕ := (m.head?.map List.length).getD 0

/-- The channels of an `AudioMultiVector`. -/
abbrev Channels := List AudioVector

namespace Channels

variable (cs : Channels)

def size : ℕ := (cs.head?.map AudioVector.size).getD 0

def contents : MultiSamples := cs.map AudioVector.samples

def popFront (length : ℕ) : Except Fault Channels :=
  cs.mapM fun c => c.popFront length

def popBack (length : ℕ) : Channels := cs.map fun c => c.popBack length

def readInterleavedFromIndex (startIndex length : ℕ) :
    Except Fault (List Int16) :=
  let startIndex := min startIndex cs.size
  let length :=
    if length + startIndex > cs.size then cs.size - startIndex else length
  if ∀ c ∈ cs, startIndex + length ≤ c.capacity then
    match cs with
    | [c] => .ok (slice c.array startIndex length)
    | _ =>
      .ok ((List.range length).flatMap fun i =>
        cs.map fun c => c.array (i + startIndex))
  else .error .outside

/- What new arrays hold. -/
variable (fresh : ℕ → Int16)

def pushBack (appendThis : MultiSamples) : Except Fault Channels :=
  if cs.length = appendThis.length then
    (cs.zip appendThis).mapM fun p => p.1.pushBack fresh p.2
  else .ok cs

def insertZerosAt (length position : ℕ) : Except Fault Channels :=
  cs.mapM fun c => c.insertZerosAt fresh length position

def overwriteAt (insertThis : MultiSamples) (length position : ℕ) :
    Except Fault Channels :=
  let length := min length insertThis.size
  if cs.length = insertThis.length then
    (cs.zip insertThis).mapM fun p =>
      p.1.overwriteAt fresh (p.2.take length) position
  else .ok cs

def zeros (length : ℕ) : Except Fault Channels :=
  cs.mapM fun c => c.clear.extend fresh length

end Channels

/-! ## The buffer -/

structure SyncBuffer where
  channels : Channels
  nextIndex : ℕ
  endTimestamp : UInt32
  dtmfIndex : ℕ

namespace SyncBuffer

def zeroVector (initialSize : ℕ) : AudioVector where
  array _ := 0
  firstFreeIx := initialSize
  capacity := initialSize

def new (channels length : ℕ) : SyncBuffer where
  channels := List.replicate (max channels 1) (zeroVector length)
  nextIndex := length
  endTimestamp := 0
  dtmfIndex := 0

section

variable (s : SyncBuffer)

def size : ℕ := s.channels.size

def futureLength : ℕ := sizeSub s.size s.nextIndex

def setNextIndex (value : ℕ) : SyncBuffer :=
  { s with nextIndex := min value s.size }

def setDtmfIndex (value : ℕ) : SyncBuffer :=
  { s with dtmfIndex := min value s.size }

def getNextAudioInterleaved (requestedLen : ℕ) :
    Except Fault (SyncBuffer × List Int16) := do
  let samplesToRead := min s.futureLength requestedLen
  let output ←
    s.channels.readInterleavedFromIndex s.nextIndex samplesToRead
  .ok ({ s with nextIndex := s.nextIndex + samplesToRead }, output)

variable (fresh : ℕ → Int16)

def pushBack (appendThis : MultiSamples) : Except Fault SyncBuffer := do
  let samplesAdded := appendThis.size
  let channels ← s.channels.pushBack fresh appendThis
  let channels ← channels.popFront samplesAdded
  .ok
    { s with
      channels
      nextIndex :=
        if samplesAdded ≤ s.nextIndex then s.nextIndex - samplesAdded else 0
      dtmfIndex := s.dtmfIndex - min s.dtmfIndex samplesAdded }

/-- The indices behind a position are moved by a length. -/
def moveIndices (length position : ℕ) : SyncBuffer :=
  let s :=
    if s.nextIndex ≥ position then
      s.setNextIndex (sizeAdd s.nextIndex length)
    else s
  if s.dtmfIndex > 0 ∧ s.dtmfIndex ≥ position then
    s.setDtmfIndex (sizeAdd s.dtmfIndex length)
  else s

def insertZerosAtIndex (length position : ℕ) : Except Fault SyncBuffer := do
  let position := min position s.size
  let length := min length (s.size - position)
  let channels ←
    (s.channels.popBack length).insertZerosAt fresh length position
  .ok (moveIndices { s with channels } length position)

def pushFrontZeros (length : ℕ) : Except Fault SyncBuffer :=
  s.insertZerosAtIndex fresh length 0

def replaceAtIndex (insertThis : MultiSamples) (length position : ℕ) :
    Except Fault SyncBuffer := do
  let position := min position s.size
  let length := min length (s.size - position)
  let channels ← s.channels.overwriteAt fresh insertThis length position
  .ok { s with channels }

def flush : Except Fault SyncBuffer := do
  let channels ← s.channels.zeros fresh s.size
  .ok
    { s with
      channels
      nextIndex := Channels.size channels
      endTimestamp := 0
      dtmfIndex := 0 }

end

inductive Event where
  | pushBack (appendThis : MultiSamples)
  | pushFrontZeros (length : ℕ)
  | insertZerosAtIndex (length position : ℕ)
  | replaceAtIndex (insertThis : MultiSamples) (length position : ℕ)
  | replaceAllAtIndex (insertThis : MultiSamples) (position : ℕ)
  | getNextAudioInterleaved (requestedLen : ℕ)
  | increaseEndTimestamp (increment : UInt32)
  | flush
  | setNextIndex (value : ℕ)
  | setEndTimestamp (value : UInt32)
  | setDtmfIndex (value : ℕ)

variable (fresh : ℕ → Int16)

def call (s : SyncBuffer) : Event → Except Fault (SyncBuffer × List Int16)
  | .pushBack appendThis => do
      let s ← s.pushBack fresh appendThis
      .ok (s, [])
  | .pushFrontZeros length => do
      let s ← s.pushFrontZeros fresh length
      .ok (s, [])
  | .insertZerosAtIndex length position => do
      let s ← s.insertZerosAtIndex fresh length position
      .ok (s, [])
  | .replaceAtIndex insertThis length position => do
      let s ← s.replaceAtIndex fresh insertThis length position
      .ok (s, [])
  | .replaceAllAtIndex insertThis position => do
      let s ← s.replaceAtIndex fresh insertThis insertThis.size position
      .ok (s, [])
  | .getNextAudioInterleaved requestedLen =>
    s.getNextAudioInterleaved requestedLen
  | .increaseEndTimestamp increment =>
    .ok ({ s with endTimestamp := s.endTimestamp + increment }, [])
  | .flush => do
      let s ← s.flush fresh
      .ok (s, [])
  | .setNextIndex value => .ok (s.setNextIndex value, [])
  | .setEndTimestamp value => .ok ({ s with endTimestamp := value }, [])
  | .setDtmfIndex value => .ok (s.setDtmfIndex value, [])

end SyncBuffer

/-! ## What the channels hold -/

/-- A computation that stays inside its arrays gives the result, unless an
array cannot be allocated. -/
def Yields {α : Type} (r : Except Fault α) (P : α → Prop) : Prop :=
  (∃ a, r = .ok a ∧ P a) ∨ r = .error .badAlloc

section

variable {α β : Type} {r : Except Fault α} {P : α → Prop} {Q : β → Prop}

theorem Yields.of_ok {a : α} (h : P a) : Yields (.ok a) P := .inl ⟨a, rfl, h⟩

theorem Yields.bind {f : α → Except Fault β} (h : Yields r P)
    (hf : ∀ a, P a → Yields (f a) Q) : Yields (r >>= f) Q := by
  rcases h with ⟨a, rfl, ha⟩ | rfl
  · exact hf a ha
  · exact .inr rfl

theorem Yields.ne_outside (h : Yields r P) : r ≠ .error .outside := by
  rcases h with ⟨a, rfl, -⟩ | rfl
  · exact nofun
  · exact nofun

theorem Yields.of_eq_ok {a : α} (h : Yields r P) (ha : r = .ok a) : P a := by
  rcases h with ⟨b, rfl, hb⟩ | rfl
  · cases ha
    exact hb
  · cases ha

end

/-- The channels are valid and have some contents. -/
def Channels.Holds (m : MultiSamples) (cs : Channels) : Prop :=
  (∀ c ∈ cs, AudioVector.Valid c) ∧ cs.contents = m

def AudioVector.Holds (l : List Int16) (v : AudioVector) : Prop :=
  v.Valid ∧ v.samples = l

theorem AudioVector.Refines.yields {v : AudioVector} {fresh : ℕ → Int16}
    {op : AudioVector.Op} (h : v.Refines fresh op) :
    Yields (v.step fresh op) (AudioVector.Holds (op.apply v.samples)) := by
  unfold AudioVector.Refines at h
  split at h
  · rename_i w hw
    exact .inl ⟨w, hw, h⟩
  · rename_i hbad
    exact .inr hbad
  · exact h.elim

namespace Channels

variable {cs : Channels} {m : MultiSamples}

theorem yields_mapM {α : Type} {f : α → Except Fault AudioVector}
    {g : α → List Int16} {l : List α}
    (h : ∀ a ∈ l, Yields (f a) (AudioVector.Holds (g a))) :
    Yields (l.mapM f) (Channels.Holds (l.map g)) := by
  induction l with
  | nil => exact .of_ok ⟨nofun, rfl⟩
  | cons a l ih =>
    rw [List.mapM_cons]
    refine (h a List.mem_cons_self).bind fun w hw => ?_
    refine (ih fun b hb => h b (List.mem_cons_of_mem a hb)).bind
      fun ws hws => .of_ok ⟨?_, ?_⟩
    · intro c hc
      rcases List.mem_cons.mp hc with rfl | hc
      · exact hw.1
      · exact hws.1 c hc
    · rw [contents, List.map_cons, List.map_cons, hw.2]
      exact congrArg (g a :: ·) hws.2

theorem Holds.size (h : Holds m cs) : cs.size = MultiSamples.size m := by
  rw [Channels.size, MultiSamples.size, ← h.2, contents]
  cases cs with
  | nil => rfl
  | cons c cs => exact (length_samples c).symm

theorem Holds.length (h : Holds m cs) : cs.length = m.length := by
  rw [← h.2, contents, List.length_map]

theorem map_zip_contents (h : Holds m cs) (xs : MultiSamples)
    (g : List Int16 → List Int16 → List Int16) :
    ((cs.zip xs).map fun p => g p.1.samples p.2) = List.zipWith g m xs := by
  rw [← h.2, contents, List.zipWith_map_left, List.zip, List.map_zipWith]

theorem Holds.popFront (h : Holds m cs) (n : ℕ) :
    Yields (cs.popFront n) (Holds (m.map fun l => l.drop n)) := by
  have hall := yields_mapM (l := cs) (f := fun c => c.popFront n)
    (g := fun c => c.samples.drop n) fun c hc =>
      .inl (exists_popFront (h.1 c hc))
  rw [← h.2, contents, List.map_map]
  exact hall

theorem Holds.popBack (h : Holds m cs) (n : ℕ) :
    Holds (m.map fun l => l.take (l.length - n)) (cs.popBack n) := by
  constructor
  · intro c hc
    obtain ⟨v, hv, rfl⟩ := List.mem_map.mp hc
    exact ⟨(Nat.sub_le _ _).trans (h.1 v hv).size_le, (h.1 v hv).capacity_lt⟩
  · rw [← h.2, contents, contents, Channels.popBack, List.map_map, List.map_map]
    refine List.map_congr_left fun c hc => ?_
    rw [Function.comp_apply, popBack_samples, Function.comp_apply,
      length_samples]

variable (fresh : ℕ → Int16)

theorem Holds.pushBack (h : Holds m cs) {xs : MultiSamples}
    (hlength : xs.length = m.length) (hxs : ∀ l ∈ xs, l.length < ARRAY_LIMIT) :
    Yields (cs.pushBack fresh xs) (Holds (List.zipWith (· ++ ·) m xs)) := by
  rw [Channels.pushBack, if_pos (h.length.trans hlength.symm),
    ← map_zip_contents h xs]
  refine yields_mapM fun p hp => ?_
  exact (refines_pushBack fresh (h.1 p.1 (List.of_mem_zip hp).1)
    (hxs p.2 (List.of_mem_zip hp).2)).yields

theorem Holds.insertZerosAt (h : Holds m cs) {n position : ℕ}
    (hn : n < 2 ^ 32)
    (hsafe : ∀ l ∈ m, position ≤ l.length ∧ l.length + n < 2 ^ 32) :
    Yields (cs.insertZerosAt fresh n position)
      (Holds (m.map fun l => inserted l (List.replicate n 0) position)) := by
  rw [← h.2, contents, List.map_map]
  refine yields_mapM fun c hc => ?_
  have hmem : c.samples ∈ m := by
    rw [← h.2]
    exact List.mem_map_of_mem hc
  obtain ⟨hposition, hlt⟩ := hsafe _ hmem
  rw [length_samples] at hposition hlt
  exact ((refines_insertZerosAt_iff fresh position (h.1 c hc) hn).mpr
    ⟨hlt, .inl hposition⟩).yields

theorem Holds.zeros (h : Holds m cs) {n : ℕ} (hn : n < 2 ^ 32) :
    Yields (cs.zeros fresh n)
      (Holds (m.map fun _ => List.replicate n 0)) := by
  rw [← h.2, contents, List.map_map]
  refine yields_mapM fun c hc => ?_
  have hclear : (c.clear).Valid := ⟨Nat.zero_le _, (h.1 c hc).capacity_lt⟩
  exact ((refines_extend_iff fresh hclear hn).mpr
    (show 0 + n < 2 ^ 32 by rwa [Nat.zero_add])).yields

theorem Holds.overwriteAt (h : Holds m cs) {xs : MultiSamples}
    (hxs : ∀ l ∈ xs, l.length < ARRAY_LIMIT) (n position : ℕ) :
    Yields (cs.overwriteAt fresh xs n position) (Holds
      (if m.length = xs.length then
        List.zipWith
          (fun l x => (Op.overwriteAt (x.take (min n xs.size)) position).apply l)
          m xs
      else m)) := by
  rw [Channels.overwriteAt, h.length]
  split_ifs with hlength
  · rw [← map_zip_contents h xs]
    refine yields_mapM fun p hp => ?_
    have hshort : (p.2.take (min n xs.size)).length < ARRAY_LIMIT := by
      rw [List.length_take]
      exact (min_le_right _ _).trans_lt (hxs p.2 (List.of_mem_zip hp).2)
    exact (refines_overwriteAt fresh position (h.1 p.1 (List.of_mem_zip hp).1)
      hshort).yields
  · exact .of_ok h

/-- One sample of each channel, for some frames. -/
def interleaved (m : MultiSamples) (start n : ℕ) : List Int16 :=
  (List.range n).flatMap fun i => m.map fun l => l.getD (start + i) 0

theorem interleaved_add (m : MultiSamples) (start k n : ℕ) :
    interleaved m start (k + n) =
      interleaved m start k ++ interleaved m (start + k) n := by
  simp only [interleaved, List.range_add, List.flatMap_append,
    List.flatMap_map, Nat.add_assoc]

theorem interleaved_congr {m m' : MultiSamples} {start start' n : ℕ}
    (h : ∀ i < n, (m.map fun l => l.getD (start + i) 0) =
      m'.map fun l => l.getD (start' + i) 0) :
    interleaved m start n = interleaved m' start' n :=
  List.flatMap_congr fun i hi => h i (List.mem_range.mp hi)

theorem samples_getD {v : AudioVector} {i : ℕ} (hi : i < v.size) :
    v.samples.getD i 0 = v.array i := by
  rw [List.getD_eq_getElem?_getD,
    List.getElem?_eq_getElem (by rwa [length_samples])]
  simp [samples, slice]

theorem Holds.readInterleavedFromIndex (h : Holds m cs) {size start n : ℕ}
    (hcs : cs ≠ []) (hsize : ∀ l ∈ m, l.length = size)
    (hinside : start + n ≤ size) :
    cs.readInterleavedFromIndex start n = .ok (interleaved m start n) := by
  have hall : ∀ c ∈ cs, c.size = size := by
    intro c hc
    rw [← length_samples]
    refine hsize _ ?_
    rw [← h.2]
    exact List.mem_map_of_mem hc
  have hfirst : cs.size = size := by
    cases cs with
    | nil => exact absurd rfl hcs
    | cons c cs => exact hall c List.mem_cons_self
  have hcapacity : ∀ c ∈ cs, start + n ≤ c.capacity := by
    intro c hc
    have hle := (h.1 c hc).size_le
    have heq := hall c hc
    omega
  have hframes : (List.range n).flatMap
      (fun i => cs.map fun c => c.array (i + start)) =
        interleaved m start n := by
    refine List.flatMap_congr fun i hi => ?_
    have hi := List.mem_range.mp hi
    rw [← h.2, contents, List.map_map]
    refine List.map_congr_left fun c hc => ?_
    have heq := hall c hc
    rw [Function.comp_apply, samples_getD (by omega), Nat.add_comm]
  have hstart : min start cs.size = start := by omega
  have hlength : (if n + start > cs.size then cs.size - start else n) = n :=
    if_neg (by omega)
  unfold Channels.readInterleavedFromIndex
  dsimp only
  rw [hstart, hlength, if_pos hcapacity]
  split
  · rename_i c
    rw [← hframes, slice]
    congr 1
    rw [List.map_eq_flatMap]
    refine List.flatMap_congr fun i _ => ?_
    rw [Nat.add_comm]
    rfl
  · rw [hframes]

end Channels

/-! ## Sizes and indices -/

/-- As many channels as given, all of one size that fits in an array. -/
def Rectangular (count : ℕ) (m : MultiSamples) : Prop :=
  m.length = count ∧ ∃ n < ARRAY_LIMIT, ∀ l ∈ m, l.length = n

theorem Rectangular.length_eq {count : ℕ} {xs : MultiSamples}
    (hxs : Rectangular count xs) :
    ∀ l ∈ xs, l.length = xs.size := by
  obtain ⟨-, k, -, hk⟩ := hxs
  intro l hl
  cases xs with
  | nil => cases hl
  | cons x xs => exact (hk l hl).trans (hk x List.mem_cons_self).symm

theorem Rectangular.length_lt {count : ℕ} {xs : MultiSamples}
    (hxs : Rectangular count xs) :
    ∀ l ∈ xs, l.length < ARRAY_LIMIT := by
  obtain ⟨-, k, hlt, hk⟩ := hxs
  exact fun l hl => (hk l hl).trans_lt hlt

namespace SyncBuffer

/-- All channels keep their size, and no index exceeds it. -/
structure Sized (count n : ℕ) (s : SyncBuffer) : Prop where
  valid : ∀ c ∈ s.channels, AudioVector.Valid c
  count_eq : s.channels.length = count
  size_eq : ∀ l ∈ s.channels.contents, l.length = n
  nextIndex_le : s.nextIndex ≤ n
  dtmfIndex_le : s.dtmfIndex ≤ n

/-- Pushed samples have as many channels as the buffer, and the channels of
other samples have one size. -/
def Event.Fits (count : ℕ) : Event → Prop
  | .pushBack appendThis => Rectangular count appendThis
  | .replaceAtIndex insertThis _ _ => ∃ k, Rectangular k insertThis
  | .replaceAllAtIndex insertThis _ => ∃ k, Rectangular k insertThis
  | _ => True

variable {s : SyncBuffer} {count n : ℕ}

theorem sized_new (count : ℕ) (hsize : n < ARRAY_LIMIT) :
    Sized (max count 1) n (new count n) where
  valid c hc := by
    rw [List.eq_of_mem_replicate hc]
    exact ⟨le_rfl, hsize⟩
  count_eq := List.length_replicate
  size_eq l hl := by
    obtain ⟨c, hc, rfl⟩ := List.mem_map.mp hl
    rw [List.eq_of_mem_replicate hc, length_samples]
    rfl
  nextIndex_le := le_rfl
  dtmfIndex_le := Nat.zero_le _

theorem Sized.holds (h : Sized count n s) :
    Channels.Holds s.channels.contents s.channels := ⟨h.valid, rfl⟩

theorem Sized.ne_nil (h : Sized count n s) (hcount : 0 < count) :
    s.channels ≠ [] := by
  rw [← List.length_pos_iff, h.count_eq]
  exact hcount

theorem Sized.size (h : Sized count n s) (hcount : 0 < count) :
    s.size = n := by
  rw [SyncBuffer.size, h.holds.size, MultiSamples.size]
  cases hcontents : s.channels.contents with
  | nil =>
    have hnil : s.channels = [] := List.map_eq_nil_iff.mp hcontents
    exact absurd hnil (h.ne_nil hcount)
  | cons l m => exact h.size_eq l (hcontents ▸ List.mem_cons_self)

theorem Sized.size_lt (h : Sized count n s) (hcount : 0 < count) :
    n < ARRAY_LIMIT := by
  obtain ⟨c, hc⟩ := List.exists_mem_of_ne_nil _ (h.ne_nil hcount)
  have hsize := h.size_eq _ (List.mem_map_of_mem hc)
  rw [length_samples] at hsize
  exact hsize ▸ (h.valid c hc).size_le.trans_lt (h.valid c hc).capacity_lt

theorem Sized.of_holds {t : SyncBuffer} {m : MultiSamples}
    (hm : Channels.Holds m t.channels) (hlength : m.length = count)
    (hsize : ∀ l ∈ m, l.length = n) (hnext : t.nextIndex ≤ n)
    (hdtmf : t.dtmfIndex ≤ n) : Sized count n t where
  valid := hm.1
  count_eq := hm.length.trans hlength
  size_eq := by rwa [hm.2]
  nextIndex_le := hnext
  dtmfIndex_le := hdtmf

theorem Sized.setNextIndex (h : Sized count n s) (hcount : 0 < count)
    (value : ℕ) : Sized count n (s.setNextIndex value) where
  valid := h.valid
  count_eq := h.count_eq
  size_eq := h.size_eq
  nextIndex_le := (min_le_right _ _).trans_eq (h.size hcount)
  dtmfIndex_le := h.dtmfIndex_le

theorem Sized.setDtmfIndex (h : Sized count n s) (hcount : 0 < count)
    (value : ℕ) : Sized count n (s.setDtmfIndex value) where
  valid := h.valid
  count_eq := h.count_eq
  size_eq := h.size_eq
  nextIndex_le := h.nextIndex_le
  dtmfIndex_le := (min_le_right _ _).trans_eq (h.size hcount)

theorem Sized.moveIndices (h : Sized count n s) (hcount : 0 < count)
    (length position : ℕ) :
    Sized count n (s.moveIndices length position) := by
  rw [SyncBuffer.moveIndices]
  split_ifs
  · exact (h.setNextIndex hcount _).setDtmfIndex hcount _
  · exact h.setNextIndex hcount _
  · exact h.setDtmfIndex hcount _
  · exact h

def pushed (m xs : MultiSamples) : MultiSamples :=
  (List.zipWith (· ++ ·) m xs).map fun l => l.drop xs.size

variable {m xs : MultiSamples}

theorem exists_of_mem_zipWith {g : List Int16 → List Int16 → List Int16}
    {c : List Int16} (h : c ∈ List.zipWith g m xs) :
    ∃ a b, (a, b) ∈ m.zip xs ∧ g a b = c := by
  rw [← List.map_uncurry_zip_eq_zipWith] at h
  obtain ⟨⟨a, b⟩, hab, rfl⟩ := List.mem_map.mp h
  exact ⟨a, b, hab, rfl⟩

theorem length_pushed (h : xs.length = m.length) :
    (pushed m xs).length = m.length := by
  rw [pushed, List.length_map, List.length_zipWith, h, min_self]

theorem length_of_mem_pushed (hm : ∀ l ∈ m, l.length = n)
    (hxs : Rectangular count xs) : ∀ l ∈ pushed m xs, l.length = n := by
  intro l hl
  obtain ⟨joined, hjoined, rfl⟩ := List.mem_map.mp hl
  obtain ⟨a, b, hab, rfl⟩ := exists_of_mem_zipWith hjoined
  obtain ⟨ha, hb⟩ := List.of_mem_zip hab
  rw [List.length_drop, List.length_append, hm a ha, hxs.length_eq b hb,
    Nat.add_sub_cancel]

theorem interleaved_pushed (hm : ∀ l ∈ m, l.length = n)
    (hlength : xs.length = m.length) {next : ℕ} (hnext : next ≤ n) (hpush : xs.size ≤ next) :
    Channels.interleaved (pushed m xs) (next - xs.size)
        (n - (next - xs.size)) =
      Channels.interleaved m next (n - next) ++
        Channels.interleaved xs 0 xs.size := by
  have hsplit : n - (next - xs.size) = n - next + xs.size := by omega
  rw [hsplit, Channels.interleaved_add]
  congr 1
  · refine Channels.interleaved_congr fun i hi => ?_
    apply List.ext_getElem
    · rw [List.length_map, List.length_map, length_pushed hlength]
    · intro j hj hj'
      rw [List.length_map] at hj'
      have hxj : j < xs.length := hlength ▸ hj'
      simp only [pushed, List.getElem_map, List.getElem_zipWith,
        List.getD_eq_getElem?_getD, List.getElem?_drop]
      rw [List.getElem?_append_left]
      · congr 2
        omega
      · rw [hm _ (List.getElem_mem hj')]
        omega
  · refine Channels.interleaved_congr fun i hi => ?_
    apply List.ext_getElem
    · rw [List.length_map, List.length_map, length_pushed hlength, hlength]
    · intro j hj hj'
      rw [List.length_map] at hj'
      have hmj : j < m.length := hlength ▸ hj'
      simp only [pushed, List.getElem_map, List.getElem_zipWith,
        List.getD_eq_getElem?_getD, List.getElem?_drop]
      rw [List.getElem?_append_right, hm _ (List.getElem_mem hmj)]
      · congr 2
        omega
      · rw [hm _ (List.getElem_mem hmj)]
        omega

/-! ### Calls -/

variable (fresh : ℕ → Int16)

theorem Sized.pushBack (h : Sized count n s) (hxs : Rectangular count xs) :
    Yields (s.pushBack fresh xs) fun t => Sized count n t ∧
      t.channels.contents = pushed s.channels.contents xs ∧
      t.nextIndex =
        if xs.size ≤ s.nextIndex then s.nextIndex - xs.size else 0 := by
  have hlength : xs.length = s.channels.contents.length :=
    hxs.1.trans (h.count_eq.symm.trans h.holds.length)
  have hnext := h.nextIndex_le
  have hdtmf := h.dtmfIndex_le
  rw [SyncBuffer.pushBack]
  refine (h.holds.pushBack fresh hlength hxs.length_lt).bind fun cs hcs => ?_
  refine (hcs.popFront xs.size).bind fun cs' hcs' => .of_ok ?_
  refine ⟨.of_holds hcs' ?_ (length_of_mem_pushed h.size_eq hxs) ?_ ?_,
    hcs'.2, rfl⟩
  · exact (length_pushed hlength).trans (h.holds.length.symm.trans h.count_eq)
  · dsimp only
    split_ifs
    · omega
    · omega
  · dsimp only
    omega

theorem Sized.insertZerosAtIndex (h : Sized count n s) (hcount : 0 < count)
    (length position : ℕ) :
    Yields (s.insertZerosAtIndex fresh length position) (Sized count n) := by
  have hlt := h.size_lt hcount
  rw [ARRAY_LIMIT] at hlt
  rw [SyncBuffer.insertZerosAtIndex, h.size hcount]
  generalize hp : min position n = p
  generalize hk : min length (n - p) = k
  have hpopped : ∀ l ∈ s.channels.contents.map
      (fun l => l.take (l.length - k)), l.length = n - k := by
    intro l hl
    obtain ⟨l, hmem, rfl⟩ := List.mem_map.mp hl
    rw [List.length_take, h.size_eq l hmem]
    omega
  have hsafe : ∀ l ∈ s.channels.contents.map
      (fun l => l.take (l.length - k)), p ≤ l.length ∧
        l.length + k < 2 ^ 32 := by
    intro l hl
    rw [hpopped l hl]
    omega
  refine ((h.holds.popBack k).insertZerosAt fresh (by omega) hsafe).bind
    fun cs hcs => .of_ok ?_
  have hsized : Sized count n { s with channels := cs } := by
    refine .of_holds hcs ?_ ?_ h.nextIndex_le h.dtmfIndex_le
    · rw [List.length_map, List.length_map, ← h.holds.length, h.count_eq]
    · intro l hl
      obtain ⟨l, hmem, rfl⟩ := List.mem_map.mp hl
      rw [length_inserted, List.length_replicate, hpopped l hmem]
      omega
  exact hsized.moveIndices hcount k p

theorem Sized.replaceAtIndex (h : Sized count n s) (hcount : 0 < count)
    {k : ℕ} (hxs : Rectangular k xs) (length position : ℕ) :
    Yields (s.replaceAtIndex fresh xs length position) (Sized count n) := by
  rw [SyncBuffer.replaceAtIndex, h.size hcount]
  refine (h.holds.overwriteAt fresh hxs.length_lt _ _).bind
    fun cs hcs => .of_ok ?_
  have hlengths := h.holds.length.symm.trans h.count_eq
  refine .of_holds hcs ?_ ?_ h.nextIndex_le h.dtmfIndex_le
  · split_ifs with hsame
    · rw [List.length_zipWith, ← hsame, min_self]
      exact hlengths
    · exact hlengths
  · split_ifs with hsame
    · intro l hl
      obtain ⟨a, b, hab, rfl⟩ := exists_of_mem_zipWith hl
      have ha := h.size_eq a (List.of_mem_zip hab).1
      rw [Op.apply, List.length_append, List.length_append, List.length_take,
        List.length_take, List.length_drop, ha]
      omega
    · exact h.size_eq

theorem Sized.flush (h : Sized count n s) (hcount : 0 < count) :
    Yields (s.flush fresh) (Sized count n) := by
  have hlt : n < 2 ^ 32 := (h.size_lt hcount).trans (by decide)
  rw [SyncBuffer.flush, h.size hcount]
  refine (h.holds.zeros fresh hlt).bind fun cs hcs => .of_ok ?_
  have hsize : ∀ l ∈ s.channels.contents.map
      (fun _ => List.replicate n (0 : Int16)), l.length = n := by
    intro l hl
    obtain ⟨_, -, rfl⟩ := List.mem_map.mp hl
    exact List.length_replicate
  have hlength := h.holds.length.symm.trans h.count_eq
  have hempty : Sized count n { s with
      channels := cs
      nextIndex := 0
      dtmfIndex := 0 } := by
    refine .of_holds hcs ?_ hsize (Nat.zero_le _) (Nat.zero_le _)
    rw [List.length_map, hlength]
  refine .of_holds hcs ?_ hsize ?_ (Nat.zero_le _)
  · rw [List.length_map, hlength]
  · exact (hempty.size hcount).le

theorem Sized.getNextAudioInterleaved (h : Sized count n s)
    (hcount : 0 < count) (requestedLen : ℕ) :
    s.getNextAudioInterleaved requestedLen =
      .ok ({ s with
          nextIndex := s.nextIndex + min (n - s.nextIndex) requestedLen },
        Channels.interleaved s.channels.contents s.nextIndex
          (min (n - s.nextIndex) requestedLen)) := by
  have hnext := h.nextIndex_le
  have hfuture : s.futureLength = n - s.nextIndex := by
    rw [futureLength, h.size hcount, sizeSub_of_le hnext]
  rw [SyncBuffer.getNextAudioInterleaved, hfuture]
  rw [h.holds.readInterleavedFromIndex (h.ne_nil hcount) h.size_eq
    (by omega), ok_bind]

theorem Sized.call (h : Sized count n s) (hcount : 0 < count) {e : Event}
    (hfits : e.Fits count) :
    Yields (s.call fresh e) fun r => Sized count n r.1 := by
  have hsilent : ∀ {r : Except Fault SyncBuffer} {P : SyncBuffer → Prop},
      (∀ t, P t → Sized count n t) → Yields r P →
        Yields (r >>= fun t => .ok (t, ([] : List Int16)))
          fun r => Sized count n r.1 :=
    fun hle hr => hr.bind fun t ht => .of_ok (hle t ht)
  cases e with
  | pushBack appendThis =>
    exact hsilent (fun t ht => ht.1) (h.pushBack fresh hfits)
  | pushFrontZeros length =>
    exact hsilent (fun _ => id) (h.insertZerosAtIndex fresh hcount length 0)
  | insertZerosAtIndex length position =>
    exact hsilent (fun _ => id)
      (h.insertZerosAtIndex fresh hcount length position)
  | replaceAtIndex insertThis length position =>
    obtain ⟨k, hk⟩ := hfits
    exact hsilent (fun _ => id)
      (h.replaceAtIndex fresh hcount hk length position)
  | replaceAllAtIndex insertThis position =>
    obtain ⟨k, hk⟩ := hfits
    exact hsilent (fun _ => id) (h.replaceAtIndex fresh hcount hk _ position)
  | getNextAudioInterleaved requestedLen =>
    rw [SyncBuffer.call, h.getNextAudioInterleaved hcount requestedLen]
    have hnext := h.nextIndex_le
    refine .of_ok ⟨h.valid, h.count_eq, h.size_eq, ?_, h.dtmfIndex_le⟩
    dsimp only
    omega
  | increaseEndTimestamp increment =>
    exact .of_ok ⟨h.valid, h.count_eq, h.size_eq, h.nextIndex_le,
      h.dtmfIndex_le⟩
  | flush => exact hsilent (fun _ => id) (h.flush fresh hcount)
  | setNextIndex value => exact .of_ok (h.setNextIndex hcount value)
  | setEndTimestamp value =>
    exact .of_ok ⟨h.valid, h.count_eq, h.size_eq, h.nextIndex_le,
      h.dtmfIndex_le⟩
  | setDtmfIndex value => exact .of_ok (h.setDtmfIndex hcount value)

/-! ## Runs -/

def step (s : SyncBuffer) (e : Event) : Option SyncBuffer :=
  (s.call fresh e).toOption.map Prod.fst

def future (s : SyncBuffer) : List Int16 :=
  Channels.interleaved s.channels.contents s.nextIndex (s.size - s.nextIndex)

/-- A buffer with the samples that have been pushed and that have been returned
so far, all channels interleaved. -/
structure Playing where
  buffer : SyncBuffer
  pushed : List Int16
  returned : List Int16

def Event.pushes : Event → List Int16
  | .pushBack appendThis => Channels.interleaved appendThis 0 appendThis.size
  | _ => []

namespace Playing

def step (p : Playing) (e : Event) : Option Playing :=
  (p.buffer.call fresh e).toOption.map fun r =>
    ⟨r.1, p.pushed ++ e.pushes, p.returned ++ r.2⟩

/-- Calls that push, play and set other indices, where no push exceeds the index
of the next sample. -/
def Plays (count : ℕ) (p : Playing) : Event → Prop
  | .pushBack appendThis =>
    Rectangular count appendThis ∧ appendThis.size ≤ p.buffer.nextIndex
  | .getNextAudioInterleaved _ => True
  | .increaseEndTimestamp _ => True
  | .setEndTimestamp _ => True
  | .setDtmfIndex _ => True
  | _ => False

variable {fresh} {p q : Playing} {start : List Int16}

/-- The samples that were returned and those that are left are those that were
there at the start and those that were pushed. -/
structure InOrder (count n : ℕ) (start : List Int16) (p : Playing) : Prop where
  sized : Sized count n p.buffer
  order : p.returned ++ p.buffer.future = start ++ p.pushed

theorem future_eq (h : Sized count n s) (hcount : 0 < count) :
    s.future = Channels.interleaved s.channels.contents s.nextIndex
      (n - s.nextIndex) := by
  rw [future, h.size hcount]

theorem future_getNext (h : Sized count n s) (hcount : 0 < count) (k : ℕ)
    (hk : k ≤ n - s.nextIndex) :
    Channels.interleaved s.channels.contents s.nextIndex k ++
        future
          { s with
            nextIndex := s.nextIndex + k } =
      s.future := by
  have hnext := h.nextIndex_le
  have hmoved : Sized count n { s with
      nextIndex := s.nextIndex + k } :=
    ⟨h.valid, h.count_eq, h.size_eq, by dsimp only; omega, h.dtmfIndex_le⟩
  have hsplit : n - s.nextIndex = k + (n - (s.nextIndex + k)) := by omega
  rw [future_eq hmoved hcount, future_eq h hcount, hsplit,
    Channels.interleaved_add]

theorem InOrder.step (h : InOrder count n start p) (hcount : 0 < count)
    {e : Event} (hplays : p.Plays count e) (hstep : p.step fresh e = some q) :
    InOrder count n start q := by
  obtain ⟨r, hr, rfl⟩ := Option.map_eq_some_iff.mp hstep
  have hcall : p.buffer.call fresh e = .ok r := by
    cases hresult : p.buffer.call fresh e with
    | error fault =>
      rw [hresult] at hr
      cases hr
    | ok r' =>
      rw [hresult] at hr
      cases hr
      rfl
  cases e with
  | pushBack appendThis =>
    obtain ⟨hxs, hpush⟩ := hplays
    have hspec : Yields (p.buffer.call fresh (.pushBack appendThis))
        fun r => (Sized count n r.1 ∧
          r.1.channels.contents =
            SyncBuffer.pushed p.buffer.channels.contents appendThis ∧
          r.1.nextIndex = p.buffer.nextIndex - appendThis.size) ∧
            r.2 = [] := by
      refine (h.sized.pushBack fresh hxs).bind fun t ht => .of_ok ⟨?_, rfl⟩
      rw [if_pos hpush] at ht
      exact ht
    obtain ⟨⟨hsized, hcontents, hnext⟩, hnone⟩ := hspec.of_eq_ok hcall
    refine ⟨hsized, ?_⟩
    have hlength : appendThis.length = p.buffer.channels.contents.length :=
      hxs.1.trans (h.sized.count_eq.symm.trans h.sized.holds.length)
    have hfuture : r.1.future =
        p.buffer.future ++
          Channels.interleaved appendThis 0 appendThis.size := by
      rw [future_eq hsized hcount, future_eq h.sized hcount, hcontents, hnext]
      exact interleaved_pushed h.sized.size_eq hlength
        h.sized.nextIndex_le hpush
    dsimp only
    rw [hnone, List.append_nil, hfuture, ← List.append_assoc, h.order,
      List.append_assoc]
    rfl
  | getNextAudioInterleaved requestedLen =>
    have hspec := h.sized.call fresh hcount
      (e := .getNextAudioInterleaved requestedLen) trivial
    refine ⟨hspec.of_eq_ok hcall, ?_⟩
    rw [SyncBuffer.call, h.sized.getNextAudioInterleaved hcount] at hcall
    cases hcall
    dsimp only
    rw [List.append_assoc, future_getNext h.sized hcount _ (min_le_left _ _)]
    exact h.order.trans (congrArg (start ++ ·) (List.append_nil _).symm)
  | increaseEndTimestamp increment =>
    cases hcall
    refine ⟨(h.sized.call fresh hcount (e := .increaseEndTimestamp increment)
      trivial).of_eq_ok rfl, ?_⟩
    dsimp only [Event.pushes]
    rw [List.append_nil, List.append_nil]
    exact h.order
  | setEndTimestamp value =>
    cases hcall
    refine ⟨(h.sized.call fresh hcount (e := .setEndTimestamp value)
      trivial).of_eq_ok rfl, ?_⟩
    dsimp only [Event.pushes]
    rw [List.append_nil, List.append_nil]
    exact h.order
  | setDtmfIndex value =>
    cases hcall
    refine ⟨h.sized.setDtmfIndex hcount value, ?_⟩
    dsimp only [Event.pushes]
    rw [List.append_nil, List.append_nil]
    exact h.order
  | pushFrontZeros => exact hplays.elim
  | insertZerosAtIndex => exact hplays.elim
  | replaceAtIndex => exact hplays.elim
  | replaceAllAtIndex => exact hplays.elim
  | flush => exact hplays.elim
  | setNextIndex => exact hplays.elim

end Playing

/-- A vector refines a list but for zeros that are inserted behind its last
sample and sizes that wrap around.  In every run of the buffer, no access is
outside the arrays, the size does not change and the indices do not exceed it,
and from any state on pushed samples are returned in order and once. -/
theorem vectors_and_buffer (fresh : ℕ → Int16) :
    (∀ v : AudioVector, v.Valid → ∀ op : AudioVector.Op, op.Representable →
      (v.Refines fresh op ↔ op.Safe v)) ∧
    ∀ count n, n < ARRAY_LIMIT → ∀ s,
      ReachableVia (· = new count n) (step fresh)
        (fun _ e => e.Fits (max count 1)) s →
      ((∀ c ∈ s.channels, c.size = n) ∧ s.nextIndex ≤ n ∧ s.dtmfIndex ≤ n) ∧
      (∀ e : Event, e.Fits (max count 1) →
        s.call fresh e ≠ .error .outside) ∧
      ∀ p, ReachableVia (· = ⟨s, [], []⟩) (Playing.step fresh)
          (Playing.Plays (max count 1)) p →
        p.returned ++ p.buffer.future = s.future ++ p.pushed := by
  refine ⟨fun v hv op hop => refines_iff_safe fresh hv hop,
    fun count n hn s hs => ?_⟩
  have hcount : 0 < max count 1 := lt_max_of_lt_right Nat.one_pos
  have hsized : Sized (max count 1) n s := by
    refine hs.invariant (fun s hs => ?_) fun s e t h hfits hstep => ?_
    · rw [hs]
      exact sized_new count hn
    · obtain ⟨r, hr, rfl⟩ := Option.map_eq_some_iff.mp hstep
      refine (h.call fresh hcount hfits).of_eq_ok ?_
      cases hresult : s.call fresh e with
      | error fault =>
        rw [hresult] at hr
        cases hr
      | ok r' =>
        rw [hresult] at hr
        cases hr
        rfl
  refine ⟨⟨fun c hc => ?_, hsized.nextIndex_le, hsized.dtmfIndex_le⟩,
    fun e he => (hsized.call fresh hcount he).ne_outside, fun p hp => ?_⟩
  · rw [← length_samples]
    exact hsized.size_eq _ (List.mem_map_of_mem hc)
  · have horder : Playing.InOrder (max count 1) n s.future p := by
      refine hp.invariant (fun p hp => ?_) fun p e q h hok hstep =>
        h.step hcount hok hstep
      rw [hp]
      exact ⟨hsized, (List.append_nil _).symm⟩
    exact horder.order

/-- Two samples are pushed into a buffer of three and played. -/
theorem vectors_and_buffer_played :
    ((Op.insertZerosAt 2 1).Safe ⟨fun _ => 7, 3, 3⟩ ∧
      (AudioVector.Refines ⟨fun _ => 7, 3, 3⟩ (fun _ => 0)
        (.insertZerosAt 2 1))) ∧
    ∃ p : Playing, p.pushed = [5, 6] ∧ p.returned = [5, 6] ∧
      p.returned ++ p.buffer.future = (new 1 3).future ++ p.pushed := by
  obtain ⟨hvector, hbuffer⟩ := vectors_and_buffer fun _ => 0
  have hsafe : (Op.insertZerosAt 2 1).Safe ⟨fun _ => 7, 3, 3⟩ :=
    ⟨by decide, .inl (by decide)⟩
  have hrepresentable : (Op.insertZerosAt 2 1).Representable :=
    show (2 : ℕ) < 2 ^ 32 by decide
  refine ⟨⟨hsafe, (hvector _ ⟨by decide, by decide⟩ _ hrepresentable).mpr
    hsafe⟩, ?_⟩
  obtain ⟨p, hp⟩ : ∃ p, execute (Playing.step fun _ => 0) ⟨new 1 3, [], []⟩
      [.pushBack [[5, 6]], .getNextAudioInterleaved 2] = some p := ⟨_, rfl⟩
  have hresult : p.pushed = [5, 6] ∧ p.returned = [5, 6] := by
    cases hp
    exact ⟨rfl, rfl⟩
  have hallowed : Allowed (Playing.step fun _ => 0)
      (Playing.Plays (max 1 1)) ⟨new 1 3, [], []⟩
      [.pushBack [[5, 6]], .getNextAudioInterleaved 2] :=
    ⟨⟨⟨rfl, 2, by decide, by simp⟩, by decide⟩,
      fun t _ => ⟨trivial, fun _ _ => trivial⟩⟩
  have hreached : ReachableVia (· = ⟨new 1 3, [], []⟩)
      (Playing.step fun _ => 0) (Playing.Plays (max 1 1)) p := by
    have hinit : ReachableVia (· = ⟨new 1 3, [], []⟩)
        (Playing.step fun _ => 0) (Playing.Plays (max 1 1))
        ⟨new 1 3, [], []⟩ := .init rfl
    exact hinit.execute_of_allowed hp hallowed
  exact ⟨p, hresult.1, hresult.2,
    (hbuffer 1 3 (by decide) _ (.init rfl)).2.2 p hreached⟩

/-- Zeros are inserted behind the samples of a new vector, where the array has
room, and are written far outside of it. -/
theorem not_forall_refines :
    ¬∀ (fresh : ℕ → Int16) (v : AudioVector), v.Valid →
      ∀ op : AudioVector.Op, op.Representable → v.Refines fresh op := by
  intro h
  have hrefines := h (fun _ => 0) ⟨fun _ => 0, 0, 10⟩ ⟨by decide, by decide⟩
    (.insertZerosAt 1 5) (show (1 : ℕ) < 2 ^ 32 by decide)
  have hstep : AudioVector.step ⟨fun _ => 0, 0, 10⟩ (fun _ => 0)
      (.insertZerosAt 1 5) = .error .outside := rfl
  rw [AudioVector.Refines, hstep] at hrefines
  exact hrefines

end SyncBuffer

end WebrtcWinXp.NetEq
