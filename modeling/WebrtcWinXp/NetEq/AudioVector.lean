import Mathlib.Algebra.Order.Ring.Int
import Mathlib.Data.Int.Cast.Lemmas
import WebrtcWinXp.Support.Ring

/-!
# Vectors of audio samples

A vector keeps its samples at the start of an array with room behind them.
Sizes are unsigned, and an array has less than 2^31 bytes.  What a new array
holds is given, and an access outside an array is a fault.
-/

namespace WebrtcWinXp.NetEq

open Support

/-! ## Sizes -/

/-- The sum and the difference of two values of type `size_t`. -/
def sizeAdd (a b : ℕ) : ℕ := (a + b) % 2 ^ 32

def sizeSub (a b : ℕ) : ℕ := if b ≤ a then a - b else 2 ^ 32 - (b - a)

/-- The samples in `n * sizeof(int16_t)` bytes. -/
def copiedSamples (n : ℕ) : ℕ := n % 2 ^ 31

/-- The least number of samples that cannot be allocated. -/
def ARRAY_LIMIT : ℕ := 2 ^ 30

theorem sizeAdd_of_lt {a b : ℕ} (h : a + b < 2 ^ 32) :
    sizeAdd a b = a + b := Nat.mod_eq_of_lt h

theorem sizeSub_of_le {a b : ℕ} (hle : b ≤ a) : sizeSub a b = a - b :=
  if_pos hle

theorem sizeSub_of_lt {a b : ℕ} (hlt : a < b) :
    sizeSub a b = 2 ^ 32 - (b - a) := if_neg (not_le.mpr hlt)

theorem copiedSamples_of_lt {n : ℕ} (h : n < ARRAY_LIMIT) :
    copiedSamples n = n :=
  Nat.mod_eq_of_lt (h.trans (by decide))

inductive Fault where
  | badAlloc
  | outside
  deriving DecidableEq

structure AudioVector where
  array : ℕ → Int16
  firstFreeIx : ℕ
  capacity : ℕ

namespace AudioVector

def size (v : AudioVector) : ℕ := v.firstFreeIx

def samples (v : AudioVector) : List Int16 := slice v.array 0 v.size

structure Valid (v : AudioVector) : Prop where
  size_le : v.size ≤ v.capacity
  capacity_lt : v.capacity < ARRAY_LIMIT

section

variable (v : AudioVector)

/-- `memmove` of `n` samples of the array. -/
def memmove (dst src n : ℕ) : Except Fault AudioVector :=
  let n := copiedSamples n
  if dst + n ≤ v.capacity ∧ src + n ≤ v.capacity then
    .ok
      { v with
        array := memcpy v.array dst (cells (slice v.array src n) 0) n }
  else .error .outside

/-- `memcpy` of other samples. -/
def memcpyFrom (dst : ℕ) (src : List Int16) : Except Fault AudioVector :=
  if dst + src.length ≤ v.capacity then
    .ok
      { v with
        array := memcpy v.array dst (cells src 0) src.length }
  else .error .outside

/-- `memset` of `n` samples to zero. -/
def memsetZero (dst n : ℕ) : Except Fault AudioVector :=
  v.memcpyFrom dst (List.replicate (copiedSamples n) 0)

def advance (n : ℕ) : AudioVector :=
  { v with firstFreeIx := sizeAdd v.firstFreeIx n }

/- What a new array holds. -/
variable (fresh : ℕ → Int16)

def reserve (n : ℕ) : Except Fault AudioVector :=
  if v.capacity < n then
    if n < ARRAY_LIMIT then
      .ok
        { v with
          array := memcpy fresh 0 (cells v.samples 0) v.size
          capacity := n }
    else .error .badAlloc
  else .ok v

def clear : AudioVector := { v with firstFreeIx := 0 }

def insertAt (insertThis : List Int16) (position : ℕ) :
    Except Fault AudioVector := do
  let length := insertThis.length
  let v ← v.reserve fresh (sizeAdd v.size length)
  let position := min v.size position
  let samplesToMove := sizeSub v.size position
  let v ← v.memmove (position + length) position samplesToMove
  let v ← v.memcpyFrom position insertThis
  .ok (v.advance length)

def insertZerosAt (length position : ℕ) : Except Fault AudioVector := do
  let v ← v.reserve fresh (sizeAdd v.size length)
  let position := min v.capacity position
  let samplesToMove := sizeSub v.size position
  let v ← v.memmove (position + length) position samplesToMove
  let v ← v.memsetZero position length
  .ok (v.advance length)

def pushFront (prependThis : List Int16) : Except Fault AudioVector := do
  let insertLength := prependThis.length
  let v ← v.reserve fresh (sizeAdd v.size insertLength)
  let v ← v.memmove insertLength 0 v.size
  let v ← v.memcpyFrom 0 prependThis
  .ok (v.advance insertLength)

/-- `PushFront` of an array. -/
def pushFrontArray (prependThis : List Int16) : Except Fault AudioVector :=
  v.insertAt fresh prependThis 0

def pushBack (appendThis : List Int16) : Except Fault AudioVector := do
  let v ← v.reserve fresh (sizeAdd v.size appendThis.length)
  let v ← v.memcpyFrom v.firstFreeIx appendThis
  .ok (v.advance appendThis.length)

def popFront (length : ℕ) : Except Fault AudioVector :=
  if length ≥ v.size then .ok v.clear
  else do
    let remainingSamples := v.size - length
    let v ← v.memmove 0 length remainingSamples
    .ok { v with firstFreeIx := v.firstFreeIx - length }

def popBack (length : ℕ) : AudioVector :=
  let length := min length v.size
  { v with firstFreeIx := v.firstFreeIx - length }

def extend (extraLength : ℕ) : Except Fault AudioVector := do
  let v ← v.reserve fresh (sizeAdd v.size extraLength)
  let v ← v.memsetZero v.firstFreeIx extraLength
  .ok (v.advance extraLength)

def overwriteAt (insertThis : List Int16) (position : ℕ) :
    Except Fault AudioVector := do
  let length := insertThis.length
  let position := min v.size position
  let v ← v.reserve fresh (sizeAdd position length)
  let v ← v.memcpyFrom position insertThis
  if sizeAdd position length > v.size then
    .ok (v.advance (sizeSub (sizeAdd position length) v.size))
  else .ok v

end

/-- Two samples, the first one with the weight `alpha` in Q14. -/
def mix (alpha : ℤ) (a b : Int16) : Int16 :=
  Int16.ofInt
    ((alpha * a.toInt + (16384 - alpha) * b.toInt + 8192) / 16384)

/-- A round of the loop: the next weight, and the sample that is mixed. -/
def fadeRound (appendThis : List Int16) (position : ℕ) (alphaStep : ℤ)
    (s : ℤ × AudioVector) (i : ℕ) : Except Fault (ℤ × AudioVector) :=
  let alpha := s.1 - alphaStep
  if position + i < s.2.capacity then
    .ok (alpha,
      { s.2 with
        array := Function.update s.2.array (position + i)
          (mix alpha (s.2.array (position + i)) (appendThis.getD i 0)) })
  else .error .outside

def crossFade (v : AudioVector) (fresh : ℕ → Int16) (appendThis : List Int16)
    (fadeLength : ℕ) : Except Fault AudioVector := do
  let fadeLength := min fadeLength v.size
  let fadeLength := min fadeLength appendThis.length
  let position := v.size - fadeLength
  let alphaStep : ℤ := 16384 / (fadeLength + 1)
  let (_, v) ← (List.range fadeLength).foldlM
    (fadeRound appendThis position alphaStep) (16384, v)
  let samplesToPushBack := appendThis.length - fadeLength
  if samplesToPushBack > 0 then v.pushBack fresh (appendThis.drop fadeLength)
  else .ok v

/-! ## What the operations do to the samples -/

inductive Op where
  | pushFront (prependThis : List Int16)
  | pushFrontArray (prependThis : List Int16)
  | pushBack (appendThis : List Int16)
  | popFront (length : ℕ)
  | popBack (length : ℕ)
  | extend (extraLength : ℕ)
  | insertAt (insertThis : List Int16) (position : ℕ)
  | insertZerosAt (length position : ℕ)
  | overwriteAt (insertThis : List Int16) (position : ℕ)
  | crossFade (appendThis : List Int16) (fadeLength : ℕ)

def step (v : AudioVector) (fresh : ℕ → Int16) : Op → Except Fault AudioVector
  | .pushFront prependThis => v.pushFront fresh prependThis
  | .pushFrontArray prependThis => v.pushFrontArray fresh prependThis
  | .pushBack appendThis => v.pushBack fresh appendThis
  | .popFront length => v.popFront length
  | .popBack length => .ok (v.popBack length)
  | .extend extraLength => v.extend fresh extraLength
  | .insertAt insertThis position => v.insertAt fresh insertThis position
  | .insertZerosAt length position => v.insertZerosAt fresh length position
  | .overwriteAt insertThis position => v.overwriteAt fresh insertThis position
  | .crossFade appendThis fadeLength => v.crossFade fresh appendThis fadeLength

/-- The samples with others inserted, at the end if the position is behind
it. -/
def inserted (l xs : List Int16) (position : ℕ) : List Int16 :=
  l.take position ++ (xs ++ l.drop position)

/-- The samples that take the place of the last ones in a cross-fade. -/
def faded (l xs : List Int16) (n : ℕ) : List Int16 :=
  (List.range n).map fun i : ℕ =>
    mix (16384 - (i + 1) * (16384 / (n + 1))) (l.getD (l.length - n + i) 0)
      (xs.getD i 0)

def Op.apply : Op → List Int16 → List Int16
  | .pushFront xs, l => xs ++ l
  | .pushFrontArray xs, l => xs ++ l
  | .pushBack xs, l => l ++ xs
  | .popFront n, l => l.drop n
  | .popBack n, l => l.take (l.length - n)
  | .extend n, l => l ++ List.replicate n 0
  | .insertAt xs position, l => inserted l xs position
  | .insertZerosAt n position, l => inserted l (List.replicate n 0) position
  | .overwriteAt xs position, l =>
    l.take (min l.length position) ++
      (xs ++ l.drop (min l.length position + xs.length))
  | .crossFade xs n, l =>
    let n := min n (min l.length xs.length)
    l.take (l.length - n) ++ (faded l xs n ++ xs.drop n)

/-- The operation stays inside its array and does what it should, unless there
is no room for the samples. -/
def Refines (v : AudioVector) (fresh : ℕ → Int16) (op : Op) : Prop :=
  match v.step fresh op with
  | .ok w => w.Valid ∧ w.samples = op.apply v.samples
  | .error .badAlloc => ARRAY_LIMIT ≤ (op.apply v.samples).length
  | .error .outside => False

/-- Arrays that exist and lengths of type `size_t`. -/
def Op.Representable : Op → Prop
  | .pushFront xs => xs.length < ARRAY_LIMIT
  | .pushFrontArray xs => xs.length < ARRAY_LIMIT
  | .pushBack xs => xs.length < ARRAY_LIMIT
  | .extend n => n < 2 ^ 32
  | .insertAt xs _ => xs.length < ARRAY_LIMIT
  | .insertZerosAt n _ => n < 2 ^ 32
  | .overwriteAt xs _ => xs.length < ARRAY_LIMIT
  | .crossFade xs _ => xs.length < ARRAY_LIMIT
  | _ => True

/-- The new size does not wrap around, and zeros are not inserted behind the
last sample but inside the array. -/
def Op.Safe (v : AudioVector) : Op → Prop
  | .extend n => v.size + n < 2 ^ 32
  | .insertZerosAt n position =>
    v.size + n < 2 ^ 32 ∧
      (position ≤ v.size ∨ ARRAY_LIMIT ≤ v.size + n ∨
        n = 0 ∧ v.size = v.capacity)
  | _ => True

section

variable {v w : AudioVector} {fresh : ℕ → Int16} {xs : List Int16} {n : ℕ}

@[simp] theorem length_samples (v : AudioVector) :
    v.samples.length = v.size := length_slice _ _ _

theorem ok_bind {α β : Type} (a : α) (f : α → Except Fault β) :
    (Except.ok a >>= f) = f a := rfl

theorem error_bind {α β : Type} (e : Fault) (f : α → Except Fault β) :
    ((Except.error e : Except Fault α) >>= f) = .error e := rfl

theorem exists_reserve (fresh : ℕ → Int16) (hv : v.Valid)
    (hn : n < ARRAY_LIMIT) :
    ∃ w, v.reserve fresh n = .ok w ∧ w.Valid ∧ w.samples = v.samples ∧
      w.size = v.size ∧ w.capacity = max v.capacity n := by
  rw [reserve]
  split_ifs with hlt
  · refine ⟨_, rfl, ⟨hv.size_le.trans hlt.le, hn⟩, ?_, rfl,
      (max_eq_right hlt.le).symm⟩
    have hcopied := slice_memcpy_cells fresh 0 0 v.samples
    rw [length_samples] at hcopied
    exact hcopied
  · exact ⟨v, rfl, hv, rfl, rfl, (max_eq_left (not_lt.mp hlt)).symm⟩

theorem reserve_eq_badAlloc (hv : v.Valid) (hn : ARRAY_LIMIT ≤ n) :
    v.reserve fresh n = .error .badAlloc := by
  rw [reserve, if_pos (hv.capacity_lt.trans_le hn), if_neg (not_lt.mpr hn)]

theorem reserve_eq_self (h : n ≤ v.capacity) : v.reserve fresh n = .ok v := by
  rw [reserve, if_neg (not_lt.mpr h)]

theorem memcpyFrom_eq {dst : ℕ} (h : dst + xs.length ≤ v.capacity) :
    v.memcpyFrom dst xs =
      .ok
        { v with
          array := memcpy v.array dst (cells xs 0) xs.length } := by
  rw [memcpyFrom, if_pos h]

theorem memmove_eq {dst src : ℕ} (hv : v.Valid) (hdst : dst + n ≤ v.capacity)
    (hsrc : src + n ≤ v.capacity) :
    v.memmove dst src n =
      .ok
        { v with
          array := memcpy v.array dst (cells (slice v.array src n) 0) n } := by
  have hn : copiedSamples n = n :=
    copiedSamples_of_lt ((by omega : n ≤ v.capacity).trans_lt hv.capacity_lt)
  rw [memmove, hn]
  exact if_pos ⟨hdst, hsrc⟩

theorem memmove_eq_outside {dst src : ℕ}
    (h : v.capacity < dst + copiedSamples n) :
    v.memmove dst src n = .error .outside :=
  if_neg fun hinside => (hinside.1.trans_lt h).false

theorem memsetZero_eq_outside {dst : ℕ}
    (h : v.capacity < dst + copiedSamples n) :
    v.memsetZero dst n = .error .outside := by
  refine if_neg ?_
  rw [List.length_replicate]
  exact not_le.mpr h

theorem memsetZero_eq {dst : ℕ} (hv : v.Valid) (h : dst + n ≤ v.capacity) :
    v.memsetZero dst n = v.memcpyFrom dst (List.replicate n 0) := by
  have hn : copiedSamples n = n :=
    copiedSamples_of_lt ((by omega : n ≤ v.capacity).trans_lt hv.capacity_lt)
  rw [memsetZero, hn]

/-- The samples from a position on are moved up. -/
def movedUp (v : AudioVector) (position k : ℕ) : AudioVector :=
  { v with
    array := memcpy v.array (position + k)
      (cells (slice v.array position (v.size - position)) 0)
      (v.size - position) }

variable {position : ℕ}

theorem memmove_up (hv : v.Valid) (hposition : position ≤ v.size)
    (hroom : v.size + n ≤ v.capacity) :
    v.memmove (position + n) position (sizeSub v.size position) =
      .ok (v.movedUp position n) := by
  have hle := hv.size_le
  rw [sizeSub_of_le hposition, memmove_eq hv (by omega) (by omega)]
  rfl

theorem exists_fill (hv : v.Valid) (hposition : position ≤ v.size)
    (hroom : v.size + xs.length ≤ v.capacity) :
    ∃ w, ((v.movedUp position xs.length).memcpyFrom position xs >>=
        fun w => .ok (w.advance xs.length)) = .ok w ∧ w.Valid ∧
      w.samples = inserted v.samples xs position := by
  have hlt := hv.capacity_lt.trans (show ARRAY_LIMIT < 2 ^ 32 by decide)
  have hsize : sizeAdd v.size xs.length = v.size + xs.length :=
    sizeAdd_of_lt (hroom.trans_lt hlt)
  have hinside : position + xs.length ≤
      (v.movedUp position xs.length).capacity := by
    rw [movedUp]
    dsimp only
    omega
  rw [memcpyFrom_eq hinside, ok_bind]
  refine ⟨_, rfl, ⟨hsize.trans_le hroom, hv.capacity_lt⟩, ?_⟩
  have hfront : (v.samples.take position).length = position := by
    rw [List.length_take, length_samples, min_eq_left hposition]
  have hbehind : (v.samples.drop position).length = v.size - position := by
    rw [List.length_drop, length_samples]
  have hsplit : slice v.array 0
      ((v.samples.take position).length + (v.samples.drop position).length) =
        v.samples.take position ++ v.samples.drop position := by
    rw [hfront, hbehind, Nat.add_sub_cancel' hposition, List.take_append_drop]
    rfl
  have hspliced := slice_splice (d := 0) hsplit xs
  rw [hfront, hbehind] at hspliced
  have hlength : position + xs.length + (v.size - position) =
      sizeAdd v.size xs.length := by omega
  rw [hlength] at hspliced
  exact hspliced

theorem inserted_min (l : List Int16) :
    inserted l xs (min l.length position) = inserted l xs position := by
  rcases le_total l.length position with hle | hle
  · rw [min_eq_left hle, inserted, inserted, List.take_length, List.drop_length,
      List.take_of_length_le hle, List.drop_of_length_le hle]
  · rw [min_eq_right hle]

theorem length_inserted (l : List Int16) :
    (inserted l xs position).length = l.length + xs.length := by
  rw [inserted, List.length_append, List.length_append, List.length_take,
    List.length_drop]
  omega

variable (fresh position) in
theorem exists_insertAt (hv : v.Valid)
    (hroom : v.size + xs.length < ARRAY_LIMIT) :
    ∃ w, v.insertAt fresh xs position = .ok w ∧ w.Valid ∧
      w.samples = inserted v.samples xs position := by
  have hlt : v.size + xs.length < 2 ^ 32 := hroom.trans (by decide)
  obtain ⟨u, hu, huv, hsamples, hsize, hcapacity⟩ :=
    exists_reserve fresh hv hroom
  have huroom : u.size + xs.length ≤ u.capacity := by
    rw [hsize, hcapacity]
    exact le_max_right _ _
  rw [insertAt, sizeAdd_of_lt hlt, hu, ok_bind]
  dsimp only
  rw [memmove_up huv (min_le_left _ _) huroom, ok_bind, ← hsamples,
    ← inserted_min, length_samples]
  exact exists_fill huv (min_le_left _ _) huroom

theorem insertAt_eq_badAlloc (hv : v.Valid) (hxs : xs.length < ARRAY_LIMIT)
    (hroom : ARRAY_LIMIT ≤ v.size + xs.length) :
    v.insertAt fresh xs position = .error .badAlloc := by
  have hlt : v.size + xs.length < 2 ^ 32 := by
    have hsize := hv.size_le.trans_lt hv.capacity_lt
    rw [ARRAY_LIMIT] at hsize hxs
    omega
  rw [insertAt, sizeAdd_of_lt hlt, reserve_eq_badAlloc hv hroom, error_bind]

/-! ### Ends and middles -/

theorem samples_split (hposition : position ≤ v.size) :
    slice v.array 0 position = v.samples.take position := by
  rw [samples, take_slice, min_eq_left hposition]

theorem exists_append (hv : v.Valid)
    (hroom : v.size + xs.length ≤ v.capacity) :
    ∃ w, (v.memcpyFrom v.firstFreeIx xs >>=
        fun w => .ok (w.advance xs.length)) = .ok w ∧ w.Valid ∧
      w.samples = v.samples ++ xs := by
  have hlt := hv.capacity_lt.trans (show ARRAY_LIMIT < 2 ^ 32 by decide)
  have hsize : sizeAdd v.size xs.length = v.size + xs.length :=
    sizeAdd_of_lt (hroom.trans_lt hlt)
  have hinside : v.firstFreeIx + xs.length ≤ v.capacity := hroom
  rw [memcpyFrom_eq hinside, ok_bind]
  refine ⟨_, rfl, ⟨hsize.trans_le hroom, hv.capacity_lt⟩, ?_⟩
  change slice (memcpy v.array v.size (cells xs 0) xs.length) 0
    (sizeAdd v.size xs.length) = _
  rw [hsize, slice_add, Nat.zero_add, slice_memcpy_cells,
    slice_memcpy_below (by omega)]
  rfl

variable (fresh) in
theorem exists_pushBack (hv : v.Valid)
    (hroom : v.size + xs.length < ARRAY_LIMIT) :
    ∃ w, v.pushBack fresh xs = .ok w ∧ w.Valid ∧
      w.samples = v.samples ++ xs := by
  have hlt : v.size + xs.length < 2 ^ 32 := hroom.trans (by decide)
  obtain ⟨u, hu, huv, hsamples, hsize, hcapacity⟩ :=
    exists_reserve fresh hv hroom
  have huroom : u.size + xs.length ≤ u.capacity := by
    rw [hsize, hcapacity]
    exact le_max_right _ _
  rw [pushBack, sizeAdd_of_lt hlt, hu, ok_bind, ← hsamples]
  exact exists_append huv huroom

theorem pushBack_eq_badAlloc (hv : v.Valid) (hxs : xs.length < ARRAY_LIMIT)
    (hroom : ARRAY_LIMIT ≤ v.size + xs.length) :
    v.pushBack fresh xs = .error .badAlloc := by
  have hlt : v.size + xs.length < 2 ^ 32 := by
    have hsize := hv.size_le.trans_lt hv.capacity_lt
    rw [ARRAY_LIMIT] at hsize hxs
    omega
  rw [pushBack, sizeAdd_of_lt hlt, reserve_eq_badAlloc hv hroom, error_bind]

theorem exists_popFront (hv : v.Valid) :
    ∃ w, v.popFront n = .ok w ∧ w.Valid ∧ w.samples = v.samples.drop n := by
  have hle := hv.size_le
  rw [popFront]
  split_ifs with hall
  · refine ⟨_, rfl, ⟨Nat.zero_le _, hv.capacity_lt⟩, ?_⟩
    rw [List.drop_of_length_le ((length_samples v).trans_le hall)]
    rfl
  · rw [ge_iff_le, not_le] at hall
    dsimp only
    rw [memmove_eq hv (by omega) (by omega), ok_bind]
    refine ⟨_, rfl, ⟨(Nat.sub_le _ _).trans hle, hv.capacity_lt⟩, ?_⟩
    have hcopied := slice_memcpy_cells v.array 0 0
      (slice v.array n (v.size - n))
    rw [length_slice] at hcopied
    rw [show v.samples = slice v.array 0 v.size from rfl, drop_slice, Nat.zero_add]
    exact hcopied

theorem popBack_samples (v : AudioVector) (n : ℕ) :
    (v.popBack n).samples = v.samples.take (v.size - n) := by
  rw [samples, samples, take_slice]
  have hsize : (v.popBack n).size = min (v.size - n) v.size := by
    change v.size - min n v.size = _
    omega
  rw [hsize]
  rfl

variable (fresh) in
theorem exists_extend (hv : v.Valid) (hroom : v.size + n < ARRAY_LIMIT) :
    ∃ w, v.extend fresh n = .ok w ∧ w.Valid ∧
      w.samples = v.samples ++ List.replicate n 0 := by
  have hlt : v.size + n < 2 ^ 32 := hroom.trans (by decide)
  obtain ⟨u, hu, huv, hsamples, hsize, hcapacity⟩ :=
    exists_reserve fresh hv hroom
  have huroom : u.size + n ≤ u.capacity := by
    rw [hsize, hcapacity]
    exact le_max_right _ _
  have hzeros : u.memsetZero u.firstFreeIx n =
      u.memcpyFrom u.firstFreeIx (List.replicate n 0) :=
    memsetZero_eq huv huroom
  rw [extend, sizeAdd_of_lt hlt, hu, ok_bind, hzeros, ← hsamples]
  have hfill := exists_append huv
    (show u.size + (List.replicate n (0 : Int16)).length ≤ u.capacity by
      rwa [List.length_replicate])
  rw [List.length_replicate] at hfill
  exact hfill

variable (fresh) in
theorem exists_insertZerosAt (hv : v.Valid)
    (hroom : v.size + n < ARRAY_LIMIT)
    (hposition : min (max v.capacity (v.size + n)) position ≤ v.size) :
    ∃ w, v.insertZerosAt fresh n position = .ok w ∧ w.Valid ∧
      w.samples = inserted v.samples (List.replicate n 0)
        (min (max v.capacity (v.size + n)) position) := by
  have hlt : v.size + n < 2 ^ 32 := hroom.trans (by decide)
  obtain ⟨u, hu, huv, hsamples, hsize, hcapacity⟩ :=
    exists_reserve fresh hv hroom
  rw [← hcapacity, ← hsize] at hposition
  rw [← hcapacity, ← hsamples]
  have huroom : u.size + n ≤ u.capacity := by
    rw [hsize, hcapacity]
    exact le_max_right _ _
  have hmoved : (u.movedUp (min u.capacity position) n).Valid :=
    ⟨huv.size_le, huv.capacity_lt⟩
  rw [insertZerosAt, sizeAdd_of_lt hlt, hu, ok_bind]
  dsimp only
  rw [memmove_up huv hposition huroom, ok_bind,
    memsetZero_eq hmoved (show _ ≤ u.capacity by omega)]
  have hfill := exists_fill huv hposition
    (show u.size + (List.replicate n (0 : Int16)).length ≤ u.capacity by
      rwa [List.length_replicate])
  rw [List.length_replicate] at hfill
  exact hfill

theorem advance_sizeSub (hle : v.size ≤ n) (hn : n < 2 ^ 32) :
    v.advance (sizeSub n v.size) =
      { v with
        firstFreeIx := n } := by
  have hgrown : sizeAdd v.firstFreeIx (n - v.size) = n := by
    rw [sizeAdd]
    rw [size] at hle ⊢
    omega
  rw [sizeSub_of_le hle, advance, hgrown]

variable (fresh position) in
theorem exists_overwriteAt (hv : v.Valid)
    (hroom : min v.size position + xs.length < ARRAY_LIMIT) :
    ∃ w, v.overwriteAt fresh xs position = .ok w ∧ w.Valid ∧
      w.samples = v.samples.take (min v.size position) ++
        (xs ++ v.samples.drop (min v.size position + xs.length)) := by
  have hlt : min v.size position + xs.length < 2 ^ 32 :=
    hroom.trans (by decide)
  obtain ⟨u, hu, huv, hsamples, hsize, hcapacity⟩ :=
    exists_reserve fresh hv hroom
  have hinside : min v.size position + xs.length ≤ u.capacity := by
    rw [hcapacity]
    exact le_max_right _ _
  have hle : min v.size position ≤ u.size := by
    rw [hsize]
    exact min_le_left _ _
  rw [overwriteAt, sizeAdd_of_lt hlt, hu, ok_bind, memcpyFrom_eq hinside, ok_bind,
    ← hsamples]
  generalize min v.size position = p at hlt hinside hle
  have husize := huv.size_le
  have hfront : slice (memcpy u.array p (cells xs 0) xs.length) 0
      (p + xs.length) = u.samples.take p ++ xs := by
    rw [slice_add, Nat.zero_add, slice_memcpy_cells,
      slice_memcpy_below (by omega), samples_split hle]
  split_ifs with hexpanded
  · have hall : u.samples.length ≤ p + xs.length := by
      rw [length_samples]
      exact le_of_lt hexpanded
    rw [advance_sizeSub (le_of_lt hexpanded) hlt, List.drop_of_length_le hall,
      List.append_nil, ← hfront]
    exact ⟨_, rfl, ⟨hinside, huv.capacity_lt⟩, rfl⟩
  · refine ⟨_, rfl, ⟨husize, huv.capacity_lt⟩, ?_⟩
    have hkept : p + xs.length ≤ u.size := not_lt.mp hexpanded
    have hsplit : u.size = p + xs.length + (u.size - (p + xs.length)) := by
      omega
    have hbehind : slice (memcpy u.array p (cells xs 0) xs.length)
        (p + xs.length) (u.size - (p + xs.length)) =
          u.samples.drop (p + xs.length) := by
      rw [slice_memcpy_above le_rfl, samples, drop_slice, Nat.zero_add]
    change slice (memcpy u.array p (cells xs 0) xs.length) 0 u.size = _
    conv_lhs => rw [hsplit]
    rw [slice_add, Nat.zero_add, hfront, hbehind, List.append_assoc]

def fadedArray (v : AudioVector) (xs : List Int16) (position : ℕ) (step : ℤ)
    (k : ℕ) : ℕ → Int16 := fun j =>
  if position ≤ j ∧ j < position + k then
    mix (16384 - ((j - position : ℕ) + 1) * step) (v.array j)
      (xs.getD (j - position) 0)
  else v.array j

theorem foldlM_fadeRound (step : ℤ) {k : ℕ}
    (hk : position + k ≤ v.capacity) :
    (List.range k).foldlM (fadeRound xs position step) (16384, v) =
      .ok (16384 - k * step,
        { v with
          array := v.fadedArray xs position step k }) := by
  induction k with
  | zero =>
    have hsame : v.fadedArray xs position step 0 = v.array := by
      funext j
      exact if_neg (by omega)
    rw [hsame, Nat.cast_zero, zero_mul, sub_zero]
    rfl
  | succ k ih =>
    rw [List.range_succ, List.foldlM_append, ih (by omega), ok_bind,
      List.foldlM_cons, fadeRound, if_pos (show position + k < v.capacity by
        omega), ok_bind, List.foldlM_nil]
    have halpha : (16384 : ℤ) - k * step - step =
        16384 - (k + 1) * step := by
      rw [add_mul, one_mul, sub_sub]
    have harray : Function.update (v.fadedArray xs position step k)
        (position + k)
        (mix (16384 - (k + 1) * step)
          (v.fadedArray xs position step k (position + k)) (xs.getD k 0)) =
          v.fadedArray xs position step (k + 1) := by
      funext j
      by_cases hj : j = position + k
      · subst hj
        rw [Function.update_self, fadedArray, fadedArray, if_neg (by omega),
          if_pos (by omega), Nat.add_sub_cancel_left]
      · rw [Function.update_of_ne hj, fadedArray, fadedArray]
        by_cases hin : position ≤ j ∧ j < position + k
        · rw [if_pos hin, if_pos (by omega)]
        · rw [if_neg hin, if_neg (by omega)]
    dsimp only
    rw [halpha, harray, Nat.cast_succ]
    rfl

theorem slice_fadedArray {k : ℕ} (hk : k ≤ v.size) :
    slice (v.fadedArray xs (v.size - k) (16384 / (k + 1)) k) 0 v.size =
      v.samples.take (v.size - k) ++ faded v.samples xs k := by
  have hsplit : v.size = v.size - k + k := (Nat.sub_add_cancel hk).symm
  conv_lhs => rw [hsplit]
  rw [slice_add, Nat.zero_add, Nat.add_sub_cancel, ← samples_split (by omega)]
  congr 1
  · apply slice_congr
    intro i hi
    exact if_neg (by omega)
  · apply List.map_congr_left
    intro i hi
    have hi := List.mem_range.mp hi
    have hget : v.samples.getD (v.samples.length - k + i) 0 =
        v.array (v.size - k + i) := by
      rw [length_samples, List.getD_eq_getElem?_getD,
        List.getElem?_eq_getElem (by rw [length_samples]; omega)]
      simp [samples, slice]
    rw [hget, fadedArray, if_pos (by omega), Nat.add_sub_cancel_left]

theorem exists_crossFade_loop (hv : v.Valid) (xs : List Int16) {k : ℕ}
    (hk : k ≤ v.size) :
    ∃ w, (List.range k).foldlM
        (fadeRound xs (v.size - k) (16384 / ((k : ℤ) + 1))) (16384, v) =
          .ok (16384 - k * (16384 / ((k : ℤ) + 1)), w) ∧ w.Valid ∧
      w.size = v.size ∧
      w.samples = v.samples.take (v.size - k) ++ faded v.samples xs k :=
  ⟨_, foldlM_fadeRound _ (by have := hv.size_le; omega),
    ⟨hv.size_le, hv.capacity_lt⟩, rfl, slice_fadedArray hk⟩

/-! ### All operations -/

variable {op : Op}

theorem refines_of_exists
    (h : ∃ w, v.step fresh op = .ok w ∧ w.Valid ∧
      w.samples = op.apply v.samples) : v.Refines fresh op := by
  obtain ⟨w, hw, hvalid, hsamples⟩ := h
  rw [Refines, hw]
  exact ⟨hvalid, hsamples⟩

theorem refines_of_badAlloc (h : v.step fresh op = .error .badAlloc)
    (hlength : ARRAY_LIMIT ≤ (op.apply v.samples).length) :
    v.Refines fresh op := by
  rw [Refines, h]
  exact hlength

theorem not_refines_of_outside (h : v.step fresh op = .error .outside) :
    ¬v.Refines fresh op := by
  rw [Refines, h]
  exact id

variable (fresh position) in
theorem refines_insertAt (hv : v.Valid) (hxs : xs.length < ARRAY_LIMIT) :
    v.Refines fresh (.insertAt xs position) := by
  by_cases hroom : v.size + xs.length < ARRAY_LIMIT
  · exact refines_of_exists (exists_insertAt fresh position hv hroom)
  · have hfull := not_lt.mp hroom
    refine refines_of_badAlloc (insertAt_eq_badAlloc hv hxs hfull) ?_
    rw [Op.apply, length_inserted, length_samples]
    exact hfull

variable (fresh) in
theorem refines_pushFrontArray (hv : v.Valid) (hxs : xs.length < ARRAY_LIMIT) :
    v.Refines fresh (.pushFrontArray xs) :=
  refines_insertAt fresh 0 hv hxs

variable (fresh) in
theorem pushFront_eq (hv : v.Valid) (hxs : xs.length < ARRAY_LIMIT) :
    v.pushFront fresh xs = v.pushFrontArray fresh xs := by
  have hlt : v.size + xs.length < 2 ^ 32 := by
    have hsize := hv.size_le.trans_lt hv.capacity_lt
    rw [ARRAY_LIMIT] at hsize hxs
    omega
  rw [pushFront, pushFrontArray, insertAt, sizeAdd_of_lt hlt]
  by_cases hroom : v.size + xs.length < ARRAY_LIMIT
  · obtain ⟨u, hu, huv, -⟩ := exists_reserve fresh hv hroom
    have husize : sizeSub u.size 0 = u.size := sizeSub_of_le (Nat.zero_le _)
    rw [hu, ok_bind, ok_bind, Nat.min_zero]
    dsimp only
    rw [husize, Nat.zero_add]
  · rw [reserve_eq_badAlloc hv (not_lt.mp hroom)]
    rfl

variable (fresh) in
theorem refines_pushBack (hv : v.Valid) (hxs : xs.length < ARRAY_LIMIT) :
    v.Refines fresh (.pushBack xs) := by
  by_cases hroom : v.size + xs.length < ARRAY_LIMIT
  · exact refines_of_exists (exists_pushBack fresh hv hroom)
  · have hfull := not_lt.mp hroom
    refine refines_of_badAlloc (pushBack_eq_badAlloc hv hxs hfull) ?_
    rw [Op.apply, List.length_append, length_samples]
    exact hfull

variable (fresh position) in
theorem refines_overwriteAt (hv : v.Valid) (hxs : xs.length < ARRAY_LIMIT) :
    v.Refines fresh (.overwriteAt xs position) := by
  by_cases hroom : min v.size position + xs.length < ARRAY_LIMIT
  · refine refines_of_exists ?_
    rw [Op.apply, length_samples]
    exact exists_overwriteAt fresh position hv hroom
  · have hfull := not_lt.mp hroom
    have hlt : min v.size position + xs.length < 2 ^ 32 := by
      have hsize := hv.size_le.trans_lt hv.capacity_lt
      rw [ARRAY_LIMIT] at hsize hxs
      omega
    have hstep : v.step fresh (.overwriteAt xs position) =
        .error .badAlloc := by
      rw [step, overwriteAt, sizeAdd_of_lt hlt, reserve_eq_badAlloc hv hfull,
        error_bind]
    refine refines_of_badAlloc hstep ?_
    rw [Op.apply, List.length_append, List.length_append, List.length_take,
      List.length_drop, length_samples]
    omega

variable (fresh n) in
theorem refines_crossFade (hv : v.Valid) (hxs : xs.length < ARRAY_LIMIT) :
    v.Refines fresh (.crossFade xs n) := by
  have hfade : min (min n v.size) xs.length = min n (min v.size xs.length) :=
    min_assoc _ _ _
  have hk : min n (min v.size xs.length) ≤ v.size := by omega
  obtain ⟨w, hloop, hwv, hwsize, hwsamples⟩ := exists_crossFade_loop hv xs hk
  have hstep : v.step fresh (.crossFade xs n) =
      if xs.length - min n (min v.size xs.length) > 0 then
        w.pushBack fresh (xs.drop (min n (min v.size xs.length)))
      else .ok w := by
    rw [step, crossFade]
    dsimp only
    rw [hfade, hloop, ok_bind]
  have happly : (Op.crossFade xs n).apply v.samples =
      w.samples ++ xs.drop (min n (min v.size xs.length)) := by
    rw [Op.apply, length_samples, hwsamples, List.append_assoc]
  by_cases hrest : xs.length - min n (min v.size xs.length) > 0
  · rw [if_pos hrest] at hstep
    have hpush := refines_pushBack fresh hwv
      (show (xs.drop (min n (min v.size xs.length))).length < ARRAY_LIMIT by
        rw [List.length_drop]
        omega)
    rw [Refines, happly, hstep]
    exact hpush
  · rw [if_neg hrest] at hstep
    refine refines_of_exists ⟨w, hstep, hwv, ?_⟩
    rw [happly, List.drop_of_length_le (by omega), List.append_nil]

theorem reserve_wrapped (hv : v.Valid) (hn : n < 2 ^ 32)
    (h : ¬v.size + n < 2 ^ 32) :
    v.reserve fresh (sizeAdd v.size n) = .ok v := by
  refine reserve_eq_self ?_
  have hle := hv.size_le
  rw [sizeAdd]
  omega

variable (fresh) in
theorem refines_extend_iff (hv : v.Valid) (hn : n < 2 ^ 32) :
    v.Refines fresh (.extend n) ↔ v.size + n < 2 ^ 32 := by
  have hcap := hv.capacity_lt
  have hle := hv.size_le
  rw [ARRAY_LIMIT] at hcap
  by_cases hlt : v.size + n < 2 ^ 32
  · refine iff_of_true ?_ hlt
    by_cases hroom : v.size + n < ARRAY_LIMIT
    · exact refines_of_exists (exists_extend fresh hv hroom)
    · have hfull := not_lt.mp hroom
      have hstep : v.step fresh (.extend n) = .error .badAlloc := by
        rw [step, extend, sizeAdd_of_lt hlt, reserve_eq_badAlloc hv hfull,
          error_bind]
      refine refines_of_badAlloc hstep ?_
      rw [Op.apply, List.length_append, length_samples, List.length_replicate]
      exact hfull
  · refine iff_of_false (not_refines_of_outside ?_) hlt
    have hbehind : v.capacity < v.firstFreeIx + copiedSamples n := by
      rw [size] at hlt hle
      rw [copiedSamples]
      omega
    rw [step, extend, reserve_wrapped hv hn hlt, ok_bind,
      memsetZero_eq_outside hbehind, error_bind]

variable (fresh position) in
/-- Zeros at a position inside the array, but behind the last sample, are
written far outside of it. -/
theorem insertZerosAt_eq_outside (hv : v.Valid)
    (hroom : v.size + n < ARRAY_LIMIT)
    (h : v.size < min (max v.capacity (v.size + n)) position) :
    v.insertZerosAt fresh n position = .error .outside := by
  have hlt : v.size + n < 2 ^ 32 := hroom.trans (by decide)
  obtain ⟨u, hu, huv, -, hsize, hcapacity⟩ := exists_reserve fresh hv hroom
  rw [← hcapacity, ← hsize] at h
  have hcap := huv.capacity_lt
  rw [ARRAY_LIMIT] at hcap
  rw [insertZerosAt, sizeAdd_of_lt hlt, hu, ok_bind]
  dsimp only
  rw [sizeSub_of_lt h, memmove_eq_outside, error_bind]
  rw [copiedSamples]
  omega

variable (fresh position) in
theorem refines_insertZerosAt_iff (hv : v.Valid) (hn : n < 2 ^ 32) :
    v.Refines fresh (.insertZerosAt n position) ↔
      v.size + n < 2 ^ 32 ∧
        (position ≤ v.size ∨ ARRAY_LIMIT ≤ v.size + n ∨
          n = 0 ∧ v.size = v.capacity) := by
  have hcap := hv.capacity_lt
  have hle := hv.size_le
  by_cases hlt : v.size + n < 2 ^ 32
  · rw [and_iff_right hlt]
    by_cases hroom : v.size + n < ARRAY_LIMIT
    · by_cases hposition :
          min (max v.capacity (v.size + n)) position ≤ v.size
      · refine iff_of_true (refines_of_exists ?_) (by omega)
        have hspec := exists_insertZerosAt fresh hv hroom hposition
        have hcapped : min v.samples.length
            (min (max v.capacity (v.size + n)) position) =
              min v.samples.length position := by
          rw [length_samples]
          omega
        rw [← inserted_min, hcapped, inserted_min] at hspec
        exact hspec
      · refine iff_of_false (not_refines_of_outside
          (insertZerosAt_eq_outside fresh position hv hroom
            (not_le.mp hposition))) ?_
        omega
    · have hfull := not_lt.mp hroom
      have hstep : v.step fresh (.insertZerosAt n position) =
          .error .badAlloc := by
        rw [step, insertZerosAt, sizeAdd_of_lt hlt,
          reserve_eq_badAlloc hv hfull, error_bind]
      refine iff_of_true (refines_of_badAlloc hstep ?_) (.inr (.inl hfull))
      rw [Op.apply, length_inserted, length_samples, List.length_replicate]
      exact hfull
  · refine iff_of_false (not_refines_of_outside ?_) fun h => hlt h.1
    rw [ARRAY_LIMIT] at hcap
    rw [step, insertZerosAt, reserve_wrapped hv hn hlt, ok_bind]
    dsimp only
    rw [memmove_eq_outside, error_bind]
    omega

variable (fresh) in
/-- The operations refine those on lists, but for zeros behind the last sample
and for sizes that wrap around. -/
theorem refines_iff_safe (hv : v.Valid) (hop : op.Representable) :
    v.Refines fresh op ↔ op.Safe v := by
  cases op with
  | pushFront xs =>
    refine iff_of_true ?_ trivial
    have hstep : v.step fresh (.pushFront xs) =
        v.step fresh (.pushFrontArray xs) := pushFront_eq fresh hv hop
    rw [Refines, hstep]
    exact refines_pushFrontArray fresh hv hop
  | pushFrontArray xs =>
    exact iff_of_true (refines_pushFrontArray fresh hv hop) trivial
  | pushBack xs => exact iff_of_true (refines_pushBack fresh hv hop) trivial
  | popFront n =>
    exact iff_of_true (refines_of_exists (exists_popFront hv)) trivial
  | popBack n =>
    refine iff_of_true (refines_of_exists ⟨_, rfl, ⟨?_, ?_⟩, ?_⟩) trivial
    · exact (Nat.sub_le _ _).trans hv.size_le
    · exact hv.capacity_lt
    · rw [popBack_samples, Op.apply, length_samples]
  | extend n => exact refines_extend_iff fresh hv hop
  | insertAt xs position =>
    exact iff_of_true (refines_insertAt fresh position hv hop) trivial
  | insertZerosAt n position =>
    exact refines_insertZerosAt_iff fresh position hv hop
  | overwriteAt xs position =>
    exact iff_of_true (refines_overwriteAt fresh position hv hop) trivial
  | crossFade xs n => exact iff_of_true (refines_crossFade fresh n hv hop) trivial

end

end AudioVector

end WebrtcWinXp.NetEq
