import Mathlib.Data.UInt
import Mathlib.Logic.Function.Basic
import WebrtcWinXp.Support.Ring

/-!
# Bits of bytes, and rows of bytes

A matrix of bytes is a memory of which equally long rows are used.  Code that
changes one byte of every row, by a loop over the rows, changes each row by
itself.
-/

namespace WebrtcWinXp.Support

/-- The bit of weight `2 ^ i`. -/
def bit (x : UInt8) (i : ℕ) : Bool := x.toBitVec.getLsbD i

@[simp] theorem bit_zero (i : ℕ) : bit 0 i = false := by
  simp [bit]

@[simp] theorem bit_or (x y : UInt8) (i : ℕ) :
    bit (x ||| y) i = (bit x i || bit y i) := by
  simp [bit]

@[simp] theorem bit_xor (x y : UInt8) (i : ℕ) :
    bit (x ^^^ y) i = (bit x i ^^ bit y i) := by
  simp [bit]

theorem bit_and (x y : UInt8) (i : ℕ) :
    bit (x &&& y) i = (bit x i && bit y i) := by
  simp [bit]

theorem bit_shiftLeft (x : UInt8) {k : ℕ} (hk : k < 8) (i : ℕ) :
    bit (x <<< UInt8.ofNat k) i =
      (decide (i < 8) && (decide (k ≤ i) && bit x (i - k))) := by
  have hmod : (UInt8.ofNat k).toBitVec % 8 = BitVec.ofNat 8 k := by
    apply BitVec.eq_of_toNat_eq
    simp
    omega
  have hlt : (BitVec.ofNat 8 k).toNat = k := by
    simp
    omega
  rw [bit, UInt8.toBitVec_shiftLeft, hmod, BitVec.shiftLeft_eq',
    BitVec.getLsbD_shiftLeft, hlt, bit]
  by_cases hki : k ≤ i
  · simp [hki, Nat.not_lt.mpr hki]
  · simp [hki, Nat.not_le.mp hki]

theorem bit_topBit (x : UInt8) (i : ℕ) :
    bit ((x &&& 0x80) >>> 7) i = (decide (i = 0) && bit x 7) := by
  have hshift : bit ((x &&& 0x80) >>> 7) i =
      (x.toBitVec &&& 0x80#8).getLsbD (7 + i) := by
    rw [bit, UInt8.toBitVec_shiftRight, UInt8.toBitVec_and]
    exact BitVec.getLsbD_ushiftRight ..
  rw [hshift, BitVec.getLsbD_and]
  cases i with
  | zero => simp [bit]
  | succ i =>
    rw [BitVec.getLsbD_of_ge (0x80#8) (7 + (i + 1)) (by omega)]
    simp

theorem eq_of_bit {x y : UInt8} (h : ∀ i < 8, bit x i = bit y i) : x = y := by
  apply UInt8.eq_of_toBitVec_eq
  apply BitVec.eq_of_getLsbD_eq
  intro i hi
  exact h i hi

/-! ## Rows -/

theorem row_lt {i n b width : ℕ} (hi : i < n) (hb : b < width) :
    i * width + b < n * width := by
  calc i * width + b < i * width + width := by omega
    _ = (i + 1) * width := by rw [Nat.add_mul, Nat.one_mul]
    _ ≤ n * width := Nat.mul_le_mul_right _ hi

theorem row_index {i j b c width : ℕ} (hb : b < width) (hc : c < width)
    (h : i * width + b = j * width + c) : i = j ∧ b = c := by
  have hi : (i * width + b) / width = i := by
    rw [Nat.mul_comm, Nat.mul_add_div (by omega), Nat.div_eq_of_lt hb,
      Nat.add_zero]
  have hj : (j * width + c) / width = j := by
    rw [Nat.mul_comm, Nat.mul_add_div (by omega), Nat.div_eq_of_lt hc,
      Nat.add_zero]
  have hij : i = j := by rw [← hi, ← hj, h]
  subst hij
  exact ⟨rfl, by omega⟩

variable {α : Type*}

/-- Change the cell `b` of the rows below `n` by `f`. -/
def updateColumn (width n b : ℕ) (f : ℕ → α → α) (mem : ℕ → α) : ℕ → α :=
  (List.range n).foldl
    (fun mem row =>
      Function.update mem (row * width + b) (f row (mem (row * width + b))))
    mem

theorem updateColumn_succ (width n b : ℕ) (f : ℕ → α → α) (mem : ℕ → α) :
    updateColumn width (n + 1) b f mem =
      Function.update (updateColumn width n b f mem) (n * width + b)
        (f n (updateColumn width n b f mem (n * width + b))) := by
  rw [updateColumn, List.range_succ, List.foldl_append]
  rfl

/-- A row after `updateColumn`. -/
theorem updateColumn_row {width n b : ℕ} (hb : b < width) (f : ℕ → α → α)
    (mem : ℕ → α) (row : ℕ) {c : ℕ} (hc : c < width) :
    updateColumn width n b f mem (row * width + c) =
      if row < n ∧ c = b then f row (mem (row * width + c))
      else mem (row * width + c) := by
  induction n with
  | zero => rw [if_neg (by omega)]; rfl
  | succ n ih =>
    rw [updateColumn_succ]
    by_cases hrow : row = n
    · subst hrow
      by_cases hcb : c = b
      · subst hcb
        rw [Function.update_self, ih, if_neg (by omega), if_pos (by omega)]
      · rw [Function.update_of_ne, ih, if_neg (by omega), if_neg (by omega)]
        exact fun h => hcb (row_index hc hb h).2
    · rw [Function.update_of_ne, ih]
      · congr 1
        rw [eq_iff_iff]
        omega
      · exact fun h => hrow (row_index hc hb h).1

/-!
## Exclusive or of bytes

Bytes that are combined by exclusive or into one, from which a missing one of
them is found when the others are known.
-/

section

/-- The exclusive or of all bytes of a list. -/
def xorAll (l : List UInt8) : UInt8 := l.foldr (· ^^^ ·) 0

/-- Exclusive or of `n` bytes from `src` into the memory from `pos` on. -/
def xorInto (dst : ℕ → UInt8) (pos : ℕ) (src : ℕ → UInt8) (n : ℕ) :
    ℕ → UInt8 :=
  fun i => if pos ≤ i ∧ i < pos + n then dst i ^^^ src (i - pos) else dst i

@[simp] theorem xorAll_nil : xorAll [] = 0 := rfl

@[simp] theorem xorAll_cons (x : UInt8) (l : List UInt8) :
    xorAll (x :: l) = x ^^^ xorAll l := rfl

theorem xorAll_append (l₁ l₂ : List UInt8) :
    xorAll (l₁ ++ l₂) = xorAll l₁ ^^^ xorAll l₂ := by
  induction l₁ with
  | nil => simp
  | cons x l₁ ih => rw [List.cons_append, xorAll_cons, ih, xorAll_cons,
      UInt8.xor_assoc]

theorem xorAll_perm {l₁ l₂ : List UInt8} (h : l₁.Perm l₂) :
    xorAll l₁ = xorAll l₂ := by
  induction h with
  | nil => rfl
  | cons x _ ih => rw [xorAll_cons, ih, xorAll_cons]
  | swap x y l =>
    simp only [xorAll_cons, ← UInt8.xor_assoc]
    rw [UInt8.xor_comm y x]
  | trans _ _ ih₁ ih₂ => exact ih₁.trans ih₂

theorem xor_and (x y m : UInt8) : (x ^^^ y) &&& m = (x &&& m) ^^^ (y &&& m) := by
  apply eq_of_bit
  intro i _
  simp [bit_and, Bool.and_xor_distrib_right]

theorem xorAll_and {α : Type*} (f : α → UInt8) (l : List α) (m : UInt8) :
    xorAll (l.map f) &&& m = xorAll (l.map fun a => f a &&& m) := by
  induction l with
  | nil => exact UInt8.zero_and
  | cons a l ih =>
    rw [List.map_cons, List.map_cons, xorAll_cons, xorAll_cons, xor_and, ih]

theorem xorAll_missing (l₁ l₂ : List UInt8) (x : UInt8) :
    xorAll (l₁ ++ x :: l₂) ^^^ xorAll (l₁ ++ l₂) = x := by
  have hperm : xorAll (l₁ ++ x :: l₂) = x ^^^ xorAll (l₁ ++ l₂) :=
    xorAll_perm List.perm_middle
  rw [hperm, UInt8.xor_assoc, UInt8.xor_self, UInt8.xor_zero]

theorem xorInto_apply (dst : ℕ → UInt8) (pos : ℕ) (src : ℕ → UInt8)
    (n i : ℕ) :
    xorInto dst pos src n i =
      dst i ^^^ if pos ≤ i ∧ i < pos + n then src (i - pos) else 0 := by
  unfold xorInto
  split
  · rfl
  · exact UInt8.xor_zero.symm

end

end WebrtcWinXp.Support
