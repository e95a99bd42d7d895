import Mathlib.Data.List.Induction
import Mathlib.Tactic.Ring

/-!
# Byte strings

Fixed-width big-endian and little-endian encodings of natural numbers, their
inverses, and byte strings whose length is part of their type.
-/

namespace WebrtcWinXp.Support

theorem forall_uint8 {P : UInt8 → Prop} (h : ∀ n : Fin 256, P (UInt8.ofNat n))
    (b : UInt8) : P b := by
  have hb := h ⟨b.toNat, b.toNat_lt⟩
  rwa [UInt8.ofNat_toNat] at hb

/-- The `n` low-order bytes of `v`, most significant byte first. -/
def toBE : ℕ → ℕ → List UInt8
  | 0, _ => []
  | n + 1, v => toBE n (v / 256) ++ [UInt8.ofNat v]

/-- The number a big-endian byte string denotes. -/
def ofBE (bs : List UInt8) : ℕ :=
  bs.foldl (fun acc b => acc * 256 + b.toNat) 0

@[simp] theorem toBE_length (n v : ℕ) : (toBE n v).length = n := by
  induction n generalizing v with
  | zero => rfl
  | succ n ih => simp [toBE, ih]

@[simp] theorem ofBE_nil : ofBE [] = 0 := rfl

@[simp] theorem ofBE_append_singleton (bs : List UInt8) (b : UInt8) :
    ofBE (bs ++ [b]) = ofBE bs * 256 + b.toNat := by
  simp [ofBE]

/-- Decoding an `n`-byte encoding keeps the value modulo `256 ^ n`. -/
theorem ofBE_toBE (n v : ℕ) : ofBE (toBE n v) = v % 256 ^ n := by
  induction n generalizing v with
  | zero => simp [toBE, Nat.mod_one]
  | succ n ih =>
    have hb : (UInt8.ofNat v).toNat = v % 256 := by simp
    rw [toBE, ofBE_append_singleton, ih, hb, pow_succ, Nat.mul_comm (256 ^ n),
      Nat.mod_mul]
    ring

theorem ofBE_lt (bs : List UInt8) : ofBE bs < 256 ^ bs.length := by
  induction bs using List.reverseRecOn with
  | nil => simp
  | append_singleton bs b ih =>
    have hb : b.toNat < 256 := b.toNat_lt
    rw [ofBE_append_singleton, List.length_append, List.length_singleton,
      pow_succ]
    omega

theorem toBE_ofBE (bs : List UInt8) : toBE bs.length (ofBE bs) = bs := by
  induction bs using List.reverseRecOn with
  | nil => rfl
  | append_singleton bs b ih =>
    have hb : b.toNat < 256 := b.toNat_lt
    have hdiv : (ofBE bs * 256 + b.toNat) / 256 = ofBE bs := by omega
    have hlast : UInt8.ofNat (ofBE bs * 256 + b.toNat) = b := by
      apply UInt8.toNat_inj.mp
      simp
    rw [List.length_append, List.length_singleton, ofBE_append_singleton,
      toBE, hdiv, ih, hlast]

theorem toBE_toNat_ofNat_ofBE {τ : Type} {len : ℕ} {ofNat : ℕ → τ}
    {toNat : τ → ℕ} (htoNat : ∀ k < 256 ^ len, toNat (ofNat k) = k)
    {bs : List UInt8} (h : bs.length = len) :
    toBE len (toNat (ofNat (ofBE bs))) = bs := by
  subst h
  rw [htoNat _ (ofBE_lt bs), toBE_ofBE]

/-- The `n` low-order bytes of `v`, least significant byte first. -/
def toLE (n v : ℕ) : List UInt8 := (toBE n v).reverse

/-- The number a little-endian byte string denotes. -/
def ofLE (bs : List UInt8) : ℕ := ofBE bs.reverse

@[simp] theorem toLE_length (n v : ℕ) : (toLE n v).length = n := by
  simp [toLE]

theorem ofLE_toLE (n v : ℕ) : ofLE (toLE n v) = v % 256 ^ n := by
  rw [ofLE, toLE, List.reverse_reverse, ofBE_toBE]

/-- Byte strings of exactly `n` bytes. -/
abbrev Octets (n : ℕ) := {bs : List UInt8 // bs.length = n}

/-- Bytewise exclusive or. -/
def Octets.xor {n : ℕ} (a b : Octets n) : Octets n :=
  ⟨List.zipWith (· ^^^ ·) a.1 b.1, by simp [a.2, b.2]⟩

theorem zipWith_xor_cancel :
    ∀ (xs ys : List UInt8), xs.length = ys.length →
      List.zipWith (· ^^^ ·) (List.zipWith (· ^^^ ·) xs ys) ys = xs
  | [], [], _ => rfl
  | x :: xs, y :: ys, h => by
      have ih := zipWith_xor_cancel xs ys (by simpa using h)
      simp only [List.zipWith_cons_cons, ih, UInt8.xor_assoc, UInt8.xor_self,
        UInt8.xor_zero]

@[simp] theorem Octets.xor_xor {n : ℕ} (a mask : Octets n) :
    (a.xor mask).xor mask = a :=
  Subtype.ext (zipWith_xor_cancel a.1 mask.1 (a.2.trans mask.2.symm))

/-- `data` written at `pos`. -/
def overwrite (bytes : List UInt8) (pos : ℕ) (data : List UInt8) : List UInt8 :=
  bytes.take pos ++ (data ++ bytes.drop (pos + data.length))

variable {bytes data : List UInt8} {pos : ℕ}

theorem length_overwrite (h : pos + data.length ≤ bytes.length) :
    (overwrite bytes pos data).length = bytes.length := by
  simp only [overwrite, List.length_append, List.length_take, List.length_drop]
  omega

theorem getElem?_overwrite (h : pos + data.length ≤ bytes.length) (i : ℕ) :
    (overwrite bytes pos data)[i]? =
      if pos ≤ i ∧ i < pos + data.length then data[i - pos]?
      else bytes[i]? := by
  have htake : (bytes.take pos).length = pos := by
    rw [List.length_take]
    omega
  rw [overwrite]
  by_cases h₁ : i < pos
  · rw [if_neg (by omega), List.getElem?_append_left (by omega),
      List.getElem?_take_of_lt h₁]
  · rw [List.getElem?_append_right (by omega), htake]
    by_cases h₂ : i < pos + data.length
    · rw [if_pos ⟨by omega, h₂⟩, List.getElem?_append_left (by omega)]
    · have hi : pos + data.length + (i - pos - data.length) = i := by omega
      rw [if_neg (by omega), List.getElem?_append_right (by omega),
        List.getElem?_drop, hi]

theorem overwrite_append {front old back : List UInt8}
    (hpos : front.length = pos) (hlength : old.length = data.length) :
    overwrite (front ++ (old ++ back)) pos data = front ++ (data ++ back) := by
  subst hpos
  rw [overwrite, List.take_left, ← hlength, ← List.drop_drop, List.drop_left,
    List.drop_left]

theorem getElem?_overwrite_slice {other : List UInt8} {n : ℕ}
    (h : pos + n ≤ bytes.length) (hother : pos + n ≤ other.length) (i : ℕ) :
    (overwrite bytes pos ((other.drop pos).take n))[i]? =
      if pos ≤ i ∧ i < pos + n then other[i]? else bytes[i]? := by
  have hlength : ((other.drop pos).take n).length = n := by
    rw [List.length_take, List.length_drop]
    omega
  rw [getElem?_overwrite (by omega), hlength]
  by_cases hi : pos ≤ i ∧ i < pos + n
  · have hpos : pos + (i - pos) = i := by omega
    rw [if_pos hi, if_pos hi, List.getElem?_take_of_lt (by omega),
      List.getElem?_drop, hpos]
  · rw [if_neg hi, if_neg hi]

theorem overwrite_append_left {back : List UInt8}
    (h : pos + data.length ≤ bytes.length) :
    overwrite bytes pos data ++ back = overwrite (bytes ++ back) pos data := by
  rw [overwrite, overwrite, List.take_append_of_le_length (by omega),
    List.drop_append_of_le_length h, List.append_assoc, List.append_assoc]

theorem overwrite_eq_self_iff (h : pos + data.length ≤ bytes.length) :
    overwrite bytes pos data = bytes ↔
      (bytes.drop pos).take data.length = data := by
  have hsplit : bytes = bytes.take pos ++
      ((bytes.drop pos).take data.length ++
        bytes.drop (pos + data.length)) := by
    rw [← List.drop_drop, List.take_append_drop, List.take_append_drop]
  have hlength : ((bytes.drop pos).take data.length).length = data.length := by
    rw [List.length_take, List.length_drop]
    omega
  constructor
  · intro heq
    rw [overwrite] at heq
    have htail := List.append_cancel_left (heq.trans hsplit)
    exact (List.append_inj htail hlength.symm).1.symm
  · intro heq
    rw [heq] at hsplit
    exact hsplit.symm

end WebrtcWinXp.Support
