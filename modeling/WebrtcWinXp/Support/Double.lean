import Mathlib.Algebra.Order.Field.Power
import Mathlib.Data.Int.Log
import Mathlib.Data.Rat.Floor
import Mathlib.Tactic.NormNum

/-!
# Double precision numbers

A double is a rational, an infinity or no number; every operation rounds the
exact result to the nearest double, to the even one of two.  Zeros have no
sign, so nothing here may be divided by a negative zero.
-/

namespace WebrtcWinXp.Support

inductive Double where
  | nan
  | infinity (negative : Bool)
  | finite (value : ℚ)
  deriving DecidableEq

/-- The nearest integer, and the even one of two. -/
def roundHalfEven (q : ℚ) : ℤ :=
  if q - ⌊q⌋ < 1 / 2 then ⌊q⌋
  else if 1 / 2 < q - ⌊q⌋ then ⌊q⌋ + 1
  else if ⌊q⌋ % 2 = 0 then ⌊q⌋
  else ⌊q⌋ + 1

@[simp] theorem roundHalfEven_intCast (n : ℤ) : roundHalfEven n = n := by
  simp [roundHalfEven]

namespace Double

/-- The exponent of the last of the 53 bits, which is at least -1074. -/
def lastBit (q : ℚ) : ℤ := max (Int.log 2 |q| - 52) (-1074)

/-- The double nearest to a rational. -/
def round (q : ℚ) : Double :=
  let value : ℚ := roundHalfEven (q / 2 ^ lastBit q) * 2 ^ lastBit q
  if 2 ^ 1024 ≤ |value| then infinity (q < 0) else finite value

/-- The conversion of an integer. -/
def ofInt (n : ℤ) : Double := round n

def sub : Double → Double → Double
  | finite a, finite b => round (a - b)
  | nan, _ | _, nan => nan
  | infinity s, infinity t => if s = t then nan else infinity s
  | infinity s, finite _ => infinity s
  | finite _, infinity t => infinity !t

def div : Double → Double → Double
  | finite a, finite b =>
    if b = 0 then if a = 0 then nan else infinity (a < 0)
    else round (a / b)
  | nan, _ | _, nan => nan
  | infinity _, infinity _ => nan
  | infinity s, finite b => infinity (s != decide (b < 0))
  | finite _, infinity _ => finite 0

/-- Comparisons with no number are false. -/
def le : Double → Double → Bool
  | finite a, finite b => a ≤ b
  | nan, _ | _, nan => false
  | infinity s, infinity t => s || !t
  | infinity s, finite _ => s
  | finite _, infinity t => !t

def eq : Double → Double → Bool
  | nan, _ | _, nan => false
  | a, b => a = b

theorem ofInt_eq_finite {n : ℤ} (h : |n| < 2 ^ 53) : ofInt n = finite n := by
  have hcast : |(n : ℚ)| = (n.natAbs : ℚ) := by
    rw [← Int.cast_abs, Int.abs_eq_natAbs, Int.cast_natCast]
  have hlog : Int.log 2 |(n : ℚ)| < 53 := by
    rw [hcast, Int.log_natCast]
    have hsmall : n.natAbs < 2 ^ 53 := by
      rw [Int.abs_eq_natAbs] at h
      omega
    by_cases hzero : n.natAbs = 0
    · simp [hzero]
    · have hbits := (Nat.log_lt_iff_lt_pow (by decide) hzero).mpr hsmall
      omega
  obtain ⟨k, hk⟩ : ∃ k : ℕ, lastBit n = -k := by
    refine ⟨(-lastBit n).toNat, ?_⟩
    rw [lastBit]
    omega
  have hscaled : (n : ℚ) / 2 ^ lastBit n = ((n * 2 ^ k : ℤ) : ℚ) := by
    rw [hk, zpow_neg, div_inv_eq_mul, zpow_natCast]
    push_cast
    rfl
  have hvalue : (roundHalfEven ((n : ℚ) / 2 ^ lastBit n) : ℚ) *
      2 ^ lastBit n = n := by
    rw [hscaled, roundHalfEven_intCast, ← hscaled]
    exact div_mul_cancel₀ _ (zpow_ne_zero _ (by norm_num))
  have hbound : ¬(2 : ℚ) ^ 1024 ≤ |(n : ℚ)| := by
    have hlt : |(n : ℚ)| < 2 ^ 53 := by
      rw [← Int.cast_abs]
      exact_mod_cast h
    have hle : (2 : ℚ) ^ 53 ≤ 2 ^ 1024 :=
      pow_le_pow_right₀ (by norm_num) (by norm_num)
    exact not_le.mpr (hlt.trans_le hle)
  rw [ofInt, round]
  simp only [hvalue, if_neg hbound]

theorem div_self_ofInt {n : ℤ} (hn : n ≠ 0) (h : |n| < 2 ^ 53) :
    div (ofInt n) (ofInt n) = finite 1 := by
  have hcast : (n : ℚ) ≠ 0 := by exact_mod_cast hn
  have hone := ofInt_eq_finite (n := 1) (by decide)
  rw [ofInt_eq_finite h]
  simp only [div, if_neg hcast, div_self hcast]
  simpa [ofInt] using hone

theorem div_zero_zero : div (ofInt 0) (ofInt 0) = nan := by
  rw [ofInt_eq_finite (n := 0) (by decide)]
  simp [div]

theorem le_nan (a : Double) : le a nan = false := by
  cases a <;> rfl

theorem nan_le (a : Double) : le nan a = false := by
  cases a <;> rfl

theorem nan_sub (a : Double) : sub nan a = nan := by
  cases a <;> rfl

end Double

end WebrtcWinXp.Support
