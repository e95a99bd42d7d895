import Mathlib

/-!
# Character strings and numbers

Comparison without case, and the conversions between `int` and `std::string`
that string streams do.
-/

namespace WebrtcWinXp.Support

/-- A `std::string`. -/
abbrev Str := List Char

/-- What `c_str` functions see of a string. -/
def cStr (s : Str) : Str := s.takeWhile (· ≠ '\x00')

/-- `stricmp(s, t) == 0`. -/
def stricmpEq (s t : Str) : Bool :=
  (cStr s).map Char.toLower = (cStr t).map Char.toLower

@[simp] theorem stricmpEq_self (s : Str) : stricmpEq s s := by
  simp [stricmpEq]

/-! ## Numbers -/

def intMax : ℤ := 2 ^ 31 - 1

def intMin : ℤ := -2 ^ 31

/-- A number that is too large for an `int` is read as the nearest one. -/
def clampInt (n : ℤ) : ℤ := max intMin (min intMax n)

def isSpace (c : Char) : Bool :=
  c ∈ [' ', '\t', '\n', '\x0b', '\x0c', '\r']

/-- The number that the digits at the start of a string make up. -/
def readDigits (s : Str) : ℤ :=
  Nat.ofDigitChars 10 (s.takeWhile Char.isDigit) 0

/-- `FromString<int>(0, s)`. -/
def fromString (s : Str) : ℤ :=
  match s.dropWhile isSpace with
  | '-' :: s => clampInt (-readDigits s)
  | '+' :: s => clampInt (readDigits s)
  | s => clampInt (readDigits s)

/-- `ToString` of an `int`. -/
def intToString (n : ℤ) : Str :=
  if n < 0 then '-' :: Nat.toDigits 10 n.natAbs else Nat.toDigits 10 n.natAbs

theorem clampInt_of_mem {n : ℤ} (hmin : intMin ≤ n) (hmax : n ≤ intMax) :
    clampInt n = n := by
  rw [clampInt, min_eq_right hmax, max_eq_right hmin]

variable {n : ℕ} {c : Char}

theorem isDigit_of_mem_toDigits
    (h : c ∈ Nat.toDigits 10 n) : c.isDigit :=
  Nat.isDigit_of_mem_toDigits (by decide) (by decide) h

@[simp] theorem readDigits_toDigits (n : ℕ) :
    readDigits (Nat.toDigits 10 n) = n := by
  rw [readDigits, List.takeWhile_eq_self_iff.mpr fun _ h =>
    isDigit_of_mem_toDigits h, Nat.ofDigitChars_ten_toDigits]

theorem toDigits_digit (hc : c.isDigit) :
    Nat.toDigits 10 (c.toNat - '0'.toNat) = [c] := by
  obtain ⟨hzero, hnine⟩ := Char.isDigit_iff_toNat.mp hc
  have hlt : c.toNat - '0'.toNat < 10 := by
    have hvalue : '9'.toNat = '0'.toNat + 9 := rfl
    omega
  rw [Nat.toDigits_of_lt_base hlt]
  refine congrArg (fun c => [c]) (Char.toNat_inj.mp ?_)
  rw [Nat.toNat_digitChar_of_lt_ten hlt]
  have hvalue : '0'.toNat = 48 := rfl
  omega

theorem toDigits_ofDigitChars_of_pos {s : Str} (hs : ∀ c ∈ s, c.isDigit) (hn : 0 < n) :
    Nat.toDigits 10 (Nat.ofDigitChars 10 s n) = Nat.toDigits 10 n ++ s := by
  induction s generalizing n with
  | nil => rw [Nat.ofDigitChars_nil, List.append_nil]
  | cons c s ih =>
    obtain ⟨hc, hs⟩ := List.forall_mem_cons.mp hs
    have hdigit : c.toNat - '0'.toNat < 10 := by
      have hnine := (Char.isDigit_iff_toNat.mp hc).2
      have hvalue : '9'.toNat = '0'.toNat + 9 := rfl
      omega
    rw [Nat.ofDigitChars_cons, ih hs (by omega),
      ← Nat.toDigits_append_toDigits (by decide) hn hdigit,
      toDigits_digit hc, List.append_assoc, List.singleton_append]

theorem exists_toDigits_of_isDigit {s : Str}
    (hs : ∀ d ∈ c :: s, d.isDigit) (hc : c ≠ '0') :
    ∃ n, 0 < n ∧ c :: s = Nat.toDigits 10 n := by
  obtain ⟨hdigit, hs⟩ := List.forall_mem_cons.mp hs
  have hpos : 0 < c.toNat - '0'.toNat := by
    have hzero := (Char.isDigit_iff_toNat.mp hdigit).1
    have hne : c.toNat ≠ '0'.toNat := fun heq => hc (Char.toNat_inj.mp heq)
    omega
  refine ⟨Nat.ofDigitChars 10 s (c.toNat - '0'.toNat), ?_, ?_⟩
  · by_contra hzero
    have hdigits := toDigits_ofDigitChars_of_pos hs hpos
    rw [toDigits_digit hdigit, Nat.eq_zero_of_not_pos hzero] at hdigits
    exact hc (List.cons_eq_cons.mp hdigits).1.symm
  · rw [toDigits_ofDigitChars_of_pos hs hpos, toDigits_digit hdigit,
      List.singleton_append]

theorem not_isSpace_of_isDigit (h : c.isDigit) :
    isSpace c = false ∧ c ≠ '-' ∧ c ≠ '+' := by
  refine ⟨?_, ?_, ?_⟩
  · rw [isSpace, decide_eq_false_iff_not]
    intro hmem
    simp only [List.mem_cons, List.not_mem_nil, or_false] at hmem
    rcases hmem with rfl | rfl | rfl | rfl | rfl | rfl <;> cases h
  · rintro rfl
    cases h
  · rintro rfl
    cases h

theorem fromString_toDigits (n : ℕ) :
    fromString (Nat.toDigits 10 n) = clampInt n := by
  have hread : clampInt (readDigits (Nat.toDigits 10 n)) = clampInt n := by
    rw [readDigits_toDigits]
  cases hdigits : Nat.toDigits 10 n with
  | nil => exact absurd hdigits Nat.toDigits_ne_nil
  | cons c s =>
    have hc : c.isDigit := isDigit_of_mem_toDigits
      (hdigits ▸ List.mem_cons_self)
    obtain ⟨hspace, hminus, hplus⟩ := not_isSpace_of_isDigit hc
    rw [hdigits] at hread
    rw [fromString, List.dropWhile_cons_of_neg (by simp [hspace])]
    split
    · next heq => exact absurd (List.cons_eq_cons.mp heq).1 hminus
    · next heq => exact absurd (List.cons_eq_cons.mp heq).1 hplus
    · exact hread

theorem fromString_intToString_eq_clampInt (n : ℤ) :
    fromString (intToString n) = clampInt n := by
  rw [intToString]
  split
  · rw [fromString, List.dropWhile_cons_of_neg (by decide)]
    have habs : -(n.natAbs : ℤ) = n := by omega
    change clampInt (-readDigits (Nat.toDigits 10 n.natAbs)) = _
    rw [readDigits_toDigits, habs]
  · have habs : (n.natAbs : ℤ) = n := by omega
    rw [fromString_toDigits, habs]

theorem fromString_intToString {n : ℤ} (hmin : intMin ≤ n)
    (hmax : n ≤ intMax) : fromString (intToString n) = n := by
  rw [fromString_intToString_eq_clampInt, clampInt_of_mem hmin hmax]

theorem exists_toDigits_eq_cons (hn : 0 < n) :
    ∃ c s, Nat.toDigits 10 n = c :: s ∧ c ≠ '0' := by
  induction n using Nat.strong_induction_on with
  | h n ih =>
    by_cases hlt : n < 10
    · refine ⟨n.digitChar, [], Nat.toDigits_of_lt_base hlt, fun hzero => ?_⟩
      exact absurd (Nat.digitChar_eq_zero.mp hzero) (by omega)
    · obtain ⟨c, s, heq, hne⟩ := ih (n / 10) (by omega) (by omega)
      refine ⟨c, s ++ [(n % 10).digitChar], ?_, hne⟩
      rw [Nat.toDigits_of_base_le (by decide) (by omega), heq,
        List.cons_append]

end WebrtcWinXp.Support
