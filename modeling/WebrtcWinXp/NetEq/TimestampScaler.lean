import WebrtcWinXp.NetEq.Packet
import WebrtcWinXp.Support.Int32

/-!
# `TimestampScaler`

Each call scales the difference to the previous timestamp and cuts off what is
left of the division.  What is cut off adds up, and the scaled timestamps stay
within one tick of the exact ones, in both directions, exactly as long as it
does not add up to more than that.
-/

namespace WebrtcWinXp.NetEq

open Support

/-- A value as an `int32_t`. -/
def asInt32 (x : UInt32) : ℤ :=
  if x.toNat < 2 ^ 31 then x.toNat else x.toNat - 2 ^ 32

structure TimestampScaler where
  firstPacketReceived : Bool := false
  numerator : ℤ := 1
  denominator : ℤ := 1
  externalRef : UInt32 := 0
  internalRef : UInt32 := 0

/-- The factor of a codec type, unless it keeps the last one. -/
def scalingFactor : NetEqDecoder → Option (ℤ × ℤ)
  | .kDecoderG722 | .kDecoderG722_2ch => some (2, 1)
  | .kDecoderISACfb | .kDecoderCNGswb48kHz => some (2, 3)
  | .kDecoderAVT | .kDecoderCNGnb | .kDecoderCNGwb | .kDecoderCNGswb32kHz =>
    none
  | _ => some (1, 1)

namespace TimestampScaler

def setFactor (s : TimestampScaler) (codecType : NetEqDecoder) :
    TimestampScaler :=
  match scalingFactor codecType with
  | none => s
  | some (numerator, denominator) =>
    { s with
      numerator := numerator
      denominator := denominator }

def setReferences (s : TimestampScaler) (externalTimestamp : UInt32) :
    TimestampScaler :=
  if s.firstPacketReceived then s
  else
    { s with
      externalRef := externalTimestamp
      internalRef := externalTimestamp
      firstPacketReceived := true }

def scale (s : TimestampScaler) (externalTimestamp : UInt32) :
    TimestampScaler × UInt32 :=
  let externalDiff := asInt32 (externalTimestamp - s.externalRef)
  let internalRef := s.internalRef +
    UInt32.ofInt ((externalDiff * s.numerator).tdiv s.denominator)
  ({ s with
      externalRef := externalTimestamp
      internalRef := internalRef }, internalRef)

def toInternal (s : TimestampScaler) (database : DecoderDatabase)
    (externalTimestamp : UInt32) (rtpPayloadType : UInt8) :
    TimestampScaler × UInt32 :=
  match database.getDecoderInfo rtpPayloadType with
  | none => (s, externalTimestamp)
  | some codecType =>
    let s := s.setFactor codecType
    if ¬(s.numerator = 1 ∧ s.denominator = 1) then
      (s.setReferences externalTimestamp).scale externalTimestamp
    else (s, externalTimestamp)

def toExternal (s : TimestampScaler) (internalTimestamp : UInt32) : UInt32 :=
  if ¬s.firstPacketReceived ∨ (s.numerator = 1 ∧ s.denominator = 1) then
    internalTimestamp
  else
    let internalDiff := asInt32 (internalTimestamp - s.internalRef)
    s.externalRef +
      UInt32.ofInt ((internalDiff * s.denominator).tdiv s.numerator)

def steps : List ℤ → List ℤ
  | x :: y :: xs => (y - x) :: steps (y :: xs)
  | _ => []

def quotientSum (num den : ℤ) (xs : List ℤ) : ℤ :=
  ((steps xs).map fun step => (step * num).tdiv den).sum

/-- What the divisions cut off, in parts of the denominator. -/
def cutSum (num den : ℤ) (xs : List ℤ) : ℤ :=
  ((steps xs).map fun step => (step * num).tmod den).sum

variable {num den x y z : ℤ} {xs front back : List ℤ}

theorem quotientSum_cons_cons :
    quotientSum num den (x :: y :: xs) =
      ((y - x) * num).tdiv den + quotientSum num den (y :: xs) :=
  List.sum_cons

theorem cutSum_cons_cons :
    cutSum num den (x :: y :: xs) =
      ((y - x) * num).tmod den + cutSum num den (y :: xs) :=
  List.sum_cons

theorem den_mul_quotientSum (num den x : ℤ) (xs : List ℤ) :
    den * quotientSum num den (x :: xs) + cutSum num den (x :: xs) =
      ((x :: xs).getLast (List.cons_ne_nil x xs) - x) * num := by
  induction xs generalizing x with
  | nil =>
    rw [List.getLast_singleton, Int.sub_self, Int.zero_mul]
    change den * 0 + 0 = 0
    omega
  | cons y xs ih =>
    have hstep := Int.mul_tdiv_add_tmod ((y - x) * num) den
    have hrest := ih y
    rw [quotientSum_cons_cons, cutSum_cons_cons, Int.mul_add,
      List.getLast_cons (List.cons_ne_nil y xs)]
    linarith

/-! ## Runs -/

theorem asInt32_ofInt (h : Fits x) : asInt32 (UInt32.ofInt x) = x := by
  have hnat : (UInt32.ofInt x).toNat = (x % 2 ^ 32).toNat := by
    rw [UInt32.ofInt, UInt32.toNat_ofNat']
    exact Nat.mod_eq_of_lt (by omega)
  obtain ⟨hlower, hupper⟩ := h
  rw [asInt32, hnat]
  split <;> omega

theorem ofInt_sub_ofInt (x y : ℤ) :
    UInt32.ofInt x - UInt32.ofInt y = UInt32.ofInt (x - y) := by
  rw [UInt32.sub_eq_iff_eq_add, ← UInt32.ofInt_add, Int.sub_add_cancel]

/-- The factor of a new scaler for a codec type. -/
def factor (codecType : NetEqDecoder) : ℤ × ℤ :=
  (scalingFactor codecType).getD (1, 1)

theorem factor_cases (codecType : NetEqDecoder) :
    factor codecType = (1, 1) ∨ factor codecType = (2, 1) ∨
      factor codecType = (2, 3) := by
  cases codecType <;> decide

/-- The scaler has seen the timestamp `x` and gave it as `z`. -/
structure At (codecType : NetEqDecoder) (s : TimestampScaler) (x z : ℤ) :
    Prop where
  received : s.firstPacketReceived = true
  numerator : s.numerator = (factor codecType).1
  denominator : s.denominator = (factor codecType).2
  externalRef : s.externalRef = UInt32.ofInt x
  internalRef : s.internalRef = UInt32.ofInt z

variable {codecType : NetEqDecoder} {s : TimestampScaler}
  {database : DecoderDatabase} {rtpPayloadType : UInt8}

def HasFactor (codecType : NetEqDecoder) (s : TimestampScaler) : Prop :=
  s.numerator = (factor codecType).1 ∧ s.denominator = (factor codecType).2

theorem hasFactor_setFactor (codecType : NetEqDecoder)
    (h : HasFactor codecType s ∨ s = {}) :
    HasFactor codecType (s.setFactor codecType) ∧
      (s.setFactor codecType).firstPacketReceived = s.firstPacketReceived ∧
      (s.setFactor codecType).externalRef = s.externalRef ∧
      (s.setFactor codecType).internalRef = s.internalRef := by
  rw [setFactor]
  cases hfactor : scalingFactor codecType with
  | none =>
    refine ⟨?_, rfl, rfl, rfl⟩
    obtain h | rfl := h
    · exact h
    · rw [HasFactor, factor, hfactor]
      exact ⟨rfl, rfl⟩
  | some f =>
    refine ⟨?_, rfl, rfl, rfl⟩
    rw [HasFactor, factor, hfactor]
    exact ⟨rfl, rfl⟩

theorem At.scale (hfactor : HasFactor codecType s)
    (hreceived : s.firstPacketReceived = true)
    (hexternal : s.externalRef = UInt32.ofInt x)
    (hinternal : s.internalRef = UInt32.ofInt z) (hclose : |y - x| < 2 ^ 29) :
    ∃ t w, s.scale (UInt32.ofInt y) = (t, UInt32.ofInt w) ∧
      w = z + ((y - x) * (factor codecType).1).tdiv (factor codecType).2 ∧
      At codecType t y w := by
  have hdiff : asInt32 (UInt32.ofInt y - s.externalRef) = y - x := by
    rw [hexternal, ofInt_sub_ofInt]
    rw [abs_lt] at hclose
    exact asInt32_ofInt ⟨by omega, by omega⟩
  have hnew : s.internalRef + UInt32.ofInt
      ((asInt32 (UInt32.ofInt y - s.externalRef) * s.numerator).tdiv
        s.denominator) =
      UInt32.ofInt (z +
        ((y - x) * (factor codecType).1).tdiv (factor codecType).2) := by
    rw [hdiff, hinternal, hfactor.1, hfactor.2, UInt32.ofInt_add]
  exact ⟨_, _, Prod.ext rfl hnew, rfl, hreceived, hfactor.1, hfactor.2, rfl,
    hnew⟩

theorem not_unscaled (hfactor : HasFactor codecType s)
    (hscaled : factor codecType ≠ (1, 1)) :
    ¬(s.numerator = 1 ∧ s.denominator = 1) := by
  rw [hfactor.1, hfactor.2]
  exact fun h => hscaled (Prod.ext h.1 h.2)

theorem toInternal_first
    (hdatabase : database.getDecoderInfo rtpPayloadType = some codecType)
    (hscaled : factor codecType ≠ (1, 1)) (x : ℤ) :
    ∃ s, toInternal {} database (UInt32.ofInt x) rtpPayloadType =
        (s, UInt32.ofInt x) ∧ At codecType s x x := by
  obtain ⟨hfactor, hreceived, -, -⟩ :=
    hasFactor_setFactor codecType (s := {}) (.inr rfl)
  have hnot := not_unscaled hfactor hscaled
  rw [toInternal, hdatabase]
  dsimp only
  rw [if_pos hnot, setReferences, hreceived, if_neg Bool.false_ne_true]
  set s := setFactor {} codecType
  obtain ⟨t, w, heq, rfl, hat⟩ := At.scale (x := x) (y := x) (z := x)
    (s := { s with
      externalRef := UInt32.ofInt x
      internalRef := UInt32.ofInt x
      firstPacketReceived := true }) hfactor rfl rfl rfl (by
        rw [Int.sub_self]
        decide)
  rw [Int.sub_self, Int.zero_mul, Int.zero_tdiv, Int.add_zero] at heq hat
  exact ⟨t, heq, hat⟩

theorem At.toInternal (h : At codecType s x z)
    (hdatabase : database.getDecoderInfo rtpPayloadType = some codecType)
    (hscaled : factor codecType ≠ (1, 1)) (hclose : |y - x| < 2 ^ 29) :
    ∃ t w, s.toInternal database (UInt32.ofInt y) rtpPayloadType =
        (t, UInt32.ofInt w) ∧
      w = z + ((y - x) * (factor codecType).1).tdiv (factor codecType).2 ∧
      At codecType t y w := by
  obtain ⟨hfactor, hreceived, hexternal, hinternal⟩ :=
    hasFactor_setFactor codecType (s := s)
      (.inl ⟨h.numerator, h.denominator⟩)
  have hnot := not_unscaled hfactor hscaled
  rw [h.received] at hreceived
  rw [h.externalRef] at hexternal
  rw [h.internalRef] at hinternal
  rw [TimestampScaler.toInternal, hdatabase]
  dsimp only
  rw [if_pos hnot, setReferences, hreceived, if_pos rfl]
  exact At.scale hfactor hreceived hexternal hinternal hclose

def after (database : DecoderDatabase) (rtpPayloadType : UInt8)
    (s : TimestampScaler) (xs : List ℤ) : TimestampScaler :=
  xs.foldl (fun s x =>
    (s.toInternal database (UInt32.ofInt x) rtpPayloadType).1) s

theorem At.after (h : At codecType s x z)
    (hdatabase : database.getDecoderInfo rtpPayloadType = some codecType)
    (hscaled : factor codecType ≠ (1, 1))
    (hclose : (x :: xs).IsChain fun a b => |b - a| < 2 ^ 29) :
    At codecType (after database rtpPayloadType s xs)
      ((x :: xs).getLast (List.cons_ne_nil x xs))
      (z + quotientSum (factor codecType).1 (factor codecType).2 (x :: xs))
        := by
  induction xs generalizing s x z with
  | nil =>
    change At codecType s x (z + 0)
    rw [Int.add_zero]
    exact h
  | cons y xs ih =>
    rw [List.isChain_cons_cons] at hclose
    obtain ⟨t, w, heq, rfl, hat⟩ := h.toInternal hdatabase hscaled hclose.1
    have hrest := ih hat hclose.2
    rw [TimestampScaler.after, List.foldl_cons, heq,
      List.getLast_cons (List.cons_ne_nil y xs), quotientSum_cons_cons,
      ← Int.add_assoc]
    exact hrest

theorem after_append (xs ys : List ℤ) :
    after database rtpPayloadType s (xs ++ ys) =
      after database rtpPayloadType (after database rtpPayloadType s xs) ys :=
  List.foldl_append

theorem toInternal_snd
    (hdatabase : database.getDecoderInfo rtpPayloadType = some codecType)
    (hscaled : ¬((s.setFactor codecType).numerator = 1 ∧
      (s.setFactor codecType).denominator = 1)) (t : UInt32) :
    (s.toInternal database t rtpPayloadType).2 =
      (s.toInternal database t rtpPayloadType).1.internalRef := by
  rw [toInternal, hdatabase]
  dsimp only
  rw [if_pos hscaled]
  rfl

theorem at_after
    (hdatabase : database.getDecoderInfo rtpPayloadType = some codecType)
    (hscaled : factor codecType ≠ (1, 1))
    (hclose : (x :: xs).IsChain fun a b => |b - a| < 2 ^ 29) :
    At codecType (after database rtpPayloadType {} (x :: xs))
      ((x :: xs).getLast (List.cons_ne_nil x xs))
      (x + quotientSum (factor codecType).1 (factor codecType).2 (x :: xs))
        := by
  obtain ⟨s, heq, hat⟩ := toInternal_first hdatabase hscaled x
  have hafter := hat.after hdatabase hscaled hclose
  rw [after, List.foldl_cons, heq]
  exact hafter

theorem toInternal_unscaled
    (hdatabase : database.getDecoderInfo rtpPayloadType = some codecType)
    (hunscaled : factor codecType = (1, 1)) (h : HasFactor codecType s ∨ s = {})
    (t : UInt32) :
    (s.toInternal database t rtpPayloadType).2 = t ∧
      HasFactor codecType (s.toInternal database t rtpPayloadType).1 := by
  obtain ⟨hfactor, -⟩ := hasFactor_setFactor codecType h
  have hone : (s.setFactor codecType).numerator = 1 ∧
      (s.setFactor codecType).denominator = 1 := by
    rw [hfactor.1, hfactor.2, hunscaled]
    exact ⟨rfl, rfl⟩
  rw [toInternal, hdatabase]
  dsimp only
  rw [if_neg (not_not.mpr hone)]
  exact ⟨rfl, hfactor⟩

theorem hasFactor_after
    (hdatabase : database.getDecoderInfo rtpPayloadType = some codecType)
    (hunscaled : factor codecType = (1, 1)) (h : HasFactor codecType s ∨ s = {})
    (xs : List ℤ) :
    HasFactor codecType (after database rtpPayloadType s xs) ∨
      after database rtpPayloadType s xs = {} := by
  induction xs generalizing s with
  | nil => exact h
  | cons x xs ih =>
    exact ih (.inl (toInternal_unscaled hdatabase hunscaled h _).2)

theorem toExternal_unscaled (hunscaled : factor codecType = (1, 1))
    (h : HasFactor codecType s ∨ s = {}) (t : UInt32) :
    s.toExternal t = t := by
  have hone : s.numerator = 1 ∧ s.denominator = 1 := by
    obtain h | rfl := h
    · rw [h.1, h.2, hunscaled]
      exact ⟨rfl, rfl⟩
    · exact ⟨rfl, rfl⟩
  exact if_pos (.inr hone)

/-! ## Up to one tick -/

theorem At.toExternal (h : At codecType s y z)
    (hscaled : factor codecType ≠ (1, 1)) {w : ℤ} (hfits : Fits (w - z)) :
    s.toExternal (UInt32.ofInt w) =
      UInt32.ofInt (y +
        ((w - z) * (factor codecType).2).tdiv (factor codecType).1) := by
  have hnot := not_unscaled ⟨h.numerator, h.denominator⟩ hscaled
  have hdiff : asInt32 (UInt32.ofInt w - s.internalRef) = w - z := by
    rw [h.internalRef, ofInt_sub_ofInt]
    exact asInt32_ofInt hfits
  rw [TimestampScaler.toExternal, h.received, if_neg (by simpa using hnot)]
  dsimp only
  rw [hdiff, h.externalRef, h.numerator, h.denominator, UInt32.ofInt_add]

theorem cutSum_append_cons (num den : ℤ) (front : List ℤ) (x : ℤ)
    (back : List ℤ) :
    cutSum num den (front ++ x :: back) =
      cutSum num den (front ++ [x]) + cutSum num den (x :: back) := by
  induction front with
  | nil =>
    change _ = 0 + _
    rw [Int.zero_add, List.nil_append]
  | cons a front ih =>
    cases front with
    | nil =>
      change _ = ((x - a) * num).tmod den + 0 + _
      rw [List.singleton_append, cutSum_cons_cons, Int.add_zero]
    | cons b front =>
      simp only [List.cons_append, cutSum_cons_cons] at ih ⊢
      rw [ih, Int.add_assoc]

theorem abs_tmod_lt (a : ℤ) {b : ℤ} (hb : 0 < b) : |a.tmod b| < b := by
  rw [Int.abs_eq_natAbs, Int.natAbs_tmod]
  have hlt := Nat.mod_lt a.natAbs (show 0 < b.natAbs by omega)
  omega

theorem abs_cutSum_append_singleton_lt (num : ℤ) (hden : 0 < den)
    (front : List ℤ) (x : ℤ) :
    |cutSum num den (front ++ [x])| < |cutSum num den front| + den := by
  rcases List.eq_nil_or_concat front with rfl | ⟨front, y, rfl⟩
  · change |(0 : ℤ)| < |(0 : ℤ)| + den
    omega
  · have htmod := abs_tmod_lt ((x - y) * num) hden
    rw [List.concat_eq_append, List.append_assoc, List.singleton_append,
      cutSum_append_cons, cutSum_cons_cons]
    change |_ + (_ + (0 : ℤ))| < _
    rw [Int.add_zero]
    exact lt_of_le_of_lt (abs_add_le _ _) (by omega)

theorem eq_of_ofInt_eq (h : UInt32.ofInt x = UInt32.ofInt y)
    (hclose : |x - y| < 2 ^ 31) : x = y := by
  rw [abs_lt] at hclose
  have hzero := asInt32_ofInt (x := x - y) ⟨by omega, by omega⟩
  rw [← ofInt_sub_ofInt, h, UInt32.sub_self] at hzero
  have : asInt32 0 = 0 := rfl
  omega

theorem exists_tick_iff (hclose : |x - y| < 2 ^ 30) :
    (∃ e : ℤ, UInt32.ofInt x = UInt32.ofInt (y + e) ∧ |e| ≤ 1) ↔
      |x - y| ≤ 1 := by
  constructor
  · rintro ⟨e, heq, he⟩
    rw [abs_lt] at hclose
    rw [abs_le] at he
    rw [eq_of_ofInt_eq heq (by rw [abs_lt]; omega), abs_le]
    omega
  · intro he
    exact ⟨x - y, by rw [add_sub_cancel], he⟩

/-- A scaled timestamp within one tick of the exact one, where `q` is what the
divisions gave and `c` what they cut off. -/
theorem exists_scaled_tick_iff {d q c : ℤ} (hden : 0 < den)
    (h : den * q + c = d * num) (hc : |c| < 2 * den) :
    (∃ e : ℤ, UInt32.ofInt (x + q) = UInt32.ofInt (x + e) ∧
      |den * e - d * num| ≤ den) ↔ |c| ≤ den := by
  constructor
  · rintro ⟨e, heq, he⟩
    have hdiff : den * (e - q) = den * e - d * num + c := by linarith
    have hbound : |den * (e - q)| < den * 3 := by
      rw [hdiff]
      exact lt_of_le_of_lt (abs_add_le _ _) (by omega)
    rw [abs_mul, abs_of_pos hden] at hbound
    have hsmall : |e - q| < 3 := lt_of_mul_lt_mul_left hbound hden.le
    rw [abs_lt] at hsmall
    have hsame := eq_of_ofInt_eq heq (by rw [abs_lt]; omega)
    obtain rfl : e = q := by omega
    rw [← h, sub_add_cancel_left, abs_neg] at he
    exact he
  · intro hc'
    refine ⟨q, rfl, ?_⟩
    rw [← h, sub_add_cancel_left, abs_neg]
    exact hc'

theorem num_mul_scaleBack {d q c : ℤ} (h : den * q + c = d * num) :
    num * (d + (-q * den).tdiv num) = c + (q * den).tmod num := by
  have hdiv := Int.mul_tdiv_add_tmod (q * den) num
  rw [Int.neg_mul, Int.neg_tdiv]
  linarith

/-- The timestamp `x` that comes after `front` is given within one tick of the
exact one and is, after `back`, scaled back within one tick. -/
def GivenNear (codecType : NetEqDecoder) (database : DecoderDatabase)
    (rtpPayloadType : UInt8) (front : List ℤ) (x : ℤ) (back : List ℤ) :
    Prop :=
  let internal := ((after database rtpPayloadType {} front).toInternal
    database (UInt32.ofInt x) rtpPayloadType).2
  let later := after database rtpPayloadType {} (front ++ x :: back)
  (∃ e : ℤ, internal = UInt32.ofInt (front.headD x + e) ∧
    |(factor codecType).2 * e - (x - front.headD x) * (factor codecType).1| ≤
      (factor codecType).2) ∧
  (|(x :: back).getLast (List.cons_ne_nil x back) - x| < 2 ^ 29 →
    ∃ e : ℤ, later.toExternal internal = UInt32.ofInt (x + e) ∧ |e| ≤ 1)

/-- What is cut off, up to a packet, is at most one tick, and so is what is cut
off between two packets and on the way back. -/
structure CutsFit (codecType : NetEqDecoder) (xs : List ℤ) : Prop where
  prefixes : ∀ l, l <+: xs →
    |cutSum (factor codecType).1 (factor codecType).2 l| ≤ (factor codecType).2
  infixes : ∀ x l, x :: l <:+: xs →
    |(x :: l).getLast (List.cons_ne_nil x l) - x| < 2 ^ 29 →
    |cutSum (factor codecType).1 (factor codecType).2 (x :: l) +
      (quotientSum (factor codecType).1 (factor codecType).2 (x :: l) *
        (factor codecType).2).tmod (factor codecType).1| ≤ (factor codecType).1

theorem scaled_factor (hscaled : factor codecType ≠ (1, 1)) :
    (factor codecType).1 = 2 ∧
      ((factor codecType).2 = 1 ∨ (factor codecType).2 = 3) := by
  obtain h | h | h := factor_cases codecType
  · exact absurd h hscaled
  · rw [h]
    decide
  · rw [h]
    decide

theorem exists_append_singleton_eq (front : List ℤ) (x : ℤ) :
    ∃ m, front ++ [x] = front.headD x :: m ∧
      (front.headD x :: m).getLast (List.cons_ne_nil _ m) = x := by
  cases front with
  | nil => exact ⟨[], rfl, rfl⟩
  | cons a front =>
    exact ⟨front ++ [x], rfl, List.getLast_append_singleton (a :: front)⟩

theorem internal_eq
    (hdatabase : database.getDecoderInfo rtpPayloadType = some codecType)
    (hscaled : factor codecType ≠ (1, 1))
    (hclose : (front ++ [x]).IsChain fun a b => |b - a| < 2 ^ 29) :
    At codecType (after database rtpPayloadType {} (front ++ [x])) x
      (front.headD x + quotientSum (factor codecType).1 (factor codecType).2
        (front ++ [x])) ∧
    ((after database rtpPayloadType {} front).toInternal database
        (UInt32.ofInt x) rtpPayloadType).2 =
      UInt32.ofInt (front.headD x + quotientSum (factor codecType).1
        (factor codecType).2 (front ++ [x])) := by
  obtain ⟨m, hm, hlast⟩ := exists_append_singleton_eq front x
  have hat : At codecType (after database rtpPayloadType {} (front ++ [x])) x
      (front.headD x + quotientSum (factor codecType).1 (factor codecType).2
        (front ++ [x])) := by
    have hafter := at_after hdatabase hscaled (hm ▸ hclose)
    rwa [hlast, ← hm] at hafter
  refine ⟨hat, ?_⟩
  rw [toInternal_snd hdatabase, ← hat.internalRef, after_append]
  · rfl
  · refine not_unscaled (hasFactor_setFactor codecType ?_).1 hscaled
    cases front with
    | nil => exact .inr rfl
    | cons a front =>
      have hfront := at_after hdatabase hscaled hclose.left_of_append
      exact .inl ⟨hfront.numerator, hfront.denominator⟩

theorem givenNear_iff
    (hdatabase : database.getDecoderInfo rtpPayloadType = some codecType)
    (hscaled : factor codecType ≠ (1, 1))
    (hclose : (front ++ x :: back).IsChain fun a b => |b - a| < 2 ^ 29)
    (hfront : |cutSum (factor codecType).1 (factor codecType).2
      (front ++ [x])| < 2 * (factor codecType).2)
    (hback : |cutSum (factor codecType).1 (factor codecType).2 (x :: back)| ≤
      2 * (factor codecType).2) :
    GivenNear codecType database rtpPayloadType front x back ↔
      |cutSum (factor codecType).1 (factor codecType).2 (front ++ [x])| ≤
        (factor codecType).2 ∧
      (|(x :: back).getLast (List.cons_ne_nil x back) - x| < 2 ^ 29 →
        |cutSum (factor codecType).1 (factor codecType).2 (x :: back) +
          (quotientSum (factor codecType).1 (factor codecType).2 (x :: back) *
            (factor codecType).2).tmod (factor codecType).1| ≤
          (factor codecType).1) := by
  have hsplit : front ++ x :: back = (front ++ [x]) ++ back := by
    rw [List.append_assoc]
    rfl
  obtain ⟨hat, hinternal⟩ := internal_eq hdatabase hscaled
    (hsplit ▸ hclose).left_of_append
  have hlater := hat.after hdatabase hscaled
    (show (x :: back).IsChain _ from hclose.right_of_append)
  rw [← after_append, ← hsplit] at hlater
  obtain ⟨hnum, hden⟩ := scaled_factor hscaled
  rw [GivenNear, hinternal]
  refine and_congr ?_ (imp_congr_right fun hnear => ?_)
  · refine exists_scaled_tick_iff (by omega) ?_ hfront
    obtain ⟨m, hm, hlast⟩ := exists_append_singleton_eq front x
    have hexact := den_mul_quotientSum (factor codecType).1
      (factor codecType).2 (front.headD x) m
    rwa [hlast, ← hm] at hexact
  · have hexact := den_mul_quotientSum (factor codecType).1
      (factor codecType).2 x back
    have herror := num_mul_scaleBack hexact
    have htmod := abs_tmod_lt (quotientSum (factor codecType).1
      (factor codecType).2 (x :: back) * (factor codecType).2)
      (show 0 < (factor codecType).1 by omega)
    rw [abs_lt] at hnear htmod
    rw [abs_le] at hback
    set q := quotientSum (factor codecType).1 (factor codecType).2 (x :: back)
    set c := cutSum (factor codecType).1 (factor codecType).2 (x :: back)
    set last := (x :: back).getLast (List.cons_ne_nil x back)
    have hfits : Fits (-q) := by
      rw [hnum] at hexact
      obtain hden | hden := hden <;> rw [hden] at hexact hback <;>
        constructor <;> omega
    have hback' := hlater.toExternal hscaled (w := front.headD x +
      quotientSum (factor codecType).1 (factor codecType).2 (front ++ [x]))
      (by rwa [sub_add_cancel_left])
    rw [sub_add_cancel_left] at hback'
    rw [hback']
    rw [hnum] at herror htmod ⊢
    set r := (-q * (factor codecType).2).tdiv 2
    rw [exists_tick_iff (by rw [abs_lt]; omega), abs_le, abs_le]
    omega

theorem givenNear_unscaled
    (hdatabase : database.getDecoderInfo rtpPayloadType = some codecType)
    (hunscaled : factor codecType = (1, 1)) :
    GivenNear codecType database rtpPayloadType front x back := by
  have hfactor := hasFactor_after hdatabase hunscaled (.inr rfl) front
  have hfactor' := hasFactor_after hdatabase hunscaled (.inr rfl)
    (front ++ x :: back)
  rw [GivenNear, (toInternal_unscaled hdatabase hunscaled hfactor _).1,
    toExternal_unscaled hunscaled hfactor', hunscaled]
  refine ⟨⟨x - front.headD x, ?_, ?_⟩, fun _ => ⟨0, ?_, by decide⟩⟩
  · rw [add_sub_cancel]
  · rw [Int.one_mul, Int.mul_one, Int.sub_self]
    decide
  · rw [Int.add_zero]

theorem cutSum_one (num : ℤ) (xs : List ℤ) : cutSum num 1 xs = 0 := by
  rw [cutSum]
  induction steps xs with
  | nil => rfl
  | cons step l ih => rw [List.map_cons, List.sum_cons, ih, Int.tmod_one,
      Int.add_zero]

theorem cutsFit_of_den_eq_one (hnum : 0 < (factor codecType).1)
    (hden : (factor codecType).2 = 1) : CutsFit codecType xs := by
  constructor
  · intro l _
    rw [hden, cutSum_one]
    decide
  · intro x l _ _
    rw [hden, cutSum_one, Int.zero_add]
    exact (abs_tmod_lt _ hnum).le

theorem prefix_append_cons (front : List ℤ) (x : ℤ) (back : List ℤ) :
    front ++ [x] <+: front ++ x :: back := by
  refine ⟨back, ?_⟩
  rw [List.append_assoc]
  rfl

theorem abs_cutSum_back_le
    (hprefixes : ∀ l, l <+: xs → |cutSum num den l| ≤ den)
    (h : front ++ x :: back <+: xs) :
    |cutSum num den (x :: back)| ≤ 2 * den := by
  have hsplit := cutSum_append_cons num den front x back
  have hleft := hprefixes (front ++ [x])
    ((prefix_append_cons front x back).trans h)
  have hright := hprefixes _ h
  rw [abs_le] at hleft hright ⊢
  omega

/-- The scaled timestamps have no drift and are scaled back, up to one tick,
exactly as long as what is cut off does not add up to more. -/
theorem forall_givenNear_iff
    (hdatabase : database.getDecoderInfo rtpPayloadType = some codecType)
    (hclose : xs.IsChain fun a b => |b - a| < 2 ^ 29) :
    (∀ front x back, front ++ x :: back <+: xs →
      GivenNear codecType database rtpPayloadType front x back) ↔
      CutsFit codecType xs := by
  by_cases hscaled : factor codecType = (1, 1)
  · refine ⟨fun _ => cutsFit_of_den_eq_one ?_ ?_,
      fun _ _ _ _ _ => givenNear_unscaled hdatabase hscaled⟩
    · rw [hscaled]
      decide
    · rw [hscaled]
  have hden : 0 < (factor codecType).2 := by
    have := (scaled_factor hscaled).2
    omega
  have hfronts : ∀ l, l <+: xs → l.IsChain fun a b => |b - a| < 2 ^ 29 :=
    fun _ hl => List.IsChain.prefix hclose hl
  constructor
  · intro hnear
    have hprefixes : ∀ l, l <+: xs →
        |cutSum (factor codecType).1 (factor codecType).2 l| ≤
          (factor codecType).2 := by
      intro l hl
      induction l using List.reverseRecOn with
      | nil => exact hden.le
      | append_singleton front x ih =>
        have hfront := abs_cutSum_append_singleton_lt
          (factor codecType).1 hden front x
        have hle := ih ((List.prefix_append front [x]).trans hl)
        have hnone : |cutSum (factor codecType).1 (factor codecType).2 [x]| =
            0 := abs_zero
        exact ((givenNear_iff hdatabase hscaled (hfronts _ hl)
          (by omega) (by rw [hnone]; omega)).mp
          (hnear front x [] hl)).1
    refine ⟨hprefixes, ?_⟩
    rintro x l ⟨front, back, rfl⟩ hlast
    have hl : front ++ x :: l <+: front ++ x :: l ++ back :=
      List.prefix_append _ _
    have hfront := hprefixes (front ++ [x])
      ((prefix_append_cons front x l).trans hl)
    exact ((givenNear_iff hdatabase hscaled (hfronts _ hl) (by omega)
      (abs_cutSum_back_le hprefixes hl)).mp (hnear front x l hl)).2 hlast
  · intro hfit front x back hl
    have hfront := hfit.prefixes (front ++ [x])
      ((prefix_append_cons front x back).trans hl)
    refine (givenNear_iff hdatabase hscaled (hfronts _ hl) (by omega)
      (abs_cutSum_back_le hfit.prefixes hl)).mpr ⟨hfront, ?_⟩
    exact hfit.infixes x back ((List.suffix_append front _).isInfix.trans
      hl.isInfix)

theorem givenNear_g722 :
    GivenNear .kDecoderG722 (fun _ => some .kDecoderG722) 9 [0] 160 [320] :=
  have hfit : CutsFit .kDecoderG722 [0, 160, 320] :=
    cutsFit_of_den_eq_one (by decide) rfl
  (forall_givenNear_iff rfl (by decide)).mpr hfit [0] 160 [320]
    (List.prefix_refl _)

/-- Steps of one tick are all cut off. -/
theorem not_forall_givenNear :
    ¬∀ (codecType : NetEqDecoder) (database : DecoderDatabase)
      (rtpPayloadType : UInt8) (front : List ℤ) (x : ℤ) (back : List ℤ),
      database.getDecoderInfo rtpPayloadType = some codecType →
      (front ++ x :: back).Pairwise (fun a b => |b - a| < 2 ^ 29) →
      GivenNear codecType database rtpPayloadType front x back := by
  intro h
  obtain ⟨⟨e, heq, he⟩, -⟩ := h .kDecoderISACfb
    (fun _ => some .kDecoderISACfb) 104 [0, 1, 2] 3 [] rfl (by decide)
  have hzero : UInt32.ofInt 0 = UInt32.ofInt (0 + e) := heq
  change |3 * e - (3 - 0) * 2| ≤ 3 at he
  rw [abs_le] at he
  have := eq_of_ofInt_eq hzero (by rw [abs_lt]; omega)
  omega

end TimestampScaler

end WebrtcWinXp.NetEq
