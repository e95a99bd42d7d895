import WebrtcWinXp.NetEq.DelayManager
import Mathlib.Algebra.Order.BigOperators.Group.List
import Mathlib.Data.List.GetD
import Mathlib.Tactic.Linarith

/-!
# The histogram is a distribution

An update multiplies all entries, rounding down, and adds what is missing to
the entry of the observed time.  At most 64 units are lost to the rounding, and
the correction loop gives them back.
-/

namespace WebrtcWinXp.NetEq

open Support

/-- A histogram in Q30. -/
structure Distribution (vector : List ℤ) : Prop where
  length_eq : vector.length = kMaxIat + 1
  nonneg : ∀ x ∈ vector, 0 ≤ x
  sum_eq : vector.sum = 2 ^ 30

theorem distribution_resetVector :
    Distribution (resetVector (kMaxIat + 1) 0x4002) :=
  ⟨by decide, by decide, by decide⟩

variable {vector v : List ℤ} {f n sum : ℤ}

def forget (f x : ℤ) : ℤ := x * f / 2 ^ 15

theorem forget_nonneg {x : ℤ} (hf : 0 ≤ f) (hx : 0 ≤ x) : 0 ≤ forget f x :=
  Int.ediv_nonneg (Int.mul_nonneg hx hf) (by decide)

theorem forget_le {x : ℤ} (hf : f ≤ 2 ^ 15) (hx : 0 ≤ x) : forget f x ≤ x := by
  have hmul : x * f ≤ x * 2 ^ 15 := Int.mul_le_mul_of_nonneg_left hf hx
  rw [forget]
  omega

theorem sum_forget (f : ℤ) (v : List ℤ) :
    f * v.sum ≤ 2 ^ 15 * (v.map (forget f)).sum + v.length * (2 ^ 15 - 1) ∧
      2 ^ 15 * (v.map (forget f)).sum ≤ f * v.sum := by
  induction v with
  | nil => simp
  | cons x v ih =>
    have hx : x * f ≤ 2 ^ 15 * forget f x + (2 ^ 15 - 1) ∧
        2 ^ 15 * forget f x ≤ x * f := by
      rw [forget]
      omega
    rw [List.map_cons, List.sum_cons, List.sum_cons, List.length_cons,
      Int.mul_add, Int.mul_comm f x]
    push_cast
    constructor
    · linarith [hx.1, ih.1]
    · linarith [hx.2, ih.2]

theorem forgetLoop_eq (hf : 0 ≤ f) (hf' : f ≤ 2 ^ 15) (hv : ∀ x ∈ v, 0 ≤ x)
    (hsum : 0 ≤ sum) (hle : sum + v.sum ≤ 2 ^ 30) :
    forgetLoop f v sum =
      some (v.map (forget f), sum + (v.map (forget f)).sum) := by
  induction v generalizing sum with
  | nil =>
    rw [forgetLoop, List.map_nil, List.sum_nil, Int.add_zero]
  | cons x v ih =>
    rw [List.forall_mem_cons] at hv
    rw [List.sum_cons] at hle
    have hrest : 0 ≤ v.sum := List.sum_nonneg hv.2
    have hnonneg := forget_nonneg hf hv.1
    have hforget := forget_le hf' hv.1
    have hfits : Fits (forget f x) := fits_of_bounds hnonneg (by omega)
    have hsumfits : Fits (sum + forget f x) :=
      fits_of_bounds (by omega) (by omega)
    rw [forgetLoop, ← forget, int32_of_fits hfits]
    simp only [Option.bind_eq_bind, Option.bind_some]
    rw [int32_of_fits hsumfits, Option.bind_some,
      ih hv.2 (by omega) (by omega), Option.bind_some, List.map_cons,
      List.sum_cons, Int.add_assoc]

theorem sum_set (v : List ℤ) {i : ℕ} (hi : i < v.length) (x : ℤ) :
    (v.set i x).sum = v.sum - v.getD i 0 + x := by
  induction v generalizing i with
  | nil => exact absurd hi (Nat.not_lt_zero _)
  | cons y v ih =>
    cases i with
    | zero =>
      rw [List.set_cons_zero, List.sum_cons, List.sum_cons,
        List.getD_cons_zero]
      omega
    | succ i =>
      rw [List.set_cons_succ, List.sum_cons, List.sum_cons,
        List.getD_cons_succ, ih (Nat.lt_of_succ_lt_succ hi)]
      omega

theorem sum_div_ge (hv : ∀ x ∈ v, 0 ≤ x) :
    v.sum ≤ 16 * (v.map (· / 2 ^ 4)).sum + 15 * v.length := by
  induction v with
  | nil => simp
  | cons x v ih =>
    rw [List.forall_mem_cons] at hv
    have hrest := ih hv.2
    rw [List.map_cons, List.sum_cons, List.sum_cons, List.length_cons,
      Nat.cast_succ]
    omega

theorem correctionLoop_eq (hv : ∀ x ∈ v, 0 ≤ x ∧ x ≤ 2 ^ 30) (hn : 0 ≤ n)
    (hn' : n ≤ 2 ^ 30) (hroom : n ≤ (v.map (· / 2 ^ 4)).sum) :
    ∃ w, correctionLoop 1 v (-n) = some (w, 0) ∧ w.length = v.length ∧
      (∀ x ∈ w, 0 ≤ x) ∧ w.sum = v.sum + n := by
  induction v generalizing n with
  | nil =>
    obtain rfl : n = 0 := le_antisymm hroom hn
    exact ⟨[], rfl, rfl, nofun, rfl⟩
  | cons x v ih =>
    rw [List.forall_mem_cons] at hv
    rw [List.map_cons, List.sum_cons] at hroom
    rw [correctionLoop]
    by_cases hzero : n = 0
    · subst hzero
      rw [if_pos Int.neg_zero]
      refine ⟨x :: v, rfl, rfl, ?_, (Int.add_zero _).symm⟩
      rw [List.forall_mem_cons]
      exact ⟨hv.1.1, fun y hy => (hv.2 y hy).1⟩
    · rw [if_neg (by omega), abs_neg, abs_of_nonneg hn, Int.one_mul]
      set c := min n (x / 2 ^ 4)
      have hc : 0 ≤ c ∧ c ≤ n ∧ c ≤ x / 2 ^ 4 ∧ (n - c = 0 ∨ c = x / 2 ^ 4) := by
        omega
      have hfits : Fits (x + c) := fits_of_bounds (by omega) (by omega)
      have hsumfits : Fits (-(n - c)) := ⟨by omega, by omega⟩
      have hrest : 0 ≤ (v.map (· / 2 ^ 4)).sum := by
        refine List.sum_nonneg ?_
        rw [List.forall_mem_map]
        exact fun y hy => Int.ediv_nonneg (hv.2 y hy).1 (by decide)
      obtain ⟨w, heq, hlength, hnonneg, hsum⟩ :=
        ih hv.2 (show 0 ≤ n - c by omega) (by omega) (by omega)
      have hneg : -n + c = -(n - c) := by omega
      dsimp only
      rw [hneg]
      simp only [int32_of_fits hfits, int32_of_fits hsumfits,
        Option.bind_eq_bind, Option.bind_some, heq]
      refine ⟨(x + c) :: w, rfl, ?_, ?_, ?_⟩
      · rw [List.length_cons, List.length_cons, hlength]
      · rw [List.forall_mem_cons]
        exact ⟨by omega, hnonneg⟩
      · rw [List.sum_cons, List.sum_cons, hsum]
        omega

variable {d : DelayManager} {i : ℕ}

theorem Distribution.correctedHistogram (h : Distribution d.iatVector)
    (hf : 0 ≤ d.iatFactor) (hf' : d.iatFactor ≤ 2 ^ 15) (hi : i ≤ kMaxIat) :
    ∃ w, d.correctedHistogram i = some (w, 0) ∧ Distribution w := by
  have hlength := h.length_eq
  have hsum := h.sum_eq
  rw [kMaxIat] at hi hlength
  obtain ⟨hlower, hupper⟩ := sum_forget d.iatFactor d.iatVector
  rw [hsum, hlength] at hlower
  rw [hsum] at hupper
  have hforgotten := forgetLoop_eq hf hf' h.nonneg le_rfl (by omega)
  set v := d.iatVector.map (forget d.iatFactor)
  have hv : ∀ x ∈ v, 0 ≤ x := by
    rw [List.forall_mem_map]
    exact fun x hx => forget_nonneg hf (h.nonneg x hx)
  have hi' : i < v.length := by
    rw [List.length_map]
    omega
  have hentry : 0 ≤ v.getD i 0 ∧ v.getD i 0 ≤ v.sum := by
    rw [List.getD_eq_getElem _ _ hi']
    exact ⟨hv _ (List.getElem_mem hi'),
      List.single_le_sum hv _ (List.getElem_mem hi')⟩
  set gain := (32768 - d.iatFactor) * 2 ^ 15 with hgain
  have hgainfits : Fits gain := fits_of_bounds (by omega) (by omega)
  have hentryfits : Fits (v.getD i 0 + gain) :=
    fits_of_bounds (by omega) (by omega)
  have hsumfits : Fits (v.sum + gain) := fits_of_bounds (by omega) (by omega)
  have hleftfits : Fits (v.sum + gain - 2 ^ 30) := ⟨by omega, by omega⟩
  rw [DelayManager.correctedHistogram, hforgotten, ← hgain, Int.zero_add]
  simp only [Option.bind_eq_bind, Option.bind_some, int32_of_fits hgainfits,
    int32_of_fits hentryfits, int32_of_fits hsumfits, int32_of_fits hleftfits]
  set w := v.set i (v.getD i 0 + gain) with hw
  have hwsum : w.sum = v.sum + gain := by
    rw [hw, sum_set v hi']
    omega
  have hwlength : w.length = 65 := by
    rw [hw, List.length_set, List.length_map, hlength]
  have hwnonneg : ∀ x ∈ w, 0 ≤ x := by
    intro x hx
    obtain hx | rfl := List.mem_or_eq_of_mem_set hx
    · exact hv x hx
    · omega
  by_cases hleft : v.sum + gain - 2 ^ 30 = 0
  · rw [if_neg (not_not.mpr hleft), hleft]
    exact ⟨w, rfl, hwlength, hwnonneg, by omega⟩
  · rw [if_pos hleft, if_neg (by omega)]
    have hroom := sum_div_ge hwnonneg
    rw [hwlength] at hroom
    obtain ⟨u, heq, hulength, hunonneg, husum⟩ := correctionLoop_eq
      (n := 2 ^ 30 - (v.sum + gain))
      (fun x hx => ⟨hwnonneg x hx, by
        have hle := List.single_le_sum hwnonneg x hx
        omega⟩) (by omega) (by omega) (show _ ≤ (w.map (· / 2 ^ 4)).sum by omega)
    have hneg : v.sum + gain - 2 ^ 30 = -(2 ^ 30 - (v.sum + gain)) := by omega
    rw [hneg]
    exact ⟨u, heq, hulength.trans hwlength, hunonneg, by omega⟩

theorem iatFactor_step (h : 0 ≤ f) (h' : f ≤ kIatFactor) :
    0 ≤ f + (kIatFactor - f + 3) / 2 ^ 2 ∧
      f + (kIatFactor - f + 3) / 2 ^ 2 ≤ kIatFactor := by
  rw [kIatFactor] at h' ⊢
  omega

/-- The place that `CalculateTargetLevel` finds. -/
theorem targetIndexLoop_eq (limit index : ℤ) (hne : v ≠ [])
    (hv : ∀ x ∈ v, 0 ≤ x) (hsum : v.sum ≤ sum) (hsum' : sum ≤ 2 ^ 30) :
    ∃ j, targetIndexLoop limit v index sum = some j ∧ index < j ∧
      j ≤ index + v.length := by
  induction v generalizing index sum with
  | nil => exact absurd rfl hne
  | cons x v ih =>
    rw [List.forall_mem_cons] at hv
    rw [List.sum_cons] at hsum
    have hrest : 0 ≤ v.sum := List.sum_nonneg hv.2
    have hfits : Fits (sum - x) := fits_of_bounds (by omega) (by omega)
    rw [targetIndexLoop, int32_of_fits hfits, List.length_cons]
    simp only [Option.bind_eq_bind, Option.bind_some]
    push_cast
    split
    · rename_i hnext
      obtain ⟨j, heq, hlt, hle⟩ := ih (index + 1) hnext.2 hv.2
        (show v.sum ≤ sum - x by omega) (by omega)
      exact ⟨j, heq, by omega, by omega⟩
    · exact ⟨index + 1, rfl, by omega, by omega⟩

end WebrtcWinXp.NetEq
