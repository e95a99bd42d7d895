import WebrtcWinXp.Rtcp.FeedbackBlocks

/-!
# Picture ids in feedback

A picture id is written seven bits at a time.  `HandleRPSI` puts the groups
together again.
-/

namespace WebrtcWinXp.Rtcp

open Support

variable {pictureId : UInt64} {n : ℕ}

/-! ## Groups of seven bits -/

/-- The group that the byte at an index carries, of `n` groups. -/
def bitGroup (pictureId n i : ℕ) : ℕ := pictureId / 2 ^ (7 * (n - 1 - i)) % 2 ^ 7

theorem toNat_group (x : UInt8) : (x &&& 0x7f).toNat = x.toNat % 2 ^ 7 := by
  rw [UInt8.toNat_and]
  exact Nat.and_two_pow_sub_one_eq_mod _ 7

theorem toNat_shiftRight_bits (pictureId : UInt64) {k : ℕ} (hk : k ≤ 9) :
    (pictureId >>> UInt64.ofNat (7 * k)).toNat =
      pictureId.toNat / 2 ^ (7 * k) := by
  rw [UInt64.toNat_shiftRight, UInt64.toNat_ofNat', Nat.shiftRight_eq_div_pow,
    show 7 * k % 2 ^ 64 % 64 = 7 * k by omega]

namespace RTCPSender

theorem length_nativeBitString (hn : 0 < n) :
    (nativeBitString pictureId n).length = n := by
  rw [nativeBitString, List.length_append, List.length_map, List.length_range,
    List.length_singleton]
  omega

theorem nativeBitString_group (hn : n ≤ 9) {i : ℕ} (hi : i < n) :
    ((nativeBitString pictureId n).getD i 0 &&& 0x7f).toNat =
      bitGroup pictureId.toNat n i := by
  have hmark : ∀ x : UInt8, (0x80 ||| x) &&& 0x7f = x &&& 0x7f := by
    apply forall_uint8
    decide +kernel
  rw [nativeBitString, List.getD_eq_getElem?_getD, bitGroup]
  by_cases hlast : i < n - 1
  · rw [List.getElem?_append_left (by
        rw [List.length_map, List.length_range]
        exact hlast),
      List.getElem?_map, List.getElem?_range hlast, Option.map_some,
      Option.getD_some, hmark, toNat_group, UInt64.toNat_toUInt8,
      Nat.mul_comm, toNat_shiftRight_bits _ (by omega)]
    omega
  · have hi' : i - (n - 1) = 0 := by omega
    have hzero : n - 1 - i = 0 := by omega
    rw [List.getElem?_append_right (by
        rw [List.length_map, List.length_range]
        exact Nat.not_lt.mp hlast),
      List.length_map, List.length_range, hi', List.getElem?_cons_zero,
      Option.getD_some, toNat_group, UInt64.toNat_toUInt8, UInt64.toNat_and,
      hzero]
    have hand := Nat.and_two_pow_sub_one_eq_mod pictureId.toNat 7
    rw [show (0x7f : UInt64).toNat = 2 ^ 7 - 1 from rfl, hand]
    omega

theorem loop_countBits (hid : pictureId.toNat < 2 ^ 63) (fuel : ℕ) {k : ℕ}
    (hk : 0 < k) (hle : k ≤ 9) (hfuel : 10 ≤ k + fuel) :
    ∃ n, 0 < n ∧ n ≤ 9 ∧ pictureId.toNat < 2 ^ (7 * n) ∧
      loop (countBits pictureId) fuel (UInt64.ofNat (7 * k), k) =
        some (UInt64.ofNat (7 * n), n) := by
  induction fuel generalizing k with
  | zero => omega
  | succ fuel ih =>
    have hshift := toNat_shiftRight_bits pictureId hle
    rw [loop, countBits]
    by_cases hmore : pictureId >>> UInt64.ofNat (7 * k) > 0
    · have hlt : k < 9 := by
        rw [gt_iff_lt, UInt64.lt_iff_toNat_lt, hshift,
          show (0 : UInt64).toNat = 0 from rfl] at hmore
        by_contra hge
        rw [show k = 9 by omega, Nat.div_eq_of_lt hid] at hmore
        exact Nat.lt_irrefl 0 hmore
      have hnext : UInt64.ofNat (7 * k) + 7 = UInt64.ofNat (7 * (k + 1)) := by
        apply UInt64.toNat_inj.mp
        rw [UInt64.toNat_add, UInt64.toNat_ofNat', UInt64.toNat_ofNat',
          show (7 : UInt64).toNat = 7 from rfl]
        omega
      rw [if_pos hmore]
      dsimp only
      rw [hnext]
      exact ih (by omega) hlt (by omega)
    · refine ⟨k, hk, hle, ?_, ?_⟩
      · rw [gt_iff_lt, UInt64.lt_iff_toNat_lt, hshift,
          show (0 : UInt64).toNat = 0 from rfl, Nat.div_pos_iff] at hmore
        by_contra hge
        exact hmore ⟨Nat.two_pow_pos _, Nat.not_lt.mp hge⟩
      · rw [if_neg hmore]

end RTCPSender

theorem rpsiPictureId_groups {byte : ℤ → UInt8} {id : ℕ} (hn : 0 < n)
    (hid : id < 2 ^ 63) (hfits : id < 2 ^ (7 * n))
    (h : ∀ i < n, (byte (i : ℤ) &&& 0x7f).toNat = bitGroup id n i) :
    (rpsiPictureId byte n).toNat = id := by
  have hgroup : ∀ i < n, (byte (i : ℤ) &&& 0x7f).toUInt64.toNat =
      bitGroup id n i := by
    intro i hi
    rw [UInt8.toNat_toUInt64, h i hi]
  have hfold : ∀ j ≤ n - 1, ((List.range j).foldl (fun id (i : ℕ) =>
      (id + (byte i &&& 0x7f).toUInt64) <<< 7) (0 : UInt64)).toNat =
        id / 2 ^ (7 * (n - j)) * 2 ^ 7 := by
    intro j hj
    induction j with
    | zero =>
      rw [Nat.sub_zero, Nat.div_eq_of_lt hfits]
      rfl
    | succ j ih =>
      have hpow : id / 2 ^ (7 * (n - j)) =
          id / 2 ^ (7 * (n - (j + 1))) / 2 ^ 7 := by
        rw [Nat.div_div_eq_div_mul, ← Nat.pow_add]
        congr 2
        omega
      have hle : id / 2 ^ (7 * (n - (j + 1))) ≤ id / 2 ^ 7 :=
        Nat.div_le_div_left (Nat.pow_le_pow_right (by decide) (by omega))
          (Nat.two_pow_pos 7)
      rw [List.range_succ, List.foldl_append, List.foldl_cons,
        List.foldl_nil, UInt64.toNat_shiftLeft, UInt64.toNat_add,
        ih (by omega), hgroup j (by omega), bitGroup, hpow,
        show n - 1 - j = n - (j + 1) by omega,
        show (7 : UInt64).toNat % 64 = 7 from rfl, Nat.shiftLeft_eq]
      omega
  have hlast : ((n : ℤ) - 1) = ((n - 1 : ℕ) : ℤ) := by omega
  rw [rpsiPictureId, UInt64.toNat_add, hfold (n - 1) le_rfl, hlast,
    hgroup (n - 1) (by omega), bitGroup, Nat.sub_self,
    show n - (n - 1) = 1 by omega]
  omega

end WebrtcWinXp.Rtcp
