import WebrtcWinXp.Rtcp.FeedbackBlocks
import WebrtcWinXp.Rtcp.FeedbackReads

/-!
# Rates in feedback

A bitrate is written as a mantissa and an exponent.  What is read back is the
bitrate without the bits that do not fit in the mantissa, unless the search
finds no exponent.
-/

namespace WebrtcWinXp.Rtcp

variable {w e rate : ℕ}

theorem div_two_pow_lt (h : rate ≤ (2 ^ w - 1) * 2 ^ e) :
    rate / 2 ^ e < 2 ^ w := by
  have hpos : 0 < 2 ^ w := Nat.two_pow_pos w
  have hle : rate / 2 ^ e ≤ 2 ^ w - 1 :=
    Nat.div_le_of_le_mul (by rwa [Nat.mul_comm])
  omega

theorem sub_le_div_mul (hw : 0 < w) (he : e ≤ w)
    (hleast : e = 0 ∨ (2 ^ w - 1) * 2 ^ (e - 1) < rate) :
    rate - rate / 2 ^ (w - 1) ≤ rate / 2 ^ e * 2 ^ e := by
  obtain rfl | hleast := hleast
  · rw [Nat.pow_zero, Nat.div_one, Nat.mul_one]
    exact Nat.sub_le _ _
  obtain ⟨v, rfl⟩ : ∃ v, w = v + 1 := ⟨w - 1, by omega⟩
  cases e with
  | zero =>
    rw [Nat.pow_zero, Nat.div_one, Nat.mul_one]
    exact Nat.sub_le _ _
  | succ e =>
    rw [Nat.add_sub_cancel] at hleast ⊢
    have hpow : 2 ^ e ≤ 2 ^ v := Nat.pow_le_pow_right (by decide) (by omega)
    have hprod : (2 ^ (v + 1) - 1) * 2 ^ e = 2 ^ v * 2 ^ (e + 1) - 2 ^ e := by
      rw [Nat.sub_mul, Nat.one_mul, pow_succ, pow_succ]
      ring_nf
    have hshare : 2 ^ (e + 1) - 1 ≤ rate / 2 ^ v := by
      rw [Nat.le_div_iff_mul_le (Nat.two_pow_pos v), Nat.sub_mul,
        Nat.one_mul, Nat.mul_comm]
      omega
    have hmod := Nat.mod_lt rate (Nat.two_pow_pos (e + 1))
    have hdiv := Nat.div_add_mod' rate (2 ^ (e + 1))
    omega

/-- The greatest rate whose mantissa and exponent fit in 32 bits. -/
def maxRate (w : ℕ) : ℕ := (2 ^ w - 1) * 2 ^ (32 - w)

namespace RTCPSender

variable {maxMantissa bitrate : UInt32}

/-- The mask has `w` bits, and no shift by the search makes it greater than the
greatest rate. -/
structure MantissaMask (maxMantissa : UInt32) (w : ℕ) : Prop where
  width : 16 ≤ w ∧ w < 32
  toNat : maxMantissa.toNat = 2 ^ w - 1
  shifted : ∀ i < 64, (maxMantissa <<< UInt32.ofNat i).toNat ≤ maxRate w

theorem mantissaMask_remb : MantissaMask 262143 18 :=
  ⟨by decide, rfl, by decide⟩

theorem mantissaMask_tmmbr : MantissaMask 131071 17 :=
  ⟨by decide, rfl, by decide⟩

theorem MantissaMask.toNat_shiftLeft (h : MantissaMask maxMantissa w) {i : ℕ}
    (hi : i ≤ 32 - w) :
    (maxMantissa <<< UInt32.ofNat i).toNat = (2 ^ w - 1) * 2 ^ i := by
  have hwidth := h.width
  have hshift : (UInt32.ofNat i).toNat = i := by
    rw [UInt32.toNat_ofNat']
    omega
  have hle : (2 ^ w - 1) * 2 ^ i < 2 ^ 32 := by
    calc
      (2 ^ w - 1) * 2 ^ i < 2 ^ w * 2 ^ i :=
        Nat.mul_lt_mul_of_pos_right
          (Nat.sub_lt (Nat.two_pow_pos w) Nat.one_pos) (Nat.two_pow_pos i)
      _ = 2 ^ (w + i) := (Nat.pow_add 2 w i).symm
      _ ≤ 2 ^ 32 := Nat.pow_le_pow_right (by decide) (by omega)
  rw [Parser.toNat_shiftLeft_iff.mpr (by rwa [hshift, h.toNat]), hshift, h.toNat]

theorem findExponent_of_le (h : MantissaMask maxMantissa w)
    (hle : bitrate.toNat ≤ maxRate w) :
    ∃ e ≤ 32 - w, findExponent maxMantissa bitrate = UInt32.ofNat e ∧
      bitrate.toNat ≤ (2 ^ w - 1) * 2 ^ e ∧
      (e = 0 ∨ (2 ^ w - 1) * 2 ^ (e - 1) < bitrate.toNat) := by
  have hex : ∃ e, bitrate.toNat ≤ (2 ^ w - 1) * 2 ^ e := ⟨32 - w, hle⟩
  have hwidth := h.width
  have hmin : Nat.find hex ≤ 32 - w := Nat.find_min' hex hle
  refine ⟨Nat.find hex, hmin, ?_, Nat.find_spec hex, ?_⟩
  · have hfind : ((List.range 64).find? fun i : ℕ =>
        decide (bitrate ≤ maxMantissa <<< UInt32.ofNat i)) =
          some (Nat.find hex) := by
      rw [List.find?_range_eq_some]
      refine ⟨?_, List.mem_range.mpr (by omega), ?_⟩
      · rw [decide_eq_true_eq, UInt32.le_iff_toNat_le,
          h.toNat_shiftLeft hmin]
        exact Nat.find_spec hex
      · intro j hj
        have hnot := Nat.find_min hex hj
        rw [Bool.not_eq_true', decide_eq_false_iff_not,
          UInt32.le_iff_toNat_le, h.toNat_shiftLeft (by omega)]
        exact hnot
    rw [findExponent, List.find?_map]
    exact congrArg (fun o => (Option.map UInt32.ofNat o).getD 0) hfind
  · by_cases hzero : Nat.find hex = 0
    · exact .inl hzero
    · exact .inr (Nat.not_le.mp (Nat.find_min hex (by omega)))

theorem findExponent_of_lt (h : MantissaMask maxMantissa w)
    (hlt : maxRate w < bitrate.toNat) :
    findExponent maxMantissa bitrate = 0 := by
  have hfind : ((List.range 64).map UInt32.ofNat).find? (fun i =>
      decide (bitrate ≤ maxMantissa <<< i)) = none := by
    rw [List.find?_eq_none]
    intro i hi
    obtain ⟨j, hj, rfl⟩ := List.mem_map.mp hi
    have hle := h.shifted j (List.mem_range.mp hj)
    rw [decide_eq_true_eq, UInt32.le_iff_toNat_le]
    omega
  rw [findExponent, hfind]
  rfl

theorem toNat_shiftRight_exponent (bitrate : UInt32) (he : e < 32) :
    (bitrate >>> UInt32.ofNat e).toNat = bitrate.toNat / 2 ^ e := by
  rw [UInt32.toNat_shiftRight, UInt32.toNat_ofNat', Nat.shiftRight_eq_div_pow,
    show e % 2 ^ 32 % 32 = e by omega]

variable {b : Buffer} {i : ℕ}

theorem exists_findExponent (h : MantissaMask maxMantissa w)
    (bitrate : UInt32) :
    ∃ e ≤ 32 - w, findExponent maxMantissa bitrate = UInt32.ofNat e := by
  by_cases hle : bitrate.toNat ≤ maxRate w
  · obtain ⟨e, he, hfind, -⟩ := findExponent_of_le h hle
    exact ⟨e, he, hfind⟩
  · exact ⟨0, Nat.zero_le _, findExponent_of_lt h (Nat.not_le.mp hle)⟩

theorem toNat_firstByte {exponent mantissa : UInt32} {n : ℕ} (hn : n < 32) :
    (((exponent <<< 2) + ((mantissa >>> UInt32.ofNat n) &&& 0x03)).toUInt8).toNat =
      (4 * exponent.toNat + mantissa.toNat / 2 ^ n % 4) % 256 := by
  have hand : ((mantissa >>> UInt32.ofNat n) &&& 0x03).toNat =
      mantissa.toNat / 2 ^ n % 4 := by
    rw [UInt32.toNat_and, toNat_shiftRight_exponent _ hn]
    exact Nat.and_two_pow_sub_one_eq_mod _ 2
  rw [UInt32.toNat_toUInt8, UInt32.toNat_add, UInt32.toNat_shiftLeft, hand,
    show (2 : UInt32).toNat % 32 = 2 from rfl, Nat.shiftLeft_eq]
  omega

theorem rembRate_readBack (he : findExponent 262143 bitrate = UInt32.ofNat e)
    (hle : e ≤ 14) (h : b.Holds (i + 1) (rembRate bitrate)) :
    Parser.rembExponent b i = e ∧
      Parser.rembMantissa b i = bitrate.toNat / 2 ^ e % 2 ^ 18 := by
  have hexp : (UInt32.ofNat e).toNat = e := by
    rw [UInt32.toNat_ofNat']
    omega
  have hmantissa := toNat_shiftRight_exponent bitrate
    (show e < 32 by omega)
  obtain ⟨hfirst, hmid, hlast, -⟩ := h
  rw [he] at hfirst hmid hlast
  have hbyte := congrArg UInt8.toNat hfirst
  rw [show (16 : UInt32) = UInt32.ofNat 16 from rfl,
    toNat_firstByte (by decide), hexp, hmantissa] at hbyte
  have hbyte' := congrArg UInt8.toNat hmid
  rw [UInt32.toNat_toUInt8, show (8 : UInt32) = UInt32.ofNat 8 from rfl,
    toNat_shiftRight_exponent _ (by decide), hmantissa] at hbyte'
  have hbyte'' := congrArg UInt8.toNat hlast
  rw [UInt32.toNat_toUInt8, hmantissa] at hbyte''
  rw [Parser.rembExponent, Parser.rembMantissa, hbyte, hbyte', hbyte'']
  generalize bitrate.toNat / 2 ^ e = m
  constructor <;> omega

/-- A rate that lost at most the share of its last bit. -/
def Close (n rate decoded : ℕ) : Prop :=
  decoded ≤ rate ∧ rate - rate / 2 ^ n ≤ decoded

theorem ofNat_exponent_inj {d : ℕ} (hd : d < 32) (he : e < 32)
    (h : UInt32.ofNat d = UInt32.ofNat e) : d = e := by
  have hnat := congrArg UInt32.toNat h
  rw [UInt32.toNat_ofNat', UInt32.toNat_ofNat'] at hnat
  omega

theorem maxRate_ge (hw : 16 ≤ w ∧ w < 32) : 2 ^ 32 - 2 ^ 16 ≤ maxRate w := by
  have hprod : 2 ^ w * 2 ^ (32 - w) = 2 ^ 32 := by
    rw [← Nat.pow_add]
    congr 1
    omega
  have hle : 2 ^ (32 - w) ≤ 2 ^ 16 :=
    Nat.pow_le_pow_right (by decide) (by omega)
  rw [maxRate, Nat.sub_mul, Nat.one_mul, hprod]
  omega

theorem close_iff (h : MantissaMask maxMantissa w)
    (he : findExponent maxMantissa bitrate = UInt32.ofNat e)
    (hle : e ≤ 32 - w) :
    Close (w - 1) bitrate.toNat
        (bitrate.toNat / 2 ^ e % 2 ^ w * 2 ^ e) ↔
      bitrate.toNat ≤ maxRate w := by
  have hwidth := h.width
  by_cases hmax : bitrate.toNat ≤ maxRate w
  · obtain ⟨d, hd, hfind, hfits, hleast⟩ := findExponent_of_le h hmax
    have heq : d = e :=
      ofNat_exponent_inj (by omega) (by omega) (hfind.symm.trans he)
    subst heq
    rw [Nat.mod_eq_of_lt (div_two_pow_lt hfits)]
    exact iff_of_true ⟨Nat.div_mul_le_self _ _,
      sub_le_div_mul (by omega) (by omega) hleast⟩ hmax
  · refine iff_of_false ?_ hmax
    rintro ⟨-, hlost⟩
    have hzero : 0 = e := ofNat_exponent_inj (by omega) (by omega)
      ((findExponent_of_lt h (Nat.not_le.mp hmax)).symm.trans he)
    subst hzero
    have hge := maxRate_ge hwidth
    have hmod := Nat.mod_lt bitrate.toNat (Nat.two_pow_pos w)
    have hpow : 2 ^ w ≤ 2 ^ 31 :=
      Nat.pow_le_pow_right (by decide) (by omega)
    have hshare : bitrate.toNat / 2 ^ (w - 1) ≤ bitrate.toNat / 2 ^ 15 :=
      Nat.div_le_div_left (Nat.pow_le_pow_right (by decide) (by omega))
        (Nat.two_pow_pos 15)
    have hlt := bitrate.toNat_lt
    rw [Nat.pow_zero, Nat.div_one, Nat.mul_one] at hlost
    omega

theorem rembRate_close {rate : ℕ} (h : b.Holds (i + 1) (rembRate bitrate))
    (hrate : rate = Parser.rembMantissa b i * 2 ^ Parser.rembExponent b i ↔
      Parser.rembMantissa b i * 2 ^ Parser.rembExponent b i < 2 ^ 32) :
    Close 17 bitrate.toNat rate ↔ bitrate.toNat ≤ maxRate 18 := by
  obtain ⟨e, hle, he⟩ := exists_findExponent mantissaMask_remb bitrate
  obtain ⟨hexp, hmantissa⟩ := rembRate_readBack he hle h
  rw [hexp, hmantissa] at hrate
  have hlt : bitrate.toNat / 2 ^ e % 2 ^ 18 * 2 ^ e < 2 ^ 32 := by
    calc
      bitrate.toNat / 2 ^ e % 2 ^ 18 * 2 ^ e < 2 ^ 18 * 2 ^ e :=
        Nat.mul_lt_mul_of_pos_right (Nat.mod_lt _ (by decide))
          (Nat.two_pow_pos e)
      _ ≤ 2 ^ 18 * 2 ^ 14 :=
        Nat.mul_le_mul_left _ (Nat.pow_le_pow_right (by decide) hle)
      _ = 2 ^ 32 := by decide
  rw [hrate.mpr hlt]
  exact close_iff mantissaMask_remb he hle

/-! ## TMMBR and TMMBN -/

def tmmbrExponent (b : Buffer) (i : ℕ) : ℕ := (b.data i).toNat / 4

def tmmbrMantissa (b : Buffer) (i : ℕ) : ℕ :=
  (b.data i).toNat % 4 * 2 ^ 15 + (b.data (i + 1)).toNat * 2 ^ 7 +
    (b.data (i + 2)).toNat / 2

theorem toNat_highBits (x : UInt8) :
    ((x >>> 1) &&& 0x7f).toUInt32.toNat = x.toNat / 2 := by
  have hlt := x.toNat_lt
  rw [UInt8.toNat_toUInt32, UInt8.toNat_and, UInt8.toNat_shiftRight,
    show (0x7f : UInt8).toNat = 2 ^ 7 - 1 from rfl,
    Nat.and_two_pow_sub_one_eq_mod,
    show (1 : UInt8).toNat % 8 = 1 from rfl, Nat.shiftRight_eq_div_pow]
  omega

theorem bitRateAndOverhead_rate
    (h : tmmbrMantissa b i * 2 ^ tmmbrExponent b i < 2 ^ 32) :
    (Parser.bitRateAndOverhead b i).1.toNat =
      tmmbrMantissa b i * 2 ^ tmmbrExponent b i / 1000 := by
  have hexp : ((b.data i >>> 2 &&& 0x3f).toUInt32).toNat =
      tmmbrExponent b i := Parser.toNat_exponentBits _
  have hmantissa : (((b.data i &&& 0x03).toUInt32 <<< 15) +
      ((b.data (i + 1)).toUInt32 <<< 7) +
      ((b.data (i + 2) >>> 1) &&& 0x7f).toUInt32).toNat =
        tmmbrMantissa b i := by
    have hmid := (b.data (i + 1)).toNat_lt
    have hlow := (b.data (i + 2)).toNat_lt
    rw [UInt32.toNat_add, UInt32.toNat_add, UInt32.toNat_shiftLeft,
      UInt32.toNat_shiftLeft, Parser.toNat_lowBits, toNat_highBits,
      UInt8.toNat_toUInt32, show (15 : UInt32).toNat % 32 = 15 from rfl,
      show (7 : UInt32).toNat % 32 = 7 from rfl, Nat.shiftLeft_eq,
      Nat.shiftLeft_eq, tmmbrMantissa]
    omega
  rw [← hexp, ← hmantissa] at h ⊢
  rw [Parser.bitRateAndOverhead, UInt32.toNat_div,
    Parser.toNat_shiftLeft_iff.mpr h]
  rfl

theorem bitRateAndOverhead_overhead (b : Buffer) (i : ℕ) :
    (Parser.bitRateAndOverhead b i).2.toNat =
      (b.data (i + 2)).toNat % 2 * 2 ^ 8 + (b.data (i + 3)).toNat := by
  have hlow : ((b.data (i + 2) &&& 0x01).toUInt32).toNat =
      (b.data (i + 2)).toNat % 2 := by
    rw [UInt8.toNat_toUInt32, UInt8.toNat_and]
    exact Nat.and_two_pow_sub_one_eq_mod _ 1
  have hlast := (b.data (i + 3)).toNat_lt
  rw [Parser.bitRateAndOverhead, UInt32.toNat_add, UInt32.toNat_shiftLeft,
    hlow, UInt8.toNat_toUInt32, show (8 : UInt32).toNat % 32 = 8 from rfl,
    Nat.shiftLeft_eq]
  omega

theorem tmmbrRate_readBack {tmmbr packetOh : UInt32}
    (he : findExponent 131071 (tmmbr * 1000) = UInt32.ofNat e) (hle : e ≤ 15)
    (h : b.Holds i (tmmbrRate tmmbr packetOh)) :
    tmmbrExponent b i = e ∧
      tmmbrMantissa b i = (tmmbr * 1000).toNat / 2 ^ e % 2 ^ 17 ∧
      (b.data (i + 2)).toNat % 2 = packetOh.toNat / 2 ^ 8 % 2 ∧
      (b.data (i + 3)).toNat = packetOh.toNat % 2 ^ 8 := by
  have hexp : (UInt32.ofNat e).toNat = e := by
    rw [UInt32.toNat_ofNat']
    omega
  have hmantissa := toNat_shiftRight_exponent (tmmbr * 1000)
    (show e < 32 by omega)
  obtain ⟨hfirst, hmid, hlow, hlast, -⟩ := h
  rw [he] at hfirst hmid hlow
  have hbyte := congrArg UInt8.toNat hfirst
  rw [show (15 : UInt32) = UInt32.ofNat 15 from rfl,
    toNat_firstByte (by decide), hexp, hmantissa] at hbyte
  have hbyte' := congrArg UInt8.toNat hmid
  rw [UInt32.toNat_toUInt8, show (7 : UInt32) = UInt32.ofNat 7 from rfl,
    toNat_shiftRight_exponent _ (by decide), hmantissa] at hbyte'
  have hand : ((packetOh >>> 8) &&& 0x01).toNat =
      packetOh.toNat / 2 ^ 8 % 2 := by
    rw [UInt32.toNat_and, show (8 : UInt32) = UInt32.ofNat 8 from rfl,
      toNat_shiftRight_exponent _ (by decide)]
    exact Nat.and_two_pow_sub_one_eq_mod _ 1
  have hbyte'' := congrArg UInt8.toNat hlow
  rw [UInt32.toNat_toUInt8, UInt32.toNat_add, UInt32.toNat_shiftLeft, hand,
    hmantissa, show (1 : UInt32).toNat % 32 = 1 from rfl,
    Nat.shiftLeft_eq] at hbyte''
  have hbyteOh := congrArg UInt8.toNat hlast
  rw [UInt32.toNat_toUInt8] at hbyteOh
  rw [tmmbrExponent, tmmbrMantissa, hbyte, hbyte', hbyte'']
  have hdiv := Nat.div_le_self (tmmbr * 1000).toNat (2 ^ e)
  have hlt := (tmmbr * 1000).toNat_lt
  generalize (tmmbr * 1000).toNat / 2 ^ e = m at *
  refine ⟨by omega, by omega, by omega, hbyteOh⟩

/-- A rate in kbit/s that lost at most the share of its last bit, rounded
down. -/
def CloseKbps (rate decoded : ℕ) : Prop :=
  decoded ≤ rate ∧ rate - 1 - rate / 2 ^ 16 ≤ decoded

/-- The greatest rate in kbit/s for which an exponent is found. -/
def maxKbps : ℕ := maxRate 17 / 1000

theorem tmmbrRate_close {tmmbr packetOh : UInt32}
    (hrate : tmmbr.toNat * 1000 < 2 ^ 32) (hoh : packetOh.toNat < 2 ^ 9)
    (h : b.Holds i (tmmbrRate tmmbr packetOh)) :
    (Parser.bitRateAndOverhead b i).2 = packetOh ∧
      (CloseKbps tmmbr.toNat (Parser.bitRateAndOverhead b i).1.toNat ↔
        tmmbr.toNat ≤ maxKbps) := by
  obtain ⟨e, hle, he⟩ :=
    exists_findExponent mantissaMask_tmmbr (tmmbr * 1000)
  obtain ⟨hexp, hmantissa, hhigh, hlast⟩ := tmmbrRate_readBack he hle h
  have hbits : (tmmbr * 1000).toNat = tmmbr.toNat * 1000 := by
    rw [UInt32.toNat_mul]
    exact Nat.mod_eq_of_lt hrate
  refine ⟨?_, ?_⟩
  · apply UInt32.toNat_inj.mp
    rw [bitRateAndOverhead_overhead, hhigh, hlast]
    omega
  · have hlt : (tmmbr * 1000).toNat / 2 ^ e % 2 ^ 17 * 2 ^ e < 2 ^ 32 := by
      calc
        (tmmbr * 1000).toNat / 2 ^ e % 2 ^ 17 * 2 ^ e < 2 ^ 17 * 2 ^ e :=
          Nat.mul_lt_mul_of_pos_right (Nat.mod_lt _ (by decide))
            (Nat.two_pow_pos e)
        _ ≤ 2 ^ 17 * 2 ^ 15 :=
          Nat.mul_le_mul_left _ (Nat.pow_le_pow_right (by decide) hle)
        _ = 2 ^ 32 := by decide
    have hmax : tmmbr.toNat ≤ maxKbps ↔
        tmmbr.toNat * 1000 ≤ maxRate 17 := by
      rw [maxKbps, Nat.le_div_iff_mul_le (by decide)]
    rw [bitRateAndOverhead_rate (by rw [hexp, hmantissa]; exact hlt), hexp,
      hmantissa, hmax, CloseKbps]
    by_cases hle' : tmmbr.toNat * 1000 ≤ maxRate 17
    · refine iff_of_true ?_ hle'
      obtain ⟨habove, hbelow⟩ := (close_iff mantissaMask_tmmbr he hle).mpr
        (hbits.trans_le hle')
      rw [hbits] at habove hbelow ⊢
      generalize tmmbr.toNat * 1000 / 2 ^ e % 2 ^ 17 * 2 ^ e = d at *
      omega
    · refine iff_of_false ?_ hle'
      have hzero : 0 = e := ofNat_exponent_inj (by omega) (by omega)
        ((findExponent_of_lt mantissaMask_tmmbr
          (by rw [hbits]; exact Nat.not_le.mp hle')).symm.trans he)
      subst hzero
      have hge : 4294934528 ≤ maxRate 17 := by decide
      rw [Nat.pow_zero, Nat.div_one, Nat.mul_one]
      omega

end RTCPSender

end WebrtcWinXp.Rtcp
