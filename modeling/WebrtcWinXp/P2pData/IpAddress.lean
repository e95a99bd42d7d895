import WebrtcWinXp.Support.CString

/-!
# Valid IP addresses

`IPStrIsValid` of `defaults.cc`, with which `CreateP2PEnvironment` checks the
address of its server, against the addresses that its comment describes.
-/

namespace WebrtcWinXp.P2pData

open Support

/-! ## The check -/

/-- The regular expression `^[1-9]\d*$`. -/
def isPositiveNumber : Str → Bool
  | [] => false
  | c :: s => c.isDigit && c ≠ '0' && s.all Char.isDigit

/-- `regex_match` with `^-?[1-9]\d*$`. -/
def isNumber : Str → Bool
  | '-' :: s => isPositiveNumber s
  | s => isPositiveNumber s

def countScope (number low up : ℤ) : Bool :=
  number ≥ low && number ≤ up

/-- The loop of `IPStrIsValid`: the numbers that it has read, and the rest of
the string. -/
def readNumbers (vector : List ℤ) (temp : Str) : List ℤ × Str :=
  match h : temp.dropWhile (· ≠ '.') with
  | [] => (vector, temp)
  | _ :: rest =>
    if vector.length = 3 then (vector, temp)
    else
      let count := temp.takeWhile (· ≠ '.')
      if !isNumber count then (vector, temp)
      else readNumbers (vector ++ [fromString count]) rest
termination_by temp.length
decreasing_by
  have hlength := (List.dropWhile_suffix (· ≠ '.') (l := temp)).length_le
  rw [h, List.length_cons] at hlength
  omega

/-- `IPStrIsValid` of the characters before the terminating zero, or of a null
pointer. -/
def ipStrIsValid (ipstr : Option Str) : Bool :=
  match ipstr with
  | none => false
  | some temp =>
    let (vector, temp) := readNumbers [] temp
    if !temp.isEmpty && vector.length = 3 then
      if isNumber temp then
        match vector ++ [fromString temp] with
        | [a, b, c, d] =>
          countScope a 1 254 && countScope b 0 255 && countScope c 0 255 &&
            countScope d 0 254 &&
            (a ≠ 127 && b ≠ 0 && c ≠ 0 && d ≠ 1)
        | _ => false
      else false
    else false

/-- Four decimal numbers with dots between them. -/
def dotted (a b c d : ℕ) : Str :=
  Nat.toDigits 10 a ++ '.' :: (Nat.toDigits 10 b ++ '.' ::
    (Nat.toDigits 10 c ++ '.' :: Nat.toDigits 10 d))

/-- The first number is not 0, 127 or 255, and the last is not 255. -/
def Usable (s : Str) : Prop :=
  ∃ a b c d, s = dotted a b c d ∧ 1 ≤ a ∧ a ≤ 254 ∧ a ≠ 127 ∧ b ≤ 255 ∧
    c ≤ 255 ∧ d ≤ 254

/-- No inner number is 0, and the last is neither 0 nor 1. -/
def PlainOctets (s : Str) : Prop :=
  ∀ a b c d, s = dotted a b c d → b ≠ 0 ∧ c ≠ 0 ∧ d ≠ 0 ∧ d ≠ 1

theorem isPositiveNumber_iff {s : Str} :
    isPositiveNumber s ↔ ∃ n, 0 < n ∧ s = Nat.toDigits 10 n := by
  constructor
  · intro h
    cases s with
    | nil => cases h
    | cons c s =>
      simp only [isPositiveNumber, Bool.and_eq_true, decide_eq_true_eq,
        List.all_eq_true] at h
      exact exists_toDigits_of_isDigit
        (List.forall_mem_cons.mpr ⟨h.1.1, h.2⟩) h.1.2
  · rintro ⟨n, hn, rfl⟩
    obtain ⟨c, s, heq, hne⟩ := exists_toDigits_eq_cons hn
    have hdigits : ∀ d ∈ c :: s, d.isDigit := fun d hd =>
      isDigit_of_mem_toDigits (heq ▸ hd)
    obtain ⟨hc, hs⟩ := List.forall_mem_cons.mp hdigits
    rw [heq]
    simp only [isPositiveNumber, Bool.and_eq_true, decide_eq_true_eq,
      List.all_eq_true]
    exact ⟨⟨hc, hne⟩, hs⟩

theorem isNumber_iff {s : Str} : isNumber s ↔ ∃ n ≠ 0, s = intToString n := by
  constructor
  · intro h
    unfold isNumber at h
    split at h
    · obtain ⟨n, hn, rfl⟩ := isPositiveNumber_iff.mp h
      refine ⟨-n, by omega, ?_⟩
      rw [intToString, if_pos (by omega), Int.natAbs_neg, Int.natAbs_natCast]
    · obtain ⟨n, hn, rfl⟩ := isPositiveNumber_iff.mp h
      refine ⟨n, by omega, ?_⟩
      rw [intToString, if_neg (by omega), Int.natAbs_natCast]
  · rintro ⟨n, hn, rfl⟩
    have hpositive : isPositiveNumber (Nat.toDigits 10 n.natAbs) :=
      isPositiveNumber_iff.mpr ⟨_, Int.natAbs_pos.mpr hn, rfl⟩
    rw [intToString]
    split
    · exact hpositive
    · unfold isNumber
      split
      · next s heq =>
          have hminus : ('-' : Char).isDigit := isDigit_of_mem_toDigits
            (heq ▸ List.mem_cons_self)
          cases hminus
      · exact hpositive

theorem dot_not_mem_intToString (n : ℤ) : '.' ∉ intToString n := by
  have hdigits : '.' ∉ Nat.toDigits 10 n.natAbs := by
    intro hmem
    have hdot : ('.' : Char).isDigit := isDigit_of_mem_toDigits hmem
    cases hdot
  rw [intToString]
  split
  · simp [hdigits]
  · exact hdigits

theorem countScope_clampInt {n low up : ℤ} (hlow : intMin < low)
    (hup : up < intMax) : countScope (clampInt n) low up ↔ low ≤ n ∧ n ≤ up := by
  simp only [countScope, Bool.and_eq_true, decide_eq_true_eq, ge_iff_le,
    clampInt, le_max_iff, max_le_iff, le_min_iff, min_le_iff]
  omega

def followedByDots (numbers : List ℤ) : Str :=
  numbers.flatMap fun n => intToString n ++ ['.']

theorem readNumbers_of_no_dot {vector : List ℤ} {temp : Str}
    (h : '.' ∉ temp) : readNumbers vector temp = (vector, temp) := by
  have hdrop : temp.dropWhile (· ≠ '.') = [] := by
    rw [List.dropWhile_eq_nil_iff]
    intro c hc
    simpa using ne_of_mem_of_not_mem hc h
  rw [readNumbers]
  split
  · rfl
  · next heq => rw [hdrop] at heq; cases heq

theorem readNumbers_number {vector : List ℤ} {n : ℤ} {rest : Str}
    (hlength : vector.length ≠ 3) (hn : n ≠ 0) :
    readNumbers vector (intToString n ++ '.' :: rest) =
      readNumbers (vector ++ [clampInt n]) rest := by
  have hplain : ∀ c ∈ intToString n, decide (c ≠ '.') := by
    intro c hc
    simpa using ne_of_mem_of_not_mem hc (dot_not_mem_intToString n)
  have hdrop : (intToString n ++ '.' :: rest).dropWhile (· ≠ '.') =
      '.' :: rest := by
    rw [List.dropWhile_append_of_pos hplain]
    simp
  have htake : (intToString n ++ '.' :: rest).takeWhile (· ≠ '.') =
      intToString n := by
    rw [List.takeWhile_append_of_pos hplain]
    simp
  rw [readNumbers]
  split
  · next heq => rw [hdrop] at heq; cases heq
  · next heq =>
      rw [hdrop] at heq
      cases heq
      dsimp only
      rw [if_neg hlength, htake, isNumber_iff.mpr ⟨n, hn, rfl⟩,
        fromString_intToString_eq_clampInt]
      rfl

theorem eq_of_dropWhile_eq_cons {temp rest : Str} {c : Char}
    (h : temp.dropWhile (· ≠ '.') = c :: rest) :
    temp = temp.takeWhile (· ≠ '.') ++ '.' :: rest := by
  have hne : temp.dropWhile (· ≠ '.') ≠ [] := by
    rw [h]
    exact List.cons_ne_nil _ _
  have hc : c = '.' := by
    have hhead := List.head_dropWhile_not (· ≠ '.') hne
    simp only [h, List.head_cons] at hhead
    simpa using hhead
  rw [hc] at h
  rw [← h, List.takeWhile_append_dropWhile]

theorem exists_numbers (vector : List ℤ) (temp : Str) :
    ∃ numbers, (∀ n ∈ numbers, n ≠ 0) ∧
      (readNumbers vector temp).1 = vector ++ numbers.map clampInt ∧
      temp = followedByDots numbers ++ (readNumbers vector temp).2 := by
  induction hlength : temp.length using Nat.strong_induction_on
    generalizing vector temp with
  | h length ih =>
    have hstop : ∃ numbers : List ℤ, (∀ n ∈ numbers, n ≠ 0) ∧
        vector = vector ++ numbers.map clampInt ∧
        temp = followedByDots numbers ++ temp :=
      ⟨[], fun n hn => absurd hn List.not_mem_nil, by simp, rfl⟩
    rw [readNumbers]
    split
    · exact hstop
    next c rest hdrop =>
    split
    · exact hstop
    dsimp only
    split
    · exact hstop
    next hnumber =>
    rw [Bool.not_eq_true', Bool.not_eq_false] at hnumber
    obtain ⟨n, hn, hcount⟩ := isNumber_iff.mp hnumber
    have hsplit := eq_of_dropWhile_eq_cons hdrop
    rw [hcount] at hsplit
    have hlt : rest.length < length := by
      rw [← hlength, hsplit, List.length_append, List.length_cons]
      exact Nat.lt_add_left _ (Nat.lt_succ_self _)
    obtain ⟨numbers, hne, hvector, hrest⟩ := ih _ hlt
      (vector ++ [fromString (intToString n)]) _ rfl
    rw [hcount]
    refine ⟨n :: numbers, List.forall_mem_cons.mpr ⟨hn, hne⟩, ?_, ?_⟩
    · rw [hvector, fromString_intToString_eq_clampInt, List.map_cons,
        List.append_assoc, List.singleton_append]
    · rw [followedByDots, List.flatMap_cons, ← followedByDots,
        List.append_assoc, List.append_assoc, ← hrest]
      exact hsplit

/-! ## What is accepted -/

theorem intToString_natCast (n : ℕ) : intToString n = Nat.toDigits 10 n := by
  rw [intToString, if_neg (by omega), Int.natAbs_natCast]

theorem dotted_eq (a b c d : ℕ) : dotted a b c d =
    intToString a ++ '.' :: (intToString b ++ '.' ::
      (intToString c ++ '.' :: intToString d)) := by
  simp only [intToString_natCast, dotted]

theorem ipStrIsValid_of_dotted {a b c d : ℕ} (ha : 1 ≤ a ∧ a ≤ 254)
    (ha' : a ≠ 127) (hb : 1 ≤ b ∧ b ≤ 255) (hc : 1 ≤ c ∧ c ≤ 255)
    (hd : 2 ≤ d ∧ d ≤ 254) : ipStrIsValid (some (dotted a b c d)) := by
  have hread : readNumbers [] (dotted a b c d) =
      ([clampInt a, clampInt b, clampInt c], intToString d) := by
    rw [dotted_eq, readNumbers_number (by simp) (by omega),
      readNumbers_number (by simp) (by omega),
      readNumbers_number (by simp) (by omega),
      readNumbers_of_no_dot (dot_not_mem_intToString _)]
    rfl
  have hempty : intToString d ≠ [] := by
    rw [intToString_natCast]
    exact Nat.toDigits_ne_nil
  have hfits : ∀ n : ℕ, n ≤ 255 → clampInt n = n := fun n hn =>
    clampInt_of_mem (by simp only [intMin]; omega) (by simp only [intMax]; omega)
  simp only [ipStrIsValid, hread]
  rw [if_pos (by simp [hempty]), if_pos (isNumber_iff.mpr ⟨d, by omega, rfl⟩)]
  simp only [fromString_intToString_eq_clampInt, List.cons_append,
    List.nil_append, hfits a (by omega), hfits b (by omega), hfits c (by omega),
    hfits d (by omega), countScope, Bool.and_eq_true, decide_eq_true_eq]
  omega

theorem ipStrIsValid_iff (s : Str) :
    ipStrIsValid (some s) ↔ ∃ a b c d, s = dotted a b c d ∧
      (1 ≤ a ∧ a ≤ 254) ∧ a ≠ 127 ∧ (1 ≤ b ∧ b ≤ 255) ∧ (1 ≤ c ∧ c ≤ 255) ∧
        2 ≤ d ∧ d ≤ 254 := by
  constructor
  · intro h
    obtain ⟨numbers, hne, hvector, hs⟩ := exists_numbers [] s
    simp only [ipStrIsValid, List.nil_append] at h hvector
    split at h
    swap
    · cases h
    next hthree =>
    split at h
    swap
    · cases h
    next hlast =>
    obtain ⟨d, hd, hrest⟩ := isNumber_iff.mp hlast
    rw [hvector, hrest, fromString_intToString_eq_clampInt] at h
    rw [hrest] at hs
    have hlength : numbers.length = 3 := by
      simp only [Bool.and_eq_true, decide_eq_true_eq] at hthree
      rw [← hthree.2, hvector, List.length_map]
    obtain ⟨a, b, c, rfl⟩ := List.length_eq_three.mp hlength
    simp only [List.map_cons, List.map_nil, List.cons_append, List.nil_append,
      Bool.and_eq_true, decide_eq_true_eq] at h
    obtain ⟨⟨⟨⟨ha, hb⟩, hc⟩, hd'⟩, ⟨⟨ha127, hb0⟩, hc0⟩, hd1⟩ := h
    have hinside : ∀ {n low up : ℤ}, countScope (clampInt n) low up →
        0 ≤ low → up ≤ 255 → low ≤ n ∧ n ≤ up ∧ clampInt n = n := by
      intro n low up hscope hlow hup
      have hbounds := (countScope_clampInt (by simp only [intMin]; omega)
        (by simp only [intMax]; omega)).mp hscope
      exact ⟨hbounds.1, hbounds.2, clampInt_of_mem (by simp only [intMin]; omega)
        (by simp only [intMax]; omega)⟩
    obtain ⟨ha_low, ha_up, ha_eq⟩ := hinside ha (by decide) (by decide)
    obtain ⟨hb_low, hb_up, hb_eq⟩ := hinside hb (by decide) (by decide)
    obtain ⟨hc_low, hc_up, hc_eq⟩ := hinside hc (by decide) (by decide)
    obtain ⟨hd_low, hd_up, hd_eq⟩ := hinside hd' (by decide) (by decide)
    rw [ha_eq] at ha127
    rw [hd_eq] at hd1
    obtain ⟨a, rfl⟩ := Int.eq_ofNat_of_zero_le (show 0 ≤ a by omega)
    obtain ⟨b, rfl⟩ := Int.eq_ofNat_of_zero_le (show 0 ≤ b by omega)
    obtain ⟨c, rfl⟩ := Int.eq_ofNat_of_zero_le (show 0 ≤ c by omega)
    obtain ⟨d, rfl⟩ := Int.eq_ofNat_of_zero_le (show 0 ≤ d by omega)
    have hnonzero : b ≠ 0 ∧ c ≠ 0 := by
      constructor
      · exact_mod_cast hne b (by simp)
      · exact_mod_cast hne c (by simp)
    refine ⟨a, b, c, d, ?_, ?_⟩
    · rw [hs, dotted_eq]
      simp [followedByDots]
    · omega
  · rintro ⟨a, b, c, d, rfl, ha, ha', hb, hc, hd⟩
    exact ipStrIsValid_of_dotted ha ha' hb hc hd

theorem dotted_injective {a b c d a' b' c' d' : ℕ}
    (h : dotted a b c d = dotted a' b' c' d') :
    a = a' ∧ b = b' ∧ c = c' ∧ d = d' := by
  have hdot : ∀ n : ℕ, '.' ∉ Nat.toDigits 10 n := fun n => by
    rw [← intToString_natCast]
    exact dot_not_mem_intToString n
  have hinj : ∀ {m n : ℕ}, Nat.toDigits 10 m = Nat.toDigits 10 n → m = n := by
    intro m n heq
    have hread := congrArg readDigits heq
    rw [readDigits_toDigits, readDigits_toDigits] at hread
    exact_mod_cast hread
  have hfirst : ∀ {m n : ℕ} {s t : Str}, Nat.toDigits 10 m ++ '.' :: s =
      Nat.toDigits 10 n ++ '.' :: t → m = n ∧ s = t := by
    intro m n s t heq
    have htake := congrArg (List.takeWhile (· ≠ '.')) heq
    have hplain : ∀ n : ℕ, ∀ c ∈ Nat.toDigits 10 n, decide (c ≠ '.') := by
      intro n c hc
      simpa using ne_of_mem_of_not_mem hc (hdot n)
    rw [List.takeWhile_append_of_pos (hplain m),
      List.takeWhile_append_of_pos (hplain n)] at htake
    obtain rfl := hinj (by simpa using htake)
    exact ⟨rfl, by simpa using heq⟩
  obtain ⟨ha, h⟩ := hfirst h
  obtain ⟨hb, h⟩ := hfirst h
  obtain ⟨hc, h⟩ := hfirst h
  exact ⟨ha, hb, hc, hinj h⟩

/-- The check accepts exactly the usable addresses among the strings that are
no usable address with an inner 0 or with 0 or 1 at the end. -/
theorem ipStrIsValid_exact_iff (s : Str) :
    (ipStrIsValid (some s) ↔ Usable s) ↔ (Usable s → PlainOctets s) := by
  rw [ipStrIsValid_iff]
  constructor
  · intro h husable a b c d hs
    obtain ⟨a', b', c', d', hs', -, -, hb, hc, hd⟩ := h.mpr husable
    obtain ⟨rfl, rfl, rfl, rfl⟩ := dotted_injective (hs ▸ hs')
    omega
  · intro hplain
    constructor
    · rintro ⟨a, b, c, d, rfl, ha, ha', hb, hc, hd⟩
      exact ⟨a, b, c, d, rfl, ha.1, ha.2, ha', hb.2, hc.2, hd.2⟩
    · intro husable
      obtain ⟨a, b, c, d, hs, ha, ha', hne, hb, hc, hd⟩ := husable
      have hnonzero := hplain ⟨a, b, c, d, hs, ha, ha', hne, hb, hc, hd⟩
        a b c d hs
      exact ⟨a, b, c, d, hs, ⟨ha, ha'⟩, hne, by omega, by omega, by omega⟩

/-- The usable addresses 10.0.0.5 and 192.168.10.1 are refused. -/
theorem not_ipStrIsValid_usable :
    ["10.0.0.5".toList, "192.168.10.1".toList].Forall fun s =>
      ¬(ipStrIsValid (some s) ↔ Usable s) := by
  have hrefused : ∀ a b c d, b = 0 ∨ d = 1 →
      ¬ipStrIsValid (some (dotted a b c d)) := by
    intro a b c d hzero hvalid
    obtain ⟨a', b', c', d', hs, -, -, hb, -, hd⟩ :=
      (ipStrIsValid_iff _).mp hvalid
    obtain ⟨rfl, rfl, rfl, rfl⟩ := dotted_injective hs
    omega
  constructor
  · intro h
    exact hrefused 10 0 0 5 (.inl rfl) (h.mpr ⟨10, 0, 0, 5, rfl, by decide⟩)
  · intro h
    exact hrefused 192 168 10 1 (.inr rfl)
      (h.mpr ⟨192, 168, 10, 1, rfl, by decide⟩)

end WebrtcWinXp.P2pData
