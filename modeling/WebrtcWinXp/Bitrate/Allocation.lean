import WebrtcWinXp.Bitrate.Controller

/-!
# Shares of the bitrate

What `OnNetworkChanged` gives to the observers.  Above their minimums they get
equal shares up to their limits, and what one of them cannot use is shared by
the ones behind it.
-/

namespace WebrtcWinXp.Bitrate

/-! ## Equal shares with limits -/

/-- Everyone gets the share up to a limit, and the ones behind share the rest
of it. -/
def shares : ℕ → List ℕ → List ℕ
  | _, [] => []
  | s, h :: hs => min h s :: shares (s + (s - h) / hs.length) hs

section

variable {s h : ℕ} {hs : List ℕ}

@[simp] theorem shares_nil (s : ℕ) : shares s [] = [] := rfl

@[simp] theorem shares_cons (s h : ℕ) (hs : List ℕ) :
    shares s (h :: hs) =
      min h s :: shares (s + (s - h) / hs.length) hs := rfl

theorem carried_le (s h k : ℕ) : (s + (s - h) / k) * k ≤ s * k + (s - h) := by
  rw [Nat.add_mul]
  exact Nat.add_le_add_left (Nat.div_mul_le_self _ _) _

end

abbrev Observers := List (ℕ × BitrateConfiguration)

/-- What an observer can use beyond its minimum. -/
def BitrateConfiguration.room (config : BitrateConfiguration) : ℕ :=
  config.maxBitrate.toNat - config.minBitrate.toNat

def total (f : BitrateConfiguration → UInt32) (observers : Observers) : ℕ :=
  (observers.map fun o => (f o.2).toNat).sum

def given (notifications : List Notification) : ℕ :=
  (notifications.map fun n => n.bitrate.toNat).sum

/-- There are observers, with minimums and maximums whose sums fit. -/
structure Fits (observers : Observers) : Prop where
  nonempty : observers ≠ []
  min_pos : ∀ o ∈ observers, 0 < o.2.minBitrate.toNat
  min_le_max : ∀ o ∈ observers, o.2.minBitrate.toNat ≤ o.2.maxBitrate.toNat
  sum_lt : total BitrateConfiguration.maxBitrate observers < 2 ^ 32

/-- Each observer is called once, in some order, with a rate that is right. -/
def CallsEach (right : BitrateConfiguration → ℕ → Prop) (observers : Observers)
    (fractionLoss : UInt8) (rtt : UInt32) (notifications : List Notification) :
    Prop :=
  ∃ order : Observers, order.Perm observers ∧
    List.Forall₂ (fun o n => n.observer = o.1 ∧ n.fractionLoss = fractionLoss ∧
      n.rtt = rtt ∧ right o.2 n.bitrate.toNat) order notifications

section

variable {observers : Observers} {f : BitrateConfiguration → UInt32}
  {fractionLoss : UInt8} {rtt : UInt32}

@[simp] theorem total_nil (f : BitrateConfiguration → UInt32) :
    total f [] = 0 := rfl

@[simp] theorem total_cons (f : BitrateConfiguration → UInt32)
    (o : ℕ × BitrateConfiguration) (observers : Observers) :
    total f (o :: observers) = (f o.2).toNat + total f observers := rfl

@[simp] theorem given_cons (n : Notification)
    (notifications : List Notification) :
    given (n :: notifications) = n.bitrate.toNat + given notifications := rfl

theorem total_perm {order : Observers} (h : order.Perm observers) :
    total f order = total f observers :=
  (h.map _).sum_eq

theorem toNat_sumBitrates (h : total f observers < 2 ^ 32) :
    (sumBitrates f observers).toNat = total f observers := by
  induction observers with
  | nil => rfl
  | cons o observers ih =>
    rw [total_cons] at h ⊢
    rw [sumBitrates, List.map_cons, List.sum_cons, UInt32.toNat_add]
    have hrest := ih (by omega)
    rw [sumBitrates] at hrest
    rw [hrest]
    exact Nat.mod_eq_of_lt h

theorem Fits.total_min_le (h : Fits observers) :
    total BitrateConfiguration.minBitrate observers ≤
      total BitrateConfiguration.maxBitrate observers :=
  List.sum_le_sum fun o ho => h.min_le_max o ho

theorem Fits.length_le (h : Fits observers) :
    observers.length ≤ total BitrateConfiguration.minBitrate observers := by
  have := List.card_nsmul_le_sum
    (observers.map fun o => o.2.minBitrate.toNat) 1 fun b hb => by
      obtain ⟨o, ho, rfl⟩ := List.mem_map.mp hb
      exact h.min_pos o ho
  rwa [nsmul_eq_mul, Nat.cast_id, Nat.mul_one, List.length_map] at this

theorem perm_sortByMax (observers : Observers) :
    (sortByMax observers).Perm observers :=
  List.perm_insertionSort _ _

/-! ## Above the minimums -/

variable (observers fractionLoss rtt) in
theorem normalRateLoop_cons (o : ℕ × BitrateConfiguration) (s : UInt32)
    (hle : o.2.minBitrate.toNat ≤ o.2.maxBitrate.toNat)
    (hlength : observers.length < 2 ^ 32)
    (hfits : o.2.minBitrate.toNat + s.toNat * (observers.length + 1) < 2 ^ 32) :
    ∃ rate s' : UInt32,
      normalRateLoop fractionLoss rtt s (o :: observers) =
        ⟨o.1, rate, fractionLoss, rtt⟩ ::
          normalRateLoop fractionLoss rtt s' observers ∧
      rate.toNat = o.2.minBitrate.toNat + min o.2.room s.toNat ∧
      s'.toNat = s.toNat + (s.toNat - o.2.room) / observers.length := by
  have hmul : s.toNat * (observers.length + 1) =
      s.toNat * observers.length + s.toNat := Nat.mul_succ ..
  have hallowance : (o.2.minBitrate + s).toNat =
      o.2.minBitrate.toNat + s.toNat := by
    rw [UInt32.toNat_add]
    exact Nat.mod_eq_of_lt (by omega)
  rw [normalRateLoop]
  by_cases hmax : o.2.maxBitrate < o.2.minBitrate + s
  · have hlt : o.2.maxBitrate.toNat < o.2.minBitrate.toNat + s.toNat := by
      rw [← hallowance]
      exact UInt32.lt_iff_toNat_lt.mp hmax
    refine ⟨_, _, if_pos hmax, ?_, ?_⟩
    · rw [BitrateConfiguration.room]
      omega
    · have hremainder : (o.2.minBitrate + s - o.2.maxBitrate).toNat =
          s.toNat - o.2.room := by
        rw [UInt32.toNat_sub_of_le _ _ (UInt32.le_of_lt hmax), hallowance,
          BitrateConfiguration.room]
        omega
      by_cases hzero : observers.length = 0
      · rw [if_neg (not_not.mpr hzero), hzero, Nat.div_zero, Nat.add_zero]
      · have hcarried := carried_le s.toNat o.2.room observers.length
        have hgrow : s.toNat + (s.toNat - o.2.room) / observers.length ≤
            (s.toNat + (s.toNat - o.2.room) / observers.length) *
              observers.length :=
          Nat.le_mul_of_pos_right _ (Nat.pos_of_ne_zero hzero)
        rw [if_pos hzero, UInt32.toNat_add, UInt32.toNat_div, hremainder,
          UInt32.toNat_ofNat_of_lt' hlength]
        exact Nat.mod_eq_of_lt (by omega)
  · have hge : o.2.minBitrate.toNat + s.toNat ≤ o.2.maxBitrate.toNat := by
      rw [← hallowance]
      exact UInt32.le_iff_toNat_le.mp (UInt32.not_lt.mp hmax)
    refine ⟨_, s, if_neg hmax, ?_, ?_⟩
    · rw [hallowance, BitrateConfiguration.room]
      omega
    · rw [Nat.sub_eq_zero_of_le (by rw [BitrateConfiguration.room]; omega),
        Nat.zero_div, Nat.add_zero]

/-- The rates between the minimum and the maximum. -/
def Between (config : BitrateConfiguration) (rate : ℕ) : Prop :=
  config.minBitrate.toNat ≤ rate ∧ rate ≤ config.maxBitrate.toNat

variable (observers fractionLoss rtt) in
theorem normalRateLoop_spec (s : UInt32)
    (hle : ∀ o ∈ observers, o.2.minBitrate.toNat ≤ o.2.maxBitrate.toNat)
    (hlength : observers.length < 2 ^ 32)
    (hfits : total BitrateConfiguration.minBitrate observers +
      s.toNat * observers.length < 2 ^ 32) :
    List.Forall₂ (fun o n => n.observer = o.1 ∧ n.fractionLoss = fractionLoss ∧
        n.rtt = rtt ∧ Between o.2 n.bitrate.toNat)
      observers (normalRateLoop fractionLoss rtt s observers) ∧
    given (normalRateLoop fractionLoss rtt s observers) =
      total BitrateConfiguration.minBitrate observers +
        (shares s.toNat (observers.map fun o => o.2.room)).sum := by
  induction observers generalizing s with
  | nil => exact ⟨.nil, rfl⟩
  | cons o observers ih =>
    rw [List.length_cons] at hlength hfits
    rw [total_cons] at hfits
    have hmin := hle o List.mem_cons_self
    obtain ⟨rate, s', heq, hrate, hs'⟩ := normalRateLoop_cons observers
      fractionLoss rtt o s hmin (by omega) (by omega)
    have hcarried := carried_le s.toNat o.2.room observers.length
    have hmul : s.toNat * (observers.length + 1) =
        s.toNat * observers.length + s.toNat := Nat.mul_succ ..
    have hrest := ih s' (fun p hp => hle p (List.mem_cons_of_mem o hp))
      (by omega) (by rw [hs']; omega)
    rw [heq]
    refine ⟨.cons ⟨rfl, rfl, rfl, ?_⟩ hrest.1, ?_⟩
    · rw [Between, hrate, BitrateConfiguration.room]
      omega
    · rw [given_cons, hrest.2, hrate, total_cons, List.map_cons, shares_cons,
        List.sum_cons, List.length_map, hs']
      omega

def firstShare (observers : Observers) (bitrate : ℕ) : ℕ :=
  (bitrate - total BitrateConfiguration.minBitrate observers) /
    observers.length

/-- The rooms of the observers, in the order of the maximums. -/
def rooms (observers : Observers) : List ℕ :=
  (sortByMax observers).map fun o => o.2.room

variable (fractionLoss rtt) in
theorem Fits.normalRateAllocation (h : Fits observers) {bitrate : UInt32}
    (hnormal : total BitrateConfiguration.minBitrate observers <
      bitrate.toNat) :
    let told := normalRateAllocation observers bitrate fractionLoss rtt
      (sumBitrates BitrateConfiguration.minBitrate observers)
    CallsEach Between observers fractionLoss rtt told ∧
      given told = total BitrateConfiguration.minBitrate observers +
        (shares (firstShare observers bitrate.toNat)
          (rooms observers)).sum := by
  intro told
  have hperm := perm_sortByMax observers
  have hminmax := h.total_min_le
  have hlength := h.length_le
  have hsum := h.sum_lt
  have hbitrate := bitrate.toNat_lt
  have hmin : (sumBitrates BitrateConfiguration.minBitrate observers).toNat =
      total BitrateConfiguration.minBitrate observers :=
    toNat_sumBitrates (by omega)
  have hshare : ((bitrate -
      sumBitrates BitrateConfiguration.minBitrate observers) /
        .ofNat observers.length).toNat =
        firstShare observers bitrate.toNat := by
    rw [UInt32.toNat_div, UInt32.toNat_sub_of_le _ _ (by
      rw [UInt32.le_iff_toNat_le]
      omega), hmin, UInt32.toNat_ofNat_of_lt' (show _ < 2 ^ 32 by omega),
      firstShare]
  have hfits : firstShare observers bitrate.toNat * observers.length ≤
      bitrate.toNat - total BitrateConfiguration.minBitrate observers :=
    Nat.div_mul_le_self _ _
  have hspec := normalRateLoop_spec (sortByMax observers) fractionLoss rtt
    ((bitrate - sumBitrates BitrateConfiguration.minBitrate observers) /
      .ofNat observers.length)
    (fun o ho => h.min_le_max o (hperm.mem_iff.mp ho))
    (by rw [hperm.length_eq]; omega)
    (by rw [hperm.length_eq, hshare, total_perm hperm]; omega)
  rw [hshare, total_perm hperm] at hspec
  exact ⟨⟨sortByMax observers, hperm, hspec.1⟩, hspec.2⟩

/-- Nothing is lost if the rooms grow with the maximums, or if the last
observer can use what the equal shares of the others leave. -/
def Conserves (observers : Observers) (bitrate : ℕ) : Prop :=
  (rooms observers).Pairwise (· ≤ ·) ∨
    min bitrate (total BitrateConfiguration.maxBitrate observers) ≤
      total BitrateConfiguration.minBitrate observers +
        (((rooms observers).dropLast.map fun room =>
            min room (firstShare observers bitrate)).sum +
          (rooms observers).getLastD 0)

end

end WebrtcWinXp.Bitrate
