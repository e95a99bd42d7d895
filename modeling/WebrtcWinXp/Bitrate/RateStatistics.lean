import WebrtcWinXp.Support.Int32
import WebrtcWinXp.Support.Transition

/-!
# Rates over a window

`RateStatistics` of the remote bitrate estimator, a ring of buckets of one
millisecond.  An access outside the array, and a sum that does not fit an
`int`, have no result.
-/

namespace WebrtcWinXp.Bitrate

open Support

/-- The scale of the rates is left out. -/
structure RateStatistics where
  numBuckets : ℤ
  buckets : List UInt32
  accumulatedCount : UInt32
  oldestTime : ℤ
  oldestIndex : ℕ

namespace RateStatistics

/-- The constructor.  An array of negative size cannot be created. -/
def new (windowSizeMs : UInt32) : Option RateStatistics :=
  let numBuckets := (windowSizeMs + 1).toInt32.toInt
  if numBuckets < 0 then none
  else some ⟨numBuckets, List.replicate numBuckets.toNat 0, 0, 0, 0⟩

variable (s : RateStatistics)

/-- The oldest bucket, with its count, is cleared. -/
def clearOldest (count : UInt32) : RateStatistics :=
  { s with
    accumulatedCount := s.accumulatedCount - count
    buckets := s.buckets.set s.oldestIndex 0
    oldestIndex := if s.numBuckets ≤ s.oldestIndex + 1 then 0
      else s.oldestIndex + 1
    oldestTime := s.oldestTime + 1 }

/-- The loop of `EraseOld` over some milliseconds. -/
def eraseLoop : ℕ → RateStatistics → Option RateStatistics
  | 0, s => some s
  | k + 1, s =>
    match s.buckets[s.oldestIndex]? with
    | none => none
    | some count =>
      if (s.clearOldest count).accumulatedCount = 0 then
        some (s.clearOldest count)
      else eraseLoop k (s.clearOldest count)

def eraseOld (now : ℤ) : Option RateStatistics :=
  let newOldestTime := now - s.numBuckets + 1
  if newOldestTime ≤ s.oldestTime then some s
  else
    (eraseLoop (newOldestTime - s.oldestTime).toNat s).map fun s =>
      { s with oldestTime := newOldestTime }

def bucketIndex (now : ℤ) : Option ℕ := do
  let index ← int32 (s.oldestIndex + (now - s.oldestTime))
  let index := if s.numBuckets ≤ index then index - s.numBuckets else index
  if index < 0 then none else some index.toNat

def addCount (count : UInt32) (now : ℤ) : Option RateStatistics := do
  let index ← s.bucketIndex now
  let bucket ← s.buckets[index]?
  some
    { s with
      buckets := s.buckets.set index (bucket + count)
      accumulatedCount := s.accumulatedCount + count }

def ignores (now : ℤ) : Bool := now < s.oldestTime

def update (count : UInt32) (now : ℤ) : Option RateStatistics :=
  if s.ignores now then some s
  else (s.eraseOld now).bind fun s => s.addCount count now

/-- `Rate`, which reads the accumulated count. -/
def rate (now : ℤ) : Option RateStatistics := s.eraseOld now

end RateStatistics

inductive RateCall where
  | update (count : UInt32) (now : ℕ)
  | rate (now : ℕ)

/-- The statistics with the counts that were accepted and the latest time. -/
structure Meter where
  stats : RateStatistics
  accepted : List (ℕ × UInt32)
  latest : ℕ

/-- The sum of the accepted counts at some times. -/
def counts (accepted : List (ℕ × UInt32)) (p : ℤ → Bool) : ℕ :=
  ((accepted.filter fun a => p a.1).map fun a => a.2.toNat).sum

namespace Meter

variable (m : Meter)

def step : RateCall → Option Meter
  | .update count now => do
      let stats ← m.stats.update count now
      some
        ⟨stats,
          if m.stats.ignores now then m.accepted
          else (now, count) :: m.accepted,
          max m.latest now⟩
  | .rate now => do
      let stats ← m.stats.rate now
      some ⟨stats, m.accepted, max m.latest now⟩

/-- The counts in the window that ends at the latest time. -/
def windowSum (windowSizeMs : UInt32) : ℕ :=
  counts m.accepted fun t => m.latest < t + windowSizeMs.toNat + 1

/-- The window sum still fits when a count is added. -/
def FitsWith (windowSizeMs : UInt32) : RateCall → Prop
  | .update count now =>
    counts ((now, count) :: m.accepted) (fun t =>
      (max m.latest now : ℕ) < t + windowSizeMs.toNat + 1) < 2 ^ 32
  | .rate _ => True

/-- The plain sum over the window: the count is that sum, only updates from
before the window are ignored, and every call has a result. -/
structure Plain (windowSizeMs : UInt32) (m : Meter) : Prop where
  accumulated : m.stats.accumulatedCount.toNat = m.windowSum windowSizeMs
  ignored : ∀ now : ℕ, m.stats.ignores now = true →
    now + windowSizeMs.toNat + 1 ≤ m.latest
  inside : ∀ call, m.FitsWith windowSizeMs call → (m.step call).isSome

/-- The states of all runs with window sums that fit. -/
def Runs (windowSizeMs : UInt32) : Meter → Prop :=
  ReachableVia
    (fun m => ∃ stats ∈ RateStatistics.new windowSizeMs, m = ⟨stats, [], 0⟩)
    step (fun m call => m.FitsWith windowSizeMs call)

end Meter

section

variable {accepted : List (ℕ × UInt32)} {p q : ℤ → Bool}

@[simp] theorem counts_nil (p : ℤ → Bool) : counts [] p = 0 := rfl

@[simp] theorem counts_cons (a : ℕ × UInt32) (accepted : List (ℕ × UInt32))
    (p : ℤ → Bool) :
    counts (a :: accepted) p =
      (if p a.1 then a.2.toNat else 0) + counts accepted p := by
  rw [counts, List.filter_cons]
  by_cases hp : p a.1 = true
  · rw [if_pos hp, if_pos hp]
    rfl
  · rw [if_neg hp, if_neg hp, Nat.zero_add]
    rfl

theorem counts_congr (h : ∀ a ∈ accepted, p a.1 = q a.1) :
    counts accepted p = counts accepted q := by
  rw [counts, counts, List.filter_congr h]

theorem counts_le (h : ∀ a ∈ accepted, p a.1 = true → q a.1 = true) :
    counts accepted p ≤ counts accepted q := by
  induction accepted with
  | nil => rfl
  | cons a accepted ih =>
    have hrest := ih fun b hb => h b (List.mem_cons_of_mem a hb)
    have hhead := h a List.mem_cons_self
    rw [counts_cons, counts_cons]
    by_cases hp : p a.1 = true
    · rw [if_pos hp, if_pos (hhead hp)]
      omega
    · rw [if_neg hp]
      omega

theorem counts_eq_zero (h : ∀ a ∈ accepted, p a.1 = false) :
    counts accepted p = 0 := by
  rw [counts, List.filter_eq_nil_iff.mpr fun a ha => by simp [h a ha]]
  rfl

theorem counts_split (accepted : List (ℕ × UInt32)) (t : ℤ) :
    counts accepted (fun u => t ≤ u) =
      counts accepted (fun u => u = t) +
        counts accepted (fun u => t + 1 ≤ u) := by
  induction accepted with
  | nil => rfl
  | cons a accepted ih =>
    simp only [counts_cons, decide_eq_true_eq]
    grind

end

/-! ## The ring of buckets -/

namespace RateStatistics

/-- The bucket `k` milliseconds behind the oldest one. -/
def slot (n i k : ℕ) : ℕ := if n ≤ i + k then i + k - n else i + k

/-- The buckets hold what was accepted in their milliseconds. -/
structure Windowed (n : ℕ) (accepted : List (ℕ × UInt32))
    (s : RateStatistics) : Prop where
  numBuckets : s.numBuckets = n
  length : s.buckets.length = n
  index_lt : s.oldestIndex < n
  cell : ∀ k < n, ∃ v, s.buckets[slot n s.oldestIndex k]? = some v ∧
    v.toNat = counts accepted fun t => t = s.oldestTime + k
  total : s.accumulatedCount.toNat = counts accepted fun t => s.oldestTime ≤ t
  before : ∀ a ∈ accepted, (a.1 : ℤ) < s.oldestTime + n

variable {n k : ℕ} {accepted : List (ℕ × UInt32)} {s : RateStatistics}

theorem Windowed.clearOldest (h : Windowed n accepted s) :
    ∃ count, s.buckets[s.oldestIndex]? = some count ∧
      Windowed n accepted (s.clearOldest count) := by
  obtain ⟨hnum, hlength, hindex, hcell, htotal, hbefore⟩ := h
  obtain ⟨count, hcount, hvalue⟩ := hcell 0 (by omega)
  have hfirst : slot n s.oldestIndex 0 = s.oldestIndex := by
    rw [slot]
    grind
  have hsplit := counts_split accepted s.oldestTime
  simp only [Nat.cast_zero, Int.add_zero] at hvalue
  rw [hfirst] at hcount
  refine ⟨count, hcount, hnum, ?_, ?_, ?_, ?_, ?_⟩
  · rw [RateStatistics.clearOldest, List.length_set, hlength]
  · rw [RateStatistics.clearOldest, hnum]
    grind
  · intro k hk
    have hslot : slot n (s.clearOldest count).oldestIndex k =
        if k + 1 < n then slot n s.oldestIndex (k + 1) else s.oldestIndex := by
      rw [RateStatistics.clearOldest, hnum]
      grind [slot]
    rw [hslot]
    by_cases hlast : k + 1 < n
    · obtain ⟨v, hv, hvalue⟩ := hcell (k + 1) hlast
      have hne : s.oldestIndex ≠ slot n s.oldestIndex (k + 1) := by
        rw [slot]
        grind
      refine ⟨v, ?_, ?_⟩
      · rw [if_pos hlast, RateStatistics.clearOldest,
          List.getElem?_set_ne hne, hv]
      · rw [hvalue, RateStatistics.clearOldest]
        congr 1
        funext t
        grind
    · refine ⟨0, ?_, ?_⟩
      · rw [if_neg hlast, RateStatistics.clearOldest,
          List.getElem?_set_self (by omega)]
      · symm
        refine counts_eq_zero fun a ha => decide_eq_false fun heq => ?_
        have := hbefore a ha
        rw [RateStatistics.clearOldest] at heq
        dsimp only at heq
        omega
  · have hle : count ≤ s.accumulatedCount := by
      rw [UInt32.le_iff_toNat_le]
      omega
    rw [RateStatistics.clearOldest, UInt32.toNat_sub_of_le _ _ hle]
    dsimp only
    omega
  · intro a ha
    have := hbefore a ha
    rw [RateStatistics.clearOldest]
    dsimp only
    omega

theorem Windowed.skip (h : Windowed n accepted s)
    (hzero : s.accumulatedCount = 0) {t : ℤ} (ht : s.oldestTime ≤ t) :
    Windowed n accepted { s with oldestTime := t } := by
  have htotal := h.total
  rw [hzero, UInt32.toNat_zero] at htotal
  have hnone : ∀ p : ℤ → Bool, (∀ u, p u = true → s.oldestTime ≤ u) →
      counts accepted p = 0 := by
    intro p hp
    have hle : counts accepted p ≤
        counts accepted fun u => s.oldestTime ≤ u :=
      counts_le fun a _ ha => decide_eq_true (hp _ ha)
    omega
  refine ⟨h.numBuckets, h.length, h.index_lt, ?_, ?_, ?_⟩
  · intro k hk
    obtain ⟨v, hv, hvalue⟩ := h.cell k hk
    refine ⟨v, hv, ?_⟩
    rw [hvalue, hnone, hnone]
    · intro u hu
      have := of_decide_eq_true hu
      dsimp only at this
      omega
    · intro u hu
      have := of_decide_eq_true hu
      omega
  · rw [hnone]
    · exact hzero ▸ rfl
    · exact fun u hu => ht.trans (of_decide_eq_true hu)
  · intro a ha
    have := h.before a ha
    dsimp only
    omega

theorem Windowed.eraseLoop (h : Windowed n accepted s) (k : ℕ) :
    ∃ s', RateStatistics.eraseLoop k s = some s' ∧ Windowed n accepted s' ∧
      (s'.oldestTime = s.oldestTime + k ∨
        s'.accumulatedCount = 0 ∧ s'.oldestTime ≤ s.oldestTime + k) := by
  induction k generalizing s with
  | zero => exact ⟨s, rfl, h, .inl (by simp)⟩
  | succ k ih =>
    obtain ⟨count, hcount, hclear⟩ := h.clearOldest
    have htime : (s.clearOldest count).oldestTime = s.oldestTime + 1 := rfl
    rw [RateStatistics.eraseLoop, hcount]
    dsimp only
    by_cases hzero : (s.clearOldest count).accumulatedCount = 0
    · rw [if_pos hzero]
      refine ⟨_, rfl, hclear, .inr ⟨hzero, ?_⟩⟩
      omega
    · rw [if_neg hzero]
      obtain ⟨s', heq, hs', htimes⟩ := ih hclear
      refine ⟨s', heq, hs', htimes.imp ?_ (And.imp_right ?_)⟩
      · intro htime'
        omega
      · intro htime'
        omega

theorem Windowed.eraseOld (h : Windowed n accepted s) (now : ℤ) :
    ∃ s', s.eraseOld now = some s' ∧ Windowed n accepted s' ∧
      s'.oldestTime = max s.oldestTime (now - n + 1) := by
  rw [RateStatistics.eraseOld, h.numBuckets]
  by_cases hle : now - n + 1 ≤ s.oldestTime
  · rw [if_pos hle]
    exact ⟨s, rfl, h, (max_eq_left hle).symm⟩
  · have hmax := max_eq_right (Int.le_of_lt (Int.not_le.mp hle))
    obtain ⟨s', heq, hs', htime⟩ :=
      h.eraseLoop (now - n + 1 - s.oldestTime).toNat
    rw [Int.toNat_of_nonneg (by omega)] at htime
    rw [if_neg hle, heq]
    refine ⟨_, rfl, ?_, hmax.symm⟩
    obtain htime | ⟨hzero, htime⟩ := htime
    · have hsame : { s' with oldestTime := now - n + 1 } = s' := by
        rw [show now - n + 1 = s'.oldestTime by omega]
      exact hsame ▸ hs'
    · exact hs'.skip hzero (by omega)

theorem Windowed.bucketIndex (h : Windowed n accepted s) (hk : k < n)
    (hint : s.oldestIndex + k < 2 ^ 31) :
    s.bucketIndex (s.oldestTime + k) = some (slot n s.oldestIndex k) := by
  have hindex := h.index_lt
  have hsum : s.oldestIndex + (s.oldestTime + k - s.oldestTime) =
      ((s.oldestIndex + k : ℕ) : ℤ) := by
    push_cast
    omega
  rw [RateStatistics.bucketIndex, hsum,
    int32_of_fits (fits_of_bounds (by omega) (by omega)), h.numBuckets, slot]
  simp only [Option.bind_eq_bind, Option.bind_some]
  grind

theorem Windowed.addCount (h : Windowed n accepted s) (count : UInt32)
    (now : ℕ) (hold : s.oldestTime ≤ now) (hnew : now < s.oldestTime + n)
    (hint : s.oldestIndex + (now - s.oldestTime) < 2 ^ 31)
    (hfits : counts ((now, count) :: accepted)
      (fun t => s.oldestTime ≤ t) < 2 ^ 32) :
    ∃ s', s.addCount count now = some s' ∧
      Windowed n ((now, count) :: accepted) s' ∧
      s'.oldestTime = s.oldestTime ∧ s'.oldestIndex = s.oldestIndex := by
  obtain ⟨k, hk⟩ : ∃ k : ℕ, (now : ℤ) = s.oldestTime + k :=
    ⟨(now - s.oldestTime).toNat, by omega⟩
  have hkn : k < n := by omega
  obtain ⟨v, hv, hvalue⟩ := h.cell k hkn
  have htotal := h.total
  have hle : counts accepted (fun t => t = s.oldestTime + k) ≤
      counts accepted fun t => s.oldestTime ≤ t :=
    counts_le fun a _ ha => by
      have := of_decide_eq_true ha
      exact decide_eq_true (by omega)
  rw [counts_cons, if_pos (decide_eq_true hold)] at hfits
  dsimp only at hfits
  rw [RateStatistics.addCount, hk, h.bucketIndex hkn (by omega)]
  simp only [Option.bind_eq_bind, Option.bind_some, hv]
  refine ⟨_, rfl, ⟨h.numBuckets, ?_, h.index_lt, ?_, ?_, ?_⟩, rfl, rfl⟩
  · rw [List.length_set, h.length]
  · intro j hj
    rw [counts_cons]
    by_cases hjk : j = k
    · subst hjk
      refine ⟨v + count, ?_, ?_⟩
      · rw [List.getElem?_set_self]
        have hindex := h.index_lt
        rw [h.length, slot]
        grind
      · rw [UInt32.toNat_add, if_pos (decide_eq_true hk),
          Nat.mod_eq_of_lt (by omega), hvalue]
        exact Nat.add_comm _ _
    · obtain ⟨w, hw, hwvalue⟩ := h.cell j hj
      have hne : slot n s.oldestIndex k ≠ slot n s.oldestIndex j := by
        have hindex := h.index_lt
        rw [slot, slot]
        grind
      refine ⟨w, ?_, ?_⟩
      · rw [List.getElem?_set_ne hne, hw]
      · rw [hwvalue, if_neg, Nat.zero_add]
        rw [decide_eq_true_iff]
        dsimp only
        omega
  · rw [counts_cons, if_pos (decide_eq_true hold), UInt32.toNat_add,
      Nat.mod_eq_of_lt (by omega), htotal]
    exact Nat.add_comm _ _
  · intro a ha
    obtain rfl | ha := List.mem_cons.mp ha
    · exact hnew
    · exact h.before a ha

end RateStatistics

/-! ## The sum over the window -/

namespace Meter

variable {windowSizeMs : UInt32} {m m' : Meter}

/-- The window of the statistics is the one of the latest time. -/
structure Invariant (n : ℕ) (m : Meter) : Prop where
  windowed : RateStatistics.Windowed n m.accepted m.stats
  oldest : m.stats.oldestTime = max 0 ((m.latest : ℤ) - n + 1)

theorem counts_window (accepted : List (ℕ × UInt32)) (w latest : ℕ) :
    counts accepted (fun t => latest < t + w + 1) =
      counts accepted fun t => max 0 ((latest : ℤ) - (w + 1 : ℕ) + 1) ≤ t :=
  counts_congr fun a _ => decide_eq_decide.mpr (by omega)

theorem Invariant.step (h : Invariant (windowSizeMs.toNat + 1) m)
    (hwindow : windowSizeMs.toNat < 2 ^ 30) {call : RateCall}
    (hfits : m.FitsWith windowSizeMs call) :
    ∃ m', m.step call = some m' ∧ Invariant (windowSizeMs.toNat + 1) m' := by
  obtain ⟨hwindowed, holdest⟩ := h
  cases call with
  | rate now =>
    obtain ⟨s', heq, hs', htime⟩ := hwindowed.eraseOld now
    rw [Meter.step, RateStatistics.rate, heq]
    exact ⟨_, rfl, hs', by dsimp only; omega⟩
  | update count now =>
    rw [Meter.step, RateStatistics.update]
    by_cases hold : (now : ℤ) < m.stats.oldestTime
    · have hignored : m.stats.ignores now = true := decide_eq_true hold
      rw [if_pos hignored, if_pos hignored]
      exact ⟨_, rfl, hwindowed, by dsimp only; omega⟩
    · have hkept : ¬ m.stats.ignores now = true := fun h =>
        hold (of_decide_eq_true h)
      obtain ⟨s', heq, hs', htime⟩ := hwindowed.eraseOld now
      rw [FitsWith, counts_window] at hfits
      have hs'time : s'.oldestTime = max 0 (((max m.latest now : ℕ) : ℤ) -
          (windowSizeMs.toNat + 1 : ℕ) + 1) := by
        omega
      rw [← hs'time] at hfits
      have hindex := hs'.index_lt
      obtain ⟨s'', hadd, hs'', htime', -⟩ := hs'.addCount count now
        (by omega) (by omega) (by omega) hfits
      rw [if_neg hkept, if_neg hkept, heq, Option.bind_some, hadd]
      exact ⟨_, rfl, hs'', htime'.trans hs'time⟩

theorem Invariant.plain (h : Invariant (windowSizeMs.toNat + 1) m)
    (hwindow : windowSizeMs.toNat < 2 ^ 30) : m.Plain windowSizeMs := by
  refine ⟨?_, ?_, ?_⟩
  · rw [h.windowed.total, h.oldest, windowSum, counts_window]
  · intro now hnow
    have := of_decide_eq_true hnow
    have := h.oldest
    omega
  · intro call hfits
    obtain ⟨m', hm', -⟩ := h.step hwindow hfits
    rw [hm']
    rfl

theorem invariant_new {n : ℕ} (hn : 0 < n) :
    Invariant n ⟨⟨n, List.replicate n 0, 0, 0, 0⟩, [], 0⟩ := by
  refine ⟨⟨rfl, List.length_replicate, hn, ?_, rfl, nofun⟩, ?_⟩
  · intro k hk
    refine ⟨0, ?_, rfl⟩
    rw [List.getElem?_replicate, if_pos]
    rw [RateStatistics.slot]
    grind
  · dsimp only
    omega

theorem toInt_toInt32 (x : UInt32) :
    x.toInt32.toInt =
      if x.toNat < 2 ^ 31 then (x.toNat : ℤ) else x.toNat - 2 ^ 32 := by
  have htoInt : x.toInt32.toInt = x.toBitVec.toInt := rfl
  have htoNat : x.toBitVec.toNat = x.toNat := rfl
  rw [htoInt, BitVec.toInt_eq_toNat_cond, htoNat]
  grind

theorem new_of_lt (h : windowSizeMs.toNat < 2 ^ 31 - 1) :
    RateStatistics.new windowSizeMs =
      some ⟨(windowSizeMs.toNat + 1 : ℕ),
        List.replicate (windowSizeMs.toNat + 1) 0, 0, 0, 0⟩ := by
  have hadd : (windowSizeMs + 1).toNat = windowSizeMs.toNat + 1 := by
    rw [UInt32.toNat_add]
    exact Nat.mod_eq_of_lt (by rw [UInt32.toNat_one]; omega)
  have hnum : (windowSizeMs + 1).toInt32.toInt =
      ((windowSizeMs.toNat + 1 : ℕ) : ℤ) := by
    rw [toInt_toInt32, hadd, if_pos (by omega)]
  rw [RateStatistics.new, hnum]
  exact if_neg (by omega)

theorem new_of_ge (h : 2 ^ 31 - 1 ≤ windowSizeMs.toNat)
    (hne : windowSizeMs ≠ 0xFFFFFFFF) :
    RateStatistics.new windowSizeMs = none := by
  have hlt := windowSizeMs.toNat_lt
  have hne' : windowSizeMs.toNat ≠ 0xFFFFFFFF := fun heq =>
    hne (UInt32.toNat_inj.mp heq)
  have hadd : (windowSizeMs + 1).toNat = windowSizeMs.toNat + 1 := by
    rw [UInt32.toNat_add]
    exact Nat.mod_eq_of_lt (by rw [UInt32.toNat_one]; omega)
  have hnum := toInt_toInt32 (windowSizeMs + 1)
  rw [hadd, if_neg (by omega)] at hnum
  rw [RateStatistics.new, hnum]
  exact if_pos (by omega)

theorem oldestIndex_eraseLoop {n k : ℕ} {s s' : RateStatistics}
    (hnum : s.numBuckets = n) (hk : s.oldestIndex + k < n)
    (h : RateStatistics.eraseLoop k s = some s')
    (hcount : s'.accumulatedCount ≠ 0) :
    s'.oldestIndex = s.oldestIndex + k := by
  induction k generalizing s with
  | zero =>
    cases h
    rfl
  | succ k ih =>
    rw [RateStatistics.eraseLoop] at h
    cases hbucket : s.buckets[s.oldestIndex]? with
    | none =>
      rw [hbucket] at h
      cases h
    | some count =>
      rw [hbucket] at h
      dsimp only at h
      have hnext : (s.clearOldest count).oldestIndex =
          s.oldestIndex + 1 := by
        rw [RateStatistics.clearOldest, hnum]
        exact if_neg (by omega)
      by_cases hzero : (s.clearOldest count).accumulatedCount = 0
      · rw [if_pos hzero, Option.some.injEq] at h
        exact absurd (h ▸ hzero) hcount
      · rw [if_neg hzero] at h
        have hrest := ih (s := s.clearOldest count) hnum (by omega) h
        omega

/-- An update inside the window erases nothing. -/
theorem update_of_inside {s : RateStatistics} {count : UInt32} {now : ℕ}
    (hold : s.oldestTime ≤ now)
    (hnew : now - s.numBuckets + 1 ≤ s.oldestTime) :
    s.update count now = s.addCount count now := by
  have hkept : ¬ s.ignores now = true := fun h => by
    have := of_decide_eq_true h
    omega
  rw [RateStatistics.update, if_neg hkept, RateStatistics.eraseOld,
    if_pos hnew, Option.bind_some]

/-- A count at the end of the first window, and one a window later: the sum
of index and offset overflows. -/
theorem exists_overflow (hlower : 2 ^ 30 ≤ windowSizeMs.toNat)
    (hupper : windowSizeMs.toNat < 2 ^ 31 - 1) :
    ∃ m, Runs windowSizeMs m ∧ ¬ m.Plain windowSizeMs := by
  obtain ⟨w, hw⟩ : ∃ w : ℕ, w = windowSizeMs.toNat := ⟨_, rfl⟩
  have hnew := new_of_lt hupper
  have hstart := (invariant_new (Nat.succ_pos windowSizeMs.toNat)).windowed
  rw [← hw] at hlower hupper hnew hstart
  have hone : ∀ t : ℤ, t ≤ w → counts [(w, 1)] (fun u => t ≤ u) = 1 := by
    intro t ht
    simp [ht]
  -- The first count is put into the last bucket.
  obtain ⟨s₁, hadd, hs₁, htime₁, hindex₁⟩ := hstart.addCount 1 w (by simp)
    (by simp) (by simp; omega)
    ((hone 0 (by omega)).trans_lt (by decide))
  have hm₁ : Runs windowSizeMs ⟨s₁, [(w, 1)], w⟩ := by
    refine .step (e := .update 1 w) (.init ⟨_, hnew, rfl⟩) ?_ ?_
    · exact (counts_le (q := fun _ => true) fun _ _ _ => rfl).trans_lt
        (by simp)
    · rw [step, update_of_inside (by simp) (by simp), hadd]
      simp [RateStatistics.ignores]
  -- A window later the last bucket is the oldest one.
  obtain ⟨s₂, herase, hs₂, htime₂⟩ := hs₁.eraseOld ((2 * w : ℕ) : ℤ)
  have hm₂ : Runs windowSizeMs ⟨s₂, [(w, 1)], 2 * w⟩ := by
    refine .step (e := .rate (2 * w)) hm₁ trivial ?_
    rw [step, RateStatistics.rate, herase]
    simp
    omega
  have htime : s₂.oldestTime = w := by
    rw [htime₂, htime₁]
    dsimp only
    omega
  have hindex : s₂.oldestIndex = w := by
    rw [RateStatistics.eraseOld, hs₁.numBuckets, if_neg (by
      rw [htime₁]
      dsimp only
      omega), Option.map_eq_some_iff] at herase
    obtain ⟨s', hloop, rfl⟩ := herase
    have hlength : (((2 * w : ℕ) : ℤ) - (w.succ : ℕ) + 1 -
        s₁.oldestTime).toNat = w := by
      rw [htime₁]
      dsimp only
      omega
    rw [hlength] at hloop
    have hcount : s'.accumulatedCount ≠ 0 := by
      intro hzero
      have htotal := hs₂.total
      rw [htime, hone w le_rfl] at htotal
      dsimp only at htotal
      rw [hzero] at htotal
      cases htotal
    have hgo := oldestIndex_eraseLoop hs₁.numBuckets (by
      rw [hindex₁]
      dsimp only
      omega) hloop hcount
    rw [hindex₁] at hgo
    exact hgo.trans (Nat.zero_add w)
  refine ⟨_, hm₂, fun hplain => ?_⟩
  have hinside := hplain.inside (.update 1 (2 * w))
    ((counts_le (q := fun _ => true) fun _ _ _ => rfl).trans_lt (by simp))
  have hnone : s₂.addCount 1 ((2 * w : ℕ) : ℤ) = none := by
    have hint : int32 (s₂.oldestIndex + (((2 * w : ℕ) : ℤ) - s₂.oldestTime)) =
        none := if_neg fun hfits => by
      have := hfits.2
      omega
    rw [RateStatistics.addCount, RateStatistics.bucketIndex, hint]
    rfl
  rw [step, update_of_inside (by dsimp only; omega) (by
    rw [hs₂.numBuckets]
    dsimp only
    omega), hnone] at hinside
  cases hinside

theorem exists_outside : ∃ m, Runs 0xFFFFFFFF m ∧ ¬ m.Plain 0xFFFFFFFF := by
  have hnew : RateStatistics.new 0xFFFFFFFF = some ⟨0, [], 0, 0, 0⟩ := rfl
  refine ⟨_, .init ⟨_, hnew, rfl⟩, fun hplain => ?_⟩
  have hinside := hplain.inside (.update 1 0)
    ((counts_le (q := fun _ => true) fun _ _ _ => rfl).trans_lt (by decide))
  revert hinside
  decide

theorem not_plain_max :
    ¬ ∀ (windowSizeMs : UInt32) m, Runs windowSizeMs m →
      m.Plain windowSizeMs := by
  intro h
  obtain ⟨m, hm, hplain⟩ := exists_outside
  exact hplain (h _ m hm)

/-- The statistics are the plain sum in all runs exactly when twice the number
of buckets fits, or no array can be created at all. -/
theorem plain_iff (windowSizeMs : UInt32) :
    (∀ m, Runs windowSizeMs m → m.Plain windowSizeMs) ↔
      windowSizeMs.toNat < 2 ^ 30 ∨
        2 ^ 31 - 1 ≤ windowSizeMs.toNat ∧ windowSizeMs ≠ 0xFFFFFFFF := by
  refine ⟨fun h => ?_, ?_⟩
  · by_cases hmax : windowSizeMs = 0xFFFFFFFF
    · subst hmax
      obtain ⟨m, hm, hplain⟩ := exists_outside
      exact absurd (h m hm) hplain
    · by_contra hnot
      rw [not_or, not_and'] at hnot
      obtain ⟨m, hm, hplain⟩ := exists_overflow (Nat.not_lt.mp hnot.1)
        (Nat.not_le.mp (hnot.2 hmax))
      exact hplain (h m hm)
  · rintro (hsmall | ⟨hlarge, hne⟩) m hm
    · have hinv : Invariant (windowSizeMs.toNat + 1) m := by
        refine hm.invariant ?_ ?_
        · rintro _ ⟨stats, hstats, rfl⟩
          rw [new_of_lt (by omega), Option.mem_some_iff] at hstats
          exact hstats ▸ invariant_new (Nat.succ_pos _)
        · intro m call m' hinv hfits hstep
          obtain ⟨m'', hm'', hinv'⟩ := hinv.step hsmall hfits
          rw [hstep, Option.some.injEq] at hm''
          exact hm'' ▸ hinv'
      exact hinv.plain hsmall
    · have hnone : False := by
        induction hm with
        | init hinit =>
          obtain ⟨stats, hstats, -⟩ := hinit
          rw [new_of_ge hlarge hne] at hstats
          cases hstats
        | step _ _ _ ih => exact ih
      exact hnone.elim

end Meter

end WebrtcWinXp.Bitrate
