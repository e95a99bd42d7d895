import WebrtcWinXp.Support.Transition
import Mathlib.Algebra.Order.Field.Rat
import Mathlib.Algebra.Order.Ring.Cast
import Mathlib.Tactic.NormNum

/-!
# Frames of the overuse detector

`OveruseDetector::Update` groups packets into frames, by their RTP timestamps
or by their capture times, and passes pairs of frames to the Kalman filter.
-/

namespace WebrtcWinXp.Bitrate

open Support

/-- A time that was not seen yet is -1. -/
structure FrameSample where
  size : UInt32
  completeTimeMs : ℤ
  timestamp : ℤ
  timestampMs : ℤ
  deriving DecidableEq

/-- The capture time is -1 when it is not known. -/
structure TimedPacket where
  size : UInt16
  timestampMs : ℤ
  timestamp : UInt32
  arrivalTimeMs : ℤ
  deriving DecidableEq

structure OveruseDetector where
  currentFrame : FrameSample
  prevFrame : FrameSample
  deriving DecidableEq

namespace OveruseDetector

def noFrame : FrameSample := ⟨0, -1, -1, -1⟩

def new : OveruseDetector := ⟨noFrame, noFrame⟩

variable (d : OveruseDetector) (p : TimedPacket)

def switchTimeBase : OveruseDetector :=
  let frame :=
    { d.currentFrame with
      size := 0
      completeTimeMs := -1
      timestamp := -1 }
  ⟨frame, frame⟩

def inOrderTimestamp (timestamp prevTimestamp : UInt32) : Bool :=
  timestamp - prevTimestamp < 0x80000000

def packetInOrder : Bool :=
  if d.currentFrame.timestampMs = -1 ∧ -1 < d.currentFrame.timestamp then
    inOrderTimestamp p.timestamp (.ofInt d.currentFrame.timestamp)
  else if 0 < d.currentFrame.timestampMs then
    d.currentFrame.timestampMs < p.timestampMs
  else true

/-- The packet has another time than the current frame. -/
def newTimestamp : Bool :=
  if 0 ≤ p.timestampMs then p.timestampMs ≠ d.currentFrame.timestampMs
  else (p.timestamp.toNat : ℤ) ≠ d.currentFrame.timestamp

/-- The time base is switched for the first capture time. -/
def rebased : OveruseDetector :=
  if 0 ≤ p.timestampMs ∧ d.prevFrame.timestampMs = -1 ∧
      d.currentFrame.timestampMs = -1 then d.switchTimeBase
  else d

/-- The current frame starts with the times of a packet. -/
def start : OveruseDetector :=
  { d with
    currentFrame :=
      { d.currentFrame with
        timestamp := p.timestamp.toNat
        timestampMs := p.timestampMs } }

def accumulate : OveruseDetector :=
  { d with
    currentFrame :=
      { d.currentFrame with
        size := d.currentFrame.size + p.size.toUInt32
        completeTimeMs := p.arrivalTimeMs } }

/-- The previous frame is the one before, and the next one is empty. -/
def advance : OveruseDetector :=
  ⟨{ d.currentFrame with size := 0 }, d.currentFrame⟩

def update : OveruseDetector :=
  let d := d.rebased p
  if d.currentFrame.timestamp = -1 then (d.start p).accumulate p
  else if !d.packetInOrder p then d
  else if d.newTimestamp p then (d.advance.start p).accumulate p
  else d.accumulate p

/-- The frames that `Update` passes to `UpdateKalman`. -/
def passed : Option (FrameSample × FrameSample) :=
  let d := d.rebased p
  if d.currentFrame.timestamp ≠ -1 ∧ d.packetInOrder p ∧ d.newTimestamp p ∧
      0 ≤ d.prevFrame.completeTimeMs then some (d.currentFrame, d.prevFrame)
  else none

/-- `TimeDeltas`. -/
def tsDelta (current prev : FrameSample) : ℚ :=
  if current.timestampMs = -1 then
    ((UInt32.ofInt current.timestamp - .ofInt prev.timestamp).toNat : ℚ) / 90
  else current.timestampMs - prev.timestampMs

end OveruseDetector

/-! ## Frames -/

/-- A frame with the packet that started it and the ones behind, the last one
first. -/
structure Frame where
  first : TimedPacket
  others : List TimedPacket
  deriving DecidableEq

namespace TimedPacket

variable (p q : TimedPacket)

/-- The time base is the one of the capture times. -/
def Captured : Prop := 0 < p.timestampMs

instance : Decidable p.Captured := inferInstanceAs (Decidable (_ < _))

def Timed : Prop := p.timestampMs = -1 ∨ 0 < p.timestampMs

instance : Decidable p.Timed := inferInstanceAs (Decidable (_ ∨ _))

/-- Both have one time, in the time base of `q`. -/
def SameTime : Prop :=
  if q.Captured then p.timestampMs = q.timestampMs
  else p.timestamp = q.timestamp

instance : Decidable (p.SameTime q) :=
  inferInstanceAs (Decidable (if q.Captured then
    p.timestampMs = q.timestampMs else p.timestamp = q.timestamp))

/-- `p` is later, in the time base of `q`. -/
def After : Prop :=
  if q.Captured then q.timestampMs < p.timestampMs
  else p.timestamp ≠ q.timestamp ∧ p.timestamp - q.timestamp < 0x80000000

instance : Decidable (p.After q) :=
  inferInstanceAs (Decidable (if q.Captured then
    q.timestampMs < p.timestampMs else
    p.timestamp ≠ q.timestamp ∧ p.timestamp - q.timestamp < 0x80000000))

end TimedPacket

namespace Frame

variable (f : Frame)

def size : ℕ := f.first.size.toNat + (f.others.map fun p => p.size.toNat).sum

def completeTimeMs : ℤ := (f.others.head?.getD f.first).arrivalTimeMs

def sample : FrameSample :=
  ⟨.ofNat f.size, f.completeTimeMs, f.first.timestamp.toNat,
    f.first.timestampMs⟩

end Frame

/-- The frames of the packets that have arrived, the last one first.  With the
first capture time they start anew, and packets without one are left out from
then on. -/
def grouped (frames : List Frame) (p : TimedPacket) : List Frame :=
  match frames with
  | [] => [⟨p, []⟩]
  | f :: frames =>
    if p.Captured ∧ ¬f.first.Captured then [⟨p, []⟩]
    else if ¬p.Captured ∧ f.first.Captured then f :: frames
    else if p.SameTime f.first then ⟨f.first, p :: f.others⟩ :: frames
    else if p.After f.first then ⟨p, []⟩ :: f :: frames
    else f :: frames

/-- A detector with the frames it should have seen. -/
structure Grouping where
  detector : OveruseDetector
  frames : List Frame

namespace Grouping

variable (g : Grouping)

def Initial : Prop := g = ⟨.new, []⟩

def step (p : TimedPacket) : Option Grouping :=
  if p.Timed then some ⟨g.detector.update p, grouped g.frames p⟩
  else none

/-- No further packet has the capture time of the current frame, and the size
of a frame fits. -/
def Apart (p : TimedPacket) : Prop :=
  ∀ f ∈ g.frames.head?, p.SameTime f.first →
    ¬(p.Captured ∧ f.first.Captured) ∧ f.size + p.size.toNat < 2 ^ 32

instance (p : TimedPacket) : Decidable (g.Apart p) :=
  inferInstanceAs (Decidable (∀ f ∈ g.frames.head?, p.SameTime f.first →
    ¬(p.Captured ∧ f.first.Captured) ∧ f.size + p.size.toNat < 2 ^ 32))

/-- Whatever is passed to the filter are the last two frames, the second one
being later than the first, and late packets change nothing. -/
structure Faithful (g : Grouping) : Prop where
  passed : ∀ p current prev, g.detector.passed p = some (current, prev) →
    ∃ f f' frames, g.frames = f :: f' :: frames ∧
      current = f.sample ∧ prev = f'.sample ∧
      current.size.toNat = f.size ∧ prev.size.toNat = f'.size ∧
      f.first.After f'.first ∧ 0 < OveruseDetector.tsDelta current prev
  late : ∀ p : TimedPacket, p.Timed →
    (∀ f ∈ g.frames.head?, f.first.Captured ↔ p.Captured) →
    (∀ f ∈ g.frames.head?, ¬p.SameTime f.first ∧ ¬p.After f.first) →
    g.frames ≠ [] → g.detector.update p = g.detector

end Grouping

section Step

variable {d : OveruseDetector} {p : TimedPacket} {f f' : Frame}
  {frames : List Frame}

theorem TimedPacket.Timed.not_captured (h : p.Timed) :
    ¬p.Captured ↔ p.timestampMs = -1 := by
  unfold TimedPacket.Captured
  rcases h with h | h <;> omega

theorem TimedPacket.Timed.captured_iff (h : p.Timed) :
    p.Captured ↔ 0 ≤ p.timestampMs := by
  unfold TimedPacket.Captured
  rcases h with h | h <;> omega

theorem ofInt_toNat (t : UInt32) : UInt32.ofInt (t.toNat : ℤ) = t := by
  have hmod : ((t.toNat : ℤ) % 2 ^ 32).toNat = t.toNat := by
    have := t.toNat_lt
    omega
  rw [UInt32.ofInt, hmod, UInt32.ofNat_toNat]

theorem packetInOrder_iff (hd : d.currentFrame = f.sample)
    (hf : f.first.Timed) :
    d.packetInOrder p = true ↔
      if f.first.Captured then f.first.timestampMs < p.timestampMs
      else p.timestamp - f.first.timestamp < 0x80000000 := by
  rw [OveruseDetector.packetInOrder, hd]
  by_cases hc : f.first.Captured
  · have hne : f.first.timestampMs ≠ -1 := by
      intro h
      exact absurd hc (hf.not_captured.mpr h)
    rw [if_neg (fun h => hne h.1), if_pos (show 0 < f.sample.timestampMs from
      hc), if_pos hc, decide_eq_true_iff]
    exact Iff.rfl
  · have htime : -1 < (f.first.timestamp.toNat : ℤ) := by omega
    rw [if_pos ⟨hf.not_captured.mp hc, htime⟩, if_neg hc]
    show OveruseDetector.inOrderTimestamp p.timestamp
      (.ofInt (f.first.timestamp.toNat : ℤ)) = true ↔ _
    rw [ofInt_toNat]
    exact decide_eq_true_iff

theorem newTimestamp_iff (hd : d.currentFrame = f.sample) (hp : p.Timed) :
    d.newTimestamp p = true ↔
      if p.Captured then p.timestampMs ≠ f.first.timestampMs
      else p.timestamp ≠ f.first.timestamp := by
  rw [OveruseDetector.newTimestamp, hd]
  by_cases hc : p.Captured
  · rw [if_pos hc, if_pos (hp.captured_iff.mp hc), decide_eq_true_iff]
    exact Iff.rfl
  · rw [if_neg hc, if_neg (mt hp.captured_iff.mpr hc), decide_eq_true_iff]
    show (p.timestamp.toNat : ℤ) ≠ f.first.timestamp.toNat ↔ _
    rw [Ne, Nat.cast_inj, UInt32.toNat_inj]

/-- A frame grows by a packet. -/
theorem sample_add (hd : d.currentFrame = f.sample) :
    (d.accumulate p).currentFrame =
      (Frame.mk f.first (p :: f.others)).sample := by
  have hsize : f.sample.size + p.size.toUInt32 =
      UInt32.ofNat (Frame.mk f.first (p :: f.others)).size := by
    show UInt32.ofNat f.size + p.size.toUInt32 = _
    rw [← UInt32.ofNat_uInt16ToNat, ← UInt32.ofNat_add]
    simp only [Frame.size, List.map_cons, List.sum_cons]
    congr 1
    omega
  rw [OveruseDetector.accumulate, hd, hsize]
  rfl

theorem sample_start (hsize : d.currentFrame.size = 0) :
    ((d.start p).accumulate p).currentFrame = (Frame.mk p []).sample := by
  show FrameSample.mk (d.currentFrame.size + p.size.toUInt32) _ _ _ = _
  rw [hsize, UInt32.zero_add, ← UInt32.ofNat_uInt16ToNat]
  rfl

/-- The detector holds the last two frames. -/
inductive Matches : OveruseDetector → List Frame → Prop where
  | none : Matches .new []
  | one {d : OveruseDetector} {f : Frame}
      (current : d.currentFrame = f.sample)
      (prev : d.prevFrame = OveruseDetector.noFrame)
      (timed : f.first.Timed) (fits : f.size < 2 ^ 32) : Matches d [f]
  | more {d : OveruseDetector} {f f' : Frame} {frames : List Frame}
      (current : d.currentFrame = f.sample)
      (prev : d.prevFrame = f'.sample)
      (timed : f.first.Timed) (fits : f.size < 2 ^ 32)
      (fits' : f'.size < 2 ^ 32)
      (captured : f.first.Captured ↔ f'.first.Captured)
      (timed' : f'.first.Timed)
      (after : f.first.After f'.first) : Matches d (f :: f' :: frames)

namespace Matches

theorem current (h : Matches d (f :: frames)) :
    d.currentFrame = f.sample := by
  cases h with
  | one h => exact h
  | more h => exact h

theorem timed (h : Matches d (f :: frames)) : f.first.Timed := by
  cases h with
  | one _ _ h => exact h
  | more _ _ h => exact h

theorem fits (h : Matches d (f :: frames)) : f.size < 2 ^ 32 := by
  cases h with
  | one _ _ _ h => exact h
  | more _ _ _ h => exact h

theorem prev_timestampMs (h : Matches d (f :: frames))
    (hf : ¬f.first.Captured) : d.prevFrame.timestampMs = -1 := by
  cases h with
  | one _ hprev =>
    rw [hprev]
    rfl
  | more _ hprev _ _ _ hcaptured htimed =>
    rw [hprev]
    exact htimed.not_captured.mp fun h => hf (hcaptured.mpr h)

theorem rebased_new (h : Matches d (f :: frames)) (hp : 0 ≤ p.timestampMs)
    (hf : ¬f.first.Captured) : d.rebased p = .new := by
  have hcurrent : d.currentFrame.timestampMs = -1 := by
    rw [h.current]
    exact h.timed.not_captured.mp hf
  rw [OveruseDetector.rebased,
    if_pos ⟨hp, h.prev_timestampMs hf, hcurrent⟩]
  show OveruseDetector.mk ⟨0, -1, -1, d.currentFrame.timestampMs⟩
    ⟨0, -1, -1, d.currentFrame.timestampMs⟩ = _
  rw [hcurrent]
  rfl

/-- ... and by that one only. -/
theorem rebased_self (h : Matches d (f :: frames))
    (hp : 0 ≤ p.timestampMs → f.first.Captured) : d.rebased p = d := by
  rw [OveruseDetector.rebased, if_neg]
  rintro ⟨hpos, -, hcurrent⟩
  rw [h.current] at hcurrent
  exact h.timed.not_captured.mpr hcurrent (hp hpos)

theorem timestamp_ne (h : Matches d (f :: frames)) :
    d.currentFrame.timestamp ≠ -1 := by
  rw [h.current]
  show (f.first.timestamp.toNat : ℤ) ≠ -1
  omega

end Matches

/-! ## One packet -/

/-- The first packet of a time base starts a frame. -/
theorem update_first (h : d.rebased p = .new) (hp : p.Timed) :
    Matches (d.update p) [⟨p, []⟩] := by
  rw [OveruseDetector.update, h]
  rw [if_pos (show OveruseDetector.new.currentFrame.timestamp = -1 from rfl)]
  refine .one (sample_start rfl) rfl hp ?_
  have := p.size.toNat_lt
  simp only [Frame.size, List.map_nil, List.sum_nil]
  omega

/-- A late packet changes nothing. -/
theorem update_late (h : Matches d (f :: frames))
    (hp : 0 ≤ p.timestampMs → f.first.Captured)
    (hlate : d.packetInOrder p = false) : d.update p = d := by
  rw [OveruseDetector.update, h.rebased_self hp, if_neg h.timestamp_ne,
    hlate]
  rfl

/-- A packet of the current frame is added to it. -/
theorem update_same (h : Matches d (f :: frames))
    (hp : 0 ≤ p.timestampMs → f.first.Captured)
    (horder : d.packetInOrder p = true) (hold : d.newTimestamp p = false)
    (hfits : f.size + p.size.toNat < 2 ^ 32) :
    Matches (d.update p) (⟨f.first, p :: f.others⟩ :: frames) := by
  have hupdate : d.update p = d.accumulate p := by
    rw [OveruseDetector.update, h.rebased_self hp, if_neg h.timestamp_ne,
      horder, hold]
    rfl
  have hsize : (Frame.mk f.first (p :: f.others)).size < 2 ^ 32 := by
    simp only [Frame.size, List.map_cons, List.sum_cons] at hfits ⊢
    omega
  rw [hupdate]
  cases h with
  | one hcurrent hprev htimed _ =>
    exact .one (sample_add hcurrent) hprev htimed hsize
  | more hcurrent hprev htimed _ hfits' hcaptured htimed' hafter =>
    exact .more (sample_add hcurrent) hprev htimed hsize hfits' hcaptured
      htimed' hafter

/-- A packet of a later frame starts it. -/
theorem update_later (h : Matches d (f :: frames)) (hp : p.Timed)
    (hbase : p.Captured ↔ f.first.Captured) (hafter : p.After f.first)
    (horder : d.packetInOrder p = true) (hnew : d.newTimestamp p = true) :
    Matches (d.update p) (⟨p, []⟩ :: f :: frames) := by
  have hupdate : d.update p = (d.advance.start p).accumulate p := by
    rw [OveruseDetector.update,
      h.rebased_self fun hpos => hbase.mp (hp.captured_iff.mpr hpos),
      if_neg h.timestamp_ne, horder, hnew]
    rfl
  rw [hupdate]
  refine .more (sample_start rfl) h.current hp ?_ h.fits hbase h.timed hafter
  have := p.size.toNat_lt
  simp only [Frame.size, List.map_nil, List.sum_nil]
  omega

theorem rebased_init : OveruseDetector.new.rebased p = .new := by
  unfold OveruseDetector.rebased
  split <;> rfl

theorem newTimestamp_of_not_sameTime (h : Matches d (f :: frames))
    (hp : p.Timed) (hbase : p.Captured ↔ f.first.Captured) :
    d.newTimestamp p = true ↔ ¬p.SameTime f.first := by
  rw [newTimestamp_iff h.current hp, TimedPacket.SameTime]
  by_cases hc : f.first.Captured
  · rw [if_pos hc, if_pos (hbase.mpr hc)]
  · rw [if_neg hc, if_neg (mt hbase.mp hc)]

theorem packetInOrder_iff_or (h : Matches d (f :: frames))
    (hfirst : ¬(p.SameTime f.first ∧ f.first.Captured)) :
    d.packetInOrder p = true ↔ p.SameTime f.first ∨ p.After f.first := by
  rw [packetInOrder_iff h.current h.timed]
  unfold TimedPacket.SameTime at *
  unfold TimedPacket.After
  by_cases hc : f.first.Captured
  · rw [if_pos hc] at hfirst
    rw [if_pos hc, if_pos hc, if_pos hc]
    exact ⟨.inr, fun h => h.resolve_left fun h => hfirst ⟨h, hc⟩⟩
  · rw [if_neg hc, if_neg hc, if_neg hc]
    constructor
    · intro hlt
      by_cases hsame : p.timestamp = f.first.timestamp
      · exact .inl hsame
      · exact .inr ⟨hsame, hlt⟩
    · rintro (hsame | hafter)
      · rw [hsame, UInt32.sub_self]
        decide
      · exact hafter.2

theorem packetInOrder_of_not_captured (h : Matches d (f :: frames))
    (hp : p.Timed) (hc : ¬p.Captured) (hf : f.first.Captured) :
    d.packetInOrder p = false := by
  rw [← Bool.not_eq_true, packetInOrder_iff h.current h.timed, if_pos hf,
    hp.not_captured.mp hc]
  unfold TimedPacket.Captured at hf
  omega

theorem Matches.update (h : Matches d frames) (hp : p.Timed)
    (hapart : Grouping.Apart ⟨d, frames⟩ p) :
    Matches (d.update p) (grouped frames p) := by
  cases frames with
  | nil =>
    cases h with
    | none => exact update_first rebased_init hp
  | cons f frames =>
    show Matches _ (if _ then _ else _)
    by_cases hswitch : p.Captured ∧ ¬f.first.Captured
    · rw [if_pos hswitch]
      exact update_first
        (h.rebased_new (hp.captured_iff.mp hswitch.1) hswitch.2) hp
    have hbase : 0 ≤ p.timestampMs → f.first.Captured := by
      intro hpos
      by_contra hf
      exact hswitch ⟨hp.captured_iff.mpr hpos, hf⟩
    rw [if_neg hswitch]
    by_cases hother : ¬p.Captured ∧ f.first.Captured
    · rw [if_pos hother, update_late h hbase
        (packetInOrder_of_not_captured h hp hother.1 hother.2)]
      exact h
    rw [if_neg hother]
    have hsame : p.Captured ↔ f.first.Captured := by
      tauto
    have hnew := newTimestamp_of_not_sameTime h hp hsame
    have hfirst : ¬(p.SameTime f.first ∧ f.first.Captured) := by
      rintro ⟨htime, hc⟩
      exact (hapart f rfl htime).1 ⟨hsame.mpr hc, hc⟩
    have horder := packetInOrder_iff_or h hfirst
    by_cases htime : p.SameTime f.first
    · rw [if_pos htime]
      exact update_same h hbase (horder.mpr (.inl htime))
        (Bool.eq_false_iff.mpr fun h => hnew.mp h htime)
        (hapart f rfl htime).2
    rw [if_neg htime]
    by_cases hafter : p.After f.first
    · rw [if_pos hafter]
      exact update_later h hp hsame hafter (horder.mpr (.inr hafter))
        (hnew.mpr htime)
    · rw [if_neg hafter, update_late h hbase
        (Bool.eq_false_iff.mpr fun h =>
          (horder.mp h).elim htime hafter)]
      exact h

/-! ## Runs -/

/-- The detector holds the frames it should have seen. -/
def Grouping.Tracks (g : Grouping) : Prop := Matches g.detector g.frames

theorem Grouping.tracks_of_reachable {g : Grouping}
    (h : ReachableVia Grouping.Initial Grouping.step Grouping.Apart g) :
    g.Tracks := by
  refine h.invariant ?_ ?_
  · rintro g rfl
    exact .none
  · intro g p g' hg hapart hstep
    unfold Grouping.step at hstep
    split at hstep
    · next hp =>
        cases hstep
        exact hg.update hp hapart
    · cases hstep

theorem passed_eq_some {current prev : FrameSample}
    (h : d.passed p = some (current, prev)) :
    (d.rebased p).currentFrame.timestamp ≠ -1 ∧
      0 ≤ (d.rebased p).prevFrame.completeTimeMs ∧
      current = (d.rebased p).currentFrame ∧
      prev = (d.rebased p).prevFrame := by
  replace h : (if _ then some _ else none) = some (current, prev) := h
  split at h
  · next hpassed =>
      cases h
      exact ⟨hpassed.1, hpassed.2.2.2, rfl, rfl⟩
  · cases h

/-- Nothing is passed from before the switch. -/
theorem Matches.rebased_of_passed (h : Matches d frames)
    (htimestamp : (d.rebased p).currentFrame.timestamp ≠ -1) :
    d.rebased p = d := by
  cases frames with
  | nil =>
    cases h with
    | none => exact rebased_init
  | cons f frames =>
    refine h.rebased_self fun hpos => ?_
    by_contra hf
    rw [h.rebased_new hpos hf] at htimestamp
    exact htimestamp rfl

theorem tsDelta_pos (hf : f.first.Timed)
    (hbase : f.first.Captured ↔ f'.first.Captured)
    (hafter : f.first.After f'.first) :
    0 < OveruseDetector.tsDelta f.sample f'.sample := by
  unfold TimedPacket.After at hafter
  unfold OveruseDetector.tsDelta
  by_cases hc : f.first.Captured
  · have hne : f.sample.timestampMs ≠ -1 := by
      intro h
      exact hf.not_captured.mpr h hc
    rw [if_pos (hbase.mp hc)] at hafter
    rw [if_neg hne, sub_pos]
    exact Int.cast_lt.mpr hafter
  · rw [if_neg (mt hbase.mpr hc)] at hafter
    rw [if_pos (show f.sample.timestampMs = -1 from hf.not_captured.mp hc)]
    show (0 : ℚ) < ((UInt32.ofInt (f.first.timestamp.toNat : ℤ) -
      .ofInt (f'.first.timestamp.toNat : ℤ)).toNat : ℚ) / 90
    rw [ofInt_toNat, ofInt_toNat]
    have hne : f.first.timestamp - f'.first.timestamp ≠ 0 := by
      intro h
      have hsum := UInt32.sub_add_cancel f.first.timestamp f'.first.timestamp
      rw [h, UInt32.zero_add] at hsum
      exact hafter.1 hsum.symm
    have hpos : 0 < (f.first.timestamp - f'.first.timestamp).toNat :=
      Nat.pos_of_ne_zero fun h => hne (UInt32.toNat_inj.mp h)
    exact div_pos (Nat.cast_pos.mpr hpos) (by norm_num)

theorem size_toNat (h : f.size < 2 ^ 32) : f.sample.size.toNat = f.size :=
  Nat.mod_eq_of_lt h

end Step

namespace Grouping

/-- In every run in which each captured frame is one packet, the frames are
grouped correctly. -/
theorem faithful_of_reachable {g : Grouping}
    (h : ReachableVia Initial step Apart g) : g.Faithful := by
  obtain ⟨d, frames⟩ := g
  have htracks : Matches d frames := tracks_of_reachable h
  constructor
  · intro p current prev hpassed
    obtain ⟨htimestamp, hcomplete, rfl, rfl⟩ := passed_eq_some hpassed
    have hrebased := htracks.rebased_of_passed htimestamp
    rw [hrebased] at htimestamp hcomplete ⊢
    cases htracks with
    | none => exact absurd rfl htimestamp
    | one _ hprev =>
      rw [hprev] at hcomplete
      exact absurd hcomplete (by decide)
    | @more _ f f' frames hcurrent hprev htimed hfits hfits' hbase _ hafter =>
      rw [hcurrent, hprev]
      exact ⟨f, f', frames, rfl, rfl, rfl, size_toNat hfits,
        size_toNat hfits', hafter, tsDelta_pos htimed hbase hafter⟩
  · intro p hp hbase hlate hne
    cases frames with
    | nil => exact absurd rfl hne
    | cons f frames =>
      obtain ⟨hsame, hafter⟩ := hlate f rfl
      refine update_late htracks
        (fun hpos => (hbase f rfl).mpr (hp.captured_iff.mpr hpos)) ?_
      refine Bool.eq_false_iff.mpr fun h => ?_
      exact ((packetInOrder_iff_or htracks fun h => hsame h.1).mp h).elim
        hsame hafter

/-- Three packets of two frames, without capture times. -/
theorem faithful_of_three_packets :
    (Grouping.mk ⟨⟨70, 38, 3000, -1⟩, ⟨200, 6, 0xFFFFFFF0, -1⟩⟩
      [⟨⟨70, -1, 3000, 38⟩, []⟩,
        ⟨⟨100, -1, 0xFFFFFFF0, 5⟩, [⟨100, -1, 0xFFFFFFF0, 6⟩]⟩]).Faithful := by
  have hallowed : Allowed step Apart ⟨.new, []⟩
      [⟨100, -1, 0xFFFFFFF0, 5⟩, ⟨100, -1, 0xFFFFFFF0, 6⟩,
        ⟨70, -1, 3000, 38⟩] := by
    decide
  have hinit : ReachableVia Initial step Apart ⟨.new, []⟩ := .init rfl
  exact faithful_of_reachable (hinit.execute_of_allowed rfl hallowed)

/-- A captured frame of two packets counts for its first one only. -/
theorem not_faithful_captured :
    ¬ ∀ g, Reachable Initial step g → g.Faithful := by
  intro h
  have hrun : execute step ⟨.new, []⟩
      [⟨100, 10, 0, 5⟩, ⟨100, 10, 0, 6⟩, ⟨70, 20, 900, 15⟩] =
        some ⟨⟨⟨70, 15, 900, 20⟩, ⟨100, 5, 0, 10⟩⟩,
          [⟨⟨70, 20, 900, 15⟩, []⟩,
            ⟨⟨100, 10, 0, 5⟩, [⟨100, 10, 0, 6⟩]⟩]⟩ := rfl
  have hinit : Reachable Initial step ⟨.new, []⟩ := .init rfl
  have hreach := hinit.execute hrun fun _ _ => trivial
  obtain ⟨f, f', frames, hframes, -, -, -, hsize, -⟩ :=
    (h _ hreach).passed ⟨80, 30, 1800, 25⟩ _ _ rfl
  cases hframes
  revert hsize
  decide

end Grouping

end WebrtcWinXp.Bitrate
