import Mathlib.Order.Nat
import Mathlib.Data.List.Basic
import Mathlib.Algebra.Order.Group.Nat

/-!
# Copies into and out of a ring

A memory is a function from addresses.  A ring is its part below some size,
addressed from a position on modulo the size.  Copying to or from a ring takes
two plain copies, the second of which continues at the start.
-/

namespace WebrtcWinXp.Support

variable {α : Type*}

/-- `memcpy`: `n` cells from `src` to the address `pos` on. -/
def memcpy (dst : ℕ → α) (pos : ℕ) (src : ℕ → α) (n : ℕ) : ℕ → α :=
  fun i => if pos ≤ i ∧ i < pos + n then src (i - pos) else dst i

/-- The `n` cells from the address `pos` on. -/
def slice (mem : ℕ → α) (pos n : ℕ) : List α :=
  (List.range n).map fun i => mem (pos + i)

@[simp] theorem length_slice (mem : ℕ → α) (pos n : ℕ) :
    (slice mem pos n).length = n := by
  simp [slice]

@[simp] theorem slice_zero (mem : ℕ → α) (pos : ℕ) :
    slice mem pos 0 = [] := rfl

theorem slice_add (mem : ℕ → α) (pos m n : ℕ) :
    slice mem pos (m + n) = slice mem pos m ++ slice mem (pos + m) n := by
  simp [slice, List.range_add, Nat.add_assoc]

theorem slice_congr {mem mem' : ℕ → α} {pos pos' n : ℕ}
    (h : ∀ i < n, mem (pos + i) = mem' (pos' + i)) :
    slice mem pos n = slice mem' pos' n := by
  apply List.map_congr_left
  intro i hi
  exact h i (List.mem_range.mp hi)

theorem drop_slice (mem : ℕ → α) (pos n k : ℕ) :
    (slice mem pos n).drop k = slice mem (pos + k) (n - k) := by
  apply List.ext_getElem
  · simp
  · intro i h₁ h₂
    simp [slice, Nat.add_assoc]

theorem take_slice (mem : ℕ → α) (pos n k : ℕ) :
    (slice mem pos n).take k = slice mem pos (min k n) := by
  apply List.ext_getElem
  · simp
  · intro i h₁ h₂
    simp [slice]

/-! ## Rings -/

section Ring

variable {size position : ℕ}

theorem ring_index_lt (hposition : position < size) {j : ℕ} (hj : j < size) :
    (position + j) % size =
      if position + j < size then position + j
      else position + j - size := by
  split
  · exact Nat.mod_eq_of_lt ‹_›
  · rw [Nat.mod_eq_sub_mod (by omega), Nat.mod_eq_of_lt (by omega)]

theorem slice_append_slice (mem : ℕ → α) (hposition : position < size)
    {n : ℕ} (hn : n ≤ size) :
    slice mem position (min n (size - position)) ++
        slice mem 0 (n - min n (size - position)) =
      slice (fun j => mem ((position + j) % size)) 0 n := by
  have hsplit : n = min n (size - position) +
    (n - min n (size - position)) := by omega
  conv_rhs => rw [hsplit, slice_add]
  congr 1
  · apply slice_congr
    intro i hi
    rw [Nat.zero_add, Nat.mod_eq_of_lt (by omega)]
  · apply slice_congr
    intro i hi
    have hwrap : position + (0 + min n (size - position) + i) =
        i + size := by omega
    rw [hwrap, Nat.add_mod_right, Nat.mod_eq_of_lt (by omega), Nat.zero_add]

theorem memcpy_memcpy (mem src : ℕ → α) (hposition : position < size)
    {n : ℕ} (hn : n ≤ size) {j : ℕ} (hj : j < size) :
    memcpy (memcpy mem position src (min n (size - position))) 0
        (fun i => src (min n (size - position) + i))
        (n - min n (size - position)) ((position + j) % size) =
      if j < n then src j else mem ((position + j) % size) := by
  rw [ring_index_lt hposition hj]
  simp only [memcpy]
  by_cases hwrap : position + j < size
  · rw [if_pos hwrap, if_neg (by omega)]
    by_cases hjn : j < n
    · rw [if_pos (by omega), if_pos hjn, Nat.add_sub_cancel_left]
    · rw [if_neg (by omega), if_neg hjn]
  · rw [if_neg hwrap]
    by_cases hjn : j < n
    · rw [if_pos (by omega), if_pos hjn]
      congr 1
      omega
    · rw [if_neg (by omega), if_neg (by omega), if_neg hjn]

end Ring

/-!
## Making room in a memory

Bytes in the middle of a memory are moved up, and others are written to the room
that this makes.
-/

section

variable {α : Type*} {mem src : ℕ → α} {pos n at' k : ℕ} {d : α}

/-- The cells of a list, as a source of a copy. -/
def cells (l : List α) (d : α) : ℕ → α := fun i => l.getD i d

theorem slice_memcpy_below (h : pos + n ≤ at') :
    slice (memcpy mem at' src k) pos n = slice mem pos n := by
  apply slice_congr
  intro i hi
  rw [memcpy, if_neg (by omega)]

theorem slice_memcpy_above (h : at' + k ≤ pos) :
    slice (memcpy mem at' src k) pos n = slice mem pos n := by
  apply slice_congr
  intro i hi
  rw [memcpy, if_neg (by omega)]

variable (mem pos d) in
theorem slice_memcpy_cells (l : List α) :
    slice (memcpy mem pos (cells l d) l.length) pos l.length = l := by
  apply List.ext_getElem
  · rw [length_slice]
  · intro i hi hi'
    simp only [slice, List.getElem_map, List.getElem_range, memcpy, cells]
    rw [if_pos (by omega), Nat.add_sub_cancel_left, List.getD_eq_getElem?_getD,
      List.getElem?_eq_getElem hi', Option.getD_some]

theorem memcpy_append (l r : List α) :
    memcpy (memcpy mem pos (cells l d) l.length) (pos + l.length) (cells r d)
        r.length =
      memcpy mem pos (cells (l ++ r) d) (l ++ r).length := by
  funext i
  simp only [memcpy, cells, List.length_append, List.getD_eq_getElem?_getD]
  by_cases hl : i < pos + l.length
  · rw [if_neg (by omega)]
    by_cases hpos : pos ≤ i
    · rw [if_pos ⟨hpos, hl⟩, if_pos (by omega),
        List.getElem?_append_left (by omega)]
    · rw [if_neg (by omega), if_neg (by omega)]
  · rw [if_neg (c := pos ≤ i ∧ i < pos + l.length) (by omega)]
    by_cases hr : i < pos + l.length + r.length
    · rw [if_pos (by omega), if_pos (by omega),
        List.getElem?_append_right (by omega), Nat.sub_sub]
    · rw [if_neg (by omega), if_neg (by omega)]

/-- The memory with the cells behind a place moved up, and the list in the
room. -/
def splice (mem : ℕ → α) (pos : ℕ) (l : List α) (moved : ℕ) (d : α) : ℕ → α :=
  memcpy (memcpy mem (pos + l.length) (cells (slice mem pos moved) d) moved)
    pos (cells l d) l.length

theorem slice_splice {front behind : List α}
    (h : slice mem 0 (front.length + behind.length) = front ++ behind)
    (l : List α) :
    slice (splice mem front.length l behind.length d) 0
        (front.length + l.length + behind.length) =
      front ++ (l ++ behind) := by
  rw [slice_add, Nat.zero_add] at h
  obtain ⟨hfront, hbehind⟩ := List.append_inj h (length_slice _ _ _)
  have hmoved := slice_memcpy_cells mem (front.length + l.length) d behind
  rw [splice, hbehind, slice_add, slice_add, Nat.zero_add, List.append_assoc,
    slice_memcpy_below (by omega), slice_memcpy_below (by omega), hfront,
    slice_memcpy_cells, slice_memcpy_above (by omega), Nat.zero_add, hmoved]

end

/-!
## A ring of slots as a log of the last writes

The slots of a ring start out blank and are written one after the other, over
and over again.  The ring then holds the last things that were written.
-/

section

variable {α β : Type*}

/-- The last `n` entries. -/
def lastEntries (n : ℕ) (entries : List α) : List α :=
  entries.drop (entries.length - n)

theorem mem_lastEntries {n : ℕ} {entries : List α} {a : α} :
    a ∈ lastEntries n entries ↔
      ∃ j, entries.length ≤ j + n ∧ entries[j]? = some a := by
  rw [lastEntries, List.mem_iff_getElem?]
  constructor
  · rintro ⟨i, hi⟩
    rw [List.getElem?_drop] at hi
    exact ⟨_, by omega, hi⟩
  · rintro ⟨j, hj, ha⟩
    refine ⟨j - (entries.length - n), ?_⟩
    rw [List.getElem?_drop, ← ha]
    congr 1
    omega

theorem eq_of_nodup_lastEntries {n : ℕ} {entries : List α} {key : α → β}
    (hnodup : ((lastEntries n entries).map key).Nodup) {i j : ℕ} {a b : α}
    (hi : entries.length ≤ i + n) (hj : entries.length ≤ j + n)
    (ha : entries[i]? = some a) (hb : entries[j]? = some b)
    (hkey : key a = key b) : i = j := by
  have hat : ∀ k c, entries.length ≤ k + n → entries[k]? = some c →
      ((lastEntries n entries).map key)[k - (entries.length - n)]? =
        some (key c) := by
    intro k c hk hc
    rw [List.getElem?_map, lastEntries, List.getElem?_drop,
      Nat.add_sub_cancel' (by omega), hc]
    rfl
  have hia := hat i a hi ha
  have hjb := hat j b hj hb
  rw [← hkey] at hjb
  have hlt := (List.getElem?_eq_some_iff.mp hia).1
  have heq := (List.getElem?_inj hlt hnodup).mp (hia.trans hjb.symm)
  omega

/-- The slots after `entries` have been written, the next one at `next`. -/
structure RingLog (blank : α) (slots : List α) (next : ℕ)
    (entries : List α) : Prop where
  pos : 0 < slots.length
  next_eq : next = entries.length % slots.length
  recent : ∀ j < entries.length, entries.length ≤ j + slots.length →
    slots[j % slots.length]? = entries[j]?
  fresh : ∀ i < slots.length, entries.length ≤ i → slots[i]? = some blank

namespace RingLog

variable {blank a : α} {slots entries : List α} {next : ℕ}

theorem replicate (blank : α) {n : ℕ} (hn : 0 < n) :
    RingLog blank (List.replicate n blank) 0 [] where
  pos := by simpa
  next_eq := (Nat.zero_mod _).symm
  recent := by
    intro j hj
    exact absurd hj (Nat.not_lt_zero j)
  fresh := by
    intro i hi _
    rw [List.length_replicate] at hi
    rw [List.getElem?_replicate, if_pos hi]

theorem next_lt (h : RingLog blank slots next entries) :
    next < slots.length := by
  rw [h.next_eq]
  exact Nat.mod_lt _ h.pos

theorem next_of_lt (h : RingLog blank slots next entries)
    (hlt : entries.length < slots.length) : next = entries.length := by
  rw [h.next_eq, Nat.mod_eq_of_lt hlt]

theorem mod_ne {n k j : ℕ} (hn : k < j + n) (hj : j < k) : j % n ≠ k % n := by
  intro hmod
  have hdvd := Nat.dvd_of_mod_eq_zero (Nat.sub_mod_eq_zero_of_mod_eq hmod.symm)
  have hle := Nat.le_of_dvd (by omega) hdvd
  omega

theorem write (h : RingLog blank slots next entries) (a : α) :
    RingLog blank (slots.set next a)
      (if next + 1 ≥ slots.length then 0 else next + 1)
      (entries ++ [a]) where
  pos := by
    rw [List.length_set]
    exact h.pos
  next_eq := by
    have hlt := h.next_lt
    have hnext := h.next_eq
    rw [List.length_set, List.length_append, List.length_singleton,
      Nat.add_mod, ← hnext]
    split
    · obtain hone | hone := Nat.lt_or_ge 1 slots.length
      · rw [Nat.mod_eq_of_lt hone, show next + 1 = slots.length by omega,
          Nat.mod_self]
      · rw [show slots.length = 1 by omega, Nat.mod_one]
    · rw [Nat.mod_eq_of_lt (show 1 < slots.length by omega),
        Nat.mod_eq_of_lt (by omega)]
  recent := by
    intro j hj hle
    rw [List.length_append, List.length_singleton] at hj hle
    rw [List.length_set] at hle ⊢
    obtain hlast | hold : j = entries.length ∨ j < entries.length := by omega
    · rw [hlast, ← h.next_eq, List.getElem?_set_self h.next_lt,
        List.getElem?_append_right (le_refl _), Nat.sub_self]
      rfl
    · have hne : next ≠ j % slots.length := by
        rw [h.next_eq]
        exact (mod_ne (by omega) hold).symm
      rw [List.getElem?_set_ne hne, List.getElem?_append_left hold]
      exact h.recent j hold (by omega)
  fresh := by
    intro i hi hle
    rw [List.length_set] at hi
    rw [List.length_append, List.length_singleton] at hle
    have hnext := h.next_of_lt (by omega)
    rw [List.getElem?_set_ne (by omega)]
    exact h.fresh i hi (by omega)

theorem slot (h : RingLog blank slots next entries) {i : ℕ}
    (hi : slots[i]? = some a) :
    (entries.length ≤ i ∧ a = blank) ∨
      ∃ j < entries.length, entries.length ≤ j + slots.length ∧
        j % slots.length = i ∧ entries[j]? = some a := by
  have hlt := (List.getElem?_eq_some_iff.mp hi).1
  by_cases hfresh : entries.length ≤ i
  · left
    have hblank := h.fresh i hlt hfresh
    rw [hi] at hblank
    exact ⟨hfresh, Option.some_inj.mp hblank⟩
  · right
    -- the last position below the length that falls on this slot
    have hdiv := Nat.mod_add_div (entries.length - 1 - i) slots.length
    have hmod := Nat.mod_lt (entries.length - 1 - i) h.pos
    set q := (entries.length - 1 - i) / slots.length with hq
    have hat : (i + slots.length * q) % slots.length = i := by
      rw [Nat.add_mul_mod_self_left, Nat.mod_eq_of_lt hlt]
    have hjlt : i + slots.length * q < entries.length := by omega
    have hjle : entries.length ≤ i + slots.length * q + slots.length := by
      omega
    refine ⟨_, hjlt, hjle, hat, ?_⟩
    rw [← h.recent _ hjlt hjle, hat, hi]

end RingLog

end

end WebrtcWinXp.Support
