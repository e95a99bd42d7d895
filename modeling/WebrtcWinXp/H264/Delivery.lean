import WebrtcWinXp.H264.Packetizer
import Mathlib.Data.List.TakeDrop

/-!
# Payloads that deliver NAL units

A group of payloads delivers some NAL units when it is a single payload or
carries a single unit, and receiving it appends the units.
-/

namespace WebrtcWinXp.H264

variable {ps payloads ns nalUnits : List (List UInt8)} {i : ℕ}

/-- A group of payloads delivers NAL units. -/
structure Delivers (ps ns : List (List UInt8)) : Prop where
  payloads_ne : ps ≠ []
  carried_ne : ∀ d ∈ ps, carried d ≠ []
  units_ne : ∀ n ∈ ns, n ≠ []
  carried_eq : ps.flatMap carried = ns.flatten
  received : ∀ units, ps.foldlM receive units = some (units ++ ns)
  first : ∀ (i : ℕ) d, ps[i]? = some d → ∃ parsed, parse d = some parsed ∧
    (parsed.isFirstPacket = true ↔ i = 0)
  alone : ps.length = 1 ∨ ns.length = 1

/-- Payloads in groups that deliver NAL units. -/
inductive Delivered : List (List UInt8) → List (List UInt8) → Prop
  | nil : Delivered [] []
  | group {ps ns payloads nalUnits : List (List UInt8)} (h : Delivers ps ns)
      (hrest : Delivered payloads nalUnits) :
      Delivered (ps ++ payloads) (ns ++ nalUnits)

/-! ## Where NAL units start -/

theorem length_flatMap_take_le (l : List (List UInt8)) {i j : ℕ}
    (h : i ≤ j) :
    ((l.take i).flatMap carried).length ≤
      ((l.take j).flatMap carried).length := by
  obtain ⟨back, hback⟩ := l.take_prefix_take_left h
  rw [← hback, List.flatMap_append, List.length_append]
  exact Nat.le_add_right _ _

theorem Delivers.units_ne_nil (h : Delivers ps ns) : ns ≠ [] := by
  rintro rfl
  obtain ⟨d, ps', rfl⟩ := List.exists_cons_of_ne_nil h.payloads_ne
  have hcarried := h.carried_eq
  rw [List.flatMap_cons, List.flatten_nil, List.append_eq_nil_iff] at hcarried
  exact h.carried_ne d List.mem_cons_self hcarried.1

theorem Delivers.carried_pos (h : Delivers ps ns) (hi : 0 < i)
    (payloads : List (List UInt8)) :
    0 < (((ps ++ payloads).take i).flatMap carried).length := by
  obtain ⟨d, ps', rfl⟩ := List.exists_cons_of_ne_nil h.payloads_ne
  obtain ⟨j, rfl⟩ := Nat.exists_eq_add_one_of_ne_zero hi.ne'
  rw [List.cons_append, List.take_succ_cons, List.flatMap_cons,
    List.length_append]
  have hd := List.length_pos_iff.mpr (h.carried_ne d List.mem_cons_self)
  omega

theorem Delivers.startsNalUnit_iff (h : Delivers ps ns) (hi : i < ps.length)
    (payloads nalUnits : List (List UInt8)) :
    StartsNalUnit (ps ++ payloads) (ns ++ nalUnits) i ↔ i = 0 := by
  constructor
  · rintro ⟨k, -, hle, hlt⟩
    rcases h.alone with hone | hone
    · omega
    · obtain ⟨n, rfl⟩ := List.length_eq_one_iff.mp hone
      by_contra hne
      have hpos := h.carried_pos (Nat.pos_of_ne_zero hne) payloads
      cases k with
      | zero =>
        rw [List.take_zero, List.flatten_nil, List.length_nil] at hle
        omega
      | succ k =>
        rw [List.singleton_append, List.take_succ_cons, List.flatten_cons,
          List.length_append] at hlt
        rw [List.take_append_of_le_length hi] at hlt
        have hall := length_flatMap_take_le ps hi
        rw [List.take_length, h.carried_eq, List.flatten_singleton] at hall
        omega
  · rintro rfl
    refine ⟨0, ?_, le_rfl, h.carried_pos Nat.one_pos payloads⟩
    have hpos := List.length_pos_iff.mpr h.units_ne_nil
    rw [List.length_append]
    omega

theorem Delivers.startsNalUnit_add (h : Delivers ps ns) (i : ℕ)
    (payloads nalUnits : List (List UInt8)) :
    StartsNalUnit (ps ++ payloads) (ns ++ nalUnits) (ps.length + i) ↔
      StartsNalUnit payloads nalUnits i := by
  have hpayloads : ∀ j, (((ps ++ payloads).take (ps.length + j)).flatMap
      carried).length =
        ns.flatten.length + ((payloads.take j).flatMap carried).length := by
    intro j
    rw [List.take_length_add_append, List.flatMap_append, List.length_append,
      h.carried_eq]
  have hunits : ∀ j, ((ns ++ nalUnits).take (ns.length + j)).flatten.length =
      ns.flatten.length + (nalUnits.take j).flatten.length := by
    intro j
    rw [List.take_length_add_append, List.flatten_append, List.length_append]
  constructor
  · rintro ⟨k, hk, hle, hlt⟩
    rw [Nat.add_assoc, hpayloads] at hlt
    rw [hpayloads] at hle
    by_cases hkn : k < ns.length
    · -- a unit of the group starts before the end of the group
      rw [List.take_append_of_le_length hkn.le] at hle
      have hsplit := congrArg List.length
        (congrArg List.flatten (List.take_append_drop k ns))
      rw [List.flatten_append, List.length_append,
        List.drop_eq_getElem_cons hkn, List.flatten_cons,
        List.length_append] at hsplit
      have hpos := List.length_pos_iff.mpr
        (h.units_ne ns[k] (List.getElem_mem hkn))
      omega
    · obtain ⟨j, rfl⟩ := Nat.exists_eq_add_of_le (Nat.not_lt.mp hkn)
      rw [hunits] at hle hlt
      rw [List.length_append] at hk
      exact ⟨j, by omega, by omega, by omega⟩
  · rintro ⟨j, hj, hle, hlt⟩
    refine ⟨ns.length + j, ?_, ?_, ?_⟩
    · rw [List.length_append]
      omega
    · rw [hpayloads, hunits]
      omega
    · rw [Nat.add_assoc, hpayloads, hunits]
      omega

theorem Delivered.received (h : Delivered payloads nalUnits)
    (units : List (List UInt8)) :
    payloads.foldlM receive units = some (units ++ nalUnits) := by
  induction h generalizing units with
  | nil => rw [List.append_nil]; rfl
  | group h _ ih =>
    rw [List.foldlM_append, h.received, Option.bind_eq_bind,
      Option.bind_some, ih, List.append_assoc]

theorem Delivered.depacketize (h : Delivered payloads nalUnits) :
    H264.depacketize payloads = some nalUnits :=
  h.received []

theorem Delivered.first (h : Delivered payloads nalUnits) {d : List UInt8}
    (hd : payloads[i]? = some d) :
    ∃ parsed, parse d = some parsed ∧
      (parsed.isFirstPacket = true ↔ StartsNalUnit payloads nalUnits i) := by
  induction h generalizing i with
  | nil => cases hd
  | @group ps ns payloads nalUnits h _ ih =>
    by_cases hi : i < ps.length
    · rw [List.getElem?_append_left hi] at hd
      obtain ⟨parsed, hparsed, hfirst⟩ := h.first i d hd
      refine ⟨parsed, hparsed, ?_⟩
      rw [h.startsNalUnit_iff hi, hfirst]
    · obtain ⟨j, rfl⟩ := Nat.exists_eq_add_of_le (Nat.not_lt.mp hi)
      rw [List.getElem?_append_right (Nat.le_add_right _ _),
        Nat.add_sub_cancel_left] at hd
      obtain ⟨parsed, hparsed, hfirst⟩ := ih hd
      refine ⟨parsed, hparsed, ?_⟩
      rw [h.startsNalUnit_add, hfirst]

end WebrtcWinXp.H264
