import Mathlib.Logic.Function.Basic

/-!
# Ordered maps as partial functions

The operations of `std::map` that differ in how they treat missing and
existing keys: `find`, `insert`, `operator[]`, assignment through
`operator[]`, and `erase`.
-/

namespace WebrtcWinXp.Support

variable {κ ν : Type*}

/-- A `std::map` as the partial function from its keys to its values. -/
def StdMap (κ ν : Type*) := κ → Option ν

namespace StdMap

def empty : StdMap κ ν := fun _ => none

def find (m : StdMap κ ν) (k : κ) : Option ν := m k

@[simp] theorem find_empty {k : κ} : (empty : StdMap κ ν).find k = none :=
  rfl

variable [DecidableEq κ]

/-- `m[k] = v`. -/
def assign (m : StdMap κ ν) (k : κ) (v : ν) : StdMap κ ν :=
  fun k' => if k' = k then some v else m k'

/-- `insert`, which keeps an existing entry. -/
def insert (m : StdMap κ ν) (k : κ) (v : ν) : StdMap κ ν :=
  match m.find k with
  | some _ => m
  | none => m.assign k v

/-- `m[k]`, which adds the value-initialised `v` for a missing key. -/
def subscript (m : StdMap κ ν) (k : κ) (v : ν) : ν × StdMap κ ν :=
  match m.find k with
  | some v' => (v', m)
  | none => (v, m.assign k v)

def erase (m : StdMap κ ν) (k : κ) : StdMap κ ν :=
  fun k' => if k' = k then none else m k'

variable {m : StdMap κ ν} {k k' : κ} {v v' : ν}

@[simp] theorem find_assign_self : (m.assign k v).find k = some v := by
  simp [find, assign]

theorem find_assign_of_ne (h : k' ≠ k) :
    (m.assign k v).find k' = m.find k' := by
  simp [find, assign, h]

@[simp] theorem find_erase_self : (m.erase k).find k = none := by
  simp [find, erase]

theorem find_erase_of_ne (h : k' ≠ k) :
    (m.erase k).find k' = m.find k' := by
  simp [find, erase, h]

@[simp] theorem assign_assign (v v' : ν) :
    (m.assign k v).assign k v' = m.assign k v' := by
  funext k'
  by_cases h : k' = k <;> simp [assign, h]

theorem find_assign_eq_some_iff :
    (m.assign k v).find k' = some v' ↔
      (k' = k ∧ v = v') ∨ (k' ≠ k ∧ m.find k' = some v') := by
  by_cases h : k' = k
  · subst h
    simp
  · simp [find_assign_of_ne h, h]

theorem find_erase_eq_some_iff :
    (m.erase k).find k' = some v' ↔ k' ≠ k ∧ m.find k' = some v' := by
  by_cases h : k' = k
  · subst h
    simp
  · simp [find_erase_of_ne h, h]

theorem insert_of_find_eq_none (h : m.find k = none) :
    m.insert k v = m.assign k v := by
  simp [insert, h]

theorem insert_of_find_eq_some (h : m.find k = some v') :
    m.insert k v = m := by
  simp [insert, h]

theorem subscript_of_find_eq_some (h : m.find k = some v') :
    m.subscript k v = (v', m) := by
  simp [subscript, h]

theorem find_insert_eq_some (h : (m.insert k v).find k' = some v') :
    m.find k' = some v' ∨ (k' = k ∧ v = v' ∧ m.find k = none) := by
  cases hk : m.find k with
  | none =>
    rw [insert_of_find_eq_none hk, find_assign_eq_some_iff] at h
    rcases h with ⟨rfl, rfl⟩ | ⟨-, h⟩
    · exact .inr ⟨rfl, rfl, rfl⟩
    · exact .inl h
  | some w =>
    rw [insert_of_find_eq_some hk] at h
    exact .inl h

theorem map_find_assign {β : Type*} {f : ν → β}
    (h : (m.find k).map f = some (f v)) (k' : κ) :
    ((m.assign k v).find k').map f = (m.find k').map f := by
  by_cases hk : k' = k
  · subst hk
    rw [find_assign_self, h, Option.map_some]
  · rw [find_assign_of_ne hk]

end StdMap

end WebrtcWinXp.Support
