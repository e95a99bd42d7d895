import Mathlib

/-!
# Ordered maps that are iterated over

A `std::map` as its entries in the order of their keys, for code that walks
through it from `begin` to `end`.
-/

namespace WebrtcWinXp.Support

structure OrderedMap (κ ν : Type*) [LinearOrder κ] where
  entries : List (κ × ν)
  increasing : (entries.map Prod.fst).Pairwise (· < ·)

namespace OrderedMap

variable {κ ν : Type*} [LinearOrder κ] (m : OrderedMap κ ν)

def empty : OrderedMap κ ν where
  entries := []
  increasing := .nil

def find (k : κ) : Option ν :=
  (m.entries.find? fun e => e.1 = k).map Prod.snd

theorem find_eq_some_iff {k : κ} {v : ν} :
    m.find k = some v ↔ (k, v) ∈ m.entries := by
  constructor
  · intro h
    obtain ⟨⟨k', v'⟩, he, rfl⟩ := Option.map_eq_some_iff.mp h
    have hk := List.find?_some he
    rw [decide_eq_true_iff] at hk
    dsimp only at hk
    subst hk
    exact List.mem_of_find?_eq_some he
  · intro h
    obtain ⟨front, back, heq⟩ := List.append_of_mem h
    have hincreasing := m.increasing
    rw [heq, List.map_append, List.pairwise_append] at hincreasing
    have hfront : front.find? (fun e => e.1 = k) = none := by
      rw [List.find?_eq_none]
      intro e he hk
      rw [decide_eq_true_iff] at hk
      exact ne_of_lt (hincreasing.2.2 e.1 (List.mem_map_of_mem he) k
        List.mem_cons_self) hk
    rw [find, heq, List.find?_append, hfront]
    simp

theorem find_eq_none_iff {k : κ} :
    m.find k = none ↔ ∀ v, (k, v) ∉ m.entries := by
  simp only [← find_eq_some_iff]
  exact Option.eq_none_iff_forall_ne_some

@[simp] theorem find_empty (k : κ) :
    (empty : OrderedMap κ ν).find k = none := rfl

/-- New values for all keys. -/
def mapValues (f : κ → ν → ν) : OrderedMap κ ν where
  entries := m.entries.map fun e => (e.1, f e.1 e.2)
  increasing := by
    rw [List.map_map]
    exact m.increasing

theorem mem_mapValues {f : κ → ν → ν} {k : κ} {v : ν} :
    (k, v) ∈ (m.mapValues f).entries ↔
      ∃ v', (k, v') ∈ m.entries ∧ f k v' = v := by
  simp only [mapValues, List.mem_map, Prod.mk.injEq]
  constructor
  · rintro ⟨⟨k', v'⟩, hmem, rfl, rfl⟩
    exact ⟨v', hmem, rfl⟩
  · rintro ⟨v', hmem, rfl⟩
    exact ⟨(k, v'), hmem, rfl, rfl⟩

/-- A change of the value of one key. -/
def modify (k : κ) (f : ν → ν) : OrderedMap κ ν :=
  m.mapValues fun k' v => if k' = k then f v else v

theorem foldl_modify {α : Type*} (key : α → κ) (f : α → ν → ν) (l : List α) :
    l.foldl (fun m a => m.modify (key a) (f a)) m =
      m.mapValues fun k v =>
        l.foldl (fun v a => if k = key a then f a v else v) v := by
  induction l generalizing m with
  | nil => simp [mapValues]
  | cons a l ih =>
    rw [List.foldl_cons, ih]
    simp only [modify, mapValues, List.map_map]
    rfl

/-- New values for some keys, the others are erased. -/
def filterMapValues (f : κ → ν → Option ν) : OrderedMap κ ν where
  entries := m.entries.filterMap fun e => (f e.1 e.2).map (e.1, ·)
  increasing := by
    have hsub : ((m.entries.filterMap fun e =>
        (f e.1 e.2).map (e.1, ·)).map Prod.fst).Sublist
          (m.entries.map Prod.fst) := by
      induction m.entries with
      | nil => exact .slnil
      | cons e l ih =>
        rw [List.filterMap_cons]
        cases f e.1 e.2 with
        | none => exact ih.cons _
        | some v => exact ih.cons_cons _
    exact m.increasing.sublist hsub

theorem mem_filterMapValues {f : κ → ν → Option ν} {k : κ} {v : ν} :
    (k, v) ∈ (m.filterMapValues f).entries ↔
      ∃ v', (k, v') ∈ m.entries ∧ f k v' = some v := by
  simp only [filterMapValues, List.mem_filterMap, Option.map_eq_some_iff,
    Prod.mk.injEq]
  constructor
  · rintro ⟨⟨k', v'⟩, hmem, w, hw, rfl, rfl⟩
    exact ⟨v', hmem, hw⟩
  · rintro ⟨v', hmem, hv⟩
    exact ⟨(k, v'), hmem, v, hv, rfl, rfl⟩

/-! ## New keys -/

/-- The place of a new key; the entry of a key that is there is kept. -/
def insertEntry (k : κ) (v : ν) : List (κ × ν) → List (κ × ν)
  | [] => [(k, v)]
  | e :: l =>
    if k < e.1 then (k, v) :: e :: l
    else if k = e.1 then e :: l
    else e :: insertEntry k v l

theorem mem_insertEntry {k : κ} {v : ν} {l : List (κ × ν)}
    (hl : (l.map Prod.fst).Pairwise (· < ·)) {e : κ × ν}
    (h : e ∈ insertEntry k v l) :
    (e = (k, v) ∧ k ∉ l.map Prod.fst) ∨ e ∈ l := by
  induction l with
  | nil => exact .inl ⟨List.mem_singleton.mp h, List.not_mem_nil⟩
  | cons e' l ih =>
    have hcons := List.pairwise_cons.mp hl
    rw [insertEntry] at h
    rw [List.map_cons, List.mem_cons, not_or]
    split_ifs at h with hlt heq
    · refine (List.mem_cons.mp h).imp (fun heq => ⟨heq, ne_of_lt hlt, ?_⟩) id
      exact fun hk => lt_asymm hlt (hcons.1 k hk)
    · exact .inr h
    · rcases List.mem_cons.mp h with rfl | h
      · exact .inr List.mem_cons_self
      · exact (ih hcons.2 h).imp (fun h => ⟨h.1, heq, h.2⟩)
          (List.mem_cons_of_mem _)

theorem mem_insertEntry_of_mem {k : κ} {v : ν} {l : List (κ × ν)} {e : κ × ν}
    (h : e ∈ l) : e ∈ insertEntry k v l := by
  induction l with
  | nil => cases h
  | cons e' l ih =>
    rw [insertEntry]
    split_ifs
    · exact List.mem_cons_of_mem _ h
    · exact h
    · rcases List.mem_cons.mp h with rfl | h
      · exact List.mem_cons_self
      · exact List.mem_cons_of_mem _ (ih h)

theorem mem_insertEntry_self {k : κ} {v : ν} {l : List (κ × ν)}
    (h : k ∉ l.map Prod.fst) : (k, v) ∈ insertEntry k v l := by
  induction l with
  | nil => exact List.mem_singleton_self _
  | cons e l ih =>
    rw [List.map_cons, List.mem_cons, not_or] at h
    rw [insertEntry]
    split_ifs with hlt heq
    · exact List.mem_cons_self
    · exact absurd heq h.1
    · exact List.mem_cons_of_mem _ (ih h.2)

theorem increasing_insertEntry {k : κ} {v : ν} {l : List (κ × ν)}
    (h : (l.map Prod.fst).Pairwise (· < ·)) :
    ((insertEntry k v l).map Prod.fst).Pairwise (· < ·) := by
  induction l with
  | nil => exact List.pairwise_singleton _ _
  | cons e l ih =>
    have hcons := List.pairwise_cons.mp h
    rw [insertEntry]
    split_ifs with hlt heq
    · refine List.pairwise_cons.mpr ⟨?_, h⟩
      intro k' hk'
      rcases List.mem_cons.mp hk' with rfl | hk'
      · exact hlt
      · exact lt_trans hlt (hcons.1 k' hk')
    · exact h
    · refine List.pairwise_cons.mpr ⟨?_, ih hcons.2⟩
      intro k' hk'
      obtain ⟨e', he', rfl⟩ := List.mem_map.mp hk'
      rcases mem_insertEntry hcons.2 he' with ⟨rfl, -⟩ | he'
      · exact lt_of_le_of_ne (not_lt.mp hlt) (Ne.symm heq)
      · exact hcons.1 e'.1 (List.mem_map_of_mem he')

/-- `insert`, which keeps an existing entry. -/
def insert (k : κ) (v : ν) : OrderedMap κ ν where
  entries := insertEntry k v m.entries
  increasing := increasing_insertEntry m.increasing

theorem mem_insert {k k' : κ} {v v' : ν}
    (h : (k', v') ∈ (m.insert k v).entries) :
    ((k', v') = (k, v) ∧ m.find k = none) ∨ (k', v') ∈ m.entries := by
  refine (mem_insertEntry m.increasing h).imp (fun h => ⟨h.1, ?_⟩) id
  exact m.find_eq_none_iff.mpr fun w hw => h.2 (List.mem_map_of_mem hw)

theorem mem_insert_of_mem {k k' : κ} {v v' : ν} (h : (k', v') ∈ m.entries) :
    (k', v') ∈ (m.insert k v).entries :=
  mem_insertEntry_of_mem h

theorem mem_insert_self {k : κ} {v : ν} (h : m.find k = none) :
    (k, v) ∈ (m.insert k v).entries := by
  refine mem_insertEntry_self fun hmem => ?_
  obtain ⟨⟨k', w⟩, he, rfl⟩ := List.mem_map.mp hmem
  exact m.find_eq_none_iff.mp h w he

/-- A walk that changes the values and carries a state along. -/
def walkEntries {σ : Type*} (f : σ → κ → ν → σ × ν) :
    σ → List (κ × ν) → σ × List (κ × ν)
  | s, [] => (s, [])
  | s, e :: l =>
    let (s, v) := f s e.1 e.2
    let (s, l) := walkEntries f s l
    (s, (e.1, v) :: l)

omit [LinearOrder κ] in
theorem map_fst_walkEntries {σ : Type*} (f : σ → κ → ν → σ × ν) (s : σ)
    (l : List (κ × ν)) :
    (walkEntries f s l).2.map Prod.fst = l.map Prod.fst := by
  induction l generalizing s with
  | nil => rfl
  | cons e l ih => exact congrArg (e.1 :: ·) (ih _)

def walk {σ : Type*} (f : σ → κ → ν → σ × ν) (s : σ) : σ × OrderedMap κ ν :=
  ((walkEntries f s m.entries).1,
    { entries := (walkEntries f s m.entries).2
      increasing := by
        rw [map_fst_walkEntries]
        exact m.increasing })

theorem exists_mem_walk {σ : Type*} (f : σ → κ → ν → σ × ν) (s : σ) {k : κ}
    {v : ν} (h : (k, v) ∈ m.entries) :
    ∃ v', (k, v') ∈ (m.walk f s).2.entries := by
  have hkey : k ∈ (m.walk f s).2.entries.map Prod.fst := by
    rw [walk, map_fst_walkEntries]
    exact List.mem_map_of_mem h
  obtain ⟨⟨k', v'⟩, hmem, rfl⟩ := List.mem_map.mp hkey
  exact ⟨v', hmem⟩

theorem mem_walk {σ : Type*} {f : σ → κ → ν → σ × ν} {P : κ → ν → ν → Prop}
    (h : ∀ s k v, P k v (f s k v).2) {s : σ} {k : κ} {v : ν}
    (hmem : (k, v) ∈ (m.walk f s).2.entries) :
    ∃ v', (k, v') ∈ m.entries ∧ P k v' v := by
  have hwalk : ∀ (l : List (κ × ν)) (s : σ),
      (k, v) ∈ (walkEntries f s l).2 → ∃ v', (k, v') ∈ l ∧ P k v' v := by
    intro l
    induction l with
    | nil => exact fun s hmem => absurd hmem List.not_mem_nil
    | cons e l ih =>
      intro s hmem
      rcases List.mem_cons.mp hmem with heq | hmem
      · cases heq
        exact ⟨e.2, List.mem_cons_self, h s e.1 e.2⟩
      · obtain ⟨v', hv', hP⟩ := ih _ hmem
        exact ⟨v', List.mem_cons_of_mem _ hv', hP⟩
  exact hwalk m.entries s hmem

end OrderedMap

end WebrtcWinXp.Support
