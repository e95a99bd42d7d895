import Mathlib.Data.Finset.Card
import Mathlib.Data.Int.Interval
import Mathlib.Data.List.Nodup

/-!
# Used ids

Ids in a range are given out at most once.  An id that is used already is
replaced by the largest unused one, and that there is one is only asserted.
-/

namespace WebrtcWinXp.MediaSession

structure UsedIds (minAllowedId maxAllowedId : ℤ) where
  nextId : ℤ
  idSet : Finset ℤ
  /-- The assertion has failed. -/
  asserted : Bool

def InRange (min max id : ℤ) : Prop := min ≤ id ∧ id ≤ max

instance (min max id : ℤ) : Decidable (InRange min max id) :=
  inferInstanceAs (Decidable (_ ∧ _))

def dynamicIds (min max : ℤ) (ids : List ℤ) : List ℤ :=
  ids.filter fun id => InRange min max id

theorem dynamicIds_append (min max : ℤ) (ids ids' : List ℤ) :
    dynamicIds min max (ids ++ ids') =
      dynamicIds min max ids ++ dynamicIds min max ids' :=
  List.filter_append ..

theorem mem_dynamicIds {min max id : ℤ} {ids : List ℤ} :
    id ∈ dynamicIds min max ids ↔ id ∈ ids ∧ InRange min max id := by
  rw [dynamicIds, List.mem_filter, decide_eq_true_iff]

/-- The `IdStruct` of the template. -/
class HasId (α : Type) where
  id : α → Int32
  setId : α → ℤ → α
  id_setId : ∀ x n, id (setId x n) = Int32.ofInt n
  setId_id : ∀ x, setId x (id x).toInt = x

namespace UsedIds

variable {min max : ℤ}

def new : UsedIds min max := ⟨max, ∅, false⟩

/-- The loop of `FindUnusedId`, below the id that is a number of ids above the
lower end of the range. -/
def findUnusedBelow (min : ℤ) (idSet : Finset ℤ) : ℕ → ℤ
  | 0 => min - 1
  | n + 1 =>
    if min + n ∈ idSet then findUnusedBelow min idSet n else min + n

variable (u : UsedIds min max)

def findUnusedId : ℤ :=
  findUnusedBelow min u.idSet (u.nextId + 1 - min).toNat

def setIdUsed (id : ℤ) : UsedIds min max :=
  { u with
    idSet := insert id u.idSet }

/-- What `FindAndSetIdUsed` makes of an id. -/
def findAndSetIdUsed (originalId : ℤ) : UsedIds min max × ℤ :=
  if ¬ InRange min max originalId then (u, originalId)
  else if originalId ∈ u.idSet then
    let newId := u.findUnusedId
    ({ u.setIdUsed newId with
      nextId := newId
      asserted := u.asserted || decide (newId < min) }, newId)
  else (u.setIdUsed originalId, originalId)

def findAndSetIdsUsed : UsedIds min max → List ℤ → UsedIds min max × List ℤ
  | u, [] => (u, [])
  | u, id :: ids =>
    let (u, id) := u.findAndSetIdUsed id
    let (u, ids) := u.findAndSetIdsUsed ids
    (u, id :: ids)

section

variable {α : Type} [HasId α]

/-- `FindAndSetIdUsed`, for a structure with an id. -/
def findAndSetUsed (u : UsedIds min max) (x : α) : UsedIds min max × α :=
  let (u, id) := u.findAndSetIdUsed (HasId.id x).toInt
  (u, HasId.setId x id)

def findAndSetAllUsed : UsedIds min max → List α → UsedIds min max × List α
  | u, [] => (u, [])
  | u, x :: xs =>
    let (u, x) := u.findAndSetUsed x
    let (u, xs) := u.findAndSetAllUsed xs
    (u, x :: xs)

end

/-! ## What holds until the ids run out -/

/-- The ids above the next one are used, and used ids are in the range. -/
structure Inv : Prop where
  asserted : u.asserted = false
  nextId_le : u.nextId ≤ max
  used_above : ∀ id, u.nextId < id → id ≤ max → id ∈ u.idSet
  inRange : ∀ id ∈ u.idSet, InRange min max id

variable {u} {id : ℤ}

theorem inv_new : (new : UsedIds min max).Inv where
  asserted := rfl
  nextId_le := le_rfl
  used_above _ hlt hle := absurd hle (not_le.mpr hlt)
  inRange _ hid := absurd hid (Finset.notMem_empty _)

theorem findUnusedBelow_spec (min : ℤ) (idSet : Finset ℤ) (n : ℕ) :
    (findUnusedBelow min idSet n = min - 1 ∨
      min ≤ findUnusedBelow min idSet n ∧
        findUnusedBelow min idSet n ∉ idSet) ∧
    findUnusedBelow min idSet n < min + n ∧
    ∀ id, findUnusedBelow min idSet n < id → id < min + n → id ∈ idSet := by
  induction n with
  | zero =>
    refine ⟨Or.inl rfl, ?_, fun id hlt hle => ?_⟩
    · rw [findUnusedBelow]
      omega
    · rw [findUnusedBelow] at hlt
      omega
  | succ n ih =>
    rw [findUnusedBelow]
    split
    · next hused =>
        refine ⟨ih.1, by omega, fun id hlt hle => ?_⟩
        by_cases heq : id = min + n
        · rwa [heq]
        · exact ih.2.2 id hlt (by omega)
    · next hunused =>
        exact ⟨Or.inr ⟨by omega, hunused⟩, by omega, fun id _ _ => by omega⟩

/-- What `FindAndSetIdUsed` does with an id. -/
inductive Gives (u : UsedIds min max) (id : ℤ) : UsedIds min max × ℤ → Prop
  where
  | kept (h : ¬ InRange min max id) : Gives u id (u, id)
  | used {u' : UsedIds min max} {id' : ℤ} (h : InRange min max id)
      (h' : InRange min max id') (hfresh : id' ∉ u.idSet)
      (hsame : id ∉ u.idSet → id' = id) (hset : u'.idSet = insert id' u.idSet)
      (hinv : u'.Inv) : Gives u id (u', id')
  | exhausted {r : UsedIds min max × ℤ} (h : InRange min max id)
      (hfull : ∀ id, InRange min max id → id ∈ u.idSet) (hid : r.2 = min - 1)
      (hasserted : r.1.asserted = true) : Gives u id r

theorem Inv.gives (h : u.Inv) (id : ℤ) : Gives u id (u.findAndSetIdUsed id) := by
  rw [findAndSetIdUsed]
  by_cases hrange : InRange min max id
  · rw [if_neg (not_not_intro hrange)]
    by_cases hused : id ∈ u.idSet
    · rw [if_pos hused]
      have hspec := findUnusedBelow_spec min u.idSet (u.nextId + 1 - min).toNat
      change (u.findUnusedId = min - 1 ∨ min ≤ u.findUnusedId ∧
        u.findUnusedId ∉ u.idSet) ∧ u.findUnusedId < _ ∧
          ∀ id, u.findUnusedId < id → _ → id ∈ u.idSet at hspec
      obtain ⟨hfound, hlt, habove⟩ := hspec
      have hnext := h.nextId_le
      have hused' : ∀ id, u.findUnusedId < id → id ≤ max → id ∈ u.idSet := by
        intro id hid hle
        by_cases hid' : u.nextId < id
        · exact h.used_above id hid' hle
        · exact habove id hid (by omega)
      rcases hfound with hend | ⟨hmin, hfresh⟩
      · refine .exhausted hrange (fun id hid => ?_) hend ?_
        · exact hused' id (by have := hid.1; omega) hid.2
        · simp [hend]
      · have hle : u.findUnusedId ≤ max := by
          have := hrange.1
          have := hrange.2
          by_contra hgt
          omega
        refine .used hrange ⟨hmin, hle⟩ hfresh (fun hid => absurd hused hid) rfl
          ⟨?_, hle, fun id hid hid' => ?_, fun id hid => ?_⟩
        · simp [h.asserted, hmin]
        · exact Finset.mem_insert_of_mem (hused' id hid hid')
        · rcases Finset.mem_insert.mp hid with rfl | hid
          · exact ⟨hmin, hle⟩
          · exact h.inRange id hid
    · rw [if_neg hused]
      refine .used hrange hrange hused (fun _ => rfl) rfl
        ⟨h.asserted, h.nextId_le, fun id hid hid' => ?_, fun id hid => ?_⟩
      · exact Finset.mem_insert_of_mem (h.used_above id hid hid')
      · rcases Finset.mem_insert.mp hid with rfl | hid
        · exact hrange
        · exact h.inRange id hid
  · rw [if_pos hrange]
    exact .kept hrange

theorem asserted_findAndSetIdUsed (h : u.asserted = true) (id : ℤ) :
    (u.findAndSetIdUsed id).1.asserted = true := by
  rw [findAndSetIdUsed]
  split
  · exact h
  · split
    · simp [h]
    · exact h

theorem asserted_findAndSetIdsUsed (h : u.asserted = true) (ids : List ℤ) :
    (u.findAndSetIdsUsed ids).1.asserted = true := by
  induction ids generalizing u with
  | nil => exact h
  | cons id ids ih => exact ih (asserted_findAndSetIdUsed h id)

theorem findAndSetIdsUsed_append (u : UsedIds min max) (ids ids' : List ℤ) :
    u.findAndSetIdsUsed (ids ++ ids') =
      (((u.findAndSetIdsUsed ids).1.findAndSetIdsUsed ids').1,
        (u.findAndSetIdsUsed ids).2 ++
          ((u.findAndSetIdsUsed ids).1.findAndSetIdsUsed ids').2) := by
  induction ids generalizing u with
  | nil => rfl
  | cons id ids ih =>
    simp only [List.cons_append, findAndSetIdsUsed, ih]

/-! ## Lists of ids -/

/-- Changing an id keeps it in the range or out of it. -/
def Renames (min max id id' : ℤ) : Prop :=
  InRange min max id ∧ InRange min max id' ∨ ¬ InRange min max id ∧ id' = id

theorem Renames.inRange_iff {id id' : ℤ} (h : Renames min max id id') :
    InRange min max id' ↔ InRange min max id := by
  rcases h with ⟨h, h'⟩ | ⟨h, rfl⟩
  · exact ⟨fun _ => h, fun _ => h'⟩
  · rfl

theorem length_dynamicIds {ids ids' : List ℤ}
    (h : List.Forall₂ (Renames min max) ids ids') :
    (dynamicIds min max ids').length = (dynamicIds min max ids).length := by
  induction h with
  | nil => rfl
  | @cons id id' ids ids' h _ ih =>
    have heq : decide (InRange min max id') = decide (InRange min max id) :=
      decide_eq_decide.mpr h.inRange_iff
    rw [dynamicIds, dynamicIds, List.filter_cons, List.filter_cons, heq]
    split
    · exact congrArg Nat.succ ih
    · exact ih

theorem Inv.findAndSetIdUsed (h : u.Inv) (id : ℤ) :
    (u.findAndSetIdUsed id).1.asserted = true ∨
      (u.findAndSetIdUsed id).1.Inv ∧
        Renames min max id (u.findAndSetIdUsed id).2 := by
  have hgives := h.gives id
  generalize u.findAndSetIdUsed id = r at hgives ⊢
  cases hgives with
  | kept hrange => exact Or.inr ⟨h, Or.inr ⟨hrange, rfl⟩⟩
  | used hrange hrange' _ _ _ hinv =>
    exact Or.inr ⟨hinv, Or.inl ⟨hrange, hrange'⟩⟩
  | exhausted _ _ _ hasserted => exact Or.inl hasserted

/-- What `FindAndSetIdUsed` does with a list of ids, as long as they do not run
out. -/
structure GivesAll (u : UsedIds min max) (ids : List ℤ)
    (r : UsedIds min max × List ℤ) : Prop where
  inv : r.1.Inv
  renames : List.Forall₂ (Renames min max) ids r.2
  nodup : (dynamicIds min max r.2).Nodup
  fresh : ∀ id ∈ dynamicIds min max r.2, id ∉ u.idSet
  idSet : r.1.idSet = u.idSet ∪ (dynamicIds min max r.2).toFinset

theorem Inv.givesAll (h : u.Inv) (ids : List ℤ)
    (hok : (u.findAndSetIdsUsed ids).1.asserted = false) :
    GivesAll u ids (u.findAndSetIdsUsed ids) := by
  induction ids generalizing u with
  | nil =>
    refine ⟨h, .nil, List.nodup_nil, fun id hid => (by cases hid), ?_⟩
    exact (Finset.union_empty _).symm
  | cons id ids ih =>
    rw [findAndSetIdsUsed] at hok ⊢
    have hgives := h.gives id
    generalize u.findAndSetIdUsed id = r at hgives hok ⊢
    cases hgives with
    | kept hrange =>
      obtain ⟨hinv, hrenames, hnodup, hfresh, hset⟩ := ih h hok
      have heq : dynamicIds min max
          (id :: (u.findAndSetIdsUsed ids).2) =
            dynamicIds min max (u.findAndSetIdsUsed ids).2 :=
        List.filter_cons_of_neg (by simpa using hrange)
      refine ⟨hinv, .cons (Or.inr ⟨hrange, rfl⟩) hrenames, ?_, ?_, ?_⟩
      · exact heq ▸ hnodup
      · exact heq ▸ hfresh
      · exact heq ▸ hset
    | @used u' id' hrange hrange' hid' _ hset' hinv' =>
      obtain ⟨hinv, hrenames, hnodup, hfresh, hset⟩ := ih hinv' hok
      have heq : dynamicIds min max
          (id' :: (u'.findAndSetIdsUsed ids).2) =
            id' :: dynamicIds min max (u'.findAndSetIdsUsed ids).2 :=
        List.filter_cons_of_pos (by simpa using hrange')
      refine ⟨hinv, .cons (Or.inl ⟨hrange, hrange'⟩) hrenames, ?_, ?_, ?_⟩
      · change (dynamicIds min max (id' :: _)).Nodup
        rw [heq]
        refine List.nodup_cons.mpr ⟨fun hmem => hfresh id' hmem ?_, hnodup⟩
        rw [hset']
        exact Finset.mem_insert_self _ _
      · change ∀ id ∈ dynamicIds min max (id' :: _), _
        rw [heq]
        intro id'' hmem
        rcases List.mem_cons.mp hmem with rfl | hmem
        · exact hid'
        · have hnot := hfresh id'' hmem
          rw [hset'] at hnot
          exact fun hin => hnot (Finset.mem_insert_of_mem hin)
      · change _ = _ ∪ (dynamicIds min max (id' :: _)).toFinset
        rw [heq, hset, hset', List.toFinset_cons, Finset.insert_union,
          Finset.union_insert]
    | exhausted _ _ _ hasserted =>
      have := asserted_findAndSetIdsUsed hasserted ids
      rw [this] at hok
      cases hok

theorem GivesAll.card {ids : List ℤ} {r : UsedIds min max × List ℤ}
    (h : GivesAll u ids r) :
    r.1.idSet.card = u.idSet.card + (dynamicIds min max ids).length := by
  have hdisjoint : Disjoint u.idSet (dynamicIds min max r.2).toFinset := by
    rw [Finset.disjoint_right]
    exact fun id hid => h.fresh id (List.mem_toFinset.mp hid)
  rw [h.idSet, Finset.card_union_of_disjoint hdisjoint,
    List.toFinset_card_of_nodup h.nodup, length_dynamicIds h.renames]

theorem Inv.card_le (h : u.Inv) : u.idSet.card ≤ (max + 1 - min).toNat := by
  rw [← Int.card_Icc]
  refine Finset.card_le_card fun id hid => ?_
  exact Finset.mem_Icc.mpr (h.inRange id hid)

theorem Inv.asserted_eq_false_iff (h : u.Inv) (ids : List ℤ) :
    (u.findAndSetIdsUsed ids).1.asserted = false ↔
      u.idSet.card + (dynamicIds min max ids).length ≤
        (max + 1 - min).toNat := by
  constructor
  · intro hok
    have hgives := h.givesAll ids hok
    rw [← hgives.card]
    exact hgives.inv.card_le
  · intro hle
    induction ids generalizing u with
    | nil => exact h.asserted
    | cons id ids ih =>
      rw [findAndSetIdsUsed]
      have hgives := h.gives id
      generalize u.findAndSetIdUsed id = r at hgives ⊢
      cases hgives with
      | kept hrange =>
        rw [dynamicIds, List.filter_cons_of_neg (by simpa using hrange)]
          at hle
        exact ih h hle
      | @used u' id' hrange hrange' hid' _ hset' hinv' =>
        rw [dynamicIds, List.filter_cons_of_pos (by simpa using hrange),
          List.length_cons] at hle
        refine ih hinv' ?_
        rw [hset', Finset.card_insert_of_notMem hid', dynamicIds]
        omega
      | exhausted hrange hfull _ _ =>
        rw [dynamicIds, List.filter_cons_of_pos (by simpa using hrange),
          List.length_cons] at hle
        have hcard : (Finset.Icc min max).card ≤ u.idSet.card :=
          Finset.card_le_card fun id hid =>
            hfull id (Finset.mem_Icc.mp hid)
        rw [Int.card_Icc] at hcard
        omega

theorem Inv.findAndSetIdsUsed_eq (h : u.Inv) {ids : List ℤ}
    (hnodup : (dynamicIds min max ids).Nodup)
    (hfresh : ∀ id ∈ dynamicIds min max ids, id ∉ u.idSet) :
    (u.findAndSetIdsUsed ids).2 = ids ∧
      (u.findAndSetIdsUsed ids).1.asserted = false := by
  induction ids generalizing u with
  | nil => exact ⟨rfl, h.asserted⟩
  | cons id ids ih =>
    rw [findAndSetIdsUsed]
    have hgives := h.gives id
    generalize u.findAndSetIdUsed id = r at hgives ⊢
    by_cases hrange : InRange min max id
    · rw [dynamicIds, List.filter_cons_of_pos (by simpa using hrange)]
        at hnodup hfresh
      obtain ⟨hid, hnodup⟩ := List.nodup_cons.mp hnodup
      have hunused := hfresh id List.mem_cons_self
      cases hgives with
      | kept hrange' => exact absurd hrange hrange'
      | used _ _ _ hsame hset hinv =>
        cases hsame hunused
        obtain ⟨heq, hok⟩ := ih hinv hnodup fun id' hmem => by
          rw [hset, Finset.mem_insert, not_or]
          refine ⟨?_, hfresh id' (List.mem_cons_of_mem _ hmem)⟩
          rintro rfl
          exact hid hmem
        exact ⟨congrArg (id :: ·) heq, hok⟩
      | exhausted _ hfull => exact absurd (hfull id hrange) hunused
    · rw [dynamicIds, List.filter_cons_of_neg (by simpa using hrange)]
        at hnodup hfresh
      cases hgives with
      | kept =>
        obtain ⟨heq, hok⟩ := ih h hnodup hfresh
        exact ⟨congrArg (id :: ·) heq, hok⟩
      | used hrange' => exact absurd hrange' hrange
      | exhausted hrange' => exact absurd hrange' hrange

theorem Inv.asserted_eq_false_of_eq (h : u.Inv) {ids : List ℤ}
    (heq : (u.findAndSetIdsUsed ids).2 = ids) :
    (u.findAndSetIdsUsed ids).1.asserted = false := by
  induction ids generalizing u with
  | nil => exact h.asserted
  | cons id ids ih =>
    rw [findAndSetIdsUsed] at heq ⊢
    have hgives := h.gives id
    generalize u.findAndSetIdUsed id = r at hgives heq ⊢
    obtain ⟨hid, hids⟩ := List.cons_eq_cons.mp heq
    cases hgives with
    | kept => exact ih h hids
    | used _ _ _ _ _ hinv => exact ih hinv hids
    | exhausted hrange _ hlow _ =>
      have := hrange.1
      omega

theorem Inv.nodup_of_eq (h : u.Inv) {ids : List ℤ}
    (heq : (u.findAndSetIdsUsed ids).2 = ids) :
    (dynamicIds min max ids).Nodup := by
  have hnodup := (h.givesAll ids (h.asserted_eq_false_of_eq heq)).nodup
  rwa [heq] at hnodup

theorem length_findAndSetIdsUsed (u : UsedIds min max) (ids : List ℤ) :
    (u.findAndSetIdsUsed ids).2.length = ids.length := by
  induction ids generalizing u with
  | nil => rfl
  | cons id ids ih => exact congrArg Nat.succ (ih _)

theorem findAndSetIdsUsed_append_eq {ids ids' : List ℤ}
    (h : (u.findAndSetIdsUsed (ids ++ ids')).2 = ids ++ ids') :
    (u.findAndSetIdsUsed ids).2 = ids ∧
      ((u.findAndSetIdsUsed ids).1.findAndSetIdsUsed ids').2 = ids' := by
  rw [findAndSetIdsUsed_append] at h
  exact List.append_inj h (length_findAndSetIdsUsed u ids)

theorem asserted_of_append {ids ids' : List ℤ}
    (h : (u.findAndSetIdsUsed (ids ++ ids')).1.asserted = false) :
    (u.findAndSetIdsUsed ids).1.asserted = false := by
  refine Bool.eq_false_iff.mpr fun hasserted => ?_
  rw [findAndSetIdsUsed_append] at h
  cases (asserted_findAndSetIdsUsed hasserted ids').symm.trans h

section

variable {α : Type} [HasId α]

def ids (xs : List α) : List ℤ :=
  xs.map fun x => (HasId.id x).toInt

@[simp] theorem ids_cons (x : α) (xs : List α) :
    ids (x :: xs) = (HasId.id x).toInt :: ids xs := rfl

@[simp] theorem ids_append (xs ys : List α) :
    ids (xs ++ ys) = ids xs ++ ids ys :=
  List.map_append

theorem asserted_findAndSetAllUsed (h : u.asserted = true) (xs : List α) :
    (u.findAndSetAllUsed xs).1.asserted = true := by
  induction xs generalizing u with
  | nil => exact h
  | cons x xs ih => exact ih (asserted_findAndSetIdUsed h _)

theorem findAndSetAllUsed_eq (u : UsedIds min max) (xs : List α) :
    u.findAndSetAllUsed xs = ((u.findAndSetIdsUsed (ids xs)).1,
      List.zipWith HasId.setId xs (u.findAndSetIdsUsed (ids xs)).2) := by
  induction xs generalizing u with
  | nil => rfl
  | cons x xs ih =>
    simp only [findAndSetAllUsed, findAndSetUsed, ih]
    rfl

theorem zipWith_setId_ids (xs : List α) :
    List.zipWith HasId.setId xs (ids xs) = xs := by
  induction xs with
  | nil => rfl
  | cons x xs ih => exact congrArg₂ List.cons (HasId.setId_id x) ih

theorem findAndSetAllUsed_of_eq {xs : List α}
    (h : (u.findAndSetIdsUsed (ids xs)).2 = ids xs) :
    u.findAndSetAllUsed xs = ((u.findAndSetIdsUsed (ids xs)).1, xs) := by
  rw [findAndSetAllUsed_eq, h, zipWith_setId_ids]

variable (hmin : -2 ^ 31 ≤ min - 1) (hmax : max < 2 ^ 31)
include hmin hmax

theorem Renames.toInt_setId {x : α} {id : ℤ}
    (h : Renames min max (HasId.id x).toInt id) :
    (HasId.id (HasId.setId x id)).toInt = id := by
  rw [HasId.id_setId]
  rcases h with ⟨-, hle, hle'⟩ | ⟨-, rfl⟩
  · exact Int32.toInt_ofInt_of_le (by omega) (lt_of_le_of_lt hle' hmax)
  · rw [Int32.ofInt_toInt]

theorem ids_zipWith_setId {xs : List α} {newIds : List ℤ}
    (h : List.Forall₂ (Renames min max) (ids xs) newIds) :
    ids (List.zipWith HasId.setId xs newIds) = newIds := by
  induction xs generalizing newIds with
  | nil =>
    cases h
    rfl
  | cons x xs ih =>
    cases h with
    | cons hx h => exact congrArg₂ List.cons (hx.toInt_setId hmin hmax) (ih h)

theorem Inv.ids_eq_of_eq (h : u.Inv) {xs : List α}
    (heq : (u.findAndSetAllUsed xs).2 = xs) :
    (u.findAndSetIdsUsed (ids xs)).2 = ids xs := by
  induction xs generalizing u with
  | nil => rfl
  | cons x xs ih =>
    have hgives := h.gives (HasId.id x).toInt
    rw [findAndSetAllUsed, findAndSetUsed] at heq
    rw [ids_cons, findAndSetIdsUsed]
    generalize u.findAndSetIdUsed (HasId.id x).toInt = r at hgives heq ⊢
    obtain ⟨hx, hxs⟩ := List.cons_eq_cons.mp heq
    have hid := congrArg (fun x => (HasId.id x).toInt) hx
    cases hgives with
    | kept => exact congrArg (_ :: ·) (ih h hxs)
    | used hrange hrange' _ _ _ hinv =>
      have hrenames := Renames.toInt_setId hmin hmax (x := x)
        (Or.inl ⟨hrange, hrange'⟩)
      exact congrArg₂ List.cons (hrenames.symm.trans hid) (ih hinv hxs)
    | exhausted hrange _ hlow _ =>
      have hlt : min - 1 < 2 ^ 31 := by
        have := hrange.1
        have := hrange.2
        omega
      have hset : (HasId.id (HasId.setId x (min - 1))).toInt = min - 1 := by
        rw [HasId.id_setId]
        exact Int32.toInt_ofInt_of_le hmin hlt
      rw [hlow, hset] at hid
      have := hrange.1
      omega

theorem Inv.ids_findAndSetAllUsed (h : u.Inv) {xs : List α}
    (hok : (u.findAndSetAllUsed xs).1.asserted = false) :
    u.findAndSetIdsUsed (ids xs) =
      ((u.findAndSetAllUsed xs).1, ids (u.findAndSetAllUsed xs).2) := by
  rw [findAndSetAllUsed_eq] at hok ⊢
  rw [ids_zipWith_setId hmin hmax (h.givesAll _ hok).renames]

end

end UsedIds

end WebrtcWinXp.MediaSession
