import WebrtcWinXp.MediaSession.Offer

/-!
# The header extensions that are added to an offer

An extension that the other media type has already is shared with it, and the
others get unused ids.
-/

namespace WebrtcWinXp.MediaSession

open Support UsedIds

abbrev Ext := RtpHeaderExtension

theorem extensionIds_min : (-2 ^ 31 : ℤ) ≤ 1 - 1 := by decide

theorem extensionIds_max : (14 : ℤ) < 2 ^ 31 := by decide

/-- The supported extensions that are added, each with the one that it is
shared with. -/
def newExtensions (offered other : List Ext) :
    List Ext → List (Ext × Option Ext)
  | [] => []
  | ext :: reference =>
    match findByUri offered ext with
    | some _ => newExtensions offered other reference
    | none =>
      (ext, findByUri other ext) ::
        newExtensions (offered ++ [ext]) other reference

def freshExtensions (new : List (Ext × Option Ext)) : List Ext :=
  (new.filter fun p => p.2.isNone).map Prod.fst

def sharedExtensions (new : List (Ext × Option Ext)) : List Ext :=
  new.filterMap Prod.snd

/-- The added extensions with the ids that they have before. -/
def addedExtensions (new : List (Ext × Option Ext)) : List Ext :=
  new.map fun p => p.2.getD p.1

structure RenamedExt (ext ext' : Ext) : Prop where
  uri : ext'.uri = ext.uri
  id : Renames 1 14 ext.id.toInt ext'.id.toInt

theorem RenamedExt.refl (ext : Ext) : RenamedExt ext ext := by
  refine ⟨rfl, ?_⟩
  by_cases h : InRange 1 14 ext.id.toInt
  · exact Or.inl ⟨h, h⟩
  · exact Or.inr ⟨h, rfl⟩

theorem forall₂_renamedExt_refl (exts : List Ext) :
    List.Forall₂ RenamedExt exts exts := by
  induction exts with
  | nil => exact .nil
  | cons ext exts ih => exact .cons (.refl ext) ih

theorem renamedExt_setId {ext : Ext} {id : ℤ}
    (h : Renames 1 14 ext.id.toInt id) :
    RenamedExt ext (HasId.setId ext id) := by
  refine ⟨rfl, ?_⟩
  have heq := Renames.toInt_setId extensionIds_min extensionIds_max
    (x := ext) h
  exact heq.symm ▸ h

theorem findByUri_renamed {exts exts' : List Ext}
    (h : List.Forall₂ (fun e e' : Ext => e'.uri = e.uri) exts exts')
    (ext : Ext) :
    (findByUri exts' ext).isNone = (findByUri exts ext).isNone := by
  rw [findByUri, findByUri]
  induction h with
  | nil => rfl
  | cons huri _ ih =>
    rw [List.find?_cons, List.find?_cons, huri]
    split
    · rfl
    · exact ih

theorem rel_findByUri {exts exts' : List Ext}
    (h : List.Forall₂ RenamedExt exts exts') (ext : Ext) :
    Option.Rel RenamedExt (findByUri exts ext) (findByUri exts' ext) := by
  rw [findByUri, findByUri]
  induction h with
  | nil => exact .none
  | cons hrenamed _ ih =>
    rw [List.find?_cons, List.find?_cons, hrenamed.uri]
    split
    · exact .some hrenamed
    · exact ih

/-! ## The loop over the supported extensions -/

/-- An extension that is added is the one that it is shared with, or has an id
of its own. -/
def AddedExt (other : List Ext) (p : Ext × Option Ext) (ext : Ext) : Prop :=
  ext.uri = p.1.uri ∧
    match p.2 with
    | none => Renames 1 14 p.1.id.toInt ext.id.toInt
    | some found => ext ∈ other ∧ Renames 1 14 found.id.toInt ext.id.toInt

/-- The ids of the added extensions that are not shared. -/
def ownIds (new : List (Ext × Option Ext)) (added : List Ext) : List ℤ :=
  ids (((new.zip added).filter fun q => q.1.2.isNone).map Prod.snd)

structure AddedExts (other : List Ext) (new : List (Ext × Option Ext))
    (s t : List Ext × UsedRtpHeaderExtensionIds) (added : List Ext) : Prop
    where
  each : List.Forall₂ (AddedExt other) new added
  extensions : t.1 = s.1 ++ added
  usedIds : s.2.findAndSetIdsUsed (ids (freshExtensions new)) =
    (t.2, ownIds new added)

section

variable {other : List Ext} {s : List Ext × UsedRtpHeaderExtensionIds}
  {ext : Ext}

theorem addRtpHdrExt_of_found (h : (findByUri s.1 ext).isNone = false) :
    addRtpHdrExt other s ext = s := by
  rw [addRtpHdrExt]
  split
  · rfl
  · next hnone =>
      rw [hnone] at h
      cases h

theorem addRtpHdrExt_of_shared (h : (findByUri s.1 ext).isNone = true)
    {found : Ext} (hfound : findByUri other ext = some found) :
    addRtpHdrExt other s ext = (s.1 ++ [found], s.2) := by
  rw [addRtpHdrExt, Option.isNone_iff_eq_none.mp h, hfound]

theorem addRtpHdrExt_of_fresh (h : (findByUri s.1 ext).isNone = true)
    (hnone : findByUri other ext = none) :
    addRtpHdrExt other s ext =
      (s.1 ++ [(s.2.findAndSetUsed ext).2], (s.2.findAndSetUsed ext).1) := by
  rw [addRtpHdrExt, Option.isNone_iff_eq_none.mp h, hnone]

theorem asserted_foldl_addRtpHdrExt (reference : List Ext)
    (h : s.2.asserted = true) :
    (reference.foldl (addRtpHdrExt other) s).2.asserted = true := by
  induction reference generalizing s with
  | nil => exact h
  | cons ext reference ih =>
    refine ih ?_
    rw [addRtpHdrExt]
    split
    · exact h
    · split
      · exact h
      · exact asserted_findAndSetIdUsed h _

end

theorem prefix_foldl_addRtpHdrExt (other reference : List Ext)
    (s : List Ext × UsedRtpHeaderExtensionIds) :
    s.1 <+: (reference.foldl (addRtpHdrExt other) s).1 := by
  induction reference generalizing s with
  | nil => exact List.prefix_rfl
  | cons ext reference ih =>
    refine List.IsPrefix.trans ?_ (ih _)
    rw [addRtpHdrExt]
    split
    · exact List.prefix_rfl
    · split
      · exact List.prefix_append _ _
      · exact List.prefix_append _ _

theorem prefix_findAndSetRtpHdrExtUsed (reference offered other : List Ext)
    (used : UsedRtpHeaderExtensionIds) :
    offered <+: (findAndSetRtpHdrExtUsed reference offered other used).1 :=
  prefix_foldl_addRtpHdrExt other reference (offered, used)

theorem uri_of_findByUri {exts : List Ext} {ext found : Ext}
    (h : findByUri exts ext = some found) :
    found.uri = ext.uri ∧ found ∈ exts := by
  have huri := List.find?_some h
  exact ⟨of_decide_eq_true huri, List.mem_of_find?_eq_some h⟩

theorem added_foldl_addRtpHdrExt {other₀ other : List Ext}
    (hother : List.Forall₂ RenamedExt other₀ other) (reference : List Ext)
    {s : List Ext × UsedRtpHeaderExtensionIds} {offered : List Ext}
    (hoffered : List.Forall₂ (fun e e' : Ext => e'.uri = e.uri) offered s.1)
    (hinv : s.2.Inv)
    (hok : (reference.foldl (addRtpHdrExt other) s).2.asserted = false ∨
      (s.2.findAndSetIdsUsed (ids (freshExtensions
        (newExtensions offered other₀ reference)))).1.asserted = false) :
    ∃ added, AddedExts other (newExtensions offered other₀ reference) s
      (reference.foldl (addRtpHdrExt other) s) added := by
  induction reference generalizing s offered with
  | nil => exact ⟨[], .nil, (List.append_nil _).symm, rfl⟩
  | cons ext reference ih =>
    rw [List.foldl_cons] at hok ⊢
    rw [newExtensions] at hok ⊢
    have hfind := findByUri_renamed hoffered ext
    cases hfound : findByUri offered ext with
    | some found =>
      rw [hfound] at hfind hok
      rw [addRtpHdrExt_of_found hfind] at hok ⊢
      exact ih hoffered hinv hok
    | none =>
      rw [hfound] at hfind hok
      have hshared := rel_findByUri hother ext
      generalize findByUri other₀ ext = found₀ at hshared hok ⊢
      cases hfound' : findByUri other ext with
      | some found =>
        rw [hfound'] at hshared
        rw [addRtpHdrExt_of_shared hfind hfound'] at hok ⊢
        obtain ⟨huri, hmem⟩ := uri_of_findByUri hfound'
        cases hshared with
        | some hrenamed =>
          obtain ⟨added, heach, hextensions, hused⟩ :=
            ih (s := (s.1 ++ [found], s.2))
              (List.rel_append hoffered (.cons huri .nil)) hinv hok
          refine ⟨found :: added, .cons ⟨huri, hmem, hrenamed.id⟩ heach,
            ?_, hused⟩
          rw [hextensions, List.append_assoc, List.singleton_append]
      | none =>
        rw [hfound'] at hshared
        rw [addRtpHdrExt_of_fresh hfind hfound'] at hok ⊢
        cases hshared with
        | none =>
          rcases hinv.findAndSetIdUsed ext.id.toInt with
            hasserted | ⟨hinv', hrenames⟩
          · refine absurd hok ?_
            rw [asserted_foldl_addRtpHdrExt reference hasserted, not_or]
            refine ⟨fun hfalse => (by cases hfalse), ?_⟩
            have hrest := asserted_findAndSetIdsUsed hasserted
              (ids (freshExtensions
                (newExtensions (offered ++ [ext]) other₀ reference)))
            exact fun hfalse => by cases hrest.symm.trans hfalse
          · have hrenamed := renamedExt_setId hrenames
            obtain ⟨added, heach, hextensions, hused⟩ :=
              ih (List.rel_append hoffered
                (.cons hrenamed.uri .nil)) hinv' hok
            refine ⟨_ :: added, .cons ⟨hrenamed.uri, hrenamed.id⟩ heach,
              ?_, ?_⟩
            · rw [hextensions, List.append_assoc, List.singleton_append]
              rfl
            · have hid := Renames.toInt_setId extensionIds_min
                extensionIds_max (x := ext) hrenames
              obtain ⟨hused, hids⟩ := Prod.ext_iff.mp hused
              exact Prod.ext hused (congrArg₂ List.cons hid.symm hids)

theorem asserted_findAndSetRtpHdrExtUsed {used : UsedRtpHeaderExtensionIds}
    (h : used.asserted = true) (reference offered other : List Ext) :
    (findAndSetRtpHdrExtUsed reference offered other used).2.asserted = true :=
  asserted_foldl_addRtpHdrExt (s := (offered, used)) reference h

theorem exists_addedExts {used : UsedRtpHeaderExtensionIds} (hinv : used.Inv)
    {other₀ other : List Ext} (hother : List.Forall₂ RenamedExt other₀ other)
    (reference offered : List Ext) (rest : List ℤ)
    (hok : (findAndSetRtpHdrExtUsed reference offered other
        used).2.asserted = false ∨
      (used.findAndSetIdsUsed (ids (freshExtensions
        (newExtensions offered other₀ reference)) ++ rest)).1.asserted = false) :
    ∃ added used', List.Forall₂ (AddedExt other)
        (newExtensions offered other₀ reference) added ∧
      findAndSetRtpHdrExtUsed reference offered other used =
        (offered ++ added, used') ∧
      used'.Inv ∧
      used.findAndSetIdsUsed (ids (freshExtensions
          (newExtensions offered other₀ reference)) ++ rest) =
        ((used'.findAndSetIdsUsed rest).1,
          ownIds (newExtensions offered other₀ reference) added ++
            (used'.findAndSetIdsUsed rest).2) := by
  obtain ⟨added, heach, hextensions, hids⟩ := added_foldl_addRtpHdrExt
    (s := (offered, used)) hother reference
    (List.forall₂_same.mpr fun (_ : Ext) _ => rfl) hinv
    (hok.imp_right asserted_of_append)
  have hgives := hinv.givesAll (ids (freshExtensions
    (newExtensions offered other₀ reference))) (by
      rcases hok with hok | hok
      · dsimp only at hids
        rw [hids]
        exact hok
      · exact asserted_of_append hok)
  dsimp only at hids
  rw [hids] at hgives
  refine ⟨added, _, heach, Prod.ext hextensions rfl, hgives.inv, ?_⟩
  rw [findAndSetIdsUsed_append, hids]
  rfl

section

variable {other : List Ext} {new : List (Ext × Option Ext)} {added : List Ext}

/-- Without shared extensions in the range, the ids of the added extensions are
the ones given out. -/
theorem dynamicIds_of_not_shared
    (h : List.Forall₂ (AddedExt other) new added)
    (hshared : ∀ ext ∈ sharedExtensions new, ¬ InRange 1 14 ext.id.toInt) :
    dynamicIds 1 14 (ids added) = dynamicIds 1 14 (ownIds new added) := by
  induction h with
  | nil => rfl
  | @cons p ext new added hext _ ih =>
    obtain ⟨ext₀, found⟩ := p
    cases found with
    | none =>
      have heq := ih hshared
      change List.filter _ (_ :: _) = List.filter _ (_ :: _)
      rw [List.filter_cons, List.filter_cons]
      rw [dynamicIds, dynamicIds] at heq
      rw [← ids, heq]
      rfl
    | some found =>
      have hout : ¬ InRange 1 14 ext.id.toInt := by
        rw [hext.2.2.inRange_iff]
        exact hshared found List.mem_cons_self
      have heq := ih fun e he => hshared e (List.mem_cons_of_mem _ he)
      have hskip : dynamicIds 1 14 (ids (ext :: added)) =
          dynamicIds 1 14 (ids added) :=
        List.filter_cons_of_neg (p := fun id => decide (InRange 1 14 id))
          fun h => hout (of_decide_eq_true h)
      exact hskip.trans heq

theorem exists_mem_of_shared (h : List.Forall₂ (AddedExt other) new added)
    {found : Ext} (hfound : found ∈ sharedExtensions new)
    (hrange : InRange 1 14 found.id.toInt) :
    ∃ ext ∈ added, ext ∈ other ∧ InRange 1 14 ext.id.toInt := by
  induction h with
  | nil => cases hfound
  | @cons p ext new added hext _ ih =>
    obtain ⟨ext₀, found'⟩ := p
    cases found' with
    | none =>
      obtain ⟨ext', hmem, hother⟩ := ih hfound
      exact ⟨ext', List.mem_cons_of_mem _ hmem, hother⟩
    | some found' =>
      rcases List.mem_cons.mp hfound with rfl | hfound
      · exact ⟨ext, List.mem_cons_self, hext.2.1,
          hext.2.2.inRange_iff.mpr hrange⟩
      · obtain ⟨ext', hmem, hother⟩ := ih hfound
        exact ⟨ext', List.mem_cons_of_mem _ hmem, hother⟩

theorem renamed_addedExtensions
    (h : List.Forall₂ (AddedExt other) new added)
    (huri : ∀ p ∈ new, ∀ found, p.2 = some found → found.uri = p.1.uri) :
    List.Forall₂ RenamedExt (addedExtensions new) added := by
  induction h with
  | nil => exact .nil
  | @cons p ext new added hext _ ih =>
    refine .cons ?_ (ih fun p hp => huri p (List.mem_cons_of_mem _ hp))
    obtain ⟨ext₀, found⟩ := p
    cases found with
    | none => exact ⟨hext.1, hext.2⟩
    | some found =>
      refine ⟨?_, hext.2.2⟩
      exact hext.1.trans (huri _ List.mem_cons_self found rfl).symm

end

theorem uri_of_mem_newExtensions {offered other reference : List Ext} :
    ∀ p ∈ newExtensions offered other reference,
      ∀ found, p.2 = some found → found.uri = p.1.uri := by
  induction reference generalizing offered with
  | nil => exact fun p hp => absurd hp List.not_mem_nil
  | cons ext reference ih =>
    rw [newExtensions]
    split
    · exact ih
    · intro p hp found hfound
      rcases List.mem_cons.mp hp with rfl | hp
      · exact (uri_of_findByUri hfound).1
      · exact ih p hp found hfound

end WebrtcWinXp.MediaSession
