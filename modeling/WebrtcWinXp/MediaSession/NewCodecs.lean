import WebrtcWinXp.MediaSession.Offer

/-!
# The codecs that are added to an offer

Which supported codecs are added does not depend on the payload types that they
get, as long as these last.  The payload types are the ones that `UsedIds` gives
out for the codecs in their order.
-/

namespace WebrtcWinXp.MediaSession

open Support UsedIds

theorem payloadTypes_min : (-2 ^ 31 : ℤ) ≤ 96 - 1 := by decide

theorem payloadTypes_max : (127 : ℤ) < 2 ^ 31 := by decide

section

variable {κ : Type} [CodecKind κ]

/-- The supported codecs that are added, other than RTX codecs. -/
def missingCodecs (offered : List (Codec κ)) :
    List (Codec κ) → List (Codec κ)
  | [] => []
  | codec :: reference =>
    if isNew offered codec && !codec.isRtx then
      codec :: missingCodecs (offered ++ [codec]) reference
    else missingCodecs offered reference

def missingRtxCodecs (reference offered : List (Codec κ)) : List (Codec κ) :=
  (newRtxCodecs reference offered).entries.map Prod.snd

/-- A codec with another payload type; static payload types stay. -/
structure Renamed (codec codec' : Codec κ) : Prop where
  name : codec'.name = codec.name
  clockrate : codec'.clockrate = codec.clockrate
  fields : codec'.fields = codec.fields
  id : Renames 96 127 codec.id.toInt codec'.id.toInt

omit [CodecKind κ] in
theorem Renamed.refl (codec : Codec κ) : Renamed codec codec := by
  refine ⟨rfl, rfl, rfl, ?_⟩
  by_cases h : InRange 96 127 codec.id.toInt
  · exact Or.inl ⟨h, h⟩
  · exact Or.inr ⟨h, rfl⟩

omit [CodecKind κ] in
theorem renamed_setId {codec : Codec κ} {id : ℤ}
    (h : Renames 96 127 codec.id.toInt id) :
    Renamed codec (HasId.setId codec id) := by
  refine ⟨rfl, rfl, rfl, ?_⟩
  have heq := Renames.toInt_setId payloadTypes_min payloadTypes_max
    (x := codec) h
  exact heq.symm ▸ h

theorem Renamed.matches_eq {codec codec' : Codec κ} (h : Renamed codec codec')
    (other : Codec κ) : codec'.Matches other = codec.Matches other := by
  rw [Codec.Matches, Codec.Matches, h.name, h.clockrate, h.fields]
  congr 1
  split
  · next hstatic =>
      refine decide_eq_decide.mpr ?_
      rw [← Int32.toInt_inj, ← Int32.toInt_inj]
      rcases h.id with ⟨hold, hnew⟩ | ⟨-, heq⟩
      · rw [kMaxStaticPayloadId] at hstatic
        have := hold.1
        have := hnew.1
        constructor <;> intro heq <;> omega
      · rw [heq]
  · rfl

theorem isNew_eq {offered offered' : List (Codec κ)}
    (h : List.Forall₂ Renamed offered offered') (codec : Codec κ) :
    isNew offered' codec = isNew offered codec := by
  rw [isNew, isNew, findMatchingCodec, findMatchingCodec]
  induction h with
  | nil => rfl
  | cons hrenamed _ ih =>
    rw [List.find?_cons, List.find?_cons, hrenamed.matches_eq]
    split
    · rfl
    · exact ih

/-! ## The loop over the supported codecs -/

theorem asserted_foldl_addCodec (reference : List (Codec κ))
    {s : CodecsToOffer κ} (h : s.used.asserted = true) :
    (reference.foldl addCodec s).used.asserted = true := by
  induction reference generalizing s with
  | nil => exact h
  | cons codec reference ih =>
    refine ih ?_
    rw [addCodec]
    split
    · exact asserted_findAndSetIdUsed h _
    · exact h

/-- The change that a codec makes to the RTX codecs. -/
def retarget (rtx : Codec κ) (codec' : Codec κ) : Codec κ :=
  rtx.setParam kCodecParamAssociatedPayloadType (intToString codec'.id.toInt)

theorem addCodec_of_new {s : CodecsToOffer κ} {codec : Codec κ}
    (h : isNew s.offered codec && !codec.isRtx) :
    addCodec s codec =
      { offered := s.offered ++ [(s.used.findAndSetUsed codec).2]
        rtxCodecs := s.rtxCodecs.modify codec.id.toInt fun rtx =>
          retarget rtx (s.used.findAndSetUsed codec).2
        used := (s.used.findAndSetUsed codec).1 } :=
  if_pos h

theorem addCodec_of_old {s : CodecsToOffer κ} {codec : Codec κ}
    (h : ¬ (isNew s.offered codec && !codec.isRtx)) : addCodec s codec = s :=
  if_neg h

/-- What the loop adds. -/
structure Added (s : CodecsToOffer κ) (missing : List (Codec κ))
    (t : CodecsToOffer κ) (added : List (Codec κ)) : Prop where
  renamed : List.Forall₂ Renamed missing added
  offered : t.offered = s.offered ++ added
  used : s.used.findAndSetIdsUsed (ids missing) = (t.used, ids added)
  rtxCodecs : t.rtxCodecs = (missing.zip added).foldl (fun m p =>
    m.modify p.1.id.toInt fun rtx => retarget rtx p.2) s.rtxCodecs

/-- The loop adds the missing codecs with the payload types that are given out,
as long as these last. -/
theorem added_foldl_addCodec (reference : List (Codec κ))
    {s : CodecsToOffer κ} {offered : List (Codec κ)}
    (hoffered : List.Forall₂ Renamed offered s.offered) (hinv : s.used.Inv)
    (hok : (reference.foldl addCodec s).used.asserted = false ∨
      (s.used.findAndSetIdsUsed
        (ids (missingCodecs offered reference))).1.asserted = false) :
    ∃ added, Added s (missingCodecs offered reference)
      (reference.foldl addCodec s) added := by
  induction reference generalizing s offered with
  | nil => exact ⟨[], .nil, (List.append_nil _).symm, rfl, rfl⟩
  | cons codec reference ih =>
    rw [List.foldl_cons] at hok ⊢
    rw [missingCodecs] at hok ⊢
    by_cases hnew : isNew offered codec && !codec.isRtx
    · rw [if_pos hnew] at hok ⊢
      rw [← isNew_eq hoffered] at hnew
      rw [addCodec_of_new hnew] at hok ⊢
      rcases hinv.findAndSetIdUsed codec.id.toInt with
        hasserted | ⟨hinv', hrenames⟩
      · refine absurd hok ?_
        rw [asserted_foldl_addCodec reference hasserted, not_or]
        refine ⟨fun hfalse => (by cases hfalse), ?_⟩
        have hrest := asserted_findAndSetIdsUsed hasserted
          (ids (missingCodecs (offered ++ [codec]) reference))
        exact fun hfalse => by cases hrest.symm.trans hfalse
      · have hrenamed := renamed_setId hrenames
        obtain ⟨added, hadded⟩ := ih (List.rel_append hoffered
          (.cons hrenamed .nil)) hinv' hok
        refine ⟨_ :: added, .cons hrenamed hadded.renamed, ?_, ?_, ?_⟩
        · rw [hadded.offered, List.append_assoc, List.singleton_append]
          rfl
        · have hid := Renames.toInt_setId payloadTypes_min payloadTypes_max
            (x := codec) hrenames
          obtain ⟨hused, hids⟩ := Prod.ext_iff.mp hadded.used
          rw [ids_cons, findAndSetIdsUsed, ids_cons]
          exact Prod.ext hused (congrArg₂ List.cons hid.symm hids)
        · exact hadded.rtxCodecs
    · rw [if_neg hnew] at hok ⊢
      rw [← isNew_eq hoffered] at hnew
      rw [addCodec_of_old hnew] at hok ⊢
      exact ih hoffered hinv hok

theorem mem_missingCodecs {offered reference : List (Codec κ)}
    {codec : Codec κ} (h : codec ∈ missingCodecs offered reference) :
    codec ∈ reference ∧ codec.isRtx = false := by
  induction reference generalizing offered with
  | nil => cases h
  | cons codec' reference ih =>
    rw [missingCodecs] at h
    split at h
    · next hnew =>
        rcases List.mem_cons.mp h with rfl | h
        · refine ⟨List.mem_cons_self, ?_⟩
          simpa using (Bool.and_eq_true_iff.mp hnew).2
        · exact (ih h).imp_left (List.mem_cons_of_mem _)
    · exact (ih h).imp_left (List.mem_cons_of_mem _)

theorem mem_missingCodecs_of_isNew {offered reference : List (Codec κ)}
    (hrepeats : reference.Pairwise fun codec codec' => ¬ codec.Matches codec')
    {codec : Codec κ} (hmem : codec ∈ reference) (hrtx : codec.isRtx = false)
    (hnew : isNew offered codec) : codec ∈ missingCodecs offered reference := by
  induction reference generalizing offered with
  | nil => cases hmem
  | cons codec' reference ih =>
    obtain ⟨hfirst, hrepeats⟩ := List.pairwise_cons.mp hrepeats
    rw [missingCodecs]
    rcases List.mem_cons.mp hmem with rfl | hmem
    · rw [if_pos (by simp [hnew, hrtx])]
      exact List.mem_cons_self
    · split
      · refine List.mem_cons_of_mem _ (ih hrepeats hmem ?_)
        rw [isNew, findMatchingCodec, List.find?_append, ← findMatchingCodec,
          Option.isNone_iff_eq_none.mp hnew, Option.none_or]
        simp [hfirst codec hmem]
      · exact ih hrepeats hmem hnew

theorem findMatchingCodec_of_mem_zip {offered offered' reference added :
      List (Codec κ)} (hoffered : List.Forall₂ Renamed offered offered')
    (hadded : List.Forall₂ Renamed (missingCodecs offered reference) added)
    {p : Codec κ × Codec κ}
    (hp : p ∈ (missingCodecs offered reference).zip added)
    (rest : List (Codec κ)) :
    findMatchingCodec (offered' ++ added ++ rest) p.1 = some p.2 := by
  induction reference generalizing offered offered' added with
  | nil => cases hp
  | cons codec reference ih =>
    rw [missingCodecs] at hadded hp
    split at hadded
    · next hnew =>
        rw [if_pos hnew] at hp
        cases hadded with
        | @cons _ codec' _ added hcodec hadded =>
          rcases List.mem_cons.mp hp with rfl | hp
          · have hnone : findMatchingCodec offered' codec = none := by
              rw [← Option.isNone_iff_eq_none, ← isNew, isNew_eq hoffered]
              exact (Bool.and_eq_true_iff.mp hnew).1
            have hmatches : codec'.Matches codec := by
              rw [hcodec.matches_eq]
              exact codec.matches_self
            rw [findMatchingCodec, List.append_assoc, List.find?_append,
              ← findMatchingCodec, hnone, Option.none_or, List.cons_append]
            simp [hmatches]
          · have hfound := ih (List.rel_append hoffered
              (.cons hcodec .nil)) hadded hp
            rwa [List.append_assoc offered', List.singleton_append]
              at hfound
    · next hold =>
        rw [if_neg hold] at hp
        exact ih hoffered hadded hp

omit [CodecKind κ] in
theorem associatedPayloadType_retarget (rtx codec' : Codec κ) :
    (retarget rtx codec').associatedPayloadType = codec'.id.toInt := by
  rw [Codec.associatedPayloadType, Codec.getParam, retarget, Codec.setParam,
    StdMap.find_assign_self, Option.getD_some]
  have hle := codec'.id.le_toInt
  have hlt := codec'.id.toInt_lt
  refine fromString_intToString ?_ ?_
  · rw [intMin]
    exact hle
  · rw [intMax]
    omega

theorem associatedPayloadType_addRtxCodec {offered : List (Codec κ)}
    {rtx : OrderedMap ℤ (Codec κ)}
    (h : ∀ e ∈ rtx.entries, e.2.associatedPayloadType = e.1)
    (codec : Codec κ) :
    ∀ e ∈ (addRtxCodec offered rtx codec).entries,
      e.2.associatedPayloadType = e.1 := by
  intro e he
  rw [addRtxCodec] at he
  split at he
  · rcases rtx.mem_insert he with ⟨heq, -⟩ | he
    · obtain ⟨hkey, hvalue⟩ := Prod.mk.inj heq
      rw [hkey, hvalue, Codec.associatedPayloadType, Codec.getParam]
      cases hfind : codec.params.find kCodecParamAssociatedPayloadType with
      | none => simp [StdMap.subscript, hfind]
      | some apt => simp [StdMap.subscript, hfind]
    · exact h e he
  · exact h e he

theorem associatedPayloadType_of_mem_newRtxCodecs
    (reference offered : List (Codec κ)) :
    ∀ e ∈ (newRtxCodecs reference offered).entries,
      e.2.associatedPayloadType = e.1 := by
  have hfold : ∀ (l : List (Codec κ)) (rtx : OrderedMap ℤ (Codec κ)),
      (∀ e ∈ rtx.entries, e.2.associatedPayloadType = e.1) →
      ∀ e ∈ (l.foldl (addRtxCodec offered) rtx).entries,
        e.2.associatedPayloadType = e.1 := by
    intro l
    induction l with
    | nil => exact fun rtx hrtx => hrtx
    | cons codec l ih =>
      exact fun rtx hrtx =>
        ih _ (associatedPayloadType_addRtxCodec hrtx codec)
  exact hfold reference .empty fun e he => absurd he List.not_mem_nil

omit [CodecKind κ] in
theorem foldl_retarget (k : ℤ) (l : List (Codec κ × Codec κ)) (rtx : Codec κ) :
    (∃ p ∈ l, p.1.id.toInt = k ∧
      (l.foldl (fun rtx p => if k = p.1.id.toInt then retarget rtx p.2 else rtx)
        rtx).associatedPayloadType = p.2.id.toInt) ∨
    (∀ p ∈ l, p.1.id.toInt ≠ k) ∧
      l.foldl (fun rtx p => if k = p.1.id.toInt then retarget rtx p.2 else rtx)
        rtx = rtx := by
  induction l generalizing rtx with
  | nil => exact Or.inr ⟨fun p hp => absurd hp List.not_mem_nil, rfl⟩
  | cons p l ih =>
    rw [List.foldl_cons]
    rcases ih (if k = p.1.id.toInt then retarget rtx p.2 else rtx) with
      ⟨q, hq, hk, hapt⟩ | ⟨hnone, heq⟩
    · exact Or.inl ⟨q, List.mem_cons_of_mem _ hq, hk, hapt⟩
    · rw [heq]
      by_cases hk : k = p.1.id.toInt
      · rw [if_pos hk]
        exact Or.inl ⟨p, List.mem_cons_self, hk.symm,
          associatedPayloadType_retarget rtx p.2⟩
      · rw [if_neg hk]
        refine Or.inr ⟨fun q hq => ?_, rfl⟩
        rcases List.mem_cons.mp hq with rfl | hq
        · exact Ne.symm hk
        · exact hnone q hq

omit [CodecKind κ] in
theorem id_foldl_retarget (k : ℤ) (l : List (Codec κ × Codec κ))
    (rtx : Codec κ) :
    (l.foldl (fun rtx p => if k = p.1.id.toInt then retarget rtx p.2 else rtx)
      rtx).id = rtx.id := by
  induction l generalizing rtx with
  | nil => rfl
  | cons p l ih =>
    rw [List.foldl_cons, ih]
    split
    · rfl
    · rfl

/-! ## All that is added -/

/-- All supported codecs that are added, in the order in which they get their
payload types. -/
def missing (reference offered : List (Codec κ)) : List (Codec κ) :=
  missingCodecs offered reference ++ missingRtxCodecs reference offered

/-- What an RTX codec refers to when the missing codecs have been added. -/
def RefersTo (added : List (Codec κ × Codec κ)) (e : ℤ × Codec κ)
    (rtx : Codec κ) : Prop :=
  (∃ p ∈ added, p.1.id.toInt = e.1 ∧
    rtx.associatedPayloadType = p.2.id.toInt) ∨
  (∀ p ∈ added, p.1.id.toInt ≠ e.1) ∧ rtx.associatedPayloadType = e.1

structure Offers (reference offered : List (Codec κ)) (used : UsedPayloadTypes)
    (r : List (Codec κ) × UsedPayloadTypes) (added rtx : List (Codec κ)) :
    Prop where
  renamed : List.Forall₂ Renamed (missingCodecs offered reference) added
  codecs : r.1 = offered ++ added ++ rtx
  usedIds : used.findAndSetIdsUsed (ids (missing reference offered)) =
    (r.2, ids (added ++ rtx))
  refersTo : List.Forall₂
    (RefersTo ((missingCodecs offered reference).zip added))
    (newRtxCodecs reference offered).entries rtx

omit [CodecKind κ] in
theorem forall₂_renamed_refl (codecs : List (Codec κ)) :
    List.Forall₂ Renamed codecs codecs := by
  induction codecs with
  | nil => exact .nil
  | cons codec codecs ih => exact .cons (.refl codec) ih

omit [CodecKind κ] in
theorem entries_foldl_modify (rtx : OrderedMap ℤ (Codec κ))
    (l : List (Codec κ × Codec κ)) :
    (l.foldl (fun m p => m.modify p.1.id.toInt fun rtx => retarget rtx p.2)
      rtx).entries = rtx.entries.map fun e => (e.1,
        l.foldl (fun rtx p =>
          if e.1 = p.1.id.toInt then retarget rtx p.2 else rtx) e.2) := by
  rw [OrderedMap.foldl_modify rtx (fun p : Codec κ × Codec κ => p.1.id.toInt)
    fun p rtx => retarget rtx p.2]
  rfl

omit [CodecKind κ] in
theorem forall₂_zipWith_setId {added : List (Codec κ × Codec κ)}
    {entries : List (ℤ × Codec κ)} {rtx : List (Codec κ)} {newIds : List ℤ}
    (h : List.Forall₂ (RefersTo added) entries rtx)
    (hids : List.Forall₂ (Renames 96 127) (ids rtx) newIds) :
    List.Forall₂ (RefersTo added) entries
      (List.zipWith HasId.setId rtx newIds) := by
  induction h generalizing newIds with
  | nil => exact .nil
  | cons hrefers _ ih =>
    cases hids with
    | cons _ hids => exact .cons hrefers (ih hids)

theorem offers_findCodecsToOffer (reference offered : List (Codec κ))
    {used : UsedPayloadTypes} (hinv : used.Inv)
    (hok : (findCodecsToOffer reference offered used).2.asserted = false ∨
      (used.findAndSetIdsUsed
        (ids (missing reference offered))).1.asserted = false) :
    ∃ added rtx, Offers reference offered used
      (findCodecsToOffer reference offered used) added rtx := by
  rw [missing, ids_append, findAndSetIdsUsed_append] at hok
  have hfirst : (reference.foldl addCodec ⟨offered,
      newRtxCodecs reference offered, used⟩).used.asserted = false ∨
      (used.findAndSetIdsUsed (ids (missingCodecs offered
        reference))).1.asserted = false := by
    refine hok.imp (fun hok => ?_) fun hok => ?_
    · refine Bool.eq_false_iff.mpr fun hasserted => ?_
      have hend := asserted_findAndSetAllUsed hasserted
        ((reference.foldl addCodec ⟨offered, newRtxCodecs reference offered,
          used⟩).rtxCodecs.entries.map Prod.snd)
      cases hend.symm.trans hok
    · refine Bool.eq_false_iff.mpr fun hasserted => ?_
      have hend := asserted_findAndSetIdsUsed hasserted
        (ids (missingRtxCodecs reference offered))
      cases hend.symm.trans hok
  obtain ⟨added, hadded⟩ := added_foldl_addCodec reference
    (forall₂_renamed_refl offered) hinv hfirst
  rw [findCodecsToOffer] at hok ⊢
  generalize reference.foldl addCodec ⟨offered, newRtxCodecs reference offered,
    used⟩ = s at hfirst hadded hok ⊢
  obtain ⟨hrenamed, hoffered, hused, hrtx⟩ := hadded
  rw [hused] at hok hfirst
  have hgives := hinv.givesAll (ids (missingCodecs offered reference))
    (by rw [hused]; exact hfirst.elim id id)
  rw [hused] at hgives
  have hvalues : s.rtxCodecs.entries.map Prod.snd =
      (newRtxCodecs reference offered).entries.map fun e =>
        ((missingCodecs offered reference).zip added).foldl (fun rtx p =>
          if e.1 = p.1.id.toInt then retarget rtx p.2 else rtx) e.2 := by
    rw [hrtx, entries_foldl_modify, List.map_map]
    rfl
  have hvalueIds : ids (s.rtxCodecs.entries.map Prod.snd) =
      ids (missingRtxCodecs reference offered) := by
    rw [hvalues, missingRtxCodecs, ids, ids, List.map_map, List.map_map]
    refine List.map_congr_left fun e _ => ?_
    exact congrArg Int32.toInt (id_foldl_retarget e.1 _ e.2)
  have hrefers : List.Forall₂
      (RefersTo ((missingCodecs offered reference).zip added))
      (newRtxCodecs reference offered).entries
      (s.rtxCodecs.entries.map Prod.snd) := by
    rw [hvalues, List.forall₂_map_right_iff, List.forall₂_same]
    intro e he
    refine (foldl_retarget e.1 _ e.2).imp_right fun h => ⟨h.1, ?_⟩
    rw [h.2]
    exact associatedPayloadType_of_mem_newRtxCodecs reference offered e he
  have hlast : (s.used.findAndSetAllUsed
      (s.rtxCodecs.entries.map Prod.snd)).1.asserted = false := by
    rcases hok with hok | hok
    · exact hok
    · rw [findAndSetAllUsed_eq, hvalueIds]
      exact hok
  have hids := hgives.inv.ids_findAndSetAllUsed payloadTypes_min
    payloadTypes_max hlast
  refine ⟨added, (s.used.findAndSetAllUsed
    (s.rtxCodecs.entries.map Prod.snd)).2, hrenamed, ?_, ?_, ?_⟩
  · exact congrArg (· ++ _) hoffered
  · rw [missing, ids_append, findAndSetIdsUsed_append, hused, ids_append]
    rw [← hvalueIds, hids]
  · rw [findAndSetAllUsed_eq] at hlast ⊢
    exact forall₂_zipWith_setId hrefers (hgives.inv.givesAll _ hlast).renames

theorem asserted_findCodecsToOffer {used : UsedPayloadTypes}
    (h : used.asserted = true) (reference offered : List (Codec κ)) :
    (findCodecsToOffer reference offered used).2.asserted = true :=
  asserted_findAndSetAllUsed (asserted_foldl_addCodec reference h) _

theorem prefix_findCodecsToOffer (reference offered : List (Codec κ))
    (used : UsedPayloadTypes) :
    offered <+: (findCodecsToOffer reference offered used).1 := by
  have hloop : ∀ (reference : List (Codec κ)) (s : CodecsToOffer κ),
      s.offered <+: (reference.foldl addCodec s).offered := by
    intro reference
    induction reference with
    | nil => exact fun s => List.prefix_rfl
    | cons codec reference ih =>
      intro s
      refine List.IsPrefix.trans ?_ (ih _)
      rw [addCodec]
      split
      · exact List.prefix_append _ _
      · exact List.prefix_rfl
  exact (hloop reference ⟨offered, newRtxCodecs reference offered, used⟩).trans
    (List.prefix_append _ _)

/-- The supported codecs with the payload type that an RTX codec refers to. -/
def Associated (reference : List (Codec κ)) (e : ℤ × Codec κ)
    (codec : Codec κ) : Prop :=
  codec ∈ reference ∧ codec.isRtx = false ∧ codec.id.toInt = e.1

/-- An RTX codec refers to the offered codec for one that it was associated
with. -/
def Follows (reference offered : List (Codec κ)) (e : ℤ × Codec κ)
    (rtx : Codec κ) : Prop :=
  (∃ codec, Associated reference e codec) →
    ∃ codec found, Associated reference e codec ∧
      findMatchingCodec offered codec = some found ∧
      rtx.associatedPayloadType = found.id.toInt

/-- The RTX codecs that are added, the last ones, refer to what they were
associated with. -/
def RtxFollows (reference current offered : List (Codec κ)) : Prop :=
  ∃ front rtx, offered = front ++ rtx ∧
    List.Forall₂ (Follows reference offered)
      (newRtxCodecs reference current).entries rtx

/-- A codec that an RTX codec is associated with is added, or the current one
for it has the same payload type. -/
def RtxKept (reference current : List (Codec κ)) : Prop :=
  ∀ e ∈ (newRtxCodecs reference current).entries,
    (∃ codec, Associated reference e codec) →
      (∃ codec ∈ missingCodecs current reference, codec.id.toInt = e.1) ∨
      ∃ codec found, Associated reference e codec ∧
        findMatchingCodec current codec = some found ∧ found.id.toInt = e.1

section

variable {reference current : List (Codec κ)} {used : UsedPayloadTypes}
  {r : List (Codec κ) × UsedPayloadTypes} {added rtx : List (Codec κ)}

theorem Offers.findMatchingCodec_of_current
    (h : Offers reference current used r added rtx) {codec found : Codec κ}
    (hfound : findMatchingCodec current codec = some found) :
    findMatchingCodec r.1 codec = some found := by
  rw [findMatchingCodec] at hfound
  rw [h.codecs, findMatchingCodec, List.append_assoc, List.find?_append, hfound]
  rfl

theorem Offers.follows (h : Offers reference current used r added rtx)
    (hkept : RtxKept reference current) {e : ℤ × Codec κ} {codec : Codec κ}
    (he : e ∈ (newRtxCodecs reference current).entries)
    (hrefers : RefersTo ((missingCodecs current reference).zip added) e codec) :
    Follows reference r.1 e codec := by
  intro hassociated
  rcases hrefers with ⟨p, hp, hid, hapt⟩ | ⟨hnone, hapt⟩
  · obtain ⟨hmem, hrtx⟩ := mem_missingCodecs (List.of_mem_zip hp).1
    refine ⟨p.1, p.2, ⟨hmem, hrtx, hid⟩, ?_, hapt⟩
    rw [h.codecs]
    exact findMatchingCodec_of_mem_zip (forall₂_renamed_refl current)
      h.renamed hp rtx
  · rcases hkept e he hassociated with
      ⟨codec', hmem, hid⟩ | ⟨codec', found, hcodec', hfound, hid⟩
    · obtain ⟨i, hi, heq⟩ := List.mem_iff_getElem.mp hmem
      have hi' : i < added.length := h.renamed.length_eq ▸ hi
      have hzip : ((missingCodecs current reference)[i], added[i]) ∈
          (missingCodecs current reference).zip added := by
        refine List.mem_iff_getElem.mpr ⟨i, ?_, List.getElem_zip⟩
        rw [List.length_zip]
        exact lt_min hi hi'
      exact absurd (heq.symm ▸ hid) (hnone _ hzip)
    · exact ⟨codec', found, hcodec', h.findMatchingCodec_of_current hfound,
        hapt.trans hid.symm⟩

theorem Offers.rtxFollows (h : Offers reference current used r added rtx)
    (hkept : RtxKept reference current) :
    RtxFollows reference current r.1 := by
  refine ⟨current ++ added, rtx, h.codecs, ?_⟩
  have hall := List.forall₂_iff_zip.mp h.refersTo
  refine List.forall₂_iff_zip.mpr ⟨hall.1, fun {e codec} hmem => ?_⟩
  exact h.follows hkept (List.of_mem_zip hmem).1 (hall.2 hmem)

/-- Where no supported codec matches a later one, RTX codecs follow only if the
codecs that they are associated with keep their payload types. -/
theorem Offers.rtxKept (h : Offers reference current used r added rtx)
    (hrepeats : reference.Pairwise fun codec codec' => ¬ codec.Matches codec')
    (hfollows : RtxFollows reference current r.1) :
    RtxKept reference current := by
  obtain ⟨front, rtx', heq, hall⟩ := hfollows
  have hlength := hall.length_eq.symm.trans h.refersTo.length_eq
  obtain ⟨-, rfl⟩ := List.append_inj' (heq.symm.trans h.codecs) hlength
  intro e he hassociated
  obtain ⟨i, hi, rfl⟩ := List.mem_iff_getElem.mp he
  have hrefers := h.refersTo.get hi (hall.length_eq ▸ hi)
  have hfollow := hall.get hi (hall.length_eq ▸ hi)
  rcases hrefers with ⟨p, hp, hid, -⟩ | ⟨hnone, hapt⟩
  · exact Or.inl ⟨p.1, (List.of_mem_zip hp).1, hid⟩
  · obtain ⟨codec, found, hcodec, hfound, hapt'⟩ := hfollow hassociated
    by_cases hnew : isNew current codec
    · have hmem := mem_missingCodecs_of_isNew hrepeats hcodec.1 hcodec.2.1 hnew
      exact Or.inl ⟨codec, hmem, hcodec.2.2⟩
    · rw [isNew, Option.isNone_iff_eq_none] at hnew
      obtain ⟨found', hfound'⟩ := Option.ne_none_iff_exists'.mp hnew
      have heq' := hfound.symm.trans (h.findMatchingCodec_of_current hfound')
      cases heq'
      exact Or.inr ⟨codec, found, hcodec, hfound', hapt'.symm.trans hapt⟩

end

end

end WebrtcWinXp.MediaSession
