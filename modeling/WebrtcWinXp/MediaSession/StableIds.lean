import WebrtcWinXp.MediaSession.NewCodecs
import WebrtcWinXp.MediaSession.NewExtensions

/-!
# Stable ids in offers

The ids in an offer are unique and stay in the offers after it, as long as they
last, RTX codecs belong to codecs that keep their payload types or are added,
and no header extension is used for audio and for video.
-/

namespace WebrtcWinXp.MediaSession

open Support UsedIds

namespace Codecs

variable (codecs : Codecs)

def ids : List ℤ :=
  UsedIds.ids codecs.audio ++ UsedIds.ids codecs.video ++
    UsedIds.ids codecs.data

/-- All codecs are offered again, in front of the others. -/
structure KeptIn (codecs codecs' : Codecs) : Prop where
  audio : codecs.audio <+: codecs'.audio
  video : codecs.video <+: codecs'.video
  data : codecs.data <+: codecs'.data

end Codecs

namespace Extensions

variable (extensions : Extensions)

def all : List Ext := extensions.audio ++ extensions.video

structure KeptIn (extensions extensions' : Extensions) : Prop where
  audio : extensions.audio <+: extensions'.audio
  video : extensions.video <+: extensions'.video

def UniqueUris : Prop :=
  ∀ ext ∈ extensions.all, ∀ ext' ∈ extensions.all,
    InRange 1 14 ext.id.toInt → ext.id = ext'.id → ext.uri = ext'.uri

end Extensions

/-- The ids of a description are consistent. -/
structure ConsistentIds (current : Option SessionDescription) : Prop where
  payloadTypes : (dynamicIds 96 127 (currentCodecs current).ids).Nodup
  extensions : (currentExtensions current).UniqueUris

namespace MediaSessionDescriptionFactory

variable (factory : MediaSessionDescriptionFactory)
  (current : Option SessionDescription)

def offeredCodecs : Codecs := (factory.getCodecsToOffer current).1

def offeredExtensions : Extensions := (factory.getRtpHdrExtsToOffer current).1

/-- The ids in an offer are unique and stable. -/
structure StableIds : Prop where
  payloadTypesLast : (factory.getCodecsToOffer current).2.asserted = false
  extensionIdsLast : (factory.getRtpHdrExtsToOffer current).2.asserted = false
  payloadTypes : (dynamicIds 96 127 (factory.offeredCodecs current).ids).Nodup
  extensions : (factory.offeredExtensions current).UniqueUris
  rtxAudio : RtxFollows factory.audioCodecs (currentCodecs current).audio
    (factory.offeredCodecs current).audio
  rtxVideo : RtxFollows factory.videoCodecs (currentCodecs current).video
    (factory.offeredCodecs current).video
  rtxData : RtxFollows factory.dataCodecs (currentCodecs current).data
    (factory.offeredCodecs current).data
  keepsCodecs : (currentCodecs current).KeptIn (factory.offeredCodecs current)
  keepsExtensions :
    (currentExtensions current).KeptIn (factory.offeredExtensions current)
  /-- Offers after one that was agreed on keep its ids. -/
  again : ∀ next : SessionDescription,
    currentCodecs (some next) = factory.offeredCodecs current →
    currentExtensions (some next) = factory.offeredExtensions current →
    (factory.offeredCodecs current).KeptIn
        (factory.offeredCodecs (some next)) ∧
      (factory.offeredExtensions current).KeptIn
        (factory.offeredExtensions (some next))

/-- The supported codecs that the current description does not have. -/
def missingIds : List ℤ :=
  ids (missing factory.audioCodecs (currentCodecs current).audio) ++
  ids (missing factory.videoCodecs (currentCodecs current).video) ++
  ids (missing factory.dataCodecs (currentCodecs current).data)

def newAudioExtensions : List (Ext × Option Ext) :=
  newExtensions (currentExtensions current).audio
    (currentExtensions current).video factory.audioRtpExtensions

def newVideoExtensions : List (Ext × Option Ext) :=
  newExtensions (currentExtensions current).video
    ((currentExtensions current).audio ++
      addedExtensions (factory.newAudioExtensions current))
    factory.videoRtpExtensions

def freshIds : List ℤ :=
  ids (freshExtensions (factory.newAudioExtensions current)) ++
  ids (freshExtensions (factory.newVideoExtensions current))

structure IdsFit : Prop where
  payloadTypes : (dynamicIds 96 127 ((currentCodecs current).ids ++
    factory.missingIds current)).length ≤ 32
  extensionIds : (dynamicIds 1 14 (ids (currentExtensions current).all ++
    factory.freshIds current)).length ≤ 14
  rtxAudio : RtxKept factory.audioCodecs (currentCodecs current).audio
  rtxVideo : RtxKept factory.videoCodecs (currentCodecs current).video
  rtxData : RtxKept factory.dataCodecs (currentCodecs current).data
  /-- No extension is used twice. -/
  distinct : (dynamicIds 1 14 (ids (currentExtensions current).all)).Nodup
  unshared : ∀ ext ∈ sharedExtensions (factory.newAudioExtensions current) ++
    sharedExtensions (factory.newVideoExtensions current),
      ¬ InRange 1 14 ext.id.toInt

/-- No supported codec matches a later one. -/
structure NoRepeats : Prop where
  audio : factory.audioCodecs.Pairwise fun codec codec' =>
    ¬ codec.Matches codec'
  video : factory.videoCodecs.Pairwise fun codec codec' =>
    ¬ codec.Matches codec'
  data : factory.dataCodecs.Pairwise fun codec codec' =>
    ¬ codec.Matches codec'

variable {factory current}

/-! ## Payload types -/

variable (factory) in
theorem getCodecsToOffer_eq
    (h : (dynamicIds 96 127 (currentCodecs current).ids).Nodup) :
    ∃ used : UsedPayloadTypes, used.Inv ∧
      new.findAndSetIdsUsed (currentCodecs current).ids =
        (used, (currentCodecs current).ids) ∧
      factory.getCodecsToOffer current =
        let audio := findCodecsToOffer factory.audioCodecs
          (currentCodecs current).audio used
        let video := findCodecsToOffer factory.videoCodecs
          (currentCodecs current).video audio.2
        let data := findCodecsToOffer factory.dataCodecs
          (currentCodecs current).data video.2
        (⟨audio.1, video.1, data.1⟩, data.2) := by
  have hinv : (new : UsedPayloadTypes).Inv := inv_new
  obtain ⟨heq, hok⟩ := hinv.findAndSetIdsUsed_eq h
    fun id _ => Finset.notMem_empty id
  refine ⟨_, (hinv.givesAll _ hok).inv, Prod.ext rfl heq, ?_⟩
  rw [Codecs.ids] at heq ⊢
  obtain ⟨hfront, hdata⟩ := findAndSetIdsUsed_append_eq heq
  obtain ⟨haudio, hvideo⟩ := findAndSetIdsUsed_append_eq hfront
  rw [findAndSetIdsUsed_append] at hdata
  rw [findAndSetIdsUsed_append, findAndSetIdsUsed_append]
  rw [getCodecsToOffer, findAndSetAllUsed_of_eq haudio]
  dsimp only
  rw [findAndSetAllUsed_of_eq hvideo]
  dsimp only
  rw [findAndSetAllUsed_of_eq hdata]

/-- What is added to an offer for one media type. -/
structure Addition (κ : Type) where
  used : UsedPayloadTypes
  offered : List (Codec κ)
  added : List (Codec κ)
  rtx : List (Codec κ)

def Addition.Adds {κ : Type} [CodecKind κ] (a : Addition κ)
    (reference current : List (Codec κ)) (used : UsedPayloadTypes) : Prop :=
  Offers reference current used (a.offered, a.used) a.added a.rtx

theorem exists_adds {κ : Type} [CodecKind κ] {used : UsedPayloadTypes}
    (hinv : used.Inv) (reference current : List (Codec κ)) (rest : List ℤ)
    (hok : (findCodecsToOffer reference current used).2.asserted = false ∨
      (used.findAndSetIdsUsed
        (ids (missing reference current) ++ rest)).1.asserted = false) :
    ∃ a : Addition κ, a.Adds reference current used ∧
      findCodecsToOffer reference current used = (a.offered, a.used) ∧
      a.used.Inv ∧
      used.findAndSetIdsUsed (ids (missing reference current) ++ rest) =
        ((a.used.findAndSetIdsUsed rest).1,
          ids (a.added ++ a.rtx) ++ (a.used.findAndSetIdsUsed rest).2) := by
  obtain ⟨added, rtx, hoffers⟩ := offers_findCodecsToOffer reference current
    hinv (hok.imp_right asserted_of_append)
  have hids := hoffers.usedIds
  have hgives := hinv.givesAll (ids (missing reference current)) (by
    rcases hok with hok | hok
    · rw [hids]
      exact hok
    · exact asserted_of_append hok)
  rw [hids] at hgives
  refine ⟨⟨_, _, added, rtx⟩, hoffers, rfl, hgives.inv, ?_⟩
  rw [findAndSetIdsUsed_append, hids]
  rfl

structure Additions (factory : MediaSessionDescriptionFactory)
    (current : Option SessionDescription) (used : UsedPayloadTypes)
    (a : Addition AudioFields) (v : Addition VideoFields)
    (d : Addition Unit) : Prop where
  audio : a.Adds factory.audioCodecs (currentCodecs current).audio used
  video : v.Adds factory.videoCodecs (currentCodecs current).video a.used
  data : d.Adds factory.dataCodecs (currentCodecs current).data v.used
  result : factory.getCodecsToOffer current =
    (⟨a.offered, v.offered, d.offered⟩, d.used)
  usedIds : (new : UsedPayloadTypes).findAndSetIdsUsed
      ((currentCodecs current).ids ++ factory.missingIds current) =
    (d.used, (currentCodecs current).ids ++ (ids (a.added ++ a.rtx) ++
      (ids (v.added ++ v.rtx) ++ ids (d.added ++ d.rtx))))

variable (factory) in
theorem additions_getCodecsToOffer
    (h : (dynamicIds 96 127 (currentCodecs current).ids).Nodup)
    (hok : (factory.getCodecsToOffer current).2.asserted = false ∨
      ((new : UsedPayloadTypes).findAndSetIdsUsed ((currentCodecs current).ids ++
        factory.missingIds current)).1.asserted = false) :
    ∃ used a v d, Additions factory current used a v d := by
  obtain ⟨used, hinv, hused, heq⟩ := getCodecsToOffer_eq factory h
  have hids : factory.missingIds current =
      ids (missing factory.audioCodecs (currentCodecs current).audio) ++
      (ids (missing factory.videoCodecs (currentCodecs current).video) ++
      (ids (missing factory.dataCodecs (currentCodecs current).data) ++ [])) := by
    rw [missingIds, List.append_assoc, List.append_nil]
  rw [heq, hids, findAndSetIdsUsed_append, hused] at hok
  obtain ⟨a, haudio, ha, hinva, hida⟩ := exists_adds hinv factory.audioCodecs
    (currentCodecs current).audio _ (hok.imp_left fun hok => by
      refine Bool.eq_false_iff.mpr fun hasserted => ?_
      have hvideo := asserted_findCodecsToOffer hasserted factory.videoCodecs
        (currentCodecs current).video
      have hdata := asserted_findCodecsToOffer hvideo factory.dataCodecs
        (currentCodecs current).data
      cases hdata.symm.trans hok)
  rw [ha, hida] at hok
  obtain ⟨v, hvideo, hv, hinvv, hidv⟩ := exists_adds hinva factory.videoCodecs
    (currentCodecs current).video _ (hok.imp_left fun hok => by
      refine Bool.eq_false_iff.mpr fun hasserted => ?_
      have hdata := asserted_findCodecsToOffer hasserted factory.dataCodecs
        (currentCodecs current).data
      cases hdata.symm.trans hok)
  dsimp only at hok
  rw [hv, hidv] at hok
  obtain ⟨d, hdata, hd, -, hidd⟩ := exists_adds hinvv factory.dataCodecs
    (currentCodecs current).data [] hok
  refine ⟨used, a, v, d, haudio, hvideo, hdata, ?_, ?_⟩
  · rw [heq, ha]
    dsimp only
    rw [hv]
    dsimp only
    rw [hd]
  · rw [hids, findAndSetIdsUsed_append, hused, hida, hidv, hidd]
    simp only [findAndSetIdsUsed, List.append_nil]

section

variable {used : UsedPayloadTypes} {a : Addition AudioFields}
  {v : Addition VideoFields} {d : Addition Unit}

theorem Additions.last_iff (h : Additions factory current used a v d) :
    d.used.asserted = false ↔
      (dynamicIds 96 127 ((currentCodecs current).ids ++
        factory.missingIds current)).length ≤ 32 := by
  have hiff := (inv_new : (new : UsedPayloadTypes).Inv).asserted_eq_false_iff
    ((currentCodecs current).ids ++ factory.missingIds current)
  rw [h.usedIds] at hiff
  rw [hiff]
  simp [new]

theorem Additions.ids_perm (h : Additions factory current used a v d) :
    ((currentCodecs current).ids ++ (ids (a.added ++ a.rtx) ++
      (ids (v.added ++ v.rtx) ++ ids (d.added ++ d.rtx)))).Perm
      (factory.offeredCodecs current).ids := by
  have haudio : a.offered = _ := h.audio.codecs
  have hvideo : v.offered = _ := h.video.codecs
  have hdata : d.offered = _ := h.data.codecs
  rw [offeredCodecs, h.result, Codecs.ids, Codecs.ids]
  dsimp only
  rw [haudio, hvideo, hdata]
  refine List.perm_iff_count.mpr fun id => ?_
  simp only [ids_append, List.count_append]
  omega

theorem Additions.nodup (h : Additions factory current used a v d)
    (hok : d.used.asserted = false) :
    (dynamicIds 96 127 (factory.offeredCodecs current).ids).Nodup := by
  have hgives := (inv_new : (new : UsedPayloadTypes).Inv).givesAll
    ((currentCodecs current).ids ++ factory.missingIds current)
    (by rw [h.usedIds]; exact hok)
  rw [h.usedIds] at hgives
  exact (h.ids_perm.filter _).nodup_iff.mp hgives.nodup

end

theorem keptIn_offeredCodecs
    (h : (dynamicIds 96 127 (currentCodecs current).ids).Nodup) :
    (currentCodecs current).KeptIn (factory.offeredCodecs current) := by
  obtain ⟨used, -, -, heq⟩ := getCodecsToOffer_eq factory h
  rw [offeredCodecs, heq]
  exact ⟨prefix_findCodecsToOffer .., prefix_findCodecsToOffer ..,
    prefix_findCodecsToOffer ..⟩

/-! ## Extension ids -/

variable (factory) in
theorem getRtpHdrExtsToOffer_eq
    (h : ((new : UsedRtpHeaderExtensionIds).findAndSetIdsUsed
      (ids (currentExtensions current).all)).2 =
        ids (currentExtensions current).all) :
    factory.getRtpHdrExtsToOffer current =
      let used := ((new : UsedRtpHeaderExtensionIds).findAndSetIdsUsed
        (ids (currentExtensions current).all)).1
      let audio := findAndSetRtpHdrExtUsed factory.audioRtpExtensions
        (currentExtensions current).audio (currentExtensions current).video used
      let video := findAndSetRtpHdrExtUsed factory.videoRtpExtensions
        (currentExtensions current).video audio.1 audio.2
      (⟨audio.1, video.1⟩, video.2) := by
  rw [Extensions.all, ids_append] at h ⊢
  obtain ⟨haudio, hvideo⟩ := findAndSetIdsUsed_append_eq h
  rw [findAndSetIdsUsed_append]
  rw [getRtpHdrExtsToOffer, findAndSetAllUsed_of_eq haudio]
  dsimp only
  rw [findAndSetAllUsed_of_eq hvideo]

theorem keptIn_offeredExtensions
    (h : ((new : UsedRtpHeaderExtensionIds).findAndSetIdsUsed
      (ids (currentExtensions current).all)).2 =
        ids (currentExtensions current).all) :
    (currentExtensions current).KeptIn (factory.offeredExtensions current) := by
  rw [offeredExtensions, getRtpHdrExtsToOffer_eq factory h]
  exact ⟨prefix_findAndSetRtpHdrExtUsed .., prefix_findAndSetRtpHdrExtUsed ..⟩

theorem ids_eq_of_keptIn
    (h : (currentExtensions current).KeptIn (factory.offeredExtensions current)) :
    ((new : UsedRtpHeaderExtensionIds).findAndSetIdsUsed
      (ids (currentExtensions current).all)).2 =
        ids (currentExtensions current).all := by
  have hsame : ∀ {u : UsedRtpHeaderExtensionIds} {exts exts' : List Ext},
      exts <+: exts' → (u.findAndSetAllUsed exts).2 <+: exts' →
      (u.findAndSetAllUsed exts).2 = exts := by
    intro u exts exts' hkept hfront
    have hlength : (u.findAndSetAllUsed exts).2.length = exts.length := by
      rw [findAndSetAllUsed_eq, List.length_zipWith, length_findAndSetIdsUsed,
        ids, List.length_map, min_self]
    exact (List.prefix_of_prefix_length_le hfront hkept
      hlength.le).eq_of_length hlength
  have hinv : (new : UsedRtpHeaderExtensionIds).Inv := inv_new
  have haudio := hsame (u := new) h.audio (prefix_findAndSetRtpHdrExtUsed
    factory.audioRtpExtensions _ _ _)
  have hvideo := hsame
    (u := (new.findAndSetAllUsed (currentExtensions current).audio).1) h.video
    (prefix_findAndSetRtpHdrExtUsed factory.videoRtpExtensions _ _ _)
  have haudioIds := hinv.ids_eq_of_eq extensionIds_min extensionIds_max haudio
  have hgives := hinv.givesAll _ (hinv.asserted_eq_false_of_eq haudioIds)
  rw [findAndSetAllUsed_of_eq haudioIds] at hvideo
  have hvideoIds := hgives.inv.ids_eq_of_eq extensionIds_min extensionIds_max
    hvideo
  rw [Extensions.all, ids_append, findAndSetIdsUsed_append, haudioIds, hvideoIds]

structure ExtAdditions (factory : MediaSessionDescriptionFactory)
    (current : Option SessionDescription) (audio video : List Ext) : Prop where
  newAudio : List.Forall₂ (AddedExt (currentExtensions current).video)
    (factory.newAudioExtensions current) audio
  newVideo : List.Forall₂ (AddedExt ((currentExtensions current).audio ++ audio))
    (factory.newVideoExtensions current) video
  result : factory.offeredExtensions current =
    ⟨(currentExtensions current).audio ++ audio,
      (currentExtensions current).video ++ video⟩
  usedIds : (new : UsedRtpHeaderExtensionIds).findAndSetIdsUsed
      (ids (currentExtensions current).all ++ factory.freshIds current) =
    ((factory.getRtpHdrExtsToOffer current).2,
      ids (currentExtensions current).all ++
        (ownIds (factory.newAudioExtensions current) audio ++
          ownIds (factory.newVideoExtensions current) video))

variable (factory) in
theorem additions_getRtpHdrExtsToOffer
    (h : ((new : UsedRtpHeaderExtensionIds).findAndSetIdsUsed
      (ids (currentExtensions current).all)).2 =
        ids (currentExtensions current).all)
    (hok : (factory.getRtpHdrExtsToOffer current).2.asserted = false ∨
      ((new : UsedRtpHeaderExtensionIds).findAndSetIdsUsed
        (ids (currentExtensions current).all ++
          factory.freshIds current)).1.asserted = false) :
    ∃ audio video, ExtAdditions factory current audio video := by
  have hinv : (new : UsedRtpHeaderExtensionIds).Inv := inv_new
  have hgives := hinv.givesAll _ (hinv.asserted_eq_false_of_eq h)
  have hinv := hgives.inv
  have heq := getRtpHdrExtsToOffer_eq factory h
  have hused : (new : UsedRtpHeaderExtensionIds).findAndSetIdsUsed
      (ids (currentExtensions current).all) =
        (((new : UsedRtpHeaderExtensionIds).findAndSetIdsUsed
          (ids (currentExtensions current).all)).1,
            ids (currentExtensions current).all) := Prod.ext rfl h
  generalize ((new : UsedRtpHeaderExtensionIds).findAndSetIdsUsed
    (ids (currentExtensions current).all)).1 = used at hinv heq hused
  have hfresh : factory.freshIds current =
      ids (freshExtensions (factory.newAudioExtensions current)) ++
        (ids (freshExtensions (factory.newVideoExtensions current)) ++ []) := by
    rw [freshIds, List.append_nil]
  rw [heq, hfresh, findAndSetIdsUsed_append, hused] at hok
  obtain ⟨audio, used', haudio, ha, hinv', hida⟩ := exists_addedExts hinv
    (forall₂_renamedExt_refl (currentExtensions current).video)
    factory.audioRtpExtensions (currentExtensions current).audio _
    (hok.imp_left fun hok => by
      refine Bool.eq_false_iff.mpr fun hasserted => ?_
      cases (asserted_findAndSetRtpHdrExtUsed hasserted _ _ _).symm.trans hok)
  rw [← newAudioExtensions] at haudio hida
  dsimp only at hok
  rw [ha, hida] at hok
  obtain ⟨video, used'', hvideo, hv, -, hidv⟩ := exists_addedExts hinv'
    (List.rel_append (forall₂_renamedExt_refl (currentExtensions current).audio)
      (renamed_addedExtensions haudio uri_of_mem_newExtensions))
    factory.videoRtpExtensions (currentExtensions current).video [] hok
  change List.Forall₂ _ (factory.newVideoExtensions current) _ at hvideo
  change findAndSetIdsUsed _
    (ids (freshExtensions (factory.newVideoExtensions current)) ++ []) = (_,
      ownIds (factory.newVideoExtensions current) _ ++ _) at hidv
  refine ⟨audio, video, haudio, hvideo, ?_, ?_⟩
  · rw [offeredExtensions, heq]
    dsimp only
    rw [ha]
    dsimp only
    rw [hv]
  · rw [hfresh, findAndSetIdsUsed_append, hused, hida, hidv, heq]
    dsimp only
    rw [ha]
    dsimp only
    rw [hv]
    simp only [findAndSetIdsUsed, List.append_nil]

theorem not_nodup_of_mem {exts exts' : List Ext} {ext : Ext}
    (hmem : ext ∈ exts) (hmem' : ext ∈ exts')
    (hrange : InRange 1 14 ext.id.toInt) :
    ¬ (dynamicIds 1 14 (ids (exts ++ exts'))).Nodup := by
  rw [ids_append, dynamicIds_append]
  intro hnodup
  have hid : ext.id.toInt ∈ dynamicIds 1 14 (ids exts) :=
    mem_dynamicIds.mpr ⟨List.mem_map_of_mem hmem, hrange⟩
  have hid' : ext.id.toInt ∈ dynamicIds 1 14 (ids exts') :=
    mem_dynamicIds.mpr ⟨List.mem_map_of_mem hmem', hrange⟩
  exact (List.nodup_append.mp hnodup).2.2 _ hid _ hid' rfl

theorem uniqueUris_of_nodup {extensions : Extensions}
    (h : (dynamicIds 1 14 (ids extensions.all)).Nodup) :
    extensions.UniqueUris := by
  intro ext hmem ext' hmem' hrange hid
  have hmap : dynamicIds 1 14 (ids extensions.all) =
      (extensions.all.filter fun ext => InRange 1 14 ext.id.toInt).map
        fun ext => ext.id.toInt :=
    List.filter_map
  rw [hmap] at h
  have heq : ext = ext' := List.inj_on_of_nodup_map h
    (List.mem_filter.mpr ⟨hmem, decide_eq_true hrange⟩)
    (List.mem_filter.mpr ⟨hmem', decide_eq_true (hid ▸ hrange)⟩)
    (congrArg Int32.toInt hid)
  rw [heq]

section

variable {audio video : List Ext}

theorem ExtAdditions.last_iff (h : ExtAdditions factory current audio video) :
    (factory.getRtpHdrExtsToOffer current).2.asserted = false ↔
      (dynamicIds 1 14 (ids (currentExtensions current).all ++
        factory.freshIds current)).length ≤ 14 := by
  have hiff :=
    (inv_new : (new : UsedRtpHeaderExtensionIds).Inv).asserted_eq_false_iff
      (ids (currentExtensions current).all ++ factory.freshIds current)
  rw [h.usedIds] at hiff
  rw [hiff]
  simp [new]

theorem ExtAdditions.nodup (h : ExtAdditions factory current audio video)
    (hok : (factory.getRtpHdrExtsToOffer current).2.asserted = false)
    (hunshared : ∀ ext ∈
      sharedExtensions (factory.newAudioExtensions current) ++
        sharedExtensions (factory.newVideoExtensions current),
          ¬ InRange 1 14 ext.id.toInt) :
    (dynamicIds 1 14 (ids (factory.offeredExtensions current).all)).Nodup := by
  have hgives := (inv_new : (new : UsedRtpHeaderExtensionIds).Inv).givesAll
    (ids (currentExtensions current).all ++ factory.freshIds current)
    (by rw [h.usedIds]; exact hok)
  rw [h.usedIds] at hgives
  have haudio := dynamicIds_of_not_shared h.newAudio fun ext hext =>
    hunshared ext (List.mem_append_left _ hext)
  have hvideo := dynamicIds_of_not_shared h.newVideo fun ext hext =>
    hunshared ext (List.mem_append_right _ hext)
  have hnodup := hgives.nodup
  refine (List.Perm.nodup_iff ?_).mp hnodup
  rw [h.result]
  simp only [Extensions.all, ids_append, dynamicIds_append, haudio, hvideo]
  refine List.perm_iff_count.mpr fun id => ?_
  simp only [List.count_append]
  omega

theorem ExtAdditions.unshared (h : ExtAdditions factory current audio video)
    (hnodup :
      (dynamicIds 1 14 (ids (factory.offeredExtensions current).all)).Nodup) :
    ∀ ext ∈ sharedExtensions (factory.newAudioExtensions current) ++
      sharedExtensions (factory.newVideoExtensions current),
        ¬ InRange 1 14 ext.id.toInt := by
  intro found hmem hrange
  rw [h.result, Extensions.all] at hnodup
  rcases List.mem_append.mp hmem with hmem | hmem
  · obtain ⟨ext, hadded, hother, hrange⟩ :=
      exists_mem_of_shared h.newAudio hmem hrange
    exact not_nodup_of_mem (List.mem_append_right _ hadded)
      (List.mem_append_left _ hother) hrange hnodup
  · obtain ⟨ext, hadded, hother, hrange⟩ :=
      exists_mem_of_shared h.newVideo hmem hrange
    exact not_nodup_of_mem hother (List.mem_append_right _ hadded) hrange hnodup

end

/-! ## The result -/

/-- A description with given codecs and extensions. -/
def describe (codecs : Codecs) (extensions : Extensions) :
    SessionDescription where
  contents :=
    [⟨['a'], .rtp, false, .audio ⟨[], false, 0, [], .none, extensions.audio,
        false, [], .sendrecv, codecs.audio⟩⟩,
      ⟨['v'], .rtp, false, .video ⟨[], false, 0, [], .none, extensions.video,
        false, [], .sendrecv, codecs.video⟩⟩,
      ⟨['d'], .rtp, false, .data ⟨[], false, 0, [], .none, [], false, [],
        .sendrecv, codecs.data⟩⟩]
  transportInfos := []
  contentGroups := []

theorem stableIds_of_idsFit (h : ConsistentIds current)
    (hfit : factory.IdsFit current) : factory.StableIds current := by
  have hinv : (new : UsedRtpHeaderExtensionIds).Inv := inv_new
  obtain ⟨hsame, -⟩ := hinv.findAndSetIdsUsed_eq hfit.distinct
    fun id _ => Finset.notMem_empty id
  obtain ⟨used, a, v, d, hcodecs⟩ := additions_getCodecsToOffer
    factory h.payloadTypes (Or.inr (by
      rw [(inv_new : (new : UsedPayloadTypes).Inv).asserted_eq_false_iff]
      simpa [new] using hfit.payloadTypes))
  obtain ⟨audio, video, hextensions⟩ := additions_getRtpHdrExtsToOffer
    factory hsame (Or.inr (by
      rw [hinv.asserted_eq_false_iff]
      simpa [new] using hfit.extensionIds))
  have hlast := hcodecs.last_iff.mpr hfit.payloadTypes
  have hextLast := hextensions.last_iff.mpr hfit.extensionIds
  have hnodup := hcodecs.nodup hlast
  have hextNodup := hextensions.nodup hextLast hfit.unshared
  have hoffered : factory.offeredCodecs current =
      ⟨a.offered, v.offered, d.offered⟩ := by
    rw [offeredCodecs, hcodecs.result]
  constructor
  · rw [hcodecs.result]
    exact hlast
  · exact hextLast
  · exact hnodup
  · exact uniqueUris_of_nodup hextNodup
  · rw [hoffered]
    exact hcodecs.audio.rtxFollows hfit.rtxAudio
  · rw [hoffered]
    exact hcodecs.video.rtxFollows hfit.rtxVideo
  · rw [hoffered]
    exact hcodecs.data.rtxFollows hfit.rtxData
  · exact keptIn_offeredCodecs h.payloadTypes
  · exact keptIn_offeredExtensions hsame
  · intro next hnext hnextExt
    constructor
    · rw [← hnext]
      refine keptIn_offeredCodecs ?_
      rw [hnext]
      exact hnodup
    · rw [← hnextExt]
      refine keptIn_offeredExtensions (hinv.findAndSetIdsUsed_eq ?_
        fun id _ => Finset.notMem_empty id).1
      rw [hnextExt]
      exact hextNodup

theorem idsFit_of_stableIds (h : ConsistentIds current)
    (hrepeats : factory.NoRepeats) (hstable : factory.StableIds current) :
    factory.IdsFit current := by
  have hinv : (new : UsedRtpHeaderExtensionIds).Inv := inv_new
  have hsame := ids_eq_of_keptIn hstable.keepsExtensions
  obtain ⟨used, a, v, d, hcodecs⟩ := additions_getCodecsToOffer
    factory h.payloadTypes (Or.inl hstable.payloadTypesLast)
  obtain ⟨audio, video, hextensions⟩ := additions_getRtpHdrExtsToOffer
    factory hsame (Or.inl hstable.extensionIdsLast)
  have hlast := hstable.payloadTypesLast
  rw [hcodecs.result] at hlast
  have hoffered : factory.offeredCodecs current =
      ⟨a.offered, v.offered, d.offered⟩ := by
    rw [offeredCodecs, hcodecs.result]
  have hagain : ∃ next, currentExtensions (some next) =
      factory.offeredExtensions current ∧ (currentExtensions (some next)).KeptIn
        (factory.offeredExtensions (some next)) :=
    ⟨describe (factory.offeredCodecs current)
      (factory.offeredExtensions current), rfl,
        (hstable.again _ rfl rfl).2⟩
  obtain ⟨next, hnext, hkept⟩ := hagain
  have hnodup := hinv.nodup_of_eq (ids_eq_of_keptIn hkept)
  rw [hnext] at hnodup
  constructor
  · exact hcodecs.last_iff.mp hlast
  · exact hextensions.last_iff.mp hstable.extensionIdsLast
  · refine hcodecs.audio.rtxKept hrepeats.audio ?_
    simpa only [hoffered] using hstable.rtxAudio
  · refine hcodecs.video.rtxKept hrepeats.video ?_
    simpa only [hoffered] using hstable.rtxVideo
  · refine hcodecs.data.rtxKept hrepeats.data ?_
    simpa only [hoffered] using hstable.rtxData
  · exact hinv.nodup_of_eq hsame
  · exact hextensions.unshared hnodup

/-- Ids are stable where they fit, and, unless a supported codec matches a
later one, nowhere else. -/
theorem stableIds_iff (h : ConsistentIds current) :
    (factory.IdsFit current → factory.StableIds current) ∧
      (factory.NoRepeats → factory.StableIds current →
        factory.IdsFit current) :=
  ⟨stableIds_of_idsFit h, idsFit_of_stableIds h⟩

def videoCodec (id : Int32) (name : Str) (params : StdMap Str Str) :
    VideoCodec :=
  ⟨id, name, 90000, 0, params, [], ⟨640, 400, 30⟩⟩

def vp8 : VideoCodec := videoCodec 100 ['V', 'P', '8'] .empty

/-- The RTX codec for `vp8`. -/
def vp8Rtx : VideoCodec :=
  videoCodec 96 kRtxCodecName
    (StdMap.empty.assign kCodecParamAssociatedPayloadType ['1', '0', '0'])

def opus : AudioCodec :=
  ⟨100, ['o', 'p', 'u', 's'], 48000, 0, .empty, [], ⟨0, 2⟩⟩

def videoFactory : MediaSessionDescriptionFactory :=
  ⟨[], [], [vp8, vp8Rtx], [⟨['t'], 2⟩], [], .disabled, true⟩

/-- The payload type of `vp8` is used for audio. -/
def audioDescription : SessionDescription :=
  describe ⟨[opus], [], []⟩ ⟨[⟨['a'], 1⟩], []⟩

theorem stableIds_iff_audioDescription :
    videoFactory.StableIds (some audioDescription) ∧
      (videoFactory.offeredCodecs (some audioDescription)).video.map
        (fun codec => (codec.id, codec.associatedPayloadType)) =
          [(127, 0), (96, 127)] := by
  have h : ConsistentIds (some audioDescription) := by
    refine ⟨by decide, fun ext hmem ext' hmem' _ _ => ?_⟩
    cases List.mem_singleton.mp hmem
    cases List.mem_singleton.mp hmem'
    rfl
  refine ⟨(stableIds_iff h).1 ⟨by decide, by decide, ?_, ?_, ?_, by decide,
    fun ext hmem => absurd hmem List.not_mem_nil⟩, by decide⟩
  · exact fun e he => absurd he List.not_mem_nil
  · intro e he _
    refine Or.inl ⟨vp8, List.mem_cons_self, ?_⟩
    have hkey : e.1 ∈ ((newRtxCodecs [vp8, vp8Rtx] []).entries.map Prod.fst) :=
      List.mem_map_of_mem he
    exact (List.mem_singleton.mp hkey).symm
  · exact fun e he => absurd he List.not_mem_nil

/-- One extension is supported for audio and for video. -/
def sharingFactory : MediaSessionDescriptionFactory :=
  ⟨[], [⟨['t'], 3⟩], [], [⟨['t'], 3⟩], [], .disabled, true⟩

/-- The second offer has another id for video. -/
theorem not_stableIds_sharingFactory :
    ¬ ∀ (factory : MediaSessionDescriptionFactory)
      (current : Option SessionDescription),
        ConsistentIds current → factory.StableIds current := by
  intro hall
  have hfirst : sharingFactory.offeredExtensions none =
      ⟨[⟨['t'], 3⟩], [⟨['t'], 3⟩]⟩ := rfl
  have hsecond : (sharingFactory.offeredExtensions (some (describe ⟨[], [], []⟩
      ⟨[⟨['t'], 3⟩], [⟨['t'], 3⟩]⟩))).video = [⟨['t'], 14⟩] := rfl
  have hstable := hall sharingFactory none ⟨List.nodup_nil,
    fun ext hmem => absurd hmem List.not_mem_nil⟩
  have hkept := (hstable.again (describe ⟨[], [], []⟩
    ⟨[⟨['t'], 3⟩], [⟨['t'], 3⟩]⟩) rfl rfl).2.video
  rw [hfirst, hsecond] at hkept
  cases (List.cons_prefix_cons.mp hkept).1

end MediaSessionDescriptionFactory

end WebrtcWinXp.MediaSession
