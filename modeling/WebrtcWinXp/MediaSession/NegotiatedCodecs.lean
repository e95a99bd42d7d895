import WebrtcWinXp.MediaSession.InsideOffer

/-!
# Negotiated codecs

The codecs of an answer have distinct payload types and complete RTX codecs
exactly when the codecs of both sides fit.
-/

namespace WebrtcWinXp.MediaSession

open Support

variable {κ : Type} [CodecKind κ] {ours theirs codec : Codec κ}
  {localCodecs offered : List (Codec κ)}

/-- What a negotiated codec takes from the two codecs. -/
structure Negotiated (ours theirs codec : Codec κ) : Prop where
  answers : Answers ours theirs
  id : codec.id = theirs.id
  matches_theirs : codec.Matches theirs
  isRtx : codec.isRtx = ours.isRtx
  apt : codec.isRtx →
    codec.associatedPayloadType = theirs.associatedPayloadType

theorem Codec.matches_of_eq (ours : Codec κ)
    (hrate : codec.clockrate = ours.clockrate)
    (hfields : codec.fields = ours.fields) (hname : codec.name = ours.name)
    (hid : codec.id = theirs.id) (h : ours.Matches theirs) :
    codec.Matches theirs := by
  rw [Codec.Matches, Bool.and_eq_true] at h ⊢
  rw [hrate, hfields, hname, hid]
  refine ⟨?_, h.2⟩
  split
  · simp
  · next hdynamic => rw [← h.1, if_neg hdynamic]

theorem negotiate_eq_some :
    negotiate ours theirs = some codec ↔ ours.Matches theirs ∧
      (ours.isRtx = false ∧ codec =
          { ours.intersectFeedbackParams theirs with
            id := theirs.id
            preference := theirs.preference } ∨
        ours.isRtx ∧ ∃ apt,
          theirs.getParam kCodecParamAssociatedPayloadType = some apt ∧
          codec =
            { (ours.intersectFeedbackParams theirs).setParam
                kCodecParamAssociatedPayloadType apt with
              id := theirs.id
              preference := theirs.preference }) := by
  have hisRtx : (ours.intersectFeedbackParams theirs).isRtx = ours.isRtx := rfl
  by_cases hmatches : ours.Matches theirs
  · simp only [negotiate, if_pos hmatches, hisRtx]
    by_cases hrtx : ours.isRtx
    · simp [hrtx, hmatches, eq_comm]
    · simp [hrtx, hmatches, eq_comm]
  · simp [negotiate, hmatches]

theorem negotiated_of_negotiate (h : negotiate ours theirs = some codec) :
    Negotiated ours theirs codec := by
  rcases negotiate_eq_some.mp h with
    ⟨hmatches, ⟨hrtx, rfl⟩ | ⟨-, apt, hapt, rfl⟩⟩
  · have hours : ¬ours.isRtx := by simp [hrtx]
    constructor
    · exact ⟨hmatches, fun h => absurd h hours⟩
    · rfl
    · exact Codec.matches_of_eq ours rfl rfl rfl rfl hmatches
    · rfl
    · exact fun h => absurd h hours
  · constructor
    · exact ⟨hmatches, fun _ => by rw [hapt]; rfl⟩
    · rfl
    · exact Codec.matches_of_eq ours rfl rfl rfl rfl hmatches
    · rfl
    · intro
      have hassigned : (ours.params.assign kCodecParamAssociatedPayloadType
          apt).find kCodecParamAssociatedPayloadType = some apt :=
        StdMap.find_assign_self
      change fromString (((ours.params.assign kCodecParamAssociatedPayloadType
        apt).find kCodecParamAssociatedPayloadType).getD []) = _
      rw [hassigned, Codec.associatedPayloadType, hapt]

theorem exists_negotiate (h : Answers ours theirs) :
    ∃ codec, negotiate ours theirs = some codec := by
  by_cases hrtx : ours.isRtx
  · obtain ⟨apt, hapt⟩ := Option.isSome_iff_exists.mp (h.2 hrtx)
    exact ⟨_, negotiate_eq_some.mpr ⟨h.1, .inr ⟨hrtx, apt, hapt, rfl⟩⟩⟩
  · have hrtx : ours.isRtx = false := by simpa using hrtx
    exact ⟨_, negotiate_eq_some.mpr ⟨h.1, .inl ⟨hrtx, rfl⟩⟩⟩

theorem mem_negotiateCodecs :
    codec ∈ negotiateCodecs localCodecs offered ↔
      ∃ ours ∈ localCodecs, ∃ theirs ∈ offered,
        negotiate ours theirs = some codec := by
  simp [negotiateCodecs, List.mem_flatMap, List.mem_filterMap]

theorem perm_sortCodecs {κ : Type} (codecs : List (Codec κ)) :
    (sortCodecs codecs).Perm codecs :=
  List.perm_insertionSort _ codecs

theorem mem_sortCodecs {κ : Type} {codecs : List (Codec κ)}
    {codec : Codec κ} : codec ∈ sortCodecs codecs ↔ codec ∈ codecs :=
  (perm_sortCodecs codecs).mem_iff

theorem nodup_ids_filterMap {ours : Codec κ} :
    ((offered.filterMap (negotiate ours)).map Codec.id).Nodup ↔
      offered.Pairwise fun a b =>
        Answers ours a → Answers ours b → a.id ≠ b.id := by
  rw [List.Nodup, List.pairwise_map, List.pairwise_filterMap]
  apply List.Pairwise.iff
  intro a b
  constructor
  · intro h ha hb
    obtain ⟨c, hc⟩ := exists_negotiate ha
    obtain ⟨d, hd⟩ := exists_negotiate hb
    rw [← (negotiated_of_negotiate hc).id, ← (negotiated_of_negotiate hd).id]
    exact h c hc d hd
  · intro h c hc d hd
    have hca := negotiated_of_negotiate hc
    have hdb := negotiated_of_negotiate hd
    rw [hca.id, hdb.id]
    exact h hca.answers hdb.answers

theorem disjoint_ids_filterMap {ours other : Codec κ} :
    List.Disjoint ((offered.filterMap (negotiate ours)).map Codec.id)
        ((offered.filterMap (negotiate other)).map Codec.id) ↔
      ∀ a ∈ offered, ∀ b ∈ offered, Answers ours a → Answers other b →
        a.id ≠ b.id := by
  constructor
  · intro h a ha b hb hanswers hother heq
    obtain ⟨c, hc⟩ := exists_negotiate hanswers
    obtain ⟨d, hd⟩ := exists_negotiate hother
    have hcmem : c.id ∈ (offered.filterMap (negotiate ours)).map Codec.id :=
      List.mem_map_of_mem (List.mem_filterMap.mpr ⟨a, ha, hc⟩)
    have hdmem : d.id ∈ (offered.filterMap (negotiate other)).map Codec.id :=
      List.mem_map_of_mem (List.mem_filterMap.mpr ⟨b, hb, hd⟩)
    rw [(negotiated_of_negotiate hc).id, heq,
      ← (negotiated_of_negotiate hd).id] at hcmem
    exact h hcmem hdmem
  · intro h id hc hd
    obtain ⟨c, hcmem, rfl⟩ := List.mem_map.mp hc
    obtain ⟨d, hdmem, heq⟩ := List.mem_map.mp hd
    obtain ⟨a, ha, hca⟩ := List.mem_filterMap.mp hcmem
    obtain ⟨b, hb, hdb⟩ := List.mem_filterMap.mp hdmem
    have hc' := negotiated_of_negotiate hca
    have hd' := negotiated_of_negotiate hdb
    rw [hd'.id, hc'.id] at heq
    exact h a ha b hb hc'.answers hd'.answers heq.symm

/-- The codecs of an answer are what a section may contain exactly when the
codecs of both sides fit. -/
theorem codecsFit_iff :
    CodecsFit localCodecs offered ↔
      ((sortCodecs (negotiateCodecs localCodecs offered)).map Codec.id).Nodup ∧
      ∀ codec ∈ sortCodecs (negotiateCodecs localCodecs offered), codec.isRtx →
        ∃ other ∈ sortCodecs (negotiateCodecs localCodecs offered),
          other.isRtx = false ∧
            other.id.toInt = codec.associatedPayloadType := by
  have hnodup :
      ((sortCodecs (negotiateCodecs localCodecs offered)).map
          Codec.id).Nodup ↔
        (∀ codec ∈ localCodecs, offered.Pairwise fun a b =>
          Answers codec a → Answers codec b → a.id ≠ b.id) ∧
        localCodecs.Pairwise fun codec other => ∀ a ∈ offered, ∀ b ∈ offered,
          Answers codec a → Answers other b → a.id ≠ b.id := by
    rw [((perm_sortCodecs _).map Codec.id).nodup_iff, negotiateCodecs,
      List.map_flatMap, List.nodup_flatMap]
    exact and_congr (forall₂_congr fun _ _ => nodup_ids_filterMap)
      (List.Pairwise.iff fun _ _ => disjoint_ids_filterMap)
  rw [hnodup]
  simp only [mem_sortCodecs, mem_negotiateCodecs]
  constructor
  · intro h
    refine ⟨⟨h.offeredOnce, h.answeredOnce⟩, ?_⟩
    rintro codec ⟨ours, hours, theirs, htheirs, hcodec⟩ hrtx
    have hnegotiated := negotiated_of_negotiate hcodec
    obtain ⟨other, hother, hnotRtx, b, hb, hanswers, hid⟩ :=
      h.referenced ours hours (hnegotiated.isRtx ▸ hrtx) theirs htheirs
        hnegotiated.answers
    obtain ⟨c, hc⟩ := exists_negotiate hanswers
    have hreferenced := negotiated_of_negotiate hc
    refine ⟨c, ⟨other, hother, b, hb, hc⟩, hreferenced.isRtx.trans hnotRtx, ?_⟩
    rw [hreferenced.id, hid, hnegotiated.apt hrtx]
  · rintro ⟨⟨honce, hours⟩, hrtx⟩
    refine ⟨honce, hours, ?_⟩
    intro codec hcodec hisRtx a ha hanswers
    obtain ⟨c, hc⟩ := exists_negotiate hanswers
    have hnegotiated := negotiated_of_negotiate hc
    have hcRtx : c.isRtx := hnegotiated.isRtx.trans hisRtx
    obtain ⟨d, ⟨other, hother, b, hb, hd⟩, hnotRtx, hid⟩ :=
      hrtx c ⟨codec, hcodec, a, ha, hc⟩ hcRtx
    have hreferenced := negotiated_of_negotiate hd
    refine ⟨other, hother, hreferenced.isRtx.symm.trans hnotRtx, b, hb,
      hreferenced.answers, ?_⟩
    rw [← hreferenced.id, hid, hnegotiated.apt hcRtx]

end WebrtcWinXp.MediaSession
