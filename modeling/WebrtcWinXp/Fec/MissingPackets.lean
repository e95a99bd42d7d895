import WebrtcWinXp.Fec.Decoder

/-!
# Missing packets

The lists of the decoder are sorted by sequence number, with a comparison that
wraps around.  In a half window of all numbers it is an order, and the searches
in the lists find what is there: a packet that has come is not missing any more.
-/

namespace WebrtcWinXp.Fec

open Support

/-- A number in the half of all numbers that starts with `base`. -/
def InHalfWindow (base x : UInt16) : Prop := (x - base).toNat < 2 ^ 15

instance (base x : UInt16) : Decidable (InHalfWindow base x) :=
  inferInstanceAs (Decidable (_ < _))

def Increasing (l : List UInt16) : Prop :=
  l.Pairwise fun a b => lessThan a b

section Order

variable {base a b : UInt16}

theorem lessThan_irrefl : ¬lessThan a a := by
  rw [lessThan_iff, sub_self]
  exact fun h => absurd h.1 (Nat.lt_irrefl 0)

theorem lessThan_asymm (h : lessThan a b) : ¬lessThan b a := by
  rw [lessThan_iff, UInt16.toNat_sub] at h ⊢
  have ha := a.toNat_lt
  have hb := b.toNat_lt
  omega

theorem lessThan_iff_offset (ha : InHalfWindow base a)
    (hb : InHalfWindow base b) :
    lessThan a b ↔ (a - base).toNat < (b - base).toNat := by
  have hsub : b - a = (b - base) - (a - base) :=
    (sub_sub_sub_cancel_right b a base).symm
  rw [lessThan_iff, hsub, UInt16.toNat_sub (b - base)]
  unfold InHalfWindow at ha hb
  omega

theorem eq_of_not_lessThan (ha : InHalfWindow base a)
    (hb : InHalfWindow base b) (hab : ¬lessThan a b) (hba : ¬lessThan b a) :
    a = b := by
  rw [lessThan_iff_offset ha hb] at hab
  rw [lessThan_iff_offset hb ha] at hba
  have heq : (a - base).toNat = (b - base).toNat := by omega
  exact sub_left_injective (UInt16.toNat_inj.mp heq)

theorem Increasing.nodup {l : List UInt16} (h : Increasing l) : l.Nodup := by
  refine List.Pairwise.imp (fun hlt heq => ?_) h
  subst heq
  exact lessThan_irrefl hlt

theorem increasing_sortBySeqNum (base : UInt16) {α : Type*}
    {seqNum : α → UInt16} {l : List α}
    (hwindow : ∀ x ∈ l.map seqNum, InHalfWindow base x)
    (hnodup : (l.map seqNum).Nodup) :
    Increasing ((sortBySeqNum seqNum l).map seqNum) := by
  have hmem : ∀ {x}, x ∈ sortBySeqNum seqNum l → InHalfWindow base (seqNum x) :=
    fun hx => hwindow _ (List.mem_map_of_mem (mem_sortBySeqNum.mp hx))
  have hmap := List.map_insertionSort
    (fun a b => ¬lessThan (seqNum b) (seqNum a)) (· ≤ ·)
    (fun a => (seqNum a - base).toNat) l fun a ha b hb => by
      rw [lessThan_iff_offset (hwindow _ (List.mem_map_of_mem hb))
        (hwindow _ (List.mem_map_of_mem ha))]
      exact Nat.not_lt
  have hsorted := List.pairwise_insertionSort (· ≤ ·)
    (l.map fun a => (seqNum a - base).toNat)
  rw [← hmap, List.pairwise_map] at hsorted
  have hdistinct : ((sortBySeqNum seqNum l).map seqNum).Nodup :=
    ((List.perm_insertionSort _ l).map seqNum).nodup_iff.mpr hnodup
  refine List.pairwise_map.mpr
    ((hsorted.and (List.pairwise_map.mp hdistinct)).imp_of_mem ?_)
  rintro a b ha hb ⟨hle, hne⟩
  rw [lessThan_iff_offset (hmem ha) (hmem hb)]
  refine lt_of_le_of_ne hle fun heq => hne ?_
  exact sub_left_injective (UInt16.toNat_inj.mp heq)

end Order

/-! ## Missing packets -/

/-- The numbers of the packets of a protected list that are not known. -/
def missingOf (l : List ProtectedPacket) : List UInt16 :=
  (l.filter fun p => p.pkt.isNone).map ProtectedPacket.seqNum

theorem mem_missingOf {l : List ProtectedPacket} {x : UInt16} :
    x ∈ missingOf l ↔ ∃ p ∈ l, p.pkt = none ∧ p.seqNum = x := by
  simp only [missingOf, List.mem_map, List.mem_filter, Option.isNone_iff_eq_none,
    and_assoc]

def FecPacket.missing (fec : FecPacket) : List UInt16 :=
  missingOf fec.protectedPktList

theorem numCoveredPacketsMissing_eq (fec : FecPacket) :
    numCoveredPacketsMissing fec = min 2 fec.missing.length := by
  rw [numCoveredPacketsMissing, List.countP_eq_length_filter, FecPacket.missing,
    missingOf, List.length_map]

def protectedSeqNums (l : List ProtectedPacket) : List UInt16 :=
  l.map ProtectedPacket.seqNum

theorem missingOf_sublist (l : List ProtectedPacket) :
    (missingOf l).Sublist (protectedSeqNums l) :=
  List.filter_sublist.map _

section Covering

variable {packet : RecoveredPacket} {base : UInt16}

@[simp] theorem missingOf_cons (p : ProtectedPacket) (l : List ProtectedPacket) :
    missingOf (p :: l) =
      if p.pkt.isNone then p.seqNum :: missingOf l else missingOf l := by
  unfold missingOf
  rw [List.filter_cons]
  split <;> rfl

theorem filter_ne_of_notMem {l : List UInt16} {x : UInt16} (h : x ∉ l) :
    (l.filter fun y => y ≠ x) = l := by
  refine List.filter_eq_self.mpr fun y hy => ?_
  rw [decide_eq_true_eq]
  rintro rfl
  exact h hy

theorem missingOf_updateCovering {l : List ProtectedPacket}
    (h : Increasing (protectedSeqNums l)) :
    missingOf (updateCovering packet l) =
      (missingOf l).filter fun x => x ≠ packet.seqNum := by
  induction l with
  | nil => rfl
  | cons p l ih =>
    rw [protectedSeqNums, List.map_cons] at h
    have hsub := (missingOf_sublist l).subset
    have hhead : ∀ x ∈ missingOf l, lessThan p.seqNum x := by
      intro x hx
      exact (List.pairwise_cons.mp h).1 x (hsub hx)
    rw [updateCovering]
    split
    · rename_i hlt
      have hne : p.seqNum ≠ packet.seqNum := by
        rintro heq
        rw [heq] at hlt
        exact lessThan_irrefl hlt
      rw [missingOf_cons, missingOf_cons, ih (List.pairwise_cons.mp h).2]
      split
      · rw [List.filter_cons_of_pos (by simpa using hne)]
      · rfl
    · rename_i hnot
      have hnotMem : packet.seqNum ∉ missingOf l :=
        fun hmem => hnot (hhead _ hmem)
      split
      · rename_i heq
        rw [missingOf_cons, missingOf_cons]
        change missingOf l = _
        split
        · rw [List.filter_cons_of_neg (by simp [heq]),
            filter_ne_of_notMem hnotMem]
        · exact (filter_ne_of_notMem hnotMem).symm
      · rename_i hne
        refine (filter_ne_of_notMem fun hmem => ?_).symm
        rw [missingOf_cons] at hmem
        split at hmem
        · rcases List.mem_cons.mp hmem with heq | hmem
          · exact hne heq.symm
          · exact hnotMem hmem
        · exact hnotMem hmem

variable {rs : List RecoveredPacket} {ps : List ProtectedPacket}

/-- In a half window, the intersection has the packets of the first list whose
numbers are in the second one. -/
theorem mem_setIntersection
    (hrs : Increasing (rs.map RecoveredPacket.seqNum))
    (hps : Increasing (protectedSeqNums ps)) {r : RecoveredPacket}
    (hr : r ∈ rs) (hp : r.seqNum ∈ protectedSeqNums ps) :
    r ∈ setIntersection rs ps := by
  induction rs, ps using setIntersection.induct with
  | case1 => cases hr
  | case2 => cases hp
  | case3 r' rs p ps hlt ih =>
    rw [setIntersection, if_pos hlt]
    rw [List.map_cons, Increasing, List.pairwise_cons] at hrs
    rcases List.mem_cons.mp hr with rfl | hr
    · rcases List.mem_cons.mp hp with heq | hmem
      · rw [heq] at hlt
        exact absurd hlt lessThan_irrefl
      · exact absurd ((List.pairwise_cons.mp hps).1 _ hmem)
          (lessThan_asymm hlt)
    · exact ih hrs.2 hps hr hp
  | case4 r' rs p ps hnot hlt ih =>
    rw [setIntersection, if_neg hnot, if_pos hlt]
    refine ih hrs (List.pairwise_cons.mp hps).2 hr ?_
    rcases List.mem_cons.mp hp with heq | hmem
    · rw [List.map_cons, Increasing, List.pairwise_cons] at hrs
      rw [← heq] at hlt hnot
      rcases List.mem_cons.mp hr with rfl | hr
      · exact absurd hlt lessThan_irrefl
      · exact absurd (hrs.1 _ (List.mem_map_of_mem hr)) (lessThan_asymm hlt)
    · exact hmem
  | case5 r' rs p ps hnot hnot' ih =>
    rw [setIntersection, if_neg hnot, if_neg hnot']
    rw [List.map_cons, Increasing, List.pairwise_cons] at hrs
    rcases List.mem_cons.mp hr with rfl | hr
    · exact List.mem_cons_self
    · refine List.mem_cons_of_mem _ (ih hrs.2 (List.pairwise_cons.mp hps).2 hr
        ?_)
      rcases List.mem_cons.mp hp with heq | hmem
      · have hlt := hrs.1 _ (List.mem_map_of_mem hr)
        rw [heq] at hlt
        exact absurd hlt hnot
      · exact hmem

/-- In a half window, the numbers of the intersection are in the second list,
in the same order. -/
theorem setIntersection_sublist
    (hrs : ∀ r ∈ rs, InHalfWindow base r.seqNum)
    (hps : ∀ x ∈ protectedSeqNums ps, InHalfWindow base x) :
    ((setIntersection rs ps).map RecoveredPacket.seqNum).Sublist
      (protectedSeqNums ps) := by
  induction rs, ps using setIntersection.induct with
  | case1 ps =>
    rw [setIntersection]
    exact List.nil_sublist _
  | case2 rs hcons =>
    rw [setIntersection]
    · exact List.nil_sublist _
    · exact hcons
  | case3 r rs p ps hlt ih =>
    rw [setIntersection, if_pos hlt]
    exact ih (fun r hr => hrs r (List.mem_cons_of_mem _ hr)) hps
  | case4 r rs p ps hnot hlt ih =>
    rw [setIntersection, if_neg hnot, if_pos hlt]
    exact (ih hrs fun x hx => hps x (List.mem_cons_of_mem _ hx)).cons _
  | case5 r rs p ps hnot hnot' ih =>
    rw [setIntersection, if_neg hnot, if_neg hnot']
    have heq : r.seqNum = p.seqNum :=
      eq_of_not_lessThan (hrs r List.mem_cons_self)
        (hps p.seqNum List.mem_cons_self) hnot hnot'
    rw [protectedSeqNums, List.map_cons, List.map_cons, heq]
    refine (ih (fun r hr => hrs r (List.mem_cons_of_mem _ hr))
      fun x hx => hps x (List.mem_cons_of_mem _ hx)).cons_cons _

/-- What is still missing after the assignment was missing before, and is none
of the packets that were assigned. -/
theorem mem_assignRecovered_none
    (hsub : (rs.map RecoveredPacket.seqNum).Sublist (protectedSeqNums ps))
    (hnodup : (protectedSeqNums ps).Nodup) {q : ProtectedPacket}
    (hq : q ∈ assignRecovered rs ps) (hnone : q.pkt = none) :
    q ∈ ps ∧ q.seqNum ∉ rs.map RecoveredPacket.seqNum := by
  induction rs, ps using assignRecovered.induct with
  | case1 ps =>
    rw [assignRecovered] at hq
    exact ⟨hq, List.not_mem_nil⟩
  | case2 r rs =>
    rw [assignRecovered] at hq
    cases hq
  | case3 r rs p ps hne ih =>
    rw [assignRecovered, if_pos hne] at hq
    rw [protectedSeqNums, List.map_cons] at hsub hnodup
    have hsub' : ((r :: rs).map RecoveredPacket.seqNum).Sublist
        (protectedSeqNums ps) := by
      rcases List.cons_sublist_cons'.mp hsub with h | ⟨heq, -⟩
      · exact h
      · exact absurd heq.symm hne
    rcases List.mem_cons.mp hq with rfl | hq
    · exact ⟨List.mem_cons_self, fun hmem =>
        (List.nodup_cons.mp hnodup).1 (hsub'.subset hmem)⟩
    · obtain ⟨hmem, hnot⟩ := ih hsub' (List.nodup_cons.mp hnodup).2 hq
      exact ⟨List.mem_cons_of_mem _ hmem, hnot⟩
  | case4 r rs p ps heq ih =>
    rw [assignRecovered, if_neg heq] at hq
    rw [not_not] at heq
    have hsub' : (rs.map RecoveredPacket.seqNum).Sublist
        (protectedSeqNums ({ p with pkt := some r.pkt } :: ps)) := by
      rw [protectedSeqNums, List.map_cons, ← heq] at hsub
      exact (List.cons_sublist_cons.mp hsub).cons _
    obtain ⟨hmem, hnot⟩ := ih hsub' hnodup hq
    rcases List.mem_cons.mp hmem with rfl | hmem
    · cases hnone
    · refine ⟨List.mem_cons_of_mem _ hmem, fun hin => ?_⟩
      rcases List.mem_cons.mp hin with hseq | hin
      · refine (List.nodup_cons.mp hnodup).1 ?_
        rw [heq, ← hseq]
        exact List.mem_map_of_mem hmem
      · exact hnot hin

theorem increasing_protectedBy (pkt : Packet) :
    Increasing (protectedSeqNums (protectedBy pkt)) := by
  rw [protectedSeqNums, protectedBy, List.map_map, Increasing,
    List.pairwise_map]
  refine List.Pairwise.imp_of_mem ?_
    ((List.pairwise_lt_range).filter _)
  intro i j hi hj hlt
  have hsize : maskSize (bit (pkt.data 0) 6) ≤ 6 := by
    cases bit (pkt.data 0) 6 <;> decide
  have hlt' := List.mem_range.mp (List.mem_filter.mp hj).1
  have hi' := UInt16.toNat_ofNat_of_lt' (n := i) (by change _ < 65536; omega)
  have hj' := UInt16.toNat_ofNat_of_lt' (n := j) (by change _ < 65536; omega)
  rw [lessThan_iff]
  change 0 < (bufferToUWord16 pkt.data 2 + UInt16.ofNat j -
    (bufferToUWord16 pkt.data 2 + UInt16.ofNat i)).toNat ∧ (bufferToUWord16
      pkt.data 2 + UInt16.ofNat j -
    (bufferToUWord16 pkt.data 2 + UInt16.ofNat i)).toNat < _
  rw [add_sub_add_left_eq_sub, UInt16.toNat_sub, hi', hj']
  omega

end Covering

end WebrtcWinXp.Fec
