import WebrtcWinXp.Tmmbr.Set

/-!
# The requests of a remote

A log of the requests that were received, the last one first, and a table with
one request for each sender.  The table is right when it has the latest request
of every sender, except perhaps of those whose request has timed out.
-/

namespace WebrtcWinXp.Tmmbr

/-- A request and when it was received. -/
structure Request where
  element : SetElement
  time : ℕ
  deriving DecidableEq

def Request.ssrc (q : Request) : ℕ := q.element.ssrc

def Request.timedOut (now : ℕ) (q : Request) : Bool :=
  RTCPReceiveInformation.timedOut now q.time

def latest : List Request → List Request
  | [] => []
  | q :: log => q :: (latest log).filter fun q' => q'.ssrc ≠ q.ssrc

def live (now : ℕ) (log : List Request) : List SetElement :=
  ((latest log).filter fun q => !q.timedOut now).map Request.element

variable {now now' : ℕ} {log rs : List Request} {q q' : Request}

theorem mem_latest_cons :
    q' ∈ latest (q :: log) ↔
      q' = q ∨ (q' ∈ latest log ∧ q'.ssrc ≠ q.ssrc) := by
  simp [latest]

theorem nodup_latest (log : List Request) :
    ((latest log).map Request.ssrc).Nodup := by
  induction log with
  | nil => exact .nil
  | cons q log ih =>
    rw [latest, List.map_cons, List.nodup_cons]
    refine ⟨?_, ih.sublist (List.filter_sublist.map _)⟩
    intro hmem
    obtain ⟨q', hq', heq⟩ := List.mem_map.mp hmem
    simp only [List.mem_filter, decide_not, Bool.not_eq_true',
      decide_eq_false_iff_not] at hq'
    exact hq'.2 heq

theorem Request.timedOut_mono (h : q.timedOut now = true) (hle : now ≤ now') :
    q.timedOut now' = true := by
  simp only [timedOut, RTCPReceiveInformation.timedOut,
    decide_eq_true_iff] at h ⊢
  omega

/-! ## Tables -/

/-- A request put into a table, in the place of one of the same sender. -/
def upsert (q : Request) : List Request → List Request
  | [] => [q]
  | q' :: rs => if q'.ssrc = q.ssrc then q :: rs else q' :: upsert q rs

theorem upsert_eq (q : Request) (rs : List Request) :
    upsert q rs =
      match rs.findIdx? fun q' => q'.ssrc = q.ssrc with
      | some i => rs.set i q
      | none => rs ++ [q] := by
  induction rs with
  | nil => rfl
  | cons q' rs ih =>
    rw [upsert, List.findIdx?_cons]
    by_cases h : q'.ssrc = q.ssrc
    · rw [if_pos h, decide_eq_true h]
      rfl
    · rw [if_neg h, ih, decide_eq_false h]
      cases rs.findIdx? fun q' => decide (q'.ssrc = q.ssrc) <;> rfl

theorem mem_upsert (hdistinct : (rs.map Request.ssrc).Nodup) :
    q' ∈ upsert q rs ↔ q' = q ∨ (q' ∈ rs ∧ q'.ssrc ≠ q.ssrc) := by
  induction rs with
  | nil => simp [upsert]
  | cons p rs ih =>
    rw [List.map_cons, List.nodup_cons] at hdistinct
    rw [upsert]
    by_cases h : p.ssrc = q.ssrc
    · have hother : q' ∈ rs → q'.ssrc ≠ q.ssrc := fun hmem heq =>
        hdistinct.1 (h.trans heq.symm ▸ List.mem_map_of_mem hmem)
      rw [if_pos h, List.mem_cons, List.mem_cons]
      constructor
      · rintro (heq | hmem)
        · exact .inl heq
        · exact .inr ⟨.inr hmem, hother hmem⟩
      · rintro (heq | ⟨rfl | hmem, hne⟩)
        · exact .inl heq
        · exact absurd h hne
        · exact .inr hmem
    · rw [if_neg h, List.mem_cons, List.mem_cons, ih hdistinct.2]
      constructor
      · rintro (rfl | heq | ⟨hmem, hne⟩)
        · exact .inr ⟨.inl rfl, h⟩
        · exact .inl heq
        · exact .inr ⟨.inr hmem, hne⟩
      · rintro (heq | ⟨rfl | hmem, hne⟩)
        · exact .inr (.inl heq)
        · exact .inl rfl
        · exact .inr (.inr ⟨hmem, hne⟩)

theorem nodup_upsert (hdistinct : (rs.map Request.ssrc).Nodup) :
    ((upsert q rs).map Request.ssrc).Nodup := by
  induction rs with
  | nil => exact List.nodup_singleton _
  | cons p rs ih =>
    have hcons := List.nodup_cons.mp hdistinct
    rw [upsert]
    split_ifs with h
    · rw [List.map_cons, ← h]
      exact hdistinct
    · rw [List.map_cons, List.nodup_cons]
      refine ⟨?_, ih hcons.2⟩
      intro hmem
      obtain ⟨p', hp', heq⟩ := List.mem_map.mp hmem
      rcases (mem_upsert hcons.2).mp hp' with rfl | ⟨hp', -⟩
      · exact h heq.symm
      · exact hcons.1 (heq ▸ List.mem_map_of_mem hp')

/-- The table has the latest request of every sender; requests that have timed
out may be missing. -/
structure Records (now : ℕ) (log rs : List Request) : Prop where
  distinct : (rs.map Request.ssrc).Nodup
  latest : ∀ q ∈ rs, q ∈ latest log
  missing : ∀ q ∈ Tmmbr.latest log, q ∉ rs → q.timedOut now = true

namespace Records

theorem nil (now : ℕ) : Records now [] [] :=
  ⟨.nil, fun _ h => h, fun _ h => absurd h List.not_mem_nil⟩

theorem later (h : Records now log rs) (hle : now ≤ now') :
    Records now' log rs :=
  ⟨h.distinct, h.latest,
    fun q hq hnot => Request.timedOut_mono (h.missing q hq hnot) hle⟩

theorem upsert (h : Records now log rs) (q : Request) :
    Records now (q :: log) (Tmmbr.upsert q rs) := by
  refine ⟨nodup_upsert h.distinct, ?_, ?_⟩
  · intro q' hq'
    rw [mem_latest_cons]
    exact ((mem_upsert h.distinct).mp hq').imp id
      fun hq' => ⟨h.latest q' hq'.1, hq'.2⟩
  · intro q' hq' hnot
    rw [mem_upsert h.distinct, not_or, not_and] at hnot
    rcases mem_latest_cons.mp hq' with rfl | ⟨hq', hne⟩
    · exact absurd rfl hnot.1
    · exact h.missing q' hq' fun hmem => hnot.2 hmem hne

theorem eraseIdx (h : Records now log rs) {i : ℕ} (hi : rs[i]? = some q)
    (hq : q.timedOut now = true) : Records now log (rs.eraseIdx i) := by
  have hsub : (rs.eraseIdx i).Sublist rs := List.eraseIdx_sublist ..
  refine ⟨h.distinct.sublist (hsub.map _),
    fun q' hq' => h.latest q' (hsub.subset hq'), ?_⟩
  intro q' hq' hnot
  by_cases hmem : q' ∈ rs
  · have heq : q' = q := by
      by_contra hne
      refine hnot (List.mem_eraseIdx_iff_getElem?.mpr ?_)
      obtain ⟨j, hj⟩ := List.getElem?_of_mem hmem
      refine ⟨j, ?_, hj⟩
      rintro rfl
      exact hne (Option.some_inj.mp (hj.symm.trans hi))
    exact heq ▸ hq
  · exact h.missing q' hq' hmem

theorem perm (h : Records now log rs) :
    ((rs.filter fun q => !q.timedOut now).map Request.element).Perm
      (live now log) := by
  refine List.Perm.map _ ?_
  refine (List.perm_ext_iff_of_nodup
    ((List.Nodup.of_map _ h.distinct).filter _)
    ((List.Nodup.of_map _ (nodup_latest log)).filter _)).mpr fun q => ?_
  simp only [List.mem_filter, Bool.not_eq_true']
  refine and_congr_left fun hlive => ⟨h.latest q, fun hq => ?_⟩
  by_contra hnot
  rw [h.missing q hq hnot] at hlive
  cases hlive

end Records

/-- What the loop over a table takes: behind an entry that it removes, it
leaves one out. -/
def taken (now : ℕ) : List Request → List SetElement
  | [] => []
  | [q] => if q.timedOut now then [] else [q.element]
  | q :: q' :: rs =>
    if q.timedOut now then taken now rs
    else q.element :: taken now (q' :: rs)

def SkipsNothing (now : ℕ) : List Request → Prop
  | [] => True
  | [_] => True
  | q :: q' :: rs =>
    if q.timedOut now then q'.timedOut now = true ∧ SkipsNothing now rs
    else SkipsNothing now (q' :: rs)

theorem taken_cons_of_live (h : q.timedOut now = false) (rs : List Request) :
    taken now (q :: rs) = q.element :: taken now rs := by
  cases rs with
  | nil => simp [taken, h]
  | cons q' rs => simp [taken, h]

theorem taken_cons_of_timedOut (h : q.timedOut now = true)
    (rs : List Request) : taken now (q :: rs) = taken now rs.tail := by
  cases rs with
  | nil => simp [taken, h]
  | cons q' rs => simp [taken, h]

def liveOf (now : ℕ) (rs : List Request) : List SetElement :=
  (rs.filter fun q => !q.timedOut now).map Request.element

theorem liveOf_cons_of_live (h : q.timedOut now = false) (rs : List Request) :
    liveOf now (q :: rs) = q.element :: liveOf now rs := by
  simp [liveOf, h]

theorem liveOf_cons_of_timedOut (h : q.timedOut now = true)
    (rs : List Request) : liveOf now (q :: rs) = liveOf now rs := by
  simp [liveOf, h]

theorem taken_sublist (now : ℕ) (rs : List Request) :
    (taken now rs).Sublist (liveOf now rs) := by
  fun_induction taken now rs with
  | case1 => exact .refl _
  | case2 q h =>
    rw [liveOf_cons_of_timedOut h]
    exact .refl _
  | case3 q h =>
    rw [liveOf_cons_of_live (eq_false_of_ne_true h)]
    exact .refl _
  | case4 q q' rs h ih =>
    rw [liveOf_cons_of_timedOut h]
    refine ih.trans ?_
    exact ((List.sublist_cons_self q' rs).filter _).map _
  | case5 q q' rs h ih =>
    rw [liveOf_cons_of_live (eq_false_of_ne_true h)]
    exact ih.cons_cons _

theorem length_taken_eq_iff (now : ℕ) (rs : List Request) :
    (taken now rs).length = (liveOf now rs).length ↔ SkipsNothing now rs := by
  fun_induction taken now rs with
  | case1 => simp [liveOf, SkipsNothing]
  | case2 q h => simp [liveOf, SkipsNothing, h]
  | case3 q h => simp [liveOf, SkipsNothing, h]
  | case4 q q' rs h ih =>
    rw [liveOf_cons_of_timedOut h, SkipsNothing, if_pos h]
    cases h' : q'.timedOut now with
    | true => rw [liveOf_cons_of_timedOut h', ih, eq_self, true_and]
    | false =>
      have hle := (taken_sublist now rs).length_le
      rw [liveOf_cons_of_live h', List.length_cons]
      simp only [Bool.false_eq_true, false_and, iff_false]
      omega
  | case5 q q' rs h ih =>
    rw [liveOf_cons_of_live (eq_false_of_ne_true h), SkipsNothing, if_neg h,
      List.length_cons, List.length_cons, Nat.succ_inj, ih]

end WebrtcWinXp.Tmmbr
