import WebrtcWinXp.Tmmbr.Requests

/-!
# Tracking the requests of every remote

The set of requests of a remote and the times beside it are a table of
requests.  Inserting, timing out and collecting keep the two in step; clearing
keeps them in step only where there is nothing to clear.
-/

namespace WebrtcWinXp.Tmmbr

open Support

namespace RTCPReceiveInformation

variable {info : RTCPReceiveInformation} {now : ℕ} {log : List Request}

def requests (info : RTCPReceiveInformation) : List Request :=
  List.zipWith Request.mk info.tmmbrSet.entries info.tmmbrSetTimeouts

def InStep (info : RTCPReceiveInformation) : Prop :=
  info.tmmbrSetTimeouts.length = info.tmmbrSet.lengthOfSet

theorem InStep.length_requests (h : info.InStep) :
    info.requests.length = info.tmmbrSet.lengthOfSet := by
  rw [requests, List.length_zipWith, TMMBRSet.length_entries, h, min_self]

theorem map_element_zipWith {es : List SetElement} {ts : List ℕ}
    (h : es.length = ts.length) :
    (List.zipWith Request.mk es ts).map Request.element = es := by
  induction es generalizing ts with
  | nil => rfl
  | cons e es ih =>
    cases ts with
    | nil => cases h
    | cons t ts => exact congrArg (e :: ·) (ih (Nat.succ.inj h))

theorem InStep.map_element (h : info.InStep) :
    info.requests.map Request.element = info.tmmbrSet.entries := by
  refine map_element_zipWith ?_
  rw [TMMBRSet.length_entries, h]

theorem InStep.getElem?_requests (h : info.InStep) {i : ℕ}
    (hi : i < info.tmmbrSet.lengthOfSet) :
    info.requests[i]? =
      some ⟨info.tmmbrSet.entries.getD i {},
        info.tmmbrSetTimeouts.getD i 0⟩ := by
  have hentry : i < info.tmmbrSet.entries.length := by
    rwa [TMMBRSet.length_entries]
  have htime : i < info.tmmbrSetTimeouts.length := by rwa [h]
  simp [requests, List.getElem?_zipWith, List.getElem?_eq_getElem hentry,
    List.getElem?_eq_getElem htime]

theorem InStep.verifyAndAllocateTMMBRSet (h : info.InStep) (n : ℕ) :
    (info.verifyAndAllocateTMMBRSet n).InStep ∧
      (info.verifyAndAllocateTMMBRSet n).requests = info.requests := by
  unfold RTCPReceiveInformation.verifyAndAllocateTMMBRSet
  split
  · refine ⟨h, ?_⟩
    rw [requests, requests]
    dsimp only
    rw [TMMBRSet.entries_verifyAndAllocateSetKeepingData]
  · exact ⟨h, rfl⟩

theorem zipWith_set (es : List SetElement) (ts : List ℕ) (i : ℕ)
    (e : SetElement) (t : ℕ) :
    List.zipWith Request.mk (es.set i e) (ts.set i t) =
      (List.zipWith Request.mk es ts).set i ⟨e, t⟩ := by
  induction es generalizing ts i with
  | nil => rfl
  | cons e' es ih =>
    cases ts with
    | nil => simp
    | cons t' ts =>
      cases i with
      | zero => rfl
      | succ i => exact congrArg (_ :: ·) (ih ts i)

theorem zipWith_eraseIdx (es : List SetElement) (ts : List ℕ) (i : ℕ) :
    List.zipWith Request.mk (es.eraseIdx i) (ts.eraseIdx i) =
      (List.zipWith Request.mk es ts).eraseIdx i := by
  induction es generalizing ts i with
  | nil => simp
  | cons e es ih =>
    cases ts with
    | nil => simp
    | cons t ts =>
      cases i with
      | zero => rfl
      | succ i => exact congrArg (_ :: ·) (ih ts i)

theorem InStep.insertTMMBRItem (h : info.InStep) (ssrc : ℕ)
    (item : TMMBRItem) (now : ℕ) :
    (info.insertTMMBRItem ssrc item now).InStep ∧
      (info.insertTMMBRItem ssrc item now).requests =
        upsert ⟨element ssrc item, now⟩ info.requests := by
  have hfind : (info.tmmbrSet.entries.findIdx? fun e => e.ssrc = ssrc) =
      info.requests.findIdx? fun q => q.ssrc = ssrc := by
    rw [← h.map_element, List.findIdx?_map]
    rfl
  rw [upsert_eq, RTCPReceiveInformation.insertTMMBRItem, hfind]
  have hssrc : (⟨element ssrc item, now⟩ : Request).ssrc = ssrc := rfl
  rw [hssrc]
  cases hi : info.requests.findIdx? fun q => decide (q.ssrc = ssrc) with
  | some i =>
    have hlt : i < info.tmmbrSet.lengthOfSet := by
      rw [← h.length_requests]
      exact (List.findIdx?_eq_some_iff_getElem.mp hi).1
    refine ⟨?_, ?_⟩
    · have hlength : (info.tmmbrSet.setEntry i
          (element ssrc item)).lengthOfSet = info.tmmbrSet.lengthOfSet := by
        rw [← TMMBRSet.length_entries, TMMBRSet.entries_setEntry hlt,
          List.length_set, TMMBRSet.length_entries]
      rw [InStep]
      dsimp only
      rw [List.length_set, hlength, h]
    · rw [requests]
      dsimp only
      rw [TMMBRSet.entries_setEntry hlt, zipWith_set]
      rfl
  | none =>
    have hroom : (info.verifyAndAllocateTMMBRSet
        (info.tmmbrSet.lengthOfSet + 1)).tmmbrSet.lengthOfSet <
          (info.verifyAndAllocateTMMBRSet
            (info.tmmbrSet.lengthOfSet + 1)).tmmbrSet.sizeOfSet := by
      unfold RTCPReceiveInformation.verifyAndAllocateTMMBRSet
      split
      · exact Nat.lt_of_lt_of_le (Nat.lt_succ_self _) (le_max_left _ _)
      · omega
    obtain ⟨hstep, hrequests⟩ :=
      h.verifyAndAllocateTMMBRSet (info.tmmbrSet.lengthOfSet + 1)
    have hentries := TMMBRSet.entries_addEntry hroom (element ssrc item)
    refine ⟨?_, ?_⟩
    · have hlength := congrArg List.length hentries
      rw [List.length_append, TMMBRSet.length_entries,
        TMMBRSet.length_entries] at hlength
      rw [InStep]
      dsimp only
      rw [hlength, List.length_append, hstep]
      rfl
    · rw [← hrequests, requests]
      dsimp only
      rw [hentries, List.zipWith_append]
      · rfl
      · rw [TMMBRSet.length_entries, hstep]

/-! ## Collecting -/

theorem InStep.removeEntry (h : info.InStep) {i : ℕ}
    (hi : i < info.tmmbrSet.lengthOfSet) {info' : RTCPReceiveInformation}
    (heq : info' =
      { info with
        tmmbrSet := info.tmmbrSet.removeEntry i
        tmmbrSetTimeouts := info.tmmbrSetTimeouts.eraseIdx i }) :
    info'.InStep ∧ info'.requests = info.requests.eraseIdx i := by
  subst heq
  have hentries := TMMBRSet.entries_removeEntry hi
  refine ⟨?_, ?_⟩
  · have hlength := congrArg List.length hentries
    have htime : i < info.tmmbrSetTimeouts.length := by rwa [h]
    have hentry : i < info.tmmbrSet.entries.length := by
      rwa [TMMBRSet.length_entries]
    rw [TMMBRSet.length_entries, List.length_eraseIdx_of_lt hentry,
      TMMBRSet.length_entries] at hlength
    rw [InStep]
    dsimp only
    rw [hlength, List.length_eraseIdx_of_lt htime, h]
  · rw [requests]
    dsimp only
    rw [hentries, zipWith_eraseIdx]
    rfl

theorem drop_eq_cons {α : Type*} {l : List α} {i : ℕ} {a : α}
    (h : l[i]? = some a) : l.drop i = a :: l.drop (i + 1) := by
  obtain ⟨hi, rfl⟩ := List.getElem?_eq_some_iff.mp h
  exact List.drop_eq_getElem_cons hi

theorem drop_eraseIdx {α : Type*} (l : List α) (i : ℕ) :
    (l.eraseIdx i).drop (i + 1) = l.drop (i + 2) := by
  apply List.ext_getElem?
  intro j
  rw [List.getElem?_drop, List.getElem?_drop, List.getElem?_eraseIdx,
    if_neg (by omega)]
  congr 1
  omega

/-- What one round of the loop over the entries does. -/
inductive CollectRound (size now : ℕ) (c : Collecting) : Collecting → Prop
  | full (h : c.candidateSet.sizeOfSet ≤ c.num) :
      CollectRound size now c { c with i := c.i + 1 }
  | timedOut {q : Request} {info : RTCPReceiveInformation}
      (hq : c.info.requests[c.i]? = some q) (htime : q.timedOut now = true)
      (hstep : info.InStep)
      (hrequests : info.requests = c.info.requests.eraseIdx c.i) :
      CollectRound size now c
        { c with
          i := c.i + 1
          info := info }
  | copied {q : Request} (hq : c.info.requests[c.i]? = some q)
      (htime : q.timedOut now = false) :
      CollectRound size now c
        { c with
          i := c.i + 1
          num := c.num + 1
          candidateSet := c.candidateSet.setEntry c.num q.element }

theorem collectStep_round {size : ℕ} {c c' : Collecting}
    (hin : c.info.InStep) (h : collectStep size now c = some c') :
    (c.num < size ∧ c.i < c.info.tmmbrSet.lengthOfSet) ∧
      CollectRound size now c c' := by
  unfold collectStep at h
  split at h
  · rename_i hguard
    refine ⟨hguard, ?_⟩
    have hq := hin.getElem?_requests hguard.2
    rw [getTMMBRSet, if_neg (Nat.not_le.mpr hguard.2)] at h
    by_cases hfull : c.num ≥ c.candidateSet.sizeOfSet
    · rw [if_pos hfull] at h
      cases h
      exact .full hfull
    rw [if_neg hfull] at h
    cases htime : timedOut now (c.info.tmmbrSetTimeouts.getD c.i 0) with
    | true =>
      rw [if_pos htime] at h
      cases h
      obtain ⟨hstep, hrequests⟩ := hin.removeEntry hguard.2 rfl
      exact .timedOut hq htime hstep hrequests
    | false =>
      rw [if_neg (ne_true_of_eq_false htime)] at h
      cases h
      exact .copied hq htime
  · cases h

theorem InStep.collectStep {size : ℕ} {c c' : Collecting}
    (hin : c.info.InStep)
    (h : RTCPReceiveInformation.collectStep size now c = some c') :
    c'.info.InStep := by
  cases (collectStep_round hin h).2 with
  | full => exact hin
  | timedOut _ _ hstep => exact hstep
  | copied => exact hin

theorem InStep.collect (h : info.InStep) {P : Collecting → Prop}
    {size num : ℕ} {candidateSet : TMMBRSet}
    (hstart : P ⟨0, num, info, candidateSet⟩)
    (hround : ∀ c c', P c → c.num < size ∧ c.i < c.info.requests.length →
      CollectRound size now c c' → P c') :
    P (info.collect size now num candidateSet) ∧
      (info.collect size now num candidateSet).info.InStep ∧
      ((info.collect size now num candidateSet).num < size →
        (info.collect size now num candidateSet).info.requests.length ≤
          (info.collect size now num candidateSet).i) := by
  have hkeeps : ∀ c c', c.info.InStep ∧ P c →
      RTCPReceiveInformation.collectStep size now c = some c' →
      (c'.info.InStep ∧ P c') ∧
        c'.info.tmmbrSet.lengthOfSet - c'.i <
          c.info.tmmbrSet.lengthOfSet - c.i := by
    intro c c' hc hstep
    obtain ⟨⟨hlt, hi⟩, hr⟩ := collectStep_round hc.1 hstep
    have hin := hc.1.collectStep hstep
    rw [← hc.1.length_requests] at hi
    refine ⟨⟨hin, hround c c' hc.2 ⟨hlt, hi⟩ hr⟩, ?_⟩
    rw [← hin.length_requests, ← hc.1.length_requests]
    cases hr with
    | full =>
      dsimp only
      omega
    | timedOut _ _ _ hrequests =>
      dsimp only
      rw [hrequests, List.length_eraseIdx_of_lt hi]
      omega
    | copied =>
      dsimp only
      omega
  obtain ⟨⟨hin, hP⟩, hend⟩ := finish_of_invariant hkeeps ⟨h, hstart⟩
  refine ⟨hP, hin, fun hlt => ?_⟩
  unfold RTCPReceiveInformation.collectStep at hend
  rw [ite_eq_right_iff] at hend
  by_contra hle
  rw [Nat.not_le] at hle
  exact Option.some_ne_none _ (hend ⟨hlt, hin.length_requests ▸ hle⟩)

theorem InStep.records_collect (h : info.InStep)
    (hrecords : Records now log info.requests) (size num : ℕ)
    (candidateSet : TMMBRSet) :
    (info.collect size now num candidateSet).info.InStep ∧
      Records now log
        (info.collect size now num candidateSet).info.requests := by
  have hround : ∀ c c' : Collecting, Records now log c.info.requests →
      c.num < size ∧ c.i < c.info.requests.length →
      CollectRound size now c c' → Records now log c'.info.requests := by
    intro c c' hc _ hr
    cases hr with
    | full => exact hc
    | timedOut hq htime _ hrequests =>
      dsimp only
      rw [hrequests]
      exact hc.eraseIdx hq htime
    | copied => exact hc
  obtain ⟨hrecords, hin, -⟩ := h.collect hrecords hround
  exact ⟨hin, hrecords⟩

theorem InStep.collect_eq (h : info.InStep) {size num : ℕ}
    {candidateSet : TMMBRSet}
    (hsize : num + (taken now info.requests).length ≤ size)
    (hroom : size ≤ candidateSet.sizeOfSet) :
    (info.collect size now num candidateSet).num =
        num + (taken now info.requests).length ∧
      (info.collect size now num candidateSet).candidateSet =
        candidateSet.fill num (taken now info.requests) := by
  have hround : ∀ c c' : Collecting,
      (∃ front, c.num = num + front.length ∧
        c.candidateSet = candidateSet.fill num front ∧
        front ++ taken now (c.info.requests.drop c.i) =
          taken now info.requests) →
      c.num < size ∧ c.i < c.info.requests.length →
      CollectRound size now c c' →
      ∃ front, c'.num = num + front.length ∧
        c'.candidateSet = candidateSet.fill num front ∧
        front ++ taken now (c'.info.requests.drop c'.i) =
          taken now info.requests := by
    rintro c c' ⟨front, hnum, hset, htaken⟩ ⟨hlt, hi⟩ hr
    cases hr with
    | full hfull =>
      rw [hset, TMMBRSet.sizeOfSet_fill] at hfull
      omega
    | timedOut hq htime _ hrequests =>
      refine ⟨front, hnum, hset, ?_⟩
      dsimp only
      rw [← htaken, hrequests, drop_eq_cons hq, taken_cons_of_timedOut htime,
        drop_eraseIdx, List.tail_drop]
    | copied hq htime =>
      rename_i q
      refine ⟨front ++ [q.element], ?_, ?_, ?_⟩
      · rw [List.length_append, List.length_singleton]
        dsimp only
        omega
      · rw [TMMBRSet.fill_append, ← hset, ← hnum]
        rfl
      · rw [← htaken, drop_eq_cons hq, taken_cons_of_live htime,
          List.append_assoc]
        rfl
  have hstart : ∃ front, num = num + List.length front ∧
      candidateSet = candidateSet.fill num front ∧
      front ++ taken now (info.requests.drop 0) = taken now info.requests :=
    ⟨[], rfl, rfl, rfl⟩
  obtain ⟨⟨front, hnum, hset, htaken⟩, -, hend⟩ := h.collect hstart hround
  have hrest : taken now
      ((info.collect size now num candidateSet).info.requests.drop
        (info.collect size now num candidateSet).i) = [] := by
    by_cases hlt : (info.collect size now num candidateSet).num < size
    · rw [List.drop_eq_nil_of_le (hend hlt), taken]
    · have hlength := congrArg List.length htaken
      rw [List.length_append] at hlength
      exact List.length_eq_zero_iff.mp (by omega)
  rw [hrest, List.append_nil] at htaken
  exact ⟨htaken ▸ hnum, htaken ▸ hset⟩

end RTCPReceiveInformation

/-- The table of a remote is right. -/
structure Tracked (now : ℕ) (log : List Request)
    (info : RTCPReceiveInformation) : Prop where
  inStep : info.InStep
  records : Records now log info.requests

namespace RTCPReceiver

variable {now size : ℕ} {log : List Request}

theorem tracked_collectRemote {candidates : ℕ × TMMBRSet}
    {info : RTCPReceiveInformation} (h : Tracked now log info) :
    Tracked now log (collectRemote size now candidates info).2 := by
  unfold collectRemote
  split
  · obtain ⟨hin, hrecords⟩ := h.inStep.records_collect h.records size
      candidates.1 candidates.2
    exact ⟨hin, hrecords⟩
  · exact h

theorem collectRemote_eq {num : ℕ} {candidateSet : TMMBRSet}
    {info : RTCPReceiveInformation} (h : info.InStep)
    (hsize : num + (taken now info.requests).length ≤ size)
    (hroom : size ≤ candidateSet.sizeOfSet) :
    (collectRemote size now (num, candidateSet) info).1 =
      (num + (taken now info.requests).length,
        candidateSet.fill num (taken now info.requests)) := by
  unfold collectRemote
  split
  · obtain ⟨hnum, hset⟩ := h.collect_eq hsize hroom
    exact Prod.ext hnum hset
  · have hnil : taken now info.requests = [] :=
      List.length_eq_zero_iff.mp (by omega)
    rw [hnil]
    rfl

/-- What is taken from all remotes, one after the other. -/
def takenFrom (now : ℕ) (remotes : List (ℕ × RTCPReceiveInformation)) :
    List SetElement :=
  remotes.flatMap fun e => taken now e.2.requests

theorem walkEntries_collectRemote {num : ℕ} {candidateSet : TMMBRSet}
    {remotes : List (ℕ × RTCPReceiveInformation)}
    (h : ∀ e ∈ remotes, e.2.InStep)
    (hsize : num + (takenFrom now remotes).length ≤ size)
    (hroom : size ≤ candidateSet.sizeOfSet) :
    (OrderedMap.walkEntries
        (fun candidates _ info => collectRemote size now candidates info)
        (num, candidateSet) remotes).1 =
      (num + (takenFrom now remotes).length,
        candidateSet.fill num (takenFrom now remotes)) := by
  induction remotes generalizing num candidateSet with
  | nil => rfl
  | cons e remotes ih =>
    rw [takenFrom, List.flatMap_cons, List.length_append] at hsize ⊢
    have hfirst := collectRemote_eq (h e List.mem_cons_self)
      (Nat.le_of_add_right_le (by rwa [Nat.add_assoc])) hroom
    rw [OrderedMap.walkEntries]
    dsimp only
    rw [hfirst, ih (fun e' he' => h e' (List.mem_cons_of_mem _ he'))
      (by rwa [Nat.add_assoc]) (by rwa [TMMBRSet.sizeOfSet_fill]),
      TMMBRSet.fill_append, Nat.add_assoc]
    rfl

end RTCPReceiver

def liveIn (now : ℕ) (log : ℕ → List Request)
    (remotes : List (ℕ × RTCPReceiveInformation)) : List SetElement :=
  remotes.flatMap fun e => live now (log e.1)

variable {now : ℕ} {log : ℕ → List Request}
  {remotes : List (ℕ × RTCPReceiveInformation)}

theorem Tracked.perm {log : List Request} {info : RTCPReceiveInformation}
    (h : Tracked now log info) :
    (liveOf now info.requests).Perm (live now log) :=
  h.records.perm

theorem length_takenFrom_le
    (h : ∀ e ∈ remotes, Tracked now (log e.1) e.2) :
    (RTCPReceiver.takenFrom now remotes).length ≤
      (liveIn now log remotes).length := by
  induction remotes with
  | nil => exact le_rfl
  | cons e remotes ih =>
    rw [RTCPReceiver.takenFrom, liveIn, List.flatMap_cons, List.flatMap_cons,
      List.length_append, List.length_append]
    have hfirst := (taken_sublist now e.2.requests).length_le
    rw [(h e List.mem_cons_self).perm.length_eq] at hfirst
    exact Nat.add_le_add hfirst
      (ih fun e' he' => h e' (List.mem_cons_of_mem _ he'))

theorem takenFrom_perm_iff
    (h : ∀ e ∈ remotes, Tracked now (log e.1) e.2) :
    (RTCPReceiver.takenFrom now remotes).Perm (liveIn now log remotes) ↔
      ∀ e ∈ remotes, SkipsNothing now e.2.requests := by
  constructor
  · intro hperm
    have hlength := hperm.length_eq
    clear hperm
    induction remotes with
    | nil => exact fun e he => absurd he List.not_mem_nil
    | cons e remotes ih =>
      have hrest := fun e' he' => h e' (List.mem_cons_of_mem e he')
      have hle := length_takenFrom_le hrest
      rw [RTCPReceiver.takenFrom, liveIn, List.flatMap_cons,
        List.flatMap_cons, List.length_append, List.length_append] at hlength
      rw [RTCPReceiver.takenFrom, liveIn] at hle
      have hfirst := (taken_sublist now e.2.requests).length_le
      have hlive := (h e List.mem_cons_self).perm.length_eq
      intro e' he'
      rcases List.mem_cons.mp he' with rfl | he'
      · exact (length_taken_eq_iff now _).mp (by omega)
      · refine ih hrest ?_ e' he'
        rw [RTCPReceiver.takenFrom, liveIn]
        omega
  · intro hskips
    refine List.Perm.flatMap_left _ fun e he => ?_
    rw [(taken_sublist now e.2.requests).eq_of_length
      ((length_taken_eq_iff now _).mpr (hskips e he))]
    exact (h e he).perm

end WebrtcWinXp.Tmmbr
