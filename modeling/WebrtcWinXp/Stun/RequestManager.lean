import WebrtcWinXp.Turn.Message
import WebrtcWinXp.Support.Transition
import Mathlib.Data.List.Nodup
import Mathlib.Logic.Function.Iterate

/-!
# The life cycle of STUN requests

`StunRequestManager` keeps the requests that wait for a response, each with a
message in the queue of the thread.  Messages may be dispatched at any time,
and callbacks may send further requests.
-/

namespace WebrtcWinXp.Stun

open Support

def MAX_SENDS : ℕ := 9

/-- The fields of the message that it owns come first. -/
structure StunRequest where
  transactionId : List UInt8
  type : UInt16
  cls : MessageClass
  count : ℕ
  timeout : Bool

/-- The delay only says when the message is dispatched. -/
def StunRequest.getNextDelay (r : StunRequest) : StunRequest :=
  { r with
    count := r.count + 1
    timeout := if r.count + 1 = MAX_SENDS then true else r.timeout }

inductive Callback where
  | onResponse
  | onErrorResponse
  | onTimeout
  deriving DecidableEq

/-- What may happen to a request. -/
inductive Action where
  | transmitted
  | called (callback : Callback)
  | removed
  | freed
  deriving DecidableEq

structure NewRequest where
  transactionId : List UInt8
  type : UInt16
  cls : MessageClass

/-- The manager with the request objects, which are numbered as they are sent,
and the messages in the queue of the thread. -/
structure StunRequestManager where
  /-- The entries of the map, in no particular order. -/
  requests : List (List UInt8 × ℕ)
  objects : ℕ → StunRequest
  created : ℕ
  posted : List ℕ
  log : List (ℕ × Action)
  alive : Bool

namespace StunRequestManager

def new : StunRequestManager :=
  ⟨[], fun _ => ⟨[], 0, .stun, 0, false⟩, 0, [], [], true⟩

variable (s : StunRequestManager) (p : ℕ)

def record (a : Action) : StunRequestManager :=
  { s with
    log := s.log ++ [(p, a)] }

def find (id : List UInt8) : Option ℕ :=
  (s.requests.find? fun e => e.1 = id).map Prod.snd

/-- `Clear` of the thread. -/
def threadClear : StunRequestManager :=
  { s with
    posted := s.posted.filter (· ≠ p) }

def erase (id : List UInt8) : StunRequestManager :=
  { s with
    requests := s.requests.filter fun e => e.1 ≠ id }

def remove : StunRequestManager :=
  let id := (s.objects p).transactionId
  match s.find id with
  | some _ => (s.erase id).threadClear p
  | none => s

/-- `delete` with the destructor of `StunRequest`. -/
def delete : StunRequestManager :=
  ((s.remove p).threadClear p).record p .freed

def clear : StunRequestManager :=
  (s.requests.map Prod.snd).foldl delete s

def destroyFirst : StunRequestManager :=
  match s.requests with
  | [] => s
  | (_, p) :: requests =>
    { s with
      requests := requests }.delete p

/-- There are at most as many rounds as requests. -/
def destroy : StunRequestManager :=
  { destroyFirst^[s.requests.length] s with
    alive := false }

def sendDelayed (r : NewRequest) : Option StunRequestManager :=
  if ∀ p < s.created, (s.objects p).transactionId ≠ r.transactionId then
    some
      { s with
        requests := (r.transactionId, s.created) ::
          s.requests.filter fun e => e.1 ≠ r.transactionId
        objects := Function.update s.objects s.created
          ⟨r.transactionId, r.type, r.cls, 0, false⟩
        created := s.created + 1
        posted := s.posted ++ [s.created] }
  else none

def sendAll : List NewRequest → StunRequestManager →
    Option StunRequestManager
  | [], s => some s
  | r :: rs, s => (s.sendDelayed r).bind (sendAll rs)

def repost : StunRequestManager :=
  { s with
    objects := Function.update s.objects p (s.objects p).getNextDelay
    posted := s.posted ++ [p] }

def onMessage (sends : List NewRequest) : Option StunRequestManager :=
  if (s.objects p).timeout then
    (sendAll sends (s.record p (.called .onTimeout))).map (·.delete p)
  else (sendAll sends (s.record p .transmitted)).map (·.repost p)

/-- `OnResponse` or `OnErrorResponse`, and `delete`. -/
def answer (callback : Callback) (sends : List NewRequest) :
    Option (Bool × StunRequestManager) :=
  (sendAll sends (s.record p (.called callback))).map fun t =>
    (true, t.delete p)

def checkMessage (type : UInt16) (transactionId : List UInt8)
    (sends : List NewRequest) : Option (Bool × StunRequestManager) :=
  match s.find transactionId with
  | none => some (false, s)
  | some p =>
    let request := (s.objects p).type
    if some type = Turn.getStunSuccessResponseType request then
      s.answer p .onResponse sends
    else if some type = Turn.getStunErrorResponseType request then
      s.answer p .onErrorResponse sends
    else some (false, s)

def checkResponse (data : List UInt8) (sends : List NewRequest) :
    Option (Bool × StunRequestManager) :=
  if data.length < 20 then some (false, s)
  else
    match s.find ((data.drop 8).take 12) with
    | none => some (false, s)
    | some p =>
      match StunMessage.read (s.objects p).cls data with
      | none => some (false, s)
      | some response =>
        s.checkMessage response.type response.transactionId sends

def history : List Action :=
  (s.log.filter fun e => e.1 = p).map Prod.snd

/-- The requests that were sent and not yet answered, timed out or removed. -/
def outstanding : List ℕ :=
  (List.range s.created).filter fun p =>
    (s.history p).all (· = .transmitted)

/-- The outstanding requests among `ps` count as removed from now on. -/
def drop (ps : List ℕ) : StunRequestManager :=
  { s with
    log := s.log ++
      (s.outstanding.filter (· ∈ ps)).map fun p => (p, .removed) }

inductive Event where
  | send (r : NewRequest)
  | remove (p : ℕ)
  | clear
  | destroy
  | message (p : ℕ) (sends : List NewRequest)
  | response (data : List UInt8) (sends : List NewRequest)
  | responseMessage (type : UInt16) (transactionId : List UInt8)
      (sends : List NewRequest)

def step (e : Event) : Option StunRequestManager :=
  if s.alive then
    match e with
    | .send r => s.sendDelayed r
    | .remove p =>
      if p < s.created ∧ .freed ∉ s.history p then
        some ((s.drop [p]).remove p)
      else none
    | .clear => some (s.drop s.outstanding).clear
    | .destroy => some (s.drop s.outstanding).destroy
    | .message p sends =>
      if p ∈ s.posted then
        { s with
          posted := s.posted.erase p }.onMessage p sends
      else none
    | .response data sends => (s.checkResponse data sends).map Prod.snd
    | .responseMessage type transactionId sends =>
      (s.checkMessage type transactionId sends).map Prod.snd
  else none

end StunRequestManager

/-- How far a request has come behind its transmissions. -/
inductive Stage where
  | waiting
  | removed
  | deleted
  | ended (callback : Callback)
  deriving DecidableEq

def Stage.actions : Stage → List Action
  | waiting => []
  | removed => [.removed]
  | deleted => [.removed, .freed]
  | ended callback => [.called callback, .freed]

namespace StunRequestManager

/-- At most `MAX_SENDS` transmissions are followed by at most one callback or
removal, and then at most once by the end of the object. -/
structure Tidy (s : StunRequestManager) : Prop where
  history : ∀ p, ∃ k ≤ MAX_SENDS, ∃ stage : Stage,
    s.history p = List.replicate k .transmitted ++ stage.actions
  requests : ∀ id p, (id, p) ∈ s.requests ↔
    p ∈ s.outstanding ∧ id = (s.objects p).transactionId
  posted : ∀ p, .freed ∈ s.history p → p ∉ s.posted
  rejected : ∀ data sends t,
    s.checkResponse data sends = some (false, t) → t = s

variable {s t u : StunRequestManager} {p q : ℕ}

/-! ## One request -/

/-- Nothing of a request changes. -/
structure Same (s t : StunRequestManager) (q : ℕ) : Prop where
  history : t.history q = s.history q
  posted : t.posted.count q = s.posted.count q
  entry : ∀ id, (id, q) ∈ t.requests ↔ (id, q) ∈ s.requests
  object : t.objects q = s.objects q

theorem Same.trans (h : Same s t q) (h' : Same t u q) : Same s u q where
  history := h'.history.trans h.history
  posted := h'.posted.trans h.posted
  entry id := (h'.entry id).trans (h.entry id)
  object := h'.object.trans h.object

/-- Where a request stands that was transmitted `k` times. -/
structure At (s : StunRequestManager) (p k : ℕ) (stage : Stage) : Prop where
  limit : k ≤ MAX_SENDS
  history : s.history p = List.replicate k .transmitted ++ stage.actions
  posted : s.posted.count p = if stage = .waiting then 1 else 0
  entry : ∀ id, (id, p) ∈ s.requests ↔
    stage = .waiting ∧ id = (s.objects p).transactionId
  object : stage = .waiting → (s.objects p).count = k ∧
    ((s.objects p).timeout = true ↔ k = MAX_SENDS)

variable {k : ℕ}

theorem At.same {stage : Stage} (h : s.At p k stage)
    (hsame : Same s t p) : t.At p k stage where
  limit := h.limit
  history := hsame.history.trans h.history
  posted := hsame.posted.trans h.posted
  entry id := by
    rw [hsame.entry, h.entry, hsame.object]
  object := by
    rw [hsame.object]
    exact h.object

structure Shaped (s : StunRequestManager) : Prop where
  entry : ∀ id p, (id, p) ∈ s.requests →
    p < s.created ∧ id = (s.objects p).transactionId
  distinct : ∀ p < s.created, ∀ q < s.created,
    (s.objects p).transactionId = (s.objects q).transactionId → p = q
  nodup : s.requests.Nodup
  fresh : ∀ q, s.created ≤ q → s.history q = [] ∧ s.posted.count q = 0

variable {id : List UInt8}

theorem find_some (h : s.find id = some p) :
    (id, p) ∈ s.requests := by
  obtain ⟨⟨id', p'⟩, he, rfl⟩ := Option.map_eq_some_iff.mp h
  have hid : id' = id := by
    simpa using List.find?_some he
  subst hid
  exact List.mem_of_find?_eq_some he

theorem find_none (h : s.find id = none) :
    (id, p) ∉ s.requests := by
  intro hmem
  have hnone := List.find?_eq_none.mp (Option.map_eq_none_iff.mp h) _ hmem
  simp at hnone

theorem history_record (a : Action) :
    (s.record p a).history q =
      s.history q ++ if p = q then [a] else [] := by
  simp only [history, record, List.filter_append, List.map_append]
  congr 1
  by_cases h : p = q
  · simp [h]
  · simp [h]

/-- The requests apart from `p` stay as they are, and new ones are there. -/
structure Evolves (p : Option ℕ) (s t : StunRequestManager) : Prop where
  shaped : t.Shaped
  alive : t.alive = s.alive
  created : s.created ≤ t.created
  same : ∀ q < s.created, some q ≠ p → Same s t q
  added : ∀ q, s.created ≤ q → q < t.created → t.At q 0 .waiting

theorem Evolves.trans {p : Option ℕ} (h : Evolves p s t)
    (h' : Evolves p t u) (hp : ∀ q ∈ p, q < s.created) :
    Evolves p s u where
  shaped := h'.shaped
  alive := h'.alive.trans h.alive
  created := h.created.trans h'.created
  same q hq hne := (h.same q hq hne).trans
    (h'.same q (hq.trans_le h.created) hne)
  added q hq hlt := by
    by_cases hold : q < t.created
    · refine (h.added q hq hold).same (h'.same q hold fun heq => ?_)
      exact absurd (hp q heq.symm) (Nat.not_lt.mpr hq)
    · exact h'.added q (Nat.not_lt.mp hold) hlt

theorem Evolves.weaken {p : Option ℕ} (h : Evolves none s t) :
    Evolves p s t where
  shaped := h.shaped
  alive := h.alive
  created := h.created
  same q hq _ := h.same q hq nofun
  added := h.added

/-- A step that touches one request only. -/
theorem Evolves.of_eq (hshaped : t.Shaped) (halive : t.alive = s.alive)
    (hcreated : t.created = s.created)
    (hsame : ∀ q < s.created, q ≠ p → Same s t q) :
    Evolves (some p) s t where
  shaped := hshaped
  alive := halive
  created := hcreated.ge
  same q hq hne := hsame q hq fun h => hne (congrArg some h)
  added q hq hlt := absurd (hcreated ▸ hlt) (Nat.not_lt.mpr hq)

theorem evolves_record (h : s.Shaped) (hp : p < s.created) (a : Action) :
    Evolves (some p) s (s.record p a) := by
  have hother : ∀ q, q ≠ p → (s.record p a).history q = s.history q := by
    intro q hq
    rw [history_record, if_neg hq.symm, List.append_nil]
  refine .of_eq ⟨h.entry, h.distinct, h.nodup, fun q hq => ?_⟩ rfl rfl
    fun q _ hne => ⟨hother q hne, rfl, fun _ => Iff.rfl, rfl⟩
  exact ⟨(hother q (hp.trans_le hq).ne').trans (h.fresh q hq).1,
    (h.fresh q hq).2⟩

variable {l : List ℕ}

theorem count_posted (h : q ≠ p) :
    (l ++ [p]).count q = l.count q := by
  rw [List.count_append, List.count_singleton, if_neg]
  · rfl
  · simpa using h.symm

theorem evolves_sendDelayed {r : NewRequest} (h : s.Shaped)
    (hsend : s.sendDelayed r = some t) : Evolves none s t := by
  unfold sendDelayed at hsend
  split at hsend
  case isFalse => cases hsend
  case isTrue hfresh =>
    cases hsend
    have hobject : ∀ q < s.created, Function.update s.objects s.created
        ⟨r.transactionId, r.type, r.cls, 0, false⟩ q = s.objects q :=
      fun q hq => Function.update_of_ne hq.ne _ _
    have hkept : ∀ e ∈ s.requests, e.1 ≠ r.transactionId := by
      rintro ⟨id, q⟩ hmem heq
      obtain ⟨hq, hid⟩ := h.entry id q hmem
      exact hfresh q hq (hid.symm.trans heq)
    have hfilter : (s.requests.filter fun e => e.1 ≠ r.transactionId) =
        s.requests :=
      List.filter_eq_self.mpr fun e he => decide_eq_true (hkept e he)
    refine ⟨⟨?_, ?_, ?_, ?_⟩, rfl, Nat.le_succ _, ?_, ?_⟩
    · intro id q hmem
      dsimp only at hmem ⊢
      rw [hfilter, List.mem_cons] at hmem
      rcases hmem with heq | hmem
      · cases heq
        rw [Function.update_self]
        exact ⟨Nat.lt_succ_self _, rfl⟩
      · obtain ⟨hq, hid⟩ := h.entry id q hmem
        rw [hobject q hq]
        exact ⟨hq.trans (Nat.lt_succ_self _), hid⟩
    · intro p hp q hq heq
      dsimp only at hp hq heq
      rcases Nat.lt_succ_iff_lt_or_eq.mp hp with hp | rfl
      · rcases Nat.lt_succ_iff_lt_or_eq.mp hq with hq | rfl
        · rw [hobject p hp, hobject q hq] at heq
          exact h.distinct p hp q hq heq
        · rw [hobject p hp, Function.update_self] at heq
          exact absurd heq (hfresh p hp)
      · rcases Nat.lt_succ_iff_lt_or_eq.mp hq with hq | rfl
        · rw [hobject q hq, Function.update_self] at heq
          exact absurd heq.symm (hfresh q hq)
        · rfl
    · dsimp only
      rw [hfilter, List.nodup_cons]
      exact ⟨fun hmem => hkept _ hmem rfl, h.nodup⟩
    · intro q hq
      exact ⟨(h.fresh q (Nat.le_of_succ_le hq)).1,
        (count_posted (Nat.ne_of_gt hq)).trans
          (h.fresh q (Nat.le_of_succ_le hq)).2⟩
    · intro q hq _
      refine ⟨rfl, count_posted hq.ne, fun id => ?_, hobject q hq⟩
      dsimp only
      rw [hfilter, List.mem_cons, Prod.mk.injEq]
      exact or_iff_right fun heq => hq.ne heq.2
    · intro q hq hlt
      obtain rfl : q = s.created := Nat.le_antisymm (Nat.lt_succ_iff.mp hlt) hq
      refine ⟨Nat.zero_le _, (h.fresh _ le_rfl).1, ?_, fun id => ?_,
        fun _ => ?_⟩
      · dsimp only
        rw [List.count_append, (h.fresh _ le_rfl).2]
        simp
      · dsimp only
        rw [hfilter, List.mem_cons, Function.update_self, Prod.mk.injEq]
        constructor
        · rintro (heq | hmem)
          · exact ⟨rfl, heq.1⟩
          · exact absurd (h.entry id _ hmem).1 (lt_irrefl _)
        · rintro ⟨-, rfl⟩
          exact .inl ⟨rfl, rfl⟩
      · dsimp only
        rw [Function.update_self]
        exact ⟨rfl, iff_of_false Bool.false_ne_true (by decide)⟩

variable {rs : List NewRequest}

theorem evolves_sendAll (h : s.Shaped)
    (hsend : sendAll rs s = some t) : Evolves none s t := by
  induction rs generalizing s with
  | nil =>
    cases hsend
    exact ⟨h, rfl, le_rfl, fun q _ _ => ⟨rfl, rfl, fun _ => Iff.rfl, rfl⟩,
      fun q hq hlt => absurd hlt (Nat.not_lt.mpr hq)⟩
  | cons r rs ih =>
    obtain ⟨u, hu, hrest⟩ := Option.bind_eq_some_iff.mp hsend
    have hstep := evolves_sendDelayed h hu
    exact hstep.trans (ih hstep.shaped hrest) nofun

/-- An id of the map belongs to one object. -/
theorem Shaped.keyed (h : s.Shaped) (hp : p < s.created) :
    ∀ e ∈ s.requests, e.1 = (s.objects p).transactionId ↔ e.2 = p := by
  rintro ⟨id, q⟩ hmem
  obtain ⟨hq, hid⟩ := h.entry id q hmem
  dsimp only at hid ⊢
  rw [hid]
  exact ⟨h.distinct q hq p hp, fun heq => heq ▸ rfl⟩

theorem remove_eq
    (hkeyed : ∀ e ∈ s.requests,
      e.1 = (s.objects p).transactionId ↔ e.2 = p)
    (hposted : (∀ e ∈ s.requests, e.2 ≠ p) → p ∉ s.posted) :
    s.remove p =
      { s with
        requests := s.requests.filter fun e => e.2 ≠ p
        posted := s.posted.filter (· ≠ p) } := by
  have hfilter : (s.requests.filter fun e =>
      e.1 ≠ (s.objects p).transactionId) =
        s.requests.filter fun e => e.2 ≠ p :=
    List.filter_congr fun e he =>
      decide_eq_decide.mpr (not_congr (hkeyed e he))
  cases hfind : s.find (s.objects p).transactionId with
  | some q => simp only [remove, hfind, erase, threadClear, hfilter]
  | none =>
    have hnone : ∀ e ∈ s.requests, e.2 ≠ p := by
      intro e he heq
      have hmem : ((s.objects p).transactionId, e.2) ∈ s.requests :=
        (hkeyed e he).mpr heq ▸ he
      exact find_none hfind hmem
    have hrequests : (s.requests.filter fun e => e.2 ≠ p) = s.requests :=
      List.filter_eq_self.mpr fun e he => decide_eq_true (hnone e he)
    have hcleared : s.posted.filter (· ≠ p) = s.posted := by
      refine List.filter_eq_self.mpr fun q hq => decide_eq_true ?_
      rintro rfl
      exact hposted hnone hq
    simp only [remove, hfind, hrequests, hcleared]

theorem delete_eq
    (hkeyed : ∀ e ∈ s.requests,
      e.1 = (s.objects p).transactionId ↔ e.2 = p) :
    s.delete p =
      { s with
        requests := s.requests.filter fun e => e.2 ≠ p
        posted := s.posted.filter (· ≠ p)
        log := s.log ++ [(p, .freed)] } := by
  have hclear : (s.remove p).threadClear p = (s.threadClear p).remove p := by
    unfold remove find
    dsimp only [threadClear]
    cases (s.requests.find? fun e =>
      decide (e.1 = (s.objects p).transactionId)).map Prod.snd <;> rfl
  have hremove := remove_eq (s := s.threadClear p) (p := p) hkeyed
    fun _ h => of_decide_eq_true (List.mem_filter.mp h).2 rfl
  rw [delete, hclear, hremove]
  simp only [record, threadClear, List.filter_filter, Bool.and_self]

theorem count_cleared :
    (s.posted.filter (· ≠ p)).count q =
      if p = q then 0 else s.posted.count q := by
  by_cases h : p = q
  · rw [if_pos h, List.count_eq_zero]
    intro hmem
    exact of_decide_eq_true (List.mem_filter.mp hmem).2 h.symm
  · rw [if_neg h]
    exact List.count_filter (decide_eq_true (Ne.symm h))

/-- The entries and messages of a request disappear. -/
theorem Shaped.dropped (h : s.Shaped) (hp : p < s.created) :
    Evolves (some p) s
      { s with
        requests := s.requests.filter fun e => e.2 ≠ p
        posted := s.posted.filter (· ≠ p) } := by
  refine .of_eq ⟨fun id q hmem => h.entry id q (List.mem_filter.mp hmem).1,
    h.distinct, h.nodup.filter _, fun q hq => ⟨(h.fresh q hq).1, ?_⟩⟩ rfl rfl
    fun q hq hne => ⟨rfl, ?_, fun id => ?_, rfl⟩
  · exact (count_cleared.trans (if_neg (hp.trans_le hq).ne)).trans
      (h.fresh q hq).2
  · exact count_cleared.trans (if_neg hne.symm)
  · simp only [List.mem_filter, ne_eq, decide_eq_true_iff]
    exact and_iff_left hne

theorem evolves_delete (h : s.Shaped) (hp : p < s.created) :
    Evolves (some p) s (s.delete p) := by
  have hdropped := h.dropped hp
  rw [delete_eq (h.keyed hp)]
  exact hdropped.trans (evolves_record hdropped.shaped hp .freed)
    fun q hq => Option.some_inj.mp hq ▸ hp

/-- After a callback the request is deleted. -/
theorem delete_called {callback : Callback}
    (h : s.Shaped) (hp : p < s.created) (hk : k ≤ MAX_SENDS)
    (hhistory : s.history p = List.replicate k .transmitted)
    (hsend : sendAll rs (s.record p (.called callback)) = some t) :
    Evolves (some p) s (t.delete p) ∧
      (t.delete p).At p k (.ended callback) := by
  have hrecord := evolves_record h hp (.called callback)
  have hsent := evolves_sendAll hrecord.shaped hsend
  have hp' : p < t.created := hp.trans_le hsent.created
  have hold : ∀ q ∈ some p, q < s.created := by
    rintro q ⟨⟩
    exact hp
  refine ⟨(hrecord.trans hsent.weaken hold).trans
    (evolves_delete hsent.shaped hp') hold, hk, ?_, ?_, fun id => ?_, nofun⟩
  · have hfreed : (t.delete p).history p = t.history p ++ [.freed] := by
      rw [delete_eq (hsent.shaped.keyed hp')]
      exact (history_record .freed).trans (by rw [if_pos rfl])
    rw [hfreed, (hsent.same p hp nofun).history, history_record, if_pos rfl,
      hhistory, List.append_assoc]
    rfl
  · rw [delete_eq (hsent.shaped.keyed hp'), if_neg nofun]
    exact count_cleared.trans (if_pos rfl)
  · rw [delete_eq (hsent.shaped.keyed hp')]
    refine iff_of_false (fun hmem => ?_) fun h => nomatch h.1
    exact of_decide_eq_true (List.mem_filter.mp hmem).2 rfl

/-! ## Clearing the manager -/

structure Sound (s : StunRequestManager) : Prop where
  shaped : s.Shaped
  stands : ∀ p < s.created, ∃ k stage, s.At p k stage

theorem At.mem_outstanding {stage : Stage} (h : s.At p k stage)
    (hp : p < s.created) : p ∈ s.outstanding ↔ stage = .waiting := by
  rw [outstanding, List.mem_filter, List.mem_range, h.history,
    List.all_append, List.all_replicate]
  cases stage with
  | waiting => simp [hp, Stage.actions]
  | removed => simp [Stage.actions]
  | deleted => simp [Stage.actions]
  | ended => simp [Stage.actions]

/-- Something happens to every request of a list. -/
theorem history_marked (hl : l.Nodup) (a : Action) :
    ({ s with
      log := s.log ++ l.map fun p => (p, a) } :
        StunRequestManager).history q =
      s.history q ++ if q ∈ l then [a] else [] := by
  simp only [history, List.filter_append, List.map_append]
  congr 1
  induction l with
  | nil => rfl
  | cons p l ih =>
    obtain ⟨hp, hl⟩ := List.nodup_cons.mp hl
    by_cases heq : p = q
    · subst heq
      rw [if_neg hp] at ih
      simp [ih hl]
    · simp [heq, Ne.symm heq, ih hl]

theorem nodup_outstanding : s.outstanding.Nodup :=
  List.nodup_range.filter _

theorem history_drop (ps : List ℕ) :
    (s.drop ps).history q = s.history q ++
      if q ∈ s.outstanding.filter (· ∈ ps) then [.removed] else [] :=
  history_marked (nodup_outstanding.filter _) .removed

/-- A request that is dropped is still in the map. -/
theorem Shaped.drop (h : s.Shaped) (ps : List ℕ) : (s.drop ps).Shaped := by
  refine ⟨h.entry, h.distinct, h.nodup, fun q hq => ⟨?_, (h.fresh q hq).2⟩⟩
  rw [history_drop, (h.fresh q hq).1, if_neg]
  · rfl
  · intro hmem
    have hrange := (List.mem_filter.mp (List.mem_filter.mp hmem).1).1
    exact Nat.not_lt.mpr hq (List.mem_range.mp hrange)

theorem foldl_delete_eq {ps : List ℕ} (h : s.Shaped)
    (hps : ∀ p ∈ ps, p < s.created) :
    ps.foldl delete s =
      { s with
        requests := s.requests.filter fun e => e.2 ∉ ps
        posted := s.posted.filter (· ∉ ps)
        log := s.log ++ ps.map fun p => (p, .freed) } := by
  induction ps generalizing s with
  | nil => simp
  | cons p ps ih =>
    have hp := hps p List.mem_cons_self
    have hdelete := evolves_delete h hp
    have heq := delete_eq (h.keyed hp)
    rw [List.foldl_cons, ih hdelete.shaped fun q hq =>
      (hps q (List.mem_cons_of_mem _ hq)).trans_le hdelete.created, heq]
    simp [List.filter_filter, not_or, Bool.and_comm]

theorem Shaped.nodup_pointers (h : s.Shaped) :
    (s.requests.map Prod.snd).Nodup := by
  refine h.nodup.map_on ?_
  rintro ⟨id, q⟩ he ⟨id', q'⟩ he' rfl
  rw [(h.entry id q he).2, (h.entry id' q he').2]

theorem Shaped.pointer_lt (h : s.Shaped) :
    ∀ p ∈ s.requests.map Prod.snd, p < s.created := by
  intro p hp
  obtain ⟨⟨id, q⟩, he, rfl⟩ := List.mem_map.mp hp
  exact (h.entry id q he).1

/-- The destructor of the manager deletes what `Clear` deletes. -/
theorem destroyFirst_iterate (h : s.Shaped) :
    destroyFirst^[s.requests.length] s = s.clear := by
  generalize hrequests : s.requests = l
  rw [clear, hrequests]
  induction l generalizing s with
  | nil => rfl
  | cons e l ih =>
    obtain ⟨id, p⟩ := e
    have hp : p < s.created :=
      h.pointer_lt p (hrequests ▸ List.mem_cons_self)
    have hkeyed := h.keyed hp
    have hfirst : s.destroyFirst = s.delete p := by
      have hrest : ∀ e ∈ l,
          e.1 = (s.objects p).transactionId ↔ e.2 = p := fun e he =>
        hkeyed e (hrequests ▸ List.mem_cons_of_mem _ he)
      rw [delete_eq hkeyed]
      simp only [destroyFirst, hrequests]
      rw [delete_eq hrest]
      simp
    have hnodup := h.nodup_pointers
    rw [hrequests, List.map_cons, List.nodup_cons] at hnodup
    have hrest : (s.delete p).requests = l := by
      rw [delete_eq hkeyed]
      show s.requests.filter _ = l
      rw [hrequests, List.filter_cons_of_neg (by simp)]
      refine List.filter_eq_self.mpr fun e he => decide_eq_true ?_
      intro heq
      exact hnodup.1 (List.mem_map.mpr ⟨e, he, heq⟩)
    rw [List.length_cons, Function.iterate_succ_apply, hfirst,
      ih (evolves_delete h hp).shaped hrest]
    rfl

theorem count_unswept {ps : List ℕ} (h : q ∉ ps) :
    (l.filter (· ∉ ps)).count q = l.count q :=
  List.count_filter (decide_eq_true h)

theorem Sound.swept (h : s.Sound) : (s.drop s.outstanding).clear.Sound := by
  have hdrop := h.shaped.drop s.outstanding
  have hnodup := hdrop.nodup_pointers
  rw [clear, foldl_delete_eq hdrop hdrop.pointer_lt]
  have hhistory := fun q => (history_marked (s := s.drop s.outstanding)
    (q := q) hnodup .freed).trans (congrArg (· ++ _) (history_drop _))
  have hempty : (s.drop s.outstanding).requests.filter (fun e =>
      e.2 ∉ (s.drop s.outstanding).requests.map Prod.snd) = [] :=
    List.filter_eq_nil_iff.mpr fun e he =>
      fun hmem => of_decide_eq_true hmem (List.mem_map_of_mem he)
  rw [hempty]
  have hfresh : ∀ q, s.created ≤ q →
      q ∉ (s.drop s.outstanding).requests.map Prod.snd := fun q hq hmem =>
    Nat.not_lt.mpr hq (hdrop.pointer_lt q hmem)
  refine ⟨⟨nofun, hdrop.distinct, .nil, fun q hq => ⟨?_, ?_⟩⟩,
    fun p hp => ?_⟩
  · refine (hhistory q).trans ?_
    rw [if_neg (hfresh q hq), List.append_nil, ← history_drop]
    exact (hdrop.fresh q hq).1
  · exact (count_unswept (hfresh q hq)).trans (hdrop.fresh q hq).2
  · obtain ⟨k, stage, hat⟩ := h.stands p hp
    by_cases hwaiting : stage = .waiting
    · subst hwaiting
      have hout : p ∈ s.outstanding.filter (· ∈ s.outstanding) := by
        have hmem := (hat.mem_outstanding hp).mpr rfl
        exact List.mem_filter.mpr ⟨hmem, decide_eq_true hmem⟩
      have hentry : p ∈ (s.drop s.outstanding).requests.map Prod.snd :=
        List.mem_map.mpr ⟨_, (hat.entry _).mpr ⟨rfl, rfl⟩, rfl⟩
      refine ⟨k, .deleted, hat.limit, ?_, ?_, fun id => ?_, nofun⟩
      · refine (hhistory p).trans ?_
        rw [if_pos hout, if_pos hentry, hat.history]
        simp [Stage.actions]
      · rw [if_neg nofun, List.count_eq_zero]
        exact fun hmem =>
          of_decide_eq_true (List.mem_filter.mp hmem).2 hentry
      · exact iff_of_false nofun fun h => nomatch h.1
    · have hout : p ∉ s.outstanding.filter (· ∈ s.outstanding) := fun hmem =>
        hwaiting ((hat.mem_outstanding hp).mp (List.mem_filter.mp hmem).1)
      have hentry : p ∉ (s.drop s.outstanding).requests.map Prod.snd := by
        intro hmem
        obtain ⟨⟨id, q⟩, he, rfl⟩ := List.mem_map.mp hmem
        exact hwaiting ((hat.entry id).mp he).1
      refine ⟨k, stage, hat.limit, ?_, ?_, fun id => ?_,
        fun h => absurd h hwaiting⟩
      · refine (hhistory p).trans ?_
        rw [if_neg hout, if_neg hentry, hat.history, List.append_nil,
          List.append_nil]
      · exact (count_unswept hentry).trans hat.posted
      · exact iff_of_false nofun fun h => hwaiting h.1

/-! ## Steps -/

theorem Sound.evolves {p : Option ℕ} (h : s.Sound) (ht : Evolves p s t)
    (hp : ∀ q ∈ p, ∃ k stage, t.At q k stage) : t.Sound := by
  refine ⟨ht.shaped, fun q hq => ?_⟩
  by_cases hold : q < s.created
  · by_cases heq : some q = p
    · exact hp q heq.symm
    · obtain ⟨k, stage, hat⟩ := h.stands q hold
      exact ⟨k, stage, hat.same (ht.same q hold heq)⟩
  · exact ⟨0, .waiting, ht.added q (Nat.not_lt.mp hold) hq⟩

theorem Sound.removed (h : s.Sound) (hp : p < s.created)
    (hfreed : .freed ∉ s.history p) : ((s.drop [p]).remove p).Sound := by
  obtain ⟨k, stage, hat⟩ := h.stands p hp
  have hdrop := h.shaped.drop [p]
  have hkept : stage = .waiting ∨ stage = .removed := by
    rw [hat.history] at hfreed
    cases stage with
    | waiting => exact .inl rfl
    | removed => exact .inr rfl
    | deleted => simp [Stage.actions] at hfreed
    | ended => simp [Stage.actions] at hfreed
  have hposted : (∀ e ∈ s.requests, e.2 ≠ p) → p ∉ s.posted := by
    intro hnone
    rcases hkept with rfl | rfl
    · exact absurd rfl (hnone _ ((hat.entry _).mpr ⟨rfl, rfl⟩))
    · exact List.count_eq_zero.mp (hat.posted.trans (if_neg nofun))
  have hmarked : Evolves (some p) s (s.drop [p]) := by
    refine .of_eq hdrop rfl rfl fun q _ hne =>
      ⟨?_, rfl, fun _ => Iff.rfl, rfl⟩
    rw [history_drop, if_neg, List.append_nil]
    intro hmem
    exact hne (List.mem_singleton.mp
      (of_decide_eq_true (List.mem_filter.mp hmem).2))
  have hremoved := hmarked.trans (hdrop.dropped hp)
    fun q hq => Option.some_inj.mp hq ▸ hp
  rw [remove_eq (hdrop.keyed hp) hposted]
  refine h.evolves hremoved fun q hq => ⟨k, .removed, ?_⟩
  obtain rfl := Option.some_inj.mp hq
  refine ⟨hat.limit, (history_drop _).trans ?_, ?_, fun id => ?_, nofun⟩
  · have hout := hat.mem_outstanding hp
    rcases hkept with rfl | rfl
    · simp [hat.history, hout, Stage.actions]
    · simp [hat.history, hout, Stage.actions]
  · rw [if_neg nofun]
    exact count_cleared.trans (if_pos rfl)
  · refine iff_of_false (fun hmem => ?_) fun h => nomatch h.1
    exact of_decide_eq_true (List.mem_filter.mp hmem).2 rfl

theorem transactionId_repost :
    ((s.repost p).objects q).transactionId = (s.objects q).transactionId := by
  show (Function.update s.objects p _ q).transactionId = _
  by_cases hq : q = p
  · subst hq
    rw [Function.update_self]
    rfl
  · rw [Function.update_of_ne hq]

theorem evolves_repost (h : s.Shaped) (hp : p < s.created) :
    Evolves (some p) s (s.repost p) := by
  refine .of_eq ⟨fun id q he => ?_, fun q hq q' hq' heq => ?_, h.nodup,
    fun q hq => ⟨(h.fresh q hq).1, ?_⟩⟩ rfl rfl fun q _ hne =>
      ⟨rfl, count_posted hne, fun _ => Iff.rfl,
        Function.update_of_ne hne _ _⟩
  · rw [transactionId_repost]
    exact h.entry id q he
  · rw [transactionId_repost, transactionId_repost] at heq
    exact h.distinct q hq q' hq' heq
  · exact (count_posted (hp.trans_le hq).ne').trans (h.fresh q hq).2

theorem evolves_taken (h : s.Shaped) (hp : p < s.created) :
    Evolves (some p) s
      { s with
        posted := s.posted.erase p } := by
  refine .of_eq ⟨h.entry, h.distinct, h.nodup,
    fun q hq => ⟨(h.fresh q hq).1, ?_⟩⟩ rfl rfl fun q _ hne =>
      ⟨rfl, List.count_erase_of_ne hne, fun _ => Iff.rfl, rfl⟩
  exact (List.count_erase_of_ne (hp.trans_le hq).ne').trans (h.fresh q hq).2

/-- A message is dispatched. -/
theorem Sound.message (h : s.Sound)
    (hmem : p ∈ s.posted)
    (hstep : ({ s with
      posted := s.posted.erase p } :
        StunRequestManager).onMessage p rs = some t) : t.Sound := by
  have hp : p < s.created := by
    by_contra hp
    exact List.count_eq_zero.mp (h.shaped.fresh p (Nat.not_lt.mp hp)).2 hmem
  obtain ⟨k, stage, hat⟩ := h.stands p hp
  have hwaiting : stage = .waiting := by
    by_contra hne
    exact List.count_eq_zero.mp (hat.posted.trans (if_neg hne)) hmem
  subst hwaiting
  have hold : ∀ q ∈ some p, q < s.created := by
    rintro q ⟨⟩
    exact hp
  have hhistory : s.history p = List.replicate k .transmitted :=
    hat.history.trans (List.append_nil _)
  have htaken := evolves_taken h.shaped hp
  have hnone : (s.posted.erase p).count p = 0 := by
    rw [List.count_erase_self, hat.posted, if_pos rfl]
  obtain ⟨hcount, htimeout⟩ := hat.object rfl
  unfold onMessage at hstep
  by_cases hlast : (s.objects p).timeout = true
  · rw [if_pos hlast] at hstep
    obtain ⟨u, hsend, rfl⟩ := Option.map_eq_some_iff.mp hstep
    obtain ⟨hdelete, hended⟩ :=
      delete_called htaken.shaped hp hat.limit hhistory hsend
    refine h.evolves (htaken.trans hdelete hold) ?_
    rintro q ⟨⟩
    exact ⟨k, _, hended⟩
  · rw [if_neg hlast] at hstep
    obtain ⟨u, hsend, rfl⟩ := Option.map_eq_some_iff.mp hstep
    have hrecord := evolves_record htaken.shaped hp .transmitted
    have hsent := evolves_sendAll hrecord.shaped hsend
    have hsame := hsent.same p hp nofun
    have hu := (htaken.trans hrecord hold).trans hsent.weaken hold
    have hobject : u.objects p = s.objects p := hsame.object
    have hrepost := evolves_repost hsent.shaped (hp.trans_le hu.created)
    refine h.evolves (hu.trans hrepost hold) ?_
    rintro q ⟨⟩
    have hk : k ≠ MAX_SENDS := mt htimeout.mpr hlast
    refine ⟨k + 1, .waiting, lt_of_le_of_ne hat.limit hk, ?_, ?_,
      fun id => ?_, fun _ => ?_⟩
    · refine hsame.history.trans ((history_record _).trans ?_)
      rw [if_pos rfl]
      refine (congrArg (· ++ _) hhistory).trans ?_
      rw [List.replicate_succ', Stage.actions, List.append_nil]
    · show (u.posted ++ [p]).count p = _
      rw [List.count_append, hsame.posted]
      refine (congrArg (· + _) hnone).trans ?_
      simp
    · rw [transactionId_repost, hobject]
      exact (hsame.entry id).trans (hat.entry id)
    · show (Function.update u.objects p _ p).count = _ ∧
        ((Function.update u.objects p _ p).timeout = true ↔ _)
      rw [Function.update_self, hobject, StunRequest.getNextDelay, hcount]
      refine ⟨rfl, ?_⟩
      by_cases hmax : k + 1 = MAX_SENDS
      · simp [hmax]
      · simp [hmax, hlast]

variable {result : Bool × StunRequestManager}

theorem Sound.answered {callback : Callback} (h : s.Sound)
    (hfind : s.find id = some p)
    (hstep : s.answer p callback rs = some result) :
    result.1 = true ∧ result.2.Sound := by
  obtain ⟨hp, -⟩ := h.shaped.entry id p (find_some hfind)
  obtain ⟨k, stage, hat⟩ := h.stands p hp
  obtain ⟨rfl, -⟩ := (hat.entry id).mp (find_some hfind)
  obtain ⟨t, hsend, rfl⟩ := Option.map_eq_some_iff.mp hstep
  obtain ⟨hdelete, hended⟩ := delete_called h.shaped hp hat.limit
    (hat.history.trans (List.append_nil _)) hsend
  refine ⟨rfl, h.evolves hdelete ?_⟩
  rintro q ⟨⟩
  exact ⟨k, _, hended⟩

/-- A response is answered, or rejected without any effect. -/
theorem Sound.checkMessage {type : UInt16} {transactionId : List UInt8}
    (h : s.Sound)
    (hstep : s.checkMessage type transactionId rs = some result) :
    (result.1 = true ∨ result.2 = s) ∧ result.2.Sound := by
  unfold StunRequestManager.checkMessage at hstep
  cases hfind : s.find transactionId with
  | none =>
    rw [hfind] at hstep
    cases hstep
    exact ⟨.inr rfl, h⟩
  | some p =>
    rw [hfind] at hstep
    dsimp only at hstep
    split_ifs at hstep
    · exact (h.answered hfind hstep).imp_left .inl
    · exact (h.answered hfind hstep).imp_left .inl
    · cases hstep
      exact ⟨.inr rfl, h⟩

theorem Sound.checkResponse {data : List UInt8} (h : s.Sound)
    (hstep : s.checkResponse data rs = some result) :
    (result.1 = true ∨ result.2 = s) ∧ result.2.Sound := by
  unfold StunRequestManager.checkResponse at hstep
  split at hstep
  · cases hstep
    exact ⟨.inr rfl, h⟩
  · split at hstep
    · cases hstep
      exact ⟨.inr rfl, h⟩
    · split at hstep
      · cases hstep
        exact ⟨.inr rfl, h⟩
      · exact h.checkMessage hstep

theorem Sound.step {e : Event} (h : s.Sound) (hstep : s.step e = some t) :
    t.Sound := by
  unfold StunRequestManager.step at hstep
  split at hstep
  case isFalse => cases hstep
  case isTrue =>
    cases e with
    | send r => exact h.evolves (evolves_sendDelayed h.shaped hstep) nofun
    | remove p =>
      dsimp only at hstep
      split at hstep
      · next hp =>
          cases hstep
          exact h.removed hp.1 hp.2
      · cases hstep
    | clear =>
      cases hstep
      exact h.swept
    | destroy =>
      cases hstep
      rw [destroy, destroyFirst_iterate (h.shaped.drop _)]
      obtain ⟨⟨hentry, hdistinct, hnodup, hfresh⟩, hstands⟩ := h.swept
      refine ⟨⟨hentry, hdistinct, hnodup, hfresh⟩, fun p hp => ?_⟩
      obtain ⟨k, stage, hat⟩ := hstands p hp
      exact ⟨k, stage, hat.limit, hat.history, hat.posted, hat.entry,
        hat.object⟩
    | message p rs =>
      dsimp only at hstep
      split at hstep
      · next hp => exact h.message hp hstep
      · cases hstep
    | response data rs =>
      obtain ⟨result, hresult, rfl⟩ := Option.map_eq_some_iff.mp hstep
      exact (h.checkResponse hresult).2
    | responseMessage type transactionId rs =>
      obtain ⟨result, hresult, rfl⟩ := Option.map_eq_some_iff.mp hstep
      exact (h.checkMessage hresult).2

def Initial (s : StunRequestManager) : Prop := s = .new

theorem standing_of_reachable (h : Reachable Initial step s) : s.Sound := by
  refine h.invariant ?_ fun s e t hs ht => hs.step ht
  rintro s rfl
  exact ⟨⟨nofun, nofun, .nil, fun _ _ => ⟨rfl, rfl⟩⟩, nofun⟩

/-- In every run, requests and their messages disappear together. -/
theorem tidy_of_reachable (h : Reachable Initial step s) : s.Tidy := by
  have hsound := standing_of_reachable h
  refine ⟨fun p => ?_, fun id p => ?_, fun p hfreed hmem => ?_,
    fun data sends t ht => ?_⟩
  · by_cases hp : p < s.created
    · obtain ⟨k, stage, hat⟩ := hsound.stands p hp
      exact ⟨k, hat.limit, stage, hat.history⟩
    · exact ⟨0, Nat.zero_le _, .waiting,
        (hsound.shaped.fresh p (Nat.not_lt.mp hp)).1⟩
  · by_cases hp : p < s.created
    · obtain ⟨k, stage, hat⟩ := hsound.stands p hp
      rw [hat.entry, hat.mem_outstanding hp]
    · refine iff_of_false (fun hmem => hp (hsound.shaped.entry id p hmem).1) ?_
      rintro ⟨hmem, -⟩
      exact hp (List.mem_range.mp (List.mem_filter.mp hmem).1)
  · by_cases hp : p < s.created
    · obtain ⟨k, stage, hat⟩ := hsound.stands p hp
      have hwaiting : stage ≠ .waiting := by
        rintro rfl
        rw [hat.history] at hfreed
        simp [Stage.actions] at hfreed
      exact List.count_eq_zero.mp (hat.posted.trans (if_neg hwaiting)) hmem
    · exact List.count_eq_zero.mp
        (hsound.shaped.fresh p (Nat.not_lt.mp hp)).2 hmem
  · exact (hsound.checkResponse ht).1.resolve_left Bool.false_ne_true

/-- A request is transmitted and answered, and another one is cleared that was
sent meanwhile. -/
def answeredRun : List Event :=
  [.send ⟨List.replicate 12 7, 0x0001, .stun⟩,
    .message 0 [⟨List.replicate 12 8, 0x0001, .stun⟩],
    .response ([1, 1, 0, 0, 0x21, 0x12, 0xA4, 0x42] ++
      List.replicate 12 7) [],
    .clear]

theorem tidy_answered : ∃ s : StunRequestManager,
    execute step .new answeredRun = some s ∧
      s.log = [(0, .transmitted), (0, .called .onResponse), (0, .freed),
        (1, .removed), (1, .freed)] ∧ s.Tidy := by
  have hinit : Reachable Initial step .new := .init rfl
  have hrun : execute step .new answeredRun = some _ := rfl
  exact ⟨_, hrun, rfl,
    tidy_of_reachable (hinit.execute hrun fun _ _ => trivial)⟩

end StunRequestManager

end WebrtcWinXp.Stun
