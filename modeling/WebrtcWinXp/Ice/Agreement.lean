import WebrtcWinXp.Ice.Roles
import Mathlib.Order.Basic

/-!
# Agreement on the ICE roles

The agent with the larger tiebreaker should control.  A request never makes an
agent leave the role that its tiebreaker gives it, and a 487 response answers
only requests in the other role.  A 487 response that comes after its request's
role was given up already flips the role back, however.
-/

namespace WebrtcWinXp.Ice

open Support

@[simp] theorem Side.other_other (side : Side) : side.other.other = side := by
  cases side <;> rfl

theorem Side.other_ne (side : Side) : side.other ≠ side := by
  cases side <;> decide

theorem Side.eq_or_eq_other (side side' : Side) :
    side = side' ∨ side = side'.other := by
  cases side <;> cases side' <;> decide

theorem IceRole.reverse_ne (role : IceRole) : role.reverse ≠ role := by
  cases role <;> decide

@[simp] theorem IceRole.reverse_reverse (role : IceRole) :
    role.reverse.reverse = role := by
  cases role <;> rfl

theorem IceRole.eq_reverse_of_ne {role role' : IceRole} (h : role ≠ role') :
    role = role'.reverse := by
  cases role <;> cases role' <;> first | rfl | exact absurd rfl h

namespace Exchange

variable (s : Exchange)

/-- Nothing is on its way, and of each agent a request was processed that was
sent after its last role change. -/
def Settled : Prop :=
  s.inFlight = [] ∧
    ∀ side, (side, (s.agents side).changes) ∈ s.processed

/-- One agent is controlling and the other one is not. -/
def Agreed : Prop :=
  ∃ side, (s.agents side).iceRole = .controlling ∧
    (s.agents side.other).iceRole = .controlled

/-- No 487 response is delivered to an agent which does not have the role of
the request any more. -/
def Careful : Event → Prop
  | .deliver i =>
    ∀ side id request, s.inFlight[i]? = some (side, .roleConflict id) →
      (s.agents side).findRequest id = some request →
      request.role = (s.agents side).iceRole
  | _ => True

/-- The role that the tiebreakers give to an agent. -/
def properRole (side : Side) : IceRole :=
  if (s.agents side.other).tiebreaker < (s.agents side).tiebreaker then
    .controlling
  else .controlled

variable {s}

theorem tiebreaker_other_ne
    (hne : (s.agents .left).tiebreaker ≠ (s.agents .right).tiebreaker)
    (side : Side) :
    (s.agents side.other).tiebreaker ≠ (s.agents side).tiebreaker := by
  cases side
  · exact hne.symm
  · exact hne

theorem properRole_other
    (hne : (s.agents .left).tiebreaker ≠ (s.agents .right).tiebreaker)
    (side : Side) :
    s.properRole side.other = (s.properRole side).reverse := by
  have hne' := tiebreaker_other_ne hne side
  rw [properRole, properRole, Side.other_other]
  by_cases hlt : (s.agents side.other).tiebreaker < (s.agents side).tiebreaker
  · rw [if_pos hlt, if_neg (by omega)]
    rfl
  · rw [if_neg hlt, if_pos (by omega)]
    rfl

end Exchange

/-- A request as the agent sends it, with the role of that time. -/
structure FromAgent (role : IceRole) (tiebreaker : ℕ) (msg : IceMessage) :
    Prop where
  controlling : msg.iceControlling =
    if role = .controlling then some tiebreaker else none
  controlled : msg.iceControlled =
    if role = .controlling then none else some tiebreaker

theorem Agent.fromAgent_prepare (a : Agent) :
    FromAgent a.iceRole a.tiebreaker a.prepare :=
  ⟨rfl, rfl⟩

theorem FromAgent.role_eq {role : IceRole} {tiebreaker : ℕ} {msg : IceMessage}
    (h : FromAgent role tiebreaker msg) : msg.role = role := by
  rw [IceMessage.role, h.controlling]
  cases role <;> rfl

/-- A request in the other role is accepted.  On a conflict, the agent gives up
a role that its tiebreaker does not give it, and else rejects the request. -/
theorem Agent.maybeIceRoleConflict_eq {a : Agent} {role : IceRole}
    {tiebreaker : ℕ} {msg : IceMessage} (h : FromAgent role tiebreaker msg)
    (hne : tiebreaker ≠ a.tiebreaker) :
    a.maybeIceRoleConflict msg =
      if role ≠ a.iceRole then (false, true)
      else if a.iceRole =
          (if tiebreaker < a.tiebreaker then .controlling else .controlled) then
        (false, false)
      else (true, true) := by
  have hloop : msg.iceControlling ≠ some a.tiebreaker := by
    rw [h.controlling]
    split_ifs
    · exact fun heq => hne (Option.some_inj.mp heq)
    · exact Option.some_ne_none _ |>.symm
  rw [maybeIceRoleConflict, if_neg fun heq => hloop heq.1, h.controlled,
    h.controlling]
  cases role <;> cases ha : a.iceRole <;> simp
  · by_cases hlt : tiebreaker < a.tiebreaker
    · rw [if_neg (by omega), if_pos hlt]
    · rw [if_pos (by omega), if_neg hlt]
  · by_cases hlt : tiebreaker < a.tiebreaker
    · rw [if_pos hlt, if_neg (by omega)]
    · rw [if_neg hlt, if_pos (by omega)]

namespace Exchange

/-! ## The invariant -/

/-- What is known of a request on its way from its sender. -/
structure Pending (sender : Agent) (msg : IceMessage) (changes : ℕ)
    (role : IceRole) : Prop where
  id_lt : msg.transactionId < sender.nextTransactionId
  changes_le : changes ≤ sender.changes
  fromAgent : FromAgent role sender.tiebreaker msg
  current : changes = sender.changes → role = sender.iceRole
  waiting : ∀ r ∈ sender.requests,
    r.transactionId = msg.transactionId → r.role = role

structure Inv (s : Exchange) : Prop where
  tiebreaker_ne : (s.agents .left).tiebreaker ≠ (s.agents .right).tiebreaker
  changed : ∀ side, 0 < (s.agents side).changes →
    (s.agents side).iceRole = s.properRole side
  id_lt : ∀ side, ∀ r ∈ (s.agents side).requests,
    r.transactionId < (s.agents side).nextTransactionId
  pending : ∀ side msg changes,
    (side, .bindingRequest msg changes) ∈ s.inFlight →
      ∃ role, Pending (s.agents side.other) msg changes role
  conflict : ∀ side id, (side, .roleConflict id) ∈ s.inFlight →
    id < (s.agents side).nextTransactionId ∧
      ∀ r ∈ (s.agents side).requests, r.transactionId = id →
        r.role = (s.properRole side).reverse
  processed_le : ∀ side changes, (side, changes) ∈ s.processed →
    changes ≤ (s.agents side).changes
  proper : ∀ side, (side, (s.agents side).changes) ∈ s.processed →
    (s.agents side).iceRole = s.properRole side →
      (s.agents side.other).iceRole = s.properRole side.other
  staleChanges : s.staleChanges = 0

variable {s s' : Exchange}

theorem Started.inv (h : s.Started) : s.Inv where
  tiebreaker_ne := h.tiebreaker_ne
  changed side hpos := by
    rw [h.changes side] at hpos
    exact absurd hpos (Nat.lt_irrefl 0)
  id_lt side r hr := by
    rw [h.requests side] at hr
    cases hr
  pending side msg changes hm := by
    rw [h.inFlight] at hm
    cases hm
  conflict side id hm := by
    rw [h.inFlight] at hm
    cases hm
  processed_le side changes hm := by
    rw [h.processed] at hm
    cases hm
  proper side hm := by
    rw [h.processed] at hm
    cases hm
  staleChanges := h.staleChanges

/-- Messages and requests may get lost, and a new request gets a new
transaction. -/
structure Keeps (s s' : Exchange) : Prop where
  iceRole : ∀ side, (s'.agents side).iceRole = (s.agents side).iceRole
  tiebreaker : ∀ side, (s'.agents side).tiebreaker = (s.agents side).tiebreaker
  requests : ∀ side, ∀ r ∈ (s'.agents side).requests,
    r ∈ (s.agents side).requests ∨
      (s.agents side).nextTransactionId ≤ r.transactionId ∧
        r.transactionId < (s'.agents side).nextTransactionId
  next_le : ∀ side,
    (s.agents side).nextTransactionId ≤ (s'.agents side).nextTransactionId
  changes : ∀ side, (s'.agents side).changes = (s.agents side).changes
  inFlight : s'.inFlight ⊆ s.inFlight
  processed : s'.processed = s.processed
  staleChanges : s'.staleChanges = s.staleChanges

variable {side : Side}

theorem Keeps.mem_requests (h : Keeps s s') {r : IceMessage}
    (hr : r ∈ (s'.agents side).requests)
    (hlt : r.transactionId < (s.agents side).nextTransactionId) :
    r ∈ (s.agents side).requests := by
  rcases h.requests side r hr with hr | ⟨hle, _⟩
  · exact hr
  · exact absurd hle (Nat.not_le_of_lt hlt)

theorem properRole_congr
    (h : ∀ side, (s'.agents side).tiebreaker = (s.agents side).tiebreaker)
    (side : Side) : s'.properRole side = s.properRole side := by
  rw [properRole, properRole, h, h]

theorem Inv.keeps (h : s.Inv) (hs : Keeps s s') : s'.Inv where
  tiebreaker_ne := by
    rw [hs.tiebreaker, hs.tiebreaker]
    exact h.tiebreaker_ne
  changed side hpos := by
    rw [hs.changes] at hpos
    rw [hs.iceRole, properRole_congr hs.tiebreaker]
    exact h.changed side hpos
  id_lt side r hr := by
    rcases hs.requests side r hr with hr | ⟨_, hlt⟩
    · exact Nat.lt_of_lt_of_le (h.id_lt side r hr) (hs.next_le side)
    · exact hlt
  pending side msg changes hm := by
    obtain ⟨role, hp⟩ := h.pending side msg changes (hs.inFlight hm)
    refine ⟨role, Nat.lt_of_lt_of_le hp.id_lt (hs.next_le _), ?_, ?_, ?_, ?_⟩
    · rw [hs.changes]
      exact hp.changes_le
    · rw [hs.tiebreaker]
      exact hp.fromAgent
    · rw [hs.changes, hs.iceRole]
      exact hp.current
    · intro r hr hid
      exact hp.waiting r (hs.mem_requests hr (hid ▸ hp.id_lt)) hid
  conflict side id hm := by
    obtain ⟨hid, hrole⟩ := h.conflict side id (hs.inFlight hm)
    refine ⟨Nat.lt_of_lt_of_le hid (hs.next_le side), fun r hr heq => ?_⟩
    rw [properRole_congr hs.tiebreaker]
    exact hrole r (hs.mem_requests hr (heq ▸ hid)) heq
  processed_le side changes hm := by
    rw [hs.processed] at hm
    rw [hs.changes]
    exact h.processed_le side changes hm
  proper side hm hrole := by
    rw [hs.processed, hs.changes] at hm
    rw [hs.iceRole, properRole_congr hs.tiebreaker] at hrole ⊢
    exact h.proper side hm hrole
  staleChanges := hs.staleChanges.trans h.staleChanges

/-! ### What the steps do -/

@[simp] theorem agents_setAgent_self (s : Exchange) (side : Side) (a : Agent) :
    (s.setAgent side a).agents side = a :=
  Function.update_self ..

theorem agents_setAgent_of_ne (s : Exchange) {side' : Side}
    (h : side' ≠ side) (a : Agent) :
    (s.setAgent side a).agents side' = s.agents side' :=
  Function.update_of_ne h ..

variable {a : Agent}

theorem forall_setAgent {P : Side → Agent → Prop}
    (hself : P side a) (hother : P side.other (s.agents side.other))
    (side' : Side) : P side' ((s.setAgent side a).agents side') := by
  rcases Side.eq_or_eq_other side' side with rfl | rfl
  · rw [agents_setAgent_self]
    exact hself
  · rw [agents_setAgent_of_ne s (Side.other_ne side)]
    exact hother

theorem properRole_setAgent
    (h : a.tiebreaker = (s.agents side).tiebreaker) (side' : Side) :
    (s.setAgent side a).properRole side' = s.properRole side' :=
  properRole_congr (forall_setAgent
    (P := fun side' a => a.tiebreaker = (s.agents side').tiebreaker) h rfl)
    side'

theorem Keeps.setAgent
    (hrole : a.iceRole = (s.agents side).iceRole)
    (htiebreaker : a.tiebreaker = (s.agents side).tiebreaker)
    (hrequests : ∀ r ∈ a.requests, r ∈ (s.agents side).requests ∨
      (s.agents side).nextTransactionId ≤ r.transactionId ∧
        r.transactionId < a.nextTransactionId)
    (hnext : (s.agents side).nextTransactionId ≤ a.nextTransactionId)
    (hchanges : a.changes = (s.agents side).changes) :
    Keeps s (s.setAgent side a) where
  iceRole := forall_setAgent
    (P := fun side' a => a.iceRole = (s.agents side').iceRole) hrole rfl
  tiebreaker := forall_setAgent
    (P := fun side' a => a.tiebreaker = (s.agents side').tiebreaker)
    htiebreaker rfl
  requests := forall_setAgent
    (P := fun side' a => ∀ r ∈ a.requests, r ∈ (s.agents side').requests ∨
      (s.agents side').nextTransactionId ≤ r.transactionId ∧
        r.transactionId < a.nextTransactionId)
    hrequests fun _ hr => Or.inl hr
  next_le := forall_setAgent
    (P := fun side' a =>
      (s.agents side').nextTransactionId ≤ a.nextTransactionId)
    hnext (Nat.le_refl _)
  changes := forall_setAgent
    (P := fun side' a => a.changes = (s.agents side').changes) hchanges rfl
  inFlight := List.Subset.refl _
  processed := rfl
  staleChanges := rfl

theorem Keeps.removeRequest (s : Exchange) (side : Side) (id : ℕ) :
    Keeps s (s.setAgent side ((s.agents side).removeRequest id)) :=
  .setAgent rfl rfl (fun _ hr => Or.inl (List.mem_filter.mp hr).1)
    (Nat.le_refl _) rfl

theorem Keeps.ping (s : Exchange) (side : Side) :
    Keeps s (s.setAgent side (s.agents side).ping) := by
  refine .setAgent rfl rfl (fun r hr => ?_) (Nat.le_succ _) rfl
  rcases List.mem_cons.mp hr with rfl | hr
  · exact Or.inr ⟨Nat.le_refl _, Nat.lt_succ_self _⟩
  · exact Or.inl hr

theorem Keeps.inFlight_subset (s : Exchange) {inFlight : List (Side × Message)}
    (h : inFlight ⊆ s.inFlight) :
    Keeps s
      { s with
        inFlight } where
  iceRole _ := rfl
  tiebreaker _ := rfl
  requests _ _ hr := Or.inl hr
  next_le _ := Nat.le_refl _
  changes _ := rfl
  inFlight := h
  processed := rfl
  staleChanges := rfl

theorem onRoleConflict_iceRole
    (h : (s.agents side).iceRole ≠ s.properRole side) :
    (s.agents side).onRoleConflict.iceRole = s.properRole side := by
  rw [IceRole.eq_reverse_of_ne h.symm]
  rfl

theorem Inv.giveUp (h : s.Inv)
    (hrole : (s.agents side).iceRole ≠ s.properRole side) :
    (s.setAgent side (s.agents side).onRoleConflict).Inv := by
  have htiebreaker : ∀ side', ((s.setAgent side
      (s.agents side).onRoleConflict).agents side').tiebreaker =
        (s.agents side').tiebreaker := forall_setAgent
    (P := fun side' a => a.tiebreaker = (s.agents side').tiebreaker) rfl rfl
  have hrequests : ∀ side', ((s.setAgent side
      (s.agents side).onRoleConflict).agents side').requests =
        (s.agents side').requests := forall_setAgent
    (P := fun side' a => a.requests = (s.agents side').requests) rfl rfl
  have hnext : ∀ side', ((s.setAgent side
      (s.agents side).onRoleConflict).agents side').nextTransactionId =
        (s.agents side').nextTransactionId := forall_setAgent
    (P := fun side' a =>
      a.nextTransactionId = (s.agents side').nextTransactionId) rfl rfl
  have hle : ∀ side', (s.agents side').changes ≤ ((s.setAgent side
      (s.agents side).onRoleConflict).agents side').changes := forall_setAgent
    (P := fun side' a => (s.agents side').changes ≤ a.changes)
    (Nat.le_succ _) (Nat.le_refl _)
  have hnew := onRoleConflict_iceRole hrole
  have hproper := properRole_congr htiebreaker
  have hother := agents_setAgent_of_ne s (Side.other_ne side)
    (s.agents side).onRoleConflict
  refine ⟨?_, ?_, ?_, ?_, ?_, ?_, ?_, h.staleChanges⟩
  · rw [htiebreaker, htiebreaker]
    exact h.tiebreaker_ne
  · intro side' hpos
    rw [hproper]
    rcases Side.eq_or_eq_other side' side with rfl | rfl
    · rw [agents_setAgent_self]
      exact hnew
    · rw [hother] at hpos ⊢
      exact h.changed _ hpos
  · intro side' r hr
    rw [hrequests] at hr
    rw [hnext]
    exact h.id_lt side' r hr
  · intro side' msg changes hm
    obtain ⟨role, hp⟩ := h.pending side' msg changes hm
    refine ⟨role, ?_, Nat.le_trans hp.changes_le (hle _), ?_, ?_, ?_⟩
    · rw [hnext]
      exact hp.id_lt
    · rw [htiebreaker]
      exact hp.fromAgent
    · -- a request sent before the role change is not current any more
      intro heq
      rcases Side.eq_or_eq_other side'.other side with hside | hside
      · rw [hside, agents_setAgent_self] at heq
        have hle' := hp.changes_le
        rw [hside, heq] at hle'
        exact absurd hle' (Nat.not_succ_le_self _)
      · rw [hside, hother] at heq ⊢
        exact hside ▸ hp.current (hside ▸ heq)
    · rw [hrequests]
      exact hp.waiting
  · intro side' id hm
    rw [hnext, hrequests, hproper]
    exact h.conflict side' id hm
  · exact fun side' changes hm =>
      Nat.le_trans (h.processed_le side' changes hm) (hle side')
  · intro side' hm hrole'
    rw [hproper] at hrole' ⊢
    rcases Side.eq_or_eq_other side' side with rfl | rfl
    · rw [agents_setAgent_self] at hm
      exact absurd (h.processed_le _ _ hm) (Nat.not_succ_le_self _)
    · rw [Side.other_other, agents_setAgent_self]
      exact hnew

theorem setAgent_setAgent (s : Exchange) (side : Side) (a b : Agent) :
    (s.setAgent side a).setAgent side b = s.setAgent side b := by
  rw [setAgent, setAgent, setAgent, Function.update_idem]

theorem setAgent_self (s : Exchange) (side : Side) :
    s.setAgent side (s.agents side) = s := by
  rw [setAgent, Function.update_eq_self]

variable {msg : IceMessage} {changes : ℕ}

theorem Inv.answer (h : s.Inv)
    {role : IceRole} (hp : Pending (s.agents side.other) msg changes role)
    {accepted : Bool}
    (hproper : changes = (s.agents side.other).changes →
      (s.agents side.other).iceRole = s.properRole side.other →
        (s.agents side).iceRole = s.properRole side)
    (hconflict : accepted = false →
      role = (s.properRole side.other).reverse) :
    Inv
      { s with
        inFlight := s.inFlight ++
          [(side.other,
            if accepted then .bindingResponse msg.transactionId
            else .roleConflict msg.transactionId)]
        processed := (side.other, changes) :: s.processed } := by
  refine ⟨h.tiebreaker_ne, h.changed, h.id_lt, ?_, ?_, ?_, ?_,
    h.staleChanges⟩
  · intro side' msg' changes' hm
    rcases List.mem_append.mp hm with hm | hm
    · exact h.pending side' msg' changes' hm
    · have heq := (Prod.mk.inj (List.mem_singleton.mp hm)).2
      cases accepted <;> cases heq
  · intro side' id hm
    rcases List.mem_append.mp hm with hm | hm
    · exact h.conflict side' id hm
    · obtain ⟨hside, heq⟩ := Prod.mk.inj (List.mem_singleton.mp hm)
      cases accepted with
      | true => cases heq
      | false =>
        cases heq
        subst hside
        refine ⟨hp.id_lt, fun r hr hid => ?_⟩
        rw [hp.waiting r hr hid]
        exact hconflict rfl
  · intro side' changes' hm
    rcases List.mem_cons.mp hm with heq | hm
    · cases heq
      exact hp.changes_le
    · exact h.processed_le side' changes' hm
  · intro side' hm hrole
    rcases List.mem_cons.mp hm with heq | hm
    · obtain ⟨rfl, hchanges⟩ := Prod.mk.inj heq
      dsimp only
      rw [Side.other_other]
      exact hproper hchanges.symm hrole
    · exact h.proper side' hm hrole

theorem Inv.bindingRequest (h : s.Inv) {role : IceRole}
    (hp : Pending (s.agents side.other) msg changes role) :
    (s.onReadPacket side (.bindingRequest msg changes)).Inv := by
  have hreverse := properRole_other h.tiebreaker_ne side
  have heq := Agent.maybeIceRoleConflict_eq hp.fromAgent
    (tiebreaker_other_ne h.tiebreaker_ne side)
  rw [← properRole] at heq
  unfold onReadPacket
  dsimp only
  by_cases hrole : role = (s.agents side).iceRole
  · by_cases hown : (s.agents side).iceRole = s.properRole side
    · rw [heq, if_neg (not_not.mpr hrole), if_pos hown]
      dsimp only
      rw [if_neg Bool.false_ne_true, setAgent_self]
      refine h.answer hp (fun hcurrent hother => ?_) fun _ => ?_
      · rw [← hp.current hcurrent, hrole, hown, hreverse] at hother
        exact absurd hother.symm (IceRole.reverse_ne _)
      · rw [hrole, hown, hreverse]
        cases s.properRole side <;> rfl
    · rw [heq, if_neg (not_not.mpr hrole), if_neg hown]
      dsimp only
      rw [if_pos rfl]
      have hother := agents_setAgent_of_ne s (Side.other_ne side)
        (s.agents side).onRoleConflict
      have hp' : Pending ((s.setAgent side
          (s.agents side).onRoleConflict).agents side.other) msg changes
            role := by
        rw [hother]
        exact hp
      refine (h.giveUp hown).answer hp' (fun _ _ => ?_)
        fun hfalse => by cases hfalse
      rw [agents_setAgent_self,
        properRole_setAgent (a := (s.agents side).onRoleConflict) rfl]
      exact onRoleConflict_iceRole hown
  · rw [heq, if_pos hrole]
    dsimp only
    rw [if_neg Bool.false_ne_true, setAgent_self]
    refine h.answer hp (fun hcurrent hother => ?_) fun hfalse => by cases hfalse
    rw [← hp.current hcurrent, hreverse] at hother
    rw [hother] at hrole
    have hrole' := IceRole.eq_reverse_of_ne (Ne.symm hrole)
    rwa [IceRole.reverse_reverse] at hrole'

theorem Inv.send (h : s.Inv)
    {role : IceRole} (hp : Pending (s.agents side.other) msg changes role) :
    Inv
      { s with
        inFlight := s.inFlight ++ [(side, .bindingRequest msg changes)] } := by
  refine ⟨h.tiebreaker_ne, h.changed, h.id_lt, ?_, ?_, h.processed_le,
    h.proper, h.staleChanges⟩
  · intro side' msg' changes' hm
    rcases List.mem_append.mp hm with hm | hm
    · exact h.pending side' msg' changes' hm
    · cases List.mem_singleton.mp hm
      exact ⟨role, hp⟩
  · intro side' id hm
    rcases List.mem_append.mp hm with hm | hm
    · exact h.conflict side' id hm
    · cases List.mem_singleton.mp hm

theorem Inv.pending_ping (h : s.Inv) (side : Side) :
    Pending (s.agents side).ping (s.agents side).prepare (s.agents side).changes
      (s.agents side).iceRole where
  id_lt := Nat.lt_succ_self _
  changes_le := Nat.le_refl _
  fromAgent := (s.agents side).fromAgent_prepare
  current _ := rfl
  waiting r hr hid := by
    rcases List.mem_cons.mp hr with rfl | hr
    · exact (s.agents side).fromAgent_prepare.role_eq
    · exact absurd hid (Nat.ne_of_lt (h.id_lt side r hr))

theorem Inv.ping (h : s.Inv) (side : Side) :
    Inv
      { s.setAgent side (s.agents side).ping with
        inFlight := s.inFlight ++
          [(side.other, .bindingRequest (s.agents side).prepare
            (s.agents side).changes)] } := by
  have hself := agents_setAgent_self s side (s.agents side).ping
  have hp : Pending ((s.setAgent side (s.agents side).ping).agents
      side.other.other) (s.agents side).prepare (s.agents side).changes
        (s.agents side).iceRole := by
    rw [Side.other_other, hself]
    exact h.pending_ping side
  exact (h.keeps (Keeps.ping s side)).send hp

theorem Inv.roleConflict (h : s.Inv) {id : ℕ}
    (hconflict : ∀ r ∈ (s.agents side).requests, r.transactionId = id →
      r.role = (s.properRole side).reverse)
    (hcareful : ∀ request, (s.agents side).findRequest id = some request →
      request.role = (s.agents side).iceRole) :
    (s.onReadPacket side (.roleConflict id)).Inv := by
  rw [onReadPacket]
  cases hfind : (s.agents side).findRequest id with
  | none => exact h
  | some request =>
    have hrole := hcareful request hfind
    have hmem := List.mem_of_find?_eq_some hfind
    have hid : request.transactionId = id := by
      simpa using List.find?_some hfind
    dsimp only
    rw [if_pos hrole]
    have hne : (s.agents side).iceRole ≠ s.properRole side := by
      rw [← hrole, hconflict request hmem hid]
      exact IceRole.reverse_ne _
    have hinv := (h.giveUp hne).keeps (Keeps.removeRequest _ side id)
    rw [agents_setAgent_self, setAgent_setAgent] at hinv
    exact hinv

theorem Inv.deliver (h : s.Inv) {i : ℕ} (hcareful : s.Careful (.deliver i))
    (hstep : s.step (.deliver i) = some s') : s'.Inv := by
  obtain ⟨⟨side, message⟩, hm, rfl⟩ := Option.map_eq_some_iff.mp hstep
  have hmem := List.mem_of_getElem? hm
  have hrest := h.keeps (Keeps.inFlight_subset s
    (List.eraseIdx_subset (l := s.inFlight) (k := i)))
  cases message with
  | bindingRequest msg changes =>
    obtain ⟨role, hp⟩ := h.pending side msg changes hmem
    exact hrest.bindingRequest hp
  | bindingResponse id => exact hrest.keeps (Keeps.removeRequest _ side id)
  | roleConflict id =>
    exact hrest.roleConflict (h.conflict side id hmem).2
      fun request => hcareful side id request hm

theorem Inv.step {e : Event} (h : s.Inv) (hcareful : s.Careful e)
    (hstep : s.step e = some s') : s'.Inv := by
  cases e with
  | ping side =>
    cases hstep
    exact h.ping side
  | requestTimeout side id =>
    cases hstep
    exact h.keeps (Keeps.removeRequest s side id)
  | deliver i => exact h.deliver hcareful hstep
  | duplicate i =>
    obtain ⟨m, hm, rfl⟩ := Option.map_eq_some_iff.mp hstep
    refine h.keeps (Keeps.inFlight_subset s fun m' hm' => ?_)
    rcases List.mem_append.mp hm' with hm' | hm'
    · exact hm'
    · rw [List.mem_singleton.mp hm']
      exact List.mem_of_getElem? hm
  | lose i =>
    cases hstep
    exact h.keeps (Keeps.inFlight_subset s List.eraseIdx_subset)

/-- When everything has arrived, either both agents have the roles that the
tiebreakers give them or both have the other ones. -/
theorem Inv.reverse_of_settled (h : s.Inv) (hsettled : s.Settled)
    (side : Side) :
    (s.agents side.other).iceRole = (s.agents side).iceRole.reverse := by
  have hreverse := properRole_other h.tiebreaker_ne side
  have hforth := h.proper side (hsettled.2 side)
  have hback := h.proper side.other (hsettled.2 side.other)
  rw [Side.other_other] at hback
  by_cases hrole : (s.agents side).iceRole = s.properRole side
  · rw [hforth hrole, hrole, hreverse]
  · have hother : (s.agents side.other).iceRole ≠ s.properRole side.other :=
      fun heq => hrole (hback heq)
    rw [IceRole.eq_reverse_of_ne hother, IceRole.eq_reverse_of_ne hrole,
      hreverse]

theorem Inv.agreed (h : s.Inv) (hsettled : s.Settled) : s.Agreed := by
  cases hrole : (s.agents .left).iceRole with
  | controlling =>
    refine ⟨.left, hrole, ?_⟩
    rw [h.reverse_of_settled hsettled, hrole]
    rfl
  | controlled =>
    refine ⟨.right, ?_, hrole⟩
    have hother := h.reverse_of_settled hsettled .left
    rw [hrole] at hother
    exact hother

theorem staleChanges_iff (h : s.staleChanges = 0) {e : Event}
    (hstep : s.step e = some s') : s'.staleChanges = 0 ↔ s.Careful e := by
  cases e with
  | deliver i =>
    obtain ⟨⟨side, message⟩, hm, rfl⟩ := Option.map_eq_some_iff.mp hstep
    cases message with
    | bindingRequest msg changes =>
      refine iff_of_true h fun side' id request hm' => ?_
      cases hm.symm.trans hm'
    | bindingResponse id =>
      refine iff_of_true h fun side' id' request hm' => ?_
      cases hm.symm.trans hm'
    | roleConflict id =>
      dsimp only
      rw [onReadPacket]
      cases hfind : (s.agents side).findRequest id with
      | none =>
        refine iff_of_true h fun side' id' request hm' hfind' => ?_
        cases hm.symm.trans hm'
        cases hfind.symm.trans hfind'
      | some request =>
        dsimp only
        by_cases hrole : request.role = (s.agents side).iceRole
        · rw [if_pos hrole]
          refine iff_of_true h fun side' id' request' hm' hfind' => ?_
          cases hm.symm.trans hm'
          cases hfind.symm.trans hfind'
          exact hrole
        · rw [if_neg hrole]
          exact iff_of_false (Nat.succ_ne_zero _) fun hcareful =>
            hrole (hcareful side id request hm hfind)
  | duplicate i =>
    obtain ⟨m, hm, rfl⟩ := Option.map_eq_some_iff.mp hstep
    exact iff_of_true h trivial
  | _ =>
    cases hstep
    exact iff_of_true h trivial

/-- While 487 responses come in time, no role changes because of a request in
another role, and the agents agree as soon as everything has arrived.  The
first 487 response that comes late breaks this. -/
theorem agreed_of_careful {s : Exchange}
    (hs : ReachableVia Started step Careful s) :
    s.staleChanges = 0 ∧ (s.Settled → s.Agreed) ∧
      ∀ e t, s.step e = some t → (t.staleChanges = 0 ↔ s.Careful e) := by
  have h : s.Inv := hs.invariant (fun _ => Started.inv)
    fun _ _ _ h hcareful hstep => h.step hcareful hstep
  exact ⟨h.staleChanges, h.agreed,
    fun _ _ hstep => staleChanges_iff h.staleChanges hstep⟩

instance (s : Exchange) (e : Event) : Decidable (s.Careful e) :=
  match e with
  | .deliver i =>
    match h : s.inFlight[i]? with
    | some (side, .roleConflict id) =>
      decidable_of_iff (∀ request ∈ (s.agents side).findRequest id,
        request.role = (s.agents side).iceRole)
        ⟨by
          intro hcareful side' id' request hm hfind
          cases h.symm.trans hm
          exact hcareful request hfind,
         fun hcareful request hfind => hcareful side id request h hfind⟩
    | none => .isTrue fun _ _ _ hm => by cases h.symm.trans hm
    | some (_, .bindingRequest ..) =>
      .isTrue fun _ _ _ hm => by cases h.symm.trans hm
    | some (_, .bindingResponse _) =>
      .isTrue fun _ _ _ hm => by cases h.symm.trans hm
  | .ping _ => inferInstanceAs (Decidable True)
  | .requestTimeout .. => inferInstanceAs (Decidable True)
  | .duplicate _ => inferInstanceAs (Decidable True)
  | .lose _ => inferInstanceAs (Decidable True)

/-- Both agents start with the controlling role. -/
def bothControlling : Exchange where
  agents side :=
    { iceRole := .controlling
      tiebreaker := if side = .left then 2 else 1
      usernameFragment := if side = .left then "left" else "right"
      requests := []
      nextTransactionId := 0
      changes := 0 }
  inFlight := []
  processed := []
  staleChanges := 0

theorem bothControlling_started : bothControlling.Started where
  tiebreaker_ne := by decide
  requests _ := rfl
  changes _ := rfl
  inFlight := rfl
  processed := rfl
  staleChanges := rfl

/-- The right agent gives up its role after a 487 response, and then a request
of each agent is processed. -/
def promptRun : List Event :=
  [.ping .right, .deliver 0, .deliver 0, .ping .right, .deliver 0, .deliver 0,
    .ping .left, .deliver 0, .deliver 0]

theorem agreed_of_careful_promptRun :
    ∃ s, execute step bothControlling promptRun = some s ∧ s.Settled ∧
      s.Agreed := by
  have h : ∃ s, execute step bothControlling promptRun = some s ∧
      s.Settled := by
    refine ⟨_, rfl, rfl, fun side => ?_⟩
    cases side <;> decide
  obtain ⟨s, hs, hsettled⟩ := h
  have hreach : ReachableVia Started step Careful s :=
    (ReachableVia.init bothControlling_started).execute_of_allowed hs
      (by decide)
  exact ⟨s, hs, hsettled, (agreed_of_careful hreach).2.1 hsettled⟩

/-- The right agent asks twice before the first 487 response comes.  The second
one takes it back to the controlling role. -/
theorem not_agreed_bothControlling :
    ∃ s, Reachable Started step s ∧ s.Settled ∧ ¬ s.Agreed ∧
      s.staleChanges ≠ 0 := by
  have h : ∃ s, execute step bothControlling
      [.ping .right, .ping .right, .deliver 0, .deliver 0, .deliver 0,
        .ping .left, .deliver 1, .deliver 1, .deliver 0, .ping .right,
        .deliver 0, .lose 0] = some s ∧ s.Settled ∧ ¬ s.Agreed ∧
      s.staleChanges ≠ 0 := by
    refine ⟨_, rfl, ⟨rfl, fun side => ?_⟩, ?_, ?_⟩
    · cases side <;> decide
    · rintro ⟨side, _, hrole⟩
      revert hrole
      cases side <;> decide
    · decide
  obtain ⟨s, hs, h⟩ := h
  exact ⟨s, reachable_of_execute bothControlling_started hs, h⟩

end Exchange

end WebrtcWinXp.Ice
