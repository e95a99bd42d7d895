import Mathlib.Logic.Basic
import Mathlib.Data.List.Chain

/-!
# Runs of event-driven state machines

A machine is a deterministic step function on a state and an event.  All
nondeterminism of the environment is carried by the events, and an event which
is not enabled in a state has no successor.  Runs may be restricted by a
condition on the state before a step and on the event.
-/

namespace WebrtcWinXp.Support

variable {σ ε : Type*}

/-- States reached from `init` by enabled events, each of which satisfies `ok`
in the state in which it is taken. -/
inductive ReachableVia (init : σ → Prop) (step : σ → ε → Option σ)
    (ok : σ → ε → Prop) : σ → Prop where
  | init {s : σ} (h : init s) : ReachableVia init step ok s
  | step {s t : σ} {e : ε} (hs : ReachableVia init step ok s)
      (hok : ok s e) (hstep : step s e = some t) : ReachableVia init step ok t

/-- States reached by arbitrary enabled events. -/
def Reachable (init : σ → Prop) (step : σ → ε → Option σ) : σ → Prop :=
  ReachableVia init step fun _ _ => True

variable {init : σ → Prop} {step : σ → ε → Option σ} {ok ok' : σ → ε → Prop}

theorem ReachableVia.invariant {inv : σ → Prop}
    (hinit : ∀ s, init s → inv s)
    (hstep : ∀ s e t, inv s → ok s e → step s e = some t → inv t)
    {s : σ} (hs : ReachableVia init step ok s) : inv s := by
  induction hs with
  | init h => exact hinit _ h
  | step _ hok h ih => exact hstep _ _ _ ih hok h

theorem Reachable.invariant {inv : σ → Prop}
    (hinit : ∀ s, init s → inv s)
    (hstep : ∀ s e t, inv s → step s e = some t → inv t)
    {s : σ} (hs : Reachable init step s) : inv s :=
  ReachableVia.invariant hinit (fun s e t hi _ h => hstep s e t hi h) hs

theorem ReachableVia.trans {s t : σ} (hs : ReachableVia init step ok s)
    (ht : ReachableVia (· = s) step ok t) : ReachableVia init step ok t := by
  induction ht with
  | init h =>
    subst h
    exact hs
  | step _ hok h ih => exact .step ih hok h

theorem Reachable.single {s t : σ} {e : ε} (h : step s e = some t) :
    Reachable (· = s) step t :=
  .step (.init rfl) trivial h

/-- A machine that keeps the steps it has taken, the last one first. -/
def recorded (step : σ → ε → Option σ) (r : σ × List (σ × ε)) (e : ε) :
    Option (σ × List (σ × ε)) :=
  (step r.1 e).map fun t => (t, (r.1, e) :: r.2)

theorem recorded_eq_some {r r' : σ × List (σ × ε)} {e : ε}
    (h : recorded step r e = some r') :
    step r.1 e = some r'.1 ∧ r'.2 = (r.1, e) :: r.2 := by
  obtain ⟨t, ht, rfl⟩ := Option.map_eq_some_iff.mp h
  exact ⟨ht, rfl⟩

/-- Execute a list of events from a state. -/
def execute (step : σ → ε → Option σ) : σ → List ε → Option σ
  | s, [] => some s
  | s, e :: es => (step s e).bind fun t => execute step t es

@[simp] theorem execute_nil (s : σ) : execute step s [] = some s := rfl

theorem execute_cons {s t : σ} {e : ε} {es : List ε}
    (h : execute step s (e :: es) = some t) :
    ∃ u, step s e = some u ∧ execute step u es = some t := by
  simpa only [execute, Option.bind_eq_some_iff] using h

theorem ReachableVia.execute_of_mem {s : σ}
    (hs : ReachableVia init step ok s) {es : List ε} {t : σ}
    (h : Support.execute step s es = some t)
    (hok : ∀ e ∈ es, ∀ u, ok u e) : ReachableVia init step ok t := by
  induction es generalizing s with
  | nil =>
    cases h
    exact hs
  | cons e es ih =>
    obtain ⟨u, hu, hrest⟩ := execute_cons h
    exact ih (.step hs (hok e List.mem_cons_self s) hu) hrest
      fun e he => hok e (List.mem_cons_of_mem _ he)

theorem ReachableVia.execute {s : σ} (hs : ReachableVia init step ok s)
    {es : List ε} {t : σ} (h : Support.execute step s es = some t)
    (hok : ∀ u e, ok u e) : ReachableVia init step ok t :=
  hs.execute_of_mem h fun e _ u => hok u e

/-- Each event of a list is allowed in the state in which it is taken. -/
def Allowed (step : σ → ε → Option σ) (ok : σ → ε → Prop) : σ → List ε → Prop
  | _, [] => True
  | s, e :: es => ok s e ∧ ∀ t ∈ step s e, Allowed step ok t es

instance Allowed.decidable [∀ s e, Decidable (ok s e)] (s : σ) (es : List ε) :
    Decidable (Allowed step ok s es) :=
  match es with
  | [] => inferInstanceAs (Decidable True)
  | _ :: es =>
    have : ∀ t, Decidable (Allowed step ok t es) :=
      fun t => Allowed.decidable t es
    inferInstanceAs (Decidable (_ ∧ ∀ t ∈ step s _, Allowed step ok t es))

theorem Allowed.take {s : σ} {es : List ε} (h : Allowed step ok s es) (n : Nat) :
    Allowed step ok s (es.take n) := by
  induction es generalizing s n with
  | nil =>
    rw [List.take_nil]
    exact trivial
  | cons e es ih =>
    cases n with
    | zero => exact trivial
    | succ n => exact ⟨h.1, fun t ht => ih (h.2 t ht) n⟩

theorem ReachableVia.execute_of_allowed {s : σ}
    (hs : ReachableVia init step ok s) {es : List ε} {t : σ}
    (h : Support.execute step s es = some t) (hok : Allowed step ok s es) :
    ReachableVia init step ok t := by
  induction es generalizing s with
  | nil =>
    cases h
    exact hs
  | cons e es ih =>
    obtain ⟨u, hu, hrest⟩ := execute_cons h
    exact ih (.step hs hok.1 hu) hrest (hok.2 u hu)

theorem reachable_of_execute {s t : σ} {es : List ε} (hs : init s)
    (h : execute step s es = some t) : Reachable init step t :=
  ReachableVia.execute (.init hs) h fun _ _ => trivial

/-!
## Steps with inner moments

A step of a machine may pass intermediate states that an observer can see.
`passed` lists the states of a run with the inner moments of every step.  A
relation that holds along all of them is decided step by step: the run keeps
it exactly when every step does.
-/

section

variable {σ ε : Type*} {R : σ → σ → Prop}

/-- The last of some moments after `s`. -/
def final (s : σ) (moments : List σ) : σ := moments.getLast?.getD s

@[simp] theorem final_nil (s : σ) : final s [] = s := rfl

@[simp] theorem final_cons (s t : σ) (moments : List σ) :
    final s (t :: moments) = final t moments := by
  cases moments <;> simp [final, List.getLast?_cons]

@[simp] theorem final_append (s : σ) (first second : List σ) :
    final s (first ++ second) = final (final s first) second := by
  induction first generalizing s with
  | nil => rfl
  | cons t first ih => rw [List.cons_append, final_cons, final_cons, ih]

theorem final_map {τ : Type*} (f : σ → τ) (s : σ) (moments : List σ) :
    final (f s) (moments.map f) = f (final s moments) := by
  induction moments generalizing s with
  | nil => rfl
  | cons t moments ih => rw [List.map_cons, final_cons, final_cons, ih]

theorem isChain_append_iff (s : σ) (first second : List σ) :
    (s :: (first ++ second)).IsChain R ↔
      (s :: first).IsChain R ∧ (final s first :: second).IsChain R := by
  induction first generalizing s with
  | nil => simp
  | cons t first ih =>
    rw [List.cons_append, List.isChain_cons_cons, List.isChain_cons_cons, ih,
      final_cons, and_assoc]

theorem rel_final_of_isChain (htrans : ∀ s t u, R s t → R t u → R s u)
    {s : σ} {moments : List σ} (hne : moments ≠ [])
    (h : (s :: moments).IsChain R) : R s (final s moments) := by
  induction moments generalizing s with
  | nil => exact absurd rfl hne
  | cons t moments ih =>
    obtain ⟨hst, hrest⟩ := List.isChain_cons_cons.mp h
    rw [final_cons]
    cases moments with
    | nil => exact hst
    | cons u moments => exact htrans s t _ hst (ih (by simp) hrest)

/-- The states of a run, each step with its inner moments and its result. -/
def passed (inner : σ → ε → List σ) (apply : σ → ε → σ) : σ → List ε → List σ
  | _, [] => []
  | s, e :: es =>
    inner s e ++ apply s e :: passed inner apply (apply s e) es

theorem isChain_passed_iff {inner : σ → ε → List σ} {apply : σ → ε → σ}
    {ok : σ → ε → Prop} {inv : σ → Prop}
    (hmoments : ∀ s e, inv s →
      ((s :: (inner s e ++ [apply s e])).IsChain R ↔ ok s e))
    (hinv : ∀ s e, inv s → ok s e → inv (apply s e))
    {s : σ} (hs : inv s) (es : List ε) :
    (s :: passed inner apply s es).IsChain R ↔
      Allowed (fun s e => some (apply s e)) ok s es := by
  induction es generalizing s with
  | nil => simp [passed, Allowed]
  | cons e es ih =>
    have hsplit : passed inner apply s (e :: es) =
        (inner s e ++ [apply s e]) ++
          passed inner apply (apply s e) es := by simp [passed]
    rw [hsplit, isChain_append_iff, hmoments s e hs]
    simp only [Allowed, Option.mem_some_iff, forall_eq', final_append,
      final_cons, final_nil]
    exact and_congr_right fun hok => ih (hinv s e hs hok)

end

end WebrtcWinXp.Support
