import WebrtcWinXp.Support.Loop
import WebrtcWinXp.Support.Memory
import Mathlib.Logic.Relation

/-!
# Computations with a trace

A value with the events of its computation, such as the ranges of memory that
were touched.  What holds of all events is proved along the computation.
-/

namespace WebrtcWinXp.Support

structure Traced (ε α : Type) where
  value : α
  trace : List ε

namespace Traced

variable {ε α β : Type}

instance : Monad (Traced ε) where
  pure a := ⟨a, []⟩
  bind x f := ⟨(f x.value).value, x.trace ++ (f x.value).trace⟩

/-- A value that is computed with one event. -/
def touch (e : ε) (a : α) : Traced ε α := ⟨a, [e]⟩

@[simp] theorem value_pure (a : α) : (pure a : Traced ε α).value = a := rfl

@[simp] theorem trace_pure (a : α) : (pure a : Traced ε α).trace = [] := rfl

@[simp] theorem value_bind (x : Traced ε α) (f : α → Traced ε β) :
    (x >>= f).value = (f x.value).value := rfl

@[simp] theorem trace_bind (x : Traced ε α) (f : α → Traced ε β) :
    (x >>= f).trace = x.trace ++ (f x.value).trace := rfl

@[simp] theorem value_touch (e : ε) (a : α) : (touch e a).value = a := rfl

@[simp] theorem trace_touch (e : ε) (a : α) : (touch e a).trace = [e] := rfl

@[simp] theorem value_map (f : α → β) (x : Traced ε α) :
    (f <$> x).value = f x.value := rfl

/-! ## All events -/

/-- Every event has a property. -/
def All (P : ε → Prop) (x : Traced ε α) : Prop := ∀ e ∈ x.trace, P e

instance (P : ε → Prop) [DecidablePred P] (x : Traced ε α) :
    Decidable (x.All P) :=
  inferInstanceAs (Decidable (∀ e ∈ x.trace, P e))

variable {P : ε → Prop}

@[simp] theorem all_pure (a : α) : (pure a : Traced ε α).All P :=
  fun _ he => absurd he List.not_mem_nil

@[simp] theorem all_bind (x : Traced ε α) (f : α → Traced ε β) :
    (x >>= f).All P ↔ x.All P ∧ (f x.value).All P :=
  List.forall_mem_append

@[simp] theorem all_touch (e : ε) (a : α) : (touch e a).All P ↔ P e :=
  List.forall_mem_singleton

/-- Every event has a property, and the value another one. -/
def Meets (P : ε → Prop) (Q : α → Prop) (x : Traced ε α) : Prop :=
  x.All P ∧ Q x.value

variable {Q : α → Prop} {R : β → Prop}

@[simp] theorem meets_pure (a : α) :
    (pure a : Traced ε α).Meets P Q ↔ Q a :=
  and_iff_right (all_pure a)

@[simp] theorem meets_bind (x : Traced ε α) (f : α → Traced ε β) :
    (x >>= f).Meets P R ↔ x.All P ∧ (f x.value).Meets P R := by
  unfold Meets
  rw [all_bind, value_bind, and_assoc]

@[simp] theorem meets_map (f : α → β) (x : Traced ε α) :
    (f <$> x).Meets P R ↔ x.Meets P fun a => R (f a) := by
  have hmap : f <$> x = x >>= fun a => pure (f a) := rfl
  rw [hmap, meets_bind, meets_pure]
  exact Iff.rfl

theorem Meets.bind {x : Traced ε α} {f : α → Traced ε β} (h : x.Meets P Q)
    (h' : ∀ a, Q a → (f a).Meets P R) : (x >>= f).Meets P R :=
  (meets_bind x f).mpr ⟨h.1, h' _ h.2⟩

section Loops

variable {σ : Type} (step : σ → Traced ε (Option σ)) {measure : σ → ℕ}

/-- At most `n` rounds of a loop; no value when it needs more. -/
def loop : ℕ → σ → Traced ε (Option σ)
  | 0, _ => pure none
  | n + 1, s => do
      match ← step s with
      | none => pure (some s)
      | some t => loop n t

/-- The loop, when a measure bounds its rounds. -/
def finish (measure : σ → ℕ) (s : σ) : Traced ε σ := do
  let last ← loop step (measure s + 1) s
  return last.getD s

/-- One round leads from a state to another one. -/
def Round (s t : σ) : Prop := (step s).value = some t

variable {step}

theorem value_loop (n : ℕ) (s : σ) :
    (loop step n s).value = Support.loop (fun s => (step s).value) n s := by
  induction n generalizing s with
  | zero => rfl
  | succ n ih =>
    rw [loop, Support.loop, value_bind]
    cases (step s).value with
    | none => rfl
    | some t => exact ih t

theorem value_finish (measure : σ → ℕ) (s : σ) :
    (finish step measure s).value =
      Support.finish (fun s => (step s).value) measure s := by
  rw [finish, Support.finish, value_bind, value_loop]
  rfl

theorem all_loop {n : ℕ} {s : σ}
    (h : ∀ t, Relation.ReflTransGen (Round step) s t → (step t).All P) :
    (loop step n s).All P := by
  induction n generalizing s with
  | zero => exact all_pure _
  | succ n ih =>
    rw [loop, all_bind]
    refine ⟨h s .refl, ?_⟩
    cases hround : (step s).value with
    | none => exact all_pure _
    | some u => exact ih fun t ht => h t (.head hround ht)

theorem all_of_all_loop
    (hlower : Lowers (fun s => (step s).value) measure) {n : ℕ} {s t : σ}
    (hn : measure s < n) (h : (loop step n s).All P)
    (ht : Relation.ReflTransGen (Round step) s t) : (step t).All P := by
  induction n generalizing s with
  | zero => exact absurd hn (Nat.not_lt_zero _)
  | succ n ih =>
    rw [loop, all_bind] at h
    obtain ⟨hhead, htail⟩ := h
    rcases ht.cases_head with rfl | ⟨u, hround, hrest⟩
    · exact hhead
    · have hlt := hlower s u hround
      rw [show (step s).value = some u from hround] at htail
      exact ih (by omega) htail hrest

theorem all_finish_iff
    (hlower : Lowers (fun s => (step s).value) measure) {s : σ} :
    (finish step measure s).All P ↔
      ∀ t, Relation.ReflTransGen (Round step) s t → (step t).All P := by
  have hloop : (finish step measure s).All P ↔
      (loop step (measure s + 1) s).All P := by
    rw [finish, all_bind]
    exact and_iff_left (all_pure _)
  rw [hloop]
  exact ⟨fun h t ht => all_of_all_loop hlower (Nat.lt_succ_self _) h ht,
    all_loop⟩

end Loops

section Each

variable {σ : Type} (step : σ → α → Traced ε σ)

/-- One step for each element. -/
def each : List α → σ → Traced ε σ
  | [], s => pure s
  | a :: l, s => do
      let t ← step s a
      each l t

variable {step}

end Each

end Traced

namespace Buffer

/-- The byte at an offset. -/
def getByte (b : Buffer) (i : ℕ) : Traced Access UInt8 :=
  .touch ⟨i, 1⟩ (b.byte i)

/-- The bytes of a range. -/
def getBytes (b : Buffer) (a : Access) : Traced Access (List UInt8) :=
  .touch a (b.read a)

variable (b : Buffer) {P : Access → Prop}

@[simp] theorem value_getByte (i : ℕ) : (b.getByte i).value = b.byte i := rfl

@[simp] theorem all_getByte (i : ℕ) : (b.getByte i).All P ↔ P ⟨i, 1⟩ :=
  Traced.all_touch _ _

@[simp] theorem value_getBytes (a : Access) :
    (b.getBytes a).value = b.read a := rfl

@[simp] theorem all_getBytes (a : Access) : (b.getBytes a).All P ↔ P a :=
  Traced.all_touch _ _

end Buffer

end WebrtcWinXp.Support
