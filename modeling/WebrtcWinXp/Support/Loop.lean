import Mathlib.Order.Basic
import Mathlib.Data.List.Basic

/-!
# Loops that end

A loop is a step that is repeated until it gives nothing.  A measure that every
step lowers bounds the number of steps.
-/

namespace WebrtcWinXp.Support

variable {σ : Type*}

/-- At most `n` rounds of a loop; nothing when it needs more. -/
def loop (step : σ → Option σ) : ℕ → σ → Option σ
  | 0, _ => none
  | n + 1, s =>
    match step s with
    | none => some s
    | some t => loop step n t

/-- Every round lowers the measure. -/
def Lowers (step : σ → Option σ) (measure : σ → ℕ) : Prop :=
  ∀ s t, step s = some t → measure t < measure s

variable {step : σ → Option σ} {measure : σ → ℕ}

theorem loop_succ (n : ℕ) (s : σ) :
    loop step (n + 1) s =
      match step s with
      | none => some s
      | some t => loop step n t :=
  rfl

theorem loop_invariant {P : σ → Prop}
    (hstep : ∀ s t, P s → step s = some t → P t) {n : ℕ} {s t : σ} (hs : P s)
    (h : loop step n s = some t) : P t ∧ step t = none := by
  induction n generalizing s with
  | zero => cases h
  | succ n ih =>
    rw [loop_succ] at h
    cases hu : step s with
    | none =>
      rw [hu, Option.some_inj] at h
      subst h
      exact ⟨hs, hu⟩
    | some u =>
      rw [hu] at h
      exact ih (hstep s u hs hu) h

theorem exists_loop_eq_some (hlower : Lowers step measure) {n : ℕ} {s : σ}
    (hn : measure s < n) : ∃ t, loop step n s = some t := by
  induction n generalizing s with
  | zero => exact absurd hn (Nat.not_lt_zero _)
  | succ n ih =>
    rw [loop_succ]
    cases hu : step s with
    | none => exact ⟨s, rfl⟩
    | some u =>
      have hlt := hlower s u hu
      exact ih (by omega)

theorem loop_eq_none {P : σ → Prop}
    (hstep : ∀ s, P s → ∃ t, step s = some t ∧ P t) (n : ℕ) {s : σ}
    (hs : P s) : loop step n s = none := by
  induction n generalizing s with
  | zero => rfl
  | succ n ih =>
    obtain ⟨t, ht, ht'⟩ := hstep s hs
    rw [loop_succ, ht]
    exact ih ht'

theorem loop_mono {m n : ℕ} (hmn : m ≤ n) {s t : σ}
    (h : loop step m s = some t) : loop step n s = some t := by
  induction m generalizing n s with
  | zero => cases h
  | succ m ih =>
    obtain ⟨n, rfl⟩ : ∃ k, n = k + 1 := ⟨n - 1, by omega⟩
    rw [loop_succ] at h ⊢
    cases hu : step s with
    | none =>
      rw [hu] at h
      exact h
    | some u =>
      rw [hu] at h
      exact ih (by omega) h

theorem loop_map {τ : Type*} {step' : τ → Option τ} {f : σ → τ}
    (h : ∀ s, step' (f s) = (step s).map f) (n : ℕ) (s : σ) :
    loop step' n (f s) = (loop step n s).map f := by
  induction n generalizing s with
  | zero => rfl
  | succ n ih =>
    rw [loop_succ, loop_succ, h]
    cases step s with
    | none => rfl
    | some t => exact ih t

/-- The state in which a loop ends that a measure bounds. -/
def finish (step : σ → Option σ) (measure : σ → ℕ) (s : σ) : σ :=
  (loop step (measure s + 1) s).getD s

theorem loop_eq_finish (hlower : Lowers step measure) (s : σ) :
    loop step (measure s + 1) s = some (finish step measure s) := by
  obtain ⟨t, ht⟩ := exists_loop_eq_some hlower (Nat.lt_succ_self (measure s))
  rw [finish, ht, Option.getD_some]

theorem finish_map {τ : Type*} {step' : τ → Option τ} {measure' : τ → ℕ}
    {f : σ → τ} (h : ∀ s, step' (f s) = (step s).map f)
    (hmeasure : ∀ s, measure' (f s) = measure s) (s : σ) :
    finish step' measure' (f s) = f (finish step measure s) := by
  rw [finish, finish, hmeasure, loop_map h]
  cases loop step (measure s + 1) s <;> rfl

theorem finish_invariant (hlower : Lowers step measure) {P : σ → Prop}
    (hstep : ∀ s t, P s → step s = some t → P t) {s : σ} (hs : P s) :
    P (finish step measure s) ∧ step (finish step measure s) = none :=
  loop_invariant hstep hs (loop_eq_finish hlower s)

theorem finish_of_eq_none {s : σ} (h : step s = none) :
    finish step measure s = s := by
  rw [finish, loop_succ, h]
  rfl

theorem finish_of_eq_some (hlower : Lowers step measure) {s t : σ}
    (h : step s = some t) : finish step measure s = finish step measure t := by
  have hle : measure t + 1 ≤ measure s := hlower s t h
  rw [finish, loop_succ, h]
  dsimp only
  rw [loop_mono hle (loop_eq_finish hlower t), Option.getD_some]

theorem finish_of_invariant {P : σ → Prop}
    (hstep : ∀ s t, P s → step s = some t → P t ∧ measure t < measure s) {s : σ}
    (hs : P s) :
    P (finish step measure s) ∧ step (finish step measure s) = none := by
  have hends : ∀ n s, P s → measure s < n → ∃ t, loop step n s = some t := by
    intro n
    induction n with
    | zero => exact fun s _ hn => absurd hn (Nat.not_lt_zero _)
    | succ n ih =>
      intro s hs hn
      rw [loop_succ]
      cases hu : step s with
      | none => exact ⟨s, rfl⟩
      | some u =>
        obtain ⟨hu', hlt⟩ := hstep s u hs hu
        exact ih u hu' (by omega)
  obtain ⟨t, ht⟩ := hends _ s hs (Nat.lt_succ_self (measure s))
  have hend := loop_invariant (fun s t hs h => (hstep s t hs h).1) hs ht
  rw [finish, ht, Option.getD_some]
  exact hend

/-!
## Frames on a stream

Values are written to a stream one after the other, each as a frame that tells
its own length.  A reader that holds any part of the stream takes off the
frames that are complete and keeps the rest.
-/

section

/-- Frames with a parser that takes one off the front of a stream. -/
structure Framing (α β : Type*) where
  frame : α → List β
  peel : List β → Option (α × List β)
  Valid : α → Prop
  peel_frame {a : α} (ha : Valid a) (rest : List β) :
    peel (frame a ++ rest) = some (a, rest)
  peel_short {a : α} (ha : Valid a) {front back : List β}
    (h : front ++ back = frame a) (hback : back ≠ []) : peel front = none
  peel_lt {l rest : List β} {a : α} (h : peel l = some (a, rest)) :
    rest.length < l.length

namespace Framing

variable {α β : Type*} (F : Framing α β)

/-- The stream of some values. -/
def stream (as : List α) : List β := as.flatMap F.frame

/-- One more frame is taken off. -/
def peelStep (s : List α × List β) : Option (List α × List β) :=
  (F.peel s.2).map fun r => (s.1 ++ [r.1], r.2)

/-- All complete frames are taken off. -/
def peelAll (s : List α × List β) : List α × List β :=
  finish F.peelStep (fun s => s.2.length) s

theorem lowers_peelStep : Lowers F.peelStep fun s => s.2.length := by
  intro s t h
  obtain ⟨⟨a, rest⟩, hpeel, rfl⟩ := Option.map_eq_some_iff.mp h
  exact F.peel_lt hpeel

theorem peel_nil : F.peel [] = none := by
  rw [Option.eq_none_iff_forall_ne_some]
  rintro ⟨a, rest⟩ h
  exact absurd (F.peel_lt h) (Nat.not_lt_zero _)

theorem peelAll_of_stream {as : List α} (has : ∀ a ∈ as, F.Valid a)
    {front back : List β} (h : front ++ back = F.stream as) (done : List α) :
    ∃ taken rest front', as = taken ++ rest ∧
      F.peelAll (done, front) = (done ++ taken, front') ∧
      front' ++ back = F.stream rest ∧
      ∀ a ∈ rest.head?, front'.length < (F.frame a).length := by
  induction as generalizing front done with
  | nil =>
    have hfront : front = [] := (List.append_eq_nil_iff.mp h).1
    refine ⟨[], [], front, rfl, ?_, h, fun a ha => by cases ha⟩
    rw [peelAll, finish_of_eq_none, List.append_nil]
    rw [peelStep, hfront, peel_nil]
    rfl
  | cons a as ih =>
    have ha := has a List.mem_cons_self
    rw [stream, List.flatMap_cons, ← stream] at h
    have hfirst : (∃ front', front = F.frame a ++ front' ∧
        front' ++ back = F.stream as) ∨
          ∃ tail, tail ≠ [] ∧ front ++ tail = F.frame a := by
      rcases List.append_eq_append_iff.mp h with
        ⟨tail, hframe, hback⟩ | ⟨front', hfront, hrest⟩
      · by_cases htail : tail = []
        · subst htail
          rw [List.append_nil] at hframe
          exact .inl ⟨[], by rw [hframe, List.append_nil], hback⟩
        · exact .inr ⟨tail, htail, hframe.symm⟩
      · exact .inl ⟨front', hfront, hrest.symm⟩
    rcases hfirst with ⟨front', rfl, hrest⟩ | ⟨tail, htail, hframe⟩
    · obtain ⟨taken, rest, front'', rfl, hpeel, hback, hlast⟩ :=
        ih (fun a' ha' => has a' (List.mem_cons_of_mem _ ha')) hrest
          (done ++ [a])
      have hstep : F.peelStep (done, F.frame a ++ front') =
          some (done ++ [a], front') := by
        rw [peelStep, F.peel_frame ha]
        rfl
      refine ⟨a :: taken, rest, front'', rfl, ?_, hback, hlast⟩
      rw [peelAll, finish_of_eq_some F.lowers_peelStep hstep, ← peelAll,
        hpeel, List.append_assoc]
      rfl
    · refine ⟨[], a :: as, front, rfl, ?_, ?_, ?_⟩
      · rw [peelAll, finish_of_eq_none, List.append_nil]
        rw [peelStep, F.peel_short ha hframe htail]
        rfl
      · rw [stream, List.flatMap_cons, ← stream, h]
      · rintro a' ha'
        cases ha'
        have hpos := List.length_pos_iff.mpr htail
        rw [← hframe, List.length_append]
        omega

end Framing

end

end WebrtcWinXp.Support
