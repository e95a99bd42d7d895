import WebrtcWinXp.Support.Loop

/-!
# Absorbing a message block by block

A hash function changes a state by one block of a fixed length after the
other.  Blocks may be cut from a message in one go or as its parts arrive,
where what is left of one part goes before the next.
-/

namespace WebrtcWinXp.Support

variable {σ α : Type*} {n : ℕ} {compress : σ → List α → σ}

/-- One block, if there is one. -/
def absorbStep (n : ℕ) (compress : σ → List α → σ) (s : σ × List α) :
    Option (σ × List α) :=
  if s.2.length < n then none
  else some (compress s.1 (s.2.take n), s.2.drop n)

/-- All blocks of a message: the state after them, and what is left. -/
def absorb (n : ℕ) (compress : σ → List α → σ) (s : σ × List α) :
    σ × List α :=
  finish (absorbStep n compress) (fun s => s.2.length) s

theorem lowers_absorbStep (hn : 0 < n) :
    Lowers (absorbStep n compress) fun s => s.2.length := by
  intro s t h
  unfold absorbStep at h
  split at h
  · cases h
  · cases h
    dsimp only
    rw [List.length_drop]
    omega

theorem absorb_of_lt {s : σ × List α} (h : s.2.length < n) :
    absorb n compress s = s :=
  finish_of_eq_none (if_pos h)

theorem absorb_of_ge (hn : 0 < n) {s : σ} {message : List α}
    (h : n ≤ message.length) :
    absorb n compress (s, message) =
      absorb n compress (compress s (message.take n), message.drop n) := by
  refine finish_of_eq_some (lowers_absorbStep hn) ?_
  unfold absorbStep
  exact if_neg (Nat.not_lt.mpr h)

theorem length_absorb (compress : σ → List α → σ) (hn : 0 < n) (s : σ)
    (message : List α) :
    (absorb n compress (s, message)).2.length = message.length % n := by
  induction hlength : message.length using Nat.strongRecOn
    generalizing s message with
  | ind length ih =>
    by_cases hlt : message.length < n
    · rw [absorb_of_lt hlt, ← hlength, Nat.mod_eq_of_lt hlt]
    · rw [absorb_of_ge hn (Nat.not_lt.mp hlt),
        ih _ (by rw [List.length_drop]; omega) _ _ rfl, List.length_drop,
        ← hlength, Nat.mod_eq_sub_mod (Nat.not_lt.mp hlt)]

theorem absorb_append (compress : σ → List α → σ) (hn : 0 < n) (s : σ)
    (front back : List α) :
    absorb n compress (s, front ++ back) =
      absorb n compress ((absorb n compress (s, front)).1,
        (absorb n compress (s, front)).2 ++ back) := by
  induction hlength : front.length using Nat.strongRecOn
    generalizing s front with
  | ind length ih =>
    by_cases hlt : front.length < n
    · have hfront : absorb n compress (s, front) = (s, front) :=
        absorb_of_lt hlt
      rw [hfront]
    have hle : n ≤ front.length := Nat.not_lt.mp hlt
    have hwhole : n ≤ (front ++ back).length := by
      rw [List.length_append]
      omega
    rw [absorb_of_ge hn hwhole, List.take_append_of_le_length hle,
      List.drop_append_of_le_length hle, absorb_of_ge hn hle]
    exact ih _ (by rw [List.length_drop]; omega) _ _ rfl

end WebrtcWinXp.Support
