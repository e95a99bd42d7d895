import WebrtcWinXp.Rtcp.Iteration

/-!
# In step with the blocks

The parser stays in step with the split of the buffer into blocks, unless the
position behind a block that it does not leave at its end looks like a block.
-/

namespace WebrtcWinXp.Rtcp

variable {b : Buffer} {p q : ℕ}

theorem blockLength_pos (b : Buffer) (p : ℕ) : 0 < b.blockLength p := by
  unfold Buffer.blockLength
  omega

theorem Boundary.exists_iterate (h : Boundary b p) :
    ∃ n, (fun p => p + b.blockLength p)^[n] 0 = p := by
  induction h with
  | zero => exact ⟨0, rfl⟩
  | next _ _ ih =>
    obtain ⟨n, hn⟩ := ih
    refine ⟨n + 1, ?_⟩
    rw [Function.iterate_succ_apply', hn]

theorem Boundary.add_le (hp : Boundary b p) (hq : Boundary b q) (hlt : p < q) :
    p + b.blockLength p ≤ q := by
  obtain ⟨m, hm⟩ := hp.exists_iterate
  obtain ⟨n, hn⟩ := hq.exists_iterate
  have hmono : StrictMono fun n => (fun p => p + b.blockLength p)^[n] 0 := by
    refine strictMono_nat_of_lt_succ fun n => ?_
    rw [Function.iterate_succ_apply']
    exact Nat.lt_add_of_pos_right (blockLength_pos b _)
  subst hm hn
  have hsucc := hmono.monotone (Nat.succ_le_of_lt (hmono.lt_iff_lt.mp hlt))
  rw [Nat.succ_eq_add_one, Function.iterate_succ_apply'] at hsucc
  exact hsucc

/-- Feedback without items whose block is longer than that, or a block whose
length does not fit in 16 bits. -/
def EndMissed (b : Buffer) (p : ℕ) : Prop :=
  (b.commonHeader p).IsEmptyFeedback ∧
      12 < (b.commonHeader p).lengthInOctets.toNat ∨
    2 ^ 16 ≤ b.blockLength p

instance (b : Buffer) (p : ℕ) : Decidable (EndMissed b p) :=
  inferInstanceAs (Decidable (_ ∨ _))

/-- The boundaries up to which every block is interpreted and left at its end. -/
inductive Reached (b : Buffer) : ℕ → Prop where
  | zero : Reached b 0
  | next {p : ℕ} (h : Reached b p) (hp : Interpretable b p)
      (hreport : ¬(b.commonHeader p).IsShortReport) (hend : ¬EndMissed b p) :
      Reached b (p + b.blockLength p)

/-- The parser goes on inside the block, and there it finds what looks like a
block. -/
def Strays (b : Buffer) (p : ℕ) : Prop :=
  EndMissed b p ∧ Interpretable b p ∧
    ∃ q, b.follow p = some q ∧ Interpretable b q

theorem follow_of_not_endMissed (hend : ¬EndMissed b p)
    (hreport : ¬(b.commonHeader p).IsShortReport) :
    b.follow p = some (p + b.blockLength p) := by
  have hlength := lengthInOctets_toNat b p
  rw [EndMissed, not_or, not_and, Nat.not_le] at hend
  rw [Nat.mod_eq_of_lt hend.2] at hlength
  rw [Buffer.follow, CommonHeader.follow, if_neg hreport]
  split
  · rename_i hempty
    have hle := hend.1 hempty.1
    have heq : b.blockLength p = 12 := by omega
    rw [heq]
  · rw [hlength]

theorem follow_lt_of_endMissed (hend : EndMissed b p) (hp : Interpretable b p)
    (hq : b.follow p = some q) : p < q ∧ q < p + b.blockLength p := by
  obtain ⟨hfour, -, -⟩ := hp.length
  have hlength := lengthInOctets_toNat b p
  have hmod := Nat.mod_le (b.blockLength p) (2 ^ 16)
  rw [Buffer.follow, CommonHeader.follow] at hq
  split at hq
  · cases hq
  · split at hq
    · rename_i hempty
      rw [Option.some_inj] at hq
      refine ⟨by omega, ?_⟩
      rcases hend with ⟨-, hlong⟩ | hlong
      · omega
      · omega
    · rename_i hempty
      rw [Option.some_inj] at hq
      refine ⟨by omega, ?_⟩
      rcases hend with ⟨hfeedback, hlong⟩ | hlong
      · exact absurd ⟨hfeedback, hlong.le⟩ hempty
      · have hlt := Nat.mod_lt (b.blockLength p) (Nat.two_pow_pos 16)
        omega

theorem Reached.boundary (h : Reached b p) : Boundary b p := by
  induction h with
  | zero => exact .zero
  | next _ hp _ _ ih => exact .next ih hp.length.2.2

theorem Reached.met (h : Reached b p) : Met b p := by
  induction h with
  | zero => exact .zero
  | next _ hp hreport hend ih =>
    exact .follow ih hp (follow_of_not_endMissed hend hreport)

theorem Met.reached (hstrays : ∀ p, Reached b p → ¬Strays b p) (h : Met b p)
    (hp : Interpretable b p) : Reached b p := by
  induction h with
  | zero => exact .zero
  | @follow p q _ hp' hq ih =>
    have hreached := ih hp'
    by_cases hend : EndMissed b p
    · exact absurd ⟨hend, hp', q, hq, hp⟩ (hstrays p hreached)
    · have hreport : ¬(b.commonHeader p).IsShortReport := by
        intro hshort
        rw [Buffer.follow, CommonHeader.follow, if_pos hshort] at hq
        cases hq
      rw [follow_of_not_endMissed hend hreport, Option.some_inj] at hq
      subst hq
      exact .next hreached hp' hreport hend

/-- The iteration ends, reads only inside the current block, and interprets only
blocks that start at a boundary. -/
def InStep (b : Buffer) (rtcpReducedSizeEnable : Bool) : Prop :=
  (∃ n, (Parser.parseAll b n (Parser.new b rtcpReducedSizeEnable)).isSome) ∧
    ∀ n r, Parser.parseAll b n (Parser.new b rtcpReducedSizeEnable) = some r →
      AccessesOk b r.2.accesses ∧ ∀ p ∈ r.2.blocks, Boundary b p

/-- The parser stays in step exactly when no block that it reaches strays. -/
theorem inStep_iff {b : Buffer} {rtcpReducedSizeEnable : Bool}
    (h : Parser.validate b rtcpReducedSizeEnable = true) :
    InStep b rtcpReducedSizeEnable ↔ ∀ p, Reached b p → ¬Strays b p := by
  have hrunning := Parser.running_new h
  have hfuel := Nat.lt_succ_self
    (3 * (b.size - (Parser.new b rtcpReducedSizeEnable).ptr) + 4)
  obtain ⟨r, hr⟩ := Parser.parseAll_isSome hrunning hfuel
  constructor
  · rintro ⟨-, hall⟩ p hreached ⟨hend, hp, q, hfollow, hq⟩
    have hmet : Met b q := .follow hreached.met hp hfollow
    have hmem := ((Parser.parseAll_spec hrunning hr).blocks q).mpr ⟨hmet, hq⟩
    have hboundary := (hall _ r hr).2 q hmem
    obtain ⟨hlt, hinside⟩ := follow_lt_of_endMissed hend hp hfollow
    have hle := hreached.boundary.add_le hboundary hlt
    omega
  · intro hstrays
    refine ⟨⟨_, Option.isSome_iff_exists.mpr ⟨r, hr⟩⟩, fun n r hr => ?_⟩
    have hfinished := Parser.parseAll_spec hrunning hr
    refine ⟨hfinished.accesses, fun p hmem => ?_⟩
    obtain ⟨hmet, hp⟩ := (hfinished.blocks p).mp hmem
    exact (Met.reached hstrays hmet hp).boundary

def sampleCompound : Buffer :=
  .ofList [0x80, 0xC9, 0, 1, 0, 0, 0, 1, 0x81, 0xCE, 0, 2, 0, 0, 0, 1, 0, 0, 0, 2]

theorem reached_sampleCompound (h : Reached sampleCompound p) :
    p = 0 ∨ p = 8 ∨ p = 20 := by
  induction h with
  | zero => exact Or.inl rfl
  | next _ hp _ _ ih =>
    rcases ih with rfl | rfl | rfl
    · decide
    · decide
    · exact absurd hp (by decide)

theorem inStep_sampleCompound : InStep sampleCompound false := by
  refine (inStep_iff (by decide)).mpr fun p hp hstrays => ?_
  have hend : ¬EndMissed sampleCompound 0 ∧ ¬EndMissed sampleCompound 8 ∧
      ¬EndMissed sampleCompound 20 := by decide
  rcases reached_sampleCompound hp with rfl | rfl | rfl
  · exact hend.1 hstrays.1
  · exact hend.2.1 hstrays.1
  · exact hend.2.2 hstrays.1

/-- A receiver report, and a PLI with twelve more bytes, the first eight of which
look like a receiver report. -/
def strayingCompound : Buffer :=
  .ofList [0x80, 0xC9, 0, 1, 0, 0, 0, 1, 0x81, 0xCE, 0, 5, 0, 0, 0, 1, 0, 0, 0, 2,
    0x80, 0xC9, 0, 1, 0, 0, 0, 7, 0, 0, 0, 0]

theorem not_boundary_strayingCompound : ¬Boundary strayingCompound 20 := by
  have hsplit : ∀ p, Boundary strayingCompound p → p = 0 ∨ p = 8 ∨ p = 32 := by
    intro p h
    induction h with
    | zero => exact Or.inl rfl
    | next _ hp ih =>
      rcases ih with rfl | rfl | rfl
      · decide
      · decide
      · exact absurd hp (by decide)
  intro h
  rcases hsplit 20 h with heq | heq | heq <;> cases heq

/-- The bytes behind a PLI are read as a block. -/
theorem not_forall_inStep : ¬∀ (b : Buffer) (rtcpReducedSizeEnable : Bool),
    Parser.validate b rtcpReducedSizeEnable = true →
      InStep b rtcpReducedSizeEnable := by
  intro h
  have hrun : (Parser.parseAll strayingCompound 8
      (Parser.new strayingCompound false)).map (fun r => r.2.blocks) =
        some [0, 8, 20] := by decide +kernel
  obtain ⟨r, hr, hblocks⟩ := Option.map_eq_some_iff.mp hrun
  have hstep := (h strayingCompound false (by decide)).2 8 r hr
  refine not_boundary_strayingCompound (hstep.2 20 ?_)
  rw [hblocks]
  decide

end WebrtcWinXp.Rtcp
