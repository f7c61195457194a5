import KeyFob.Lib.Orbit
import KeyFob.Proof.Position

/-!
# The codes of the deployed generator

On the ESP32 the product `a * seed` is cut to 32 bits before the reduction by `m`.
From the deployed seed the codes run through 29 values and then repeat every 17
presses (`deployed_rho`), where the header promises a period of `m`.
-/

namespace KeyFob

open RollingCode

/-- **The deployed orbit**: 29 codes, then a cycle of 17. -/
theorem deployed_rho : Orbit.Rho deployed.lcg deployed.seed 29 17 where
  per_pos := by decide
  back := by decide +kernel
  inj := by decide +kernel

/-- When two presses transmit the same code. -/
theorem deployed_code_eq_iff {i j : ℕ} : deployed.code i = deployed.code j ↔
    i = j ∨ (29 ≤ i ∧ 29 ≤ j ∧ i ≡ j [MOD 17]) := by
  rw [code_eq, code_eq, deployed_rho.iterate_eq_iff]

/-- A code of the tail is carried by one index only. -/
theorem deployed_code_tail {i j : ℕ} (hj : j < 29) :
    deployed.code i = deployed.code j ↔ i = j := by
  rw [deployed_code_eq_iff]; omega

/-- **The receiver's window always contains the whole cycle**, wherever it stands. -/
theorem deployed_cycle_inWindow (p : ℕ) {l : ℕ} (hl : 29 ≤ l) :
    (deployed.moveTo (deployed.code p)).InWindow (deployed.code l) := by
  obtain ⟨k, hk, heq⟩ := deployed_rho.window_meets_cycle p (W := SEARCH_LIMIT) hl (by decide)
  rw [inWindow_moveTo]
  exact ⟨k, hk, by rw [code_eq, code_eq, heq]⟩

/-- **Which codes the search reaches** from code `p`: those of the presses that are not
before `p`, and all from press 29 on. -/
theorem deployed_reach_iff (p l : ℕ) :
    (∃ k, k ≤ SEARCH_LIMIT ∧ deployed.code (p + k) = deployed.code l) ↔ p ≤ l ∨ 29 ≤ l := by
  refine ⟨?_, ?_⟩
  · rintro ⟨k, hk, heq⟩
    rw [deployed_code_eq_iff] at heq
    omega
  · intro hl
    rcases Nat.lt_or_ge l 29 with htail | hlate
    · unfold SEARCH_LIMIT
      exact ⟨l - p, by omega, by rw [Nat.add_sub_cancel' (by omega)]⟩
    · exact (inWindow_moveTo p _).1 (deployed_cycle_inWindow p hlate)

theorem distinctCodes_iff_orbit {w : ℕ} {rc : RollingCode w} {n len : ℕ} :
    DistinctCodes rc n len ↔ Orbit.Distinct rc.lcg rc.seed n len := by
  simp only [DistinctCodes, Orbit.Distinct, code_eq]

theorem deployed_distinctCodes_iff {n len : ℕ} :
    DistinctCodes deployed n len ↔ len < 17 ∨ n + len < 46 := by
  rw [distinctCodes_iff_orbit, deployed_rho.distinct_iff]

/-- **The deployed codes repeat.** No window of 101 consecutive codes is without
repetition; a window is without repetition exactly when it has at most 17 codes or
ends before code 46. In particular two consecutive presses never send the same code. -/
theorem deployed_distinct_iff (n : ℕ) : ¬ DistinctCodes deployed n 100 ∧
    (∀ len, DistinctCodes deployed n len ↔ len < 17 ∨ n + len < 46) ∧
    deployed.code n ≠ deployed.code (n + 1) := by
  refine ⟨?_, fun len => deployed_distinctCodes_iff, ?_⟩
  · rw [deployed_distinctCodes_iff]
    omega
  · intro heq
    have hd : DistinctCodes deployed n 1 := deployed_distinctCodes_iff.2 (Or.inl (by decide))
    have := hd 0 (by decide) 1 (by decide) heq
    omega

/-- Presses 29 and 46 transmit the same code. -/
theorem deployed_press_29_46 : deployed.code 29 = deployed.code 46 ∧
    ¬ ∀ n, DistinctCodes deployed n 100 := by
  have heq : deployed.code 29 = deployed.code 46 := by decide +kernel
  refine ⟨heq, fun h => ?_⟩
  have := h 29 0 (by decide) 17 (by decide) heq
  omega

end KeyFob
