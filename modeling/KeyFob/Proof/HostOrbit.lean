import KeyFob.Lib.PrimeModulus
import KeyFob.Proof.Deployed
import KeyFob.Proof.Period
import Mathlib.NumberTheory.LucasPrimality
import Mathlib.Tactic.NormNum.Prime
import Mathlib.Tactic.ReduceModChar

/-!
# The codes of the host build

With 64-bit arithmetic the default modulus is twice a prime, the multiplier has order
519017997 modulo that prime, and all codes after the first are odd. So from every seed
but those that stay where they are the codes repeat after 519017997 presses
(`host_code_eq_iff`): the generator that the tests run on does what the deployed one
does for 28 presses only.
-/

namespace KeyFob

open RollingCode Function

variable {s : ULong 64} {i j n len : ℕ}

/-! ## The numbers -/

theorem order_factors {q : ℕ} (hq : q.Prime) (hdvd : q ∣ 519017997) :
    q = 3 ∨ q = 97 ∨ q = 109 ∨ q = 16363 := by
  have hfactors : q ∣ 3 * 97 * 109 * 16363 := hdvd
  rw [hq.dvd_mul, hq.dvd_mul, hq.dvd_mul, Nat.prime_dvd_prime_iff_eq hq (by norm_num),
    Nat.prime_dvd_prime_iff_eq hq (by norm_num), Nat.prime_dvd_prime_iff_eq hq (by norm_num),
    Nat.prime_dvd_prime_iff_eq hq (by norm_num)] at hfactors
  omega

/-- Half the modulus is prime: 6 generates all residues. -/
theorem half_modulus_prime : Nat.Prime 2076071989 := by
  apply lucas_primality 2076071989 6
  · reduce_mod_char
  · intro q hq hdvd
    have hfactors : q ∣ 2 ^ 2 * 519017997 := hdvd
    rcases hq.dvd_mul.1 hfactors with h2 | hodd
    · obtain rfl := (Nat.prime_dvd_prime_iff_eq hq Nat.prime_two).1 (hq.dvd_of_dvd_pow h2)
      norm_num
      reduce_mod_char
      decide
    · rcases order_factors hq hodd with rfl | rfl | rfl | rfl
      all_goals
        norm_num
        reduce_mod_char
        decide

/-- The order of the multiplier. -/
theorem order_multiplier : orderOf ((9554 : ℕ) : ZMod 2076071989) = 519017997 := by
  apply orderOf_eq_of_pow_and_pow_div_prime (by decide)
  · rw [Nat.cast_ofNat]
    reduce_mod_char
  · intro q hq hdvd
    rw [Nat.cast_ofNat]
    rcases order_factors hq hdvd with rfl | rfl | rfl | rfl
    all_goals
      norm_num
      reduce_mod_char
      decide

/-! ## The orbit -/

/-- How many codes come up before the cycle: the seed, if it is even or not reduced. -/
def hostTail (s : ULong 64) : ℕ := if s.toNat % 2 = 1 ∧ s.toNat < 4152143978 then 0 else 1

/-- The length of the cycle. Modulo half the modulus one seed stays where it is. -/
def hostPeriod (s : ULong 64) : ℕ :=
  if (9554 * s.toNat + 5903) % 2076071989 = s.toNat % 2076071989 then 1 else 519017997

theorem host_code (hs : s.toNat < 2 ^ 32) (n : ℕ) : ((ofSeed s).code n).toNat =
    (Lcg.step 4152143978 9554 5903)^[n] s.toNat := by
  rw [code_64_default hs, defaultRecurrence, recurrence_eq]

/-- From the first step on the codes are reduced and odd. -/
theorem host_code_odd (hs : s.toNat < 2 ^ 32) (hn : hostTail s ≤ n) :
    ((ofSeed s).code n).toNat % 2 = 1 ∧ ((ofSeed s).code n).toNat < 4152143978 := by
  cases n with
  | zero =>
    unfold hostTail at hn
    split at hn
    · rename_i hstart
      exact hstart
    · omega
  | succ n =>
    rw [host_code hs]
    refine ⟨?_, ?_⟩
    · rw [Lcg.iterate_mod (by decide) (by decide) (by omega)]
    · rw [iterate_succ_apply']
      exact Lcg.step_lt (by decide) _

/-- Odd numbers below the modulus are known modulo half of it. -/
theorem eq_iff_half_modEq {x y : ℕ} (hx : x % 2 = 1) (hxm : x < 4152143978) (hy : y % 2 = 1)
    (hym : y < 4152143978) : x = y ↔ x ≡ y [MOD 2076071989] := by
  refine ⟨fun h => h ▸ Nat.ModEq.refl x, ?_⟩
  intro h
  have h2 : x ≡ y [MOD 2] := hx.trans hy.symm
  have hcop : Nat.Coprime 2 2076071989 := by decide
  have hboth : x ≡ y [MOD 2 * 2076071989] := (Nat.modEq_and_modEq_iff_modEq_mul hcop).1 ⟨h2, h⟩
  exact hboth.eq_of_lt_of_lt hxm hym

/-- **Modulo half the modulus** the codes repeat with the period. -/
theorem host_code_modEq_iff (hs : s.toNat < 2 ^ 32) :
    ((ofSeed s).code i).toNat ≡ ((ofSeed s).code j).toNat [MOD 2076071989] ↔
      i ≡ j [MOD hostPeriod s] := by
  have hdvd : 2076071989 ∣ 4152143978 := by decide
  have hmod : ∀ n, (Lcg.step 4152143978 9554 5903)^[n] s.toNat ≡
      (Lcg.step 2076071989 9554 5903)^[n] s.toNat [MOD 2076071989] :=
    Lcg.iterate_modEq_of_dvd hdvd rfl
  have hiff := Lcg.iterate_modEq_iff (c := 5903) (x := s.toNat) (i := i) (j := j)
    half_modulus_prime (a := 9554) (by decide) (by decide)
  rw [order_multiplier] at hiff
  rw [host_code hs, host_code hs]
  have hstates : (Lcg.step 4152143978 9554 5903)^[i] s.toNat ≡
      (Lcg.step 4152143978 9554 5903)^[j] s.toNat [MOD 2076071989] ↔
      9554 * s.toNat + 5903 ≡ s.toNat [MOD 2076071989] ∨ i ≡ j [MOD 519017997] := by
    rw [← hiff]
    exact ⟨fun h => (hmod i).symm.trans (h.trans (hmod j)),
      fun h => (hmod i).trans (h.trans (hmod j).symm)⟩
  rw [hstates]
  unfold hostPeriod
  by_cases hfix : (9554 * s.toNat + 5903) % 2076071989 = s.toNat % 2076071989
  · rw [if_pos hfix]
    exact iff_of_true (Or.inl hfix) (Nat.modEq_one)
  · rw [if_neg hfix]
    exact or_iff_right hfix

/-- When two codes of the host build are the same. -/
theorem host_code_eq_iff (hs : s.toNat < 2 ^ 32) (i j : ℕ) :
    (ofSeed s).code i = (ofSeed s).code j ↔
      i = j ∨ (hostTail s ≤ i ∧ hostTail s ≤ j ∧ i ≡ j [MOD hostPeriod s]) := by
  have hle : hostTail s ≤ 1 := by
    unfold hostTail
    split <;> omega
  -- the seed is not among the later codes if it is before the cycle
  have hstart : ∀ n, hostTail s = 1 → 1 ≤ n → (ofSeed s).code 0 ≠ (ofSeed s).code n := by
    intro n htail hn heq
    have hodd := host_code_odd hs (n := n) (by omega)
    rw [← heq, code_zero] at hodd
    have hseed : s.toNat % 2 = 1 ∧ s.toNat < 4152143978 := hodd
    unfold hostTail at htail
    rw [if_pos hseed] at htail
    omega
  by_cases hin : hostTail s ≤ i ∧ hostTail s ≤ j
  · obtain ⟨hi, hj⟩ := hin
    obtain ⟨hoddi, hlti⟩ := host_code_odd hs hi
    obtain ⟨hoddj, hltj⟩ := host_code_odd hs hj
    have hcode : (ofSeed s).code i = (ofSeed s).code j ↔
        ((ofSeed s).code i).toNat ≡ ((ofSeed s).code j).toNat [MOD 2076071989] := by
      rw [← BitVec.toNat_inj]
      exact eq_iff_half_modEq hoddi hlti hoddj hltj
    rw [hcode, host_code_modEq_iff hs]
    refine ⟨fun h => Or.inr ⟨hi, hj, h⟩, ?_⟩
    rintro (rfl | ⟨-, -, h⟩)
    · rfl
    · exact h
  · refine ⟨?_, ?_⟩
    · intro heq
      left
      by_contra hne
      rcases Nat.eq_zero_or_pos i with rfl | hi
      · exact hstart j (by omega) (by omega) heq
      · obtain rfl : j = 0 := by omega
        exact hstart i (by omega) hi heq.symm
    · rintro (rfl | ⟨hi, hj, -⟩)
      · rfl
      · exact absurd ⟨hi, hj⟩ hin

theorem host_rho (hs : s.toNat < 2 ^ 32) :
    Orbit.Rho (ofSeed s : RollingCode 64).lcg s (hostTail s) (hostPeriod s) := by
  apply Orbit.Rho.of_iff
  · unfold hostPeriod
    split <;> decide
  · intro i j
    have hiff := host_code_eq_iff hs i j
    rw [code_eq, code_eq] at hiff
    exact hiff

/-- **The orbit of the host build.** For every 32-bit seed: the seed itself comes back only
if it is odd and below the modulus, and all other codes repeat after 519017997 presses,
or after each one if the seed stays where it is modulo half the modulus. So the codes of
every shorter window are distinct. -/
theorem host_orbit (s : ULong 64) (hs : s.toNat < 2 ^ 32) :
    (∀ i j, (ofSeed s).code i = (ofSeed s).code j ↔
      i = j ∨ (hostTail s ≤ i ∧ hostTail s ≤ j ∧ i ≡ j [MOD hostPeriod s])) ∧
    ∀ n len, DistinctCodes (ofSeed s : RollingCode 64) n len ↔
      len < hostPeriod s ∨ n + len < hostTail s + hostPeriod s := by
  refine ⟨host_code_eq_iff hs, ?_⟩
  intro n len
  rw [distinctCodes_iff_orbit]
  exact (host_rho hs).distinct_iff

/-- From the seed of the sketches the first code to come back is the seed, after 519017997
presses. -/
theorem host_orbit_sketches :
    DistinctCodes (ofSeed 237461 : RollingCode 64) 0 519017996 ∧
      (ofSeed 237461 : RollingCode 64).code 0 = (ofSeed 237461).code 519017997 := by
  obtain ⟨hcodes, hdistinct⟩ := host_orbit 237461 (by decide)
  refine ⟨?_, ?_⟩
  · rw [hdistinct]
    left
    decide
  · rw [hcodes]
    right
    decide

end KeyFob
