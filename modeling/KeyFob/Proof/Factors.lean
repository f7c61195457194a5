import Mathlib.Algebra.Order.Ring.Nat
import Mathlib.Data.Finset.Lattice.Basic
import Mathlib.Data.Nat.PrimeFin
import KeyFob.Spec.CalculateMCA

/-!
# The two number functions of the parameter script

* `hcf_eq_gcd`: `hcf` is the greatest common divisor.
* `divideOut_cases`: how a `while` loop of the factoriser ends.
* `forFactors_eq`: the `for` loop, from any odd factor on. Its invariant: the remaining
  number has no prime factor below the one tried next, and is below the end of the range.
* `prime_divisors`: the factoriser returns the prime divisors.
-/

namespace KeyFob.CalculateMCA

open Finset

variable {fuel factor N k x y : ℕ}

/-! ## `hcf` -/

/-- The loop has the greatest common divisor up to the last number tried. -/
theorem hcf_loop (x y : ℕ) : ∀ k,
    let h := (List.range' 1 k).foldl (fun h i => if x % i = 0 ∧ y % i = 0 then i else h) 0
    (h = 0 ∨ h ∣ x ∧ h ∣ y) ∧ ∀ i, i ≤ k → i ∣ x → i ∣ y → i ≤ h := by
  intro k
  induction k with
  | zero => exact ⟨Or.inl rfl, fun i hi _ _ => hi⟩
  | succ k ih =>
    obtain ⟨hdvd, hmax⟩ := ih
    rw [List.range'_1_concat, List.foldl_append, List.foldl_cons, List.foldl_nil]
    split_ifs with hboth
    · obtain ⟨hx, hy⟩ := hboth
      exact ⟨Or.inr ⟨Nat.dvd_of_mod_eq_zero hx, Nat.dvd_of_mod_eq_zero hy⟩,
        fun i hi _ _ => by omega⟩
    · refine ⟨hdvd, ?_⟩
      intro i hi hx hy
      have hne : i ≠ 1 + k := by
        rintro rfl
        exact hboth ⟨Nat.mod_eq_zero_of_dvd hx, Nat.mod_eq_zero_of_dvd hy⟩
      exact hmax i (by omega) hx hy

theorem hcf_eq_gcd (hx : 0 < x) (hy : 0 < y) : hcf x y = Nat.gcd x y := by
  have hrange : pyRange 1 ((if x > y then y else x) + 1) 1 =
      List.range' 1 (if x > y then y else x) := by
    simp only [pyRange, Nat.add_sub_cancel, Nat.div_one]
  obtain ⟨hdvd, hmax⟩ := hcf_loop x y (if x > y then y else x)
  rw [hcf, hrange]
  have hgcd : 0 < Nat.gcd x y := Nat.gcd_pos_of_pos_left y hx
  have hlx : Nat.gcd x y ≤ x := Nat.gcd_le_left y hx
  have hly : Nat.gcd x y ≤ y := Nat.gcd_le_right x hy
  have hle := hmax (Nat.gcd x y) (by split_ifs <;> omega) (Nat.gcd_dvd_left x y)
    (Nat.gcd_dvd_right x y)
  rcases hdvd with hzero | ⟨hhx, hhy⟩
  · omega
  · exact le_antisymm (Nat.le_of_dvd hgcd (Nat.dvd_gcd hhx hhy)) hle

/-! ## The `while` loop -/

/-- **The `while` loop** for a prime: either it returns, and the prime was the only one,
or it leaves the part of `N` with the other primes. -/
theorem divideOut_cases (hp : factor.Prime) : ∀ fuel N, 2 ≤ N → N ≤ fuel →
    (divideOut factor fuel N = .returned ∧ N.primeFactors = {factor}) ∨
      ∃ N', divideOut factor fuel N = .left N' ∧ 2 ≤ N' ∧ N' ≤ N ∧
        N'.primeFactors = N.primeFactors.erase factor := by
  intro fuel
  induction fuel with
  | zero =>
    intro N hN hfuel
    omega
  | succ fuel ih =>
    intro N hN hfuel
    rw [divideOut]
    by_cases hdvd : N % factor = 0
    · obtain ⟨M, rfl⟩ := Nat.dvd_of_mod_eq_zero hdvd
      rw [if_pos hdvd, Nat.mul_div_cancel_left M hp.pos]
      by_cases hone : M = 1
      · left
        rw [hone, if_pos rfl, mul_one]
        exact ⟨rfl, hp.primeFactors⟩
      · have hM : 2 ≤ M := by
          rcases Nat.eq_zero_or_pos M with rfl | hpos
          · omega
          · omega
        have hlt : 2 * M ≤ factor * M := Nat.mul_le_mul_right M hp.two_le
        have hprimes : (factor * M).primeFactors = insert factor M.primeFactors := by
          rw [Nat.primeFactors_mul hp.ne_zero (by omega), hp.primeFactors, ← Finset.insert_eq]
        rw [if_neg hone, hprimes]
        rcases ih M hM (by omega) with ⟨hret, hM'⟩ | ⟨N', hleft, hN', hle, hM'⟩
        · left
          rw [hM', Finset.insert_eq_of_mem (Finset.mem_singleton_self factor)]
          exact ⟨hret, rfl⟩
        · right
          have herase : (insert factor M.primeFactors).erase factor = M.primeFactors.erase factor := by
            ext p
            simp only [Finset.mem_erase, Finset.mem_insert]
            tauto
          exact ⟨N', hleft, hN', by omega, hM'.trans herase.symm⟩
    · right
      have hnot : factor ∉ N.primeFactors := by
        intro hmem
        exact hdvd (Nat.mod_eq_zero_of_dvd (Nat.dvd_of_mem_primeFactors hmem))
      rw [if_neg hdvd]
      exact ⟨N, rfl, hN, le_rfl, (Finset.erase_eq_of_notMem hnot).symm⟩

/-! ## The `for` loop -/

/-- The least number above 1 that divides `N` is prime. -/
theorem prime_of_least (hf : 2 ≤ factor) (hdvd : factor ∣ N)
    (hleast : ∀ p, p.Prime → p ∣ N → factor ≤ p) (hN : 2 ≤ N) : factor.Prime := by
  have hmin : N.minFac = factor := by
    apply le_antisymm
    · exact Nat.minFac_le_of_dvd hf hdvd
    · exact hleast _ (Nat.minFac_prime (by omega)) (Nat.minFac_dvd N)
  rw [← hmin]
  exact Nat.minFac_prime (by omega)

/-- With `factor` tried, the next odd number is the bound. -/
theorem next_factor (hodd : factor % 2 = 1) (hf : 3 ≤ factor) {p : ℕ} (hp : p.Prime)
    (hle : factor ≤ p) (hne : p ≠ factor) : factor + 2 ≤ p := by
  have hpodd : p % 2 = 1 := by
    rcases hp.eq_two_or_odd with h | h
    · omega
    · exact h
  omega

/-- **The `for` loop** adds the prime factors of the remaining number. -/
theorem forFactors_eq : ∀ k factor N (s : Finset ℕ), factor % 2 = 1 → 3 ≤ factor →
    2 ≤ N → N ≤ fuel → (∀ p, p.Prime → p ∣ N → factor ≤ p) → N < factor + 2 * k →
    forFactors fuel (List.range' factor k 2) N s = .returned (s ∪ N.primeFactors) := by
  intro k
  induction k with
  | zero =>
    -- the range does not end before the last prime
    intro factor N s hodd hf hN hfuel hleast hend
    have hle := hleast _ (Nat.minFac_prime (by omega)) (Nat.minFac_dvd N)
    have hmin := Nat.minFac_le (n := N) (by omega)
    omega
  | succ k ih =>
    intro factor N s hodd hf hN hfuel hleast hend
    rw [List.range'_succ, forFactors]
    by_cases hdvd : N % factor = 0
    · have hdvd' := Nat.dvd_of_mod_eq_zero hdvd
      have hp : factor.Prime := prime_of_least (by omega) hdvd' hleast hN
      have hmem : factor ∈ N.primeFactors := Nat.mem_primeFactors.2 ⟨hp, hdvd', by omega⟩
      rw [if_pos hdvd]
      rcases divideOut_cases hp fuel N hN hfuel with ⟨hret, hone⟩ | ⟨N', hleft, hN', hle, herase⟩
      · rw [hret, hone, Finset.union_comm, ← Finset.insert_eq]
      · have hleast' : ∀ p, p.Prime → p ∣ N' → factor + 2 ≤ p := by
          intro p hpp hpN
          have hpmem : p ∈ N.primeFactors.erase factor := by
            rw [← herase]
            exact Nat.mem_primeFactors.2 ⟨hpp, hpN, by omega⟩
          obtain ⟨hne, hpmem⟩ := Finset.mem_erase.1 hpmem
          exact next_factor hodd hf hpp (hleast p hpp (Nat.dvd_of_mem_primeFactors hpmem)) hne
        have hset : insert factor s ∪ N'.primeFactors = s ∪ N.primeFactors := by
          rw [herase, Finset.insert_union, ← Finset.union_insert, Finset.insert_erase hmem]
        rw [hleft]
        exact (ih (factor + 2) N' _ (by omega) (by omega) hN' (by omega) hleast' (by omega)).trans
          (congrArg Call.returned hset)
    · rw [if_neg hdvd]
      apply ih (factor + 2) N s (by omega) (by omega) hN hfuel _ (by omega)
      intro p hpp hpN
      have hne : p ≠ factor := by
        rintro rfl
        exact hdvd (Nat.mod_eq_zero_of_dvd hpN)
      exact next_factor hodd hf hpp (hleast p hpp hpN) hne

/-! ## The factoriser -/

theorem calculate_prime_factors_eq (hN : 2 ≤ N) (hfuel : N ≤ fuel) :
    calculate_prime_factors fuel N = .returned N.primeFactors := by
  simp only [calculate_prime_factors]
  rcases divideOut_cases Nat.prime_two fuel N hN hfuel with
    ⟨hret, hone⟩ | ⟨N', hleft, hN', hle, herase⟩
  · have htwo : 2 ∣ N := Nat.dvd_of_mem_primeFactors (hone ▸ Finset.mem_singleton_self 2)
    rw [hret, hone, if_pos (Nat.mod_eq_zero_of_dvd htwo)]
  · have hleast : ∀ p, p.Prime → p ∣ N' → 3 ≤ p := by
      intro p hpp hpN
      have hpmem : p ∈ N.primeFactors.erase 2 := by
        rw [← herase]
        exact Nat.mem_primeFactors.2 ⟨hpp, hpN, by omega⟩
      have hne := (Finset.mem_erase.1 hpmem).1
      have hge := hpp.two_le
      omega
    have hset : (if N % 2 = 0 then ({2} : Finset ℕ) else ∅) ∪ N'.primeFactors =
        N.primeFactors := by
      rw [herase]
      split_ifs with heven
      · have hmem : 2 ∈ N.primeFactors :=
          Nat.mem_primeFactors.2 ⟨Nat.prime_two, Nat.dvd_of_mod_eq_zero heven, by omega⟩
        rw [← Finset.insert_eq, Finset.insert_erase hmem]
      · have hnot : 2 ∉ N.primeFactors := by
          intro hmem
          exact heven (Nat.mod_eq_zero_of_dvd (Nat.dvd_of_mem_primeFactors hmem))
        rw [Finset.empty_union, Finset.erase_eq_of_notMem hnot]
    rw [hleft]
    exact (forFactors_eq _ 3 N' _ rfl le_rfl hN' (by omega) hleast (by omega)).trans
      (congrArg Call.returned hset)

/-- **Factoriser correctness.** From 2 on, and with at least `N` passes for each `while`
loop, the factoriser comes to a `return`, with the set of the prime divisors. -/
theorem prime_divisors (hN : 2 ≤ N) :
    ∃ s, (∀ fuel, N ≤ fuel → calculate_prime_factors fuel N = .returned s) ∧
      ∀ p, p ∈ s ↔ p.Prime ∧ p ∣ N := by
  refine ⟨N.primeFactors, fun fuel hfuel => calculate_prime_factors_eq hN hfuel, ?_⟩
  intro p
  rw [Nat.mem_primeFactors]
  refine ⟨?_, ?_⟩
  · rintro ⟨hp, hdvd, -⟩
    exact ⟨hp, hdvd⟩
  · rintro ⟨hp, hdvd⟩
    exact ⟨hp, hdvd, by omega⟩

theorem prime_divisors_360 :
    ∃ s, (∀ fuel, 360 ≤ fuel → calculate_prime_factors fuel 360 = .returned s) ∧
      ∀ p, p ∈ s ↔ p.Prime ∧ p ∣ 360 :=
  prime_divisors (by omega)

end KeyFob.CalculateMCA
