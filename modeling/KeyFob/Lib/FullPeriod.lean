import KeyFob.Lib.Lcg
import Mathlib.Algebra.Field.ZMod
import Mathlib.NumberTheory.Multiplicity

/-!
# When a linear congruential generator has full period

The generator `x ↦ (a * x + c) % m` runs through all values below `m` exactly if `c` is
coprime to `m`, `a` is 1 modulo every prime factor of `m`, and 1 modulo 4 if 4 divides
`m` (`fullPeriod_iff`).

* `dvd_of_dvd_geom_sum`: under the last two conditions `m` divides `1 + a + ... + a ^ (n - 1)`
  only if it divides `n`. By lifting exponents, one prime at a time.
* `dvd_of_iterate_eq`: so no state comes back before `m` steps.
* `FullPeriod.closed`: with full period no residues modulo a divisor of `m` are closed
  under the steps, other than all of them; so each condition is necessary.
-/

namespace Lcg

open Finset Function

variable {m a c x d p n : ℕ}

/-- **The conditions** on the parameters. -/
structure Conditions (m a c : ℕ) : Prop where
  coprime : Nat.Coprime c m
  primes : ∀ p, p.Prime → p ∣ m → a ≡ 1 [MOD p]
  four : 4 ∣ m → a ≡ 1 [MOD 4]

/-! ## Sums of powers -/

theorem geom_sum_modEq (ha : a ≡ 1 [MOD p]) (n : ℕ) : ∑ i ∈ range n, a ^ i ≡ n [MOD p] := by
  induction n with
  | zero => rfl
  | succ n ih =>
    have hpow : a ^ n ≡ 1 [MOD p] := by
      have h := ha.pow n
      rwa [one_pow] at h
    rw [sum_range_succ]
    exact ih.add hpow

/-- A sum of `p * n` powers, `p` at a time. -/
theorem geom_sum_mul_len (a p n : ℕ) : ∑ i ∈ range (p * n), a ^ i =
    (∑ i ∈ range p, a ^ i) * ∑ j ∈ range n, (a ^ p) ^ j := by
  induction n with
  | zero => rw [mul_zero, range_zero, sum_empty, sum_empty, mul_zero]
  | succ n ih =>
    have hlast : ∑ i ∈ range p, a ^ (p * n + i) = (∑ i ∈ range p, a ^ i) * (a ^ p) ^ n := by
      rw [sum_mul]
      apply sum_congr rfl
      intro i _
      rw [pow_add, pow_mul, mul_comm]
    rw [mul_add_one, sum_range_add, ih, hlast, sum_range_succ, mul_add]

theorem exists_of_modEq_one (hd : 1 < d) (ha : a ≡ 1 [MOD d]) : ∃ b, a = 1 + d * b := by
  have hone : a % d = 1 := by
    rw [ha, Nat.mod_eq_of_lt hd]
  have hsplit := Nat.mod_add_div a d
  rw [hone] at hsplit
  exact ⟨a / d, hsplit.symm⟩

/-- **The sum of `p` powers** has one factor `p` and not two. -/
theorem geom_sum_prime (hp : p.Prime) (ha : a ≡ 1 [MOD p]) (h4 : p = 2 → a ≡ 1 [MOD 4]) :
    ∃ u, ∑ i ∈ range p, a ^ i = p * u ∧ ¬ p ∣ u := by
  rcases hp.eq_two_or_odd' with rfl | hodd
  · obtain ⟨b, rfl⟩ := exists_of_modEq_one (by omega) (h4 rfl)
    refine ⟨1 + 2 * b, ?_, by omega⟩
    rw [sum_range_succ, sum_range_succ, range_zero, sum_empty, pow_zero, pow_one]
    omega
  · obtain ⟨b, rfl⟩ := exists_of_modEq_one hp.one_lt ha
    have hsum : ∑ i ∈ range p, (1 + p * b) ^ i ≡ 0 [MOD p] :=
      (geom_sum_modEq ha p).trans (Nat.modEq_zero_iff_dvd.2 dvd_rfl)
    obtain ⟨u, hu⟩ := Nat.modEq_zero_iff_dvd.1 hsum
    refine ⟨u, hu, ?_⟩
    rintro ⟨v, rfl⟩
    -- otherwise `p ^ 2` divides `p`
    have hsq := odd_sq_dvd_geom_sum₂_sub (1 : ℤ) b hodd
    have hcast : ∑ i ∈ range p, (1 + (p : ℤ) * b) ^ i * 1 ^ (p - 1 - i) = p ^ 2 * v := by
      have hcast' := congrArg (Nat.cast (R := ℤ)) hu
      push_cast at hcast'
      simp only [one_pow, mul_one]
      rw [hcast']
      ring
    rw [hcast, one_pow, mul_one, dvd_sub_right (dvd_mul_right _ _)] at hsq
    have hnat : p ^ 2 ∣ p := by exact_mod_cast hsq
    have hle := Nat.le_of_dvd hp.pos hnat
    have hlt := Nat.mul_lt_mul_of_lt_of_le hp.one_lt (le_refl p) hp.pos
    rw [one_mul, ← pow_two] at hlt
    omega

/-- **Lifting exponents.** A power of `p` that divides a sum of `n` powers divides `n`. -/
theorem pow_dvd_of_dvd_geom_sum (hp : p.Prime) : ∀ e a n, a ≡ 1 [MOD p] →
    (p = 2 → 2 ≤ e → a ≡ 1 [MOD 4]) → p ^ e ∣ ∑ i ∈ range n, a ^ i → p ^ e ∣ n := by
  intro e
  induction e with
  | zero =>
    intro a n _ _ _
    exact one_dvd n
  | succ e ih =>
    intro a n ha h4 hdvd
    have hpn : p ∣ n := by
      have hsum : p ∣ ∑ i ∈ range n, a ^ i := (dvd_pow_self p (by omega)).trans hdvd
      exact ((geom_sum_modEq ha n).dvd_iff dvd_rfl).1 hsum
    obtain ⟨k, rfl⟩ := hpn
    rcases Nat.eq_zero_or_pos e with rfl | he
    · rw [zero_add, pow_one]
      exact dvd_mul_right p k
    · have h4' : p = 2 → a ≡ 1 [MOD 4] := fun h => h4 h (by omega)
      obtain ⟨u, hu, hpu⟩ := geom_sum_prime hp ha h4'
      -- one factor `p` is that of the inner sum, the others are in the outer one
      rw [geom_sum_mul_len, hu, pow_succ', mul_assoc, Nat.mul_dvd_mul_iff_left hp.pos] at hdvd
      have hcop : Nat.Coprime (p ^ e) u := Nat.Coprime.pow_left e ((hp.coprime_iff_not_dvd).2 hpu)
      have hpow : ∀ q, a ≡ 1 [MOD q] → a ^ p ≡ 1 [MOD q] := by
        intro q hq
        have h := hq.pow p
        rwa [one_pow] at h
      have hk := ih (a ^ p) k (hpow p ha) (fun h _ => hpow 4 (h4' h)) (hcop.dvd_of_dvd_mul_left hdvd)
      rw [pow_succ']
      exact Nat.mul_dvd_mul_left p hk

/-- **Under the conditions** `m` divides a sum of `n` powers only if it divides `n`. -/
theorem dvd_of_dvd_geom_sum (hprimes : ∀ p, p.Prime → p ∣ m → a ≡ 1 [MOD p])
    (hfour : 4 ∣ m → a ≡ 1 [MOD 4]) (hdvd : m ∣ ∑ i ∈ range n, a ^ i) : m ∣ n := by
  rw [Nat.dvd_iff_prime_pow_dvd_dvd]
  intro p e hp hpe
  rcases Nat.eq_zero_or_pos e with rfl | he
  · exact one_dvd n
  · have hpm : p ∣ m := (dvd_pow_self p (by omega)).trans hpe
    apply pow_dvd_of_dvd_geom_sum hp e a n (hprimes p hp hpm)
    · rintro rfl he2
      have h4 : 2 ^ 2 ∣ m := (pow_dvd_pow 2 he2).trans hpe
      exact hfour h4
    · exact hpe.trans hdvd

/-! ## The period -/

theorem Conditions.one_le (h : Conditions m a c) (hm : 1 < m) : 1 ≤ a := by
  obtain ⟨p, hp, hpm⟩ := Nat.exists_prime_and_dvd (by omega : m ≠ 1)
  have ha := h.primes p hp hpm
  rcases Nat.eq_zero_or_pos a with rfl | hpos
  · have hone : 1 % p = 0 % p := ha.symm
    rw [Nat.mod_eq_of_lt hp.one_lt, Nat.zero_mod] at hone
    omega
  · exact hpos

/-- **No state comes back** before a multiple of `m` steps. -/
theorem dvd_of_iterate_eq (h : Conditions m a c) (hm0 : 0 < m)
    (hback : (step m a c)^[n] x ≡ x [MOD m]) :
    m ∣ n := by
  rcases Nat.lt_or_ge 1 m with hm | hm
  · obtain ⟨b, rfl⟩ : ∃ b, a = b + 1 := ⟨a - 1, by have := h.one_le hm; omega⟩
    have hclosed := (iterate_modEq m (b + 1) c x n).symm.trans hback
    have hpow : (b + 1) ^ n = (∑ i ∈ range n, (b + 1) ^ i) * b + 1 := (geom_sum_mul_add b n).symm
    -- what is left is `S * (b * x + c)`, with `b * x + c` coprime to `m`
    have hsplit : (b + 1) ^ n * x + c * ∑ i ∈ range n, (b + 1) ^ i =
        (∑ i ∈ range n, (b + 1) ^ i) * (b * x + c) + x := by
      rw [hpow]
      ring
    rw [hsplit] at hclosed
    have hzero : (∑ i ∈ range n, (b + 1) ^ i) * (b * x + c) ≡ 0 [MOD m] := by
      apply Nat.ModEq.add_right_cancel' x
      rwa [zero_add]
    have hcop : Nat.Coprime m (b * x + c) := by
      apply Nat.coprime_of_dvd
      intro p hp hpm hpx
      have hb : p ∣ b := by
        have hmod := h.primes p hp hpm
        have hdvd := (Nat.modEq_iff_dvd' (by omega)).1 hmod.symm
        simpa using hdvd
      have hpc : p ∣ c := (Nat.dvd_add_right (hb.mul_right x)).1 hpx
      have hone := Nat.dvd_gcd hpc hpm
      rw [h.coprime] at hone
      exact hp.one_lt.ne' (Nat.dvd_one.1 hone)
    exact dvd_of_dvd_geom_sum h.primes h.four
      (hcop.dvd_of_dvd_mul_right (Nat.modEq_zero_iff_dvd.1 hzero))
  · obtain rfl : m = 1 := by omega
    exact one_dvd n

/-- **Under the conditions the period is full.** The first `m` states are distinct, so they
are all values below `m`. -/
theorem fullPeriod_of_conditions (h : Conditions m a c) (hm : 0 < m) (hx : x < m) :
    FullPeriod m a c x := by
  have hlt : ∀ n, (step m a c)^[n] x < m := by
    intro n
    cases n with
    | zero => exact hx
    | succ n =>
      rw [iterate_succ_apply']
      exact step_lt hm _
  have hshift : ∀ i j, i < j → (step m a c)^[i] x = (step m a c)^[j] x → m ∣ j - i := by
    intro i j hij heq
    apply dvd_of_iterate_eq (x := (step m a c)^[i] x) h hm
    rw [← iterate_add_apply, Nat.sub_add_cancel hij.le, heq]
  have hinj : ∀ i < m, ∀ j < m, (step m a c)^[i] x = (step m a c)^[j] x → i = j := by
    intro i hi j hj heq
    rcases Nat.lt_trichotomy i j with hij | hij | hij
    · have := Nat.le_of_dvd (by omega) (hshift i j hij heq)
      omega
    · exact hij
    · have := Nat.le_of_dvd (by omega) (hshift j i hij heq.symm)
      omega
  have hsurj : ∀ v < m, ∃ n < m, (step m a c)^[n] x = v := by
    intro v hv
    have himage := surj_on_of_inj_on_of_card_le (s := range m) (t := range m)
      (fun i _ => (step m a c)^[i] x) (fun i _ => mem_range.2 (hlt i))
      (fun i j hi hj heq => hinj i (mem_range.1 hi) j (mem_range.1 hj) heq) le_rfl
    obtain ⟨n, hn, hv⟩ := himage v (mem_range.2 hv)
    exact ⟨n, mem_range.1 hn, hv.symm⟩
  refine ⟨?_, ?_⟩
  · intro v hv
    obtain ⟨n, hn, hnv⟩ := hsurj v hv
    refine ⟨n, ⟨hn, hnv⟩, ?_⟩
    rintro k ⟨hk, hkv⟩
    exact hinj k hk n hn (hkv.trans hnv.symm)
  · -- state `m` is one of the first `m`, and the distance is a multiple of `m`
    obtain ⟨j, hj, heq⟩ := hsurj _ (hlt m)
    have hle := Nat.le_of_dvd (by omega) (hshift j m hj heq)
    obtain rfl : j = 0 := by omega
    exact heq.symm

/-! ## The conditions are necessary -/

/-- The states modulo a divisor of `m`. -/
theorem iterate_modEq_of_dvd (hdm : d ∣ m) {y : ℕ} (hxy : x ≡ y [MOD d]) (n : ℕ) :
    (step m a c)^[n] x ≡ (step d a c)^[n] y [MOD d] := by
  induction n with
  | zero => exact hxy
  | succ n ih =>
    rw [iterate_succ_apply', iterate_succ_apply']
    have hleft : step m a c ((step m a c)^[n] x) ≡ a * (step m a c)^[n] x + c [MOD d] :=
      (Nat.mod_modEq _ m).of_dvd hdm
    have hright : step d a c ((step d a c)^[n] y) ≡ a * (step d a c)^[n] y + c [MOD d] :=
      Nat.mod_modEq _ d
    exact hleft.trans (((ih.mul_left a).add_right c).trans hright.symm)

/-- With full period every residue modulo a divisor of `m` comes up after any state. -/
theorem FullPeriod.residue (h : FullPeriod m a c x) (hm : 0 < m) (hd : 0 < d) (hdm : d ∣ m)
    (k v : ℕ) : ∃ n, (step m a c)^[n] ((step m a c)^[k] x) ≡ v [MOD d] := by
  have hlt : v % d < m := lt_of_lt_of_le (Nat.mod_lt v hd) (Nat.le_of_dvd hm hdm)
  obtain ⟨n, ⟨-, hn⟩, -⟩ := h.1 (v % d) hlt
  have hper : IsPeriodicPt (step m a c) m x := h.2
  -- the same state after `k` more turns
  refine ⟨n + m * k - k, ?_⟩
  have hk : k ≤ m * k := Nat.le_mul_of_pos_left k hm
  rw [← iterate_add_apply, show n + m * k - k + k = n + m * k by omega, iterate_add_apply,
    hper.mul_const k, hn]
  exact Nat.mod_modEq v d

/-- **Residues that the steps do not leave** are all of them, with full period. -/
theorem FullPeriod.closed (h : FullPeriod m a c x) (hm : 0 < m) (hdm : d ∣ m) {P : ℕ → Prop}
    (hstep : ∀ y, P y → P ((a * y + c) % d)) {u v : ℕ} (hv : v < d) (hPv : P v) (hu : u < d) :
    P u := by
  obtain ⟨k, hk⟩ := h.residue hm (by omega) hdm 0 v
  obtain ⟨n, hn⟩ := h.residue hm (by omega) hdm k u
  have hiter : ∀ n, P ((step d a c)^[n] v) ∧ (step d a c)^[n] v < d := by
    intro n
    induction n with
    | zero => exact ⟨hPv, hv⟩
    | succ n ih =>
      rw [iterate_succ_apply']
      exact ⟨hstep _ ih.1, step_lt (by omega) _⟩
  have hmod : (step d a c)^[n] v ≡ u [MOD d] := (iterate_modEq_of_dvd hdm hk n).symm.trans hn
  rw [Nat.ModEq, Nat.mod_eq_of_lt (hiter n).2, Nat.mod_eq_of_lt hu] at hmod
  rw [← hmod]
  exact (hiter n).1

/-- A residue that one step leaves alone rules the full period out. -/
theorem not_fullPeriod_of_fixed (hm : 0 < m) (hd : 1 < d) (hdm : d ∣ m) {v : ℕ}
    (hv : a * v + c ≡ v [MOD d]) : ¬ FullPeriod m a c x := by
  intro h
  have hall : ∀ u < d, u = v % d := by
    intro u hu
    apply h.closed hm hdm (P := fun y => y = v % d) ?_ (Nat.mod_lt v (by omega)) rfl hu
    rintro y rfl
    exact (((Nat.mod_modEq v d).mul_left a).add_right c).trans hv
  have h0 := hall 0 (by omega)
  have h1 := hall 1 hd
  omega

/-- Modulo a prime that does not divide `a - 1`. -/
theorem one_sub_ne_zero (h1 : ¬ a ≡ 1 [MOD d]) : (1 : ZMod d) - a ≠ 0 := by
  intro hzero
  have heq : (a : ZMod d) = (1 : ℕ) := by
    rw [Nat.cast_one]
    exact (sub_eq_zero.1 hzero).symm
  exact h1 ((ZMod.natCast_eq_natCast_iff a 1 d).1 heq)

/-- The state that a step leaves alone, modulo such a prime. -/
theorem exists_fixed {p : ℕ} (hp : p.Prime) (h1 : ¬ a ≡ 1 [MOD p]) (c : ℕ) :
    ∃ f : ZMod p, f * (1 - a) = c := by
  have : Fact p.Prime := ⟨hp⟩
  exact ⟨c / (1 - a), div_mul_cancel₀ _ (one_sub_ne_zero h1)⟩

/-- **With full period the conditions hold.** -/
theorem conditions_of_fullPeriod (h : FullPeriod m a c x) (hm : 0 < m) : Conditions m a c := by
  have hcop : Nat.Coprime c m := by
    apply Nat.coprime_of_dvd
    intro p hp hpc hpm
    have hfix : a * 0 + c ≡ 0 [MOD p] := by
      rw [mul_zero, zero_add]
      exact Nat.modEq_zero_iff_dvd.2 hpc
    exact not_fullPeriod_of_fixed hm hp.one_lt hpm hfix h
  have hprimes : ∀ p, p.Prime → p ∣ m → a ≡ 1 [MOD p] := by
    intro p hp hpm
    by_contra hne
    have : Fact p.Prime := ⟨hp⟩
    obtain ⟨y, hy⟩ := exists_fixed hp hne c
    have hfix : a * y.val + c ≡ y.val [MOD p] := by
      rw [← ZMod.natCast_eq_natCast_iff, Nat.cast_add, Nat.cast_mul, ZMod.natCast_zmod_val, ← hy]
      ring
    exact not_fullPeriod_of_fixed hm hp.one_lt hpm hfix h
  refine ⟨hcop, hprimes, ?_⟩
  intro h4
  have hodd : a % 2 = 1 := hprimes 2 Nat.prime_two (Nat.dvd_trans (by decide) h4)
  have hc : c % 2 = 1 := by
    have hno : ¬ 2 ∣ c := fun h2 => by
      have := Nat.dvd_gcd h2 (Nat.dvd_trans (by decide : 2 ∣ 4) h4)
      rw [hcop] at this
      omega
    omega
  by_contra hne
  have ha : a % 4 = 3 := by
    have : a % 4 ≠ 1 := hne
    omega
  -- the residues 0 and `c` modulo 4 follow each other
  have hstep : ∀ y, (y = 0 ∨ y = c % 4) → ((a * y + c) % 4 = 0 ∨ (a * y + c) % 4 = c % 4) := by
    rintro y (rfl | rfl)
    · right
      rw [mul_zero, zero_add]
    · left
      have hcases : c % 4 = 1 ∨ c % 4 = 3 := by omega
      rw [Nat.add_mod, Nat.mul_mod, ha]
      rcases hcases with h1 | h1 <;> rw [h1]
  have htwo := h.closed hm h4 (P := fun y => y = 0 ∨ y = c % 4) hstep (v := 0) (u := 2)
    (by decide) (Or.inl rfl) (by decide)
  omega

/-- **When the period is full.** -/
theorem fullPeriod_iff (hm : 0 < m) (hx : x < m) : FullPeriod m a c x ↔ Conditions m a c :=
  ⟨fun h => conditions_of_fullPeriod h hm, fun h => fullPeriod_of_conditions h hm hx⟩

end Lcg
