import KeyFob.Lib.Lcg
import KeyFob.Proof.Width

/-!
# The generator on 64 bits

* `next_exact`: with parameters and seed below `2 ^ 32` no step wraps, and the codes
  have the closed form of the recurrence.
* `default_not_full`: the default multiplier and modulus are both even, so all codes
  after the first are odd; the header's condition on `a - 1` fails and the period is
  not full, from any seed.
-/

namespace KeyFob

open RollingCode Finset

variable {w : ℕ}

/-- The recurrence of the header is the iteration of one step. -/
theorem recurrence_eq (m a c x n : ℕ) : recurrence m a c x n = (Lcg.step m a c)^[n] x := by
  induction n with
  | zero => rfl
  | succ n ih =>
    rw [Function.iterate_succ_apply', ← ih]
    rfl

/-- **The 64-bit generator is exact.** For parameters and a seed below `2 ^ 32`, in
every run of `next` no `a * seed + c` reaches `2 ^ 64`, every code after the first step
is below `m`, and after `n` steps the code is the closed form of the recurrence. -/
theorem next_exact (rc : RollingCode 64) (hm : rc.m.toNat < 2 ^ 32) (ha : rc.a.toNat < 2 ^ 32)
    (hc : rc.c.toNat < 2 ^ 32) (hs : rc.seed.toNat < 2 ^ 32) :
    (∀ n, let g := next^[n] rc
      g.a.toNat * g.seed.toNat + g.c.toNat < 2 ^ 64) ∧
    (∀ n, 1 ≤ n → (rc.code n).toNat < rc.m.toNat) ∧
    ∀ n, 1 ≤ n → (rc.code n).toNat = (rc.a.toNat ^ n * rc.seed.toNat +
      rc.c.toNat * ∑ i ∈ range n, rc.a.toNat ^ i) % rc.m.toNat := by
  have hclosed : ∀ n, 1 ≤ n → (rc.code n).toNat = (rc.a.toNat ^ n * rc.seed.toNat +
      rc.c.toNat * ∑ i ∈ range n, rc.a.toNat ^ i) % rc.m.toNat := by
    intro n hn
    rw [(code_64_eq rc hm ha hc hs n).1, recurrence_eq, Lcg.iterate_eq (toNat_m_pos rc) hn]
  refine ⟨?_, ?_, hclosed⟩
  · intro n
    have hlt := (code_64_eq rc hm ha hc hs n).2
    have hseed : (next^[n] rc).seed = rc.code n := rfl
    rw [next_iterate] at hseed ⊢
    simp only at hseed ⊢
    rw [hseed]
    exact no_wrap_64 ha hlt hc
  · intro n hn
    rw [hclosed n hn]
    exact Nat.mod_lt _ (toNat_m_pos rc)

/-- The default parameters, from the seed of the sketches. -/
theorem next_exact_default :
    let rc : RollingCode 64 := ofSeed 237461
    (∀ n, let g := next^[n] rc
      g.a.toNat * g.seed.toNat + g.c.toNat < 2 ^ 64) ∧
    (∀ n, 1 ≤ n → (rc.code n).toNat < rc.m.toNat) ∧
    ∀ n, 1 ≤ n → (rc.code n).toNat = (rc.a.toNat ^ n * rc.seed.toNat +
      rc.c.toNat * ∑ i ∈ range n, rc.a.toNat ^ i) % rc.m.toNat :=
  next_exact (ofSeed 237461) (by decide) (by decide) (by decide) (by decide)

/-! ## The period -/

/-- **Full period**: the first `m` codes are all values below `m`, each once, and then
the seed comes back. -/
def RollingCode.FullPeriod (rc : RollingCode w) : Prop :=
  (∀ v < rc.m, ∃! n, n < rc.m.toNat ∧ rc.code n = v) ∧ rc.code rc.m.toNat = rc.seed

/-- `next` permutes the values below `m`. -/
def RollingCode.Permutes (rc : RollingCode w) : Prop :=
  Set.BijOn rc.lcg {s | s < rc.m} {s | s < rc.m}

/-- **All codes after the first are odd**, so an even value other than the seed never
comes up. -/
theorem default_never_even {s v : ULong 64} (hs : s < 4152143978) (hv : v ≠ s)
    (heven : v.toNat % 2 = 0) (n : ℕ) : (ofSeed s).code n ≠ v := by
  intro heq
  have hlt : s.toNat < 4152143978 := hs
  have hcode := code_64_default (s := s) (by omega) n
  rw [defaultRecurrence, recurrence_eq, heq] at hcode
  have hne : v.toNat ≠ s.toNat := fun h => hv (BitVec.eq_of_toNat_eq h)
  have hmiss := Lcg.never_visited (m := 4152143978) (a := 9554) (c := 5903) (d := 2)
    (by decide) (by decide) hne (by omega) n
  exact hmiss hcode.symm

/-- From every seed below the modulus some value below the modulus never comes up. -/
theorem default_misses {s : ULong 64} (hs : s < 4152143978) :
    ∃ v : ULong 64, v < 4152143978 ∧ ∀ n, (ofSeed s).code n ≠ v := by
  by_cases hzero : s = 0
  · refine ⟨2, by decide, default_never_even hs ?_ (by decide)⟩
    rw [hzero]
    decide
  · exact ⟨0, by decide, default_never_even hs (fun h => hzero h.symm) (by decide)⟩

/-- A value that never comes up rules out the full period. -/
theorem not_fullPeriod {rc : RollingCode w} {v : ULong w} (hv : v < rc.m)
    (hmiss : ∀ n, rc.code n ≠ v) : ¬ rc.FullPeriod := by
  rintro ⟨hall, -⟩
  obtain ⟨n, ⟨-, hn⟩, -⟩ := hall v hv
  exact hmiss n hn

/-- Two seeds below `m` that merge rule out a permutation. -/
theorem not_permutes {rc : RollingCode w} {s t : ULong w} (hs : s < rc.m) (ht : t < rc.m)
    (hne : s ≠ t) (hmerge : rc.lcg s = rc.lcg t) : ¬ rc.Permutes := by
  intro h
  exact hne (h.injOn hs ht hmerge)

theorem ofSeed_m (s : ULong 64) : (ofSeed s : RollingCode 64).m = 4152143978 := rfl

theorem lcg_ofSeed (s x : ULong 64) :
    (ofSeed s : RollingCode 64).lcg x = (9554 * x + 5903) % 4152143978 := rfl

/-- The seeds 0 and `m / 2` merge. -/
theorem default_merges (s : ULong 64) : ¬ (ofSeed s : RollingCode 64).Permutes := by
  have hmerge : (ofSeed s : RollingCode 64).lcg 0 = (ofSeed s : RollingCode 64).lcg 2076071989 := by
    rw [lcg_ofSeed, lcg_ofSeed]
    decide
  have hlow : (0 : ULong 64) < (ofSeed s : RollingCode 64).m := by rw [ofSeed_m]; decide
  have hhigh : (2076071989 : ULong 64) < (ofSeed s : RollingCode 64).m := by rw [ofSeed_m]; decide
  exact not_permutes hlow hhigh (by decide) hmerge

/-- **The default generator never has full period.** From every seed below the modulus
some value is never visited, and `next` is no permutation of the values below `m`. -/
theorem default_not_full (s : ULong 64) (hs : s < 4152143978) :
    ¬ (ofSeed s : RollingCode 64).FullPeriod ∧
    (∃ v, v < (ofSeed s : RollingCode 64).m ∧ ∀ n, (ofSeed s : RollingCode 64).code n ≠ v) ∧
    ¬ (ofSeed s : RollingCode 64).Permutes := by
  obtain ⟨v, hv, hmiss⟩ := default_misses hs
  exact ⟨not_fullPeriod hv hmiss, ⟨v, hv, hmiss⟩, default_merges s⟩

/-- The largest seed below the modulus. -/
theorem default_not_full_largest :
    ¬ (ofSeed 4152143977 : RollingCode 64).FullPeriod ∧
    (∃ v, v < (ofSeed 4152143977 : RollingCode 64).m ∧
      ∀ n, (ofSeed 4152143977 : RollingCode 64).code n ≠ v) ∧
    ¬ (ofSeed 4152143977 : RollingCode 64).Permutes :=
  default_not_full 4152143977 (by decide)

/-- From the seed of the sketches the value 0 never comes up, and the seeds 0 and
2076071989 are followed by the same code. -/
theorem default_seed_misses_zero : (∀ n, (ofSeed 237461 : RollingCode 64).code n ≠ 0) ∧
    ¬ (ofSeed 237461 : RollingCode 64).FullPeriod ∧
    (ofSeed 0 : RollingCode 64).next.getSeed = (ofSeed 2076071989 : RollingCode 64).next.getSeed := by
  have hmiss := default_never_even (s := 237461) (v := 0) (by decide) (by decide) (by decide)
  exact ⟨hmiss, not_fullPeriod (by decide) hmiss, by decide⟩

end KeyFob
