import KeyFob.Lib.FullPeriod
import KeyFob.Proof.Deployed
import KeyFob.Proof.Period

/-!
# The conditions of the header

For parameters whose steps do not wrap, on any width, the header is right: the period is
full exactly if its three conditions hold (`full_period_iff`). With full period any `m`
consecutive codes are distinct (`RollingCode.FullPeriod.distinctCodes_iff`).
-/

namespace KeyFob

open RollingCode Function

variable {w : ℕ} {rc : RollingCode w}

/-- No step from a seed below `m` wraps. -/
def RollingCode.Exact (rc : RollingCode w) : Prop :=
  rc.a.toNat * (rc.m.toNat - 1) + rc.c.toNat < 2 ^ w

/-- **The codes of an exact generator** are the states of the recurrence. -/
theorem toNat_code_eq (h : rc.Exact) (hs : rc.seed < rc.m) (n : ℕ) :
    (rc.code n).toNat = (Lcg.step rc.m.toNat rc.a.toNat rc.c.toNat)^[n] rc.seed.toNat ∧
      rc.code n < rc.m := by
  induction n with
  | zero => exact ⟨rfl, hs⟩
  | succ n ih =>
    obtain ⟨heq, hlt⟩ := ih
    have hle : (rc.code n).toNat ≤ rc.m.toNat - 1 := by
      have : (rc.code n).toNat < rc.m.toNat := hlt
      omega
    have hexact : rc.a.toNat * (rc.code n).toNat + rc.c.toNat < 2 ^ w := by
      have hmul := Nat.mul_le_mul_left rc.a.toNat hle
      unfold RollingCode.Exact at h
      omega
    have hnext : (rc.code (n + 1)).toNat =
        (rc.a.toNat * (rc.code n).toNat + rc.c.toNat) % rc.m.toNat := by
      rw [code_succ, toNat_lcg_of_lt hexact]
    refine ⟨?_, ?_⟩
    · rw [hnext, heq, iterate_succ_apply']
      rfl
    · rw [BitVec.lt_def, hnext]
      exact Nat.mod_lt _ (toNat_m_pos rc)

/-- The full period over the integers. -/
theorem fullPeriod_iff_lcg (h : rc.Exact) (hs : rc.seed < rc.m) : rc.FullPeriod ↔
    Lcg.FullPeriod rc.m.toNat rc.a.toNat rc.c.toNat rc.seed.toNat := by
  have hcode : ∀ n (v : ULong w), rc.code n = v ↔
      (Lcg.step rc.m.toNat rc.a.toNat rc.c.toNat)^[n] rc.seed.toNat = v.toNat := by
    intro n v
    rw [← (toNat_code_eq h hs n).1, BitVec.toNat_inj]
  refine and_congr ⟨?_, ?_⟩ (hcode _ _)
  · intro hall v hv
    have hw : v < 2 ^ w := hv.trans rc.m.isLt
    have hofNat : (BitVec.ofNat w v).toNat = v := Nat.mod_eq_of_lt hw
    have hvm : BitVec.ofNat w v < rc.m := by
      rw [BitVec.lt_def, hofNat]
      exact hv
    have hone := hall _ hvm
    simp only [hcode, hofNat] at hone
    exact hone
  · intro hall v hv
    simp only [hcode]
    exact hall v.toNat hv

/-- **The header is right about its conditions.** For every generator whose steps do not
wrap and every seed below the modulus, the period is full exactly if `c` is coprime to
`m`, `a - 1` is divisible by every prime factor of `m`, and by 4 if `m` is. -/
theorem full_period_iff (rc : RollingCode w) (hexact : rc.Exact) (hs : rc.seed < rc.m) :
    rc.FullPeriod ↔ Lcg.Conditions rc.m.toNat rc.a.toNat rc.c.toNat := by
  rw [fullPeriod_iff_lcg hexact hs]
  exact Lcg.fullPeriod_iff (toNat_m_pos rc) hs

/-- Parameters that meet the conditions on the 32 bits of the ESP32. -/
def roundModulus : RollingCode 32 where
  seed := 237461
  m := 100000000
  a := 21
  c := 5903
  m_pos := by decide

theorem roundModulus_conditions : Lcg.Conditions 100000000 21 5903 where
  coprime := by decide +kernel
  primes := by
    intro p hp hdvd
    have hdvd' : p ∣ 10 ^ 8 := hdvd
    have h20 : p ∣ 20 := (hp.dvd_of_dvd_pow hdvd').trans (by decide)
    exact ((Nat.modEq_iff_dvd' (by decide)).2 h20).symm
  four := fun _ => by decide

theorem roundModulus_exact : roundModulus.Exact := by
  unfold RollingCode.Exact
  decide

/-- With these an ESP32 sends 100000000 codes before one comes back. -/
theorem full_period_esp32 : roundModulus.FullPeriod :=
  (full_period_iff roundModulus roundModulus_exact (by decide)).2 roundModulus_conditions

/-! ## Distinct codes -/

/-- With full period the orbit is one cycle of `m` codes. -/
theorem RollingCode.FullPeriod.rho (h : rc.FullPeriod) :
    Orbit.Rho rc.lcg rc.seed 0 rc.m.toNat where
  per_pos := toNat_m_pos rc
  back := by
    rw [Nat.zero_add, iterate_zero_apply, ← code_eq]
    exact h.2
  inj := by
    intro i hi j hj heq
    rw [Nat.zero_add] at hi hj
    rw [← code_eq, ← code_eq] at heq
    have hlt : ∀ n, rc.code (n + 1) < rc.m := by
      intro n
      rw [code_succ, BitVec.lt_def, toNat_lcg]
      exact Nat.mod_lt _ (toNat_m_pos rc)
    have hm : rc.m.toNat - 1 + 1 = rc.m.toNat := Nat.sub_add_cancel (toNat_m_pos rc)
    have hcode : rc.code i < rc.m := by
      cases i with
      | zero =>
        have hback := hlt (rc.m.toNat - 1)
        rw [hm, h.2] at hback
        exact hback
      | succ i => exact hlt i
    obtain ⟨n, -, hn⟩ := h.1 _ hcode
    rw [hn i ⟨hi, rfl⟩, hn j ⟨hj, heq.symm⟩]

/-- **Any `m` consecutive codes** are distinct, and no more than that. -/
theorem RollingCode.FullPeriod.distinctCodes_iff (h : rc.FullPeriod) {n len : ℕ} :
    DistinctCodes rc n len ↔ len < rc.m.toNat := by
  rw [distinctCodes_iff_orbit, h.rho.distinct_iff]
  omega

end KeyFob
