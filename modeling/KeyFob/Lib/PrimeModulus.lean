import KeyFob.Lib.FullPeriod
import Mathlib.GroupTheory.OrderOfElement

/-!
# Linear congruential generators modulo a prime

Modulo a prime `p` that does not divide `a - 1` there is one state that a step leaves
alone, and the distance to it is multiplied by `a` with each step. So every other state
comes back exactly after the multiples of the order of `a` (`iterate_modEq_iff`).
-/

namespace Lcg

open Function

variable {m p a c x i j : ℕ}

/-- **The distance to the fixed state** after `n` steps. -/
theorem cast_iterate {f : ZMod p} (hf : a * f + c = f) (x n : ℕ) :
    (((step p a c)^[n] x : ℕ) : ZMod p) = f + a ^ n * (x - f) := by
  induction n with
  | zero =>
    rw [iterate_zero_apply, pow_zero]
    ring
  | succ n ih =>
    rw [iterate_succ_apply', step, ZMod.natCast_mod, Nat.cast_add, Nat.cast_mul, ih]
    calc (a : ZMod p) * (f + a ^ n * (x - f)) + c
        = (a * f + c) + a ^ (n + 1) * (x - f) := by ring
      _ = f + a ^ (n + 1) * (x - f) := by rw [hf]

/-- Powers of a number that `p` does not divide. -/
theorem pow_eq_pow_iff_order (hp : p.Prime) (ha : ¬ p ∣ a) :
    (a : ZMod p) ^ i = a ^ j ↔ i ≡ j [MOD orderOf (a : ZMod p)] := by
  have : Fact p.Prime := ⟨hp⟩
  have hne : (a : ZMod p) ≠ 0 := fun h => ha ((ZMod.natCast_eq_zero_iff a p).1 h)
  obtain ⟨u, hu⟩ := hne.isUnit
  rw [← hu, orderOf_units, ← pow_eq_pow_iff_modEq, ← Units.val_pow_eq_pow_val,
    ← Units.val_pow_eq_pow_val, Units.val_inj]

/-- **When two states agree**, modulo a prime. -/
theorem iterate_modEq_iff (hp : p.Prime) (ha : ¬ p ∣ a) (h1 : ¬ a ≡ 1 [MOD p]) :
    (step p a c)^[i] x ≡ (step p a c)^[j] x [MOD p] ↔
      a * x + c ≡ x [MOD p] ∨ i ≡ j [MOD orderOf (a : ZMod p)] := by
  have : Fact p.Prime := ⟨hp⟩
  obtain ⟨f, hf⟩ := exists_fixed hp h1 c
  have hfix : a * f + c = f := by
    rw [← hf]
    ring
  have hx : a * x + c ≡ x [MOD p] ↔ (x : ZMod p) - f = 0 := by
    rw [← ZMod.natCast_eq_natCast_iff, Nat.cast_add, Nat.cast_mul, ← hf]
    refine ⟨?_, ?_⟩
    · intro h
      have hprod : ((x : ZMod p) - f) * (1 - a) = 0 := by
        rw [← sub_eq_zero] at h
        calc ((x : ZMod p) - f) * (1 - a) = -(a * x + f * (1 - a) - x) := by ring
          _ = 0 := by rw [h, neg_zero]
      exact (mul_eq_zero.1 hprod).resolve_right (one_sub_ne_zero h1)
    · intro h
      rw [sub_eq_zero.1 h]
      ring
  rw [← ZMod.natCast_eq_natCast_iff, cast_iterate hfix, cast_iterate hfix, add_right_inj,
    mul_eq_mul_right_iff, pow_eq_pow_iff_order hp ha, hx]
  exact or_comm

end Lcg
