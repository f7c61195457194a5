import Mathlib.Algebra.Ring.GeomSum
import Mathlib.Data.Nat.ModEq
import Mathlib.Tactic.Ring

/-!
# Linear congruential generators over the natural numbers

* `iterate_eq`: the closed form of the state after `n` steps.
* `never_visited`: a common divisor of modulus and multiplier fixes every state after
  the first modulo that divisor, so the other residues are never visited, and the
  period is not full (`not_fullPeriod`).
-/

namespace Lcg

open Finset Function

variable {m a c x d n : ℕ}

/-- One step. -/
def step (m a c x : ℕ) : ℕ := (a * x + c) % m

theorem step_lt (hm : 0 < m) (x : ℕ) : step m a c x < m := Nat.mod_lt _ hm

/-- **The state after `n` steps**, modulo `m`. -/
theorem iterate_modEq (m a c x : ℕ) : ∀ n,
    (step m a c)^[n] x ≡ a ^ n * x + c * ∑ i ∈ range n, a ^ i [MOD m] := by
  intro n
  induction n with
  | zero =>
    rw [iterate_zero_apply, pow_zero, one_mul, range_zero, sum_empty, mul_zero, add_zero]
  | succ n ih =>
    have hlast : (step m a c)^[n + 1] x ≡ a * (step m a c)^[n] x + c [MOD m] := by
      rw [iterate_succ_apply']
      exact Nat.mod_modEq _ _
    have hstep : a * (a ^ n * x + c * ∑ i ∈ range n, a ^ i) + c =
        a ^ (n + 1) * x + c * ∑ i ∈ range (n + 1), a ^ i := by
      rw [geom_sum_succ, pow_succ']
      ring
    rw [← hstep]
    exact hlast.trans ((ih.mul_left a).add_right c)

/-- **The closed form.** After the first step the state is reduced. -/
theorem iterate_eq (hm : 0 < m) (hn : 1 ≤ n) :
    (step m a c)^[n] x = (a ^ n * x + c * ∑ i ∈ range n, a ^ i) % m := by
  have hlt : (step m a c)^[n] x < m := by
    obtain ⟨k, rfl⟩ : ∃ k, n = k + 1 := ⟨n - 1, by omega⟩
    rw [iterate_succ_apply']
    exact step_lt hm _
  have hmod := iterate_modEq m a c x n
  rw [Nat.ModEq, Nat.mod_eq_of_lt hlt] at hmod
  exact hmod

/-- Modulo a common divisor of `m` and `a` every step gives `c`. -/
theorem iterate_mod (hdm : d ∣ m) (hda : d ∣ a) (hn : 1 ≤ n) :
    (step m a c)^[n] x % d = c % d := by
  obtain ⟨k, rfl⟩ : ∃ k, n = k + 1 := ⟨n - 1, by omega⟩
  have hzero : a * (step m a c)^[k] x % d = 0 := Nat.mod_eq_zero_of_dvd (hda.mul_right _)
  rw [iterate_succ_apply', step, Nat.mod_mod_of_dvd _ hdm, Nat.add_mod, hzero, Nat.zero_add,
    Nat.mod_mod]

/-- **Residues that are never visited.** -/
theorem never_visited (hdm : d ∣ m) (hda : d ∣ a) {v : ℕ} (hx : v ≠ x) (hv : v % d ≠ c % d) :
    ∀ n, (step m a c)^[n] x ≠ v := by
  intro n heq
  rcases Nat.eq_zero_or_pos n with rfl | hn
  · exact hx heq.symm
  · have hmod := iterate_mod (c := c) (x := x) hdm hda hn
    rw [heq] at hmod
    exact hv hmod

/-- **Full period** from `x`: the first `m` states are all values below `m`, each once,
and then `x` comes back. -/
def FullPeriod (m a c x : ℕ) : Prop :=
  (∀ v < m, ∃! n, n < m ∧ (step m a c)^[n] x = v) ∧ (step m a c)^[m] x = x

/-- **A common divisor of modulus and multiplier** rules the full period out. -/
theorem not_fullPeriod (hm : 0 < m) (hd : 1 < d) (hdm : d ∣ m) (hda : d ∣ a) :
    ¬ FullPeriod m a c x := by
  rintro ⟨hall, hback⟩
  have hx : x % d = c % d := by
    have hmod := iterate_mod (c := c) (x := x) hdm hda hm
    rw [hback] at hmod
    exact hmod
  -- the next residue
  have hlt : (c + 1) % d < d := Nat.mod_lt _ (by omega)
  have hother : (c + 1) % d % d ≠ c % d := by
    rw [Nat.mod_mod]
    intro h
    have hone : (c + 1) ≡ c + 0 [MOD d] := h
    have hzero : 1 % d = 0 % d := Nat.ModEq.add_left_cancel' c hone
    rw [Nat.mod_eq_of_lt hd, Nat.zero_mod] at hzero
    exact one_ne_zero hzero
  have hle : d ≤ m := Nat.le_of_dvd hm hdm
  obtain ⟨n, ⟨-, hn⟩, -⟩ := hall ((c + 1) % d) (by omega)
  have hne : (c + 1) % d ≠ x := by
    intro h
    rw [h] at hother
    exact hother hx
  exact never_visited hdm hda hne hother n hn

end Lcg
