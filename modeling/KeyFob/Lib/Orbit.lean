import Mathlib.Dynamics.PeriodicPts.Defs
import Mathlib.Data.Nat.ModEq
import Mathlib.Tactic.Ring
import Mathlib.Tactic.Push

/-!
# Orbits that run into a cycle

The orbit `x, f x, f (f x), ...` of a map on a finite type runs through a tail and
then around a cycle forever. `Rho f x tail per` says how long each part is; it is
checked on the first `tail + per` values alone.

* `Rho.iterate_eq_iff`: two indices carry the same value exactly when they are
  equal or both in the cycle and congruent modulo its length.
* `Rho.distinct_iff`: which windows of consecutive values have no repetition.
* `Rho.window_meets_cycle`: a window of `tail + per` values contains the whole cycle.
-/

namespace Orbit

open Function

variable {α : Type*} {f : α → α} {x : α} {tail per : ℕ}

/-- **The shape of an orbit**: `tail` values that occur once, then a cycle of `per`
values. -/
structure Rho (f : α → α) (x : α) (tail per : ℕ) : Prop where
  per_pos : 0 < per
  back : f^[tail + per] x = f^[tail] x
  inj : ∀ i < tail + per, ∀ j < tail + per, f^[i] x = f^[j] x → i = j

/-- The first index that carries the value of index `i`. -/
def fold (tail per i : ℕ) : ℕ := if i < tail then i else tail + (i - tail) % per

theorem Rho.fold_lt (h : Rho f x tail per) (i : ℕ) : fold tail per i < tail + per := by
  have := Nat.mod_lt (i - tail) h.per_pos
  unfold fold; split <;> omega

theorem Rho.iterate_fold (h : Rho f x tail per) (i : ℕ) : f^[fold tail per i] x = f^[i] x := by
  unfold fold
  split
  · rfl
  · rename_i hi
    have hper : IsPeriodicPt f per (f^[tail] x) := by
      unfold IsPeriodicPt IsFixedPt
      rw [← iterate_add_apply, Nat.add_comm, h.back]
    have hmod := hper.iterate_mod_apply (i - tail)
    rw [← iterate_add_apply, ← iterate_add_apply] at hmod
    rw [Nat.add_comm tail, hmod, Nat.sub_add_cancel (by omega)]

theorem fold_eq_iff {i j : ℕ} : fold tail per i = fold tail per j ↔
    i = j ∨ (tail ≤ i ∧ tail ≤ j ∧ i ≡ j [MOD per]) := by
  unfold fold
  by_cases hi : i < tail <;> by_cases hj : j < tail
  · rw [if_pos hi, if_pos hj]; omega
  · rw [if_pos hi, if_neg hj]; omega
  · rw [if_neg hi, if_pos hj]; omega
  · rw [if_neg hi, if_neg hj, Nat.add_left_cancel_iff]
    have hi' : i = i - tail + tail := by omega
    have hj' : j = j - tail + tail := by omega
    refine ⟨?_, ?_⟩
    · intro h
      right
      refine ⟨by omega, by omega, ?_⟩
      rw [hi', hj']
      exact Nat.ModEq.add_right tail h
    · rintro (rfl | ⟨-, -, h⟩)
      · rfl
      · rw [hi', hj'] at h
        exact Nat.ModEq.add_right_cancel' tail h

/-- **When two indices carry the same value.** -/
theorem Rho.iterate_eq_iff (h : Rho f x tail per) {i j : ℕ} :
    f^[i] x = f^[j] x ↔ i = j ∨ (tail ≤ i ∧ tail ≤ j ∧ i ≡ j [MOD per]) := by
  rw [← fold_eq_iff, ← h.iterate_fold i, ← h.iterate_fold j]
  refine ⟨?_, ?_⟩
  · exact h.inj _ (h.fold_lt i) _ (h.fold_lt j)
  · intro hf; rw [hf]

/-- The shape of an orbit from its repetitions. -/
theorem Rho.of_iff (hper : 0 < per)
    (h : ∀ i j, f^[i] x = f^[j] x ↔ i = j ∨ (tail ≤ i ∧ tail ≤ j ∧ i ≡ j [MOD per])) :
    Rho f x tail per where
  per_pos := hper
  back := by
    rw [h]
    exact Or.inr ⟨by omega, le_rfl, by simp [Nat.ModEq]⟩
  inj := by
    intro i hi j hj heq
    rcases (h i j).1 heq with hij | ⟨hti, htj, hmod⟩
    · exact hij
    · have hshift : i - tail ≡ j - tail [MOD per] := by
        apply Nat.ModEq.add_right_cancel' tail
        rwa [Nat.sub_add_cancel hti, Nat.sub_add_cancel htj]
      have := hshift.eq_of_lt_of_lt (by omega) (by omega)
      omega

/-- The `len + 1` values of the orbit from index `n` on are pairwise distinct. -/
def Distinct (f : α → α) (x : α) (n len : ℕ) : Prop :=
  ∀ i ≤ len, ∀ j ≤ len, f^[n + i] x = f^[n + j] x → i = j

/-- **The windows without repetition**: those shorter than the cycle, and those that
end before the cycle closes. -/
theorem Rho.distinct_iff (h : Rho f x tail per) {n len : ℕ} :
    Distinct f x n len ↔ len < per ∨ n + len < tail + per := by
  refine ⟨?_, ?_⟩
  · intro hd
    by_contra hc
    push Not at hc
    -- the first index of the window in the cycle, and the same index one turn later
    have hrep : f^[n + (max n tail - n)] x = f^[n + (max n tail - n + per)] x := by
      rw [h.iterate_eq_iff]
      exact Or.inr ⟨by omega, by omega, by simp [Nat.ModEq, ← Nat.add_assoc]⟩
    have := hd _ (by omega) _ (by omega) hrep
    have := h.per_pos
    omega
  · rintro hlen i hi j hj heq
    rcases h.iterate_eq_iff.1 heq with hij | ⟨h1, h2, hmod⟩
    · omega
    · rcases hlen with hlen | hlen
      · have hmod' : i ≡ j [MOD per] := Nat.ModEq.add_left_cancel' n hmod
        rw [Nat.ModEq, Nat.mod_eq_of_lt (by omega), Nat.mod_eq_of_lt (by omega)] at hmod'
        exact hmod'
      · have := h.inj _ (by omega) _ (by omega) heq
        omega

theorem exists_lt_add_modEq (hper : 0 < per) (q l : ℕ) : ∃ r < per, q + r ≡ l [MOD per] := by
  refine ⟨(l + (per - 1) * q) % per, Nat.mod_lt _ hper, ?_⟩
  have hq : q + (l + (per - 1) * q) = l + per * q := by
    obtain ⟨p, rfl⟩ : ∃ p, per = p + 1 := ⟨per - 1, by omega⟩
    simp only [Nat.add_sub_cancel]; ring
  calc q + (l + (per - 1) * q) % per
      ≡ q + (l + (per - 1) * q) [MOD per] := Nat.ModEq.add_left q (Nat.mod_modEq _ _)
    _ = l + per * q := hq
    _ ≡ l [MOD per] := by simp [Nat.ModEq]

/-- **A long window contains the whole cycle.** -/
theorem Rho.window_meets_cycle (h : Rho f x tail per) (p : ℕ) {l W : ℕ} (hl : tail ≤ l)
    (hW : tail + per ≤ W + 1) : ∃ k ≤ W, f^[p + k] x = f^[l] x := by
  obtain ⟨r, hr, hmod⟩ := exists_lt_add_modEq h.per_pos (max p tail) l
  refine ⟨max p tail - p + r, by omega, ?_⟩
  rw [h.iterate_eq_iff]
  have hidx : p + (max p tail - p + r) = max p tail + r := by omega
  exact Or.inr ⟨by omega, hl, by rw [hidx]; exact hmod⟩

end Orbit
