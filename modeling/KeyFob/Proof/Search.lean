import KeyFob.Spec.RollingCode
import Mathlib.Data.Nat.Find
import Mathlib.Tactic.Common

/-!
# What `next` and `matches` do

* `next` moves along the orbit of the map `lcg` of the generator's parameters, so
  the code after `n` calls is `lcg^[n]` of the seed (`code_eq`).
* `matches` accepts exactly the codes in the window and then stands at the code it
  was given; otherwise it changes nothing (`matches_eq`, `matches_spec`).
-/

namespace KeyFob.RollingCode

open Function

variable {w : ℕ} {rc : RollingCode w}

/-- The map one call of `next` applies to the seed. -/
def lcg (rc : RollingCode w) (s : ULong w) : ULong w := (rc.a * s + rc.c) % rc.m

/-- `rc` with its seed replaced. -/
def moveTo (rc : RollingCode w) (s : ULong w) : RollingCode w := { rc with seed := s }

@[simp] theorem getSeed_eq (rc : RollingCode w) : rc.getSeed = rc.seed := rfl

@[simp] theorem moveTo_seed (rc : RollingCode w) (s : ULong w) : (rc.moveTo s).seed = s := rfl

@[simp] theorem moveTo_self (rc : RollingCode w) : rc.moveTo rc.seed = rc := rfl

@[simp] theorem moveTo_moveTo (rc : RollingCode w) (s t : ULong w) :
    (rc.moveTo s).moveTo t = rc.moveTo t := rfl

@[simp] theorem lcg_moveTo (rc : RollingCode w) (s : ULong w) : (rc.moveTo s).lcg = rc.lcg := rfl

theorem next_eq (rc : RollingCode w) : rc.next = rc.moveTo (rc.lcg rc.seed) := rfl

theorem next_iterate (rc : RollingCode w) (n : ℕ) :
    next^[n] rc = rc.moveTo (rc.lcg^[n] rc.seed) := by
  induction n with
  | zero => rfl
  | succ n ih => rw [iterate_succ_apply', iterate_succ_apply', ih]; rfl

theorem code_eq (rc : RollingCode w) (n : ℕ) : rc.code n = rc.lcg^[n] rc.seed := by
  rw [code, next_iterate]; rfl

@[simp] theorem code_zero (rc : RollingCode w) : rc.code 0 = rc.seed := rfl

theorem code_succ (rc : RollingCode w) (n : ℕ) : rc.code (n + 1) = rc.lcg (rc.code n) := by
  rw [code_eq, code_eq, iterate_succ_apply']

/-- The codes of a generator that stands at code `p` of `rc`. -/
theorem code_moveTo (rc : RollingCode w) (p k : ℕ) :
    (rc.moveTo (rc.code p)).code k = rc.code (p + k) := by
  rw [code_eq, code_eq, code_eq, lcg_moveTo, moveTo_seed, Nat.add_comm, iterate_add_apply]

theorem next_moveTo (rc : RollingCode w) (p : ℕ) :
    (rc.moveTo (rc.code p)).next = rc.moveTo (rc.code (p + 1)) := by
  rw [next_eq, moveTo_moveTo, lcg_moveTo, moveTo_seed, code_succ]

/-! ## The search loop -/

theorem search_eq_some {code s : ULong w} (n : ℕ) :
    ∀ rc : RollingCode w, search code n rc = some s ↔ s = code ∧ ∃ k < n, rc.code k = code := by
  induction n with
  | zero => intro rc; simp [search]
  | succ n ih =>
    intro rc
    unfold search
    split
    · rename_i hhit
      rw [getSeed_eq] at hhit
      simp only [Option.some.injEq, getSeed_eq, hhit]
      exact ⟨fun h => ⟨h.symm, 0, by omega, hhit⟩, fun h => h.1.symm⟩
    · rename_i hmiss
      -- the hit is not at the current seed, so it is among the codes after `next`
      rw [ih]
      refine ⟨?_, ?_⟩
      · rintro ⟨hs, k, hk, hc⟩
        exact ⟨hs, k + 1, by omega, hc⟩
      · rintro ⟨hs, k, hk, hc⟩
        cases k with
        | zero => exact absurd hc hmiss
        | succ k => exact ⟨hs, k, by omega, hc⟩

/-- **What `matches` does.** -/
theorem matches_eq (rc : RollingCode w) (code : ULong w) :
    rc.matches code = if rc.InWindow code then (true, rc.moveTo code) else (false, rc) := by
  unfold «matches»
  have hwin : rc.InWindow code ↔ ∃ k < SEARCH_LIMIT + 1, rc.code k = code := by
    simp only [InWindow, Nat.lt_succ_iff]
  cases hs : search code (SEARCH_LIMIT + 1) rc with
  | none =>
    have hno : ¬ rc.InWindow code := by
      intro h
      have := (search_eq_some (s := code) _ rc).2 ⟨rfl, hwin.1 h⟩
      rw [hs] at this
      cases this
    rw [if_neg hno]
  | some s =>
    obtain ⟨rfl, hk⟩ := (search_eq_some _ rc).1 hs
    rw [if_pos (hwin.2 hk)]
    rfl

theorem matches_fst (rc : RollingCode w) (code : ULong w) :
    (rc.matches code).1 = true ↔ rc.InWindow code := by
  rw [matches_eq]; split <;> simp_all

theorem matches_snd (rc : RollingCode w) (code : ULong w) :
    (rc.matches code).2 = if rc.InWindow code then rc.moveTo code else rc := by
  rw [matches_eq]; split <;> rfl

/-- A code in the window has a first place there. -/
theorem InWindow.first {code : ULong w} (h : rc.InWindow code) : ∃ k, k ≤ SEARCH_LIMIT ∧
    (∀ j < k, rc.code j ≠ code) ∧ rc.moveTo code = next^[k] rc := by
  classical
  have hex : ∃ k, rc.code k = code := by
    obtain ⟨k, -, hk⟩ := h
    exact ⟨k, hk⟩
  obtain ⟨n, hn, hcode⟩ := h
  refine ⟨Nat.find hex, le_trans (Nat.find_min' hex hcode) hn, fun j hj => Nat.find_min hex hj, ?_⟩
  have hfound := Nat.find_spec hex
  rw [code_eq] at hfound
  rw [next_iterate, hfound]

/-- **The window search.** For every generator, on any width: `matches` finds exactly
the codes at most 100 steps of `next` away. It then stands where the first of these
steps that gives the code leads, and otherwise where it stood; the parameters stay. -/
theorem matches_spec (rc : RollingCode w) (code : ULong w) :
    let result := rc.matches code
    (result.1 = true ↔ ∃ k, k ≤ 100 ∧ (next^[k] rc).getSeed = code) ∧
    (result.1 = true → result.2.getSeed = code ∧
      ∃ k, k ≤ 100 ∧ (∀ j < k, (next^[j] rc).getSeed ≠ code) ∧ result.2 = next^[k] rc) ∧
    (result.1 = false → result.2.getSeed = rc.getSeed) ∧
    result.2.m = rc.m ∧ result.2.a = rc.a ∧ result.2.c = rc.c := by
  intro result
  have hfound : result.1 = true ↔ rc.InWindow code := matches_fst rc code
  have hafter : result.2 = if rc.InWindow code then rc.moveTo code else rc := matches_snd rc code
  refine ⟨hfound, ?_, ?_, ?_⟩
  · intro htrue
    have hwin := hfound.1 htrue
    rw [hafter, if_pos hwin]
    exact ⟨rfl, hwin.first⟩
  · intro hfalse
    have hout : ¬ rc.InWindow code := by
      rw [← hfound, hfalse]
      exact Bool.false_ne_true
    rw [hafter, if_neg hout]
  · rw [hafter]
    by_cases hwin : rc.InWindow code
    · rw [if_pos hwin]
      exact ⟨rfl, rfl, rfl⟩
    · rw [if_neg hwin]
      exact ⟨rfl, rfl, rfl⟩

/-- A receiver at code `p` accepts the codes `p, ..., p + SEARCH_LIMIT`. -/
theorem inWindow_moveTo (p : ℕ) (code : ULong w) : (rc.moveTo (rc.code p)).InWindow code ↔
    ∃ k, k ≤ SEARCH_LIMIT ∧ rc.code (p + k) = code := by
  simp only [InWindow, code_moveTo]

end KeyFob.RollingCode
