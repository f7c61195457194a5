import KeyFob.Proof.Search
import Mathlib.Data.Nat.ModEq
import Mathlib.Tactic.NormNum.DivMod
import Mathlib.Tactic.NormNum.GCD

/-!
# The generator on 32 and on 64 bits

`next` computes the header's recurrence exactly as long as `a * seed + c` stays below
`2 ^ w`. With parameters below `2 ^ 32` it always does on 64 bits, where the tests
run. On the ESP32 it does for the default parameters only while the seed is at most
449545, and no sequence stays there for more than two steps.
-/

namespace KeyFob

open RollingCode

variable {w : ℕ}

/-- One step over the integers. -/
theorem toNat_lcg (rc : RollingCode w) (s : ULong w) :
    (rc.lcg s).toNat = (rc.a.toNat * s.toNat + rc.c.toNat) % 2 ^ w % rc.m.toNat := by
  simp [lcg]

/-- A step whose product does not wrap is a step of the recurrence. -/
theorem toNat_lcg_of_lt {rc : RollingCode w} {s : ULong w}
    (h : rc.a.toNat * s.toNat + rc.c.toNat < 2 ^ w) :
    (rc.lcg s).toNat = (rc.a.toNat * s.toNat + rc.c.toNat) % rc.m.toNat := by
  rw [toNat_lcg, Nat.mod_eq_of_lt h]

/-- **No step wraps on 64 bits** when the parameters and the seed are below `2 ^ 32`. -/
theorem no_wrap_64 {a s c : ℕ} (ha : a < 2 ^ 32) (hs : s < 2 ^ 32) (hc : c < 2 ^ 32) :
    a * s + c < 2 ^ 64 := by
  have : a * s ≤ (2 ^ 32 - 1) * (2 ^ 32 - 1) := Nat.mul_le_mul (by omega) (by omega)
  omega

theorem toNat_m_pos (rc : RollingCode w) : 0 < rc.m.toNat := by
  simpa [BitVec.lt_def] using rc.m_pos

/-- **The 64-bit generator is the recurrence**, for parameters and seeds below `2 ^ 32`. -/
theorem code_64_eq (rc : RollingCode 64) (hm : rc.m.toNat < 2 ^ 32) (ha : rc.a.toNat < 2 ^ 32)
    (hc : rc.c.toNat < 2 ^ 32) (hs : rc.seed.toNat < 2 ^ 32) (n : ℕ) :
    (rc.code n).toNat = recurrence rc.m.toNat rc.a.toNat rc.c.toNat rc.seed.toNat n ∧
      (rc.code n).toNat < 2 ^ 32 := by
  induction n with
  | zero => exact ⟨rfl, hs⟩
  | succ n ih =>
    rw [code_succ, toNat_lcg_of_lt (no_wrap_64 ha ih.2 hc)]
    have := Nat.mod_lt (rc.a.toNat * (rc.code n).toNat + rc.c.toNat) (toNat_m_pos rc)
    exact ⟨by rw [ih.1]; rfl, by omega⟩

/-! ## The default parameters -/

/-- The header's recurrence with the default parameters. -/
abbrev defaultRecurrence (x : ℕ) : ℕ → ℕ := recurrence 4152143978 9554 5903 x

/-- The default modulus fits in the 32 bits of the ESP32. -/
theorem modulus_pos : 0 < (4152143978 : ULong 32) := by decide

/-- The `n`-th code on the ESP32. -/
def code32 (s : ULong 32) (n : ℕ) : ℕ := ((ofSeed s modulus_pos).code n).toNat

/-- The `n`-th code on the host the tests run on. -/
def code64 (s : ULong 32) (n : ℕ) : ℕ := ((ofSeed (s.setWidth 64)).code n).toNat

/-- The default generator on 64 bits, from any 32-bit seed. -/
theorem code_64_default {s : ULong 64} (hs : s.toNat < 2 ^ 32) (n : ℕ) :
    ((ofSeed s).code n).toNat = defaultRecurrence s.toNat n := by
  have h := (code_64_eq (ofSeed s) (by simp [ofSeed]) (by simp [ofSeed]) (by simp [ofSeed]) hs n).1
  simp only [ofSeed] at h
  exact h

theorem code64_eq (s : ULong 32) (n : ℕ) : code64 s n = defaultRecurrence s.toNat n := by
  have hs : (s.setWidth 64).toNat = s.toNat := by
    have hlt := s.isLt
    rw [BitVec.toNat_setWidth]
    omega
  unfold code64
  rw [code_64_default (by rw [hs]; exact s.isLt), hs]

theorem code32_zero (s : ULong 32) : code32 s 0 = s.toNat := rfl

theorem code32_succ (s : ULong 32) (n : ℕ) :
    code32 s (n + 1) = (9554 * code32 s n + 5903) % 4294967296 % 4152143978 := by
  unfold code32
  rw [code_succ, toNat_lcg]
  rfl

theorem code32_lt (s : ULong 32) (n : ℕ) : code32 s n < 4294967296 := BitVec.isLt _

/-- A second reduction that undoes nothing divides what the first one cut off. -/
theorem dvd_of_mod_mod_eq {y M m : ℕ} (h : y % M % m = y % m) : m ∣ M * (y / M) := by
  have hdvd := (Nat.modEq_iff_dvd' (Nat.mod_le y M)).1 h
  have hsplit := Nat.div_add_mod y M
  rwa [show y - y % M = M * (y / M) by omega] at hdvd

/-- **When one 32-bit step is exact.** What is cut off is a multiple `q * 2 ^ 32` with
`q ≤ 9554`; the reduction by `m` absorbs it only for `q = 0`, because `m / 2` is
coprime to `2 ^ 32` and larger than `q`. -/
theorem step_exact_iff {x : ℕ} (hx : x < 4294967296) :
    (9554 * x + 5903) % 4294967296 % 4152143978 = (9554 * x + 5903) % 4152143978 ↔
      x ≤ 449545 := by
  have hq : (9554 * x + 5903) / 4294967296 ≤ 9554 := by omega
  refine ⟨?_, ?_⟩
  · intro heq
    have heven : 2076071989 ∣ 4152143978 := by norm_num
    have hhalf := heven.trans (dvd_of_mod_mod_eq heq)
    have hcop : Nat.Coprime 2076071989 4294967296 := by decide +kernel
    have hzero := Nat.eq_zero_of_dvd_of_lt (hcop.dvd_of_dvd_mul_left hhalf) (lt_of_le_of_lt hq (by decide))
    clear heq hhalf
    omega
  · intro hle
    rw [Nat.mod_eq_of_lt (a := 9554 * x + 5903) (b := 4294967296) (by omega)]

/-- The 32-bit and the 64-bit generator and the recurrence carry the same `n`-th code. -/
def WidthsAgree (s : ULong 32) (n : ℕ) : Prop :=
  code32 s n = code64 s n ∧ code64 s n = defaultRecurrence s.toNat n

theorem widthsAgree_iff {s : ULong 32} {n : ℕ} :
    WidthsAgree s n ↔ code32 s n = defaultRecurrence s.toNat n := by
  unfold WidthsAgree
  rw [code64_eq]
  exact and_iff_left rfl

/-- From an exact code, the next one is exact when the seed is small enough. -/
theorem widthsAgree_succ {s : ULong 32} {n : ℕ} (h : WidthsAgree s n) :
    WidthsAgree s (n + 1) ↔ code32 s n ≤ 449545 := by
  rw [widthsAgree_iff] at h ⊢
  rw [code32_succ, ← step_exact_iff (code32_lt s n)]
  simp only [recurrence, h]

theorem widthsAgree_zero (s : ULong 32) : WidthsAgree s 0 := widthsAgree_iff.2 rfl

/-- The first step is exact for the small seeds. -/
theorem widthsAgree_one {s : ULong 32} : WidthsAgree s 1 ↔ s.toNat ≤ 449545 :=
  widthsAgree_succ (widthsAgree_zero s)

theorem code32_one {s : ULong 32} (h : WidthsAgree s 1) :
    code32 s 1 = (9554 * s.toNat + 5903) % 4152143978 := by
  rw [code32_succ, code32_zero, (step_exact_iff s.isLt).2 (widthsAgree_one.1 h)]

/-- The second step is exact too for two intervals of seeds. -/
theorem widthsAgree_two {s : ULong 32} (h1 : WidthsAgree s 1) : WidthsAgree s 2 ↔
    s.toNat ≤ 46 ∨ (434597 ≤ s.toNat ∧ s.toNat ≤ 434643) := by
  have hs := widthsAgree_one.1 h1
  rw [widthsAgree_succ h1, code32_one h1]
  have hquot : (9554 * s.toNat + 5903) / 4152143978 ≤ 1 := by omega
  rcases Nat.le_one_iff_eq_zero_or_eq_one.1 hquot with h0 | h0 <;> omega

/-- No seed has three exact steps. -/
theorem not_widthsAgree_three {s : ULong 32} (h1 : WidthsAgree s 1) (h2 : WidthsAgree s 2) :
    ¬ WidthsAgree s 3 := by
  have hs := (widthsAgree_two h1).1 h2
  have hc1 := code32_one h1
  have hc2 : code32 s 1 ≤ 449545 := (widthsAgree_succ h1).1 h2
  rw [widthsAgree_succ h2, code32_succ, (step_exact_iff (code32_lt s 1)).2 hc2]
  have hquot : (9554 * code32 s 1 + 5903) / 4152143978 ≤ 1 := by omega
  -- the first step reduces by `m` exactly for the seeds of the second interval
  have hred : (9554 * s.toNat + 5903) / 4152143978 = if s.toNat ≤ 46 then 0 else 1 := by
    split <;> omega
  rcases Nat.le_one_iff_eq_zero_or_eq_one.1 hquot with h0 | h0 <;> split at hred <;> omega

/-- **How long the two widths agree.** The 64-bit codes are always those of the
recurrence. The 32-bit codes agree with them on the first step exactly for seeds up to
449545, on the first two for the seeds listed, and on three steps for no seed. -/
theorem widths_agree_iff (s : ULong 32) : (∀ n, code64 s n = defaultRecurrence s.toNat n) ∧
    (∀ N, (∀ n ≤ N, WidthsAgree s n) ↔
      N = 0 ∨ (N = 1 ∧ s.toNat ≤ 449545) ∨
      (N = 2 ∧ (s.toNat ≤ 46 ∨ (434597 ≤ s.toNat ∧ s.toNat ≤ 434643)))) ∧
    ¬ ∀ n, WidthsAgree s n := by
  refine ⟨code64_eq s, ?_, fun h => not_widthsAgree_three (h 1) (h 2) (h 3)⟩
  intro N
  refine ⟨?_, ?_⟩
  · intro h
    rcases N with _ | _ | _ | N
    · exact Or.inl rfl
    · exact Or.inr (Or.inl ⟨rfl, widthsAgree_one.1 (h 1 le_rfl)⟩)
    · exact Or.inr (Or.inr ⟨rfl, (widthsAgree_two (h 1 (by omega))).1 (h 2 le_rfl)⟩)
    · exact absurd (h 3 (by omega)) (not_widthsAgree_three (h 1 (by omega)) (h 2 (by omega)))
  · rintro (rfl | ⟨rfl, hs⟩ | ⟨rfl, hs⟩) n hn
    · rw [Nat.le_zero.1 hn]
      exact widthsAgree_zero s
    · rcases n with _ | n
      · exact widthsAgree_zero s
      · rw [show n = 0 by omega]
        exact widthsAgree_one.2 hs
    · have h1 : WidthsAgree s 1 := widthsAgree_one.2 (by omega)
      rcases n with _ | _ | n
      · exact widthsAgree_zero s
      · exact h1
      · rw [show n = 0 by omega]
        exact (widthsAgree_two h1).2 hs

/-- The largest seed the tests use: the host gives 2630751737, the ESP32 another code. -/
theorem widths_differ_at_max : code64 4294967295 1 = 2630751737 ∧
    code32 4294967295 1 = 4294963645 - 4152143978 ∧
    ¬ ∀ s n, code32 s n = code64 s n ∧ code64 s n = defaultRecurrence s.toNat n := by
  refine ⟨by decide +kernel, by decide +kernel, fun h => ?_⟩
  have := (h 4294967295 1).1
  revert this
  decide +kernel

end KeyFob
