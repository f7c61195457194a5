import KeyFob.Proof.Script

/-!
# What the parameter script can print

Both lists of candidates are sorted, `randint` never draws the index 0, and a draw past
the end prints nothing. So the script can print exactly the candidates that are not the
smallest of their list (`printed_iff`), the constants of `RollingCode.h` among them.
-/

namespace KeyFob.CalculateMCA

open Finset

variable {fuel : ℕ} {p : Printed} {l : List ℕ} {x : ℕ}

/-- What a draw can reach in a sorted list: all but the first number. -/
theorem exists_index_iff (hl : l.Pairwise (· < ·)) :
    (∃ t, 1 ≤ t ∧ t < l.length ∧ index l t = .ok x) ↔ x ∈ l ∧ ∃ y ∈ l, y < x := by
  cases l with
  | nil =>
    refine ⟨?_, ?_⟩
    · rintro ⟨t, -, hlt, -⟩
      exact absurd hlt (Nat.not_lt_zero t)
    · rintro ⟨hx, -⟩
      exact absurd hx List.not_mem_nil
  | cons y l =>
    obtain ⟨hfirst, -⟩ := List.pairwise_cons.1 hl
    refine ⟨?_, ?_⟩
    · rintro ⟨t, ht, hlt, hindex⟩
      obtain ⟨t, rfl⟩ : ∃ t', t = t' + 1 := ⟨t - 1, by omega⟩
      rw [index, List.getElem?_cons_succ] at hindex
      cases hget : l[t]? with
      | none =>
        rw [hget] at hindex
        cases hindex
      | some z =>
        rw [hget] at hindex
        obtain rfl : z = x := Except.ok.inj hindex
        have hmem := List.mem_of_getElem? hget
        exact ⟨List.mem_cons_of_mem y hmem, y, List.mem_cons_self, hfirst z hmem⟩
    · rintro ⟨hx, z, hz, hlt⟩
      rcases List.mem_cons.1 hx with rfl | hx
      · -- nothing in the list is smaller than its first number
        rcases List.mem_cons.1 hz with rfl | hz
        · omega
        · have := hfirst z hz
          omega
      · obtain ⟨t, hget⟩ := List.mem_iff_getElem?.1 hx
        have ht := (List.getElem?_eq_some_iff.1 hget).1
        refine ⟨t + 1, by omega, by rw [List.length_cons]; omega, ?_⟩
        rw [index, List.getElem?_cons_succ, hget]

theorem kept_sorted (q : ℕ → Prop) [DecidablePred q] :
    ((List.range' 1 9999).filter q).Pairwise (· < ·) := by
  apply List.Pairwise.filter
  exact List.pairwise_lt_range'

/-- The draw that `nearest` makes in range. -/
theorem nearest_value {t n : ℕ} (ht : 1 ≤ t) (hn : t ≤ n) : (Draw.nearest t).value n = t := by
  change max 1 (min t n) = t
  rw [min_eq_left hn, max_eq_right ht]

/-- An index that is drawn and found. -/
def Drawn (l : List ℕ) (x : ℕ) : Prop := ∃ t, 1 ≤ t ∧ t < l.length ∧ index l t = .ok x

/-- One of the two draws of the script. -/
theorem drawn_of_index {d : Draw} (hl : 1 ≤ l.length) (hindex : index l (d.value l.length) = .ok x) :
    Drawn l x := by
  refine ⟨d.value l.length, (d.in_range _ hl).1, ?_, hindex⟩
  by_contra hpast
  rw [index_ge (by omega)] at hindex
  cases hindex

/-- **What was printed was drawn** from the two lists. -/
theorem drawn_of_main {d₀ d₁ d₂ : Draw} {m : ℕ} {o : Options} (hm : d₀.value 4294967295 = m)
    (ho : options fuel m = .ok o) (hmain : main fuel d₀ d₁ d₂ = .ok p) :
    p.m = m ∧ Drawn o.options_a p.a ∧ Drawn o.options_c p.c := by
  rcases Nat.eq_zero_or_pos o.options_a.length with hA | hA
  · exact absurd hmain (ne_ok_of_error (main_empty hm ho hA) p)
  · rw [main_eq hm ho, randint_pos d₁ hA] at hmain
    simp only [bind, Except.bind] at hmain
    cases ha : index o.options_a (d₁.value o.options_a.length) with
    | error e =>
      rw [ha] at hmain
      cases hmain
    | ok a =>
      rcases Nat.eq_zero_or_pos o.options_c.length with hC | hC
      · rw [ha, hC] at hmain
        cases hmain
      · rw [ha, randint_pos d₂ hC] at hmain
        simp only at hmain
        cases hc : index o.options_c (d₂.value o.options_c.length) with
        | error e =>
          rw [hc] at hmain
          cases hmain
        | ok c =>
          rw [hc] at hmain
          obtain rfl : { m := m, c := c, a := a } = p := Except.ok.inj hmain
          exact ⟨rfl, drawn_of_index hA ha, drawn_of_index hC hc⟩

/-- What can be drawn from the list of the numbers that the main loop keeps. -/
theorem drawn_kept_iff (q : ℕ → Prop) [DecidablePred q] :
    Drawn ((List.range' 1 9999).filter q) x ↔ x ∈ (Finset.Ico 1 10000).filter q ∧
      ∃ y ∈ (Finset.Ico 1 10000).filter q, y < x := by
  unfold Drawn
  rw [exists_index_iff (kept_sorted q)]
  simp only [mem_kept]

/-- **What the script can print**, over all draws: a modulus that `randint` can draw, a
candidate for `c` other than 1, and a candidate for `a` other than the smallest. -/
theorem printed_iff (hfuel : 9999 ≤ fuel) (p : Printed) :
    (∃ d₀ d₁ d₂, main fuel d₀ d₁ d₂ = .ok p) ↔
      (1 ≤ p.m ∧ p.m ≤ 4294967295) ∧ (p.c ∈ increments p.m ∧ 1 < p.c) ∧
        p.a ∈ multipliers p.m ∧ ∃ a ∈ multipliers p.m, a < p.a := by
  have hc : Drawn ((List.range' 1 9999).filter fun i => Nat.gcd i p.m = 1) p.c ↔
      p.c ∈ increments p.m ∧ 1 < p.c := by
    rw [drawn_kept_iff]
    refine and_congr_right fun _ => ⟨?_, ?_⟩
    · rintro ⟨y, hy, hlt⟩
      have hlow := (Finset.mem_Ico.1 (Finset.mem_filter.1 hy).1).1
      omega
    · intro hlt
      refine ⟨1, Finset.mem_filter.2 ⟨Finset.mem_Ico.2 ⟨le_rfl, by omega⟩, Nat.gcd_one_left _⟩, hlt⟩
  have ha : Drawn ((List.range' 1 9999).filter fun i => Nat.gcd i p.m ≠ 1 ∧ (4 ∣ i ↔ 4 ∣ p.m)) p.a ↔
      p.a ∈ multipliers p.m ∧ ∃ a ∈ multipliers p.m, a < p.a := drawn_kept_iff _
  rw [← hc, ← ha]
  refine ⟨?_, ?_⟩
  · rintro ⟨d₀, d₁, d₂, hmain⟩
    have hrange := d₀.in_range 4294967295 (by omega)
    obtain ⟨hm, hda, hdc⟩ := drawn_of_main rfl (options_eq (by omega) hfuel) hmain
    rw [hm]
    exact ⟨hrange, hdc, hda⟩
  · rintro ⟨⟨hlow, hhigh⟩, ⟨t2, ht2, hlt2, hindex2⟩, ⟨t1, ht1, hlt1, hindex1⟩⟩
    refine ⟨.nearest p.m, .nearest t1, .nearest t2, ?_⟩
    apply main_ok (nearest_value hlow hhigh) (options_eq (by omega) hfuel)
    · dsimp only
      omega
    · dsimp only
      omega
    · rw [nearest_value ht1 hlt1.le]
      exact hindex1
    · rw [nearest_value ht2 hlt2.le]
      exact hindex2

/-- The constants of `RollingCode.h` are a possible output. -/
theorem printed_defaults :
    ∃ d₀ d₁ d₂, main 9999 d₀ d₁ d₂ = .ok { m := 4152143978, c := 5903, a := 9554 } := by
  apply (printed_iff le_rfl _).2
  simp only [multipliers, increments, Finset.mem_filter, Finset.mem_Ico]
  refine ⟨by omega, by decide, by decide, 2, by decide, by omega⟩

end KeyFob.CalculateMCA
