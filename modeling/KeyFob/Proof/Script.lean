import KeyFob.Proof.Factors

/-!
# What the parameter script prints

* `options_eq`: the two lists that the main loop collects. Every number passes the test
  against its own prime factors, so `options_a` holds what shares a factor with `m`.
* `main_cases`: how the script ends. `randint(1, len)` never draws the index 0, and its
  highest draw is past the end of the list.
* `prints_iff`: the draws with which the script comes to its last line.
* `demanded_iff`: what it prints never meets the conditions of the header.
-/

namespace KeyFob.CalculateMCA

open Finset

variable {fuel m i : ℕ} {d₀ d₁ d₂ : Draw} {o : Options} {p : Printed}

/-! ## The main loop -/

/-- **One turn of the main loop.** -/
theorem candidate_eq (hm : 0 < m) (hi : 1 ≤ i) (hfuel : i ≤ fuel) :
    candidate fuel m o i = .ok
      { options_c := o.options_c ++ [i].filter fun i => Nat.gcd i m = 1,
        options_a := o.options_a ++ [i].filter fun i => Nat.gcd i m ≠ 1 ∧ (4 ∣ i ↔ 4 ∣ m) } := by
  rw [candidate, hcf_eq_gcd hi hm]
  by_cases hgcd : Nat.gcd i m = 1
  · simp [hgcd]
  · have hne : i ≠ 1 := by
      rintro rfl
      exact hgcd (Nat.gcd_one_left m)
    -- a prime factor of `i` divides `i`
    have hall : ∀ n ∈ i.primeFactors, i % n = 0 := by
      intro n hn
      exact Nat.mod_eq_zero_of_dvd (Nat.dvd_of_mem_primeFactors hn)
    rw [if_neg hgcd, calculate_prime_factors_eq (by omega) hfuel]
    dsimp only
    rw [if_pos hall]
    simp only [Nat.dvd_iff_mod_eq_zero]
    by_cases hm4 : m % 4 = 0
    · by_cases hi4 : i % 4 = 0 <;> simp [hgcd, hm4, hi4]
    · by_cases hi4 : i % 4 = 0 <;> simp [hgcd, hm4, hi4]

theorem foldlM_candidate (hm : 0 < m) : ∀ (l : List ℕ) (o : Options),
    (∀ i ∈ l, 1 ≤ i ∧ i ≤ fuel) →
    l.foldlM (candidate fuel m) o = .ok
      { options_c := o.options_c ++ l.filter fun i => Nat.gcd i m = 1,
        options_a := o.options_a ++ l.filter fun i => Nat.gcd i m ≠ 1 ∧ (4 ∣ i ↔ 4 ∣ m) } := by
  intro l
  induction l with
  | nil =>
    intro o _
    simp only [List.filter_nil, List.append_nil]
    rfl
  | cons i l ih =>
    intro o hl
    obtain ⟨hi, hfuel⟩ := hl i List.mem_cons_self
    have hrest : ∀ j ∈ l, 1 ≤ j ∧ j ≤ fuel := fun j hj => hl j (List.mem_cons_of_mem i hj)
    have hsplit : i :: l = [i] ++ l := rfl
    rw [List.foldlM_cons, candidate_eq hm hi hfuel, hsplit, List.filter_append,
      List.filter_append, ← List.append_assoc, ← List.append_assoc]
    exact ih _ hrest

/-- **The two lists** at the end of the main loop. -/
theorem options_eq (hm : 0 < m) (hfuel : 9999 ≤ fuel) :
    options fuel m = .ok
      { options_c := (List.range' 1 9999).filter fun i => Nat.gcd i m = 1,
        options_a := (List.range' 1 9999).filter fun i =>
          Nat.gcd i m ≠ 1 ∧ (4 ∣ i ↔ 4 ∣ m) } := by
  have hl : ∀ i ∈ List.range' 1 9999, 1 ≤ i ∧ i ≤ fuel := by
    intro i hi
    obtain ⟨hlow, hhigh⟩ := List.mem_range'_1.1 hi
    omega
  exact foldlM_candidate hm _ _ hl

/-! ## How the script ends -/

/-- The length of a list that the main loop collects. -/
theorem card_kept (q : ℕ → Prop) [DecidablePred q] :
    #((Finset.Ico 1 10000).filter q) = ((List.range' 1 9999).filter q).length := by
  have hnodup : (List.range' 1 9999).Nodup := List.nodup_range' 1
  have hset : (Finset.Ico 1 10000).filter q = ((List.range' 1 9999).filter q).toFinset := by
    rw [List.toFinset_filter, List.toFinset_range'_1]
    simp only [decide_eq_true_eq]
  rw [hset, List.toFinset_card_of_nodup (hnodup.filter _)]

theorem mem_kept (q : ℕ → Prop) [DecidablePred q] :
    i ∈ (List.range' 1 9999).filter q ↔ i ∈ (Finset.Ico 1 10000).filter q := by
  rw [List.mem_filter, List.mem_range'_1, Finset.mem_filter, Finset.mem_Ico, decide_eq_true_eq]

theorem randint_pos (d : Draw) {n : ℕ} (hn : 1 ≤ n) : randint d n = .ok (d.value n) := by
  rw [randint, if_neg (by omega)]

theorem index_lt {xs : List ℕ} (hi : i < xs.length) : ∃ x ∈ xs, index xs i = .ok x := by
  refine ⟨xs[i], List.getElem_mem hi, ?_⟩
  rw [index, List.getElem?_eq_getElem hi]

theorem index_ge {xs : List ℕ} (hi : xs.length ≤ i) : index xs i = .error .IndexError := by
  rw [index, List.getElem?_eq_none hi]

/-- The script after its main loop. -/
theorem main_eq (hm : d₀.value 4294967295 = m) (ho : options fuel m = .ok o) :
    main fuel d₀ d₁ d₂ = (do
      let t1 ← randint d₁ o.options_a.length
      let r_a ← index o.options_a t1
      let t2 ← randint d₂ o.options_c.length
      let r_c ← index o.options_c t2
      return { m := m, c := r_c, a := r_a }) := by
  rw [main, randint_pos d₀ (by omega), hm]
  simp only [bind, Except.bind, ho]

theorem main_empty (hm : d₀.value 4294967295 = m) (ho : options fuel m = .ok o)
    (hA : o.options_a.length = 0) : main fuel d₀ d₁ d₂ = .error .ValueError := by
  rw [main_eq hm ho, hA]
  rfl

theorem main_ok {a c : ℕ} (hm : d₀.value 4294967295 = m) (ho : options fuel m = .ok o)
    (hA : 1 ≤ o.options_a.length) (hC : 1 ≤ o.options_c.length)
    (ha : index o.options_a (d₁.value o.options_a.length) = .ok a)
    (hc : index o.options_c (d₂.value o.options_c.length) = .ok c) :
    main fuel d₀ d₁ d₂ = .ok { m := m, c := c, a := a } := by
  rw [main_eq hm ho, randint_pos d₁ hA, randint_pos d₂ hC]
  simp only [bind, Except.bind, ha, hc]
  rfl

/-- A draw past the end of the first list, or of the second. -/
theorem main_past (hm : d₀.value 4294967295 = m) (ho : options fuel m = .ok o)
    (hA : 1 ≤ o.options_a.length) (hC : 1 ≤ o.options_c.length)
    (hpast : o.options_a.length ≤ d₁.value o.options_a.length ∨
      o.options_c.length ≤ d₂.value o.options_c.length) :
    main fuel d₀ d₁ d₂ = .error .IndexError := by
  rw [main_eq hm ho, randint_pos d₁ hA, randint_pos d₂ hC]
  simp only [bind, Except.bind]
  rcases Nat.lt_or_ge (d₁.value o.options_a.length) o.options_a.length with ht1 | ht1
  · obtain ⟨a, -, ha⟩ := index_lt ht1
    have ht2 := hpast.resolve_left (by omega)
    rw [ha, index_ge ht2]
  · rw [index_ge ht1]

/-- 1 is always kept for `c`. -/
theorem increments_pos (m : ℕ) : 1 ≤ #(increments m) := by
  apply Finset.card_pos.2
  refine ⟨1, Finset.mem_filter.2 ⟨Finset.mem_Ico.2 ⟨le_rfl, by omega⟩, Nat.gcd_one_left m⟩⟩

/-- **How the script ends**: with no candidate for `a`, with a draw past the end of one of
the lists, or with a candidate for each. -/
theorem main_cases (d₁ d₂ : Draw) (hfuel : 9999 ≤ fuel) (hm : d₀.value 4294967295 = m) :
    (#(multipliers m) = 0 ∧ main fuel d₀ d₁ d₂ = .error .ValueError) ∨
      (0 < #(multipliers m) ∧
        (d₁.value #(multipliers m) = #(multipliers m) ∨
          d₂.value #(increments m) = #(increments m)) ∧
        main fuel d₀ d₁ d₂ = .error .IndexError) ∨
      (0 < #(multipliers m) ∧ d₁.value #(multipliers m) < #(multipliers m) ∧
        d₂.value #(increments m) < #(increments m) ∧
        ∃ a ∈ multipliers m, ∃ c ∈ increments m,
          main fuel d₀ d₁ d₂ = .ok { m := m, c := c, a := a }) := by
  have hpos : 1 ≤ m := hm ▸ (d₀.in_range 4294967295 (by omega)).1
  have ho := options_eq hpos hfuel
  have hA := card_kept fun i => Nat.gcd i m ≠ 1 ∧ (4 ∣ i ↔ 4 ∣ m)
  have hC := card_kept fun i => Nat.gcd i m = 1
  change #(multipliers m) = _ at hA
  change #(increments m) = _ at hC
  have hCpos := increments_pos m
  obtain ⟨-, hC_le⟩ := d₂.in_range _ hCpos
  rcases Nat.eq_zero_or_pos #(multipliers m) with hzero | hApos
  · left
    exact ⟨hzero, main_empty hm ho (hA ▸ hzero)⟩
  · obtain ⟨-, hA_le⟩ := d₁.in_range _ hApos
    right
    by_cases hlast : d₁.value #(multipliers m) = #(multipliers m) ∨
        d₂.value #(increments m) = #(increments m)
    · left
      refine ⟨hApos, hlast, ?_⟩
      rw [hA] at hApos
      rw [hC] at hCpos
      rw [hA, hC] at hlast
      exact main_past hm ho hApos hCpos (hlast.imp ge_of_eq ge_of_eq)
    · right
      rw [not_or] at hlast
      have ht1 := Nat.lt_of_le_of_ne hA_le hlast.1
      have ht2 := Nat.lt_of_le_of_ne hC_le hlast.2
      refine ⟨hApos, ht1, ht2, ?_⟩
      rw [hA] at hApos ht1
      rw [hC] at hCpos ht2
      obtain ⟨a, ha, hindex⟩ := index_lt ht1
      obtain ⟨c, hc, hindex'⟩ := index_lt ht2
      exact ⟨a, (mem_kept _).1 ha, c, (mem_kept _).1 hc, main_ok hm ho hApos hCpos hindex hindex'⟩

theorem ne_ok_of_error {e : Failure} (hmain : main fuel d₀ d₁ d₂ = .error e) :
    ∀ p, main fuel d₀ d₁ d₂ ≠ .ok p := by
  intro p hp
  rw [hmain] at hp
  cases hp

/-- There is a candidate for `a` as soon as `m` has a prime factor in reach. -/
theorem multipliers_pos_iff (m : ℕ) :
    0 < #(multipliers m) ↔ ∃ q < 10000, q.Prime ∧ q ∣ m := by
  rw [Finset.card_pos]
  refine ⟨?_, ?_⟩
  · rintro ⟨i, hi⟩
    obtain ⟨hrange, hgcd, -⟩ := Finset.mem_filter.1 hi
    obtain ⟨hlow, hhigh⟩ := Finset.mem_Ico.1 hrange
    obtain ⟨q, hq, hdvd⟩ := Nat.exists_prime_and_dvd hgcd
    have hle : q ≤ i := Nat.le_of_dvd hlow (hdvd.trans (Nat.gcd_dvd_left i m))
    exact ⟨q, by omega, hq, hdvd.trans (Nat.gcd_dvd_right i m)⟩
  · rintro ⟨q, hlt, hq, hdvd⟩
    by_cases hm4 : 4 ∣ m
    · refine ⟨4, Finset.mem_filter.2 ⟨Finset.mem_Ico.2 ⟨by omega, by omega⟩, ?_⟩⟩
      rw [Nat.gcd_eq_left hm4]
      exact ⟨by omega, iff_of_true dvd_rfl hm4⟩
    · have hq4 : ¬ 4 ∣ q := fun h => hm4 (h.trans hdvd)
      have hq1 := hq.one_lt
      refine ⟨q, Finset.mem_filter.2 ⟨Finset.mem_Ico.2 ⟨by omega, hlt⟩, ?_⟩⟩
      rw [Nat.gcd_eq_left hdvd]
      exact ⟨by omega, iff_of_false hq4 hm4⟩

/-! ## Failures -/

/-- **The script comes to its last line** if and only if `m` has a prime factor in reach
and neither index is the highest that `randint` can draw. -/
theorem prints_iff (hfuel : 9999 ≤ fuel) (hm : d₀.value 4294967295 = m) :
    (∃ p, main fuel d₀ d₁ d₂ = .ok p) ↔
      (∃ q < 10000, q.Prime ∧ q ∣ m) ∧ d₁.value #(multipliers m) ≠ #(multipliers m) ∧
        d₂.value #(increments m) ≠ #(increments m) := by
  rw [← multipliers_pos_iff]
  rcases main_cases d₁ d₂ hfuel hm with
    ⟨hzero, hmain⟩ | ⟨hpos, hlast, hmain⟩ | ⟨hpos, ht1, ht2, a, -, c, -, hmain⟩
  · refine ⟨?_, ?_⟩
    · rintro ⟨p, hp⟩
      exact absurd hp (ne_ok_of_error hmain p)
    · rintro ⟨hpos, -⟩
      omega
  · refine ⟨?_, ?_⟩
    · rintro ⟨p, hp⟩
      exact absurd hp (ne_ok_of_error hmain p)
    · rintro ⟨-, ht1, ht2⟩
      rcases hlast with h | h
      · exact absurd h ht1
      · exact absurd h ht2
  · refine ⟨?_, ?_⟩
    · intro _
      exact ⟨hpos, by omega, by omega⟩
    · intro _
      exact ⟨_, hmain⟩

theorem prints_iff_four :
    (∃ p, main 9999 (Draw.nearest 4) (Draw.nearest 1) (Draw.nearest 1) = .ok p) ↔
      (∃ q < 10000, q.Prime ∧ q ∣ 4) ∧
        (Draw.nearest 1).value #(multipliers 4) ≠ #(multipliers 4) ∧
        (Draw.nearest 1).value #(increments 4) ≠ #(increments 4) :=
  prints_iff le_rfl (by decide)

/-- For `m = 1` there is no candidate for `a`; with the highest draws the first index is
past the end of its list. -/
theorem script_fails :
    main 9999 (Draw.nearest 1) (Draw.nearest 1) (Draw.nearest 1) = .error .ValueError ∧
      main 9999 Draw.highest Draw.highest Draw.highest = .error .IndexError := by
  refine ⟨?_, ?_⟩
  · have hnone : ¬ 0 < #(multipliers 1) := by
      rw [multipliers_pos_iff]
      rintro ⟨q, -, hq, hdvd⟩
      exact hq.one_lt.ne' (Nat.dvd_one.1 hdvd)
    have hm : (Draw.nearest 1).value 4294967295 = 1 := by decide
    rcases main_cases (.nearest 1) (.nearest 1) (le_refl 9999) hm with
      ⟨-, hmain⟩ | ⟨hpos, -⟩ | ⟨hpos, -⟩
    · exact hmain
    · exact absurd hpos hnone
    · exact absurd hpos hnone
  · have hsome : 0 < #(multipliers 4294967295) :=
      (multipliers_pos_iff _).2 ⟨3, by omega, Nat.prime_three, by omega⟩
    have hm : Draw.highest.value 4294967295 = 4294967295 := rfl
    rcases main_cases .highest .highest (le_refl 9999) hm with
      ⟨hzero, -⟩ | ⟨-, -, hmain⟩ | ⟨-, hlt, -⟩
    · omega
    · exact hmain
    · exact absurd hlt (lt_irrefl _)

/-! ## The conditions of the header -/

theorem not_dvd_pred {d a : ℕ} (hd : 1 < d) (ha : 0 < a) (hdvd : d ∣ a) : ¬ d ∣ a - 1 := by
  intro hpred
  have hone : d ∣ a - (a - 1) := Nat.dvd_sub hdvd hpred
  rw [Nat.sub_sub_self ha, Nat.dvd_one] at hone
  omega

/-- **A candidate for `a`** shares a prime with `m`, so nothing that is asked of `a - 1`
holds of it. -/
theorem multipliers_spec {a : ℕ} (hm : 0 < m) (ha : a ∈ multipliers m) :
    (∃ q, q.Prime ∧ q ∣ m ∧ ¬ q ∣ a - 1) ∧ (4 ∣ m → ¬ 4 ∣ a - 1) ∧
      ∀ c x, ¬ Lcg.FullPeriod m a c x := by
  obtain ⟨hrange, hgcd, hfour⟩ := Finset.mem_filter.1 ha
  obtain ⟨hlow, -⟩ := Finset.mem_Ico.1 hrange
  obtain ⟨q, hq, hdvd⟩ := Nat.exists_prime_and_dvd hgcd
  have hqa : q ∣ a := hdvd.trans (Nat.gcd_dvd_left a m)
  have hqm : q ∣ m := hdvd.trans (Nat.gcd_dvd_right a m)
  refine ⟨⟨q, hq, hqm, not_dvd_pred hq.one_lt hlow hqa⟩, ?_, ?_⟩
  · intro hm4
    exact not_dvd_pred (by omega) hlow (hfour.2 hm4)
  · intro c x
    exact Lcg.not_fullPeriod hm hq.one_lt hqm hqa

/-- The parameters in `RollingCode.h` are of this kind. -/
example : 9554 ∈ multipliers 4152143978 ∧ 5903 ∈ increments 4152143978 := by
  simp only [multipliers, increments, Finset.mem_filter, Finset.mem_Ico]
  decide

/-- **The printed parameters never meet the conditions**, so they are met vacuously or not
at all: `c` is coprime to `m`, but of `a` the script tests the wrong divisibilities, and
no generator with its parameters has full period. -/
theorem demanded_iff (hfuel : 9999 ≤ fuel) (hm : d₀.value 4294967295 = m) :
    ((∀ p, main fuel d₀ d₁ d₂ = .ok p → p.Demanded) ↔
        #(multipliers m) = 0 ∨ d₁.value #(multipliers m) = #(multipliers m) ∨
          d₂.value #(increments m) = #(increments m)) ∧
      ∀ p, main fuel d₀ d₁ d₂ = .ok p → p.m = m ∧ Nat.gcd p.c m = 1 ∧
        (∃ q, q.Prime ∧ q ∣ m ∧ ¬ q ∣ p.a - 1) ∧ (4 ∣ m → ¬ 4 ∣ p.a - 1) ∧
        ∀ x, ¬ Lcg.FullPeriod m p.a p.c x := by
  have hpos : 0 < m := hm ▸ (d₀.in_range 4294967295 (by omega)).1
  rcases main_cases d₁ d₂ hfuel hm with
    ⟨hzero, hmain⟩ | ⟨-, hlast, hmain⟩ | ⟨hA, ht1, ht2, a, ha, c, hc, hmain⟩
  · have hno := ne_ok_of_error hmain
    exact ⟨iff_of_true (fun p hp => absurd hp (hno p)) (Or.inl hzero),
      fun p hp => absurd hp (hno p)⟩
  · have hno := ne_ok_of_error hmain
    exact ⟨iff_of_true (fun p hp => absurd hp (hno p)) (Or.inr hlast),
      fun p hp => absurd hp (hno p)⟩
  · obtain ⟨hfactor, hfour, hperiod⟩ := multipliers_spec hpos ha
    refine ⟨?_, ?_⟩
    · refine ⟨?_, ?_⟩
      · intro hall
        obtain ⟨q, hq, hqm, hnot⟩ := hfactor
        exact absurd ((hall _ hmain).factors q hq hqm) hnot
      · rintro (h | h | h) <;> omega
    · intro p hp
      obtain rfl : { m := m, c := c, a := a } = p := Except.ok.inj (hmain.symm.trans hp)
      exact ⟨rfl, (Finset.mem_filter.1 hc).2, hfactor, hfour, hperiod c⟩

theorem demanded_iff_four :
    ((∀ p, main 9999 (Draw.nearest 4) (Draw.nearest 1) (Draw.nearest 1) = .ok p → p.Demanded) ↔
        #(multipliers 4) = 0 ∨ (Draw.nearest 1).value #(multipliers 4) = #(multipliers 4) ∨
          (Draw.nearest 1).value #(increments 4) = #(increments 4)) ∧
      ∀ p, main 9999 (Draw.nearest 4) (Draw.nearest 1) (Draw.nearest 1) = .ok p → p.m = 4 ∧
        Nat.gcd p.c 4 = 1 ∧ (∃ q, q.Prime ∧ q ∣ 4 ∧ ¬ q ∣ p.a - 1) ∧ (4 ∣ 4 → ¬ 4 ∣ p.a - 1) ∧
        ∀ x, ¬ Lcg.FullPeriod 4 p.a p.c x :=
  demanded_iff le_rfl (by decide)

/-- With the modulus 4 and the lowest draws the script prints `c = 3` and `a = 8`, where
`a - 1 = 7` should be even. -/
theorem prints_eight :
    main 9999 (Draw.nearest 4) (Draw.nearest 1) (Draw.nearest 1) =
        .ok { m := 4, c := 3, a := 8 } ∧
      ¬ Printed.Demanded { m := 4, c := 3, a := 8 } := by
  refine ⟨?_, ?_⟩
  · have hm : (Draw.nearest 4).value 4294967295 = 4 := by decide
    have hone : ∀ n, (Draw.nearest 1).value n = 1 := fun n => max_eq_left (min_le_left 1 n)
    -- the two candidates are among the first eight numbers
    obtain ⟨rest, hsplit⟩ : ∃ rest, List.range' 1 9999 = List.range' 1 8 ++ rest := by
      have hsum : 9999 = 8 + 9991 := by omega
      rw [hsum, ← List.range'_append_1]
      exact ⟨_, rfl⟩
    obtain ⟨as, ha⟩ : ∃ as, ((List.range' 1 9999).filter fun i =>
        Nat.gcd i 4 ≠ 1 ∧ (4 ∣ i ↔ 4 ∣ 4)) = 4 :: 8 :: as := by
      have hfirst : ((List.range' 1 8).filter fun i =>
          Nat.gcd i 4 ≠ 1 ∧ (4 ∣ i ↔ 4 ∣ 4)) = [4, 8] := by decide
      rw [hsplit, List.filter_append, hfirst]
      exact ⟨_, rfl⟩
    obtain ⟨cs, hc⟩ : ∃ cs, ((List.range' 1 9999).filter fun i => Nat.gcd i 4 = 1) =
        1 :: 3 :: cs := by
      have hfirst : ((List.range' 1 8).filter fun i => Nat.gcd i 4 = 1) = [1, 3, 5, 7] := by
        decide
      rw [hsplit, List.filter_append, hfirst]
      exact ⟨_, rfl⟩
    have ho := options_eq (m := 4) (by omega) (le_refl 9999)
    rw [ha, hc] at ho
    apply main_ok hm ho
    · exact Nat.le_add_left 1 _
    · exact Nat.le_add_left 1 _
    · rw [hone]
      rfl
    · rw [hone]
      rfl
  · intro hall
    have hodd := hall.factors 2 Nat.prime_two (by decide)
    revert hodd
    decide

end KeyFob.CalculateMCA
