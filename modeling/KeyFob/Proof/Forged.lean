import KeyFob.Proof.Leds
import KeyFob.Proof.Replay
import Mathlib.Data.Set.Card
import Mathlib.Order.Interval.Finset.Nat

/-!
# Forged frames

Frames made by anyone, with any code, stamp and action, arrive at the deployed receiver.

* `accepted_codes`: the codes it accepts are always the last ones of the first 46, they
  only get fewer, and 17 of them are left for good.
* `one_late_code`: a frame from press 29 on, once recorded, gives the car away: its code
  carries any signals at any time.
-/

namespace KeyFob

open RollingCode Receiver

variable {r : Receiver} {p q : ℕ} {code : ULong 32}

/-! ## The codes a receiver accepts -/

/-- The codes that the receiver accepts. -/
def Receiver.codes (r : Receiver) : Set (ULong 32) := {code | r.rollingCode.InWindow code}

/-- **Any frame moves the receiver forward** in the code sequence. -/
theorem Receiver.moves (hr : r.At p) (f : struct_message) (clock : timeval) :
    ∃ p', p ≤ p' ∧ (r.OnDataRecv f clock).At p' := by
  by_cases hwin : r.rollingCode.InWindow f.rollingCode
  · obtain ⟨k, -, hk⟩ := hwin
    have hcode : f.rollingCode = deployed.code (p + k) := by
      rw [← hk, hr, code_moveTo]
    obtain ⟨p', hle, hat, -⟩ := Receiver.advance hr hcode clock
    exact ⟨p', hle, hat⟩
  · refine ⟨p, le_rfl, ?_⟩
    unfold Receiver.At
    rw [OnDataRecv_rollingCode, matches_snd, if_neg hwin]
    exact hr

theorem Receiver.moves_run (as : List Arrival) : ∀ {r : Receiver} {p : ℕ}, r.At p →
    ∃ p', p ≤ p' ∧ (Receiver.machine.runFrom r as).At p' := by
  induction as with
  | nil => intro r p hr; exact ⟨p, le_rfl, hr⟩
  | cons a as ih =>
    intro r p hr
    obtain ⟨p₁, hle₁, hat₁⟩ := Receiver.moves hr a.1 a.2
    obtain ⟨p₂, hle₂, hat₂⟩ := ih hat₁
    exact ⟨p₂, hle₁.trans hle₂, hat₂⟩

/-- **The codes in the window** of a receiver at code `p`. -/
theorem Receiver.At.inWindow_iff (hr : r.At p) : r.rollingCode.InWindow code ↔
    ∃ l, min p 29 ≤ l ∧ l ≤ 45 ∧ deployed.code l = code := by
  rw [hr, inWindow_moveTo]
  refine ⟨?_, ?_⟩
  · rintro ⟨k, hk, rfl⟩
    have hlt := deployed_rho.fold_lt (p + k)
    refine ⟨Orbit.fold 29 17 (p + k), ?_, by omega, ?_⟩
    · unfold Orbit.fold
      split <;> omega
    · rw [code_eq, code_eq, deployed_rho.iterate_fold]
  · rintro ⟨l, hl, hle, rfl⟩
    rcases Nat.lt_or_ge l 29 with htail | hlate
    · exact ⟨l - p, by unfold SEARCH_LIMIT; omega, by rw [Nat.add_sub_cancel' (by omega)]⟩
    · exact (inWindow_moveTo p _).1 (deployed_cycle_inWindow p hlate)

/-- The first 46 codes are distinct. -/
theorem deployed_injOn : Set.InjOn deployed.code (Set.Icc q 45) := by
  intro i hi j hj heq
  rcases deployed_code_eq_iff.1 heq with hij | ⟨h1, h2, hmod⟩
  · exact hij
  · have hi' := hi.2
    have hj' := hj.2
    have hshift : i - 29 ≡ j - 29 [MOD 17] := by
      apply Nat.ModEq.add_right_cancel' 29
      rwa [Nat.sub_add_cancel h1, Nat.sub_add_cancel h2]
    have := hshift.eq_of_lt_of_lt (by omega) (by omega)
    omega

theorem Receiver.At.codes_eq (hr : r.At p) :
    r.codes = deployed.code '' Set.Icc (min p 29) 45 := by
  ext code
  refine hr.inWindow_iff.trans ?_
  simp only [Set.mem_image, Set.mem_Icc, and_assoc]

/-- **The codes the receiver accepts** in the course of its life. After any arrivals they
are the codes `q, ..., 45` for some `q ≤ 29`, so at least 17 and at most 46 of them, and
whatever arrives later, no others are accepted again. -/
theorem accepted_codes (as : List Arrival) :
    let r := Receiver.machine.run as
    (∃ q ≤ 29, r.codes = deployed.code '' Set.Icc q 45 ∧ r.codes.ncard = 46 - q) ∧
    ∀ more, (Receiver.machine.run (as ++ more)).codes ⊆ r.codes := by
  intro r
  obtain ⟨p, -, hp⟩ := Receiver.moves_run as (r := Receiver.boot.setup) (p := 0) rfl
  have hcodes : r.codes = deployed.code '' Set.Icc (min p 29) 45 := hp.codes_eq
  refine ⟨⟨min p 29, min_le_right _ _, hcodes, ?_⟩, ?_⟩
  · rw [hcodes, deployed_injOn.ncard_image, ← Finset.coe_Icc, Set.ncard_coe_finset, Nat.card_Icc]
  · intro more
    obtain ⟨p', hle, hp'⟩ := Receiver.moves_run more hp
    have hafter : (Receiver.machine.run (as ++ more)).At p' := by
      rw [Machine.run, Machine.runFrom_append]
      exact hp'
    rw [hafter.codes_eq, hcodes]
    apply Set.image_mono
    apply Set.Icc_subset_Icc_left
    omega

/-! ## One code -/

/-- A code in the window of a receiver that has just found it. -/
theorem inWindow_again (r : Receiver) (f : struct_message) (clock : timeval)
    (hwin : r.rollingCode.InWindow f.rollingCode) :
    (r.OnDataRecv f clock).rollingCode.InWindow f.rollingCode := by
  rw [OnDataRecv_rollingCode, matches_snd, if_pos hwin]
  exact ⟨0, Nat.zero_le _, rfl⟩

/-- **One code carries any signals.** -/
theorem signals_of_code (bs : List Arrival) : ∀ as : List Arrival,
    (Receiver.machine.run as).rollingCode.InWindow code →
    (∀ b ∈ bs, b.1.rollingCode = code ∧ isValidTime b.2.micros b.1.tv_now.micros = true) →
    acceptedSignals (as ++ bs) = acceptedSignals as ++ bs.map fun b => b.1.action := by
  induction bs with
  | nil => intro as _ _; simp
  | cons b bs ih =>
    intro as hwin hbs
    obtain ⟨rfl, hvalid⟩ := hbs b List.mem_cons_self
    have hacc : (Receiver.machine.run as).Accepts b.1 b.2 := accepts_iff.2 ⟨hwin, hvalid⟩
    have hnext : (Receiver.machine.run (as ++ [b])).rollingCode.InWindow b.1.rollingCode := by
      rw [Machine.run_concat]
      exact inWindow_again _ _ _ hwin
    have hrest := ih (as ++ [b]) hnext fun x hx => hbs x (List.mem_cons_of_mem b hx)
    rw [acceptedSignals_concat, signal_accepted hacc] at hrest
    rw [List.append_cons, hrest, List.append_assoc]
    rfl

/-- **One late frame gives the car away.** After any arrivals, the code of press 29 or any
later one carries any signals, as long as the stamps pass the clock check, and the
receiver shows the car that these signals move. -/
theorem one_late_code (as bs : List Arrival) {l : ℕ} (hl : 29 ≤ l)
    (hbs : ∀ b ∈ bs, b.1.rollingCode = deployed.code l ∧
      isValidTime b.2.micros b.1.tv_now.micros = true) :
    acceptedSignals (as ++ bs) = acceptedSignals as ++ bs.map (fun b => b.1.action) ∧
    Shows (Receiver.machine.run (as ++ bs))
      (Car.machine.runFrom (carAfter as) (bs.map fun b => b.1.action)) := by
  obtain ⟨p, -, hp⟩ := Receiver.moves_run as (r := Receiver.boot.setup) (p := 0) rfl
  have hwin : (Receiver.machine.run as).rollingCode.InWindow (deployed.code l) := by
    rw [show (Receiver.machine.run as).rollingCode = _ from hp]
    exact deployed_cycle_inWindow p hl
  have hsignals := signals_of_code bs as hwin hbs
  refine ⟨hsignals, ?_⟩
  have hshow := carAfter_shows (as ++ bs)
  have hcar : carAfter (as ++ bs) =
      Car.machine.runFrom (carAfter as) (bs.map fun b => b.1.action) := by
    unfold carAfter
    rw [hsignals]
    exact Machine.runFrom_append _ _ _ _
  rw [hcar] at hshow
  exact hshow

/-- The code of press 40 unlocks a car just powered on, and rolls its window down. -/
theorem one_late_code_window :
    acceptedSignals ([] ++ [(frameAt 40 UNLOCK_SIGNAL, powerOn), (frameAt 40 WINDOW_SIGNAL, powerOn),
      (frameAt 40 WINDOW_DOWN_SIGNAL, powerOn)]) =
      acceptedSignals [] ++ [UNLOCK_SIGNAL, WINDOW_SIGNAL, WINDOW_DOWN_SIGNAL] := by
  refine (one_late_code [] [(frameAt 40 UNLOCK_SIGNAL, powerOn), (frameAt 40 WINDOW_SIGNAL, powerOn),
    (frameAt 40 WINDOW_DOWN_SIGNAL, powerOn)] (l := 40) (by decide) ?_).1
  intro b hb
  simp only [List.mem_cons, List.not_mem_nil, or_false] at hb
  rcases hb with rfl | rfl | rfl
  · exact ⟨rfl, by decide⟩
  · exact ⟨rfl, by decide⟩
  · exact ⟨rfl, by decide⟩

end KeyFob
