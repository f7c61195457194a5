import KeyFob.Proof.Car
import KeyFob.Proof.Conditions
import KeyFob.Spec.Restart

/-!
# What power cuts do to the pair

* `Field.refines`: for every generator the channel with power cuts refines the machine on
  numbers, as long as the codes tell the numbers apart as far as the search looks.
* `Powered.refines`: the two sketches refine the channel between two deployed generators.
-/

namespace KeyFob

open RollingCode

variable {w : ℕ} {rc : RollingCode w} {reach : ℕ → ℕ → Prop} {B : ℕ → Prop} {s : Field w}
  {ν : Numbers}

/-- A receiver at code `p` finds code `l`. -/
def RollingCode.Reaches (rc : RollingCode w) (p l : ℕ) : Prop :=
  ∃ k, k ≤ SEARCH_LIMIT ∧ rc.code (p + k) = rc.code l

theorem inWindow_iff_reaches {p l : ℕ} :
    (rc.moveTo (rc.code p)).InWindow (rc.code l) ↔ rc.Reaches p l := inWindow_moveTo p _

/-- Among the numbers in `B` the receiver finds what `reach` says. -/
def RollingCode.ReachesAs (rc : RollingCode w) (B : ℕ → Prop) (reach : ℕ → ℕ → Prop) : Prop :=
  B 0 ∧ ∀ p l, B p → B l → (rc.Reaches p l ↔ reach p l)

/-! ## The channel -/

/-- The channel state that stands for given numbers. -/
def Field.OnNumbers (rc : RollingCode w) (s : Field w) (ν : Numbers) : Prop :=
  s = { fob := rc.moveTo (rc.code ν.pressed), pressed := ν.pressed,
        air := ν.air.map fun l => ⟨rc.code l, l⟩,
        receiver := rc.moveTo (rc.code ν.last), last := ν.last }

/-- All numbers are in `B`. -/
structure Numbers.Within (B : ℕ → Prop) (ν : Numbers) : Prop where
  air : ∀ l ∈ ν.air, B l
  last : B ν.last

theorem Numbers.Within.get (h : ν.Within B) {i l : ℕ} (hl : ν.air[i]? = some l) : B l :=
  h.air l (List.mem_of_getElem? hl)

/-- **The channel refines the machine on numbers**, while the fob's numbers are in `B`. -/
theorem Field.refines [DecidableRel reach] (hreach : rc.ReachesAs B reach) :
    Machine.Refines (Field.machine rc) (Numbers.machine reach)
      (fun s e => B (s.step rc e).pressed) (fun _ e => some e)
      (fun s ν => s.OnNumbers rc ν ∧ ν.Within B) where
  init := by
    refine ⟨?_, ?_, hreach.1⟩
    · rfl
    · intro l hl
      exact absurd hl List.not_mem_nil
  step := by
    rintro s ν e ⟨rfl, hB⟩ hA
    cases e with
    | send =>
      refine ⟨?_, ?_, hB.last⟩
      · simp [Field.OnNumbers, Field.machine, Field.step, Numbers.machine, Numbers.step, next_moveTo]
      · intro l hl
        rcases List.mem_append.1 hl with hl | hl
        · exact hB.air l hl
        · rw [List.mem_singleton.1 hl]
          exact hA
    | deliver i =>
      simp only [Option.elim_some, Field.machine, Numbers.machine, Field.step, Numbers.step,
        List.getElem?_map]
      cases hl : ν.air[i]? with
      | none => exact ⟨rfl, hB⟩
      | some l =>
        have hfind := hreach.2 ν.last l hB.last (hB.get hl)
        rw [← inWindow_iff_reaches] at hfind
        simp only [Option.map_some, matches_eq]
        by_cases hr : reach ν.last l
        · rw [if_pos (hfind.2 hr), if_pos hr]
          exact ⟨rfl, hB.air, hB.get hl⟩
        · rw [if_neg (mt hfind.1 hr), if_neg hr]
          exact ⟨rfl, hB⟩
    | fobOn =>
      refine ⟨?_, hB.air, hB.last⟩
      simp [Field.OnNumbers, Field.machine, Field.step, Numbers.machine, Numbers.step]
    | receiverOn =>
      refine ⟨?_, hB.air, hreach.1⟩
      simp [Field.OnNumbers, Field.machine, Field.step, Numbers.machine, Numbers.step]

/-- A run of the channel as a run on numbers. -/
theorem Field.run_numbers [DecidableRel reach] (hreach : rc.ReachesAs B reach) {es : List FieldEvent}
    (hA : (Field.machine rc).Along (fun s e => B (s.step rc e).pressed) (Field.machine rc).init es) :
    ((Field.machine rc).run es).OnNumbers rc ((Numbers.machine reach).run es) ∧
      ((Numbers.machine reach).run es).Within B := by
  have h := (Field.refines hreach).run hA
  rw [Machine.labels_map (fun e => e), List.map_id'] at h
  exact h

/-- Every recorded frame carries the code of its number. -/
theorem Field.OnNumbers.recorded (h : s.OnNumbers rc ν) {f : Recorded w} (hf : f ∈ s.air) :
    f.number ∈ ν.air ∧ f.code = rc.code f.number := by
  obtain rfl := h
  obtain ⟨l, hl, rfl⟩ := List.mem_map.1 hf
  exact ⟨hl, rfl⟩

/-- **What the receiver accepts** of the frames on record. -/
theorem Field.OnNumbers.accepts_iff (h : s.OnNumbers rc ν) (hB : ν.Within B)
    (hreach : rc.ReachesAs B reach) {f : Recorded w} (hf : f ∈ s.air) :
    (s.receiver.matches f.code).1 = true ↔ reach s.last f.number := by
  obtain ⟨hmem, hcode⟩ := h.recorded hf
  have hlast : s.last = ν.last := congrArg Field.last h
  have hrecv : s.receiver = rc.moveTo (rc.code ν.last) := congrArg Field.receiver h
  rw [matches_fst, hrecv, hcode, hlast, inWindow_iff_reaches]
  exact hreach.2 _ _ hB.last (hB.air _ hmem)

/-! ## What the generators find -/

/-- Codes that are distinct as far as the search looks tell the numbers apart. -/
theorem reachesAs_ahead {N : ℕ} (hd : DistinctCodes rc 0 (N + 100)) :
    rc.ReachesAs (fun l => l ≤ N) Ahead := by
  refine ⟨Nat.zero_le N, ?_⟩
  intro p l hp hl
  unfold RollingCode.Reaches Ahead SEARCH_LIMIT
  refine ⟨?_, ?_⟩
  · rintro ⟨k, hk, heq⟩
    have := hd (p + k) (by omega) l (by omega) (by simpa using heq)
    omega
  · rintro ⟨h1, h2⟩
    exact ⟨l - p, by omega, by rw [Nat.add_sub_cancel' h1]⟩

/-- With the conditions of the header the codes are distinct up to the modulus. -/
theorem distinctCodes_of_conditions (hexact : rc.Exact) (hs : rc.seed < rc.m)
    (hcond : Lcg.Conditions rc.m.toNat rc.a.toNat rc.c.toNat) {len : ℕ} (hlen : len < rc.m.toNat) :
    DistinctCodes rc 0 len := by
  have hfull : rc.FullPeriod :=
    (fullPeriod_iff_lcg hexact hs).2 (Lcg.fullPeriod_of_conditions hcond (toNat_m_pos rc) hs)
  exact hfull.distinctCodes_iff.2 hlen

/-! ## A generator that meets the conditions -/

/-- The fob sends at most `N` frames between two power-ons. -/
def Field.SendsUpTo (rc : RollingCode w) (N : ℕ) (s : Field w) (e : FieldEvent) : Prop :=
  (s.step rc e).pressed ≤ N

instance (N : ℕ) (e : FieldEvent) : Decidable (s.SendsUpTo rc N e) :=
  inferInstanceAs (Decidable (_ ≤ N))

/-- **Power cuts, with a generator as the header wants it.** Whatever is lost, delayed or
repeated and whenever the units lose their power, as long as the fob sends fewer than
`m - 100` frames between two power-ons: a recorded frame is accepted exactly if its number
is not below that of the last one found, and at most 100 above it. -/
theorem header_power_cuts (rc : RollingCode w) (hexact : rc.Exact) (hs : rc.seed < rc.m)
    (hcond : Lcg.Conditions rc.m.toNat rc.a.toNat rc.c.toNat) {N : ℕ} (hN : N + 100 < rc.m.toNat)
    (es : List FieldEvent)
    (hsent : (Field.machine rc).Along (Field.SendsUpTo rc N) (Field.machine rc).init es) :
    let s := (Field.machine rc).run es
    s.fob.getSeed = rc.code s.pressed ∧ s.receiver.getSeed = rc.code s.last ∧ s.last ≤ N ∧
    ∀ f ∈ s.air, f.code = rc.code f.number ∧ ((s.receiver.matches f.code).1 = true ↔
      s.last ≤ f.number ∧ f.number ≤ s.last + 100) := by
  intro s
  have hreach := reachesAs_ahead (distinctCodes_of_conditions hexact hs hcond hN)
  obtain ⟨hnum, hwithin⟩ := Field.run_numbers hreach hsent
  refine ⟨?_, ?_, ?_, ?_⟩
  · have hfob := congrArg Field.fob hnum
    have hpressed := congrArg Field.pressed hnum
    rw [hfob, hpressed]
    rfl
  · have hrecv := congrArg Field.receiver hnum
    have hlast := congrArg Field.last hnum
    rw [hrecv, hlast]
    rfl
  · have hlast := congrArg Field.last hnum
    rw [hlast]
    exact hwithin.last
  · intro f hf
    exact ⟨(hnum.recorded hf).2, hnum.accepts_iff hwithin hreach hf⟩

/-- The second of two frames arrives, and the fob's battery is changed: its first frame,
sent again, is refused. -/
theorem header_power_cuts_battery :
    let s := (Field.machine roundModulus).run [.send, .send, .deliver 1, .fobOn, .send]
    s.last = 2 ∧ ∀ f ∈ s.air, ((s.receiver.matches f.code).1 = true ↔
      2 ≤ f.number ∧ f.number ≤ 102) := by
  intro s
  have hlast : s.last = 2 := by decide +kernel
  have h := header_power_cuts roundModulus roundModulus_exact (by decide) roundModulus_conditions
    (N := 2) (by decide) [.send, .send, .deliver 1, .fobOn, .send] (by decide +kernel)
  refine ⟨hlast, ?_⟩
  intro f hf
  have hiff := (h.2.2.2 f hf).2
  rw [hlast] at hiff
  exact hiff

/-- The receiver is cut off at frame `p`: every frame recorded from index `k` on is out of
its reach, and so is every frame the fob has still to send. -/
structure Numbers.CutOff (p k : ℕ) (ν : Numbers) : Prop where
  last : ν.last = p
  pressed : p + SEARCH_LIMIT ≤ ν.pressed
  before : k ≤ ν.air.length
  later : ∀ j l, k ≤ j → ν.air[j]? = some l → p + SEARCH_LIMIT < l

/-- **Once cut off, cut off for good.** -/
theorem Numbers.CutOff.step {p k : ℕ} (h : ν.CutOff p k) {e : FieldEvent} (he : e.Fresh k) :
    (ν.step Ahead e).CutOff p k := by
  obtain ⟨hlast, hpressed, hbefore, hlater⟩ := h
  cases e with
  | send =>
    refine ⟨hlast, ?_, ?_, ?_⟩
    · simp only [Numbers.step]
      omega
    · simp only [Numbers.step, List.length_append]
      omega
    · intro j l hj hl
      simp only [Numbers.step] at hl
      rcases Nat.lt_or_ge j ν.air.length with hold | hnew
      · rw [List.getElem?_append_left hold] at hl
        exact hlater j l hj hl
      · rw [List.getElem?_append_right hnew] at hl
        have hmem := List.mem_of_getElem? hl
        rw [List.mem_singleton.1 hmem]
        omega
  | deliver i =>
    simp only [Numbers.step]
    cases hl : ν.air[i]? with
    | none => exact ⟨hlast, hpressed, hbefore, hlater⟩
    | some l =>
      have hfar := hlater i l he hl
      have hout : ¬ Ahead ν.last l := by
        rw [hlast]
        intro hin
        have := hin.2
        omega
      simp only [if_neg hout]
      exact ⟨hlast, hpressed, hbefore, hlater⟩
  | fobOn => exact absurd he id
  | receiverOn => exact absurd he id

variable {N p k : ℕ} {e : FieldEvent}

/-- The same of the channel. -/
def Field.CutOff (rc : RollingCode w) (N p k : ℕ) (s : Field w) : Prop :=
  ∃ ν : Numbers, s.OnNumbers rc ν ∧ ν.Within (fun l => l ≤ N) ∧ ν.CutOff p k

/-- One event that is not a power-on keeps the receiver cut off. -/
theorem Field.CutOff.step (hd : DistinctCodes rc 0 (N + 100)) (h : s.CutOff rc N p k)
    (hsent : s.SendsUpTo rc N e) (he : e.Fresh k) : (s.step rc e).CutOff rc N p k := by
  obtain ⟨ν, hnum, hwithin, hcut⟩ := h
  obtain ⟨hnum', hwithin'⟩ := (Field.refines (reachesAs_ahead hd)).step s ν e ⟨hnum, hwithin⟩ hsent
  exact ⟨_, hnum', hwithin', hcut.step he⟩

theorem Field.CutOff.receiver (h : s.CutOff rc N p k) : s.receiver = rc.moveTo (rc.code p) := by
  obtain ⟨ν, hnum, -, hcut⟩ := h
  rw [← hcut.last]
  exact congrArg Field.receiver hnum

end KeyFob
