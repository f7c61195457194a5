import KeyFob.Proof.Replay
import Mathlib.Algebra.Order.Group.Int
import Mathlib.Algebra.Order.Group.Abs

/-!
# The clock check

`isValidTime` compares `otherTime - thisTime` with one minute and does not take its
absolute value, and `OnDataRecv` runs it after `matches` has moved the rolling code.

* `late_frame_iff`: with equal clocks a frame from the past is never refused for its
  age; what stops a late frame is the code window alone, that is, its number.
* `refused_untouched_iff`: a frame refused for its timestamp leaves the receiver as it
  was exactly when it carries the code the receiver stands at.
-/

namespace KeyFob

open RollingCode

variable {r : Receiver} {f : struct_message} {now : timeval}

/-! ## Microseconds -/

/-- The arithmetic of the sketch gives back the microseconds counted. -/
theorem micros_timeOfDay (t : Instant) : (timeOfDay t).micros = BitVec.ofNat 64 t.1 := by
  have husec : (BitVec.ofNat 32 (t.1 % 1000000)).signExtend 64 = BitVec.ofNat 64 (t.1 % 1000000) := by
    -- less than a million, so its sign bit is clear
    have hlt : t.1 % 1000000 < 1000000 := Nat.mod_lt _ (by decide)
    have hmsb : (BitVec.ofNat 32 (t.1 % 1000000)).msb = false := by
      rw [BitVec.msb_eq_false_iff_two_mul_lt, BitVec.toNat_ofNat]
      omega
    rw [BitVec.signExtend_eq_setWidth_of_msb_false hmsb]
    apply BitVec.eq_of_toNat_eq
    simp only [BitVec.toNat_setWidth, BitVec.toNat_ofNat]
    omega
  have hsplit : BitVec.ofNat 64 t.1 =
      BitVec.ofNat 64 (t.1 / 1000000) * BitVec.ofNat 64 1000000 + BitVec.ofNat 64 (t.1 % 1000000) := by
    rw [← BitVec.ofNat_mul, ← BitVec.ofNat_add, Nat.div_add_mod']
  unfold timeval.micros timeOfDay
  rw [husec, hsplit]
  rfl

theorem toInt_micros_timeOfDay (t : Instant) : (timeOfDay t).micros.toInt = (t.1 : ℤ) := by
  have hlt := t.2
  rw [micros_timeOfDay, BitVec.toInt_eq_toNat_bmod, BitVec.toNat_ofNat, Nat.mod_eq_of_lt (by omega)]
  exact Int.bmod_eq_of_le (by omega) (by omega)

/-- The clock of a unit powered on at `on`. -/
theorem toInt_micros_since {t : Instant} {on : ℕ} (hon : on ≤ t.1) :
    (timeOfDay (t.since on)).micros.toInt = (t.1 : ℤ) - on := by
  rw [toInt_micros_timeOfDay]
  exact Int.ofNat_sub hon

/-- **What the clock check checks**: only a stamp from the future can fail it. -/
theorem isValidTime_iff (now sent : Instant) :
    isValidTime (timeOfDay now).micros (timeOfDay sent).micros = true ↔
      (sent.1 : ℤ) - now.1 < 60000000 := by
  have hnow := now.2
  have hsent := sent.2
  have hminute : (60 * 1000000 : BitVec 64).toInt = 60000000 := by decide
  unfold isValidTime
  simp only
  rw [BitVec.slt_eq_decide, decide_eq_true_eq, BitVec.toInt_sub, toInt_micros_timeOfDay,
    toInt_micros_timeOfDay, Int.bmod_eq_of_le (by omega) (by omega), hminute]

/-! ## Stored frames -/

theorem presses_concat (as : List Action) (a : Action) : presses (as ++ [a]) =
    match a with
    | .press _ t => presses as ++ [t]
    | .deliver _ _ => presses as := by
  cases a <;> simp [presses]

/-- The fob's part of one event. -/
theorem System.step_fob (s : System) (e : SystemEvent) : (s.step e).fob =
    match e with
    | .press sig clock => s.fob.sendSignal sig clock
    | .deliver _ _ => s.fob := by
  cases e with
  | press sig clock => rfl
  | deliver i clock =>
    unfold System.step
    simp only
    split <;> rfl

/-- **Every frame is stamped with the moment of its press**, as the fob's clock shows it. -/
theorem stamps_run (on : PowerOn) (as : List Action) :
    (System.machine.run (as.map (Action.event on))).fob.sent.map struct_message.tv_now =
      (presses as).map fun t => timeOfDay (t.since on.fob) := by
  induction as using List.reverseRecOn with
  | nil => rfl
  | append_singleton as a ih =>
    rw [List.map_append, List.map_singleton, Machine.run_concat, presses_concat]
    change ((System.step _ _).fob.sent).map _ = _
    rw [System.step_fob]
    cases a with
    | press sig t =>
      simp only [Action.event, Fob.sendSignal, List.map_append, ih, List.map_singleton]
    | deliver i t => exact ih

theorem frame_stamp {on : PowerOn} {as : List Action} {i : ℕ} {t₀ : Instant}
    (hf : (System.machine.run (as.map (Action.event on))).fob.sent[i]? = some f)
    (hpress : (presses as)[i]? = some t₀) : f.tv_now = timeOfDay (t₀.since on.fob) := by
  have hmap := congrArg (fun l => l[i]?) (stamps_run on as)
  simp only [List.getElem?_map] at hmap
  rw [hf, hpress] at hmap
  exact Option.some.inj hmap

/-! ## The window by numbers -/

theorem System.lastFound_concat (es : List SystemEvent) (e : SystemEvent) :
    System.lastFound (es ++ [e]) =
      ((System.machine.run es).found e).getD (System.lastFound es) := by
  unfold System.lastFound
  rw [Machine.labels_concat]
  change (_ ++ ((System.machine.run es).found e).toList).getLast?.getD 0 = _
  cases (System.machine.run es).found e with
  | none => simp
  | some number => simp

/-- **The receiver stands at the code of the frame it found last.** -/
theorem System.at_lastFound (es : List SystemEvent) :
    (System.machine.run es).receiver.At (System.lastFound es) := by
  induction es using List.reverseRecOn with
  | nil => rfl
  | append_singleton es e ih =>
    rw [System.lastFound_concat, Machine.run_concat]
    have hsends := (System.reached es).sends
    generalize System.machine.run es = s at ih hsends
    change (s.step e).receiver.At _
    cases e with
    | press sig clock => exact ih
    | deliver i clock =>
      cases hf : s.fob.sent[i]? with
      | none =>
        rw [System.step_unsent hf]
        simp only [System.found, hf]
        exact ih
      | some f =>
        have hcode := hsends.codes i f hf
        rw [System.step_deliver hf]
        simp only [System.found, hf]
        unfold Receiver.At at ih ⊢
        rw [OnDataRecv_rollingCode, matches_snd]
        by_cases hwin : s.receiver.rollingCode.InWindow f.rollingCode
        · rw [if_pos hwin, if_pos ((matches_fst _ _).2 hwin), ih, moveTo_moveTo, hcode]
          rfl
        · rw [if_neg hwin, if_neg (mt (matches_fst _ _).1 hwin)]
          exact ih

/-- **The window by numbers.** A frame sent is in the window if it is not before the one
found last, or from press 29 on. -/
theorem System.inWindow_iff_number {es : List SystemEvent} {i : ℕ}
    (hf : (System.machine.run es).fob.sent[i]? = some f) :
    (System.machine.run es).receiver.rollingCode.InWindow f.rollingCode ↔
      System.lastFound es ≤ i + 1 ∨ 29 ≤ i + 1 := by
  have hcode := (System.reached es).sends.codes i f hf
  rw [Receiver.inWindow_iff (System.at_lastFound es) hcode]
  exact deployed_reach_iff _ _

/-! ## Late frames -/

/-- **When a stored frame is stopped.** The units share one clock. Frame `i`, sent at
`t₀`, is delivered at `t` after any run. What is acted upon is never more than one
minute off and a frame more than one minute late changes nothing, exactly when the
frame is outside the receiver's window or not more than one minute late. The frame is
outside the window if a later one was found before and it is not from press 29 on. -/
theorem late_frame_iff (on : PowerOn) (as : List Action) (i : ℕ) (t₀ t : Instant)
    (f : struct_message) (hclock : on.fob = on.receiver) (hon : on.fob ≤ t₀.1 ∧ on.receiver ≤ t.1) :
    let s := System.machine.run (as.map (Action.event on))
    let now := timeOfDay (t.since on.receiver)
    s.fob.sent[i]? = some f → (presses as)[i]? = some t₀ →
    (((s.receiver.Accepts f now → |f.tv_now.micros.toInt - now.micros.toInt| ≤ 60000000) ∧
        (t₀.1 + 60000000 < t.1 →
          (s.receiver.OnDataRecv f now).control = s.receiver.control)) ↔
      (s.receiver.rollingCode.InWindow f.rollingCode → t.1 ≤ t₀.1 + 60000000)) ∧
    (s.receiver.rollingCode.InWindow f.rollingCode ↔
      System.lastFound (as.map (Action.event on)) ≤ i + 1 ∨ 29 ≤ i + 1) := by
  intro s now hf hpress
  refine ⟨?_, System.inWindow_iff_number hf⟩
  have hstamp : f.tv_now = timeOfDay (t₀.since on.fob) := frame_stamp hf hpress
  have hnow : now.micros.toInt = (t.1 : ℤ) - on.receiver := toInt_micros_since hon.2
  have hsent : f.tv_now.micros.toInt = (t₀.1 : ℤ) - on.receiver := by
    rw [hstamp, toInt_micros_since hon.1, hclock]
  have hvalid : isValidTime now.micros f.tv_now.micros = true ↔ (t₀.1 : ℤ) - t.1 < 60000000 := by
    rw [hstamp, isValidTime_iff, ← toInt_micros_timeOfDay, ← toInt_micros_timeOfDay, ← hstamp,
      hsent, hnow, sub_sub_sub_cancel_right]
  have hdiff : f.tv_now.micros.toInt - now.micros.toInt = (t₀.1 : ℤ) - t.1 := by
    rw [hsent, hnow, sub_sub_sub_cancel_right]
  rw [hdiff, abs_le]
  refine ⟨?_, ?_⟩
  · -- a late frame passes the clock check, so inside the window it is acted upon
    rintro ⟨hacts, -⟩ hwin
    by_contra hlate
    have hbound := hacts (accepts_iff.2 ⟨hwin, hvalid.2 (by omega)⟩)
    omega
  · intro hcond
    refine ⟨?_, ?_⟩
    · intro hacc
      have hle := hcond (accepts_iff.1 hacc).1
      have hlt := hvalid.1 (accepts_iff.1 hacc).2
      omega
    · intro hlate
      apply control_refused
      intro hacc
      have hle := hcond (accepts_iff.1 hacc).1
      omega

/-- A frame stored for 61 seconds, while the receiver has heard nothing. -/
theorem late_frame_stored :
    let on : PowerOn := ⟨0, 0⟩
    let t₀ : Instant := ⟨0, by decide⟩
    let t : Instant := ⟨61000000, by decide⟩
    let f := frameAt 1 LOCK_SIGNAL
    let s := System.machine.run ([Action.press LOCK_SIGNAL t₀].map (Action.event on))
    let now := timeOfDay (t.since on.receiver)
    (((s.receiver.Accepts f now → |f.tv_now.micros.toInt - now.micros.toInt| ≤ 60000000) ∧
        (t₀.1 + 60000000 < t.1 →
          (s.receiver.OnDataRecv f now).control = s.receiver.control)) ↔
      (s.receiver.rollingCode.InWindow f.rollingCode → t.1 ≤ t₀.1 + 60000000)) ∧
    (s.receiver.rollingCode.InWindow f.rollingCode ↔
      System.lastFound ([Action.press LOCK_SIGNAL t₀].map (Action.event on)) ≤ 0 + 1 ∨
        29 ≤ 0 + 1) :=
  late_frame_iff ⟨0, 0⟩ [.press LOCK_SIGNAL ⟨0, by decide⟩] 0 ⟨0, by decide⟩ ⟨61000000, by decide⟩
    (frameAt 1 LOCK_SIGNAL) rfl (by decide) (by decide +kernel) (by decide)

/-- The stored frame is acted upon and locks the car. -/
theorem late_frame_locks :
    let t : Instant := ⟨61000000, by decide⟩
    let f := frameAt 1 LOCK_SIGNAL
    let s := System.machine.run ([Action.press LOCK_SIGNAL ⟨0, by decide⟩].map (Action.event ⟨0, 0⟩))
    let now := timeOfDay (t.since 0)
    s.fob.sent[0]? = some f ∧ s.receiver.Accepts f now ∧
      ¬ |f.tv_now.micros.toInt - now.micros.toInt| ≤ 60000000 ∧
      s.receiver.state = .Unlock ∧ (s.receiver.OnDataRecv f now).state = .Lock := by
  decide +kernel

/-! ## Refused frames -/

/-- **The receiver as it was**: its rolling code, its mode, lock states and actuators,
and the codes it accepts. -/
structure Receiver.Untouched (r r' : Receiver) : Prop where
  seed : r'.rollingCode.seed = r.rollingCode.seed
  control : r'.control = r.control
  window : ∀ code, r'.rollingCode.InWindow code ↔ r.rollingCode.InWindow code

/-- A refused frame in the window leaves the receiver at the code of the frame. -/
theorem untouched_iff (hwin : r.rollingCode.InWindow f.rollingCode)
    (hbad : isValidTime now.micros f.tv_now.micros = false) :
    r.Untouched (r.OnDataRecv f now) ↔ f.rollingCode = r.rollingCode.seed := by
  have hacc : ¬ r.Accepts f now := by
    intro h
    rw [(accepts_iff.1 h).2] at hbad
    cases hbad
  have hmoved : (r.OnDataRecv f now).rollingCode = r.rollingCode.moveTo f.rollingCode := by
    rw [OnDataRecv_rollingCode, matches_snd, if_pos hwin]
  refine ⟨?_, ?_⟩
  · intro h
    have hseed := h.seed
    rw [hmoved, moveTo_seed] at hseed
    exact hseed
  · intro hseed
    rw [hseed, moveTo_self] at hmoved
    exact ⟨by rw [hmoved], control_refused hacc, fun code => by rw [hmoved]⟩

/-- **What a frame refused for its timestamp does.** In every reachable state, a frame
with a code in the window whose clock check fails leaves the receiver as it was exactly
when it carries the code the receiver stands at already. -/
theorem refused_untouched_iff (as : List Arrival) (f : struct_message) (now : timeval) :
    let r := Receiver.machine.run as
    r.rollingCode.InWindow f.rollingCode → isValidTime now.micros f.tv_now.micros = false →
    (r.Untouched (r.OnDataRecv f now) ↔ f.rollingCode = r.rollingCode.seed) :=
  fun hwin hbad => untouched_iff hwin hbad

/-- The first frame of a fob that was powered on two minutes before the receiver. -/
def earlyFrame : struct_message where
  tv_now := { tv_sec := 120, tv_usec := 0 }
  rollingCode := deployed.code 1
  action := LOCK_SIGNAL

theorem refused_untouched_early :
    let r := Receiver.machine.run []
    r.Untouched (r.OnDataRecv earlyFrame powerOn) ↔
      earlyFrame.rollingCode = r.rollingCode.seed :=
  refused_untouched_iff [] earlyFrame powerOn (by decide +kernel) (by decide)

/-- The refused frame moves the rolling code: the code the receiver stood at is not
accepted any more. -/
theorem refused_moves_code :
    let r := Receiver.machine.run []
    let r' := r.OnDataRecv earlyFrame powerOn
    r.rollingCode.InWindow earlyFrame.rollingCode ∧
      isValidTime powerOn.micros earlyFrame.tv_now.micros = false ∧
      r'.rollingCode.seed ≠ r.rollingCode.seed ∧
      r.rollingCode.InWindow r.rollingCode.seed ∧ ¬ r'.rollingCode.InWindow r.rollingCode.seed := by
  decide +kernel

end KeyFob
