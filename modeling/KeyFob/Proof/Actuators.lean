import KeyFob.Proof.Brackets

/-!
# The servos follow the commands

* `lock_servo_follows`: between callbacks the lock servo is neutral, and the way it
  was last driven is the lock state the sketch keeps.
* `window_servo_follows`: the window servo is still in normal mode, and in window mode
  it obeys the last command since the mode was entered.
* `unhandled_inert_iff`: a frame with no case in the `switch` does nothing in window
  mode; in normal mode it drives the lock again while `state` and `state_old` differ.
-/

namespace KeyFob

open RollingCode Receiver

variable {r : Receiver} {c : Car}

/-! ## The lock servo -/

/-- **The lock servo follows the lock state.** After setup, whatever arrives, the lock
servo is at its neutral position, the sketch keeps a lock state, and the last command
that was not neutral drove the lock to it. -/
theorem lock_servo_follows (as : List Arrival) :
    let r := Receiver.machine.run as
    (lkAngles r.commands).getLast? = some 20 ∧
      (r.lockState = .Lock ∧ lkDirection r.commands = some 0 ∨
        r.lockState = .Unlock ∧ lkDirection r.commands = some 40) := by
  intro r
  have h : Shows r _ := shows_run as
  refine ⟨h.lk, ?_⟩
  rw [h.lockState, h.direction]
  cases (Car.machine.run _).bolt with
  | locked => exact Or.inl ⟨rfl, rfl⟩
  | unlocked => exact Or.inr ⟨rfl, rfl⟩

/-! ## The window servo -/

theorem lastCommand_toggle (signals : List Byte) :
    lastCommand (signals ++ [WINDOW_SIGNAL]) = none := by
  simp [lastCommand]

theorem lastCommand_concat {signals : List Byte} {a : Byte} (ha : a ≠ WINDOW_SIGNAL) :
    lastCommand (signals ++ [a]) =
      if a = WINDOW_UP_SIGNAL ∨ a = WINDOW_DOWN_SIGNAL ∨ a = LOCK_SIGNAL ∨ a = UNLOCK_SIGNAL
      then some a else lastCommand signals := by
  unfold lastCommand
  rw [List.reverse_concat, List.takeWhile_cons_of_pos (by simpa using ha), List.find?_cons]
  split_ifs with hcmd
  · simp [hcmd]
  · simp [hcmd]

/-- One signal in window mode, and the motion it leaves. -/
theorem Car.step_window_motion {b : Bolt} {signals : List Byte} {a : Byte}
    (ha : a ≠ WINDOW_SIGNAL) :
    (Car.step { bolt := b, window := some (.commanded (lastCommand signals)) } a).window =
      some (.commanded (lastCommand (signals ++ [a]))) := by
  rw [lastCommand_concat ha]
  unfold Car.step
  simp only
  by_cases hup : a = WINDOW_UP_SIGNAL
  · rw [if_pos hup, if_pos (Or.inl hup)]
    simp [Motion.commanded, hup]
  by_cases hdown : a = WINDOW_DOWN_SIGNAL
  · rw [if_neg hup, if_pos hdown, if_pos (Or.inr (Or.inl hdown))]
    have hne : WINDOW_DOWN_SIGNAL ≠ WINDOW_UP_SIGNAL := by decide
    simp [Motion.commanded, hdown, hne]
  by_cases hstop : a = LOCK_SIGNAL ∨ a = UNLOCK_SIGNAL
  · rw [if_neg hup, if_neg hdown, if_pos hstop, if_pos (Or.inr (Or.inr hstop))]
    simp [Motion.commanded, hup, hdown]
  · rw [if_neg hup, if_neg hdown, if_neg hstop, if_neg ha, if_neg (by tauto)]

/-- **The window of the car** moves as the last command since window mode was entered. -/
theorem Car.window_run (signals : List Byte) : (Car.machine.run signals).window = none ∨
    (Car.machine.run signals).window = some (.commanded (lastCommand signals)) := by
  induction signals using List.reverseRecOn with
  | nil => exact Or.inl rfl
  | append_singleton signals a ih =>
    rw [Machine.run_concat]
    generalize Car.machine.run signals = c at ih
    obtain ⟨b, window⟩ := c
    show (Car.step _ a).window = none ∨ (Car.step _ a).window = _
    by_cases ha : a = WINDOW_SIGNAL
    · -- the toggle leaves window mode, or enters it with the window still
      subst ha
      rw [lastCommand_toggle]
      cases window with
      | none => exact Or.inr rfl
      | some m => exact Or.inl rfl
    · -- any other signal keeps the mode
      rcases ih with ih | ih
      · left
        simp only at ih
        rw [ih]
        unfold Car.step
        simp only [if_neg ha]
        split_ifs <;> rfl
      · right
        simp only at ih
        rw [ih]
        exact Car.step_window_motion ha

/-- **The window servo follows the window commands.** After setup, whatever arrives,
the window servo is stationary in normal mode, and in window mode stands as the last
accepted window or lock signal since the mode was entered says. An accepted toggle in
normal mode enters it, with the window stationary, and one in window mode leaves it. -/
theorem window_servo_follows (as : List Arrival) :
    let r := Receiver.machine.run as
    (r.windowMode = false → (wndAngles r.commands).getLast? = some 20) ∧
      (r.windowMode = true → (wndAngles r.commands).getLast? =
        some (Motion.commanded (lastCommand (acceptedSignals as))).angle) ∧
      ∀ a : Arrival, r.Accepts a.1 a.2 → a.1.action = WINDOW_SIGNAL →
        let r' := Receiver.machine.step r a
        r'.windowMode = !r.windowMode ∧ (wndAngles r'.commands).getLast? = some 20 := by
  intro r
  have h : Shows r (Car.machine.run (acceptedSignals as)) := shows_run as
  have hrun := Car.window_run (acceptedSignals as)
  refine ⟨?_, ?_, ?_⟩
  · intro hmode
    rw [h.mode, Option.isSome_eq_false_iff, Option.isNone_iff_eq_none] at hmode
    rw [h.wnd, hmode]
    rfl
  · -- the car is in window mode, so its window moves as last commanded
    intro hmode
    rw [h.mode] at hmode
    rcases hrun with hrun | hrun
    · rw [hrun] at hmode
      exact absurd hmode (by simp)
    · rw [h.wnd, hrun]
      rfl
  · intro a hacc ha r'
    rw [h.mode]
    generalize Car.machine.run (acceptedSignals as) = c at h
    obtain ⟨b, window⟩ := c
    cases window with
    | none =>
      have hshow := (toggle_enters h hacc ha).1
      exact ⟨hshow.mode, hshow.wnd⟩
    | some m =>
      have hshow := (toggle_leaves h hacc ha).1
      exact ⟨hshow.mode, hshow.wnd⟩

/-! ## Frames the `switch` has no case for -/

theorem mem_cases_window (hmode : r.windowMode = true) {action : Byte} : action ∈ r.cases ↔
    action = WINDOW_UP_SIGNAL ∨ action = LOCK_SIGNAL ∨ action = WINDOW_DOWN_SIGNAL ∨
      action = UNLOCK_SIGNAL ∨ action = WINDOW_SIGNAL := by
  unfold Receiver.cases
  rw [if_pos hmode]
  simp only [List.mem_cons, List.not_mem_nil, or_false]

theorem mem_cases_normal (hmode : r.windowMode = false) {action : Byte} : action ∈ r.cases ↔
    action = LOCK_SIGNAL ∨ action = UNLOCK_SIGNAL ∨ action = WINDOW_SIGNAL := by
  unfold Receiver.cases
  rw [if_neg (by simp [hmode])]
  simp only [List.mem_cons, List.not_mem_nil, or_false]

theorem windowSwitch_unhandled (hmode : r.windowMode = true)
    (h : r.message.action ∉ r.cases) : r.windowSwitch = r := by
  rw [mem_cases_window hmode] at h
  simp only [not_or] at h
  obtain ⟨h1, h2, h3, h4, h5⟩ := h
  unfold windowSwitch
  rw [if_neg h1, if_neg h2, if_neg h3, if_neg h4, if_neg h5]

theorem normalSwitch_unhandled (hmode : r.windowMode = false)
    (h : r.message.action ∉ r.cases) : r.normalSwitch = r := by
  rw [mem_cases_normal hmode] at h
  simp only [not_or] at h
  obtain ⟨h1, h2, h3⟩ := h
  unfold normalSwitch
  rw [if_neg h1, if_neg h2, if_neg h3]

/-- **An unhandled frame in normal mode** still reaches `updateLockState`. -/
theorem act_unhandled (h : r.message.action ∉ r.cases) :
    r.act = if r.windowMode then r else r.updateLockState := by
  unfold act
  by_cases hmode : r.windowMode = true
  · rw [if_pos hmode, if_pos hmode, windowSwitch_unhandled hmode h]
  · rw [if_neg hmode, if_neg hmode, normalSwitch_unhandled (by simpa using hmode) h]

theorem Receiver.Inert.congr {r' s s' : Receiver} (h : r.Inert s) (hr : r'.control = r.control)
    (hs : s'.control = s.control) : r'.Inert s' := by
  obtain ⟨hr1, hr2, hr3, hr4⟩ := control_eq_iff.1 hr
  obtain ⟨hs1, hs2, hs3, hs4⟩ := control_eq_iff.1 hs
  refine ⟨?_, ?_, ?_, ?_, ?_⟩
  · rw [hs1, hr1, h.mode]
  · rw [hs2, hr2, h.state]
  · rw [hs3, hr3, h.saved]
  · intro pin
    rw [hs4, hr4, h.leds]
  · rw [hs4, hr4]
    exact h.servos

theorem Receiver.Inert.refl (r : Receiver) : r.Inert r :=
  ⟨rfl, rfl, rfl, fun _ => rfl, [], by simp, rfl, rfl⟩

/-- A pulse of the lock is not inert. -/
theorem not_inert_lockCommands {b : Bolt} {r' : Receiver}
    (h : r'.commands = r.commands ++ lockCommands b.state) : ¬ r.Inert r' := by
  intro hi
  obtain ⟨ds, hds, hlk, -⟩ := hi.servos
  have hsame : lockCommands b.state = ds := List.append_cancel_left (h.symm.trans hds)
  rw [← hsame, lkAngles_lockCommands] at hlk
  exact absurd hlk (by simp)

/-- One unhandled frame, on a receiver that shows a car. -/
theorem act_inert_iff (hshow : Shows r c) (h : r.message.action ∉ r.cases) :
    r.Inert r.act ↔ r.windowMode = true ∨ r.state = r.state_old := by
  rw [act_unhandled h]
  by_cases hmode : r.windowMode = true
  · rw [if_pos hmode]
    exact ⟨fun _ => Or.inl hmode, fun _ => Inert.refl r⟩
  rw [if_neg hmode, updateLockState_eq]
  by_cases hstate : r.state = r.state_old
  · rw [if_pos hstate]
    exact ⟨fun _ => Or.inr hstate, fun _ => Inert.refl r⟩
  · -- the lock is driven to where it stands
    rw [if_neg hstate]
    have hbolt : r.state = c.bolt.state := by
      rw [hshow.state, if_neg (by rw [← hshow.mode]; exact hmode)]
    refine ⟨?_, ?_⟩
    · intro hi
      rw [hbolt] at hi
      exact absurd hi (not_inert_lockCommands rfl)
    · rintro (hm | hs)
      · exact absurd hm hmode
      · exact absurd hs hstate

/-- **When an unhandled frame does nothing.** In every reachable state, an accepted
frame that has no case in the `switch` of the current mode is inert exactly in window
mode or while `state` and `state_old` agree. -/
theorem unhandled_inert_iff (as : List Arrival) (a : Arrival) :
    let r := Receiver.machine.run as
    r.Accepts a.1 a.2 → a.1.action ∉ r.cases →
      (r.Inert (Receiver.machine.step r a) ↔ r.windowMode = true ∨ r.state = r.state_old) := by
  intro r hacc hun
  have hshow : Shows r _ := shows_run as
  have hiff := act_inert_iff (r := r.entered a.1 a.2) (hshow.congr rfl) hun
  rw [step_accepted hacc]
  exact ⟨fun hi => hiff.1 (hi.congr rfl rfl), fun hc => (hiff.2 hc).congr rfl rfl⟩

/-- An action with no number, after two lock signals. -/
theorem unhandled_inert_locked :
    let r := Receiver.machine.run
      [(frameAt 1 LOCK_SIGNAL, powerOn), (frameAt 2 LOCK_SIGNAL, powerOn)]
    r.Inert (Receiver.machine.step r (frameAt 3 7, powerOn)) ↔
      r.windowMode = true ∨ r.state = r.state_old :=
  unhandled_inert_iff [(frameAt 1 LOCK_SIGNAL, powerOn), (frameAt 2 LOCK_SIGNAL, powerOn)]
    (frameAt 3 7, powerOn) (by decide +kernel) (by decide +kernel)

/-- The first frame after setup, a window-up signal in normal mode, drives the lock. -/
theorem unhandled_pulses :
    let r := Receiver.machine.run []
    let a : Arrival := (frameAt 1 WINDOW_UP_SIGNAL, powerOn)
    r.Accepts a.1 a.2 ∧ a.1.action ∉ r.cases ∧ ¬ r.Inert (Receiver.machine.step r a) := by
  intro r a
  have hpulse : (Receiver.machine.step r a).commands =
      r.commands ++ lockCommands Bolt.unlocked.state := by decide +kernel
  exact ⟨by decide +kernel, by decide +kernel, not_inert_lockCommands hpulse⟩

end KeyFob
