import KeyFob.Proof.Actuators

/-!
# The lock LEDs

Window mode reuses the two lock LEDs for the motion of the window, and nothing writes
them when it is left. `leds_show_iff`: they show the lock state throughout a run
exactly when every exit from window mode finds them as the lock would have them.
-/

namespace KeyFob

open RollingCode Receiver

variable {r : Receiver} {c : Car} {b : Bolt} {signals : List Byte} {as : List Arrival}

/-- The levels of the two lock LEDs. -/
def Receiver.leds (r : Receiver) : Level × Level :=
  (lastLevel .LOCK_LED r.commands, lastLevel .UNLOCK_LED r.commands)

/-- The lock LEDs show the lock state. -/
def Receiver.LedsShow (r : Receiver) : Prop :=
  (lastLevel .LOCK_LED r.commands = .HIGH ↔ r.state = .Lock) ∧
    (lastLevel .UNLOCK_LED r.commands = .HIGH ↔ r.state = .Unlock)

instance (r : Receiver) : Decidable r.LedsShow := inferInstanceAs (Decidable (_ ∧ _))

/-- The LEDs that show `b`. -/
def Bolt.leds : Bolt → Level × Level
  | .locked => (.HIGH, .LOW)
  | .unlocked => (.LOW, .HIGH)

/-- The LEDs in window mode, by the last command since it was entered at `b`. -/
def windowLeds (b : Bolt) : Option Byte → Level × Level
  | some a =>
    if a = WINDOW_UP_SIGNAL then (.HIGH, .LOW)
    else if a = WINDOW_DOWN_SIGNAL then (.LOW, .HIGH)
    else (.LOW, .LOW)
  | none => b.leds

/-- The LEDs are as the lock has them in window mode: untouched, or left by a window
motion that happens to look the same. -/
def Receiver.Restores (r : Receiver) (accepted : List Byte) : Prop :=
  lastCommand accepted = none ∨
    (lastCommand accepted = some WINDOW_UP_SIGNAL ∧ r.state_old = .Lock) ∨
    (lastCommand accepted = some WINDOW_DOWN_SIGNAL ∧ r.state_old = .Unlock)

/-- Every accepted toggle of the run that leaves window mode finds the LEDs so. -/
def RestoredExits (as : List Arrival) : Prop :=
  ∀ (pre : List Arrival) (a : Arrival), pre ++ [a] <+: as →
    let r := Receiver.machine.run pre
    r.windowMode = true → r.signal a = some WINDOW_SIGNAL → r.Restores (acceptedSignals pre)

theorem ledsShow_iff (h : r.state = b.state) : r.LedsShow ↔ r.leds = b.leds := by
  unfold Receiver.LedsShow Receiver.leds
  rw [h, Prod.ext_iff]
  cases lastLevel .LOCK_LED r.commands <;> cases lastLevel .UNLOCK_LED r.commands <;>
    cases b <;> decide

/-- The LEDs of window mode are those of the lock exactly under the condition above. -/
theorem restores_iff (h : r.state_old = b.state) {accepted : List Byte} :
    r.Restores accepted ↔ windowLeds b (lastCommand accepted) = b.leds := by
  unfold Receiver.Restores
  rw [h]
  cases lastCommand accepted with
  | none => exact ⟨fun _ => rfl, fun _ => Or.inl rfl⟩
  | some a =>
    by_cases hup : a = WINDOW_UP_SIGNAL
    · subst hup
      cases b <;> decide
    by_cases hdown : a = WINDOW_DOWN_SIGNAL
    · subst hdown
      cases b <;> decide
    · -- the window was stopped, and both LEDs are off
      have hoff : windowLeds b (some a) = (.LOW, .LOW) := by
        unfold windowLeds
        simp only [if_neg hup, if_neg hdown]
      rw [hoff]
      cases b <;> simp [Bolt.leds, hup, hdown]

/-! ## One frame -/

/-- The LEDs are those of the lock in normal mode, and in window mode those of the last
command. -/
def Lit (r : Receiver) (c : Car) (accepted : List Byte) : Prop :=
  r.leds = if c.window.isSome then windowLeds c.bolt (lastCommand accepted) else c.bolt.leds

theorem leds_updateLockState (h : r.state = b.state)
    (hsame : r.state = r.state_old → r.leds = b.leds) : r.updateLockState.leds = b.leds := by
  rw [updateLockState_eq]
  by_cases heq : r.state = r.state_old
  · -- nothing is written, so the LEDs must have been right before
    rw [if_pos heq]
    exact hsame heq
  · rw [if_neg heq, h]
    unfold Receiver.leds
    cases b <;> simp [lockCommands, Bolt.leds, Bolt.state]

/-- One accepted frame in normal mode keeps the LEDs with the lock. -/
theorem normal_lit (hshow : Shows r { bolt := b, window := none }) (hlit : r.leds = b.leds) :
    Lit r.normalSwitch.updateLockState (Car.step { bolt := b, window := none } r.message.action)
      (signals ++ [r.message.action]) := by
  have hstate : r.state = b.state := hshow.state
  have hmoved : ∀ b' : Bolt, b'.state = r.state → r.leds = b'.leds := by
    intro b' hb'
    rw [bolt_state_inj.1 (hb'.trans hstate), hlit]
  by_cases hlock : r.message.action = LOCK_SIGNAL
  · rw [normalSwitch_lock hlock, hlock, Car.step_lock]
    exact leds_updateLockState (b := .locked) rfl (hmoved .locked)
  by_cases hunlock : r.message.action = UNLOCK_SIGNAL
  · rw [normalSwitch_unlock hunlock, hunlock, Car.step_unlock]
    exact leds_updateLockState (b := .unlocked) rfl (hmoved .unlocked)
  by_cases hwin : r.message.action = WINDOW_SIGNAL
  · -- entering window mode writes the window LED only
    rw [normalSwitch_window hwin, hwin, Car.step_window, updateLockState_eq,
      if_neg (fun h => bolt_state_ne_window b (hstate.symm.trans h.symm))]
    unfold Lit
    rw [lastCommand_toggle]
    simpa [Receiver.leds, lockCommands, windowLeds] using hlit
  · -- no case of the switch: `updateLockState` may write the same levels again
    have hun : r.normalSwitch = r := by
      unfold normalSwitch
      rw [if_neg hlock, if_neg hunlock, if_neg hwin]
    have hcar : Car.step { bolt := b, window := none } r.message.action =
        { bolt := b, window := none } := by
      unfold Car.step
      simp only [if_neg hlock, if_neg hunlock, if_neg hwin]
    rw [hun, hcar]
    exact leds_updateLockState hstate (fun _ => hlit)

theorem leds_windowSwitch_toggle (h : r.message.action = WINDOW_SIGNAL) :
    r.windowSwitch.leds = r.leds := by
  unfold windowSwitch
  rw [if_neg (by rw [h]; decide), if_neg (by rw [h]; decide), if_neg (by rw [h]; decide),
    if_neg (by rw [h]; decide), if_pos h]
  simp [Receiver.leds]

/-- The LEDs after one accepted frame in window mode that is no toggle. -/
theorem leds_windowSwitch (ha : r.message.action ≠ WINDOW_SIGNAL)
    (hlit : r.leds = windowLeds b (lastCommand signals)) :
    r.windowSwitch.leds = windowLeds b (lastCommand (signals ++ [r.message.action])) := by
  have hwrite : ∀ (angle : ℕ) (l l' : Level), (((r.servo_wnd_write angle).digitalWrite
      .LOCK_LED l).digitalWrite .UNLOCK_LED l').leds = (l, l') := by
    intro angle l l'
    simp [Receiver.leds]
  rw [lastCommand_concat ha]
  -- the order of the cases is that of the `switch`
  unfold windowSwitch
  by_cases hup : r.message.action = WINDOW_UP_SIGNAL
  · rw [if_pos hup, if_pos (Or.inl hup), hwrite, hup]
    rfl
  by_cases hlock : r.message.action = LOCK_SIGNAL
  · rw [if_neg hup, if_pos hlock, if_pos (Or.inr (Or.inr (Or.inl hlock))), hwrite, hlock]
    rfl
  by_cases hdown : r.message.action = WINDOW_DOWN_SIGNAL
  · rw [if_neg hup, if_neg hlock, if_pos hdown, if_pos (Or.inr (Or.inl hdown)), hwrite, hdown]
    rfl
  by_cases hunlock : r.message.action = UNLOCK_SIGNAL
  · rw [if_neg hup, if_neg hlock, if_neg hdown, if_pos hunlock,
      if_pos (Or.inr (Or.inr (Or.inr hunlock))), hwrite, hunlock]
    rfl
  · rw [if_neg hup, if_neg hlock, if_neg hdown, if_neg hunlock, if_neg ha, if_neg (by tauto)]
    exact hlit

/-- **One accepted frame keeps the LEDs**, if it does not leave window mode. -/
theorem act_lit (hshow : Shows r c) (hlit : Lit r c signals)
    (hstay : r.windowMode = true → r.message.action ≠ WINDOW_SIGNAL) :
    Lit r.act (c.step r.message.action) (signals ++ [r.message.action]) := by
  obtain ⟨b, window⟩ := c
  have hmode := hshow.mode
  unfold Receiver.act
  cases window with
  | none =>
    rw [if_neg (by simp [hmode])]
    exact normal_lit hshow hlit
  | some m =>
    have hin : r.windowMode = true := hmode
    have ha := hstay hin
    obtain ⟨m', hcar⟩ := Car.step_inside (b := b) (m := m) ha
    rw [if_pos hin, hcar]
    exact leds_windowSwitch ha hlit

/-- An accepted toggle in window mode leaves the LEDs to the lock as they are. -/
theorem act_exit {m : Motion} (hshow : Shows r { bolt := b, window := some m })
    (hlit : Lit r { bolt := b, window := some m } signals)
    (ha : r.message.action = WINDOW_SIGNAL) :
    r.act.leds = windowLeds b (lastCommand signals) := by
  have hin : r.windowMode = true := hshow.mode
  unfold Receiver.act
  rw [if_pos hin, leds_windowSwitch_toggle ha]
  exact hlit

/-! ## Runs -/

theorem Lit.congr {r' : Receiver} (h : Lit r c signals) (hc : r'.control = r.control) :
    Lit r' c signals := by
  obtain ⟨-, -, -, hcommands⟩ := control_eq_iff.1 hc
  unfold Lit Receiver.leds at h ⊢
  rw [hcommands]
  exact h

theorem setup_lit : Lit Receiver.boot.setup Car.machine.init [] := by
  show Receiver.boot.setup.leds = Bolt.unlocked.leds
  decide

/-- The car that the accepted frames have moved. -/
def carAfter (as : List Arrival) : Car := Car.machine.run (acceptedSignals as)

theorem carAfter_shows (as : List Arrival) : Shows (Receiver.machine.run as) (carAfter as) :=
  shows_run as

theorem acceptedSignals_concat (as : List Arrival) (a : Arrival) : acceptedSignals (as ++ [a]) =
    acceptedSignals as ++ ((Receiver.machine.run as).signal a).toList :=
  Machine.labels_concat _ _ _ _

theorem carAfter_concat (as : List Arrival) (a : Arrival) : carAfter (as ++ [a]) =
    ((Receiver.machine.run as).signal a).elim (carAfter as) (carAfter as).step := by
  unfold carAfter
  rw [acceptedSignals_concat]
  cases (Receiver.machine.run as).signal a with
  | none => simp
  | some x => exact Machine.run_concat _ _ _

/-- **An exit from window mode** after the arrivals `as`: the LEDs stay as window mode
had them. -/
theorem exit_leds {a : Arrival} (hlit : Lit (Receiver.machine.run as) (carAfter as) (acceptedSignals as))
    (hmode : (Receiver.machine.run as).windowMode = true)
    (hsig : (Receiver.machine.run as).signal a = some WINDOW_SIGNAL) :
    (Receiver.machine.run (as ++ [a])).leds =
        windowLeds (carAfter as).bolt (lastCommand (acceptedSignals as)) ∧
      carAfter (as ++ [a]) = { bolt := (carAfter as).bolt, window := none } ∧
      (Receiver.machine.run as).state_old = (carAfter as).bolt.state := by
  have hshow := carAfter_shows as
  obtain ⟨hacc, haction⟩ := signal_eq_some_iff.1 hsig
  rw [carAfter_concat, hsig, Machine.run_concat]
  generalize hr : Receiver.machine.run as = r at *
  generalize carAfter as = c at *
  obtain ⟨b, window⟩ := c
  have hin : window.isSome = true := by rw [← hmode, hshow.mode]
  obtain ⟨m, rfl⟩ := Option.isSome_iff_exists.1 hin
  have hleds := act_exit (r := r.entered a.1 a.2) (hshow.congr rfl) (hlit.congr rfl) haction
  rw [step_accepted hacc]
  exact ⟨hleds, rfl, hshow.saved rfl⟩

/-- **The LEDs along a run** whose exits from window mode all find them restored. -/
theorem lit_run (h : RestoredExits as) :
    Lit (Receiver.machine.run as) (carAfter as) (acceptedSignals as) := by
  induction as using List.reverseRecOn with
  | nil => exact setup_lit
  | append_singleton as a ih =>
    obtain ⟨hlast, hexits⟩ := Machine.forall_event_concat.1 h
    have hlit := ih hexits
    have hshow := carAfter_shows as
    by_cases hexit : (Receiver.machine.run as).windowMode = true ∧
        (Receiver.machine.run as).signal a = some WINDOW_SIGNAL
    · -- the exit: what window mode left is what the lock shows
      obtain ⟨hleds, hcar, hsaved⟩ := exit_leds hlit hexit.1 hexit.2
      have hrest := (restores_iff hsaved).1 (hlast hexit.1 hexit.2)
      unfold Lit
      rw [hleds, hcar, hrest]
      rfl
    · rw [Machine.run_concat, carAfter_concat, acceptedSignals_concat]
      by_cases hacc : (Receiver.machine.run as).Accepts a.1 a.2
      · rw [signal_accepted hacc, not_and] at hexit
        rw [signal_accepted hacc, step_accepted hacc]
        exact act_lit (r := (Receiver.machine.run as).entered a.1 a.2) (hshow.congr rfl)
          (hlit.congr rfl) (fun hin ha => hexit hin (congrArg some ha))
      · rw [signal_refused hacc, Option.toList_none, List.append_nil]
        exact hlit.congr (control_refused hacc)

/-- In normal mode the LEDs of a lit receiver show the lock state. -/
theorem Lit.ledsShow (hlit : Lit r c signals) (hshow : Shows r c) (hmode : r.windowMode = false) :
    r.LedsShow := by
  have hnone : ¬ c.window.isSome := by
    rw [← hshow.mode, hmode]
    exact Bool.false_ne_true
  have hstate := hshow.state
  unfold Lit at hlit
  rw [if_neg hnone] at hlit hstate
  exact (ledsShow_iff hstate).2 hlit

/-- **When the lock LEDs show the lock state.** They do in every normal-mode state of a
run exactly if each exit of the run from window mode follows no window command since
the mode was entered, or a last one that was "up" on a locked car or "down" on an
unlocked one. -/
theorem leds_show_iff (as : List Arrival) :
    (∀ pre, pre <+: as → let r := Receiver.machine.run pre
      r.windowMode = false → r.LedsShow) ↔ RestoredExits as := by
  have hstart : Receiver.machine.run [] = Receiver.boot.setup := rfl
  apply Machine.forall_prefix_iff
  · rw [hstart]
    decide
  · intro as a _ hexits _
    simp only
    by_cases hexit : (Receiver.machine.run as).windowMode = true ∧
        (Receiver.machine.run as).signal a = some WINDOW_SIGNAL
    · -- an exit: the LEDs are right afterwards exactly if window mode left them so
      obtain ⟨hleds, hcar, hsaved⟩ := exit_leds (lit_run hexits) hexit.1 hexit.2
      have hshow := carAfter_shows (as ++ [a])
      rw [hcar] at hshow
      rw [ledsShow_iff (b := (carAfter as).bolt) hshow.state, hleds, restores_iff hsaved]
      exact ⟨fun h _ _ => h hshow.mode, fun h _ => h hexit.1 hexit.2⟩
    · -- any other arrival needs no condition
      rw [not_and] at hexit
      have hquiet : (Receiver.machine.run as).windowMode = true →
          (Receiver.machine.run as).signal a = some WINDOW_SIGNAL →
          (Receiver.machine.run as).Restores (acceptedSignals as) :=
        fun hmode hsig => absurd hsig (hexit hmode)
      have hlit : Lit _ _ _ := lit_run (Machine.forall_event_concat.2 ⟨hquiet, hexits⟩)
      exact ⟨fun _ => hquiet, fun _ => hlit.ledsShow (carAfter_shows _)⟩

/-- Into window mode, up, stop, and out again: both lock LEDs are off on an unlocked
car. -/
theorem leds_dark :
    let r := Receiver.machine.run [(frameAt 1 WINDOW_SIGNAL, powerOn),
      (frameAt 2 WINDOW_UP_SIGNAL, powerOn), (frameAt 3 LOCK_SIGNAL, powerOn),
      (frameAt 4 WINDOW_SIGNAL, powerOn)]
    r.windowMode = false ∧ r.state = .Unlock ∧ r.leds = (.LOW, .LOW) ∧ ¬ r.LedsShow := by
  decide +kernel

end KeyFob
