import KeyFob.Proof.Search
import KeyFob.Spec.Car

/-!
# The receiver shows a car

* `OnDataRecv_eq`: what the callback does, in terms of the window and the clock check.
* `act_shows`: an accepted frame moves the receiver as its signal moves the car.
* `shows_run`: after any arrivals the receiver shows the car that the accepted frames
  alone have moved.
-/

namespace KeyFob

open RollingCode Receiver

variable {r : Receiver} {c : Car} {f : struct_message} {now : timeval}

/-! ## The command history -/

@[simp] theorem levelAfter_nil (pin : Led) (l : Level) : levelAfter pin l [] = l := rfl

@[simp] theorem levelAfter_cons (pin : Led) (l : Level) (d : Command) (cs : List Command) :
    levelAfter pin l (d :: cs) = match d with
      | .digitalWrite p l' => levelAfter pin (if p = pin then l' else l) cs
      | _ => levelAfter pin l cs := by
  cases d <;> rfl

@[simp] theorem lastLevel_append (pin : Led) (cs ds : List Command) :
    lastLevel pin (cs ++ ds) = levelAfter pin (lastLevel pin cs) ds := by
  simp only [lastLevel, levelAfter, List.foldl_append]

@[simp] theorem lkAngles_nil : lkAngles [] = [] := rfl

@[simp] theorem lkAngles_cons (d : Command) (cs : List Command) :
    lkAngles (d :: cs) = match d with
      | .servo_lk a => a :: lkAngles cs
      | _ => lkAngles cs := by
  cases d <;> rfl

@[simp] theorem lkAngles_append (cs ds : List Command) :
    lkAngles (cs ++ ds) = lkAngles cs ++ lkAngles ds := by simp [lkAngles]

@[simp] theorem wndAngles_nil : wndAngles [] = [] := rfl

@[simp] theorem wndAngles_cons (d : Command) (cs : List Command) :
    wndAngles (d :: cs) = match d with
      | .servo_wnd a => a :: wndAngles cs
      | _ => wndAngles cs := by
  cases d <;> rfl

@[simp] theorem wndAngles_append (cs ds : List Command) :
    wndAngles (cs ++ ds) = wndAngles cs ++ wndAngles ds := by simp [wndAngles]

/-- Commands that do not reach the lock servo leave its direction. -/
theorem lkDirection_append {cs ds : List Command} (h : lkAngles ds = []) :
    lkDirection (cs ++ ds) = lkDirection cs := by
  simp [lkDirection, h]

@[simp] theorem servo_lk_write_eq (r : Receiver) (a : ℕ) :
    r.servo_lk_write a = { r with commands := r.commands ++ [.servo_lk a] } := rfl

@[simp] theorem servo_wnd_write_eq (r : Receiver) (a : ℕ) :
    r.servo_wnd_write a = { r with commands := r.commands ++ [.servo_wnd a] } := rfl

@[simp] theorem digitalWrite_eq (r : Receiver) (p : Led) (l : Level) :
    r.digitalWrite p l = { r with commands := r.commands ++ [.digitalWrite p l] } := rfl

/-! ## One accepted frame -/

/-- The commands `updateLockState` issues. -/
def lockCommands : LK_State → List Command
  | .Lock => [.servo_lk 0, .digitalWrite .LOCK_LED .HIGH, .digitalWrite .UNLOCK_LED .LOW, .servo_lk 20]
  | .Unlock =>
    [.servo_lk 40, .digitalWrite .LOCK_LED .LOW, .digitalWrite .UNLOCK_LED .HIGH, .servo_lk 20]
  | .Window => []

/-- **What `updateLockState` does**: it issues the commands for `state`, unless
`state_old` is the same. -/
theorem updateLockState_eq (r : Receiver) : r.updateLockState =
    if r.state = r.state_old then r
    else { r with commands := r.commands ++ lockCommands r.state } := by
  obtain ⟨rc, tv, msg, state, state_old, mode, cs⟩ := r
  unfold updateLockState
  split
  · rfl
  · cases state <;> simp [lockCommands]

@[simp] theorem lkAngles_lockCommands (b : Bolt) :
    lkAngles (lockCommands b.state) = [b.angle, 20] := by
  cases b <;> rfl

@[simp] theorem wndAngles_lockCommands (b : Bolt) : wndAngles (lockCommands b.state) = [] := by
  cases b <;> rfl

/-- The lock commands leave the window LED alone. -/
@[simp] theorem levelAfter_lockCommands (l : Level) (s : LK_State) :
    levelAfter .WINDOW_LED l (lockCommands s) = l := by
  cases s <;> rfl

theorem bolt_state_inj {b b' : Bolt} : b.state = b'.state ↔ b = b' := by
  cases b <;> cases b' <;> decide

theorem bolt_state_ne_window (b : Bolt) : b.state ≠ .Window := by
  cases b <;> decide

/-- **The lock is driven to the new state.** In normal mode, once `state` is that of
`b`, `updateLockState` leaves the car with its lock at `b`; where it does nothing the
lock must have been there already. -/
theorem updateLockState_shows {b : Bolt} (hmode : r.windowMode = false) (hstate : r.state = b.state)
    (hled : lastLevel .WINDOW_LED r.commands = .LOW)
    (hwnd : (wndAngles r.commands).getLast? = some 20)
    (hlk : (lkAngles r.commands).getLast? = some 20)
    (hdir : r.state = r.state_old → lkDirection r.commands = some b.angle) :
    Shows r.updateLockState { bolt := b, window := none } := by
  rw [updateLockState_eq]
  by_cases heq : r.state = r.state_old
  · rw [if_pos heq]
    exact ⟨hmode, hstate, fun h => absurd h (by simp), hled, hwnd, hlk, hdir heq⟩
  · rw [if_neg heq]
    refine ⟨hmode, hstate, fun h => absurd h (by simp), ?_, ?_, ?_, ?_⟩
    · simpa using hled
    · rw [hstate]
      simpa [Motion.angle] using hwnd
    · rw [hstate]
      simp
    · rw [hstate]
      cases b <;> simp [lkDirection, Bolt.angle]

/-- One accepted frame in normal mode. -/
theorem normal_shows {b : Bolt} (h : Shows r { bolt := b, window := none }) :
    Shows r.normalSwitch.updateLockState
      (Car.step { bolt := b, window := none } r.message.action) := by
  obtain ⟨hmode, hstate, -, hled, hwnd, hlk, hdir⟩ := h
  simp only [Option.isSome_none, Bool.false_eq_true, if_false, Option.getD_none] at hmode hstate hled hwnd
  have hmoved : ∀ b' : Bolt, b'.state = r.state → lkDirection r.commands = some b'.angle := by
    intro b' hb'
    rw [bolt_state_inj.1 (hb'.trans hstate), hdir]
  unfold normalSwitch Car.step
  simp only
  by_cases hlock : r.message.action = LOCK_SIGNAL
  · rw [if_pos hlock, if_pos hlock]
    exact updateLockState_shows hmode rfl hled hwnd hlk (hmoved .locked)
  rw [if_neg hlock, if_neg hlock]
  by_cases hunlock : r.message.action = UNLOCK_SIGNAL
  · rw [if_pos hunlock, if_pos hunlock]
    exact updateLockState_shows hmode rfl hled hwnd hlk (hmoved .unlocked)
  rw [if_neg hunlock, if_neg hunlock]
  by_cases hwin : r.message.action = WINDOW_SIGNAL
  · -- window mode is entered: `updateLockState` has no case for `Window`
    rw [if_pos hwin, if_pos hwin, updateLockState_eq,
      if_neg (fun h => bolt_state_ne_window b (hstate.symm.trans h.symm))]
    refine ⟨rfl, rfl, fun _ => hstate, ?_, ?_, ?_, ?_⟩
    · simp
    · simpa [lockCommands] using hwnd
    · simpa [lockCommands] using hlk
    · simpa [lockCommands] using (lkDirection_append (by simp)).trans hdir
  · -- no case of the switch: `updateLockState` may drive the lock again, the same way
    rw [if_neg hwin, if_neg hwin]
    exact updateLockState_shows hmode hstate hled hwnd hlk (fun _ => hdir)

/-- One accepted frame in window mode. -/
theorem window_shows {b : Bolt} {m : Motion} (h : Shows r { bolt := b, window := some m }) :
    Shows r.windowSwitch (Car.step { bolt := b, window := some m } r.message.action) := by
  have h0 := h
  obtain ⟨hmode, hstate, hsaved, hled, hwnd, hlk, hdir⟩ := h
  simp only [Option.isSome_some, if_true, forall_const] at hmode hstate hsaved hled
  -- every branch but the last two keeps the mode and sets the window servo
  have hmove : ∀ (m' : Motion) (l l' : Level), Shows (((r.servo_wnd_write m'.angle).digitalWrite
      .LOCK_LED l).digitalWrite .UNLOCK_LED l') { bolt := b, window := some m' } := by
    intro m' l l'
    refine ⟨hmode, hstate, fun _ => hsaved, ?_, ?_, ?_, ?_⟩
    · simpa using hled
    · simp
    · simpa using hlk
    · simpa using (lkDirection_append (by simp)).trans hdir
  unfold windowSwitch Car.step
  simp only
  by_cases hup : r.message.action = WINDOW_UP_SIGNAL
  · rw [if_pos hup, if_pos hup]
    exact hmove .up .HIGH .LOW
  rw [if_neg hup, if_neg hup]
  by_cases hlock : r.message.action = LOCK_SIGNAL
  · rw [if_pos hlock, if_neg (by rw [hlock]; decide), if_pos (Or.inl hlock)]
    exact hmove .still .LOW .LOW
  rw [if_neg hlock]
  by_cases hdown : r.message.action = WINDOW_DOWN_SIGNAL
  · rw [if_pos hdown, if_pos hdown]
    exact hmove .down .LOW .HIGH
  rw [if_neg hdown, if_neg hdown]
  by_cases hunlock : r.message.action = UNLOCK_SIGNAL
  · rw [if_pos hunlock, if_pos (Or.inr hunlock)]
    exact hmove .still .LOW .LOW
  rw [if_neg hunlock, if_neg (not_or.2 ⟨hlock, hunlock⟩)]
  by_cases hwin : r.message.action = WINDOW_SIGNAL
  · -- window mode is left: the saved state comes back and the window stops
    rw [if_pos hwin, if_pos hwin]
    refine ⟨rfl, hsaved, fun h => absurd h (by simp), ?_, ?_, ?_, ?_⟩
    · simp
    · simp [Motion.angle]
    · simpa using hlk
    · simpa using (lkDirection_append (by simp)).trans hdir
  · rw [if_neg hwin, if_neg hwin]
    exact h0

/-- **An accepted frame moves the receiver as its signal moves the car.** -/
theorem act_shows (h : Shows r c) : Shows r.act (c.step r.message.action) := by
  obtain ⟨bolt, window⟩ := c
  have hmode := h.mode
  unfold act
  cases window with
  | none => rw [if_neg (by simp [hmode])]; exact normal_shows h
  | some m => rw [if_pos (by simp [hmode])]; exact window_shows h

/-! ## The callback -/

/-- The receiver as it enters the `if`: the buffers filled, the rolling code at the
code of the frame. -/
def Receiver.entered (r : Receiver) (f : struct_message) (now : timeval) : Receiver :=
  { r with message := f, tv_now := now, rollingCode := r.rollingCode.moveTo f.rollingCode }

theorem accepts_iff : r.Accepts f now ↔
    r.rollingCode.InWindow f.rollingCode ∧ isValidTime now.micros f.tv_now.micros = true := by
  unfold Accepts
  rw [matches_fst]

/-- **What the callback does.** A code in the window moves the rolling code even when
the clock check then fails. -/
theorem OnDataRecv_eq (r : Receiver) (f : struct_message) (now : timeval) : r.OnDataRecv f now =
    if r.rollingCode.InWindow f.rollingCode then
      if isValidTime now.micros f.tv_now.micros then (r.entered f now).act else r.entered f now
    else { r with message := f, tv_now := now } := by
  unfold OnDataRecv
  simp only [matches_eq]
  by_cases h : r.rollingCode.InWindow f.rollingCode
  · simp only [if_pos h]; rfl
  · simp only [if_neg h]

theorem OnDataRecv_accepted (h : r.Accepts f now) : r.OnDataRecv f now = (r.entered f now).act := by
  rw [accepts_iff] at h
  rw [OnDataRecv_eq, if_pos h.1, if_pos h.2]

/-- A frame that is not accepted changes the buffers and the rolling code only. -/
theorem OnDataRecv_refused (h : ¬ r.Accepts f now) : r.OnDataRecv f now = { r with
    message := f, tv_now := now, rollingCode := (r.rollingCode.matches f.rollingCode).2 } := by
  rw [accepts_iff, not_and] at h
  rw [OnDataRecv_eq, matches_snd]
  by_cases hw : r.rollingCode.InWindow f.rollingCode
  · rw [if_pos hw, if_neg (h hw), if_pos hw]; rfl
  · rw [if_neg hw, if_neg hw]

/-- The parts of `control`. -/
theorem control_eq_iff {r' : Receiver} : r'.control = r.control ↔ r'.windowMode = r.windowMode ∧
    r'.state = r.state ∧ r'.state_old = r.state_old ∧ r'.commands = r.commands := by
  simp only [Receiver.control, Prod.mk.injEq]

theorem control_refused (h : ¬ r.Accepts f now) : (r.OnDataRecv f now).control = r.control := by
  rw [OnDataRecv_refused h]; rfl

theorem updateLockState_rollingCode (r : Receiver) :
    r.updateLockState.rollingCode = r.rollingCode := by
  rw [updateLockState_eq]; split <;> rfl

theorem act_rollingCode (r : Receiver) : r.act.rollingCode = r.rollingCode := by
  unfold act
  split
  · unfold windowSwitch; split_ifs <;> rfl
  · rw [updateLockState_rollingCode]
    unfold normalSwitch; split_ifs <;> rfl

/-- **The callback moves the rolling code as `matches` does**, whatever else it does. -/
theorem OnDataRecv_rollingCode (r : Receiver) (f : struct_message) (now : timeval) :
    (r.OnDataRecv f now).rollingCode = (r.rollingCode.matches f.rollingCode).2 := by
  by_cases h : r.Accepts f now
  · rw [OnDataRecv_accepted h, act_rollingCode, matches_snd, if_pos (accepts_iff.1 h).1]; rfl
  · rw [OnDataRecv_refused h]

/-! ## Runs of the receiver -/

theorem Shows.congr {r' : Receiver} (h : Shows r c) (hc : r'.control = r.control) : Shows r' c := by
  obtain ⟨h1, h2, h3, h4⟩ := control_eq_iff.1 hc
  exact ⟨h1 ▸ h.mode, h2 ▸ h.state, h3 ▸ h.saved, h4 ▸ h.led, h4 ▸ h.wnd, h4 ▸ h.lk,
    h4 ▸ h.direction⟩

/-- The lock state the sketch keeps is that of the bolt. -/
theorem Shows.lockState (h : Shows r c) : r.lockState = c.bolt.state := by
  unfold Receiver.lockState
  by_cases hm : c.window.isSome
  · rw [h.mode, if_pos hm, h.saved hm]
  · rw [h.mode, if_neg hm, h.state, if_neg hm]

theorem signal_accepted {a : Arrival} (h : r.Accepts a.1 a.2) : r.signal a = some a.1.action :=
  if_pos h

theorem signal_refused {a : Arrival} (h : ¬ r.Accepts a.1 a.2) : r.signal a = none := if_neg h

theorem signal_eq_some_iff {a : Arrival} {sig : Byte} :
    r.signal a = some sig ↔ r.Accepts a.1 a.2 ∧ a.1.action = sig := by
  by_cases hacc : r.Accepts a.1 a.2
  · rw [signal_accepted hacc, Option.some.injEq]
    exact (and_iff_right hacc).symm
  · rw [signal_refused hacc]
    exact ⟨fun h => absurd h (by simp), fun h => absurd h.1 hacc⟩

/-- An accepted arrival, seen from the run. -/
theorem step_accepted {a : Arrival} (h : r.Accepts a.1 a.2) :
    Receiver.machine.step r a = (r.entered a.1 a.2).act := OnDataRecv_accepted h

/-- One arrival, accepted or not. -/
theorem step_shows (h : Shows r c) (a : Arrival) :
    Shows (r.OnDataRecv a.1 a.2) ((r.signal a).elim c c.step) := by
  by_cases hacc : r.Accepts a.1 a.2
  · rw [signal_accepted hacc, OnDataRecv_accepted hacc]
    exact act_shows (h.congr rfl)
  · rw [signal_refused hacc]
    exact h.congr (control_refused hacc)

theorem setup_shows : Shows Receiver.boot.setup Car.machine.init := by
  constructor <;> decide

/-- **The receiver refines the car**, an arrival being the signal of an accepted frame
or nothing. -/
theorem receiver_refines :
    Machine.Refines Receiver.machine Car.machine (fun _ _ => True) Receiver.signal Shows where
  init := setup_shows
  step := fun _ _ a h _ => step_shows h a

/-- After any arrivals the receiver shows some car. -/
theorem shows_run (as : List Arrival) :
    Shows (Receiver.machine.run as)
      (Car.machine.run (Receiver.machine.labels Receiver.signal Receiver.machine.init as)) :=
  receiver_refines.run (Machine.along_of_forall (fun _ _ => trivial) _ _)

end KeyFob
