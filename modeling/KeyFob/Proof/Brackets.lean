import KeyFob.Proof.Car

/-!
# The lock servo and window mode

* `act_drives`: the lock servo is driven exactly when the bolt moves, on the commands
  of the current mode.
* `window_brackets`: window mode gives back the lock state it found and does not touch
  the lock servo.
-/

namespace KeyFob

open RollingCode Receiver

variable {r : Receiver} {c : Car} {f : struct_message} {now : timeval}

theorem Drives.refl (r : Receiver) : Drives r r [] := ⟨[], by simp, rfl⟩

theorem Drives.trans {r₁ r₂ r₃ : Receiver} {as bs : List ℕ} (h1 : Drives r₁ r₂ as)
    (h2 : Drives r₂ r₃ bs) : Drives r₁ r₃ (as ++ bs) := by
  obtain ⟨ds, hd, rfl⟩ := h1
  obtain ⟨es, he, rfl⟩ := h2
  exact ⟨ds ++ es, by rw [he, hd, List.append_assoc], by simp⟩

@[simp] theorem pulse_self (b : Bolt) : pulse b b = [] := if_pos rfl

theorem drives_of_control {r' : Receiver} (h : r'.control = r.control) : Drives r r' [] := by
  obtain ⟨-, -, -, hcommands⟩ := control_eq_iff.1 h
  exact ⟨[], by simp [hcommands], rfl⟩

/-- Window mode never drives the lock. -/
theorem windowSwitch_drives (r : Receiver) : Drives r r.windowSwitch [] := by
  unfold windowSwitch
  split_ifs
  all_goals first
    | exact Drives.refl r
    | exact ⟨_, by simp; rfl, rfl⟩

/-- `updateLockState` drives the lock from the bolt of `state_old` to that of `state`. -/
theorem drives_updateLockState {r' : Receiver} {b b' : Bolt} (hc : r'.commands = r.commands)
    (hs : r'.state = b'.state) (ho : r'.state_old = b.state) :
    Drives r r'.updateLockState (pulse b b') := by
  rw [updateLockState_eq, hs, ho]
  by_cases hb : b = b'
  · subst hb
    rw [if_pos rfl]
    exact ⟨[], by simp [hc], by simp [pulse]⟩
  · rw [if_neg (fun h => hb (bolt_state_inj.1 h).symm)]
    exact ⟨lockCommands b'.state, by rw [hc], by simp [pulse, hb]⟩

theorem normalSwitch_lock (h : r.message.action = LOCK_SIGNAL) :
    r.normalSwitch = { r with state_old := r.state, state := .Lock } := by
  unfold normalSwitch; rw [if_pos h]

theorem normalSwitch_unlock (h : r.message.action = UNLOCK_SIGNAL) :
    r.normalSwitch = { r with state_old := r.state, state := .Unlock } := by
  unfold normalSwitch; rw [if_neg (by rw [h]; decide), if_pos h]

theorem normalSwitch_window (h : r.message.action = WINDOW_SIGNAL) : r.normalSwitch =
    { r with windowMode := true, state_old := r.state, state := .Window,
             commands := r.commands ++ [.digitalWrite .WINDOW_LED .HIGH] } := by
  unfold normalSwitch; rw [if_neg (by rw [h]; decide), if_neg (by rw [h]; decide), if_pos h]; rfl

theorem Car.step_lock (b : Bolt) :
    Car.step { bolt := b, window := none } LOCK_SIGNAL = { bolt := .locked, window := none } := rfl

theorem Car.step_unlock (b : Bolt) :
    Car.step { bolt := b, window := none } UNLOCK_SIGNAL = { bolt := .unlocked, window := none } := rfl

theorem Car.step_window (b : Bolt) : Car.step { bolt := b, window := none } WINDOW_SIGNAL =
    { bolt := b, window := some .still } := rfl

/-- **The lock servo follows the car.** An accepted signal that is a command of the
current mode drives the lock exactly when it moves the bolt, the way it moves it. -/
theorem act_drives (h : Shows r c) (hcmd : c.window = none → r.message.action = LOCK_SIGNAL ∨
      r.message.action = UNLOCK_SIGNAL ∨ r.message.action = WINDOW_SIGNAL) :
    Drives r r.act (pulse c.bolt (c.step r.message.action).bolt) := by
  obtain ⟨b, window⟩ := c
  cases window with
  | some m =>
    have hbolt : (Car.step { bolt := b, window := some m } r.message.action).bolt = b := by
      unfold Car.step
      simp only
      split_ifs <;> rfl
    have hact : r.act = r.windowSwitch := by
      unfold act; rw [if_pos (show r.windowMode = true from h.mode)]
    rw [hbolt, hact]
    rw [pulse_self]; exact windowSwitch_drives r
  | none =>
    have hstate : r.state = b.state := h.state
    have hact : r.act = r.normalSwitch.updateLockState := by
      unfold act; rw [if_neg (by simp [h.mode])]
    rw [hact]
    rcases hcmd rfl with ha | ha | ha
    · rw [normalSwitch_lock ha, ha, Car.step_lock]
      exact drives_updateLockState rfl rfl hstate
    · rw [normalSwitch_unlock ha, ha, Car.step_unlock]
      exact drives_updateLockState rfl rfl hstate
    · rw [normalSwitch_window ha, ha, Car.step_window, updateLockState_eq,
        if_neg (fun h => bolt_state_ne_window b (hstate.symm.trans h.symm))]
      exact ⟨[.digitalWrite .WINDOW_LED .HIGH], by simp [lockCommands], by simp [pulse]⟩

/-! ## Window mode brackets -/

/-- Inside window mode, without its toggle, the car stays inside with the same bolt. -/
theorem Car.step_inside {b : Bolt} {m : Motion} {a : Byte} (ha : a ≠ WINDOW_SIGNAL) :
    ∃ m', Car.step { bolt := b, window := some m } a = { bolt := b, window := some m' } := by
  unfold Car.step
  simp only
  split_ifs
  · exact ⟨.up, rfl⟩
  · exact ⟨.down, rfl⟩
  · exact ⟨.still, rfl⟩
  · exact ⟨m, rfl⟩

/-- One arrival that is a command of the current mode or is not accepted drives the
lock as far as it moves the bolt. -/
theorem step_drives (h : Shows r c) {a : Arrival} (hcmd : r.Accepts a.1 a.2 → c.window = none →
      a.1.action = LOCK_SIGNAL ∨ a.1.action = UNLOCK_SIGNAL ∨ a.1.action = WINDOW_SIGNAL) :
    Drives r (r.OnDataRecv a.1 a.2) (pulse c.bolt ((r.signal a).elim c c.step).bolt) := by
  by_cases hacc : r.Accepts a.1 a.2
  · rw [signal_accepted hacc, OnDataRecv_accepted hacc]
    exact act_drives (r := r.entered a.1 a.2) (h.congr rfl) (hcmd hacc)
  · rw [signal_refused hacc, Option.elim_none, pulse_self]
    exact drives_of_control (control_refused hacc)

/-- Arrivals inside window mode, none of them its toggle, keep the bolt and never
drive the lock. -/
theorem inside_run {b : Bolt} {m : Motion} (h : Shows r { bolt := b, window := some m })
    {body : List Arrival} (hbody : ∀ a ∈ body, a.1.action ≠ WINDOW_SIGNAL) :
    (∃ m', Shows (Receiver.machine.runFrom r body) { bolt := b, window := some m' }) ∧
      Drives r (Receiver.machine.runFrom r body) [] := by
  induction body generalizing r m with
  | nil => exact ⟨⟨m, h⟩, Drives.refl r⟩
  | cons a body ih =>
    have hshow := step_shows h a
    have hdrive := step_drives h (a := a) (fun _ hw => absurd hw (by simp))
    have hinside : ∃ m', (r.signal a).elim { bolt := b, window := some m }
        (Car.step { bolt := b, window := some m }) = { bolt := b, window := some m' } := by
      by_cases hacc : r.Accepts a.1 a.2
      · rw [signal_accepted hacc]; exact Car.step_inside (hbody a List.mem_cons_self)
      · rw [signal_refused hacc]; exact ⟨m, rfl⟩
    obtain ⟨m', hm'⟩ := hinside
    rw [hm'] at hshow hdrive
    obtain ⟨hend, hrest⟩ := ih hshow (fun x hx => hbody x (List.mem_cons_of_mem _ hx))
    have hall := hdrive.trans hrest
    rw [pulse_self] at hall
    exact ⟨hend, hall⟩

/-- Mode, state and LED go together, and the saved state is a lock state. -/
theorem Shows.together (h : Shows r c) : (r.windowMode = true ↔ r.state = .Window) ∧
    (r.state = .Window ↔ lastLevel .WINDOW_LED r.commands = .HIGH) ∧
    (r.windowMode = true → r.state_old = .Lock ∨ r.state_old = .Unlock) := by
  obtain ⟨b, window⟩ := c
  obtain ⟨hmode, hstate, hsaved, hled, -, -, -⟩ := h
  cases window with
  | none =>
    simp only [Option.isSome_none, Bool.false_eq_true, if_false] at hmode hstate hled
    simp [hmode, hstate, hled, bolt_state_ne_window]
  | some m =>
    simp only [Option.isSome_some, if_true, forall_const] at hmode hstate hsaved hled
    cases b <;> simp [hmode, hstate, hsaved, hled, Bolt.state]

/-- An accepted toggle in normal mode. -/
theorem toggle_enters {b : Bolt} {a : Arrival} (h : Shows r { bolt := b, window := none })
    (hacc : r.Accepts a.1 a.2) (ha : a.1.action = WINDOW_SIGNAL) :
    Shows (Receiver.machine.step r a) { bolt := b, window := some .still } ∧
      Drives r (Receiver.machine.step r a) [] := by
  have hshow := step_shows h a
  have hdrive := step_drives h (a := a) (fun _ _ => Or.inr (Or.inr ha))
  rw [signal_accepted hacc, ha, Option.elim_some, Car.step_window] at hshow hdrive
  rw [pulse_self] at hdrive
  exact ⟨hshow, hdrive⟩

/-- An accepted toggle in window mode. -/
theorem toggle_leaves {b : Bolt} {m : Motion} {a : Arrival}
    (h : Shows r { bolt := b, window := some m }) (hacc : r.Accepts a.1 a.2)
    (ha : a.1.action = WINDOW_SIGNAL) :
    Shows (Receiver.machine.step r a) { bolt := b, window := none } ∧
      Drives r (Receiver.machine.step r a) [] := by
  have hshow := step_shows h a
  have hdrive := step_drives h (a := a) (fun _ hw => absurd hw (by simp))
  have hstep : Car.step { bolt := b, window := some m } WINDOW_SIGNAL =
      { bolt := b, window := none } := rfl
  rw [signal_accepted hacc, ha, Option.elim_some, hstep] at hshow hdrive
  rw [pulse_self] at hdrive
  exact ⟨hshow, hdrive⟩

/-- The car in normal mode. -/
theorem shows_normal {as : List Arrival} (hnormal : (Receiver.machine.run as).windowMode = false) :
    ∃ b, Shows (Receiver.machine.run as) { bolt := b, window := none } := by
  have h := shows_run as
  have hmode := h.mode
  rw [hnormal] at hmode
  generalize Car.machine.run _ = c at h hmode
  obtain ⟨b, window⟩ := c
  obtain rfl : window = none := by simpa using hmode.symm
  exact ⟨b, h⟩

/-- **Window mode brackets.** After setup, whatever arrives, `windowMode`, the state
`Window` and the window LED go together, and in window mode `state_old` is a lock
state. From normal mode, an accepted toggle turns window mode on; with any arrivals after
it that are not toggles, and an accepted toggle, it gives back normal mode and the same
`state`, and the lock servo is sent nothing in between. -/
theorem window_brackets :
    (∀ as, let r := Receiver.machine.run as
      (r.windowMode = true ↔ r.state = .Window) ∧
      (r.state = .Window ↔ lastLevel .WINDOW_LED r.commands = .HIGH) ∧
      (r.windowMode = true → r.state_old = .Lock ∨ r.state_old = .Unlock)) ∧
    (∀ (as : List Arrival) (enter : Arrival),
      let r := Receiver.machine.run as
      r.windowMode = false → r.Accepts enter.1 enter.2 → enter.1.action = WINDOW_SIGNAL →
      (Receiver.machine.step r enter).windowMode = true) ∧
    ∀ (as body : List Arrival) (enter leave : Arrival),
      let r := Receiver.machine.run as
      let r₁ := Receiver.machine.runFrom r (enter :: body)
      let r₂ := Receiver.machine.step r₁ leave
      r.windowMode = false → r.Accepts enter.1 enter.2 → enter.1.action = WINDOW_SIGNAL →
      (∀ a ∈ body, a.1.action ≠ WINDOW_SIGNAL) →
      r₁.Accepts leave.1 leave.2 → leave.1.action = WINDOW_SIGNAL →
      r₂.windowMode = false ∧ r₂.state = r.state ∧ Drives r r₂ [] := by
  refine ⟨?_, ?_, ?_⟩
  · intro as r
    exact (shows_run as).together
  · intro as enter r hnormal henter hin
    obtain ⟨b, h⟩ := shows_normal hnormal
    exact (toggle_enters h henter hin).1.mode
  · intro as body enter leave r r₁ r₂ hnormal henter hin hbody hleave hout
    obtain ⟨b, h⟩ := shows_normal hnormal
    obtain ⟨h1, hd1⟩ := toggle_enters h henter hin
    obtain ⟨⟨m, h2⟩, hd2⟩ : (∃ m, Shows r₁ { bolt := b, window := some m }) ∧ Drives _ r₁ [] :=
      inside_run h1 hbody
    obtain ⟨h3, hd3⟩ := toggle_leaves h2 hleave hout
    have hsame : r₂.state = r.state := (show r₂.state = b.state from h3.state).trans h.state.symm
    exact ⟨h3.mode, hsame, (hd1.trans hd2).trans hd3⟩

/-- A frame of the fob with the code of its `n`-th press, stamped at power-on. -/
def frameAt (n : ℕ) (action : Byte) : struct_message where
  tv_now := { tv_sec := 0, tv_usec := 0 }
  rollingCode := deployed.code n
  action := action

/-- The receiver's clock at power-on. -/
def powerOn : timeval := { tv_sec := 0, tv_usec := 0 }

/-- Locked, into window mode, window up and stop, and out again. -/
theorem window_brackets_locked :
    let r := Receiver.machine.run [(frameAt 1 LOCK_SIGNAL, powerOn)]
    let r₂ := Receiver.machine.step (Receiver.machine.runFrom r
      [(frameAt 2 WINDOW_SIGNAL, powerOn), (frameAt 3 WINDOW_UP_SIGNAL, powerOn),
        (frameAt 4 LOCK_SIGNAL, powerOn)]) (frameAt 5 WINDOW_SIGNAL, powerOn)
    r₂.windowMode = false ∧ r₂.state = r.state ∧ Drives r r₂ [] :=
  window_brackets.2.2 [(frameAt 1 LOCK_SIGNAL, powerOn)]
    [(frameAt 3 WINDOW_UP_SIGNAL, powerOn), (frameAt 4 LOCK_SIGNAL, powerOn)]
    (frameAt 2 WINDOW_SIGNAL, powerOn) (frameAt 5 WINDOW_SIGNAL, powerOn)
    (by decide +kernel) (by decide +kernel) (by decide) (by decide +kernel)
    (by decide +kernel) (by decide)

end KeyFob
