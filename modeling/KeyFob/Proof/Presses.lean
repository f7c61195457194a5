import KeyFob.Proof.WindowMode

/-!
# One press, one lock command

`pollLockButton` and `pollUnlockButton` send when the level they read is high and the
one they remember is low. What they remember is the last level that they read themselves
(`Remote.state_eq`), while the window loop reads the same pins and does not store.

* `Button.last_or_low`: outside the wait for its release, the last sample of a button is
  low or the one remembered.
* `sent_is_press`: nothing is sent twice.
* `presses_iff`: a press is dropped exactly when the button was seen released in the
  window loop only.
-/

namespace KeyFob

open Level

variable {s : Remote} {x : Sample} {pre history : List Sample}

theorem ne_high {l : Level} : l ≠ HIGH ↔ l = LOW := by
  cases l <;> decide

/-! ## Samples of a pin -/

/-- The pin that the fob reads at a place of the program. -/
def Control.pin : Control → Pin
  | .loop | .windowLoop => .WNDBTTN
  | .windowU | .windowUHeld | .lockButton => .LKBTTN
  | .windowD | .windowDHeld | .unlockButton => .UNLKBTTN

/-- The levels read over a history, at the places that are asked for. -/
def samplesAt (place : Control → Bool) (history : List Sample) : List Level :=
  Remote.machine.labels (fun s x => if place s.pc then some (x.level s.pc.pin) else none)
    Remote.machine.init history

/-- The last of them. Before the first one it is `LOW`. -/
def lastAt (place : Control → Bool) (history : List Sample) : Level :=
  (samplesAt place history).getLast?.getD LOW

theorem lastAt_concat (place : Control → Bool) (pre : List Sample) (x : Sample) :
    lastAt place (pre ++ [x]) = if place (Remote.machine.run pre).pc then
      x.level (Remote.machine.run pre).pc.pin else lastAt place pre := by
  unfold lastAt samplesAt
  rw [Machine.labels_concat]
  change _ = if place (Remote.machine.runFrom _ pre).pc then _ else _
  split_ifs with hplace
  · rw [Option.toList_some, List.getLast?_concat]
    rfl
  · rw [Option.toList_none, List.append_nil]

/-! ## The two buttons -/

/-- The buttons that are polled in normal mode. -/
inductive Button where
  | lock
  | unlock
  deriving DecidableEq

namespace Button

def pin : Button → Pin
  | .lock => .LKBTTN
  | .unlock => .UNLKBTTN

/-- The place in `pollLockButton` or `pollUnlockButton`. -/
def poll : Button → Control
  | .lock => .lockButton
  | .unlock => .unlockButton

/-- The place in the wait for the release, in window mode. -/
def held : Button → Control
  | .lock => .windowUHeld
  | .unlock => .windowDHeld

def signal : Button → Byte
  | .lock => LOCK_SIGNAL
  | .unlock => UNLOCK_SIGNAL

/-- The level that the poll function remembers. -/
def state (fob : Fob) : Button → Level
  | .lock => fob.LKBTTNSTATE
  | .unlock => fob.UNLKBTTNSTATE

/-- The last sample of the button, wherever it was read. -/
def lastRead (b : Button) (history : List Sample) : Level :=
  lastAt (fun c => c.pin = b.pin) history

/-- The last sample of the button that its poll function took. -/
def lastPolled (b : Button) (history : List Sample) : Level :=
  lastAt (fun c => c = b.poll) history

end Button

/-- The messages that the fob has sent at the end of a history. -/
def Fob.sentOver (esp_now_send : Radio) (history : List Sample) : List struct_message :=
  match Fob.run esp_now_send history with
  | .ok _ b => b.fob.sent
  | .error _ b => b.fob.sent

/-- The fob sends the button's signal at the sample `x` after `pre`. -/
def Button.SentAt (b : Button) (esp_now_send : Radio) (pre : List Sample) (x : Sample) : Prop :=
  ∃ f : struct_message, f.action = b.signal ∧
    Fob.sentOver esp_now_send (pre ++ [x]) = Fob.sentOver esp_now_send pre ++ [f]

theorem Fob.sentOver_eq (esp_now_send : Radio) (history : List Sample) :
    Fob.sentOver esp_now_send history = (Remote.machine.run history).fob.sent := by
  obtain ⟨b, hend, hfob⟩ := run_follows esp_now_send history
  rw [← hfob, Fob.sentOver, hend]

/-! ## One sample -/

variable (b : Button)

theorem Button.poll_pin : b.poll.pin = b.pin := by
  cases b <;> rfl

theorem Button.held_pin : b.held.pin = b.pin := by
  cases b <;> rfl

theorem Button.poll_ne_held : b.poll ≠ b.held := by
  cases b <;> decide

@[simp] theorem Fob.sendSignal_state (fob : Fob) (sig : Byte) (clock : timeval) :
    b.state (fob.sendSignal sig clock) = b.state fob := by
  cases b <;> rfl

/-- A poll stores the level that it reads, and nothing else stores one. -/
theorem Remote.step_state (s : Remote) (x : Sample) : b.state (s.step x).fob =
    if s.pc = b.poll then x.level b.pin else b.state s.fob := by
  obtain ⟨pc, fob⟩ := s
  cases pc with
  | lockButton =>
    simp only [Remote.step]
    cases b with
    | lock =>
      rw [Button.poll, if_pos rfl]
      split_ifs <;> rfl
    | unlock =>
      have hne : Control.lockButton ≠ Button.unlock.poll := by decide
      rw [if_neg hne]
      split_ifs <;> rfl
  | unlockButton =>
    simp only [Remote.step]
    cases b with
    | lock =>
      have hne : Control.unlockButton ≠ Button.lock.poll := by decide
      rw [if_neg hne]
      split_ifs <;> rfl
    | unlock =>
      rw [Button.poll, if_pos rfl]
      split_ifs <;> rfl
  | _ =>
    have hne : ∀ c : Control, c ≠ .lockButton → c ≠ .unlockButton → c ≠ b.poll := by
      intro c hlock hunlock
      cases b
      · exact hlock
      · exact hunlock
    rw [if_neg (hne _ (by simp) (by simp))]
    simp only [Remote.step]
    split_ifs <;> simp

/-- **A poll** sends at a high level after a remembered low one, and only then. -/
theorem Remote.step_poll (hpc : s.pc = b.poll) :
    (x.level b.pin = HIGH ∧ b.state s.fob = LOW ∧ ∃ f : struct_message, f.action = b.signal ∧
        (s.step x).fob.sent = s.fob.sent ++ [f]) ∨
      (¬ (x.level b.pin = HIGH ∧ b.state s.fob = LOW) ∧
        (s.step x).fob.sent = s.fob.sent) := by
  obtain ⟨pc, fob⟩ := s
  obtain rfl : pc = b.poll := hpc
  by_cases h : x.level b.pin = HIGH ∧ b.state fob = LOW
  · left
    refine ⟨h.1, h.2, ?_⟩
    cases b with
    | lock =>
      have hif : x.level .LKBTTN = HIGH ∧ fob.LKBTTNSTATE ≠ HIGH := ⟨h.1, ne_high.2 h.2⟩
      simp only [Remote.step, Button.poll]
      rw [if_pos hif]
      exact ⟨_, rfl, rfl⟩
    | unlock =>
      have hif : x.level .UNLKBTTN = HIGH ∧ fob.UNLKBTTNSTATE ≠ HIGH := ⟨h.1, ne_high.2 h.2⟩
      simp only [Remote.step, Button.poll]
      rw [if_pos hif]
      exact ⟨_, rfl, rfl⟩
  · right
    refine ⟨h, ?_⟩
    cases b with
    | lock =>
      have hif : ¬ (x.level .LKBTTN = HIGH ∧ fob.LKBTTNSTATE ≠ HIGH) :=
        fun hif => h ⟨hif.1, ne_high.1 hif.2⟩
      simp only [Remote.step, Button.poll]
      rw [if_neg hif]
    | unlock =>
      have hif : ¬ (x.level .UNLKBTTN = HIGH ∧ fob.UNLKBTTNSTATE ≠ HIGH) :=
        fun hif => h ⟨hif.1, ne_high.1 hif.2⟩
      simp only [Remote.step, Button.poll]
      rw [if_neg hif]

/-- In window mode a button is left alone only at a low level. -/
theorem Remote.step_window (hpin : s.pc.pin = b.pin) (hpc : s.pc ≠ b.poll) :
    x.level b.pin = LOW ∨ (s.step x).pc = b.held := by
  by_cases hhigh : x.level b.pin = HIGH
  · right
    obtain ⟨pc, fob⟩ := s
    cases b with
    | lock =>
      have hlk : x.level .LKBTTN = HIGH := hhigh
      cases pc with
      | windowU =>
        simp only [Remote.step, if_pos hlk]
        rfl
      | windowUHeld =>
        simp only [Remote.step, if_pos hlk]
        rfl
      | lockButton => exact absurd rfl hpc
      | _ => cases hpin
    | unlock =>
      have hunlk : x.level .UNLKBTTN = HIGH := hhigh
      cases pc with
      | windowD =>
        simp only [Remote.step, if_pos hunlk]
        rfl
      | windowDHeld =>
        simp only [Remote.step, if_pos hunlk]
        rfl
      | unlockButton => exact absurd rfl hpc
      | _ => cases hpin
  · exact Or.inl (ne_high.1 hhigh)

/-! ## Runs -/

/-- **What is remembered** is the last level polled. -/
theorem Remote.state_eq (history : List Sample) :
    b.state (Remote.machine.run history).fob = b.lastPolled history := by
  induction history using List.reverseRecOn with
  | nil => cases b <;> rfl
  | append_singleton pre x ih =>
    have hstep := Remote.step_state b (Remote.machine.run pre) x
    rw [Machine.run_concat, Button.lastPolled, lastAt_concat]
    apply hstep.trans
    simp only [decide_eq_true_eq]
    split_ifs with hpc
    · rw [hpc, Button.poll_pin]
    · exact ih

/-- **Outside the wait for its release** the last sample of a button is low, or it is
the one that is remembered. -/
theorem Button.last_or_low (history : List Sample) :
    (Remote.machine.run history).pc = b.held ∨ b.lastRead history = LOW ∨
      b.lastRead history = b.lastPolled history := by
  induction history using List.reverseRecOn with
  | nil => exact Or.inr (Or.inl rfl)
  | append_singleton pre x ih =>
    rw [Machine.run_concat, Button.lastRead, Button.lastPolled, lastAt_concat, lastAt_concat]
    simp only [decide_eq_true_eq]
    by_cases hpin : (Remote.machine.run pre).pc.pin = b.pin
    · rw [if_pos hpin, hpin]
      by_cases hpc : (Remote.machine.run pre).pc = b.poll
      · right; right
        rw [if_pos hpc]
      · rcases Remote.step_window (x := x) b hpin hpc with hlow | hheld
        · exact Or.inr (Or.inl hlow)
        · exact Or.inl hheld
    · -- another pin is read, and not from the wait
      have hpoll : (Remote.machine.run pre).pc ≠ b.poll := by
        intro h
        rw [h, Button.poll_pin] at hpin
        exact hpin rfl
      have hheld : (Remote.machine.run pre).pc ≠ b.held := by
        intro h
        rw [h, Button.held_pin] at hpin
        exact hpin rfl
      rw [if_neg hpin, if_neg hpoll]
      exact Or.inr (ih.resolve_left hheld)

/-- **When a poll sends**, by what it polled before. -/
theorem Button.sentAt_iff (hpc : (Remote.machine.run pre).pc = b.poll) (x : Sample) :
    b.SentAt esp_now_send pre x ↔ x.level b.pin = HIGH ∧ b.lastPolled pre = LOW := by
  unfold Button.SentAt
  rw [Fob.sentOver_eq, Fob.sentOver_eq, Machine.run_concat, ← Remote.state_eq]
  rcases Remote.step_poll (x := x) b hpc with ⟨hhigh, hlow, f, haction, hsent⟩ | ⟨hnot, hsent⟩
  · exact iff_of_true ⟨f, haction, hsent⟩ ⟨hhigh, hlow⟩
  · apply iff_of_false
    · rintro ⟨f, -, hmore⟩
      have heq := hsent.symm.trans hmore
      simp at heq
    · exact hnot

/-- **Nothing is sent twice**: what a poll sends for is a press, a high sample after a
low one. -/
theorem sent_is_press (hpc : (Remote.machine.run pre).pc = b.poll) (hsent : b.SentAt esp_now_send pre x) :
    x.level b.pin = HIGH ∧ b.lastRead pre = LOW := by
  obtain ⟨hhigh, hlow⟩ := (b.sentAt_iff hpc x).1 hsent
  refine ⟨hhigh, ?_⟩
  rcases b.last_or_low pre with hheld | hread | hread
  · exact absurd (hpc.symm.trans hheld) b.poll_ne_held
  · exact hread
  · exact hread.trans hlow

/-- **One press, one lock command.** Over any history every poll of a button sends
exactly at a press, if and only if no poll finds the button high again that was seen low
in the window loop only since it was last polled high. -/
theorem presses_iff (esp_now_send : Radio) (history : List Sample) :
    (∀ pre x, pre ++ [x] <+: history → (Remote.machine.run pre).pc = b.poll →
      (b.SentAt esp_now_send pre x ↔ x.level b.pin = HIGH ∧ b.lastRead pre = LOW)) ↔
    ∀ pre x, pre ++ [x] <+: history → (Remote.machine.run pre).pc = b.poll →
      x.level b.pin = HIGH → b.lastPolled pre = HIGH → b.lastRead pre = HIGH := by
  refine ⟨?_, ?_⟩
  · intro hall pre x hpre hpc hhigh hpolled
    by_contra hread
    have hsent := (hall pre x hpre hpc).2 ⟨hhigh, ne_high.1 hread⟩
    have hlow := ((b.sentAt_iff hpc x).1 hsent).2
    rw [hpolled] at hlow
    cases hlow
  · intro hall pre x hpre hpc
    refine ⟨?_, ?_⟩
    · exact sent_is_press b hpc
    · rintro ⟨hhigh, hlow⟩
      refine (b.sentAt_iff hpc x).2 ⟨hhigh, ?_⟩
      by_contra hpolled
      have hread := hall pre x hpre hpc hhigh (by_contra fun h => hpolled (ne_high.1 h))
      rw [hlow] at hread
      cases hread

/-- The lock button is held while `loop` polls it, released in window mode, and pressed
again when window mode has been left. -/
def pressAgain : List Sample :=
  [sampleOf .LOW .HIGH .LOW, sampleOf .LOW .HIGH .LOW, sampleOf .LOW .LOW .LOW,
    sampleOf .HIGH .LOW .LOW, sampleOf .HIGH .LOW .LOW, sampleOf .HIGH .LOW .LOW,
    sampleOf .HIGH .LOW .LOW, sampleOf .LOW .LOW .LOW]

/-- The second press is dropped. -/
theorem press_dropped :
    (Remote.machine.run pressAgain).pc = Button.lock.poll ∧
      Button.lock.lastRead pressAgain = LOW ∧ (sampleOf .LOW .HIGH .LOW).level .LKBTTN = HIGH ∧
      ¬ Button.lock.SentAt (fun _ => ESP_OK) pressAgain (sampleOf .LOW .HIGH .LOW) := by
  have hpc : (Remote.machine.run pressAgain).pc = Button.lock.poll := by decide +kernel
  refine ⟨hpc, by decide +kernel, rfl, ?_⟩
  rw [Button.sentAt_iff _ hpc]
  rintro ⟨-, hlow⟩
  revert hlow
  decide +kernel

end KeyFob
