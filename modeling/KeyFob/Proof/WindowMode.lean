import KeyFob.Proof.InOrder
import Mathlib.Algebra.Group.Nat.Even

/-!
# Window mode under loss

`WINDOW_SIGNAL` toggles, so each one that is lost turns the receiver's idea of the mode
around. `window_mode_agrees`: the two units agree exactly while an even number of them
has been lost, and while they agree nothing sent from inside the window loop reaches
the lock.
-/

namespace KeyFob

open RollingCode

variable {r : Receiver} {c : Car} {s : Pair} {f : Flight} {fs : List Flight} {now : timeval}

/-- A signal changes the mode exactly when it is the toggle. -/
theorem Car.step_isSome (c : Car) (a : Byte) : (c.step a).window.isSome =
    if a = WINDOW_SIGNAL then !c.window.isSome else c.window.isSome := by
  obtain ⟨b, window⟩ := c
  by_cases ha : a = WINDOW_SIGNAL
  · subst ha
    rw [if_pos rfl]
    cases window <;> rfl
  · rw [if_neg ha]
    cases window with
    | none =>
      unfold Car.step
      simp only [if_neg ha]
      split_ifs <;> rfl
    | some m =>
      obtain ⟨m', hm'⟩ := Car.step_inside (b := b) (m := m) ha
      rw [hm']
      rfl

/-- **One delivered frame on the receiver**: it shows the car moved by the signal. -/
theorem Pair.deliver_shows (h : Shows s.receiver c) (hair : s.air = f :: fs)
    (hacc : s.receiver.Accepts f.frame now) :
    Shows (s.step (.deliver now)).receiver (c.step f.frame.action) := by
  have hstep := step_shows h (f.frame, now)
  rw [signal_accepted hacc] at hstep
  rw [Pair.step_deliver hair]
  exact hstep

/-! ## Agreement -/

/-- The invariant: the channel is in order, and the receiver is on the side of the
window loop that the last frame out of the air was sent from, exactly when an even
number of toggles was lost. -/
def Pair.Tracked (s : Pair) : Prop :=
  ∃ p m c, s.InOrder p m ∧ Shows s.receiver c ∧ (s.receiver.windowMode = m ↔ Even s.missed)

theorem Pair.init_tracked : Pair.machine.init.Tracked :=
  ⟨0, false, Car.machine.init, Pair.init_inOrder, setup_shows, by decide⟩

/-- The mode follows the toggle on both sides of a delivery. -/
theorem Pair.deliver_mode {p : ℕ} {m : Bool} (h : s.InOrder p m) (hshow : Shows s.receiver c)
    (hmode : s.receiver.windowMode = m ↔ Even s.missed) (hair : s.air = f :: fs)
    (hacc : s.receiver.Accepts f.frame now) :
    (s.step (.deliver now)).receiver.windowMode = f.inside ↔ Even s.missed := by
  have hafter := (Pair.deliver_shows hshow hair hacc).mode
  rw [Car.step_isSome, ← hshow.mode] at hafter
  rw [hafter, (h.speaks hair).inside, ← hmode]
  by_cases ha : f.frame.action = WINDOW_SIGNAL
  · rw [if_pos ha, if_pos ha]
    exact Bool.not_inj_iff
  · rw [if_neg ha, if_neg ha]

/-- **One event keeps the agreement**, up to the toggles lost. -/
theorem Pair.step_tracked (h : s.Tracked) {e : PairEvent} (hfair : s.Fair e) :
    (s.step e).Tracked := by
  obtain ⟨p, m, c, hord, hshow, hmode⟩ := h
  cases e with
  | sample x => exact ⟨p, m, c, Pair.sample_inOrder hord x, hshow, hmode⟩
  | deliver now =>
    cases hair : s.air with
    | nil =>
      rw [Pair.step_deliver_nil hair]
      exact ⟨p, m, c, hord, hshow, hmode⟩
    | cons f fs =>
      have hacc := Pair.deliver_accepts hord hair hfair
      have hord' := hord.deliver hair (hord.inWindow hair hfair.1) now
      have hmode' := Pair.deliver_mode hord hshow hmode hair hacc
      refine ⟨_, f.inside, _, hord', Pair.deliver_shows hshow hair hacc, ?_⟩
      rw [hmode', Pair.step_deliver hair]
  | lose =>
    cases hair : s.air with
    | nil =>
      rw [Pair.step_lose_nil hair]
      exact ⟨p, m, c, hord, hshow, hmode⟩
    | cons f fs =>
      have hord' := Pair.lose_inOrder hord hair
      have hside := (hord.speaks hair).inside
      rw [Pair.step_lose hair] at hord' ⊢
      refine ⟨p, f.inside, c, hord', hshow, ?_⟩
      simp only
      by_cases ha : f.frame.action = WINDOW_SIGNAL
      · -- a toggle is lost: the fob changes sides and the receiver does not
        rw [if_pos ha] at hside
        rw [if_pos ha, hside, Nat.even_add_one, ← hmode]
        cases s.receiver.windowMode <;> cases m <;> decide
      · rw [if_neg ha] at hside
        rw [if_neg ha, hside]
        exact hmode

/-- **What a delivery must do.** The frame is accepted. Afterwards the receiver is in
window mode as the fob's side of the loop says, exactly when an even number of toggles
was lost so far. While that number is even, a frame sent from inside the loop that is
no toggle neither drives the lock servo nor changes the lock state. -/
def Pair.Agrees (s : Pair) (e : PairEvent) : Prop :=
  ∀ now f fs, e = .deliver now → s.air = f :: fs →
    s.receiver.Accepts f.frame now ∧
    ((s.step e).receiver.windowMode = f.inside ↔ Even s.missed) ∧
    (f.frame.action ≠ WINDOW_SIGNAL → f.inside = true → Even s.missed →
      Drives s.receiver (s.step e).receiver [] ∧
      (s.step e).receiver.lockState = s.receiver.lockState)

/-- Frames from inside the loop, while the two units agree. -/
theorem Pair.deliver_inside (hshow : Shows s.receiver c) (hwindow : c.window.isSome)
    (hair : s.air = f :: fs) (hacc : s.receiver.Accepts f.frame now)
    (ha : f.frame.action ≠ WINDOW_SIGNAL) :
    Drives s.receiver (s.step (.deliver now)).receiver [] ∧
      (s.step (.deliver now)).receiver.lockState = s.receiver.lockState := by
  obtain ⟨b, window⟩ := c
  obtain ⟨motion, rfl⟩ := Option.isSome_iff_exists.1 hwindow
  obtain ⟨motion', hcar⟩ := Car.step_inside (b := b) (m := motion) ha
  refine ⟨?_, ?_⟩
  · have hdrive := step_drives hshow (a := (f.frame, now)) (fun _ hw => absurd hw (by simp))
    rw [signal_accepted hacc, Option.elim_some, hcar, pulse_self] at hdrive
    rw [Pair.step_deliver hair]
    exact hdrive
  · have hafter := (Pair.deliver_shows hshow hair hacc).lockState
    rw [hcar] at hafter
    rw [hafter, hshow.lockState]

/-- **Window mode under loss.** Whatever buttons are pressed and whichever frames are
lost, with at most 99 lost in a row before a delivery and all stamps valid, the two
units agree on window mode up to the toggles lost. -/
theorem window_mode_agrees (es : List PairEvent)
    (hfair : Pair.machine.Along Pair.Fair Pair.machine.init es) :
    Pair.machine.Along Pair.Agrees Pair.machine.init es := by
  refine Machine.along_of_inv (I := Pair.Tracked) (fun s e h hf => Pair.step_tracked h hf) ?_
    Pair.init_tracked hfair
  rintro s e ⟨p, m, c, hord, hshow, hmode⟩ hf now f fs rfl hair
  have hacc := Pair.deliver_accepts hord hair hf
  refine ⟨hacc, Pair.deliver_mode hord hshow hmode hair hacc, ?_⟩
  intro ha hinside heven
  -- the frame is no toggle, so both units were inside before it
  have hm : m = true := by
    have hside := (hord.speaks hair).inside
    rw [if_neg ha, hinside] at hside
    exact hside.symm
  have hwindow : c.window.isSome := by
    rw [← hshow.mode, hmode.2 heven, hm]
  exact Pair.deliver_inside hshow hwindow hair hacc ha

/-- A sample with the given levels, read at power-on. -/
def sampleOf (wnd lk unlk : Level) : Sample where
  level := fun pin => match pin with
    | .WNDBTTN => wnd
    | .LKBTTN => lk
    | .UNLKBTTN => unlk
  clock := powerOn

/-- Window mode on, the up button pressed, its frame lost, and released. -/
theorem window_mode_agrees_up : Pair.machine.Along Pair.Agrees Pair.machine.init
    [.sample (sampleOf .HIGH .LOW .LOW), .deliver powerOn, .sample (sampleOf .HIGH .LOW .LOW),
      .sample (sampleOf .HIGH .HIGH .LOW), .lose, .sample (sampleOf .HIGH .LOW .LOW),
      .deliver powerOn] :=
  window_mode_agrees _ (by decide +kernel)

/-- The run in which the toggle that enters is lost and the one that leaves is sent. -/
def lostEntry : Pair := Pair.machine.run
  [.sample (sampleOf .HIGH .LOW .LOW), .lose, .sample (sampleOf .LOW .LOW .LOW)]

/-- The run in which the toggle that enters is lost and the up button is released. -/
def lostStop : Pair := Pair.machine.run
  [.sample (sampleOf .HIGH .LOW .LOW), .lose, .sample (sampleOf .HIGH .LOW .LOW),
    .sample (sampleOf .HIGH .HIGH .LOW), .deliver powerOn, .sample (sampleOf .HIGH .LOW .LOW)]

/-- After the first run the toggle that leaves turns window mode on; after the second
the stop signal of the window locks the car. -/
theorem window_mode_disagrees :
    (lostEntry.air = [⟨frameAt 2 WINDOW_SIGNAL, false⟩] ∧ lostEntry.Fair (.deliver powerOn) ∧
      (lostEntry.step (.deliver powerOn)).receiver.windowMode = true) ∧
    lostStop.air = [⟨frameAt 3 LOCK_SIGNAL, true⟩] ∧ lostStop.Fair (.deliver powerOn) ∧
      lostStop.receiver.lockState = .Unlock ∧
      (lostStop.step (.deliver powerOn)).receiver.lockState = .Lock := by
  decide +kernel

end KeyFob
