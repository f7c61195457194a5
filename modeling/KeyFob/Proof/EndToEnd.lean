import KeyFob.Proof.WindowMode
import Mathlib.Algebra.Ring.Parity

/-!
# From the buttons to the car

On a perfect channel the receiver does what the driver asked for.

* `asks_step`: one frame moves the car as the presses ask: the last lock press outside the
  window loop decides the bolt, the last frame the window.
* `Pair.inSync_delivers`: what one delivery without loss does for the driver.
* `end_to_end`: along every run without loss the receiver shows that car.
* `held_while_moving`: the last frame sent is a window command only while its button
  was read as held.
-/

namespace KeyFob

open Level RollingCode

variable {m m' : Bool} {n n' : ℕ} {f : Flight} {fs : List Flight} {s : Pair} {now : timeval}

/-! ## What the presses ask for -/

theorem lockAfter_concat (fs : List Flight) (f : Flight) : lockAfter (fs ++ [f]) =
    if f.isLock then (if f.frame.action = LOCK_SIGNAL then .locked else .unlocked)
    else lockAfter fs := by
  unfold lockAfter
  rw [List.filter_append]
  by_cases h : f.isLock
  · rw [if_pos h]
    simp [h]
  · rw [if_neg h]
    simp [h]

theorem windowAfter_concat (fs : List Flight) (f : Flight) : windowAfter (fs ++ [f]) =
    if f.frame.action = WINDOW_UP_SIGNAL then 40
    else if f.frame.action = WINDOW_DOWN_SIGNAL then 0 else 20 := by
  simp [windowAfter]

/-- The toggles among the frames. -/
def toggles (fs : List Flight) : ℕ := fs.countP (·.frame.action = WINDOW_SIGNAL)

theorem toggles_concat (fs : List Flight) (f : Flight) : toggles (fs ++ [f]) =
    if f.frame.action = WINDOW_SIGNAL then toggles fs + 1 else toggles fs := by
  unfold toggles
  rw [List.countP_append]
  by_cases h : f.frame.action = WINDOW_SIGNAL <;> simp [h]

/-- The car the frames `fs` ask for, the last of them sent on the side `m` of the
window loop. -/
structure Asks (c : Car) (fs : List Flight) (m : Bool) : Prop where
  bolt : c.bolt = lockAfter fs
  side : c.window.isSome = m
  window : (c.window.getD .still).angle = windowAfter fs
  parity : m = true ↔ Odd (toggles fs)

/-- One frame sent from outside the window loop. -/
theorem asks_outside {b : Bolt} (h : Asks { bolt := b, window := none } fs m)
    (hspeaks : Speaks m f.frame.action f.inside) :
    Asks (Car.step { bolt := b, window := none } f.frame.action) (fs ++ [f]) f.inside := by
  obtain ⟨hbolt, hside, -, hparity⟩ := h
  simp only [Option.isSome_none] at hbolt hside
  subst hside
  rcases hspeaks with ⟨ha, hm⟩ | ⟨hm, ha | ha | ⟨hin, -⟩⟩
  · -- the toggle that enters: the bolt stays, the window stands still
    have hlock : ¬ f.isLock := by
      rintro ⟨-, h | h⟩ <;> rw [ha] at h <;> cases h
    rw [ha, Car.step_window]
    refine ⟨?_, ?_, ?_, ?_⟩
    · rw [lockAfter_concat, if_neg hlock, hbolt]
    · rw [hm]; rfl
    · rw [windowAfter_concat, ha]; rfl
    · rw [toggles_concat, if_pos ha, hm, Nat.odd_add_one, ← hparity]
      decide
  · -- a lock press: it decides the bolt from now on
    have hlock : f.isLock := ⟨hm, Or.inl ha⟩
    rw [ha, Car.step_lock]
    refine ⟨?_, ?_, ?_, ?_⟩
    · rw [lockAfter_concat, if_pos hlock, if_pos ha]
    · rw [hm]; rfl
    · rw [windowAfter_concat, ha]; rfl
    · rw [toggles_concat, if_neg (by rw [ha]; decide), hm, hparity]
  · have hlock : f.isLock := ⟨hm, Or.inr ha⟩
    rw [ha, Car.step_unlock]
    refine ⟨?_, ?_, ?_, ?_⟩
    · rw [lockAfter_concat, if_pos hlock, if_neg (by rw [ha]; decide)]
    · rw [hm]; rfl
    · rw [windowAfter_concat, ha]; rfl
    · rw [toggles_concat, if_neg (by rw [ha]; decide), hm, hparity]
  · -- the window commands are not sent from here
    cases hin

/-- One frame sent from inside the window loop: it never moves the bolt. -/
theorem asks_inside {b : Bolt} {motion : Motion}
    (h : Asks { bolt := b, window := some motion } fs m)
    (hspeaks : Speaks m f.frame.action f.inside) :
    Asks (Car.step { bolt := b, window := some motion } f.frame.action) (fs ++ [f]) f.inside := by
  obtain ⟨hbolt, hside, -, hparity⟩ := h
  simp only [Option.isSome_some] at hbolt hside
  subst hside
  -- what a frame that keeps the bolt and stays inside must still show
  have hstay : ∀ motion' : Motion, f.inside = true → f.frame.action ≠ WINDOW_SIGNAL →
      motion'.angle = windowAfter (fs ++ [f]) →
      Asks { bolt := b, window := some motion' } (fs ++ [f]) f.inside := by
    intro motion' hin ha hangle
    have hlock : ¬ f.isLock := fun hl => by
      rw [hl.1] at hin
      cases hin
    refine ⟨?_, ?_, hangle, ?_⟩
    · rw [lockAfter_concat, if_neg hlock, hbolt]
    · rw [hin]; rfl
    · rw [toggles_concat, if_neg ha, hin, hparity]
  rcases hspeaks with ⟨ha, hm⟩ | ⟨hm, ha | ha | ⟨-, ha | ha⟩⟩
  · -- the toggle that leaves: the window stops
    have hlock : ¬ f.isLock := by
      rintro ⟨-, h | h⟩ <;> rw [ha] at h <;> cases h
    have hstep : Car.step { bolt := b, window := some motion } WINDOW_SIGNAL =
        { bolt := b, window := none } := rfl
    rw [ha, hstep]
    refine ⟨?_, ?_, ?_, ?_⟩
    · rw [lockAfter_concat, if_neg hlock, hbolt]
    · rw [hm]; rfl
    · rw [windowAfter_concat, ha]; rfl
    · rw [toggles_concat, if_pos ha, hm, Nat.odd_add_one, ← hparity]
      decide
  all_goals
    have hne : f.frame.action ≠ WINDOW_SIGNAL := by rw [ha]; decide
    have hangle := windowAfter_concat fs f
    rw [ha] at hangle
    rw [ha]
  · exact hstay .still hm hne hangle.symm
  · exact hstay .still hm hne hangle.symm
  · exact hstay .up hm hne hangle.symm
  · exact hstay .down hm hne hangle.symm

/-- **One frame**: the signal moves the car as the press asks. -/
theorem asks_step {c : Car} (h : Asks c fs m) (hspeaks : Speaks m f.frame.action f.inside) :
    Asks (c.step f.frame.action) (fs ++ [f]) f.inside := by
  obtain ⟨b, window⟩ := c
  cases window with
  | none => exact asks_outside h hspeaks
  | some motion => exact asks_inside h hspeaks

/-! ## The perfect channel -/

/-- Nothing is lost, and the clock check passes at every delivery. -/
def Pair.NoLoss (s : Pair) : PairEvent → Prop
  | .sample _ => True
  | .deliver now => ∀ f ∈ s.air.head?, isValidTime now.micros f.frame.tv_now.micros = true
  | .lose => False

instance (s : Pair) : ∀ e, Decidable (s.NoLoss e)
  | .sample _ => isTrue trivial
  | .deliver _ => inferInstanceAs (Decidable (∀ f ∈ s.air.head?, _))
  | .lose => isFalse id

/-- The invariant: the frames received and those in the air are the frames sent, and
the receiver shows the car that the received ones ask for. -/
structure Pair.InSync (s : Pair) (m : Bool) : Prop where
  order : s.InOrder s.received.length m
  lost : s.lost = 0
  sent : s.received.map Flight.frame ++ s.air.map Flight.frame = s.remote.fob.sent
  shows : ∃ c, Shows s.receiver c ∧ Asks c s.received m

theorem Pair.init_inSync : Pair.machine.init.InSync false where
  order := Pair.init_inOrder
  lost := rfl
  sent := rfl
  shows := ⟨Car.machine.init, setup_shows, rfl, rfl, rfl, by decide⟩

theorem Pair.InSync.fair (h : s.InSync m) (hno : s.NoLoss (.deliver now)) :
    s.Fair (.deliver now) :=
  ⟨by rw [h.lost]; decide, hno⟩

/-- Every message the fob sends goes on the air. -/
theorem Remote.step_sent (s : Remote) (x : Sample) :
    (s.step x).fob.sent = s.fob.sent ++ s.sends x := by
  rcases Remote.sends_cases s x with ⟨hsends, hsent, -⟩ | ⟨g, hsends, hsent, -⟩
  · rw [hsends, hsent, List.append_nil]
  · rw [hsends, hsent]

theorem Pair.sample_inSync (h : s.InSync m) (x : Sample) : (s.step (.sample x)).InSync m := by
  refine ⟨Pair.sample_inOrder h.order x, h.lost, ?_, h.shows⟩
  simp only [Pair.step, List.map_append, List.map_map]
  rw [Remote.step_sent, ← h.sent, List.append_assoc]
  simp [Function.comp_def]

/-- One delivery: the receiver shows the car with the frame's press added. -/
theorem Pair.deliver_inSync (h : s.InSync m) (hno : s.NoLoss (.deliver now))
    (hair : s.air = f :: fs) : (s.step (.deliver now)).InSync f.inside := by
  have hfair := h.fair hno
  have hacc := Pair.deliver_accepts h.order hair hfair
  have hord := h.order.deliver hair (h.order.inWindow hair hfair.1) now
  obtain ⟨c, hshow, hasks⟩ := h.shows
  have hshow' := Pair.deliver_shows hshow hair hacc
  have hsent := h.sent
  rw [h.lost, Nat.add_zero] at hord
  rw [Pair.step_deliver hair] at hord hshow' ⊢
  refine ⟨?_, rfl, ?_, ⟨_, hshow', asks_step hasks (h.order.speaks hair)⟩⟩
  · rw [List.length_append, List.length_singleton]
    exact hord
  · rw [hair, List.map_cons] at hsent
    simp only [List.map_append, List.map_singleton, List.append_assoc, List.singleton_append]
    exact hsent

/-- **One event keeps the two units in sync.** -/
theorem Pair.step_inSync (h : ∃ m, s.InSync m) {e : PairEvent} (hno : s.NoLoss e) :
    ∃ m, (s.step e).InSync m := by
  obtain ⟨m, h⟩ := h
  cases e with
  | sample x => exact ⟨m, Pair.sample_inSync h x⟩
  | lose => exact absurd hno id
  | deliver now =>
    cases hair : s.air with
    | nil => rw [Pair.step_deliver_nil hair]; exact ⟨m, h⟩
    | cons f fs => exact ⟨f.inside, Pair.deliver_inSync h hno hair⟩

/-- **What one delivery does for the driver.** The frames received so far are the first
ones sent; the frame is accepted; the receiver is in window mode as the fob's side of
the loop says and as the number of toggles says; the window servo stands as the last
frame asks; the lock state is that of the last lock press outside the loop; and the
lock servo is pulsed exactly if this press changes it. -/
def Pair.Delivers (s : Pair) (e : PairEvent) : Prop :=
  ∀ now f fs, e = .deliver now → s.air = f :: fs →
    let s' := s.step e
    s'.received = s.received ++ [f] ∧
    s'.received.map Flight.frame ++ fs.map Flight.frame = s'.remote.fob.sent ∧
    s.receiver.Accepts f.frame now ∧
    s'.receiver.windowMode = f.inside ∧
    (fs = [] → s'.receiver.windowMode = s'.remote.pc.inWindowLoop) ∧
    (s'.receiver.windowMode = true ↔ Odd (toggles s'.received)) ∧
    (wndAngles s'.receiver.commands).getLast? = some (windowAfter s'.received) ∧
    s'.receiver.lockState = (lockAfter s'.received).state ∧
    Drives s.receiver s'.receiver (pulse (lockAfter s.received) (lockAfter s'.received))

theorem Pair.inSync_delivers (h : s.InSync m) {e : PairEvent} (hno : s.NoLoss e) :
    s.Delivers e := by
  rintro now f fs rfl hair
  have hsync := Pair.deliver_inSync h hno hair
  have hacc := Pair.deliver_accepts h.order hair (h.fair hno)
  have hreceived : (s.step (.deliver now)).received = s.received ++ [f] := by
    rw [Pair.step_deliver hair]
  have hair' : (s.step (.deliver now)).air = fs := by rw [Pair.step_deliver hair]
  obtain ⟨c', hshow', hasks'⟩ := hsync.shows
  have hmode : (s.step (.deliver now)).receiver.windowMode = f.inside := by
    rw [hshow'.mode, hasks'.side]
  refine ⟨hreceived, ?_, hacc, hmode, ?_, ?_, ?_, ?_, ?_⟩
  · rw [← hair']
    exact hsync.sent
  · -- nothing in the air: the fob has not moved on since this frame
    intro hnil
    have hchain := hsync.order.air
    rw [hair', hnil] at hchain
    rw [hmode, hchain.2]
  · rw [hmode]
    exact hasks'.parity
  · rw [hshow'.wnd, hasks'.window]
  · rw [hshow'.lockState, hasks'.bolt]
  · obtain ⟨c, hshow, hasks⟩ := h.shows
    have hspeaks := h.order.speaks hair
    have hcmd : c.window = none → f.frame.action = LOCK_SIGNAL ∨
        f.frame.action = UNLOCK_SIGNAL ∨ f.frame.action = WINDOW_SIGNAL := by
      intro hnone
      have hm : m = false := by rw [← hasks.side, hnone]; rfl
      rcases hspeaks with ⟨ha, -⟩ | ⟨-, ha | ha | ⟨hin, -⟩⟩
      · exact Or.inr (Or.inr ha)
      · exact Or.inl ha
      · exact Or.inr (Or.inl ha)
      · rw [hm] at hin
        cases hin
    have hdrive := step_drives hshow (a := (f.frame, now)) (fun _ => hcmd)
    rw [signal_accepted hacc, Option.elim_some, hasks.bolt, (asks_step hasks hspeaks).bolt] at hdrive
    rw [hreceived, Pair.step_deliver hair]
    exact hdrive

/-! ## The window buttons -/

/-- The fob waits for the release of a button exactly while the last message it sent is
the command of that button. -/
def Remote.Held (s : Remote) : Prop :=
  ∀ f, s.fob.sent.getLast? = some f → s.pc.waitsFor = windowCommand f.action

theorem Remote.step_held {s : Remote} (h : s.Held) (x : Sample) : (s.step x).Held := by
  intro f hf
  rcases Remote.step_cases s x with
    ⟨hsent, -, -, hwaits⟩ | ⟨fob, sig, -, -, hstep, -, hwaits⟩
  · rw [hsent] at hf
    rw [hwaits]
    exact h f hf
  · rw [hstep, Fob.sendSignal_sent, List.getLast?_concat, Option.some.injEq] at hf
    rw [hwaits, ← hf]

/-- The fob waits for the button of the last command it sent. -/
theorem Remote.held_run (history : List Sample) : (Remote.machine.run history).Held :=
  Machine.inv_run (I := Remote.Held) (fun f hf => by simp [Remote.machine, Fob.boot] at hf)
    (fun _ x h => Remote.step_held h x) history

/-- The fob waits only for a button it has just read as held. -/
theorem Remote.step_waits (s : Remote) (x : Sample) :
    ((s.step x).pc.waitsFor = some WINDOW_UP_SIGNAL → x.level .LKBTTN = HIGH) ∧
      ((s.step x).pc.waitsFor = some WINDOW_DOWN_SIGNAL → x.level .UNLKBTTN = HIGH) := by
  have hne : WINDOW_UP_SIGNAL ≠ WINDOW_DOWN_SIGNAL := by decide
  have hne' := hne.symm
  obtain ⟨pc, fob⟩ := s
  cases pc <;> unfold Remote.step <;> simp only <;> split_ifs with hl <;>
    simp_all [Control.waitsFor]

/-- **The window moves only while its button is held**: if the last message sent is a
window command, the last sample read its button as held. -/
theorem held_while_moving (history : List Sample) (x : Sample) (f : struct_message)
    (hf : (Remote.machine.run (history ++ [x])).fob.sent.getLast? = some f) :
    (f.action = WINDOW_UP_SIGNAL → x.level .LKBTTN = HIGH) ∧
      (f.action = WINDOW_DOWN_SIGNAL → x.level .UNLKBTTN = HIGH) := by
  have hlast := Remote.held_run (history ++ [x]) f hf
  rw [Machine.run_concat] at hlast
  have hwaits := Remote.step_waits (Remote.machine.run history) x
  refine ⟨?_, ?_⟩
  · intro ha
    rw [ha] at hlast
    exact hwaits.1 hlast
  · intro ha
    rw [ha] at hlast
    exact hwaits.2 hlast

/-- **End to end on a perfect channel.** Over any samples, the pair runs the program of
the fob; every delivery does for the driver what `Delivers` says; and the last message
is a window command only while its button was last read as held. -/
theorem end_to_end (esp_now_send : Radio) (es : List PairEvent)
    (hno : Pair.machine.Along Pair.NoLoss Pair.machine.init es) :
    (∃ b, Fob.run esp_now_send (es.filterMap PairEvent.sample?) = .error .historyEnded b ∧
      b.fob = (Pair.machine.run es).remote.fob) ∧
    Pair.machine.Along Pair.Delivers Pair.machine.init es ∧
    ∀ (history : List Sample) (x : Sample) (f : struct_message),
      es.filterMap PairEvent.sample? = history ++ [x] →
      (Pair.machine.run es).remote.fob.sent.getLast? = some f →
      (f.action = WINDOW_UP_SIGNAL → x.level .LKBTTN = HIGH) ∧
        (f.action = WINDOW_DOWN_SIGNAL → x.level .UNLKBTTN = HIGH) := by
  refine ⟨?_, ?_, ?_⟩
  · obtain ⟨b, hend, hfob⟩ := run_follows esp_now_send (es.filterMap PairEvent.sample?)
    exact ⟨b, hend, by rw [hfob, Pair.remote_run]⟩
  · exact Machine.along_of_inv (I := fun s => ∃ m, s.InSync m)
      (fun _ _ h he => Pair.step_inSync h he) (fun _ _ ⟨_, h⟩ he => Pair.inSync_delivers h he)
      ⟨false, Pair.init_inSync⟩ hno
  · intro history x f hsamples hf
    rw [Pair.remote_run, hsamples] at hf
    exact held_while_moving history x f hf

/-- The lock button, then window mode with the window button released while the up
button is held. -/
theorem end_to_end_up : Pair.machine.Along Pair.Delivers Pair.machine.init
    [.sample (sampleOf .LOW .LOW .LOW), .sample (sampleOf .LOW .HIGH .LOW), .deliver powerOn,
      .sample (sampleOf .LOW .LOW .LOW), .sample (sampleOf .HIGH .LOW .LOW), .deliver powerOn,
      .sample (sampleOf .HIGH .LOW .LOW), .sample (sampleOf .HIGH .HIGH .LOW), .deliver powerOn,
      .sample (sampleOf .LOW .LOW .LOW), .sample (sampleOf .LOW .LOW .LOW),
      .sample (sampleOf .LOW .LOW .LOW), .deliver powerOn, .deliver powerOn] :=
  (end_to_end (fun _ => ESP_OK) _ (by decide +kernel)).2.1

end KeyFob
