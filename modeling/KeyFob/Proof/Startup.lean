import KeyFob.Proof.Leds
import KeyFob.Proof.Servo
import KeyFob.Spec.Startup

/-!
# Starting up

* `Startup.issued_shows`: in whatever order `setup` and the callbacks make their calls, the
  commands issued then show the car, but for the window, which may stand still.
* `startup_shows`: the same of the servos, where what came before their `attach` is lost.
-/

namespace KeyFob

open Receiver

variable {r r' : Receiver} {s : Startup} {c : Car} {e : StartupEvent} {as : List Arrival}
  {setupDone : List Call} {done : List Command}

/-! ## The command history in front -/

/-- The receiver with commands issued before all others. -/
def Receiver.after (cs : List Command) (r : Receiver) : Receiver :=
  { r with commands := cs ++ r.commands }

@[simp] theorem after_message (cs : List Command) (r : Receiver) :
    (r.after cs).message = r.message := rfl

@[simp] theorem after_state (cs : List Command) (r : Receiver) : (r.after cs).state = r.state := rfl

@[simp] theorem after_state_old (cs : List Command) (r : Receiver) :
    (r.after cs).state_old = r.state_old := rfl

@[simp] theorem after_windowMode (cs : List Command) (r : Receiver) :
    (r.after cs).windowMode = r.windowMode := rfl

theorem after_updateLockState (cs : List Command) (r : Receiver) :
    (r.after cs).updateLockState = (r.updateLockState).after cs := by
  rw [updateLockState_eq, updateLockState_eq, after_state, after_state_old]
  split_ifs
  · rfl
  · unfold Receiver.after
    rw [List.append_assoc]

theorem after_windowSwitch (cs : List Command) (r : Receiver) :
    (r.after cs).windowSwitch = (r.windowSwitch).after cs := by
  unfold windowSwitch
  rw [after_message]
  split_ifs
  all_goals simp [Receiver.after]

theorem after_normalSwitch (cs : List Command) (r : Receiver) :
    (r.after cs).normalSwitch = (r.normalSwitch).after cs := by
  unfold normalSwitch
  rw [after_message]
  split_ifs
  all_goals simp [Receiver.after]

theorem after_act (cs : List Command) (r : Receiver) : (r.after cs).act = (r.act).after cs := by
  unfold act
  rw [after_windowMode, after_windowSwitch, after_normalSwitch, after_updateLockState]
  split_ifs
  · rfl
  · rfl

/-- **The callback does not look at what was issued before.** -/
theorem after_onDataRecv (cs : List Command) (r : Receiver) (f : struct_message) (now : timeval) :
    (r.after cs).OnDataRecv f now = (r.OnDataRecv f now).after cs := by
  rw [OnDataRecv_eq, OnDataRecv_eq]
  by_cases hwin : r.rollingCode.InWindow f.rollingCode
  · rw [if_pos hwin]
    refine (if_pos hwin).trans ?_
    by_cases hvalid : isValidTime now.micros f.tv_now.micros = true
    · rw [if_pos hvalid, if_pos hvalid]
      exact after_act cs (r.entered f now)
    · rw [if_neg hvalid, if_neg hvalid]
      rfl
  · rw [if_neg hwin]
    exact if_neg hwin

theorem after_runFrom (cs : List Command) (as : List Arrival) : ∀ r : Receiver,
    Receiver.machine.runFrom (r.after cs) as = (Receiver.machine.runFrom r as).after cs := by
  induction as with
  | nil => intro r; rfl
  | cons a as ih =>
    intro r
    have hstep : Receiver.machine.step (r.after cs) a = (Receiver.machine.step r a).after cs :=
      after_onDataRecv cs r a.1 a.2
    rw [Machine.runFrom_cons, Machine.runFrom_cons, hstep, ih]

/-! ## The two threads -/

/-- **The state of the two threads**: `setup` has issued `setupDone` of its commands, the
receiver as if it ran alone is `r`, and `done` is what it has issued. -/
structure Startup.At (s : Startup) (r : Receiver) (setupDone : List Call) (done : List Command) :
    Prop where
  setup : setupDone ++ s.setupLeft = setupServos
  receiver : s.receiver.after done = r
  issued : Merge setupDone (done.map Command.call) s.issued

theorem Startup.init_at : Startup.machine.init.At boot.registered [] boot.registered.commands where
  setup := rfl
  receiver := rfl
  issued := Merge.of_nil _

/-- One step: either thread issues at most one command, and a frame is handled by both
receivers. -/
theorem Startup.At.step (h : s.At r setupDone done) (e : StartupEvent) :
    ∃ x y, (s.step e).At ((s.handled e).elim r fun a => r.OnDataRecv a.1 a.2) (setupDone ++ x)
        (done ++ y) ∧
      (s.setupLeft = [] →
        (s.step e).setupLeft = [] ∧ (s.step e).issued = s.issued ++ y.map Command.call) := by
  cases e with
  | setup =>
    simp only [Startup.step, Startup.handled, Option.elim_none]
    cases hleft : s.setupLeft with
    | nil =>
      refine ⟨[], [], ?_, fun _ => ⟨hleft, (List.append_nil _).symm⟩⟩
      rw [List.append_nil, List.append_nil]
      exact h
    | cons d ds =>
      refine ⟨[d], [], ⟨?_, ?_, ?_⟩, fun hnil => absurd hnil (List.cons_ne_nil d ds)⟩
      · rw [← h.setup, hleft, List.append_assoc]
        rfl
      · rw [List.append_nil]
        exact h.receiver
      · rw [List.append_nil]
        exact h.issued.left d
  | callback =>
    simp only [Startup.step, Startup.handled, Option.elim_none]
    cases hcs : s.receiver.commands with
    | nil =>
      refine ⟨[], [], ?_, fun hnil => ⟨hnil, (List.append_nil _).symm⟩⟩
      rw [List.append_nil, List.append_nil]
      exact h
    | cons d ds =>
      refine ⟨[], [d], ⟨?_, ?_, ?_⟩, fun hnil => ⟨hnil, rfl⟩⟩
      · rw [List.append_nil]
        exact h.setup
      · rw [← h.receiver]
        unfold Receiver.after
        rw [hcs, List.append_assoc]
        rfl
      · rw [List.append_nil, List.map_append]
        exact h.issued.right d.call
  | arrive a =>
    simp only [Startup.step, Startup.handled]
    refine ⟨[], [], ?_⟩
    rw [List.append_nil, List.append_nil]
    cases hcs : s.receiver.commands with
    | nil =>
      rw [if_pos rfl]
      refine ⟨⟨h.setup, ?_, h.issued⟩, fun hnil => ⟨hnil, (List.append_nil _).symm⟩⟩
      rw [← h.receiver]
      exact (after_onDataRecv done s.receiver a.1 a.2).symm
    | cons d ds =>
      rw [if_neg (List.cons_ne_nil d ds)]
      exact ⟨h, fun hnil => ⟨hnil, (List.append_nil _).symm⟩⟩

theorem Startup.At.runFrom (es : List StartupEvent) : ∀ {s : Startup} {r : Receiver}
    {setupDone : List Call} {done : List Command}, s.At r setupDone done →
    ∃ x y, (Startup.machine.runFrom s es).At
        (Receiver.machine.runFrom r (Startup.machine.labels Startup.handled s es))
        (setupDone ++ x) (done ++ y) ∧
      (s.setupLeft = [] →
        (Startup.machine.runFrom s es).issued = s.issued ++ y.map Command.call) := by
  induction es with
  | nil =>
    intro s r setupDone done h
    refine ⟨[], [], ?_, fun _ => (List.append_nil _).symm⟩
    rw [List.append_nil, List.append_nil]
    exact h
  | cons e es ih =>
    intro s r setupDone done h
    obtain ⟨x, y, hstep, hended⟩ := h.step e
    obtain ⟨x', y', hrun, hissued⟩ := ih hstep
    have hlabels : Receiver.machine.runFrom r (Startup.machine.labels Startup.handled s (e :: es)) =
        Receiver.machine.runFrom ((s.handled e).elim r fun a => r.OnDataRecv a.1 a.2)
          (Startup.machine.labels Startup.handled (s.step e) es) := by
      rw [Machine.labels, Machine.runFrom_append]
      cases s.handled e <;> rfl
    refine ⟨x ++ x', y ++ y', ?_, ?_⟩
    · rw [hlabels, ← List.append_assoc, ← List.append_assoc]
      exact hrun
    · intro hnil
      obtain ⟨hnil', hy⟩ := hended hnil
      refine (hissued hnil').trans ?_
      rw [hy, List.append_assoc, List.map_append]

/-! ## The angles written -/

/-- Every angle that is written is one of a servo. -/
def Receiver.Bounded (r : Receiver) : Prop :=
  ∀ angle ∈ lkAngles r.commands ++ wndAngles r.commands, angle ≤ 180

theorem bounded_emit {d : Command} (h : r.Bounded)
    (hd : ∀ angle ∈ lkAngles [d] ++ wndAngles [d], angle ≤ 180) : (r.emit d).Bounded := by
  intro angle hangle
  simp only [emit, lkAngles_append, wndAngles_append, List.mem_append] at hangle
  rcases hangle with (hr | hnew) | (hr | hnew)
  · exact h angle (List.mem_append_left _ hr)
  · exact hd angle (List.mem_append_left _ hnew)
  · exact h angle (List.mem_append_right _ hr)
  · exact hd angle (List.mem_append_right _ hnew)

theorem bounded_servo_lk {angle : ℕ} (h : r.Bounded) (hangle : angle ≤ 180) :
    (r.servo_lk_write angle).Bounded :=
  bounded_emit h (by simpa using hangle)

theorem bounded_servo_wnd {angle : ℕ} (h : r.Bounded) (hangle : angle ≤ 180) :
    (r.servo_wnd_write angle).Bounded :=
  bounded_emit h (by simpa using hangle)

theorem bounded_digitalWrite (pin : Led) (level : Level) (h : r.Bounded) :
    (r.digitalWrite pin level).Bounded :=
  bounded_emit h (by simp)

theorem bounded_updateLockState (h : r.Bounded) : r.updateLockState.Bounded := by
  unfold updateLockState
  split_ifs
  · exact h
  · cases r.state with
    | Lock =>
      apply bounded_servo_lk _ (by decide)
      apply bounded_digitalWrite
      apply bounded_digitalWrite
      exact bounded_servo_lk h (by decide)
    | Unlock =>
      apply bounded_servo_lk _ (by decide)
      apply bounded_digitalWrite
      apply bounded_digitalWrite
      exact bounded_servo_lk h (by decide)
    | Window => exact h

theorem bounded_act (h : r.Bounded) : r.act.Bounded := by
  unfold act
  split_ifs
  · have hmoved : ∀ (angle : ℕ) (l l' : Level), angle ≤ 180 →
        (((r.servo_wnd_write angle).digitalWrite .LOCK_LED l).digitalWrite .UNLOCK_LED l').Bounded := by
      intro angle l l' hangle
      apply bounded_digitalWrite
      apply bounded_digitalWrite
      exact bounded_servo_wnd h hangle
    unfold windowSwitch
    split_ifs
    · exact hmoved 40 .HIGH .LOW (by decide)
    · exact hmoved 20 .LOW .LOW (by decide)
    · exact hmoved 0 .LOW .HIGH (by decide)
    · exact hmoved 20 .LOW .LOW (by decide)
    · apply bounded_servo_wnd _ (by decide)
      apply bounded_digitalWrite
      exact h
    · exact h
  · apply bounded_updateLockState
    unfold normalSwitch
    split_ifs
    · exact h
    · exact h
    · apply bounded_digitalWrite
      exact h
    · exact h

/-- **Every angle that a callback writes is one of a servo.** -/
theorem bounded_runFrom (as : List Arrival) :
    (Receiver.machine.runFrom { boot.registered with commands := [] } as).Bounded := by
  have hstep : ∀ (r : Receiver) (a : Arrival), r.Bounded → True →
      (Receiver.machine.step r a).Bounded := by
    intro r a h _
    change (r.OnDataRecv a.1 a.2).Bounded
    rw [OnDataRecv_eq]
    split_ifs
    · exact bounded_act h
    · exact h
    · exact h
  refine Machine.inv_runFrom hstep ?_ (Machine.along_of_forall (fun _ _ => trivial) as _)
  intro angle hangle
  exact absurd hangle List.not_mem_nil

/-! ## The commands issued -/

/-- The commands among what is left of `setup`. -/
def Receiver.setupCommands : List Command := setupServos.filterMap Call.command

@[simp] theorem command_call (d : Command) : d.call.command = some d := by
  cases d <;> rfl

@[simp] theorem filterMap_command_call (cs : List Command) :
    (cs.map Command.call).filterMap Call.command = cs := by
  rw [List.filterMap_map]
  exact (List.filterMap_congr fun d _ => command_call d).trans List.filterMap_some

/-- The receiver after `setup`, and the one whose servos nothing has stopped. -/
theorem runFrom_registered (as : List Arrival) : ∃ b : Receiver, b.Bounded ∧
    Receiver.machine.run as = b.after (boot.registered.commands ++ setupCommands) ∧
    Receiver.machine.runFrom boot.registered as = b.after boot.registered.commands := by
  refine ⟨_, bounded_runFrom as, ?_, ?_⟩
  · rw [← after_runFrom]
    rfl
  · rw [← after_runFrom]
    rfl

theorem merge_lkAngles {us vs ws : List Command} (h : Merge us vs ws) :
    Merge (lkAngles us) (lkAngles vs) (lkAngles ws) := h.filterMap _

theorem merge_wndAngles {us vs ws : List Command} (h : Merge us vs ws) :
    Merge (wndAngles us) (wndAngles vs) (wndAngles ws) := h.filterMap _

theorem lkAngles_registered : lkAngles boot.registered.commands = [40, 20] := rfl

theorem wndAngles_registered : wndAngles boot.registered.commands = [] := rfl

/-- **The commands of `setup` change the window servo only**: in any order of the commands
the lock and the LEDs are those of the receiver that `setup` has left alone. -/
theorem Startup.shows_of_wnd {b : Receiver} {c' : Car}
    (hseen : s.seen = { b with commands := s.commands })
    (hmerge : Merge setupCommands (boot.registered.commands ++ b.commands) s.commands)
    (hshow : Shows (b.after (boot.registered.commands ++ setupCommands)) c)
    (hbolt : c'.bolt = c.bolt) (hmode : c'.window.isSome = c.window.isSome)
    (hwnd : (wndAngles s.commands).getLast? = some ((c'.window.getD .still).angle)) :
    Shows s.seen c' := by
  rw [hseen]
  refine ⟨?_, ?_, ?_, ?_, hwnd, ?_, ?_⟩
  · rw [hmode]
    exact hshow.mode
  · rw [hmode, hbolt]
    exact hshow.state
  · rw [hmode, hbolt]
    exact hshow.saved
  · have hled : lastLevel .WINDOW_LED s.commands =
        lastLevel .WINDOW_LED (boot.registered.commands ++ b.commands) := by
      apply hmerge.foldl_eq
      intro d hd l
      rcases List.mem_pair.1 hd with rfl | rfl
      · rfl
      · rfl
    rw [hmode, ← hshow.led]
    exact hled
  · have hlk := hshow.lk
    simp only [Receiver.after, lkAngles_append, lkAngles_registered, List.getLast?_append] at hlk
    rcases (merge_lkAngles hmerge).getLast? with hlast | ⟨-, hlast⟩
    · exact hlast
    · rw [hlast, lkAngles_append, List.getLast?_append]
      exact hlk
  · have hdir := hshow.direction
    simp only [lkDirection, Receiver.after, lkAngles_append, List.filter_append] at hdir
    have heq := ((merge_lkAngles hmerge).filter (· ≠ 20)).eq_of_nil rfl
    rw [hbolt]
    unfold lkDirection
    rw [heq, lkAngles_append, List.filter_append]
    exact hdir

/-- A run that has come to rest, and the receiver that `setup` has left alone. -/
theorem Startup.At.idle {b : Receiver} (h : s.At (b.after boot.registered.commands) setupDone done)
    (hidle : s.Idle) : s.seen = { b with commands := s.commands } ∧
      done = boot.registered.commands ++ b.commands ∧
      Merge setupServos (done.map Command.call) s.issued ∧
      Merge setupCommands (boot.registered.commands ++ b.commands) s.commands := by
  have hsetup : setupDone = setupServos := by
    rw [← h.setup, hidle.1, List.append_nil]
  have hdone : done = boot.registered.commands ++ b.commands := by
    have hcommands := congrArg Receiver.commands h.receiver
    simp only [Receiver.after, hidle.2, List.append_nil] at hcommands
    exact hcommands
  have hmerge : Merge setupServos (done.map Command.call) s.issued := by
    rw [← hsetup]
    exact h.issued
  refine ⟨?_, hdone, hmerge, ?_⟩
  · exact congrArg (fun r : Receiver => { r with commands := s.commands }) h.receiver
  · have hcommands := hmerge.filterMap Call.command
    rw [filterMap_command_call, hdone] at hcommands
    exact hcommands

/-- **After the end of `setup`** only the callbacks issue commands: what is issued then ends
both the commands issued and those of the callbacks. -/
theorem Startup.issued_ended {b : Receiver} {pre more : List StartupEvent}
    (hb : Receiver.machine.runFrom boot.registered (Startup.arrivals (pre ++ more)) =
      b.after boot.registered.commands)
    (hidle : (Startup.machine.run (pre ++ more)).Idle)
    (hended : (Startup.machine.run pre).setupLeft = []) :
    ∃ y₁ y₂, b.commands = y₁ ++ y₂ ∧
      (Startup.machine.run (pre ++ more)).commands = (Startup.machine.run pre).commands ++ y₂ := by
  obtain ⟨x₁, y₁, hpre, -⟩ := Startup.init_at.runFrom pre
  obtain ⟨x₂, y₂, hrun, hissued⟩ := hpre.runFrom more
  have hlater := hissued hended
  rw [← Machine.runFrom_append, ← Machine.runFrom_append, ← Machine.labels_append] at hrun
  rw [← Machine.runFrom_append] at hlater
  change (Startup.machine.run (pre ++ more)).At
    (Receiver.machine.runFrom boot.registered (Startup.arrivals (pre ++ more))) _ _ at hrun
  rw [hb] at hrun
  have hdone := (hrun.idle hidle).2.1
  rw [List.append_assoc] at hdone
  refine ⟨y₁, y₂, (List.append_cancel_left hdone).symm, ?_⟩
  have hcommands := congrArg (List.filterMap Call.command) hlater
  rw [List.filterMap_append, filterMap_command_call] at hcommands
  exact hcommands

/-- **A run that has come to rest** issued the commands of a receiver `b` that nothing has
stopped, and between them those of `setup`. -/
theorem Startup.at_rest (es : List StartupEvent) (hidle : (Startup.machine.run es).Idle) :
    let s := Startup.machine.run es
    ∃ b : Receiver, b.Bounded ∧ s.seen = { b with commands := s.commands } ∧
      Shows (b.after (boot.registered.commands ++ setupCommands)) (carAfter (Startup.arrivals es)) ∧
      Receiver.machine.runFrom boot.registered (Startup.arrivals es) =
        b.after boot.registered.commands ∧
      Merge setupServos ((boot.registered.commands ++ b.commands).map Command.call) s.issued ∧
      Merge setupCommands (boot.registered.commands ++ b.commands) s.commands := by
  intro s
  obtain ⟨b, hbounded, hall, halone⟩ := runFrom_registered (Startup.arrivals es)
  obtain ⟨x, y, hat, -⟩ := Startup.init_at.runFrom es
  change s.At (Receiver.machine.runFrom boot.registered (Startup.arrivals es)) _ _ at hat
  rw [halone] at hat
  obtain ⟨hseen, hdone, hcalls, hcommands⟩ := hat.idle hidle
  rw [hdone] at hcalls
  refine ⟨b, hbounded, hseen, ?_, halone, hcalls, hcommands⟩
  rw [← hall]
  exact carAfter_shows _

/-- **The commands issued during start-up.** Whenever frames arrive once the callback is
registered, and in whatever order `setup` and the callbacks make their calls, the commands
issued then show the car that the frames have moved, but for the window, which may stand
still. They show that too once a command has been issued to the window servo after the end
of `setup`. -/
theorem Startup.issued_shows (es : List StartupEvent) (hidle : (Startup.machine.run es).Idle) :
    let s := Startup.machine.run es
    let c := carAfter (Startup.arrivals es)
    (Shows s.seen c ∨ (c.window.isSome ∧ Shows s.seen { c with window := some .still })) ∧
    ∀ pre more, es = pre ++ more → (Startup.machine.run pre).setupLeft = [] →
      (wndAngles (Startup.machine.run pre).commands).length < (wndAngles s.commands).length →
      Shows s.seen c := by
  intro s c
  obtain ⟨b, -, hseen, hshow, halone, -, hmerge⟩ := Startup.at_rest es hidle
  change Shows _ c at hshow
  have hwnd : (wndAngles b.commands).getLast?.or (some 20) =
      some ((c.window.getD .still).angle) := by
    rw [← hshow.wnd]
    simp only [Receiver.after, wndAngles_append, wndAngles_registered, List.getLast?_append]
    rfl
  -- a command of the callback to the window servo that comes last is that of the car
  have hlast : wndAngles b.commands ≠ [] →
      (wndAngles s.commands).getLast? = (wndAngles b.commands).getLast? → Shows s.seen c := by
    intro hne heq
    apply Startup.shows_of_wnd hseen hmerge hshow rfl rfl
    rw [heq, ← hwnd, List.getLast?_eq_some_getLast hne]
    rfl
  refine ⟨?_, ?_⟩
  · rcases (merge_wndAngles hmerge).getLast? with hstop | ⟨hne, heq⟩
    · cases hw : c.window with
      | none =>
        left
        apply Startup.shows_of_wnd hseen hmerge hshow rfl rfl
        rw [hw]
        exact hstop
      | some m =>
        right
        have hbolt : ({ c with window := some .still } : Car).bolt = c.bolt := rfl
        have hmode : ({ c with window := some .still } : Car).window.isSome = c.window.isSome := by
          rw [hw]
          rfl
        exact ⟨rfl, Startup.shows_of_wnd hseen hmerge hshow hbolt hmode hstop⟩
    · left
      rw [wndAngles_append, wndAngles_registered, List.nil_append] at hne heq
      exact hlast hne heq
  · rintro pre more rfl hended hmore
    obtain ⟨y₁, y₂, hcommands, hend⟩ := Startup.issued_ended halone hidle hended
    have hy : wndAngles y₂ ≠ [] := by
      intro hnil
      rw [show s.commands = _ from hend, wndAngles_append, hnil, List.append_nil] at hmore
      exact lt_irrefl _ hmore
    apply hlast
    · rw [hcommands, wndAngles_append]
      exact List.append_ne_nil_of_right_ne_nil _ hy
    · rw [show s.commands = _ from hend, hcommands, wndAngles_append, wndAngles_append,
        List.getLast?_append, List.getLast?_append, List.getLast?_eq_some_getLast hy]
      rfl

/-! ## The servos -/

theorem servoAngles_lkCalls (cs : List Call) :
    servoAngles (lkCalls cs) = lkAngles (cs.filterMap Call.command) := by
  unfold servoAngles lkCalls lkAngles
  rw [List.filterMap_filterMap, List.filterMap_filterMap]
  apply List.filterMap_congr
  rintro (c | c | _) -
  · cases c <;> rfl
  · cases c <;> rfl
  · rfl

theorem servoAngles_wndCalls (cs : List Call) :
    servoAngles (wndCalls cs) = wndAngles (cs.filterMap Call.command) := by
  unfold servoAngles wndCalls wndAngles
  rw [List.filterMap_filterMap, List.filterMap_filterMap]
  apply List.filterMap_congr
  rintro (c | c | _) -
  · cases c <;> rfl
  · cases c <;> rfl
  · rfl

theorem lkCalls_map_call (cs : List Command) :
    lkCalls (cs.map Command.call) = (lkAngles cs).map .write := by
  induction cs with
  | nil => rfl
  | cons d cs ih => cases d <;> simpa [lkCalls, Command.call] using ih

theorem wndCalls_map_call (cs : List Command) :
    wndCalls (cs.map Command.call) = (wndAngles cs).map .write := by
  induction cs with
  | nil => rfl
  | cons d cs ih => cases d <;> simpa [wndCalls, Command.call] using ih

section

variable {σ : Type} {L : ServoLibrary σ}

theorem Startup.issued_step (s : Startup) (e : StartupEvent) : s.issued <+: (s.step e).issued := by
  cases e with
  | setup =>
    simp only [Startup.step]
    split
    · exact List.prefix_rfl
    · exact List.prefix_append _ _
  | callback =>
    simp only [Startup.step]
    split
    · exact List.prefix_rfl
    · exact List.prefix_append _ _
  | arrive a =>
    simp only [Startup.step]
    split
    · exact List.prefix_rfl
    · exact List.prefix_rfl

theorem Startup.issued_runFrom (s : Startup) (es : List StartupEvent) :
    s.issued <+: (Startup.machine.runFrom s es).issued := by
  have hstep : ∀ (s' : Startup) (e : StartupEvent), s.issued <+: s'.issued → True →
      s.issued <+: (Startup.machine.step s' e).issued := by
    intro s' e h _
    exact h.trans (s'.issued_step e)
  exact Machine.inv_runFrom hstep List.prefix_rfl (Machine.along_of_forall (fun _ _ => trivial) es s)

/-- At rest both servos follow what was written since their attach. -/
theorem Startup.servos (hL : L.Documented) (es : List StartupEvent)
    (hidle : (Startup.machine.run es).Idle) :
    let s := Startup.machine.run es
    (∃ before since, lkCalls s.issued = before ++ .attach SERVO_LK 500 2400 :: since.map .write ∧
      (∀ c ∈ before, ∀ pin min max, c ≠ .attach pin min max) ∧
      L.driven (lkCalls s.issued) = since) ∧
    (∀ angle, (lkAngles s.commands).getLast? = some angle →
      L.read (L.machine.run (lkCalls s.issued)) = angle) ∧
    ∀ angle, (wndAngles s.commands).getLast? = some angle →
      L.read (L.machine.run (wndCalls s.issued)) = angle := by
  intro s
  obtain ⟨b, hbounded, -, -, -, hmerge, -⟩ := Startup.at_rest es hidle
  have hlk : Merge (lkCalls setupServos)
      (lkCalls ((boot.registered.commands ++ b.commands).map Command.call)) (lkCalls s.issued) :=
    hmerge.filterMap _
  have hwnd : Merge (wndCalls setupServos)
      (wndCalls ((boot.registered.commands ++ b.commands).map Command.call)) (wndCalls s.issued) :=
    hmerge.filterMap _
  rw [lkCalls_map_call, lkAngles_append, lkAngles_registered] at hlk
  rw [wndCalls_map_call, wndAngles_append, wndAngles_registered, List.nil_append] at hwnd
  have hangles : ∀ angle ∈ [40, 20] ++ lkAngles b.commands, angle ≤ 180 := by
    intro angle hangle
    rcases List.mem_append.1 hangle with hfirst | hlater
    · rcases List.mem_pair.1 hfirst with rfl | rfl <;> decide
    · exact hbounded angle (List.mem_append_left _ hlater)
  have hangles' : ∀ angle ∈ wndAngles b.commands, angle ≤ 180 := by
    intro angle hangle
    exact hbounded angle (List.mem_append_right _ hangle)
  obtain ⟨before, since, hcalls, hbefore, hdrv, hread⟩ := hL.follows (by decide) hangles hlk
  obtain ⟨-, -, -, -, -, hread'⟩ := hL.follows (by decide) hangles' hwnd
  rw [servoAngles_lkCalls] at hread
  rw [servoAngles_wndCalls] at hread'
  exact ⟨⟨before, since, hcalls, hbefore, hdrv⟩, hread, hread'⟩

/-- What the commands issued show, the servos do. -/
theorem Startup.presents (hL : L.Documented) {es : List StartupEvent} {c' : Car}
    (hidle : (Startup.machine.run es).Idle) (hshow : Shows (Startup.machine.run es).seen c')
    (hbolt : c'.bolt = c.bolt) (hmode : c'.window.isSome = c.window.isSome) :
    (Startup.machine.run es).Presents L c (c'.window.getD .still) := by
  obtain ⟨⟨before, since, hcalls, -, hdrv⟩, hlk, hwnd⟩ := Startup.servos hL es hidle
  refine ⟨?_, ?_, ?_, ?_, hwnd _ hshow.wnd, hlk _ hshow.lk, ?_⟩
  · rw [← hmode]
    exact hshow.mode
  · rw [← hmode, ← hbolt]
    exact hshow.state
  · rw [← hmode, ← hbolt]
    exact hshow.saved
  · rw [← hmode]
    exact hshow.led
  · -- the last direction driven is the last one written
    intro angle hangle
    unfold Startup.lkDriven at hangle
    rw [hdrv] at hangle
    have hdir := hshow.direction
    change ((lkAngles (Startup.machine.run es).commands).filter (· ≠ 20)).getLast? = _ at hdir
    rw [← Option.some_inj, ← hbolt, ← hdir]
    unfold Startup.commands
    rw [← servoAngles_lkCalls, hcalls, servoAngles_append, List.filter_append]
    rw [servoAngles_attach, List.getLast?_append, hangle]
    rfl

/-- **Frames during start-up.** Whenever frames arrive once the callback is registered, and
in whatever order `setup` and the callbacks make their calls, the receiver then is at the car
that the frames have moved, but for the window, which may stand still, and the lock, which
may not have been driven. The window is exact once a command has reached its servo after the
end of `setup`, the lock once it was told to move after the attach of its own. -/
theorem startup_shows (hL : L.Documented) (es : List StartupEvent)
    (hidle : (Startup.machine.run es).Idle) :
    let s := Startup.machine.run es
    let c := carAfter (Startup.arrivals es)
    (s.Presents L c (c.window.getD .still) ∨ s.Presents L c .still) ∧
    (∀ pre more, es = pre ++ more → (Startup.machine.run pre).setupLeft = [] →
      (wndAngles (Startup.machine.run pre).commands).length < (wndAngles s.commands).length →
      s.Presents L c (c.window.getD .still)) ∧
    ∀ pre more, es = pre ++ more →
      L.attached (L.machine.run (lkCalls (Startup.machine.run pre).issued)) = true →
      ((lkAngles (Startup.machine.run pre).commands).filter (· ≠ 20)).length <
        ((lkAngles s.commands).filter (· ≠ 20)).length →
      (s.lkDriven L).getLast? = some c.bolt.angle := by
  intro s c
  obtain ⟨hshow, hexact⟩ := Startup.issued_shows es hidle
  have hpresents : s.Presents L c (c.window.getD .still) ∨ s.Presents L c .still := by
    rcases hshow with hshow | ⟨hwindow, hshow⟩
    · left
      exact Startup.presents hL hidle hshow rfl rfl
    · right
      have hbolt : ({ c with window := some .still } : Car).bolt = c.bolt := rfl
      have hmode : ({ c with window := some .still } : Car).window.isSome = c.window.isSome :=
        hwindow.symm
      exact Startup.presents hL hidle hshow hbolt hmode
  refine ⟨hpresents, ?_, ?_⟩
  · intro pre more heq hended hmore
    exact Startup.presents hL hidle (hexact pre more heq hended hmore) rfl rfl
  · rintro pre more rfl hatt hmore
    obtain ⟨⟨before, since, hcalls, hbefore, hdrv⟩, -, -⟩ := Startup.servos hL (pre ++ more) hidle
    have hprefix : lkCalls (Startup.machine.run pre).issued <+: lkCalls s.issued := by
      rw [show s = Startup.machine.runFrom (Startup.machine.run pre) more from
        Machine.runFrom_append _ _ _ _]
      exact (Startup.issued_runFrom _ more).filterMap _
    unfold Startup.commands at hmore
    rw [← servoAngles_lkCalls, ← servoAngles_lkCalls] at hmore
    have hmoved := hL.moved_since hcalls hbefore hprefix hatt hmore
    have hlast : (s.lkDriven L).getLast? = some ((since.filter (· ≠ 20)).getLast hmoved) := by
      unfold Startup.lkDriven
      rw [hdrv, List.getLast?_eq_some_getLast hmoved]
    rw [hlast]
    rcases hpresents with h | h
    · rw [h.direction _ hlast]
    · rw [h.direction _ hlast]

end

/-- The car is locked, window mode switched on and the window sent up, all before `setup` has
attached the servos: the lock is never driven, and the window stands still. -/
theorem startup_shows_lost :
    let s := Startup.machine.run ([.arrive (frameAt 1 LOCK_SIGNAL, powerOn), .callback, .callback,
      .callback, .callback, .arrive (frameAt 2 WINDOW_SIGNAL, powerOn), .callback,
      .arrive (frameAt 3 WINDOW_UP_SIGNAL, powerOn), .callback, .callback, .callback] ++
      List.replicate 6 .setup)
    let c : Car := { bolt := .locked, window := some .up }
    ¬ s.Presents droppingServo c .up ∧ s.Presents droppingServo c .still ∧
      s.lkDriven droppingServo = [] := by
  intro s c
  have hcar : carAfter (Startup.arrivals ([.arrive (frameAt 1 LOCK_SIGNAL, powerOn), .callback,
      .callback, .callback, .callback, .arrive (frameAt 2 WINDOW_SIGNAL, powerOn), .callback,
      .arrive (frameAt 3 WINDOW_UP_SIGNAL, powerOn), .callback, .callback, .callback] ++
      List.replicate 6 .setup)) = c := by decide +kernel
  have hread : droppingServo.read (droppingServo.machine.run (wndCalls s.issued)) = 20 := by
    decide +kernel
  have hup : ¬ s.Presents droppingServo c .up := by
    intro h
    exact absurd (hread.symm.trans h.wnd) (by decide)
  have h := (startup_shows droppingServo_documented ([.arrive (frameAt 1 LOCK_SIGNAL, powerOn),
    .callback, .callback, .callback, .callback, .arrive (frameAt 2 WINDOW_SIGNAL, powerOn), .callback,
    .arrive (frameAt 3 WINDOW_UP_SIGNAL, powerOn), .callback, .callback, .callback] ++
    List.replicate 6 .setup) (by decide +kernel)).1
  rw [hcar] at h
  refine ⟨hup, ?_, by decide +kernel⟩
  rcases h with h | h
  · exact absurd h hup
  · exact h

end KeyFob
