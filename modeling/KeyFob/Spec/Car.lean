import KeyFob.Spec.Receiver

/-!
# What the receiver is for

The car as its owner sees it: the door is locked or not, and the remote either works
the lock or, in window mode, the window. `Shows` connects the globals and the command
history of the sketch to it.
-/

namespace KeyFob

inductive Bolt where
  | locked
  | unlocked
  deriving DecidableEq

inductive Motion where
  | up
  | down
  | still
  deriving DecidableEq

/-- The lock, and in window mode what the window does. -/
structure Car where
  bolt : Bolt
  window : Option Motion
  deriving DecidableEq

/-- **What one signal means.** -/
def Car.step (c : Car) (action : Byte) : Car :=
  match c.window with
  | none =>
    if action = LOCK_SIGNAL then { c with bolt := .locked }
    else if action = UNLOCK_SIGNAL then { c with bolt := .unlocked }
    else if action = WINDOW_SIGNAL then { c with window := some .still }
    else c
  | some _ =>
    if action = WINDOW_UP_SIGNAL then { c with window := some .up }
    else if action = WINDOW_DOWN_SIGNAL then { c with window := some .down }
    else if action = LOCK_SIGNAL ∨ action = UNLOCK_SIGNAL then { c with window := some .still }
    else if action = WINDOW_SIGNAL then { c with window := none }
    else c

def Car.machine : Machine Car Byte where
  init := { bolt := .unlocked, window := none }
  step := Car.step

/-! ## Reading the command history -/

/-- The level of `pin` after the commands `cs`, from the level `l`. -/
def levelAfter (pin : Led) (l : Level) (cs : List Command) : Level :=
  cs.foldl (fun l c => match c with
    | .digitalWrite p l' => if p = pin then l' else l
    | _ => l) l

/-- The last level written to `pin`, low if none was. -/
def lastLevel (pin : Led) (cs : List Command) : Level := levelAfter pin .LOW cs

/-- The angles sent to the lock servo. -/
def lkAngles (cs : List Command) : List ℕ :=
  cs.filterMap fun c => match c with
    | .servo_lk a => some a
    | _ => none

/-- The angles sent to the window servo. -/
def wndAngles (cs : List Command) : List ℕ :=
  cs.filterMap fun c => match c with
    | .servo_wnd a => some a
    | _ => none

/-- The direction of the last lock command that was not a stop. -/
def lkDirection (cs : List Command) : Option ℕ :=
  ((lkAngles cs).filter (· ≠ 20)).getLast?

/-- The angle that drives the lock to `bolt`. -/
def Bolt.angle : Bolt → ℕ
  | .locked => 0
  | .unlocked => 40

/-- The angle that keeps the window moving as `m`. -/
def Motion.angle : Motion → ℕ
  | .up => 40
  | .down => 0
  | .still => 20

/-- The lock state of the sketch for `bolt`. -/
def Bolt.state : Bolt → LK_State
  | .locked => .Lock
  | .unlocked => .Unlock

/-- The angles a change of the lock takes. -/
def pulse (before after : Bolt) : List ℕ := if before = after then [] else [after.angle, 20]

/-- **The receiver shows the car `c`**: its globals and the last commands it issued
are those of `c`. -/
structure Shows (r : Receiver) (c : Car) : Prop where
  mode : r.windowMode = c.window.isSome
  state : r.state = if c.window.isSome then .Window else c.bolt.state
  saved : c.window.isSome → r.state_old = c.bolt.state
  led : lastLevel .WINDOW_LED r.commands = if c.window.isSome then .HIGH else .LOW
  wnd : (wndAngles r.commands).getLast? = some ((c.window.getD .still).angle)
  lk : (lkAngles r.commands).getLast? = some 20
  direction : lkDirection r.commands = some c.bolt.angle

/-- From `r` to `r'` the lock servo is sent `angles` and nothing else. -/
def Drives (r r' : Receiver) (angles : List ℕ) : Prop :=
  ∃ ds, r'.commands = r.commands ++ ds ∧ lkAngles ds = angles

/-- The signal an arrival brings to the car: that of the frame, if it is accepted. -/
def Receiver.signal (r : Receiver) (a : Arrival) : Option Byte :=
  if r.Accepts a.1 a.2 then some a.1.action else none

/-- The signals of the accepted frames of a run. -/
def Receiver.acceptedSignals (as : List Arrival) : List Byte :=
  Receiver.machine.labels Receiver.signal Receiver.machine.init as

/-- The last signal since the last toggle that moves or stops the window. In window
mode that toggle is the one that entered it, since each accepted toggle changes the mode. -/
def lastCommand (signals : List Byte) : Option Byte :=
  (signals.reverse.takeWhile (· ≠ WINDOW_SIGNAL)).find? fun a =>
    a = WINDOW_UP_SIGNAL ∨ a = WINDOW_DOWN_SIGNAL ∨ a = LOCK_SIGNAL ∨ a = UNLOCK_SIGNAL

/-- What the window does after this command, if there was one. -/
def Motion.commanded : Option Byte → Motion
  | some a =>
    if a = WINDOW_UP_SIGNAL then .up
    else if a = WINDOW_DOWN_SIGNAL then .down
    else .still
  | none => .still

/-- The cases of the `switch` of the current mode. -/
def Receiver.cases (r : Receiver) : List Byte :=
  if r.windowMode then
    [WINDOW_UP_SIGNAL, LOCK_SIGNAL, WINDOW_DOWN_SIGNAL, UNLOCK_SIGNAL, WINDOW_SIGNAL]
  else [LOCK_SIGNAL, UNLOCK_SIGNAL, WINDOW_SIGNAL]

/-- From `r` to `r'` the mode and the lock states stay, every LED keeps its level and
no servo is commanded. -/
structure Receiver.Inert (r r' : Receiver) : Prop where
  mode : r'.windowMode = r.windowMode
  state : r'.state = r.state
  saved : r'.state_old = r.state_old
  leds : ∀ pin, lastLevel pin r'.commands = lastLevel pin r.commands
  servos : ∃ ds, r'.commands = r.commands ++ ds ∧ lkAngles ds = [] ∧ wndAngles ds = []

/-- The lock state the sketch keeps: `state`, or `state_old` in window mode. -/
def Receiver.lockState (r : Receiver) : LK_State :=
  if r.windowMode then r.state_old else r.state

end KeyFob
