import KeyFob.Lib.Machine
import KeyFob.Spec.Message

/-!
# The receiver

`ESP32_Reciever.ino`: the globals, `setup`, `OnDataRecv` and `updateLockState`. What
the sketch does to its servos and LEDs is a list of commands in the order issued; the
serial output and the delays are left out.
-/

namespace KeyFob

inductive LK_State where
  | Lock
  | Unlock
  | Window
  deriving DecidableEq

/-- The output pins of the receiver with an LED. -/
inductive Led where
  | LOCK_LED
  | UNLOCK_LED
  | WINDOW_LED
  deriving DecidableEq

/-- One call that reaches the hardware. -/
inductive Command where
  | servo_lk (angle : ℕ)
  | servo_wnd (angle : ℕ)
  | digitalWrite (pin : Led) (level : Level)
  deriving DecidableEq

/-- The globals of the sketch, and the commands issued so far. -/
structure Receiver where
  rollingCode : RollingCode 32
  tv_now : timeval
  message : struct_message
  state : LK_State
  state_old : LK_State
  windowMode : Bool
  commands : List Command
  deriving DecidableEq

namespace Receiver

open LK_State Led Level

/-- The globals at power-on: what has no initialiser is zero, so both lock states are
the first enumerator. -/
def boot : Receiver where
  rollingCode := deployed
  tv_now := { tv_sec := 0, tv_usec := 0 }
  message := { tv_now := { tv_sec := 0, tv_usec := 0 }, rollingCode := 0, action := 0 }
  state := Lock
  state_old := Lock
  windowMode := false
  commands := []

/-- Issue one command. -/
def emit (r : Receiver) (c : Command) : Receiver := { r with commands := r.commands ++ [c] }

def servo_lk_write (r : Receiver) (angle : ℕ) : Receiver := r.emit (.servo_lk angle)

def servo_wnd_write (r : Receiver) (angle : ℕ) : Receiver := r.emit (.servo_wnd angle)

def digitalWrite (r : Receiver) (pin : Led) (level : Level) : Receiver :=
  r.emit (.digitalWrite pin level)

def updateLockState (r : Receiver) : Receiver :=
  if r.state = r.state_old then r
  else match r.state with
    | Lock => (((r.servo_lk_write 0).digitalWrite LOCK_LED HIGH).digitalWrite UNLOCK_LED LOW)
        |>.servo_lk_write 20
    | Unlock => (((r.servo_lk_write 40).digitalWrite LOCK_LED LOW).digitalWrite UNLOCK_LED HIGH)
        |>.servo_lk_write 20
    -- the `switch` has no case for `Window`
    | Window => r

/-- `setup` when `esp_now_init` succeeds. When it fails `setup` returns before the
callback is registered, and no frame is ever processed. -/
def setup (r : Receiver) : Receiver :=
  let r := { r with state := Unlock }
  -- `state_old` is still `Lock`, so this drives the servo, before it is attached
  ((r.updateLockState).servo_lk_write 20).servo_wnd_write 20

/-- The `switch` of window mode. -/
def windowSwitch (r : Receiver) : Receiver :=
  if r.message.action = WINDOW_UP_SIGNAL then
    ((r.servo_wnd_write 40).digitalWrite LOCK_LED HIGH).digitalWrite UNLOCK_LED LOW
  else if r.message.action = LOCK_SIGNAL then
    ((r.servo_wnd_write 20).digitalWrite LOCK_LED LOW).digitalWrite UNLOCK_LED LOW
  else if r.message.action = WINDOW_DOWN_SIGNAL then
    ((r.servo_wnd_write 0).digitalWrite LOCK_LED LOW).digitalWrite UNLOCK_LED HIGH
  else if r.message.action = UNLOCK_SIGNAL then
    ((r.servo_wnd_write 20).digitalWrite LOCK_LED LOW).digitalWrite UNLOCK_LED LOW
  else if r.message.action = WINDOW_SIGNAL then
    -- `state_old` is left at `Window`, which no lock state equals
    ({ r with windowMode := false, state := r.state_old, state_old := Window }.digitalWrite
      WINDOW_LED LOW).servo_wnd_write 20
  else r

/-- The `switch` of normal mode. -/
def normalSwitch (r : Receiver) : Receiver :=
  if r.message.action = LOCK_SIGNAL then { r with state_old := r.state, state := Lock }
  else if r.message.action = UNLOCK_SIGNAL then { r with state_old := r.state, state := Unlock }
  else if r.message.action = WINDOW_SIGNAL then
    { r with windowMode := true, state_old := r.state, state := Window }.digitalWrite WINDOW_LED HIGH
  else r

/-- The body of the `if` in `OnDataRecv`. -/
def act (r : Receiver) : Receiver :=
  if r.windowMode then r.windowSwitch else r.normalSwitch.updateLockState

/-- The condition of the `if` in `OnDataRecv`, on the receiver before the call, the
frame, and the reading of `gettimeofday`. -/
def Accepts (r : Receiver) (message : struct_message) (tv_now : timeval) : Prop :=
  (r.rollingCode.matches message.rollingCode).1 = true ∧
    isValidTime tv_now.micros message.tv_now.micros = true

instance (r : Receiver) (message : struct_message) (tv_now : timeval) :
    Decidable (r.Accepts message tv_now) :=
  inferInstanceAs (Decidable (_ ∧ _))

/-- The receive callback, on the frame in the buffer after the `memcpy`. The first
operand of the `&&` moves the rolling code whatever the second one says. -/
def OnDataRecv (r : Receiver) (message : struct_message) (tv_now : timeval) : Receiver :=
  let r := { r with message := message, tv_now := tv_now }
  let thisTime := r.tv_now.micros
  let otherTime := r.message.tv_now.micros
  match r.rollingCode.matches r.message.rollingCode with
  | (true, rollingCode) =>
    -- from here on the seed has moved, also when the clock check fails
    let r := { r with rollingCode := rollingCode }
    if isValidTime thisTime otherTime then r.act else r
  | (false, rollingCode) => { r with rollingCode := rollingCode }

/-- What a frame that is not acted upon must not change: the mode, the lock states and
the servos and LEDs. -/
def control (r : Receiver) : Bool × LK_State × LK_State × List Command :=
  (r.windowMode, r.state, r.state_old, r.commands)

end Receiver

/-- A frame that arrives, and the receiver's clock when it does. -/
abbrev Arrival := struct_message × timeval

/-- The receiver after `setup`, one callback per arrival. -/
def Receiver.machine : Machine Receiver Arrival where
  init := Receiver.boot.setup
  step := fun r a => r.OnDataRecv a.1 a.2

end KeyFob
