import KeyFob.Lib.Machine
import KeyFob.Spec.Message

/-!
# The fob

`ESP32_Sender.ino`: the globals, `sendSignal`, the four `poll` functions and `loop`.

The functions run on a history of samples: each `digitalRead` takes the next sample
and returns the level of its pin there, and `gettimeofday` reads the clock of the last
sample taken. The `while` loops and the repetition of `loop` have no bound in the
source; here they get one that the history cannot use up, and a function ends with
`historyEnded` when it wants a sample that is not there. `S_DEBUG` is false; the serial
output, the delays and the status LED are left out.
-/

namespace KeyFob

open Level

/-- The input pins of the fob. -/
inductive Pin where
  | WNDBTTN
  | LKBTTN
  | UNLKBTTN
  deriving DecidableEq

/-- The globals of the sketch, and the messages handed to `esp_now_send` so far. -/
structure Fob where
  LKBTTNSTATE : Level
  UNLKBTTNSTATE : Level
  rollingCode : RollingCode 32
  tv_now : timeval
  message : struct_message
  sent : List struct_message
  deriving DecidableEq

namespace Fob

def boot : Fob where
  LKBTTNSTATE := LOW
  UNLKBTTNSTATE := LOW
  rollingCode := deployed
  tv_now := { tv_sec := 0, tv_usec := 0 }
  message := { tv_now := { tv_sec := 0, tv_usec := 0 }, rollingCode := 0, action := 0 }
  sent := []

/-- `sendSignal`, with the reading of `gettimeofday`. -/
def sendSignal (fob : Fob) (sig : Byte) (clock : timeval) : Fob :=
  let rollingCode := fob.rollingCode.next
  let message : struct_message :=
    { tv_now := clock, rollingCode := rollingCode.getSeed, action := sig }
  { fob with rollingCode := rollingCode, tv_now := clock, message := message,
             sent := fob.sent ++ [message] }

end Fob

/-- What the fob can see at one instant. -/
structure Sample where
  level : Pin → Level
  clock : timeval

/-- The fob, the clock, and the samples still to come. -/
structure Board where
  fob : Fob
  clock : timeval
  history : List Sample

inductive Stop where
  | historyEnded
  | outOfFuel
  deriving DecidableEq

/-- The code of the sketch: it acts on the board and may stop early. -/
abbrev Sketch := EStateM Stop Board

/-- The `int` that the calls of ESP-NOW return. -/
abbrev esp_err_t := BitVec 32

def ESP_OK : esp_err_t := 0

/-- What `esp_now_send` returns, as the messages handed to it so far end with the new one. -/
abbrev Radio := List struct_message → esp_err_t

namespace Sketch

variable (esp_now_send : Radio)

def digitalRead (pin : Pin) : Sketch Level := fun b =>
  match b.history with
  | [] => .error .historyEnded b
  | s :: rest => .ok (s.level pin) { b with clock := s.clock, history := rest }

/-- `sendSignal`, with the result that its callers do not read. -/
def sendSignal (sig : Byte) : Sketch esp_err_t := fun b =>
  let fob := b.fob.sendSignal sig b.clock
  .ok (esp_now_send fob.sent) { b with fob := fob }

def setLKBTTNSTATE (l : Level) : Sketch Unit := fun b =>
  .ok () { b with fob := { b.fob with LKBTTNSTATE := l } }

def setUNLKBTTNSTATE (l : Level) : Sketch Unit := fun b =>
  .ok () { b with fob := { b.fob with UNLKBTTNSTATE := l } }

/-- `while (digitalRead(pin) == HIGH) body`, at most `n` passes. -/
def whileHighUpTo (pin : Pin) (body : Sketch Unit) : ℕ → Sketch Unit
  | 0 => throw .outOfFuel
  | n + 1 => do
    if (← digitalRead pin) = HIGH then
      body
      whileHighUpTo pin body n

/-- The loop with more passes than there are samples: each pass takes one. -/
def whileHigh (pin : Pin) (body : Sketch Unit) : Sketch Unit := fun b =>
  whileHighUpTo pin body (b.history.length + 1) b

def pollLockButton : Sketch Unit := do
  let lkBttnSt ← digitalRead .LKBTTN
  match lkBttnSt with
  | HIGH =>
    if lkBttnSt ≠ (← get).fob.LKBTTNSTATE then
      setLKBTTNSTATE lkBttnSt
      discard (sendSignal esp_now_send LOCK_SIGNAL)
  | LOW =>
    if lkBttnSt ≠ (← get).fob.LKBTTNSTATE then
      setLKBTTNSTATE lkBttnSt

def pollWindowUButton : Sketch Unit := do
  let lkBttnSt ← digitalRead .LKBTTN
  match lkBttnSt with
  | HIGH =>
    discard (sendSignal esp_now_send WINDOW_UP_SIGNAL)
    -- halt until the button is no longer held
    whileHigh .LKBTTN (pure ())
    discard (sendSignal esp_now_send LOCK_SIGNAL)
  | LOW => pure ()

def pollUnlockButton : Sketch Unit := do
  let unlkBttnSt ← digitalRead .UNLKBTTN
  match unlkBttnSt with
  | HIGH =>
    if unlkBttnSt ≠ (← get).fob.UNLKBTTNSTATE then
      setUNLKBTTNSTATE unlkBttnSt
      discard (sendSignal esp_now_send UNLOCK_SIGNAL)
  | LOW =>
    if unlkBttnSt ≠ (← get).fob.UNLKBTTNSTATE then
      setUNLKBTTNSTATE unlkBttnSt

def pollWindowDButton : Sketch Unit := do
  let unlkBttnSt ← digitalRead .UNLKBTTN
  match unlkBttnSt with
  | HIGH =>
    discard (sendSignal esp_now_send WINDOW_DOWN_SIGNAL)
    whileHigh .UNLKBTTN (pure ())
    discard (sendSignal esp_now_send UNLOCK_SIGNAL)
  | LOW => pure ()

def loop : Sketch Unit := do
  if (← digitalRead .WNDBTTN) = HIGH then
    -- turn on window mode
    discard (sendSignal esp_now_send WINDOW_SIGNAL)
    whileHigh .WNDBTTN do
      pollWindowUButton esp_now_send
      pollWindowDButton esp_now_send
    -- turn off window mode
    discard (sendSignal esp_now_send WINDOW_SIGNAL)
  pollLockButton esp_now_send
  pollUnlockButton esp_now_send

/-- The runtime calls `loop` again and again, here at most `n` times. -/
def loopUpTo : ℕ → Sketch Unit
  | 0 => throw .outOfFuel
  | n + 1 => do
    loop esp_now_send
    loopUpTo n

end Sketch

/-- **The fob over a history**: how it stops, and the board then. -/
def Fob.run (esp_now_send : Radio) (history : List Sample) : EStateM.Result Stop Board Unit :=
  Sketch.loopUpTo esp_now_send (history.length + 1)
    { fob := Fob.boot, clock := { tv_sec := 0, tv_usec := 0 }, history := history }

/-! ## The same as a machine -/

/-- Where the fob waits for its next sample, named by the function and, inside the
window loop, by what is held. -/
inductive Control where
  | loop
  | windowLoop
  | windowU
  | windowUHeld
  | windowD
  | windowDHeld
  | lockButton
  | unlockButton
  deriving DecidableEq

/-- The fob is between the two `WINDOW_SIGNAL`s that `loop` sends. -/
def Control.inWindowLoop : Control → Bool
  | .loop | .lockButton | .unlockButton => false
  | .windowLoop | .windowU | .windowUHeld | .windowD | .windowDHeld => true

structure Remote where
  pc : Control
  fob : Fob
  deriving DecidableEq

/-- **One sample.** -/
def Remote.step (s : Remote) (x : Sample) : Remote :=
  match s.pc with
  | .loop =>
    if x.level .WNDBTTN = HIGH then
      { pc := .windowLoop, fob := s.fob.sendSignal WINDOW_SIGNAL x.clock }
    else { s with pc := .lockButton }
  | .windowLoop =>
    if x.level .WNDBTTN = HIGH then { s with pc := .windowU }
    else { pc := .lockButton, fob := s.fob.sendSignal WINDOW_SIGNAL x.clock }
  | .windowU =>
    if x.level .LKBTTN = HIGH then
      { pc := .windowUHeld, fob := s.fob.sendSignal WINDOW_UP_SIGNAL x.clock }
    else { s with pc := .windowD }
  | .windowUHeld =>
    if x.level .LKBTTN = HIGH then s
    else { pc := .windowD, fob := s.fob.sendSignal LOCK_SIGNAL x.clock }
  | .windowD =>
    if x.level .UNLKBTTN = HIGH then
      { pc := .windowDHeld, fob := s.fob.sendSignal WINDOW_DOWN_SIGNAL x.clock }
    else { s with pc := .windowLoop }
  | .windowDHeld =>
    if x.level .UNLKBTTN = HIGH then s
    else { pc := .windowLoop, fob := s.fob.sendSignal UNLOCK_SIGNAL x.clock }
  | .lockButton =>
    let fob := { s.fob with LKBTTNSTATE := x.level .LKBTTN }
    if x.level .LKBTTN = HIGH ∧ s.fob.LKBTTNSTATE ≠ HIGH then
      { pc := .unlockButton, fob := fob.sendSignal LOCK_SIGNAL x.clock }
    else { pc := .unlockButton, fob := fob }
  | .unlockButton =>
    let fob := { s.fob with UNLKBTTNSTATE := x.level .UNLKBTTN }
    if x.level .UNLKBTTN = HIGH ∧ s.fob.UNLKBTTNSTATE ≠ HIGH then
      { pc := .loop, fob := fob.sendSignal UNLOCK_SIGNAL x.clock }
    else { pc := .loop, fob := fob }

def Remote.machine : Machine Remote Sample where
  init := { pc := .loop, fob := Fob.boot }
  step := Remote.step

end KeyFob
