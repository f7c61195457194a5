import KeyFob.Spec.Car
import KeyFob.Spec.Servo

/-!
# Starting up

`setup` registers the receive callback before it attaches and stops the servos. From then on
frames may arrive while the rest of `setup` runs, and the calls of the two are made in any
order that keeps that of each. Each call takes effect at once, and one callback ends before
the next one begins.
-/

namespace KeyFob

/-- One call that reaches the hardware, those that make a servo ready included. -/
inductive Call where
  | servo_lk (c : ServoCall)
  | servo_wnd (c : ServoCall)
  | digitalWrite (pin : Led) (level : Level)
  deriving DecidableEq

/-- A command of the callback as such a call. -/
def Command.call : Command → Call
  | .servo_lk angle => .servo_lk (.write angle)
  | .servo_wnd angle => .servo_wnd (.write angle)
  | .digitalWrite pin level => .digitalWrite pin level

/-- The command that a call is, if it is one. -/
def Call.command : Call → Option Command
  | .servo_lk (.write angle) => some (.servo_lk angle)
  | .servo_wnd (.write angle) => some (.servo_wnd angle)
  | .digitalWrite pin level => some (.digitalWrite pin level)
  | _ => none

/-- The calls to the lock servo. -/
def lkCalls (cs : List Call) : List ServoCall :=
  cs.filterMap fun c => match c with
    | .servo_lk c => some c
    | _ => none

/-- The calls to the window servo. -/
def wndCalls (cs : List Call) : List ServoCall :=
  cs.filterMap fun c => match c with
    | .servo_wnd c => some c
    | _ => none

namespace Receiver

/-- `setup` up to the call of `esp_now_register_recv_cb`. -/
def registered (r : Receiver) : Receiver := updateLockState { r with state := .Unlock }

/-- What is left of `setup` then. -/
def setupServos : List Call :=
  [.servo_lk (.setPeriodHertz 50), .servo_lk (.attach SERVO_LK 500 2400), .servo_lk (.write 20),
    .servo_wnd (.setPeriodHertz 50), .servo_wnd (.attach SERVO_WND 500 2400), .servo_wnd (.write 20)]

end Receiver

/-- The globals, with those commands of the running callback that are still to be issued;
the calls of `setup` that are; and all calls that were made. -/
structure Startup where
  receiver : Receiver
  setupLeft : List Call
  issued : List Call
  deriving DecidableEq

inductive StartupEvent where
  | setup
  | callback
  | arrive (a : Arrival)
  deriving DecidableEq

namespace Startup

/-- A frame is handled once the callback of the one before it has ended. -/
def step (s : Startup) : StartupEvent → Startup
  | .setup =>
    match s.setupLeft with
    | [] => s
    | c :: cs => { s with setupLeft := cs, issued := s.issued ++ [c] }
  | .callback =>
    match s.receiver.commands with
    | [] => s
    | c :: cs =>
      { s with receiver := { s.receiver with commands := cs }, issued := s.issued ++ [c.call] }
  | .arrive a =>
    match s.receiver.commands with
    | [] => { s with receiver := s.receiver.OnDataRecv a.1 a.2 }
    | _ :: _ => s

def machine : Machine Startup StartupEvent where
  init :=
    { receiver := { Receiver.boot.registered with commands := [] }
      setupLeft := Receiver.setupServos
      issued := Receiver.boot.registered.commands.map Command.call }
  step := step

/-- The frame that an event brings, if it is handled. -/
def handled (s : Startup) : StartupEvent → Option Arrival
  | .arrive a => if s.receiver.commands = [] then some a else none
  | _ => none

/-- The frames handled in a run. -/
def arrivals (es : List StartupEvent) : List Arrival :=
  machine.labels handled machine.init es

/-- `setup` has ended and no callback is running. -/
def Idle (s : Startup) : Prop := s.setupLeft = [] ∧ s.receiver.commands = []

instance (s : Startup) : Decidable s.Idle := inferInstanceAs (Decidable (_ ∧ _))

/-- The commands among the calls made. -/
def commands (s : Startup) : List Command := s.issued.filterMap Call.command

/-- The globals, and the commands issued. -/
def seen (s : Startup) : Receiver := { s.receiver with commands := s.commands }

/-- The directions in which the lock servo was driven. -/
def lkDriven {σ : Type} (L : ServoLibrary σ) (s : Startup) : List ℕ :=
  (L.driven (lkCalls s.issued)).filter (· ≠ 20)

/-- **The car is `c` and its window moves as `m`**, where the servos are what the calls have
made of them. The lock servo stands still, and if it was driven at all then to the bolt of `c`. -/
structure Presents {σ : Type} (L : ServoLibrary σ) (s : Startup) (c : Car) (m : Motion) : Prop where
  mode : s.receiver.windowMode = c.window.isSome
  state : s.receiver.state = if c.window.isSome then .Window else c.bolt.state
  saved : c.window.isSome → s.receiver.state_old = c.bolt.state
  led : lastLevel .WINDOW_LED s.commands = if c.window.isSome then .HIGH else .LOW
  wnd : L.read (L.machine.run (wndCalls s.issued)) = m.angle
  lk : L.read (L.machine.run (lkCalls s.issued)) = 20
  direction : ∀ angle, (s.lkDriven L).getLast? = some angle → angle = c.bolt.angle

end Startup

end KeyFob
