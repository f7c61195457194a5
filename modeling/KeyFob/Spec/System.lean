import KeyFob.Spec.Receiver
import KeyFob.Spec.Sender
import Mathlib.Algebra.Group.Nat.Even

/-!
# The fob and the receiver over the open radio channel

The fob may be made to send any signals. Whoever controls the channel may lose, delay,
reorder and repeat the frames the fob has sent. `Action` adds one clock to both units,
read from each unit's own power-on.
-/

namespace KeyFob

/-- The two units, and which of the frames sent were acted upon, as indices into
`fob.sent`, once for each time. -/
structure System where
  fob : Fob
  receiver : Receiver
  acted : List ℕ
  deriving DecidableEq

/-- The clocks are the readings of `gettimeofday` on the fob and on the receiver. -/
inductive SystemEvent where
  | press (sig : Byte) (clock : timeval)
  | deliver (i : ℕ) (clock : timeval)
  deriving DecidableEq

/-- A delivery of a frame never sent does nothing. -/
def System.step (s : System) : SystemEvent → System
  | .press sig clock => { s with fob := s.fob.sendSignal sig clock }
  | .deliver i clock =>
    match s.fob.sent[i]? with
    | none => s
    | some f =>
      { s with
        receiver := s.receiver.OnDataRecv f clock
        acted := if s.receiver.Accepts f clock then s.acted ++ [i] else s.acted }

def System.machine : Machine System SystemEvent where
  init := { fob := Fob.boot, receiver := Receiver.boot.setup, acted := [] }
  step := System.step

/-- The number of the frame that a delivery brings, if the receiver finds its code. Frames
are numbered from one. -/
def System.found (s : System) : SystemEvent → Option ℕ
  | .press _ _ => none
  | .deliver i _ =>
    match s.fob.sent[i]? with
    | none => none
    | some f => if (s.receiver.rollingCode.matches f.rollingCode).1 then some (i + 1) else none

/-- The number of the frame found last, 0 if none was. -/
def System.lastFound (es : List SystemEvent) : ℕ :=
  (System.machine.labels System.found System.machine.init es).getLast?.getD 0

/-! ## One clock -/

/-- A moment, in microseconds: within the range of the `int64_t` the sketch computes. -/
abbrev Instant := { t : ℕ // t < 2 ^ 63 }

/-- What `gettimeofday` fills in when it counts `t` microseconds. -/
def timeOfDay (t : Instant) : timeval where
  tv_sec := BitVec.ofNat 64 (t.1 / 1000000)
  tv_usec := BitVec.ofNat 32 (t.1 % 1000000)

/-- When the units were powered on. Nothing sets their clocks, so each counts from
there. -/
structure PowerOn where
  fob : ℕ
  receiver : ℕ
  deriving DecidableEq

/-- The moment `t` as a unit sees it that was powered on at `on`. -/
def Instant.since (t : Instant) (on : ℕ) : Instant :=
  ⟨t.1 - on, Nat.lt_of_le_of_lt (Nat.sub_le _ _) t.2⟩

/-- Something that happens at one moment. -/
inductive Action where
  | press (sig : Byte) (t : Instant)
  | deliver (i : ℕ) (t : Instant)
  deriving DecidableEq

/-- The action as the two units see it. -/
def Action.event (on : PowerOn) : Action → SystemEvent
  | .press sig t => .press sig (timeOfDay (t.since on.fob))
  | .deliver i t => .deliver i (timeOfDay (t.since on.receiver))

/-- When the frames were sent: entry `i` is the moment of the press that made frame `i`. -/
def presses (as : List Action) : List Instant :=
  as.filterMap fun a => match a with
    | .press _ t => some t
    | .deliver _ _ => none

end KeyFob
