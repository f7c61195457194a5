import KeyFob.Spec.Restart
import KeyFob.Spec.System

/-!
# Power cuts and the clocks

`gettimeofday` counts from the last power-on of the unit that asks, and the receiver
compares its own count with the one in the frame. `Timed` adds to the units that lose
their power the moment each of them got it back.
-/

namespace KeyFob

/-- The two units, and when each was powered on last. -/
structure Timed where
  units : Powered
  on : PowerOn
  deriving DecidableEq

/-- What happens to the units, at a moment of one clock. -/
inductive TimedEvent where
  | press (sig : Byte) (t : Instant)
  | deliver (i : ℕ) (t : Instant)
  | fobOn (t : Instant)
  | receiverOn (t : Instant)
  deriving DecidableEq

/-- The event as the two units see it. -/
def TimedEvent.event (on : PowerOn) : TimedEvent → PowerEvent
  | .press sig t => .press sig (timeOfDay (t.since on.fob))
  | .deliver i t => .deliver i (timeOfDay (t.since on.receiver))
  | .fobOn _ => .fobOn
  | .receiverOn _ => .receiverOn

/-- A power-on starts the clock of its unit again. -/
def TimedEvent.restarts (on : PowerOn) : TimedEvent → PowerOn
  | .fobOn t => { on with fob := t.1 }
  | .receiverOn t => { on with receiver := t.1 }
  | .press _ _ | .deliver _ _ => on

def Timed.step (s : Timed) (e : TimedEvent) : Timed where
  units := s.units.step (e.event s.on)
  on := e.restarts s.on

/-- The signal the receiver acts upon in one event, if it does. -/
def Timed.signal (s : Timed) (e : TimedEvent) : Option Byte :=
  s.units.signal (e.event s.on)

/-- The units, first powered on at `on`. -/
def Timed.machine (on : PowerOn) : Machine Timed TimedEvent where
  init := { units := Powered.machine.init, on := on }
  step := Timed.step

/-- A press, and when its frame arrives. -/
structure TimedPress where
  sig : Byte
  sent : Instant
  arrived : Instant

/-- The press as the two units see it. -/
def TimedPress.press (on : PowerOn) (x : TimedPress) : Press where
  sig := x.sig
  pressed := timeOfDay (x.sent.since on.fob)
  arrived := timeOfDay (x.arrived.since on.receiver)

/-- The acting units are powered on. -/
def TimedPress.Powered (on : PowerOn) (x : TimedPress) : Prop :=
  on.fob ≤ x.sent.1 ∧ on.receiver ≤ x.arrived.1

instance (on : PowerOn) (x : TimedPress) : Decidable (x.Powered on) :=
  inferInstanceAs (Decidable (on.fob ≤ x.sent.1 ∧ on.receiver ≤ x.arrived.1))

/-- The frame arrives no earlier than it was sent. -/
def TimedPress.Forward (x : TimedPress) : Prop := x.sent.1 ≤ x.arrived.1

instance (x : TimedPress) : Decidable x.Forward :=
  inferInstanceAs (Decidable (x.sent.1 ≤ x.arrived.1))

/-- The frame takes at most `d` microseconds. -/
def TimedPress.Within (d : ℕ) (x : TimedPress) : Prop := x.arrived.1 ≤ x.sent.1 + d

instance (d : ℕ) (x : TimedPress) : Decidable (x.Within d) :=
  inferInstanceAs (Decidable (x.arrived.1 ≤ x.sent.1 + d))

/-- The presses `ps` one after the other, the first of them recorded as entry `k`. -/
def timedExchanges : ℕ → List TimedPress → List TimedEvent
  | _, [] => []
  | k, p :: ps => .press p.sig p.sent :: .deliver k p.arrived :: timedExchanges (k + 1) ps

/-! ## Frames on record -/

/-- A message handed to `esp_now_send`, with its number and how long the fob had been on. -/
structure Recording where
  frame : struct_message
  number : ℕ
  uptime : Instant
  deriving DecidableEq

/-- What one event adds to the record. -/
def Timed.records (s : Timed) : TimedEvent → Option Recording
  | .press sig t =>
    let fob := s.units.fob.sendSignal sig (timeOfDay (t.since s.on.fob))
    some { frame := fob.message, number := fob.sent.length, uptime := t.since s.on.fob }
  | .deliver _ _ | .fobOn _ | .receiverOn _ => none

/-- The record after the events `es`, over all sessions. -/
def recordings (on : PowerOn) (es : List TimedEvent) : List Recording :=
  (Timed.machine on).labels Timed.records (Timed.machine on).init es

/-- Entry `i` of the record, played at `t`. -/
structure Play where
  i : ℕ
  t : Instant

/-- The recordings that are played, and when. An entry that does not exist is silent. -/
def played (record : List Recording) (plays : List Play) : List (Recording × Instant) :=
  plays.filterMap fun p => record[p.i]?.map fun r => (r, p.t)

end KeyFob
