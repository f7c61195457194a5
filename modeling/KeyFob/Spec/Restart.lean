import KeyFob.Spec.Car
import KeyFob.Spec.Channel
import KeyFob.Spec.Sender

/-!
# Power cuts

Neither sketch stores anything, so at every power-on a unit builds its generator from the
same seed again, while whoever listens on the channel keeps the frames of all sessions.
A frame is known by its number: which one it was since the fob's last power-on.

* `Field`: the rolling codes alone, for any generator.
* `Numbers`: the same with the numbers instead of the codes. What the receiver accepts is
  a relation between the number it accepted last and that of the frame.
* `Powered`: the two sketches.
-/

namespace KeyFob

variable {w : ℕ}

/-- A code that was sent, with its number. -/
structure Recorded (w : ℕ) where
  code : ULong w
  number : ℕ
  deriving DecidableEq

/-- Sender and receiver, how many frames the sender has sent since its power-on, every
frame ever sent, and the number of the frame whose code the receiver found last, 0 if it
found none since its power-on. -/
structure Field (w : ℕ) where
  fob : RollingCode w
  pressed : ℕ
  air : List (Recorded w)
  receiver : RollingCode w
  last : ℕ
  deriving DecidableEq

/-- `deliver i` is any frame ever sent, as an index into `air`. -/
inductive FieldEvent where
  | send
  | deliver (i : ℕ)
  | fobOn
  | receiverOn
  deriving DecidableEq

/-- What happens to two units that are built with `rc`. A delivery of a frame never sent
does nothing. -/
def Field.step (rc : RollingCode w) (s : Field w) : FieldEvent → Field w
  | .send =>
    let fob := s.fob.next
    { s with fob := fob, pressed := s.pressed + 1, air := s.air ++ [⟨fob.getSeed, s.pressed + 1⟩] }
  | .deliver i =>
    match s.air[i]? with
    | none => s
    | some f =>
      match s.receiver.matches f.code with
      | (true, receiver) => { s with receiver := receiver, last := f.number }
      | (false, receiver) => { s with receiver := receiver }
  | .fobOn => { s with fob := rc, pressed := 0 }
  | .receiverOn => { s with receiver := rc, last := 0 }

def Field.machine (rc : RollingCode w) : Machine (Field w) FieldEvent where
  init := { fob := rc, pressed := 0, air := [], receiver := rc, last := 0 }
  step := Field.step rc

/-- No power-on, and no frame recorded before frame `k` of the record. -/
def FieldEvent.Fresh (k : ℕ) : FieldEvent → Prop
  | .send => True
  | .deliver i => k ≤ i
  | .fobOn | .receiverOn => False

/-! ## Numbers instead of codes -/

/-- The numbers of the frames: the last one sent, all that were sent, the last one found. -/
structure Numbers where
  pressed : ℕ
  air : List ℕ
  last : ℕ
  deriving DecidableEq

/-- A receiver that found frame `p` last takes frame `l` if `reach p l`. -/
def Numbers.step (reach : ℕ → ℕ → Prop) [DecidableRel reach] (s : Numbers) : FieldEvent → Numbers
  | .send => { s with pressed := s.pressed + 1, air := s.air ++ [s.pressed + 1] }
  | .deliver i =>
    match s.air[i]? with
    | none => s
    | some l => if reach s.last l then { s with last := l } else s
  | .fobOn => { s with pressed := 0 }
  | .receiverOn => { s with last := 0 }

def Numbers.machine (reach : ℕ → ℕ → Prop) [DecidableRel reach] : Machine Numbers FieldEvent where
  init := { pressed := 0, air := [], last := 0 }
  step := Numbers.step reach

/-- **What the pair is for**: not older than the last one, and not too far ahead. -/
def Ahead (p l : ℕ) : Prop := p ≤ l ∧ l ≤ p + SEARCH_LIMIT

instance : DecidableRel Ahead := fun p l => inferInstanceAs (Decidable (p ≤ l ∧ l ≤ p + SEARCH_LIMIT))

/-! ## The sketches -/

/-- The two units, every message ever handed to `esp_now_send` with its number, and the
number of the message whose code the receiver found last. -/
structure Powered where
  fob : Fob
  receiver : Receiver
  air : List (struct_message × ℕ)
  last : ℕ
  deriving DecidableEq

/-- The clocks are the readings of `gettimeofday` on the fob and on the receiver. -/
inductive PowerEvent where
  | press (sig : Byte) (clock : timeval)
  | deliver (i : ℕ) (clock : timeval)
  | fobOn
  | receiverOn
  deriving DecidableEq

def Powered.step (s : Powered) : PowerEvent → Powered
  | .press sig clock =>
    let fob := s.fob.sendSignal sig clock
    { s with fob := fob, air := s.air ++ [(fob.message, fob.sent.length)] }
  | .deliver i clock =>
    match s.air[i]? with
    | none => s
    | some (f, number) =>
      { s with
        receiver := s.receiver.OnDataRecv f clock
        last := if (s.receiver.rollingCode.matches f.rollingCode).1 then number else s.last }
  | .fobOn => { s with fob := Fob.boot }
  | .receiverOn => { s with receiver := Receiver.boot.setup, last := 0 }

/-- The signal the receiver acts upon in one event, if it does. -/
def Powered.signal (s : Powered) : PowerEvent → Option Byte
  | .deliver i clock => s.air[i]?.bind fun f => s.receiver.signal (f.1, clock)
  | _ => none

def Powered.machine : Machine Powered PowerEvent where
  init := { fob := Fob.boot, receiver := Receiver.boot.setup, air := [], last := 0 }
  step := Powered.step

/-- A press whose frame arrives at once. -/
structure Press where
  sig : Byte
  pressed : timeval
  arrived : timeval

/-- The clock check on the frame of a press. -/
def Press.valid (x : Press) : Bool := isValidTime x.arrived.micros x.pressed.micros

/-- The presses `ps`, the first of them recorded as entry `k`. -/
def exchanges : ℕ → List Press → List PowerEvent
  | _, [] => []
  | k, p :: ps => .press p.sig p.pressed :: .deliver k p.arrived :: exchanges (k + 1) ps

end KeyFob
