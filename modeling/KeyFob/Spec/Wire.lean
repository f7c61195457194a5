import KeyFob.Spec.Frame
import KeyFob.Spec.Sender

/-!
# Bytes on the air

The two sketches, with the frames as the bytes that `esp_now_send` is given and that the
receive callback copies. Besides the fob anyone may send.

* `Wire`: the sketches on bytes.
* `Exposed`: the same on messages, where a forged frame is a message too.
-/

namespace KeyFob

/-- The fob's generator and the bytes of its `message`, every frame it has handed to
`esp_now_send`, and the receiver; none once a copy has read past the end of a frame. -/
structure Wire where
  rollingCode : RollingCode 32
  message : List Byte
  air : List (List Byte)
  receiver : Option Receiver
  deriving DecidableEq

/-- `deliver i` is any frame the fob has sent, `forge` any bytes at all. -/
inductive WireEvent where
  | press (sig : Byte) (clock : timeval)
  | deliver (i : ℕ) (clock : timeval)
  | forge (frame : List Byte) (clock : timeval)
  deriving DecidableEq

def Wire.arrive (L : Layout) (s : Wire) (frame : List Byte) (clock : timeval) : Wire :=
  { s with receiver := s.receiver.bind fun r => r.OnDataRecvBuffer L frame clock }

/-- On `press` this is `sendSignal`, the members written into the global `message`. -/
def Wire.step (L : Layout) (s : Wire) : WireEvent → Wire
  | .press sig clock =>
    let rollingCode := s.rollingCode.next
    let message := L.encode s.message
      { tv_now := clock, rollingCode := rollingCode.getSeed, action := sig }
    { s with rollingCode := rollingCode, message := message, air := s.air ++ [message] }
  | .deliver i clock =>
    match s.air[i]? with
    | none => s
    | some frame => s.arrive L frame clock
  | .forge frame clock => s.arrive L frame clock

/-- Globals are zero at power-on, the padding included. -/
def Wire.machine (L : Layout) : Machine Wire WireEvent where
  init :=
    { rollingCode := deployed
      message := List.replicate L.size 0
      air := []
      receiver := some Receiver.boot.setup }
  step := Wire.step L

/-! ## The same on messages -/

structure Exposed where
  fob : Fob
  receiver : Receiver
  deriving DecidableEq

inductive ExposedEvent where
  | press (sig : Byte) (clock : timeval)
  | deliver (i : ℕ) (clock : timeval)
  | forge (message : struct_message) (clock : timeval)
  deriving DecidableEq

def Exposed.step (s : Exposed) : ExposedEvent → Exposed
  | .press sig clock => { s with fob := s.fob.sendSignal sig clock }
  | .deliver i clock =>
    match s.fob.sent[i]? with
    | none => s
    | some message => { s with receiver := s.receiver.OnDataRecv message clock }
  | .forge message clock => { s with receiver := s.receiver.OnDataRecv message clock }

def Exposed.machine : Machine Exposed ExposedEvent where
  init := { fob := Fob.boot, receiver := Receiver.boot.setup }
  step := Exposed.step

/-- The event on messages: a forged frame is what its first bytes say. -/
def WireEvent.message (L : Layout) : WireEvent → ExposedEvent
  | .press sig clock => .press sig clock
  | .deliver i clock => .deliver i clock
  | .forge frame clock => .forge (L.decode (frame.take L.size)) clock

/-- The reading of the fob's clock is one that `time_t` holds. -/
def WireEvent.Fits (L : Layout) : WireEvent → Prop
  | .press sig clock => L.Fits { tv_now := clock, rollingCode := 0, action := sig }
  | _ => True

/-- The event is not a forged frame with fewer bytes than the message has. -/
def WireEvent.Whole (L : Layout) : WireEvent → Prop
  | .forge frame _ => L.size ≤ frame.length
  | _ => True

instance (L : Layout) : ∀ e : WireEvent, Decidable (e.Fits L)
  | .press _ _ => inferInstanceAs (Decidable (_ = _))
  | .deliver _ _ | .forge _ _ => isTrue trivial

instance (L : Layout) : ∀ e : WireEvent, Decidable (e.Whole L)
  | .forge _ _ => inferInstanceAs (Decidable (_ ≤ _))
  | .press _ _ | .deliver _ _ => isTrue trivial

end KeyFob
