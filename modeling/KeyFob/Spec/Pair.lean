import KeyFob.Spec.Car
import KeyFob.Spec.Sender

/-!
# The fob's loop and the receiver over a channel that keeps the order

The fob runs on samples of its pins. The frames it sends wait in the air, and the first
of them is delivered or lost.
-/

namespace KeyFob

/-- A frame, and whether the fob is inside its window loop once it is sent. -/
structure Flight where
  frame : struct_message
  inside : Bool
  deriving DecidableEq

/-- The two units, the frames in the air and those received, how many frames were lost
since the last one received, and how many `WINDOW_SIGNAL`s were lost at all. -/
structure Pair where
  remote : Remote
  air : List Flight
  receiver : Receiver
  received : List Flight
  lost : ℕ
  missed : ℕ
  deriving DecidableEq

inductive PairEvent where
  | sample (x : Sample)
  | deliver (now : timeval)
  | lose

/-- What the fob sends on one sample: the messages added to `sent`. -/
def Remote.sends (s : Remote) (x : Sample) : List struct_message :=
  (s.step x).fob.sent.drop s.fob.sent.length

/-- Nothing is delivered or lost when there is nothing in the air. -/
def Pair.step (s : Pair) : PairEvent → Pair
  | .sample x =>
    let remote := s.remote.step x
    { s with
      remote := remote
      air := s.air ++ (s.remote.sends x).map fun f => ⟨f, remote.pc.inWindowLoop⟩ }
  | .deliver now =>
    match s.air with
    | [] => s
    | f :: air =>
      { s with
        air := air
        receiver := s.receiver.OnDataRecv f.frame now
        received := s.received ++ [f]
        lost := 0 }
  | .lose =>
    match s.air with
    | [] => s
    | f :: air =>
      { s with
        air := air
        lost := s.lost + 1
        missed := if f.frame.action = WINDOW_SIGNAL then s.missed + 1 else s.missed }

def Pair.machine : Machine Pair PairEvent where
  init :=
    { remote := Remote.machine.init
      air := []
      receiver := Receiver.boot.setup
      received := []
      lost := 0
      missed := 0 }
  step := Pair.step

/-- The samples of a run. -/
def PairEvent.sample? : PairEvent → Option Sample
  | .sample x => some x
  | _ => none

/-! ## What the driver asked for -/

/-- A press of a lock button outside the window loop. -/
def Flight.isLock (f : Flight) : Prop :=
  f.inside = false ∧ (f.frame.action = LOCK_SIGNAL ∨ f.frame.action = UNLOCK_SIGNAL)

instance (f : Flight) : Decidable f.isLock := inferInstanceAs (Decidable (_ ∧ _))

/-- The lock after the presses `fs`: the last one outside the window loop decides. -/
def lockAfter (fs : List Flight) : Bolt :=
  match (fs.filter (·.isLock)).getLast? with
  | none => .unlocked
  | some f => if f.frame.action = LOCK_SIGNAL then .locked else .unlocked

/-- The window servo after the presses `fs`: the last one decides. -/
def windowAfter (fs : List Flight) : ℕ :=
  match fs.getLast? with
  | none => 20
  | some f =>
    if f.frame.action = WINDOW_UP_SIGNAL then 40
    else if f.frame.action = WINDOW_DOWN_SIGNAL then 0
    else 20

end KeyFob
