import KeyFob.Lib.Machine
import KeyFob.Spec.RollingCode
import Mathlib.Order.Basic

/-!
# Two generators over a radio channel

The rolling code alone, without the sketches around it. The sender calls `next` once
per frame and sends its seed; the receiver calls `matches` on what arrives. Both
start from equal objects.

* `Link`: frames arrive in the order sent, some are lost.
* `Air`: any frame sent so far may arrive, in any order and any number of times.
* `Hopping`: what the pair is for, on positions in the code sequence instead of codes.
-/

namespace KeyFob

variable {w : ℕ}

/-- Sender, receiver, the codes in the air in the order sent, and how many frames were lost
since the last delivery. -/
structure Link (w : ℕ) where
  fob : RollingCode w
  air : List (ULong w)
  receiver : RollingCode w
  lost : ℕ
  deriving DecidableEq

/-- The sender sends a frame, or the first one in the air arrives or is lost. -/
inductive LinkEvent where
  | send
  | deliver
  | lose
  deriving DecidableEq

/-- Nothing is delivered or lost when there is nothing in the air. -/
def Link.step (s : Link w) : LinkEvent → Link w
  | .send =>
    let fob := s.fob.next
    { s with fob := fob, air := s.air ++ [fob.getSeed] }
  | .deliver =>
    match s.air with
    | [] => s
    | code :: air => { s with air := air, receiver := (s.receiver.matches code).2, lost := 0 }
  | .lose =>
    match s.air with
    | [] => s
    | _ :: air => { s with air := air, lost := s.lost + 1 }

/-- The code that an event delivers. -/
def Link.delivered (s : Link w) : LinkEvent → Option (ULong w)
  | .deliver => s.air.head?
  | _ => none

/-- The link between two copies of `rc`. -/
def Link.machine (rc : RollingCode w) : Machine (Link w) LinkEvent where
  init := { fob := rc, air := [], receiver := rc, lost := 0 }
  step := Link.step

/-- Sender, receiver, the codes sent (frame `l` is entry `l - 1`), and the largest
index of a frame for which `matches` has returned true. -/
structure Air (w : ℕ) where
  fob : RollingCode w
  sent : List (ULong w)
  receiver : RollingCode w
  newest : ℕ
  deriving DecidableEq

inductive AirEvent where
  | send
  | deliver (l : ℕ)
  deriving DecidableEq

/-- A delivery of a frame never sent does nothing. -/
def Air.step (s : Air w) : AirEvent → Air w
  | .send =>
    let fob := s.fob.next
    { s with fob := fob, sent := s.sent ++ [fob.getSeed] }
  | .deliver 0 => s
  | .deliver (i + 1) =>
    match s.sent[i]? with
    | none => s
    | some code =>
      match s.receiver.matches code with
      | (true, receiver) => { s with receiver := receiver, newest := max s.newest (i + 1) }
      | (false, receiver) => { s with receiver := receiver }

/-- The channel between two copies of `rc`. -/
def Air.machine (rc : RollingCode w) : Machine (Air w) AirEvent where
  init := { fob := rc, sent := [], receiver := rc, newest := 0 }
  step := Air.step

/-- **The purpose of the pair**: the sender counts its frames, the receiver keeps the
newest frame it accepted, never one that was not sent. -/
structure Hopping where
  sent : ℕ
  newest : ℕ
  newest_le : newest ≤ sent

/-- Frame `l` is within the receiver's reach: not older than the newest accepted one,
and not too far ahead of it. -/
def Hopping.Accepts (s : Hopping) (l : ℕ) : Prop := s.newest ≤ l ∧ l ≤ s.newest + SEARCH_LIMIT

instance (s : Hopping) (l : ℕ) : Decidable (s.Accepts l) :=
  inferInstanceAs (Decidable (s.newest ≤ l ∧ l ≤ s.newest + SEARCH_LIMIT))

def Hopping.step (s : Hopping) : AirEvent → Hopping
  | .send => { sent := s.sent + 1, newest := s.newest, newest_le := Nat.le_succ_of_le s.newest_le }
  | .deliver l =>
    if h : (1 ≤ l ∧ l ≤ s.sent) ∧ s.Accepts l then
      { sent := s.sent, newest := l, newest_le := h.1.2 }
    else s

def Hopping.machine : Machine Hopping AirEvent where
  init := { sent := 0, newest := 0, newest_le := le_rfl }
  step := Hopping.step

end KeyFob
