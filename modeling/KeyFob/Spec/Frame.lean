import KeyFob.Lib.Bytes
import KeyFob.Spec.Car

/-!
# Frames as bytes

`sendSignal` hands out the bytes of its `message`, and `OnDataRecv` copies as many
bytes as its own `message` has from the buffer it is given. The two sketches declare
the same structure, so the layout is the same on both sides.
-/

namespace KeyFob

open Block

/-- Where the members of `struct_message` lie in its `sizeof(message)` bytes, and how
many of them `time_t` takes. The members are in the order of the declaration; what is
between them is padding. -/
structure Layout where
  size : ℕ
  secBytes : ℕ
  tv_sec : ℕ
  tv_usec : ℕ
  rollingCode : ℕ
  action : ℕ
  time_t : secBytes = 4 ∨ secBytes = 8
  usec_above : tv_sec + secBytes ≤ tv_usec
  code_above : tv_usec + 4 ≤ rollingCode
  action_above : rollingCode + 4 ≤ action
  size_above : action + 1 ≤ size

/-- The layout on the ESP32 with a `time_t` of 64 bits. -/
def Layout.esp32 : Layout where
  size := 24
  secBytes := 8
  tv_sec := 0
  tv_usec := 8
  rollingCode := 16
  action := 20
  time_t := by decide
  usec_above := by decide
  code_above := by decide
  action_above := by decide
  size_above := by decide

namespace Layout

variable (L : Layout)

/-- The message as `time_t` can hold it. -/
def Fits (m : struct_message) : Prop :=
  (m.tv_now.tv_sec.setWidth (8 * L.secBytes)).signExtend 64 = m.tv_now.tv_sec

/-- The members with their bytes. -/
def members (m : struct_message) : List (ℕ × List Byte) :=
  [(L.tv_sec, toLE L.secBytes m.tv_now.tv_sec.toNat), (L.tv_usec, toLE 4 m.tv_now.tv_usec.toNat),
    (L.rollingCode, toLE 4 m.rollingCode.toNat), (L.action, toLE 1 m.action.toNat)]

/-- **The assignments of `sendSignal`**, into the bytes `message` had before: the padding
keeps what it was. -/
def encode (message : List Byte) (m : struct_message) : List Byte :=
  writeAll message (L.members m)

/-- The members of `message` as `OnDataRecv` reads them. -/
def decode (message : List Byte) : struct_message where
  tv_now :=
    { tv_sec := (BitVec.ofNat (8 * L.secBytes) (ofLE (readAt message L.tv_sec L.secBytes))).signExtend 64
      tv_usec := BitVec.ofNat 32 (ofLE (readAt message L.tv_usec 4)) }
  rollingCode := BitVec.ofNat 32 (ofLE (readAt message L.rollingCode 4))
  action := BitVec.ofNat 8 (ofLE (readAt message L.action 1))

end Layout

/-- **The receive callback on a buffer.** Its length is an argument of the callback that
is not looked at; there is no result where the copy reads past the end. -/
def Receiver.OnDataRecvBuffer (L : Layout) (r : Receiver) (incomingData : List Byte)
    (tv_now : timeval) : Option Receiver :=
  (memcpy L.size incomingData).map fun message => r.OnDataRecv (L.decode message) tv_now

/-- The action does nothing: the `switch` has no case for it and `updateLockState` finds
nothing to do, or it is the lock signal for what both lock states are already. -/
def Receiver.Idle (r : Receiver) (action : Byte) : Prop :=
  (action ∉ r.cases ∧ (r.windowMode = true ∨ r.state = r.state_old ∨ r.state = .Window)) ∨
  (r.windowMode = false ∧ action = LOCK_SIGNAL ∧ r.state = .Lock ∧ r.state_old = .Lock) ∨
  (r.windowMode = false ∧ action = UNLOCK_SIGNAL ∧ r.state = .Unlock ∧ r.state_old = .Unlock)

/-- The frame has no code of the window, or it repeats the code the receiver stands at
and is then refused by the clock check or idle. -/
def Receiver.Ignores (r : Receiver) (message : struct_message) (tv_now : timeval) : Prop :=
  ¬ r.rollingCode.InWindow message.rollingCode ∨
  (message.rollingCode = r.rollingCode.seed ∧
    (isValidTime tv_now.micros message.tv_now.micros = false ∨ r.Idle message.action))

end KeyFob
