import KeyFob.Lib.Machine
import Mathlib.Data.Nat.Notation

/-!
# The servo library

The class `Servo` of `ESP32Servo`, which the sketch includes, as a parameter, and what the
library documents of it.
-/

namespace KeyFob

/-- A call to a servo. -/
inductive ServoCall where
  | setPeriodHertz (hertz : ℕ)
  | attach (pin min max : ℕ)
  | write (angle : ℕ)
  deriving DecidableEq

/-- The class `Servo`: a servo as it is declared, and its functions. -/
structure ServoLibrary (σ : Type) where
  Servo : σ
  setPeriodHertz : σ → ℕ → σ
  attach : σ → ℕ → ℕ → ℕ → σ
  write : σ → ℕ → σ
  attached : σ → Bool
  read : σ → ℕ

/-- Control pin for the lock servo. -/
def SERVO_LK : ℕ := 27

/-- Control pin for the window servo. -/
def SERVO_WND : ℕ := 25

namespace ServoLibrary

variable {σ : Type} (L : ServoLibrary σ)

def machine : Machine σ ServoCall where
  init := L.Servo
  step := fun s c => match c with
    | .setPeriodHertz hertz => L.setPeriodHertz s hertz
    | .attach pin min max => L.attach s pin min max
    | .write angle => L.write s angle

/-- The angle to which a call drives the servo. One that is not attached has no pin. -/
def drive (s : σ) : ServoCall → Option ℕ
  | .write angle => if L.attached s then some (L.read (L.write s angle)) else none
  | _ => none

/-- The angles to which the calls drive the servo. -/
def driven (cs : List ServoCall) : List ℕ := L.machine.labels L.drive L.machine.init cs

/-- **What the library documents**, as far as it is used. A servo is attached once `attach` has
been called on a pin with PWM, as both pins of the sketch are, and not before; one that is
attached takes up the angle written to it. Nothing is said of what else a write to a servo
that is not attached does. -/
structure Documented : Prop where
  attached_servo : L.attached L.Servo = false
  attached_setPeriodHertz : ∀ s hertz, L.attached (L.setPeriodHertz s hertz) = L.attached s
  attached_write : ∀ s angle, L.attached (L.write s angle) = L.attached s
  attached_attach : ∀ s pin, pin ∈ [SERVO_LK, SERVO_WND] → L.attached (L.attach s pin 500 2400) = true
  read_write : ∀ s angle, L.attached s = true → angle ≤ 180 → L.read (L.write s angle) = angle

end ServoLibrary

end KeyFob
