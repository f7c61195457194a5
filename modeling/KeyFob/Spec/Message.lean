import KeyFob.Spec.RollingCode

/-!
# What the two sketches share

The signal numbers, the message, and the clock arithmetic. `unsigned long` is 32 bits
on the ESP32. `tv_sec` is taken as 64 bits, which covers a 32-bit `time_t` too, and
the `int64_t` arithmetic wraps.
-/

namespace KeyFob

abbrev Byte := BitVec 8

/-- `unlock command` -/
def UNLOCK_SIGNAL : Byte := 0
/-- `lock command` -/
def LOCK_SIGNAL : Byte := 1
/-- `toggle to window mode command` -/
def WINDOW_SIGNAL : Byte := 2
/-- `roll up window command` -/
def WINDOW_UP_SIGNAL : Byte := 3
/-- `roll down window command` -/
def WINDOW_DOWN_SIGNAL : Byte := 4

/-- `struct timeval`, as `gettimeofday` fills it. -/
structure timeval where
  tv_sec : BitVec 64
  tv_usec : BitVec 32
  deriving DecidableEq

/-- The structure the fob sends. -/
structure struct_message where
  tv_now : timeval
  rollingCode : ULong 32
  action : Byte
  deriving DecidableEq

/-- `(int64_t)tv_sec * 1000000L + (int64_t)tv_usec` -/
def timeval.micros (tv : timeval) : BitVec 64 :=
  tv.tv_sec * 1000000 + tv.tv_usec.signExtend 64

/-- `isValidTime`, on two times in microseconds. The subtraction is that of the source,
so a frame from the past gives a negative difference. -/
def isValidTime (thisTime otherTime : BitVec 64) : Bool :=
  let minute : BitVec 64 := 60 * 1000000
  (otherTime - thisTime).slt minute

inductive Level where
  | LOW
  | HIGH
  deriving DecidableEq

end KeyFob
