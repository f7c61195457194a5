import KeyFob.Lib.Program
import KeyFob.Spec.Sender

/-!
# The debug build of the fob

`ESP32_Sender.ino` with the constant `S_DEBUG` as a parameter: in the debug build `loop`
ends with a command from the serial line. What the commands print is left out.
-/

namespace KeyFob

/-- What `Serial.readString` returns, and the clock when it does. -/
structure Typed where
  text : String
  clock : timeval

/-- The board, and what will be typed. -/
structure Bench where
  board : Board
  typed : List Typed

/-- The code of either build. -/
abbrev Build := EStateM Stop Bench

namespace Build

/-- The code that both builds share. -/
def onBoard {α : Type} (x : Sketch α) : Build α :=
  Program.within Bench.board (fun b board => { b with board := board }) x

def readString : Build String := fun b =>
  match b.typed with
  | [] => .error .historyEnded b
  | t :: rest => .ok t.text { board := { b.board with clock := t.clock }, typed := rest }

/-- `gettimeofday(&tv_now, NULL)` -/
def gettimeofday : Sketch Unit := fun b =>
  .ok () { b with fob := { b.fob with tv_now := b.clock } }

def runDebug (esp_now_send : Radio) : Build Unit := do
  let cmd ← readString
  -- the result is printed
  if cmd = "L" then discard (onBoard (Sketch.sendSignal esp_now_send LOCK_SIGNAL))
  else if cmd = "U" then discard (onBoard (Sketch.sendSignal esp_now_send UNLOCK_SIGNAL))
  else if cmd = "T" then onBoard gettimeofday
  -- `T2` reads the time into variables of its own
  else pure ()

def loop (S_DEBUG : Bool) (esp_now_send : Radio) : Build Unit := do
  onBoard (Sketch.loop esp_now_send)
  if S_DEBUG then runDebug esp_now_send

end Build

/-- **The fob of either build** over a history and what is typed. Each pass of `loop`
takes a sample. -/
def Fob.runBuild (S_DEBUG : Bool) (esp_now_send : Radio) (history : List Sample)
    (typed : List Typed) : EStateM.Result Stop Bench Unit :=
  Program.repeatUpTo (Build.loop S_DEBUG esp_now_send) .outOfFuel (history.length + 1)
    { board := { fob := Fob.boot, clock := { tv_sec := 0, tv_usec := 0 }, history := history }
      typed := typed }

end KeyFob
