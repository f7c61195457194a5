import KeyFob.Lib.Machine
import KeyFob.Spec.Message

/-!
# The light server

`ServerMain.py`: a page that switches the LED of the board. Each pass of its loop handles
one connection, and each call on a socket may raise an `OSError`. The set-up of the access
point and what is printed are left out.
-/

namespace KeyFob.LightServer

open Level

/-! ## Python's strings -/

/-- The character with the code of a byte. -/
def chr (b : Byte) : Char := Char.ofNat b.toNat

/-- A byte in the string of a `bytes` object between quotes `q`. -/
def escape (q : Char) (b : Byte) : List Char :=
  if chr b = q ∨ chr b = '\\' then ['\\', chr b]
  else if 32 ≤ b.toNat ∧ b.toNat < 127 then [chr b]
  else if b = 10 then ['\\', 'n']
  else if b = 13 then ['\\', 'r']
  else if b = 9 then ['\\', 't']
  else ['\\', 'x', Nat.digitChar (b.toNat / 16), Nat.digitChar (b.toNat % 16)]

/-- Double quotes if there is a single one and no double one inside. -/
def quote (request : List Byte) : Char :=
  if 39 ∈ request ∧ 34 ∉ request then chr 34 else chr 39

/-- `str(request)` -/
def str (request : List Byte) : List Char :=
  'b' :: quote request :: (request.flatMap (escape (quote request)) ++ [quote request])

/-- `s.find(sub)`: the first place where `sub` is found, or -1. -/
def find (s sub : List Char) : ℤ :=
  match (List.range (s.length + 1)).find? fun i => sub.isPrefixOf (s.drop i) with
  | some i => i
  | none => -1

/-- The path `/light/` and a word. -/
def light (word : List Char) : List Char := ['/', 'l', 'i', 'g', 'h', 't', '/'] ++ word

def on : List Char := ['o', 'n']

def off : List Char := ['o', 'f', 'f']

/-! ## The loop -/

/-- The text on the page: `LED is ON` or `LED is OFF`. -/
inductive Stateis where
  | ON
  | OFF
  deriving DecidableEq

/-- The LED, whether `cl` is bound, the pages sent, and whether the program still runs. -/
structure Server where
  led : Level
  cl : Bool
  pages : List Stateis
  running : Bool
  deriving DecidableEq

/-- What the calls of one pass do: whether `accept`, the two `send`s, `close` and the
`close` of the handler return, and what `recv` returns if it does. -/
structure Pass where
  accept : Bool
  recv : Option (List Byte)
  send : Bool
  sendPage : Bool
  close : Bool
  closeAgain : Bool

namespace Server

/-- `except OSError`. Without a client this is a `NameError`, which nothing catches, as
nothing catches an error of the second `close`. -/
def handler (s : Server) (p : Pass) : Server :=
  if s.cl ∧ p.closeAgain then s else { s with running := false }

/-- From the request to the state on the page. -/
def switch (s : Server) (request : List Byte) : Server × Stateis :=
  let led_on := find (str request) (light on)
  let led_off := find (str request) (light off)
  let (s, stateis) := if led_on = 6 then ({ s with led := HIGH }, Stateis.ON) else (s, Stateis.OFF)
  if led_off = 6 then ({ s with led := LOW }, Stateis.OFF) else (s, stateis)

/-- One pass of `while True`. -/
def pass (s : Server) (p : Pass) : Server :=
  if s.running then
    if p.accept then
      let s := { s with cl := true }
      match p.recv with
      | none => s.handler p
      | some request =>
        let (s, stateis) := s.switch request
        if p.send then
          if p.sendPage then
            let s := { s with pages := s.pages ++ [stateis] }
            if p.close then s else s.handler p
          else s.handler p
        else s.handler p
    else s.handler p
  else s

end Server

def machine : Machine Server Pass where
  init := { led := LOW, cl := false, pages := [], running := true }
  step := Server.pass

/-- The request that a pass receives. -/
def Server.received (s : Server) (p : Pass) : Option (List Byte) :=
  if s.running ∧ p.accept then p.recv else none

/-- The requests received in a run. -/
def requests (ps : List Pass) : List (List Byte) := machine.labels Server.received machine.init ps

/-- The request whose page a pass sends. -/
def Server.answered (s : Server) (p : Pass) : Option (List Byte) :=
  if p.send ∧ p.sendPage then s.received p else none

/-- The requests whose pages were sent in a run. -/
def answers (ps : List Pass) : List (List Byte) := machine.labels Server.answered machine.init ps

/-- **What switches the LED.** The path, after bytes that take four characters. -/
def Asks (word : List Char) (request : List Byte) : Prop :=
  ∃ before path rest, request = before ++ path ++ rest ∧ path.map chr = light word ∧
    (before.flatMap (escape (quote request))).length = 4

/-- Some request asks for on, and none after it for off. -/
def Lit (requests : List (List Byte)) : Prop :=
  ∃ earlier request later, requests = earlier ++ request :: later ∧ Asks on request ∧
    ∀ r ∈ later, ¬ Asks off r

/-- Some call of the pass raises an `OSError`. -/
def Pass.Raises (p : Pass) : Prop :=
  p.accept = false ∨ p.recv = none ∨ p.send = false ∨ p.sendPage = false ∨ p.close = false

end KeyFob.LightServer
