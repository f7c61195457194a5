import Mathlib.Logic.Function.Iterate
import Mathlib.Data.Nat.Notation

/-!
# The `RollingCode` class

`RollingCode.h`, one header shared by both sketches and the host tests: a linear
congruential generator whose arithmetic is that of `unsigned long`, so modulo
`2 ^ w` before the reduction by `m`. The width `w` is 32 on the ESP32 and 64 on the
host the tests run on.

A zero modulus traps in `next`; the field `m_pos` keeps it out.
-/

namespace KeyFob

/-- `unsigned long` on a target where it has `w` bits. -/
abbrev ULong (w : ℕ) := BitVec w

/-- How many codes past its own position a receiver searches. -/
def SEARCH_LIMIT : ℕ := 100

/-- The state of a rolling code generator. -/
structure RollingCode (w : ℕ) where
  seed : ULong w
  m : ULong w
  a : ULong w
  c : ULong w
  m_pos : 0 < m
  deriving DecidableEq

namespace RollingCode

variable {w : ℕ}

/-- The constructor called with a seed only, on the parameters `calculateMCA.py` gave:
on any width that holds the default modulus. -/
def ofSeed (s : ULong w) (hm : 0 < (4152143978 : ULong w) := by decide) : RollingCode w where
  seed := s
  m := 4152143978
  a := 9554
  c := 5903
  m_pos := hm

def getSeed (rc : RollingCode w) : ULong w := rc.seed

/-- One step of the generator. The C++ method also returns the new seed. -/
def next (rc : RollingCode w) : RollingCode w :=
  { rc with seed := (rc.a * rc.seed + rc.c) % rc.m }

/-- The `for` loop of `matches` with `n` passes left: the seed found, if any. -/
def search (code : ULong w) : ℕ → RollingCode w → Option (ULong w)
  | 0, _ => none
  | n + 1, tempCode =>
    if tempCode.getSeed = code then some tempCode.getSeed
    else search code n tempCode.next

/-- `matches` on a copy of the generator: the answer, and the generator afterwards,
moved to the code it found. The loop runs for `i = 0, ..., SEARCH_LIMIT`. -/
def «matches» (rc : RollingCode w) (code : ULong w) : Bool × RollingCode w :=
  match search code (SEARCH_LIMIT + 1) rc with
  | some s => (true, { rc with seed := s })
  | none => (false, rc)

/-- The code the generator is at after `n` more calls of `next`. -/
def code (rc : RollingCode w) (n : ℕ) : ULong w := (next^[n] rc).getSeed

/-- `code` is one of those a receiver at `rc` searches. -/
def InWindow (rc : RollingCode w) (code : ULong w) : Prop :=
  ∃ k, k ≤ SEARCH_LIMIT ∧ rc.code k = code

instance (rc : RollingCode w) (code : ULong w) : Decidable (rc.InWindow code) :=
  inferInstanceAs (Decidable (∃ k, k ≤ SEARCH_LIMIT ∧ rc.code k = code))

end RollingCode

/-- The global `rollingCode` of both sketches, as the ESP32 build starts with it. -/
def deployed : RollingCode 32 := .ofSeed 237461

/-- The recurrence the header states, over the integers. -/
def recurrence (m a c x : ℕ) : ℕ → ℕ
  | 0 => x
  | n + 1 => (a * recurrence m a c x n + c) % m

end KeyFob
