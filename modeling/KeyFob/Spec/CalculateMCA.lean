import Mathlib.Data.Finset.Insert
import Mathlib.Data.Nat.Prime.Defs
import Mathlib.Data.Finset.Filter
import Mathlib.Order.Interval.Finset.Nat
import KeyFob.Lib.Lcg

/-!
# The parameter script

`calculateMCA.py`: it draws a modulus, collects the numbers below 10000 it takes for
increments and multipliers, and draws one of each. The progress output is left out.

A `while` loop gets a number of passes; `outOfFuel` means that they did not suffice.
What the random number generator returns is an argument.
-/

namespace KeyFob.CalculateMCA

/-- Python's `range(start, stop, step)`. -/
def pyRange (start stop step : ℕ) : List ℕ :=
  List.range' start ((stop - start + step - 1) / step) step

/-- Highest common factor -/
def hcf (x y : ℕ) : ℕ :=
  let smaller := if x > y then y else x
  (pyRange 1 (smaller + 1) 1).foldl (fun h i => if x % i = 0 ∧ y % i = 0 then i else h) 0

/-- How a `while` loop of `calculate_prime_factors` ends: in its `return`, or with `N`
no longer divisible. -/
inductive Division where
  | returned
  | left (N : ℕ)
  | outOfFuel
  deriving DecidableEq

/-- `while N % factor == 0: N = N // factor; if N == 1: return`, at most so many passes. -/
def divideOut (factor : ℕ) : ℕ → ℕ → Division
  | 0, _ => .outOfFuel
  | fuel + 1, N =>
    if N % factor = 0 then
      if N / factor = 1 then .returned else divideOut factor fuel (N / factor)
    else .left N

/-- What a call of `calculate_prime_factors` gives: the set, or `None` when the `for`
loop comes to its end. -/
inductive Call where
  | returned (prime_factors : Finset ℕ)
  | none
  | outOfFuel
  deriving DecidableEq

/-- The `for` loop over the factors still to try. -/
def forFactors (fuel : ℕ) : List ℕ → ℕ → Finset ℕ → Call
  | [], _, _ => .none
  | factor :: rest, N, prime_factors =>
    if N % factor = 0 then
      match divideOut factor fuel N with
      | .returned => .returned (insert factor prime_factors)
      | .left N => forFactors fuel rest N (insert factor prime_factors)
      | .outOfFuel => .outOfFuel
    else forFactors fuel rest N prime_factors

def calculate_prime_factors (fuel N : ℕ) : Call :=
  let prime_factors : Finset ℕ := if N % 2 = 0 then {2} else ∅
  match divideOut 2 fuel N with
  | .returned => .returned prime_factors
  -- the range is fixed here, while the loop divides `N` down
  | .left N => forFactors fuel (pyRange 3 (N + 1) 2) N prime_factors
  | .outOfFuel => .outOfFuel

/-- What stops the script before its final `print`. -/
inductive Failure where
  | IndexError
  | ValueError
  | TypeError
  | outOfFuel
  deriving DecidableEq

structure Options where
  options_c : List ℕ
  options_a : List ℕ
  deriving DecidableEq

/-- The body of the main loop for one `i`. The loop over `prime_factors` clears `b` at
the first factor that does not divide `i`, in whatever order it meets them. -/
def candidate (fuel m : ℕ) (o : Options) (i : ℕ) : Except Failure Options :=
  if hcf i m = 1 then .ok { o with options_c := o.options_c ++ [i] }
  else
    match calculate_prime_factors fuel i with
    | .returned prime_factors =>
      if ∀ n ∈ prime_factors, i % n = 0 then
        if m % 4 = 0 ∧ i % 4 = 0 then .ok { o with options_a := o.options_a ++ [i] }
        else if m % 4 ≠ 0 ∧ i % 4 ≠ 0 then .ok { o with options_a := o.options_a ++ [i] }
        else .ok o
      else .ok o
    -- `None` is not iterable
    | .none => .error .TypeError
    | .outOfFuel => .error .outOfFuel

def options (fuel m : ℕ) : Except Failure Options :=
  (pyRange 1 10000 1).foldlM (candidate fuel m) { options_c := [], options_a := [] }

/-- **What one call of `randint` draws**: from each non-empty range `1, ..., n` one of
its numbers. -/
structure Draw where
  value : ℕ → ℕ
  in_range : ∀ n, 1 ≤ n → 1 ≤ value n ∧ value n ≤ n

/-- `randint(1, n)` -/
def randint (d : Draw) (n : ℕ) : Except Failure ℕ :=
  if n < 1 then .error .ValueError else .ok (d.value n)

/-- `xs[i]` -/
def index (xs : List ℕ) (i : ℕ) : Except Failure ℕ :=
  match xs[i]? with
  | some x => .ok x
  | none => .error .IndexError

/-- The numbers of the final `print`. -/
structure Printed where
  m : ℕ
  c : ℕ
  a : ℕ
  deriving DecidableEq

/-- **The script**, with what its three calls of `randint` draw. -/
def main (fuel : ℕ) (d₀ d₁ d₂ : Draw) : Except Failure Printed := do
  let m ← randint d₀ 4294967295
  let o ← options fuel m
  let t1 ← randint d₁ o.options_a.length
  let r_a ← index o.options_a t1
  let t2 ← randint d₂ o.options_c.length
  let r_c ← index o.options_c t2
  return { m := m, c := r_c, a := r_a }

/-! ## What the header demands -/

/-- **The conditions of the header** on the parameters, and what they are for: from
every start value the recurrence runs through all values below `m` and comes back. -/
structure Printed.Demanded (p : Printed) : Prop where
  coprime : Nat.gcd p.c p.m = 1
  factors : ∀ q, q.Prime → q ∣ p.m → q ∣ p.a - 1
  four : 4 ∣ p.m → 4 ∣ p.a - 1
  period : ∀ x < p.m, Lcg.FullPeriod p.m p.a p.c x

/-- The numbers that the script keeps for `c`. -/
def increments (m : ℕ) : Finset ℕ := (Finset.Ico 1 10000).filter fun i => Nat.gcd i m = 1

/-- The numbers that the script keeps for `a`: those that share a factor with `m`, and
are divisible by 4 like it or unlike 4 like it. -/
def multipliers (m : ℕ) : Finset ℕ :=
  (Finset.Ico 1 10000).filter fun i => Nat.gcd i m ≠ 1 ∧ (4 ∣ i ↔ 4 ∣ m)

/-- `k`, or the nearest number of the range. -/
def Draw.nearest (k : ℕ) : Draw where
  value := fun n => max 1 (min k n)
  in_range := fun _ hn => ⟨le_max_left _ _, max_le hn (min_le_right _ _)⟩

/-- The highest number of the range. -/
def Draw.highest : Draw where
  value := fun n => n
  in_range := fun _ hn => ⟨hn, le_rfl⟩

end KeyFob.CalculateMCA
