import Mathlib.Data.Nat.Notation

/-!
# Programs that act on a state and may stop

* `Meets P x Q E`: called in a state of `P`, the program `x` returns with `Q` or stops
  with `E`. One rule for each way to put programs together.
* `repeatUpTo`: a program called again and again. With a measure that every call lowers,
  it does not use up its passes (`meets_repeat`).
* `within`: a program on a part of the state.
-/

namespace Program

variable {σ τ ε α β : Type}

/-- **What a program does** from the states of `P`. -/
def Meets (P : σ → Prop) (x : EStateM ε σ α) (Q : α → σ → Prop) (E : ε → σ → Prop) : Prop :=
  ∀ s, P s → match x s with
    | .ok a s' => Q a s'
    | .error e s' => E e s'

variable {P P' : σ → Prop} {x : EStateM ε σ α} {Q Q' : α → σ → Prop} {E E' : ε → σ → Prop}

theorem meets_conseq (h : Meets P x Q E) (hP : ∀ s, P' s → P s) (hQ : ∀ a s, Q a s → Q' a s)
    (hE : ∀ e s, E e s → E' e s) : Meets P' x Q' E' := by
  intro s hs
  have hx := h s (hP s hs)
  cases hr : x s with
  | ok a s' =>
    rw [hr] at hx
    exact hQ a s' hx
  | error e s' =>
    rw [hr] at hx
    exact hE e s' hx

theorem meets_pure (a : α) : Meets (Q a) (pure a : EStateM ε σ α) Q E := fun _ hs => hs

/-- **One program after another.** -/
theorem meets_bind {f : α → EStateM ε σ β} {R : β → σ → Prop} (hx : Meets P x Q E)
    (hf : ∀ a, Meets (Q a) (f a) R E) : Meets P (x >>= f) R E := by
  intro s hs
  have h := hx s hs
  change match EStateM.bind x f s with
    | .ok b s' => R b s'
    | .error e s' => E e s'
  unfold EStateM.bind
  cases hr : x s with
  | ok a s' =>
    rw [hr] at h
    exact hf a s' h
  | error e s' =>
    rw [hr] at h
    exact h

/-- **A program whose result nobody reads.** -/
theorem meets_discard {R : σ → Prop} (hx : Meets P x (fun _ => R) E) :
    Meets P (discard x) (fun _ => R) E := by
  intro s hs
  have h := hx s hs
  have hmap : discard x s = EStateM.map (fun _ => PUnit.unit) x s := rfl
  rw [hmap]
  unfold EStateM.map
  cases hr : x s with
  | ok a s' =>
    rw [hr] at h
    exact h
  | error e s' =>
    rw [hr] at h
    exact h

theorem meets_ite {c : Prop} [Decidable c] {y : EStateM ε σ α} (hx : c → Meets P x Q E)
    (hy : ¬ c → Meets P y Q E) : Meets P (if c then x else y) Q E := by
  by_cases hc : c
  · rw [if_pos hc]
    exact hx hc
  · rw [if_neg hc]
    exact hy hc

/-! ## Repetition -/

/-- `body` again and again, at most so many times. -/
def repeatUpTo (body : EStateM ε σ Unit) (outOfPasses : ε) : ℕ → EStateM ε σ Unit
  | 0 => throw outOfPasses
  | n + 1 => do
    body
    repeatUpTo body outOfPasses n

/-- **A body that lowers a measure** stops before the passes are used up. -/
theorem meets_repeat {body : EStateM ε σ Unit} {e : ε} {I : σ → Prop} (size : σ → ℕ)
    (hbody : ∀ k, Meets (fun s => I s ∧ size s = k) body (fun _ s => I s ∧ size s < k) E) :
    ∀ n, Meets (fun s => I s ∧ size s < n) (repeatUpTo body e n) (fun _ _ => False) E := by
  intro n
  induction n with
  | zero =>
    intro s hs
    exact absurd hs.2 (Nat.not_lt_zero _)
  | succ n ih =>
    intro s hs
    have hrest : Meets (fun s' => I s' ∧ size s' < size s) (repeatUpTo body e n)
        (fun _ _ => False) E :=
      meets_conseq ih (fun s' h => ⟨h.1, Nat.lt_of_lt_of_le h.2 (Nat.le_of_lt_succ hs.2)⟩)
        (fun _ _ h => h) (fun _ _ h => h)
    exact meets_bind (hbody (size s)) (fun _ => hrest) s ⟨hs.1, rfl⟩

/-! ## Part of a state -/

/-- A program on the part that `get` reads and `set` replaces. -/
def within (get : τ → σ) (set : τ → σ → τ) (x : EStateM ε σ α) : EStateM ε τ α := fun t =>
  match x (get t) with
  | .ok a s => .ok a (set t s)
  | .error e s => .error e (set t s)

/-- Parts of a state that behave like fields: programs on them are put together there. -/
theorem within_bind {get : τ → σ} {set : τ → σ → τ} (hget : ∀ t s, get (set t s) = s)
    (hset : ∀ t s s', set (set t s) s' = set t s') (x : EStateM ε σ α) (f : α → EStateM ε σ β) :
    within get set (x >>= f) = within get set x >>= fun a => within get set (f a) := by
  funext t
  change within get set (EStateM.bind x f) t = EStateM.bind (within get set x) _ t
  unfold within EStateM.bind
  cases hr : x (get t) with
  | ok a s =>
    simp only [hr, hget]
    cases f a s with
    | ok b s' => simp only [hset]
    | error e s' => simp only [hset]
  | error e s => simp only [hr]

theorem meets_within {get : τ → σ} {set : τ → σ → τ} {P' : τ → Prop} {Q' : α → τ → Prop}
    {E' : ε → τ → Prop}
    (h : ∀ t, P' t →
      Meets (fun s => s = get t) x (fun a s => Q' a (set t s)) fun e s => E' e (set t s)) :
    Meets P' (within get set x) Q' E' := by
  intro t ht
  have hx := h t ht (get t) rfl
  unfold within
  cases hr : x (get t) with
  | ok a s =>
    rw [hr] at hx
    exact hx
  | error e s =>
    rw [hr] at hx
    exact hx

end Program
