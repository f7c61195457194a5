import Mathlib.Data.List.Infix

/-!
# Deterministic machines and their runs

A machine has an initial state and says what one event does to a state. A run is
a list of events.

* `Along A s es`: the condition `A` holds of every state and event met on the run.
* `along_of_inv`: an invariant carried under the condition `A` turns `A` along a
  run into any consequence `B` along the same run.
* `forall_prefix_iff`: a property of every prefix of a run against a condition on every
  event of it.
* `Refines.run`: a relation kept by every step is kept by whole runs, where one
  concrete event is one abstract event or none.
-/

/-- A deterministic machine: its initial state and what one event does. -/
structure Machine (σ ε : Type*) where
  init : σ
  step : σ → ε → σ

namespace Machine

variable {σ ε τ δ : Type*} (M : Machine σ ε)

/-- The state after the events `es` from `s`. -/
def runFrom (s : σ) (es : List ε) : σ := es.foldl M.step s

/-- The state after the events `es`. -/
def run (es : List ε) : σ := M.runFrom M.init es

@[simp] theorem runFrom_nil (s : σ) : M.runFrom s [] = s := rfl

@[simp] theorem runFrom_cons (s : σ) (e : ε) (es : List ε) :
    M.runFrom s (e :: es) = M.runFrom (M.step s e) es := rfl

theorem runFrom_append (s : σ) (es es' : List ε) :
    M.runFrom s (es ++ es') = M.runFrom (M.runFrom s es) es' := by
  simp [runFrom]

theorem run_concat (es : List ε) (e : ε) : M.run (es ++ [e]) = M.step (M.run es) e := by
  simp [run, runFrom]

/-- **The condition `A` along a run**: it holds of each event and of the state the
event arrives in. -/
def Along (A : σ → ε → Prop) : σ → List ε → Prop
  | _, [] => True
  | s, e :: es => A s e ∧ Along A (M.step s e) es

instance decidableAlong (A : σ → ε → Prop) [∀ s e, Decidable (A s e)] :
    ∀ s es, Decidable (M.Along A s es)
  | _, [] => isTrue trivial
  | s, e :: es =>
    have := decidableAlong A (M.step s e) es
    inferInstanceAs (Decidable (A s e ∧ M.Along A (M.step s e) es))

variable {M} {A B : σ → ε → Prop} {I : σ → Prop}

@[simp] theorem along_nil (s : σ) : M.Along A s [] := trivial

theorem along_of_forall (h : ∀ s e, A s e) (es : List ε) : ∀ s : σ, M.Along A s es := by
  induction es with
  | nil => intro s; trivial
  | cons e es ih => intro s; exact ⟨h s e, ih _⟩

/-- A condition on the events alone. -/
theorem along_of_mem {P : ε → Prop} {es : List ε} : ∀ {s : σ}, (∀ e ∈ es, P e) →
    M.Along (fun _ e => P e) s es := by
  induction es with
  | nil => intro s _; trivial
  | cons e es ih =>
    intro s hP
    exact ⟨hP e List.mem_cons_self, ih fun x hx => hP x (List.mem_cons_of_mem e hx)⟩

/-- **The invariant rule**, for the steps that meet the condition `A`. -/
theorem inv_runFrom (hstep : ∀ s e, I s → A s e → I (M.step s e)) {es : List ε} :
    ∀ {s : σ}, I s → M.Along A s es → I (M.runFrom s es) := by
  induction es with
  | nil => intro s hs _; exact hs
  | cons e es ih => intro s hs h; exact ih (hstep s e hs h.1) h.2

/-- The invariant rule when every step keeps the invariant. -/
theorem inv_run (hinit : I M.init) (hstep : ∀ s e, I s → I (M.step s e)) (es : List ε) :
    I (M.run es) := by
  induction es using List.reverseRecOn with
  | nil => exact hinit
  | append_singleton es e ih => rw [run_concat]; exact hstep _ _ ih

/-- **Consequences along a run.** Under an invariant that the condition `A` carries,
whatever the invariant and `A` give at one step holds along the whole run. -/
theorem along_of_inv (hstep : ∀ s e, I s → A s e → I (M.step s e))
    (hgoal : ∀ s e, I s → A s e → B s e) {es : List ε} :
    ∀ {s : σ}, I s → M.Along A s es → M.Along B s es := by
  induction es with
  | nil => intro s _ _; trivial
  | cons e es ih =>
    intro s hs h
    exact ⟨hgoal s e hs h.1, ih (hstep s e hs h.1) h.2⟩

/-! ## Prefixes of a run -/

theorem forall_prefix_concat {P : List ε → Prop} {es : List ε} {e : ε} :
    (∀ pre, pre <+: es ++ [e] → P pre) ↔ P (es ++ [e]) ∧ ∀ pre, pre <+: es → P pre := by
  simp only [List.prefix_concat_iff, forall_eq_or_imp]

theorem forall_event_concat {Q : List ε → ε → Prop} {es : List ε} {e : ε} :
    (∀ pre x, pre ++ [x] <+: es ++ [e] → Q pre x) ↔
      Q es e ∧ ∀ pre x, pre ++ [x] <+: es → Q pre x := by
  refine ⟨?_, ?_⟩
  · intro h
    exact ⟨h es e List.prefix_rfl, fun pre x hpre => h pre x (hpre.trans (List.prefix_append es [e]))⟩
  · rintro ⟨hlast, hall⟩ pre x hpre
    rcases List.prefix_concat_iff.1 hpre with heq | hpre
    · obtain ⟨rfl, hx⟩ := List.append_inj' heq rfl
      obtain rfl : x = e := by simpa using hx
      exact hlast
    · exact hall pre x hpre

/-- **Every prefix against every event.** If the property `P`, where the condition `Q`
held so far, holds after one more event exactly when `Q` holds of it, then `P` holds
throughout a run exactly when `Q` does. -/
theorem forall_prefix_iff {P : List ε → Prop} {Q : List ε → ε → Prop} (hnil : P []) {run : List ε}
    (hstep : ∀ es e, es ++ [e] <+: run → (∀ pre x, pre ++ [x] <+: es → Q pre x) → P es →
      (P (es ++ [e]) ↔ Q es e)) :
    (∀ pre, pre <+: run → P pre) ↔ ∀ pre x, pre ++ [x] <+: run → Q pre x := by
  induction run using List.reverseRecOn with
  | nil =>
    refine ⟨?_, ?_⟩
    · intro _ pre x hpre
      exact absurd (List.prefix_nil.1 hpre) (by simp)
    · intro _ pre hpre
      rw [List.prefix_nil.1 hpre]
      exact hnil
  | append_singleton es e ih =>
    have hes := ih fun pre x hpre => hstep pre x (hpre.trans (List.prefix_append es [e]))
    have hlast := hstep es e List.prefix_rfl
    rw [forall_prefix_concat, forall_event_concat]
    refine ⟨?_, ?_⟩
    · rintro ⟨hP, hall⟩
      have hQ := hes.1 hall
      exact ⟨(hlast hQ (hall es List.prefix_rfl)).1 hP, hQ⟩
    · rintro ⟨hQ, hbefore⟩
      have hall := hes.2 hbefore
      exact ⟨(hlast hbefore (hall es List.prefix_rfl)).2 hQ, hall⟩

/-! ## Refinement -/

/-- **`M` refines `N` up to `R`**: a step of `M` is the step of `N` on the event
`lab` reads off it, or no step of `N`. The invariant `I` of `M` and the condition
`A` on its events may be used. -/
structure Refines (M : Machine σ ε) (N : Machine τ δ) (A : σ → ε → Prop)
    (lab : σ → ε → Option δ) (R : σ → τ → Prop) : Prop where
  init : R M.init N.init
  step : ∀ s t e, R s t → A s e → R (M.step s e) ((lab s e).elim t (N.step t))

/-- The abstract events of a run. -/
def labels (M : Machine σ ε) (lab : σ → ε → Option δ) : σ → List ε → List δ
  | _, [] => []
  | s, e :: es => (lab s e).toList ++ labels M lab (M.step s e) es

theorem labels_append (lab : σ → ε → Option δ) (es es' : List ε) : ∀ s : σ,
    M.labels lab s (es ++ es') = M.labels lab s es ++ M.labels lab (M.runFrom s es) es' := by
  induction es with
  | nil => intro s; rfl
  | cons e es ih => intro s; simp [labels, ih]

/-- The abstract event of one more step. -/
theorem labels_concat (lab : σ → ε → Option δ) (s : σ) (es : List ε) (e : ε) :
    M.labels lab s (es ++ [e]) = M.labels lab s es ++ (lab (M.runFrom s es) e).toList := by
  rw [labels_append]
  simp [labels]

/-- Where every event is one abstract event, a run is mapped. -/
theorem labels_map (f : ε → δ) (es : List ε) : ∀ s : σ,
    M.labels (fun _ e => some (f e)) s es = es.map f := by
  induction es with
  | nil => intro s; rfl
  | cons e es ih => intro s; rw [labels, ih]; rfl

theorem Refines.runFrom {N : Machine τ δ} {lab : σ → ε → Option δ} {R : σ → τ → Prop}
    (h : Refines M N A lab R) {es : List ε} : ∀ {s : σ} {t : τ}, R s t → M.Along A s es →
      R (M.runFrom s es) (N.runFrom t (M.labels lab s es)) := by
  induction es with
  | nil => intro s t hR _; exact hR
  | cons e es ih =>
    intro s t hR hA
    have hR' := h.step s t e hR hA.1
    simp only [labels, runFrom_append, runFrom_cons]
    cases hl : lab s e with
    | none => rw [hl] at hR'; exact ih hR' hA.2
    | some a => rw [hl] at hR'; exact ih hR' hA.2

/-- **A step-wise refinement refines whole runs.** -/
theorem Refines.run {N : Machine τ δ} {lab : σ → ε → Option δ} {R : σ → τ → Prop}
    (h : Refines M N A lab R) {es : List ε} (hA : M.Along A M.init es) :
    R (M.run es) (N.run (M.labels lab M.init es)) :=
  h.runFrom h.init hA

end Machine
