import KeyFob.Proof.Brackets
import KeyFob.Proof.Deployed
import KeyFob.Proof.Fob
import KeyFob.Spec.System

/-!
# Replayed frames

* `Receiver.advance`: a frame with code `l` takes a receiver at code `p` to a later
  code, the same as code `l` if the frame is in the window.
* `replay_refused_iff`: a frame that was acted upon is refused from then on exactly
  while it is one of the first 28 and the receiver no longer stands at its code.
-/

namespace KeyFob

open RollingCode

variable {s : System} {r : Receiver} {f : struct_message} {clock : timeval} {p l : ℕ}

/-- The receiver stands at code `p` of the generator. -/
def Receiver.At (r : Receiver) (p : ℕ) : Prop :=
  r.rollingCode = deployed.moveTo (deployed.code p)

theorem Receiver.inWindow_iff (hr : r.At p) (hf : f.rollingCode = deployed.code l) :
    r.rollingCode.InWindow f.rollingCode ↔
      ∃ k, k ≤ SEARCH_LIMIT ∧ deployed.code (p + k) = deployed.code l := by
  rw [hr, hf, inWindow_moveTo]

/-- **One frame moves the receiver forward**, to the code of the frame if it finds it. -/
theorem Receiver.advance (hr : r.At p) (hf : f.rollingCode = deployed.code l) (clock : timeval) :
    ∃ p', p ≤ p' ∧ (r.OnDataRecv f clock).At p' ∧
      (r.rollingCode.InWindow f.rollingCode → deployed.code p' = deployed.code l) := by
  by_cases hwin : r.rollingCode.InWindow f.rollingCode
  · obtain ⟨k, -, hk⟩ := (Receiver.inWindow_iff hr hf).1 hwin
    refine ⟨p + k, Nat.le_add_right p k, ?_, fun _ => hk⟩
    unfold Receiver.At
    rw [OnDataRecv_rollingCode, matches_snd, if_pos hwin, hr, moveTo_moveTo, hf, hk]
  · refine ⟨p, le_rfl, ?_, fun h => absurd h hwin⟩
    unfold Receiver.At
    rw [OnDataRecv_rollingCode, matches_snd, if_neg hwin, hr]

/-! ## The invariant of the open channel -/

theorem System.step_unsent {i : ℕ} (hf : s.fob.sent[i]? = none) :
    s.step (.deliver i clock) = s := by
  simp only [System.step, hf]

theorem System.step_deliver {i : ℕ} (hf : s.fob.sent[i]? = some f) :
    s.step (.deliver i clock) =
      { s with
        receiver := s.receiver.OnDataRecv f clock
        acted := if s.receiver.Accepts f clock then s.acted ++ [i] else s.acted } := by
  simp only [System.step, hf]

/-- The fob sends its codes in order, and the receiver has passed every frame of the
tail that it acted upon. -/
structure System.Reached (s : System) : Prop where
  sends : s.fob.Sends
  passed : ∃ p, s.receiver.At p ∧ ∀ i ∈ s.acted, i + 1 < 29 → i + 1 ≤ p

theorem System.init_reached : System.machine.init.Reached where
  sends := Fob.boot_sends
  passed := ⟨0, rfl, fun _ hi => absurd hi List.not_mem_nil⟩

/-- **One event keeps the invariant.** -/
theorem System.step_reached (h : s.Reached) (e : SystemEvent) : (s.step e).Reached := by
  obtain ⟨hsends, p, hat, hpast⟩ := h
  cases e with
  | press sig clock => exact ⟨Fob.sendSignal_sends hsends sig clock, p, hat, hpast⟩
  | deliver i clock =>
    cases hf : s.fob.sent[i]? with
    | none =>
      rw [System.step_unsent hf]
      exact ⟨hsends, p, hat, hpast⟩
    | some f =>
      obtain ⟨p', hle, hat', hfound⟩ := Receiver.advance hat (hsends.codes i f hf) clock
      rw [System.step_deliver hf]
      refine ⟨hsends, p', hat', fun j hj htail => ?_⟩
      by_cases hacc : s.receiver.Accepts f clock
      · simp only [if_pos hacc, List.mem_append, List.mem_singleton] at hj
        rcases hj with hj | rfl
        · have := hpast j hj htail
          omega
        · -- the frame just accepted: its code is carried by no other index
          have hp' : p' = j + 1 := (deployed_code_tail htail).1 (hfound (accepts_iff.1 hacc).1)
          omega
      · simp only [if_neg hacc] at hj
        have := hpast j hj htail
        omega

theorem System.reached (es : List SystemEvent) : (System.machine.run es).Reached :=
  Machine.inv_run System.init_reached (fun _ e h => System.step_reached h e) es

/-! ## Frames acted upon before -/

/-- A frame acted upon is out of the window exactly when it is one of the first 28 and
the receiver no longer stands at its code. -/
theorem System.replay_outside_iff (h : s.Reached) {i : ℕ} (hi : i ∈ s.acted)
    (hf : s.fob.sent[i]? = some f) : ¬ s.receiver.rollingCode.InWindow f.rollingCode ↔
      i < 28 ∧ s.receiver.rollingCode.seed ≠ f.rollingCode := by
  obtain ⟨hsends, p, hat, hpast⟩ := h
  have hcode := hsends.codes i f hf
  have hseed : s.receiver.rollingCode.seed = deployed.code p := by
    rw [hat, moveTo_seed]
  rw [Receiver.inWindow_iff hat hcode, deployed_reach_iff, hseed, hcode]
  refine ⟨?_, ?_⟩
  · intro hout
    refine ⟨by omega, ?_⟩
    intro heq
    have hidx := (deployed_code_tail (by omega)).1 heq
    omega
  · -- a code of the tail has one index, and the receiver is past it
    rintro ⟨htail, hmoved⟩
    have hle : i + 1 ≤ p := hpast i hi (by omega)
    have hne : p ≠ i + 1 := by
      rintro rfl
      exact hmoved rfl
    omega

/-- The condition under which no repeated delivery gets through: the frames delivered
again are of the first 28, and the receiver has left their code. -/
def System.Stale (s : System) (e : SystemEvent) : Prop :=
  ∀ i clock f, e = .deliver i clock → i ∈ s.acted → s.fob.sent[i]? = some f →
    i < 28 ∧ s.receiver.rollingCode.seed ≠ f.rollingCode

/-- One event under this condition acts upon no frame again. -/
theorem System.step_nodup (h : s.Reached) (hnd : s.acted.Nodup) {e : SystemEvent}
    (hcond : s.Stale e) : (s.step e).acted.Nodup := by
  cases e with
  | press sig clock => exact hnd
  | deliver i clock =>
    cases hf : s.fob.sent[i]? with
    | none => rw [System.step_unsent hf]; exact hnd
    | some f =>
      rw [System.step_deliver hf]
      by_cases hacc : s.receiver.Accepts f clock
      · have hnew : i ∉ s.acted := by
          intro hi
          have hout := (System.replay_outside_iff h hi hf).2 (hcond i clock f rfl hi hf)
          exact hout (accepts_iff.1 hacc).1
        simp only [if_pos hacc]
        rw [← List.concat_eq_append]
        exact hnd.concat hnew
      · simp only [if_neg hacc]
        exact hnd

/-- **When a replay is refused.** In every run, a frame that was acted upon and is
delivered again, its clock check passing, is refused exactly when it is one of the
first 28 frames and the receiver no longer stands at its code. A run whose repeated
deliveries all meet this acts upon no frame twice. -/
theorem replay_refused_iff (es : List SystemEvent) :
    (∀ (i : ℕ) (clock : timeval) (f : struct_message),
      let s := System.machine.run es
      i ∈ s.acted → s.fob.sent[i]? = some f →
      isValidTime clock.micros f.tv_now.micros = true →
      ((¬ s.receiver.Accepts f clock ∧
          (s.receiver.OnDataRecv f clock).control = s.receiver.control) ↔
        i < 28 ∧ s.receiver.rollingCode.seed ≠ f.rollingCode)) ∧
    (System.machine.Along System.Stale System.machine.init es →
      (System.machine.run es).acted.Nodup) := by
  refine ⟨?_, ?_⟩
  · intro i clock f s hi hf hvalid
    rw [← System.replay_outside_iff (System.reached es) hi hf]
    refine ⟨?_, ?_⟩
    · rintro ⟨hacc, -⟩ hwin
      exact hacc (accepts_iff.2 ⟨hwin, hvalid⟩)
    · intro hout
      have hacc : ¬ s.receiver.Accepts f clock := fun h => hout (accepts_iff.1 h).1
      exact ⟨hacc, control_refused hacc⟩
  · intro halong
    have hinv := Machine.inv_runFrom (I := fun s : System => s.Reached ∧ s.acted.Nodup)
      (fun s e hs hcond => ⟨System.step_reached hs.1 e, System.step_nodup hs.1 hs.2 hcond⟩)
      ⟨System.init_reached, List.nodup_nil⟩ halong
    exact hinv.2

/-- Two presses, delivered in order. -/
def twoPresses : List SystemEvent :=
  [.press LOCK_SIGNAL powerOn, .press UNLOCK_SIGNAL powerOn, .deliver 0 powerOn, .deliver 1 powerOn]

theorem twoPresses_stale : System.machine.Along System.Stale System.machine.init twoPresses := by
  refine ⟨?_, ?_, ?_, ?_, trivial⟩
  · rintro i clock f ⟨⟩
  · rintro i clock f ⟨⟩
  · rintro i clock f ⟨⟩ hi
    exact absurd hi List.not_mem_nil
  · rintro i clock f ⟨⟩ hi
    exact absurd hi (by decide +kernel)

/-- The first of two frames, delivered again after both were acted upon. -/
theorem replay_refused_first :
    let s := System.machine.run twoPresses
    ((¬ s.receiver.Accepts (frameAt 1 LOCK_SIGNAL) powerOn ∧
        (s.receiver.OnDataRecv (frameAt 1 LOCK_SIGNAL) powerOn).control = s.receiver.control) ↔
      0 < 28 ∧ s.receiver.rollingCode.seed ≠ (frameAt 1 LOCK_SIGNAL).rollingCode) ∧
    s.acted.Nodup :=
  ⟨(replay_refused_iff twoPresses).1 0 powerOn (frameAt 1 LOCK_SIGNAL)
      (by decide +kernel) (by decide +kernel) (by decide),
    (replay_refused_iff twoPresses).2 twoPresses_stale⟩

/-- The frame that entered window mode, delivered twice, leaves it again. -/
theorem replay_leaves_window :
    let s := System.machine.run [.press WINDOW_SIGNAL powerOn, .deliver 0 powerOn]
    0 ∈ s.acted ∧ s.fob.sent[0]? = some (frameAt 1 WINDOW_SIGNAL) ∧
      isValidTime powerOn.micros (frameAt 1 WINDOW_SIGNAL).tv_now.micros = true ∧
      s.receiver.windowMode = true ∧ s.receiver.Accepts (frameAt 1 WINDOW_SIGNAL) powerOn ∧
      (s.receiver.OnDataRecv (frameAt 1 WINDOW_SIGNAL) powerOn).windowMode = false := by
  decide +kernel

end KeyFob
