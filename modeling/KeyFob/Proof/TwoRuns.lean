import KeyFob.Proof.Timestamp
import KeyFob.Proof.Replay

/-!
# Two runs of one history

* `noise_deleted`: frames outside the code window can be deleted from a run; what the
  receiver does and where it ends stay the same.
* `boot_times_iff`: two runs that differ in when the units were powered on both act on
  every frame in the window exactly when the clock check passes at each of them in both,
  and they act on the same frames exactly when it judges each of them alike.
-/

namespace KeyFob

open RollingCode Receiver

variable {r r' : Receiver} {s s' : System} {f : struct_message} {on on' : PowerOn} {as : List Action}

/-! ## Frames outside the window -/

/-- An arrival whose code is in the receiver's window, and nothing for any other. -/
def Receiver.relevant (r : Receiver) (a : Arrival) : Option Arrival :=
  if r.rollingCode.InWindow a.1.rollingCode then some a else none

/-- The two receivers differ in the buffers only. -/
def Receiver.Same (r r' : Receiver) : Prop :=
  r.rollingCode = r'.rollingCode ∧ r.control = r'.control

theorem Receiver.Same.refl (r : Receiver) : r.Same r := ⟨rfl, rfl⟩

/-- The callback fills both buffers before it reads them. -/
theorem Receiver.Same.onDataRecv (h : r.Same r') (f : struct_message) (now : timeval) :
    r.OnDataRecv f now = r'.OnDataRecv f now := by
  obtain ⟨rc, tv, msg, state, state_old, mode, cs⟩ := r
  obtain ⟨rc', tv', msg', state', state_old', mode', cs'⟩ := r'
  obtain ⟨hcode, hcontrol⟩ := h
  obtain ⟨hmode, hstate, hsaved, hcommands⟩ := control_eq_iff.1 hcontrol
  simp only at hcode hmode hstate hsaved hcommands
  subst hcode hmode hstate hsaved hcommands
  rfl

/-- A frame outside the window reaches the buffers only. -/
theorem OnDataRecv_outside (now : timeval) (h : ¬ r.rollingCode.InWindow f.rollingCode) :
    (r.OnDataRecv f now).Same r := by
  rw [OnDataRecv_eq, if_neg h]
  exact ⟨rfl, rfl⟩

/-- **The receiver refines itself** without the frames outside its window. -/
theorem receiver_refines_relevant : Machine.Refines Receiver.machine Receiver.machine
    (fun _ _ => True) Receiver.relevant Receiver.Same where
  init := Same.refl _
  step := by
    intro r r' a h _
    unfold Receiver.relevant
    by_cases hwin : r.rollingCode.InWindow a.1.rollingCode
    · rw [if_pos hwin, Option.elim_some]
      have heq : Receiver.machine.step r a = Receiver.machine.step r' a := h.onDataRecv a.1 a.2
      rw [heq]
      exact Same.refl _
    · rw [if_neg hwin, Option.elim_none]
      obtain ⟨hcode, hcontrol⟩ := OnDataRecv_outside a.2 hwin
      exact ⟨hcode.trans h.1, hcontrol.trans h.2⟩

/-- **Frames outside the window are noise.** From any receiver, over any arrivals, the
run over those alone whose code was in the window when they arrived ends with the same
rolling code, mode and lock states, and issues the same commands. -/
theorem noise_deleted (r : Receiver) (as : List Arrival) :
    let kept := Receiver.machine.labels Receiver.relevant r as
    (Receiver.machine.runFrom r as).rollingCode = (Receiver.machine.runFrom r kept).rollingCode ∧
      (Receiver.machine.runFrom r as).control = (Receiver.machine.runFrom r kept).control :=
  receiver_refines_relevant.runFrom (Same.refl r) (Machine.along_of_forall (fun _ _ => trivial) _ _)

/-! ## The boot times -/

/-- The system after the actions, with the units powered on at `on`. -/
def System.after (on : PowerOn) (as : List Action) : System :=
  System.machine.run (as.map (Action.event on))

/-- The acting unit is powered on. -/
def Action.Powered (on : PowerOn) : Action → Prop
  | .press _ t => on.fob ≤ t.1
  | .deliver _ t => on.receiver ≤ t.1

/-- How much earlier the fob was powered on than the receiver, in microseconds. -/
def PowerOn.lead (on : PowerOn) : ℤ := on.receiver - on.fob

/-- **The clock check, by the moments**: a frame sent at `t₀` that arrives at `t`. -/
def PowerOn.Passes (on : PowerOn) (t₀ t : Instant) : Prop :=
  (t₀.1 : ℤ) - t.1 + on.lead < 60000000

/-- The receiver acts on the same frames at every point of the two runs. -/
def ActAlike (on on' : PowerOn) (as : List Action) : Prop :=
  ∀ pre, pre <+: as → (System.after on pre).acted = (System.after on' pre).acted

/-- Every delivery of the run that finds its code in the window is acted upon. -/
def ActsThroughout (on : PowerOn) (as : List Action) : Prop :=
  ∀ (pre : List Action) (i : ℕ) (t : Instant) (f : struct_message),
    pre ++ [.deliver i t] <+: as → let s := System.after on pre
    s.fob.sent[i]? = some f → s.receiver.rollingCode.InWindow f.rollingCode →
    s.receiver.Accepts f (timeOfDay (t.since on.receiver))

/-- The clock check passes at every delivery of the run that finds its code in the window. -/
def PassesThroughout (on : PowerOn) (as : List Action) : Prop :=
  ∀ (pre : List Action) (i : ℕ) (t t₀ : Instant) (f : struct_message),
    pre ++ [.deliver i t] <+: as → let s := System.after on pre
    s.fob.sent[i]? = some f → (presses pre)[i]? = some t₀ →
    s.receiver.rollingCode.InWindow f.rollingCode → on.Passes t₀ t

/-- Every delivery of the run that finds its code in the window is judged alike by the
two clock checks. -/
def JudgedAlike (on on' : PowerOn) (as : List Action) : Prop :=
  ∀ (pre : List Action) (a : Action), pre ++ [a] <+: as → let s := System.after on pre
    ∀ (i : ℕ) (t t₀ : Instant) (f : struct_message), a = .deliver i t →
      s.fob.sent[i]? = some f → (presses pre)[i]? = some t₀ →
      s.receiver.rollingCode.InWindow f.rollingCode → (on.Passes t₀ t ↔ on'.Passes t₀ t)

theorem System.after_concat (on : PowerOn) (as : List Action) (a : Action) :
    System.after on (as ++ [a]) = (System.after on as).step (a.event on) := by
  unfold System.after
  rw [List.map_append, List.map_singleton, Machine.run_concat]
  rfl

/-- The stamp of frame `i` and the clock it meets, once both units are on. -/
theorem isValidTime_since {t₀ t : Instant} (hfob : on.fob ≤ t₀.1) (hreceiver : on.receiver ≤ t.1) :
    isValidTime (timeOfDay (t.since on.receiver)).micros (timeOfDay (t₀.since on.fob)).micros = true ↔
      on.Passes t₀ t := by
  have hnow : ((t.since on.receiver).1 : ℤ) = t.1 - on.receiver := Int.ofNat_sub hreceiver
  have hsent : ((t₀.since on.fob).1 : ℤ) = t₀.1 - on.fob := Int.ofNat_sub hfob
  rw [isValidTime_iff, hnow, hsent]
  unfold PowerOn.Passes PowerOn.lead
  omega

/-- Every press of the run found the fob powered on. -/
theorem presses_powered (h : ∀ a ∈ as, a.Powered on) {i : ℕ} {t₀ : Instant}
    (hpress : (presses as)[i]? = some t₀) : on.fob ≤ t₀.1 := by
  have hmem : t₀ ∈ presses as := List.mem_of_getElem? hpress
  unfold presses at hmem
  obtain ⟨a, ha, hat⟩ := List.mem_filterMap.1 hmem
  cases a with
  | press sig t =>
    obtain rfl : t = t₀ := Option.some.inj hat
    exact h _ ha
  | deliver i t => exact absurd hat (by simp)

/-- **What a delivery does to a frame**, by the moments of the two actions. -/
theorem accepts_moments {i : ℕ} {t₀ t : Instant} (h : ∀ a ∈ as, a.Powered on)
    (hreceiver : on.receiver ≤ t.1) (hf : (System.after on as).fob.sent[i]? = some f)
    (hpress : (presses as)[i]? = some t₀) :
    (System.after on as).receiver.Accepts f (timeOfDay (t.since on.receiver)) ↔
      (System.after on as).receiver.rollingCode.InWindow f.rollingCode ∧ on.Passes t₀ t := by
  have hstamp : f.tv_now = timeOfDay (t₀.since on.fob) := frame_stamp hf hpress
  rw [accepts_iff, hstamp, isValidTime_since (presses_powered h hpress) hreceiver]

/-- **The twins**: the two systems have sent the same codes and stand at the same
codes. Stamps, verdicts and actuators may differ. -/
structure System.Twins (s s' : System) : Prop where
  receiver : s.receiver.rollingCode = s'.receiver.rollingCode
  fob : s.fob.rollingCode = s'.fob.rollingCode
  sent : s.fob.sent.map struct_message.rollingCode = s'.fob.sent.map struct_message.rollingCode

theorem System.Twins.frame (h : s.Twins s') {i : ℕ} (hf : s.fob.sent[i]? = some f) :
    ∃ f', s'.fob.sent[i]? = some f' ∧ f'.rollingCode = f.rollingCode := by
  have hmap := congrArg (fun l => l[i]?) h.sent
  simp only [List.getElem?_map, hf, Option.map_some] at hmap
  obtain ⟨f', hf', hcode⟩ := Option.map_eq_some_iff.1 hmap.symm
  exact ⟨f', hf', hcode⟩

theorem System.Twins.symm (h : s.Twins s') : s'.Twins s := ⟨h.receiver.symm, h.fob.symm, h.sent.symm⟩

theorem System.Twins.unsent (h : s.Twins s') {i : ℕ} (hf : s.fob.sent[i]? = none) :
    s'.fob.sent[i]? = none := by
  by_contra hne
  obtain ⟨f', hf'⟩ := Option.ne_none_iff_exists'.1 hne
  obtain ⟨f, hsome, -⟩ := h.symm.frame hf'
  rw [hf] at hsome
  cases hsome

/-- The clock has no part in where the codes go. -/
theorem System.Twins.step (h : s.Twins s') (a : Action) :
    (s.step (a.event on)).Twins (s'.step (a.event on')) := by
  cases a with
  | press sig t =>
    refine ⟨h.receiver, ?_, ?_⟩
    · exact congrArg RollingCode.next h.fob
    · show List.map _ (_ ++ [_]) = List.map _ (_ ++ [_])
      rw [List.map_append, List.map_append, h.sent, List.map_singleton, List.map_singleton, h.fob]
  | deliver i t =>
    show (s.step (.deliver i _)).Twins (s'.step (.deliver i _))
    cases hf : s.fob.sent[i]? with
    | none =>
      rw [System.step_unsent hf, System.step_unsent (h.unsent hf)]
      exact h
    | some f =>
      obtain ⟨f', hf', hcode⟩ := h.frame hf
      rw [System.step_deliver hf, System.step_deliver hf']
      refine ⟨?_, h.fob, h.sent⟩
      rw [OnDataRecv_rollingCode, OnDataRecv_rollingCode, h.receiver, hcode]

/-- **Two runs of the same actions stay twins**, whatever the boot times. -/
theorem twins_run (on on' : PowerOn) (as : List Action) :
    (System.after on as).Twins (System.after on' as) := by
  induction as using List.reverseRecOn with
  | nil => exact ⟨rfl, rfl, rfl⟩
  | append_singleton as a ih =>
    rw [System.after_concat, System.after_concat]
    exact ih.step a

theorem exists_press {i : ℕ} (hf : (System.after on as).fob.sent[i]? = some f) :
    ∃ t₀, (presses as)[i]? = some t₀ := by
  have hmap := congrArg (fun l => l[i]?) (stamps_run on as)
  unfold System.after at hf
  simp only [List.getElem?_map, hf, Option.map_some] at hmap
  obtain ⟨t₀, hpress, -⟩ := Option.map_eq_some_iff.1 hmap.symm
  exact ⟨t₀, hpress⟩

theorem acted_deliver {i : ℕ} (hf : (System.after on as).fob.sent[i]? = some f) (t : Instant) :
    (System.after on (as ++ [.deliver i t])).acted =
      if (System.after on as).receiver.Accepts f (timeOfDay (t.since on.receiver))
      then (System.after on as).acted ++ [i] else (System.after on as).acted := by
  rw [System.after_concat]
  exact congrArg System.acted (System.step_deliver hf)

theorem acted_unsent {i : ℕ} (hf : (System.after on as).fob.sent[i]? = none) (t : Instant) :
    (System.after on (as ++ [.deliver i t])).acted = (System.after on as).acted := by
  rw [System.after_concat]
  exact congrArg System.acted (System.step_unsent hf)

/-- Appending the same index on two conditions. -/
theorem ite_concat_eq_iff {p q : Prop} [Decidable p] [Decidable q] (l : List ℕ) (i : ℕ) :
    (if p then l ++ [i] else l) = (if q then l ++ [i] else l) ↔ (p ↔ q) := by
  by_cases hp : p <;> by_cases hq : q <;> simp [hp, hq]

/-- **One more action.** Two runs that acted upon the same frames still do exactly if
they judge the frame alike, when it is one in the window. -/
theorem acted_concat_iff {a : Action} (hon : ∀ x ∈ as ++ [a], x.Powered on)
    (hon' : ∀ x ∈ as ++ [a], x.Powered on')
    (hsame : (System.after on as).acted = (System.after on' as).acted) :
    (System.after on (as ++ [a])).acted = (System.after on' (as ++ [a])).acted ↔
      ∀ (i : ℕ) (t t₀ : Instant) (f : struct_message), a = .deliver i t →
        (System.after on as).fob.sent[i]? = some f → (presses as)[i]? = some t₀ →
        (System.after on as).receiver.rollingCode.InWindow f.rollingCode →
        (on.Passes t₀ t ↔ on'.Passes t₀ t) := by
  have htwins := twins_run on on' as
  cases a with
  | press sig t =>
    -- a press acts upon nothing
    rw [System.after_concat, System.after_concat]
    refine ⟨?_, fun _ => hsame⟩
    rintro _ i t' t₀ f ⟨⟩
  | deliver i t =>
    cases hf : (System.after on as).fob.sent[i]? with
    | none =>
      -- not sent yet, in either run
      have hf' : (System.after on' as).fob.sent[i]? = none := htwins.unsent hf
      rw [acted_unsent hf, acted_unsent hf']
      refine ⟨?_, ?_⟩
      · rintro _ j t' t₀ f ⟨⟩ hsome
        rw [hf] at hsome
        cases hsome
      · exact fun _ => hsame
    | some f =>
      obtain ⟨f', hf', hcode⟩ := htwins.frame hf
      obtain ⟨t₀, hpress⟩ := exists_press hf
      have hpast : ∀ x ∈ as, x.Powered on := fun x hx => hon x (List.mem_append_left _ hx)
      have hpast' : ∀ x ∈ as, x.Powered on' := fun x hx => hon' x (List.mem_append_left _ hx)
      have hnow : (Action.deliver i t).Powered on := hon _ (by simp)
      have hnow' : (Action.deliver i t).Powered on' := hon' _ (by simp)
      -- both receivers see the same code at the same seed: only the clocks can differ
      rw [acted_deliver hf, acted_deliver hf', ← hsame, ite_concat_eq_iff,
        accepts_moments hpast hnow hf hpress, accepts_moments hpast' hnow' hf' hpress,
        ← htwins.receiver, hcode, and_congr_right_iff]
      refine ⟨?_, ?_⟩
      · rintro h j t' t₀' g ⟨⟩ hg hpress' hwin
        rw [hf] at hg
        rw [hpress] at hpress'
        obtain rfl := Option.some.inj hg
        obtain rfl := Option.some.inj hpress'
        exact h hwin
      · intro h hwin
        exact h i t t₀ f rfl hf hpress hwin

/-- **A delivery in the window**, the units being powered on at every action: it is acted
upon exactly when the clock check passes. -/
theorem accepts_along {pre : List Action} {i : ℕ} {t t₀ : Instant} (hon : ∀ a ∈ as, a.Powered on)
    (hpre : pre ++ [.deliver i t] <+: as) (hf : (System.after on pre).fob.sent[i]? = some f)
    (hpress : (presses pre)[i]? = some t₀)
    (hwin : (System.after on pre).receiver.rollingCode.InWindow f.rollingCode) :
    (System.after on pre).receiver.Accepts f (timeOfDay (t.since on.receiver)) ↔
      on.Passes t₀ t := by
  have hpast : ∀ x ∈ pre, x.Powered on :=
    fun x hx => hon x (hpre.subset (List.mem_append_left _ hx))
  have hnow : (Action.deliver i t).Powered on := hon _ (hpre.subset (by simp))
  rw [accepts_moments hpast hnow hf hpress]
  exact and_iff_right hwin

/-- **The frames of one run.** -/
theorem actsThroughout_iff (hon : ∀ a ∈ as, a.Powered on) :
    ActsThroughout on as ↔ PassesThroughout on as := by
  refine ⟨?_, ?_⟩
  · intro hacts pre i t t₀ f hpre s hf hpress hwin
    exact (accepts_along hon hpre hf hpress hwin).1 (hacts pre i t f hpre hf hwin)
  · intro hpass pre i t f hpre s hf hwin
    obtain ⟨t₀, hpress⟩ := exists_press hf
    exact (accepts_along hon hpre hf hpress hwin).2 (hpass pre i t t₀ f hpre hf hpress hwin)

/-- Checks that pass everywhere judge alike. -/
theorem judgedAlike_of_passes (h : PassesThroughout on as) (h' : PassesThroughout on' as) :
    JudgedAlike on on' as := by
  rintro pre _ hpre s i t t₀ f rfl hf hpress hwin
  have htwins := twins_run on on' pre
  obtain ⟨f', hf', hcode⟩ := htwins.frame hf
  have hwin' : (System.after on' pre).receiver.rollingCode.InWindow f'.rollingCode := by
    rw [← htwins.receiver, hcode]
    exact hwin
  exact iff_of_true (h pre i t t₀ f hpre hf hpress hwin) (h' pre i t t₀ f' hpre hf' hpress hwin')

/-- The two runs act on the same frames exactly when every delivery in the window is judged
alike. -/
theorem actAlike_iff (hon : ∀ a ∈ as, a.Powered on) (hon' : ∀ a ∈ as, a.Powered on') :
    ActAlike on on' as ↔ JudgedAlike on on' as := by
  have hboot : (System.after on []).acted = (System.after on' []).acted := rfl
  refine Machine.forall_prefix_iff
    (P := fun pre => (System.after on pre).acted = (System.after on' pre).acted) hboot ?_
  intro pre a hpre _ hsame
  exact acted_concat_iff (fun x hx => hon x (hpre.subset hx))
    (fun x hx => hon' x (hpre.subset hx)) hsame

/-- **When boot times do not matter.** For two pairs of boot times and actions that all
happen with the acting unit on, the receiver acts on the same frames at every point of
the two runs, and on every frame whose code is in its window, exactly when the clock check
passes at each of these in both runs. It acts on the same frames, whether or not on all of
these, exactly when every delivery in the window is judged alike. And a delivery in the
window is acted upon exactly when the fob's lead is less than one minute more than the age
of the frame. -/
theorem boot_times_iff (on on' : PowerOn) (as : List Action)
    (hon : ∀ a ∈ as, a.Powered on ∧ a.Powered on') :
    ((ActAlike on on' as ∧ ActsThroughout on as ∧ ActsThroughout on' as) ↔
      PassesThroughout on as ∧ PassesThroughout on' as) ∧
    (ActAlike on on' as ↔ JudgedAlike on on' as) ∧
    ∀ (pre : List Action) (i : ℕ) (t t₀ : Instant) (f : struct_message),
      pre ++ [.deliver i t] <+: as → let s := System.after on pre
      s.fob.sent[i]? = some f → (presses pre)[i]? = some t₀ →
      s.receiver.rollingCode.InWindow f.rollingCode →
      (s.receiver.Accepts f (timeOfDay (t.since on.receiver)) ↔ on.Passes t₀ t) := by
  have hpast : ∀ a ∈ as, a.Powered on := fun a ha => (hon a ha).1
  have hpast' : ∀ a ∈ as, a.Powered on' := fun a ha => (hon a ha).2
  have halike : ActAlike on on' as ↔ JudgedAlike on on' as := actAlike_iff hpast hpast'
  refine ⟨?_, halike, ?_⟩
  · rw [actsThroughout_iff hpast, actsThroughout_iff hpast']
    refine ⟨And.right, ?_⟩
    rintro ⟨h, h'⟩
    exact ⟨halike.2 (judgedAlike_of_passes h h'), h, h'⟩
  · intro pre i t t₀ f hpre s hf hpress hwin
    exact accepts_along hpast hpre hf hpress hwin

/-- A press, and its frame one second later. -/
def pressAndDeliver : List Action :=
  [.press LOCK_SIGNAL ⟨130000000, by decide⟩, .deliver 0 ⟨131000000, by decide⟩]

theorem pressAndDeliver_powered : ∀ a ∈ pressAndDeliver,
    a.Powered ⟨0, 0⟩ ∧ a.Powered ⟨0, 120000000⟩ := by
  intro a ha
  simp only [pressAndDeliver, List.mem_cons, List.not_mem_nil, or_false] at ha
  rcases ha with rfl | rfl
  · exact ⟨Nat.zero_le _, Nat.zero_le _⟩
  · exact ⟨Nat.zero_le _, by simp [Action.Powered]⟩

/-- Both units powered on together, and the receiver two minutes after the fob. -/
theorem boot_times_press :
    let on : PowerOn := ⟨0, 0⟩
    let on' : PowerOn := ⟨0, 120000000⟩
    let t₀ : Instant := ⟨130000000, by decide⟩
    let t : Instant := ⟨131000000, by decide⟩
    ((ActAlike on on' pressAndDeliver ∧ ActsThroughout on pressAndDeliver ∧
        ActsThroughout on' pressAndDeliver) ↔
      PassesThroughout on pressAndDeliver ∧ PassesThroughout on' pressAndDeliver) ∧
    (ActAlike on on' pressAndDeliver ↔ JudgedAlike on on' pressAndDeliver) ∧
    ((System.after on [.press LOCK_SIGNAL t₀]).receiver.Accepts
        { frameAt 1 LOCK_SIGNAL with tv_now := timeOfDay t₀ } (timeOfDay (t.since on.receiver)) ↔
      on.Passes t₀ t) := by
  intro on on' t₀ t
  have h := boot_times_iff on on' pressAndDeliver pressAndDeliver_powered
  exact ⟨h.1, h.2.1, h.2.2 [.press LOCK_SIGNAL t₀] 0 t t₀ _ List.prefix_rfl (by decide +kernel) rfl
    (by decide +kernel)⟩

/-- The frame is one second old and in the window; the receiver that was powered on two
minutes after the fob refuses it. -/
theorem boot_times_matter :
    (∀ a ∈ pressAndDeliver, a.Powered ⟨0, 0⟩ ∧ a.Powered ⟨0, 120000000⟩) ∧
    (System.after ⟨0, 120000000⟩ (pressAndDeliver.take 1)).receiver.rollingCode.InWindow
      (deployed.code 1) ∧
    (System.after ⟨0, 0⟩ pressAndDeliver).acted = [0] ∧
    (System.after ⟨0, 120000000⟩ pressAndDeliver).acted = [] :=
  ⟨pressAndDeliver_powered, by decide +kernel, by decide +kernel, by decide +kernel⟩

end KeyFob
