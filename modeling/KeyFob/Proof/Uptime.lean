import KeyFob.Proof.PowerCuts
import KeyFob.Proof.TwoRuns
import KeyFob.Spec.Uptime

/-!
# Which unit has been up longer

After power cuts the two clocks start at different moments, and nothing sets them.

* `uptime_decides`: which of a series of presses are acted upon, after any history.
* `battery_changes`: what a new battery in one of the units does to the pair.
-/

namespace KeyFob

variable {s : Timed} {on on₀ : PowerOn}

instance (on : PowerOn) (t₀ t : Instant) : Decidable (on.Passes t₀ t) :=
  inferInstanceAs (Decidable ((t₀.1 : ℤ) - t.1 + on.lead < 60000000))

/-! ## The clocks against the moments -/

/-- The units of a run are a run of the units. -/
theorem Timed.run_units (on₀ : PowerOn) (es : List TimedEvent) :
    ∃ es', ((Timed.machine on₀).run es).units = Powered.machine.run es' := by
  induction es using List.reverseRecOn with
  | nil => exact ⟨[], rfl⟩
  | append_singleton es e ih =>
    obtain ⟨es', hes⟩ := ih
    refine ⟨es' ++ [e.event ((Timed.machine on₀).run es).on], ?_⟩
    have hstep : ∀ t : Timed, ((Timed.machine on₀).step t e).units =
        Powered.machine.step t.units (e.event t.on) := fun _ => rfl
    rw [Machine.run_concat, Machine.run_concat, ← hes, hstep]

/-- **One press and its delivery**, as the units see them. Neither restarts a clock. -/
theorem Timed.step_exchange (s : Timed) (x : TimedPress) (k : ℕ) :
    let sent := s.units.step (.press x.sig (x.press s.on).pressed)
    (s.step (.press x.sig x.sent)).step (.deliver k x.arrived) =
        { units := sent.step (.deliver k (x.press s.on).arrived), on := s.on } ∧
      Timed.signal s (.press x.sig x.sent) = none ∧
      Timed.signal (s.step (.press x.sig x.sent)) (.deliver k x.arrived) =
        sent.signal (.deliver k (x.press s.on).arrived) := by
  refine ⟨?_, ?_, ?_⟩
  · simp only [Timed.step, TimedEvent.event, TimedEvent.restarts, TimedPress.press]
  · simp only [Timed.signal, TimedEvent.event, Powered.signal]
  · simp only [Timed.signal, Timed.step, TimedEvent.event, TimedEvent.restarts, TimedPress.press]

/-- A series of presses runs as the units see it. -/
theorem timedExchanges_signals (on₀ : PowerOn) (ps : List TimedPress) : ∀ (s : Timed) (k : ℕ),
    (Timed.machine on₀).labels Timed.signal s (timedExchanges k ps) =
      Powered.machine.labels Powered.signal s.units
        (exchanges k (ps.map (TimedPress.press s.on))) := by
  induction ps with
  | nil => intro s k; rfl
  | cons x ps ih =>
    intro s k
    obtain ⟨hstep, hpress, hdeliver⟩ := s.step_exchange x k
    have hmachine : (Timed.machine on₀).step = Timed.step := rfl
    have hunits : Powered.machine.step = Powered.step := rfl
    have hquiet : s.units.signal (.press x.sig (x.press s.on).pressed) = none := by
      simp only [Powered.signal]
    have hsig : (x.press s.on).sig = x.sig := by simp only [TimedPress.press]
    simp only [timedExchanges, exchanges, List.map_cons, Machine.labels, hmachine, hunits, hsig,
      hpress, hquiet, hdeliver, hstep, ih]

/-- The clock check on a press is the comparison of the moments. -/
theorem TimedPress.valid_iff {x : TimedPress} (h : x.Powered on) :
    (x.press on).valid = true ↔ on.Passes x.sent x.arrived := by
  unfold Press.valid TimedPress.press
  exact isValidTime_since h.1 h.2

/-- A filter of the presses as the units see them. -/
theorem map_press_filter {ps : List TimedPress} (h : ∀ x ∈ ps, x.Powered on) :
    ((ps.map (TimedPress.press on)).filter Press.valid).map Press.sig =
      (ps.filter fun x => on.Passes x.sent x.arrived).map TimedPress.sig := by
  rw [List.filter_map, List.map_map]
  have hsame : ps.filter (Press.valid ∘ TimedPress.press on) =
      ps.filter fun x => on.Passes x.sent x.arrived := by
    apply List.filter_congr
    intro x hx
    rw [Function.comp_apply, Bool.eq_iff_iff, decide_eq_true_iff]
    exact TimedPress.valid_iff (h x hx)
  rw [hsame]
  rfl

/-- **A series of presses after a run**, by the moments. -/
theorem Timed.signals (on₀ : PowerOn) (es : List TimedEvent) (hs : s = (Timed.machine on₀).run es)
    {ps : List TimedPress} (hon : ∀ x ∈ ps, x.Powered s.on) :
    (Timed.machine on₀).labels Timed.signal s (timedExchanges s.units.air.length ps) =
      ((ps.drop s.units.behind).filter fun x => s.on.Passes x.sent x.arrived).map
        TimedPress.sig := by
  obtain ⟨es', hes⟩ := Timed.run_units on₀ es
  obtain ⟨ν, hν⟩ := Powered.run_numbers es'
  rw [← hes, ← hs] at hν
  rw [timedExchanges_signals, Powered.exchanges_signals _ hν, ← List.map_drop]
  exact map_press_filter fun x hx => hon x (List.mem_of_mem_drop hx)

/-- **Uptime decides.** After any history of presses, deliveries and power-ons of either
unit at any moments, of presses that arrive one after the other, the first
`min last 29 - 1 - pressed` are ignored. Of the others exactly those are acted upon for
which the fob's uptime at the press is less than a minute more than the receiver's at the
arrival. -/
theorem uptime_decides (on₀ : PowerOn) (es : List TimedEvent) (ps : List TimedPress)
    (hon : ∀ x ∈ ps, x.Powered ((Timed.machine on₀).run es).on) :
    let s := (Timed.machine on₀).run es
    (Timed.machine on₀).labels Timed.signal s (timedExchanges s.units.air.length ps) =
      ((ps.drop (min s.units.last 29 - 1 - s.units.fob.sent.length)).filter
        fun x => s.on.Passes x.sent x.arrived).map TimedPress.sig := by
  intro s
  have h := Timed.signals on₀ es (s := s) rfl hon
  unfold Powered.behind at h
  exact h

/-- The receiver has been on for two minutes less than the fob: it ignores a press whose
frame is one second old. -/
theorem uptime_decides_replaced :
    let s := (Timed.machine ⟨0, 0⟩).run [.receiverOn ⟨120000000, by decide⟩]
    (Timed.machine ⟨0, 0⟩).labels Timed.signal s (timedExchanges s.units.air.length
      [⟨LOCK_SIGNAL, ⟨130000000, by decide⟩, ⟨131000000, by decide⟩⟩,
        ⟨UNLOCK_SIGNAL, ⟨140000000, by decide⟩, ⟨201000000, by decide⟩⟩]) = [UNLOCK_SIGNAL] := by
  intro s
  have hlast : s.units.last = 0 := by decide +kernel
  have h := uptime_decides ⟨0, 0⟩ [.receiverOn ⟨120000000, by decide⟩]
    [⟨LOCK_SIGNAL, ⟨130000000, by decide⟩, ⟨131000000, by decide⟩⟩,
      ⟨UNLOCK_SIGNAL, ⟨140000000, by decide⟩, ⟨201000000, by decide⟩⟩] (by decide +kernel)
  rw [h]
  decide +kernel

/-! ## New batteries -/

/-- A receiver that has been on for at least as long as the fob, less one minute. -/
theorem TimedPress.passes {x : TimedPress} (h : x.Forward) (hlead : on.receiver < on.fob + 60000000) :
    on.Passes x.sent x.arrived := by
  unfold TimedPress.Forward at h
  unfold PowerOn.Passes PowerOn.lead
  omega

/-- A receiver that has been on for a minute less, and longer. -/
theorem TimedPress.not_passes {x : TimedPress} {d : ℕ} (h : x.Within d)
    (hlead : on.fob + 60000000 + d ≤ on.receiver) : ¬ on.Passes x.sent x.arrived := by
  unfold TimedPress.Within at h
  unfold PowerOn.Passes PowerOn.lead
  omega

theorem filter_passes {ps : List TimedPress} (n : ℕ) (hforward : ∀ x ∈ ps, x.Forward)
    (hlead : on.receiver < on.fob + 60000000) :
    ((ps.drop n).filter fun x => on.Passes x.sent x.arrived) = ps.drop n := by
  rw [List.filter_eq_self]
  intro x hx
  exact decide_eq_true (TimedPress.passes (hforward x (List.mem_of_mem_drop hx)) hlead)

/-- **New batteries.** After any history, a new battery in the fob at `t`, the receiver
not powered on a minute or more later, costs the first `min last 29 - 1` presses, at most
28, and none of the later ones. A new battery in the car costs none if the fob has been on
for less than a minute; if it has been on for a minute and `d` microseconds, the receiver
acts upon no press whose frame arrives within `d`. -/
theorem battery_changes (on₀ : PowerOn) (es : List TimedEvent) (t : Instant)
    (ps : List TimedPress) (hforward : ∀ x ∈ ps, x.Forward) :
    let s := (Timed.machine on₀).run es
    let fob := (Timed.machine on₀).run (es ++ [.fobOn t])
    let car := (Timed.machine on₀).run (es ++ [.receiverOn t])
    (s.on.receiver < t.1 + 60000000 → (∀ x ∈ ps, x.Powered fob.on) →
      (Timed.machine on₀).labels Timed.signal fob (timedExchanges fob.units.air.length ps) =
        (ps.drop (min s.units.last 29 - 1)).map TimedPress.sig) ∧
    (t.1 < s.on.fob + 60000000 → (∀ x ∈ ps, x.Powered car.on) →
      (Timed.machine on₀).labels Timed.signal car (timedExchanges car.units.air.length ps) =
        ps.map TimedPress.sig) ∧
    ∀ d, s.on.fob + 60000000 + d ≤ t.1 → (∀ x ∈ ps, x.Powered car.on ∧ x.Within d) →
      (Timed.machine on₀).labels Timed.signal car (timedExchanges car.units.air.length ps) = [] := by
  intro s fob car
  have hfob : fob = s.step (.fobOn t) := Machine.run_concat (Timed.machine on₀) es (.fobOn t)
  have hcar : car = s.step (.receiverOn t) :=
    Machine.run_concat (Timed.machine on₀) es (.receiverOn t)
  have hfobOn : fob.on = { s.on with fob := t.1 } := by rw [hfob]; rfl
  have hcarOn : car.on = { s.on with receiver := t.1 } := by rw [hcar]; rfl
  refine ⟨?_, ?_, ?_⟩
  · intro hlead hon
    have hbehind : fob.units.behind = min s.units.last 29 - 1 := by rw [hfob]; rfl
    have hnow : fob.on.receiver < fob.on.fob + 60000000 := by rw [hfobOn]; exact hlead
    rw [Timed.signals on₀ _ (s := fob) rfl hon, hbehind, filter_passes _ hforward hnow]
  · intro hlead hon
    have hbehind : car.units.behind = 0 := by
      have hlast : car.units.last = 0 := by rw [hcar]; rfl
      unfold Powered.behind
      omega
    have hnow : car.on.receiver < car.on.fob + 60000000 := by rw [hcarOn]; exact hlead
    rw [Timed.signals on₀ _ (s := car) rfl hon, hbehind, filter_passes _ hforward hnow,
      List.drop_zero]
  · intro d hlead hon
    have hnow : car.on.fob + 60000000 + d ≤ car.on.receiver := by rw [hcarOn]; exact hlead
    rw [Timed.signals on₀ _ (s := car) rfl fun x hx => (hon x hx).1, List.map_eq_nil_iff,
      List.filter_eq_nil_iff]
    intro x hx
    rw [decide_eq_true_iff]
    exact TimedPress.not_passes (hon x (List.mem_of_mem_drop hx)).2 hnow

/-- The receiver found the third press. After two minutes the fob gets a new battery, and
two presses are lost; or the car gets one, and all are. -/
theorem battery_changes_two_minutes :
    let on₀ : PowerOn := ⟨0, 0⟩
    let es : List TimedEvent := [.press LOCK_SIGNAL ⟨1000000, by decide⟩,
      .press LOCK_SIGNAL ⟨2000000, by decide⟩, .press LOCK_SIGNAL ⟨3000000, by decide⟩,
      .deliver 2 ⟨3000001, by decide⟩]
    let t : Instant := ⟨120000000, by decide⟩
    let ps : List TimedPress := [⟨UNLOCK_SIGNAL, ⟨121000000, by decide⟩, ⟨121000001, by decide⟩⟩,
      ⟨UNLOCK_SIGNAL, ⟨122000000, by decide⟩, ⟨122000001, by decide⟩⟩,
      ⟨LOCK_SIGNAL, ⟨123000000, by decide⟩, ⟨123000001, by decide⟩⟩]
    let fob := (Timed.machine on₀).run (es ++ [.fobOn t])
    let car := (Timed.machine on₀).run (es ++ [.receiverOn t])
    (Timed.machine on₀).labels Timed.signal fob (timedExchanges fob.units.air.length ps) =
        [LOCK_SIGNAL] ∧
      (Timed.machine on₀).labels Timed.signal car (timedExchanges car.units.air.length ps) = [] := by
  intro on₀ es t ps fob car
  have hlast : ((Timed.machine on₀).run es).units.last = 3 := by decide +kernel
  have h := battery_changes on₀ es t ps (by decide +kernel)
  refine ⟨?_, h.2.2 1 (by decide +kernel) (by decide +kernel)⟩
  rw [h.1 (by decide +kernel) (by decide +kernel), hlast]
  rfl

end KeyFob
