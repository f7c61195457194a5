import KeyFob.Proof.Uptime

/-!
# The record played back

The stamp of a frame is the time since the fob's power-on, and it is compared with the
time since the receiver's.

* `playback`: which frames of the record are acted upon when they are played in the order
  of their numbers, after any history.
-/

namespace KeyFob

variable {s : Timed} {ν : Numbers}

/-! ## The record -/

/-- The record of a run is the record of its units, and every stamp in it is the fob's
uptime. -/
theorem recordings_run (on₀ : PowerOn) (es : List TimedEvent) :
    ((Timed.machine on₀).run es).units.air =
        (recordings on₀ es).map (fun r => (r.frame, r.number)) ∧
      ∀ r ∈ recordings on₀ es, r.frame.tv_now = timeOfDay r.uptime := by
  induction es using List.reverseRecOn with
  | nil => exact ⟨rfl, fun r hr => absurd hr List.not_mem_nil⟩
  | append_singleton es e ih =>
    obtain ⟨hair, hstamp⟩ := ih
    have hmore : recordings on₀ (es ++ [e]) =
        recordings on₀ es ++ (((Timed.machine on₀).run es).records e).toList :=
      Machine.labels_concat Timed.records (Timed.machine on₀).init es e
    have hstep : ∀ s : Timed, ((Timed.machine on₀).step s e).units = s.units.step (e.event s.on) :=
      fun _ => rfl
    rw [Machine.run_concat, hmore, hstep]
    cases e with
    | press sig t =>
      refine ⟨?_, ?_⟩
      · simp only [TimedEvent.event, Powered.step, Timed.records, Option.toList_some,
          List.map_append, List.map_singleton, hair]
      · intro r hr
        rcases List.mem_append.1 hr with hr | hr
        · exact hstamp r hr
        · obtain rfl := List.mem_singleton.1 hr
          rfl
    | deliver i t =>
      simp only [Timed.records, Option.toList_none, List.append_nil, TimedEvent.event]
      refine ⟨?_, hstamp⟩
      rw [← hair]
      simp only [Powered.step]
      split <;> rfl
    | fobOn t =>
      simp only [Timed.records, Option.toList_none, List.append_nil, TimedEvent.event]
      exact ⟨hair, hstamp⟩
    | receiverOn t =>
      simp only [Timed.records, Option.toList_none, List.append_nil, TimedEvent.event]
      exact ⟨hair, hstamp⟩

/-! ## One delivery -/

/-- **A frame whose number is not below the last one found** is found, and the clock check
decides whether it is acted upon. -/
theorem Powered.deliver_ahead {s : Powered} (h : s.field.OnNumbers deployed ν) {i : ℕ}
    {f : struct_message × ℕ} (hf : s.air[i]? = some f) (hlast : s.last ≤ f.2) (clock : timeval) :
    (s.step (.deliver i clock)).air = s.air ∧ (s.step (.deliver i clock)).last = f.2 ∧
    s.signal (.deliver i clock) =
      if isValidTime clock.micros f.1.tv_now.micros = true then some f.1.action else none := by
  have hmem := List.mem_of_getElem? hf
  have hahead : AheadOrLate s.last f.2 := Or.inl hlast
  have hacc := (Powered.accepts_iff h hmem clock).trans (and_iff_right hahead)
  rw [Powered.step_deliver (show s.air[i]? = some (f.1, f.2) from hf),
    if_pos ((Powered.finds_iff h hmem).2 hahead)]
  refine ⟨rfl, rfl, ?_⟩
  simp only [Powered.signal, hf, Option.bind_some]
  by_cases hvalid : isValidTime clock.micros f.1.tv_now.micros = true
  · rw [if_pos hvalid, signal_accepted (hacc.2 hvalid)]
  · rw [if_neg hvalid, signal_refused (mt hacc.1 hvalid)]

/-- **A series of deliveries** of frames whose numbers do not go down. -/
theorem Powered.deliveries_signals {air : List (struct_message × ℕ)} (ps : List (ℕ × timeval)) :
    ∀ {s : Powered} {ν : Numbers}, s.field.OnNumbers deployed ν → s.air = air →
    (s.last :: ps.filterMap fun p => air[p.1]?.map Prod.snd).Pairwise (· ≤ ·) →
    Powered.machine.labels Powered.signal s (ps.map fun p => .deliver p.1 p.2) =
      ps.filterMap fun p => air[p.1]?.bind fun f =>
        if isValidTime p.2.micros f.1.tv_now.micros = true then some f.1.action else none := by
  induction ps with
  | nil => intro s ν _ _ _; rfl
  | cons p ps ih =>
    intro s ν hν hair hsorted
    have hν' := Powered.step_numbers hν (.deliver p.1 p.2)
    have hunits : Powered.machine.step = Powered.step := rfl
    rw [List.map_cons, Machine.labels, hunits]
    cases hf : air[p.1]? with
    | none =>
      -- no such entry
      have hstay : s.step (.deliver p.1 p.2) = s := by simp only [Powered.step, hair, hf]
      have hsilent : s.signal (.deliver p.1 p.2) = none := by
        simp only [Powered.signal, hair, hf, Option.bind_none]
      rw [List.filterMap_cons_none (by rw [hf]; rfl)] at hsorted
      rw [List.filterMap_cons_none (by rw [hf]; rfl), hstay, hsilent, ih hν hair hsorted]
      rfl
    | some f =>
      rw [List.filterMap_cons_some (b := f.2) (by rw [hf]; rfl)] at hsorted
      obtain ⟨hahead, hrest⟩ := List.pairwise_cons.1 hsorted
      have hget : s.air[p.1]? = some f := by rw [hair, hf]
      obtain ⟨hair', hlast, hsignal⟩ :=
        Powered.deliver_ahead hν hget (hahead f.2 List.mem_cons_self) p.2
      rw [← hlast] at hrest
      rw [hsignal, ih hν' (hair'.trans hair) hrest, List.filterMap_cons, hf, Option.bind_some]
      split <;> rfl

/-! ## The clock of the receiver -/

/-- The play as the units see it. -/
def Play.delivery (on : PowerOn) (p : Play) : ℕ × timeval :=
  (p.i, timeOfDay (p.t.since on.receiver))

/-- Deliveries restart no clock: a series of them runs as the units see it. -/
theorem plays_signals (on₀ : PowerOn) (plays : List Play) : ∀ s : Timed,
    (Timed.machine on₀).labels Timed.signal s (plays.map fun p => .deliver p.i p.t) =
      Powered.machine.labels Powered.signal s.units
        ((plays.map (Play.delivery s.on)).map fun p => .deliver p.1 p.2) := by
  induction plays with
  | nil => intro s; rfl
  | cons p plays ih =>
    intro s
    have hmachine : (Timed.machine on₀).step = Timed.step := rfl
    have hunits : Powered.machine.step = Powered.step := rfl
    have hstep : s.step (.deliver p.i p.t) =
        ⟨s.units.step (.deliver (p.delivery s.on).1 (p.delivery s.on).2), s.on⟩ := by
      simp only [Timed.step, TimedEvent.event, TimedEvent.restarts, Play.delivery]
    have hsignal : s.signal (.deliver p.i p.t) =
        s.units.signal (.deliver (p.delivery s.on).1 (p.delivery s.on).2) := by
      simp only [Timed.signal, TimedEvent.event, Play.delivery]
    simp only [List.map_cons, Machine.labels, hmachine, hunits, hstep, hsignal, ih]

/-- The clock check on a frame that is stamped with the fob's uptime. -/
theorem Recording.isValidTime_iff {r : Recording} (h : r.frame.tv_now = timeOfDay r.uptime)
    (on : PowerOn) (t : Instant) :
    isValidTime (timeOfDay (t.since on.receiver)).micros r.frame.tv_now.micros = true ↔
      r.uptime.1 < t.1 - on.receiver + 60000000 := by
  have hnow : (t.since on.receiver).1 = t.1 - on.receiver := rfl
  rw [h, KeyFob.isValidTime_iff, hnow]
  omega

/-- The numbers of the frames that are played. -/
theorem played_numbers (on : PowerOn) (record : List Recording) (plays : List Play) :
    ((plays.map (Play.delivery on)).filterMap fun p =>
        (record.map fun r => (r.frame, r.number))[p.1]?.map Prod.snd) =
      (played record plays).map fun x => x.1.number := by
  unfold played
  rw [List.filterMap_map, List.map_filterMap]
  apply List.filterMap_congr
  intro p _
  simp only [Function.comp_apply, Play.delivery, List.getElem?_map, Option.map_map]
  rfl

/-- The signals of the frames that are played, where the stamps are the uptimes. -/
theorem played_signals (on : PowerOn) {record : List Recording} (plays : List Play)
    (hstamp : ∀ r ∈ record, r.frame.tv_now = timeOfDay r.uptime) :
    ((plays.map (Play.delivery on)).filterMap fun p =>
        (record.map fun r => (r.frame, r.number))[p.1]?.bind fun f =>
          if isValidTime p.2.micros f.1.tv_now.micros = true then some f.1.action else none) =
      ((played record plays).filter
        fun x => x.1.uptime.1 < x.2.1 - on.receiver + 60000000).map fun x => x.1.frame.action := by
  unfold played
  rw [List.filterMap_map, List.filter_filterMap, List.map_filterMap]
  apply List.filterMap_congr
  intro p _
  rw [Function.comp_apply, List.getElem?_map]
  unfold Play.delivery
  cases hr : record[p.i]? with
  | none => rfl
  | some r =>
    have hvalid := Recording.isValidTime_iff (hstamp r (List.mem_of_getElem? hr)) on p.t
    rw [Option.map_some, Option.bind_some, if_congr hvalid rfl rfl, Option.map_some,
      Option.filter_some]
    by_cases hup : r.uptime.1 < p.t.1 - on.receiver + 60000000
    · rw [if_pos hup, if_pos (decide_eq_true hup)]
      rfl
    · rw [if_neg hup, if_neg (mt of_decide_eq_true hup)]
      rfl

/-- **The record played back.** After any history of presses, deliveries and power-ons of
either unit, let frames of the record be played whose numbers do not go down, the first
not below the number found last (0 after a power-on of the receiver). Exactly those are
acted upon, in this order, for which the fob had been on, at the press, for less than a
minute more than the receiver is now. -/
theorem playback (on₀ : PowerOn) (es : List TimedEvent) (plays : List Play) :
    let s := (Timed.machine on₀).run es
    let frames := played (recordings on₀ es) plays
    (s.units.last :: frames.map fun x => x.1.number).Pairwise (· ≤ ·) →
    (Timed.machine on₀).labels Timed.signal s (plays.map fun p => .deliver p.i p.t) =
      (frames.filter fun x => x.1.uptime.1 < x.2.1 - s.on.receiver + 60000000).map
        fun x => x.1.frame.action := by
  intro s frames hsorted
  obtain ⟨hair, hstamp⟩ := recordings_run on₀ es
  obtain ⟨es', hes⟩ := Timed.run_units on₀ es
  obtain ⟨ν, hν⟩ := Powered.run_numbers es'
  rw [← hes] at hν
  rw [← played_numbers s.on] at hsorted
  rw [plays_signals, Powered.deliveries_signals _ hν hair hsorted]
  exact played_signals s.on plays hstamp

/-- The car is locked and opened again, and its battery is changed. The record opens it once
the receiver has been on nearly as long as the fob had been. -/
theorem playback_battery :
    let on₀ : PowerOn := ⟨0, 0⟩
    let es : List TimedEvent := [.press LOCK_SIGNAL ⟨200000000, by decide⟩,
      .deliver 0 ⟨200000001, by decide⟩, .press UNLOCK_SIGNAL ⟨201000000, by decide⟩,
      .deliver 1 ⟨201000001, by decide⟩, .receiverOn ⟨300000000, by decide⟩]
    let plays : List Play :=
      [⟨1, ⟨310000000, by decide⟩⟩, ⟨1, ⟨450000000, by decide⟩⟩, ⟨1, ⟨451000000, by decide⟩⟩]
    (Timed.machine on₀).labels Timed.signal ((Timed.machine on₀).run es)
      (plays.map fun p => .deliver p.i p.t) = [UNLOCK_SIGNAL, UNLOCK_SIGNAL] := by
  intro on₀ es plays
  have hplayed : (((Timed.machine on₀).run es).units.last ::
      (played (recordings on₀ es) plays).map fun x => x.1.number).Pairwise (· ≤ ·) := by
    decide +kernel
  rw [playback on₀ es plays hplayed]
  decide +kernel

end KeyFob
