import KeyFob.Proof.Brackets
import KeyFob.Proof.Fob
import KeyFob.Proof.Restart

/-!
# Power cuts of the deployed units

The two sketches refine the channel between two deployed generators
(`Powered.refines`), whose codes tell the numbers apart up to 28.

* `power_cuts`: which recorded frames are acted upon, after any history.
* `ignored_presses`: how many presses are ignored until the units agree again.
-/

namespace KeyFob

open RollingCode

variable {s : Powered} {ν : Numbers}

/-- The receiver of the deployed generator finds every number that is not older, and every
one from 29 on. -/
def AheadOrLate (p l : ℕ) : Prop := p ≤ l ∨ 29 ≤ l

instance : DecidableRel AheadOrLate := fun p l => inferInstanceAs (Decidable (p ≤ l ∨ 29 ≤ l))

theorem deployed_reachesAs : deployed.ReachesAs (fun _ => True) AheadOrLate :=
  ⟨trivial, fun p l _ _ => deployed_reach_iff p l⟩

/-! ## The sketches -/

/-- The rolling codes of the two units, and the record of the codes sent. -/
def Powered.field (s : Powered) : Field 32 where
  fob := s.fob.rollingCode
  pressed := s.fob.sent.length
  air := s.air.map fun f => ⟨f.1.rollingCode, f.2⟩
  receiver := s.receiver.rollingCode
  last := s.last

def PowerEvent.onField : PowerEvent → FieldEvent
  | .press _ _ => .send
  | .deliver i _ => .deliver i
  | .fobOn => .fobOn
  | .receiverOn => .receiverOn

/-- **The sketches refine the channel** between two deployed generators. -/
theorem Powered.refines : Machine.Refines Powered.machine (Field.machine deployed)
    (fun _ _ => True) (fun _ e => some e.onField) (fun s t => s.field = t) where
  init := rfl
  step := by
    rintro s t e rfl -
    cases e with
    | press sig clock =>
      simp [Powered.machine, Powered.step, Powered.field, Field.machine, Field.step,
        PowerEvent.onField, Fob.sendSignal]
    | deliver i clock =>
      simp only [Option.elim_some, Powered.machine, Powered.step, PowerEvent.onField,
        Field.machine, Field.step]
      cases hf : s.air[i]? with
      | none => simp [Powered.field, hf]
      | some f =>
        have hrecv := OnDataRecv_rollingCode s.receiver f.1 clock
        simp only [Powered.field, List.getElem?_map, hf, Option.map_some, matches_eq] at hrecv ⊢
        split <;> simp_all
    | fobOn => rfl
    | receiverOn => rfl

theorem Numbers.within_true (ν : Numbers) : ν.Within (fun _ => True) :=
  ⟨fun _ _ => trivial, trivial⟩

/-- One event of the sketches, on numbers. -/
theorem Powered.step_numbers (h : s.field.OnNumbers deployed ν) (e : PowerEvent) :
    (s.step e).field.OnNumbers deployed (ν.step AheadOrLate e.onField) := by
  have hfield := Powered.refines.step s s.field e rfl trivial
  have hnum := (Field.refines deployed_reachesAs).step s.field ν e.onField
    ⟨h, ν.within_true⟩ trivial
  have heq : (s.step e).field = s.field.step deployed e.onField := hfield
  rw [heq]
  exact hnum.1

/-- After any history the sketches stand for numbers. -/
theorem Powered.run_numbers (es : List PowerEvent) :
    ∃ ν, (Powered.machine.run es).field.OnNumbers deployed ν := by
  induction es using List.reverseRecOn with
  | nil => exact ⟨{ pressed := 0, air := [], last := 0 }, rfl⟩
  | append_singleton es e ih =>
    obtain ⟨ν, hν⟩ := ih
    rw [Machine.run_concat]
    exact ⟨_, Powered.step_numbers hν e⟩

/-- Which recorded frames are found. -/
theorem Powered.finds_iff (h : s.field.OnNumbers deployed ν) {f : struct_message × ℕ}
    (hf : f ∈ s.air) :
    (s.receiver.rollingCode.matches f.1.rollingCode).1 = true ↔ AheadOrLate s.last f.2 := by
  have hrecorded : (⟨f.1.rollingCode, f.2⟩ : Recorded 32) ∈ s.field.air :=
    List.mem_map_of_mem (f := fun f => (⟨f.1.rollingCode, f.2⟩ : Recorded 32)) hf
  exact h.accepts_iff ν.within_true deployed_reachesAs hrecorded

/-- **Which recorded frames are acted upon.** -/
theorem Powered.accepts_iff (h : s.field.OnNumbers deployed ν) {f : struct_message × ℕ}
    (hf : f ∈ s.air) (clock : timeval) : s.receiver.Accepts f.1 clock ↔
      AheadOrLate s.last f.2 ∧ isValidTime clock.micros f.1.tv_now.micros = true := by
  have hfound := Powered.finds_iff h hf
  rw [matches_fst] at hfound
  rw [KeyFob.accepts_iff]
  exact and_congr_left' hfound

/-- **Power cuts of the deployed units.** After any presses, deliveries and power-ons in
any order, a frame ever sent is acted upon, its clock check passing, exactly if its number
is not below that of the last one found or is 29 or more. In particular a receiver that
was just powered on acts upon every frame on record. -/
theorem power_cuts (es : List PowerEvent) :
    let s := Powered.machine.run es
    ∀ f ∈ s.air, ∀ clock : timeval,
      (s.receiver.Accepts f.1 clock ↔
        (s.last ≤ f.2 ∨ 29 ≤ f.2) ∧ isValidTime clock.micros f.1.tv_now.micros = true) ∧
      ((s.step .receiverOn).receiver.Accepts f.1 clock ↔
        isValidTime clock.micros f.1.tv_now.micros = true) := by
  intro s f hf clock
  obtain ⟨ν, hν⟩ := Powered.run_numbers es
  refine ⟨Powered.accepts_iff hν hf clock, ?_⟩
  have hon := Powered.accepts_iff (Powered.step_numbers hν .receiverOn) (f := f) hf clock
  rw [hon]
  refine and_iff_right ?_
  left
  exact Nat.zero_le _

/-- The frame that locked the door, played again after the receiver lost its power. -/
theorem power_cuts_replay :
    let s := Powered.machine.run [.press LOCK_SIGNAL powerOn, .deliver 0 powerOn,
      .press UNLOCK_SIGNAL powerOn, .deliver 1 powerOn]
    ¬ s.receiver.Accepts (frameAt 1 LOCK_SIGNAL) powerOn ∧
      (s.step .receiverOn).receiver.Accepts (frameAt 1 LOCK_SIGNAL) powerOn := by
  intro s
  have hlast : s.last = 2 := by decide +kernel
  have h := power_cuts [.press LOCK_SIGNAL powerOn, .deliver 0 powerOn,
    .press UNLOCK_SIGNAL powerOn, .deliver 1 powerOn] (frameAt 1 LOCK_SIGNAL, 1)
    (by decide +kernel) powerOn
  refine ⟨?_, h.2.2 (by decide)⟩
  rw [h.1]
  rintro ⟨hnum, -⟩
  rw [show (Powered.machine.run _).last = 2 from hlast] at hnum
  omega

/-! ## Presses that arrive at once -/

/-- How many presses are still ignored. -/
def Powered.behind (s : Powered) : ℕ := min s.last 29 - 1 - s.fob.sent.length

/-- The press that is sent next, at the end of the record. -/
theorem Powered.press_air (s : Powered) (sig : Byte) (clock : timeval) :
    (s.step (.press sig clock)).air[s.air.length]? =
      some ((s.fob.sendSignal sig clock).message, s.fob.sent.length + 1) := by
  simp [Powered.step, Fob.sendSignal]

theorem Powered.step_deliver {i number : ℕ} {f : struct_message} {clock : timeval}
    (hf : s.air[i]? = some (f, number)) : s.step (.deliver i clock) = { s with
      receiver := s.receiver.OnDataRecv f clock
      last := if (s.receiver.rollingCode.matches f.rollingCode).1 then number else s.last } := by
  simp only [Powered.step, hf]

/-- **One press whose frame arrives at once** is ignored while the fob is behind, and
brings it one frame closer. From then on the clock check decides. -/
theorem Powered.exchange (h : s.field.OnNumbers deployed ν) (x : Press) :
    let sent := s.step (.press x.sig x.pressed)
    let s' := sent.step (.deliver s.air.length x.arrived)
    s'.air.length = s.air.length + 1 ∧ s'.behind = s.behind - 1 ∧
    sent.signal (.deliver s.air.length x.arrived) =
      if s.behind = 0 ∧ x.valid = true then some x.sig else none := by
  intro sent s'
  have hget : sent.air[s.air.length]? = some (_, s.fob.sent.length + 1) :=
    s.press_air x.sig x.pressed
  have hmem := List.mem_of_getElem? hget
  have hsent : sent.field.OnNumbers deployed _ := Powered.step_numbers h (.press x.sig x.pressed)
  have hahead : AheadOrLate s.last (s.fob.sent.length + 1) ↔ s.behind = 0 := by
    unfold AheadOrLate Powered.behind
    omega
  have hacc : sent.receiver.Accepts (s.fob.sendSignal x.sig x.pressed).message x.arrived ↔
      s.behind = 0 ∧ x.valid = true := by
    rw [Powered.accepts_iff hsent hmem, ← hahead]
    rfl
  have hfound : (sent.receiver.rollingCode.matches
      (s.fob.sendSignal x.sig x.pressed).message.rollingCode).1 = true ↔ s.behind = 0 :=
    (Powered.finds_iff hsent hmem).trans hahead
  have hstep : s' = _ := Powered.step_deliver hget
  have hlength : sent.fob.sent.length = s.fob.sent.length + 1 := by
    simp [sent, Powered.step, Fob.sendSignal]
  refine ⟨?_, ?_, ?_⟩
  · rw [hstep]
    simp [sent, Powered.step]
  · unfold Powered.behind at *
    rw [hstep]
    simp only [hlength]
    by_cases hb : min s.last 29 - 1 - s.fob.sent.length = 0
    · rw [if_pos (hfound.2 hb)]
      omega
    · rw [if_neg (mt hfound.1 hb)]
      have hlast : sent.last = s.last := rfl
      rw [hlast]
      omega
  · simp only [Powered.signal, hget, Option.bind_some]
    by_cases hb : s.behind = 0 ∧ x.valid = true
    · rw [if_pos hb, signal_accepted (hacc.2 hb)]
      rfl
    · rw [if_neg hb, signal_refused (mt hacc.1 hb)]

/-- **A series of presses**: those after the ignored ones that pass the clock check. -/
theorem Powered.exchanges_signals (ps : List Press) : ∀ {s : Powered} {ν : Numbers},
    s.field.OnNumbers deployed ν →
    Powered.machine.labels Powered.signal s (exchanges s.air.length ps) =
      ((ps.drop s.behind).filter Press.valid).map Press.sig := by
  induction ps with
  | nil =>
    intro s ν _
    rw [List.drop_nil]
    rfl
  | cons x ps ih =>
    intro s ν hν
    obtain ⟨hlen, hbehind, hsignal⟩ := Powered.exchange hν x
    have hν' := Powered.step_numbers (Powered.step_numbers hν (.press x.sig x.pressed))
      (.deliver s.air.length x.arrived)
    have hrest := ih hν'
    rw [hlen, hbehind] at hrest
    simp only [exchanges, Machine.labels]
    rw [show Powered.machine.step = Powered.step from rfl, hsignal, hrest]
    cases hb : s.behind with
    | zero =>
      rw [Nat.zero_sub, List.drop_zero, List.drop_zero, List.filter_cons]
      by_cases hvalid : x.valid = true
      · rw [if_pos ⟨rfl, hvalid⟩, if_pos hvalid]
        rfl
      · rw [if_neg fun h => hvalid h.2, if_neg hvalid]
        rfl
    | succ b => rfl

/-- **Presses until the units agree.** From any history, of presses that arrive at once,
their clock checks passing, the first `min last 29 - 1 - pressed` are ignored and all the
others acted upon, where `last` is the number the receiver found last and `pressed` how
many the fob has sent since its power-on. So after a power cut at most 28 are lost. -/
theorem ignored_presses (es : List PowerEvent) (ps : List Press)
    (hvalid : ∀ x ∈ ps, isValidTime x.arrived.micros x.pressed.micros = true) :
    let s := Powered.machine.run es
    Powered.machine.labels Powered.signal s (exchanges s.air.length ps) =
      (ps.drop (min s.last 29 - 1 - s.fob.sent.length)).map Press.sig := by
  intro s
  obtain ⟨ν, hν⟩ := Powered.run_numbers es
  have hall : (ps.drop s.behind).filter Press.valid = ps.drop s.behind := by
    rw [List.filter_eq_self]
    intro x hx
    exact hvalid x (List.mem_of_mem_drop hx)
  rw [Powered.exchanges_signals ps hν, hall]
  rfl

/-- The door is locked by the third press, and the fob's battery is changed: two presses
are ignored. -/
theorem ignored_presses_battery :
    let s := Powered.machine.run [.press WINDOW_SIGNAL powerOn, .press WINDOW_SIGNAL powerOn,
      .press LOCK_SIGNAL powerOn, .deliver 2 powerOn, .fobOn]
    Powered.machine.labels Powered.signal s (exchanges 3
      [⟨UNLOCK_SIGNAL, powerOn, powerOn⟩, ⟨UNLOCK_SIGNAL, powerOn, powerOn⟩,
        ⟨UNLOCK_SIGNAL, powerOn, powerOn⟩, ⟨LOCK_SIGNAL, powerOn, powerOn⟩]) =
      [UNLOCK_SIGNAL, LOCK_SIGNAL] := by
  intro s
  have hlast : s.last = 3 := by decide +kernel
  have hsent : s.fob.sent.length = 0 := by decide +kernel
  have hair : s.air.length = 3 := by decide +kernel
  have h := ignored_presses [.press WINDOW_SIGNAL powerOn, .press WINDOW_SIGNAL powerOn,
    .press LOCK_SIGNAL powerOn, .deliver 2 powerOn, .fobOn]
    [⟨UNLOCK_SIGNAL, powerOn, powerOn⟩, ⟨UNLOCK_SIGNAL, powerOn, powerOn⟩,
      ⟨UNLOCK_SIGNAL, powerOn, powerOn⟩, ⟨LOCK_SIGNAL, powerOn, powerOn⟩] (by decide)
  change Powered.machine.labels Powered.signal s (exchanges s.air.length _) =
    List.map Press.sig (List.drop (min s.last 29 - 1 - s.fob.sent.length) _) at h
  rw [hair, hlast, hsent] at h
  exact h

end KeyFob
