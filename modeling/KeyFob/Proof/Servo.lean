import KeyFob.Lib.Merge
import KeyFob.Spec.Servo

/-!
# A servo and its calls

* `ServoLibrary.Documented.follows`: a servo that one thread sets up while another one writes
  to it follows what is written from its attach on.
* `ServoLibrary.Documented.moved_since`: a servo told to move after that has moved.
-/

namespace KeyFob

/-- The angles that the calls write. -/
def servoAngles (cs : List ServoCall) : List ℕ :=
  cs.filterMap fun c => match c with
    | .write angle => some angle
    | _ => none

theorem servoAngles_append (cs ds : List ServoCall) :
    servoAngles (cs ++ ds) = servoAngles cs ++ servoAngles ds := List.filterMap_append

theorem servoAngles_attach (pin min max : ℕ) (angles : List ℕ) :
    servoAngles (.attach pin min max :: angles.map .write) = angles := by
  unfold servoAngles
  rw [List.filterMap_cons_none rfl, List.filterMap_map]
  exact List.filterMap_some

namespace ServoLibrary.Documented

variable {σ : Type} {L : ServoLibrary σ} {cs ds : List ServoCall} {t : σ}

/-- **Before its attach** nothing drives a servo. -/
theorem unattached (hL : L.Documented) (hcs : ∀ c ∈ cs, ∀ pin min max, c ≠ .attach pin min max) :
    L.attached (L.machine.run cs) = false ∧ L.driven cs = [] := by
  induction cs using List.reverseRecOn with
  | nil => exact ⟨hL.attached_servo, rfl⟩
  | append_singleton cs c ih =>
    obtain ⟨hatt, hdrv⟩ := ih fun d hd => hcs d (List.mem_append_left _ hd)
    have hdrive : L.drive (L.machine.run cs) c = none := by
      cases c with
      | write angle => exact if_neg (by simp [hatt])
      | setPeriodHertz hertz => rfl
      | attach pin min max => rfl
    refine ⟨?_, ?_⟩
    · rw [Machine.run_concat, ← hatt]
      cases c with
      | write angle => exact hL.attached_write _ angle
      | setPeriodHertz hertz => exact hL.attached_setPeriodHertz _ hertz
      | attach pin min max => exact absurd rfl (hcs _ (by simp) pin min max)
    · unfold driven at hdrv ⊢
      rw [Machine.labels_concat, hdrv]
      change (L.drive (L.machine.run cs) c).toList = []
      rw [hdrive]
      rfl

/-- **After its attach** a servo goes where it is told to. -/
theorem attached_runFrom (hL : L.Documented) (ht : L.attached t = true) {angles : List ℕ}
    (hangles : ∀ angle ∈ angles, angle ≤ 180) :
    L.attached (L.machine.runFrom t (angles.map .write)) = true ∧
      L.machine.labels L.drive t (angles.map .write) = angles ∧
      ∀ angle, angles.getLast? = some angle →
        L.read (L.machine.runFrom t (angles.map .write)) = angle := by
  induction angles using List.reverseRecOn with
  | nil => exact ⟨ht, rfl, fun _ h => absurd h (by simp)⟩
  | append_singleton angles a ih =>
    obtain ⟨hatt, hdrv, -⟩ := ih fun x hx => hangles x (List.mem_append_left _ hx)
    have ha : a ≤ 180 := hangles a (by simp)
    have hread := hL.read_write _ a hatt ha
    have hdrive : L.drive (L.machine.runFrom t (angles.map .write)) (.write a) = some a := by
      refine (if_pos hatt).trans ?_
      rw [hread]
    rw [List.map_append, List.map_singleton, Machine.runFrom_append, Machine.labels_concat, hdrv,
      hdrive]
    refine ⟨(hL.attached_write _ a).trans hatt, rfl, ?_⟩
    intro angle hangle
    obtain rfl : a = angle := by simpa using hangle
    exact hread

/-- **A servo follows what is written to it from its attach on.** One thread sets the servo
up and stops it; the other one writes to it at any time. -/
theorem follows (hL : L.Documented) {pin : ℕ} (hpin : pin ∈ [SERVO_LK, SERVO_WND])
    {angles : List ℕ} (hangles : ∀ angle ∈ angles, angle ≤ 180)
    (h : Merge [.setPeriodHertz 50, .attach pin 500 2400, .write 20] (angles.map .write) cs) :
    ∃ before since, cs = before ++ .attach pin 500 2400 :: since.map .write ∧
      (∀ c ∈ before, ∀ pin min max, c ≠ .attach pin min max) ∧ L.driven cs = since ∧
      ∀ angle, (servoAngles cs).getLast? = some angle → L.read (L.machine.run cs) = angle := by
  have hsetup : [.setPeriodHertz 50, .attach pin 500 2400, .write 20] =
      [ServoCall.setPeriodHertz 50] ++ .attach pin 500 2400 :: [.write 20] := rfl
  obtain ⟨v₁, v₂, w₁, w₂, hv, rfl, h₁, h₂⟩ := h.split hsetup
  obtain ⟨angles₁, angles₂, rfl, rfl, rfl⟩ := List.map_eq_append_iff.1 hv
  have hstop : [ServoCall.write 20] = [20].map .write := rfl
  obtain ⟨since, rfl, hmerge⟩ := h₂.exists_map hstop rfl
  have hbefore : ∀ c ∈ w₁, ∀ p min max, c ≠ .attach p min max := by
    rintro c hc p min max rfl
    rcases h₁.mem.1 hc with hc | hc
    · exact absurd hc (by simp)
    · exact absurd hc (by simp)
  have hle : ∀ angle ∈ since, angle ≤ 180 := by
    intro angle hangle
    rcases hmerge.mem.1 hangle with hfirst | hlater
    · rw [List.mem_singleton.1 hfirst]
      decide
    · exact hangles angle (List.mem_append_right _ hlater)
  have hne : since ≠ [] := List.ne_nil_of_mem (hmerge.mem.2 (Or.inl List.mem_cons_self))
  have hdrv := (hL.unattached hbefore).2
  have hattach : L.attached (L.attach (L.machine.run w₁) pin 500 2400) = true :=
    hL.attached_attach _ pin hpin
  obtain ⟨-, hsince, hread⟩ := hL.attached_runFrom hattach hle
  refine ⟨w₁, since, rfl, hbefore, ?_, ?_⟩
  · unfold driven at hdrv ⊢
    rw [Machine.labels_append, hdrv]
    exact hsince
  · intro angle hangle
    have hrun : L.machine.run (w₁ ++ .attach pin 500 2400 :: since.map .write) =
        L.machine.runFrom (L.attach (L.machine.run w₁) pin 500 2400) (since.map .write) :=
      Machine.runFrom_append _ _ _ _
    rw [hrun]
    apply hread
    rw [← hangle, servoAngles_append, servoAngles_attach, List.getLast?_append,
      List.getLast?_eq_some_getLast hne]
    rfl

/-- What was told to move after its attach has a direction written since then. -/
theorem moved_since (hL : L.Documented) {before : List ServoCall} {pin min max : ℕ} {since : List ℕ}
    (hcs : cs = before ++ .attach pin min max :: since.map .write)
    (hbefore : ∀ c ∈ before, ∀ pin min max, c ≠ .attach pin min max) (hds : ds <+: cs)
    (hatt : L.attached (L.machine.run ds) = true)
    (hmore : ((servoAngles ds).filter (· ≠ 20)).length < ((servoAngles cs).filter (· ≠ 20)).length) :
    since.filter (· ≠ 20) ≠ [] := by
  have hfirst : before <+: cs := by
    rw [hcs]
    exact List.prefix_append _ _
  -- the attach is among the calls made by then
  have hle : before <+: ds := by
    rcases List.prefix_or_prefix_of_prefix hds hfirst with hle | hle
    · have hun := (hL.unattached fun c hc => hbefore c (hle.subset hc)).1
      exact absurd (hun.symm.trans hatt) (by decide)
    · exact hle
  have hangles : servoAngles before <+: servoAngles ds := hle.filterMap _
  intro hnil
  rw [hcs, servoAngles_append, servoAngles_attach, List.filter_append, hnil, List.append_nil] at hmore
  exact absurd hmore (Nat.not_lt_of_le (hangles.filter _).length_le)

end ServoLibrary.Documented

/-- A servo that drops what is written to it before its attach, as that of `ESP32Servo` does. -/
def droppingServo : ServoLibrary (Bool × ℕ) where
  Servo := (false, 90)
  setPeriodHertz := fun s _ => s
  attach := fun s _ _ _ => (true, s.2)
  write := fun s angle => if s.1 then (true, min angle 180) else s
  attached := fun s => s.1
  read := fun s => if s.1 then s.2 else 0

theorem droppingServo_documented : droppingServo.Documented where
  attached_servo := rfl
  attached_setPeriodHertz := fun _ _ => rfl
  attached_write := fun s angle => by
    obtain ⟨att, pos⟩ := s
    cases att <;> rfl
  attached_attach := fun _ _ _ => rfl
  read_write := fun s angle hatt hangle => by
    obtain ⟨att, pos⟩ := s
    obtain rfl : att = true := hatt
    exact min_eq_left hangle

end KeyFob
