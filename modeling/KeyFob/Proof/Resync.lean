import KeyFob.Proof.Search
import KeyFob.Spec.Channel

/-!
# Resynchronisation under loss

As long as fewer than `SEARCH_LIMIT` frames in a row are lost, the receiver accepts
every frame it gets and stands at its code afterwards, behind the sender by the frames
in the air. Nothing is assumed about the generator: where a code repeats inside the
window the search stops at an earlier index than the sender's, at the same code.
-/

namespace KeyFob

open RollingCode

variable {w : ℕ} {rc : RollingCode w} {s : Link w} {code : ULong w} {air : List (ULong w)}

/-- **The invariant of the link**: the frames in the air carry the codes that follow the
receiver's and those of the frames lost since the last delivery, and the sender stands at
the last of them. -/
structure Link.InStep (s : Link w) : Prop where
  air : s.air = (List.range' (s.lost + 1) s.air.length).map s.receiver.code
  fob : s.fob = s.receiver.moveTo (s.receiver.code (s.lost + s.air.length))

theorem Link.init_inStep (rc : RollingCode w) : (Link.machine rc).init.InStep := ⟨rfl, rfl⟩

theorem Link.send_inStep (h : s.InStep) : (s.step .send).InStep := by
  have hnext : s.fob.next = s.receiver.moveTo (s.receiver.code (s.lost + s.air.length + 1)) := by
    rw [h.fob, next_moveTo]
  simp only [Link.step, hnext]
  refine ⟨?_, ?_⟩
  · simp only [List.length_append, List.length_singleton, getSeed_eq, moveTo_seed]
    rw [List.range'_1_concat, List.map_append, ← h.air, List.map_singleton]
    congr 3
    omega
  · simp only [List.length_append, List.length_singleton]
    rfl

/-- The frame that leaves the air carries the first code after those lost. -/
theorem Link.InStep.head (h : s.InStep) (hair : s.air = code :: air) :
    code = s.receiver.code (s.lost + 1) ∧
      air = (List.range' (s.lost + 2) air.length).map s.receiver.code := by
  have hcodes := h.air
  rw [hair, List.length_cons, List.range'_succ, List.map_cons] at hcodes
  exact List.cons.inj hcodes

theorem Link.step_lose (hair : s.air = code :: air) :
    s.step .lose = { s with air := air, lost := s.lost + 1 } := by
  simp only [Link.step, hair]

theorem Link.lose_inStep (h : s.InStep) (hair : s.air = code :: air) : (s.step .lose).InStep := by
  rw [Link.step_lose hair]
  refine ⟨(h.head hair).2, ?_⟩
  have hfob := h.fob
  rw [hair, List.length_cons] at hfob
  rw [hfob, show s.lost + (air.length + 1) = s.lost + 1 + air.length by omega]

/-- A frame after a gap of at most `SEARCH_LIMIT - 1` is in the receiver's window. -/
theorem Link.InStep.inWindow (h : s.InStep) (hair : s.air = code :: air) (hlost : s.lost ≤ 99) :
    s.receiver.InWindow code :=
  ⟨s.lost + 1, by unfold SEARCH_LIMIT; omega, (h.head hair).1.symm⟩

theorem Link.step_deliver (hair : s.air = code :: air) (hwin : s.receiver.InWindow code) :
    s.step .deliver = { s with air := air, receiver := s.receiver.moveTo code, lost := 0 } := by
  simp only [Link.step, hair, matches_snd, if_pos hwin]

/-- **A delivery within the window** brings the receiver to the code of the frame. -/
theorem Link.deliver_inStep (h : s.InStep) (hair : s.air = code :: air) (hlost : s.lost ≤ 99) :
    (s.step .deliver).InStep := by
  obtain ⟨hcode, hrest⟩ := h.head hair
  have hfob := h.fob
  rw [hair, List.length_cons] at hfob
  -- the codes of the receiver from there on
  have hon : ∀ k, (s.receiver.moveTo code).code k = s.receiver.code (s.lost + 1 + k) := by
    intro k
    rw [hcode, code_moveTo]
  rw [Link.step_deliver hair (h.inWindow hair hlost)]
  refine ⟨?_, ?_⟩
  · simp only
    rw [hrest, List.length_map, List.length_range']
    apply List.ext_getElem
    · simp
    · intro i _ _
      simp only [List.getElem_map, List.getElem_range', hon]
      congr 1
      omega
  · simp only [hon, moveTo_moveTo, Nat.zero_add]
    rw [hfob, show s.lost + (air.length + 1) = s.lost + 1 + air.length by omega]

/-- **One event keeps the two generators in step.** -/
theorem Link.step_inStep (h : s.InStep) (e : LinkEvent)
    (hlost : (s.delivered e).isSome → s.lost ≤ 99) : (s.step e).InStep := by
  cases e with
  | send => exact Link.send_inStep h
  | deliver =>
    cases hair : s.air with
    | nil =>
      have hstay : s.step .deliver = s := by simp only [Link.step, hair]
      rw [hstay]
      exact h
    | cons code air =>
      apply Link.deliver_inStep h hair
      apply hlost
      simp only [Link.delivered, hair, List.head?_cons, Option.isSome_some]
  | lose =>
    cases hair : s.air with
    | nil =>
      have hstay : s.step .lose = s := by simp only [Link.step, hair]
      rw [hstay]
      exact h
    | cons code air => exact Link.lose_inStep h hair

/-- What a delivery does under the invariant. -/
theorem Link.InStep.delivers (h : s.InStep) (hair : s.air = code :: air) (hlost : s.lost ≤ 99) :
    (s.receiver.matches code).1 = true ∧ (s.step .deliver).receiver.getSeed = code ∧
    (∀ i c, (s.step .deliver).air[i]? = some c → (s.step .deliver).receiver.code (i + 1) = c) ∧
    ∀ n, (s.step .deliver).receiver.code ((s.step .deliver).air.length + n) =
      (s.step .deliver).fob.code n := by
  have hwin := h.inWindow hair hlost
  have hafter := Link.deliver_inStep h hair hlost
  have hstep := Link.step_deliver hair hwin
  have hlost' : (s.step .deliver).lost = 0 := by rw [hstep]
  refine ⟨(matches_fst _ _).2 hwin, ?_, ?_, ?_⟩
  · rw [hstep]
    rfl
  · intro i c hc
    have hcodes := congrArg (fun l => l[i]?) hafter.air
    simp only [hlost', List.getElem?_map] at hcodes
    rw [hc, List.getElem?_range' (List.getElem?_eq_some_iff.1 hc).1, Option.map_some,
      Option.some.injEq] at hcodes
    rw [hcodes]
    congr 1
    omega
  · intro n
    have hfob := hafter.fob
    rw [hlost', Nat.zero_add] at hfob
    rw [hfob, code_moveTo]

/-- **Resynchronisation under loss.** Frames arrive in the order sent, whenever they do. If
at most 99 frames in a row are lost before each delivery, `matches` returns true on every
delivered frame, and afterwards the receiver's seed is the code of that frame, the frames
in the air carry its next codes, and from there on both generators go on with the same
codes. -/
theorem matches_every_delivery (rc : RollingCode w) (es : List LinkEvent)
    (hloss : (Link.machine rc).Along (fun s e => (s.delivered e).isSome → s.lost ≤ 99)
      (Link.machine rc).init es) :
    (Link.machine rc).Along (fun s e => ∀ code ∈ s.delivered e,
      (s.receiver.matches code).1 = true ∧
      (s.step e).receiver.getSeed = code ∧
      (∀ i c, (s.step e).air[i]? = some c → (s.step e).receiver.code (i + 1) = c) ∧
      ∀ n, (s.step e).receiver.code ((s.step e).air.length + n) = (s.step e).fob.code n)
      (Link.machine rc).init es := by
  refine Machine.along_of_inv (I := Link.InStep) (fun s e h hl => Link.step_inStep h e hl) ?_
    (Link.init_inStep rc) hloss
  intro s e h hl code hcode
  have hlost := hl (Option.isSome_iff_exists.2 ⟨code, hcode⟩)
  cases e with
  | send => cases hcode
  | lose => cases hcode
  | deliver =>
    cases hair : s.air with
    | nil =>
      rw [Link.delivered, hair] at hcode
      cases hcode
    | cons head air =>
      rw [Link.delivered, hair, List.head?_cons, Option.mem_some_iff] at hcode
      subst hcode
      exact h.delivers hair hlost

/-- Five frames, of which the first two are lost and the last is sent with one in the air. -/
theorem matches_every_delivery_spec :
    (Link.machine (ofSeed 100 : RollingCode 64)).Along (fun s e => ∀ code ∈ s.delivered e,
      (s.receiver.matches code).1 = true ∧
      (s.step e).receiver.getSeed = code ∧
      (∀ i c, (s.step e).air[i]? = some c → (s.step e).receiver.code (i + 1) = c) ∧
      ∀ n, (s.step e).receiver.code ((s.step e).air.length + n) = (s.step e).fob.code n)
      (Link.machine (ofSeed 100 : RollingCode 64)).init
      [.send, .send, .send, .lose, .send, .lose, .deliver, .send, .deliver, .deliver] :=
  matches_every_delivery _ _ (by decide +kernel)

end KeyFob
