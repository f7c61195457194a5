import KeyFob.Proof.Forged
import KeyFob.Proof.Frame
import KeyFob.Spec.Wire

/-!
# Bytes on the air

* `bytes_on_air`: the sketches on bytes do what they do on messages, and a copy reads past
  the end of a frame only if someone else sent a short one.
* `accepted_bytes`: which bytes the receiver acts upon, after anything that was sent.
-/

namespace KeyFob

open RollingCode Receiver Block

variable {L : Layout} {s : Wire} {t : Exposed} {e : WireEvent} {r : Receiver}
  {m m' : struct_message} {block frame : List Byte} {clock : timeval} {i p : ℕ}

/-! ## Frames -/

/-- Which bytes the members take does not depend on the message. -/
theorem covers_members : Covers (L.members m) i → Covers (L.members m') i := by
  intro h
  simp only [Covers, Layout.members, List.mem_cons, List.not_mem_nil, or_false, exists_eq_or_imp,
    exists_eq_left, length_toLE] at h ⊢
  exact h

/-- **A new message leaves nothing of the old one.** -/
theorem encode_encode (hblock : block.length = L.size) :
    L.encode (L.encode block m) m' = L.encode block m' :=
  writeAll_writeAll (members_stacked L m) (members_stacked L m') (fun _ => covers_members) hblock

/-! ## Bytes and messages -/

/-- The block of zeros that `message` is at power-on. -/
def Layout.zeros (L : Layout) : List Byte := List.replicate L.size 0

theorem Layout.length_zeros (L : Layout) : L.zeros.length = L.size := List.length_replicate

/-- **The state on bytes carries the state on messages**, as long as the receiver is
defined. -/
structure Wire.Carries (L : Layout) (s : Wire) (t : Exposed) : Prop where
  rollingCode : s.rollingCode = t.fob.rollingCode
  length : s.message.length = L.size
  padding : ∀ m, L.encode s.message m = L.encode L.zeros m
  air : s.air = t.fob.sent.map (L.encode L.zeros)
  fits : ∀ m ∈ t.fob.sent, L.Fits m
  receiver : ∀ r, s.receiver = some r → r = t.receiver

theorem Wire.init_carries (L : Layout) : (Wire.machine L).init.Carries L Exposed.machine.init where
  rollingCode := rfl
  length := L.length_zeros
  padding := fun _ => rfl
  air := rfl
  fits := fun _ hm => absurd hm List.not_mem_nil
  receiver := fun _ hr => (Option.some.inj hr).symm

theorem Wire.Carries.press (h : s.Carries L t) {sig : Byte}
    (hfits : (WireEvent.press sig clock).Fits L) :
    (s.step L (.press sig clock)).Carries L (t.step (.press sig clock)) := by
  have hcode : s.rollingCode.next = t.fob.rollingCode.next := congrArg RollingCode.next h.rollingCode
  refine ⟨hcode, length_encode h.length, ?_, ?_, ?_, h.receiver⟩
  · intro m
    exact (encode_encode h.length).trans (h.padding m)
  · simp only [Wire.step, Exposed.step, Fob.sendSignal, List.map_append, List.map_cons, List.map_nil]
    rw [h.air, hcode, h.padding]
  · intro m hm
    rcases List.mem_append.1 hm with hm | hm
    · exact h.fits m hm
    · obtain rfl := List.mem_singleton.1 hm
      exact hfits

/-- What the receiver makes of a frame, on both levels. -/
theorem Wire.Carries.arrive (h : s.Carries L t)
    (hframe : ∀ r r' : Receiver, r.OnDataRecvBuffer L frame clock = some r' →
      r' = r.OnDataRecv m clock) :
    (s.arrive L frame clock).Carries L { t with receiver := t.receiver.OnDataRecv m clock } where
  rollingCode := h.rollingCode
  length := h.length
  padding := h.padding
  air := h.air
  fits := h.fits
  receiver := by
    intro r' hr'
    obtain ⟨r, hr, hbuffer⟩ := Option.bind_eq_some_iff.1 hr'
    rw [hframe r r' hbuffer, h.receiver r hr]

theorem Wire.Carries.step (h : s.Carries L t) (hfits : e.Fits L) :
    (s.step L e).Carries L (t.step (e.message L)) := by
  cases e with
  | press sig clock => exact h.press hfits
  | deliver i clock =>
    have hair : s.air[i]? = (t.fob.sent[i]?).map (L.encode L.zeros) := by
      rw [h.air, List.getElem?_map]
    simp only [Wire.step, WireEvent.message, Exposed.step, hair]
    cases hm : t.fob.sent[i]? with
    | none => exact h
    | some m =>
      apply h.arrive
      intro r r' hr
      rw [onDataRecvBuffer_encode r L.length_zeros (h.fits m (List.mem_of_getElem? hm))] at hr
      exact (Option.some.inj hr).symm
  | forge frame clock =>
    apply h.arrive
    intro r r' hr
    rw [onDataRecvBuffer_eq] at hr
    split at hr
    · exact (Option.some.inj hr).symm
    · cases hr

theorem Wire.refines (L : Layout) : Machine.Refines (Wire.machine L) Exposed.machine
    (fun _ e => e.Fits L) (fun _ e => some (e.message L)) (Wire.Carries L) where
  init := Wire.init_carries L
  step := fun _ _ _ h hfits => h.step hfits

theorem Wire.run_carries {es : List WireEvent} (hfits : ∀ e ∈ es, e.Fits L) :
    ((Wire.machine L).run es).Carries L (Exposed.machine.run (es.map (WireEvent.message L))) := by
  have hrun := (Wire.refines L).run (Machine.along_of_mem hfits)
  rw [Machine.labels_map] at hrun
  exact hrun

/-! ## Reading past the end -/

/-- The receiver of the next state, on bytes. -/
theorem Wire.step_defined (h : s.Carries L t) (hfits : e.Fits L) :
    (s.step L e).receiver.isSome ↔ s.receiver.isSome ∧ e.Whole L := by
  cases e with
  | press sig clock => exact (and_iff_left trivial).symm
  | deliver i clock =>
    have hair : s.air[i]? = (t.fob.sent[i]?).map (L.encode L.zeros) := by
      rw [h.air, List.getElem?_map]
    refine Iff.trans ?_ (and_iff_left trivial).symm
    simp only [Wire.step, hair]
    cases hm : t.fob.sent[i]? with
    | none => exact Iff.rfl
    | some m =>
      simp only [Option.map_some, Wire.arrive]
      cases hr : s.receiver with
      | none => exact Iff.rfl
      | some r =>
        have hbuffer : r.OnDataRecvBuffer L (L.encode L.zeros m) clock =
            some (r.OnDataRecv m clock) :=
          onDataRecvBuffer_encode r L.length_zeros (h.fits m (List.mem_of_getElem? hm))
        rw [Option.bind_some, hbuffer]
        exact Iff.rfl
  | forge frame clock =>
    simp only [Wire.step, Wire.arrive]
    cases hr : s.receiver with
    | none => simp
    | some r =>
      rw [Option.bind_some, onDataRecvBuffer_eq]
      change _ ↔ _ ∧ L.size ≤ frame.length
      split <;> simp_all

theorem Wire.defined_iff {es : List WireEvent} (hfits : ∀ e ∈ es, e.Fits L) :
    ((Wire.machine L).run es).receiver.isSome ↔ ∀ e ∈ es, e.Whole L := by
  induction es using List.reverseRecOn with
  | nil => exact iff_of_true rfl fun _ he => absurd he List.not_mem_nil
  | append_singleton es e ih =>
    have hbefore : ∀ x ∈ es, x.Fits L := fun x hx => hfits x (List.mem_append_left _ hx)
    have hlast := hfits e (List.mem_append_right _ List.mem_cons_self)
    rw [Machine.run_concat]
    refine (Wire.step_defined (Wire.run_carries hbefore) hlast).trans ?_
    rw [ih hbefore]
    simp only [List.mem_append, List.mem_singleton, or_imp, forall_and, forall_eq]

/-- **The sketches on bytes.** On any layout, for any presses, deliveries and forged frames:
the frames of the fob are its messages, with the padding zero; the receiver reads past the
end of a frame exactly if a forged one was shorter than the message, and otherwise it is in
the state it reaches on the messages that the frames say. -/
theorem bytes_on_air (L : Layout) (es : List WireEvent) (hfits : ∀ e ∈ es, e.Fits L) :
    let s := (Wire.machine L).run es
    let t := Exposed.machine.run (es.map (WireEvent.message L))
    s.air = t.fob.sent.map (L.encode (List.replicate L.size 0)) ∧
    (∀ frame ∈ s.air, frame.length = L.size) ∧
    s.receiver = if ∀ e ∈ es, e.Whole L then some t.receiver else none := by
  intro s t
  have hrun : s.Carries L t := Wire.run_carries hfits
  have hdefined : s.receiver.isSome ↔ ∀ e ∈ es, e.Whole L := Wire.defined_iff hfits
  refine ⟨hrun.air, ?_, ?_⟩
  · intro frame hframe
    rw [hrun.air] at hframe
    obtain ⟨m, -, rfl⟩ := List.mem_map.1 hframe
    exact length_encode L.length_zeros
  · by_cases hwhole : ∀ e ∈ es, e.Whole L
    · obtain ⟨r, hr⟩ := Option.isSome_iff_exists.1 (hdefined.2 hwhole)
      rw [if_pos hwhole, hr, hrun.receiver r hr]
    · rw [if_neg hwhole, ← Option.not_isSome_iff_eq_none]
      exact mt hdefined.1 hwhole

/-- A press that arrives, and a forged frame that is one byte short. -/
theorem bytes_on_air_short :
    ((Wire.machine .esp32).run [.press LOCK_SIGNAL powerOn, .deliver 0 powerOn,
      .forge (List.replicate 23 0) powerOn]).receiver = none :=
  (bytes_on_air .esp32 [.press LOCK_SIGNAL powerOn, .deliver 0 powerOn,
    .forge (List.replicate 23 0) powerOn] (by decide)).2.2.trans (if_neg (by decide))

/-! ## The bytes of a code -/

/-- Four bytes are a number of 32 bits. -/
theorem ofNat_ofLE_eq_iff {bs : List Byte} {x : BitVec 32} (hbs : bs.length = 4) :
    BitVec.ofNat 32 (ofLE bs) = x ↔ bs = toLE 4 x.toNat := by
  have hlt : ofLE bs < 2 ^ 32 := by
    have h := ofLE_lt bs
    rw [hbs] at h
    omega
  refine ⟨?_, ?_⟩
  · rintro rfl
    rw [BitVec.toNat_ofNat, Nat.mod_eq_of_lt hlt]
    have h := toLE_ofLE bs
    rw [hbs] at h
    exact h.symm
  · rintro rfl
    exact (ofNat_ofLE_toLE 4 _).trans (by simp)

theorem decode_rollingCode_iff {x : ULong 32} (hlen : L.size ≤ frame.length) :
    (L.decode (frame.take L.size)).rollingCode = x ↔
      readAt frame L.rollingCode 4 = toLE 4 x.toNat := by
  have haction := L.action_above
  have hsize := L.size_above
  change BitVec.ofNat 32 (ofLE (readAt (frame.take L.size) L.rollingCode 4)) = x ↔ _
  rw [readAt_take (by omega)]
  apply ofNat_ofLE_eq_iff
  unfold readAt
  rw [List.length_take, List.length_drop]
  omega

/-- **Any bytes move the receiver forward** in the code sequence. -/
theorem Wire.receiver_at (L : Layout) (es : List WireEvent) :
    ∀ r, ((Wire.machine L).run es).receiver = some r → ∃ p, r.At p := by
  have harrive : ∀ (s : Wire) frame clock, (∀ r, s.receiver = some r → ∃ p, r.At p) →
      ∀ r, (s.arrive L frame clock).receiver = some r → ∃ p, r.At p := by
    intro s frame clock h r' hr'
    obtain ⟨r, hr, hbuffer⟩ := Option.bind_eq_some_iff.1 hr'
    obtain ⟨p, hp⟩ := h r hr
    rw [onDataRecvBuffer_eq] at hbuffer
    split at hbuffer
    · obtain rfl := Option.some.inj hbuffer
      obtain ⟨p', -, hp'⟩ := Receiver.moves hp (L.decode (frame.take L.size)) clock
      exact ⟨p', hp'⟩
    · cases hbuffer
  apply Machine.inv_run (I := fun s : Wire => ∀ r, s.receiver = some r → ∃ p, r.At p)
  · intro r hr
    obtain rfl := Option.some.inj hr
    exact ⟨0, rfl⟩
  · intro s e h
    cases e with
    | press sig clock => exact h
    | deliver i clock =>
      cases hframe : s.air[i]? with
      | none =>
        have hstay : (Wire.machine L).step s (.deliver i clock) = s := by
          simp only [Wire.machine, Wire.step, hframe]
        rw [hstay]
        exact h
      | some frame =>
        have hstep : (Wire.machine L).step s (.deliver i clock) = s.arrive L frame clock := by
          simp only [Wire.machine, Wire.step, hframe]
        rw [hstep]
        exact harrive s frame clock h
    | forge frame clock => exact harrive s frame clock h

/-- **Which bytes the receiver acts upon.** After anything that was sent, and as long as no
copy has read past the end of a frame, there is a `q ≤ 29` so that a frame of at least the
size of the message is acted upon exactly if the four bytes at the place of the code are
those of one of the codes `q, ..., 45` and its stamp passes the clock check. -/
theorem accepted_bytes (L : Layout) (es : List WireEvent) (r : Receiver)
    (hr : ((Wire.machine L).run es).receiver = some r) :
    ∃ q ≤ 29, ∀ (frame : List Byte) (clock : timeval), L.size ≤ frame.length →
      (r.Accepts (L.decode (frame.take L.size)) clock ↔
        (∃ l, q ≤ l ∧ l ≤ 45 ∧
          readAt frame L.rollingCode 4 = toLE 4 (deployed.code l).toNat) ∧
        isValidTime clock.micros (L.decode (frame.take L.size)).tv_now.micros = true) := by
  obtain ⟨p, hp⟩ := Wire.receiver_at L es r hr
  refine ⟨min p 29, min_le_right _ _, ?_⟩
  intro frame clock hlen
  rw [accepts_iff, hp.inWindow_iff]
  refine and_congr_left' (exists_congr fun l => and_congr_right' (and_congr_right' ?_))
  rw [← decode_rollingCode_iff hlen]
  exact eq_comm

/-- The code of press 40 on any padding, after a press that arrived and a frame of noise. -/
theorem accepted_bytes_padding :
    ∃ r, ((Wire.machine .esp32).run [.press LOCK_SIGNAL powerOn, .deliver 0 powerOn,
      .forge (List.replicate 30 255) powerOn]).receiver = some r ∧
      r.Accepts (Layout.esp32.decode ((Layout.esp32.encode (List.replicate 24 255)
        (frameAt 40 WINDOW_SIGNAL)).take Layout.esp32.size)) powerOn := by
  obtain ⟨r, hr⟩ := Option.isSome_iff_exists.1 (show ((Wire.machine .esp32).run
    [.press LOCK_SIGNAL powerOn, .deliver 0 powerOn,
      .forge (List.replicate 30 255) powerOn]).receiver.isSome by decide +kernel)
  obtain ⟨q, hq, hbytes⟩ := accepted_bytes .esp32 _ r hr
  refine ⟨r, hr, (hbytes _ powerOn (by decide)).2 ⟨⟨40, by omega, by omega, ?_⟩, ?_⟩⟩
  · decide +kernel
  · decide +kernel

end KeyFob
