import KeyFob.Proof.Actuators
import KeyFob.Spec.Frame

/-!
# Decoding frames

* `decode_encode`: the receiver reads the members the fob wrote, whatever the padding.
* `control_act_eq_iff`: which actions leave mode, lock states and actuators alone.
* `frame_decoding_iff`: a buffer is handled safely exactly when it has the size of the
  message, or is longer and its first bytes are a frame the receiver ignores.
-/

namespace KeyFob

open RollingCode Receiver Block

variable {L : Layout} {r : Receiver} {m : struct_message} {now : timeval}

/-! ## The round trip -/

theorem members_stacked (L : Layout) (m : struct_message) : Stacked L.size (L.members m) := by
  have hsec := L.usec_above
  have husec := L.code_above
  have hcode := L.action_above
  have haction := L.size_above
  refine ⟨?_, ?_⟩
  · intro f hf
    simp only [Layout.members, List.mem_cons, List.not_mem_nil, or_false] at hf
    rcases hf with rfl | rfl | rfl | rfl
    all_goals
      simp only [length_toLE]
      omega
  · simp only [Layout.members, List.pairwise_cons, List.mem_cons, List.not_mem_nil, or_false,
      forall_eq_or_imp, forall_eq, length_toLE, List.Pairwise.nil, and_true, false_implies,
      implies_true]
    omega

theorem length_encode {block : List Byte} (hblock : block.length = L.size) :
    (L.encode block m).length = L.size := length_writeAll (members_stacked L m) hblock

/-- The bytes of a member, read back. -/
theorem readAt_encode {block : List Byte} (hblock : block.length = L.size) {off n x : ℕ}
    (hmem : (off, toLE n x) ∈ L.members m) : readAt (L.encode block m) off n = toLE n x := by
  have hread := readAt_writeAll (members_stacked L m) hblock _ hmem
  rw [length_toLE] at hread
  exact hread

/-- **The members come back as they were written.** -/
theorem decode_encode {block : List Byte} (hblock : block.length = L.size) (hfits : L.Fits m) :
    L.decode (L.encode block m) = m := by
  have hsec : readAt (L.encode block m) L.tv_sec L.secBytes = _ :=
    readAt_encode hblock List.mem_cons_self
  have husec : readAt (L.encode block m) L.tv_usec 4 = _ :=
    readAt_encode hblock (List.mem_cons_of_mem _ List.mem_cons_self)
  have hcode : readAt (L.encode block m) L.rollingCode 4 = _ :=
    readAt_encode hblock (List.mem_cons_of_mem _ (List.mem_cons_of_mem _ List.mem_cons_self))
  have haction : readAt (L.encode block m) L.action 1 = toLE 1 m.action.toNat :=
    readAt_encode hblock (by simp [Layout.members])
  unfold Layout.Fits at hfits
  unfold Layout.decode
  rw [hsec, husec, hcode, haction]
  have husec' : BitVec.ofNat 32 (ofLE (toLE 4 m.tv_now.tv_usec.toNat)) = m.tv_now.tv_usec :=
    (ofNat_ofLE_toLE 4 _).trans (by simp)
  have hcode' : BitVec.ofNat 32 (ofLE (toLE 4 m.rollingCode.toNat)) = m.rollingCode :=
    (ofNat_ofLE_toLE 4 _).trans (by simp)
  have haction' : BitVec.ofNat 8 (ofLE (toLE 1 m.action.toNat)) = m.action :=
    (ofNat_ofLE_toLE 1 _).trans (by simp)
  rw [husec', hcode', haction', ofNat_ofLE_toLE, BitVec.ofNat_toNat, hfits]

/-! ## Idle actions -/

/-- Whatever issues a command shows in the command history. -/
theorem control_ne_of_lt {r' : Receiver} (h : r.commands.length < r'.commands.length) :
    r'.control ≠ r.control := by
  intro hc
  obtain ⟨-, -, -, hcommands⟩ := control_eq_iff.1 hc
  rw [hcommands] at h
  exact absurd h (lt_irrefl _)

/-- Every case of the `switch` of window mode issues a command. -/
theorem windowSwitch_busy (hmode : r.windowMode = true) (h : r.message.action ∈ r.cases) :
    r.windowSwitch.control ≠ r.control := by
  rw [mem_cases_window hmode] at h
  unfold windowSwitch
  split_ifs with h1 h2 h3 h4 h5
  · exact control_ne_of_lt (by simp)
  · exact control_ne_of_lt (by simp)
  · exact control_ne_of_lt (by simp)
  · exact control_ne_of_lt (by simp)
  · exact control_ne_of_lt (by simp)
  · tauto

/-- A lock signal, once `state` and `state_old` are set. -/
theorem control_updateLockState_eq_iff {b : Bolt} {r' : Receiver}
    (hr' : r' = { r with state_old := r.state, state := b.state }) :
    r'.updateLockState.control = r.control ↔ r.state = b.state ∧ r.state_old = b.state := by
  have hstate : r'.state = b.state := by rw [hr']
  have hold : r'.state_old = r.state := by rw [hr']
  have hcommands : r'.commands = r.commands := by rw [hr']
  rw [updateLockState_eq, hstate, hold]
  by_cases heq : b.state = r.state
  · -- no command is issued, but `state_old` is set
    rw [if_pos heq, hr']
    refine ⟨?_, ?_⟩
    · intro hc
      obtain ⟨-, -, hsaved, -⟩ := control_eq_iff.1 hc
      exact ⟨heq.symm, hsaved.symm.trans heq.symm⟩
    · rintro ⟨h1, h2⟩
      unfold Receiver.control
      rw [h1, h2]
  · rw [if_neg heq]
    refine ⟨?_, ?_⟩
    · intro hc
      have hlong : 0 < (lockCommands b.state).length := by cases b <;> decide
      apply absurd hc
      apply control_ne_of_lt
      rw [hcommands, List.length_append]
      omega
    · rintro ⟨h1, -⟩
      exact absurd h1.symm heq

/-- The cases of the `switch` of normal mode. -/
theorem control_normal_eq_iff (hoff : r.windowMode = false) (hcase : r.message.action ∈ r.cases) :
    r.normalSwitch.updateLockState.control = r.control ↔
      (r.message.action = LOCK_SIGNAL ∧ r.state = .Lock ∧ r.state_old = .Lock) ∨
      (r.message.action = UNLOCK_SIGNAL ∧ r.state = .Unlock ∧ r.state_old = .Unlock) := by
  rcases (mem_cases_normal hoff).1 hcase with ha | ha | ha
  · have hne : LOCK_SIGNAL ≠ UNLOCK_SIGNAL := by decide
    have hiff : r.normalSwitch.updateLockState.control = r.control ↔
        r.state = .Lock ∧ r.state_old = .Lock := by
      rw [normalSwitch_lock ha]
      exact control_updateLockState_eq_iff (b := .locked) rfl
    rw [hiff, ha]
    simp [hne]
  · have hne : UNLOCK_SIGNAL ≠ LOCK_SIGNAL := by decide
    have hiff : r.normalSwitch.updateLockState.control = r.control ↔
        r.state = .Unlock ∧ r.state_old = .Unlock := by
      rw [normalSwitch_unlock ha]
      exact control_updateLockState_eq_iff (b := .unlocked) rfl
    rw [hiff, ha]
    simp [hne]
  · -- the toggle enters window mode
    have hlock : WINDOW_SIGNAL ≠ LOCK_SIGNAL := by decide
    have hunlock : WINDOW_SIGNAL ≠ UNLOCK_SIGNAL := by decide
    have henter : r.normalSwitch.updateLockState.windowMode = true := by
      rw [updateLockState_eq, normalSwitch_window ha]
      split <;> rfl
    rw [ha]
    simp only [hlock, hunlock, false_and, or_self, iff_false]
    intro hc
    obtain ⟨hsame, -⟩ := control_eq_iff.1 hc
    rw [henter, hoff] at hsame
    cases hsame

/-- An action without a case, in either mode. -/
theorem control_unhandled_eq_iff (hcase : r.message.action ∉ r.cases) :
    r.act.control = r.control ↔
      r.windowMode = true ∨ r.state = r.state_old ∨ r.state = .Window := by
  rw [act_unhandled hcase]
  by_cases hmode : r.windowMode = true
  · rw [if_pos hmode]
    exact ⟨fun _ => Or.inl hmode, fun _ => rfl⟩
  rw [if_neg hmode, updateLockState_eq]
  by_cases hstate : r.state = r.state_old
  · rw [if_pos hstate]
    exact ⟨fun _ => Or.inr (Or.inl hstate), fun _ => rfl⟩
  rw [if_neg hstate]
  by_cases hwin : r.state = .Window
  · -- `updateLockState` has no case for `Window`
    have hnone : r.commands ++ lockCommands r.state = r.commands := by
      rw [hwin]
      exact List.append_nil _
    rw [hnone]
    exact ⟨fun _ => Or.inr (Or.inr hwin), fun _ => rfl⟩
  · have hlong : 0 < (lockCommands r.state).length := by
      cases hs : r.state with
      | Window => exact absurd hs hwin
      | Lock => decide
      | Unlock => decide
    refine ⟨?_, ?_⟩
    · intro hc
      apply absurd hc
      apply control_ne_of_lt
      rw [List.length_append]
      omega
    · rintro (h | h | h)
      · exact absurd h hmode
      · exact absurd h hstate
      · exact absurd h hwin

/-- **Which actions are idle.** The body of the `if` leaves mode, lock states and
actuators alone exactly on these. -/
theorem control_act_eq_iff : r.act.control = r.control ↔ r.Idle r.message.action := by
  unfold Receiver.Idle
  by_cases hcase : r.message.action ∈ r.cases
  · by_cases hmode : r.windowMode = true
    · have hact : r.act = r.windowSwitch := if_pos hmode
      rw [hact]
      simp only [hcase, not_true_eq_false, hmode, false_and, Bool.true_eq_false, or_self, iff_false]
      exact windowSwitch_busy hmode hcase
    · have hact : r.act = r.normalSwitch.updateLockState := if_neg hmode
      have hoff : r.windowMode = false := by simpa using hmode
      rw [hact, control_normal_eq_iff hoff hcase]
      simp only [hcase, not_true_eq_false, hoff, false_and, false_or, true_and]
  · rw [control_unhandled_eq_iff hcase]
    refine ⟨?_, ?_⟩
    · exact fun h => Or.inl ⟨hcase, h⟩
    · rintro (⟨-, h⟩ | ⟨hoff, ha, -⟩ | ⟨hoff, ha, -⟩)
      · exact h
      · exact absurd ((mem_cases_normal hoff).2 (Or.inl ha)) hcase
      · exact absurd ((mem_cases_normal hoff).2 (Or.inr (Or.inl ha))) hcase

/-! ## Buffers -/

/-- **A frame that leaves the receiver alone.** The rolling code and mode, lock states
and actuators stay exactly when the receiver ignores the frame. -/
theorem onDataRecv_same_iff : ((r.OnDataRecv m now).rollingCode = r.rollingCode ∧
      (r.OnDataRecv m now).control = r.control) ↔ r.Ignores m now := by
  unfold Receiver.Ignores
  by_cases hwin : r.rollingCode.InWindow m.rollingCode
  · have hcode : (r.OnDataRecv m now).rollingCode = r.rollingCode.moveTo m.rollingCode := by
      rw [OnDataRecv_rollingCode, matches_snd, if_pos hwin]
    -- the seed is then the code of the frame
    have hstay : (r.OnDataRecv m now).rollingCode = r.rollingCode ↔
        m.rollingCode = r.rollingCode.seed := by
      rw [hcode]
      refine ⟨?_, ?_⟩
      · intro h
        exact (moveTo_seed _ _).symm.trans (congrArg RollingCode.seed h)
      · intro h
        rw [h, moveTo_self]
    have hact : (r.OnDataRecv m now).control = r.control ↔
        isValidTime now.micros m.tv_now.micros = false ∨ r.Idle m.action := by
      rw [OnDataRecv_eq, if_pos hwin]
      by_cases hvalid : isValidTime now.micros m.tv_now.micros = true
      · rw [if_pos hvalid]
        have hidle : (r.entered m now).act.control = (r.entered m now).control ↔ r.Idle m.action :=
          control_act_eq_iff
        have hsame : (r.entered m now).control = r.control := rfl
        rw [← hsame, hidle]
        simp [hvalid]
      · rw [if_neg hvalid]
        exact ⟨fun _ => Or.inl (by simpa using hvalid), fun _ => rfl⟩
    rw [hstay, hact]
    simp only [hwin, not_true_eq_false, false_or]
  · rw [OnDataRecv_eq, if_neg hwin]
    exact ⟨fun _ => Or.inl hwin, fun _ => ⟨rfl, rfl⟩⟩

/-- A buffer as long as the message or longer is decoded from its first bytes. -/
theorem onDataRecvBuffer_eq (L : Layout) (r : Receiver) (incomingData : List Byte) (now : timeval) :
    r.OnDataRecvBuffer L incomingData now = if L.size ≤ incomingData.length then
      some (r.OnDataRecv (L.decode (incomingData.take L.size)) now) else none := by
  unfold Receiver.OnDataRecvBuffer
  rw [memcpy_eq]
  by_cases h : L.size ≤ incomingData.length
  · rw [if_pos h, if_pos h]
    rfl
  · rw [if_neg h, if_neg h]
    rfl

/-- A frame of the fob is received as its message. -/
theorem onDataRecvBuffer_encode {block : List Byte} (r : Receiver) (hblock : block.length = L.size)
    (hfits : L.Fits m) : r.OnDataRecvBuffer L (L.encode block m) now = some (r.OnDataRecv m now) := by
  have hlen : (L.encode block m).length = L.size := length_encode hblock
  have htake : (L.encode block m).take L.size = L.encode block m := List.take_of_length_le hlen.le
  rw [onDataRecvBuffer_eq, if_pos hlen.ge, htake, decode_encode hblock hfits]

/-- **When decoding is safe.** On any layout, the bytes of a message that fits it are
received as that message, whatever the padding. A buffer is read within its bounds, and
changes neither the rolling code nor mode, lock states and actuators unless it has the
size of the message, exactly when it has that size, or is longer and begins with a
frame that the receiver ignores. -/
theorem frame_decoding_iff (L : Layout) :
    (∀ (r : Receiver) (block : List Byte) (m : struct_message) (now : timeval),
      block.length = L.size → L.Fits m →
      r.OnDataRecvBuffer L (L.encode block m) now = some (r.OnDataRecv m now)) ∧
    ∀ (r : Receiver) (incomingData : List Byte) (now : timeval),
      (∃ r', r.OnDataRecvBuffer L incomingData now = some r' ∧
        (incomingData.length ≠ L.size → r'.rollingCode = r.rollingCode ∧ r'.control = r.control)) ↔
      incomingData.length = L.size ∨ (L.size < incomingData.length ∧
        r.Ignores (L.decode (incomingData.take L.size)) now) := by
  refine ⟨?_, ?_⟩
  · intro r block m now hblock hfits
    exact onDataRecvBuffer_encode r hblock hfits
  · intro r incomingData now
    rw [onDataRecvBuffer_eq]
    by_cases hlen : L.size ≤ incomingData.length
    · rw [if_pos hlen]
      simp only [Option.some.injEq, exists_eq_left', onDataRecv_same_iff]
      refine ⟨?_, ?_⟩
      · intro h
        by_cases heq : incomingData.length = L.size
        · exact Or.inl heq
        · exact Or.inr ⟨by omega, h heq⟩
      · rintro (heq | ⟨-, h⟩) hne
        · exact absurd heq hne
        · exact h
    · -- too short: there is no result
      rw [if_neg hlen]
      refine ⟨?_, ?_⟩
      · rintro ⟨r', hnone, -⟩
        exact absurd hnone (by simp)
      · rintro (heq | ⟨hlt, -⟩) <;> omega

/-- The first press of the fob on the ESP32, the padding full of ones, and a buffer of
noise as long as the message. -/
theorem frame_decoding_esp32 :
    let r := Receiver.boot.setup
    let block := List.replicate 24 (255 : Byte)
    r.OnDataRecvBuffer .esp32 (Layout.esp32.encode block (frameAt 1 LOCK_SIGNAL)) powerOn =
        some (r.OnDataRecv (frameAt 1 LOCK_SIGNAL) powerOn) ∧
      ((∃ r', r.OnDataRecvBuffer .esp32 block powerOn = some r' ∧
          (block.length ≠ Layout.esp32.size → r'.rollingCode = r.rollingCode ∧
            r'.control = r.control)) ↔
        block.length = Layout.esp32.size ∨ (Layout.esp32.size < block.length ∧
          r.Ignores (Layout.esp32.decode (block.take Layout.esp32.size)) powerOn)) :=
  ⟨(frame_decoding_iff .esp32).1 Receiver.boot.setup (List.replicate 24 255) (frameAt 1 LOCK_SIGNAL) powerOn
      rfl (by unfold Layout.Fits; decide),
    (frame_decoding_iff .esp32).2 Receiver.boot.setup (List.replicate 24 255) powerOn⟩

/-- An empty buffer is read past its end; a frame with one byte too many is acted upon. -/
theorem frame_unchecked :
    let r := Receiver.boot.setup
    let long := Layout.esp32.encode (List.replicate 24 0) (frameAt 1 LOCK_SIGNAL) ++ [0]
    r.OnDataRecvBuffer .esp32 [] powerOn = none ∧
      long.length ≠ Layout.esp32.size ∧
      (r.OnDataRecvBuffer .esp32 long powerOn).map Receiver.state = some .Lock ∧
      r.state = .Unlock := by
  decide +kernel

end KeyFob
