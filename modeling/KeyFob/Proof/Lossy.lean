import KeyFob.Proof.EndToEnd

/-!
# Any loss, in order

On the channel that keeps the order any number of frames may be lost in a row: what is
out of the search window by then carries a code of the cycle, which is in it again.

* `lossy_channel`: every frame delivered is accepted, and the receiver shows the car that
  the frames delivered have moved, however many were lost in between.
* `window_runs_only`: the window moves only while its button is held, or while a frame
  sent since is in the air or lost.
-/

namespace KeyFob

open RollingCode

variable {s : Pair} {p : ℕ} {m m' : Bool} {sig : Byte} {f : Flight} {fs : List Flight}
  {now : timeval} {c : Car}

/-- The clock check passes at every delivery. -/
def Pair.Timely (s : Pair) : PairEvent → Prop
  | .deliver now => ∀ f ∈ s.air.head?, isValidTime now.micros f.frame.tv_now.micros = true
  | _ => True

instance (s : Pair) : ∀ e, Decidable (s.Timely e)
  | .deliver _ => inferInstanceAs (Decidable (∀ f ∈ s.air.head?, _))
  | .sample _ => isTrue trivial
  | .lose => isTrue trivial

/-- The car that the frames `fs` move. -/
def carOf (fs : List Flight) : Car := Car.machine.run (fs.map fun f => f.frame.action)

theorem carOf_concat (fs : List Flight) (f : Flight) :
    carOf (fs ++ [f]) = (carOf fs).step f.frame.action := by
  unfold carOf
  rw [List.map_append]
  exact Machine.run_concat _ _ _

/-! ## Deliveries after any loss -/

/-- **The next frame is in the window**, however many were lost before it. -/
theorem Pair.next_inWindow (h : s.InOrder p m) (hair : s.air = f :: fs) :
    s.receiver.rollingCode.InWindow f.frame.rollingCode := by
  rcases Nat.lt_or_ge s.lost 100 with hfew | hmany
  · exact h.inWindow hair (by omega)
  · have hchain := h.air
    rw [hair] at hchain
    have hcode : f.frame.rollingCode = deployed.code (p + s.lost + 1) := hchain.1
    rw [hcode, show s.receiver.rollingCode = _ from h.receiver]
    exact deployed_cycle_inWindow p (by omega)

theorem Pair.next_accepted (h : s.InOrder p m) (hair : s.air = f :: fs)
    (htime : s.Timely (.deliver now)) : s.receiver.Accepts f.frame now := by
  have hvalid := htime f (by rw [hair]; exact Option.mem_some_self f)
  exact accepts_iff.2 ⟨Pair.next_inWindow h hair, hvalid⟩

/-! ## The invariant -/

/-- The frames sent end with the one received last, those lost since, and those in the
air. -/
def Pair.Ends (s : Pair) : Prop :=
  ∃ (before gone : List struct_message), gone.length = s.lost ∧ s.remote.fob.sent =
    before ++ (s.received.getLast?.toList.map Flight.frame ++ gone ++ s.air.map Flight.frame)

/-- The invariant of the lossy channel. -/
structure Pair.Lossy (s : Pair) : Prop where
  order : ∃ p m, s.InOrder p m
  shows : Shows s.receiver (carOf s.received)
  ends : s.Ends
  sent : List.Sublist ((s.received ++ s.air).map Flight.frame) s.remote.fob.sent
  spoken : ∀ f ∈ s.received, ∃ m, Speaks m f.frame.action f.inside

theorem Pair.init_lossy : Pair.machine.init.Lossy where
  order := ⟨0, false, Pair.init_inOrder⟩
  shows := setup_shows
  ends := ⟨[], [], rfl, rfl⟩
  sent := List.Sublist.slnil
  spoken := fun _ hf => absurd hf List.not_mem_nil

theorem Pair.sample_lossy (h : s.Lossy) (x : Sample) : (s.step (.sample x)).Lossy := by
  obtain ⟨⟨p, m, hord⟩, hshow, ⟨before, gone, hgone, hends⟩, hsent, hspoken⟩ := h
  have hstep : (s.remote.step x).fob.sent = s.remote.fob.sent ++ s.remote.sends x :=
    Remote.step_sent _ _
  have hmap : ((s.remote.sends x).map fun f => (⟨f, (s.remote.step x).pc.inWindowLoop⟩ : Flight)).map
      Flight.frame = s.remote.sends x := by
    simp [Function.comp_def]
  refine ⟨⟨p, m, Pair.sample_inOrder hord x⟩, hshow, ⟨before, gone, hgone, ?_⟩, ?_, hspoken⟩
  · simp only [Pair.step]
    rw [hstep, hends, List.map_append, hmap]
    simp only [List.append_assoc]
  · simp only [Pair.step]
    rw [hstep, ← List.append_assoc, List.map_append, hmap]
    exact hsent.append (List.Sublist.refl _)

theorem Pair.deliver_lossy (h : s.Lossy) (hair : s.air = f :: fs)
    (htime : s.Timely (.deliver now)) : (s.step (.deliver now)).Lossy := by
  obtain ⟨⟨p, m, hord⟩, hshow, ⟨before, gone, hgone, hends⟩, hsent, hspoken⟩ := h
  have hshow' := Pair.deliver_shows hshow hair (Pair.next_accepted hord hair htime)
  have hord' := hord.deliver hair (Pair.next_inWindow hord hair) now
  have hspeaks := hord.speaks hair
  rw [hair] at hends hsent
  rw [Pair.step_deliver hair] at hshow' hord' ⊢
  refine ⟨⟨_, _, hord'⟩, ?_,
    ⟨before ++ (s.received.getLast?.toList.map Flight.frame ++ gone), [], rfl, ?_⟩,
    ?_, ?_⟩
  · rw [carOf_concat]
    exact hshow'
  · simp only
    rw [hends, List.getLast?_concat]
    simp
  · simp only
    rw [List.append_assoc, List.singleton_append]
    exact hsent
  · intro g hg
    rcases List.mem_append.1 hg with hg | hg
    · exact hspoken g hg
    · rw [List.mem_singleton.1 hg]
      exact ⟨m, hspeaks⟩

theorem Pair.lose_lossy (h : s.Lossy) (hair : s.air = f :: fs) : (s.step .lose).Lossy := by
  obtain ⟨⟨p, m, hord⟩, hshow, ⟨before, gone, hgone, hends⟩, hsent, hspoken⟩ := h
  have hord' := Pair.lose_inOrder hord hair
  rw [hair] at hends hsent
  rw [Pair.step_lose hair] at hord' ⊢
  refine ⟨⟨_, _, hord'⟩, hshow, ⟨before, gone ++ [f.frame], ?_, ?_⟩, ?_, hspoken⟩
  · simp only [List.length_append, List.length_singleton, hgone]
  · simp only
    rw [hends]
    simp
  · have hskip : List.Sublist (s.received ++ fs) (s.received ++ f :: fs) :=
      (List.Sublist.refl _).append (List.sublist_cons_self f fs)
    exact (hskip.map _).trans hsent

/-- **One event keeps the invariant.** -/
theorem Pair.step_lossy (h : s.Lossy) {e : PairEvent} (htime : s.Timely e) :
    (s.step e).Lossy := by
  cases e with
  | sample x => exact Pair.sample_lossy h x
  | deliver now =>
    cases hair : s.air with
    | nil => rw [Pair.step_deliver_nil hair]; exact h
    | cons f fs => exact Pair.deliver_lossy h hair htime
  | lose =>
    cases hair : s.air with
    | nil => rw [Pair.step_lose_nil hair]; exact h
    | cons f fs => exact Pair.lose_lossy h hair

theorem Pair.lossy_run {es : List PairEvent}
    (htime : Pair.machine.Along Pair.Timely Pair.machine.init es) : (Pair.machine.run es).Lossy :=
  Machine.inv_runFrom (I := Pair.Lossy) (fun _ _ h he => Pair.step_lossy h he) Pair.init_lossy htime

/-- **Any loss.** Whatever buttons are pressed and whichever frames are lost, with all
stamps valid: the frames received and those in the air are a part of those sent, in
order; each frame delivered is accepted; and the receiver shows the car that the frames
received have moved. -/
theorem lossy_channel (es : List PairEvent)
    (htime : Pair.machine.Along Pair.Timely Pair.machine.init es) :
    let s := Pair.machine.run es
    List.Sublist ((s.received ++ s.air).map Flight.frame) s.remote.fob.sent ∧
    Shows s.receiver (Car.machine.run (s.received.map fun f => f.frame.action)) ∧
    Pair.machine.Along (fun s e => ∀ now f fs, e = .deliver now → s.air = f :: fs →
      s.receiver.Accepts f.frame now) Pair.machine.init es := by
  intro s
  have hinv : s.Lossy := Pair.lossy_run htime
  refine ⟨hinv.sent, hinv.shows, ?_⟩
  apply Machine.along_of_inv (I := Pair.Lossy) ?_ ?_ Pair.init_lossy htime
  · intro s e h he
    exact Pair.step_lossy h he
  · rintro s e h he now f fs rfl hair
    obtain ⟨p, m, hord⟩ := h.order
    exact Pair.next_accepted hord hair he

/-- Window mode on, the up button pressed, its frame lost, and released. -/
theorem lossy_channel_up :
    let s := Pair.machine.run [.sample (sampleOf .HIGH .LOW .LOW), .deliver powerOn,
      .sample (sampleOf .HIGH .LOW .LOW), .sample (sampleOf .HIGH .HIGH .LOW), .lose,
      .sample (sampleOf .HIGH .LOW .LOW), .deliver powerOn]
    Shows s.receiver (Car.machine.run [WINDOW_SIGNAL, LOCK_SIGNAL]) := by
  intro s
  have hreceived : s.received.map (fun f => f.frame.action) = [WINDOW_SIGNAL, LOCK_SIGNAL] := by
    decide +kernel
  have h := (lossy_channel [.sample (sampleOf .HIGH .LOW .LOW), .deliver powerOn,
    .sample (sampleOf .HIGH .LOW .LOW), .sample (sampleOf .HIGH .HIGH .LOW), .lose,
    .sample (sampleOf .HIGH .LOW .LOW), .deliver powerOn] (by decide +kernel)).2.1
  rw [← hreceived]
  exact h

/-! ## When the window moves -/

/-- Of the signals of the fob only the two commands move the window. -/
theorem Car.step_moving (c : Car) (h : Speaks m sig m') :
    ((c.step sig).window = some .up → sig = WINDOW_UP_SIGNAL) ∧
      ((c.step sig).window = some .down → sig = WINDOW_DOWN_SIGNAL) := by
  obtain ⟨b, window⟩ := c
  have hsig : sig = WINDOW_SIGNAL ∨ sig = LOCK_SIGNAL ∨ sig = UNLOCK_SIGNAL ∨
      sig = WINDOW_UP_SIGNAL ∨ sig = WINDOW_DOWN_SIGNAL := by
    rcases h with ⟨hsig, -⟩ | ⟨-, hsig | hsig | ⟨-, hsig⟩⟩
    · exact Or.inl hsig
    · exact Or.inr (Or.inl hsig)
    · exact Or.inr (Or.inr (Or.inl hsig))
    · exact Or.inr (Or.inr (Or.inr hsig))
  rcases hsig with rfl | rfl | rfl | rfl | rfl <;> cases b <;>
    rcases window with _ | _ | _ | _ <;> decide

theorem Motion.angle_inj {a b : Motion} : a.angle = b.angle ↔ a = b := by
  cases a <;> cases b <;> decide

/-- The servo angle tells the motion of the window. -/
theorem Shows.window_moves {r : Receiver} (h : Shows r c) {motion : Motion}
    (hmoves : motion ≠ .still)
    (hangle : (wndAngles r.commands).getLast? = some motion.angle) : c.window = some motion := by
  have hwnd := h.wnd
  rw [hangle, Option.some.injEq, Motion.angle_inj] at hwnd
  cases hw : c.window with
  | none =>
    rw [hw] at hwnd
    exact absurd hwnd hmoves
  | some motion' =>
    rw [hw] at hwnd
    exact congrArg some hwnd.symm

/-- **The command that moves the window** is the last frame received. -/
theorem Pair.Lossy.moving (h : s.Lossy) :
    ((carOf s.received).window = some .up →
      ∃ f, s.received.getLast? = some f ∧ f.frame.action = WINDOW_UP_SIGNAL) ∧
    ((carOf s.received).window = some .down →
      ∃ f, s.received.getLast? = some f ∧ f.frame.action = WINDOW_DOWN_SIGNAL) := by
  rcases List.eq_nil_or_concat s.received with hnil | ⟨fs, f, hconcat⟩
  · rw [hnil]
    exact ⟨fun hup => absurd hup (by decide), fun hdown => absurd hdown (by decide)⟩
  · obtain ⟨m, hspeaks⟩ := h.spoken f (by rw [hconcat]; simp)
    rw [hconcat, List.concat_eq_append, carOf_concat, List.getLast?_concat]
    have hmoving := (carOf fs).step_moving hspeaks
    exact ⟨fun hup => ⟨f, rfl, hmoving.1 hup⟩, fun hdown => ⟨f, rfl, hmoving.2 hdown⟩⟩

/-- With nothing in the air and nothing lost since, the last frame received is the last
one sent. -/
theorem Pair.Ends.last_sent (h : s.Ends) (hair : s.air = []) (hlost : s.lost = 0)
    (hf : s.received.getLast? = some f) : s.remote.fob.sent.getLast? = some f.frame := by
  obtain ⟨before, gone, hgone, hends⟩ := h
  rw [hlost] at hgone
  rw [hends, hair, hf, List.eq_nil_of_length_eq_zero hgone]
  simp

/-- **When the window moves.** With any loss, once every frame is out of the air and none
was lost since the last one received: the window servo turns only while the fob waits
for the release of the button of that direction. So a window runs on without its button
only after a loss. -/
theorem window_runs_only (es : List PairEvent)
    (htime : Pair.machine.Along Pair.Timely Pair.machine.init es) :
    let s := Pair.machine.run es
    s.air = [] → s.lost = 0 →
    ((wndAngles s.receiver.commands).getLast? = some 40 → s.remote.pc = .windowUHeld) ∧
    ((wndAngles s.receiver.commands).getLast? = some 0 → s.remote.pc = .windowDHeld) := by
  intro s hair hlost
  have hinv : s.Lossy := Pair.lossy_run htime
  have hheld : s.remote.Held := by
    have hremote : s.remote = _ := Pair.remote_run es
    rw [hremote]
    exact Remote.held_run _
  have hwaits : ∀ f, s.received.getLast? = some f →
      s.remote.pc.waitsFor = windowCommand f.frame.action :=
    fun f hf => hheld _ (hinv.ends.last_sent hair hlost hf)
  refine ⟨?_, ?_⟩
  · intro hangle
    obtain ⟨f, hf, ha⟩ :=
      hinv.moving.1 (hinv.shows.window_moves (by decide : Motion.up ≠ .still) hangle)
    have hpc := hwaits f hf
    rw [ha] at hpc
    cases hcase : s.remote.pc with
    | windowUHeld => rfl
    | _ => rw [hcase] at hpc; exact absurd hpc (by decide)
  · intro hangle
    obtain ⟨f, hf, ha⟩ :=
      hinv.moving.2 (hinv.shows.window_moves (by decide : Motion.down ≠ .still) hangle)
    have hpc := hwaits f hf
    rw [ha] at hpc
    cases hcase : s.remote.pc with
    | windowDHeld => rfl
    | _ => rw [hcase] at hpc; exact absurd hpc (by decide)

/-- The up button is pressed and its frame arrives. -/
theorem window_runs_only_up :
    let s := Pair.machine.run [.sample (sampleOf .HIGH .LOW .LOW), .deliver powerOn,
      .sample (sampleOf .HIGH .LOW .LOW), .sample (sampleOf .HIGH .HIGH .LOW), .deliver powerOn]
    s.remote.pc = .windowUHeld :=
  (window_runs_only [.sample (sampleOf .HIGH .LOW .LOW), .deliver powerOn,
    .sample (sampleOf .HIGH .LOW .LOW), .sample (sampleOf .HIGH .HIGH .LOW), .deliver powerOn]
    (by decide +kernel) (by decide +kernel) (by decide +kernel)).1 (by decide +kernel)

end KeyFob
