import KeyFob.Proof.Words
import KeyFob.Spec.Debug

/-!
# What the debug build can say

The commands of `runDebug` come between two passes of `loop`, where the fob is outside the
window loop, and send lock signals only. So the debug build says words of the same
language (`build_words`), and without `S_DEBUG` it is the program of the sketch.
-/

namespace KeyFob

open Program Build

variable {k : ℕ} {esp_now_send : Radio}

/-- How the code of a build stops: where the history ends, with its sentence in order. -/
def EndsInPhase (stop : Stop) (fob : Fob) : Prop :=
  stop = .historyEnded ∧ ∃ pc, ({ pc := pc, fob := fob } : Remote).InPhase

/-- **One call of `loop`** goes on with the sentence and takes a sample. -/
theorem loop_meets : Meets (fun b : Board => (b.at .loop).InPhase ∧ b.history.length = k)
    (Sketch.loop esp_now_send) (fun _ b => (b.at .loop).InPhase ∧ b.history.length < k)
    (fun stop b => EndsInPhase stop b.fob) := by
  rintro b ⟨hphase, rfl⟩
  cases hx : b.history with
  | nil =>
    have hread : Sketch.digitalRead .WNDBTTN b = .error .historyEnded b := by
      unfold Sketch.digitalRead
      rw [hx]
    have hloop : Sketch.loop esp_now_send b = .error .historyEnded b := bind_error hread
    rw [hloop]
    exact ⟨rfl, _, hphase⟩
  | cons x rest =>
    have hpass := loop_follows esp_now_send hx
    have hrun : ∀ taken : List Sample,
        (Remote.machine.runFrom (Remote.step (b.at .loop) x) taken).InPhase := by
      intro taken
      have hstep := Remote.step_inPhase hphase x
      exact Machine.inv_runFrom (I := Remote.InPhase) (A := fun _ _ => True)
        (fun _ x h _ => Remote.step_inPhase h x) hstep (Machine.along_of_forall (fun _ _ => trivial) _ _)
    cases hr : Sketch.loop esp_now_send b with
    | ok u b' =>
      rw [hr] at hpass
      obtain ⟨taken, hsplit, hend⟩ := hpass
      have hafter := hrun taken
      rw [hend] at hafter
      refine ⟨hafter, ?_⟩
      rw [hsplit, List.length_cons, List.length_append]
      omega
    | error stop b' =>
      rw [hr] at hpass
      obtain ⟨hstop, hfob⟩ := hpass
      refine ⟨hstop, (Remote.machine.runFrom (Remote.step (b.at .loop) x) rest).pc, ?_⟩
      rw [← hfob]
      exact hrun rest

/-- The bench between two passes, with fewer than `k` samples left. -/
def Bench.Between (k : ℕ) (b : Bench) : Prop :=
  (b.board.at .loop).InPhase ∧ b.board.history.length < k

/-- How a build stops. -/
abbrev Bench.Ends (stop : Stop) (b : Bench) : Prop := EndsInPhase stop b.board.fob

/-- A lock signal said between two passes. -/
theorem sendSignal_meets {sig : Byte} (hsig : sig = LOCK_SIGNAL ∨ sig = UNLOCK_SIGNAL) :
    Meets (Bench.Between k) (discard (onBoard (Sketch.sendSignal esp_now_send sig))) (fun _ => Bench.Between k)
      Bench.Ends := by
  apply meets_discard
  apply meets_within
  rintro b ⟨hphase, hlen⟩ board rfl
  refine ⟨⟨Fob.sendSignal_sends hphase.sends sig b.board.clock, ?_⟩, hlen⟩
  have hstep : Phase.outside.step sig = some .outside := by
    rcases hsig with rfl | rfl
    · rfl
    · rfl
  have hspoken := Phase.spoken_concat (p := .outside) hphase.spoken hstep
  have hsignals : (b.board.fob.sendSignal sig b.board.clock).signals =
      b.board.fob.signals ++ [sig] := by
    unfold Fob.signals
    rw [Fob.sendSignal_sent, List.map_append]
    rfl
  rw [← hsignals] at hspoken
  exact hspoken

theorem gettimeofday_meets : Meets (Bench.Between k) (onBoard gettimeofday)
    (fun _ => Bench.Between k) Bench.Ends := by
  apply meets_within
  rintro b ⟨hphase, hlen⟩ board rfl
  exact ⟨⟨hphase.sends.congr rfl rfl, hphase.spoken⟩, hlen⟩

theorem readString_meets : Meets (Bench.Between k) readString (fun _ => Bench.Between k)
    Bench.Ends := by
  rintro ⟨board, typed⟩ ⟨hphase, hlen⟩
  cases typed with
  | nil => exact ⟨rfl, _, hphase⟩
  | cons t rest => exact ⟨hphase, hlen⟩

/-- **The commands** come between two passes and say lock signals. -/
theorem runDebug_meets : Meets (Bench.Between k) (runDebug esp_now_send) (fun _ => Bench.Between k)
    Bench.Ends := by
  apply meets_bind readString_meets
  intro cmd
  apply meets_ite
  · intro _
    exact sendSignal_meets (Or.inl rfl)
  · intro _
    apply meets_ite
    · intro _
      exact sendSignal_meets (Or.inr rfl)
    · intro _
      apply meets_ite
      · intro _
        exact gettimeofday_meets
      · intro _
        exact meets_pure (Q := fun _ => Bench.Between k) ()

/-- One call of `loop` of either build. -/
theorem build_loop_meets (S_DEBUG : Bool) (esp_now_send : Radio) (k : ℕ) :
    Meets (fun b : Bench => (b.board.at .loop).InPhase ∧ b.board.history.length = k)
      (Build.loop S_DEBUG esp_now_send) (fun _ b => (b.board.at .loop).InPhase ∧ b.board.history.length < k)
      Bench.Ends := by
  have hshared : Meets (fun b : Bench => (b.board.at .loop).InPhase ∧ b.board.history.length = k)
      (onBoard (Sketch.loop esp_now_send)) (fun _ => Bench.Between k) Bench.Ends := by
    apply meets_within
    intro b hb
    apply meets_conseq (loop_meets (k := k))
    · rintro board rfl
      exact hb
    · intro _ board h
      exact h
    · intro stop board h
      exact h
  apply meets_bind hshared
  intro _
  apply meets_ite
  · intro _
    exact runDebug_meets
  · intro _
    exact meets_pure (Q := fun _ => Bench.Between k) ()

/-! ## The build of the sketch -/

theorem loopUpTo_eq (n : ℕ) : Sketch.loopUpTo esp_now_send n = repeatUpTo (Sketch.loop esp_now_send) .outOfFuel n := by
  induction n with
  | zero => rfl
  | succ n ih => rw [Sketch.loopUpTo, repeatUpTo, ih]

theorem onBoard_bind {α β : Type} (x : Sketch α) (f : α → Sketch β) :
    onBoard (x >>= f) = onBoard x >>= fun a => onBoard (f a) := by
  unfold onBoard
  apply within_bind
  · intro b board
    rfl
  · intro b board board'
    rfl

/-- Without `S_DEBUG` nothing typed is read. -/
theorem repeat_plain (n : ℕ) : repeatUpTo (Build.loop false esp_now_send) .outOfFuel n =
    onBoard (repeatUpTo (Sketch.loop esp_now_send) .outOfFuel n) := by
  have hloop : Build.loop false esp_now_send = onBoard (Sketch.loop esp_now_send) := by
    simp [Build.loop]
  induction n with
  | zero => rfl
  | succ n ih =>
    rw [repeatUpTo, repeatUpTo, ih, hloop, onBoard_bind]

/-- **What either build can say.** Over any history of samples, whatever is typed and
whatever `esp_now_send` returns, the program stops where one of them ends and never runs out of passes; the signals sent begin
a word of `fobWords`, message `i` carries the code after `i + 1` steps of the generator,
and the generator stands at the code of the last one. Without `S_DEBUG` it is the program
of the sketch. -/
theorem build_words (S_DEBUG : Bool) (esp_now_send : Radio) (history : List Sample)
    (typed : List Typed) :
    ∃ b, Fob.runBuild S_DEBUG esp_now_send history typed = .error .historyEnded b ∧
      (∃ rest, b.board.fob.signals ++ rest ∈ fobWords) ∧
      (∀ i f, b.board.fob.sent[i]? = some f → f.rollingCode = deployed.code (i + 1)) ∧
      b.board.fob.rollingCode.getSeed = deployed.code b.board.fob.sent.length ∧
      (S_DEBUG = false → Fob.run esp_now_send history = .error .historyEnded b.board) := by
  have hmeets := meets_repeat (fun b : Bench => b.board.history.length)
    (e := Stop.outOfFuel) (build_loop_meets S_DEBUG esp_now_send) (history.length + 1)
    { board := { fob := Fob.boot, clock := { tv_sec := 0, tv_usec := 0 }, history := history }
      typed := typed } ⟨Remote.init_inPhase, Nat.lt_succ_self _⟩
  cases hr : Fob.runBuild S_DEBUG esp_now_send history typed with
  | ok u b =>
    unfold Fob.runBuild at hr
    rw [hr] at hmeets
    exact absurd hmeets id
  | error stop b =>
    unfold Fob.runBuild at hr
    rw [hr] at hmeets
    obtain ⟨rfl, pc, hsends, hspoken⟩ := hmeets
    have hstands : b.board.fob.rollingCode.getSeed = deployed.code b.board.fob.sent.length := by
      rw [hsends.rollingCode]
      rfl
    refine ⟨b, rfl, ⟨_, Phase.closing_mem hspoken⟩, hsends.codes, hstands, ?_⟩
    rintro rfl
    rw [repeat_plain, ← loopUpTo_eq] at hr
    change onBoard _ _ = _ at hr
    unfold onBoard within at hr
    unfold Fob.run
    cases hplain : Sketch.loopUpTo esp_now_send (history.length + 1)
        { fob := Fob.boot, clock := { tv_sec := 0, tv_usec := 0 }, history := history } with
    | ok u board =>
      rw [hplain] at hr
      cases hr
    | error stop board =>
      rw [hplain] at hr
      cases hr
      rfl

end KeyFob
