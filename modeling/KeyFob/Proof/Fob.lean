import KeyFob.Proof.Search
import KeyFob.Spec.Sender

/-!
# The program of the fob and its machine

* `run_follows`: over any history `loop` never runs out of passes, and it leaves the
  fob as `Remote.machine` does, which names the place each sample is read at.
* `Fob.Sends`: the `i`-th message sent carries the `i`-th code of the generator.
-/

namespace KeyFob

open Level RollingCode Sketch

/-! ## Following a program -/

/-- The outcome of a function called in the state `s` of the machine with `history`
still to come: it returned with the machine at `c`, or the history ended. -/
def Follows (s : Remote) (history : List Sample) (c : Control) :
    EStateM.Result Stop Board Unit → Prop
  | .ok _ b => ∃ taken, history = taken ++ b.history ∧
      Remote.machine.runFrom s taken = { pc := c, fob := b.fob }
  | .error stop b => stop = .historyEnded ∧ (Remote.machine.runFrom s history).fob = b.fob

variable {c c' c'' : Control} {s : Remote} {b : Board} {pin : Pin} {fob : Fob}

/-- The machine at `c`, with the fob of the board. -/
abbrev Board.at (b : Board) (c : Control) : Remote := { pc := c, fob := b.fob }

theorem bind_ok {α β : Type} {S : Sketch α} {k : α → Sketch β} {b' : Board} {a : α}
    (h : S b = .ok a b') : (S >>= k) b = k a b' := by
  change EStateM.bind S k b = _
  unfold EStateM.bind
  rw [h]

theorem bind_error {α β : Type} {S : Sketch α} {k : α → Sketch β} {b' : Board} {e : Stop}
    (h : S b = .error e b') : (S >>= k) b = .error e b' := by
  change EStateM.bind S k b = _
  unfold EStateM.bind
  rw [h]

/-- A function that returns without reading. -/
theorem follows_ok (b : Board) (c : Control) : Follows (b.at c) b.history c (.ok () b) :=
  ⟨[], rfl, rfl⟩

/-- **Sequencing**: the second function goes on where the first one stops. -/
theorem follows_seq {S T : Sketch Unit} (hS : Follows s b.history c (S b))
    (hT : ∀ b', b'.history <:+ b.history → Follows (b'.at c) b'.history c' (T b')) :
    Follows s b.history c' ((S >>= fun _ => T) b) := by
  cases hr : S b with
  | error e b' => rw [hr] at hS; rw [bind_error hr]; exact hS
  | ok u b' =>
    rw [hr] at hS
    rw [bind_ok hr]
    obtain ⟨taken, hsplit, hrun⟩ := hS
    have hrest := hT b' ⟨taken, hsplit.symm⟩
    cases ht : T b' with
    | ok u' b'' =>
      rw [ht] at hrest
      obtain ⟨taken', hsplit', hrun'⟩ := hrest
      refine ⟨taken ++ taken', ?_, ?_⟩
      · rw [hsplit, hsplit', List.append_assoc]
      · rw [Machine.runFrom_append, hrun, hrun']
    | error e b'' =>
      rw [ht] at hrest
      refine ⟨hrest.1, ?_⟩
      rw [hsplit, Machine.runFrom_append, hrun]
      exact hrest.2

/-- The board after one more sample. -/
def Board.read (b : Board) (x : Sample) (rest : List Sample) : Board :=
  { b with clock := x.clock, history := rest }

/-- **A read** is one step of the machine, followed by the rest of the function. -/
theorem follows_read {k : Level → Sketch Unit} (hk : ∀ x rest, b.history = x :: rest →
      Follows (Remote.step (b.at c) x) rest c' (k (x.level pin) (b.read x rest))) :
    Follows (b.at c) b.history c' ((digitalRead pin >>= k) b) := by
  obtain ⟨fob, clock, history⟩ := b
  cases history with
  | nil => exact ⟨rfl, rfl⟩
  | cons x rest =>
    have hrest := hk x rest rfl
    change Follows _ (x :: rest) c' (k (x.level pin) { fob := fob, clock := x.clock, history := rest })
    rw [Board.read] at hrest
    cases hr : k (x.level pin) { fob := fob, clock := x.clock, history := rest } with
    | ok u b' =>
      rw [hr] at hrest
      obtain ⟨taken, hsplit, hrun⟩ := hrest
      exact ⟨x :: taken, by rw [hsplit, List.cons_append], hrun⟩
    | error e b' => rw [hr] at hrest; exact hrest

/-- **A loop on a pin and what follows it.** The machine tests the pin at `c`: on high
it enters the body, which comes back to `c`; on low it goes on with `T`. -/
theorem follows_while {body T : Sketch Unit} (enter : Control)
    (hbody : ∀ b, Follows (b.at enter) b.history c (body b))
    (hhigh : ∀ (fob : Fob) (x : Sample), x.level pin = HIGH →
      Remote.step { pc := c, fob := fob } x = { pc := enter, fob := fob })
    (hlow : ∀ (b : Board) (x : Sample) (rest : List Sample), x.level pin = LOW →
      Follows (Remote.step (b.at c) x) rest c' (T (b.read x rest))) :
    ∀ (n : ℕ) (b : Board), b.history.length < n →
      Follows (b.at c) b.history c' ((whileHighUpTo pin body n >>= fun _ => T) b) := by
  intro n
  induction n with
  | zero => intro b hn; omega
  | succ n ih =>
    intro b hn
    rw [whileHighUpTo, bind_assoc]
    apply follows_read
    intro x rest hx
    cases hl : x.level pin with
    | LOW =>
      rw [if_neg (by decide), pure_bind]
      exact hlow b x rest hl
    | HIGH =>
      rw [if_pos rfl, bind_assoc, show Remote.step (b.at c) x = (b.read x rest).at enter from hhigh _ x hl]
      -- the body may take samples, so what is left is at most `rest`
      refine follows_seq (hbody _) fun b' hb' => ih b' ?_
      have hle : b'.history.length ≤ rest.length := hb'.length_le
      rw [hx, List.length_cons] at hn
      omega

/-! ## The functions of the sketch -/

variable (esp_now_send : Radio)

/-- Waiting for a button to be released, and the stop signal. -/
theorem held_follows {sig : Byte} (b : Board)
    (hhigh : ∀ (fob : Fob) (x : Sample), x.level pin = HIGH →
      Remote.step { pc := c, fob := fob } x = { pc := c, fob := fob })
    (hlow : ∀ (fob : Fob) (x : Sample), x.level pin = LOW →
      Remote.step { pc := c, fob := fob } x = { pc := c', fob := fob.sendSignal sig x.clock }) :
    Follows (b.at c) b.history c'
      ((whileHigh pin (pure ()) >>= fun _ => discard (Sketch.sendSignal esp_now_send sig)) b) := by
  refine follows_while c (fun b => follows_ok b _) hhigh ?_ _ b (by omega)
  intro b x rest hx
  have hstep : Remote.step (b.at c) x = _ := hlow b.fob x hx
  rw [hstep]
  exact follows_ok { fob := b.fob.sendSignal sig x.clock, clock := x.clock, history := rest } _

theorem windowUHeld_follows (b : Board) : Follows (b.at .windowUHeld) b.history .windowD
    ((whileHigh .LKBTTN (pure ()) >>= fun _ =>
      discard (Sketch.sendSignal esp_now_send LOCK_SIGNAL)) b) := by
  apply held_follows
  · intro fob x hx
    simp [Remote.step, hx]
  · intro fob x hx
    simp [Remote.step, hx]

theorem windowDHeld_follows (b : Board) : Follows (b.at .windowDHeld) b.history .windowLoop
    ((whileHigh .UNLKBTTN (pure ()) >>= fun _ =>
      discard (Sketch.sendSignal esp_now_send UNLOCK_SIGNAL)) b) := by
  apply held_follows
  · intro fob x hx
    simp [Remote.step, hx]
  · intro fob x hx
    simp [Remote.step, hx]

theorem pollWindowUButton_follows (b : Board) :
    Follows (b.at .windowU) b.history .windowD (pollWindowUButton esp_now_send b) := by
  apply follows_read
  intro x rest hx
  cases hl : x.level .LKBTTN with
  | LOW =>
    simp only [Remote.step, hl]
    exact follows_ok (b.read x rest) _
  | HIGH =>
    simp only [Remote.step, hl, if_true]
    exact windowUHeld_follows esp_now_send
      { fob := b.fob.sendSignal WINDOW_UP_SIGNAL x.clock, clock := x.clock, history := rest }

theorem pollWindowDButton_follows (b : Board) :
    Follows (b.at .windowD) b.history .windowLoop (pollWindowDButton esp_now_send b) := by
  apply follows_read
  intro x rest hx
  cases hl : x.level .UNLKBTTN with
  | LOW =>
    simp only [Remote.step, hl]
    exact follows_ok (b.read x rest) _
  | HIGH =>
    simp only [Remote.step, hl, if_true]
    exact windowDHeld_follows esp_now_send
      { fob := b.fob.sendSignal WINDOW_DOWN_SIGNAL x.clock, clock := x.clock, history := rest }

theorem pollLockButton_follows (b : Board) :
    Follows (b.at .lockButton) b.history .unlockButton (pollLockButton esp_now_send b) := by
  apply follows_read
  intro x rest hx
  -- the level read and the level remembered decide the branch
  cases hl : x.level .LKBTTN <;> cases hs : b.fob.LKBTTNSTATE
  all_goals
    obtain ⟨⟨st, st', rc, tv, msg, sent⟩, clock, history⟩ := b
    simp only at hs
    subst hs
    simp only [Remote.step, hl]
    exact ⟨[], rfl, rfl⟩

theorem pollUnlockButton_follows (b : Board) :
    Follows (b.at .unlockButton) b.history .loop (pollUnlockButton esp_now_send b) := by
  apply follows_read
  intro x rest hx
  cases hl : x.level .UNLKBTTN <;> cases hs : b.fob.UNLKBTTNSTATE
  all_goals
    obtain ⟨⟨st, st', rc, tv, msg, sent⟩, clock, history⟩ := b
    simp only at hs
    subst hs
    simp only [Remote.step, hl]
    exact ⟨[], rfl, rfl⟩

/-- The two functions at the end of `loop`. -/
theorem polls_follow (b : Board) : Follows (b.at .lockButton) b.history .loop
    ((pollLockButton esp_now_send >>= fun _ => pollUnlockButton esp_now_send) b) :=
  follows_seq (pollLockButton_follows esp_now_send b) fun b' _ =>
    pollUnlockButton_follows esp_now_send b'

/-- The window loop and the signal after it. -/
theorem windowLoop_follows (b : Board) : Follows (b.at .windowLoop) b.history .lockButton
    ((whileHigh .WNDBTTN
        (pollWindowUButton esp_now_send >>= fun _ => pollWindowDButton esp_now_send) >>=
      fun _ => discard (Sketch.sendSignal esp_now_send WINDOW_SIGNAL)) b) := by
  refine follows_while .windowU ?_ ?_ ?_ _ b (by omega)
  · intro b
    exact follows_seq (pollWindowUButton_follows esp_now_send b) fun b' _ =>
      pollWindowDButton_follows esp_now_send b'
  · intro fob x hx
    simp [Remote.step, hx]
  · intro b x rest hx
    simp only [Remote.step, hx]
    exact follows_ok { fob := b.fob.sendSignal WINDOW_SIGNAL x.clock, clock := x.clock, history := rest } _

/-- **One call of `loop`** from its first sample on. -/
theorem loop_follows {x : Sample} {rest : List Sample} (hx : b.history = x :: rest) :
    Follows (Remote.step (b.at .loop) x) rest .loop (Sketch.loop esp_now_send b) := by
  have hread : digitalRead .WNDBTTN b = .ok (x.level .WNDBTTN) (b.read x rest) := by
    unfold digitalRead
    rw [hx]
    rfl
  unfold Sketch.loop
  rw [bind_ok hread]
  cases hl : x.level .WNDBTTN with
  | LOW =>
    rw [if_neg (by decide)]
    simp only [Remote.step, hl]
    exact polls_follow esp_now_send (b.read x rest)
  | HIGH =>
    rw [if_pos rfl]
    simp only [Remote.step, hl, if_true]
    have hwin := windowLoop_follows esp_now_send
      { fob := b.fob.sendSignal WINDOW_SIGNAL x.clock, clock := x.clock, history := rest }
    have hall := follows_seq hwin fun b' _ => polls_follow esp_now_send b'
    rw [bind_assoc] at hall
    exact hall

/-- With more passes than samples the history ends first. -/
theorem loopUpTo_follows : ∀ (n : ℕ) (b : Board), b.history.length < n →
    ∃ b', loopUpTo esp_now_send n b = .error .historyEnded b' ∧
      (Remote.machine.runFrom (b.at .loop) b.history).fob = b'.fob := by
  intro n
  induction n with
  | zero => intro b hn; omega
  | succ n ih =>
    intro b hn
    cases hx : b.history with
    | nil =>
      -- the first read of `loop` already wants a sample
      have hread : digitalRead .WNDBTTN b = .error .historyEnded b := by
        unfold digitalRead
        rw [hx]
      exact ⟨b, bind_error (bind_error hread), rfl⟩
    | cons x rest =>
      have hpass := loop_follows esp_now_send hx
      cases hr : Sketch.loop esp_now_send b with
      | error e b' =>
        rw [hr] at hpass
        obtain ⟨rfl, hfob⟩ := hpass
        exact ⟨b', bind_error hr, hfob⟩
      | ok u b' =>
        rw [hr] at hpass
        obtain ⟨taken, hsplit, hrun⟩ := hpass
        -- the call took the sample `x`, so there is a pass less and a sample less
        have hlen : b'.history.length < n := by
          rw [hx, hsplit] at hn
          simp only [List.length_cons, List.length_append] at hn
          omega
        obtain ⟨b'', hend, hfob⟩ := ih b' hlen
        refine ⟨b'', (bind_ok hr).trans hend, ?_⟩
        rw [Machine.runFrom_cons, hsplit, Machine.runFrom_append]
        exact (congrArg (fun s => (Remote.machine.runFrom s b'.history).fob) hrun).trans hfob

/-- **The program follows its machine.** Over any history the fob stops where the
history ends, with the globals and the sent messages of the machine. -/
theorem run_follows (history : List Sample) :
    ∃ b, Fob.run esp_now_send history = .error .historyEnded b ∧
      b.fob = (Remote.machine.run history).fob := by
  obtain ⟨b, hend, hfob⟩ := loopUpTo_follows esp_now_send (history.length + 1)
    { fob := Fob.boot, clock := { tv_sec := 0, tv_usec := 0 }, history := history } (by simp)
  exact ⟨b, hend, hfob.symm⟩

/-! ## The codes of the messages sent -/

/-- **The fob sends its codes in order**: after `n` messages the generator is at its
code `n`, and message `i` carries code `i + 1`. -/
structure Fob.Sends (fob : Fob) : Prop where
  rollingCode : fob.rollingCode = deployed.moveTo (deployed.code fob.sent.length)
  codes : ∀ i f, fob.sent[i]? = some f → f.rollingCode = deployed.code (i + 1)

theorem Fob.boot_sends : Fob.boot.Sends where
  rollingCode := rfl
  codes := fun i f h => by simp [Fob.boot] at h

/-- The message of one call of `sendSignal`. -/
theorem Fob.sendSignal_sent (fob : Fob) (sig : Byte) (clock : timeval) :
    (fob.sendSignal sig clock).sent = fob.sent ++
      [{ tv_now := clock, rollingCode := fob.rollingCode.next.getSeed, action := sig }] := rfl

theorem Fob.sendSignal_sends (h : fob.Sends) (sig : Byte) (clock : timeval) :
    (fob.sendSignal sig clock).Sends := by
  have hnext : fob.rollingCode.next = deployed.moveTo (deployed.code (fob.sent.length + 1)) := by
    rw [h.rollingCode, next_moveTo]
  refine ⟨?_, ?_⟩
  · rw [Fob.sendSignal_sent, List.length_append]
    exact hnext
  · intro i f hf
    rw [Fob.sendSignal_sent] at hf
    rcases lt_or_ge i fob.sent.length with hi | hi
    · rw [List.getElem?_append_left hi] at hf
      exact h.codes i f hf
    · rw [List.getElem?_append_right hi] at hf
      have hzero : i - fob.sent.length = 0 := by
        by_contra hne
        rw [List.getElem?_eq_none (by simp; omega)] at hf
        cases hf
      rw [hzero] at hf
      have hi' : i = fob.sent.length := by omega
      simp only [List.getElem?_cons_zero, Option.some.injEq] at hf
      rw [← hf, hi', hnext]
      rfl

end KeyFob
