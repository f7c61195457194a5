import KeyFob.Proof.Brackets
import KeyFob.Proof.Fob
import KeyFob.Proof.Replay
import KeyFob.Proof.Words
import KeyFob.Spec.Pair

/-!
# Frames in order

* `Remote.step_cases`: what the fob does on one sample: nothing on the air, or one
  frame that its place in the program allows (`Speaks`).
* `Carries`: a chain of frames from one place in the code sequence and one side of the
  window loop to another.
* `Pair.InOrder`: the invariant of the in-order channel, kept by every event if the
  receiver is never more than 99 frames behind at a delivery and the clock check passes.
-/

namespace KeyFob

open Level RollingCode

variable {m m' : Bool} {sig : Byte} {n n' p : ℕ} {f : Flight} {fs : List Flight}

/-! ## What the fob says -/

/-- Inside the window loop (`m`) or outside, the fob may send `sig` and then be inside
or outside as `m'` says. -/
def Speaks (m : Bool) (sig : Byte) (m' : Bool) : Prop :=
  (sig = WINDOW_SIGNAL ∧ m' = !m) ∨
  (m' = m ∧ (sig = LOCK_SIGNAL ∨ sig = UNLOCK_SIGNAL ∨
    (m = true ∧ (sig = WINDOW_UP_SIGNAL ∨ sig = WINDOW_DOWN_SIGNAL))))

instance : Decidable (Speaks m sig m') := inferInstanceAs (Decidable (_ ∨ _))

/-- The signal decides on which side of the loop the fob is afterwards. -/
theorem Speaks.inside (h : Speaks m sig m') : m' = if sig = WINDOW_SIGNAL then !m else m := by
  rcases h with ⟨rfl, hm⟩ | ⟨hm, hsig⟩
  · rw [if_pos rfl, hm]
  · have hne : sig ≠ WINDOW_SIGNAL := by
      rcases hsig with rfl | rfl | ⟨-, rfl | rfl⟩ <;> decide
    rw [if_neg hne, hm]

/-- The window command whose button the fob waits to be released. -/
def Control.waitsFor : Control → Option Byte
  | .windowUHeld => some WINDOW_UP_SIGNAL
  | .windowDHeld => some WINDOW_DOWN_SIGNAL
  | _ => none

/-- The signal, if it is one that moves the window. -/
def windowCommand (sig : Byte) : Option Byte :=
  if sig = WINDOW_UP_SIGNAL ∨ sig = WINDOW_DOWN_SIGNAL then some sig else none

def Phase.inWindow : Phase → Bool
  | .outside => false
  | .inside | .up | .down => true

def Phase.waitsFor : Phase → Option Byte
  | .outside | .inside => none
  | .up => some WINDOW_UP_SIGNAL
  | .down => some WINDOW_DOWN_SIGNAL

theorem Control.inWindowLoop_eq (pc : Control) : pc.inWindowLoop = pc.phase.inWindow := by
  cases pc <;> rfl

theorem Control.waitsFor_eq (pc : Control) : pc.waitsFor = pc.phase.waitsFor := by
  cases pc <;> rfl

/-- A signal that leads from one phase to another, seen from the window loop. -/
theorem Phase.step_speaks {p p' : Phase} (h : p.step sig = some p') :
    Speaks p.inWindow sig p'.inWindow ∧ p'.waitsFor = windowCommand sig := by
  rcases Phase.step_inv h with ⟨rfl, rfl | rfl, rfl⟩ | ⟨rfl, rfl, rfl⟩ | ⟨rfl, rfl, rfl⟩ |
    ⟨rfl, rfl, rfl⟩ | ⟨rfl, rfl, rfl⟩ | ⟨rfl, rfl, rfl⟩ | ⟨rfl, rfl, rfl⟩
  all_goals decide

/-- **What the fob does on one sample**: it stays silent on its side of the window
loop, or calls `sendSignal` with a signal its place in the program allows. After a
window command it waits for the button, and only then. -/
theorem Remote.step_cases (s : Remote) (x : Sample) :
    ((s.step x).fob.sent = s.fob.sent ∧ (s.step x).fob.rollingCode = s.fob.rollingCode ∧
      (s.step x).pc.inWindowLoop = s.pc.inWindowLoop ∧
      (s.step x).pc.waitsFor = s.pc.waitsFor) ∨
    ∃ (fob : Fob) (sig : Byte), fob.sent = s.fob.sent ∧ fob.rollingCode = s.fob.rollingCode ∧
      (s.step x).fob = fob.sendSignal sig x.clock ∧
      Speaks s.pc.inWindowLoop sig (s.step x).pc.inWindowLoop ∧
      (s.step x).pc.waitsFor = windowCommand sig := by
  simp only [Control.inWindowLoop_eq, Control.waitsFor_eq]
  rcases Remote.step_phase s x with ⟨hsent, hcode, hphase⟩ | ⟨fob, sig, hsent, hcode, hstep, hphase⟩
  · left
    rw [hphase]
    exact ⟨hsent, hcode, rfl, rfl⟩
  · right
    obtain ⟨hspeaks, hwaits⟩ := Phase.step_speaks hphase
    exact ⟨fob, sig, hsent, hcode, hstep, hspeaks, hwaits⟩

/-- The same for the frames on the air. -/
theorem Remote.sends_cases (s : Remote) (x : Sample) :
    (s.sends x = [] ∧ (s.step x).fob.sent = s.fob.sent ∧
      (s.step x).fob.rollingCode = s.fob.rollingCode ∧
      (s.step x).pc.inWindowLoop = s.pc.inWindowLoop) ∨
    ∃ f, s.sends x = [f] ∧ (s.step x).fob.sent = s.fob.sent ++ [f] ∧
      f.rollingCode = s.fob.rollingCode.next.getSeed ∧
      (s.step x).fob.rollingCode = s.fob.rollingCode.next ∧
      Speaks s.pc.inWindowLoop f.action (s.step x).pc.inWindowLoop := by
  unfold Remote.sends
  rcases Remote.step_cases s x with ⟨hsent, hrc, hin, -⟩ | ⟨fob, sig, hsent, hrc, hstep, hspeaks, -⟩
  · left
    rw [hsent, List.drop_length]
    exact ⟨rfl, rfl, hrc, hin⟩
  · right
    refine ⟨⟨x.clock, fob.rollingCode.next.getSeed, sig⟩, ?_, ?_, ?_, ?_, hspeaks⟩
    · rw [hstep, Fob.sendSignal_sent, hsent, List.drop_left]
    · rw [hstep, Fob.sendSignal_sent, hsent]
    · rw [← hrc]
    · rw [← hrc, hstep]; rfl

/-! ## Chains of frames -/

/-- **A chain of frames**: from code `n`, on the side `m` of the window loop, to code
`n'` on the side `m'`. -/
def Carries : ℕ → Bool → List Flight → ℕ → Bool → Prop
  | n, m, [], n', m' => n = n' ∧ m = m'
  | n, m, f :: fs, n', m' => f.frame.rollingCode = deployed.code (n + 1) ∧
      Speaks m f.frame.action f.inside ∧ Carries (n + 1) f.inside fs n' m'

/-- A frame joins the end of a chain. -/
theorem carries_concat : ∀ {n : ℕ} {m : Bool}, Carries n m (fs ++ [f]) n' m' ↔
    ∃ k m₁, Carries n m fs k m₁ ∧ n' = k + 1 ∧ m' = f.inside ∧
      f.frame.rollingCode = deployed.code (k + 1) ∧ Speaks m₁ f.frame.action f.inside := by
  induction fs with
  | nil =>
    intro n m
    refine ⟨?_, ?_⟩
    · rintro ⟨hcode, hspeaks, hn, hm⟩
      exact ⟨n, m, ⟨rfl, rfl⟩, hn.symm, hm.symm, hcode, hspeaks⟩
    · rintro ⟨k, m₁, ⟨rfl, rfl⟩, hn, hm, hcode, hspeaks⟩
      exact ⟨hcode, hspeaks, hn.symm, hm.symm⟩
  | cons g fs ih =>
    intro n m
    refine ⟨?_, ?_⟩
    · rintro ⟨hcode, hspeaks, hrest⟩
      obtain ⟨k, m₁, hfs, hlast⟩ := ih.1 hrest
      exact ⟨k, m₁, ⟨hcode, hspeaks, hfs⟩, hlast⟩
    · rintro ⟨k, m₁, ⟨hcode, hspeaks, hfs⟩, hlast⟩
      exact ⟨hcode, hspeaks, ih.2 ⟨k, m₁, hfs, hlast⟩⟩

/-! ## The in-order channel -/

variable {s : Pair} {now : timeval}

theorem Pair.step_deliver (hair : s.air = f :: fs) : s.step (.deliver now) =
    { s with
      air := fs
      receiver := s.receiver.OnDataRecv f.frame now
      received := s.received ++ [f]
      lost := 0 } := by
  simp only [Pair.step, hair]

theorem Pair.step_deliver_nil (hair : s.air = []) : s.step (.deliver now) = s := by
  simp only [Pair.step, hair]

theorem Pair.step_lose (hair : s.air = f :: fs) : s.step .lose =
    { s with
      air := fs
      lost := s.lost + 1
      missed := if f.frame.action = WINDOW_SIGNAL then s.missed + 1 else s.missed } := by
  simp only [Pair.step, hair]

theorem Pair.step_lose_nil (hair : s.air = []) : s.step .lose = s := by
  simp only [Pair.step, hair]

/-- The receiver stands at code `p`; from the last frame that left the air, sent with
the fob then on the side `m`, the frames in the air lead to where the fob is. -/
structure Pair.InOrder (s : Pair) (p : ℕ) (m : Bool) : Prop where
  fob : s.remote.fob.rollingCode = deployed.moveTo (deployed.code s.remote.fob.sent.length)
  receiver : s.receiver.At p
  air : Carries (p + s.lost) m s.air s.remote.fob.sent.length s.remote.pc.inWindowLoop

theorem Pair.init_inOrder : Pair.machine.init.InOrder 0 false := ⟨rfl, rfl, rfl, rfl⟩

/-- One sample adds at most one frame to the end of the chain. -/
theorem Pair.sample_inOrder (h : s.InOrder p m) (x : Sample) : (s.step (.sample x)).InOrder p m := by
  obtain ⟨hfob, hat, hair⟩ := h
  rcases Remote.sends_cases s.remote x with
    ⟨hsends, hsent, hrc, hin⟩ | ⟨g, hsends, hsent, hcode, hrc, hspeaks⟩
  · -- nothing is sent
    refine ⟨?_, hat, ?_⟩
    · simp only [Pair.step, hsent, hrc]
      exact hfob
    · simp only [Pair.step, hsends, hsent, hin, List.map_nil, List.append_nil]
      exact hair
  · -- one frame joins the chain at its far end
    refine ⟨?_, hat, ?_⟩
    · simp only [Pair.step, hsent, hrc, List.length_append, List.length_singleton]
      rw [hfob, next_moveTo]
    · simp only [Pair.step, hsends, hsent, List.map_singleton, List.length_append,
        List.length_singleton]
      refine carries_concat.2 ⟨_, _, hair, rfl, rfl, ?_, hspeaks⟩
      rw [hcode, hfob, next_moveTo]
      rfl

/-- **A frame delivered from the window**: the receiver then stands at its code. -/
theorem Pair.InOrder.deliver (h : s.InOrder p m) (hair : s.air = f :: fs)
    (hwin : s.receiver.rollingCode.InWindow f.frame.rollingCode) (now : timeval) :
    (s.step (.deliver now)).InOrder (p + s.lost + 1) f.inside := by
  obtain ⟨hfob, hat, hchain⟩ := h
  rw [hair] at hchain
  obtain ⟨hcode, -, hrest⟩ := hchain
  rw [Pair.step_deliver hair]
  refine ⟨hfob, ?_, hrest⟩
  unfold Receiver.At at hat ⊢
  rw [OnDataRecv_rollingCode, matches_snd, if_pos hwin, hat, moveTo_moveTo, hcode]

/-- After at most 99 lost ones the next frame is in the window. -/
theorem Pair.InOrder.inWindow (h : s.InOrder p m) (hair : s.air = f :: fs) (hlost : s.lost ≤ 99) :
    s.receiver.rollingCode.InWindow f.frame.rollingCode := by
  have hchain := h.air
  rw [hair] at hchain
  exact (Receiver.inWindow_iff h.receiver hchain.1).2
    ⟨s.lost + 1, by unfold SEARCH_LIMIT; omega, rfl⟩

/-- A frame lost puts the receiver one frame further behind. -/
theorem Pair.lose_inOrder (h : s.InOrder p m) (hair : s.air = f :: fs) :
    (s.step .lose).InOrder p f.inside := by
  obtain ⟨hfob, hat, hchain⟩ := h
  rw [hair] at hchain
  rw [Pair.step_lose hair]
  exact ⟨hfob, hat, hchain.2.2⟩

/-- The first frame in the air is one the fob may send on the side `m`. -/
theorem Pair.InOrder.speaks (h : s.InOrder p m) (hair : s.air = f :: fs) :
    Speaks m f.frame.action f.inside := by
  have hchain := h.air
  rw [hair] at hchain
  exact hchain.2.1

/-- At most 99 frames in a row are lost before a delivery, and the clock check passes. -/
def Pair.Fair (s : Pair) : PairEvent → Prop
  | .deliver now =>
    s.lost ≤ 99 ∧ ∀ f ∈ s.air.head?, isValidTime now.micros f.frame.tv_now.micros = true
  | _ => True

instance (s : Pair) : ∀ e, Decidable (s.Fair e)
  | .deliver _ => inferInstanceAs (Decidable (_ ∧ _))
  | .sample _ => isTrue trivial
  | .lose => isTrue trivial

/-- Under this condition every frame delivered is accepted. -/
theorem Pair.deliver_accepts (h : s.InOrder p m) (hair : s.air = f :: fs)
    (hfair : s.Fair (.deliver now)) : s.receiver.Accepts f.frame now := by
  have hwin := h.inWindow hair hfair.1
  have hvalid := hfair.2 f (by rw [hair]; rfl)
  exact accepts_iff.2 ⟨hwin, hvalid⟩

/-- The part of the pair that reads samples is the fob's machine. -/
theorem Pair.remote_run (es : List PairEvent) :
    (Pair.machine.run es).remote = Remote.machine.run (es.filterMap PairEvent.sample?) := by
  induction es using List.reverseRecOn with
  | nil => rfl
  | append_singleton es e ih =>
    rw [Machine.run_concat, List.filterMap_append]
    change (Pair.step _ e).remote = _
    cases e with
    | sample x =>
      change Remote.step _ x = _
      rw [ih]
      exact (Machine.run_concat Remote.machine _ x).symm
    | deliver now =>
      rw [show List.filterMap PairEvent.sample? [.deliver now] = [] from rfl, List.append_nil, ← ih]
      unfold Pair.step
      simp only
      split <;> rfl
    | lose =>
      rw [show List.filterMap PairEvent.sample? [.lose] = [] from rfl, List.append_nil, ← ih]
      unfold Pair.step
      simp only
      split <;> rfl

end KeyFob
