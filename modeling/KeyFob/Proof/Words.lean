import KeyFob.Proof.Fob
import Mathlib.Computability.Language

/-!
# What the fob can say

* `Remote.step_phase`: one sample makes the fob stay silent in its phase, or call
  `sendSignal` with a signal that leads from its phase to the next.
* `Phase.spoken_concat`: the signals said so far, phase by phase, as a language.
* `fob_words`: over any history the signals sent begin a word of `fobWords`, and the
  messages carry the codes of the generator one after the other.
-/

namespace KeyFob

open Level RollingCode Computability

/-- Where the fob is in the sentence it says: outside the window loop, inside it, or
inside with a window button held. -/
inductive Phase where
  | outside
  | inside
  | up
  | down
  deriving DecidableEq

variable {p p' : Phase} {a : Byte} {w : List Byte} {fob : Fob}

/-- The phase after a signal, if it may be said. -/
def Phase.step : Phase → Byte → Option Phase
  | .outside, a =>
    if a = LOCK_SIGNAL ∨ a = UNLOCK_SIGNAL then some .outside
    else if a = WINDOW_SIGNAL then some .inside
    else none
  | .inside, a =>
    if a = WINDOW_UP_SIGNAL then some .up
    else if a = WINDOW_DOWN_SIGNAL then some .down
    else if a = WINDOW_SIGNAL then some .outside
    else none
  | .up, a => if a = LOCK_SIGNAL then some .inside else none
  | .down, a => if a = UNLOCK_SIGNAL then some .inside else none

/-- The transitions, one by one. -/
theorem Phase.step_inv (h : p.step a = some p') :
    (p = .outside ∧ (a = LOCK_SIGNAL ∨ a = UNLOCK_SIGNAL) ∧ p' = .outside) ∨
    (p = .outside ∧ a = WINDOW_SIGNAL ∧ p' = .inside) ∨
    (p = .inside ∧ a = WINDOW_UP_SIGNAL ∧ p' = .up) ∨
    (p = .inside ∧ a = WINDOW_DOWN_SIGNAL ∧ p' = .down) ∨
    (p = .inside ∧ a = WINDOW_SIGNAL ∧ p' = .outside) ∨
    (p = .up ∧ a = LOCK_SIGNAL ∧ p' = .inside) ∨
    (p = .down ∧ a = UNLOCK_SIGNAL ∧ p' = .inside) := by
  cases p <;> simp only [Phase.step] at h <;> split_ifs at h <;> simp_all

/-- The phase of a place in the program. -/
def Control.phase : Control → Phase
  | .loop | .lockButton | .unlockButton => .outside
  | .windowLoop | .windowU | .windowD => .inside
  | .windowUHeld => .up
  | .windowDHeld => .down

/-- **What the fob does on one sample**: it stays silent in its phase, or calls
`sendSignal` with a signal that leads to the next. -/
theorem Remote.step_phase (s : Remote) (x : Sample) :
    ((s.step x).fob.sent = s.fob.sent ∧ (s.step x).fob.rollingCode = s.fob.rollingCode ∧
      (s.step x).pc.phase = s.pc.phase) ∨
    ∃ (fob : Fob) (sig : Byte), fob.sent = s.fob.sent ∧ fob.rollingCode = s.fob.rollingCode ∧
      (s.step x).fob = fob.sendSignal sig x.clock ∧
      s.pc.phase.step sig = some (s.step x).pc.phase := by
  obtain ⟨pc, fob⟩ := s
  cases pc with
  | loop =>
    cases h : x.level .WNDBTTN with
    | LOW => simp [Remote.step, h, Control.phase]
    | HIGH =>
      right
      simp only [Remote.step, h, if_true]
      exact ⟨fob, WINDOW_SIGNAL, rfl, rfl, rfl, by decide⟩
  | windowLoop =>
    cases h : x.level .WNDBTTN with
    | HIGH => simp [Remote.step, h, Control.phase]
    | LOW =>
      right
      simp only [Remote.step, h, reduceCtorEq, if_false]
      exact ⟨fob, WINDOW_SIGNAL, rfl, rfl, rfl, by decide⟩
  | windowU =>
    cases h : x.level .LKBTTN with
    | LOW => simp [Remote.step, h, Control.phase]
    | HIGH =>
      right
      simp only [Remote.step, h, if_true]
      exact ⟨fob, WINDOW_UP_SIGNAL, rfl, rfl, rfl, by decide⟩
  | windowUHeld =>
    cases h : x.level .LKBTTN with
    | HIGH => simp [Remote.step, h]
    | LOW =>
      right
      simp only [Remote.step, h, reduceCtorEq, if_false]
      exact ⟨fob, LOCK_SIGNAL, rfl, rfl, rfl, by decide⟩
  | windowD =>
    cases h : x.level .UNLKBTTN with
    | LOW => simp [Remote.step, h, Control.phase]
    | HIGH =>
      right
      simp only [Remote.step, h, if_true]
      exact ⟨fob, WINDOW_DOWN_SIGNAL, rfl, rfl, rfl, by decide⟩
  | windowDHeld =>
    cases h : x.level .UNLKBTTN with
    | HIGH => simp [Remote.step, h]
    | LOW =>
      right
      simp only [Remote.step, h, reduceCtorEq, if_false]
      exact ⟨fob, UNLOCK_SIGNAL, rfl, rfl, rfl, by decide⟩
  | lockButton =>
    by_cases h : x.level .LKBTTN = HIGH ∧ fob.LKBTTNSTATE ≠ HIGH
    · right
      simp only [Remote.step, if_pos h]
      exact ⟨{ fob with LKBTTNSTATE := x.level .LKBTTN }, LOCK_SIGNAL, rfl, rfl, rfl, by decide⟩
    · simp [Remote.step, if_neg h, Control.phase]
  | unlockButton =>
    by_cases h : x.level .UNLKBTTN = HIGH ∧ fob.UNLKBTTNSTATE ≠ HIGH
    · right
      simp only [Remote.step, if_pos h]
      exact ⟨{ fob with UNLKBTTNSTATE := x.level .UNLKBTTN }, UNLOCK_SIGNAL, rfl, rfl, rfl, by decide⟩
    · simp [Remote.step, if_neg h, Control.phase]

/-! ## The language -/

/-- A window button, pressed and released. -/
def windowWords : Language Byte :=
  {[WINDOW_UP_SIGNAL, LOCK_SIGNAL]} + {[WINDOW_DOWN_SIGNAL, UNLOCK_SIGNAL]}

/-- One thing the fob says: a lock signal, or a visit to the window loop. -/
def fobWord : Language Byte :=
  {[LOCK_SIGNAL]} + {[UNLOCK_SIGNAL]} + {[WINDOW_SIGNAL]} * windowWords∗ * {[WINDOW_SIGNAL]}

def fobWords : Language Byte := fobWord∗

/-- The signals said when the fob is in a phase. -/
def Phase.spoken : Phase → Language Byte
  | .outside => fobWords
  | .inside => fobWords * ({[WINDOW_SIGNAL]} * windowWords∗)
  | .up => fobWords * ({[WINDOW_SIGNAL]} * windowWords∗) * {[WINDOW_UP_SIGNAL]}
  | .down => fobWords * ({[WINDOW_SIGNAL]} * windowWords∗) * {[WINDOW_DOWN_SIGNAL]}

/-- What is left to say in a phase. -/
def Phase.closing : Phase → List Byte
  | .outside => []
  | .inside => [WINDOW_SIGNAL]
  | .up => [LOCK_SIGNAL, WINDOW_SIGNAL]
  | .down => [UNLOCK_SIGNAL, WINDOW_SIGNAL]

theorem append_mem_kstar {l : Language Byte} {u v : List Byte} (hu : u ∈ l∗) (hv : v ∈ l) :
    u ++ v ∈ l∗ :=
  (kstar_mul_le_kstar : l∗ * l ≤ l∗) (Language.append_mem_mul hu hv)

/-- Leaving the window loop completes a word. -/
theorem leave_mem (h : w ∈ Phase.inside.spoken) : w ++ [WINDOW_SIGNAL] ∈ fobWords := by
  obtain ⟨u, hu, v, hv, rfl⟩ := Language.mem_mul.1 h
  have hvisit : v ++ [WINDOW_SIGNAL] ∈ fobWord := Or.inr (Language.append_mem_mul hv rfl)
  rw [List.append_assoc]
  exact append_mem_kstar hu hvisit

/-- Releasing a window button completes a word of the window loop. -/
theorem release_mem {b : Byte} (hword : [b, a] ∈ windowWords)
    (h : w ∈ Phase.inside.spoken * {[b]}) : w ++ [a] ∈ Phase.inside.spoken := by
  obtain ⟨u, hu, v, rfl, rfl⟩ := Language.mem_mul.1 h
  obtain ⟨u₁, hu₁, u₂, hu₂, rfl⟩ := Language.mem_mul.1 hu
  obtain ⟨x, hx, y, hy, rfl⟩ := Language.mem_mul.1 hu₂
  have hmore : x ++ (y ++ [b, a]) ∈ {[WINDOW_SIGNAL]} * windowWords∗ :=
    Language.append_mem_mul hx (append_mem_kstar hy hword)
  have hsplit : u₁ ++ (x ++ y) ++ [b] ++ [a] = u₁ ++ (x ++ (y ++ [b, a])) := by simp
  rw [hsplit]
  exact Language.append_mem_mul hu₁ hmore

/-- **One more signal.** -/
theorem Phase.spoken_concat (hw : w ∈ p.spoken) (h : p.step a = some p') :
    w ++ [a] ∈ p'.spoken := by
  rcases Phase.step_inv h with ⟨rfl, hlock, rfl⟩ | ⟨rfl, rfl, rfl⟩ | ⟨rfl, rfl, rfl⟩ |
    ⟨rfl, rfl, rfl⟩ | ⟨rfl, rfl, rfl⟩ | ⟨rfl, rfl, rfl⟩ | ⟨rfl, rfl, rfl⟩
  · -- a lock signal is a word of its own
    apply append_mem_kstar hw
    left
    rcases hlock with rfl | rfl
    · exact Or.inl rfl
    · exact Or.inr rfl
  · have henter : [WINDOW_SIGNAL] ++ [] ∈ {[WINDOW_SIGNAL]} * windowWords∗ :=
      Language.append_mem_mul rfl (Language.nil_mem_kstar _)
    exact Language.append_mem_mul hw henter
  · exact Language.append_mem_mul hw rfl
  · exact Language.append_mem_mul hw rfl
  · exact leave_mem hw
  · exact release_mem (Or.inl rfl) hw
  · exact release_mem (Or.inr rfl) hw

/-- What was said can be completed to a word. -/
theorem Phase.closing_mem (hw : w ∈ p.spoken) : w ++ p.closing ∈ fobWords := by
  cases p with
  | outside => rw [Phase.closing, List.append_nil]; exact hw
  | inside => exact leave_mem hw
  | up =>
    have hreleased : w ++ [LOCK_SIGNAL] ∈ Phase.inside.spoken := release_mem (Or.inl rfl) hw
    have hdone := leave_mem hreleased
    rw [List.append_assoc] at hdone
    exact hdone
  | down =>
    have hreleased : w ++ [UNLOCK_SIGNAL] ∈ Phase.inside.spoken := release_mem (Or.inr rfl) hw
    have hdone := leave_mem hreleased
    rw [List.append_assoc] at hdone
    exact hdone

/-! ## Runs -/

theorem Fob.Sends.congr {fob' : Fob} (h : fob.Sends) (hsent : fob'.sent = fob.sent)
    (hcode : fob'.rollingCode = fob.rollingCode) : fob'.Sends where
  rollingCode := by rw [hcode, hsent, h.rollingCode]
  codes := by rw [hsent]; exact h.codes

/-- The signals of the messages sent. -/
def Fob.signals (fob : Fob) : List Byte := fob.sent.map struct_message.action

/-- The fob sends its codes in order, and what it said belongs to its phase. -/
structure Remote.InPhase (s : Remote) : Prop where
  sends : s.fob.Sends
  spoken : s.fob.signals ∈ s.pc.phase.spoken

theorem Remote.init_inPhase : Remote.machine.init.InPhase where
  sends := Fob.boot_sends
  spoken := Language.nil_mem_kstar _

/-- **One sample keeps the sentence.** -/
theorem Remote.step_inPhase {s : Remote} (h : s.InPhase) (x : Sample) : (s.step x).InPhase := by
  obtain ⟨hsends, hspoken⟩ := h
  rcases Remote.step_phase s x with ⟨hsent, hcode, hphase⟩ | ⟨fob, sig, hsent, hcode, hstep, hphase⟩
  · -- silent: only a button state may have changed
    refine ⟨hsends.congr hsent hcode, ?_⟩
    unfold Fob.signals
    rw [hsent, hphase]
    exact hspoken
  · refine ⟨?_, ?_⟩
    · rw [hstep]
      exact Fob.sendSignal_sends (hsends.congr hsent hcode) sig x.clock
    · have hsignals : (s.step x).fob.signals = s.fob.signals ++ [sig] := by
        unfold Fob.signals
        rw [hstep, Fob.sendSignal_sent, hsent, List.map_append]
        rfl
      rw [hsignals]
      exact Phase.spoken_concat hspoken hphase

theorem Remote.inPhase (history : List Sample) : (Remote.machine.run history).InPhase :=
  Machine.inv_run Remote.init_inPhase (fun _ x h => Remote.step_inPhase h x) history

/-- **What the fob can say.** Over any history of samples and whatever `esp_now_send` returns,
the signals the fob sends begin a word of `fobWords`, message `i`, counted from zero, carries
the code after `i + 1` steps of the generator, and the generator stands at the code of the
last one. -/
theorem fob_words (esp_now_send : Radio) (history : List Sample) :
    ∃ b, Fob.run esp_now_send history = .error .historyEnded b ∧
      (∃ rest, b.fob.signals ++ rest ∈ fobWords) ∧
      (∀ i f, b.fob.sent[i]? = some f → f.rollingCode = deployed.code (i + 1)) ∧
      b.fob.rollingCode.getSeed = deployed.code b.fob.sent.length := by
  obtain ⟨b, hend, hfob⟩ := run_follows esp_now_send history
  obtain ⟨hsends, hspoken⟩ := Remote.inPhase history
  rw [← hfob] at hsends hspoken
  have hstands : b.fob.rollingCode.getSeed = deployed.code b.fob.sent.length := by
    rw [hsends.rollingCode]
    rfl
  exact ⟨b, hend, ⟨_, Phase.closing_mem hspoken⟩, hsends.codes, hstands⟩

end KeyFob
