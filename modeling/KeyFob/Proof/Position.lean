import KeyFob.Proof.Search
import KeyFob.Spec.Channel

/-!
# The receiver's position

While the codes up to `SEARCH_LIMIT` past the sender are pairwise distinct, a code
determines its index, and the channel with any loss, reordering and duplication
refines the machine on positions (`Hopping`): the receiver stands at the newest frame
it accepted, never ahead of the sender, and accepts frame `l` exactly when `l` is in
its reach.
-/

namespace KeyFob

open RollingCode

variable {w : ℕ} {rc : RollingCode w}

/-- The codes `X_n, ..., X_(n + len)` are pairwise distinct. -/
def DistinctCodes (rc : RollingCode w) (n len : ℕ) : Prop :=
  ∀ i ≤ len, ∀ j ≤ len, rc.code (n + i) = rc.code (n + j) → i = j

variable {p : Hopping}

/-- The codes sent after `n` frames: `X_1, ..., X_n`. -/
def codesSent (rc : RollingCode w) (n : ℕ) : List (ULong w) :=
  (List.range n).map fun i => rc.code (i + 1)

theorem codesSent_succ (rc : RollingCode w) (n : ℕ) :
    codesSent rc (n + 1) = codesSent rc n ++ [rc.code (n + 1)] := by
  simp [codesSent, List.range_succ]

/-- The channel state that stands for given positions. -/
def Air.AtPositions (rc : RollingCode w) (s : Air w) (p : Hopping) : Prop :=
  s = { fob := rc.moveTo (rc.code p.sent), sent := codesSent rc p.sent,
        receiver := rc.moveTo (rc.code p.newest), newest := p.newest }

theorem Air.AtPositions.receiver_eq {s : Air w} (h : s.AtPositions rc p) :
    s.receiver = rc.moveTo (rc.code p.newest) := congrArg Air.receiver h

theorem Air.AtPositions.newest_eq {s : Air w} (h : s.AtPositions rc p) : s.newest = p.newest :=
  congrArg Air.newest h

theorem Air.AtPositions.sent_length {s : Air w} (h : s.AtPositions rc p) :
    s.sent.length = p.sent := by
  have hsent := congrArg Air.sent h
  rw [hsent]
  simp [codesSent]

/-- A delivery sends nothing. -/
theorem Air.deliver_sent (s : Air w) (l : ℕ) : (s.step (.deliver l)).sent = s.sent := by
  cases l with
  | zero => rfl
  | succ i =>
    simp only [Air.step]
    split
    · rfl
    · split <;> rfl

/-- **A distinct code determines its index**: the search lands on frame `l` exactly
when `l` is in reach. -/
theorem inWindow_iff (hd : DistinctCodes rc 0 (p.sent + 100)) {l : ℕ} (hl : l ≤ p.sent) :
    (rc.moveTo (rc.code p.newest)).InWindow (rc.code l) ↔ p.Accepts l := by
  have hp := p.newest_le
  rw [inWindow_moveTo]
  unfold Hopping.Accepts SEARCH_LIMIT
  refine ⟨?_, ?_⟩
  · rintro ⟨k, hk, heq⟩
    have := hd (p.newest + k) (by omega) l (by omega) (by simpa using heq)
    omega
  · rintro ⟨h1, h2⟩
    exact ⟨l - p.newest, by omega, by rw [Nat.add_sub_cancel' h1]⟩

/-- **One delivery of frame `l`**, sent before. -/
theorem Air.step_deliver {s : Air w} (hs : s.AtPositions rc p)
    (hd : DistinctCodes rc 0 (p.sent + 100)) {i : ℕ} (hi : i < p.sent) :
    s.sent[i]? = some (rc.code (i + 1)) ∧
      ((s.receiver.matches (rc.code (i + 1))).1 = true ↔ p.Accepts (i + 1)) ∧
      s.step (.deliver (i + 1)) = if p.Accepts (i + 1) then
        { s with receiver := rc.moveTo (rc.code (i + 1)), newest := i + 1 } else s := by
  obtain rfl := hs
  have hget : (codesSent rc p.sent)[i]? = some (rc.code (i + 1)) := by
    simp [codesSent, hi]
  have hwin := inWindow_iff hd (l := i + 1) (by omega)
  refine ⟨hget, by rw [matches_fst]; exact hwin, ?_⟩
  simp only [Air.step, hget, matches_eq]
  by_cases hacc : p.Accepts (i + 1)
  · have hmax : max p.newest (i + 1) = i + 1 := max_eq_right hacc.1
    rw [if_pos (hwin.2 hacc), if_pos hacc]
    simp only [moveTo_moveTo, hmax]
  · rw [if_neg (mt hwin.1 hacc), if_neg hacc]

/-- **The channel refines the machine on positions**, as long as the codes up to
`SEARCH_LIMIT` past the sender stay distinct. -/
theorem Air.refines (rc : RollingCode w) : Machine.Refines (Air.machine rc) Hopping.machine
    (fun s e => DistinctCodes rc 0 ((s.step e).sent.length + 100)) (fun _ e => some e)
    (Air.AtPositions rc) where
  init := rfl
  step := by
    intro s p e hs hd
    simp only [Option.elim_some, Air.machine, Hopping.machine]
    cases e with
    | send =>
      obtain rfl := hs
      simp only [Air.AtPositions, Air.step, Hopping.step, next_moveTo, getSeed_eq, moveTo_seed, codesSent_succ]
    | deliver l =>
      cases l with
      | zero => simpa [Air.step, Hopping.step] using hs
      | succ i =>
        by_cases hi : i < p.sent
        · rw [Air.deliver_sent, hs.sent_length] at hd
          obtain ⟨-, -, hstep⟩ := Air.step_deliver hs hd hi
          rw [hstep]
          obtain rfl := hs
          simp only [Hopping.step]
          by_cases hacc : p.Accepts (i + 1)
          · rw [if_pos hacc, dif_pos ⟨⟨by omega, by omega⟩, hacc⟩]
            rfl
          · rw [if_neg hacc, dif_neg (fun h => hacc h.2)]
            rfl
        · -- frame `i + 1` was never sent
          have hno : s.sent[i]? = none := by
            obtain rfl := hs
            simp only [codesSent, List.getElem?_eq_none_iff, List.length_map, List.length_range]
            omega
          simp only [Air.step, hno, Hopping.step]
          rw [dif_neg (by omega)]
          exact hs

theorem DistinctCodes.mono {n len len' : ℕ} (h : DistinctCodes rc n len) (hle : len' ≤ len) :
    DistinctCodes rc n len' :=
  fun i hi j hj => h i (by omega) j (by omega)

theorem Air.sent_length_step (s : Air w) (e : AirEvent) :
    s.sent.length ≤ (s.step e).sent.length := by
  cases e with
  | send => simp [Air.step]
  | deliver l => rw [Air.deliver_sent]

/-- The newest accepted index never decreases. -/
theorem Air.newest_le_step (s : Air w) (e : AirEvent) : s.newest ≤ (s.step e).newest := by
  cases e with
  | send => exact le_rfl
  | deliver l =>
    cases l with
    | zero => exact le_rfl
    | succ i =>
      simp only [Air.step]
      split
      · exact le_rfl
      · split
        · exact le_max_left _ _
        · exact le_rfl

theorem Air.sent_length_runFrom (rc : RollingCode w) (es : List AirEvent) : ∀ s : Air w,
    s.sent.length ≤ ((Air.machine rc).runFrom s es).sent.length := by
  induction es with
  | nil => intro s; exact le_rfl
  | cons e es ih => intro s; exact (Air.sent_length_step s e).trans (ih _)

/-- Distinctness at the end of a run gives it at every step. -/
theorem Air.distinct_along (es : List AirEvent) : ∀ s : Air w,
    DistinctCodes rc 0 (((Air.machine rc).runFrom s es).sent.length + 100) →
    (Air.machine rc).Along (fun s e => DistinctCodes rc 0 ((s.step e).sent.length + 100)) s es := by
  induction es with
  | nil => intro s _; trivial
  | cons e es ih =>
    intro s hd
    have := Air.sent_length_runFrom rc es (s.step e)
    exact ⟨hd.mono (Nat.add_le_add_right this 100), ih _ hd⟩

/-- The positions that a run of the channel stands for. -/
theorem Air.atPositions_run {es : List AirEvent}
    (hd : DistinctCodes rc 0 (((Air.machine rc).run es).sent.length + 100)) :
    ∃ p, ((Air.machine rc).run es).AtPositions rc p :=
  ⟨_, (Air.refines rc).run (Air.distinct_along es _ hd)⟩

/-- **The receiver's position is monotone and never ahead of the sender.** In a run
that sent `n` frames, the codes `X_0, ..., X_(n + 100)` distinct, the receiver's seed
is `X_p` for the newest accepted frame `p ≤ n`; frame `l` is accepted exactly when
`p ≤ l ≤ p + 100`; the position does not decrease, a frame older than `p` is rejected
and a rejected frame leaves the receiver as it was. -/
theorem receiver_position (rc : RollingCode w) (es : List AirEvent)
    (hd : DistinctCodes rc 0 (((Air.machine rc).run es).sent.length + 100)) :
    let s := (Air.machine rc).run es
    s.receiver.getSeed = rc.code s.newest ∧ s.newest ≤ s.sent.length ∧
    (∀ e, s.newest ≤ (s.step e).newest) ∧
    ∀ l, 1 ≤ l → l ≤ s.sent.length → s.sent[l - 1]? = some (rc.code l) ∧
      ((s.receiver.matches (rc.code l)).1 = true ↔ s.newest ≤ l ∧ l ≤ s.newest + 100) ∧
      (l < s.newest → (s.receiver.matches (rc.code l)).1 = false) ∧
      ((s.receiver.matches (rc.code l)).1 = false →
        (s.step (.deliver l)).receiver = s.receiver ∧ (s.step (.deliver l)).newest = s.newest) ∧
      ((s.receiver.matches (rc.code l)).1 = true →
        (s.step (.deliver l)).receiver.getSeed = rc.code l ∧ (s.step (.deliver l)).newest = l) := by
  intro s
  obtain ⟨p, hs⟩ := Air.atPositions_run hd
  have hp := p.newest_le
  have hnewest : s.newest = p.newest := hs.newest_eq
  have hlen : s.sent.length = p.sent := hs.sent_length
  have hseed : s.receiver = rc.moveTo (rc.code s.newest) := by
    rw [hnewest]
    exact hs.receiver_eq
  rw [show ((Air.machine rc).run es).sent.length = p.sent from hlen] at hd
  refine ⟨by rw [hseed]; rfl, by omega, Air.newest_le_step s, ?_⟩
  intro l h1 h2
  obtain ⟨i, rfl⟩ : ∃ i, l = i + 1 := ⟨l - 1, by omega⟩
  obtain ⟨hget, hacc, hstep⟩ := Air.step_deliver hs hd (i := i) (by omega)
  have hreach : p.Accepts (i + 1) ↔ s.newest ≤ i + 1 ∧ i + 1 ≤ s.newest + 100 := by
    rw [hnewest]; rfl
  refine ⟨hget, hacc.trans hreach, ?_, ?_, ?_⟩
  · intro hold
    have hno : ¬ p.Accepts (i + 1) := fun h => by
      have := (hreach.1 h).1
      omega
    exact Bool.eq_false_iff.2 (mt hacc.1 hno)
  · intro hrej
    have hno : ¬ p.Accepts (i + 1) := fun h => by
      rw [hacc.2 h] at hrej
      cases hrej
    rw [show s.step (.deliver (i + 1)) = s by rw [hstep, if_neg hno]]
    exact ⟨rfl, rfl⟩
  · intro hok
    rw [show s.step (.deliver (i + 1)) = _ from hstep, if_pos (hacc.1 hok)]
    exact ⟨rfl, rfl⟩

/-- Three frames sent; the third arrives before the second. -/
theorem receiver_position_overtaken :
    let s := (Air.machine (ofSeed 100 : RollingCode 64)).run
      [.send, .deliver 1, .send, .send, .deliver 3, .deliver 2]
    s.newest = 3 ∧ (s.receiver.matches ((ofSeed 100 : RollingCode 64).code 2)).1 = false := by
  intro s
  have hlen : s.sent.length = 3 := by decide +kernel
  have hnewest : s.newest = 3 := by decide +kernel
  have hd : DistinctCodes (ofSeed 100 : RollingCode 64) 0 103 := by
    unfold DistinctCodes
    decide +kernel
  have h := receiver_position (ofSeed 100 : RollingCode 64)
    [.send, .deliver 1, .send, .send, .deliver 3, .deliver 2] (by rw [hlen]; exact hd)
  refine ⟨hnewest, (h.2.2.2 2 (by decide) (by rw [hlen]; decide)).2.2.1 ?_⟩
  rw [hnewest]
  decide

end KeyFob
