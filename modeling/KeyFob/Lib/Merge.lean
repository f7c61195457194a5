import Mathlib.Data.List.Induction

/-!
# Two writers and one stream

Two threads write to one stream, each in its own order.

* `Merge.filterMap`: a part of the stream is a merge of the parts of the two.
* `Merge.foldl_eq`: a reader whom one writer tells nothing sees the other one alone.
* `Merge.getLast?`: what comes last was written by one of them.
* `Merge.exists_map`: a form in which both write is that of the stream.
* `Merge.split`: what one writer writes first and last meets two parts of the other's.
-/

variable {α β σ : Type*} {u v w : List α}

/-- **The stream `w` is a merge of `u` and `v`.** -/
inductive Merge : List α → List α → List α → Prop
  | nil : Merge [] [] []
  | left {u v w : List α} (a : α) (h : Merge u v w) : Merge (u ++ [a]) v (w ++ [a])
  | right {u v w : List α} (a : α) (h : Merge u v w) : Merge u (v ++ [a]) (w ++ [a])

namespace Merge

/-- One writer alone, before the other one starts. -/
theorem of_nil (v : List α) : Merge [] v v := by
  induction v using List.reverseRecOn with
  | nil => exact .nil
  | append_singleton v a ih => exact .right a ih

theorem filterMap (f : α → Option β) (h : Merge u v w) :
    Merge (u.filterMap f) (v.filterMap f) (w.filterMap f) := by
  induction h with
  | nil => exact .nil
  | left a h ih =>
    rw [List.filterMap_append, List.filterMap_append]
    cases ha : f a with
    | none => simpa [ha] using ih
    | some b => simpa [ha] using ih.left b
  | right a h ih =>
    rw [List.filterMap_append, List.filterMap_append]
    cases ha : f a with
    | none => simpa [ha] using ih
    | some b => simpa [ha] using ih.right b

theorem filter (p : α → Bool) (h : Merge u v w) : Merge (u.filter p) (v.filter p) (w.filter p) := by
  simpa only [List.filterMap_eq_filter] using h.filterMap (Option.guard p)

/-- A writer that wrote nothing. -/
theorem eq_of_nil (h : Merge u v w) (hu : u = []) : w = v := by
  induction h with
  | nil => rfl
  | left a h ih => exact absurd hu (by simp)
  | right a h ih => rw [ih hu]

theorem foldl_eq {g : σ → α → σ} (h : Merge u v w) (hu : ∀ a ∈ u, ∀ s, g s a = s) (s : σ) :
    w.foldl g s = v.foldl g s := by
  induction h with
  | nil => rfl
  | left a h ih =>
    rw [List.foldl_append, ih fun x hx => hu x (List.mem_append_left _ hx)]
    exact hu a (List.mem_append_right _ List.mem_cons_self) _
  | right a h ih => rw [List.foldl_append, List.foldl_append, ih hu]

theorem getLast? (h : Merge u v w) :
    w.getLast? = u.getLast? ∨ (v ≠ [] ∧ w.getLast? = v.getLast?) := by
  cases h with
  | nil => exact Or.inl rfl
  | left a h => exact Or.inl (by simp)
  | right a h => exact Or.inr ⟨by simp, by simp⟩

theorem mem {x : α} (h : Merge u v w) : x ∈ w ↔ x ∈ u ∨ x ∈ v := by
  induction h with
  | nil => simp
  | left a h ih => simp [ih, or_right_comm]
  | right a h ih => simp [ih, or_assoc]

/-- What two writers write in one form, the stream holds in that form. -/
theorem exists_map {f : β → α} (h : Merge u v w) : ∀ {us vs : List β}, u = us.map f → v = vs.map f →
    ∃ ws, w = ws.map f ∧ Merge us vs ws := by
  induction h with
  | nil =>
    intro us vs hu hv
    obtain rfl := List.map_eq_nil_iff.1 hu.symm
    obtain rfl := List.map_eq_nil_iff.1 hv.symm
    exact ⟨[], rfl, .nil⟩
  | left a h ih =>
    intro us vs hu hv
    obtain ⟨us, last, rfl, hus, hlast⟩ := List.map_eq_append_iff.1 hu.symm
    obtain ⟨b, rfl, rfl⟩ := List.map_eq_singleton_iff.1 hlast
    obtain ⟨ws, rfl, hws⟩ := ih hus.symm hv
    exact ⟨ws ++ [b], by rw [List.map_append, List.map_singleton], hws.left b⟩
  | right a h ih =>
    intro us vs hu hv
    obtain ⟨vs, last, rfl, hvs, hlast⟩ := List.map_eq_append_iff.1 hv.symm
    obtain ⟨b, rfl, rfl⟩ := List.map_eq_singleton_iff.1 hlast
    obtain ⟨ws, rfl, hws⟩ := ih hu hvs.symm
    exact ⟨ws ++ [b], by rw [List.map_append, List.map_singleton], hws.right b⟩

/-- **The stream before and after something** that the first writer wrote. -/
theorem split {a : α} (h : Merge u v w) : ∀ {u₁ u₂ : List α}, u = u₁ ++ a :: u₂ →
    ∃ v₁ v₂ w₁ w₂, v = v₁ ++ v₂ ∧ w = w₁ ++ a :: w₂ ∧ Merge u₁ v₁ w₁ ∧ Merge u₂ v₂ w₂ := by
  induction h with
  | nil => intro u₁ u₂ heq; exact absurd heq (by simp)
  | @left u v w b h ih =>
    intro u₁ u₂ heq
    rcases List.eq_nil_or_concat u₂ with rfl | ⟨u₃, b', rfl⟩
    · obtain ⟨rfl, hb⟩ := List.append_inj' heq rfl
      obtain rfl : b = a := by simpa using hb
      exact ⟨v, [], w, [], (List.append_nil v).symm, rfl, h, .nil⟩
    · rw [List.concat_eq_append, ← List.cons_append, ← List.append_assoc] at heq
      obtain ⟨hu, hb⟩ := List.append_inj' heq rfl
      obtain rfl : b = b' := by simpa using hb
      obtain ⟨v₁, v₂, w₁, w₂, hv, hw, h₁, h₂⟩ := ih hu
      refine ⟨v₁, v₂, w₁, w₂ ++ [b], hv, ?_, h₁, ?_⟩
      · rw [hw, List.append_assoc, List.cons_append]
      · rw [List.concat_eq_append]
        exact h₂.left b
  | right b h ih =>
    intro u₁ u₂ heq
    obtain ⟨v₁, v₂, w₁, w₂, hv, hw, h₁, h₂⟩ := ih heq
    refine ⟨v₁, v₂ ++ [b], w₁, w₂ ++ [b], ?_, ?_, h₁, h₂.right b⟩
    · rw [hv, List.append_assoc]
    · rw [hw, List.append_assoc, List.cons_append]

end Merge
