import Mathlib.Data.Nat.Digits.Defs

/-!
# Blocks of memory

A block is a list of cells. A field is written at an offset and read back from there;
numbers are stored with the least significant byte first.

* `readAt_writeAll`: fields written one above the other all read back as written.
* `writeAll_writeAll`: of two writes of the same fields the second one counts.
* `ofLE_toLE`, `toLE_ofLE`: `n` bytes are the numbers modulo `256 ^ n`.
* `memcpy_eq`: a copy of `n` cells needs a source of at least that length.
-/

namespace Block

variable {α : Type*} {buf bs : List α} {off low n : ℕ}

/-- The `n` cells from `off` on. -/
def readAt (buf : List α) (off n : ℕ) : List α := (buf.drop off).take n

/-- The block with the cells `bs` from `off` on. -/
def writeAt (buf : List α) (off : ℕ) (bs : List α) : List α :=
  buf.take off ++ bs ++ buf.drop (off + bs.length)

/-- The block with all these fields written, each with its offset. -/
def writeAll (buf : List α) (fields : List (ℕ × List α)) : List α :=
  fields.foldl (fun buf f => writeAt buf f.1 f.2) buf

/-- The first `n` cells of a source, read one after the other; nothing if that reads
past its end. -/
def memcpy : ℕ → List α → Option (List α)
  | 0, _ => some []
  | _ + 1, [] => none
  | n + 1, b :: bs => (memcpy n bs).map (b :: ·)

theorem length_writeAt (h : off + bs.length ≤ buf.length) :
    (writeAt buf off bs).length = buf.length := by
  unfold writeAt
  simp only [List.length_append, List.length_take, List.length_drop]
  omega

/-- **A field reads back as written.** -/
theorem readAt_writeAt (h : off + bs.length ≤ buf.length) :
    readAt (writeAt buf off bs) off bs.length = bs := by
  have hlen : (buf.take off).length = off := by
    rw [List.length_take]
    omega
  unfold readAt writeAt
  rw [List.append_assoc, List.drop_append_of_le_length (by omega), List.drop_of_length_le (by omega),
    List.nil_append, List.take_left]

/-- **A write leaves what is below it.** -/
theorem readAt_writeAt_below (h : off + bs.length ≤ buf.length) (hbelow : low + n ≤ off) :
    readAt (writeAt buf off bs) low n = readAt buf low n := by
  have hlen : (buf.take off).length = off := by
    rw [List.length_take]
    omega
  have hsplit : buf = buf.take off ++ buf.drop off := (List.take_append_drop off buf).symm
  unfold readAt writeAt
  conv_rhs => rw [hsplit]
  rw [List.append_assoc, List.drop_append_of_le_length (by omega),
    List.drop_append_of_le_length (by omega), List.take_append_of_le_length,
    List.take_append_of_le_length]
  · rw [List.length_drop]
    omega
  · rw [List.length_drop]
    omega

/-- Fields that lie in a block, each above the one before it. -/
structure Stacked (size : ℕ) (fields : List (ℕ × List α)) : Prop where
  inside : ∀ f ∈ fields, f.1 + f.2.length ≤ size
  above : fields.Pairwise fun f g => f.1 + f.2.length ≤ g.1

theorem Stacked.tail {size : ℕ} {f : ℕ × List α} {fields : List (ℕ × List α)}
    (h : Stacked size (f :: fields)) : Stacked size fields where
  inside := fun g hg => h.inside g (List.mem_cons_of_mem _ hg)
  above := h.above.of_cons

theorem length_writeAll {size : ℕ} {fields : List (ℕ × List α)} (h : Stacked size fields) :
    ∀ {buf : List α}, buf.length = size → (writeAll buf fields).length = size := by
  induction fields with
  | nil => intro buf hbuf; exact hbuf
  | cons f fields ih =>
    intro buf hbuf
    have hin := h.inside f List.mem_cons_self
    exact ih h.tail ((length_writeAt (by omega)).trans hbuf)

theorem readAt_writeAll_below {size : ℕ} {fields : List (ℕ × List α)} (h : Stacked size fields)
    (hbelow : ∀ f ∈ fields, low + n ≤ f.1) : ∀ {buf : List α}, buf.length = size →
      readAt (writeAll buf fields) low n = readAt buf low n := by
  induction fields with
  | nil => intro buf _; rfl
  | cons f fields ih =>
    intro buf hbuf
    have hin := h.inside f List.mem_cons_self
    have hlen : (writeAt buf f.1 f.2).length = size := (length_writeAt (by omega)).trans hbuf
    have hrest := ih h.tail (fun g hg => hbelow g (List.mem_cons_of_mem _ hg)) hlen
    exact hrest.trans (readAt_writeAt_below (by omega) (hbelow f List.mem_cons_self))

/-- **Stacked fields read back as written.** -/
theorem readAt_writeAll {size : ℕ} {fields : List (ℕ × List α)} (h : Stacked size fields) :
    ∀ {buf : List α}, buf.length = size →
      ∀ f ∈ fields, readAt (writeAll buf fields) f.1 f.2.length = f.2 := by
  induction fields with
  | nil => intro buf _ f hf; exact absurd hf List.not_mem_nil
  | cons g fields ih =>
    intro buf hbuf f hf
    have hin := h.inside g List.mem_cons_self
    have hlen : (writeAt buf g.1 g.2).length = size := (length_writeAt (by omega)).trans hbuf
    rcases List.mem_cons.1 hf with rfl | hf
    · -- the later fields lie above this one
      have hkeep := readAt_writeAll_below h.tail
        (fun x hx => List.rel_of_pairwise_cons h.above hx) hlen
      exact hkeep.trans (readAt_writeAt (by omega))
    · exact ih h.tail hlen f hf

/-- Cell `i` lies in one of the fields. -/
def Covers (fields : List (ℕ × List α)) (i : ℕ) : Prop :=
  ∃ f ∈ fields, f.1 ≤ i ∧ i < f.1 + f.2.length

/-- A write, cell by cell. -/
theorem getElem?_writeAt (h : off + bs.length ≤ buf.length) (i : ℕ) : (writeAt buf off bs)[i]? =
    if off ≤ i ∧ i < off + bs.length then bs[i - off]? else buf[i]? := by
  have hlen : (buf.take off).length = off := by
    rw [List.length_take]
    omega
  unfold writeAt
  rw [List.append_assoc, List.getElem?_append, hlen, List.getElem?_append]
  by_cases hbelow : i < off
  · rw [if_pos hbelow, if_neg (by omega), List.getElem?_take_of_lt hbelow]
  · rw [if_neg hbelow]
    by_cases hin : i < off + bs.length
    · rw [if_pos (by omega), if_pos (by omega)]
    · rw [if_neg (by omega), if_neg (by omega), List.getElem?_drop]
      congr 1
      omega

/-- What no field covers stays. -/
theorem getElem?_writeAll_outside {size i : ℕ} {fields : List (ℕ × List α)} (h : Stacked size fields)
    (hi : ¬ Covers fields i) : ∀ {buf : List α}, buf.length = size →
      (writeAll buf fields)[i]? = buf[i]? := by
  induction fields with
  | nil => intro buf _; rfl
  | cons f fields ih =>
    intro buf hbuf
    have hin := h.inside f List.mem_cons_self
    have hlen : (writeAt buf f.1 f.2).length = size := (length_writeAt (by omega)).trans hbuf
    have hrest : ¬ Covers fields i := by
      rintro ⟨g, hg, hcov⟩
      exact hi ⟨g, List.mem_cons_of_mem _ hg, hcov⟩
    have hf : ¬ (f.1 ≤ i ∧ i < f.1 + f.2.length) := fun hcov => hi ⟨f, List.mem_cons_self, hcov⟩
    have hkeep := ih h.tail hrest hlen
    rw [getElem?_writeAt (by omega), if_neg hf] at hkeep
    exact hkeep

/-- What a field covers does not depend on the block it is written into. -/
theorem getElem?_writeAll_inside {size i : ℕ} {fields : List (ℕ × List α)} (h : Stacked size fields)
    (hi : Covers fields i) : ∀ {buf buf' : List α}, buf.length = size → buf'.length = size →
      (writeAll buf fields)[i]? = (writeAll buf' fields)[i]? := by
  induction fields with
  | nil =>
    obtain ⟨f, hf, -⟩ := hi
    exact absurd hf List.not_mem_nil
  | cons f fields ih =>
    intro buf buf' hbuf hbuf'
    have hin := h.inside f List.mem_cons_self
    have hlen : (writeAt buf f.1 f.2).length = size := (length_writeAt (by omega)).trans hbuf
    have hlen' : (writeAt buf' f.1 f.2).length = size := (length_writeAt (by omega)).trans hbuf'
    by_cases hrest : Covers fields i
    · exact ih h.tail hrest hlen hlen'
    · have hf : f.1 ≤ i ∧ i < f.1 + f.2.length := by
        obtain ⟨g, hg, hcov⟩ := hi
        rcases List.mem_cons.1 hg with rfl | hg
        · exact hcov
        · exact absurd ⟨g, hg, hcov⟩ hrest
      have hkeep := getElem?_writeAll_outside h.tail hrest hlen
      have hkeep' := getElem?_writeAll_outside h.tail hrest hlen'
      rw [getElem?_writeAt (by omega), if_pos hf] at hkeep hkeep'
      exact hkeep.trans hkeep'.symm

/-- **The second write counts**, if it covers what the first one did. -/
theorem writeAll_writeAll {size : ℕ} {fields fields' : List (ℕ × List α)} (h : Stacked size fields)
    (h' : Stacked size fields') (hcov : ∀ i, Covers fields i → Covers fields' i)
    (hbuf : buf.length = size) : writeAll (writeAll buf fields) fields' = writeAll buf fields' := by
  apply List.ext_getElem?
  intro i
  by_cases hi : Covers fields' i
  · exact getElem?_writeAll_inside h' hi (length_writeAll h hbuf) hbuf
  · rw [getElem?_writeAll_outside h' hi (length_writeAll h hbuf),
      getElem?_writeAll_outside h' hi hbuf, getElem?_writeAll_outside h (mt (hcov i) hi) hbuf]

/-- A field of a longer block. -/
theorem readAt_take {size : ℕ} (h : off + n ≤ size) :
    readAt (buf.take size) off n = readAt buf off n := by
  unfold readAt
  rw [List.drop_take, List.take_take, min_eq_left (by omega)]

/-- **What a copy reads.** -/
theorem memcpy_eq (n : ℕ) : ∀ src : List α,
    memcpy n src = if n ≤ src.length then some (src.take n) else none := by
  induction n with
  | zero => intro src; simp [memcpy]
  | succ n ih =>
    intro src
    cases src with
    | nil => simp [memcpy]
    | cons b bs =>
      rw [memcpy, ih]
      by_cases hn : n ≤ bs.length
      · simp [hn]
      · simp [hn]

/-! ## Numbers -/

/-- The number in bytes, least significant first. -/
def ofLE (bs : List (BitVec 8)) : ℕ := Nat.ofDigits 256 (bs.map BitVec.toNat)

/-- The lowest `n` bytes of a number. -/
def toLE : ℕ → ℕ → List (BitVec 8)
  | 0, _ => []
  | n + 1, x => BitVec.ofNat 8 x :: toLE n (x / 256)

@[simp] theorem length_toLE (n : ℕ) : ∀ x, (toLE n x).length = n := by
  induction n with
  | zero => intro x; rfl
  | succ n ih => intro x; simp [toLE, ih]

/-- **`n` bytes hold a number modulo `256 ^ n`.** -/
theorem ofLE_toLE (n : ℕ) : ∀ x, ofLE (toLE n x) = x % 256 ^ n := by
  induction n with
  | zero => intro x; simp [toLE, ofLE, Nat.mod_one]
  | succ n ih =>
    intro x
    have hhead : (BitVec.ofNat 8 x).toNat = x % 256 := BitVec.toNat_ofNat x 8
    have htail : Nat.ofDigits 256 ((toLE n (x / 256)).map BitVec.toNat) = x / 256 % 256 ^ n := ih _
    -- the low byte is the remainder, the others are the quotient
    rw [toLE, ofLE, List.map_cons, Nat.ofDigits_cons, hhead, htail, pow_succ', Nat.mod_mul]

/-- **Bytes come back from their number.** -/
theorem toLE_ofLE (bs : List (BitVec 8)) : toLE bs.length (ofLE bs) = bs := by
  induction bs with
  | nil => rfl
  | cons b bs ih =>
    have hvalue : ofLE (b :: bs) = b.toNat + 256 * ofLE bs := Nat.ofDigits_cons
    have hb : b.toNat < 256 := b.isLt
    have hhigh : ofLE (b :: bs) / 256 = ofLE bs := by omega
    have hlow : BitVec.ofNat 8 (ofLE (b :: bs)) = b := by
      apply BitVec.eq_of_toNat_eq
      rw [BitVec.toNat_ofNat, hvalue]
      omega
    rw [List.length_cons, toLE, hhigh, hlow, ih]

theorem ofLE_lt (bs : List (BitVec 8)) : ofLE bs < 256 ^ bs.length := by
  have h := congrArg ofLE (toLE_ofLE bs)
  rw [ofLE_toLE] at h
  rw [← h]
  exact Nat.mod_lt _ (pow_pos (by decide) _)

/-- A number comes back modulo the width of its bytes. -/
theorem ofNat_ofLE_toLE (n x : ℕ) :
    BitVec.ofNat (8 * n) (ofLE (toLE n x)) = BitVec.ofNat (8 * n) x := by
  have hbyte : (256 : ℕ) = 2 ^ 8 := by decide
  have hsize : (256 : ℕ) ^ n = 2 ^ (8 * n) := by rw [hbyte, pow_mul]
  apply BitVec.eq_of_toNat_eq
  rw [ofLE_toLE, BitVec.toNat_ofNat, BitVec.toNat_ofNat, hsize, Nat.mod_mod]

end Block
