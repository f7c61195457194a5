import KeyFob.Spec.LightServer
import Mathlib.Data.List.Forall2
import Mathlib.Data.List.Infix
import Mathlib.Tactic.IntervalCases

/-!
# The light server

* `request_switches`: which requests switch the LED, byte by byte.
* `light_server`: the LED, the pages and the end of the program, over all connections.
-/

namespace KeyFob.LightServer

variable {q c : Char} {b : Byte} {request : List Byte} {word sub s t : List Char} {n : ℕ}

/-! ## Quoting -/

theorem toNat_chr (b : Byte) : (chr b).toNat = b.toNat := by
  have hb : b.toNat < 256 := b.isLt
  have hvalid : b.toNat.isValidChar := Or.inl (by omega)
  rw [chr, Char.ofNat, dif_pos hvalid]
  rfl

/-- A character that is quoted as itself: printable, no backslash, no quote. -/
def Plain (c : Char) : Prop := 40 ≤ c.toNat ∧ c.toNat < 127 ∧ c ≠ '\\'

instance (c : Char) : Decidable (Plain c) := inferInstanceAs (Decidable (_ ∧ _))

theorem quote_cases (request : List Byte) : quote request = chr 34 ∨ quote request = chr 39 := by
  unfold quote
  split_ifs
  · exact Or.inl rfl
  · exact Or.inr rfl

/-- A quote is below all plain characters. -/
theorem Plain.ne_quote (h : Plain c) (request : List Byte) : c ≠ quote request := by
  rintro rfl
  have hlow := h.1
  rcases quote_cases request with hq | hq
  · rw [hq, toNat_chr] at hlow
    exact absurd hlow (by decide)
  · rw [hq, toNat_chr] at hlow
    exact absurd hlow (by decide)

theorem escape_plain (h : Plain (chr b)) : escape (quote request) b = [chr b] := by
  obtain ⟨hlow, hhigh, hslash⟩ := h
  have hquote : chr b ≠ quote request := Plain.ne_quote ⟨hlow, hhigh, hslash⟩ request
  rw [toNat_chr] at hlow hhigh
  unfold escape
  rw [if_neg (not_or.2 ⟨hquote, hslash⟩), if_pos ⟨by omega, hhigh⟩]

theorem digitChar_ne_slash (hn : n < 16) : Nat.digitChar n ≠ '/' := by
  interval_cases n <;> decide

/-- **A byte stays as it is, or a backslash begins what it becomes**, where no slash
occurs. -/
theorem escape_cases (request : List Byte) (b : Byte) : escape (quote request) b = [chr b] ∨
    ∃ cs, escape (quote request) b = '\\' :: cs ∧ '/' ∉ cs := by
  have hb : b.toNat < 256 := b.isLt
  have hslash : Plain '/' := by decide
  unfold escape
  split_ifs with h1 h2 h3 h4 h5
  · right
    refine ⟨[chr b], rfl, ?_⟩
    rw [List.mem_singleton]
    rcases h1 with h1 | h1
    · rw [h1]
      exact hslash.ne_quote request
    · rw [h1]
      decide
  · exact Or.inl rfl
  · exact Or.inr ⟨['n'], rfl, by decide⟩
  · exact Or.inr ⟨['r'], rfl, by decide⟩
  · exact Or.inr ⟨['t'], rfl, by decide⟩
  · right
    refine ⟨_, rfl, ?_⟩
    have hhigh := digitChar_ne_slash (n := b.toNat / 16) (by omega)
    have hlow := digitChar_ne_slash (n := b.toNat % 16) (by omega)
    simp only [List.mem_cons, List.not_mem_nil, or_false, not_or]
    exact ⟨by decide, hhigh.symm, hlow.symm⟩

/-! ## A path in a quoted request -/

/-- A slash is found only where one was received. -/
theorem slash_found {esc : Byte → List Char}
    (hesc : ∀ b, esc b = [chr b] ∨ ∃ cs, esc b = '\\' :: cs ∧ '/' ∉ cs) (request : List Byte) :
    ∀ n t, '/' :: t <+: (request.flatMap esc).drop n →
      ∃ before rest, request = before ++ rest ∧ (before.flatMap esc).length = n ∧
        '/' :: t <+: rest.flatMap esc := by
  induction request with
  | nil =>
    intro n t h
    rw [List.flatMap_nil, List.drop_nil] at h
    exact absurd (List.prefix_nil.1 h) (List.cons_ne_nil _ _)
  | cons b bs ih =>
    intro n t h
    by_cases hn : n = 0
    · subst hn
      exact ⟨[], b :: bs, rfl, rfl, h⟩
    · rw [List.flatMap_cons, List.drop_append] at h
      -- inside the characters of one byte no slash begins
      have hpast : (esc b).length ≤ n := by
        by_contra hin
        rw [not_le] at hin
        have hmem : (esc b)[n]? = some '/' := by
          obtain ⟨u, hu⟩ := h
          have hget := congrArg (fun l => l[0]?) hu.symm
          simp only [List.getElem?_append, List.getElem?_drop, List.length_drop, List.cons_append,
            List.getElem?_cons_zero] at hget
          rw [if_pos (by omega)] at hget
          exact hget
        rcases hesc b with hplain | ⟨cs, hcs, hnot⟩
        · rw [hplain, List.length_singleton] at hin
          omega
        · obtain ⟨m, rfl⟩ := Nat.exists_eq_succ_of_ne_zero hn
          rw [hcs, List.getElem?_cons_succ] at hmem
          exact hnot (List.mem_of_getElem? hmem)
      rw [List.drop_of_length_le hpast, List.nil_append] at h
      obtain ⟨before, rest, rfl, hlen, hrest⟩ := ih _ _ h
      refine ⟨b :: before, rest, rfl, ?_, hrest⟩
      rw [List.flatMap_cons, List.length_append, hlen]
      omega

/-- Plain characters are found only as the bytes received. -/
theorem plain_found {esc : Byte → List Char}
    (hesc : ∀ b, esc b = [chr b] ∨ ∃ cs, esc b = '\\' :: cs ∧ '/' ∉ cs) (s : List Char) :
    ∀ request : List Byte, (∀ c ∈ s, c ≠ '\\') → s <+: request.flatMap esc →
      ∃ path rest, request = path ++ rest ∧ path.map chr = s := by
  induction s with
  | nil => intro request _ _; exact ⟨[], request, rfl, rfl⟩
  | cons c s ih =>
    intro request hs h
    cases request with
    | nil => exact absurd (List.prefix_nil.1 h) (List.cons_ne_nil _ _)
    | cons b bs =>
      rw [List.flatMap_cons] at h
      rcases hesc b with hplain | ⟨cs, hcs, -⟩
      · rw [hplain, List.singleton_append, List.cons_prefix_cons] at h
        obtain ⟨path, rest, rfl, hpath⟩ := ih bs (fun x hx => hs x (List.mem_cons_of_mem c hx)) h.2
        refine ⟨b :: path, rest, rfl, ?_⟩
        rw [List.map_cons, hpath, h.1]
      · rw [hcs, List.cons_append, List.cons_prefix_cons] at h
        exact absurd h.1 (hs c List.mem_cons_self)

/-- The plain bytes of a path are quoted as they are. -/
theorem flatMap_plain (request : List Byte) : ∀ path : List Byte, (∀ b ∈ path, Plain (chr b)) →
    path.flatMap (escape (quote request)) = path.map chr := by
  intro path
  induction path with
  | nil => intro _; rfl
  | cons b bs ih =>
    intro h
    rw [List.flatMap_cons, escape_plain (h b List.mem_cons_self),
      ih fun x hx => h x (List.mem_cons_of_mem b hx)]
    rfl

/-- The closing quote is no part of a path. -/
theorem prefix_of_append (hs : ∀ c ∈ t, c ∉ sub) : sub <+: s ++ t → sub <+: s := by
  intro h
  by_cases hlen : sub.length ≤ s.length
  · exact List.prefix_of_prefix_length_le h (List.prefix_append s t) hlen
  · exfalso
    have hin : s.length < sub.length := not_le.1 hlen
    have hget := List.prefix_iff_getElem?.1 h s.length hin
    rw [List.getElem?_append_right le_rfl] at hget
    exact hs _ (List.mem_of_getElem? hget) (List.getElem_mem hin)

/-! ## Where the path is found -/

theorem find_eq_iff (hsub : sub ≠ []) : find s sub = n ↔
    sub <+: s.drop n ∧ ∀ i < n, ¬ sub <+: s.drop i := by
  have hfind : ∀ i,
      (List.range (s.length + 1)).find? (fun i => sub.isPrefixOf (s.drop i)) = some i ↔
        sub <+: s.drop i ∧ ∀ j < i, ¬ sub <+: s.drop j := by
    intro i
    rw [List.find?_range_eq_some]
    simp only [List.isPrefixOf_iff_prefix, List.mem_range, Bool.not_eq_true', Bool.eq_false_iff,
      ne_eq]
    refine and_congr_right fun hpre => and_iff_right ?_
    by_contra hpast
    rw [List.drop_of_length_le (by omega)] at hpre
    exact hsub (List.prefix_nil.1 hpre)
  unfold find
  rw [← hfind]
  cases (List.range (s.length + 1)).find? fun i => sub.isPrefixOf (s.drop i) with
  | none => simp
  | some i => simp

/-- A word of plain characters. -/
def PlainWord (word : List Char) : Prop := ∀ c ∈ word, Plain c

theorem plainWord_cons : PlainWord (c :: word) ↔ Plain c ∧ PlainWord word :=
  List.forall_mem_cons

theorem plainWord_nil : PlainWord [] := fun _ hc => absurd hc List.not_mem_nil

theorem PlainWord.light (h : PlainWord word) : PlainWord (light word) := by
  unfold LightServer.light
  simp only [List.cons_append, List.nil_append, plainWord_cons]
  exact ⟨by decide, by decide, by decide, by decide, by decide, by decide, by decide, h⟩

theorem prefix_getElem? (h : sub <+: s) (hn : n < sub.length) : s[n]? = sub[n]? := by
  rw [List.prefix_iff_getElem?.1 h n hn, List.getElem?_eq_getElem hn]

theorem light_length (word : List Char) : 7 ≤ (light word).length := by
  unfold light
  rw [List.length_append]
  exact Nat.le_add_right 7 _

/-- Between the two slashes of the path there is no other. -/
theorem light_letter (hn : 1 ≤ n) (hle : n < 6) : (light word)[n]? ≠ some '/' := by
  interval_cases n <;> simp [light]

/-- At no place before is there room for the path. -/
theorem found_iff (word : List Char) (request : List Byte) :
    find (str request) (light word) = 6 ↔ light word <+: (str request).drop 6 := by
  have hlen := light_length word
  have hne : light word ≠ [] := List.cons_ne_nil _ _
  refine (find_eq_iff (n := 6) hne).trans (and_iff_left_of_imp ?_)
  intro h i hi hearly
  have hslash : (str request)[6]? = some '/' := by
    have h0 := prefix_getElem? h (n := 0) (by omega)
    rw [List.getElem?_drop] at h0
    exact h0
  rcases Nat.eq_zero_or_pos i with rfl | hpos
  · -- the string begins with a `b`
    have hfirst : some 'b' = some '/' := prefix_getElem? hearly (n := 0) (by omega)
    exact absurd hfirst (by decide)
  · have hletter := prefix_getElem? hearly (n := 6 - i) (by omega)
    rw [List.getElem?_drop, Nat.add_sub_cancel' hi.le, hslash] at hletter
    exact light_letter (by omega) (by omega) hletter.symm

/-- **A path is found** where the server looks for it exactly if the request is some bytes
that Python writes with four characters, the path, and anything after it. -/
theorem switches_iff (hword : PlainWord word) (request : List Byte) :
    find (str request) (light word) = 6 ↔ Asks word request := by
  have hbody : (str request).drop 6 = (request.flatMap (escape (quote request))).drop 4 ++
      [quote request].drop (4 - (request.flatMap (escape (quote request))).length) := by
    rw [← List.drop_append]
    rfl
  have hlate : light word <+: (str request).drop 6 ↔
      light word <+: (request.flatMap (escape (quote request))).drop 4 := by
    rw [hbody]
    refine ⟨?_, fun h => h.trans (List.prefix_append _ _)⟩
    apply prefix_of_append
    intro c hc hmem
    obtain rfl := List.mem_singleton.1 (List.mem_of_mem_drop hc)
    exact (hword.light _ hmem).ne_quote request rfl
  rw [found_iff, hlate]
  refine ⟨?_, ?_⟩
  · intro h
    obtain ⟨before, rest, hrequest, hlen, hrest⟩ := slash_found (escape_cases request) request 4 _ h
    obtain ⟨path, rest', rfl, hpath⟩ := plain_found (escape_cases request) _ rest
      (fun c hc => (hword.light c hc).2.2) hrest
    refine ⟨before, path, rest', ?_, hpath, hlen⟩
    rw [hrequest, List.append_assoc]
  · rintro ⟨before, path, rest, hrequest, hpath, hlen⟩
    have hplain : ∀ b ∈ path, Plain (chr b) := by
      intro b hb
      apply hword.light
      rw [← hpath]
      exact List.mem_map_of_mem hb
    have hquoted : request.flatMap (escape (quote request)) =
        before.flatMap (escape (quote request)) ++
          (light word ++ rest.flatMap (escape (quote request))) := by
      have hsplit := congrArg (fun l => l.flatMap (escape (quote request))) hrequest
      simp only [List.flatMap_append, flatMap_plain request path hplain, hpath,
        List.append_assoc] at hsplit
      exact hsplit
    rw [hquoted, ← hlen, List.drop_left]
    exact List.prefix_append _ _

theorem plain_on : PlainWord on := by
  simp only [on, plainWord_cons]
  exact ⟨by decide, by decide, plainWord_nil⟩

theorem plain_off : PlainWord off := by
  simp only [off, plainWord_cons]
  exact ⟨by decide, by decide, by decide, plainWord_nil⟩

/-- No request asks for both. -/
theorem not_both : Asks on request → ¬ Asks off request := by
  rw [← switches_iff plain_on, ← switches_iff plain_off, found_iff, found_iff]
  intro hon hoff
  have hn := prefix_getElem? hon (n := 8) (by decide)
  have hf := prefix_getElem? hoff (n := 8) (by decide)
  exact absurd (hn.symm.trans hf) (by decide)

/-- **Which requests switch the LED**, of all that can be received: those with the path
`/light/on` or `/light/off` after bytes that Python writes with four characters. None has
both. -/
theorem request_switches (request : List Byte) :
    (find (str request) (light on) = 6 ↔ Asks on request) ∧
    (find (str request) (light off) = 6 ↔ Asks off request) ∧
    ¬ (Asks on request ∧ Asks off request) :=
  ⟨switches_iff plain_on request, switches_iff plain_off request, fun h => not_both h.1 h.2⟩

/-- The path after one byte that is written as `\x01`. -/
example : find (str [1, 47, 108, 105, 103, 104, 116, 47, 111, 110]) (light on) = 6 := by
  decide +kernel

/-! ## One pass -/

variable {s : Server} {p : Pass} {ps : List Pass}

@[simp] theorem handler_led (s : Server) (p : Pass) : (s.handler p).led = s.led := by
  unfold Server.handler
  split_ifs <;> rfl

@[simp] theorem handler_cl (s : Server) (p : Pass) : (s.handler p).cl = s.cl := by
  unfold Server.handler
  split_ifs <;> rfl

@[simp] theorem handler_pages (s : Server) (p : Pass) : (s.handler p).pages = s.pages := by
  unfold Server.handler
  split_ifs <;> rfl

theorem handler_running (h : s.running = true) :
    (s.handler p).running = true ↔ s.cl = true ∧ p.closeAgain = true := by
  unfold Server.handler
  split_ifs with hc
  · exact iff_of_true h hc
  · exact iff_of_false (by decide) hc

/-- The two `if`s of the loop: the LED, and what the page will say. -/
theorem switch_spec (s : Server) (request : List Byte) :
    ((s.switch request).1.led = .HIGH ↔ Asks on request ∨ (s.led = .HIGH ∧ ¬ Asks off request)) ∧
    ((s.switch request).2 = .ON ↔ Asks on request) := by
  have hboth : Asks on request → ¬ Asks off request := not_both
  rw [← switches_iff plain_on, ← switches_iff plain_off] at *
  unfold Server.switch
  by_cases hon : find (str request) (light on) = 6
  · simp [hon, hboth hon]
  · by_cases hoff : find (str request) (light off) = 6
    · simp [hon, hoff]
    · simp [hon, hoff]

/-- Nothing else changes, and a client does not matter. -/
theorem switch_client (s : Server) (request : List Byte) :
    Server.switch { s with cl := true } request =
      ({ s with cl := true, led := (s.switch request).1.led }, (s.switch request).2) := by
  unfold Server.switch
  simp only
  split_ifs <;> rfl

theorem pass_stopped (h : s.running = false) (p : Pass) : s.pass p = s := by
  unfold Server.pass
  rw [if_neg (by rw [h]; decide)]

/-- **One pass** of a program that runs. -/
theorem pass_spec (h : s.running = true) (p : Pass) :
    (s.pass p).led = ((s.received p).elim s.led fun request => (s.switch request).1.led) ∧
    (s.pass p).cl = (s.cl || p.accept) ∧
    (s.pass p).pages = s.pages ++ ((s.answered p).map fun request => (s.switch request).2).toList ∧
    ((s.pass p).running = true ↔
      (p.Raises → p.closeAgain = true ∧ (s.cl = true ∨ p.accept = true))) := by
  obtain ⟨accept, recv, send, sendPage, close, closeAgain⟩ := p
  unfold Server.pass Server.answered Server.received Pass.Raises
  rw [if_pos h]
  cases accept with
  | false => simp [h, handler_running, and_comm]
  | true =>
    cases recv with
    | none => simp [h, handler_running]
    | some request =>
      -- the rest of the pass, by the first call that raises
      simp only [switch_client]
      cases send with
      | false => simp [h, handler_running]
      | true =>
        cases sendPage with
        | false => simp [h, handler_running]
        | true =>
          cases close with
          | false => simp [h, handler_running]
          | true => simp [h]

/-! ## All connections -/

/-- One more request. -/
theorem lit_concat {requests : List (List Byte)} :
    Lit (requests ++ [request]) ↔ Asks on request ∨ (Lit requests ∧ ¬ Asks off request) := by
  refine ⟨?_, ?_⟩
  · rintro ⟨earlier, r, later, hsplit, hon, hlater⟩
    rcases List.eq_nil_or_concat later with rfl | ⟨later, x, rfl⟩
    · obtain ⟨-, hr⟩ := List.append_inj' hsplit rfl
      rw [List.singleton_inj.1 hr]
      exact Or.inl hon
    · rw [List.concat_eq_append, ← List.cons_append, ← List.append_assoc] at hsplit
      obtain ⟨hrequests, hx⟩ := List.append_inj' hsplit rfl
      rw [List.singleton_inj.1 hx]
      right
      refine ⟨⟨earlier, r, later, hrequests, hon, ?_⟩, hlater x (by simp)⟩
      intro y hy
      exact hlater y (by simp [hy])
  · rintro (hon | ⟨⟨earlier, r, later, rfl, hon, hlater⟩, hoff⟩)
    · exact ⟨requests, request, [], rfl, hon, fun r hr => absurd hr List.not_mem_nil⟩
    · refine ⟨earlier, r, later ++ [request], by simp, hon, ?_⟩
      intro y hy
      rcases List.mem_append.1 hy with hy | hy
      · exact hlater y hy
      · rw [List.mem_singleton.1 hy]
        exact hoff

/-- **What a run leads to.** -/
structure Server.After (s : Server) (ps : List Pass) : Prop where
  led : s.led = .HIGH ↔ Lit (requests ps)
  pages : List.Forall₂ (fun stateis request => stateis = .ON ↔ Asks on request) s.pages (answers ps)
  client : s.running = true → (s.cl = true ↔ ∃ q ∈ ps, q.accept = true)
  running : s.running = true ↔ ∀ earlier p, earlier ++ [p] <+: ps → p.Raises →
    p.closeAgain = true ∧ ∃ q ∈ earlier ++ [p], q.accept = true

theorem init_after : machine.init.After [] where
  led := by
    refine iff_of_false (by decide) ?_
    rintro ⟨earlier, r, later, hnil, -, -⟩
    exact absurd hnil (List.append_ne_nil_of_right_ne_nil _ (List.cons_ne_nil _ _)).symm
  pages := .nil
  client := fun _ => iff_of_false (by decide) (by simp)
  running := by
    refine iff_of_true rfl ?_
    intro earlier p hpre
    exact absurd (List.prefix_nil.1 hpre) (by simp)

theorem requests_concat (ps : List Pass) (p : Pass) :
    requests (ps ++ [p]) = requests ps ++ ((machine.run ps).received p).toList :=
  Machine.labels_concat _ _ _ _

theorem answers_concat (ps : List Pass) (p : Pass) :
    answers (ps ++ [p]) = answers ps ++ ((machine.run ps).answered p).toList :=
  Machine.labels_concat _ _ _ _

/-- One more pass. -/
theorem step_after (h : (machine.run ps).After ps) (p : Pass) :
    ((machine.run ps).pass p).After (ps ++ [p]) := by
  obtain ⟨hled, hpages, hclient, hrunning⟩ := h
  cases hr : (machine.run ps).running with
  | false =>
    have hnone : (machine.run ps).received p = none := by
      unfold Server.received
      rw [hr, if_neg (by simp)]
    have hunanswered : (machine.run ps).answered p = none := by
      unfold Server.answered
      rw [hnone, ite_self]
    rw [pass_stopped hr]
    refine ⟨?_, ?_, fun hrun => absurd (hr.symm.trans hrun) (by decide), ?_⟩
    · rw [requests_concat, hnone, hled, Option.toList_none, List.append_nil]
    · rw [answers_concat, hunanswered, Option.toList_none, List.append_nil]
      exact hpages
    · rw [Machine.forall_event_concat, ← hrunning, hr]
      exact iff_of_false (by decide) fun h => absurd h.2 (by decide)
  | true =>
    obtain ⟨hled', hcl', hpages', hrunning'⟩ := pass_spec hr p
    have hclient' : ((machine.run ps).cl = true ∨ p.accept = true) ↔
        ∃ q ∈ ps ++ [p], q.accept = true := by
      rw [hclient hr]
      simp only [List.mem_append, List.mem_singleton, or_and_right, exists_or, exists_eq_left]
    refine ⟨?_, ?_, ?_, ?_⟩
    · rw [hled', requests_concat]
      cases (machine.run ps).received p with
      | none => rw [Option.toList_none, List.append_nil]; exact hled
      | some request =>
        rw [Option.toList_some, lit_concat, ← hled]
        exact (switch_spec (machine.run ps) request).1
    · rw [hpages', answers_concat]
      apply List.rel_append hpages
      cases (machine.run ps).answered p with
      | none => exact .nil
      | some request => exact .cons (switch_spec (machine.run ps) request).2 .nil
    · intro _
      rw [hcl', Bool.or_eq_true, hclient']
    · rw [Machine.forall_event_concat, ← hrunning, hrunning', hclient']
      exact (and_iff_left hr).symm

theorem after_run (ps : List Pass) : (machine.run ps).After ps := by
  induction ps using List.reverseRecOn with
  | nil => exact init_after
  | append_singleton ps p ih =>
    rw [Machine.run_concat]
    exact step_after ih p

/-- **The server over all connections.** Whatever is received and whichever calls on the
sockets raise an error: the LED is lit exactly if a request asked for on and none after it for
off; a page says that it is exactly if its own request asked for that; and the program runs
until an error finds no client to close, or the client cannot be closed again. -/
theorem light_server (ps : List Pass) :
    let s := machine.run ps
    (s.led = .HIGH ↔ Lit (requests ps)) ∧
    List.Forall₂ (fun stateis request => stateis = .ON ↔ Asks on request) s.pages (answers ps) ∧
    (s.running = true ↔ ∀ earlier p, earlier ++ [p] <+: ps → p.Raises →
      p.closeAgain = true ∧ ∃ q ∈ earlier ++ [p], q.accept = true) := by
  intro s
  have h : s.After ps := after_run ps
  exact ⟨h.led, h.pages, h.running⟩

end KeyFob.LightServer
