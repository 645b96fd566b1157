/-
# Scanning -- incremental decoding of a stream that arrives in pieces

A `Scanner` looks at the front of a buffer and reports an item with the number of
elements it takes, asks for more input, or rejects the input.  Its laws say that an item
takes at least one element and no more than there are, that an item once recognised does
not change when more input follows, and that rejected input never becomes an item.

`drain` decodes items from the front of one buffer and hands each to a handler, until the
scanner asks for more, rejects, or the handler refuses.  `feed` gets the same input in
pieces and carries the undecoded rest from one piece to the next.  `feed_items_eq_drain`
says that the handler sees the same items either way.
-/
import Mathlib.Data.List.Basic

namespace Scanning

universe u v w

/-- What a scanner reports about the front of a buffer. -/
inductive Scan (α : Type v) where
  | item (a : α) (n : Nat)
  | more
  | bad
  deriving Repr, DecidableEq

/-- An incremental scanner with its laws. -/
structure Scanner (β : Type u) (α : Type v) where
  scan : List β → Scan α
  pos : ∀ {b a n}, scan b = .item a n → 0 < n
  le : ∀ {b a n}, scan b = .item a n → n ≤ b.length
  stable : ∀ {b a n} (r : List β), scan b = .item a n → scan (b ++ r) = .item a n
  bad_final : ∀ {b} (r : List β) (a n), scan b = .bad → scan (b ++ r) ≠ .item a n

/-- Why a drain stopped: the scanner wants more input, the scanner rejected the input, or
the handler refused an item. -/
inductive Stop where
  | starved
  | malformed
  | refused
  deriving Repr, DecidableEq

/-- The result of decoding: the items handed over, the undecoded rest, the reason to stop
and the handler's state. -/
structure Drained (β : Type u) (α : Type v) (σ : Type w) where
  items : List α
  rest : List β
  stop : Stop
  st : σ

variable {β : Type u} {α : Type v} {σ : Type w}

/-- Put items in front of those of a later result. -/
def Drained.prepend (as : List α) (d : Drained β α σ) : Drained β α σ :=
  { d with items := as ++ d.items }

@[simp] theorem Drained.prepend_items (as : List α) (d : Drained β α σ) :
    (d.prepend as).items = as ++ d.items := rfl

@[simp] theorem Drained.prepend_rest (as : List α) (d : Drained β α σ) :
    (d.prepend as).rest = d.rest := rfl

@[simp] theorem Drained.prepend_stop (as : List α) (d : Drained β α σ) :
    (d.prepend as).stop = d.stop := rfl

@[simp] theorem Drained.prepend_st (as : List α) (d : Drained β α σ) :
    (d.prepend as).st = d.st := rfl

/-- The state the handler leaves after it was called on each of the items. -/
def handled (h : σ → α → σ × Bool) (s : σ) (as : List α) : σ := as.foldl (fun s a => (h s a).1) s

/-- The handler takes each of the items. -/
def Accepts (h : σ → α → σ × Bool) : σ → List α → Prop
  | _, [] => True
  | s, a :: as => (h s a).2 = true ∧ Accepts h (h s a).1 as

/-! ## Draining one buffer -/

/-- Decode items from the front of `b` until the scanner or the handler stops. -/
def drain (S : Scanner β α) (h : σ → α → σ × Bool) (b : List β) (s : σ) : Drained β α σ :=
  match _hb : S.scan b with
  | .more => ⟨[], b, .starved, s⟩
  | .bad => ⟨[], b, .malformed, s⟩
  | .item a n =>
      if (h s a).2 then (drain S h (b.drop n) (h s a).1).prepend [a]
      else ⟨[a], b.drop n, .refused, (h s a).1⟩
termination_by b.length
decreasing_by
  have hpos := S.pos _hb
  have hle := S.le _hb
  rw [List.length_drop]
  omega

section Drain

variable (S : Scanner β α) (h : σ → α → σ × Bool)

theorem drain_more {b : List β} {s : σ} (hb : S.scan b = .more) :
    drain S h b s = ⟨[], b, .starved, s⟩ := by
  rw [drain]
  split <;> simp_all

theorem drain_bad {b : List β} {s : σ} (hb : S.scan b = .bad) :
    drain S h b s = ⟨[], b, .malformed, s⟩ := by
  rw [drain]
  split <;> simp_all

/-- One round on an accepted item, -/
theorem drain_accept {b : List β} {s : σ} {a : α} {n : Nat} (hb : S.scan b = .item a n)
    (ha : (h s a).2 = true) :
    drain S h b s = (drain S h (b.drop n) (h s a).1).prepend [a] := by
  rw [drain]
  split <;> simp_all

/-- and on a refused one, which is consumed. -/
theorem drain_refuse {b : List β} {s : σ} {a : α} {n : Nat} (hb : S.scan b = .item a n)
    (ha : (h s a).2 = false) :
    drain S h b s = ⟨[a], b.drop n, .refused, (h s a).1⟩ := by
  rw [drain]
  split <;> simp_all

/-- The rest of a drain is a suffix of the buffer. -/
theorem drain_rest_suffix (b : List β) (s : σ) : (drain S h b s).rest <:+ b := by
  induction b, s using drain.induct S h with
  | case1 b s hb => simpa only [drain_more S h hb] using List.suffix_refl b
  | case2 b s hb => simpa only [drain_bad S h hb] using List.suffix_refl b
  | case3 b s a n hb ha ih =>
      rw [drain_accept S h hb ha]
      exact ih.trans (List.drop_suffix n b)
  | case4 b s a n hb ha =>
      rw [drain_refuse S h hb (by simpa using ha)]
      exact List.drop_suffix n b

/-- The state of a drain is that which the handler leaves after the items of the drain. -/
theorem drain_st (b : List β) (s : σ) :
    (drain S h b s).st = handled h s (drain S h b s).items := by
  induction b, s using drain.induct S h with
  | case1 b s hb => rw [drain_more S h hb]; rfl
  | case2 b s hb => rw [drain_bad S h hb]; rfl
  | case3 b s a n hb ha ih => rw [drain_accept S h hb ha]; exact ih
  | case4 b s a n hb ha => rw [drain_refuse S h hb (by simpa using ha)]; rfl

/-- A starved drain handed over what the handler took. -/
theorem drain_starved_accepts {b : List β} {s : σ} (hs : (drain S h b s).stop = .starved) :
    Accepts h s (drain S h b s).items := by
  induction b, s using drain.induct S h with
  | case1 b s hb => rw [drain_more S h hb]; trivial
  | case2 b s hb => rw [drain_bad S h hb] at hs; simp at hs
  | case3 b s a n hb ha ih =>
      rw [drain_accept S h hb ha] at hs ⊢
      exact ⟨ha, ih hs⟩
  | case4 b s a n hb ha =>
      rw [drain_refuse S h hb (by simpa using ha)] at hs
      simp at hs

/-- A drain that was refused handed over one item that the handler did not take, the last. -/
theorem drain_refused_last {b : List β} {s : σ} (hs : (drain S h b s).stop = .refused) :
    ∃ as a, (drain S h b s).items = as ++ [a] ∧ Accepts h s as ∧
      (h (handled h s as) a).2 = false := by
  induction b, s using drain.induct S h with
  | case1 b s hb => rw [drain_more S h hb] at hs; simp at hs
  | case2 b s hb => rw [drain_bad S h hb] at hs; simp at hs
  | case3 b s a n hb ha ih =>
      rw [drain_accept S h hb ha] at hs ⊢
      obtain ⟨as, a', hitems, haccepts, hrefuses⟩ := ih hs
      exact ⟨a :: as, a', congrArg (a :: ·) hitems, ⟨ha, haccepts⟩, hrefuses⟩
  | case4 b s a n hb ha =>
      have hrefuses : (h s a).2 = false := by simpa using ha
      rw [drain_refuse S h hb hrefuses]
      exact ⟨[], a, rfl, trivial, hrefuses⟩

/-- The undecoded rest of a starved drain begins with no item. -/
theorem drain_starved_rest {b : List β} {s : σ} (hs : (drain S h b s).stop = .starved) :
    S.scan (drain S h b s).rest = .more := by
  induction b, s using drain.induct S h with
  | case1 b s hb => rw [drain_more S h hb]; exact hb
  | case2 b s hb => rw [drain_bad S h hb] at hs; simp at hs
  | case3 b s a n hb ha ih =>
      rw [drain_accept S h hb ha] at hs ⊢
      exact ih hs
  | case4 b s a n hb ha =>
      rw [drain_refuse S h hb (by simpa using ha)] at hs
      simp at hs

/-- The undecoded rest of a drain that was rejected is rejected. -/
theorem drain_malformed_rest {b : List β} {s : σ} (hs : (drain S h b s).stop = .malformed) :
    S.scan (drain S h b s).rest = .bad := by
  induction b, s using drain.induct S h with
  | case1 b s hb => rw [drain_more S h hb] at hs; simp at hs
  | case2 b s hb => rw [drain_bad S h hb]; exact hb
  | case3 b s a n hb ha ih =>
      rw [drain_accept S h hb ha] at hs ⊢
      exact ih hs
  | case4 b s a n hb ha =>
      rw [drain_refuse S h hb (by simpa using ha)] at hs
      simp at hs

/-- A drain that starved is continued by whatever follows. -/
theorem drain_append_starved {b : List β} {s : σ} (c : List β)
    (hs : (drain S h b s).stop = .starved) :
    drain S h (b ++ c) s =
      (drain S h ((drain S h b s).rest ++ c) (drain S h b s).st).prepend
        (drain S h b s).items := by
  induction b, s using drain.induct S h with
  | case1 b s hb => rw [drain_more S h hb]; rfl
  | case2 b s hb => rw [drain_bad S h hb] at hs; simp at hs
  | case3 b s a n hb ha ih =>
      rw [drain_accept S h hb ha] at hs ⊢
      rw [drain_accept S h (S.stable c hb) ha, List.drop_append_of_le_length (S.le hb), ih hs]
      rfl
  | case4 b s a n hb ha =>
      rw [drain_refuse S h hb (by simpa using ha)] at hs
      simp at hs

/-- A drain that did not starve hands over the same items whatever follows. -/
theorem drain_append_stopped {b : List β} {s : σ} (c : List β)
    (hs : (drain S h b s).stop ≠ .starved) :
    (drain S h (b ++ c) s).items = (drain S h b s).items ∧
      (drain S h (b ++ c) s).st = (drain S h b s).st := by
  induction b, s using drain.induct S h with
  | case1 b s hb => rw [drain_more S h hb] at hs; simp at hs
  | case2 b s hb =>
      rw [drain_bad S h hb]
      -- rejected input never becomes an item, so the longer buffer yields nothing either
      cases hc : S.scan (b ++ c) with
      | item a n => exact absurd hc (S.bad_final c a n hb)
      | more => rw [drain_more S h hc]; simp
      | bad => rw [drain_bad S h hc]; simp
  | case3 b s a n hb ha ih =>
      rw [drain_accept S h hb ha] at hs ⊢
      rw [drain_accept S h (S.stable c hb) ha, List.drop_append_of_le_length (S.le hb)]
      simpa using ih hs
  | case4 b s a n hb ha =>
      have ha' : (h s a).2 = false := by simpa using ha
      rw [drain_refuse S h hb ha', drain_refuse S h (S.stable c hb) ha']
      simp

/-- Where rejected input stays rejected, a drain that did not starve stops for the same
reason whatever follows. -/
theorem drain_append_stop {b : List β} {s : σ} (c : List β)
    (hbad : ∀ b' r, S.scan b' = .bad → S.scan (b' ++ r) = .bad)
    (hs : (drain S h b s).stop ≠ .starved) :
    (drain S h (b ++ c) s).stop = (drain S h b s).stop := by
  induction b, s using drain.induct S h with
  | case1 b s hb => rw [drain_more S h hb] at hs; simp at hs
  | case2 b s hb => rw [drain_bad S h hb, drain_bad S h (hbad b c hb)]
  | case3 b s a n hb ha ih =>
      rw [drain_accept S h hb ha] at hs ⊢
      rw [drain_accept S h (S.stable c hb) ha, List.drop_append_of_le_length (S.le hb)]
      exact ih hs
  | case4 b s a n hb ha =>
      have ha' : (h s a).2 = false := by simpa using ha
      rw [drain_refuse S h hb ha', drain_refuse S h (S.stable c hb) ha']

/-- A refused item is refused whatever follows. -/
theorem drain_append_refused {b : List β} {s : σ} (c : List β)
    (hs : (drain S h b s).stop = .refused) : (drain S h (b ++ c) s).stop = .refused := by
  induction b, s using drain.induct S h with
  | case1 b s hb => rw [drain_more S h hb] at hs; simp at hs
  | case2 b s hb => rw [drain_bad S h hb] at hs; simp at hs
  | case3 b s a n hb ha ih =>
      rw [drain_accept S h hb ha] at hs
      rw [drain_accept S h (S.stable c hb) ha, List.drop_append_of_le_length (S.le hb)]
      exact ih hs
  | case4 b s a n hb ha =>
      rw [drain_refuse S h (S.stable c hb) (by simpa using ha)]

end Drain

/-! ## Feeding the input in pieces -/

/-- Decode a stream that arrives in pieces, carrying the undecoded rest along, and stop at
the first piece that is rejected or refused. -/
def feed (S : Scanner β α) (h : σ → α → σ × Bool) :
    List (List β) → List β → σ → Drained β α σ
  | [], rest, s => ⟨[], rest, .starved, s⟩
  | c :: cs, rest, s =>
      let d := drain S h (rest ++ c) s
      match d.stop with
      | .starved => (feed S h cs d.rest d.st).prepend d.items
      | _ => d

section Feed

variable (S : Scanner β α) (h : σ → α → σ × Bool)

/-- A chunk that leaves the drain waiting is followed by the next, -/
theorem feed_cons_starved {c : List β} {cs : List (List β)} {rest : List β} {s : σ}
    (hs : (drain S h (rest ++ c) s).stop = .starved) :
    feed S h (c :: cs) rest s =
      (feed S h cs (drain S h (rest ++ c) s).rest (drain S h (rest ++ c) s).st).prepend
        (drain S h (rest ++ c) s).items := by
  simp only [feed, hs]

/-- and one at which it stops is the last. -/
theorem feed_cons_stopped {c : List β} {cs : List (List β)} {rest : List β} {s : σ}
    (hs : (drain S h (rest ++ c) s).stop ≠ .starved) :
    feed S h (c :: cs) rest s = drain S h (rest ++ c) s := by
  rw [feed]
  cases hd : (drain S h (rest ++ c) s).stop <;> simp_all

/-- As long as no piece is rejected or refused, feeding is draining the whole stream. -/
theorem feed_eq_drain {cs : List (List β)} {rest : List β} {s : σ}
    (hrest : S.scan rest = .more) (hs : (feed S h cs rest s).stop = .starved) :
    feed S h cs rest s = drain S h (rest ++ cs.flatten) s := by
  induction cs generalizing rest s with
  | nil =>
      rw [List.flatten_nil, List.append_nil, drain_more S h hrest]
      rfl
  | cons c cs ih =>
      by_cases hd : (drain S h (rest ++ c) s).stop = .starved
      · rw [feed_cons_starved S h hd] at hs ⊢
        rw [ih (drain_starved_rest S h hd) hs, List.flatten_cons, ← List.append_assoc,
          drain_append_starved S h cs.flatten hd]
      · rw [feed_cons_stopped S h hd] at hs
        exact absurd hs hd

/-- The handler sees the same items whether the stream comes in pieces or at once. -/
theorem feed_items_eq_drain (cs : List (List β)) {rest : List β} (s : σ)
    (hrest : S.scan rest = .more) :
    (feed S h cs rest s).items = (drain S h (rest ++ cs.flatten) s).items ∧
      (feed S h cs rest s).st = (drain S h (rest ++ cs.flatten) s).st := by
  induction cs generalizing rest s with
  | nil =>
      rw [List.flatten_nil, List.append_nil, drain_more S h hrest]
      exact ⟨rfl, rfl⟩
  | cons c cs ih =>
      rw [List.flatten_cons, ← List.append_assoc]
      by_cases hd : (drain S h (rest ++ c) s).stop = .starved
      · rw [feed_cons_starved S h hd, drain_append_starved S h cs.flatten hd]
        obtain ⟨hitems, hst⟩ := ih (drain S h (rest ++ c) s).st (drain_starved_rest S h hd)
        exact ⟨by simp [hitems], by simp [hst]⟩
      · rw [feed_cons_stopped S h hd]
        obtain ⟨hitems, hst⟩ := drain_append_stopped S h cs.flatten hd
        exact ⟨hitems.symm, hst.symm⟩

/-- Where rejected input stays rejected, feeding stops for the same reason as draining the
whole stream. -/
theorem feed_stop_of_bad_stable (cs : List (List β)) {rest : List β} (s : σ)
    (hbad : ∀ b r, S.scan b = .bad → S.scan (b ++ r) = .bad)
    (hrest : S.scan rest = .more) :
    (feed S h cs rest s).stop = (drain S h (rest ++ cs.flatten) s).stop := by
  induction cs generalizing rest s with
  | nil =>
      rw [List.flatten_nil, List.append_nil, drain_more S h hrest]
      rfl
  | cons c cs ih =>
      rw [List.flatten_cons, ← List.append_assoc]
      by_cases hd : (drain S h (rest ++ c) s).stop = .starved
      · rw [feed_cons_starved S h hd, drain_append_starved S h cs.flatten hd]
        exact ih (drain S h (rest ++ c) s).st (drain_starved_rest S h hd)
      · rw [feed_cons_stopped S h hd]
        exact (drain_append_stop S h cs.flatten hbad hd).symm

/-- Where no beginning of the stream is rejected, feeding stops for the same reason as
draining the whole stream. -/
theorem feed_stop_eq_drain {cs : List (List β)} {rest : List β} {s : σ}
    (hrest : S.scan rest = .more)
    (hwell : ∀ pre, pre <+: cs → (drain S h (rest ++ pre.flatten) s).stop ≠ .malformed) :
    (feed S h cs rest s).stop = (drain S h (rest ++ cs.flatten) s).stop := by
  induction cs generalizing rest s with
  | nil =>
      rw [List.flatten_nil, List.append_nil, drain_more S h hrest]
      rfl
  | cons c cs ih =>
      have hfirst := hwell [c] ⟨cs, rfl⟩
      rw [List.flatten_singleton] at hfirst
      rw [List.flatten_cons, ← List.append_assoc]
      cases hd : (drain S h (rest ++ c) s).stop with
      | malformed => exact absurd hd hfirst
      | refused =>
          rw [feed_cons_stopped S h (by rw [hd]; decide), hd,
            drain_append_refused S h cs.flatten hd]
      | starved =>
          rw [feed_cons_starved S h hd, drain_append_starved S h cs.flatten hd]
          refine ih (drain_starved_rest S h hd) ?_
          intro pre hpre
          have hlong := hwell (c :: pre) (List.cons_prefix_cons.mpr ⟨rfl, hpre⟩)
          rw [List.flatten_cons, ← List.append_assoc,
            drain_append_starved S h pre.flatten hd] at hlong
          exact hlong

end Feed

end Scanning
