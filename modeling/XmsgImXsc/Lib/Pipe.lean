/-
# Pipe -- a byte stream that carries items in order

A `Pipe` is one direction of a reliable stream: items are encoded and put in flight, what is
in flight arrives in pieces of any length, and a scanner takes items off the front of what
has arrived.  `sent` and `taken` are notes: the items sent so far and how many of them the
receiver has taken.

The invariant is one equation: what has arrived and what is in flight are the encodings of
the items not taken yet.  With it the receiver takes the items in the order they were sent,
none twice and none invented (`Inv.take`), finds no input malformed (`Inv.not_bad`), and is
not stuck before it has taken all that was sent (`Inv.all_taken`).
-/
import XmsgImXsc.Lib.Scanning

namespace Scanning

universe u v w

/-- One direction of a stream of elements `β` that carries items `γ`. -/
structure Pipe (β : Type u) (γ : Type w) where
  sent : List γ := []
  flight : List β := []
  buf : List β := []
  taken : Nat := 0
  deriving Repr, DecidableEq

variable {β : Type u} {α : Type v} {γ : Type w}

namespace Pipe

variable (enc : γ → List β)

/-- The items are encoded and put in flight. -/
def send (p : Pipe β γ) (xs : List γ) : Pipe β γ :=
  { p with sent := p.sent ++ xs, flight := p.flight ++ xs.flatMap enc }

/-- Up to `n` elements arrive. -/
def arrive (p : Pipe β γ) (n : Nat) : Pipe β γ :=
  { p with buf := p.buf ++ p.flight.take n, flight := p.flight.drop n }

/-- The receiver takes `n` elements off the front. -/
def take (p : Pipe β γ) (n : Nat) : Pipe β γ :=
  { p with buf := p.buf.drop n, taken := p.taken + 1 }

@[simp] theorem send_taken (p : Pipe β γ) (xs : List γ) :
    (p.send enc xs).taken = p.taken := rfl

@[simp] theorem send_sent (p : Pipe β γ) (xs : List γ) :
    (p.send enc xs).sent = p.sent ++ xs := rfl

@[simp] theorem arrive_sent (p : Pipe β γ) (n : Nat) : (p.arrive n).sent = p.sent := rfl

@[simp] theorem arrive_taken (p : Pipe β γ) (n : Nat) : (p.arrive n).taken = p.taken := rfl

@[simp] theorem take_sent (p : Pipe β γ) (n : Nat) : (p.take n).sent = p.sent := rfl

@[simp] theorem take_taken (p : Pipe β γ) (n : Nat) : (p.take n).taken = p.taken + 1 := rfl

/-- The items the receiver has taken. -/
def done (p : Pipe β γ) : List γ := p.sent.take p.taken

/-- The items the receiver has not taken yet. -/
def todo (p : Pipe β γ) : List γ := p.sent.drop p.taken

theorem done_append_todo (p : Pipe β γ) : p.done ++ p.todo = p.sent :=
  List.take_append_drop p.taken p.sent

/-- The encoding of an item is scanned as an item that carries it, whatever follows. -/
structure Carries (S : Scanner β α) (enc : γ → List β) (R : γ → α → Prop) : Prop where
  scans : ∀ x r, ∃ a, R x a ∧ S.scan (enc x ++ r) = .item a (enc x).length
  empty : S.scan [] = .more

/-- What has arrived and what is in flight encode the items not taken yet. -/
structure Inv (enc : γ → List β) (p : Pipe β γ) : Prop where
  le : p.taken ≤ p.sent.length
  bytes : p.buf ++ p.flight = p.todo.flatMap enc

theorem Inv.empty : ({} : Pipe β γ).Inv enc := ⟨Nat.le_refl 0, rfl⟩

variable {enc} {p : Pipe β γ}

/-- The bytes of what is sent go behind those in flight. -/
theorem Inv.send (h : p.Inv enc) (xs : List γ) : (p.send enc xs).Inv enc where
  le := by
    rw [send_sent, List.length_append]
    exact Nat.le_add_right_of_le h.le
  bytes := by
    have htodo : (p.send enc xs).todo = p.todo ++ xs := List.drop_append_of_le_length h.le
    rw [htodo, List.flatMap_append, ← h.bytes, List.append_assoc]
    rfl

/-- Bytes arrive in their order. -/
theorem Inv.arrive (h : p.Inv enc) (n : Nat) : (p.arrive n).Inv enc where
  le := h.le
  bytes := by
    show (p.buf ++ p.flight.take n) ++ p.flight.drop n = p.todo.flatMap enc
    rw [List.append_assoc, List.take_append_drop]
    exact h.bytes

section Take

variable {S : Scanner β α} {R : γ → α → Prop} (hc : Carries S enc R)

include hc

/-- What the scanner reports of the front of what has arrived is the next item sent. -/
theorem Inv.next (h : p.Inv enc) {a : α} {n : Nat} (hscan : S.scan p.buf = .item a n) :
    ∃ x, p.sent[p.taken]? = some x ∧ R x a ∧ n = (enc x).length ∧
      p.todo = x :: p.sent.drop (p.taken + 1) := by
  have hwhole := S.stable p.flight hscan
  rw [h.bytes] at hwhole
  cases hnext : p.sent[p.taken]? with
  | none =>
      -- nothing is left to take, so nothing has arrived
      have hlen := List.getElem?_eq_none_iff.mp hnext
      have htodo : p.todo = [] := List.drop_eq_nil_iff.mpr hlen
      rw [htodo, List.flatMap_nil, hc.empty] at hwhole
      cases hwhole
  | some x =>
      obtain ⟨hlt, hget⟩ := List.getElem?_eq_some_iff.mp hnext
      have htodo : p.todo = x :: p.sent.drop (p.taken + 1) := by
        rw [todo, List.drop_eq_getElem_cons hlt, hget]
      obtain ⟨a', hR, hitem⟩ := hc.scans x ((p.sent.drop (p.taken + 1)).flatMap enc)
      rw [htodo, List.flatMap_cons, hitem] at hwhole
      cases hwhole
      exact ⟨x, rfl, hR, rfl, htodo⟩

/-- The receiver cuts out the next element that was sent. -/
theorem Inv.take (h : p.Inv enc) {a : α} {n : Nat} (hscan : S.scan p.buf = .item a n) :
    (p.take n).Inv enc := by
  obtain ⟨x, hnext, -, rfl, htodo⟩ := h.next hc hscan
  obtain ⟨hlt, -⟩ := List.getElem?_eq_some_iff.mp hnext
  refine ⟨hlt, ?_⟩
  have hbytes := h.bytes
  rw [htodo, List.flatMap_cons] at hbytes
  have hle := S.le hscan
  calc (p.buf.drop (enc x).length) ++ p.flight
      = (p.buf ++ p.flight).drop (enc x).length := (List.drop_append_of_le_length hle).symm
    _ = (p.sent.drop (p.taken + 1)).flatMap enc := by rw [hbytes, List.drop_left]

/-- No input is rejected. -/
theorem Inv.not_bad (h : p.Inv enc) : S.scan p.buf ≠ .bad := by
  intro hbad
  cases htodo : p.todo with
  | nil =>
      have hbytes := h.bytes
      rw [htodo, List.flatMap_nil, List.append_eq_nil_iff] at hbytes
      rw [hbytes.1, hc.empty] at hbad
      cases hbad
  | cons x rest =>
      obtain ⟨a, -, hitem⟩ := hc.scans x (rest.flatMap enc)
      rw [← List.flatMap_cons, ← htodo, ← h.bytes] at hitem
      exact S.bad_final p.flight a _ hbad hitem

/-- With nothing in flight and no item at the front, everything sent has been taken. -/
theorem Inv.all_taken (h : p.Inv enc) (hflight : p.flight = [])
    (hscan : ∀ a n, S.scan p.buf ≠ .item a n) : p.done = p.sent := by
  cases htodo : p.todo with
  | nil =>
      have hle : p.sent.length ≤ p.taken := List.drop_eq_nil_iff.mp htodo
      exact List.take_of_length_le hle
  | cons x rest =>
      obtain ⟨a, -, hitem⟩ := hc.scans x (rest.flatMap enc)
      rw [← List.flatMap_cons, ← htodo, ← h.bytes, hflight, List.append_nil] at hitem
      exact absurd hitem (hscan a _)

end Take

/-- Sending does not change what has been taken. -/
theorem Inv.done_send (h : p.Inv enc) (xs : List γ) : (p.send enc xs).done = p.done :=
  List.take_append_of_le_length h.le

/-- Taking adds the next item to what has been taken. -/
theorem done_take {x : γ} (hnext : p.sent[p.taken]? = some x) (n : Nat) :
    (p.take n).done = p.done ++ [x] := by
  rw [done, take_sent, take_taken, List.take_add_one, hnext]
  rfl

theorem done_sublist (p : Pipe β γ) : p.done.Sublist p.sent := List.take_sublist _ _

end Pipe

end Scanning
