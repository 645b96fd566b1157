/-
# Ledger -- every issued token is settled exactly once

Tokens are issued, stay open for a while, are taken by exactly one party or lost, and each
taken token waits until it is finished.  `Balanced` is the bookkeeping of such a life cycle:
the issued tokens are the open, the lost and the taken ones, and the taken ones are those
that wait and those that are done.  It is kept by the moves of a token, and together with
distinct keys it says that no token is taken or finished twice.
-/
import Mathlib.Data.List.Perm.Basic
import Mathlib.Data.List.Nodup

namespace Ledger

universe u v w

variable {α : Type u} {β : Type v} {κ : Type w} {key : α → κ} {proj : β → α}

/-- The books of a token store.  `key` identifies a token; a taken token `b : β` is the
token `proj b` with a note on how it was taken. -/
structure Balanced (key : α → κ) (proj : β → α) (issued open_ lost : List α)
    (taken waiting done : List β) : Prop where
  nodup : (issued.map key).Nodup
  split : issued.Perm (open_ ++ (lost ++ taken.map proj))
  queued : taken.Perm (waiting ++ done)

namespace Balanced

variable {issued open_ open' lost : List α} {taken waiting waiting' done : List β}

theorem empty : Balanced key proj [] [] [] [] [] [] :=
  ⟨List.nodup_nil, List.Perm.refl _, List.Perm.refl _⟩

/-! ## The moves of a token -/

/-- Issue a token under a new key. -/
theorem issue (h : Balanced key proj issued open_ lost taken waiting done) {a : α}
    (hfresh : key a ∉ issued.map key) :
    Balanced key proj (a :: issued) (a :: open_) lost taken waiting done where
  nodup := by
    rw [List.map_cons]
    exact List.nodup_cons.mpr ⟨hfresh, h.nodup⟩
  split := h.split.cons a
  queued := h.queued

/-- The order of the open tokens does not matter. -/
theorem permOpen (h : Balanced key proj issued open_ lost taken waiting done)
    (hp : open_.Perm open') : Balanced key proj issued open' lost taken waiting done where
  nodup := h.nodup
  split := h.split.trans (hp.append_right _)
  queued := h.queued

/-- Nor does the order of the waiting ones. -/
theorem permWaiting (h : Balanced key proj issued open_ lost taken waiting done)
    (hp : waiting.Perm waiting') : Balanced key proj issued open_ lost taken waiting' done where
  nodup := h.nodup
  split := h.split
  queued := h.queued.trans (hp.append_right _)

/-- Lose an open token. -/
theorem lose (h : Balanced key proj issued open_ lost taken waiting done) {a : α}
    (hp : open_.Perm (a :: open')) :
    Balanced key proj issued open' (a :: lost) taken waiting done where
  nodup := h.nodup
  split := h.split.trans ((hp.append_right _).trans List.perm_middle.symm)
  queued := h.queued

/-- Take some of the open tokens; they wait to be finished. -/
theorem take (h : Balanced key proj issued open_ lost taken waiting done) {bs : List β}
    (hp : open_.Perm (bs.map proj ++ open')) :
    Balanced key proj issued open' lost (bs ++ taken) (bs ++ waiting) done where
  nodup := h.nodup
  split := by
    refine h.split.trans ((hp.append_right _).trans ?_)
    rw [List.map_append, List.append_assoc]
    exact (List.perm_append_comm_assoc _ open' _).trans
      ((List.perm_append_comm_assoc _ lost _).append_left open')
  queued := by
    rw [List.append_assoc]
    exact h.queued.append_left bs

/-- Finish a waiting token. -/
theorem finish (h : Balanced key proj issued open_ lost taken waiting done) {b : β}
    (hp : waiting.Perm (b :: waiting')) :
    Balanced key proj issued open_ lost taken waiting' (b :: done) where
  nodup := h.nodup
  split := h.split
  queued := h.queued.trans ((hp.append_right done).trans List.perm_middle.symm)

/-! ## What balanced books say -/

/-- In a list with distinct keys only one element has a given key. -/
theorem filter_key_eq_singleton [DecidableEq κ] {γ : Type*} {f : γ → κ} {l : List γ}
    (hl : (l.map f).Nodup) {c : γ} (hc : c ∈ l) : l.filter (fun d => f d = f c) = [c] := by
  induction l with
  | nil => simp at hc
  | cons d l ih =>
      rw [List.map_cons, List.nodup_cons] at hl
      rcases List.mem_cons.mp hc with rfl | hmem
      · have hnone : l.filter (fun d => f d = f c) = [] := by
          apply List.filter_eq_nil_iff.mpr
          intro d hd heq
          exact hl.1 (List.mem_map.mpr ⟨d, hd, by simpa using heq⟩)
        rw [List.filter_cons_of_pos (by simp), hnone]
      · have hne : f d ≠ f c := by
          intro heq
          exact hl.1 (heq ▸ List.mem_map_of_mem hmem)
        rw [List.filter_cons_of_neg (by simpa using hne), ih hl.2 hmem]

/-- The open, the lost and the taken tokens have distinct keys, all together. -/
theorem nodup_split (h : Balanced key proj issued open_ lost taken waiting done) :
    (open_.map key ++ (lost.map key ++ taken.map (key ∘ proj))).Nodup := by
  have hkeys := h.split.map key
  rw [List.map_append, List.map_append, List.map_map] at hkeys
  exact hkeys.nodup_iff.mp h.nodup

theorem nodup_taken (h : Balanced key proj issued open_ lost taken waiting done) :
    (taken.map (key ∘ proj)).Nodup :=
  h.nodup_split.of_append_right.of_append_right

/-- The waiting and the finished tokens have distinct keys, all together. -/
theorem nodup_queued (h : Balanced key proj issued open_ lost taken waiting done) :
    (waiting.map (key ∘ proj) ++ done.map (key ∘ proj)).Nodup := by
  have hkeys := h.queued.map (key ∘ proj)
  rw [List.map_append] at hkeys
  exact hkeys.nodup_iff.mp h.nodup_taken

/-- An open token is not taken. -/
theorem open_not_taken (h : Balanced key proj issued open_ lost taken waiting done) {a : α}
    (ha : a ∈ open_) {b : β} (hb : b ∈ taken) : key (proj b) ≠ key a := by
  intro heq
  refine List.disjoint_of_nodup_append h.nodup_split (List.mem_map_of_mem ha) ?_
  exact List.mem_append_right _ (List.mem_map.mpr ⟨b, hb, heq⟩)

variable [DecidableEq κ]

/-- When no token is lost, an issued token is open and not taken, or taken exactly once and
not open. -/
theorem open_or_taken_once (h : Balanced key proj issued open_ [] taken waiting done) {a : α}
    (ha : a ∈ issued) :
    (key a ∈ open_.map key ∧ taken.filter (fun b => key (proj b) = key a) = []) ∨
      (key a ∉ open_.map key ∧
        ∃ b, proj b = a ∧ taken.filter (fun b => key (proj b) = key a) = [b]) := by
  rcases List.mem_append.mp (h.split.mem_iff.mp ha) with hopen | htaken
  · refine .inl ⟨List.mem_map_of_mem hopen, ?_⟩
    apply List.filter_eq_nil_iff.mpr
    intro b hb heq
    exact h.open_not_taken hopen hb (by simpa using heq)
  · obtain ⟨b, hb, rfl⟩ := List.mem_map.mp (by simpa using htaken)
    refine .inr ⟨?_, b, rfl, filter_key_eq_singleton (f := key ∘ proj) h.nodup_taken hb⟩
    intro hmem
    obtain ⟨a, hopen, heq⟩ := List.mem_map.mp hmem
    exact h.open_not_taken hopen hb heq.symm

/-- No token is finished twice. -/
theorem finished_at_most_once (h : Balanced key proj issued open_ lost taken waiting done)
    (k : κ) : (done.filter fun b => key (proj b) = k).length ≤ 1 := by
  by_cases hk : ∃ b ∈ done, key (proj b) = k
  · obtain ⟨b, hb, rfl⟩ := hk
    have hsingle := filter_key_eq_singleton (f := key ∘ proj)
      h.nodup_queued.of_append_right hb
    exact Nat.le_of_eq (congrArg List.length hsingle)
  · have hnone : (done.filter fun b => key (proj b) = k) = [] := by
      apply List.filter_eq_nil_iff.mpr
      intro b hb heq
      exact hk ⟨b, hb, by simpa using heq⟩
    simp [hnone]

/-- A taken token that does not wait is finished, and finished as it was taken. -/
theorem finished_unless_waiting (h : Balanced key proj issued open_ lost taken waiting done)
    {b : β} (hb : b ∈ taken) (hnot : b ∉ waiting) :
    done.filter (fun b' => key (proj b') = key (proj b)) = [b] := by
  rcases List.mem_append.mp (h.queued.mem_iff.mp hb) with hwait | hdone
  · exact absurd hwait hnot
  · exact filter_key_eq_singleton (f := key ∘ proj) h.nodup_queued.of_append_right hdone

/-- When no token is open and none waits, every issued token is finished once if and only if
none is lost. -/
theorem finished_once_iff (h : Balanced key proj issued [] lost taken [] done) :
    (∀ a ∈ issued, (done.map (key ∘ proj)).count (key a) = 1) ↔ lost = [] := by
  constructor
  · intro hall
    cases lost with
    | nil => rfl
    | cons a lost =>
        have ha : a ∈ issued := h.split.mem_iff.mpr List.mem_cons_self
        have hmem : key a ∈ done.map (key ∘ proj) := by
          apply List.count_pos_iff.mp
          rw [hall a ha]
          exact Nat.one_pos
        obtain ⟨b, hb, heq⟩ := List.mem_map.mp hmem
        have htaken : b ∈ taken := h.queued.mem_iff.mpr hb
        refine absurd (List.mem_map.mpr ⟨b, htaken, heq⟩) ?_
        exact List.disjoint_of_nodup_append h.nodup_split.of_append_right List.mem_cons_self
  · rintro rfl a ha
    obtain ⟨b, hb, rfl⟩ := List.mem_map.mp (h.split.mem_iff.mp ha)
    have hdone : b ∈ done := h.queued.mem_iff.mp hb
    exact List.count_eq_one_of_mem h.nodup_queued.of_append_right
      (List.mem_map_of_mem (f := key ∘ proj) hdone)

end Balanced

end Ledger
