/-
# Throttle -- an action that a time stamp holds back

An action is tried from time to time and carried out when a period has passed since the stamp
of the last time, which is then renewed.  The stamp may be later than the time of the try that
the period is measured with: the action itself takes time.

`Throttle` has all stamps so far.  They are at least a period apart (`Spaced`), which bounds how
many fall into a window of time, and no try leaves the last one behind by a period or more
(`Throttle.recent`).
-/
import Mathlib.Data.List.Basic
import Mathlib.Tactic.Ring

namespace Throttles

/-- Stamps, newest first, each at least a period after the one before. -/
def Spaced (period : ℕ) (stamps : List ℕ) : Prop :=
  stamps.Pairwise fun later earlier => earlier + period ≤ later

variable {period a b : ℕ} {ts : List ℕ}

/-- Stamps that lie in a window of time are no more than fit into it. -/
theorem Spaced.length_mul_le (h : Spaced period ts)
    (hwindow : ∀ t ∈ ts, a ≤ t ∧ t ≤ b) : (ts.length - 1) * period ≤ b - a := by
  induction ts generalizing b with
  | nil => simp
  | cons t rest ih =>
    obtain ⟨hlater, hrest⟩ := List.pairwise_cons.mp h
    obtain ⟨-, htb⟩ := hwindow t List.mem_cons_self
    cases rest with
    | nil => simp
    | cons t' rest =>
      have hgap := hlater t' List.mem_cons_self
      have hat' := (hwindow t' (List.mem_cons_of_mem _ List.mem_cons_self)).1
      -- the others lie in the window that ends a period earlier
      have hshorter : ∀ u ∈ t' :: rest, a ≤ u ∧ u ≤ b - period := by
        intro u hu
        have hgap := hlater u hu
        exact ⟨(hwindow u (List.mem_cons_of_mem _ hu)).1, by omega⟩
      have hlen := ih hrest hshorter
      calc ((t :: t' :: rest).length - 1) * period
          = ((t' :: rest).length - 1) * period + period := by
            simp only [List.length_cons, Nat.add_sub_cancel]
            ring
        _ ≤ b - period - a + period := Nat.add_le_add_right hlen period
        _ = b - a := by omega

/-- So are those of them that lie in any window. -/
theorem Spaced.countP_mul_le (h : Spaced period ts) (a width : ℕ) :
    (ts.countP (fun t => a ≤ t ∧ t ≤ a + width) - 1) * period ≤ width := by
  rw [List.countP_eq_length_filter]
  have hfiltered : Spaced period (ts.filter fun t => a ≤ t ∧ t ≤ a + width) :=
    h.sublist List.filter_sublist
  have hlen := hfiltered.length_mul_le (a := a) (b := a + width) (by
    intro t ht
    simpa using (List.mem_filter.mp ht).2)
  omega

/-- The time at which a throttle was set up, and the stamps since, newest first. -/
structure Throttle where
  start : ℕ
  fired : List ℕ := []

namespace Throttle

variable {t : Throttle} {now stamp clock : ℕ}

/-- The time of the last firing, at first that of the setup. -/
def last (t : Throttle) : ℕ := t.fired.headD t.start

/-- All stamps, the setup being one. -/
def stamps (t : Throttle) : List ℕ := t.fired ++ [t.start]

/-- A try. -/
def attempt (period now stamp : ℕ) (t : Throttle) : Throttle :=
  if now < t.last + period then t else { t with fired := stamp :: t.fired }

/-- The last stamp is the newest. -/
theorem le_last (h : Spaced period t.stamps) {s : ℕ} (hs : s ∈ t.stamps) : s ≤ t.last := by
  unfold last stamps at *
  cases hfired : t.fired with
  | nil =>
    rw [hfired] at hs
    exact Nat.le_of_eq (List.mem_singleton.mp hs)
  | cons u rest =>
    rw [hfired] at h hs
    rcases List.mem_cons.mp hs with rfl | hrest
    · exact Nat.le_refl s
    · exact Nat.le_trans (Nat.le_add_right s period) ((List.pairwise_cons.mp h).1 s hrest)

/-- An attempt fires only when a period has passed. -/
theorem spaced_attempt (h : Spaced period t.stamps) (hle : now ≤ stamp) :
    Spaced period (t.attempt period now stamp).stamps := by
  unfold attempt
  split
  · exact h
  · next hdue =>
    refine List.pairwise_cons.mpr ⟨?_, h⟩
    intro s hs
    have hnewest := le_last h hs
    omega

/-- After a try less than a period has passed since the last stamp. -/
theorem recent (hle : now ≤ stamp) :
    now ≤ (t.attempt period now stamp).last ∨ now < (t.attempt period now stamp).last + period := by
  unfold attempt
  split
  · next hheld => exact .inr hheld
  · exact .inl hle

/-- The times it fired fit into the time since the setup, and its stamps into any window. -/
def Limited (period clock : ℕ) (t : Throttle) : Prop :=
  t.start + t.fired.length * period ≤ clock ∧
    ∀ a width, (t.stamps.countP (fun s => a ≤ s ∧ s ≤ a + width) - 1) * period ≤ width

/-- Every firing takes a period. -/
theorem fired_mul_le (h : Spaced period t.stamps) (hclock : t.last ≤ clock) :
    t.start + t.fired.length * period ≤ clock := by
  have hstart : t.start ≤ t.last := le_last h (List.mem_append_right _ (List.mem_singleton_self _))
  have hwindow : ∀ s ∈ t.stamps, t.start ≤ s ∧ s ≤ t.last := by
    intro s hs
    refine ⟨?_, le_last h hs⟩
    rcases List.mem_append.mp hs with hfired | hsetup
    · have hgap := (List.pairwise_append.mp h).2.2 s hfired t.start (List.mem_singleton_self _)
      exact Nat.le_trans (Nat.le_add_right _ _) hgap
    · exact Nat.le_of_eq (List.mem_singleton.mp hsetup).symm
  have hlen := h.length_mul_le hwindow
  have hstamps : t.stamps.length - 1 = t.fired.length := by simp [stamps]
  rw [hstamps] at hlen
  omega

theorem limited (h : Spaced period t.stamps) (hclock : t.last ≤ clock) : t.Limited period clock :=
  ⟨fired_mul_le h hclock, h.countP_mul_le⟩

end Throttle

end Throttles
