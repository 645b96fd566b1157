/-
# Sweep -- sweeps that a time stamp holds back

Items with a deadline wait in a store until a sweep removes those whose deadline has passed.
A sweep is held back when the last one is less than a period ago.  `Covered` relates the
items of a store to its last sweep: each has survived it or came in after it.  It is what
bounds the time by which an item can outlive its deadline: less than one period after the
deadline, or after its arrival if that was later.
-/
import Mathlib.Data.Set.Basic

namespace Sweeps

universe u

variable {ι : Type u} {deadline arrival arrival' : ι → ℕ} {last now period : ℕ} {s s' : Set ι}

/-- Every item has a deadline behind the last sweep or has arrived since. -/
def Covered (deadline arrival : ι → ℕ) (last : ℕ) (s : Set ι) : Prop :=
  ∀ i ∈ s, last < deadline i ∨ last ≤ arrival i

/-- Items may leave the store, and items may arrive. -/
theorem Covered.update (h : Covered deadline arrival last s)
    (hs : ∀ i ∈ s', (i ∈ s ∧ arrival' i = arrival i) ∨ last ≤ arrival' i) :
    Covered deadline arrival' last s' := by
  intro i hi
  rcases hs i hi with ⟨hmem, heq⟩ | hle
  · rw [heq]
    exact h i hmem
  · exact .inr hle

theorem Covered.mono (h : Covered deadline arrival last s) (hs : s' ⊆ s) :
    Covered deadline arrival last s' :=
  h.update fun _ hi => .inl ⟨hs hi, rfl⟩

/-- What a sweep leaves. -/
theorem covered_of_swept (hs : ∀ i ∈ s, now < deadline i) : Covered deadline arrival now s := by
  intro i hi
  exact .inl (hs i hi)

/-- The bound at a time when a sweep was held back. -/
theorem Covered.bound (h : Covered deadline arrival last s) (hheld : now < last + period) :
    ∀ i ∈ s, now < max (deadline i) (arrival i) + period := by
  intro i hi
  have hmax : last ≤ max (deadline i) (arrival i) := by
    rcases h i hi with hlt | hle
    · exact Nat.le_trans (Nat.le_of_lt hlt) (Nat.le_max_left _ _)
    · exact Nat.le_trans hle (Nat.le_max_right _ _)
  omega

/-- The bound after a sweep. -/
theorem bound_of_swept (hs : ∀ i ∈ s, now < deadline i) :
    ∀ i ∈ s, now < max (deadline i) (arrival i) + period := by
  intro i hi
  exact Nat.lt_add_right period (Nat.lt_of_lt_of_le (hs i hi) (Nat.le_max_left _ _))

end Sweeps
