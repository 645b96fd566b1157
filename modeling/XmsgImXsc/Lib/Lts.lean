/-
# Lts -- labelled transition systems with guarded runs

A system is a set of initial states and a labelled step relation.  Reachability is
stated over a *guard* on the steps: `Reachable S G s` says that some run whose steps all
meet `G` ends in `s`.  The guard `Always` gives ordinary reachability; any other guard
gives the statements of the form "in every run whose steps all meet the condition".

The rules are the invariant rule (`Reachable.invariant`), its relative form, where the
step may use an invariant proved before (`Reachable.invariant_using`), runs put one after the
other (`Reachable.append`), the step at which a
predicate began to hold (`Reachable.exists_began`), and the projection of a composite system
onto one of its components (`Reachable.project`).
-/
import Mathlib.Init

namespace Lts

universe u v w x

/-- A labelled transition system: initial states and labelled steps. -/
structure System (σ : Type u) (α : Type v) where
  init : σ → Prop
  step : σ → α → σ → Prop

/-- The guard that admits every step. -/
def Always {σ : Type u} {α : Type v} (_ : σ) (_ : α) : Prop := True

/-- The system that goes on from a state. -/
def System.startingAt {σ : Type u} {α : Type v} (S : System σ α) (s : σ) : System σ α where
  init := fun s' => s' = s
  step := S.step

variable {σ : Type u} {α : Type v} {τ : Type w} {β : Type x}

/-- The states reached by runs all of whose steps meet the guard `G`. -/
inductive Reachable (S : System σ α) (G : σ → α → Prop) : σ → Prop
  | init {s : σ} : S.init s → Reachable S G s
  | step {s s' : σ} {a : α} : Reachable S G s → G s a → S.step s a s' → Reachable S G s'

namespace Reachable

variable {S : System σ α} {G : σ → α → Prop} {s : σ}

/-- A predicate that holds initially and is preserved by every guarded step holds of every
reachable state. -/
theorem invariant {I : σ → Prop} (h : Reachable S G s)
    (hinit : ∀ s, S.init s → I s)
    (hstep : ∀ s a s', I s → G s a → S.step s a s' → I s') : I s := by
  induction h with
  | init h0 => exact hinit _ h0
  | step _ hg hs ih => exact hstep _ _ _ ih hg hs

/-- The invariant rule relative to an invariant `J` that is already known. -/
theorem invariant_using {I J : σ → Prop} (h : Reachable S G s)
    (hJ : ∀ s, Reachable S G s → J s)
    (hinit : ∀ s, S.init s → I s)
    (hstep : ∀ s a s', J s → I s → G s a → S.step s a s' → I s') : I s := by
  induction h with
  | init h0 => exact hinit _ h0
  | step hr hg hs ih => exact hstep _ _ _ (hJ _ hr) ih hg hs

/-- A run that meets a guard meets every weaker one. -/
theorem mono {G' : σ → α → Prop} (hG : ∀ s a, G s a → G' s a) (h : Reachable S G s) :
    Reachable S G' s := by
  induction h with
  | init h0 => exact .init h0
  | step _ hg hs ih => exact .step ih (hG _ _ hg) hs

/-- A run goes on with a run from where it ended. -/
theorem append {s' : σ} (h : Reachable S G s) (h' : Reachable (S.startingAt s) G s') :
    Reachable S G s' := by
  induction h' with
  | init h0 => exact h0 ▸ h
  | step _ hg hs ih => exact .step ih hg hs

/-- What holds at the end of a run and not at its beginning began to hold at some step. -/
theorem exists_began {P : σ → Prop} (h : Reachable S G s) (hinit : ∀ s, S.init s → ¬P s)
    (hP : P s) : ∃ s₀ a s₁, Reachable S G s₀ ∧ G s₀ a ∧ S.step s₀ a s₁ ∧ ¬P s₀ ∧ P s₁ ∧
      Reachable (S.startingAt s₁) G s := by
  induction h with
  | init h0 => exact absurd hP (hinit _ h0)
  | @step s s' a hr hg hs ih =>
      by_cases hbefore : P s
      · obtain ⟨s₀, a₀, s₁, h₀, hg₀, hs₀, hnot, hyes, hafter⟩ := ih hbefore
        exact ⟨s₀, a₀, s₁, h₀, hg₀, hs₀, hnot, hyes, .step hafter hg hs⟩
      · exact ⟨s, a, s', hr, hg, hs, hbefore, hP, .init rfl⟩

/-- A component of a composite system: when every guarded step of the composite is a
guarded step of the component or leaves the component alone, the component of a reachable
state is reachable. -/
theorem project {T : System τ β} {H : τ → β → Prop} (f : σ → τ) (h : Reachable S G s)
    (hinit : ∀ s, S.init s → T.init (f s))
    (hstep : ∀ s a s', Reachable S G s → G s a → S.step s a s' →
      f s' = f s ∨ ∃ b, H (f s) b ∧ T.step (f s) b (f s')) :
    Reachable T H (f s) := by
  induction h with
  | init h0 => exact .init (hinit _ h0)
  | @step s s' a hr hg hs ih =>
      rcases hstep s a s' hr hg hs with heq | ⟨b, hb, ht⟩
      · rw [heq]
        exact ih
      · exact .step ih hb ht

end Reachable

end Lts
