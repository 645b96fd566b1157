/-
# XmsgImXsc.TcpH2NSvc -- what the threads `svc` of a channel do over its life

A channel is connected by one thread `svc` after the other.  They share the plain `needWait`:
it is false until the first of them has registered the channel and gets to its first
connection attempt, and true ever after.  `H2nRun.At` ties it to the point the active thread
has reached, to the closures queued so far and to the attempts made so far.
-/
import XmsgImXsc.TcpH2N
import Mathlib.Data.List.Basic

namespace XmsgImXsc

open Lts

namespace H2nRun

/-! ## The three stages of a channel -/

/-- What the threads have done so far. -/
structure Past where
  needWait : Bool
  queued : List H2nClosure
  attempts : List Bool

/-- What has happened on the threads so far. -/
def past (s : H2nRun) : Past := ⟨s.needWait, s.queued, s.attempts⟩

/-- The first closure queued is the one that registers the channel, and all others are
establish closures. -/
def RegisteredFirst (queued : List H2nClosure) : Prop :=
  ∃ cfds : List Int, queued = cfds.map .establish ++ [.register]

/-- Every attempt but the first came after the delay. -/
def DelayedLater (attempts : List Bool) : Prop := ∀ slept ∈ attempts.dropLast, slept = true

/-- No thread has done anything yet. -/
structure Past.Fresh (p : Past) : Prop where
  needWait : p.needWait = false
  queued : p.queued = []
  attempts : p.attempts = []

/-- The first thread has registered the channel and is about to set `needWait`. -/
structure Past.Registered (p : Past) : Prop where
  needWait : p.needWait = false
  queued : p.queued = [.register]
  attempts : p.attempts = []

/-- `needWait` is set, for good. -/
structure Past.Waiting (p : Past) : Prop where
  needWait : p.needWait = true
  queued : RegisteredFirst p.queued
  attempts : DelayedLater p.attempts

/-- The stages in which a thread can be at a point; `none` when no thread is active. -/
def Past.At (p : Past) : Option SvcPc → Prop
  | none => p.Fresh ∨ p.Waiting
  | some .regTest => p.Fresh ∨ p.Waiting
  | some .register => p.Fresh
  | some .waitTest => p.Registered ∨ p.Waiting
  | some .setWait => p.Registered
  | some (.tcpConnect slept) => p.Waiting ∧ (slept = false → p.attempts = [])
  | some .sleep => p.Waiting
  | some (.enqueue _) => p.Waiting
  | some .release => p.Waiting

theorem delayedLater_nil : DelayedLater [] := by
  intro b hb
  cases hb

/-- An attempt after the delay, or the first one. -/
theorem DelayedLater.cons {attempts : List Bool} (h : DelayedLater attempts) {slept : Bool}
    (hfirst : slept = false → attempts = []) : DelayedLater (slept :: attempts) := by
  intro b hb
  cases slept with
  | false =>
      rw [hfirst rfl] at hb
      cases hb
  | true =>
      cases attempts with
      | nil => cases hb
      | cons a attempts =>
          rw [List.dropLast_cons_cons, List.mem_cons] at hb
          rcases hb with rfl | hb
          · rfl
          · exact h b hb

/-- Every try but the first has slept. -/
theorem DelayedLater.slept {newer older : List Bool} {slept : Bool}
    (h : DelayedLater (newer ++ slept :: older)) (hne : older ≠ []) : slept = true := by
  obtain ⟨b, older, rfl⟩ := List.exists_cons_of_ne_nil hne
  apply h slept
  rw [List.dropLast_append_of_ne_nil (List.cons_ne_nil _ _), List.dropLast_cons_cons]
  exact List.mem_append_right newer List.mem_cons_self

theorem RegisteredFirst.establish {queued : List H2nClosure} (h : RegisteredFirst queued)
    (cfd : Int) : RegisteredFirst (.establish cfd :: queued) := by
  obtain ⟨cfds, rfl⟩ := h
  exact ⟨cfd :: cfds, rfl⟩

theorem RegisteredFirst.count {queued : List H2nClosure} (h : RegisteredFirst queued) :
    queued.count .register = 1 := by
  obtain ⟨cfds, rfl⟩ := h
  have hnone : (cfds.map H2nClosure.establish).count .register = 0 := by
    apply List.count_eq_zero.mpr
    simp
  rw [List.count_append, hnone]
  rfl

/-- The registration stands behind every establish closure. -/
theorem RegisteredFirst.register_mem {newer older : List H2nClosure} {cfd : Int}
    (h : RegisteredFirst (newer ++ .establish cfd :: older)) : .register ∈ older := by
  obtain ⟨cfds, heq⟩ := h
  have hlast := congrArg List.getLast? heq
  rw [List.getLast?_append_cons, List.getLast?_concat] at hlast
  cases older with
  | nil => cases hlast
  | cons c older =>
      rw [List.getLast?_cons_cons] at hlast
      exact List.mem_of_getLast? hlast

/-- What holds of the closures queued and the attempts made at every stage. -/
structure Past.InOrder (p : Past) : Prop where
  queued : p.queued = [] ∨ RegisteredFirst p.queued
  attempts : DelayedLater p.attempts

theorem Past.Fresh.inOrder {p : Past} (h : p.Fresh) : p.InOrder where
  queued := .inl h.queued
  attempts := by
    rw [h.attempts]
    exact delayedLater_nil

theorem Past.Registered.inOrder {p : Past} (h : p.Registered) : p.InOrder where
  queued := .inr ⟨[], h.queued⟩
  attempts := by
    rw [h.attempts]
    exact delayedLater_nil

theorem Past.Waiting.inOrder {p : Past} (h : p.Waiting) : p.InOrder :=
  ⟨.inr h.queued, h.attempts⟩

theorem Past.At.inOrder {p : Past} {pc : Option SvcPc} (h : p.At pc) : p.InOrder := by
  cases pc with
  | none => exact h.elim Fresh.inOrder Waiting.inOrder
  | some pc =>
      cases pc with
      | regTest => exact h.elim Fresh.inOrder Waiting.inOrder
      | register => exact Fresh.inOrder h
      | waitTest => exact h.elim Registered.inOrder Waiting.inOrder
      | setWait => exact Registered.inOrder h
      | tcpConnect slept => exact Waiting.inOrder h.1
      | sleep => exact Waiting.inOrder h
      | enqueue cfd => exact Waiting.inOrder h
      | release => exact Waiting.inOrder h

variable {s s' : H2nRun} {a : Act}

/-- One step of a thread takes it from a point it can be at to the next. -/
theorem Past.At.svc (cfd : Int) {pc : SvcPc} (h : s.past.At (some pc)) :
    (s.svc cfd pc).1.past.At (s.svc cfd pc).2 := by
  cases pc with
  | regTest =>
      rcases h with hfresh | hwaiting
      · show s.past.At (some (if !s.needWait then .register else .waitTest))
        rw [show s.needWait = false from hfresh.needWait]
        exact hfresh
      · show s.past.At (some (if !s.needWait then .register else .waitTest))
        rw [show s.needWait = true from hwaiting.needWait]
        exact .inr hwaiting
  | register =>
      -- only a thread that saw `needWait` false gets here, so nothing is queued yet
      refine .inl ⟨h.needWait, ?_, h.attempts⟩
      show H2nClosure.register :: s.queued = [.register]
      rw [show s.queued = [] from h.queued]
  | waitTest =>
      rcases h with hregistered | hwaiting
      · show s.past.At (some (if s.needWait then .sleep else .setWait))
        rw [show s.needWait = false from hregistered.needWait]
        exact hregistered
      · show s.past.At (some (if s.needWait then .sleep else .setWait))
        rw [show s.needWait = true from hwaiting.needWait]
        exact hwaiting
  | sleep => exact ⟨h, fun habs => absurd habs.symm Bool.false_ne_true⟩
  | setWait =>
      -- the one attempt without a delay follows
      refine ⟨⟨rfl, ⟨[], h.queued⟩, ?_⟩, fun _ => h.attempts⟩
      exact (Past.Registered.inOrder h).attempts
  | tcpConnect slept =>
      obtain ⟨hwaiting, hfirst⟩ := h
      have hnext : Past.Waiting (past { s with attempts := slept :: s.attempts }) :=
        ⟨hwaiting.needWait, hwaiting.queued, hwaiting.attempts.cons hfirst⟩
      show Past.At (past { s with attempts := slept :: s.attempts })
        (some (if cfd < 1 then .waitTest else .enqueue cfd))
      -- a failed connection goes back to the test of `needWait`
      split
      · exact .inr hnext
      · exact hnext
  | enqueue cfd' => exact ⟨h.needWait, h.queued.establish cfd', h.attempts⟩
  | release => exact .inr ⟨h.needWait, h.queued, h.attempts⟩

/-! ## Every run -/

/-- A step of the system keeps the active thread, if there is one, at a point it can be at. -/
theorem Step.at (hstep : Step s a s') (hexcl : s.svcs.length ≤ s.trying.toNat)
    (h : s.past.At s.svcs.head?) : s'.past.At s'.svcs.head? := by
  cases hstep with
  | connectTest =>
      unfold H2nRun.connectTest
      split <;> exact h
  | exchange _ =>
      cases htrying : s.trying with
      | true =>
          rw [exchange_busy htrying]
          exact h
      | false =>
          -- the new thread starts where none is active
          have hsvcs : s.svcs = [] := by
            rw [htrying] at hexcl
            exact List.length_eq_zero_iff.mp (Nat.le_zero.mp hexcl)
          rw [hsvcs] at h
          rw [exchange_free htrying]
          exact h
  | @svc l₁ l₂ pc cfd hsvcs =>
      -- the thread that moves is the only one
      have hle := s.trying.toNat_le
      rw [hsvcs] at hexcl h
      simp only [List.length_append, List.length_cons] at hexcl
      have hl₁ : l₁ = [] := List.length_eq_zero_iff.mp (by omega)
      have hl₂ : l₂ = [] := List.length_eq_zero_iff.mp (by omega)
      subst hl₁ hl₂
      have hhead : ((s.svc cfd pc).2.toList ++ []).head? = (s.svc cfd pc).2 := by
        cases (s.svc cfd pc).2 <;> rfl
      show Past.At _ ((s.svc cfd pc).2.toList ++ []).head?
      rw [hhead]
      exact Past.At.svc cfd h
  | @run closure q hqueue =>
      cases closure with
      | register => exact h
      | establish cfd => exact h
  | lose => exact h

end H2nRun

open H2nRun

/-- The invariant of all runs. -/
theorem reachable_at {s : H2nRun} (h : Reachable h2nSystem Always s) :
    s.svcs.length ≤ s.trying.toNat ∧ s.past.At s.svcs.head? := by
  apply h.invariant (I := fun s => s.svcs.length ≤ s.trying.toNat ∧ s.past.At s.svcs.head?)
  · rintro s rfl
    exact ⟨by decide, .inl ⟨rfl, rfl, rfl⟩⟩
  · rintro s a s' ⟨hexcl, hat⟩ - hstep
    exact ⟨hstep.exclusive hexcl, hstep.at hexcl hat⟩

/-- In every reachable state at most one thread `svc` is active, the closure that registers
the channel has been queued at most once and before every establish closure, and every
connection attempt but the first came after the reconnect delay. -/
theorem svc_registers_once {s : H2nRun} (h : Reachable h2nSystem Always s) :
    s.svcs.length ≤ 1 ∧
      s.queued.count .register ≤ 1 ∧
      (∀ newer cfd older, s.queued = newer ++ .establish cfd :: older → .register ∈ older) ∧
      ∀ newer slept older, s.attempts = newer ++ slept :: older → older ≠ [] → slept = true := by
  obtain ⟨hexcl, hat⟩ := reachable_at h
  obtain ⟨hqueued, hattempts⟩ := hat.inOrder
  refine ⟨Nat.le_trans hexcl s.trying.toNat_le, ?_, ?_, ?_⟩
  · rcases hqueued with hnil | hfirst
    · have hempty : s.queued = [] := hnil
      rw [hempty]
      decide
    · exact Nat.le_of_eq hfirst.count
  · intro newer cfd older heq
    rcases hqueued with hnil | hfirst
    · have hempty : s.queued = [] := hnil
      rw [hempty] at heq
      simp at heq
    · have hsplit : RegisteredFirst (newer ++ .establish cfd :: older) := heq ▸ hfirst
      exact hsplit.register_mem
  · intro newer slept older heq hne
    have hsplit : DelayedLater (newer ++ slept :: older) := heq ▸ hattempts
    exact hsplit.slept hne

/-- A channel that was connected, whose second connection is queued. -/
theorem svc_registers_once_reconnected :
    (reconnecting.attempt 6).queued = [.establish 6, .establish 5, .register] ∧
      (reconnecting.attempt 6).attempts = [true, false] ∧
      (reconnecting.attempt 6).svcs.length ≤ 1 ∧
      (reconnecting.attempt 6).queued.count .register ≤ 1 := by
  have hreached : Reachable h2nSystem Always (reconnecting.attempt 6) :=
    reachable_attempt (fun _ _ => trivial) (reconnecting_reachable.mono fun _ _ _ => trivial)
      (by decide) rfl trivial 6 (by decide)
  obtain ⟨hsvcs, hcount, -, -⟩ := svc_registers_once hreached
  exact ⟨rfl, rfl, hsvcs, hcount⟩

end XmsgImXsc
