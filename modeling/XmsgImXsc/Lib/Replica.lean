/-
# Replica -- copies of one state that apply the same updates at their own pace

A replica has a value and a queue of updates that it has been sent and has not applied yet.
Its *settled* value is what the queue will make of its value.  Sending an update to all
replicas moves the settled values with the original; applying a queued update changes none
of them.  So a replica whose queue is empty holds the original's value.

When an update is sent only after all queues have become empty, the replicas are in step: each
holds the original's value, or the one before the last update.
-/
import Mathlib.Data.List.Basic

namespace Replicas

universe u v

/-- A copy of a state with the updates it has still to apply, oldest first. -/
structure Replica (σ : Type u) (υ : Type v) where
  val : σ
  queue : List υ := []

variable {σ : Type u} {υ : Type v}

namespace Replica

/-- Send one more update. -/
def send (u : υ) (r : Replica σ υ) : Replica σ υ := { r with queue := r.queue ++ [u] }

/-- The value once the queue is empty. -/
def settled (apply : σ → υ → σ) (r : Replica σ υ) : σ := r.queue.foldl apply r.val

@[simp] theorem send_val (u : υ) (r : Replica σ υ) : (r.send u).val = r.val := rfl

@[simp] theorem send_queue (u : υ) (r : Replica σ υ) : (r.send u).queue = r.queue ++ [u] := rfl

variable (apply : σ → υ → σ)

@[simp] theorem settled_send (u : υ) (r : Replica σ υ) :
    (r.send u).settled apply = apply (r.settled apply) u := by
  simp [settled]

theorem settled_idle {r : Replica σ υ} (h : r.queue = []) : r.settled apply = r.val := by
  simp [settled, h]

/-- Applying the oldest update of the queue does not change the settled value. -/
theorem settled_exec {r : Replica σ υ} {u : υ} {us : List υ} (h : r.queue = u :: us) :
    ({ val := apply r.val u, queue := us } : Replica σ υ).settled apply = r.settled apply := by
  simp [settled, h]

end Replica

/-- Every replica settles on `goal`. -/
def Agree (apply : σ → υ → σ) (goal : σ) (rs : List (Replica σ υ)) : Prop :=
  ∀ r ∈ rs, r.settled apply = goal

namespace Agree

variable {apply : σ → υ → σ} {goal : σ} {rs : List (Replica σ υ)}

theorem send (h : Agree apply goal rs) (u : υ) :
    Agree apply (apply goal u) (rs.map (·.send u)) := by
  intro r hr
  obtain ⟨r', hr', rfl⟩ := List.mem_map.mp hr
  rw [Replica.settled_send, h r' hr']

theorem exec (h : Agree apply goal rs) {i : Nat} {r : Replica σ υ} {u : υ} {us : List υ}
    (hi : rs[i]? = some r) (hq : r.queue = u :: us) :
    Agree apply goal (rs.set i { val := apply r.val u, queue := us }) := by
  intro r' hr'
  rcases List.mem_or_eq_of_mem_set hr' with hmem | rfl
  · exact h r' hmem
  · rw [Replica.settled_exec apply hq]
    exact h r (List.mem_of_getElem? hi)

/-- A replica that has applied everything holds the common value. -/
theorem val_eq (h : Agree apply goal rs) {r : Replica σ υ} (hr : r ∈ rs) (hq : r.queue = []) :
    r.val = goal := by
  rw [← Replica.settled_idle apply hq]
  exact h r hr

end Agree

/-- A replica that is at most the last update behind: it holds the new value, or it holds
the old one and the update that leads to the new one is in its queue. -/
inductive InStep (apply : σ → υ → σ) (old new : σ) : Replica σ υ → Prop
  | current : InStep apply old new { val := new }
  | behind {u : υ} : apply old u = new → InStep apply old new { val := old, queue := [u] }

namespace InStep

variable {apply : σ → υ → σ} {old new : σ} {r : Replica σ υ}

theorem queue_length_le (h : InStep apply old new r) : r.queue.length ≤ 1 := by
  cases h with
  | current => exact Nat.zero_le 1
  | behind _ => exact Nat.le_refl 1

/-- A replica with an empty queue holds the new value, whatever came before. -/
theorem idle (h : InStep apply old new r) (hq : r.queue = []) (old' : σ) :
    InStep apply old' new r := by
  cases h with
  | current => exact .current
  | behind _ => cases hq

/-- An update that is sent to an idle replica puts it one behind. -/
theorem send (h : InStep apply old new r) (hq : r.queue = []) (u : υ) :
    InStep apply new (apply new u) (r.send u) := by
  cases h with
  | current => exact .behind rfl
  | behind _ => cases hq

/-- Applying the queued update brings it up to date. -/
theorem exec (h : InStep apply old new r) {u : υ} {us : List υ} (hq : r.queue = u :: us) :
    InStep apply old new { val := apply r.val u, queue := us } := by
  cases h with
  | current => cases hq
  | behind hu =>
      obtain ⟨rfl, rfl⟩ := List.cons.inj hq
      rw [hu]
      exact .current

end InStep

end Replicas
