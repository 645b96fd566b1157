/-
# XmsgImXsc.RudpTimeout -- the timeout sweep of a RUDP channel

No constructor assigns `lastCheckTransTs` of a `XmsgImRudpChannel`, as that of
`XmsgImTcpChannel` does.  The first sweep is held back by whatever the memory held, and each
later one by the time of the one before.  A run of an established channel is compared here
for two contents of that memory.
-/
import XmsgImXsc.Timeout

namespace XmsgImXsc

open Sweeps

variable {D M : Type}

/-- The constructor.  `mem` is what the memory held where `lastCheckTransTs` is, and `tidSeq`
the random number. -/
def XmsgImRudpChannel.new (mem : UInt64) (tidSeq : UInt32) : XmsgImChannel M where
  transInit := ∅
  lastCheckTransTs := mem
  tidSeq := tidSeq
  at_ := .ACTOR_N2H
  pro := .XSC_PROTOCOL_RUDP

/-- `dida(now)`, up to the callbacks of the transactions it returns. -/
def XmsgImRudpChannel.dida (cfg : XscCfg) (est : Bool) (c : XmsgImChannel M) (now : UInt64) :
    XmsgImChannel M × List (XmsgImTransInitiative M) :=
  if !est then (c, []) else c.checkTransInit cfg.sec (c.n2hTransTimeout cfg) now

/-! ## Runs of an established channel -/

/-- What the worker executes on the channel; `clock` is the time at which it inserts an
entry. -/
inductive RudpOp (M : Type) where
  | futureBegin (trans : XmsgImTransInitiative M) (clock : UInt64)
  | evnEnd (end_ : XscProtoTransaction)
  | dida (now : UInt64)

/-- The channel, and the time at which the entry under each tid was inserted. -/
structure RudpRun (M : Type) where
  ch : XmsgImChannel M
  ins : UInt32 → UInt64 := fun _ => 0

namespace RudpRun

/-- One operation, and the transactions it ends with `RET_TIME_OUT`. -/
def step (cfg : XscCfg) (r : RudpRun M) : RudpOp M → RudpRun M × List (XmsgImTransInitiative M)
  | .futureBegin t clock =>
      ({ ch := (r.ch.futureBegin t).1
         ins := Function.update r.ins r.ch.genTid.2 clock }, [])
  | .evnEnd end_ => ({ r with ch := (r.ch.evnEnd end_).1 }, [])
  | .dida now =>
      ({ r with ch := (XmsgImRudpChannel.dida cfg true r.ch now).1 },
        (XmsgImRudpChannel.dida cfg true r.ch now).2)

/-- The channel after some operations. -/
def run (cfg : XscCfg) (r : RudpRun M) (ops : List (RudpOp M)) : RudpRun M :=
  ops.foldl (fun r op => (r.step cfg op).1) r

/-- The transactions that end with `RET_TIME_OUT`, operation by operation. -/
def timeouts (cfg : XscCfg) : RudpRun M → List (RudpOp M) → List (List (XmsgImTransInitiative M))
  | _, [] => []
  | r, op :: ops => (r.step cfg op).2 :: timeouts cfg (r.step cfg op).1 ops

/-- `now` is ten seconds or more later than the time at which the transaction was due, or
inserted if that was later. -/
def Overdue (cfg : XscCfg) (r : RudpRun M) (now : UInt64) (t : XmsgImTransInitiative M) : Prop :=
  max (t.deadline (r.ch.n2hTransTimeout cfg)).toNat (r.ins t.stid).toNat + 10 * cfg.sec.toNat ≤
    now.toNat

end RudpRun

/-- The times of a run: `dida` is called with times that do not decrease, and an entry is
inserted no earlier than the last one, which is `last` at the beginning. -/
def InOrder : UInt64 → List (RudpOp M) → Prop
  | _, [] => True
  | last, .futureBegin _ clock :: ops => last ≤ clock ∧ InOrder last ops
  | last, .evnEnd _ :: ops => InOrder last ops
  | last, .dida now :: ops => last ≤ now ∧ InOrder now ops

/-- Something holds at each call of `dida`, of what was executed before it and its time. -/
def EachDida (ops : List (RudpOp M)) (P : List (RudpOp M) → UInt64 → Prop) : Prop :=
  ∀ pre now post, ops = pre ++ .dida now :: post → P pre now

/-- No transaction survives a `dida` at which it is overdue. -/
def NoneSurvives (cfg : XscCfg) (r : RudpRun M) (ops : List (RudpOp M)) : Prop :=
  EachDida ops fun pre now =>
    ∀ t ∈ ((r.run cfg pre).step cfg (.dida now)).1.ch.pending, ¬ (r.run cfg pre).Overdue cfg now t

/-- The condition on a `dida` in two runs on memory that held `mem₁` and `mem₂`: it sweeps in
both or in none, or nothing is due; and where it is earlier than ten seconds after the time
that the memory held, nothing is overdue. -/
structure SweepsAlike (cfg : XscCfg) (mem₁ mem₂ : UInt64) (r₁ r₂ : RudpRun M) (now : UInt64) :
    Prop where
  alike : (r₁.ch.Held cfg.sec now ↔ r₂.ch.Held cfg.sec now) ∨
    ∀ t ∈ r₁.ch.pending, now < t.deadline (r₁.ch.n2hTransTimeout cfg)
  inTime₁ : now < mem₁ + 10 * cfg.sec → ∀ t ∈ r₁.ch.pending, ¬ r₁.Overdue cfg now t
  inTime₂ : now < mem₂ + 10 * cfg.sec → ∀ t ∈ r₂.ch.pending, ¬ r₂.Overdue cfg now t

section EachDida

variable {ops : List (RudpOp M)} {op : RudpOp M} {P : List (RudpOp M) → UInt64 → Prop}

theorem eachDida_nil : EachDida [] P := by
  intro pre now post h
  cases pre <;> cases h

/-- The first operation, and the others with it executed before them. -/
theorem eachDida_cons : EachDida (op :: ops) P ↔
    (∀ now, op = .dida now → P [] now) ∧ EachDida ops fun pre now => P (op :: pre) now := by
  constructor
  · intro h
    refine ⟨?_, ?_⟩
    · rintro now rfl
      exact h [] now ops rfl
    · rintro pre now post rfl
      exact h (op :: pre) now post rfl
  · rintro ⟨hfirst, hrest⟩ pre now post heq
    cases pre with
    | nil =>
        obtain ⟨rfl, -⟩ := List.cons.inj heq
        exact hfirst now rfl
    | cons op' pre =>
        obtain ⟨rfl, hops⟩ := List.cons.inj heq
        exact hrest pre now post hops

/-- The time of the last `dida` after an operation. -/
def RudpOp.lastAfter (last : UInt64) : RudpOp M → UInt64
  | .dida now => now
  | _ => last

theorem InOrder.tail {last : UInt64} (h : InOrder last (op :: ops)) :
    InOrder (op.lastAfter last) ops := by
  cases op with
  | futureBegin t clock => exact h.2
  | evnEnd end_ => exact h
  | dida now => exact h.2

end EachDida

/-! ## One run -/

namespace RudpRun

variable {cfg : XscCfg} {mem last now : UInt64} {r r₁ r₂ : RudpRun M} {op : RudpOp M}
  {ops : List (RudpOp M)}

/-- `dida` on the channel of a run. -/
theorem step_dida_of_held (h : r.ch.Held cfg.sec now) : r.step cfg (.dida now) = (r, []) := by
  have hdida : XmsgImRudpChannel.dida cfg true r.ch now = (r.ch, []) :=
    XmsgImChannel.checkTransInit_of_held h _
  show (({ r with ch := (XmsgImRudpChannel.dida cfg true r.ch now).1 } : RudpRun M),
    (XmsgImRudpChannel.dida cfg true r.ch now).2) = _
  rw [hdida]

/-- A tick that is not held back sweeps with the timeout of the channel. -/
theorem step_dida_of_not_held (h : ¬ r.ch.Held cfg.sec now) :
    r.step cfg (.dida now) =
      ({ r with
          ch.transInit := Tables.filter
            (XmsgImChannel.notExpired (r.ch.n2hTransTimeout cfg) now) r.ch.transInit
          ch.lastCheckTransTs := now },
        r.ch.pending.filter fun t =>
          !XmsgImChannel.notExpired (r.ch.n2hTransTimeout cfg) now t) := by
  have hdida : XmsgImRudpChannel.dida cfg true r.ch now = _ :=
    XmsgImChannel.checkTransInit_of_not_held h _
  show (({ r with ch := (XmsgImRudpChannel.dida cfg true r.ch now).1 } : RudpRun M),
    (XmsgImRudpChannel.dida cfg true r.ch now).2) = _
  rw [hdida]

/-- A sweep finds nothing exactly if nothing is due. -/
theorem due_eq_nil_iff {c : XmsgImChannel M} {tm : Int32} :
    (c.pending.filter fun t => !XmsgImChannel.notExpired tm now t) = [] ↔
      ∀ t ∈ c.pending, now < t.deadline tm := by
  rw [List.filter_eq_nil_iff]
  simp [XmsgImChannel.notExpired, XmsgImTransInitiative.deadline]

/-- Then it only moves the time of the last sweep. -/
theorem step_dida_of_none_due (h : ¬ r.ch.Held cfg.sec now)
    (hnone : ∀ t ∈ r.ch.pending, now < t.deadline (r.ch.n2hTransTimeout cfg)) :
    (r.step cfg (.dida now)).1 = { r with ch.lastCheckTransTs := now } := by
  have hkeep : Tables.filter (XmsgImChannel.notExpired (r.ch.n2hTransTimeout cfg) now)
      r.ch.transInit = r.ch.transInit :=
    Tables.filter_eq_self fun t ht => decide_eq_true (hnone t ht)
  rw [step_dida_of_not_held h, hkeep]

/-- What it leaves is not due. -/
theorem pending_step_dida (h : ¬ r.ch.Held cfg.sec now) {t : XmsgImTransInitiative M}
    (ht : t ∈ (r.step cfg (.dida now)).1.ch.pending) :
    t ∈ r.ch.pending ∧ now < t.deadline (r.ch.n2hTransTimeout cfg) :=
  XmsgImChannel.pending_checkTransInit h ht

/-- The timeout does not change. -/
@[simp] theorem step_timeout :
    (r.step cfg op).1.ch.n2hTransTimeout cfg = r.ch.n2hTransTimeout cfg := by
  cases op with
  | futureBegin t clock => exact XmsgImChannel.n2hTransTimeout_congr cfg rfl rfl
  | evnEnd end_ =>
      apply XmsgImChannel.n2hTransTimeout_congr
      · exact (r.ch.evnEnd_takesOut end_).pro
      · exact XmsgImChannel.evnEnd_at end_
  | dida now =>
      apply XmsgImChannel.n2hTransTimeout_congr
      · exact (r.ch.checkTransInit_takesOut _ _ _).pro
      · exact XmsgImChannel.checkTransInit_at _ _ _

/-- Only `dida` moves the time of the last sweep. -/
theorem step_last (hop : ∀ now, op ≠ .dida now) :
    (r.step cfg op).1.ch.lastCheckTransTs = r.ch.lastCheckTransTs := by
  cases op with
  | futureBegin t clock => rfl
  | evnEnd end_ => exact XmsgImChannel.evnEnd_last end_
  | dida now => exact absurd rfl (hop now)

/-- What relates a run, up to a last `dida` at `last`, to the memory of its channel: no sweep
has been made yet, or one was when ten seconds were over, and covers the table. -/
structure FromMem (cfg : XscCfg) (mem last : UInt64) (r : RudpRun M) : Prop where
  keyed : r.ch.Keyed
  stamp : r.ch.lastCheckTransTs = mem ∨
    (mem + 10 * cfg.sec ≤ last ∧ r.ch.lastCheckTransTs ≤ last ∧
      r.ch.CoveredBySweep (r.ch.n2hTransTimeout cfg) r.ins)

theorem fromMem_new (cfg : XscCfg) (mem last : UInt64) (tidSeq : UInt32) :
    FromMem cfg mem last ({ ch := XmsgImRudpChannel.new mem tidSeq } : RudpRun M) :=
  ⟨Tables.all_empty, .inl rfl⟩

theorem FromMem.futureBegin (h : r.FromMem cfg mem last) (t : XmsgImTransInitiative M)
    {clock : UInt64} (hle : last ≤ clock) :
    (r.step cfg (.futureBegin t clock)).1.FromMem cfg mem last where
  keyed := XmsgImChannel.futureBegin_keyed h.keyed t
  stamp := by
    rcases h.stamp with hmem | ⟨hpast, hlast, hcovered⟩
    · exact .inl hmem
    · refine .inr ⟨hpast, hlast, ?_⟩
      rw [step_timeout]
      exact hcovered.futureBegin h.keyed t (UInt64.le_trans hlast hle)

theorem FromMem.evnEnd (h : r.FromMem cfg mem last) (end_ : XscProtoTransaction) :
    (r.step cfg (.evnEnd end_)).1.FromMem cfg mem last := by
  have htake := r.ch.evnEnd_takesOut end_
  have hstamp : (r.ch.evnEnd end_).1.lastCheckTransTs = r.ch.lastCheckTransTs :=
    XmsgImChannel.evnEnd_last end_
  refine ⟨htake.keyed h.keyed, ?_⟩
  rw [step_timeout]
  show (r.ch.evnEnd end_).1.lastCheckTransTs = mem ∨ _
  rcases h.stamp with hmem | ⟨hpast, hlast, hcovered⟩
  · exact .inl (hstamp.trans hmem)
  · refine .inr ⟨hpast, ?_, hcovered.sub htake.pending_subset hstamp⟩
    show (r.ch.evnEnd end_).1.lastCheckTransTs ≤ last
    rw [hstamp]
    exact hlast

/-- A tick moves the last sweep to the present, or leaves it where it was. -/
theorem FromMem.dida (h : r.FromMem cfg mem last) (hle : last ≤ now) :
    (r.step cfg (.dida now)).1.FromMem cfg mem now := by
  by_cases hheld : r.ch.Held cfg.sec now
  · rw [step_dida_of_held hheld]
    refine ⟨h.keyed, ?_⟩
    rcases h.stamp with hmem | ⟨hpast, hlast, hcovered⟩
    · exact .inl hmem
    · exact .inr ⟨UInt64.le_trans hpast hle, UInt64.le_trans hlast hle, hcovered⟩
  · refine ⟨(r.ch.checkTransInit_takesOut _ _ _).keyed h.keyed, .inr ⟨?_, ?_, ?_⟩⟩
    · -- ten seconds after the memory's time, or after that of the last sweep, are over
      rcases h.stamp with hmem | ⟨hpast, -, -⟩
      · rw [← hmem]
        exact UInt64.not_lt.mp hheld
      · exact UInt64.le_trans hpast hle
    · show (r.ch.checkTransInit _ _ _).1.lastCheckTransTs ≤ now
      rw [XmsgImChannel.checkTransInit_of_not_held hheld]
      exact UInt64.le_refl _
    · rw [step_timeout]
      exact XmsgImChannel.coveredBySweep_of_not_held hheld _ _

/-- What survives a sweep is not overdue, and what a sweep in time is held back from is not
either: only the memory's time can let an overdue transaction survive. -/
theorem FromMem.survivors_iff (h : r.FromMem cfg mem last) (hle : last ≤ now) :
    (∀ t ∈ (r.step cfg (.dida now)).1.ch.pending, ¬ r.Overdue cfg now t) ↔
      (now < mem + 10 * cfg.sec → ∀ t ∈ r.ch.pending, ¬ r.Overdue cfg now t) := by
  by_cases hheld : r.ch.Held cfg.sec now
  · rw [step_dida_of_held hheld]
    refine ⟨fun hnot _ => hnot, ?_⟩
    intro hnot t ht
    rcases h.stamp with hmem | ⟨-, -, hcovered⟩
    · -- it was the memory that held the sweep back
      rw [XmsgImChannel.Held, hmem] at hheld
      exact hnot hheld t ht
    · -- it was the last sweep, less than ten seconds ago
      exact Nat.not_le.mpr (Covered.bound hcovered hheld.lt t ht)
  · constructor
    · -- the memory's time is over, as there was a sweep
      intro _ hearly
      exfalso
      rcases h.stamp with hmem | ⟨hpast, -, -⟩
      · rw [XmsgImChannel.Held, hmem] at hheld
        exact hheld hearly
      · exact UInt64.not_lt.mpr (UInt64.le_trans hpast hle) hearly
    · intro _ t ht hover
      have hlt : now.toNat < (t.deadline (r.ch.n2hTransTimeout cfg)).toNat :=
        (pending_step_dida hheld ht).2
      unfold Overdue at hover
      omega

/-! ## Two runs -/

/-- Two runs that differ in the time of the last sweep at most. -/
def Twin (r₁ r₂ : RudpRun M) : Prop :=
  ∃ last, r₂ = { r₁ with ch.lastCheckTransTs := last }

/-- Twins wait for the same transactions. -/
theorem Twin.pending (h : Twin r₁ r₂) : r₂.ch.pending = r₁.ch.pending := by
  obtain ⟨last, rfl⟩ := h
  rfl

/-- They have the same timeout. -/
theorem Twin.timeout (h : Twin r₁ r₂) :
    r₂.ch.n2hTransTimeout cfg = r₁.ch.n2hTransTimeout cfg := by
  obtain ⟨last, rfl⟩ := h
  exact XmsgImChannel.n2hTransTimeout_congr cfg rfl rfl

/-- Apart from `dida` the operations end nothing with `RET_TIME_OUT`, and do the same in
both. -/
theorem Twin.step (h : Twin r₁ r₂) (hop : ∀ now, op ≠ .dida now) :
    (r₁.step cfg op).2 = (r₂.step cfg op).2 ∧ Twin (r₁.step cfg op).1 (r₂.step cfg op).1 := by
  obtain ⟨last, rfl⟩ := h
  cases op with
  | futureBegin t clock => exact ⟨rfl, last, rfl⟩
  | evnEnd end_ =>
      refine ⟨rfl, last, ?_⟩
      unfold RudpRun.step XmsgImChannel.evnEnd
      dsimp only
      split <;> rfl
  | dida now => exact absurd rfl (hop now)

/-- `dida` ends the same transactions in both exactly if it sweeps in both or in none, or
nothing is due. -/
theorem Twin.dida_iff (h : Twin r₁ r₂) :
    (r₁.step cfg (.dida now)).2 = (r₂.step cfg (.dida now)).2 ↔
      ((r₁.ch.Held cfg.sec now ↔ r₂.ch.Held cfg.sec now) ∨
        ∀ t ∈ r₁.ch.pending, now < t.deadline (r₁.ch.n2hTransTimeout cfg)) := by
  by_cases h₁ : r₁.ch.Held cfg.sec now <;> by_cases h₂ : r₂.ch.Held cfg.sec now
  · -- no sweep in both
    rw [step_dida_of_held h₁, step_dida_of_held h₂]
    exact iff_of_true rfl (.inl (iff_of_true h₁ h₂))
  · -- a sweep in one of them ends something exactly if something is due
    rw [step_dida_of_held h₁, step_dida_of_not_held h₂, h.pending, h.timeout, eq_comm,
      due_eq_nil_iff]
    simp [h₁, h₂]
  · rw [step_dida_of_not_held h₁, step_dida_of_held h₂, due_eq_nil_iff]
    simp [h₁, h₂]
  · -- the same sweep in both, as their tables are the same
    rw [step_dida_of_not_held h₁, step_dida_of_not_held h₂, h.pending, h.timeout]
    exact iff_of_true rfl (.inl (iff_of_false h₁ h₂))

/-- And then it leaves the same in both. -/
theorem Twin.dida (h : Twin r₁ r₂)
    (heq : (r₁.step cfg (.dida now)).2 = (r₂.step cfg (.dida now)).2) :
    Twin (r₁.step cfg (.dida now)).1 (r₂.step cfg (.dida now)).1 := by
  by_cases h₁ : r₁.ch.Held cfg.sec now <;> by_cases h₂ : r₂.ch.Held cfg.sec now
  · rw [step_dida_of_held h₁, step_dida_of_held h₂]
    exact h
  · rw [step_dida_of_held h₁, step_dida_of_not_held h₂] at heq
    rw [step_dida_of_held h₁, step_dida_of_none_due h₂ (due_eq_nil_iff.mp heq.symm)]
    obtain ⟨last, rfl⟩ := h
    exact ⟨now, rfl⟩
  · rw [step_dida_of_not_held h₁, step_dida_of_held h₂] at heq
    rw [step_dida_of_held h₂, step_dida_of_none_due h₁ (due_eq_nil_iff.mp heq)]
    obtain ⟨last, rfl⟩ := h
    exact ⟨last, rfl⟩
  · rw [step_dida_of_not_held h₁, step_dida_of_not_held h₂, h.timeout]
    obtain ⟨last, rfl⟩ := h
    exact ⟨now, rfl⟩

/-- One `dida` does the same in both and leaves nothing overdue exactly under the condition. -/
theorem Twin.sweepsAlike_iff {mem₁ mem₂ : UInt64} (h : Twin r₁ r₂) (h₁ : r₁.FromMem cfg mem₁ last)
    (h₂ : r₂.FromMem cfg mem₂ last) (hle : last ≤ now) :
    SweepsAlike cfg mem₁ mem₂ r₁ r₂ now ↔
      (r₁.step cfg (.dida now)).2 = (r₂.step cfg (.dida now)).2 ∧
        (∀ t ∈ (r₁.step cfg (.dida now)).1.ch.pending, ¬ r₁.Overdue cfg now t) ∧
        ∀ t ∈ (r₂.step cfg (.dida now)).1.ch.pending, ¬ r₂.Overdue cfg now t := by
  rw [h.dida_iff, h₁.survivors_iff hle, h₂.survivors_iff hle]
  exact ⟨fun ⟨ha, hb, hc⟩ => ⟨ha, hb, hc⟩, fun ⟨ha, hb, hc⟩ => ⟨ha, hb, hc⟩⟩

theorem noneSurvives_cons : NoneSurvives cfg r (op :: ops) ↔
    (∀ now, op = .dida now → ∀ t ∈ (r.step cfg (.dida now)).1.ch.pending, ¬ r.Overdue cfg now t) ∧
      NoneSurvives cfg (r.step cfg op).1 ops :=
  eachDida_cons

/-- The rest of two runs that do not differ in their tables. -/
theorem Twin.timeouts_iff {mem₁ mem₂ : UInt64} (h : Twin r₁ r₂) (h₁ : r₁.FromMem cfg mem₁ last)
    (h₂ : r₂.FromMem cfg mem₂ last) (horder : InOrder last ops) :
    (r₁.timeouts cfg ops = r₂.timeouts cfg ops ∧
        NoneSurvives cfg r₁ ops ∧ NoneSurvives cfg r₂ ops) ↔
      EachDida ops fun pre now =>
        SweepsAlike cfg mem₁ mem₂ (r₁.run cfg pre) (r₂.run cfg pre) now := by
  induction ops generalizing last r₁ r₂ with
  | nil => exact iff_of_true ⟨rfl, eachDida_nil, eachDida_nil⟩ eachDida_nil
  | cons op ops ih =>
      rw [eachDida_cons, noneSurvives_cons, noneSurvives_cons]
      show (_ :: _ = _ :: _ ∧ _) ↔ _
      rw [List.cons.injEq]
      by_cases hop : ∃ now, op = .dida now
      · obtain ⟨now, rfl⟩ := hop
        -- the tables stay the same exactly as long as the condition is met
        have hhead := h.sweepsAlike_iff h₁ h₂ horder.1
        have htail (heq : (r₁.step cfg (.dida now)).2 = (r₂.step cfg (.dida now)).2) :=
          ih (h.dida heq) (h₁.dida horder.1) (h₂.dida horder.1) horder.2
        constructor
        · rintro ⟨⟨heq, hrest⟩, ⟨hnone₁, hrest₁⟩, hnone₂, hrest₂⟩
          refine ⟨?_, (htail heq).mp ⟨hrest, hrest₁, hrest₂⟩⟩
          rintro now' ⟨⟩
          exact hhead.mpr ⟨heq, hnone₁ now rfl, hnone₂ now rfl⟩
        · rintro ⟨hfirst, hrest⟩
          obtain ⟨heq, hnone₁, hnone₂⟩ := hhead.mp (hfirst now rfl)
          obtain ⟨hsame, hrest₁, hrest₂⟩ := (htail heq).mpr hrest
          refine ⟨⟨heq, hsame⟩, ⟨?_, hrest₁⟩, ?_, hrest₂⟩
          · rintro now' ⟨⟩
            exact hnone₁
          · rintro now' ⟨⟩
            exact hnone₂
      · have hnot : ∀ now, op ≠ .dida now := fun now heq => hop ⟨now, heq⟩
        obtain ⟨heq, htwin⟩ := h.step hnot
        have hnext {mem : UInt64} {r : RudpRun M} (hr : r.FromMem cfg mem last) :
            (r.step cfg op).1.FromMem cfg mem (op.lastAfter last) := by
          cases op with
          | futureBegin t clock => exact hr.futureBegin t horder.1
          | evnEnd end_ => exact hr.evnEnd end_
          | dida now => exact absurd rfl (hnot now)
        have htail := ih htwin (hnext h₁) (hnext h₂) horder.tail
        constructor
        · rintro ⟨⟨-, hrest⟩, ⟨-, hrest₁⟩, -, hrest₂⟩
          exact ⟨fun now hdida => absurd hdida (hnot now), htail.mp ⟨hrest, hrest₁, hrest₂⟩⟩
        · rintro ⟨-, hrest⟩
          obtain ⟨hsame, hrest₁, hrest₂⟩ := htail.mpr hrest
          exact ⟨⟨heq, hsame⟩, ⟨fun now hdida => absurd hdida (hnot now), hrest₁⟩,
            fun now hdida => absurd hdida (hnot now), hrest₂⟩

end RudpRun

/-! ## Memory that held an early time -/

/-- Where every `dida` is at least ten seconds later than the times that the two memories
held, each meets the condition: the first one sweeps in both runs, and nothing of the memory
is left. -/
theorem sweepsAlike_of_past {cfg : XscCfg} {mem₁ mem₂ : UInt64} {ops : List (RudpOp M)}
    {r₁ r₂ : RudpRun M} (htwin : RudpRun.Twin r₁ r₂)
    (hlast : r₁ = r₂ ∨ (r₁.ch.lastCheckTransTs = mem₁ ∧ r₂.ch.lastCheckTransTs = mem₂))
    (hpast : EachDida ops fun _ now => mem₁ + 10 * cfg.sec ≤ now ∧ mem₂ + 10 * cfg.sec ≤ now) :
    EachDida ops fun pre now =>
      SweepsAlike cfg mem₁ mem₂ (r₁.run cfg pre) (r₂.run cfg pre) now := by
  induction ops generalizing r₁ r₂ with
  | nil => exact eachDida_nil
  | cons op ops ih =>
      rw [eachDida_cons] at hpast ⊢
      obtain ⟨hfirst, hrest⟩ := hpast
      -- the first `dida` is held back in both runs or in none
      have halike : ∀ now, op = .dida now →
          (r₁.ch.Held cfg.sec now ↔ r₂.ch.Held cfg.sec now) := by
        intro now hop
        obtain ⟨hle₁, hle₂⟩ := hfirst now hop
        rcases hlast with rfl | ⟨hlast₁, hlast₂⟩
        · exact Iff.rfl
        · rw [XmsgImChannel.Held, XmsgImChannel.Held, hlast₁, hlast₂]
          exact iff_of_false (UInt64.not_lt.mpr hle₁) (UInt64.not_lt.mpr hle₂)
      refine ⟨?_, ih ?_ ?_ hrest⟩
      · rintro now rfl
        obtain ⟨hle₁, hle₂⟩ := hfirst now rfl
        exact ⟨.inl (halike now rfl), fun hlt => absurd hlt (UInt64.not_lt.mpr hle₁),
          fun hlt => absurd hlt (UInt64.not_lt.mpr hle₂)⟩
      · by_cases hop : ∃ now, op = .dida now
        · obtain ⟨now, rfl⟩ := hop
          exact htwin.dida (htwin.dida_iff.mpr (.inl (halike now rfl)))
        · exact (htwin.step fun now heq => hop ⟨now, heq⟩).2
      · rcases hlast with rfl | ⟨hlast₁, hlast₂⟩
        · exact .inl rfl
        · by_cases hop : ∃ now, op = .dida now
          · obtain ⟨now, rfl⟩ := hop
            obtain ⟨hle₁, hle₂⟩ := hfirst now rfl
            left
            have hheld₁ : ¬ r₁.ch.Held cfg.sec now := by
              rw [XmsgImChannel.Held, hlast₁]
              exact UInt64.not_lt.mpr hle₁
            have hheld₂ : ¬ r₂.ch.Held cfg.sec now := by
              rw [XmsgImChannel.Held, hlast₂]
              exact UInt64.not_lt.mpr hle₂
            show (r₁.step cfg (.dida now)).1 = (r₂.step cfg (.dida now)).1
            rw [RudpRun.step_dida_of_not_held hheld₁, RudpRun.step_dida_of_not_held hheld₂]
            obtain ⟨last, rfl⟩ := htwin
            rfl
          · have hnot : ∀ now, op ≠ .dida now := fun now heq => hop ⟨now, heq⟩
            right
            rw [RudpRun.step_last hnot, RudpRun.step_last hnot]
            exact ⟨hlast₁, hlast₂⟩

/-! ## The schedule of an established channel -/

/-- In a run of an established RUDP channel, and for two contents of the memory it is
constructed in, the same transactions time out at the same calls of `dida`, and none survives
one at which it is overdue, exactly if each `dida` meets the condition.  They do so whenever
each `dida` is at least ten seconds later than the times that the two memories held. -/
theorem rudp_timeouts_fixed_iff (cfg : XscCfg) (tidSeq : UInt32) (mem₁ mem₂ : UInt64)
    (ops : List (RudpOp M)) (horder : InOrder 0 ops) :
    let r₁ : RudpRun M := { ch := XmsgImRudpChannel.new mem₁ tidSeq }
    let r₂ : RudpRun M := { ch := XmsgImRudpChannel.new mem₂ tidSeq }
    ((r₁.timeouts cfg ops = r₂.timeouts cfg ops ∧
        NoneSurvives cfg r₁ ops ∧ NoneSurvives cfg r₂ ops) ↔
      EachDida ops fun pre now =>
        SweepsAlike cfg mem₁ mem₂ (r₁.run cfg pre) (r₂.run cfg pre) now) ∧
      ((EachDida ops fun _ now => mem₁ + 10 * cfg.sec ≤ now ∧ mem₂ + 10 * cfg.sec ≤ now) →
        r₁.timeouts cfg ops = r₂.timeouts cfg ops ∧
          NoneSurvives cfg r₁ ops ∧ NoneSurvives cfg r₂ ops) := by
  intro r₁ r₂
  have htwin : RudpRun.Twin r₁ r₂ := ⟨mem₂, rfl⟩
  have hiff := htwin.timeouts_iff (RudpRun.fromMem_new cfg mem₁ 0 tidSeq)
    (RudpRun.fromMem_new cfg mem₂ 0 tidSeq) horder
  exact ⟨hiff, fun hpast => hiff.mpr (sweepsAlike_of_past htwin (.inr ⟨rfl, rfl⟩) hpast)⟩

/-! A transaction is begun at 1000 with a timeout of 10000, and `dida` is called at 25000.  On
memory that held 0 it times out.  On memory that held a time close to the largest one the
sweep is held back, and the transaction survives. -/

/-- The channel on memory that held `mem`. -/
def RudpRun.sample (mem : UInt64) : RudpRun SampleMsg := { ch := XmsgImRudpChannel.new mem 0 }

/-- The operations. -/
def RudpRun.sampleOps : List (RudpOp SampleMsg) :=
  [.futureBegin (XmsgImChannel.begin_ 1 1000 (.ping, []) none) 1000, .dida 25000]

theorem rudp_timeouts_fixed_counterexample :
    InOrder 0 RudpRun.sampleOps ∧
      (RudpRun.sample 0).timeouts sampleCfg RudpRun.sampleOps ≠
        (RudpRun.sample 0xFFFFFFFFFFFF0000).timeouts sampleCfg RudpRun.sampleOps ∧
      ¬ NoneSurvives sampleCfg (RudpRun.sample 0xFFFFFFFFFFFF0000) RudpRun.sampleOps := by
  refine ⟨⟨by decide, by decide, trivial⟩, by decide, ?_⟩
  intro hnone
  have hover := hnone [.futureBegin (XmsgImChannel.begin_ 1 1000 (.ping, []) none) 1000] 25000
    [] rfl
    { XmsgImChannel.begin_ 1 1000 (.ping, []) none with stid := 1 } (by decide)
  apply hover
  unfold RudpRun.Overdue
  decide

theorem rudp_timeouts_fixed_iff_sample :
    (RudpRun.sample 0).timeouts sampleCfg RudpRun.sampleOps =
        (RudpRun.sample 15000).timeouts sampleCfg RudpRun.sampleOps ∧
      NoneSurvives sampleCfg (RudpRun.sample 0) RudpRun.sampleOps ∧
      NoneSurvives sampleCfg (RudpRun.sample 15000) RudpRun.sampleOps := by
  have horder : InOrder 0 RudpRun.sampleOps := ⟨by decide, by decide, trivial⟩
  have hpast : EachDida RudpRun.sampleOps fun _ now =>
      (0 : UInt64) + 10 * sampleCfg.sec ≤ now ∧ 15000 + 10 * sampleCfg.sec ≤ now := by
    unfold RudpRun.sampleOps
    rw [eachDida_cons, eachDida_cons]
    refine ⟨?_, ?_, eachDida_nil⟩
    · rintro now ⟨⟩
    · rintro now ⟨⟩
      decide
  exact (rudp_timeouts_fixed_iff sampleCfg 0 0 15000 RudpRun.sampleOps horder).2 hpast

/-! ## The runs are those of the life of a channel -/

/-- What the worker executes in the life of an established channel is an operation of the
run. -/
theorem LifeStep.rudp_step {cfg : XscCfg} {K : XscProto} {pb : Protobuf D M}
    {s s' : ChannelLife M} {a : LifeAct M} (hstep : LifeStep cfg K pb s a s')
    (hest : s.est = true) (r : RudpRun M) (hr : r.ch = s.exec.ch) :
    (a = .runFuture → ∃ t, ∀ clock, s'.exec.ch = (r.step cfg (.futureBegin t clock)).1.ch) ∧
      (∀ pdu end_, a = .evnEnd pdu end_ → s'.exec.ch = (r.step cfg (.evnEnd end_)).1.ch) ∧
      ∀ now, a = .dida now → s'.exec.ch = (r.step cfg (.dida now)).1.ch ∧
        s'.exec.removed =
          (r.step cfg (.dida now)).2.map (⟨·, .bySweep⟩) ++ s.exec.removed := by
  refine ⟨?_, ?_, ?_⟩
  · rintro rfl
    rcases hstep.exec_cases with ⟨-, t, hbegin⟩ | ⟨now, habs, -⟩ | ⟨habs, -⟩
    · refine ⟨t, fun _ => ?_⟩
      rw [hbegin.eq_futureBegin]
      show (s.exec.ch.futureBegin t).1 = (r.ch.futureBegin t).1
      rw [hr]
    · cases habs
    · exact absurd habs id
  · rintro pdu end_ rfl
    cases hstep with
    | evnEnd hend =>
        cases hend with
        | evnEnd =>
            show (s.exec.evnEnd K pb pdu end_).ch = (r.ch.evnEnd end_).1
            rw [Exec.evnEnd, Exec.takeOut_ch, hr]
  · rintro now rfl
    rw [hstep.eq_goOn_dida, ChannelLife.goOn, ChannelLife.dida_of_est hest]
    constructor
    · show (s.exec.checkTransInit K pb _ _ _).ch = (r.ch.checkTransInit _ _ _).1
      rw [Exec.checkTransInit, Exec.takeOut_ch, hr]
    · show (s.exec.checkTransInit K pb _ _ _).removed = (r.ch.checkTransInit _ _ _).2.map _ ++ _
      rw [Exec.checkTransInit, Exec.takeOut_removed, hr]

end XmsgImXsc
