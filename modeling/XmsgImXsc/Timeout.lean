/-
# XmsgImXsc.Timeout -- the timeout sweep of a TCP channel

`dida` is called from time to time, and when the channel is established it sweeps the table
of outstanding transactions, unless the last sweep was less than ten seconds ago.  An entry
is not in the table from the creation of its transaction on: `begin` queues a closure that
inserts it.  `TimedLife` is the life of a channel with the clock and the time at which the
entry under each tid was inserted.
-/
import XmsgImXsc.Lib.Sweep
import XmsgImXsc.ChannelLoss
import Mathlib.Algebra.GroupWithZero.Nat

namespace XmsgImXsc

open Lts Sweeps

variable {D M : Type}

/-! ## One sweep

A sweep is held back by the throttle, or it takes out all transactions past their deadline and
no others.  What is left is then covered: it was inserted since, or its deadline lies ahead. -/

/-- `trans->gts + tm`, as `checkTransInit` computes it. -/
def XmsgImTransInitiative.deadline (tm : Int32) (trans : XmsgImTransInitiative M) : UInt64 :=
  trans.gts + tm.toInt64.toUInt64

namespace XmsgImChannel

variable {c c' : XmsgImChannel M} {sec now : UInt64} {tm : Int32} {ins ins' : UInt32 → UInt64}
  {t : XmsgImTransInitiative M}

/-- `now < this->lastCheckTransTs + 10 * DateMisc::sec`: the sweep is held back. -/
def Held (sec : UInt64) (c : XmsgImChannel M) (now : UInt64) : Prop :=
  now < c.lastCheckTransTs + 10 * sec

instance : Decidable (Held sec c now) := inferInstanceAs (Decidable (_ < _))

/-- A sweep that is held back does nothing. -/
theorem checkTransInit_of_held (h : c.Held sec now) (tm : Int32) :
    c.checkTransInit sec tm now = (c, []) :=
  if_pos h

/-- Another takes out all that is due and stamps the channel. -/
theorem checkTransInit_of_not_held (h : ¬ c.Held sec now) (tm : Int32) :
    c.checkTransInit sec tm now =
      ({ c with
          transInit := Tables.filter (notExpired tm now) c.transInit
          lastCheckTransTs := now },
        c.pending.filter fun trans => !notExpired tm now trans) :=
  if_neg h

/-- Nothing is taken out before its deadline. -/
theorem mem_checkTransInit (h : t ∈ (c.checkTransInit sec tm now).2) :
    t ∈ c.pending ∧ t.deadline tm ≤ now := by
  by_cases hheld : c.Held sec now
  · rw [checkTransInit_of_held hheld] at h
    simp at h
  · rw [checkTransInit_of_not_held hheld] at h
    obtain ⟨hmem, hdue⟩ := List.mem_filter.mp h
    refine ⟨hmem, ?_⟩
    simpa [notExpired, XmsgImTransInitiative.deadline] using hdue

/-- A sweep that is not held back leaves what is not due. -/
theorem pending_checkTransInit (h : ¬ c.Held sec now)
    (ht : t ∈ (c.checkTransInit sec tm now).1.pending) : t ∈ c.pending ∧ now < t.deadline tm := by
  rw [checkTransInit_of_not_held h, pending, Tables.mem_values_iff] at ht
  obtain ⟨k, hk⟩ := ht
  have hmem := List.mem_filter.mp (AList.mem_lookup_iff.mp hk)
  refine ⟨Tables.mem_values_iff.mpr ⟨k, AList.mem_lookup_iff.mpr hmem.1⟩, ?_⟩
  simpa [notExpired, XmsgImTransInitiative.deadline] using hmem.2

theorem checkTransInit_last_le {clock : UInt64} (hlast : c.lastCheckTransTs ≤ clock)
    (hnow : now ≤ clock) : (c.checkTransInit sec tm now).1.lastCheckTransTs ≤ clock := by
  by_cases hheld : c.Held sec now
  · rw [checkTransInit_of_held hheld]
    exact hlast
  · rw [checkTransInit_of_not_held hheld]
    exact hnow

/-- The entries of a table and the last sweep; `ins` is the time at which the entry under a
tid was inserted. -/
def CoveredBySweep (tm : Int32) (ins : UInt32 → UInt64) (c : XmsgImChannel M) : Prop :=
  Covered (fun t : XmsgImTransInitiative M => (t.deadline tm).toNat)
    (fun t => (ins t.stid).toNat) c.lastCheckTransTs.toNat {t | t ∈ c.pending}

/-- Ten seconds, added to a time stamp, may wrap around. -/
theorem Held.lt (h : c.Held sec now) :
    now.toNat < c.lastCheckTransTs.toNat + 10 * sec.toNat := by
  have hlt : now.toNat < (c.lastCheckTransTs + 10 * sec).toNat := h
  rw [UInt64.toNat_add, UInt64.toNat_mul] at hlt
  have hten : (10 : UInt64).toNat = 10 := rfl
  rw [hten] at hlt
  omega

/-- Taking entries out of the table keeps the rest covered. -/
theorem CoveredBySweep.sub (h : c.CoveredBySweep tm ins) (hsub : c'.pending ⊆ c.pending)
    (hlast : c'.lastCheckTransTs = c.lastCheckTransTs) : c'.CoveredBySweep tm ins := by
  unfold CoveredBySweep
  rw [hlast]
  exact h.mono fun _ ht => hsub ht

/-- So does inserting an entry later than the last sweep. -/
theorem CoveredBySweep.futureBegin (h : c.CoveredBySweep tm ins) (hkeyed : c.Keyed)
    (trans : XmsgImTransInitiative M) (hlast : c.lastCheckTransTs ≤ now) :
    (c.futureBegin trans).1.CoveredBySweep tm
      (Function.update ins (c.futureBegin trans).2.stid now) := by
  apply Covered.update h
  intro t ht
  have ht : t ∈ (c.futureBegin trans).1.pending := ht
  rw [futureBegin_pending] at ht
  rcases List.mem_cons.mp ht with rfl | ht
  · right
    rw [Function.update_self]
    exact hlast
  · -- the other entries are under other tids
    obtain ⟨k, hk⟩ := Tables.mem_values_iff.mp ht
    have hlook := Tables.lookup_of_erase hk
    have hne : t.stid ≠ (c.futureBegin trans).2.stid := by
      rw [hkeyed k t hlook]
      rintro rfl
      have hnone : (c.transInit.erase (c.tidSeq + 1)).lookup (c.tidSeq + 1) = none :=
        AList.lookup_erase _ _
      have hsome : (c.transInit.erase (c.tidSeq + 1)).lookup (c.tidSeq + 1) = some t := hk
      rw [hnone] at hsome
      cases hsome
    left
    refine ⟨Tables.mem_values_iff.mpr ⟨k, hlook⟩, ?_⟩
    rw [Function.update_of_ne hne]

/-- A sweep that is not held back covers what it leaves, whatever was there before. -/
theorem coveredBySweep_of_not_held (h : ¬ c.Held sec now) (tm : Int32) (ins : UInt32 → UInt64) :
    (c.checkTransInit sec tm now).1.CoveredBySweep tm ins := by
  have hlast : (c.checkTransInit sec tm now).1.lastCheckTransTs = now := by
    rw [checkTransInit_of_not_held h]
  unfold CoveredBySweep
  rw [hlast]
  exact covered_of_swept fun _ ht => (pending_checkTransInit h ht).2

/-- A sweep, held back or not, keeps the entries covered and bounds the time of each. -/
theorem CoveredBySweep.checkTransInit (h : c.CoveredBySweep tm ins) (sec now : UInt64) :
    (c.checkTransInit sec tm now).1.CoveredBySweep tm ins ∧
      ∀ t ∈ (c.checkTransInit sec tm now).1.pending,
        now.toNat < max (t.deadline tm).toNat (ins t.stid).toNat + 10 * sec.toNat := by
  by_cases hheld : c.Held sec now
  · -- held back, the last sweep is less than ten seconds ago
    rw [checkTransInit_of_held hheld]
    exact ⟨h, Covered.bound h hheld.lt⟩
  · -- otherwise nothing that is due is left
    have hswept : ∀ t ∈ (c.checkTransInit sec tm now).1.pending,
        now.toNat < (t.deadline tm).toNat := by
      intro t ht
      exact (pending_checkTransInit hheld ht).2
    exact ⟨coveredBySweep_of_not_held hheld tm ins, bound_of_swept hswept⟩

end XmsgImChannel

/-! ## The other steps

Apart from insertions and sweeps every step only takes entries out. -/

/-- The actions that neither insert an entry nor sweep. -/
def Act.Quiet : Act M → Prop
  | .futureBegin _ => False
  | .checkTransInit _ _ _ => False
  | _ => True

/-- The steps in the life of a channel that insert no entry. -/
def LifeAct.NoInsert : LifeAct M → Prop
  | .runFuture => False
  | _ => True

/-- What the sweep relies on is the same in `e'`, but for entries taken out otherwise. -/
structure Exec.Quiet (cfg : XscCfg) (e e' : Exec M) : Prop where
  pending : e'.ch.pending ⊆ e.ch.pending
  last : e'.ch.lastCheckTransTs = e.ch.lastCheckTransTs
  timeout : e'.ch.n2hTransTimeout cfg = e.ch.n2hTransTimeout cfg
  removed : ∀ b ∈ e'.removed, b ∉ e.removed → b.by_ ≠ .bySweep

section Quiet

variable {cfg : XscCfg} {K : XscProto} {pb : Protobuf D M} {e e' : Exec M} {a : Act M}

theorem Exec.Quiet.refl (e : Exec M) : e.Quiet cfg e :=
  ⟨fun _ ht => ht, rfl, rfl, fun _ hb hnot => absurd hb hnot⟩

theorem Exec.takeOut_quiet {ch : XmsgImChannel M} {ts : List (XmsgImTransInitiative M)}
    {r : Removal} (htake : e.ch.TakesOut ch ts)
    (hlast : ch.lastCheckTransTs = e.ch.lastCheckTransTs) (hat : ch.at_ = e.ch.at_)
    (hr : r ≠ .bySweep) :
    e.Quiet cfg (e.takeOut K pb ch (ts.map (⟨·, r⟩))) where
  pending := by
    rw [takeOut_ch]
    exact htake.pending_subset
  last := by
    rw [takeOut_ch]
    exact hlast
  timeout := by
    rw [takeOut_ch]
    exact XmsgImChannel.n2hTransTimeout_congr cfg htake.pro hat
  removed := by
    rw [takeOut_removed]
    intro b hb hnot
    rcases List.mem_append.mp hb with hb | hb
    · obtain ⟨t, -, rfl⟩ := List.mem_map.mp hb
      exact hr
    · exact absurd hb hnot

/-- A quiet action only takes entries out. -/
theorem Step.quiet (hstep : Step K pb e a e') (ha : a.Quiet) : e.Quiet cfg e' := by
  cases hstep with
  | futureBegin trans => exact absurd ha id
  | checkTransInit sec tm now => exact absurd ha id
  | genTid => exact ⟨fun _ ht => ht, rfl, rfl, fun _ hb hnot => absurd hb hnot⟩
  | evnEnd pdu end_ _ =>
      apply Exec.takeOut_quiet (e.ch.evnEnd_takesOut end_)
      · simp
      · simp
      · exact Removal.noConfusion
  | cleanTransInit =>
      exact Exec.takeOut_quiet e.ch.cleanTransInit_takesOut rfl rfl Removal.noConfusion
  | clean =>
      apply Exec.takeOut_quiet e.ch.clean_takesOut
      · unfold XmsgImChannel.clean
        split <;> rfl
      · unfold XmsgImChannel.clean
        split <;> rfl
      · exact Removal.noConfusion
  | cbReturn hstack =>
      refine ⟨?_, ?_, ?_, ?_⟩
      · rw [Exec.enter_ch]
        exact fun _ ht => ht
      · rw [Exec.enter_ch]
      · rw [Exec.enter_ch]
      · rw [Exec.enter_removed]
        exact fun _ hb hnot => absurd hb hnot
  | rehash t hperm =>
      refine ⟨?_, rfl, rfl, fun _ hb hnot => absurd hb hnot⟩
      intro t' ht'
      exact (hperm.map _).mem_iff.mp ht'

/-- What a step in the life of a channel does to the channel. -/
theorem LifeStep.exec_cases {s s' : ChannelLife M} {a : LifeAct M}
    (hstep : LifeStep cfg K pb s a s') :
    (a = .runFuture ∧ ∃ trans, Step K pb s.exec (.futureBegin trans) s'.exec) ∨
    (∃ now, a = .dida now ∧ s.est = true ∧
      s'.exec = s.exec.checkTransInit K pb cfg.sec (s.exec.ch.n2hTransTimeout cfg) now) ∨
    (a.NoInsert ∧ (s'.exec = s.exec ∨ ∃ b : Act M, Step K pb s.exec b s'.exec ∧ b.Quiet)) := by
  cases hstep with
  | runFuture _ _ hbegin => exact .inl ⟨rfl, _, hbegin⟩
  | begin_ trans => exact .inr (.inr ⟨trivial, .inl rfl⟩)
  | evnEnd hend => exact .inr (.inr ⟨trivial, .inr ⟨_, hend, trivial⟩⟩)
  | lose _ => exact .inr (.inr ⟨trivial, .inl rfl⟩)
  | clean _ _ => exact .inr (.inr ⟨trivial, .inr ⟨_, .clean s.exec, trivial⟩⟩)
  | establish _ _ => exact .inr (.inr ⟨trivial, .inl rfl⟩)
  | cbReturn hreturn => exact .inr (.inr ⟨trivial, .inr ⟨_, hreturn, trivial⟩⟩)
  | rehash hperm => exact .inr (.inr ⟨trivial, .inr ⟨_, hperm, trivial⟩⟩)
  | dida now =>
      cases hest : s.est with
      | false => exact .inr (.inr ⟨trivial, .inl (ChannelLife.dida_of_down hest now)⟩)
      | true => exact .inr (.inl ⟨now, rfl, rfl, ChannelLife.dida_of_est hest now⟩)

theorem LifeStep.eq_goOn_dida {s s' : ChannelLife M} {now : UInt64}
    (hstep : LifeStep cfg K pb s (.dida now) s') : s' = s.goOn (s.dida cfg K pb now) := by
  cases hstep with
  | dida => rfl

/-- The channel of a life runs as any channel does. -/
theorem LifeStep.exec_step {s s' : ChannelLife M} {a : LifeAct M}
    (hstep : LifeStep cfg K pb s a s') :
    s'.exec = s.exec ∨ ∃ b, Step K pb s.exec b s'.exec := by
  rcases hstep.exec_cases with ⟨-, trans, hbegin⟩ | ⟨now, -, -, heq⟩ | ⟨-, heq | ⟨b, hb, -⟩⟩
  · exact .inr ⟨_, hbegin⟩
  · rw [heq]
    exact .inr ⟨_, .checkTransInit _ _ _ _⟩
  · exact .inl heq
  · exact .inr ⟨b, hb⟩

end Quiet

/-! ## Timed runs -/

/-- The life of a channel with the clock and the time at which the entry under each tid was
inserted. -/
structure TimedLife (M : Type) where
  life : ChannelLife M
  clock : UInt64
  ins : UInt32 → UInt64 := fun _ => 0

/-- The clock advances, or something happens to the channel. -/
inductive TimedAct (M : Type) where
  | advance (clock : UInt64)
  | life (a : LifeAct M)

namespace TimedLife

/-- The times a step names are readings of the clock, maybe of a while ago: the creation time
of a transaction when its closure is queued, and the time `dida` is called with. -/
def InTime (s : TimedLife M) : LifeAct M → Prop
  | .begin_ t => t.gts ≤ s.clock
  | .dida now => now ≤ s.clock
  | _ => True

/-- `runFuture` inserts its entry under the tid it draws. -/
def insAfter (s : TimedLife M) : LifeAct M → UInt32 → UInt64
  | .runFuture => Function.update s.ins s.life.exec.ch.genTid.2 s.clock
  | _ => s.ins

/-- The outstanding transactions. -/
def pending (s : TimedLife M) : List (XmsgImTransInitiative M) := s.life.exec.ch.pending

/-- The guard of the runs in which no sum of a creation time and the timeout wraps around. -/
def NoWrap (tm : Int32) (s : TimedLife M) : TimedAct M → Prop
  | .life (.dida _) => ∀ t ∈ s.pending, t.gts.toNat + tm.toNatClampNeg < 2 ^ 64
  | _ => True

/-- The guard of the runs that insert no entry. -/
def NoInsert (_ : TimedLife M) : TimedAct M → Prop
  | .life a => a.NoInsert
  | .advance _ => True

end TimedLife

/-- Time goes on, or the channel does something at the time it is. -/
inductive TimedStep (cfg : XscCfg) (K : XscProto) (pb : Protobuf D M) :
    TimedLife M → TimedAct M → TimedLife M → Prop
  | advance (s) (clock) : s.clock ≤ clock →
      TimedStep cfg K pb s (.advance clock) { s with clock := clock }
  | life (s) {a life'} : s.InTime a → LifeStep cfg K pb s.life a life' →
      TimedStep cfg K pb s (.life a) { s with life := life', ins := s.insAfter a }

/-- A TCP channel as constructed, with `tm` for its timeout. -/
structure TimedLife.Fresh (cfg : XscCfg) (tm : Int32) (s : TimedLife M) : Prop where
  life : s.life.Fresh
  pro : s.life.exec.ch.pro = .XSC_PROTOCOL_TCP
  timeout : s.life.exec.ch.n2hTransTimeout cfg = tm
  last : s.life.exec.ch.lastCheckTransTs = s.clock

/-- The lives of a channel with the configured timeout `tm`, from its construction. -/
def timedSystem (cfg : XscCfg) (K : XscProto) (pb : Protobuf D M) (tm : Int32) :
    System (TimedLife M) (TimedAct M) where
  init := TimedLife.Fresh cfg tm
  step := TimedStep cfg K pb

namespace TimedLife

variable {cfg : XscCfg} {K : XscProto} {pb : Protobuf D M} {tm : Int32} {s s' : TimedLife M}
  {a : TimedAct M} {G : TimedLife M → TimedAct M → Prop}

/-- The channel of a timed run runs as any channel does. -/
theorem reachable_exec (h : Reachable (timedSystem cfg K pb tm) G s) :
    Reachable (execSystem K pb) Always s.life.exec := by
  refine h.project (fun s => s.life.exec) ?_ ?_
  · intro s hfresh
    exact hfresh.life.exec
  · intro s a s' _ _ hstep
    have hstep : TimedStep cfg K pb s a s' := hstep
    cases hstep with
    | advance clock _ => exact .inl rfl
    | life _ hlife =>
        rcases hlife.exec_step with heq | ⟨b, hb⟩
        · exact .inl heq
        · exact .inr ⟨b, trivial, hb⟩

/-- What relates the table of a timed run to the last sweep. -/
structure Inv (cfg : XscCfg) (tm : Int32) (s : TimedLife M) : Prop where
  timeout : s.life.exec.ch.n2hTransTimeout cfg = tm
  last : s.life.exec.ch.lastCheckTransTs ≤ s.clock
  covered : s.life.exec.ch.CoveredBySweep tm s.ins

theorem Fresh.inv (h : s.Fresh cfg tm) : s.Inv cfg tm where
  timeout := h.timeout
  last := by
    rw [h.last]
    exact UInt64.le_refl _
  covered := by
    intro t ht
    have hnil : s.life.exec.ch.pending = [] :=
      XmsgImChannel.pending_eq_nil_iff.mpr h.life.exec.transInit
    have ht : t ∈ s.life.exec.ch.pending := ht
    rw [hnil] at ht
    simp at ht

/-- Nothing inserted, no insertion time changed. -/
theorem insAfter_of_noInsert {a : LifeAct M} (ha : a.NoInsert) : s.insAfter a = s.ins := by
  cases a with
  | runFuture => exact absurd ha id
  | _ => rfl

/-- A step of the life of the channel keeps the invariant. -/
theorem Inv.life (h : s.Inv cfg tm) (hkeyed : s.life.exec.ch.Keyed) {a : LifeAct M}
    {life' : ChannelLife M} (htime : s.InTime a) (hstep : LifeStep cfg K pb s.life a life') :
    ({ s with life := life', ins := s.insAfter a } : TimedLife M).Inv cfg tm := by
  rcases hstep.exec_cases with ⟨rfl, trans, hbegin⟩ | ⟨now, rfl, -, heq⟩ | ⟨ha, hexec⟩
  · -- an entry is inserted, not before the last sweep
    have heq := hbegin.eq_futureBegin
    refine ⟨?_, ?_, ?_⟩
    · show life'.exec.ch.n2hTransTimeout cfg = tm
      rw [heq, ← h.timeout]
      exact XmsgImChannel.n2hTransTimeout_congr cfg rfl rfl
    · show life'.exec.ch.lastCheckTransTs ≤ s.clock
      rw [heq]
      exact h.last
    · show life'.exec.ch.CoveredBySweep tm (s.insAfter .runFuture)
      rw [heq]
      exact h.covered.futureBegin hkeyed trans h.last
  · -- the table is swept at a time the clock has reached
    have hch : life'.exec.ch = (s.life.exec.ch.checkTransInit cfg.sec tm now).1 := by
      rw [heq, Exec.checkTransInit, Exec.takeOut_ch, h.timeout]
    refine ⟨?_, ?_, ?_⟩
    · show life'.exec.ch.n2hTransTimeout cfg = tm
      rw [hch, ← h.timeout]
      apply XmsgImChannel.n2hTransTimeout_congr
      · exact (s.life.exec.ch.checkTransInit_takesOut _ _ _).pro
      · simp
    · show life'.exec.ch.lastCheckTransTs ≤ s.clock
      rw [hch]
      exact XmsgImChannel.checkTransInit_last_le h.last htime
    · show life'.exec.ch.CoveredBySweep tm s.ins
      rw [hch]
      exact (h.covered.checkTransInit cfg.sec now).1
  · -- entries are taken out in another way, or none are
    have hquiet : s.life.exec.Quiet cfg life'.exec := by
      rcases hexec with heq | ⟨b, hb, hb'⟩
      · rw [heq]
        exact .refl _
      · exact hb.quiet hb'
    refine ⟨hquiet.timeout.trans h.timeout, ?_, ?_⟩
    · show life'.exec.ch.lastCheckTransTs ≤ s.clock
      rw [hquiet.last]
      exact h.last
    · show life'.exec.ch.CoveredBySweep tm (s.insAfter a)
      rw [insAfter_of_noInsert ha]
      exact h.covered.sub hquiet.pending hquiet.last

theorem reachable_inv (h : Reachable (timedSystem cfg K pb tm) G s) : s.Inv cfg tm := by
  apply h.invariant_using (I := Inv cfg tm) (J := fun s => s.life.exec.ch.Keyed)
  · intro s hr
    exact (XmsgImXsc.reachable_inv (reachable_exec hr)).keyed
  · intro s hfresh
    exact Fresh.inv hfresh
  · intro s a s' hkeyed hinv _ hstep
    have hstep : TimedStep cfg K pb s a s' := hstep
    cases hstep with
    | advance clock hle => exact ⟨hinv.timeout, UInt64.le_trans hinv.last hle, hinv.covered⟩
    | life htime hlife => exact hinv.life hkeyed htime hlife

/-! ## When transactions time out

The deadline is in 64-bit arithmetic and `tm` is a signed 32-bit number; where nothing wraps
around the comparison is one of natural numbers. -/

/-- The sweep takes transactions out in `dida` only, while the channel is established, and
none before its deadline. -/
theorem step_swept (h : s.Inv cfg tm) (hstep : TimedStep cfg K pb s a s') {b : Taken M}
    (hb : b ∈ s'.life.exec.removed) (hnot : b ∉ s.life.exec.removed) (hby : b.by_ = .bySweep) :
    ∃ now, a = .life (.dida now) ∧ s.life.est = true ∧ b.trans ∈ s.pending ∧
      b.trans.deadline tm ≤ now := by
  cases hstep with
  | advance clock _ => exact absurd hb hnot
  | life _ hlife =>
      rcases hlife.exec_cases with ⟨-, trans, hbegin⟩ | ⟨now, rfl, hest, heq⟩ | ⟨-, hexec⟩
      · have hremoved := congrArg Exec.removed hbegin.eq_futureBegin
        rw [hremoved] at hb
        exact absurd hb hnot
      · rw [heq, Exec.checkTransInit, Exec.takeOut_removed, h.timeout] at hb
        rcases List.mem_append.mp hb with hb | hb
        · -- `b` is one of those this sweep takes out
          obtain ⟨t, ht, rfl⟩ := List.mem_map.mp hb
          obtain ⟨hmem, hdue⟩ := XmsgImChannel.mem_checkTransInit ht
          exact ⟨now, rfl, hest, hmem, hdue⟩
        · exact absurd hb hnot
      · rcases hexec with heq | ⟨c, hc, hquiet⟩
        · rw [heq] at hb
          exact absurd hb hnot
        · have hsame : s.life.exec.Quiet cfg _ := hc.quiet hquiet
          exact absurd hby (hsame.removed b hb hnot)

/-- Without an insertion the table does not grow. -/
theorem reachable_noInsert (h : Reachable ((timedSystem cfg K pb tm).startingAt s) NoInsert s') :
    s'.pending ⊆ s.pending ∧ s'.ins = s.ins := by
  apply h.invariant (I := fun s' => s'.pending ⊆ s.pending ∧ s'.ins = s.ins)
  · intro s' hinit
    have heq : s' = s := hinit
    rw [heq]
    exact ⟨fun _ ht => ht, rfl⟩
  · rintro s₁ a s₂ ⟨hsub, hins⟩ hG hstep
    have hstep : TimedStep cfg K pb s₁ a s₂ := hstep
    cases hstep with
    | advance clock _ => exact ⟨hsub, hins⟩
    | life _ hlife =>
        have hG := hG
        refine ⟨?_, (insAfter_of_noInsert hG).trans hins⟩
        rcases hlife.exec_cases with ⟨rfl, -⟩ | ⟨now, -, -, heq⟩ | ⟨-, heq | ⟨b, hb, hquiet⟩⟩
        · exact absurd hG id
        · intro t ht
          have ht : t ∈ _ := ht
          rw [pending, heq, Exec.checkTransInit, Exec.takeOut_ch] at ht
          exact hsub ((s₁.life.exec.ch.checkTransInit_takesOut _ _ _).pending_subset ht)
        · intro t ht
          have ht : t ∈ _ := ht
          rw [pending, heq] at ht
          exact hsub ht
        · have hsame : s₁.life.exec.Quiet cfg _ := hb.quiet hquiet
          intro t ht
          exact hsub (hsame.pending ht)

end TimedLife

/-- A timeout that is not negative is added to the creation time as it is. -/
theorem XmsgImTransInitiative.deadline_toNat {tm : Int32} (htm : 0 ≤ tm)
    (t : XmsgImTransInitiative M) :
    (t.deadline tm).toNat = (t.gts.toNat + tm.toNatClampNeg) % 2 ^ 64 := by
  have hnonneg : (0 : Int64) ≤ tm.toInt64 := by
    rw [Int64.le_iff_toInt_le, Int32.toInt_toInt64]
    exact Int32.le_iff_toInt_le.mp htm
  rw [deadline, UInt64.toNat_add, Int64.toNat_toUInt64_of_le hnonneg, Int32.toNatClampNeg_toInt64]

/-- In every run of a TCP channel with a timeout `tm` that is not negative, in which no sum of
a creation time and `tm` wraps around: a callback with "local timeout" goes back to a `dida`
of the run that found its transaction outstanding and due.  And when `dida` is called with
`now` on the established channel, `now` is less than ten seconds later than the time at which
a transaction that it leaves in the table was due, or inserted if that was later. -/
theorem timeouts_exact_and_bounded (cfg : XscCfg) (K : XscProto) (pb : Protobuf D M) {tm : Int32}
    (htm : 0 ≤ tm) {s : TimedLife M}
    (h : Reachable (timedSystem cfg K pb tm) (TimedLife.NoWrap tm) s) :
    (∀ i ∈ s.life.exec.invoked, i.1.by_ = .bySweep →
      ∃ s₀ now s₁, Reachable (timedSystem cfg K pb tm) (TimedLife.NoWrap tm) s₀ ∧
        TimedStep cfg K pb s₀ (.life (.dida now)) s₁ ∧
        Reachable ((timedSystem cfg K pb tm).startingAt s₁) (TimedLife.NoWrap tm) s ∧
        s₀.life.est = true ∧ i.1.trans ∈ s₀.pending ∧
        i.1.trans.gts.toNat + tm.toNatClampNeg ≤ now.toNat) ∧
    (∀ now s₁, TimedStep cfg K pb s (.life (.dida now)) s₁ → s.life.est = true →
      ∀ s₂, Reachable ((timedSystem cfg K pb tm).startingAt s₁) TimedLife.NoInsert s₂ →
        ∀ t ∈ s₂.pending, now.toNat <
          max (t.gts.toNat + tm.toNatClampNeg) (s₂.ins t.stid).toNat + 10 * cfg.sec.toNat) := by
  constructor
  · intro i hi hby
    have hbooks := (reachable_inv (TimedLife.reachable_exec h)).books
    have hremoved : i.1 ∈ s.life.exec.removed :=
      hbooks.queued.mem_iff.mpr (List.mem_append_right _ (List.mem_map_of_mem hi))
    -- the step at which the transaction was taken out
    obtain ⟨s₀, a, s₁, h₀, hguard, hstep, hnot, hyes, hafter⟩ :=
      h.exists_began (P := fun s => i.1 ∈ s.life.exec.removed)
        (by
          intro s hfresh
          have hnil := (TimedLife.Fresh.life hfresh).exec.removed
          rw [hnil]
          exact List.not_mem_nil) hremoved
    have hstep : TimedStep cfg K pb s₀ a s₁ := hstep
    obtain ⟨now, rfl, hest, hmem, hdue⟩ :=
      TimedLife.step_swept (TimedLife.reachable_inv h₀) hstep hyes hnot hby
    refine ⟨s₀, now, s₁, h₀, hstep, hafter, hest, hmem, ?_⟩
    have hwrap : i.1.trans.gts.toNat + tm.toNatClampNeg < 2 ^ 64 := hguard _ hmem
    have hle : (i.1.trans.deadline tm).toNat ≤ now.toNat := hdue
    rw [XmsgImTransInitiative.deadline_toNat htm, Nat.mod_eq_of_lt hwrap] at hle
    exact hle
  · intro now s₁ hstep hest s₂ h₂ t ht
    have hinv := TimedLife.reachable_inv h
    -- it is enough to look at what the sweep itself leaves
    obtain ⟨hsub, hins⟩ := TimedLife.reachable_noInsert h₂
    have ht := hsub ht
    rw [hins]
    cases hstep with
    | life _ hlife =>
        have hswept : t ∈ (s.life.exec.ch.checkTransInit cfg.sec tm now).1.pending := by
          have hexec := congrArg ChannelLife.exec hlife.eq_goOn_dida
          rw [ChannelLife.goOn, ChannelLife.dida_of_est hest, hinv.timeout] at hexec
          rw [TimedLife.pending, hexec, Exec.checkTransInit, Exec.takeOut_ch] at ht
          exact ht
        have hbound := (hinv.covered.checkTransInit cfg.sec now).2 t hswept
        rw [XmsgImTransInitiative.deadline_toNat htm] at hbound
        have hmod := Nat.mod_le (t.gts.toNat + tm.toNatClampNeg) (2 ^ 64)
        show now.toNat < max _ (s.ins t.stid).toNat + _
        omega

/-! A transaction is begun at 8000.  The sweep at 11000 finds it not due, and the one at 20000
is held back, so it is still outstanding then, 2000 after its deadline. -/

/-- A TCP channel constructed at 0. -/
def TimedLife.start : TimedLife SampleMsg where
  life := ChannelLife.start .XSC_PROTOCOL_TCP
  clock := 0

/-- The channel at `clock`, with the transaction outstanding. -/
def TimedLife.waiting (clock : UInt64) : TimedLife SampleMsg where
  life := { TimedLife.start.life with
    exec := TimedLife.start.life.exec.futureBegin (XmsgImChannel.begin_ 1 8000 (.ping, []) none) }
  clock := clock
  ins := Function.update (fun _ => 0) 1 8000

theorem TimedLife.waiting_reachable :
    Reachable (timedSystem sampleCfg .sample samplePb 10000) (TimedLife.NoWrap 10000)
      (TimedLife.waiting 11000) := by
  have hstart : TimedLife.start.Fresh sampleCfg 10000 :=
    ⟨⟨Exec.start_fresh _, .inl rfl, rfl, rfl⟩, rfl, rfl, rfl⟩
  have hclock : Reachable (timedSystem sampleCfg .sample samplePb 10000)
      (TimedLife.NoWrap 10000) { TimedLife.start with clock := 8000 } :=
    .step (a := .advance 8000) (.init hstart) trivial (TimedStep.advance _ _ (by decide))
  have hqueued : Reachable (timedSystem sampleCfg .sample samplePb 10000)
      (TimedLife.NoWrap 10000)
      { TimedLife.start with
        life.queue := [XmsgImChannel.begin_ 1 8000 (.ping, []) none]
        clock := 8000 } :=
    .step (a := .life (.begin_ _)) hclock trivial
      (TimedStep.life _ (UInt64.le_refl _) (LifeStep.begin_ _ _))
  have hinserted : Reachable (timedSystem sampleCfg .sample samplePb 10000)
      (TimedLife.NoWrap 10000) (TimedLife.waiting 8000) :=
    .step (a := .life .runFuture) hqueued trivial
      (TimedStep.life _ trivial (LifeStep.runFuture _ rfl rfl (.futureBegin _ _ (by decide))))
  exact .step (a := .advance 11000) hinserted trivial (TimedStep.advance _ _ (by decide))

/-- The channel after `dida(now)`. -/
def TimedLife.afterDida (now : UInt64) (s : TimedLife SampleMsg) : TimedLife SampleMsg :=
  { s with life := s.life.goOn (s.life.dida sampleCfg .sample samplePb now) }

theorem timeouts_exact_and_bounded_sample :
    let s := (({ (TimedLife.waiting 11000).afterDida 11000 with clock := 20000 } :
      TimedLife SampleMsg).afterDida 20000)
    s.pending.length = 1 ∧
      ∀ t ∈ s.pending, 20000 < max (t.gts.toNat + 10000) (s.ins t.stid).toNat + 10 * 1000 := by
  have hswept : Reachable (timedSystem sampleCfg .sample samplePb 10000)
      (TimedLife.NoWrap 10000) ((TimedLife.waiting 11000).afterDida 11000) := by
    refine .step (a := .life (.dida 11000)) TimedLife.waiting_reachable ?_
      (TimedStep.life _ (UInt64.le_refl _) (LifeStep.dida _ _))
    show ∀ t ∈ (TimedLife.waiting 11000).pending, _
    decide
  have hnow : Reachable (timedSystem sampleCfg .sample samplePb 10000) (TimedLife.NoWrap 10000)
      { (TimedLife.waiting 11000).afterDida 11000 with clock := 20000 } :=
    .step (a := .advance 20000) hswept trivial (TimedStep.advance _ _ (by decide))
  refine ⟨by decide, ?_⟩
  exact (timeouts_exact_and_bounded sampleCfg .sample samplePb (by decide) hnow).2 20000 _
    (TimedStep.life _ (UInt64.le_refl _) (LifeStep.dida _ _)) rfl _ (.init rfl)

end XmsgImXsc
