/-
# XmsgImXsc.N2HMsgMgr -- the message manager of a server and its copies on the workers

`XmsgImN2HMsgMgr` keeps one table for the server, and every worker has a message manager of
its own, made the first time something is copied to it.  `reg` and `setItcp` change the
server's table, queue a task on every worker and wait until all of them have run.

The workers are the library's replicas.  In a reachable state the tasks still queued on a
worker make of its message manager the one of the server, so that once a call has returned
every worker agrees with the server.
-/
import XmsgImXsc.Lib.Replica
import XmsgImXsc.Dispatch

namespace XmsgImXsc

open Lts Replicas

variable {D M H A : Type}

/-! ## Workers and the tasks queued on them -/

/-- What a call queues on a worker with `wk->future(..)`. -/
inductive WorkerTask (D H A : Type) where
  | copyMsg (msg : Text) (stub : XmsgImMsgStub D H)
  | setItcp (cb : A → XscMsgItcpRetType)

/-- Running a task.  A worker without a message manager gets a new one first. -/
def WorkerTask.run (msgMgr : Option (XmsgImMsgMgr D H A)) :
    WorkerTask D H A → Option (XmsgImMsgMgr D H A)
  | .copyMsg msg stub =>
      let mgr := msgMgr.getD {}
      some { mgr with msgs := mgr.msgs.insert msg stub }
  | .setItcp cb =>
      let mgr := msgMgr.getD {}
      some { mgr with itcpCb := some cb }

/-- A worker: its message manager, null at first, and the tasks queued on it. -/
abbrev XscWorker (D H A : Type) := Replica (Option (XmsgImMsgMgr D H A)) (WorkerTask D H A)

/-- `wk->msgMgr`. -/
def XscWorker.msgMgr (wk : XscWorker D H A) : Option (XmsgImMsgMgr D H A) := wk.val

/-- The message manager of a server, with the workers of that server. -/
structure XmsgImN2HMsgMgr (D H A : Type) extends XmsgImMsgMgr D H A where
  xscWorker : List (XscWorker D H A)

namespace XmsgImN2HMsgMgr

/-- `copyMsg2allXscWorker`: the task that puts the stub under the name, on every worker. -/
def copyMsg2allXscWorker (mgr : XmsgImN2HMsgMgr D H A) (msg : Text)
    (stub : XmsgImMsgStub D H) : XmsgImN2HMsgMgr D H A :=
  { mgr with xscWorker := mgr.xscWorker.map (·.send (.copyMsg msg stub)) }

/-- `reg`: a second stub of a name is refused and not copied. -/
def reg (pb : Protobuf D M) (mgr : XmsgImN2HMsgMgr D H A) (begin_ end_ uni : Option D) (cb : H)
    (auth : Bool) (foreign : ForeignAccessPermission) : XmsgImN2HMsgMgr D H A × Bool :=
  let stub := XmsgImMsgStub.new pb begin_ end_ uni cb auth foreign
  match mgr.msgs.lookup stub.msg with
  | some _ => (mgr, false)
  | none =>
      let mgr := { mgr with msgs := mgr.msgs.insert stub.msg stub }
      (mgr.copyMsg2allXscWorker stub.msg stub, true)

/-- `setItcp`: on the server, and as a task on every worker. -/
def setItcp (mgr : XmsgImN2HMsgMgr D H A) (cb : A → XscMsgItcpRetType) :
    XmsgImN2HMsgMgr D H A :=
  { mgr with
    toXmsgImMsgMgr := mgr.toXmsgImMsgMgr.setItcp cb
    xscWorker := mgr.xscWorker.map (·.send (.setItcp cb)) }

end XmsgImN2HMsgMgr

/-! ## Runs of a server -/

/-- One call on the message manager. -/
inductive MsgMgrCall (D H A : Type) where
  | reg (begin_ end_ uni : Option D) (cb : H) (auth : Bool) (foreign : ForeignAccessPermission)
  | setItcp (cb : A → XscMsgItcpRetType)

namespace MsgMgrCall

/-- What the call does up to the wait, and its result; `setItcp` cannot fail. -/
def call (pb : Protobuf D M) (mgr : XmsgImN2HMsgMgr D H A) :
    MsgMgrCall D H A → XmsgImN2HMsgMgr D H A × Bool
  | .reg begin_ end_ uni cb auth foreign => mgr.reg pb begin_ end_ uni cb auth foreign
  | .setItcp cb => (mgr.setItcp cb, true)

/-- The stub a call of `reg` makes. -/
def stub (pb : Protobuf D M) : MsgMgrCall D H A → Option (XmsgImMsgStub D H)
  | .reg begin_ end_ uni cb auth foreign =>
      some (XmsgImMsgStub.new pb begin_ end_ uni cb auth foreign)
  | .setItcp _ => none

/-- The interceptor a call of `setItcp` sets. -/
def itcpCb : MsgMgrCall D H A → Option (A → XscMsgItcpRetType)
  | .reg .. => none
  | .setItcp cb => some cb

/-- The stub of the first `reg` for a name, among calls in order. -/
def firstStub (pb : Protobuf D M) (calls : List (MsgMgrCall D H A)) (msg : Text) :
    Option (XmsgImMsgStub D H) :=
  (calls.filterMap (stub pb)).find? (·.msg = msg)

/-- The interceptor set last. -/
def lastItcp (calls : List (MsgMgrCall D H A)) : Option (A → XscMsgItcpRetType) :=
  (calls.filterMap itcpCb).getLast?

end MsgMgrCall

/-- A server in the middle of a run: its message manager and the calls made so far, in
order, with their results. -/
structure N2HRun (D H A : Type) where
  mgr : XmsgImN2HMsgMgr D H A
  calls : List (MsgMgrCall D H A × Bool) := []

/-- Every queued task has run, so that the last call has returned. -/
def N2HRun.Returned (s : N2HRun D H A) : Prop := ∀ wk ∈ s.mgr.xscWorker, wk.queue = []

/-- What happens: a call is made, or worker `i` runs the first of its tasks. -/
inductive N2HAct (D H A : Type) where
  | call (c : MsgMgrCall D H A)
  | exec (i : Nat)

/-- A call is made when the one before has returned; the workers run their tasks in any
order among each other. -/
inductive N2HRun.Step (pb : Protobuf D M) : N2HRun D H A → N2HAct D H A → N2HRun D H A → Prop
  | call {s : N2HRun D H A} (c : MsgMgrCall D H A) : s.Returned →
      Step pb s (.call c) ⟨(c.call pb s.mgr).1, s.calls ++ [(c, (c.call pb s.mgr).2)]⟩
  | exec {s : N2HRun D H A} {i : Nat} {wk : XscWorker D H A} {task : WorkerTask D H A}
      {tasks : List (WorkerTask D H A)} :
      s.mgr.xscWorker[i]? = some wk → wk.queue = task :: tasks →
      Step pb s (.exec i) { s with
        mgr := { s.mgr with
          xscWorker := s.mgr.xscWorker.set i { val := task.run wk.val, queue := tasks } } }

/-- A server with `n` workers whose message managers are null, and a new message manager. -/
def n2hSystem (pb : Protobuf D M) (n : Nat) : System (N2HRun D H A) (N2HAct D H A) where
  init s := s = { mgr := { xscWorker := List.replicate n { val := none } } }
  step := N2HRun.Step pb

/-! ## What a call does -/

/-- Some call succeeded. -/
def N2HRun.Succeeded (s : N2HRun D H A) : Prop := ∃ c ∈ s.calls, c.2 = true

instance (s : N2HRun D H A) : Decidable s.Succeeded :=
  inferInstanceAs (Decidable (∃ c ∈ s.calls, c.2 = true))

/-- A call either fails and changes nothing, or succeeds, and then the server's table
changes as the task it queues on every worker changes a worker's. -/
theorem MsgMgrCall.call_cases (pb : Protobuf D M) (mgr : XmsgImN2HMsgMgr D H A)
    (c : MsgMgrCall D H A) :
    ((c.call pb mgr).2 = false ∧ (c.call pb mgr).1 = mgr) ∨
    ((c.call pb mgr).2 = true ∧ ∃ task : WorkerTask D H A,
      some (c.call pb mgr).1.toXmsgImMsgMgr = task.run (some mgr.toXmsgImMsgMgr) ∧
      task.run (some {}) = task.run none ∧
      (c.call pb mgr).1.xscWorker = mgr.xscWorker.map (·.send task)) := by
  cases c with
  | setItcp cb => exact .inr ⟨rfl, .setItcp cb, rfl, rfl, rfl⟩
  | reg begin_ end_ uni cb auth foreign =>
      unfold call XmsgImN2HMsgMgr.reg
      dsimp only
      split
      · exact .inl ⟨rfl, rfl⟩
      · exact .inr ⟨rfl, .copyMsg _ _, rfl, rfl, rfl⟩

/-- The table after a call: a name that was taken keeps its stub, a free one gets the stub
of the call if that stub has the name. -/
theorem MsgMgrCall.call_getMsgStub (pb : Protobuf D M) (mgr : XmsgImN2HMsgMgr D H A)
    (c : MsgMgrCall D H A) (msg : Text) :
    (c.call pb mgr).1.getMsgStub msg =
      (mgr.getMsgStub msg).or ((c.stub pb).filter (·.msg = msg)) := by
  cases c with
  | setItcp cb =>
      show mgr.getMsgStub msg = (mgr.getMsgStub msg).or none
      rw [Option.or_none]
  | reg begin_ end_ uni cb auth foreign =>
      unfold call stub XmsgImN2HMsgMgr.reg XmsgImMsgMgr.getMsgStub
      dsimp only
      generalize XmsgImMsgStub.new pb begin_ end_ uni cb auth foreign = new
      by_cases hmsg : new.msg = msg
      · subst hmsg
        cases hlook : mgr.msgs.lookup new.msg with
        | some old => simp [hlook]
        | none => simp [XmsgImN2HMsgMgr.copyMsg2allXscWorker, Option.filter]
      · cases hlook : mgr.msgs.lookup new.msg with
        | some old => simp [Option.filter, hmsg]
        | none =>
            simp [XmsgImN2HMsgMgr.copyMsg2allXscWorker, Option.filter, hmsg,
              AList.lookup_insert_ne (Ne.symm hmsg)]

/-- The interceptor after a call is the one it sets, or the one before. -/
theorem MsgMgrCall.call_itcpCb (pb : Protobuf D M) (mgr : XmsgImN2HMsgMgr D H A)
    (c : MsgMgrCall D H A) :
    (c.call pb mgr).1.itcpCb = c.itcpCb.or mgr.itcpCb := by
  cases c with
  | setItcp cb => rfl
  | reg begin_ end_ uni cb auth foreign =>
      unfold call XmsgImN2HMsgMgr.reg
      dsimp only
      split <;> rfl

/-! ## The invariant -/

/-- The message manager every worker settles on: none before the first call that succeeds,
then the server's. -/
def N2HRun.goal (s : N2HRun D H A) : Option (XmsgImMsgMgr D H A) :=
  if s.Succeeded then some s.mgr.toXmsgImMsgMgr else none

/-- The workers are about to agree with the server, and the server holds what the calls gave
it. -/
structure N2HRun.Inv (pb : Protobuf D M) (s : N2HRun D H A) : Prop where
  workers : Agree WorkerTask.run s.goal s.mgr.xscWorker
  /-- Before the first call that succeeds nothing is in the table. -/
  fresh : ¬s.Succeeded → s.mgr.toXmsgImMsgMgr = {}
  first : ∀ msg, s.mgr.getMsgStub msg = MsgMgrCall.firstStub pb (s.calls.map (·.1)) msg
  latest : s.mgr.itcpCb = MsgMgrCall.lastItcp (s.calls.map (·.1))

/-- A call changes the manager and puts one task on every queue. -/
theorem N2HRun.Inv.call {pb : Protobuf D M} {s : N2HRun D H A} (h : s.Inv pb)
    (c : MsgMgrCall D H A) :
    N2HRun.Inv pb ⟨(c.call pb s.mgr).1, s.calls ++ [(c, (c.call pb s.mgr).2)]⟩ := by
  have hfirst (msg : Text) : (c.call pb s.mgr).1.getMsgStub msg =
      MsgMgrCall.firstStub pb ((s.calls ++ [(c, (c.call pb s.mgr).2)]).map (·.1)) msg := by
    rw [MsgMgrCall.call_getMsgStub, h.first]
    unfold MsgMgrCall.firstStub
    rw [List.map_append, List.filterMap_append, List.find?_append]
    congr 1
    cases hstub : c.stub pb with
    | none => simp [hstub]
    | some stub => by_cases hmsg : stub.msg = msg <;> simp [hstub, hmsg, Option.filter]
  have hlatest : (c.call pb s.mgr).1.itcpCb =
      MsgMgrCall.lastItcp ((s.calls ++ [(c, (c.call pb s.mgr).2)]).map (·.1)) := by
    rw [MsgMgrCall.call_itcpCb, h.latest]
    unfold MsgMgrCall.lastItcp
    rw [List.map_append, List.filterMap_append, List.getLast?_append]
    cases hcb : c.itcpCb <;> simp [hcb]
  rcases c.call_cases pb s.mgr with ⟨hret, hmgr⟩ | ⟨hret, task, hmgr, hnew, hworkers⟩
  · -- a failed call is recorded and changes nothing else
    have hsucc : N2HRun.Succeeded ⟨(c.call pb s.mgr).1, s.calls ++ [(c, (c.call pb s.mgr).2)]⟩ ↔
        s.Succeeded := by
      simp [N2HRun.Succeeded, hret]
    refine ⟨?_, ?_, hfirst, hlatest⟩
    · have hgoal : N2HRun.goal
          ⟨(c.call pb s.mgr).1, s.calls ++ [(c, (c.call pb s.mgr).2)]⟩ = s.goal := by
        unfold N2HRun.goal
        by_cases hs : s.Succeeded
        · rw [if_pos (hsucc.mpr hs), if_pos hs]
          exact congrArg (fun mgr => some mgr.toXmsgImMsgMgr) hmgr
        · rw [if_neg (mt hsucc.mp hs), if_neg hs]
      rw [hgoal]
      show Agree _ _ (c.call pb s.mgr).1.xscWorker
      rw [hmgr]
      exact h.workers
    · intro hnot
      show (c.call pb s.mgr).1.toXmsgImMsgMgr = {}
      rw [hmgr]
      exact h.fresh (mt hsucc.mpr hnot)
  · -- the task that is sent moves the goal of all workers
    have hsucc : N2HRun.Succeeded
        ⟨(c.call pb s.mgr).1, s.calls ++ [(c, (c.call pb s.mgr).2)]⟩ :=
      ⟨(c, _), List.mem_append_right _ List.mem_cons_self, hret⟩
    refine ⟨?_, fun hnot => absurd hsucc hnot, hfirst, hlatest⟩
    have hgoal : N2HRun.goal ⟨(c.call pb s.mgr).1, s.calls ++ [(c, (c.call pb s.mgr).2)]⟩ =
        task.run s.goal := by
      unfold N2HRun.goal
      rw [if_pos hsucc]
      show some (c.call pb s.mgr).1.toXmsgImMsgMgr = _
      split
      · exact hmgr
      · next hnot => rw [hmgr, h.fresh hnot, hnew]
    rw [hgoal]
    show Agree _ _ (c.call pb s.mgr).1.xscWorker
    rw [hworkers]
    exact h.workers.send task

/-- A worker that executes a task comes one step closer. -/
theorem N2HRun.Inv.exec {pb : Protobuf D M} {s : N2HRun D H A} (h : s.Inv pb) {i : Nat}
    {wk : XscWorker D H A} {task : WorkerTask D H A} {tasks : List (WorkerTask D H A)}
    (hi : s.mgr.xscWorker[i]? = some wk) (hq : wk.queue = task :: tasks) :
    N2HRun.Inv pb { s with mgr := { s.mgr with
      xscWorker := s.mgr.xscWorker.set i { val := task.run wk.val, queue := tasks } } } :=
  ⟨h.workers.exec hi hq, h.fresh, h.first, h.latest⟩

theorem N2HRun.reachable_inv {pb : Protobuf D M} {n : Nat} {s : N2HRun D H A}
    (h : Reachable (n2hSystem pb n) Always s) : s.Inv pb := by
  refine h.invariant ?_ ?_
  · rintro s rfl
    have hnot : ¬N2HRun.Succeeded
        ({ mgr := { xscWorker := List.replicate n { val := none } } } : N2HRun D H A) := by
      simp [N2HRun.Succeeded]
    refine ⟨?_, fun _ => rfl, fun _ => rfl, rfl⟩
    intro wk hwk
    obtain rfl := List.eq_of_mem_replicate hwk
    rw [N2HRun.goal, if_neg hnot]
    rfl
  · intro s a s' hinv _ hstep
    cases hstep with
    | call c _ => exact hinv.call c
    | exec hi hq => exact hinv.exec hi hq

/-! ## Agreement of the workers -/

/-- What holds of a server whose last call has returned. -/
structure N2HRun.Agrees (pb : Protobuf D M) (s : N2HRun D H A) : Prop where
  /-- A worker has a message manager exactly if some call succeeded. -/
  msgMgr : ∀ wk ∈ s.mgr.xscWorker, wk.msgMgr.isSome ↔ s.Succeeded
  /-- Under every name it holds the stub the server's manager holds. -/
  stub : ∀ wk ∈ s.mgr.xscWorker, ∀ mgr, wk.msgMgr = some mgr →
    ∀ msg, mgr.getMsgStub msg = s.mgr.getMsgStub msg
  /-- Its interceptor answers as the server's does. -/
  itcp : ∀ wk ∈ s.mgr.xscWorker, ∀ mgr, wk.msgMgr = some mgr → ∀ a, mgr.itcp a = s.mgr.itcp a
  /-- The server holds under a name the stub of the first `reg` for it, -/
  first : ∀ msg, s.mgr.getMsgStub msg = MsgMgrCall.firstStub pb (s.calls.map (·.1)) msg
  /-- and answers with the interceptor set last. -/
  latest : ∀ a, s.mgr.itcp a =
    match MsgMgrCall.lastItcp (s.calls.map (·.1)) with
    | none => .DISABLE
    | some cb => cb a

/-- All workers agree with the message manager.  For any number of workers, any calls of
`reg` and `setItcp` and any order in which the workers run their tasks, after each call has
returned a worker has a message manager exactly if some call succeeded, and then serves the
stubs and the interceptor of the server's; a `reg` that returns false changes neither the
server's manager nor a worker. -/
theorem workers_agree_with_msgMgr (pb : Protobuf D M) (n : Nat) {s : N2HRun D H A}
    (h : Reachable (n2hSystem pb n) Always s) :
    (s.Returned → s.Agrees pb) ∧
      ∀ c s', N2HRun.Step pb s (.call c) s' → s'.calls.getLast? = some (c, false) →
        s'.mgr = s.mgr := by
  have hinv := N2HRun.reachable_inv h
  refine ⟨?_, ?_⟩
  · intro hret
    have hval (wk : XscWorker D H A) (hwk : wk ∈ s.mgr.xscWorker) : wk.msgMgr = s.goal :=
      hinv.workers.val_eq hwk (hret wk hwk)
    have hgoal (mgr : XmsgImMsgMgr D H A) (hg : s.goal = some mgr) :
        mgr = s.mgr.toXmsgImMsgMgr := by
      unfold N2HRun.goal at hg
      split at hg
      · exact (Option.some.inj hg).symm
      · simp at hg
    refine ⟨?_, ?_, ?_, hinv.first, ?_⟩
    · intro wk hwk
      rw [hval wk hwk]
      unfold N2HRun.goal
      split <;> simp [*]
    · intro wk hwk mgr hmgr msg
      rw [hgoal mgr ((hval wk hwk).symm.trans hmgr)]
    · intro wk hwk mgr hmgr a
      rw [hgoal mgr ((hval wk hwk).symm.trans hmgr)]
    · intro a
      rw [← hinv.latest]
      rfl
  · intro c s' hstep hlast
    cases hstep with
    | call c _ =>
        rw [List.getLast?_append_of_ne_nil _ (by simp)] at hlast
        have hfalse : (c.call pb s.mgr).2 = false := by simpa using hlast
        rcases c.call_cases pb s.mgr with ⟨-, hmgr⟩ | ⟨htrue, -⟩
        · exact hmgr
        · rw [hfalse] at htrue
          simp at htrue

/-- A registration, for the runs on fixed inputs, and the task it queues. -/
def MsgMgrCall.sample : MsgMgrCall SampleType Unit XscProtoPdu :=
  .reg (some .ping) (some .pong) none () false .FOREIGN_FORBIDDEN

/-- The task that the registration queues on each worker. -/
def WorkerTask.sample : WorkerTask SampleType Unit XscProtoPdu :=
  .copyMsg "Ping"
    (XmsgImMsgStub.new samplePb (some .ping) (some .pong) none () false .FOREIGN_FORBIDDEN)

/-- A server with two workers after that registration, and when both have run their task. -/
def N2HRun.called : N2HRun SampleType Unit XscProtoPdu :=
  let start : XmsgImN2HMsgMgr SampleType Unit XscProtoPdu :=
    { xscWorker := List.replicate 2 { val := none } }
  { mgr := (MsgMgrCall.sample.call samplePb start).1, calls := [(.sample, true)] }

/-- The same server when both workers have run their task. -/
def N2HRun.sample : N2HRun SampleType Unit XscProtoPdu :=
  { called with mgr := { called.mgr with
    xscWorker := List.replicate 2 { val := WorkerTask.sample.run none } } }

theorem N2HRun.sample_reachable : Reachable (n2hSystem samplePb 2) Always N2HRun.sample := by
  let waiting : XscWorker SampleType Unit XscProtoPdu := { val := none, queue := [.sample] }
  have hret : N2HRun.Returned (D := SampleType) (H := Unit) (A := XscProtoPdu)
      { mgr := { xscWorker := List.replicate 2 { val := none } } } := by
    intro wk hwk
    rw [List.eq_of_mem_replicate hwk]
  have hcall : Reachable (n2hSystem samplePb 2) Always N2HRun.called :=
    .step (.init rfl) trivial (N2HRun.Step.call .sample hret)
  -- the second worker runs its task before the first
  let half : N2HRun SampleType Unit XscProtoPdu :=
    { N2HRun.called with mgr := { N2HRun.called.mgr with
      xscWorker := [waiting, { val := WorkerTask.sample.run none }] } }
  have hexec : N2HRun.Step samplePb N2HRun.called (.exec 1) half :=
    .exec (rfl : N2HRun.called.mgr.xscWorker[1]? = some waiting) rfl
  have hlast : N2HRun.Step samplePb half (.exec 0) N2HRun.sample :=
    .exec (rfl : half.mgr.xscWorker[0]? = some waiting) rfl
  exact .step (.step hcall trivial hexec) trivial hlast

/-- An interceptor that lets nothing pass, and the name registered once more. -/
def MsgMgrCall.sampleItcp : MsgMgrCall SampleType Unit XscProtoPdu := .setItcp fun _ => .FORBIDDEN

/-- A second stub of the name, which asks for authentication. -/
def MsgMgrCall.sampleAgain : MsgMgrCall SampleType Unit XscProtoPdu :=
  .reg (some .ping) (some .pong) none () true .FOREIGN_FORBIDDEN

/-- The server after the interceptor was set, when both workers have run that task as well. -/
def N2HRun.sampleSet : N2HRun SampleType Unit XscProtoPdu :=
  { mgr := { (MsgMgrCall.sampleItcp.call samplePb sample.mgr).1 with
      xscWorker := List.replicate 2
        { val := (WorkerTask.setItcp fun _ => .FORBIDDEN).run (WorkerTask.sample.run none) } }
    calls := [(.sample, true), (.sampleItcp, true)] }

theorem N2HRun.sampleSet_reachable : Reachable (n2hSystem samplePb 2) Always N2HRun.sampleSet := by
  let waiting : XscWorker SampleType Unit XscProtoPdu :=
    { val := WorkerTask.sample.run none, queue := [.setItcp fun _ => .FORBIDDEN] }
  let set : N2HRun SampleType Unit XscProtoPdu :=
    { mgr := (MsgMgrCall.sampleItcp.call samplePb N2HRun.sample.mgr).1
      calls := [(.sample, true), (.sampleItcp, true)] }
  have hret : N2HRun.sample.Returned := by
    intro wk hwk
    rw [List.eq_of_mem_replicate hwk]
  have hcall : N2HRun.Step samplePb N2HRun.sample (.call .sampleItcp) set := .call _ hret
  have hset := N2HRun.sample_reachable.step trivial hcall
  have hfirst := hset.step trivial (.exec (rfl : set.mgr.xscWorker[0]? = some waiting) rfl)
  exact hfirst.step trivial (.exec (rfl : _[1]? = some waiting) rfl)

/-- A stub and an interceptor on both workers; the second stub of the name is refused. -/
theorem workers_agree_with_msgMgr_sample :
    N2HRun.sampleSet.Agrees samplePb ∧
      (∀ wk ∈ N2HRun.sampleSet.mgr.xscWorker, ∀ mgr, wk.msgMgr = some mgr →
        ∀ pdu, mgr.itcp pdu = .FORBIDDEN) ∧
      ∃ s', N2HRun.Step samplePb N2HRun.sampleSet (.call .sampleAgain) s' ∧
        s'.mgr = N2HRun.sampleSet.mgr := by
  obtain ⟨hagrees, hrefused⟩ := workers_agree_with_msgMgr samplePb 2 N2HRun.sampleSet_reachable
  have hret : N2HRun.sampleSet.Returned := by
    intro wk hwk
    rw [List.eq_of_mem_replicate hwk]
  have hagain : N2HRun.Step samplePb N2HRun.sampleSet (.call .sampleAgain) _ := .call _ hret
  refine ⟨hagrees hret, ?_, _, hagain, hrefused _ _ hagain rfl⟩
  intro wk hwk mgr hmgr pdu
  rw [(hagrees hret).itcp wk hwk mgr hmgr]
  rfl

end XmsgImXsc
