/-
# XmsgImXsc.N2HDispatch -- PDUs served while the message manager of a server changes

A worker serves a PDU with its own copy of the message manager, and it does so at any time,
also while a call of `reg` or `setItcp` is still waiting for the other workers.  So two
workers can hold different managers for a while.

What they hold is compared with one plain `XmsgImMsgMgr` on which the same calls are made
one after another.  A worker is at most the last call behind it, it never falls back, and a
call that has returned is behind no worker.  From this follows what a maintainer relies on:
a name has one handler on all workers, and an interceptor set before the handlers are
registered sees every PDU that reaches a handler.
-/
import XmsgImXsc.N2HMsgMgr
import Mathlib.Data.List.Induction

namespace XmsgImXsc

open Lts Replicas

variable {D M H U A C : Type}

/-! ## One manager for all calls -/

namespace MsgMgrCall

/-- The call on a manager that has no workers to copy to. -/
def plain (pb : Protobuf D M) (mgr : XmsgImMsgMgr D H A) :
    MsgMgrCall D H A → XmsgImMsgMgr D H A × Bool
  | .reg begin_ end_ uni cb auth foreign => mgr.reg pb begin_ end_ uni cb auth foreign
  | .setItcp cb => (mgr.setItcp cb, true)

/-- A new plain manager after some calls. -/
def plainAfter (pb : Protobuf D M) (calls : List (MsgMgrCall D H A)) : XmsgImMsgMgr D H A :=
  calls.foldl (fun mgr c => (c.plain pb mgr).1) {}

/-- What a worker that is up to date with some calls holds: null when there were none. -/
def upToDate (pb : Protobuf D M) (calls : List (MsgMgrCall D H A)) :
    Option (XmsgImMsgMgr D H A) :=
  match calls with
  | [] => none
  | c :: calls => some (plainAfter pb (c :: calls))

/-- One more call. -/
theorem plainAfter_snoc (pb : Protobuf D M) (calls : List (MsgMgrCall D H A))
    (c : MsgMgrCall D H A) :
    plainAfter pb (calls ++ [c]) = (c.plain pb (plainAfter pb calls)).1 := by
  simp [plainAfter]

/-- From the first call on there is a manager. -/
theorem upToDate_of_ne_nil (pb : Protobuf D M) {calls : List (MsgMgrCall D H A)}
    (h : calls ≠ []) : upToDate pb calls = some (plainAfter pb calls) := by
  cases calls with
  | nil => exact absurd rfl h
  | cons c calls => rfl

/-- The server's own table changes as a plain one, with the same result. -/
theorem call_plain (pb : Protobuf D M) (mgr : XmsgImN2HMsgMgr D H A) (c : MsgMgrCall D H A) :
    ((c.call pb mgr).1.toXmsgImMsgMgr, (c.call pb mgr).2) = c.plain pb mgr.toXmsgImMsgMgr := by
  cases c with
  | setItcp cb => rfl
  | reg begin_ end_ uni cb auth foreign =>
      unfold call plain XmsgImN2HMsgMgr.reg XmsgImMsgMgr.reg
      dsimp only
      generalize XmsgImMsgStub.new pb begin_ end_ uni cb auth foreign = new
      cases mgr.msgs.lookup new.msg <;> rfl

/-- On a new manager every call succeeds. -/
theorem plain_new (pb : Protobuf D M) (c : MsgMgrCall D H A) :
    (c.plain pb ({} : XmsgImMsgMgr D H A)).2 = true := by
  cases c <;> rfl

/-- The plain manager holds the stub of the first `reg` for a name, -/
theorem plainAfter_getMsgStub (pb : Protobuf D M) (calls : List (MsgMgrCall D H A))
    (msg : Text) : (plainAfter pb calls).getMsgStub msg = firstStub pb calls msg := by
  induction calls using List.reverseRecOn with
  | nil => rfl
  | append_singleton calls c ih =>
      let mgr : XmsgImN2HMsgMgr D H A := ⟨plainAfter pb calls, []⟩
      have hcall : (c.plain pb (plainAfter pb calls)).1 = (c.call pb mgr).1.toXmsgImMsgMgr :=
        (congrArg Prod.fst (call_plain pb mgr c)).symm
      have hstub : (c.call pb mgr).1.getMsgStub msg =
          (firstStub pb calls msg).or ((c.stub pb).filter (·.msg = msg)) := by
        rw [call_getMsgStub, ← ih]
      rw [plainAfter_snoc, hcall, hstub]
      unfold firstStub
      rw [List.filterMap_append, List.find?_append]
      congr 1
      cases hs : c.stub pb with
      | none => simp [hs]
      | some stub => by_cases hmsg : stub.msg = msg <;> simp [hs, hmsg, Option.filter]

/-- and the interceptor set last. -/
theorem plainAfter_itcpCb (pb : Protobuf D M) (calls : List (MsgMgrCall D H A)) :
    (plainAfter pb calls).itcpCb = lastItcp calls := by
  induction calls using List.reverseRecOn with
  | nil => rfl
  | append_singleton calls c ih =>
      let mgr : XmsgImN2HMsgMgr D H A := ⟨plainAfter pb calls, []⟩
      have hcall : (c.plain pb (plainAfter pb calls)).1 = (c.call pb mgr).1.toXmsgImMsgMgr :=
        (congrArg Prod.fst (call_plain pb mgr c)).symm
      have hcb : (c.call pb mgr).1.itcpCb = c.itcpCb.or (lastItcp calls) := by
        rw [call_itcpCb, ← ih]
      rw [plainAfter_snoc, hcall, hcb]
      unfold lastItcp
      rw [List.filterMap_append, List.getLast?_append]
      cases h : c.itcpCb <;> simp [h]

end MsgMgrCall

/-! ## How far a worker is behind -/

namespace N2HRun

/-- The calls made so far, without their results. -/
def made (s : N2HRun D H A) : List (MsgMgrCall D H A) := s.calls.map (·.1)

/-- The number of calls whose effect a worker has: a task in its queue is one it lacks. -/
def seenBy (s : N2HRun D H A) (wk : XscWorker D H A) : Nat := s.made.length - wk.queue.length

/-- The number of calls that have returned: all of them, unless the last is waiting. -/
def returned (s : N2HRun D H A) : Nat :=
  if s.mgr.xscWorker.all (·.queue.isEmpty) then s.made.length else s.made.length - 1

/-- The server's manager is the plain one, and the workers are in step with it. -/
structure LockStep (pb : Protobuf D M) (s : N2HRun D H A) : Prop where
  server : s.mgr.toXmsgImMsgMgr = MsgMgrCall.plainAfter pb s.made
  succeeded : s.Succeeded ↔ s.made ≠ []
  workers : ∀ wk ∈ s.mgr.xscWorker, InStep WorkerTask.run
    (MsgMgrCall.upToDate pb s.made.dropLast) (MsgMgrCall.upToDate pb s.made) wk

/-- A call finds every worker up to date and leaves each with one task to execute. -/
theorem LockStep.call {pb : Protobuf D M} {s : N2HRun D H A} (h : s.LockStep pb)
    (hret : s.Returned) (c : MsgMgrCall D H A) :
    LockStep pb ⟨(c.call pb s.mgr).1, s.calls ++ [(c, (c.call pb s.mgr).2)]⟩ := by
  let s' : N2HRun D H A := ⟨(c.call pb s.mgr).1, s.calls ++ [(c, (c.call pb s.mgr).2)]⟩
  have hmade : s'.made = s.made ++ [c] := by simp [s', made]
  have hne : s'.made ≠ [] := by simp [hmade]
  have hdrop : s'.made.dropLast = s.made := by simp [hmade]
  have hplain := MsgMgrCall.call_plain pb s.mgr c
  have hserver : (c.call pb s.mgr).1.toXmsgImMsgMgr = MsgMgrCall.plainAfter pb s'.made := by
    rw [hmade, MsgMgrCall.plainAfter_snoc, ← h.server, ← hplain]
  have hsucc : s'.Succeeded := by
    by_cases hs : s.Succeeded
    · obtain ⟨d, hd, hdret⟩ := hs
      exact ⟨d, List.mem_append_left _ hd, hdret⟩
    · -- the first call of all cannot fail
      have hnil : s.made = [] := not_not.mp (mt h.succeeded.mpr hs)
      have hnew : s.mgr.toXmsgImMsgMgr = {} := by
        rw [h.server, hnil]
        rfl
      have htrue : (c.call pb s.mgr).2 = true := by
        rw [congrArg Prod.snd hplain, hnew]
        exact MsgMgrCall.plain_new pb c
      exact ⟨_, List.mem_append_right _ List.mem_cons_self, htrue⟩
  refine ⟨hserver, ⟨fun _ => hne, fun _ => hsucc⟩, ?_⟩
  show ∀ wk ∈ (c.call pb s.mgr).1.xscWorker, InStep WorkerTask.run
    (MsgMgrCall.upToDate pb s'.made.dropLast) (MsgMgrCall.upToDate pb s'.made) wk
  rw [hdrop, MsgMgrCall.upToDate_of_ne_nil pb hne, ← hserver]
  rcases c.call_cases pb s.mgr with ⟨hfalse, hmgr⟩ | ⟨-, task, hmgr, hnew, hworkers⟩
  · -- a call that fails is not the first one and sends nothing
    have hold : s.made ≠ [] := by
      intro hnil
      have hzero : s.mgr.toXmsgImMsgMgr = {} := by
        rw [h.server, hnil]
        rfl
      rw [congrArg Prod.snd hplain, hzero, MsgMgrCall.plain_new] at hfalse
      exact Bool.noConfusion hfalse
    rw [hmgr]
    intro wk hwk
    have hstep := h.workers wk hwk
    rw [MsgMgrCall.upToDate_of_ne_nil pb hold, ← h.server] at hstep
    exact hstep.idle (hret wk hwk) _
  · -- the task makes of a worker's manager what the call makes of the server's
    have htask : some (c.call pb s.mgr).1.toXmsgImMsgMgr =
        task.run (MsgMgrCall.upToDate pb s.made) := by
      by_cases hnil : s.made = []
      · have hzero : s.mgr.toXmsgImMsgMgr = {} := by
          rw [h.server, hnil]
          rfl
        rw [hmgr, hzero, hnew, hnil]
        rfl
      · rw [hmgr, MsgMgrCall.upToDate_of_ne_nil pb hnil, ← h.server]
    rw [hworkers, htask]
    intro wk' hwk'
    obtain ⟨wk, hwk, rfl⟩ := List.mem_map.mp hwk'
    exact (h.workers wk hwk).send (hret wk hwk) task

theorem reachable_lockStep {pb : Protobuf D M} {n : Nat} {s : N2HRun D H A}
    (h : Reachable (n2hSystem pb n) Always s) : s.LockStep pb := by
  refine h.invariant ?_ ?_
  · rintro s rfl
    refine ⟨rfl, by simp [Succeeded, made], ?_⟩
    intro wk hwk
    obtain rfl := List.eq_of_mem_replicate hwk
    exact .current
  · intro s a s' hinv _ hstep
    cases hstep with
    | call c hret => exact hinv.call hret c
    | @exec i wk task tasks hi hq =>
        refine ⟨hinv.server, hinv.succeeded, ?_⟩
        intro wk' hwk'
        rcases List.mem_or_eq_of_mem_set hwk' with hmem | rfl
        · exact hinv.workers wk' hmem
        · exact (hinv.workers wk (List.mem_of_getElem? hi)).exec hq

/-- A worker holds what the calls it has seen make. -/
theorem LockStep.msgMgr {pb : Protobuf D M} {s : N2HRun D H A} (h : s.LockStep pb)
    {wk : XscWorker D H A} (hwk : wk ∈ s.mgr.xscWorker) :
    wk.msgMgr = MsgMgrCall.upToDate pb (s.made.take (s.seenBy wk)) := by
  have hstep := h.workers wk hwk
  unfold seenBy XscWorker.msgMgr
  cases hstep with
  | current => simp
  | behind _ => simp [List.dropLast_eq_take]

/-- It has seen every call that has returned. -/
theorem LockStep.returned_le_seenBy {pb : Protobuf D M} {s : N2HRun D H A} (h : s.LockStep pb)
    {wk : XscWorker D H A} (hwk : wk ∈ s.mgr.xscWorker) : s.returned ≤ s.seenBy wk := by
  have hlen := (h.workers wk hwk).queue_length_le
  unfold returned seenBy
  split
  · next hidle =>
      have hq : wk.queue = [] := List.isEmpty_iff.mp (List.all_eq_true.mp hidle wk hwk)
      simp [hq]
  · omega

/-- A step never makes a worker forget a call. -/
theorem Step.seenBy_mono {pb : Protobuf D M} {s s' : N2HRun D H A} {a : N2HAct D H A}
    (h : Step pb s a s') {i : Nat} {wk wk' : XscWorker D H A}
    (hwk : s.mgr.xscWorker[i]? = some wk) (hwk' : s'.mgr.xscWorker[i]? = some wk') :
    s.seenBy wk ≤ s'.seenBy wk' := by
  cases h with
  | call c hret =>
      have hidle : wk.queue = [] := hret wk (List.mem_of_getElem? hwk)
      have hmade : (s.calls ++ [(c, (c.call pb s.mgr).2)]).length = s.calls.length + 1 := by simp
      have hlen : wk'.queue.length ≤ 1 := by
        rcases c.call_cases pb s.mgr with ⟨-, hmgr⟩ | ⟨-, task, -, -, hworkers⟩
        · have heq : some wk = some wk' := by rw [← hwk, ← hwk', hmgr]
          rw [← Option.some.inj heq, hidle]
          exact Nat.zero_le 1
        · have heq : some (wk.send task) = some wk' := by
            rw [← hwk', hworkers, List.getElem?_map, hwk]
            rfl
          rw [← Option.some.inj heq, Replica.send_queue, hidle]
          exact Nat.le_refl 1
      simp only [seenBy, made, List.length_map, hidle, List.length_nil, hmade]
      omega
  | @exec j other task tasks hj hq =>
      have hlen : wk'.queue.length ≤ wk.queue.length := by
        by_cases hij : j = i
        · subst hij
          have hset : (s.mgr.xscWorker.set j { val := task.run other.val, queue := tasks })[j]? =
              some { val := task.run other.val, queue := tasks } :=
            List.getElem?_set_self (List.getElem?_eq_some_iff.mp hj).1
          have hother : other = wk := Option.some.inj (hj.symm.trans hwk)
          have hafter := Option.some.inj (hset.symm.trans hwk')
          rw [← hafter, ← hother, hq]
          exact Nat.le_succ tasks.length
        · have hsame := List.getElem?_set_ne (l := s.mgr.xscWorker) hij
            (a := { val := task.run other.val, queue := tasks })
          have heq : some wk = some wk' := by rw [← hwk, ← hwk', hsame]
          rw [Option.some.inj heq]
      exact Nat.sub_le_sub_left hlen _

end N2HRun

/-! ## A server that serves PDUs -/

/-- What an interceptor of a server is called with: the worker, the channel and the PDU. -/
abbrev ItcpArg (C : Type) := Nat × C × XscProtoPdu

/-- A manager as one channel of one worker uses it. -/
def XmsgImMsgMgr.on (mgr : XmsgImMsgMgr D H (ItcpArg C)) (wk : Nat) (ch : C) :
    XmsgImMsgMgr D H :=
  { msgs := mgr.msgs, itcpCb := mgr.itcpCb.map fun cb pdu => cb (wk, ch, pdu) }

/-- A PDU that a worker takes up from one of its channels, with what `evnMsg` is given
besides the message manager. -/
structure WorkerRecv (M U C : Type) where
  wk : Nat
  ch : C
  chan : XmsgImChannel M
  usr : Option U
  ptr : Nat
  gts : UInt64
  pdu : XscProtoPdu

/-- `evnMsg` on the worker, with the message manager the worker has. -/
def WorkerRecv.evnMsg (pb : Protobuf D M) (K : XscProto) (x : WorkerRecv M U C)
    (msgMgr : Option (XmsgImMsgMgr D H (ItcpArg C))) : EvnMsg M H U :=
  XmsgImXsc.evnMsg pb x.usr x.ptr x.gts x.pdu K (msgMgr.map (·.on x.wk x.ch)) x.chan

/-- A PDU that was served: what `evnMsg` did, and how many calls on the message manager had
returned, had been made, and were seen by the worker when it took the PDU up. -/
structure WorkerServed (M H U C : Type) extends WorkerRecv M U C where
  returned : Nat
  made : Nat
  seen : Nat
  out : EvnMsg M H U

/-- A server in the middle of a run, with the PDUs served so far in order. -/
structure ServerRun (D M H U C : Type) where
  n2h : N2HRun D H (ItcpArg C)
  served : List (WorkerServed M H U C) := []

/-- What happens to a server: a step of its message manager, or a PDU that is taken up. -/
inductive ServerAct (D M H U C : Type) where
  | msgMgr (a : N2HAct D H (ItcpArg C))
  | recv (x : WorkerRecv M U C)

/-- The message manager changes as before.  A worker takes a PDU up whenever it likes, with
a task still in its queue or not. -/
inductive ServerRun.Step (pb : Protobuf D M) (K : XscProto) :
    ServerRun D M H U C → ServerAct D M H U C → ServerRun D M H U C → Prop
  | msgMgr {s : ServerRun D M H U C} {a : N2HAct D H (ItcpArg C)}
      {n2h : N2HRun D H (ItcpArg C)} :
      N2HRun.Step pb s.n2h a n2h → Step pb K s (.msgMgr a) { s with n2h := n2h }
  | recv {s : ServerRun D M H U C} (x : WorkerRecv M U C) {wk : XscWorker D H (ItcpArg C)} :
      s.n2h.mgr.xscWorker[x.wk]? = some wk →
      Step pb K s (.recv x) { s with
        served := s.served ++ [{ x with
          returned := s.n2h.returned
          made := s.n2h.made.length
          seen := s.n2h.seenBy wk
          out := x.evnMsg pb K wk.msgMgr }] }

/-- A server with `n` workers that has served nothing. -/
def serverSystem (pb : Protobuf D M) (K : XscProto) (n : Nat) :
    System (ServerRun D M H U C) (ServerAct D M H U C) where
  init s := (n2hSystem pb n).init s.n2h ∧ s.served = []
  step := ServerRun.Step pb K

namespace ServerRun

variable {pb : Protobuf D M} {K : XscProto} {n : Nat} {s : ServerRun D M H U C}

/-- The message manager of a server that serves PDUs makes the runs it made alone. -/
theorem reachable_n2h (h : Reachable (serverSystem pb K n) Always s) :
    Reachable (n2hSystem pb n) Always s.n2h := by
  refine h.project ServerRun.n2h (fun s h0 => h0.1) ?_
  intro s a s' _ _ hstep
  cases hstep with
  | @msgMgr a n2h hmgr => exact .inr ⟨a, trivial, hmgr⟩
  | recv x hwk => exact .inl rfl

/-- The other way round, no PDU has to be served. -/
theorem reachable_of_n2h {n2h : N2HRun D H (ItcpArg C)}
    (h : Reachable (n2hSystem pb n) Always n2h) :
    Reachable (serverSystem (M := M) (U := U) pb K n) Always { n2h := n2h } := by
  induction h with
  | init h0 => exact .init ⟨h0, rfl⟩
  | step _ _ hstep ih => exact .step ih trivial (.msgMgr hstep)

/-- How a PDU was served: with the manager of the calls its worker had seen, which are all
that had returned and none that had not been made. -/
structure ServedAs (pb : Protobuf D M) (K : XscProto) (calls : List (MsgMgrCall D H (ItcpArg C)))
    (r : WorkerServed M H U C) : Prop where
  returned_le : r.returned ≤ r.seen
  le_made : r.seen ≤ r.made
  made_le : r.made ≤ r.returned + 1
  le_calls : r.made ≤ calls.length
  out : r.out = r.evnMsg pb K (MsgMgrCall.upToDate pb (calls.take r.seen))

/-- What was served stays explained by the calls before it. -/
theorem ServedAs.snoc {calls : List (MsgMgrCall D H (ItcpArg C))} {r : WorkerServed M H U C}
    (h : ServedAs pb K calls r) (c : MsgMgrCall D H (ItcpArg C)) :
    ServedAs pb K (calls ++ [c]) r := by
  have hle : r.seen ≤ calls.length := Nat.le_trans h.le_made h.le_calls
  refine ⟨h.returned_le, h.le_made, h.made_le, ?_, ?_⟩
  · rw [List.length_append]
    exact Nat.le_add_right_of_le h.le_calls
  · rw [List.take_append_of_le_length hle]
    exact h.out

/-- The invariant of the PDUs served so far. -/
structure Inv (pb : Protobuf D M) (K : XscProto) (s : ServerRun D M H U C) : Prop where
  served : ∀ r ∈ s.served, ServedAs pb K s.n2h.made r
  /-- No worker has fallen back behind a PDU it served. -/
  last : ∀ r ∈ s.served, ∀ wk, s.n2h.mgr.xscWorker[r.wk]? = some wk → r.seen ≤ s.n2h.seenBy wk
  order : s.served.Pairwise fun r r' => r.made ≤ r'.made ∧ (r.wk = r'.wk → r.seen ≤ r'.seen)

/-- A call keeps what holds of the PDUs served before it, and so does a task. -/
theorem Inv.msgMgr (h : Inv pb K s) {a : N2HAct D H (ItcpArg C)} {n2h : N2HRun D H (ItcpArg C)}
    (hstep : N2HRun.Step pb s.n2h a n2h) : Inv pb K { s with n2h := n2h } := by
  refine ⟨?_, ?_, h.order⟩
  · intro r hr
    cases hstep with
    | call c _ =>
        have hmade : N2HRun.made ⟨(c.call pb s.n2h.mgr).1,
            s.n2h.calls ++ [(c, (c.call pb s.n2h.mgr).2)]⟩ = s.n2h.made ++ [c] := by
          simp [N2HRun.made]
        rw [hmade]
        exact (h.served r hr).snoc c
    | exec _ _ => exact h.served r hr
  · intro r hr wk' hwk'
    have hlen : n2h.mgr.xscWorker.length = s.n2h.mgr.xscWorker.length := by
      cases hstep with
      | call c _ =>
          rcases c.call_cases pb s.n2h.mgr with ⟨-, hmgr⟩ | ⟨-, task, -, -, hworkers⟩
          · rw [hmgr]
          · rw [hworkers, List.length_map]
      | exec _ _ => exact List.length_set
    obtain ⟨hlt, -⟩ := List.getElem?_eq_some_iff.mp hwk'
    have hwk := List.getElem?_eq_getElem (hlen ▸ hlt : r.wk < s.n2h.mgr.xscWorker.length)
    exact Nat.le_trans (h.last r hr _ hwk) (hstep.seenBy_mono hwk hwk')

/-- A PDU is served by the manager its worker has at that time. -/
theorem Inv.recv (h : Inv pb K s) (hlock : s.n2h.LockStep pb) (x : WorkerRecv M U C)
    {wk : XscWorker D H (ItcpArg C)} (hwk : s.n2h.mgr.xscWorker[x.wk]? = some wk) :
    Inv pb K { s with
      served := s.served ++ [{ x with
        returned := s.n2h.returned
        made := s.n2h.made.length
        seen := s.n2h.seenBy wk
        out := x.evnMsg pb K wk.msgMgr }] } := by
  have hmem : wk ∈ s.n2h.mgr.xscWorker := List.mem_of_getElem? hwk
  refine ⟨?_, ?_, ?_⟩
  · intro r hr
    rcases List.mem_append.mp hr with hold | hnew
    · exact h.served r hold
    · obtain rfl := List.mem_singleton.mp hnew
      refine ⟨hlock.returned_le_seenBy hmem, Nat.sub_le _ _, ?_, Nat.le_refl _, ?_⟩
      · show s.n2h.made.length ≤ s.n2h.returned + 1
        unfold N2HRun.returned
        split <;> omega
      · show x.evnMsg pb K wk.msgMgr = _
        rw [hlock.msgMgr hmem]
  · intro r hr wk' hwk'
    rcases List.mem_append.mp hr with hold | hnew
    · exact h.last r hold wk' hwk'
    · obtain rfl := List.mem_singleton.mp hnew
      rw [Option.some.inj (hwk.symm.trans hwk')]
  · refine List.pairwise_append.mpr ⟨h.order, List.pairwise_singleton _ _, ?_⟩
    intro r hr r' hr'
    obtain rfl := List.mem_singleton.mp hr'
    refine ⟨(h.served r hr).le_calls, ?_⟩
    intro hsame
    exact h.last r hr wk (by rw [hsame]; exact hwk)

theorem reachable_inv (h : Reachable (serverSystem pb K n) Always s) : Inv pb K s := by
  refine h.invariant_using (J := fun s => s.n2h.LockStep pb)
    (fun s hr => N2HRun.reachable_lockStep (reachable_n2h hr)) ?_ ?_
  · rintro s ⟨-, hnil⟩
    refine ⟨?_, ?_, ?_⟩
    · simp [hnil]
    · simp [hnil]
    · rw [hnil]
      exact .nil
  · intro s a s' hlock hinv _ hstep
    cases hstep with
    | msgMgr hmgr => exact hinv.msgMgr hmgr
    | recv x hwk => exact hinv.recv hlock x hwk

end ServerRun

section Served

variable {pb : Protobuf D M} {K : XscProto} {n : Nat} {s : ServerRun D M H U C}

/-- The workers together serve as one manager.  Whatever the number of workers, the calls of
`reg` and `setItcp` and the order in which tasks run and PDUs come, a PDU is served as by
one plain manager after the first calls made: those that have returned and at most one more,
which has been made and is still waiting.  On one worker no later PDU is served with fewer
calls. -/
theorem served_as_one_msgMgr (h : Reachable (serverSystem pb K n) Always s) :
    (∀ r ∈ s.served, ServerRun.ServedAs pb K s.n2h.made r) ∧
      s.served.Pairwise fun r r' => r.made ≤ r'.made ∧ (r.wk = r'.wk → r.seen ≤ r'.seen) :=
  ⟨(ServerRun.reachable_inv h).served, (ServerRun.reachable_inv h).order⟩

namespace MsgMgrCall

/-- A name that has a stub keeps it, whatever is called later. -/
theorem firstStub_of_take {calls : List (MsgMgrCall D H A)} {k : Nat} {msg : Text}
    {stub : XmsgImMsgStub D H} (h : firstStub pb (calls.take k) msg = some stub) :
    firstStub pb calls msg = some stub := by
  conv_lhs => rw [← List.take_append_drop k calls]
  unfold firstStub at h ⊢
  rw [List.filterMap_append, List.find?_append, h]
  rfl

/-- No interceptor is set after a `reg`. -/
def ItcpFirst (calls : List (MsgMgrCall D H A)) : Prop :=
  calls.Pairwise fun c c' => c'.itcpCb.isSome → c.itcpCb.isSome

/-- Then the interceptor set last is set as soon as one name has a stub. -/
theorem ItcpFirst.lastItcp_take {calls : List (MsgMgrCall D H A)} (h : ItcpFirst calls) {k : Nat}
    {msg : Text} {stub : XmsgImMsgStub D H}
    (hstub : firstStub pb (calls.take k) msg = some stub) :
    lastItcp (calls.take k) = lastItcp calls := by
  obtain ⟨c, hc, hcstub⟩ := List.mem_filterMap.mp (List.mem_of_find?_eq_some hstub)
  have hreg : c.itcpCb = none := by
    cases c with
    | reg begin_ end_ uni cb auth foreign => rfl
    | setItcp cb => cases hcstub
  have hlater (c' : MsgMgrCall D H A) (hc' : c' ∈ calls.drop k) : c'.itcpCb = none := by
    have hsplit : calls.take k ++ calls.drop k = calls := List.take_append_drop k calls
    have hpair := (List.pairwise_append.mp (hsplit.symm ▸ h)).2.2 c hc c' hc'
    cases hcb : c'.itcpCb with
    | none => rfl
    | some cb =>
        have hset : c.itcpCb.isSome := hpair (by rw [hcb]; rfl)
        rw [hreg] at hset
        exact Bool.noConfusion hset
  have hdrop : (calls.drop k).filterMap itcpCb = [] := List.filterMap_eq_nil_iff.mpr hlater
  conv_rhs => rw [← List.take_append_drop k calls]
  unfold lastItcp
  rw [List.filterMap_append, hdrop, List.append_nil]

end MsgMgrCall

/-- What a worker holds under a name, and the interceptor it asks. -/
theorem upToDate_on {calls : List (MsgMgrCall D H (ItcpArg C))} {wk : Nat} {ch : C}
    {mgr : XmsgImMsgMgr D H}
    (h : (MsgMgrCall.upToDate pb calls).map (·.on wk ch) = some mgr) :
    (∀ msg, mgr.getMsgStub msg = MsgMgrCall.firstStub pb calls msg) ∧
      mgr.itcpCb = (MsgMgrCall.lastItcp calls).map fun cb pdu => cb (wk, ch, pdu) := by
  cases calls with
  | nil => cases h
  | cons c calls =>
      have hmgr := Option.some.inj h
      refine ⟨?_, ?_⟩
      · intro msg
        rw [← MsgMgrCall.plainAfter_getMsgStub, ← hmgr]
        rfl
      · rw [← MsgMgrCall.plainAfter_itcpCb, ← hmgr]
        rfl

/-- One handler for a name on all workers, and no way round the interceptor.  In any run a
worker calls, for a PDU, only the handler of the first `reg` under the PDU's name, through
the signature and with the authentication of that `reg`.  Where no interceptor is set after
a `reg`, the interceptor set last has let the PDU pass. -/
theorem one_handler_per_name (h : Reachable (serverSystem pb K n) Always s) :
    ∀ r ∈ s.served, ∀ call ∈ r.out.calls,
      ∃ trans stub, r.pdu.transm.trans = some trans ∧
        MsgMgrCall.firstStub pb s.n2h.made trans.msg = some stub ∧
        IsCallOf pb stub r.usr trans call ∧
        (MsgMgrCall.ItcpFirst s.n2h.made →
          ∀ cb, MsgMgrCall.lastItcp s.n2h.made = some cb → cb (r.wk, r.ch, r.pdu) = .DISABLE) := by
  intro r hr call hcall
  have hserved := (ServerRun.reachable_inv h).served r hr
  rw [hserved.out] at hcall
  obtain ⟨-, mgr, trans, stub, ⟨htrans, hmgr, hitcp⟩, hstub, hof⟩ :=
    passes_of_mem_evnMsg_calls hcall
  obtain ⟨hstubs, hcb⟩ := upToDate_on hmgr
  rw [hstubs] at hstub
  refine ⟨trans, stub, htrans, MsgMgrCall.firstStub_of_take hstub, hof, ?_⟩
  intro hfirst cb hlast
  rw [← hfirst.lastItcp_take hstub] at hlast
  rw [hlast] at hcb
  unfold XmsgImMsgMgr.itcp at hitcp
  rw [hcb] at hitcp
  exact hitcp

end Served

/-! A server with two workers on which one handler is registered, for the fixed inputs below:
the first worker has run its task and serves a PDU, the second has not and serves the same
PDU. -/

/-- The call of `reg`. -/
def sampleReg : MsgMgrCall SampleType Nat (ItcpArg Unit) :=
  .reg (some .ping) (some .pong) none 1 false .FOREIGN_FORBIDDEN

/-- The task it queues on each worker. -/
def sampleRegTask : WorkerTask SampleType Nat (ItcpArg Unit) :=
  .copyMsg "Ping"
    (XmsgImMsgStub.new samplePb (some .ping) (some .pong) none 1 false .FOREIGN_FORBIDDEN)

/-- The server whose `reg` waits for the second worker. -/
def sampleWaiting : N2HRun SampleType Nat (ItcpArg Unit) :=
  let start : XmsgImN2HMsgMgr SampleType Nat (ItcpArg Unit) :=
    { xscWorker := List.replicate 2 { val := none } }
  let called := (sampleReg.call samplePb start).1
  { mgr := { called with
      xscWorker := called.xscWorker.set 0 { val := sampleRegTask.run none } }
    calls := [(sampleReg, true)] }

/-- The PDU as the worker `wk` takes it up. -/
def sampleRecv (wk : Nat) : WorkerRecv SampleMsg String Unit :=
  { wk := wk, ch := (), chan := sampleChannel, usr := none, ptr := 1, gts := 0
    pdu := sampleBegin "Ping" [7] }

/-- What a worker with the message manager `msgMgr` and `seen` calls behind it logs. -/
def sampleServedBy (wk seen : Nat) (msgMgr : Option (XmsgImMsgMgr SampleType Nat (ItcpArg Unit))) :
    WorkerServed SampleMsg Nat String Unit :=
  { sampleRecv wk with
    returned := 0
    made := 1
    seen := seen
    out := (sampleRecv wk).evnMsg samplePb .sample msgMgr }

/-- The server after both workers have served the PDU. -/
def ServerRun.sample : ServerRun SampleType SampleMsg Nat String Unit :=
  { n2h := sampleWaiting
    served := [sampleServedBy 0 1 (sampleRegTask.run none), sampleServedBy 1 0 none] }

theorem sampleWaiting_reachable : Reachable (n2hSystem samplePb 2) Always sampleWaiting := by
  let start : N2HRun SampleType Nat (ItcpArg Unit) :=
    { mgr := { xscWorker := List.replicate 2 { val := none } } }
  let called : N2HRun SampleType Nat (ItcpArg Unit) :=
    { mgr := (sampleReg.call samplePb start.mgr).1, calls := [(sampleReg, true)] }
  have hret : start.Returned := by
    intro wk hwk
    rw [List.eq_of_mem_replicate hwk]
  have hcall : Reachable (n2hSystem samplePb 2) Always called :=
    .step (.init rfl) trivial (N2HRun.Step.call sampleReg hret)
  have hwk : called.mgr.xscWorker[0]? = some { val := none, queue := [sampleRegTask] } := rfl
  exact .step hcall trivial (N2HRun.Step.exec hwk rfl)

theorem ServerRun.sample_reachable :
    Reachable (serverSystem samplePb .sample 2) Always ServerRun.sample := by
  let idle : ServerRun SampleType SampleMsg Nat String Unit := { n2h := sampleWaiting }
  let half : ServerRun SampleType SampleMsg Nat String Unit :=
    { idle with served := [sampleServedBy 0 1 (sampleRegTask.run none)] }
  have hidle : Reachable (serverSystem samplePb .sample 2) Always idle :=
    reachable_of_n2h sampleWaiting_reachable
  have hwk : idle.n2h.mgr.xscWorker[0]? = some { val := sampleRegTask.run none } := rfl
  have hfirst : ServerRun.Step samplePb .sample idle (.recv (sampleRecv 0)) half :=
    .recv (s := idle) (sampleRecv 0) hwk
  have hbehind : half.n2h.mgr.xscWorker[1]? = some { val := none, queue := [sampleRegTask] } := rfl
  have hsecond : ServerRun.Step samplePb .sample half (.recv (sampleRecv 1)) ServerRun.sample :=
    .recv (s := half) (sampleRecv 1) hbehind
  exact .step (.step hidle trivial hfirst) trivial hsecond

theorem served_as_one_msgMgr_sample :
    (∀ r ∈ ServerRun.sample.served, ServerRun.ServedAs samplePb .sample [sampleReg] r) ∧
      ServerRun.sample.served.map (fun r => r.out.calls.map (·.cb)) = [[1], []] :=
  ⟨(served_as_one_msgMgr ServerRun.sample_reachable).1, by decide⟩

/-- An interceptor that keeps a channel's heartbeats and what has no transaction from the
handlers, set before the handler is registered. -/
def sampleItcp : ItcpArg Unit → XscMsgItcpRetType := fun a =>
  if a.2.2.transm.trans.isSome then .DISABLE else .FORBIDDEN

/-- A server with one worker that has both and has served a PDU. -/
theorem sampleIntercepted_reachable :
    ∃ s : ServerRun SampleType SampleMsg Nat String Unit,
      Reachable (serverSystem samplePb .sample 1) Always s ∧
        s.n2h.made = [.setItcp sampleItcp, sampleReg] ∧
        ∃ r ∈ s.served, r.pdu = sampleBegin "Ping" [7] ∧ r.wk = 0 ∧ r.usr = none ∧
          r.out.calls.map (·.cb) = [1] := by
  have hinit : Reachable (n2hSystem samplePb 1) Always
      ({ mgr := { xscWorker := List.replicate 1 { val := none } } } :
        N2HRun SampleType Nat (ItcpArg Unit)) := .init rfl
  have hset := hinit.step trivial
    (.call (.setItcp sampleItcp) (List.forall_mem_singleton.mpr rfl))
  have hsetRun := hset.step trivial (.exec (rfl : _[0]? = some _) rfl)
  have hreg := hsetRun.step trivial (.call sampleReg (List.forall_mem_singleton.mpr rfl))
  have hregRun := hreg.step trivial (.exec (rfl : _[0]? = some _) rfl)
  have hserver : Reachable (serverSystem (M := SampleMsg) (U := String) samplePb .sample 1)
      Always _ := ServerRun.reachable_of_n2h hregRun
  have hserved := hserver.step trivial (.recv (sampleRecv 0) (rfl : _[0]? = some _))
  exact ⟨_, hserved, rfl, _, List.mem_singleton_self _, rfl, rfl, rfl, by decide⟩

/-- The handler registered for the name, and the interceptor has let the PDU pass. -/
theorem one_handler_per_name_sample :
    ∃ (s : ServerRun SampleType SampleMsg Nat String Unit) (call : HandlerCall SampleMsg Nat String)
      (stub : XmsgImMsgStub SampleType Nat),
      Reachable (serverSystem samplePb .sample 1) Always s ∧ call.cb = 1 ∧
        MsgMgrCall.firstStub samplePb [.setItcp sampleItcp, sampleReg] "Ping" = some stub ∧
        IsCallOf samplePb stub none
          { trans := .BEGIN, stid := 5, msg := "Ping", dat := [7] } call ∧
        sampleItcp (0, (), sampleBegin "Ping" [7]) = .DISABLE := by
  obtain ⟨s, h, hmade, r, hr, hpdu, hwk, husr, hcbs⟩ := sampleIntercepted_reachable
  obtain ⟨call, hcalls, hcb⟩ := List.map_eq_singleton_iff.mp hcbs
  have hcall : call ∈ r.out.calls := by
    rw [hcalls]
    exact List.mem_singleton_self call
  obtain ⟨trans, stub, htrans, hfirst, hof, hitcp⟩ := one_handler_per_name h r hr call hcall
  rw [hpdu] at htrans
  cases htrans
  rw [hmade] at hfirst hitcp
  rw [husr] at hof
  have hpasses := hitcp (by simp [MsgMgrCall.ItcpFirst, sampleReg, MsgMgrCall.itcpCb])
    sampleItcp rfl
  rw [hpdu, hwk] at hpasses
  exact ⟨s, call, stub, h, hcb, hfirst, hof, hpasses⟩

end XmsgImXsc
