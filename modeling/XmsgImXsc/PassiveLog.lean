/-
# XmsgImXsc.PassiveLog -- the start and the end of passive transactions in the log

`transPassStart` is called when a transaction is created, before the permission is looked at,
and `transPassFinished` when its closure has run.  `PassiveLog` is the log of the requests
that come in on channels, with the transactions that handlers still have to end and the
closures that still have to run.  Its books are balanced in the sense of `Ledger.Balanced`;
the lost entries are the requests that are refused for want of a user.
-/
import XmsgImXsc.PassiveEnd
import XmsgImXsc.Lib.Ledger

namespace XmsgImXsc

open Lts

variable {D M H U : Type}

/-! ## What comes in -/

/-- A PDU, or the header fields of an HTTP request, and the channel they come in on. -/
inductive Input (M : Type) where
  | pdu (c : XmsgImChannel M) (pdu : XscProtoPdu)
  | header (lib : HttpLib) (c : XmsgImHttpChannel M) (header : HttpHeader)

/-- An input with the message table and the user it meets, the address of the transaction
that may be created of it and the clock. -/
structure Arrival (D M H U : Type) where
  usr : Option U
  msgMgr : Option (XmsgImMsgMgr D H)
  ptr : Nat
  gts : UInt64
  input : Input M

namespace Arrival

section Dispatch

variable (K : XscProto) (pb : Protobuf D M) (a : Arrival D M H U)

/-- The transaction that is logged with `transPassStart`. -/
def passStart : Option (XmsgImTransPassive M) :=
  match a.input with
  | .pdu c pdu => (evnMsg pb a.usr a.ptr a.gts pdu K a.msgMgr c).passStart
  | .header lib c header =>
      (XmsgImHttpChannel.evnHeader lib pb a.usr a.ptr a.gts a.msgMgr c header).passStart

/-- The handlers that are called. -/
def calls : List (HandlerCall M H U) :=
  match a.input with
  | .pdu c pdu => (evnMsg pb a.usr a.ptr a.gts pdu K a.msgMgr c).calls
  | .header lib c header =>
      (XmsgImHttpChannel.evnHeader lib pb a.usr a.ptr a.gts a.msgMgr c header).calls

/-- The BEGIN that is dispatched: the PDU that came in, or the one that is built of the header
fields of a GET request. -/
def Begins (pdu : XscProtoPdu) (begin_ : XscProtoTransaction) : Prop :=
  match a.input with
  | .pdu _ inbound => inbound = pdu ∧ IsBegin pdu begin_ K
  | .header lib c header => ∃ msgName dat, header.find "x-msg-name" = some msgName ∧
      c.method = "GET" ∧ header.find "x-msg-dat" = some dat ∧
      (let k := XmsgImHttpChannel.kept lib c msgName dat header
       k.beginPdu lib k.base.genTid.2 = pdu) ∧ pdu.transm.trans = some begin_

/-- A BEGIN comes in whose stub asks for a user on a channel that has none. -/
def Refused : Prop :=
  ∃ pdu begin_, a.Begins K pdu begin_ ∧ XmsgImXsc.Refused pb a.usr a.msgMgr pdu begin_

end Dispatch

variable {K : XscProto} {pb : Protobuf D M} {a : Arrival D M H U}

/-- An arrival begins one transaction at most. -/
theorem Begins.unique {pdu pdu' : XscProtoPdu} {begin_ begin_' : XscProtoTransaction}
    (h : a.Begins K pdu begin_) (h' : a.Begins K pdu' begin_') : pdu = pdu' ∧ begin_ = begin_' := by
  obtain ⟨usr, msgMgr, ptr, gts, input⟩ := a
  cases input with
  | pdu c inbound =>
      obtain ⟨rfl, -, htrans, -⟩ := h
      obtain ⟨rfl, -, htrans', -⟩ := h'
      rw [htrans] at htrans'
      exact ⟨rfl, Option.some.inj htrans'⟩
  | header lib c header =>
      obtain ⟨msgName, dat, hname, -, hdat, rfl, htrans⟩ := h
      obtain ⟨msgName', dat', hname', -, hdat', rfl, htrans'⟩ := h'
      rw [hname] at hname'
      rw [hdat] at hdat'
      cases hname'
      cases hdat'
      rw [htrans] at htrans'
      exact ⟨rfl, Option.some.inj htrans'⟩

/-- What an arrival can do: nothing, log a transaction and refuse it, or log it and call one
handler with it. -/
inductive Outcome (K : XscProto) (pb : Protobuf D M) (a : Arrival D M H U) : Prop
  | noTrans : a.passStart K pb = none → (a.calls K pb).filterMap HandlerCall.passive = [] →
      ¬ a.Refused K pb → Outcome K pb a
  | refused (t) : t.ptr = a.ptr → a.passStart K pb = some t →
      (a.calls K pb).filterMap HandlerCall.passive = [] → a.Refused K pb → Outcome K pb a
  | called (t) : t.ptr = a.ptr → a.passStart K pb = some t →
      (a.calls K pb).filterMap HandlerCall.passive = [t] → ¬ a.Refused K pb → Outcome K pb a

/-- When a BEGIN is dispatched, the outcome is that of `getOutcome`. -/
theorem Begins.outcome {pdu : XscProtoPdu} {begin_ : XscProtoTransaction}
    (h : a.Begins K pdu begin_)
    (hstart : a.passStart K pb =
      (XmsgImHttpChannel.getOutcome pb a.usr a.ptr a.gts a.msgMgr pdu begin_).passStart)
    (hcalls : a.calls K pb =
      (XmsgImHttpChannel.getOutcome pb a.usr a.ptr a.gts a.msgMgr pdu begin_).call.toList) :
    a.Outcome K pb := by
  have hnot (hok : ¬ XmsgImXsc.Refused pb a.usr a.msgMgr pdu begin_) : ¬ a.Refused K pb := by
    rintro ⟨pdu', begin_', h', hrefused⟩
    obtain ⟨rfl, rfl⟩ := h.unique h'
    exact hok hrefused
  cases getOutcome_outcome pb a.usr a.ptr a.gts pdu begin_ a.msgMgr with
  | noTrans hnone hcall hok =>
      rw [hnone] at hstart
      rw [hcall] at hcalls
      exact .noTrans hstart (by rw [hcalls]; rfl) (hnot hok)
  | refused req hsome hcall hrefused =>
      rw [hsome] at hstart
      rw [hcall] at hcalls
      exact .refused _ rfl hstart (by rw [hcalls]; rfl) ⟨pdu, begin_, h, hrefused⟩
  | called cb self req hsome hcall hok =>
      rw [hsome] at hstart
      rw [hcall] at hcalls
      exact .called _ rfl hstart (by rw [hcalls]; rfl) (hnot hok)

theorem outcome (K : XscProto) (pb : Protobuf D M) (a : Arrival D M H U) : a.Outcome K pb := by
  obtain ⟨usr, msgMgr, ptr, gts, input⟩ := a
  cases input with
  | pdu c pdu =>
      -- no other PDU makes a transaction
      by_cases hbegin : ∃ begin_, IsBegin pdu begin_ K
      · obtain ⟨begin_, hbegin⟩ := hbegin
        obtain ⟨-, hcalls, hstart⟩ := XmsgImHttpChannel.evnMsg_begin pb usr ptr gts msgMgr K c
          hbegin.1 hbegin.2.1 hbegin.2.2
        have h : Begins K ⟨usr, msgMgr, ptr, gts, .pdu c pdu⟩ pdu begin_ := ⟨rfl, hbegin⟩
        exact h.outcome hstart hcalls
      · obtain ⟨hstart, hcalls⟩ := evnMsg_notBegin pb usr ptr gts pdu K msgMgr c
          fun begin_ h => hbegin ⟨begin_, h⟩
        refine .noTrans hstart hcalls ?_
        rintro ⟨pdu', begin_, ⟨rfl, h⟩, -⟩
        exact hbegin ⟨begin_, h⟩
  | header lib c header =>
      cases hname : header.find "x-msg-name" with
      | none =>
          have hr := XmsgImHttpChannel.evnHeader_noName lib pb usr ptr gts msgMgr (c := c) hname
          refine .noTrans (congrArg (·.passStart) hr)
            (congrArg (·.calls.filterMap HandlerCall.passive) hr) ?_
          rintro ⟨pdu, begin_, ⟨msgName, dat, habs, -⟩, -⟩
          rw [hname] at habs
          cases habs
      | some msgName =>
          by_cases hmethod : c.method = "GET"
          · cases hdat : header.find "x-msg-dat" with
            | none =>
                have hr :=
                  XmsgImHttpChannel.evnHeader_noDat lib pb usr ptr gts msgMgr hname hmethod hdat
                refine .noTrans (congrArg (·.passStart) hr)
                  (congrArg (·.calls.filterMap HandlerCall.passive) hr) ?_
                rintro ⟨pdu, begin_, ⟨msgName', dat, -, -, habs, -⟩, -⟩
                rw [hdat] at habs
                cases habs
            | some dat =>
                -- the header fields make a BEGIN, dispatched as one of the binary path
                obtain ⟨begin_, ⟨hbegin, -⟩, hr⟩ :=
                  XmsgImHttpChannel.evnHeader_get lib pb usr ptr gts msgMgr hname hmethod hdat
                exact Begins.outcome ⟨msgName, dat, hname, hmethod, hdat, rfl, hbegin⟩
                  (congrArg (·.passStart) hr) (congrArg (·.calls) hr)
          · have hr := XmsgImHttpChannel.evnHeader_notGet lib pb usr ptr gts msgMgr hname hmethod
            refine .noTrans (congrArg (·.passStart) hr)
              (congrArg (·.calls.filterMap HandlerCall.passive) hr) ?_
            rintro ⟨pdu, begin_, ⟨msgName', dat, -, habs, -⟩, -⟩
            exact hmethod habs

end Arrival

/-! ## The log -/

/-- The log of passive transactions, told apart by their address: those started and those
finished, newest first, the ones a handler was called with that it has not ended, the ones
whose closure is queued, and what has come in. -/
structure PassiveLog (D M H U : Type) where
  started : List Nat := []
  open_ : List (XmsgImTransPassive M) := []
  queue : List (XmsgImTransPassive M) := []
  finished : List Nat := []
  arrivals : List (Arrival D M H U) := []

/-- What the closure of a transaction adds to the finished ones. -/
def XmsgImTransPassive.finishedBy (t : XmsgImTransPassive M) (outs : List Out) : List Nat :=
  (outs.filter Out.isPassFinished).map fun _ => t.ptr

/-- A closure logs the end of its own transaction once, on every way through it. -/
theorem XmsgImTransPassive.finishedBy_endClosure (K : XscProto) (pb : Protobuf D M)
    (pro : XscProtocolType) (est : Bool) (t : XmsgImTransPassive M) :
    t.finishedBy (t.endClosure K pb pro est) = [t.ptr] := by
  have hone := countP_isPassFinished_endClosure K pb pro est t
  rw [List.countP_eq_length_filter] at hone
  obtain ⟨o, ho⟩ := List.length_eq_one_iff.mp hone
  rw [finishedBy, ho]
  rfl

/-- A handler adds out-of-band entries and makes its end call. -/
def XmsgImTransPassive.endWith (K : XscProto) (t : XmsgImTransPassive M) (oob : Option Oob)
    (call : EndCall M) : XmsgImTransPassive M :=
  { t with toXmsgImTrans := t.toXmsgImTrans.addOobs oob }.endCall K call

@[simp] theorem XmsgImTransPassive.endWith_ptr (K : XscProto) (t : XmsgImTransPassive M)
    (oob : Option Oob) (call : EndCall M) : (t.endWith K oob call).ptr = t.ptr := by
  have hptr := XmsgImTrans.addOobs_field XmsgImTrans.ptr (fun _ _ _ => rfl) t.toXmsgImTrans oob
  cases call <;> exact hptr

namespace PassiveLog

section Moves

variable (K : XscProto) (pb : Protobuf D M) (s : PassiveLog D M H U)

/-- A PDU or a request arrives: what it starts is logged, and its handler is called. -/
def arrive (a : Arrival D M H U) : PassiveLog D M H U :=
  { s with
    started := (a.passStart K pb).toList.map (·.ptr) ++ s.started
    open_ := (a.calls K pb).filterMap HandlerCall.passive ++ s.open_
    arrivals := a :: s.arrivals }

/-- A handler ends `t`; it has not ended those in `rest`. -/
def end_ (t : XmsgImTransPassive M) (oob : Option Oob) (call : XmsgImTransPassive.EndCall M)
    (rest : List (XmsgImTransPassive M)) : PassiveLog D M H U :=
  { s with open_ := rest, queue := s.queue ++ [t.endWith K oob call] }

/-- The closure of `t` runs and leaves `queue`. -/
def run (pro : XscProtocolType) (est : Bool) (t : XmsgImTransPassive M)
    (queue : List (XmsgImTransPassive M)) : PassiveLog D M H U :=
  { s with
    queue := queue
    finished := t.finishedBy (t.endClosure K pb pro est) ++ s.finished }

end Moves

/-- What happens: an arrival, a call of an end function, or the next closure. -/
inductive Act (D M H U : Type) where
  | arrive (a : Arrival D M H U)
  | end_ (t : XmsgImTransPassive M) (oob : Option Oob) (call : XmsgImTransPassive.EndCall M)
  | run (pro : XscProtocolType) (est : Bool)

/-- The object of a new transaction has an address of its own.  A handler ends a transaction
it was called with once, whenever it likes, and the closures run in their order. -/
inductive Step (K : XscProto) (pb : Protobuf D M) :
    PassiveLog D M H U → Act D M H U → PassiveLog D M H U → Prop
  | arrive (s a) : a.ptr ∉ s.started → Step K pb s (.arrive a) (s.arrive K pb a)
  | end_ (s t oob call rest) : s.open_.Perm (t :: rest) →
      Step K pb s (.end_ t oob call) (s.end_ K t oob call rest)
  | run (s pro est t queue) : s.queue = t :: queue →
      Step K pb s (.run pro est) (s.run K pb pro est t queue)

end PassiveLog

/-- The runs from an empty log. -/
def logSystem (K : XscProto) (pb : Protobuf D M) :
    System (PassiveLog D M H U) (PassiveLog.Act D M H U) where
  init s := s = {}
  step := PassiveLog.Step K pb

namespace PassiveLog

variable {K : XscProto} {pb : Protobuf D M} {s s' : PassiveLog D M H U} {a : Act D M H U}

/-- The start and the end of every started transaction have been logged once each. -/
def OnceEach (s : PassiveLog D M H U) : Prop :=
  ∀ p ∈ s.started, s.started.count p = 1 ∧ s.finished.count p = 1

/-- The books: a started transaction is open, refused or ended, and an ended one waits for its
closure or is finished.  Transactions are lost where an arrival is refused. -/
def Books (K : XscProto) (pb : Protobuf D M) (s : PassiveLog D M H U) : Prop :=
  ∃ refused ended, Ledger.Balanced id id s.started (s.open_.map (·.ptr)) refused ended
      (s.queue.map (·.ptr)) s.finished ∧
    (refused = [] ↔ ∀ a ∈ s.arrivals, ¬ a.Refused K pb)

/-- An arrival opens the transaction that it logs the start of, or loses it. -/
theorem arrive_books (h : s.Books K pb) {a : Arrival D M H U} (hptr : a.ptr ∉ s.started) :
    (s.arrive K pb a).Books K pb := by
  obtain ⟨refused, ended, hbooks, hiff⟩ := h
  have hfresh : id a.ptr ∉ s.started.map id := by
    rw [List.map_id]
    exact hptr
  have hcons : (∀ b ∈ a :: s.arrivals, ¬ b.Refused K pb) ↔
      ¬ a.Refused K pb ∧ ∀ b ∈ s.arrivals, ¬ b.Refused K pb := List.forall_mem_cons
  unfold Books arrive
  cases a.outcome K pb with
  | noTrans hstart hcalls hnot =>
      rw [hstart, hcalls]
      refine ⟨refused, ended, hbooks, ?_⟩
      rw [hcons, hiff]
      exact ⟨fun hall => ⟨hnot, hall⟩, And.right⟩
  | refused t ht hstart hcalls hrefused =>
      -- the transaction was logged, and nobody will end it
      rw [hstart, hcalls]
      show ∃ refused ended, Ledger.Balanced id id (t.ptr :: s.started) _ refused ended _ _ ∧ _
      rw [ht]
      refine ⟨a.ptr :: refused, ended, (hbooks.issue hfresh).lose (List.Perm.refl _), ?_⟩
      rw [hcons]
      exact ⟨fun habs => (by cases habs), fun hall => absurd hrefused hall.1⟩
  | called t ht hstart hcalls hnot =>
      rw [hstart, hcalls]
      show ∃ refused ended, Ledger.Balanced id id (t.ptr :: s.started)
        (t.ptr :: s.open_.map (·.ptr)) refused ended _ _ ∧ _
      rw [ht]
      refine ⟨refused, ended, hbooks.issue hfresh, ?_⟩
      rw [hcons, hiff]
      exact ⟨fun hall => ⟨hnot, hall⟩, And.right⟩

theorem Step.books (hstep : Step K pb s a s') (h : s.Books K pb) : s'.Books K pb := by
  cases hstep with
  | arrive a hptr => exact arrive_books h hptr
  | end_ t oob call rest hperm =>
      -- the closure goes to the back of the queue, and the books do not tell its order
      obtain ⟨refused, ended, hbooks, hiff⟩ := h
      refine ⟨refused, [t.ptr] ++ ended, ?_, hiff⟩
      show Ledger.Balanced id id _ _ _ _ ((s.queue ++ [t.endWith K oob call]).map (·.ptr)) _
      rw [List.map_append, List.map_singleton, XmsgImTransPassive.endWith_ptr]
      exact (hbooks.take (hperm.map (·.ptr))).permWaiting List.perm_append_comm
  | run pro est t queue hqueue =>
      obtain ⟨refused, ended, hbooks, hiff⟩ := h
      refine ⟨refused, ended, ?_, hiff⟩
      show Ledger.Balanced id id _ _ _ _ _ (t.finishedBy _ ++ s.finished)
      rw [XmsgImTransPassive.finishedBy_endClosure]
      rw [hqueue] at hbooks
      exact hbooks.finish (List.Perm.refl _)

/-- The log balances in every reachable state. -/
theorem reachable_books {G : PassiveLog D M H U → Act D M H U → Prop}
    (h : Reachable (logSystem K pb) G s) : s.Books K pb := by
  apply h.invariant (I := fun s => s.Books K pb)
  · rintro s rfl
    refine ⟨[], [], Ledger.Balanced.empty, ?_⟩
    exact ⟨fun _ a ha => (by cases ha), fun _ => rfl⟩
  · intro s a s' hbooks _ hstep
    exact hstep.books hbooks

section Run

variable (h : Reachable (logSystem K pb) Always s)

include h

theorem reachable_arrive (a : Arrival D M H U) (hptr : a.ptr ∉ s.started) :
    Reachable (logSystem K pb) Always (s.arrive K pb a) :=
  h.step (a := .arrive a) trivial (.arrive s a hptr)

theorem reachable_end {t : XmsgImTransPassive M} {rest : List (XmsgImTransPassive M)}
    (hperm : s.open_.Perm (t :: rest)) (oob : Option Oob)
    (call : XmsgImTransPassive.EndCall M) :
    Reachable (logSystem K pb) Always (s.end_ K t oob call rest) :=
  h.step (a := .end_ t oob call) trivial (.end_ s t oob call rest hperm)

theorem reachable_run {t : XmsgImTransPassive M} {queue : List (XmsgImTransPassive M)}
    (hqueue : s.queue = t :: queue) (pro : XscProtocolType) (est : Bool) :
    Reachable (logSystem K pb) Always (s.run K pb pro est t queue) :=
  h.step (a := .run pro est) trivial (.run s pro est t queue hqueue)

end Run

end PassiveLog

/-- In every run of inbound PDUs and HTTP requests in which every handler that was called has
ended its transaction and all closures have run, the start and the end of every passive
transaction have been logged once each if and only if no request was refused for want of a
user. -/
theorem passive_log_balanced_iff {K : XscProto} {pb : Protobuf D M} {s : PassiveLog D M H U}
    (h : Reachable (logSystem K pb) Always s) (hopen : s.open_ = []) (hqueue : s.queue = []) :
    s.OnceEach ↔ ∀ a ∈ s.arrivals, ¬ a.Refused K pb := by
  obtain ⟨refused, ended, hbooks, hiff⟩ := PassiveLog.reachable_books h
  rw [hopen, hqueue] at hbooks
  have hnodup : s.started.Nodup := by
    have hkeys := hbooks.nodup
    rw [List.map_id] at hkeys
    exact hkeys
  have honce := hbooks.finished_once_iff
  rw [Function.comp_id, List.map_id] at honce
  rw [← hiff, ← honce]
  constructor
  · intro heach p hp
    exact (heach p hp).2
  · intro hfinished p hp
    exact ⟨List.count_eq_one_of_mem hnodup hp, hfinished p hp⟩

/-- A request of the sample table that asks for a user. -/
def samplePing (usr : Option String) : Arrival SampleType SampleMsg Nat String where
  usr := usr
  msgMgr := some (RegCall.regAll samplePb sampleRegs)
  ptr := 1
  gts := 0
  input := .pdu sampleChannel (sampleBegin "Ping" [7])

theorem samplePing_reachable (usr : Option String) :
    Reachable (logSystem .sample samplePb) Always
      (PassiveLog.arrive .sample samplePb {} (samplePing usr)) :=
  PassiveLog.reachable_arrive (.init rfl) (samplePing usr) List.not_mem_nil

/-- The request of a user, ended with success on a channel that is lost meanwhile. -/
theorem passive_log_balanced_iff_ended :
    ∃ s, Reachable (logSystem .sample samplePb) Always s ∧
      s.arrivals = [samplePing (some "alice")] ∧ s.started = [1] ∧ s.OnceEach := by
  have hended := PassiveLog.reachable_end (samplePing_reachable (some "alice"))
    (t := samplePassive) (List.Perm.refl _) none .success
  have hrun := PassiveLog.reachable_run hended rfl .XSC_PROTOCOL_TCP false
  refine ⟨_, hrun, rfl, rfl, (passive_log_balanced_iff hrun rfl rfl).mpr ?_⟩
  intro a ha
  rw [List.mem_singleton.mp ha]
  rintro ⟨pdu, begin_, -, mgr, stub, -, -, -, -, -, habs⟩
  cases habs

/-- The same request on a channel without a user is logged once, and no closure is left that
could log its end. -/
theorem passive_log_unbalanced_ping :
    ∃ s, Reachable (logSystem .sample samplePb) Always s ∧
      s.arrivals = [samplePing none] ∧ s.open_ = [] ∧ s.queue = [] ∧
      s.started = [1] ∧ s.finished = [] ∧ ¬ s.OnceEach := by
  refine ⟨_, samplePing_reachable none, rfl, rfl, rfl, rfl, rfl, ?_⟩
  intro heach
  have hone := (heach 1 List.mem_cons_self).2
  revert hone
  decide

end XmsgImXsc
