/-
# XmsgImXsc.ChannelRun -- runs of one channel, callbacks included

All operations on a channel run on its worker thread, so two of them overlap only when a
callback runs an operation of its own.  `Exec` is a channel with the operations in
progress: `stack` holds, for every operation inside a callback, the transactions it has
taken out and not ended yet, the innermost operation first.  While the stack is not empty
the innermost callback is in control; it may run further operations and ends with
`cbReturn`.

The other fields record history: the transactions begun, overwritten, taken out and ended.
The invariant `Inv` is that these books are balanced in the sense of `Ledger.Balanced`.
-/
import XmsgImXsc.Lib.Ledger
import XmsgImXsc.Lib.Lts
import XmsgImXsc.Channel

namespace XmsgImXsc

open Lts

variable {D M : Type}

/-! ## Taking a transaction out of the table -/

/-- The operation that took a transaction out of the table. -/
inductive Removal where
  | byEnd (pdu : XscProtoPdu) (end_ : XscProtoTransaction)
  | bySweep
  | byClean
  deriving Repr, DecidableEq

/-- What the operation owes to the callback: the END's result, or `RET_EXCEPTION` when its
body is to be parsed and cannot be, or the local result of the sweep and the cleanup. -/
def Removal.outcome (K : XscProto) (pb : Protobuf D M) (raw : Bool) : Removal → UInt16 × Text
  | .byEnd _ end_ =>
      if end_.msg ≠ [] ∧ raw = false ∧ XmsgImMsgStub.newPbMsgName pb end_.msg end_.dat = none
      then (K.RET_EXCEPTION, end_.desc ++ XmsgImTransInitiative.exceptionDesc)
      else (end_.ret, end_.desc)
  | .bySweep => (K.RET_TIME_OUT, "local timeout")
  | .byClean => (K.RET_TIME_OUT, "local clean")

/-- A transaction as it was in the table, and the operation that took it out. -/
structure Taken (M : Type) where
  trans : XmsgImTransInitiative M
  by_ : Removal
  deriving Repr, DecidableEq

/-- The call of `end` the operation makes, up to the callback. -/
def Taken.complete (K : XscProto) (pb : Protobuf D M) (b : Taken M) :
    XmsgImTransInitiative M :=
  match b.by_ with
  | .byEnd pdu end_ => (b.trans.endPdu K pb pdu end_).1
  | .bySweep => b.trans.endLocal K.RET_TIME_OUT "local timeout"
  | .byClean => b.trans.endLocal K.RET_TIME_OUT "local clean"

section Complete

variable (K : XscProto) (pb : Protobuf D M)

/-- `end` leaves the owed result in the transaction. -/
theorem Taken.complete_outcome (b : Taken M) :
    ((b.complete K pb).ret, (b.complete K pb).desc) = b.by_.outcome K pb b.trans.raw := by
  obtain ⟨t, by_⟩ := b
  cases by_ with
  | bySweep => rfl
  | byClean => rfl
  | byEnd pdu end_ =>
      simp only [Taken.complete, Removal.outcome, XmsgImTransInitiative.endPdu]
      cases pdu.oob <;> by_cases hmsg : end_.msg = [] <;> cases t.raw <;>
        cases XmsgImMsgStub.newPbMsgName pb end_.msg end_.dat <;> simp [hmsg]

end Complete

/-! ## Runs -/

/-- A channel with its operations in progress and its history, newest first. -/
structure Exec (M : Type) where
  ch : XmsgImChannel M
  stack : List (List (Taken M)) := []
  drawn : List UInt32 := []
  begun : List (XmsgImTransInitiative M) := []
  overwritten : List (XmsgImTransInitiative M) := []
  removed : List (Taken M) := []
  invoked : List (Taken M × XmsgImTransInitiative M) := []

/-- The steps of a run: an operation is started by the worker or by the running callback,
or the running callback returns.  `rehash` changes the iteration order of the table. -/
inductive Act (M : Type) where
  | genTid
  | futureBegin (trans : XmsgImTransInitiative M)
  | evnEnd (pdu : XscProtoPdu) (end_ : XscProtoTransaction)
  | checkTransInit (sec : UInt64) (tm : Int32) (now : UInt64)
  | cleanTransInit
  | clean
  | cbReturn
  | rehash (transInit : TransInit M)

namespace Exec

variable (K : XscProto) (pb : Protobuf D M) (e : Exec M)

/-- The loop over the transactions taken out: end the next one, whose callback is then in
control, or leave the operation. -/
def enter : List (Taken M) → Exec M
  | [] => e
  | b :: bs => { e with invoked := (b, b.complete K pb) :: e.invoked, stack := bs :: e.stack }

/-- An operation that leaves the channel `ch` and has taken out `bs`. -/
def takeOut (ch : XmsgImChannel M) (bs : List (Taken M)) : Exec M :=
  { e with ch := ch, removed := bs ++ e.removed }.enter K pb bs

/-- A tid is drawn for something that is not in the table. -/
def genTid : Exec M := { e with ch := e.ch.genTid.1, drawn := e.ch.genTid.2 :: e.drawn }

/-- A transaction is begun.  One that has the same tid is overwritten in the table. -/
def futureBegin (trans : XmsgImTransInitiative M) : Exec M :=
  { e with
    ch := (e.ch.futureBegin trans).1
    drawn := e.ch.genTid.2 :: e.drawn
    begun := (e.ch.futureBegin trans).2 :: e.begun
    overwritten := (e.ch.transInit.lookup e.ch.genTid.2).toList ++ e.overwritten }

/-- An END has come: the transaction it names, if any, ends with it. -/
def evnEnd (pdu : XscProtoPdu) (end_ : XscProtoTransaction) : Exec M :=
  e.takeOut K pb (e.ch.evnEnd end_).1 ((e.ch.evnEnd end_).2.toList.map (⟨·, .byEnd pdu end_⟩))

/-- The sweep of `dida`. -/
def checkTransInit (sec : UInt64) (tm : Int32) (now : UInt64) : Exec M :=
  e.takeOut K pb (e.ch.checkTransInit sec tm now).1
    ((e.ch.checkTransInit sec tm now).2.map (⟨·, .bySweep⟩))

/-- Every outstanding transaction ends, as if it had timed out. -/
def cleanTransInit : Exec M :=
  e.takeOut K pb e.ch.cleanTransInit.1 (e.ch.cleanTransInit.2.map (⟨·, .byClean⟩))

/-- The virtual `clean()` of the channel's class. -/
def clean : Exec M := e.takeOut K pb e.ch.clean.1 (e.ch.clean.2.map (⟨·, .byClean⟩))

end Exec

/-- One step of a run.  Every `begin` allocates a transaction object of its own. -/
inductive Step (K : XscProto) (pb : Protobuf D M) : Exec M → Act M → Exec M → Prop
  | genTid (e) : Step K pb e .genTid e.genTid
  | futureBegin (e) (trans) : trans.ptr ∉ e.begun.map (·.ptr) →
      Step K pb e (.futureBegin trans) (e.futureBegin trans)
  | evnEnd (e) (pdu end_) : pdu.transm.trans = some end_ →
      Step K pb e (.evnEnd pdu end_) (e.evnEnd K pb pdu end_)
  | checkTransInit (e) (sec tm now) :
      Step K pb e (.checkTransInit sec tm now) (e.checkTransInit K pb sec tm now)
  | cleanTransInit (e) : Step K pb e .cleanTransInit (e.cleanTransInit K pb)
  | clean (e) : Step K pb e .clean (e.clean K pb)
  | cbReturn (e) {bs rest} : e.stack = bs :: rest →
      Step K pb e .cbReturn ({ e with stack := rest }.enter K pb bs)
  | rehash (e) (t : TransInit M) : t.entries.Perm e.ch.transInit.entries →
      Step K pb e (.rehash t) { e with ch := { e.ch with transInit := t } }

/-- A channel as constructed: an empty table and no history. -/
structure Exec.Fresh (e : Exec M) : Prop where
  transInit : e.ch.transInit = ∅
  stack : e.stack = []
  drawn : e.drawn = []
  begun : e.begun = []
  overwritten : e.overwritten = []
  removed : e.removed = []
  invoked : e.invoked = []

/-- The runs of one channel. -/
def execSystem (K : XscProto) (pb : Protobuf D M) : System (Exec M) (Act M) where
  init := Exec.Fresh
  step := Step K pb

/-- The guard of the runs in which no tid is drawn while it is still a key of the table. -/
def FreshTid (e : Exec M) : Act M → Prop
  | .futureBegin _ => e.ch.genTid.2 ∉ e.ch.transInit
  | _ => True

/-! ## What a step leaves alone -/

section Frame

variable {K : XscProto} {pb : Protobuf D M} {e e' : Exec M} {a : Act M}

namespace Exec

@[simp] theorem enter_ch (bs : List (Taken M)) : (e.enter K pb bs).ch = e.ch := by
  cases bs <;> rfl

@[simp] theorem enter_begun (bs : List (Taken M)) : (e.enter K pb bs).begun = e.begun := by
  cases bs <;> rfl

@[simp] theorem enter_drawn (bs : List (Taken M)) : (e.enter K pb bs).drawn = e.drawn := by
  cases bs <;> rfl

@[simp] theorem enter_overwritten (bs : List (Taken M)) :
    (e.enter K pb bs).overwritten = e.overwritten := by
  cases bs <;> rfl

@[simp] theorem enter_removed (bs : List (Taken M)) :
    (e.enter K pb bs).removed = e.removed := by
  cases bs <;> rfl

@[simp] theorem takeOut_ch (ch : XmsgImChannel M) (bs : List (Taken M)) :
    (e.takeOut K pb ch bs).ch = ch := by
  unfold takeOut
  rw [enter_ch]

@[simp] theorem takeOut_removed (ch : XmsgImChannel M) (bs : List (Taken M)) :
    (e.takeOut K pb ch bs).removed = bs ++ e.removed := by
  unfold takeOut
  rw [enter_removed]

end Exec

/-- What a step can do: begin a transaction, take transactions out of the table and end the
first of them, end the next one that waits, draw a tid for another purpose, or reorder the
table. -/
theorem Step.cases_ (hstep : Step K pb e a e') :
    (∃ trans, a = .futureBegin trans ∧ trans.ptr ∉ e.begun.map (·.ptr) ∧
      e' = e.futureBegin trans) ∨
    (∃ ch bs, e.ch.TakesOut ch (bs.map Taken.trans) ∧ e' = e.takeOut K pb ch bs) ∨
    (∃ bs rest, e.stack = bs :: rest ∧ e' = { e with stack := rest }.enter K pb bs) ∨
    e' = e.genTid ∨
    (∃ t, t.entries.Perm e.ch.transInit.entries ∧
      e' = { e with ch := { e.ch with transInit := t } }) := by
  have hmap (ts : List (XmsgImTransInitiative M)) (r : Removal) :
      (ts.map (⟨·, r⟩ : _ → Taken M)).map Taken.trans = ts := by
    rw [List.map_map]
    exact List.map_id ts
  cases hstep with
  | futureBegin trans hptr => exact .inl ⟨trans, rfl, hptr, rfl⟩
  | evnEnd pdu end_ _ =>
      refine .inr (.inl ⟨_, _, ?_, rfl⟩)
      rw [hmap]
      exact e.ch.evnEnd_takesOut end_
  | checkTransInit sec tm now =>
      refine .inr (.inl ⟨_, _, ?_, rfl⟩)
      rw [hmap]
      exact e.ch.checkTransInit_takesOut sec tm now
  | cleanTransInit =>
      refine .inr (.inl ⟨_, _, ?_, rfl⟩)
      rw [hmap]
      exact e.ch.cleanTransInit_takesOut
  | clean =>
      refine .inr (.inl ⟨_, _, ?_, rfl⟩)
      rw [hmap]
      exact e.ch.clean_takesOut
  | cbReturn hstack => exact .inr (.inr (.inl ⟨_, _, hstack, rfl⟩))
  | genTid => exact .inr (.inr (.inr (.inl rfl)))
  | rehash t hperm => exact .inr (.inr (.inr (.inr ⟨t, hperm, rfl⟩)))

/-- A begin has one outcome. -/
theorem Step.eq_futureBegin {trans : XmsgImTransInitiative M}
    (hstep : Step K pb e (.futureBegin trans) e') : e' = e.futureBegin trans := by
  cases hstep with
  | futureBegin => rfl

/-- A begun transaction stays on record. -/
theorem Step.begun_subset (hstep : Step K pb e a e') {t : XmsgImTransInitiative M}
    (ht : t ∈ e.begun) : t ∈ e'.begun := by
  rcases hstep.cases_ with ⟨trans, -, -, rfl⟩ | ⟨ch, bs, -, rfl⟩ | ⟨bs, rest, -, rfl⟩ |
    rfl | ⟨t, -, rfl⟩
  · exact List.mem_cons_of_mem _ ht
  · rw [Exec.takeOut, Exec.enter_begun]
    exact ht
  · rw [Exec.enter_begun]
    exact ht
  · exact ht
  · exact ht

/-- What was taken out stays on record. -/
theorem Step.removed_subset (hstep : Step K pb e a e') {b : Taken M} (hb : b ∈ e.removed) :
    b ∈ e'.removed := by
  rcases hstep.cases_ with ⟨trans, -, -, rfl⟩ | ⟨ch, bs, -, rfl⟩ | ⟨bs, rest, -, rfl⟩ |
    rfl | ⟨t, -, rfl⟩
  · exact hb
  · rw [Exec.takeOut_removed]
    exact List.mem_append_right bs hb
  · rw [Exec.enter_removed]
    exact hb
  · exact hb
  · exact hb

/-- No step changes the transport. -/
theorem Step.pro_eq (hstep : Step K pb e a e') : e'.ch.pro = e.ch.pro := by
  rcases hstep.cases_ with ⟨trans, -, -, rfl⟩ | ⟨ch, bs, htake, rfl⟩ | ⟨bs, rest, -, rfl⟩ |
    rfl | ⟨t, -, rfl⟩
  · rfl
  · rw [Exec.takeOut_ch]
    exact htake.pro
  · rw [Exec.enter_ch]
  · rfl
  · rfl

end Frame

/-! ## The books of a channel are balanced -/

namespace Exec

/-- The life cycle of the transactions, told apart by their address. -/
def Books (e : Exec M) : Prop :=
  Ledger.Balanced (fun t : XmsgImTransInitiative M => t.ptr) Taken.trans e.begun e.ch.pending
    e.overwritten e.removed e.stack.flatten (e.invoked.map Prod.fst)

/-- What holds in every reachable state of a channel. -/
structure Inv (K : XscProto) (pb : Protobuf D M) (e : Exec M) : Prop where
  keyed : e.ch.Keyed
  books : e.Books
  completed : ∀ i ∈ e.invoked, i.2 = i.1.complete K pb

variable {K : XscProto} {pb : Protobuf D M} {e : Exec M}

/-- It holds of a fresh channel. -/
theorem Fresh.inv (h : e.Fresh) : e.Inv K pb where
  keyed := by
    rw [XmsgImChannel.Keyed, h.transInit]
    exact Tables.all_empty
  books := by
    have hpending : e.ch.pending = [] := XmsgImChannel.pending_eq_nil_iff.mpr h.transInit
    rw [Books, hpending, h.begun, h.overwritten, h.removed, h.stack, h.invoked]
    exact Ledger.Balanced.empty
  completed := by
    rw [h.invoked]
    intro i hi
    simp at hi

/-- Entering the loop over `bs` ends its first transaction and lets the others wait. -/
theorem enter_inv {bs : List (Taken M)} (hkeyed : e.ch.Keyed)
    (hbooks : Ledger.Balanced (fun t : XmsgImTransInitiative M => t.ptr) Taken.trans e.begun
      e.ch.pending e.overwritten e.removed (bs ++ e.stack.flatten) (e.invoked.map Prod.fst))
    (hcompleted : ∀ i ∈ e.invoked, i.2 = i.1.complete K pb) : (e.enter K pb bs).Inv K pb := by
  cases bs with
  | nil => exact ⟨hkeyed, hbooks, hcompleted⟩
  | cons b bs =>
      refine ⟨hkeyed, hbooks.finish (List.Perm.refl _), ?_⟩
      intro i hi
      rcases List.mem_cons.mp hi with rfl | hi
      · rfl
      · exact hcompleted i hi

/-- An operation that takes `bs` out of the table keeps the invariant. -/
theorem takeOut_inv (h : e.Inv K pb) {ch : XmsgImChannel M} {bs : List (Taken M)}
    (htake : e.ch.TakesOut ch (bs.map Taken.trans)) : (e.takeOut K pb ch bs).Inv K pb :=
  enter_inv (htake.keyed h.keyed) (h.books.take htake.perm) h.completed

/-- A begin adds a transaction that was not there. -/
theorem futureBegin_inv (h : e.Inv K pb) (trans : XmsgImTransInitiative M)
    (hptr : trans.ptr ∉ e.begun.map (·.ptr)) : (e.futureBegin trans).Inv K pb where
  keyed := XmsgImChannel.futureBegin_keyed h.keyed trans
  books := by
    have hissue := h.books.issue (a := (e.ch.futureBegin trans).2) hptr
    unfold Books futureBegin
    rw [XmsgImChannel.futureBegin_pending]
    cases hlook : e.ch.transInit.lookup e.ch.genTid.2 with
    | none =>
        have herase : e.ch.transInit.erase (e.ch.tidSeq + 1) = e.ch.transInit :=
          Tables.erase_of_notMem (AList.lookup_eq_none.mp hlook)
        rw [herase]
        exact hissue
    | some t =>
        -- the entry under the drawn tid is overwritten
        have hperm := Tables.values_erase_perm hlook
        exact hissue.lose ((hperm.cons _).trans (List.Perm.swap t _ _))
  completed := h.completed

end Exec

/-- Every step keeps the invariant. -/
theorem Step.inv {K : XscProto} {pb : Protobuf D M} {e e' : Exec M} {a : Act M}
    (hstep : Step K pb e a e') (h : e.Inv K pb) : e'.Inv K pb := by
  rcases hstep.cases_ with ⟨trans, -, hptr, rfl⟩ | ⟨ch, bs, htake, rfl⟩ |
    ⟨bs, rest, hstack, rfl⟩ | rfl | ⟨t, hperm, rfl⟩
  · exact Exec.futureBegin_inv h trans hptr
  · exact Exec.takeOut_inv h htake
  · have hbooks := h.books
    rw [Exec.Books, hstack] at hbooks
    exact Exec.enter_inv h.keyed hbooks h.completed
  · exact ⟨h.keyed, h.books, h.completed⟩
  · refine ⟨Tables.All.perm h.keyed hperm, ?_, h.completed⟩
    exact h.books.permOpen (hperm.symm.map _)

/-- So it holds in every reachable state, whatever the run is guarded by. -/
theorem reachable_inv {K : XscProto} {pb : Protobuf D M} {G : Exec M → Act M → Prop}
    {e : Exec M} (h : Reachable (execSystem K pb) G e) : e.Inv K pb :=
  h.invariant (fun _ h0 => Exec.Fresh.inv h0) fun _ _ _ hinv _ hstep => Step.inv hstep hinv

/-! ## Every transaction ends exactly once -/

namespace Exec

/-- The operations that took the transaction at address `p` out of the table. -/
def removals (e : Exec M) (p : Nat) : List (Taken M) :=
  e.removed.filter fun b => b.trans.ptr = p

/-- The calls of the callback of the transaction at address `p`, each with the result the
callback finds in the transaction. -/
def callbacks (e : Exec M) (p : Nat) : List (UInt16 × Text) :=
  (e.invoked.filter fun i => i.1.trans.ptr = p).map fun i => (i.2.ret, i.2.desc)

/-- What "a transaction ends exactly once" means for a state of a run. -/
structure EndsOnce (K : XscProto) (pb : Protobuf D M) (e : Exec M) : Prop where
  /-- The key of an entry is the tid of its transaction. -/
  keyed : ∀ k t, e.ch.transInit.lookup k = some t → t.stid = k
  /-- A begun transaction is in the table and was not taken out, or is not in the table
  and was taken out once. -/
  pendingOrRemoved : ∀ t ∈ e.begun,
    (e.ch.transInit.lookup t.stid = some t ∧ e.removals t.ptr = []) ∨
      (t.ptr ∉ e.ch.pending.map (·.ptr) ∧ ∃ b, b.trans = t ∧ e.removals t.ptr = [b])
  atMostOnce : ∀ p, (e.callbacks p).length ≤ 1
  /-- With no operation in progress every transaction taken out has had its callback, once,
  with the result of the operation that took it out. -/
  returned : e.stack = [] → ∀ b ∈ e.removed,
    e.callbacks b.trans.ptr = [b.by_.outcome K pb b.trans.raw]
  /-- An END for no entry changes nothing and `evnEnd` returns true. -/
  unknownDtid : ∀ pdu end_, end_.dtid ∉ e.ch.transInit →
    e.evnEnd K pb pdu end_ = e ∧ e.ch.evnEndRet K pb pdu end_ = true

variable {K : XscProto} {pb : Protobuf D M} {e : Exec M}

/-- An END that finds no entry is ignored. -/
theorem evnEnd_unknown (pdu : XscProtoPdu) {end_ : XscProtoTransaction}
    (h : end_.dtid ∉ e.ch.transInit) :
    e.evnEnd K pb pdu end_ = e ∧ e.ch.evnEndRet K pb pdu end_ = true := by
  have hnone : e.ch.evnEnd end_ = (e.ch, none) := by
    unfold XmsgImChannel.evnEnd
    rw [AList.lookup_eq_none.mpr h]
  constructor
  · unfold evnEnd takeOut
    rw [hnone]
    rfl
  · unfold XmsgImChannel.evnEndRet
    rw [hnone]

/-- The callbacks of a run are the finished tokens of its books, each with the result owed
by the operation that took the transaction out. -/
theorem Inv.callbacks_eq (h : e.Inv K pb) (p : Nat) :
    e.callbacks p = ((e.invoked.map Prod.fst).filter fun b => b.trans.ptr = p).map
      fun b => b.by_.outcome K pb b.trans.raw := by
  unfold callbacks
  rw [List.filter_map, List.map_map]
  apply List.map_congr_left
  intro i hi
  have hcomplete := h.completed i (List.mem_of_mem_filter hi)
  show (i.2.ret, i.2.desc) = i.1.by_.outcome K pb i.1.trans.raw
  rw [hcomplete, Taken.complete_outcome]

/-- No transaction has two callbacks. -/
theorem Inv.callbacks_length_le (h : e.Inv K pb) (p : Nat) : (e.callbacks p).length ≤ 1 := by
  rw [h.callbacks_eq, List.length_map]
  exact h.books.finished_at_most_once p

/-- A transaction taken out and not waiting in an operation in progress has had its
callback. -/
theorem Inv.callbacks_of_removed (h : e.Inv K pb) {b : Taken M} (hb : b ∈ e.removed)
    (hnot : b ∉ e.stack.flatten) :
    e.callbacks b.trans.ptr = [b.by_.outcome K pb b.trans.raw] := by
  rw [h.callbacks_eq, h.books.finished_unless_waiting hb hnot]
  rfl

/-- A pending transaction is found under its own tid. -/
theorem Inv.lookup_stid (h : e.Inv K pb) {t : XmsgImTransInitiative M}
    (ht : t ∈ e.ch.pending) : e.ch.transInit.lookup t.stid = some t := by
  obtain ⟨k, hk⟩ := Tables.mem_values_iff.mp ht
  rw [h.keyed k t hk]
  exact hk

/-- The invariant gives the property wherever no entry was overwritten. -/
theorem Inv.endsOnce (h : e.Inv K pb) (hover : e.overwritten = []) : e.EndsOnce K pb where
  keyed := h.keyed
  pendingOrRemoved := by
    intro t ht
    have hbooks := h.books
    rw [Books, hover] at hbooks
    rcases hbooks.open_or_taken_once ht with ⟨hopen, hnone⟩ | ⟨hnot, hone⟩
    · left
      obtain ⟨t', ht', hptr⟩ := List.mem_map.mp hopen
      -- two begun transactions at one address are the same one
      have hbegun : t' ∈ e.begun :=
        hbooks.split.mem_iff.mpr (List.mem_append_left _ ht')
      have heq : t' = t := List.inj_on_of_nodup_map hbooks.nodup hbegun ht hptr
      exact ⟨h.lookup_stid (heq ▸ ht'), hnone⟩
    · exact .inr ⟨hnot, hone⟩
  atMostOnce := h.callbacks_length_le
  returned := by
    intro hstack b hb
    apply h.callbacks_of_removed hb
    rw [hstack]
    simp
  unknownDtid := fun pdu _ hdtid => evnEnd_unknown pdu hdtid

end Exec

/-- While no drawn tid is still a key of the table, no entry is overwritten. -/
theorem reachable_overwritten {K : XscProto} {pb : Protobuf D M} {e : Exec M}
    (h : Reachable (execSystem K pb) FreshTid e) : e.overwritten = [] := by
  apply h.invariant (I := fun e => e.overwritten = [])
  · intro e hfresh
    exact hfresh.overwritten
  · intro e a e' hover hguard hstep
    rcases hstep.cases_ with ⟨trans, rfl, -, rfl⟩ | ⟨ch, bs, -, rfl⟩ | ⟨bs, rest, -, rfl⟩ |
      rfl | ⟨t, -, rfl⟩
    · have hnone : e.ch.transInit.lookup e.ch.genTid.2 = none :=
        AList.lookup_eq_none.mpr hguard
      show (e.ch.transInit.lookup e.ch.genTid.2).toList ++ e.overwritten = []
      rw [hnone, hover]
      rfl
    · rw [Exec.takeOut, Exec.enter_overwritten]
      exact hover
    · rw [Exec.enter_overwritten]
      exact hover
    · exact hover
    · exact hover

/-- In every run in which no tid is drawn while it is still a key of the table, every
initiative transaction ends exactly once, whatever the peer sends and whatever the
callbacks do. -/
theorem initiative_transactions_end_once (K : XscProto) (pb : Protobuf D M) {e : Exec M}
    (h : Reachable (execSystem K pb) FreshTid e) : e.EndsOnce K pb :=
  (reachable_inv h).endsOnce (reachable_overwritten h)

/-- A channel as constructed. -/
def Exec.start (pro : XscProtocolType) : Exec M :=
  { ch := { transInit := ∅, lastCheckTransTs := 0, tidSeq := 0, at_ := .ACTOR_N2H, pro := pro } }

theorem Exec.start_fresh (pro : XscProtocolType) : (Exec.start pro : Exec M).Fresh :=
  ⟨rfl, rfl, rfl, rfl, rfl, rfl, rfl⟩

/-- Two requests are outstanding. -/
def Exec.twoPending (pro : XscProtocolType) : Exec SampleMsg :=
  ((Exec.start pro).futureBegin (XmsgImChannel.begin_ 1 0 (.ping, []) none)).futureBegin
    (XmsgImChannel.begin_ 2 0 (.ping, []) none)

theorem Exec.twoPending_reachable (pro : XscProtocolType) :
    Reachable (execSystem .sample samplePb) FreshTid (Exec.twoPending pro) := by
  refine .step (.step (.init (Exec.start_fresh pro)) ?_ (.futureBegin _ _ ?_)) ?_
    (.futureBegin _ _ ?_)
  · show _ ∉ _
    simp [Exec.start]
  · simp [Exec.start]
  · show _ ∉ _
    cases pro <;> decide
  · cases pro <;> decide

/-- The END for the first request. -/
def sampleEnd : XscProtoTransaction :=
  { trans := .END, dtid := 1, ret := 7, desc := "done", msg := "Ping", dat := [] }

/-- The callback of the first request, run by its END, closes the channel. -/
theorem initiative_transactions_end_once_nested :
    let e := ((Exec.twoPending .XSC_PROTOCOL_TCP).evnEnd .sample samplePb
      { transm := { trans := some sampleEnd } } sampleEnd).clean .sample samplePb
    e.EndsOnce .sample samplePb ∧ e.callbacks 1 = [(7, ("done" : Text))] ∧
      e.callbacks 2 = [(XscProto.sample.RET_TIME_OUT, ("local clean" : Text))] := by
  refine ⟨?_, by decide, by decide⟩
  apply initiative_transactions_end_once
  refine .step (.step (Exec.twoPending_reachable _) ?_ (.evnEnd _ _ _ rfl)) ?_ (.clean _)
  · trivial
  · trivial

end XmsgImXsc
