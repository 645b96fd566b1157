/-
# XmsgImXsc.Trans -- network transactions

`XmsgImTrans` and its initiative, passive and unidirection kinds.  A transaction object is
shared through `shared_ptr`; `ptr` is its address, by which two transactions are told apart.
The callback of an initiative transaction and the channel it belongs to are named by the
transaction and are not fields.  `ets` is only ever printed and is left out.
-/
import XmsgImXsc.MsgStub

namespace XmsgImXsc

variable {D M : Type}

/-- `x_msg_im_trans_raw_msg`. -/
structure XmsgImTransRawMsg where
  msg : Text
  dat : Bytes
  deriving Repr, DecidableEq

/-- The fields that all kinds of transactions share. -/
structure XmsgImTrans (M : Type) where
  ptr : Nat
  beginMsg : Option M := none
  endMsg : Option M := none
  uniMsg : Option M := none
  rawMsg : Option XmsgImTransRawMsg := none
  stid : UInt32 := 0
  dtid : UInt32 := 0
  gts : UInt64
  ret : UInt16 := 0
  desc : Text := []
  ooob : Option Oob := none
  ioob : Option Oob := none
  deriving Repr, DecidableEq

namespace XmsgImTrans

/-- `addOob`: the outgoing list is created on first use. -/
def addOob (trans : XmsgImTrans M) (tag : UInt8) (val : Text) : XmsgImTrans M :=
  { trans with ooob := some (trans.ooob.getD [] ++ [(tag, val)]) }

/-- `for (auto& it : *oob) trans->addOob(it.first, it.second)`, nothing on a null list. -/
def addOobs (trans : XmsgImTrans M) (oob : Option Oob) : XmsgImTrans M :=
  match oob with
  | none => trans
  | some kv => kv.foldl (fun t it => t.addOob it.1 it.2) trans

/-- The loop of `getOob` and `haveOob` over the incoming list: the value under the first
entry with the tag. -/
def findOob (tag : UInt8) : Oob → Option Text
  | [] => none
  | it :: kv => if it.1 ≠ tag then findOob tag kv else some it.2

/-- `getOob`: whether there is an entry, and what `val` is afterwards. -/
def getOob (trans : XmsgImTrans M) (tag : UInt8) (val : Text) : Bool × Text :=
  match trans.ioob with
  | none => (false, val)
  | some kv =>
      match findOob tag kv with
      | none => (false, val)
      | some v => (true, v)

/-- `haveOob`: a received entry has the tag. -/
def haveOob (trans : XmsgImTrans M) (tag : UInt8) : Bool :=
  match trans.ioob with
  | none => false
  | some kv => (findOob tag kv).isSome

/-- What does not depend on the outgoing list is the same after `addOob` for each entry. -/
theorem addOobs_field {β : Type} (f : XmsgImTrans M → β)
    (hf : ∀ t tag val, f (t.addOob tag val) = f t) (trans : XmsgImTrans M) (oob : Option Oob) :
    f (trans.addOobs oob) = f trans := by
  cases oob with
  | none => rfl
  | some kv =>
      show f (kv.foldl (fun t it => t.addOob it.1 it.2) trans) = f trans
      induction kv generalizing trans with
      | nil => rfl
      | cons it kv ih => rw [List.foldl_cons, ih, hf]

end XmsgImTrans

/-! ## Initiative transactions -/

/-- `XmsgImTransInitiative`, with what `futureBegin` and `evnEnd` use of it. -/
structure XmsgImTransInitiative (M : Type) extends XmsgImTrans M where
  raw : Bool
  deriving Repr, DecidableEq

namespace XmsgImTransInitiative

/-- The text `end` appends to the description of an END whose body it cannot parse. -/
def exceptionDesc : Text := "(can not reflect to a pb object from data)"

/-- `end(ret, desc)`, up to the call of the callback with the transaction returned here. -/
def endLocal (trans : XmsgImTransInitiative M) (ret : UInt16) (desc : Text) :
    XmsgImTransInitiative M :=
  { trans with ret := ret, desc := desc }

/-- `end(pdu)`, up to the call of the callback with the transaction returned here; the
boolean is what it returns afterwards.  `end_` is `pdu->transm.trans`. -/
def endPdu (K : XscProto) (pb : Protobuf D M) (trans : XmsgImTransInitiative M)
    (pdu : XscProtoPdu) (end_ : XscProtoTransaction) : XmsgImTransInitiative M × Bool :=
  let trans := match pdu.oob with
    | some kv => { trans with ioob := some kv }
    | none => trans
  let trans := { trans with ret := end_.ret, desc := end_.desc }
  if end_.msg ≠ [] then
    if !trans.raw then
      match XmsgImMsgStub.newPbMsgName pb end_.msg end_.dat with
      | none =>
          ({ trans with ret := K.RET_EXCEPTION, desc := end_.desc ++ exceptionDesc }, false)
      | some msg => ({ trans with endMsg := some msg }, true)
    else ({ trans with rawMsg := some ⟨end_.msg, end_.dat⟩ }, true)
  else (trans, true)

end XmsgImTransInitiative

/-! ## Passive transactions -/

/-- `XmsgImTransPassive`. -/
structure XmsgImTransPassive (M : Type) extends XmsgImTrans M where
  lazyClose : Bool
  deriving Repr, DecidableEq

namespace XmsgImTransPassive

/-- The constructor; `gts` is the clock. -/
def new (ptr : Nat) (gts : UInt64) (pdu : XscProtoPdu) : XmsgImTransPassive M :=
  { ptr := ptr, gts := gts, ioob := pdu.oob, lazyClose := false }

/-- The public functions that end a passive transaction, with their arguments.  A format
string stands for the text it gives; a null one is `none`. -/
inductive EndCall (M : Type) where
  | end_ (end_ : Option M)
  | endRet (ret : UInt16)
  | endRetDesc (ret : UInt16) (desc : Text) (end_ : Option M)
  | endDesc (ret : UInt16) (fmt : Option Text)
  | endRaw (ret : UInt16) (desc : Text) (rawMsg : Option XmsgImTransRawMsg)
  | success
  | failure
  | endAndLazyClose (end_ : Option M)
  | endAndLazyCloseRet (ret : UInt16) (fmt : Option Text)
  deriving Repr, DecidableEq

variable (K : XscProto) (trans : XmsgImTransPassive M)

/-- `end(end)`. -/
def end_ (end_ : Option M) : XmsgImTransPassive M :=
  { trans with ret := K.RET_SUCCESS, endMsg := end_ }

/-- `end(ret)`. -/
def endRet (ret : UInt16) : XmsgImTransPassive M := { trans with ret := ret }

/-- `end(ret, desc, end)`. -/
def endRetDesc (ret : UInt16) (desc : Text) (end_ : Option M) : XmsgImTransPassive M :=
  { trans with ret := ret, desc := desc, endMsg := end_ }

/-- `endDesc(ret, fmt, ..)`: `fmt` is the formatted text, or null. -/
def endDesc (ret : UInt16) (fmt : Option Text) : XmsgImTransPassive M :=
  { trans with ret := ret, desc := fmt.getD trans.desc }

/-- `endRaw(ret, desc, rawMsg)`. -/
def endRaw (ret : UInt16) (desc : Text) (rawMsg : Option XmsgImTransRawMsg) :
    XmsgImTransPassive M :=
  { trans with ret := ret, desc := desc, rawMsg := rawMsg }

/-- `success()`. -/
def success : XmsgImTransPassive M := { trans with ret := K.RET_SUCCESS }

/-- `failure()`. -/
def failure : XmsgImTransPassive M := { trans with ret := K.RET_FAILURE }

/-- `endAndLazyClose(end)`. -/
def endAndLazyClose (end_ : Option M) : XmsgImTransPassive M :=
  { trans with lazyClose := true }.end_ K end_

/-- `endAndLazyClose(ret, fmt, ...)`. -/
def endAndLazyCloseRet (ret : UInt16) (fmt : Option Text) : XmsgImTransPassive M :=
  { trans with lazyClose := true, ret := ret, desc := fmt.getD trans.desc }

/-- The fields an end function sets before the private `end()` queues the closure that
runs `__end__`. -/
def endCall : EndCall M → XmsgImTransPassive M
  | .end_ e => trans.end_ K e
  | .endRet ret => trans.endRet ret
  | .endRetDesc ret desc e => trans.endRetDesc ret desc e
  | .endDesc ret fmt => trans.endDesc ret fmt
  | .endRaw ret desc rawMsg => trans.endRaw ret desc rawMsg
  | .success => trans.success K
  | .failure => trans.failure K
  | .endAndLazyClose e => trans.endAndLazyClose K e
  | .endAndLazyCloseRet ret fmt => trans.endAndLazyCloseRet ret fmt

/-- No end function changes which request is answered. -/
@[simp] theorem endCall_dtid (call : EndCall M) : (trans.endCall K call).dtid = trans.dtid := by
  cases call <;> rfl

end XmsgImTransPassive

/-! ## Unidirection transactions -/

/-- `XmsgImTransUnidirectionPass`; `gts` is the clock. -/
def XmsgImTransUnidirectionPass.new (ptr : Nat) (gts : UInt64) (pdu : XscProtoPdu) :
    XmsgImTrans M :=
  { ptr := ptr, gts := gts, ioob := pdu.oob }

end XmsgImXsc
