/-
# XmsgImXsc.Dispatch -- from a received PDU to a registered handler

`XmsgImMsgMgr` is a table from message names to stubs.  `evnMsg` looks the name of a PDU up
in it, makes the request message and calls the handler of the stub, which was registered as
an untyped pointer and is cast to one of four signatures.  A call is a value of
`HandlerCall` here; its form says which signature the source casts to.
-/
import XmsgImXsc.ChannelRun

namespace XmsgImXsc

variable {D M H U : Type}

/-! ## The message table -/

/-- `XscMsgItcpRetType`: what an interceptor did with a PDU. -/
inductive XscMsgItcpRetType where
  | DISABLE
  | SUCCESS
  | FORBIDDEN
  | EXCEPTION
  deriving Repr, DecidableEq

/-- The table and the interceptor.  `A` is what an interceptor is called with: on one channel
of one worker only the PDU varies. -/
structure XmsgImMsgMgr (D H : Type) (A : Type := XscProtoPdu) where
  msgs : Tables.Table Text (XmsgImMsgStub D H) := ∅
  itcpCb : Option (A → XscMsgItcpRetType) := none

namespace XmsgImMsgMgr

variable {A : Type}

/-- `reg`: a second stub of a name is refused. -/
def reg (pb : Protobuf D M) (mgr : XmsgImMsgMgr D H A) (begin_ end_ uni : Option D) (cb : H)
    (auth : Bool) (foreign : ForeignAccessPermission) : XmsgImMsgMgr D H A × Bool :=
  let stub := XmsgImMsgStub.new pb begin_ end_ uni cb auth foreign
  match mgr.msgs.lookup stub.msg with
  | some _ => (mgr, false)
  | none => ({ mgr with msgs := mgr.msgs.insert stub.msg stub }, true)

/-- `setItcp`: the interceptor from now on. -/
def setItcp (mgr : XmsgImMsgMgr D H A) (cb : A → XscMsgItcpRetType) : XmsgImMsgMgr D H A :=
  { mgr with itcpCb := some cb }

/-- `itcp`: what the interceptor says of a PDU.  Without one every PDU passes. -/
def itcp (mgr : XmsgImMsgMgr D H A) (pdu : A) : XscMsgItcpRetType :=
  match mgr.itcpCb with
  | none => .DISABLE
  | some cb => cb pdu

/-- `getMsgStub`: the stub under a name, null if there is none. -/
def getMsgStub (mgr : XmsgImMsgMgr D H A) (msg : Text) : Option (XmsgImMsgStub D H) :=
  mgr.msgs.lookup msg

end XmsgImMsgMgr

/-! ## Calling a handler -/

/-- The first argument of a handler: the user of the channel, or the channel itself. -/
inductive Self (U : Type) where
  | usr (usr : U)
  | channel
  deriving Repr, DecidableEq

/-- A call of a registered handler, as a BEGIN or as a unidirection handler. -/
inductive HandlerCall (M H U : Type) where
  | begin_ (cb : H) (self : Self U) (trans : XmsgImTransPassive M) (req : M)
  | unidirection (cb : H) (self : Self U) (trans : XmsgImTrans M) (uni : M)
  deriving Repr, DecidableEq

namespace HandlerCall

/-- The handler that is called. -/
def cb : HandlerCall M H U → H
  | .begin_ cb _ _ _ => cb
  | .unidirection cb _ _ _ => cb

/-- The first argument of the call. -/
def self : HandlerCall M H U → Self U
  | .begin_ _ self _ _ => self
  | .unidirection _ self _ _ => self

/-- The message the handler is given. -/
def msg : HandlerCall M H U → M
  | .begin_ _ _ _ req => req
  | .unidirection _ _ _ uni => uni

/-- The out-of-band list the handler finds in the transaction. -/
def ioob : HandlerCall M H U → Option Oob
  | .begin_ _ _ t _ => t.ioob
  | .unidirection _ _ t _ => t.ioob

/-- The tag of the PDUs that are served by handlers of this signature. -/
def tag : HandlerCall M H U → XscTransTag
  | .begin_ .. => .BEGIN
  | .unidirection .. => .UNIDIRECTION

end HandlerCall

/-- What `evnBegin` does: the handler it calls, if any, what it returns, and the transaction
it logs with `transPassStart` before it looks at the permission. -/
structure EvnBegin (M H U : Type) where
  call : Option (HandlerCall M H U) := none
  ret : Bool
  passStart : Option (XmsgImTransPassive M) := none
  deriving Repr, DecidableEq

section Evn

variable (pb : Protobuf D M) (mgr : XmsgImMsgMgr D H) (usr : Option U) (ptr : Nat)
  (gts : UInt64) (pdu : XscProtoPdu) (trans : XscProtoTransaction)

/-- `evnBegin`.  `usr` is `channel->usr.lock()`, `ptr` the address of the new transaction,
`gts` the clock and `trans` is `pdu->transm.trans`. -/
def evnBegin : EvnBegin M H U :=
  match mgr.getMsgStub trans.msg with
  | none => { ret := false }
  | some stub =>
      match stub.newBegin pb trans.dat with
      | none => { ret := false }
      | some req =>
          let t : XmsgImTransPassive M :=
            { XmsgImTransPassive.new ptr gts pdu with beginMsg := some req, dtid := trans.stid }
          if !stub.auth then
            { call := some (.begin_ stub.cb .channel t req), ret := true, passStart := some t }
          else
            match usr with
            | none => { ret := false, passStart := some t }
            | some u =>
                { call := some (.begin_ stub.cb (.usr u) t req), ret := true, passStart := some t }

/-- `evnUnidirection`. -/
def evnUnidirection : Option (HandlerCall M H U) × Bool :=
  match mgr.getMsgStub trans.msg with
  | none => (none, false)
  | some stub =>
      match stub.newUnidirection pb trans.dat with
      | none => (none, false)
      | some uni =>
          let t : XmsgImTrans M :=
            { XmsgImTransUnidirectionPass.new ptr gts pdu with uniMsg := some uni }
          if !stub.auth then (some (.unidirection stub.cb .channel t uni), true)
          else
            match usr with
            | none => (none, false)
            | some u => (some (.unidirection stub.cb (.usr u) t uni), true)

/-- What one call of `evnMsg` does: the value it returns, the channel it leaves, whether it
sends a PONG, the handlers it calls, the transaction whose `end(pdu)` it calls and the one
it logs with `transPassStart`. -/
structure EvnMsg (M H U : Type) where
  ret : Bool
  ch : XmsgImChannel M
  pong : Bool := false
  calls : List (HandlerCall M H U) := []
  ended : Option (XmsgImTransInitiative M) := none
  passStart : Option (XmsgImTransPassive M) := none

/-- `evnMsg`.  `msgMgr` may be null. -/
def evnMsg (K : XscProto) (msgMgr : Option (XmsgImMsgMgr D H)) (c : XmsgImChannel M) :
    EvnMsg M H U :=
  if pdu.transm.indicator &&& K.XSC_TAG_TRANSM_PING ≠ 0 then
    if pdu.transm.indicator = K.XSC_TAG_TRANSM_PONG then { ret := true, ch := c }
    else { ret := true, ch := c, pong := true }
  else
    match pdu.transm.trans with
    | none => { ret := false, ch := c }
    | some trans =>
        match msgMgr with
        | none => { ret := false, ch := c }
        | some mgr =>
            match mgr.itcp pdu with
            | .SUCCESS => { ret := true, ch := c }
            | .FORBIDDEN => { ret := true, ch := c }
            | .EXCEPTION => { ret := false, ch := c }
            | .DISABLE =>
                match trans.trans with
                | .BEGIN =>
                    let r := evnBegin pb mgr usr ptr gts pdu trans
                    { ret := r.ret, ch := c, calls := r.call.toList, passStart := r.passStart }
                | .END =>
                    { ret := c.evnEndRet K pb pdu trans
                      ch := (c.evnEnd trans).1
                      ended := (c.evnEnd trans).2 }
                | .UNIDIRECTION =>
                    let r := evnUnidirection pb mgr usr ptr gts pdu trans
                    { ret := r.2, ch := c, calls := r.1.toList }
                | .PARTIAL => { ret := true, ch := c }
                | .other _ => { ret := false, ch := c }

end Evn

/-! ## Tables built by registration -/

/-- The arguments of one call of `reg` in the shape the registration macros give them:
exactly one of the begin and the unidirection descriptor is set. -/
structure RegCall (D H : Type) where
  begin_ : Option D
  end_ : Option D
  unidirection : Option D
  cb : H
  auth : Bool
  foreign : ForeignAccessPermission
  shape : begin_.isSome = !unidirection.isSome

namespace RegCall

/-- The stub that a call of `reg` makes. -/
def stub (pb : Protobuf D M) (r : RegCall D H) : XmsgImMsgStub D H :=
  XmsgImMsgStub.new pb r.begin_ r.end_ r.unidirection r.cb r.auth r.foreign

/-- The table after the calls `regs` of `reg`, in order, on a new manager. -/
def regAll (pb : Protobuf D M) (regs : List (RegCall D H)) : XmsgImMsgMgr D H :=
  regs.foldl (fun mgr r => (mgr.reg pb r.begin_ r.end_ r.unidirection r.cb r.auth r.foreign).1) {}

/-- The registration that was made first under a name. -/
def first (pb : Protobuf D M) (regs : List (RegCall D H)) (msg : Text) :
    Option (RegCall D H) :=
  regs.find? fun r => (r.stub pb).msg = msg

/-- One call of `reg` adds the stub where the name is free, and changes no other name. -/
theorem reg_getMsgStub (pb : Protobuf D M) (mgr : XmsgImMsgMgr D H) (r : RegCall D H)
    (msg : Text) :
    (mgr.reg pb r.begin_ r.end_ r.unidirection r.cb r.auth r.foreign).1.getMsgStub msg =
      (mgr.getMsgStub msg).or (if (r.stub pb).msg = msg then some (r.stub pb) else none) := by
  unfold XmsgImMsgMgr.reg XmsgImMsgMgr.getMsgStub
  show (match mgr.msgs.lookup (r.stub pb).msg with
    | some _ => (mgr, false)
    | none => ({ mgr with msgs := mgr.msgs.insert (r.stub pb).msg (r.stub pb) }, true)).1.msgs.lookup
      msg = _
  cases hlook : mgr.msgs.lookup (r.stub pb).msg with
  | some stub =>
      by_cases hmsg : (r.stub pb).msg = msg
      · rw [← hmsg, hlook]
        rfl
      · rw [if_neg hmsg, Option.or_none]
  | none =>
      by_cases hmsg : (r.stub pb).msg = msg
      · subst hmsg
        rw [if_pos rfl, hlook, AList.lookup_insert]
        rfl
      · rw [if_neg hmsg, Option.or_none, AList.lookup_insert_ne (Ne.symm hmsg)]

/-- Under every name the table holds the stub registered first. -/
theorem regAll_getMsgStub (pb : Protobuf D M) (regs : List (RegCall D H)) (msg : Text) :
    (regAll pb regs).getMsgStub msg = (first pb regs msg).map (stub pb) := by
  have hfold (mgr : XmsgImMsgMgr D H) :
      (regs.foldl (fun mgr r =>
        (mgr.reg pb r.begin_ r.end_ r.unidirection r.cb r.auth r.foreign).1) mgr).getMsgStub msg =
        (mgr.getMsgStub msg).or ((first pb regs msg).map (stub pb)) := by
    -- the stubs registered so far come before those still to register
    induction regs generalizing mgr with
    | nil => simp [first]
    | cons r regs ih =>
        rw [List.foldl_cons, ih, reg_getMsgStub, Option.or_assoc]
        unfold first
        by_cases hmsg : (r.stub pb).msg = msg
        · rw [if_pos hmsg, List.find?_cons_of_pos (by simpa using hmsg)]
          rfl
        · rw [if_neg hmsg, List.find?_cons_of_neg (by simpa using hmsg)]
          rfl
  have hempty : ({} : XmsgImMsgMgr D H).getMsgStub msg = none := rfl
  rw [regAll, hfold, hempty, Option.none_or]

end RegCall

/-! ## Which handler is called -/

/-- The first argument of a handler, when the call is permitted: the channel without
authentication, else the live user. -/
def firstArg (auth : Bool) (usr : Option U) : Option (Self U) :=
  if !auth then some .channel else usr.map .usr

/-- What a call of the stub's handler looks like: it is made through the signature the
handler was registered for, with the message the body makes of the stub's descriptor. -/
structure IsCallOf (pb : Protobuf D M) (stub : XmsgImMsgStub D H) (usr : Option U)
    (trans : XscProtoTransaction) (call : HandlerCall M H U) : Prop where
  tag : call.tag = trans.trans
  cb : call.cb = stub.cb
  self : firstArg stub.auth usr = some call.self
  msg : (stub.desc trans.trans).bind (XmsgImMsgStub.newPbMsgDat pb · trans.dat) = some call.msg

section Spec

variable (pb : Protobuf D M) (mgr : XmsgImMsgMgr D H) (usr : Option U) (ptr : Nat)
  (gts : UInt64) (pdu : XscProtoPdu) (trans : XscProtoTransaction)

/-- `evnBegin` calls the handler of the stub under the PDU's name when the body makes a
request of its begin descriptor and the call is permitted. -/
theorem evnBegin_fst :
    (evnBegin pb mgr usr ptr gts pdu trans).1 =
      (mgr.getMsgStub trans.msg).bind fun stub =>
        (stub.newBegin pb trans.dat).bind fun req =>
          (firstArg stub.auth usr).map fun self =>
            .begin_ stub.cb self { XmsgImTransPassive.new ptr gts pdu with
              beginMsg := some req, dtid := trans.stid } req := by
  unfold evnBegin firstArg
  cases mgr.getMsgStub trans.msg with
  | none => rfl
  | some stub =>
      dsimp only [Option.bind_some]
      cases stub.newBegin pb trans.dat with
      | none => rfl
      | some req => cases stub.auth <;> cases usr <;> rfl

/-- When `evnBegin` returns true, it has logged one transaction with the request in it and
has called the handler of the stub with both. -/
theorem evnBegin_accepts (h : (evnBegin pb mgr usr ptr gts pdu trans).ret = true) :
    ∃ stub self t req, mgr.getMsgStub trans.msg = some stub ∧
      stub.newBegin pb trans.dat = some req ∧ t.beginMsg = some req ∧
      (evnBegin pb mgr usr ptr gts pdu trans).passStart = some t ∧
      (evnBegin pb mgr usr ptr gts pdu trans).call = some (.begin_ stub.cb self t req) := by
  unfold evnBegin at h ⊢
  cases hstub : mgr.getMsgStub trans.msg with
  | none => simp [hstub] at h
  | some stub =>
      cases hreq : stub.newBegin pb trans.dat with
      | none => simp [hstub, hreq] at h
      | some req =>
          cases hauth : stub.auth with
          | false =>
              simp only [hreq, hauth]
              exact ⟨stub, .channel, _, req, rfl, hreq, rfl, rfl, rfl⟩
          | true =>
              cases usr with
              | none => simp [hstub, hreq, hauth] at h
              | some u =>
                  simp only [hreq, hauth]
                  exact ⟨stub, .usr u, _, req, rfl, hreq, rfl, rfl, rfl⟩

/-- The same for `evnUnidirection`. -/
theorem evnUnidirection_fst :
    (evnUnidirection pb mgr usr ptr gts pdu trans).1 =
      (mgr.getMsgStub trans.msg).bind fun stub =>
        (stub.newUnidirection pb trans.dat).bind fun uni =>
          (firstArg stub.auth usr).map fun self =>
            .unidirection stub.cb self { XmsgImTransUnidirectionPass.new ptr gts pdu with
              uniMsg := some uni } uni := by
  unfold evnUnidirection firstArg
  cases mgr.getMsgStub trans.msg with
  | none => rfl
  | some stub =>
      dsimp only [Option.bind_some]
      cases stub.newUnidirection pb trans.dat with
      | none => rfl
      | some uni => cases stub.auth <;> cases usr <;> rfl

/-- The call the two dispatch routines make for the tag of a transaction layer. -/
def dispatch : Option (HandlerCall M H U) :=
  match trans.trans with
  | .BEGIN => (evnBegin pb mgr usr ptr gts pdu trans).1
  | .UNIDIRECTION => (evnUnidirection pb mgr usr ptr gts pdu trans).1
  | _ => none

/-- A dispatched call is a call of the stub under the PDU's name. -/
theorem dispatch_isCallOf {call : HandlerCall M H U}
    (h : dispatch pb mgr usr ptr gts pdu trans = some call) :
    ∃ stub, mgr.getMsgStub trans.msg = some stub ∧ IsCallOf pb stub usr trans call := by
  unfold dispatch at h
  cases htag : trans.trans with
  | BEGIN =>
      simp only [htag, evnBegin_fst, Option.bind_eq_some_iff, Option.map_eq_some_iff] at h
      obtain ⟨stub, hstub, req, hreq, self, hself, rfl⟩ := h
      refine ⟨stub, hstub, htag.symm, rfl, hself, ?_⟩
      rw [htag, ← XmsgImMsgStub.newBegin_eq]
      exact hreq
  | UNIDIRECTION =>
      simp only [htag, evnUnidirection_fst, Option.bind_eq_some_iff, Option.map_eq_some_iff] at h
      obtain ⟨stub, hstub, uni, huni, self, hself, rfl⟩ := h
      refine ⟨stub, hstub, htag.symm, rfl, hself, ?_⟩
      rw [htag, ← XmsgImMsgStub.newUnidirection_eq]
      exact huni
  | END => simp [htag] at h
  | PARTIAL => simp [htag] at h
  | other tag => simp [htag] at h

/-- A call is dispatched when the name has a stub, the body makes a message of the stub's
descriptor for the tag, and the call is permitted. -/
theorem dispatch_isSome {stub : XmsgImMsgStub D H} {m : M} {self : Self U}
    (hstub : mgr.getMsgStub trans.msg = some stub)
    (hmade : (stub.desc trans.trans).bind (XmsgImMsgStub.newPbMsgDat pb · trans.dat) = some m)
    (hself : firstArg stub.auth usr = some self) :
    (dispatch pb mgr usr ptr gts pdu trans).isSome := by
  unfold dispatch
  cases htag : trans.trans with
  | BEGIN =>
      have hnew : stub.newBegin pb trans.dat = some m := by
        rw [XmsgImMsgStub.newBegin_eq, ← htag]
        exact hmade
      simp [evnBegin_fst, hstub, hnew, hself]
  | UNIDIRECTION =>
      have hnew : stub.newUnidirection pb trans.dat = some m := by
        rw [XmsgImMsgStub.newUnidirection_eq, ← htag]
        exact hmade
      simp [evnUnidirection_fst, hstub, hnew, hself]
  | END => simp [htag, XmsgImMsgStub.desc] at hmade
  | PARTIAL => simp [htag, XmsgImMsgStub.desc] at hmade
  | other tag => simp [htag, XmsgImMsgStub.desc] at hmade

variable {K : XscProto} (msgMgr : Option (XmsgImMsgMgr D H)) (c : XmsgImChannel M)

/-- A PDU that passes the interceptor, and the manager and transaction layer it is
dispatched with. -/
def Passes (msgMgr : Option (XmsgImMsgMgr D H)) (pdu : XscProtoPdu) (mgr : XmsgImMsgMgr D H)
    (trans : XscProtoTransaction) : Prop :=
  pdu.transm.trans = some trans ∧ msgMgr = some mgr ∧ mgr.itcp pdu = .DISABLE

/-- `evnMsg` calls the handler that is dispatched for a PDU that passes, and no other. -/
theorem mem_evnMsg_calls (hping : pdu.transm.indicator &&& K.XSC_TAG_TRANSM_PING = 0)
    (call : HandlerCall M H U) :
    call ∈ (evnMsg pb usr ptr gts pdu K msgMgr c).calls ↔
      ∃ mgr trans, Passes msgMgr pdu mgr trans ∧
        dispatch pb mgr usr ptr gts pdu trans = some call := by
  unfold evnMsg Passes
  rw [if_neg (by simpa using hping)]
  cases htrans : pdu.transm.trans with
  | none => simp
  | some trans =>
      cases msgMgr with
      | none => simp
      | some mgr =>
          cases hitcp : mgr.itcp pdu with
          | SUCCESS => simp [hitcp]
          | FORBIDDEN => simp [hitcp]
          | EXCEPTION => simp [hitcp]
          | DISABLE => cases htag : trans.trans <;> simp [hitcp, htag, dispatch]

/-- One PDU calls one handler at most. -/
theorem evnMsg_calls_length_le :
    (evnMsg pb usr ptr gts pdu K msgMgr c).calls.length ≤ 1 := by
  have htoList (o : Option (HandlerCall M H U)) : o.toList.length ≤ 1 := by
    cases o <;> simp
  unfold evnMsg
  split
  · split <;> simp
  · cases pdu.transm.trans with
    | none => simp
    | some trans =>
        cases msgMgr with
        | none => simp
        | some mgr =>
            cases hitcp : mgr.itcp pdu with
            | SUCCESS => simp [hitcp]
            | FORBIDDEN => simp [hitcp]
            | EXCEPTION => simp [hitcp]
            | DISABLE => cases htag : trans.trans <;> simp [hitcp, htag, htoList]

end Spec

/-- A handler is called only for a PDU that passes, and without the PING bit. -/
theorem passes_of_mem_evnMsg_calls {pb : Protobuf D M} {usr : Option U} {ptr : Nat} {gts : UInt64}
    {pdu : XscProtoPdu} {K : XscProto} {msgMgr : Option (XmsgImMsgMgr D H)} {c : XmsgImChannel M}
    {call : HandlerCall M H U} (h : call ∈ (evnMsg pb usr ptr gts pdu K msgMgr c).calls) :
    pdu.transm.indicator &&& K.XSC_TAG_TRANSM_PING = 0 ∧
      ∃ mgr trans stub, Passes msgMgr pdu mgr trans ∧ mgr.getMsgStub trans.msg = some stub ∧
        IsCallOf pb stub usr trans call := by
  by_cases hping : pdu.transm.indicator &&& K.XSC_TAG_TRANSM_PING = 0
  · obtain ⟨mgr, trans, hpasses, hdispatch⟩ :=
      (mem_evnMsg_calls pb usr ptr gts pdu msgMgr c hping call).mp h
    obtain ⟨stub, hstub, hcall⟩ := dispatch_isCallOf pb mgr usr ptr gts pdu trans hdispatch
    exact ⟨hping, mgr, trans, stub, hpasses, hstub, hcall⟩
  · unfold evnMsg at h
    rw [if_pos hping] at h
    split at h <;> simp at h

/-! ## Dispatch over a registered table -/

/-- The registration `r`, by its descriptor `d`, serves a transaction layer: it is the first
under the name, it was made for the tag, the body is empty or parses as `d`, and the channel
has a live user where authentication is asked for. -/
structure Serves (pb : Protobuf D M) (regs : List (RegCall D H)) (usr : Option U)
    (trans : XscProtoTransaction) (r : RegCall D H) (d : D) : Prop where
  first : RegCall.first pb regs trans.msg = some r
  desc : (r.stub pb).desc trans.trans = some d
  body : trans.dat = [] ∨ (pb.parseFromArray d trans.dat).isSome
  permitted : r.auth = true → usr.isSome

/-- The first argument a registration asks for, when the channel has it. -/
theorem firstArg_isSome {auth : Bool} {usr : Option U} :
    (firstArg auth usr).isSome ↔ (auth = true → usr.isSome) := by
  unfold firstArg
  cases auth <;> simp

/-- What a handler gets first: the user if the stub asks for one, else the channel. -/
theorem firstArg_eq_some {auth : Bool} {usr : Option U} {self : Self U}
    (h : firstArg auth usr = some self) :
    (auth = true → ∃ u, usr = some u ∧ self = .usr u) ∧ (auth = false → self = .channel) := by
  unfold firstArg at h
  cases auth with
  | false =>
      refine ⟨fun habs => absurd habs Bool.false_ne_true, fun _ => ?_⟩
      cases h
      rfl
  | true =>
      refine ⟨fun _ => ?_, fun habs => absurd habs.symm Bool.false_ne_true⟩
      cases usr with
      | none => cases h
      | some u =>
          cases h
          exact ⟨u, rfl, rfl⟩

section Safe

variable {pb : Protobuf D M} {K : XscProto} {regs : List (RegCall D H)}
  {msgMgr : Option (XmsgImMsgMgr D H)} {mgr : XmsgImMsgMgr D H} {usr : Option U}
  {pdu : XscProtoPdu} {trans : XscProtoTransaction}

/-- A stub of a registered table is the one of the first registration under its name. -/
theorem getMsgStub_of_built (hbuilt : mgr.msgs = (RegCall.regAll pb regs).msgs)
    (msg : Text) :
    mgr.getMsgStub msg = (RegCall.first pb regs msg).map (RegCall.stub pb) := by
  rw [← RegCall.regAll_getMsgStub]
  unfold XmsgImMsgMgr.getMsgStub
  rw [hbuilt]

/-- A call that is dispatched is one of the registration that serves the PDU. -/
theorem serves_of_dispatch (hpb : pb.Typed) (hbuilt : mgr.msgs = (RegCall.regAll pb regs).msgs)
    {ptr : Nat} {gts : UInt64} {call : HandlerCall M H U}
    (h : dispatch pb mgr usr ptr gts pdu trans = some call) :
    ∃ r d, Serves pb regs usr trans r d ∧ IsCallOf pb (r.stub pb) usr trans call ∧
      pb.getDescriptor call.msg = d := by
  obtain ⟨stub, hstub, hcall⟩ := dispatch_isCallOf pb mgr usr ptr gts pdu trans h
  rw [getMsgStub_of_built hbuilt, Option.map_eq_some_iff] at hstub
  obtain ⟨r, hfirst, rfl⟩ := hstub
  obtain ⟨d, hdesc, hmade⟩ := Option.bind_eq_some_iff.mp hcall.msg
  refine ⟨r, d, ⟨hfirst, hdesc, ?_, ?_⟩, hcall, XmsgImMsgStub.newPbMsgDat_type hpb hmade⟩
  · apply (XmsgImMsgStub.newPbMsgDat_isSome hpb d trans.dat).mp
    rw [hmade]
    rfl
  · apply firstArg_isSome.mp
    show (firstArg (r.stub pb).auth usr).isSome
    rw [hcall.self]
    rfl

/-- Where a registration serves the PDU, a call is dispatched. -/
theorem dispatch_of_serves (hpb : pb.Typed) (hbuilt : mgr.msgs = (RegCall.regAll pb regs).msgs)
    (ptr : Nat) (gts : UInt64) (pdu : XscProtoPdu) {r : RegCall D H} {d : D}
    (h : Serves pb regs usr trans r d) :
    (dispatch pb mgr usr ptr gts pdu trans).isSome := by
  have hstub : mgr.getMsgStub trans.msg = some (r.stub pb) := by
    rw [getMsgStub_of_built hbuilt, h.first]
    rfl
  obtain ⟨m, hm⟩ := Option.isSome_iff_exists.mp
    ((XmsgImMsgStub.newPbMsgDat_isSome hpb d trans.dat).mpr h.body)
  obtain ⟨self, hself⟩ := Option.isSome_iff_exists.mp (firstArg_isSome.mpr h.permitted)
  refine dispatch_isSome pb mgr usr ptr gts pdu trans hstub (m := m) ?_ hself
  rw [h.desc]
  exact hm

/-- Over every table built by registration and for every PDU without the PING bit, `evnMsg`
calls at most one handler.  It calls one exactly when the PDU passes the interceptor and a
registration serves it; the handler is that registration's, called through the signature
and with the first argument it was registered for, with a message of its descriptor. -/
theorem evnMsg_calls_served_handler (hpb : pb.Typed)
    (hbuilt : ∀ mgr, msgMgr = some mgr → mgr.msgs = (RegCall.regAll pb regs).msgs)
    (hping : pdu.transm.indicator &&& K.XSC_TAG_TRANSM_PING = 0) (ptr : Nat) (gts : UInt64)
    (c : XmsgImChannel M) :
    (evnMsg pb usr ptr gts pdu K msgMgr c).calls.length ≤ 1 ∧
      ((evnMsg pb usr ptr gts pdu K msgMgr c).calls ≠ [] ↔
        ∃ mgr trans r d, Passes msgMgr pdu mgr trans ∧ Serves pb regs usr trans r d) ∧
      ∀ call ∈ (evnMsg pb usr ptr gts pdu K msgMgr c).calls,
        ∃ mgr trans r d, Passes msgMgr pdu mgr trans ∧ Serves pb regs usr trans r d ∧
          call.tag = trans.trans ∧ call.cb = r.cb ∧ pb.getDescriptor call.msg = d ∧
          (r.auth = true → ∃ u, usr = some u ∧ call.self = .usr u) ∧
          (r.auth = false → call.self = .channel) := by
  have hcalls (call : HandlerCall M H U) :=
    mem_evnMsg_calls pb usr ptr gts pdu msgMgr c hping call
  refine ⟨evnMsg_calls_length_le pb usr ptr gts pdu msgMgr c, ⟨?_, ?_⟩, ?_⟩
  · intro hne
    obtain ⟨call, hcall⟩ := List.exists_mem_of_ne_nil _ hne
    obtain ⟨mgr, trans, hpasses, hdispatch⟩ := (hcalls call).mp hcall
    obtain ⟨r, d, hserves, -, -⟩ := serves_of_dispatch hpb (hbuilt mgr hpasses.2.1) hdispatch
    exact ⟨mgr, trans, r, d, hpasses, hserves⟩
  · rintro ⟨mgr, trans, r, d, hpasses, hserves⟩
    obtain ⟨call, hcall⟩ := Option.isSome_iff_exists.mp
      (dispatch_of_serves hpb (hbuilt mgr hpasses.2.1) ptr gts pdu hserves)
    exact List.ne_nil_of_mem ((hcalls call).mpr ⟨mgr, trans, hpasses, hcall⟩)
  · intro call hcall
    obtain ⟨mgr, trans, hpasses, hdispatch⟩ := (hcalls call).mp hcall
    obtain ⟨r, d, hserves, hof, htype⟩ :=
      serves_of_dispatch hpb (hbuilt mgr hpasses.2.1) hdispatch
    exact ⟨mgr, trans, r, d, hpasses, hserves, hof.tag, hof.cb, htype,
      firstArg_eq_some hof.self⟩

end Safe

/-! A table for the fixed inputs below: a login before authentication, and a request that is
registered twice. -/

/-- The calls of `reg`, in order. -/
def sampleRegs : List (RegCall SampleType Nat) :=
  [⟨some .login, some .login, none, 0, false, .FOREIGN_FORBIDDEN, rfl⟩,
    ⟨some .ping, some .pong, none, 1, true, .FOREIGN_FORBIDDEN, rfl⟩,
    ⟨some .ping, some .pong, none, 2, false, .FOREIGN_FORBIDDEN, rfl⟩]

/-- A BEGIN with the tid 5. -/
def sampleBegin (msg : Text) (dat : Bytes) : XscProtoPdu :=
  { transm := { trans := some { trans := .BEGIN, stid := 5, msg := msg, dat := dat } } }

/-- A channel on which nothing has happened. -/
def sampleChannel : XmsgImChannel SampleMsg := (Exec.start .XSC_PROTOCOL_TCP).ch

/-- The request goes to the handler registered first, with the user; without a user it goes to
none. -/
theorem evnMsg_calls_served_handler_ping :
    (∃ call, (evnMsg samplePb (some "alice") 1 0 (sampleBegin "Ping" [7]) .sample
        (some (RegCall.regAll samplePb sampleRegs)) sampleChannel).calls = [call] ∧
      call.cb = 1 ∧ call.self = .usr "alice" ∧ samplePb.getDescriptor call.msg = .ping) ∧
    (evnMsg samplePb (none : Option String) 1 0 (sampleBegin "Ping" [7]) .sample
      (some (RegCall.regAll samplePb sampleRegs)) sampleChannel).calls = [] := by
  have hbuilt (mgr : XmsgImMsgMgr SampleType Nat)
      (h : some (RegCall.regAll samplePb sampleRegs) = some mgr) :
      mgr.msgs = (RegCall.regAll samplePb sampleRegs).msgs := by
    cases h
    rfl
  constructor
  · obtain ⟨hle, hsome, hall⟩ := @evnMsg_calls_served_handler _ _ _ _ _ .sample _ _
      (some "alice") (sampleBegin "Ping" [7]) samplePb_typed hbuilt rfl 1 0 sampleChannel
    have hne := hsome.mpr ⟨_, _, sampleRegs[1], .ping, ⟨rfl, rfl, rfl⟩,
      ⟨rfl, rfl, .inr rfl, fun _ => rfl⟩⟩
    obtain ⟨call, hcalls⟩ := List.length_eq_one_iff.mp
      (Nat.le_antisymm hle (List.length_pos_iff.mpr hne))
    rw [hcalls] at hall
    obtain ⟨mgr, trans, r, d, ⟨htrans, -, -⟩, hserves, -, hcb, htype, husr, -⟩ :=
      hall call List.mem_cons_self
    cases htrans
    have hfirst : sampleRegs[1]? = some r := hserves.first
    cases hfirst
    have hdesc : some SampleType.ping = some d := hserves.desc
    cases hdesc
    obtain ⟨u, hu, hself⟩ := husr rfl
    cases hu
    exact ⟨call, hcalls, hcb, hself, htype⟩
  · obtain ⟨-, hsome, -⟩ := @evnMsg_calls_served_handler _ _ _ String _ .sample _ _ none
      (sampleBegin "Ping" [7]) samplePb_typed hbuilt rfl 1 0 sampleChannel
    by_contra hne
    obtain ⟨mgr, trans, r, d, ⟨htrans, -, -⟩, hserves⟩ := hsome.mp hne
    cases htrans
    have hfirst : sampleRegs[1]? = some r := hserves.first
    cases hfirst
    cases hserves.permitted rfl

/-- A login without a body is dispatched, although no empty body parses as a login, whose
required field it lacks. -/
theorem evnMsg_calls_login_empty_body :
    (evnMsg samplePb (none : Option String) 1 0 (sampleBegin "Login" []) .sample
      (some (RegCall.regAll samplePb sampleRegs)) sampleChannel).calls.map (·.cb) = [0] ∧
    ¬ ∃ mgr trans r d,
      Passes (some (RegCall.regAll samplePb sampleRegs)) (sampleBegin "Login" []) mgr trans ∧
      Serves samplePb sampleRegs (none : Option String) trans r d ∧
      (samplePb.parseFromArray d trans.dat).isSome := by
  refine ⟨by decide, ?_⟩
  rintro ⟨mgr, trans, r, d, ⟨htrans, -, -⟩, hserves, hparse⟩
  cases htrans
  have hfirst : sampleRegs.head? = some r := hserves.first
  cases hfirst
  have hdesc : some SampleType.login = some d := hserves.desc
  cases hdesc
  cases hparse

end XmsgImXsc
