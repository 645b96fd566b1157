/-
# XmsgImXsc.PassiveEnd -- what ending a passive transaction does

Nine functions end a passive transaction.  Each sets some of its fields and queues a closure,
which closes the channel, builds and sends an END, or does nothing, and logs in every case.
`EndCall.ret`, `desc`, `body` and `lazyClose` say what a call asks for, and `end_outcome` that
this is what happens.

Three facts make up the outcome of a call:

* the transactions that `evnMsg` and `evnHeader` create have none of the fields set that the
  end functions set (`XmsgImTransPassive.Created.fresh`);
* on such a transaction a call leaves exactly what it asks for (`Fresh.endCall_rsp`);
* the closure has three ways through, whatever the fields are (`endClosure_cases`).

The closure is here run in one piece, with nothing in between.  What other calls can do to it
while it runs is the subject of `PassiveReply`.
-/
import XmsgImXsc.HttpChannel

namespace XmsgImXsc

variable {D M H U : Type}

/-! ## What a call asks for

The nine functions differ in their arguments only.  One that has no description leaves the
one of the transaction, one with a message object leaves the raw message, and so on; a call on
a fresh transaction is therefore described by its own arguments. -/

namespace XmsgImTransPassive

namespace EndCall

variable (K : XscProto) (pb : Protobuf D M)

/-- The return code. -/
def ret : EndCall M → UInt16
  | .end_ _ => K.RET_SUCCESS
  | .endRet ret => ret
  | .endRetDesc ret _ _ => ret
  | .endDesc ret _ => ret
  | .endRaw ret _ _ => ret
  | .success => K.RET_SUCCESS
  | .failure => K.RET_FAILURE
  | .endAndLazyClose _ => K.RET_SUCCESS
  | .endAndLazyCloseRet ret _ => ret

/-- The description, empty when the call gives none. -/
def desc : EndCall M → Text
  | .endRetDesc _ desc _ => desc
  | .endDesc _ fmt => fmt.getD []
  | .endRaw _ desc _ => desc
  | .endAndLazyCloseRet _ fmt => fmt.getD []
  | _ => []

/-- The raw message, null when the call gives none. -/
def rawMsg : EndCall M → Option XmsgImTransRawMsg
  | .endRaw _ _ rawMsg => rawMsg
  | _ => none

/-- The end message, null when the call gives none. -/
def endMsg : EndCall M → Option M
  | .end_ e => e
  | .endRetDesc _ _ e => e
  | .endAndLazyClose e => e
  | _ => none

/-- The call asks for a lazy close. -/
def lazyClose : EndCall M → Bool
  | .endAndLazyClose _ => true
  | .endAndLazyCloseRet _ _ => true
  | _ => false

/-- The type name and the bytes: the raw message if one is given, else the end message, else
nothing. -/
def body (call : EndCall M) : Text × Bytes :=
  match call.rawMsg with
  | some raw => (raw.msg, raw.dat)
  | none =>
      match call.endMsg with
      | none => ([], [])
      | some m => (pb.name (pb.getDescriptor m), pb.serializeAsString m)

/-- What the peer reads of the END. -/
def rsp (call : EndCall M) : XmsgImHttpRsp where
  ret := (call.ret K).toUInt32
  desc := call.desc
  msg := (call.body pb).1
  dat := (call.body pb).2

end EndCall

variable (K : XscProto) (pb : Protobuf D M)

/-- The transaction as it stands before any call. -/
structure Fresh (t : XmsgImTransPassive M) : Prop where
  desc : t.desc = []
  rawMsg : t.rawMsg = none
  endMsg : t.endMsg = none
  lazyClose : t.lazyClose = false

/-- Every end function sets `ret`. -/
@[simp] theorem endCall_ret (t : XmsgImTransPassive M) (call : EndCall M) :
    (t.endCall K call).ret = call.ret K := by
  cases call <;> rfl

section Fresh

variable {K pb} {t : XmsgImTransPassive M} (h : t.Fresh) (call : EndCall M)

include h

/-- A first call leaves the description it gives, or none. -/
theorem Fresh.endCall_desc : (t.endCall K call).desc = call.desc := by
  cases call with
  | endRetDesc ret desc e => rfl
  | endRaw ret desc raw => rfl
  | endDesc ret fmt => cases fmt <;> [exact h.desc; rfl]
  | endAndLazyCloseRet ret fmt => cases fmt <;> [exact h.desc; rfl]
  | _ => exact h.desc

/-- It leaves the raw message it gives, -/
theorem Fresh.endCall_rawMsg : (t.endCall K call).rawMsg = call.rawMsg := by
  cases call with
  | endRaw ret desc raw => rfl
  | _ => exact h.rawMsg

/-- the end message it gives, -/
theorem Fresh.endCall_endMsg : (t.endCall K call).endMsg = call.endMsg := by
  cases call with
  | end_ e => rfl
  | endRetDesc ret desc e => rfl
  | endAndLazyClose e => rfl
  | _ => exact h.endMsg

/-- and asks for a lazy close or not. -/
theorem Fresh.endCall_lazyClose : (t.endCall K call).lazyClose = call.lazyClose := by
  cases call with
  | endAndLazyClose e => rfl
  | endAndLazyCloseRet ret fmt => rfl
  | _ => exact h.lazyClose

/-- So the body of its END is that of the call. -/
theorem Fresh.endCall_body : (t.endCall K call).body pb = call.body pb := by
  have hrawMsg := h.endCall_rawMsg (K := K) call
  have hendMsg := h.endCall_endMsg (K := K) call
  unfold body EndCall.body
  generalize (t.endCall K call).rawMsg = rawMsg at hrawMsg
  generalize (t.endCall K call).endMsg = endMsg at hendMsg
  subst hrawMsg hendMsg
  rfl

end Fresh

/-! ## What the closure does

`sendEnd` builds the same PDU from a raw message, from a message object or from neither, and
`sendPdu` sends it; over HTTP the fields of the PDU are copied into a response.  What the peer
reads is `rsp` in all of these cases. -/

/-- What the peer reads of the END built from the transaction. -/
def rsp (t : XmsgImTransPassive M) : XmsgImHttpRsp where
  ret := t.ret.toUInt32
  desc := t.desc
  msg := (t.body pb).1
  dat := (t.body pb).2

/-- The END leaves as a PDU, or on an HTTP channel as a response. -/
def answer (pro : XscProtocolType) (t : XmsgImTransPassive M) : Out :=
  if pro ≠ .XSC_PROTOCOL_HTTP then .send (endPdu pb t) else .sendBin (t.rsp pb)

/-- A reply is the PDU or the response, which say the same. -/
theorem answer_eq (pro : XscProtocolType) (t : XmsgImTransPassive M) :
    t.answer pb pro = .send (endPdu pb t) ∨ t.answer pb pro = .sendBin (t.rsp pb) := by
  unfold answer
  split
  · exact .inl rfl
  · exact .inr rfl

/-- What the peer reads after a first call is what the call asks for. -/
theorem Fresh.endCall_rsp {t : XmsgImTransPassive M} (h : t.Fresh) (call : EndCall M) :
    (t.endCall K call).rsp pb = call.rsp K pb := by
  unfold rsp EndCall.rsp
  rw [endCall_ret, h.endCall_desc, h.endCall_body]

end XmsgImTransPassive

/-- The event is a call of the logger. -/
def Out.isLog : Out → Bool
  | .transInitStart _ => true
  | .transPassFinished _ => true
  | .transInitUni _ => true
  | _ => false

/-- The event is the log entry of the end of a passive transaction. -/
def Out.isPassFinished : Out → Bool
  | .transPassFinished _ => true
  | _ => false

/-- What happens to the connection, in order: bytes sent and the connection closed. -/
def onConnection (outs : List Out) : List Out := outs.filter (!·.isLog)

section Closure

variable (K : XscProto) (pb : Protobuf D M) (pro : XscProtocolType) (est : Bool)
  (t : XmsgImTransPassive M)

/-- `sendPdu` leaves out of a response what is empty, which the peer reads as empty. -/
theorem sendPdu_endPdu : sendPdu pro (endPdu pb t) = [t.answer pb pro] := by
  have htext (s : Text) : (if s ≠ [] then s else []) = s := by
    by_cases hs : s = []
    · rw [hs]
      rfl
    · rw [if_pos hs]
  have hbytes (b : Bytes) : (if 0 < b.length then b else []) = b := by
    cases b with
    | nil => rfl
    | cons x b => exact if_pos (Nat.succ_pos _)
  unfold sendPdu XmsgImTransPassive.answer
  by_cases hpro : pro = .XSC_PROTOCOL_HTTP
  · rw [if_neg (not_not_intro hpro), if_neg (not_not_intro hpro)]
    unfold XmsgImHttpChannel.sendXscPdu
    rw [endPdu_trans]
    show [Out.sendBin _] = _
    rw [htext, htext, hbytes]
    rfl
  · rw [if_pos hpro, if_pos hpro]

/-- The three ways through the closure of a transaction, whatever its fields are. -/
theorem endClosure_cases :
    (est = false ∧ t.endClosure K pb pro est = [.transPassFinished none]) ∨
      (est = true ∧ t.ret = K.RET_FAILURE ∧ t.endClosure K pb pro est =
        [if t.lazyClose then .lazyClose else .close, .transPassFinished none]) ∨
      (est = true ∧ t.ret ≠ K.RET_FAILURE ∧ t.endClosure K pb pro est =
        .transPassFinished (some (endPdu pb t)) :: t.answer pb pro ::
          (if t.lazyClose then [.lazyClose] else [])) := by
  unfold XmsgImTransPassive.endClosure sendEnd
  rw [sendPdu_endPdu]
  by_cases hret : t.ret = K.RET_FAILURE
  · rw [if_pos hret]
    -- the return code is tested first, but where the channel is down nothing is closed
    -- and only the log entry is left, as for any other code
    cases est with
    | false => exact .inl ⟨rfl, rfl⟩
    | true =>
        refine .inr (.inl ⟨rfl, hret, ?_⟩)
        cases t.lazyClose <;> rfl
  · rw [if_neg hret]
    cases est with
    | false => exact .inl ⟨rfl, rfl⟩
    | true => exact .inr (.inr ⟨rfl, hret, rfl⟩)

/-- What the closure does to the connection. -/
theorem onConnection_endClosure :
    onConnection (t.endClosure K pb pro est) =
      if !est then []
      else if t.ret = K.RET_FAILURE then [if t.lazyClose then .lazyClose else .close]
      else t.answer pb pro :: (if t.lazyClose then [.lazyClose] else []) := by
  rcases endClosure_cases K pb pro est t with ⟨rfl, houts⟩ | ⟨rfl, hret, houts⟩ |
    ⟨rfl, hret, houts⟩
  · rw [houts]
    rfl
  · rw [houts, Bool.not_true, if_neg Bool.false_ne_true, if_pos hret]
    cases t.lazyClose <;> rfl
  · rw [houts, Bool.not_true, if_neg Bool.false_ne_true, if_neg hret]
    rcases XmsgImTransPassive.answer_eq pb pro t with hanswer | hanswer
    · rw [hanswer]
      cases t.lazyClose <;> rfl
    · rw [hanswer]
      cases t.lazyClose <;> rfl

/-- The closure logs the end of the transaction, once. -/
theorem countP_isPassFinished_endClosure :
    (t.endClosure K pb pro est).countP Out.isPassFinished = 1 := by
  rcases endClosure_cases K pb pro est t with ⟨rfl, houts⟩ | ⟨rfl, -, houts⟩ | ⟨rfl, -, houts⟩
  · rw [houts]
    rfl
  · rw [houts]
    cases t.lazyClose <;> rfl
  · rw [houts]
    rcases XmsgImTransPassive.answer_eq pb pro t with hanswer | hanswer
    · rw [hanswer]
      cases t.lazyClose <;> rfl
    · rw [hanswer]
      cases t.lazyClose <;> rfl

end Closure

/-! ## Where passive transactions come from

A passive transaction is made in two places: `evnBegin` for a BEGIN that arrives as a PDU, and
`evnHeader` for a GET request.  When the call asks for a user and the channel has none, the
transaction is made and logged, and no handler gets it (`Refused`). -/

/-- The transaction a handler is called with, if it is a passive one. -/
def HandlerCall.passive : HandlerCall M H U → Option (XmsgImTransPassive M)
  | .begin_ _ _ t _ => some t
  | .unidirection .. => none

/-- The transaction that is created of a BEGIN with the message `req` in it. -/
def XmsgImTransPassive.ofBegin (ptr : Nat) (gts : UInt64) (pdu : XscProtoPdu)
    (begin_ : XscProtoTransaction) (req : M) : XmsgImTransPassive M :=
  { XmsgImTransPassive.new ptr gts pdu with beginMsg := some req, dtid := begin_.stid }

/-- A BEGIN is refused after its transaction was created: its name and its body are right,
but the call asks for a user and the channel has none. -/
def Refused (pb : Protobuf D M) (usr : Option U) (msgMgr : Option (XmsgImMsgMgr D H))
    (pdu : XscProtoPdu) (begin_ : XscProtoTransaction) : Prop :=
  ∃ mgr stub, msgMgr = some mgr ∧ mgr.itcp pdu = .DISABLE ∧
    mgr.getMsgStub begin_.msg = some stub ∧ (stub.newBegin pb begin_.dat).isSome ∧
    stub.auth = true ∧ usr = none

section Created

open XmsgImHttpChannel XmsgImTransPassive

variable (pb : Protobuf D M) (usr : Option U) (ptr : Nat) (gts : UInt64) (pdu : XscProtoPdu)
  (begin_ : XscProtoTransaction)

/-- What the dispatch of a BEGIN does with the transaction it creates. -/
inductive BeginOutcome (msgMgr : Option (XmsgImMsgMgr D H)) (r : EvnBegin M H U) : Prop
  | noTrans : r.passStart = none → r.call = none → ¬ Refused pb usr msgMgr pdu begin_ →
      BeginOutcome msgMgr r
  | refused (req) : r.passStart = some (ofBegin ptr gts pdu begin_ req) → r.call = none →
      Refused pb usr msgMgr pdu begin_ → BeginOutcome msgMgr r
  | called (cb self req) : r.passStart = some (ofBegin ptr gts pdu begin_ req) →
      r.call = some (.begin_ cb self (ofBegin ptr gts pdu begin_ req) req) →
      ¬ Refused pb usr msgMgr pdu begin_ → BeginOutcome msgMgr r

/-- A BEGIN that no interceptor takes. -/
theorem evnBegin_outcome (mgr : XmsgImMsgMgr D H) (hitcp : mgr.itcp pdu = .DISABLE) :
    BeginOutcome pb usr ptr gts pdu begin_ (some mgr)
      (evnBegin pb mgr usr ptr gts pdu begin_) := by
  unfold evnBegin
  cases hstub : mgr.getMsgStub begin_.msg with
  | none =>
      refine .noTrans rfl rfl ?_
      rintro ⟨mgr', stub, hmgr, -, hstub', -⟩
      cases hmgr
      rw [hstub] at hstub'
      cases hstub'
  | some stub =>
      dsimp only
      cases hreq : stub.newBegin pb begin_.dat with
      | none =>
          refine .noTrans rfl rfl ?_
          rintro ⟨mgr', stub', hmgr, -, hstub', hsome, -⟩
          cases hmgr
          rw [hstub] at hstub'
          cases hstub'
          rw [hreq] at hsome
          cases hsome
      | some req =>
          -- a handler is called, so the BEGIN was not refused
          have hnot (hok : ¬ (stub.auth = true ∧ usr = none)) :
              ¬ Refused pb usr (some mgr) pdu begin_ := by
            rintro ⟨mgr', stub', hmgr, -, hstub', -, hauth⟩
            cases hmgr
            rw [hstub] at hstub'
            cases hstub'
            exact hok hauth
          cases hauth : stub.auth with
          | false =>
              refine .called stub.cb .channel req rfl rfl (hnot ?_)
              rintro ⟨habs, -⟩
              rw [hauth] at habs
              cases habs
          | true =>
              cases husr : usr with
              | none =>
                  refine .refused req rfl rfl ?_
                  exact ⟨mgr, stub, rfl, hitcp, hstub, by rw [hreq]; rfl, hauth, rfl⟩
              | some u =>
                  rw [husr] at hnot
                  refine .called stub.cb (.usr u) req rfl rfl (hnot ?_)
                  rintro ⟨-, habs⟩
                  cases habs

/-- A request in HTTP headers, like a BEGIN. -/
theorem getOutcome_outcome (msgMgr : Option (XmsgImMsgMgr D H)) :
    BeginOutcome pb usr ptr gts pdu begin_ msgMgr
      (getOutcome pb usr ptr gts msgMgr pdu begin_) := by
  -- a BEGIN that the interceptor takes is not refused
  have hnot {mgr : XmsgImMsgMgr D H} (hitcp : mgr.itcp pdu ≠ .DISABLE) :
      ¬ Refused pb usr (some mgr) pdu begin_ := by
    rintro ⟨mgr', stub, hmgr, habs, -⟩
    cases hmgr
    exact hitcp habs
  unfold getOutcome
  cases msgMgr with
  | none =>
      refine .noTrans rfl rfl ?_
      rintro ⟨mgr, stub, hmgr, -⟩
      cases hmgr
  | some mgr =>
      dsimp only
      cases hitcp : mgr.itcp pdu with
      | SUCCESS => exact .noTrans rfl rfl (hnot (by rw [hitcp]; decide))
      | FORBIDDEN => exact .noTrans rfl rfl (hnot (by rw [hitcp]; decide))
      | EXCEPTION => exact .noTrans rfl rfl (hnot (by rw [hitcp]; decide))
      | DISABLE => exact evnBegin_outcome pb usr ptr gts pdu begin_ mgr hitcp

/-- A PDU that `evnMsg` dispatches as a BEGIN, unless the interceptor takes it. -/
def IsBegin (K : XscProto) : Prop :=
  pdu.transm.indicator &&& K.XSC_TAG_TRANSM_PING = 0 ∧ pdu.transm.trans = some begin_ ∧
    begin_.trans = .BEGIN

/-- Of every other PDU `evnMsg` makes no passive transaction. -/
theorem evnMsg_notBegin (K : XscProto) (msgMgr : Option (XmsgImMsgMgr D H))
    (c : XmsgImChannel M) (hnot : ∀ begin_, ¬ IsBegin pdu begin_ K) :
    (evnMsg pb usr ptr gts pdu K msgMgr c).passStart = none ∧
      (evnMsg pb usr ptr gts pdu K msgMgr c).calls.filterMap HandlerCall.passive = [] := by
  have huni (mgr : XmsgImMsgMgr D H) (trans : XscProtoTransaction) :
      (evnUnidirection pb mgr usr ptr gts pdu trans).1.toList.filterMap HandlerCall.passive =
        [] := by
    apply List.filterMap_eq_nil_iff.mpr
    intro call hcall
    rw [Option.mem_toList, evnUnidirection_fst] at hcall
    simp only [Option.bind_eq_some_iff, Option.map_eq_some_iff] at hcall
    obtain ⟨stub, -, uni, -, self, -, rfl⟩ := hcall
    rfl
  unfold evnMsg
  by_cases hping : pdu.transm.indicator &&& K.XSC_TAG_TRANSM_PING = 0
  · rw [if_neg (not_not_intro hping)]
    cases htrans : pdu.transm.trans with
    | none => exact ⟨rfl, rfl⟩
    | some trans =>
        cases msgMgr with
        | none => exact ⟨rfl, rfl⟩
        | some mgr =>
            dsimp only
            cases mgr.itcp pdu with
            | SUCCESS => exact ⟨rfl, rfl⟩
            | FORBIDDEN => exact ⟨rfl, rfl⟩
            | EXCEPTION => exact ⟨rfl, rfl⟩
            | DISABLE =>
                dsimp only
                cases htag : trans.trans with
                | BEGIN => exact absurd ⟨hping, htrans, htag⟩ (hnot trans)
                | END => exact ⟨rfl, rfl⟩
                | UNIDIRECTION => exact ⟨rfl, huni mgr trans⟩
                | PARTIAL => exact ⟨rfl, rfl⟩
                | other tag => exact ⟨rfl, rfl⟩
  · rw [if_pos hping]
    split <;> exact ⟨rfl, rfl⟩

/-- A request in HTTP headers makes no transaction, or is dispatched as a BEGIN. -/
theorem evnHeader_outcome (lib : HttpLib) (msgMgr : Option (XmsgImMsgMgr D H))
    (c : XmsgImHttpChannel M) (header : HttpHeader) :
    let r := evnHeader lib pb usr ptr gts msgMgr c header
    (r.pdu = none ∧ r.passStart = none ∧ r.calls = []) ∨
      ∃ pdu begin_, r.pdu = some pdu ∧ pdu.transm.trans = some begin_ ∧
        r.passStart = (getOutcome pb usr ptr gts msgMgr pdu begin_).passStart ∧
        r.calls = (getOutcome pb usr ptr gts msgMgr pdu begin_).call.toList := by
  intro r
  cases hname : header.find "x-msg-name" with
  | none =>
      have hr : r = { ret := false, ch := c } :=
        evnHeader_noName lib pb usr ptr gts msgMgr hname
      rw [hr]
      exact .inl ⟨rfl, rfl, rfl⟩
  | some msgName =>
      by_cases hmethod : c.method = "GET"
      · cases hdat : header.find "x-msg-dat" with
        | none =>
            have hr : r = { ret := false, ch := c.keep msgName header } :=
              evnHeader_noDat lib pb usr ptr gts msgMgr hname hmethod hdat
            rw [hr]
            exact .inl ⟨rfl, rfl, rfl⟩
        | some dat =>
            obtain ⟨begin_, ⟨hbegin, -⟩, heq⟩ :=
              evnHeader_get lib pb usr ptr gts msgMgr hname hmethod hdat
            have hr : r = _ := heq
            rw [hr]
            exact .inr ⟨_, begin_, rfl, hbegin, rfl, rfl⟩
      · have hr : r = { ret := true, ch := c.keep msgName header } :=
          evnHeader_notGet lib pb usr ptr gts msgMgr hname hmethod
        rw [hr]
        exact .inl ⟨rfl, rfl, rfl⟩

end Created

/-- A BEGIN PDU and the passive transaction that was created of it, on the binary path or of
a GET request. -/
inductive XmsgImTransPassive.Created (pb : Protobuf D M) :
    XscProtoPdu → XmsgImTransPassive M → Prop
  | evnMsg {H U : Type} {usr : Option U} {ptr gts pdu K} {msgMgr : Option (XmsgImMsgMgr D H)}
      {c t} : (evnMsg pb usr ptr gts pdu K msgMgr c).passStart = some t → Created pb pdu t
  | evnHeader {H U : Type} {lib} {usr : Option U} {ptr gts}
      {msgMgr : Option (XmsgImMsgMgr D H)} {c header pdu t} :
      (XmsgImHttpChannel.evnHeader lib pb usr ptr gts msgMgr c header).pdu = some pdu →
      (XmsgImHttpChannel.evnHeader lib pb usr ptr gts msgMgr c header).passStart = some t →
      Created pb pdu t

/-- A transaction that `getOutcome` logs answers the BEGIN and is fresh. -/
theorem getOutcome_fresh {pb : Protobuf D M} {usr : Option U} {ptr : Nat} {gts : UInt64}
    {msgMgr : Option (XmsgImMsgMgr D H)} {pdu : XscProtoPdu} {begin_ : XscProtoTransaction}
    {t : XmsgImTransPassive M}
    (h : (XmsgImHttpChannel.getOutcome pb usr ptr gts msgMgr pdu begin_).passStart = some t) :
    t.Fresh ∧ t.dtid = begin_.stid := by
  cases getOutcome_outcome pb usr ptr gts pdu begin_ msgMgr with
  | noTrans hnone _ _ =>
      rw [hnone] at h
      cases h
  | refused req hstart _ _ =>
      rw [hstart] at h
      cases h
      exact ⟨⟨rfl, rfl, rfl, rfl⟩, rfl⟩
  | called cb self req hstart _ _ =>
      rw [hstart] at h
      cases h
      exact ⟨⟨rfl, rfl, rfl, rfl⟩, rfl⟩

/-- A transaction that was created of a PDU is as the constructor left it, but for its request. -/
theorem XmsgImTransPassive.Created.fresh {pb : Protobuf D M} {pdu : XscProtoPdu}
    {t : XmsgImTransPassive M} (h : Created pb pdu t) :
    t.Fresh ∧ ∃ begin_, pdu.transm.trans = some begin_ ∧ t.dtid = begin_.stid := by
  cases h with
  | @evnMsg H U usr ptr gts _ K msgMgr c _ hstart =>
      by_cases hbegin : ∃ begin_, IsBegin pdu begin_ K
      · obtain ⟨begin_, hping, htrans, htag⟩ := hbegin
        obtain ⟨-, -, heq⟩ :=
          XmsgImHttpChannel.evnMsg_begin pb usr ptr gts msgMgr K c hping htrans htag
        rw [heq] at hstart
        obtain ⟨hfresh, hdtid⟩ := getOutcome_fresh hstart
        exact ⟨hfresh, begin_, htrans, hdtid⟩
      · have hnone := (evnMsg_notBegin pb usr ptr gts pdu K msgMgr c
          fun begin_ hb => hbegin ⟨begin_, hb⟩).1
        rw [hnone] at hstart
        cases hstart
  | @evnHeader H U lib usr ptr gts msgMgr c header _ _ hpdu hstart =>
      rcases evnHeader_outcome pb usr ptr gts lib msgMgr c header with
        ⟨-, hnone, -⟩ | ⟨pdu', begin_, hpdu', htrans, heq, -⟩
      · rw [hnone] at hstart
        cases hstart
      · rw [hpdu] at hpdu'
        cases hpdu'
        rw [heq] at hstart
        obtain ⟨hfresh, hdtid⟩ := getOutcome_fresh hstart
        exact ⟨hfresh, begin_, htrans, hdtid⟩

/-! ## The outcome of one call -/

/-- The transaction layer of an END that answers a BEGIN with what a call asks for. -/
structure IsEndOf (K : XscProto) (pb : Protobuf D M) (begin_ : XscProtoTransaction)
    (call : XmsgImTransPassive.EndCall M) (sent : XscProtoTransaction) : Prop where
  trans : sent.trans = .END
  dtid : sent.dtid = begin_.stid
  ret : sent.ret = call.ret K
  desc : sent.desc = call.desc
  msg : sent.msg = (call.body pb).1
  dat : sent.dat = (call.body pb).2

/-- The outcome of ending a passive transaction once.  On a channel that is up, with another
return code than failure, one END leaves, or one response on an HTTP channel, with what the
call asks for, and the lazy close comes after it.  With the failure code nothing is sent and
the channel is closed once.  On a channel that is down nothing happens to it.  The end of the
transaction is logged once in all cases. -/
theorem end_outcome {pb : Protobuf D M} {pdu : XscProtoPdu} {t : XmsgImTransPassive M}
    (h : XmsgImTransPassive.Created pb pdu t) (K : XscProto)
    (call : XmsgImTransPassive.EndCall M) (pro : XscProtocolType) (est : Bool) :
    let outs := (t.endCall K call).endClosure K pb pro est
    (∃ begin_, pdu.transm.trans = some begin_ ∧
      (est = true → call.ret K ≠ K.RET_FAILURE →
        ∃ answer, onConnection outs = answer :: (if call.lazyClose then [.lazyClose] else []) ∧
          (pro ≠ .XSC_PROTOCOL_HTTP → ∃ end_ sent, answer = .send end_ ∧
            end_.transm.trans = some sent ∧ IsEndOf K pb begin_ call sent) ∧
          (pro = .XSC_PROTOCOL_HTTP → answer = .sendBin
            { ret := (call.ret K).toUInt32, desc := call.desc
              msg := (call.body pb).1, dat := (call.body pb).2 }))) ∧
      (est = true → call.ret K = K.RET_FAILURE →
        onConnection outs = [if call.lazyClose then .lazyClose else .close]) ∧
      (est = false → onConnection outs = []) ∧
      outs.countP Out.isPassFinished = 1 := by
  intro outs
  obtain ⟨hfresh, begin_, hbegin, hdtid⟩ := h.fresh
  have hconn : onConnection outs = _ :=
    onConnection_endClosure K pb pro est (t.endCall K call)
  rw [XmsgImTransPassive.endCall_ret, hfresh.endCall_lazyClose] at hconn
  refine ⟨⟨begin_, hbegin, ?_⟩, ?_, ?_, countP_isPassFinished_endClosure K pb pro est _⟩
  · rintro rfl hret
    refine ⟨(t.endCall K call).answer pb pro, ?_, ?_, ?_⟩
    · rw [hconn, if_neg (by decide), if_neg hret]
    · intro hpro
      refine ⟨endPdu pb (t.endCall K call), _, if_pos hpro, endPdu_trans pb _, ?_⟩
      refine ⟨rfl, ?_, XmsgImTransPassive.endCall_ret K t call, hfresh.endCall_desc call, ?_, ?_⟩
      · show (t.endCall K call).dtid = begin_.stid
        rw [XmsgImTransPassive.endCall_dtid, hdtid]
      · show ((t.endCall K call).body pb).1 = (call.body pb).1
        rw [hfresh.endCall_body]
      · show ((t.endCall K call).body pb).2 = (call.body pb).2
        rw [hfresh.endCall_body]
    · intro hpro
      have hanswer : (t.endCall K call).answer pb pro = .sendBin ((t.endCall K call).rsp pb) :=
        if_neg (not_not_intro hpro)
      rw [hanswer, hfresh.endCall_rsp]
      rfl
  · rintro rfl hret
    rw [hconn, if_neg (by decide), if_pos hret]
  · rintro rfl
    rw [hconn]
    rfl

/-- The transaction of a request of the sample table. -/
def samplePassive : XmsgImTransPassive SampleMsg :=
  XmsgImTransPassive.ofBegin 1 0 (sampleBegin "Ping" [7])
    { trans := .BEGIN, stid := 5, msg := "Ping", dat := [7] } (.ping, [7])

/-- It was created by `evnMsg`. -/
theorem samplePassive_created :
    XmsgImTransPassive.Created samplePb (sampleBegin "Ping" [7]) samplePassive := by
  have hstart : (evnMsg samplePb (some "alice") 1 0 (sampleBegin "Ping" [7]) .sample
      (some (RegCall.regAll samplePb sampleRegs)) sampleChannel).passStart =
        some samplePassive := rfl
  exact .evnMsg hstart

/-- Ended with a lazy close: the END leaves first. -/
theorem end_outcome_lazy :
    let outs := (samplePassive.endCall .sample (.endAndLazyCloseRet 7 (some "bye"))).endClosure
      .sample samplePb .XSC_PROTOCOL_TCP true
    (∃ end_ sent, onConnection outs = [.send end_, .lazyClose] ∧
      end_.transm.trans = some sent ∧ sent.dtid = 5 ∧ sent.ret = 7 ∧ sent.desc = "bye") ∧
      outs.countP Out.isPassFinished = 1 := by
  obtain ⟨⟨begin_, hbegin, hsent⟩, -, -, hlog⟩ := end_outcome samplePassive_created .sample
    (.endAndLazyCloseRet 7 (some "bye")) .XSC_PROTOCOL_TCP true
  cases hbegin
  obtain ⟨answer, hconn, hsocket, -⟩ := hsent rfl (by decide)
  obtain ⟨end_, sent, rfl, htrans, hend⟩ := hsocket (by decide)
  exact ⟨⟨end_, sent, hconn, htrans, hend.dtid, hend.ret, hend.desc⟩, hlog⟩

end XmsgImXsc
