/-
# XmsgImXsc.Send -- building and sending PDUs

`sendBegin`, `sendEnd` and `sendUnidirection` build a PDU from a transaction and pass it to
`sendPdu`, which writes it to the socket or, on an HTTP channel, answers the request.  What
leaves the library is listed as `Out` events, in order.
-/
import XmsgImXsc.Trans

namespace XmsgImXsc

variable {D M : Type}

/-- The response message of the HTTP transport. -/
structure XmsgImHttpRsp where
  ret : UInt32 := 0
  desc : Text := []
  msg : Text := []
  dat : Bytes := []
  deriving Repr, DecidableEq

/-- What the library does to the outside: bytes sent, connections closed, log events. -/
inductive Out where
  | send (pdu : XscProtoPdu)
  | sendBin (rsp : XmsgImHttpRsp)
  | close
  | lazyClose
  | transInitStart (pdu : XscProtoPdu)
  | transPassFinished (pdu : Option XscProtoPdu)
  | transInitUni (pdu : XscProtoPdu)
  deriving Repr, DecidableEq

/-! ## Writing a PDU -/

/-- `XmsgImHttpChannel::sendXscPdu`.  Only an END can be answered. -/
def XmsgImHttpChannel.sendXscPdu (pdu : XscProtoPdu) : List Out :=
  match pdu.transm.trans with
  | none => []
  | some t =>
      if t.trans ≠ .END then []
      else
        [.sendBin
          { ret := t.ret.toUInt32
            desc := if t.desc ≠ [] then t.desc else []
            msg := if t.msg ≠ [] then t.msg else []
            dat := if 0 < t.dat.length then t.dat else [] }]

/-- `sendPdu`, without the recording of traffic. -/
def sendPdu (pro : XscProtocolType) (pdu : XscProtoPdu) : List Out :=
  if pro ≠ .XSC_PROTOCOL_HTTP then [.send pdu] else XmsgImHttpChannel.sendXscPdu pdu

/-! ## Building a PDU -/

/-- The header of an outgoing PDU: none without an out-of-band list. -/
def oobHeader (ooob : Option Oob) : Option XscTransmissionHeader :=
  ooob.map fun kv => { oob := some kv }

/-- The PDU `sendBegin` builds.  `none` stands for the null `beginMsg` the source
dereferences when there is no raw message either. -/
def beginPdu (pb : Protobuf D M) (trans : XmsgImTransInitiative M) : Option XscProtoPdu :=
  let head : XscProtoTransaction :=
    { trans := .BEGIN, partSeq := 0, haveNextPart := false, refDat := true
      stid := trans.stid, dtid := 0 }
  match trans.rawMsg with
  | some raw =>
      some { transm :=
        { header := oobHeader trans.ooob
          trans := some { head with msg := raw.msg, dat := raw.dat } } }
  | none =>
      trans.beginMsg.map fun m =>
        { transm :=
          { header := oobHeader trans.ooob
            trans := some { head with
              msg := pb.name (pb.getDescriptor m), dat := pb.serializeAsString m } } }

/-- `sendBegin`: logged and sent, or nothing where no PDU is built. -/
def sendBegin (pb : Protobuf D M) (pro : XscProtocolType) (trans : XmsgImTransInitiative M) :
    List Out :=
  match beginPdu pb trans with
  | none => []
  | some pdu => .transInitStart pdu :: sendPdu pro pdu

/-- The PDU `sendEnd(trans)` builds: the raw message if there is one, else the end message,
else no body. -/
def endPdu (pb : Protobuf D M) (trans : XmsgImTransPassive M) : XscProtoPdu :=
  let head : XscProtoTransaction :=
    { trans := .END, partSeq := 0, haveNextPart := false, refDat := true
      stid := 0, dtid := trans.dtid, ret := trans.ret, desc := trans.desc }
  { transm :=
    { header := oobHeader trans.ooob
      trans := some (
        match trans.rawMsg with
        | some raw => { head with msg := raw.msg, dat := raw.dat }
        | none =>
            match trans.endMsg with
            | none => head
            | some m => { head with
                msg := pb.name (pb.getDescriptor m), dat := pb.serializeAsString m }) } }

/-- `sendEnd(trans)`. -/
def sendEnd (pb : Protobuf D M) (pro : XscProtocolType) (trans : XmsgImTransPassive M) :
    List Out :=
  .transPassFinished (some (endPdu pb trans)) :: sendPdu pro (endPdu pb trans)

/-- `XmsgImTransPassive::__end__`, run by the closure an end function queued; `est` is
`channel->est` at that moment. -/
def XmsgImTransPassive.endClosure (K : XscProto) (pb : Protobuf D M) (pro : XscProtocolType)
    (est : Bool) (trans : XmsgImTransPassive M) : List Out :=
  if trans.ret = K.RET_FAILURE then
    if !est then [.transPassFinished none]
    else [if !trans.lazyClose then .close else .lazyClose, .transPassFinished none]
  else if !est then [.transPassFinished none]
  else sendEnd pb pro trans ++ (if trans.lazyClose then [.lazyClose] else [])

/-- The PDU `sendUnidirection` builds, with `none` as for `beginPdu`. -/
def unidirectionPdu (pb : Protobuf D M) (trans : XmsgImTrans M) : Option XscProtoPdu :=
  let head : XscProtoTransaction :=
    { trans := .UNIDIRECTION, partSeq := 0, haveNextPart := false, refDat := true
      stid := 0, dtid := 0 }
  match trans.rawMsg with
  | some raw =>
      some { transm :=
        { header := oobHeader trans.ooob
          trans := some { head with msg := raw.msg, dat := raw.dat } } }
  | none =>
      trans.uniMsg.map fun m =>
        { transm :=
          { header := oobHeader trans.ooob
            trans := some { head with
              msg := pb.name (pb.getDescriptor m), dat := pb.serializeAsString m } } }

/-- `sendUnidirection`, like `sendBegin`. -/
def sendUnidirection (pb : Protobuf D M) (pro : XscProtocolType) (trans : XmsgImTrans M) :
    List Out :=
  match unidirectionPdu pb trans with
  | none => []
  | some pdu => .transInitUni pdu :: sendPdu pro pdu

/-! ## What is sent -/

/-- The PDUs among the events. -/
def sentPdus (outs : List Out) : List XscProtoPdu :=
  outs.filterMap fun
    | .send pdu => some pdu
    | _ => none

/-- On a socket channel `sendPdu` sends the PDU; on an HTTP channel no PDU leaves. -/
theorem sentPdus_sendPdu (pro : XscProtocolType) (pdu : XscProtoPdu) :
    sentPdus (sendPdu pro pdu) = if pro ≠ .XSC_PROTOCOL_HTTP then [pdu] else [] := by
  unfold sendPdu
  by_cases hpro : pro = .XSC_PROTOCOL_HTTP
  · simp only [hpro, ne_eq, not_true_eq_false, if_false]
    unfold XmsgImHttpChannel.sendXscPdu
    cases pdu.transm.trans with
    | none => rfl
    | some t =>
        show sentPdus (if t.trans ≠ .END then [] else _) = []
        split <;> rfl
  · simp only [hpro, ne_eq, not_false_eq_true, if_true]
    rfl

/-- The PDU of a BEGIN is the one built from the transaction. -/
theorem mem_sentPdus_sendBegin {pb : Protobuf D M} {pro : XscProtocolType}
    {trans : XmsgImTransInitiative M} {pdu : XscProtoPdu}
    (h : pdu ∈ sentPdus (sendBegin pb pro trans)) : beginPdu pb trans = some pdu := by
  unfold sendBegin at h
  cases hpdu : beginPdu pb trans with
  | none =>
      rw [hpdu] at h
      cases h
  | some pdu' =>
      rw [hpdu] at h
      have hmem : pdu ∈ sentPdus (sendPdu pro pdu') := h
      rw [sentPdus_sendPdu] at hmem
      split at hmem
      · rw [List.mem_singleton.mp hmem]
      · cases hmem

/-- An END leaves a socket channel exactly when the channel is up and the transaction did
not end in failure, and it is the PDU built from the transaction. -/
theorem sentPdus_endClosure (K : XscProto) (pb : Protobuf D M) (pro : XscProtocolType)
    (est : Bool) (trans : XmsgImTransPassive M) :
    sentPdus (trans.endClosure K pb pro est) =
      if pro ≠ .XSC_PROTOCOL_HTTP ∧ trans.ret ≠ K.RET_FAILURE ∧ est = true
      then [endPdu pb trans] else [] := by
  have happend (outs outs' : List Out) :
      sentPdus (outs ++ outs') = sentPdus outs ++ sentPdus outs' := List.filterMap_append
  have hend : sentPdus (sendEnd pb pro trans) =
      if pro ≠ .XSC_PROTOCOL_HTTP then [endPdu pb trans] else [] :=
    sentPdus_sendPdu pro (endPdu pb trans)
  unfold XmsgImTransPassive.endClosure
  by_cases hret : trans.ret = K.RET_FAILURE
  · cases est <;> cases trans.lazyClose <;> simp [hret, sentPdus]
  · cases est with
    | false => simp [hret, sentPdus]
    | true =>
        have hclose : sentPdus (if trans.lazyClose then [.lazyClose] else []) = [] := by
          cases trans.lazyClose <;> rfl
        simp [hret, happend, hend, hclose]

/-! ## What the built PDUs carry -/

/-- A BEGIN carries the tid of its transaction. -/
theorem beginPdu_stid {pb : Protobuf D M} {trans : XmsgImTransInitiative M} {pdu : XscProtoPdu}
    {sent : XscProtoTransaction} (h : beginPdu pb trans = some pdu)
    (hsent : pdu.transm.trans = some sent) : sent.stid = trans.stid := by
  unfold beginPdu at h
  cases hraw : trans.rawMsg with
  | some raw =>
      simp only [hraw, Option.some.injEq] at h
      subst h
      cases hsent
      rfl
  | none =>
      simp only [hraw, Option.map_eq_some_iff] at h
      obtain ⟨m, -, rfl⟩ := h
      cases hsent
      rfl

/-- The type name and the bytes an END carries. -/
def XmsgImTransPassive.body (pb : Protobuf D M) (trans : XmsgImTransPassive M) :
    Text × Bytes :=
  match trans.rawMsg with
  | some raw => (raw.msg, raw.dat)
  | none =>
      match trans.endMsg with
      | none => ([], [])
      | some m => (pb.name (pb.getDescriptor m), pb.serializeAsString m)

theorem body_endMsg {pb : Protobuf D M} {trans : XmsgImTransPassive M} {m : M}
    (hraw : trans.rawMsg = none) (hend : trans.endMsg = some m) :
    trans.body pb = (pb.name (pb.getDescriptor m), pb.serializeAsString m) := by
  unfold XmsgImTransPassive.body
  rw [hraw, hend]

theorem body_empty {pb : Protobuf D M} {trans : XmsgImTransPassive M}
    (hraw : trans.rawMsg = none) (hend : trans.endMsg = none) : (trans.body pb).1 = [] := by
  unfold XmsgImTransPassive.body
  rw [hraw, hend]

/-- An END carries the tid of the request it answers, and the result and the body of its
transaction. -/
theorem endPdu_trans (pb : Protobuf D M) (trans : XmsgImTransPassive M) :
    (endPdu pb trans).transm.trans = some
      { trans := .END, refDat := true, dtid := trans.dtid, ret := trans.ret
        desc := trans.desc, msg := (trans.body pb).1, dat := (trans.body pb).2 } := by
  unfold endPdu XmsgImTransPassive.body
  cases trans.rawMsg with
  | some raw => rfl
  | none =>
      cases trans.endMsg with
      | none => rfl
      | some m => rfl

/-- What an END says of its transaction. -/
theorem endPdu_head {pb : Protobuf D M} {trans : XmsgImTransPassive M}
    {sent : XscProtoTransaction} (hsent : (endPdu pb trans).transm.trans = some sent) :
    sent.dtid = trans.dtid ∧ sent.ret = trans.ret ∧ sent.desc = trans.desc := by
  rw [endPdu_trans] at hsent
  cases hsent
  exact ⟨rfl, rfl, rfl⟩

end XmsgImXsc
