/-
# XmsgImXsc.StreamLink -- two endpoints on a byte stream

Both endpoints of a connection begin transactions and answer those of the other.  Their PDUs
go over two byte streams, one for each direction, which arrive in pieces; the receive loop of
an endpoint decodes what has arrived and passes every PDU to `evnMsg`.  Either end can be
lost at any time.

`link i` holds the requests of endpoint `i`: its channel, and the passive transactions of the
other endpoint that they led to.  What is on the wire carries a note on what it was sent for;
no step but the note of a new passive transaction reads it.

The byte streams refine the link of messages: over them the requests of each endpoint run as
over a link that delivers whole PDUs (`StreamLink.reachable_wire`).  The proof has two parts:

* every stream carries what was sent, and the next PDU that the receive loop cuts out of it is
  the next one that was sent (`Wire`).  The codec's laws give this for one PDU
  (`Wired.carries`), and the library for a whole stream (`Pipe.Inv`).
* a step on the streams is a step of the link, or changes neither channel nor records
  (`Step.link_step`).  The receive step is where `evnMsg` runs; `evnMsg_effect` says the
  three things that it can do with a PDU, and the note of the PDU which of them is possible.

Everything the link was shown to keep then holds of the byte streams without a further look
at bytes.
-/
import XmsgImXsc.Lib.Pipe
import XmsgImXsc.Link
import XmsgImXsc.PassiveEnd
import XmsgImXsc.RecvDatagram

namespace XmsgImXsc

open Lts Scanning

variable {D M H U : Type} {decode : Decode}

/-! ## What is on the wire

PDUs are encoded and decoded by the framework, which is not part of the repository.  Of what
is sent the peer decodes the same indicator and the same transaction layer (`CarriedAs`). -/

/-- The peer decodes `got` from the bytes of `sent`. -/
structure XscProtoPdu.CarriedAs (sent got : XscProtoPdu) : Prop where
  indicator : got.transm.indicator = sent.transm.indicator
  trans : ∀ t, sent.transm.trans = some t → ∃ t', got.transm.trans = some t' ∧ t.CarriedAs t'
  noTrans : sent.transm.trans = none → got.transm.trans = none

/-- What a PDU was sent for: a BEGIN, an END, or something else. -/
inductive Note (M : Type) where
  | begin_ (x : BeginSent M)
  | end_ (x : EndSent M)
  | other (pdu : XscProtoPdu)

namespace Note

/-- The PDU as it was sent. -/
def pdu : Note M → XscProtoPdu
  | .begin_ x => x.pdu
  | .end_ x => x.pdu
  | .other pdu => pdu

/-- The BEGIN, if the note is on one. -/
def begin? : Note M → Option (BeginSent M)
  | .begin_ x => some x
  | _ => none

/-- The END, if the note is on one. -/
def end? : Note M → Option (EndSent M)
  | .end_ x => some x
  | _ => none

/-- A heartbeat, a unidirection or any PDU that neither begins nor ends a transaction. -/
def IsOther : Note M → Prop
  | .other pdu => ∀ t, pdu.transm.trans = some t → t.trans ≠ .BEGIN ∧ t.trans ≠ .END
  | _ => False

end Note

/-- A PDU with its bytes, from which the peer decodes `got`. -/
structure Wired (decode : Decode) (M : Type) where
  note : Note M
  bytes : Bytes
  got : XscProtoPdu
  encodes : Encodes decode bytes got
  carried : note.pdu.CarriedAs got

namespace Wired

/-- The BEGIN, if the note is on one. -/
def begin? (w : Wired decode M) : Option (BeginSent M) := w.note.begin?

/-- The END, if the note is on one. -/
def end? (w : Wired decode M) : Option (EndSent M) := w.note.end?

/-- Whatever follows it, a PDU on the wire is scanned as the PDU that was decoded. -/
theorem carries (M : Type) (laws : DecodeLaws decode) :
    Pipe.Carries (pduScanner decode laws) Wired.bytes
      fun (w : Wired decode M) pdu => w.got = pdu where
  scans w r := by
    refine ⟨w.got, rfl, ?_⟩
    have hdecode := w.encodes.decodes r
    exact pduScan_item_iff.mpr ⟨⟨false, hdecode⟩, w.encodes.len.symm⟩
  empty := pduScan_more_iff.mpr laws.empty

end Wired

/-! ## The endpoints

Endpoint `false` and endpoint `true` have the same steps.  Pipe `i` leads from endpoint `i` to
endpoint `!i`, so what endpoint `i` receives comes off pipe `!i`. -/

/-- The two endpoints `false` and `true`: the requests of each, whether it is established,
and the stream of what it sends. -/
structure StreamLink (decode : Decode) (M : Type) where
  link : Bool → Link M
  est : Bool → Bool
  pipe : Bool → Pipe UInt8 (Wired decode M)

/-- The PDU of a heartbeat that is answered to another. -/
def XscProto.pong (K : XscProto) : XscProtoPdu :=
  { transm := { indicator := K.XSC_TAG_TRANSM_PONG } }

namespace StreamLink

/-- The requests of endpoint `i` are as in `l`. -/
def setLink (s : StreamLink decode M) (i : Bool) (l : Link M) : StreamLink decode M :=
  { s with link := Function.update s.link i l }

/-- The stream of what endpoint `i` sends is `p`. -/
def setPipe (s : StreamLink decode M) (i : Bool) (p : Pipe UInt8 (Wired decode M)) :
    StreamLink decode M :=
  { s with pipe := Function.update s.pipe i p }

/-- An established endpoint puts PDUs on its stream. -/
def send (s : StreamLink decode M) (i : Bool) (ws : List (Wired decode M)) :
    StreamLink decode M :=
  if s.est i then s.setPipe i ((s.pipe i).send Wired.bytes ws) else s

/-- The endpoint is established no more if `c`. -/
def closeIf (s : StreamLink decode M) (i : Bool) (c : Bool) : StreamLink decode M :=
  { s with est := Function.update s.est i (s.est i && !c) }

/-- The passive transaction of a call, noted with the BEGIN it was created from. -/
def addPassive (l : Link M) (note : Note M) (r : EvnMsg M H U) : Link M :=
  match note with
  | .begin_ x =>
      { l with
        passive := (r.calls.filterMap HandlerCall.passive).map (⟨x, ·, .handling⟩) ++ l.passive }
  | _ => l

/-- The channel of the receiver, which ends the transaction an END names. -/
def endTrans (K : XscProto) (pb : Protobuf D M) (l : Link M) (pdu : XscProtoPdu)
    (r : EvnMsg M H U) : Link M :=
  match r.ended, pdu.transm.trans with
  | some _, some end_ => { l with a := l.a.evnEnd K pb pdu end_ }
  | _, _ => l

/-- Endpoint `!i` has received `pdu`, which is `n` bytes long, and `evnMsg` did `r` with it. -/
def received (K : XscProto) (pb : Protobuf D M) (s : StreamLink decode M) (i : Bool)
    (note : Note M) (pdu : XscProtoPdu) (n : Nat) (r : EvnMsg M H U)
    (pong : List (Wired decode M)) : StreamLink decode M :=
  ((((s.setPipe i ((s.pipe i).take n)).setLink i (addPassive (s.link i) note r)).setLink (!i)
    (endTrans K pb (s.link (!i)) pdu r)).send (!i) pong).closeIf (!i) (!r.ret)

/-- One step.  `mgr` holds the message managers of the endpoints. -/
inductive Step (U : Type) (K : XscProto) (pb : Protobuf D M)
    (mgr : Bool → Option (XmsgImMsgMgr D H)) (pro : XscProtocolType) :
    StreamLink decode M → Unit → StreamLink decode M → Prop
  /-- An endpoint begins a transaction and sends its BEGIN. -/
  | begin_ (s) (i : Bool) {trans a ws} :
      XmsgImXsc.Step K pb (s.link i).a (.futureBegin trans) a →
      (beginPdu pb ((s.link i).a.ch.futureBegin trans).2).isSome →
      ws.map Wired.note = ((sentPdus (sendBegin pb (s.link i).a.ch.pro
        ((s.link i).a.ch.futureBegin trans).2)).map
          (⟨((s.link i).a.ch.futureBegin trans).2, ·⟩)).map .begin_ →
      Step U K pb mgr pro s ()
        ((s.setLink i { s.link i with
          a := a
          begins := (sentPdus (sendBegin pb (s.link i).a.ch.pro
            ((s.link i).a.ch.futureBegin trans).2)).map
              (⟨((s.link i).a.ch.futureBegin trans).2, ·⟩) ++ (s.link i).begins }).send i ws)
  /-- Some of the bytes in flight arrive. -/
  | arrive (s) (i : Bool) (n : Nat) :
      Step U K pb mgr pro s () (s.setPipe i ((s.pipe i).arrive n))
  /-- One pass of the receive loop. -/
  | receive (s) (i : Bool) {w : Wired decode M} {pdu n pong} {usr : Option U} {ptr gts} :
      s.est (!i) = true → pduScan decode (s.pipe i).buf = .item pdu n →
      (s.pipe i).sent[(s.pipe i).taken]? = some w →
      pong.map Wired.note =
        (if (evnMsg pb usr ptr gts pdu K (mgr (!i)) (s.link (!i)).a.ch).pong
          then [.other K.pong] else []) →
      Step U K pb mgr pro s ()
        (s.received K pb i w.note pdu n
          (evnMsg pb usr ptr gts pdu K (mgr (!i)) (s.link (!i)).a.ch) pong)
  /-- What has arrived is no PDU. -/
  | reject (s) (i : Bool) : s.est (!i) = true → pduScan decode (s.pipe i).buf = .bad →
      Step U K pb mgr pro s () (s.closeIf (!i) true)
  /-- A handler ends its transaction, after it has set fields of it. -/
  | handlerEnd (s) (i : Bool) {l₁ l₂ : List (Passive M)} {p : Passive M}
      {trans : XmsgImTransPassive M} {call} : (s.link i).passive = l₁ ++ p :: l₂ →
      p.phase = .handling → trans.ptr = p.trans.ptr → trans.dtid = p.trans.dtid →
      Step U K pb mgr pro s ()
        (s.setLink i { s.link i with
          passive := l₁ ++ ⟨p.request, trans.endCall K call, .queued⟩ :: l₂ })
  /-- An endpoint executes the closure of an ended transaction, which may close the
  connection.  A lazy close takes effect now, or later as `lost`. -/
  | runEnd (s) (i : Bool) {l₁ l₂ : List (Passive M)} {p : Passive M} {ws} {c : Bool} :
      (s.link i).passive = l₁ ++ p :: l₂ → p.phase = .queued →
      (.close ∈ p.trans.endClosure K pb pro (s.est (!i)) → c = true) →
      ws.map Wired.note =
        ((sentPdus (p.trans.endClosure K pb pro (s.est (!i)))).map (⟨p, ·⟩)).map .end_ →
      Step U K pb mgr pro s ()
        (((s.setLink i { s.link i with
          passive := l₁ ++ { p with phase := .ended } :: l₂
          ends := (sentPdus (p.trans.endClosure K pb pro (s.est (!i)))).map (⟨p, ·⟩) ++
            (s.link i).ends }).send (!i) ws).closeIf (!i) c)
  /-- An endpoint sends something else. -/
  | other (s) (i : Bool) {ws : List (Wired decode M)} : (∀ w ∈ ws, w.note.IsOther) →
      Step U K pb mgr pro s () (s.send i ws)
  /-- A sweep, a cleanup or another local step of a channel. -/
  | local_ (s) (i : Bool) {act a} : act.isLocal → XmsgImXsc.Step K pb (s.link i).a act a →
      Step U K pb mgr pro s () (s.setLink i { s.link i with a := a })
  /-- An endpoint loses the connection. -/
  | lost (s) (i : Bool) : Step U K pb mgr pro s () (s.closeIf i true)

/-- The runs from two fresh channels on empty streams. -/
def system (U : Type) (K : XscProto) (pb : Protobuf D M)
    (mgr : Bool → Option (XmsgImMsgMgr D H)) (pro : XscProtocolType) :
    System (StreamLink decode M) Unit where
  init s := ∀ i, ((s.link i).a.Fresh ∧ (s.link i).a.ch.pro = pro ∧ (s.link i).begins = [] ∧
    (s.link i).passive = [] ∧ (s.link i).ends = []) ∧ s.pipe i = {}
  step := Step U K pb mgr pro

/-! ## What a step does to a part of the state

Every step is composed of `setLink`, `setPipe`, `send` and `closeIf`; these are their
projections. -/

section Frame

variable (s : StreamLink decode M) (i k : Bool)

@[simp] theorem setLink_link (l : Link M) :
    (s.setLink i l).link k = if k = i then l else s.link k :=
  Function.update_apply s.link i l k

@[simp] theorem setLink_est (l : Link M) : (s.setLink i l).est = s.est := rfl

@[simp] theorem setLink_pipe (l : Link M) : (s.setLink i l).pipe = s.pipe := rfl

@[simp] theorem setPipe_link (p : Pipe UInt8 (Wired decode M)) :
    (s.setPipe i p).link = s.link := rfl

@[simp] theorem setPipe_est (p : Pipe UInt8 (Wired decode M)) :
    (s.setPipe i p).est = s.est := rfl

@[simp] theorem setPipe_pipe (p : Pipe UInt8 (Wired decode M)) :
    (s.setPipe i p).pipe k = if k = i then p else s.pipe k :=
  Function.update_apply s.pipe i p k

@[simp] theorem closeIf_link (c : Bool) : (s.closeIf i c).link = s.link := rfl

@[simp] theorem closeIf_pipe (c : Bool) : (s.closeIf i c).pipe = s.pipe := rfl

@[simp] theorem closeIf_est (c : Bool) :
    (s.closeIf i c).est k = if k = i then s.est i && !c else s.est k :=
  Function.update_apply s.est i _ k

variable (ws : List (Wired decode M))

@[simp] theorem send_link : (s.send i ws).link = s.link := by
  unfold send
  split <;> rfl

@[simp] theorem send_est : (s.send i ws).est = s.est := by
  unfold send
  split <;> rfl

@[simp] theorem send_pipe : (s.send i ws).pipe k =
    if k = i ∧ s.est i = true then (s.pipe i).send Wired.bytes ws else s.pipe k := by
  unfold send
  by_cases hest : s.est i = true
  · rw [if_pos hest, setPipe_pipe]
    by_cases hk : k = i
    · rw [if_pos hk, if_pos ⟨hk, hest⟩]
    · rw [if_neg hk, if_neg fun h => hk h.1]
  · rw [if_neg hest, if_neg fun h => hest h.2]

end Frame

end StreamLink

/-! ## What `evnMsg` makes of a PDU

The effects of `evnMsg` on the channel and its handlers, said once.  The proofs about the
receive step cite this and never unfold `evnMsg`. -/

section EvnMsg

variable (pb : Protobuf D M) (usr : Option U) (ptr : Nat) (gts : UInt64) (pdu : XscProtoPdu)
  (K : XscProto) (msgMgr : Option (XmsgImMsgMgr D H)) (c : XmsgImChannel M)

/-- The handler of a BEGIN is called as one. -/
theorem evnBegin_call (m : XmsgImMsgMgr D H) (got : XscProtoTransaction) :
    (evnBegin pb m usr ptr gts pdu got).call = none ∨
      ∃ cb self t req, (evnBegin pb m usr ptr gts pdu got).call = some (.begin_ cb self t req) := by
  rw [evnBegin_fst]
  cases m.getMsgStub got.msg with
  | none => exact .inl rfl
  | some stub =>
      cases hreq : stub.newBegin pb got.dat with
      | none => exact .inl (by simp [hreq])
      | some req =>
          cases hself : firstArg stub.auth usr with
          | none => exact .inl (by simp [hreq, hself])
          | some self => exact .inr ⟨stub.cb, self, _, req, by simp [hreq, hself]; rfl⟩

/-- A PDU that is dispatched: it is no heartbeat and passes the interceptor. -/
structure Dispatched (mgr : XmsgImMsgMgr D H) (got : XscProtoTransaction) : Prop where
  ping : pdu.transm.indicator &&& K.XSC_TAG_TRANSM_PING = 0
  passes : Passes msgMgr pdu mgr got

/-- What `evnMsg` does with a PDU, by what it is to the transactions of the channel. -/
inductive EvnMsg.Effect (r : EvnMsg M H U) : Prop
  /-- A BEGIN is dispatched, and may start a passive transaction. -/
  | begin_ (mgr got) : Dispatched pdu K msgMgr mgr got → got.trans = .BEGIN →
      r.calls.filterMap HandlerCall.passive =
        (evnBegin pb mgr usr ptr gts pdu got).call.toList.filterMap HandlerCall.passive →
      r.ret = (evnBegin pb mgr usr ptr gts pdu got).ret → r.ended = none → Effect r
  /-- An END is dispatched, and ends what is in the table under its tid. -/
  | end_ (mgr got) : Dispatched pdu K msgMgr mgr got → got.trans = .END →
      r.calls.filterMap HandlerCall.passive = [] → r.ended = (c.evnEnd got).2 → Effect r
  /-- Nothing is begun or ended, and no BEGIN or END was dispatched. -/
  | neither : (∀ mgr got, Dispatched pdu K msgMgr mgr got →
        got.trans ≠ .BEGIN ∧ got.trans ≠ .END) →
      r.calls.filterMap HandlerCall.passive = [] → r.ended = none → Effect r

/-- The three effects are all that `evnMsg` has on transactions. -/
theorem evnMsg_effect :
    (evnMsg pb usr ptr gts pdu K msgMgr c).Effect pb usr ptr gts pdu K msgMgr c := by
  by_cases hping : pdu.transm.indicator &&& K.XSC_TAG_TRANSM_PING = 0
  · unfold evnMsg
    rw [if_neg (not_not_intro hping)]
    cases htrans : pdu.transm.trans with
    | none => exact .neither (fun mgr got h => by cases htrans ▸ h.passes.1) rfl rfl
    | some got =>
        cases msgMgr with
        | none => exact .neither (fun mgr got h => by cases h.passes.2.1) rfl rfl
        | some mgr =>
            have hnot (hitcp : mgr.itcp pdu ≠ .DISABLE) (mgr' : XmsgImMsgMgr D H) (got')
                (h : Dispatched pdu K (some mgr) mgr' got') :
                got'.trans ≠ .BEGIN ∧ got'.trans ≠ .END := by
              obtain ⟨-, -, hmgr, hdisable⟩ := h
              cases hmgr
              exact absurd hdisable hitcp
            dsimp only
            cases hitcp : mgr.itcp pdu with
            | SUCCESS => exact .neither (hnot (by rw [hitcp]; decide)) rfl rfl
            | FORBIDDEN => exact .neither (hnot (by rw [hitcp]; decide)) rfl rfl
            | EXCEPTION => exact .neither (hnot (by rw [hitcp]; decide)) rfl rfl
            | DISABLE =>
                have hdispatched : Dispatched pdu K (some mgr) mgr got :=
                  ⟨hping, htrans, rfl, hitcp⟩
                have hother (hbegin : got.trans ≠ .BEGIN) (hend : got.trans ≠ .END)
                    (mgr' : XmsgImMsgMgr D H) (got')
                    (h : Dispatched pdu K (some mgr) mgr' got') :
                    got'.trans ≠ .BEGIN ∧ got'.trans ≠ .END := by
                  have hgot := h.passes.1
                  rw [htrans] at hgot
                  cases hgot
                  exact ⟨hbegin, hend⟩
                -- a unidirection calls a handler, but of no passive transaction
                have huni : (evnUnidirection pb mgr usr ptr gts pdu got).1.toList.filterMap
                    HandlerCall.passive = [] := by
                  rw [evnUnidirection_fst]
                  cases mgr.getMsgStub got.msg with
                  | none => rfl
                  | some stub =>
                      cases huni : stub.newUnidirection pb got.dat with
                      | none => simp [huni]
                      | some m =>
                          cases hself : firstArg stub.auth usr <;>
                            simp [huni, hself, HandlerCall.passive]
                dsimp only
                cases htag : got.trans with
                | BEGIN => exact .begin_ mgr got hdispatched htag rfl rfl rfl
                | END => exact .end_ mgr got hdispatched htag rfl rfl
                | UNIDIRECTION =>
                    exact .neither (hother (by rw [htag]; decide) (by rw [htag]; decide)) huni
                      rfl
                | PARTIAL =>
                    exact .neither (hother (by rw [htag]; decide) (by rw [htag]; decide)) rfl rfl
                | other tag =>
                    exact .neither (hother (by rw [htag]; nofun) (by rw [htag]; nofun)) rfl rfl
  -- a heartbeat is not dispatched
  · have hnot (mgr : XmsgImMsgMgr D H) (got) (h : Dispatched pdu K msgMgr mgr got) :
        got.trans ≠ .BEGIN ∧ got.trans ≠ .END := absurd h.ping hping
    unfold evnMsg
    rw [if_pos hping]
    split
    · exact .neither hnot rfl rfl
    · exact .neither hnot rfl rfl

end EvnMsg

/-! ## The streams carry what was sent -/

namespace StreamLink

variable {K : XscProto} {pb : Protobuf D M} {mgr : Bool → Option (XmsgImMsgMgr D H)}
  {pro : XscProtocolType} {s s' : StreamLink decode M}

/-- What the note of a PDU on the stream of endpoint `i` says is on record. -/
def Noted (s : StreamLink decode M) (i : Bool) : Note M → Prop
  | .begin_ x => x ∈ (s.link i).begins
  | .end_ x => x ∈ (s.link (!i)).ends
  | .other pdu => (Note.other pdu : Note M).IsOther

/-- Nothing is on record of other PDUs. -/
theorem Noted.of_isOther {i : Bool} {note : Note M} (h : note.IsOther) : s.Noted i note := by
  cases note with
  | other pdu => exact h
  | begin_ x => exact h.elim
  | end_ x => exact h.elim

/-- The links after a PDU of endpoint `i` was received: that of `i` may have a new passive
transaction, that of the other endpoint may have lost one that was outstanding. -/
theorem received_link (K : XscProto) (pb : Protobuf D M) (s : StreamLink decode M) (i k : Bool)
    (note : Note M) (pdu : XscProtoPdu) (n : Nat) (r : EvnMsg M H U)
    (pong : List (Wired decode M)) :
    (s.received K pb i note pdu n r pong).link k =
      if k = i then addPassive (s.link i) note r else endTrans K pb (s.link k) pdu r := by
  simp only [received, closeIf_link, send_link, setLink_link, setPipe_link]
  by_cases hk : k = i
  · subst hk
    rw [if_neg (Bool.eq_not_self k).mp, if_pos rfl, if_pos rfl]
  · obtain rfl : k = (!i) := Bool.eq_not_of_ne hk
    rw [if_pos rfl, if_neg hk]

/-- The streams then: that of `i` is shorter, the other one may carry the reply to a heartbeat. -/
theorem received_pipe (K : XscProto) (pb : Protobuf D M) (s : StreamLink decode M) (i k : Bool)
    (note : Note M) (pdu : XscProtoPdu) (n : Nat) (r : EvnMsg M H U)
    (pong : List (Wired decode M)) :
    (s.received K pb i note pdu n r pong).pipe k =
      if k = i then (s.pipe i).take n else (s.send (!i) pong).pipe k := by
  simp only [received, closeIf_pipe, send_pipe, setLink_est, setPipe_est, setLink_pipe,
    setPipe_pipe]
  by_cases hk : k = i
  · subst hk
    simp
  · obtain rfl : k = (!i) := Bool.eq_not_of_ne hk
    simp

/-- The receiver is lost when `evnMsg` has returned false. -/
theorem received_est (K : XscProto) (pb : Protobuf D M) (s : StreamLink decode M) (i k : Bool)
    (note : Note M) (pdu : XscProtoPdu) (n : Nat) (r : EvnMsg M H U)
    (pong : List (Wired decode M)) :
    (s.received K pb i note pdu n r pong).est k =
      if k = i then s.est i else s.est k && r.ret := by
  simp only [received, closeIf_est, send_est, setLink_est, setPipe_est]
  by_cases hk : k = i
  · subst hk
    simp
  · obtain rfl : k = (!i) := Bool.eq_not_of_ne hk
    simp

/-- Nothing is sent on record by receiving. -/
theorem received_records (K : XscProto) (pb : Protobuf D M) (s : StreamLink decode M)
    (i k : Bool) (note : Note M) (pdu : XscProtoPdu) (n : Nat) (r : EvnMsg M H U)
    (pong : List (Wired decode M)) :
    ((s.received K pb i note pdu n r pong).link k).begins = (s.link k).begins ∧
      ((s.received K pb i note pdu n r pong).link k).ends = (s.link k).ends := by
  rw [received_link]
  split
  · rename_i hk
    subst hk
    unfold addPassive
    split <;> exact ⟨rfl, rfl⟩
  · unfold endTrans
    split <;> exact ⟨rfl, rfl⟩

/-- The records of what was sent only grow. -/
theorem Step.records (hstep : Step U K pb mgr pro s () s') (k : Bool) :
    (s.link k).begins ⊆ (s'.link k).begins ∧ (s.link k).ends ⊆ (s'.link k).ends := by
  have heq {l : Link M} (hbegins : l.begins = (s.link k).begins)
      (hends : l.ends = (s.link k).ends) :
      (s.link k).begins ⊆ l.begins ∧ (s.link k).ends ⊆ l.ends := by
    rw [hbegins, hends]
    exact ⟨fun _ h => h, fun _ h => h⟩
  cases hstep with
  | begin_ i =>
      rw [send_link, setLink_link]
      split
      · rename_i hk
        subst hk
        exact ⟨List.subset_append_right _ _, fun _ h => h⟩
      · exact heq rfl rfl
  | arrive => exact heq rfl rfl
  | @receive i w pdu n pong usr ptr gts =>
      obtain ⟨hbegins, hends⟩ := received_records K pb s i k w.note pdu n
        (evnMsg pb usr ptr gts pdu K (mgr (!i)) (s.link (!i)).a.ch) pong
      exact heq hbegins hends
  | reject => exact heq rfl rfl
  | handlerEnd i =>
      rw [setLink_link]
      split
      · rename_i hk
        subst hk
        exact heq rfl rfl
      · exact heq rfl rfl
  | runEnd i =>
      rw [closeIf_link, send_link, setLink_link]
      split
      · rename_i hk
        subst hk
        exact ⟨fun _ h => h, List.subset_append_right _ _⟩
      · exact heq rfl rfl
  | other i =>
      rw [send_link]
      exact heq rfl rfl
  | local_ i =>
      rw [setLink_link]
      split
      · rename_i hk
        subst hk
        exact heq rfl rfl
      · exact heq rfl rfl
  | lost => exact heq rfl rfl

/-- What is on record stays on record. -/
theorem Step.noted (hstep : Step U K pb mgr pro s () s') {i : Bool} {note : Note M}
    (h : s.Noted i note) : s'.Noted i note := by
  cases note with
  | begin_ x => exact (hstep.records i).1 h
  | end_ x => exact (hstep.records (!i)).2 h
  | other pdu => exact h

/-- What a step does to the stream of endpoint `k`. -/
inductive PipeMove (s s' : StreamLink decode M) (k : Bool) : Prop
  /-- The stream is not concerned. -/
  | same : s'.pipe k = s.pipe k → PipeMove s s' k
  /-- Its endpoint has sent something. -/
  | sent (ws) : s'.pipe k = (s.pipe k).send Wired.bytes ws →
      (∀ w ∈ ws, s'.Noted k w.note) → PipeMove s s' k
  /-- Bytes have arrived. -/
  | arrived (n) : s'.pipe k = (s.pipe k).arrive n → PipeMove s s' k
  /-- The other endpoint has taken a PDU off it. -/
  | taken (pdu n) : pduScan decode (s.pipe k).buf = .item pdu n →
      s'.pipe k = (s.pipe k).take n → PipeMove s s' k

/-- Sending on one stream. -/
theorem PipeMove.of_send {s₀ : StreamLink decode M} {i k : Bool} {ws : List (Wired decode M)}
    (hpipe : s'.pipe = (s₀.send i ws).pipe) (hsame : s₀.pipe = s.pipe)
    (hnoted : ∀ w ∈ ws, s'.Noted i w.note) : PipeMove s s' k := by
  have hk := send_pipe s₀ i k ws
  rw [← hpipe, hsame] at hk
  split at hk
  · rename_i h
    obtain ⟨rfl, -⟩ := h
    exact .sent ws hk hnoted
  · exact .same hk

/-- PDUs that carry notes which are all on record. -/
theorem noted_of_map {i : Bool} {ws : List (Wired decode M)} {notes : List (Note M)}
    (hws : ws.map Wired.note = notes) (hnotes : ∀ note ∈ notes, s.Noted i note) :
    ∀ w ∈ ws, s.Noted i w.note := by
  intro w hw
  exact hnotes _ (hws ▸ List.mem_map_of_mem hw)

/-- Every step does one of these to a stream. -/
theorem Step.pipeMove (hstep : Step U K pb mgr pro s () s') (k : Bool) :
    PipeMove s s' k := by
  cases hstep with
  | @begin_ i trans a ws _ _ hws =>
      refine .of_send rfl rfl (noted_of_map hws ?_)
      intro note hnote
      obtain ⟨x, hx, rfl⟩ := List.mem_map.mp hnote
      -- the BEGIN was put on record by this step
      show x ∈ ((StreamLink.send _ i ws).link i).begins
      rw [send_link, setLink_link, if_pos rfl]
      exact List.mem_append_left _ hx
  | arrive i n =>
      by_cases hk : k = i
      · subst hk
        exact .arrived n (by rw [setPipe_pipe, if_pos rfl])
      · exact .same (by rw [setPipe_pipe, if_neg hk])
  | @receive i w pdu n pong usr ptr gts _ hscan _ hpong =>
      have hpipe := received_pipe K pb s i k w.note pdu n
        (evnMsg pb usr ptr gts pdu K (mgr (!i)) (s.link (!i)).a.ch) pong
      by_cases hk : k = i
      · subst hk
        rw [if_pos rfl] at hpipe
        exact .taken pdu n hscan hpipe
      · rw [if_neg hk, send_pipe] at hpipe
        -- the stream of the receiver: the reply to a heartbeat, if it is established
        split at hpipe
        · rename_i h
          obtain ⟨rfl, -⟩ := h
          refine .sent pong hpipe (noted_of_map hpong ?_)
          intro note hnote
          split at hnote
          · obtain rfl := List.mem_singleton.mp hnote
            intro t ht
            cases ht
          · cases hnote
        · exact .same hpipe
  | reject => exact .same rfl
  | handlerEnd => exact .same rfl
  | @runEnd i l₁ l₂ p ws c _ _ _ hws =>
      refine .of_send rfl rfl (noted_of_map hws ?_)
      intro note hnote
      obtain ⟨x, hx, rfl⟩ := List.mem_map.mp hnote
      -- the END was put on record by this step
      show x ∈ (((StreamLink.send _ (!i) ws).closeIf (!i) _).link (!(!i))).ends
      rw [closeIf_link, send_link, setLink_link, Bool.not_not, if_pos rfl]
      exact List.mem_append_left _ hx
  | other i hws => exact .of_send rfl rfl fun w hw => .of_isOther (hws w hw)
  | local_ => exact .same rfl
  | lost => exact .same rfl

/-- The invariant of the streams: what has arrived and what is in flight are the bytes of the
PDUs not received yet, and what their notes say is on record. -/
structure Wire (s : StreamLink decode M) : Prop where
  /-- The equation of the library, for both directions. -/
  pipe : ∀ i, (s.pipe i).Inv Wired.bytes
  /-- No PDU is on a stream that its sender has not on record. -/
  noted : ∀ i, ∀ w ∈ (s.pipe i).sent, s.Noted i w.note

/-- The equation of the library is kept by each move, and the records only grow. -/
theorem Wire.step (laws : DecodeLaws decode) (h : s.Wire)
    (hstep : Step U K pb mgr pro s () s') : s'.Wire where
  pipe k := by
    cases hstep.pipeMove k with
    | same heq => exact heq ▸ h.pipe k
    | sent ws heq => exact heq ▸ (h.pipe k).send ws
    | arrived n heq => exact heq ▸ (h.pipe k).arrive n
    | taken pdu n hscan heq => exact heq ▸ (h.pipe k).take (Wired.carries M laws) hscan
  noted k w hw := by
    -- PDUs that were on the stream before
    have hold (hw : w ∈ (s.pipe k).sent) : s'.Noted k w.note := hstep.noted (h.noted k w hw)
    cases hstep.pipeMove k with
    | same heq => exact hold (heq ▸ hw)
    | sent ws heq hws =>
        rw [heq, Pipe.send_sent] at hw
        rcases List.mem_append.mp hw with hmem | hnew
        · exact hold hmem
        · exact hws w hnew
    | arrived n heq =>
        rw [heq] at hw
        exact hold hw
    | taken pdu n _ heq =>
        rw [heq] at hw
        exact hold hw

/-- The PDU at the front of what has arrived is the next one that was sent. -/
theorem Wire.next (laws : DecodeLaws decode) (h : s.Wire) {i : Bool} {w : Wired decode M}
    {pdu : XscProtoPdu} {n : Nat} (hscan : pduScan decode (s.pipe i).buf = .item pdu n)
    (hnext : (s.pipe i).sent[(s.pipe i).taken]? = some w) :
    s.Noted i w.note ∧ w.note.pdu.CarriedAs pdu := by
  obtain ⟨w', hnext', hgot, -⟩ := (h.pipe i).next (Wired.carries M laws) hscan
  obtain rfl := Option.some.inj (hnext.symm.trans hnext')
  exact ⟨h.noted i w (List.mem_of_getElem? hnext), hgot ▸ w.carried⟩

/-! ## The refinement

The note of a PDU says what it was sent for, and its tag what the receiver takes it for.  The
two agree (`Noted.begin_of_tag`, `Noted.end_of_tag`), so a PDU that starts a passive
transaction is the BEGIN of a request, and one that ends a transaction is the END of a
response. -/

end StreamLink

/-- A BEGIN has a transaction layer that says so, and is no heartbeat. -/
theorem beginPdu_head {pb : Protobuf D M} {trans : XmsgImTransInitiative M} {pdu : XscProtoPdu}
    (h : beginPdu pb trans = some pdu) :
    pdu.transm.indicator = 0 ∧ ∃ sent, pdu.transm.trans = some sent ∧ sent.trans = .BEGIN := by
  unfold beginPdu at h
  cases hraw : trans.rawMsg with
  | some raw =>
      simp only [hraw, Option.some.injEq] at h
      subst h
      exact ⟨rfl, _, rfl, rfl⟩
  | none =>
      simp only [hraw, Option.map_eq_some_iff] at h
      obtain ⟨m, -, rfl⟩ := h
      exact ⟨rfl, _, rfl, rfl⟩

/-- What was decoded has a transaction layer only if what was sent has one. -/
theorem XscProtoPdu.CarriedAs.sent {sent got : XscProtoPdu} (h : sent.CarriedAs got)
    {t : XscProtoTransaction} (ht : got.transm.trans = some t) :
    ∃ t₀, sent.transm.trans = some t₀ ∧ t₀.CarriedAs t := by
  cases hsent : sent.transm.trans with
  | none =>
      rw [h.noTrans hsent] at ht
      cases ht
  | some t₀ =>
      obtain ⟨t', ht', hcarried⟩ := h.trans t₀ hsent
      obtain rfl := Option.some.inj (ht.symm.trans ht')
      exact ⟨t₀, rfl, hcarried⟩

namespace StreamLink

variable {K : XscProto} {pb : Protobuf D M} {mgr : Bool → Option (XmsgImMsgMgr D H)}
  {pro : XscProtocolType} {s s' : StreamLink decode M}

/-- The note of a PDU says by its tag what it is. -/
theorem Noted.cases_ {i : Bool} {note : Note M} (h : s.Noted i note)
    (hinv : ∀ i, (s.link i).Inv pb) {t : XscProtoTransaction}
    (ht : note.pdu.transm.trans = some t) :
    (∃ x ∈ (s.link i).begins, note = .begin_ x ∧ t.trans = .BEGIN) ∨
      (∃ x ∈ (s.link (!i)).ends, note = .end_ x ∧ t.trans = .END) ∨
      ((∃ pdu, note = .other pdu) ∧ t.trans ≠ .BEGIN ∧ t.trans ≠ .END) := by
  cases note with
  | begin_ x =>
      obtain ⟨-, sent, hsent, htag⟩ := beginPdu_head ((hinv i).begins x h).2
      obtain rfl := Option.some.inj (ht.symm.trans hsent)
      exact .inl ⟨x, h, rfl, htag⟩
  | end_ x =>
      obtain ⟨-, -, -, hpdu⟩ := (hinv (!i)).ends x h
      have hend := endPdu_trans pb x.by_.trans
      rw [← hpdu] at hend
      obtain rfl := Option.some.inj (ht.symm.trans hend)
      exact .inr (.inl ⟨x, h, rfl, rfl⟩)
  | other pdu => exact .inr (.inr ⟨⟨pdu, rfl⟩, h t ht⟩)

/-- What is received as a BEGIN was sent as one. -/
theorem Noted.begin_of_tag {i : Bool} {note : Note M} (h : s.Noted i note)
    (hinv : ∀ i, (s.link i).Inv pb) {pdu : XscProtoPdu} (hcarried : note.pdu.CarriedAs pdu)
    {got : XscProtoTransaction} (hgot : pdu.transm.trans = some got) (htag : got.trans = .BEGIN) :
    ∃ x ∈ (s.link i).begins, note = .begin_ x ∧
      ∃ sent, x.pdu.transm.trans = some sent ∧ sent.CarriedAs got := by
  obtain ⟨sent, hsent, htrans⟩ := hcarried.sent hgot
  rw [htrans.trans] at htag
  rcases h.cases_ hinv hsent with ⟨x, hx, rfl, -⟩ | ⟨x, -, -, hend⟩ | ⟨-, hne, -⟩
  · exact ⟨x, hx, rfl, sent, hsent, htrans⟩
  · rw [hend] at htag
    cases htag
  · exact absurd htag hne

/-- What is received as an END was sent as one. -/
theorem Noted.end_of_tag {i : Bool} {note : Note M} (h : s.Noted i note)
    (hinv : ∀ i, (s.link i).Inv pb) {pdu : XscProtoPdu} (hcarried : note.pdu.CarriedAs pdu)
    {got : XscProtoTransaction} (hgot : pdu.transm.trans = some got) (htag : got.trans = .END) :
    ∃ x ∈ (s.link (!i)).ends, note = .end_ x ∧
      ∃ sent, x.pdu.transm.trans = some sent ∧ sent.CarriedAs got := by
  obtain ⟨sent, hsent, htrans⟩ := hcarried.sent hgot
  rw [htrans.trans] at htag
  rcases h.cases_ hinv hsent with ⟨x, -, -, hbegin⟩ | ⟨x, hx, rfl, -⟩ | ⟨-, -, hne⟩
  · rw [hbegin] at htag
    cases htag
  · exact ⟨x, hx, rfl, sent, hsent, htrans⟩
  · exact absurd htag hne

/-- No handler of a BEGIN was called. -/
theorem addPassive_of_nil {l : Link M} {note : Note M} {r : EvnMsg M H U}
    (h : r.calls.filterMap HandlerCall.passive = []) : addPassive l note r = l := by
  unfold addPassive
  split
  · rw [h]
    rfl
  · rfl

@[simp] theorem addPassive_a (l : Link M) (note : Note M) (r : EvnMsg M H U) :
    (addPassive l note r).a = l.a := by
  unfold addPassive
  split <;> rfl

/-- The channel of the receiver is left alone, or makes the step of an END. -/
theorem endTrans_cases (K : XscProto) (pb : Protobuf D M) (l : Link M) (pdu : XscProtoPdu)
    (r : EvnMsg M H U) :
    endTrans K pb l pdu r = l ∨ ∃ end_, pdu.transm.trans = some end_ ∧ r.ended.isSome ∧
      endTrans K pb l pdu r = { l with a := l.a.evnEnd K pb pdu end_ } := by
  unfold endTrans
  split
  · rename_i t end_ hended hgot
    exact .inr ⟨end_, hgot, by rw [hended]; rfl, rfl⟩
  · exact .inl rfl

/-- No transaction was named. -/
theorem endTrans_of_none {l : Link M} {pdu : XscProtoPdu} {r : EvnMsg M H U}
    (h : r.ended = none) : endTrans K pb l pdu r = l := by
  unfold endTrans
  rw [h]

/-- A BEGIN that is received is delivered on the link of its sender. -/
theorem Noted.deliver_begin {i : Bool} {note : Note M} (h : s.Noted i note)
    (hinv : ∀ i, (s.link i).Inv pb) {pdu : XscProtoPdu} (hcarried : note.pdu.CarriedAs pdu)
    {usr : Option U} {ptr : Nat} {gts : UInt64} {msgMgr : Option (XmsgImMsgMgr D H)}
    {c : XmsgImChannel M} {r : EvnMsg M H U}
    (heffect : r.Effect pb usr ptr gts pdu K msgMgr c) :
    addPassive (s.link i) note r = s.link i ∨
      LinkStep H U K pb pro (s.link i) () (addPassive (s.link i) note r) := by
  cases heffect with
  | begin_ m got hdispatched htag hcalls _ _ =>
      rcases evnBegin_call pb usr ptr gts pdu m got with hnone | ⟨cb, self, t, req, hcall⟩
      · rw [hnone] at hcalls
        exact .inl (addPassive_of_nil hcalls)
      · obtain ⟨x, hx, rfl, sent, hsent, htrans⟩ :=
          h.begin_of_tag hinv hcarried hdispatched.passes.1 htag
        rw [hcall] at hcalls
        have hadd : addPassive (s.link i) (.begin_ x) r =
            { s.link i with passive := ⟨x, t, .handling⟩ :: (s.link i).passive } := by
          unfold addPassive
          rw [hcalls]
          rfl
        rw [hadd]
        exact .inr (.deliverBegin _ hx hsent htrans hdispatched.passes.1 hcall)
  | end_ m got _ _ hcalls _ => exact .inl (addPassive_of_nil hcalls)
  | neither _ hcalls _ => exact .inl (addPassive_of_nil hcalls)

/-- An END that is received is delivered on the link of its receiver. -/
theorem Noted.deliver_end {i : Bool} {note : Note M} (h : s.Noted i note)
    (hinv : ∀ i, (s.link i).Inv pb) {pdu : XscProtoPdu} (hcarried : note.pdu.CarriedAs pdu)
    {usr : Option U} {ptr : Nat} {gts : UInt64} {msgMgr : Option (XmsgImMsgMgr D H)}
    {c : XmsgImChannel M} {r : EvnMsg M H U}
    (heffect : r.Effect pb usr ptr gts pdu K msgMgr c) :
    endTrans K pb (s.link (!i)) pdu r = s.link (!i) ∨
      LinkStep H U K pb pro (s.link (!i)) () (endTrans K pb (s.link (!i)) pdu r) := by
  cases heffect with
  | begin_ m got _ _ _ _ hended => exact .inl (endTrans_of_none hended)
  | neither _ _ hended => exact .inl (endTrans_of_none hended)
  | end_ m got hdispatched htag _ hended =>
      have hgot := hdispatched.passes.1
      cases hr : r.ended with
      | none => exact .inl (endTrans_of_none hr)
      | some t =>
          obtain ⟨x, hx, rfl, sent, hsent, htrans⟩ :=
            h.end_of_tag hinv hcarried hdispatched.passes.1 htag
          -- `evnEnd` has found the transaction, and so it is ended on the link
          have hend : endTrans K pb (s.link (!i)) pdu r =
              { s.link (!i) with a := (s.link (!i)).a.evnEnd K pb pdu got } := by
            unfold endTrans
            rw [hr, hgot]
          rw [hend]
          exact .inr (.deliverEnd _ hx hsent htrans (.evnEnd _ pdu got hgot))

/-- Each request link makes a step of its own or none. -/
theorem Step.link_step (laws : DecodeLaws decode) (hwire : s.Wire)
    (hinv : ∀ i, (s.link i).Inv pb) (hstep : Step U K pb mgr pro s () s') (k : Bool) :
    s'.link k = s.link k ∨ LinkStep H U K pb pro (s.link k) () (s'.link k) := by
  -- a step of one link leaves the other alone
  have hset {i : Bool} {l : Link M} (hl : LinkStep H U K pb pro (s.link i) () l) :
      (s.setLink i l).link k = s.link k ∨
        LinkStep H U K pb pro (s.link k) () ((s.setLink i l).link k) := by
    rw [setLink_link]
    split
    · rename_i hk
      subst hk
      exact .inr hl
    · exact .inl rfl
  cases hstep with
  | begin_ i hbegin =>
      rw [send_link]
      exact hset (.begin_ _ hbegin)
  | arrive => exact .inl rfl
  | @receive i w pdu n pong usr ptr gts _ hscan hnext _ =>
      obtain ⟨hnoted, hcarried⟩ := hwire.next laws hscan hnext
      have heffect := evnMsg_effect pb usr ptr gts pdu K (mgr (!i)) (s.link (!i)).a.ch
      rw [received_link]
      -- a BEGIN concerns the link of its sender, an END that of its receiver
      by_cases hk : k = i
      · rw [if_pos hk, hk]
        exact hnoted.deliver_begin hinv hcarried heffect
      · obtain rfl : k = (!i) := Bool.eq_not_of_ne hk
        rw [if_neg hk]
        exact hnoted.deliver_end hinv hcarried heffect
  | reject => exact .inl rfl
  | handlerEnd i hsplit hphase hptr hdtid => exact hset (.handlerEnd _ hsplit hphase hptr hdtid)
  | runEnd i hsplit hphase =>
      rw [closeIf_link, send_link]
      exact hset (.runEnd _ hsplit hphase)
  | other i =>
      rw [send_link]
      exact .inl rfl
  | local_ i hlocal hact => exact hset (.local_ _ hlocal hact)
  | lost => exact .inl rfl

/-- Over a byte stream the requests of each endpoint run as on the link of messages. -/
theorem reachable_wire (laws : DecodeLaws decode)
    (h : Reachable (system U K pb mgr pro) Always s) :
    s.Wire ∧ ∀ i, Reachable (linkSystem H U K pb pro) Always (s.link i) := by
  apply h.invariant (I := fun s : StreamLink decode M =>
    s.Wire ∧ ∀ i, Reachable (linkSystem H U K pb pro) Always (s.link i))
  · intro s hinit
    refine ⟨⟨fun i => ?_, fun i w hw => ?_⟩, fun i => ?_⟩
    · rw [(hinit i).2]
      exact Pipe.Inv.empty _
    · rw [(hinit i).2] at hw
      cases hw
    · obtain ⟨⟨hfresh, -, hbegins, hpassive, hends⟩, -⟩ := hinit i
      exact .init ⟨hfresh, hbegins, hpassive, hends⟩
  · rintro s ⟨⟩ s' ⟨hwire, hlink⟩ - hstep
    refine ⟨hwire.step laws hstep, fun i => ?_⟩
    have hinv (i : Bool) := Link.reachable_inv (hlink i)
    rcases hstep.link_step laws hwire hinv i with heq | hlinkStep
    · rw [heq]
      exact hlink i
    · exact (hlink i).step (a := ()) trivial hlinkStep

end StreamLink

/-- However the bytes of the two streams arrive, the requests of each endpoint run as over the
link of messages, on which every PDU is delivered whole; and what has arrived is never taken
for malformed. -/
theorem byte_streams_refine_link {K : XscProto} {pb : Protobuf D M}
    {mgr : Bool → Option (XmsgImMsgMgr D H)} {pro : XscProtocolType} (laws : DecodeLaws decode)
    {s : StreamLink decode M} (h : Reachable (StreamLink.system U K pb mgr pro) Always s)
    (i : Bool) :
    Reachable (linkSystem H U K pb pro) Always (s.link i) ∧
      (s.pipe i).buf ++ (s.pipe i).flight = (s.pipe i).todo.flatMap Wired.bytes ∧
      pduScan decode (s.pipe i).buf ≠ .bad := by
  obtain ⟨hwire, hlink⟩ := StreamLink.reachable_wire laws h
  exact ⟨hlink i, (hwire.pipe i).bytes, (hwire.pipe i).not_bad (Wired.carries M laws)⟩

/-! A request and its response, which arrive in pieces. -/

/-- What a first byte says: a heartbeat, which is that byte, or the request or the response,
which are two bytes long. -/
def sampleFront (b : UInt8) : Option XscTransmission :=
  if b &&& 0x80 ≠ 0 then some { indicator := b, len := 1 }
  else if b = 1 then some { trans := some sampleRequest, len := 2 }
  else if b = 2 then some { trans := some sampleAnswer, len := 2 }
  else none

/-- A codec that knows these PDUs. -/
def sampleDecode : Decode
  | [] => (none, false)
  | b :: r =>
      match sampleFront b with
      | none => (none, true)
      | some transm =>
          if transm.len ≤ (b :: r).length then (some ⟨transm⟩, false) else (none, false)

/-- No PDU of the codec is empty. -/
theorem sampleFront_len {b : UInt8} {transm : XscTransmission} (h : sampleFront b = some transm) :
    0 < transm.len := by
  unfold sampleFront at h
  split at h
  · cases h
    exact Nat.one_pos
  · split at h
    · cases h
      exact Nat.two_pos
    · split at h
      · cases h
        exact Nat.two_pos
      · cases h

/-- What the codec decodes: the first byte says it all. -/
theorem sampleDecode_iff {b : Bytes} {pdu : XscProtoPdu} {e : Bool} :
    sampleDecode b = (some pdu, e) ↔
      ∃ x r, b = x :: r ∧ sampleFront x = some pdu.transm ∧ pdu.transm.len ≤ b.length ∧
        e = false := by
  cases b with
  | nil => simp [sampleDecode]
  | cons x r =>
      cases hx : sampleFront x with
      | none => simp [sampleDecode, hx]
      | some transm =>
          by_cases hlen : transm.len ≤ (x :: r).length
          · simp only [sampleDecode, hx, if_pos hlen, Prod.mk.injEq, Option.some.injEq]
            constructor
            · rintro ⟨rfl, rfl⟩
              exact ⟨x, r, rfl, hx, hlen, rfl⟩
            · rintro ⟨x', r', heq, hhead, -, rfl⟩
              cases heq
              rw [hx] at hhead
              cases hhead
              exact ⟨rfl, rfl⟩
          · simp only [sampleDecode, hx, if_neg hlen]
            constructor
            · intro h
              cases h
            · rintro ⟨x', r', heq, hhead, hle, -⟩
              cases heq
              rw [hx] at hhead
              cases hhead
              exact absurd hle hlen

/-- The laws that the receive loop relies on. -/
theorem sampleDecode_laws : DecodeLaws sampleDecode where
  empty := rfl
  len_bounds := by
    intro b pdu e h
    obtain ⟨x, r, -, hhead, hlen, -⟩ := sampleDecode_iff.mp h
    exact ⟨sampleFront_len hhead, hlen⟩
  own_bytes := by
    intro b pdu e h
    obtain ⟨x, r, rfl, hhead, hlen, rfl⟩ := sampleDecode_iff.mp h
    obtain ⟨n, hn⟩ := Nat.exists_eq_succ_of_ne_zero (Nat.ne_of_gt (sampleFront_len hhead))
    refine sampleDecode_iff.mpr ⟨x, r.take n, ?_, hhead, ?_, rfl⟩
    · rw [hn, List.take_succ_cons]
    · rw [List.length_take]
      omega
  stable := by
    intro b pdu e r' h
    obtain ⟨x, r, rfl, hhead, hlen, rfl⟩ := sampleDecode_iff.mp h
    refine sampleDecode_iff.mpr ⟨x, r ++ r', rfl, hhead, ?_, rfl⟩
    rw [List.length_append]
    omega
  proper_prefix := by
    intro b pdu e k h hk
    obtain ⟨x, r, rfl, hhead, hlen, rfl⟩ := sampleDecode_iff.mp h
    cases k with
    | zero => rfl
    | succ k =>
        have hshort : ¬pdu.transm.len ≤ (x :: r.take k).length := by
          rw [List.length_cons, List.length_take]
          omega
        rw [List.take_succ_cons]
        simp only [sampleDecode, hhead, if_neg hshort]

/-- The BEGIN of the request. -/
def sampleBeginSent : BeginSent SampleMsg where
  origin := { XmsgImChannel.begin_ 1 0 (.ping, [9]) none with stid := 1 }
  pdu := { transm := { trans := some { sampleRequest with refDat := true } } }

/-- The END of the response, and the transaction its handler had ended. -/
def sampleEndSent : EndSent SampleMsg where
  by_ :=
    { request := sampleBeginSent
      trans := (XmsgImTransPassive.ofBegin 1 0 { transm := { trans := some sampleRequest } }
        sampleRequest (.ping, [9])).endCall .sample (.endRetDesc 7 "done" (some (.ping, [8])))
      phase := .queued }
  pdu := { transm := { trans := some { sampleAnswer with refDat := true } } }

/-- What is decoded differs from what was sent in `refDat` only. -/
theorem sampleCarried (t : XscProtoTransaction) :
    XscProtoPdu.CarriedAs { transm := { trans := some { t with refDat := true } } }
      { transm := { trans := some t, len := 2 } } where
  indicator := rfl
  trans := by
    rintro _ ⟨⟩
    exact ⟨t, rfl, rfl, rfl, rfl, rfl, rfl, rfl, rfl⟩
  noTrans := nofun

/-- The request in the two bytes that the sample codec has for it. -/
def sampleBeginWired : Wired sampleDecode SampleMsg where
  note := .begin_ sampleBeginSent
  bytes := [1, 0]
  got := { transm := { trans := some sampleRequest, len := 2 } }
  encodes := ⟨by decide, rfl, fun _ => rfl⟩
  carried := sampleCarried sampleRequest

/-- The answer in the same codec. -/
def sampleEndWired : Wired sampleDecode SampleMsg where
  note := .end_ sampleEndSent
  bytes := [2, 0]
  got := { transm := { trans := some sampleAnswer, len := 2 } }
  encodes := ⟨by decide, rfl, fun _ => rfl⟩
  carried := sampleCarried sampleAnswer

/-- Both endpoints serve the sample table. -/
abbrev sampleMgr : Bool → Option (XmsgImMsgMgr SampleType Nat) :=
  fun _ => some (RegCall.regAll samplePb sampleRegs)

/-- Two endpoints that have just been connected. -/
abbrev sampleStart : StreamLink sampleDecode SampleMsg where
  link _ := { a := Exec.start .XSC_PROTOCOL_TCP }
  est _ := true
  pipe _ := {}

/-- The request is begun, arrives, is handled and answered, and the answer arrives byte by byte. -/
theorem sampleStream_reachable :
    ∃ s : StreamLink sampleDecode SampleMsg,
      Reachable (StreamLink.system String .sample samplePb sampleMgr .XSC_PROTOCOL_TCP) Always s ∧
      (∀ i, s.est i = true ∧ (s.pipe i).flight = [] ∧ (s.pipe i).buf = []) ∧
      (∀ p ∈ (s.link false).passive, p.phase = .ended ∧
        p.trans.ret ≠ XscProto.sample.RET_FAILURE) ∧
      (s.link false).a.drawn.length < 2 ^ 32 ∧ (s.link false).a.stack = [] ∧
      (s.link false).a.begun.map (·.ptr) = [1] ∧
      (s.link false).a.callbacks 1 = [(7, ("done" : Text))] := by
  have hinit : Reachable (StreamLink.system String .sample samplePb sampleMgr .XSC_PROTOCOL_TCP)
      Always sampleStart := .init fun i => ⟨⟨Exec.start_fresh _, rfl, rfl, rfl, rfl⟩, rfl⟩
  have hbegin := hinit.step (a := ()) trivial
    (@StreamLink.Step.begin_ _ _ _ _ _ _ _ _ _ _ false _ _ [sampleBeginWired]
      (.futureBegin _ (XmsgImChannel.begin_ 1 0 (.ping, [9]) none) (by decide)) rfl rfl)
  have hfirst := hbegin.step (a := ()) trivial (.arrive _ false 1)
  have harrived := hfirst.step (a := ()) trivial (.arrive _ false 1)
  have hrequest := harrived.step (a := ()) trivial
    (@StreamLink.Step.receive _ _ _ _ _ _ _ _ _ _ false sampleBeginWired _ _ [] (some "alice") 1 0
      rfl rfl rfl rfl)
  have hended := hrequest.step (a := ()) trivial
    (@StreamLink.Step.handlerEnd _ _ _ _ _ _ _ _ _ _ false [] [] _ _
      (.endRetDesc 7 "done" (some (.ping, [8]))) rfl rfl rfl rfl)
  have hsent := hended.step (a := ()) trivial
    (@StreamLink.Step.runEnd _ _ _ _ _ _ _ _ _ _ false [] [] _ [sampleEndWired] false rfl rfl
      (by decide) rfl)
  have hback := hsent.step (a := ()) trivial (.arrive _ true 2)
  have hanswer := hback.step (a := ()) trivial
    (@StreamLink.Step.receive _ _ _ _ _ _ _ _ _ _ true sampleEndWired _ _ [] (some "bob") 1 0
      rfl rfl rfl rfl)
  have hreturned := hanswer.step (a := ()) trivial (.local_ _ false rfl (.cbReturn _ rfl))
  exact ⟨_, hreturned, by decide, by decide, by decide, by decide, by decide, by decide⟩

theorem byte_streams_refine_link_sample :
    ∃ s : StreamLink sampleDecode SampleMsg, (s.link false).a.callbacks 1 = [(7, ("done" : Text))] ∧
      ∀ i, Reachable (linkSystem Nat String .sample samplePb .XSC_PROTOCOL_TCP) Always (s.link i) ∧
        pduScan sampleDecode (s.pipe i).buf ≠ .bad := by
  obtain ⟨s, h, -, -, -, -, -, hcallbacks⟩ := sampleStream_reachable
  refine ⟨s, hcallbacks, fun i => ?_⟩
  obtain ⟨hlink, -, hbad⟩ := byte_streams_refine_link sampleDecode_laws h i
  exact ⟨hlink, hbad⟩

end XmsgImXsc
