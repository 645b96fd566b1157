/-
# XmsgImXsc.Answer -- from the end of a passive transaction to the callback

What a passive transaction was ended with leaves as an END (`Send`), and the initiative
transaction of the other side makes its own fields of that END (`Trans`).  Two round trips
are compared here: that of a message, whose type travels as a name, and that of a raw
message, which a gateway passes on to its own client.
-/
import XmsgImXsc.ChannelRun

namespace XmsgImXsc

open Lts

variable {D M : Type}

/-! ## Messages -/

/-- A transaction as it waits in the table: made by one of the two `begin`, with the tid
`futureBegin` has given it. -/
inductive XmsgImTransInitiative.Begun : XmsgImTransInitiative M → Prop
  | begin_ (ptr gts req oob tid) :
      Begun { XmsgImChannel.begin_ ptr gts req oob with stid := tid }
  | beginDat (ptr gts msg dat oob raw tid) :
      Begun { XmsgImChannel.beginDat ptr gts msg dat oob raw with stid := tid }

/-- Nothing has been received for a transaction that was only begun. -/
theorem XmsgImTransInitiative.Begun.endMsg_eq_none {init : XmsgImTransInitiative M}
    (h : init.Begun) : init.endMsg = none := by
  cases h with
  | begin_ ptr gts req oob tid =>
      exact XmsgImTrans.addOobs_field (·.endMsg) (fun _ _ _ => rfl) _ oob
  | beginDat ptr gts msg dat oob raw tid =>
      exact XmsgImTrans.addOobs_field (·.endMsg) (fun _ _ _ => rfl) _ oob

/-- What `end(pdu)` leaves: the end message and the result, and that it returns true. -/
structure Answered (endMsg : Option M) (ret : UInt16) (desc : Text)
    (r : XmsgImTransInitiative M × Bool) : Prop where
  endMsg : r.1.endMsg = endMsg
  ret : r.1.ret = ret
  desc : r.1.desc = desc
  returns : r.2 = true

section EndPdu

variable (K : XscProto) (pb : Protobuf D M) {init : XmsgImTransInitiative M}
  (pdu : XscProtoPdu) {end_ : XscProtoTransaction}

/-- Without a body the end message stays what it was. -/
theorem endPdu_empty (hmsg : end_.msg = []) :
    Answered init.endMsg end_.ret end_.desc (init.endPdu K pb pdu end_) := by
  unfold XmsgImTransInitiative.endPdu
  cases pdu.oob <;> rw [if_neg (not_not.mpr hmsg)] <;> exact ⟨rfl, rfl, rfl, rfl⟩

/-- A body that makes a message sets the end message. -/
theorem endPdu_message (hmsg : end_.msg ≠ []) (hraw : init.raw = false) {m : M}
    (hnew : XmsgImMsgStub.newPbMsgName pb end_.msg end_.dat = some m) :
    Answered (some m) end_.ret end_.desc (init.endPdu K pb pdu end_) := by
  unfold XmsgImTransInitiative.endPdu
  cases pdu.oob <;> constructor <;> simp [hmsg, hraw, hnew]

/-- A body that makes no message makes `end` return false. -/
theorem endPdu_exception (hmsg : end_.msg ≠ []) (hraw : init.raw = false)
    (hnew : XmsgImMsgStub.newPbMsgName pb end_.msg end_.dat = none) :
    (init.endPdu K pb pdu end_).2 = false := by
  unfold XmsgImTransInitiative.endPdu
  cases pdu.oob <;> simp [hmsg, hraw, hnew]

/-- A transaction that is not raw ends with `endMsg` when the END has no body and `endMsg` is
null, or when the body makes that message. -/
theorem endPdu_answered_iff (hraw : init.raw = false) (hend : init.endMsg = none)
    (endMsg : Option M) :
    Answered endMsg end_.ret end_.desc (init.endPdu K pb pdu end_) ↔
      (end_.msg = [] ∧ endMsg = none) ∨
        (end_.msg ≠ [] ∧ ∃ m, endMsg = some m ∧
          XmsgImMsgStub.newPbMsgName pb end_.msg end_.dat = some m) := by
  constructor
  · intro h
    by_cases hmsg : end_.msg = []
    · exact .inl ⟨hmsg, by rw [← h.endMsg, (endPdu_empty K pb pdu hmsg).endMsg, hend]⟩
    · cases hnew : XmsgImMsgStub.newPbMsgName pb end_.msg end_.dat with
      | none =>
          have hfalse := endPdu_exception K pb pdu hmsg hraw hnew
          rw [h.returns] at hfalse
          cases hfalse
      | some m =>
          have hset := (endPdu_message K pb pdu hmsg hraw hnew).endMsg
          exact .inr ⟨hmsg, m, by rw [← h.endMsg, hset], rfl⟩
  · rintro (⟨hmsg, rfl⟩ | ⟨hmsg, m, rfl, hnew⟩)
    · rw [← hend]
      exact endPdu_empty K pb pdu hmsg
    · exact endPdu_message K pb pdu hmsg hraw hnew

end EndPdu

/-- The END of a passive transaction, in terms of the body it was built with. -/
theorem carried_answered_iff (K : XscProto) (pb : Protobuf D M)
    {init : XmsgImTransInitiative M} (hraw : init.raw = false) (hend : init.endMsg = none)
    {trans : XmsgImTransPassive M} {sent got : XscProtoTransaction}
    (hsent : (endPdu pb trans).transm.trans = some sent) (hcarried : sent.CarriedAs got)
    (pdu : XscProtoPdu) :
    Answered trans.endMsg trans.ret trans.desc (init.endPdu K pb pdu got) ↔
      ((trans.body pb).1 = [] ∧ trans.endMsg = none) ∨
        ((trans.body pb).1 ≠ [] ∧ ∃ m, trans.endMsg = some m ∧
          XmsgImMsgStub.newPbMsgName pb (trans.body pb).1 (trans.body pb).2 = some m) := by
  rw [endPdu_trans] at hsent
  cases hsent
  have hret : got.ret = trans.ret := hcarried.ret
  have hdesc : got.desc = trans.desc := hcarried.desc
  have hmsg : got.msg = (trans.body pb).1 := hcarried.msg
  have hdat : got.dat = (trans.body pb).2 := hcarried.dat
  rw [← hret, ← hdesc, ← hmsg, ← hdat]
  exact endPdu_answered_iff K pb pdu hraw hend trans.endMsg

/-- A passive transaction that ends without a raw message and not in failure sends one END.
The initiative transaction ends with the same message and result, exactly when the type of
the message, if there is one, has its unqualified name as its full name. -/
theorem end_message_decodes_iff (K : XscProto) {pb : Protobuf D M} {IsInitialized : M → Prop}
    (h : pb.Lawful IsInitialized) (trans : XmsgImTransPassive M) (hrawMsg : trans.rawMsg = none)
    (hret : trans.ret ≠ K.RET_FAILURE) (hm : ∀ m, trans.endMsg = some m → IsInitialized m)
    (init : XmsgImTransInitiative M) (hinit : init.Begun) (hraw : init.raw = false) :
    (∀ pro, pro ≠ .XSC_PROTOCOL_HTTP →
        sentPdus (trans.endClosure K pb pro true) = [endPdu pb trans]) ∧
      ((∀ pdu sent got, (endPdu pb trans).transm.trans = some sent → sent.CarriedAs got →
          pdu.transm.trans = some got →
          Answered trans.endMsg trans.ret trans.desc (init.endPdu K pb pdu got)) ↔
        ∀ m, trans.endMsg = some m →
          pb.fullName (pb.getDescriptor m) = pb.name (pb.getDescriptor m)) := by
  have hend := hinit.endMsg_eq_none
  refine ⟨?_, ?_, ?_⟩
  · intro pro hpro
    rw [sentPdus_endClosure, if_pos ⟨hpro, hret, rfl⟩]
  · intro hall m hendMsg
    have hsent := endPdu_trans pb trans
    -- the PDU itself is one the codec may deliver
    have hanswered := hall (endPdu pb trans) _ _ hsent ⟨rfl, rfl, rfl, rfl, rfl, rfl, rfl⟩ hsent
    rw [carried_answered_iff K pb hraw hend hsent ⟨rfl, rfl, rfl, rfl, rfl, rfl, rfl⟩,
      body_endMsg hrawMsg hendMsg] at hanswered
    rcases hanswered with ⟨-, hnone⟩ | ⟨-, m', hsome, hnew⟩
    · rw [hendMsg] at hnone
      cases hnone
    · rw [hendMsg] at hsome
      cases hsome
      exact (XmsgImMsgStub.newPbMsgName_serialize_iff h (hm m hendMsg) _).mp hnew
  · intro hname pdu sent got hsent hcarried _
    rw [carried_answered_iff K pb hraw hend hsent hcarried]
    cases hendMsg : trans.endMsg with
    | none =>
        left
        exact ⟨body_empty hrawMsg hendMsg, rfl⟩
    | some m =>
        right
        rw [body_endMsg hrawMsg hendMsg]
        refine ⟨h.name_ne _, m, rfl, ?_⟩
        exact (XmsgImMsgStub.newPbMsgName_serialize_iff h (hm m hendMsg) _).mpr (hname m hendMsg)

/-- A passive transaction that was ended with `m` and the result 7. -/
def XmsgImTransPassive.sample (m : SampleMsg) : XmsgImTransPassive SampleMsg :=
  { ptr := 1, gts := 0, dtid := 9, ret := 7, desc := "done", endMsg := some m
    lazyClose := false }

/-- The transaction layer of its END. -/
def sampleEndOf (m : SampleMsg) : XscProtoTransaction :=
  { trans := .END, refDat := true, dtid := 9, ret := 7, desc := "done"
    msg := samplePb.name m.1, dat := m.2 }

/-- What the initiative transaction makes of it. -/
def sampleDecoded (m : SampleMsg) : XmsgImTransInitiative SampleMsg × Bool :=
  XmsgImTransInitiative.endPdu .sample samplePb
    { XmsgImChannel.begin_ 1 0 (.ping, []) none with stid := 9 }
    (endPdu samplePb (.sample m)) (sampleEndOf m)

/-- A message of a type outside any package arrives. -/
theorem end_message_decodes_iff_ping :
    Answered (some (.ping, [1, 2])) 7 "done" (sampleDecoded (.ping, [1, 2])) := by
  refine (end_message_decodes_iff XscProto.sample samplePb_lawful
    (.sample (.ping, [1, 2])) rfl (by decide) ?_
    { XmsgImChannel.begin_ 1 0 (.ping, []) none with stid := 9 } (.begin_ ..) rfl).2.mpr ?_
    (endPdu samplePb (.sample (.ping, [1, 2]))) (sampleEndOf (.ping, [1, 2])) _ rfl
    ⟨rfl, rfl, rfl, rfl, rfl, rfl, rfl⟩ rfl
  · intro m hm
    cases hm
    exact (by decide : ((.ping, [1, 2]) : SampleMsg) ≠ (.login, []))
  · intro m hm
    cases hm
    rfl

/-- A message of a type inside a package does not. -/
theorem end_message_lost_pong :
    samplePb.Lawful SampleMsg.IsInitialized ∧ SampleMsg.IsInitialized (.pong, [1, 2]) ∧
      (endPdu samplePb (.sample (.pong, [1, 2]))).transm.trans =
        some (sampleEndOf (.pong, [1, 2])) ∧
      ¬ Answered (some (.pong, [1, 2])) 7 "done" (sampleDecoded (.pong, [1, 2])) ∧
      (sampleDecoded (.pong, [1, 2])).1.endMsg = none ∧
      (sampleDecoded (.pong, [1, 2])).1.ret = XscProto.sample.RET_EXCEPTION ∧
      (sampleDecoded (.pong, [1, 2])).2 = false := by
  have hinit : ((.pong, [1, 2]) : SampleMsg) ≠ (.login, []) := by decide
  refine ⟨samplePb_lawful, hinit, rfl, ?_, by decide, by decide, by decide⟩
  intro h
  exact absurd h.returns (by decide)

/-! ## Raw messages -/

/-- The message a response carried: none when there was no response or it had no body. -/
def Removal.rawMsg : Removal → Option XmsgImTransRawMsg
  | .byEnd _ end_ => if end_.msg ≠ [] then some ⟨end_.msg, end_.dat⟩ else none
  | .bySweep => none
  | .byClean => none

/-- The result and the body of a response, which leave in an END or in an HTTP answer. -/
structure Reply where
  ret : UInt32
  desc : Text
  msg : Text
  dat : Bytes
  deriving Repr, DecidableEq

/-- What the callback of a transaction is to be given of an END. -/
def XscProtoTransaction.reply (end_ : XscProtoTransaction) : Reply :=
  ⟨end_.ret.toUInt32, end_.desc, end_.msg, end_.dat⟩

/-- The responses among the events. -/
def replies (outs : List Out) : List Reply :=
  outs.filterMap fun
    | .send pdu => (pdu.transm.trans.filter (·.trans = .END)).map (·.reply)
    | .sendBin rsp => some ⟨rsp.ret, rsp.desc, rsp.msg, rsp.dat⟩
    | _ => none

/-- On every transport the result and the body of the transaction leave once. -/
theorem replies_endClosure (K : XscProto) (pb : Protobuf D M) (pro : XscProtocolType)
    {trans : XmsgImTransPassive M} (hret : trans.ret ≠ K.RET_FAILURE) :
    replies (trans.endClosure K pb pro true) =
      [⟨trans.ret.toUInt32, trans.desc, (trans.body pb).1, (trans.body pb).2⟩] := by
  have happend (outs outs' : List Out) :
      replies (outs ++ outs') = replies outs ++ replies outs' := List.filterMap_append
  have hsend : replies (sendPdu pro (endPdu pb trans)) =
      [⟨trans.ret.toUInt32, trans.desc, (trans.body pb).1, (trans.body pb).2⟩] := by
    unfold sendPdu
    by_cases hpro : pro = .XSC_PROTOCOL_HTTP
    · rw [if_neg (not_not.mpr hpro)]
      unfold XmsgImHttpChannel.sendXscPdu
      rw [endPdu_trans]
      simp [replies]
    · rw [if_pos hpro]
      simp [replies, endPdu_trans, XscProtoTransaction.reply]
  unfold XmsgImTransPassive.endClosure
  rw [if_neg hret, if_neg (by decide), happend]
  have hclose : replies (if trans.lazyClose then [.lazyClose] else []) = [] := by
    cases trans.lazyClose <;> rfl
  rw [hclose, List.append_nil]
  exact hsend

/-- A transaction begun with `raw` relays the response: its `rawMsg` describes the response,
and a passive transaction of any other channel that is up, ended with the outcome, answers
what the END said. -/
structure RawRelay (K : XscProto) (pb : Protobuf D M) (by_ : Removal)
    (trans : XmsgImTransInitiative M) : Prop where
  rawMsg : trans.rawMsg = by_.rawMsg
  relay : ∀ pdu end_, by_ = .byEnd pdu end_ → trans.ret ≠ K.RET_FAILURE →
    ∀ (upstream : XmsgImTransPassive M) (pro : XscProtocolType),
      replies ((upstream.endCall K (.endRaw trans.ret trans.desc trans.rawMsg)).endClosure K pb
        pro true) = [end_.reply]

theorem beginDat_rawMsg (ptr gts msg dat oob raw) :
    (XmsgImChannel.beginDat ptr gts msg dat oob raw : XmsgImTransInitiative M).rawMsg =
      some ⟨msg, dat⟩ :=
  XmsgImTrans.addOobs_field (·.rawMsg) (fun _ _ _ => rfl) _ oob

/-- A raw transaction keeps the message of its request until a response replaces it. -/
theorem Taken.complete_rawMsg (K : XscProto) (pb : Protobuf D M) {b : Taken M}
    (hraw : b.trans.raw = true) :
    (b.complete K pb).rawMsg = b.by_.rawMsg.or b.trans.rawMsg := by
  obtain ⟨trans, by_⟩ := b
  cases by_ with
  | bySweep => rfl
  | byClean => rfl
  | byEnd pdu end_ =>
      have hraw' : trans.raw = true := hraw
      by_cases hmsg : end_.msg = []
      · simp only [Taken.complete, Removal.rawMsg, XmsgImTransInitiative.endPdu]
        cases pdu.oob <;> simp [hmsg]
      · simp only [Taken.complete, Removal.rawMsg, XmsgImTransInitiative.endPdu]
        cases pdu.oob <;> simp [hmsg, hraw']

/-- In every run, a callback of a transaction begun with `raw` relays the response exactly
when the transaction was completed by an END with a message. -/
theorem raw_relay_iff (K : XscProto) (pb : Protobuf D M) {e : Exec M}
    (h : Reachable (execSystem K pb) Always e) {b : Taken M} {trans : XmsgImTransInitiative M}
    (hinvoked : (b, trans) ∈ e.invoked) {ptr gts msg dat oob tid}
    (hbegun : b.trans = { XmsgImChannel.beginDat ptr gts msg dat oob true with stid := tid }) :
    RawRelay K pb b.by_ trans ↔ ∃ pdu end_, b.by_ = .byEnd pdu end_ ∧ end_.msg ≠ [] := by
  have hcomplete : trans = b.complete K pb := (reachable_inv h).completed (b, trans) hinvoked
  have hraw : b.trans.raw = true := by rw [hbegun]; rfl
  have hrequest : b.trans.rawMsg = some ⟨msg, dat⟩ := by
    rw [hbegun]
    exact beginDat_rawMsg ptr gts msg dat oob true
  have hrawMsg : trans.rawMsg = b.by_.rawMsg.or (some ⟨msg, dat⟩) := by
    rw [hcomplete, Taken.complete_rawMsg K pb hraw, hrequest]
  constructor
  · intro hrelay
    -- without a message of the response the request's message is still there
    cases hby : b.by_ with
    | byEnd pdu end_ =>
        refine ⟨pdu, end_, rfl, ?_⟩
        intro hmsg
        have hkept := hrelay.rawMsg
        rw [hrawMsg, hby] at hkept
        simp [Removal.rawMsg, hmsg] at hkept
    | bySweep =>
        have hkept := hrelay.rawMsg
        rw [hrawMsg, hby] at hkept
        cases hkept
    | byClean =>
        have hkept := hrelay.rawMsg
        rw [hrawMsg, hby] at hkept
        cases hkept
  · rintro ⟨pdu, end_, hby, hmsg⟩
    have hresponse : b.by_.rawMsg = some ⟨end_.msg, end_.dat⟩ := by
      rw [hby]
      exact if_pos hmsg
    have houtcome : (trans.ret, trans.desc) = (end_.ret, end_.desc) := by
      rw [hcomplete, Taken.complete_outcome, hby, hraw]
      simp [Removal.outcome]
    obtain ⟨hret, hdesc⟩ := Prod.mk.inj houtcome
    refine ⟨by rw [hrawMsg, hresponse]; rfl, ?_⟩
    intro pdu' end' hby' hfailure upstream pro
    rw [hby] at hby'
    cases hby'
    rw [replies_endClosure K pb pro hfailure, hret, hdesc, hrawMsg, hresponse]
    rfl

/-- A raw request is outstanding. -/
def Exec.rawPending : Exec SampleMsg :=
  (Exec.start .XSC_PROTOCOL_TCP).futureBegin
    (XmsgImChannel.beginDat 1 0 "Login" [1, 2] none true)

theorem Exec.rawPending_reachable :
    Reachable (execSystem .sample samplePb) Always Exec.rawPending := by
  refine .step (.init (Exec.start_fresh _)) trivial (.futureBegin _ _ ?_)
  simp [Exec.start]

/-- The request of `Exec.rawPending`, with an END that has the body `msg`. -/
def rawTaken (msg : Text) : Taken SampleMsg where
  trans := { XmsgImChannel.beginDat 1 0 "Login" [1, 2] none true with stid := 1 }
  by_ := .byEnd { transm := { trans := some { sampleEnd with msg := msg } } }
    { sampleEnd with msg := msg }

/-- Its END has a message. -/
theorem raw_relay_iff_ping :
    RawRelay .sample samplePb (rawTaken "Ping").by_
      ((rawTaken "Ping").complete .sample samplePb) := by
  have hreach : Reachable (execSystem .sample samplePb) Always
      (Exec.rawPending.evnEnd .sample samplePb
        { transm := { trans := some sampleEnd } } sampleEnd) :=
    .step Exec.rawPending_reachable trivial (.evnEnd _ _ _ rfl)
  refine (raw_relay_iff .sample samplePb hreach (b := rawTaken "Ping") ?_ rfl).mpr ?_
  · exact List.mem_cons_self
  · exact ⟨_, _, rfl, by decide⟩

/-- Its END has no message: the callback finds the request in `rawMsg`, and a gateway answers
its own client with the request. -/
theorem raw_relay_returns_request :
    (rawTaken [], (rawTaken []).complete .sample samplePb) ∈
        (Exec.rawPending.evnEnd .sample samplePb
          { transm := { trans := some { sampleEnd with msg := [] } } }
          { sampleEnd with msg := [] }).invoked ∧
      ¬ RawRelay .sample samplePb (rawTaken []).by_
          ((rawTaken []).complete .sample samplePb) ∧
      ((rawTaken []).complete .sample samplePb).rawMsg = some ⟨"Login", [1, 2]⟩ ∧
      replies (((XmsgImTransPassive.new 1 0 {} : XmsgImTransPassive SampleMsg).endCall .sample
          (.endRaw 7 "done" ((rawTaken []).complete .sample samplePb).rawMsg)).endClosure .sample
        samplePb .XSC_PROTOCOL_TCP true) = [⟨7, "done", "Login", [1, 2]⟩] := by
  refine ⟨List.mem_cons_self, ?_, by decide, by decide⟩
  intro h
  exact absurd h.rawMsg (by decide)

end XmsgImXsc
