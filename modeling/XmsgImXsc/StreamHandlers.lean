/-
# XmsgImXsc.StreamHandlers -- the handlers that a byte stream reaches

`XmsgImXsc.StreamOrder` follows the requests through the records of both endpoints.  Here the
calls of the handlers themselves are followed, for requests and unidirections alike: a receiver
keeps the calls of `evnMsg` that its receive loop has made (`Receipt`).  They are the PDUs of
the sender, one after the other, so handlers are called in the order in which the PDUs were
sent, at most once for each, with the messages that were sent.
-/
import XmsgImXsc.StreamOrder
import XmsgImXsc.StreamRecv
import Mathlib.Data.List.Forall2

namespace XmsgImXsc

open Lts Scanning

variable {D M H U : Type} {decode : Decode}

/-! ## PDUs and the calls they lead to -/

/-- A PDU for a handler: a BEGIN or a unidirection, and no heartbeat. -/
def XscProtoPdu.forHandler (K : XscProto) (pdu : XscProtoPdu) : Bool :=
  pdu.transm.indicator &&& K.XSC_TAG_TRANSM_PING = 0 &&
    pdu.transm.trans.any fun t => t.trans = .BEGIN || t.trans = .UNIDIRECTION

/-- `pdu` is what `sendBegin` or `sendUnidirection` sends for the message `m`. -/
inductive SendsMsg (pb : Protobuf D M) (m : M) (pdu : XscProtoPdu) : Prop
  | begin_ (trans : XmsgImTransInitiative M) : trans.rawMsg = none → trans.beginMsg = some m →
      beginPdu pb trans = some pdu → SendsMsg pb m pdu
  | unidirection (trans : XmsgImTrans M) : trans.rawMsg = none → trans.uniMsg = some m →
      unidirectionPdu pb trans = some pdu → SendsMsg pb m pdu

/-- What the receiver does about a PDU that was sent as `sent`: it calls the handler
registered under its name, through the signature for its tag and with the message of its
body, which is the one that was sent where the handler was registered for that type. -/
structure HandlerCall.For (pb : Protobuf D M) (IsInitialized : M → Prop)
    (msgMgr : Option (XmsgImMsgMgr D H)) (sent : XscProtoPdu) (call : HandlerCall M H U)
    (mgr : XmsgImMsgMgr D H) (t : XscProtoTransaction) (stub : XmsgImMsgStub D H) : Prop where
  manager : msgMgr = some mgr
  layer : sent.transm.trans = some t
  found : mgr.getMsgStub t.msg = some stub
  called : ∃ usr, IsCallOf pb stub usr t call
  msg : ∀ m, IsInitialized m → SendsMsg pb m sent →
    stub.desc t.trans = some (pb.getDescriptor m) → call.msg = m

section Pdus

variable {K : XscProto} {pb : Protobuf D M} {sent got : XscProtoPdu}

/-- A PDU for a handler is one for the receiver as for the sender. -/
theorem XscProtoPdu.CarriedAs.forHandler (h : sent.CarriedAs got) :
    got.forHandler K = sent.forHandler K := by
  unfold XscProtoPdu.forHandler
  rw [h.indicator]
  cases hsent : sent.transm.trans with
  | none => rw [h.noTrans hsent]
  | some t =>
      obtain ⟨t', ht', hcarried⟩ := h.trans t hsent
      rw [ht', Option.any_some, Option.any_some, hcarried.trans]

/-- The body of what was sent is the message. -/
theorem SendsMsg.dat {m : M} (h : SendsMsg pb m sent) {t : XscProtoTransaction}
    (ht : sent.transm.trans = some t) : t.dat = pb.serializeAsString m := by
  cases h with
  | begin_ trans hraw hmsg hpdu =>
      unfold beginPdu at hpdu
      rw [hraw, hmsg] at hpdu
      cases hpdu
      cases ht
      rfl
  | unidirection trans hraw hmsg hpdu =>
      unfold unidirectionPdu at hpdu
      rw [hraw, hmsg] at hpdu
      cases hpdu
      cases ht
      rfl

/-- What a call looks like is read off what was sent as well. -/
theorem XscProtoTransaction.CarriedAs.isCallOf {t t' : XscProtoTransaction} (h : t.CarriedAs t')
    {stub : XmsgImMsgStub D H} {usr : Option U} {call : HandlerCall M H U}
    (hcall : IsCallOf pb stub usr t' call) : IsCallOf pb stub usr t call where
  tag := hcall.tag.trans h.trans
  cb := hcall.cb
  self := hcall.self
  msg := by
    rw [← h.trans, ← h.dat]
    exact hcall.msg

/-- The handler is given the message whose bytes were sent. -/
theorem IsCallOf.msg_eq {IsInitialized : M → Prop} (hpb : pb.Lawful IsInitialized)
    {stub : XmsgImMsgStub D H} {usr : Option U} {t : XscProtoTransaction}
    {call : HandlerCall M H U} (h : IsCallOf pb stub usr t call) {m : M} (hm : IsInitialized m)
    (hdesc : stub.desc t.trans = some (pb.getDescriptor m))
    (hdat : t.dat = pb.serializeAsString m) : call.msg = m := by
  have hmsg := h.msg
  rw [hdesc, hdat, Option.bind_some, XmsgImMsgStub.newPbMsgDat_serialize hpb hm] at hmsg
  exact (Option.some.inj hmsg).symm

variable {usr : Option U} {ptr : Nat} {gts : UInt64} {msgMgr : Option (XmsgImMsgMgr D H)}
  {c : XmsgImChannel M}

/-- A handler is called only for a PDU that was sent for one. -/
theorem call_for {IsInitialized : M → Prop} (hpb : pb.Lawful IsInitialized)
    (hcarried : sent.CarriedAs got) {call : HandlerCall M H U}
    (h : call ∈ (evnMsg pb usr ptr gts got K msgMgr c).calls) :
    sent.forHandler K = true ∧
      ∃ m t stub, HandlerCall.For pb IsInitialized msgMgr sent call m t stub := by
  obtain ⟨hping, m, t', stub, ⟨ht', hmgr, -⟩, hstub, hcall⟩ := passes_of_mem_evnMsg_calls h
  obtain ⟨t, ht, hlayer⟩ := hcarried.sent ht'
  have hsent := hlayer.isCallOf hcall
  have htag : t'.trans = .BEGIN ∨ t'.trans = .UNIDIRECTION := by
    rw [← hcall.tag]
    cases call with
    | begin_ => exact .inl rfl
    | unidirection => exact .inr rfl
  refine ⟨?_, m, t, stub, hmgr, ht, hlayer.msg ▸ hstub, ⟨usr, hsent⟩, ?_⟩
  · rw [← hcarried.forHandler, XscProtoPdu.forHandler, ht', Option.any_some]
    simpa [hping] using htag
  · intro m' hm' hsends hdesc
    exact hsent.msg_eq hpb hm' hdesc (hsends.dat ht)

/-- A unidirection is refused exactly when no handler is called. -/
theorem evnUnidirection_ret (m : XmsgImMsgMgr D H) (t : XscProtoTransaction) :
    (evnUnidirection pb m usr ptr gts got t).2 =
      (evnUnidirection pb m usr ptr gts got t).1.isSome := by
  unfold evnUnidirection
  cases m.getMsgStub t.msg with
  | none => rfl
  | some stub =>
      dsimp only
      cases stub.newUnidirection pb t.dat with
      | none => rfl
      | some uni =>
          cases stub.auth with
          | false => rfl
          | true => cases usr <;> rfl

/-- A PDU for a handler that is accepted has led to a call, when no interceptor takes it. -/
theorem calls_ne_nil (hitcp : NoItcp msgMgr) (h : got.forHandler K = true)
    (hret : (evnMsg pb usr ptr gts got K msgMgr c).ret = true) :
    (evnMsg pb usr ptr gts got K msgMgr c).calls ≠ [] := by
  have htoList {o : Option (HandlerCall M H U)} (ho : o.isSome = true) : o.toList ≠ [] := by
    obtain ⟨call, rfl⟩ := Option.isSome_iff_exists.mp ho
    exact List.cons_ne_nil call []
  obtain ⟨hping, htag⟩ := Bool.and_eq_true_iff.mp h
  have hping : got.transm.indicator &&& K.XSC_TAG_TRANSM_PING = 0 := of_decide_eq_true hping
  cases ht : got.transm.trans with
  | none =>
      rw [ht] at htag
      cases htag
  | some t =>
      rw [ht, Option.any_some, Bool.or_eq_true, decide_eq_true_eq, decide_eq_true_eq] at htag
      obtain ⟨m, -, htrans, hmgr, hdisable⟩ := dispatched_of_ret hitcp hping ht hret
      unfold evnMsg at hret ⊢
      rw [if_neg (not_not_intro hping), ht, hmgr] at hret ⊢
      dsimp only at hret ⊢
      rw [hdisable] at hret ⊢
      rcases htag with hbegin | huni
      · rw [hbegin] at hret ⊢
        exact htoList (evnBegin_ret m t ▸ hret)
      · rw [huni] at hret ⊢
        exact htoList (evnUnidirection_ret m t ▸ hret)

end Pdus

/-! ## Runs with the calls of the receive loops -/

/-- One call of `evnMsg` by a receive loop. -/
structure Receipt (M U : Type) extends EvnContext U where
  ch : XmsgImChannel M
  pdu : XscProtoPdu

/-- `evnMsg` with what it found when the PDU was taken off the stream. -/
def Receipt.evnMsg (pb : Protobuf D M) (K : XscProto) (msgMgr : Option (XmsgImMsgMgr D H))
    (x : Receipt M U) : EvnMsg M H U :=
  XmsgImXsc.evnMsg pb x.usr x.ptr x.gts x.pdu K msgMgr x.ch

/-- The link, and for the stream of each endpoint the calls of `evnMsg` with the PDUs that
were taken off it, oldest first. -/
structure ReceiptRun (decode : Decode) (M U : Type) where
  stream : StreamLink decode M
  receipts : Bool → List (Receipt M U) := fun _ => []

namespace ReceiptRun

/-- The handlers called for what endpoint `i` has sent. -/
def calls (pb : Protobuf D M) (K : XscProto) (mgr : Bool → Option (XmsgImMsgMgr D H))
    (s : ReceiptRun decode M U) (i : Bool) : List (HandlerCall M H U) :=
  (s.receipts i).flatMap fun x => (x.evnMsg pb K (mgr (!i))).calls

/-- A step of the link, noted where it is a pass of the receive loop. -/
inductive Step (K : XscProto) (pb : Protobuf D M) (mgr : Bool → Option (XmsgImMsgMgr D H))
    (pro : XscProtocolType) : ReceiptRun decode M U → Unit → ReceiptRun decode M U → Prop
  /-- One pass of the receive loop. -/
  | receive (s) (i : Bool) {w : Wired decode M} {n pong} (x : Receipt M U) :
      s.stream.est (!i) = true → pduScan decode (s.stream.pipe i).buf = .item x.pdu n →
      (s.stream.pipe i).sent[(s.stream.pipe i).taken]? = some w →
      x.ch = (s.stream.link (!i)).a.ch →
      pong.map Wired.note =
        (if (x.evnMsg pb K (mgr (!i))).pong then [.other K.pong] else []) →
      Step K pb mgr pro s ()
        { stream := s.stream.received K pb i w.note x.pdu n (x.evnMsg pb K (mgr (!i))) pong
          receipts := Function.update s.receipts i (s.receipts i ++ [x]) }
  /-- A step of the link that takes no PDU off a stream. -/
  | goOn (s) {stream'} : StreamLink.Step U K pb mgr pro s.stream () stream' →
      (∀ i, (stream'.pipe i).taken = (s.stream.pipe i).taken) →
      Step K pb mgr pro s () { s with stream := stream' }

/-- The runs of the link, with the calls. -/
def system (U : Type) (K : XscProto) (pb : Protobuf D M)
    (mgr : Bool → Option (XmsgImMsgMgr D H)) (pro : XscProtocolType) :
    System (ReceiptRun decode M U) Unit where
  init s := (StreamLink.system U K pb mgr pro).init s.stream ∧ ∀ i, s.receipts i = []
  step := Step K pb mgr pro

variable {K : XscProto} {pb : Protobuf D M} {mgr : Bool → Option (XmsgImMsgMgr D H)}
  {pro : XscProtocolType} {s s' : ReceiptRun decode M U}

/-- The records change nothing in the system. -/
theorem Step.stream_step (h : Step K pb mgr pro s () s') :
    StreamLink.Step U K pb mgr pro s.stream () s'.stream := by
  cases h with
  | @receive i w n pong x hest hscan hnext hch hpong =>
      unfold Receipt.evnMsg at hpong ⊢
      rw [hch] at hpong ⊢
      exact .receive _ i hest hscan hnext hpong
  | goOn hstep _ => exact hstep

theorem reachable_stream (h : Reachable (system U K pb mgr pro) Always s) :
    Reachable (StreamLink.system U K pb mgr pro) Always s.stream :=
  h.project ReceiptRun.stream (fun _ hinit => hinit.1)
    fun _ _ _ _ _ hstep => .inr ⟨(), trivial, Step.stream_step hstep⟩

/-- The receive loop of the peer of `k` was called with the PDUs that `k` sent, one after the
other, and as long as the peer is established it has accepted all of them. -/
structure Inv (K : XscProto) (pb : Protobuf D M) (mgr : Bool → Option (XmsgImMsgMgr D H))
    (s : ReceiptRun decode M U) (k : Bool) : Prop where
  done : List.Forall₂ (fun x (w : Wired decode M) => w.got = x.pdu) (s.receipts k)
    (s.stream.pipe k).done
  accepted : s.stream.est (!k) = true →
    ∀ x ∈ s.receipts k, (x.evnMsg pb K (mgr (!k))).ret = true

/-- A step that takes nothing off the stream of `k`. -/
theorem Inv.keep {k : Bool} (h : s.Inv K pb mgr k) (hreceipts : s'.receipts k = s.receipts k)
    (hdone : (s'.stream.pipe k).done = (s.stream.pipe k).done)
    (hest : s'.stream.est (!k) = true → s.stream.est (!k) = true) : s'.Inv K pb mgr k := by
  refine ⟨?_, fun hup => ?_⟩
  · rw [hreceipts, hdone]
    exact h.done
  · rw [hreceipts]
    exact h.accepted (hest hup)

/-- A step that takes no PDU off a stream leaves what was taken off it. -/
theorem done_of_taken {s s' : StreamLink decode M} (hwire : s.Wire)
    (hstep : StreamLink.Step U K pb mgr pro s () s') (k : Bool)
    (htaken : (s'.pipe k).taken = (s.pipe k).taken) : (s'.pipe k).done = (s.pipe k).done := by
  cases hstep.pipeMove k with
  | same heq => rw [heq]
  | sent ws heq => rw [heq, (hwire.pipe k).done_send]
  | arrived n heq => rw [heq]; rfl
  | taken pdu n _ heq =>
      rw [heq, Pipe.take_taken] at htaken
      omega

/-- A PDU is recorded by the step that takes it off the stream. -/
theorem Inv.step (laws : DecodeLaws decode) (hwire : s.stream.Wire) {k : Bool}
    (h : s.Inv K pb mgr k) (hstep : Step K pb mgr pro s () s') : s'.Inv K pb mgr k := by
  have hstream := hstep.stream_step
  cases hstep with
  | goOn hgo htaken =>
      exact h.keep rfl (done_of_taken hwire hgo k (htaken k)) (hgo.est_le (!k))
  | @receive i w n pong x hest hscan hnext hch hpong =>
      by_cases hk : k = i
      · subst hk
        obtain ⟨w', hnext', hgot, -⟩ := (hwire.pipe k).next (Wired.carries M laws) hscan
        obtain rfl := Option.some.inj (hnext.symm.trans hnext')
        refine ⟨?_, fun hup => ?_⟩
        · show List.Forall₂ _ (Function.update s.receipts k _ k)
            ((s.stream.received K pb k _ _ n _ pong).pipe k).done
          rw [Function.update_self, StreamLink.received_pipe, if_pos rfl, Pipe.done_take hnext]
          exact List.rel_append h.done (.cons hgot .nil)
        · have hup : (s.stream.received K pb k w.note x.pdu n (x.evnMsg pb K (mgr (!k)))
            pong).est (!k) = true := hup
          rw [StreamLink.received_est, if_neg (Bool.not_eq_self k).mp, Bool.and_eq_true_iff] at hup
          intro y hy
          have hy : y ∈ Function.update s.receipts k (s.receipts k ++ [x]) k := hy
          rw [Function.update_self] at hy
          rcases List.mem_append.mp hy with hold | hnew
          · exact h.accepted hup.1 y hold
          · rw [List.mem_singleton.mp hnew]
            exact hup.2
      · refine h.keep (Function.update_of_ne hk _ _) ?_ (hstream.est_le (!k))
        show ((s.stream.received K pb i _ _ n _ pong).pipe k).done = _
        rw [StreamLink.received_pipe, if_neg hk]
        exact StreamLink.done_send hwire.pipe rfl

theorem reachable_inv (laws : DecodeLaws decode)
    (h : Reachable (system U K pb mgr pro) Always s) (k : Bool) : s.Inv K pb mgr k := by
  refine h.invariant_using (fun s hs => (StreamLink.reachable_wire laws (reachable_stream hs)).1)
    ?_ (fun s _ s' hwire hinv _ hstep => Inv.step laws hwire hinv hstep)
  intro s hinit
  refine ⟨?_, fun _ x hx => ?_⟩
  · rw [hinit.2 k, (hinit.1 k).2]
    exact .nil
  · rw [hinit.2 k] at hx
    cases hx

end ReceiptRun

/-! ## Handlers in the order of the PDUs -/

/-- The PDUs of a stream that are for handlers. -/
def forHandlers (K : XscProto) (ws : List (Wired decode M)) : List (Wired decode M) :=
  ws.filter fun w => w.note.pdu.forHandler K

/-- Some call that the receiver makes for a PDU on the wire. -/
def Wired.HandledBy (pb : Protobuf D M) (IsInitialized : M → Prop)
    (msgMgr : Option (XmsgImMsgMgr D H)) (w : Wired decode M) (call : HandlerCall M H U) : Prop :=
  ∃ m t stub, HandlerCall.For pb IsInitialized msgMgr w.note.pdu call m t stub

section Order

variable {K : XscProto} {pb : Protobuf D M} {IsInitialized : M → Prop}

/-- Calls of `evnMsg` with PDUs of the wire call handlers for some of the PDUs, in their order,
and for all of them when none is refused or intercepted. -/
theorem calls_in_order (hpb : pb.Lawful IsInitialized) {xs : List (Receipt M U)}
    {ws : List (Wired decode M)} (h : List.Forall₂ (fun x w => w.got = x.pdu) xs ws)
    (msgMgr : Option (XmsgImMsgMgr D H)) :
    ∃ ws', ws'.Sublist (forHandlers K ws) ∧
      List.Forall₂ (Wired.HandledBy pb IsInitialized msgMgr) ws'
        (xs.flatMap fun x => (x.evnMsg pb K msgMgr).calls) ∧
      (NoItcp msgMgr → (∀ x ∈ xs, (x.evnMsg pb K msgMgr).ret = true) → ws' = forHandlers K ws) := by
  induction h with
  | nil => exact ⟨[], List.Sublist.refl _, .nil, fun _ _ => rfl⟩
  | @cons x w xs ws hgot _ ih =>
      obtain ⟨ws', hsub, hhandled, hall⟩ := ih
      have hcarried : w.note.pdu.CarriedAs x.pdu := hgot ▸ w.carried
      have hlen : (x.evnMsg pb K msgMgr).calls.length ≤ 1 := evnMsg_calls_length_le ..
      rw [List.flatMap_cons]
      cases hcalls : (x.evnMsg pb K msgMgr).calls with
      | nil =>
          refine ⟨ws', ?_, hhandled, fun hitcp hret => ?_⟩
          · unfold forHandlers
            rw [List.filter_cons]
            split
            · exact hsub.cons w
            · exact hsub
          · -- a PDU for a handler that is accepted is not passed over
            have hnot : ¬w.note.pdu.forHandler K = true := by
              intro hfor
              rw [← hcarried.forHandler] at hfor
              exact calls_ne_nil hitcp hfor (hret x List.mem_cons_self) hcalls
            have hskip : forHandlers K (w :: ws) = forHandlers K ws := List.filter_cons_of_neg hnot
            rw [hskip]
            exact hall hitcp fun y hy => hret y (List.mem_cons_of_mem x hy)
      | cons call rest =>
          -- one PDU, one call
          rw [hcalls, List.length_cons] at hlen
          obtain rfl : rest = [] := List.eq_nil_of_length_eq_zero (by omega)
          have hmem : call ∈ (x.evnMsg pb K msgMgr).calls := hcalls ▸ List.mem_cons_self
          obtain ⟨hfor, hcall⟩ := call_for hpb hcarried hmem
          have hcons : forHandlers K (w :: ws) = w :: forHandlers K ws :=
            List.filter_cons_of_pos hfor
          rw [hcons]
          refine ⟨w :: ws', hsub.cons_cons w, .cons hcall hhandled, fun hitcp hret => ?_⟩
          rw [hall hitcp fun y hy => hret y (List.mem_cons_of_mem x hy)]

/-- Over a byte stream, however its bytes arrive, the handlers of an endpoint are called for
the requests and unidirections of the other in the order in which they were sent, at most once
for each, and with the messages that were sent where they are registered for their types.  And
while the endpoint is up and has no interceptor that takes PDUs, none that has been taken off
the stream is left out, so that none is missing when nothing is on its way. -/
theorem handlers_called_in_sending_order {mgr : Bool → Option (XmsgImMsgMgr D H)}
    {pro : XscProtocolType} (laws : DecodeLaws decode) (hpb : pb.Lawful IsInitialized)
    {s : ReceiptRun decode M U} (h : Reachable (ReceiptRun.system U K pb mgr pro) Always s)
    (k : Bool) :
    ∃ ws, ws.Sublist (forHandlers K (s.stream.pipe k).sent) ∧
      List.Forall₂ (Wired.HandledBy pb IsInitialized (mgr (!k))) ws (s.calls pb K mgr k) ∧
      (NoItcp (mgr (!k)) → s.stream.est (!k) = true →
        ws = forHandlers K (s.stream.pipe k).done ∧
        ((s.stream.pipe k).flight = [] →
          (∀ pdu n, pduScan decode (s.stream.pipe k).buf ≠ .item pdu n) →
          ws = forHandlers K (s.stream.pipe k).sent)) := by
  have hinv := ReceiptRun.reachable_inv laws h k
  obtain ⟨ws, hsub, hhandled, hall⟩ := calls_in_order (K := K) hpb hinv.done (mgr (!k))
  refine ⟨ws, hsub.trans ((s.stream.pipe k).done_sublist.filter _), hhandled, ?_⟩
  intro hitcp hest
  have hws := hall hitcp (hinv.accepted hest)
  refine ⟨hws, fun hflight hrest => ?_⟩
  have hpipe := (StreamLink.reachable_wire laws (ReceiptRun.reachable_stream h)).1.pipe k
  rw [hws, hpipe.all_taken (Wired.carries M laws) hflight hrest]

end Order

/-! A request arrives in pieces and is handed to the handler registered first. -/

theorem sampleReceipts_reachable :
    ∃ s : ReceiptRun sampleDecode SampleMsg String,
      Reachable (ReceiptRun.system String .sample samplePb sampleMgr .XSC_PROTOCOL_TCP) Always s ∧
      s.stream.est true = true ∧ (s.stream.pipe false).sent = [sampleBeginWired] ∧
      (s.stream.pipe false).done = [sampleBeginWired] ∧
      (s.calls samplePb .sample sampleMgr false).map (·.cb) = [1] := by
  have hinit : Reachable (ReceiptRun.system String .sample samplePb sampleMgr .XSC_PROTOCOL_TCP)
      Always { stream := sampleStart } :=
    .init ⟨fun i => ⟨⟨Exec.start_fresh _, rfl, rfl, rfl, rfl⟩, rfl⟩, fun _ => rfl⟩
  have hbegin := hinit.step (a := ()) trivial (.goOn _
    (@StreamLink.Step.begin_ _ _ _ _ _ _ _ _ _ _ false _ _ [sampleBeginWired]
      (.futureBegin _ (XmsgImChannel.begin_ 1 0 (.ping, [9]) none) (by decide)) rfl rfl)
    (by decide))
  have hfirst := hbegin.step (a := ()) trivial (.goOn _ (.arrive _ false 1) (by decide))
  have harrived := hfirst.step (a := ()) trivial (.goOn _ (.arrive _ false 1) (by decide))
  have hrequest := harrived.step (a := ()) trivial
    (@ReceiptRun.Step.receive _ _ _ _ _ _ _ _ _ _ false sampleBeginWired _ []
      { usr := some "alice", ptr := 1, gts := 0, ch := _, pdu := _ } rfl rfl rfl rfl rfl)
  exact ⟨_, hrequest, by decide, rfl, rfl, by decide⟩

theorem handlers_called_in_sending_order_sample :
    ∃ s : ReceiptRun sampleDecode SampleMsg String,
      (s.calls samplePb .sample sampleMgr false).map (·.cb) = [1] ∧
      List.Forall₂ (Wired.HandledBy samplePb SampleMsg.IsInitialized (sampleMgr true))
        [sampleBeginWired] (s.calls samplePb .sample sampleMgr false) := by
  obtain ⟨s, h, hest, -, hdone, hcbs⟩ := sampleReceipts_reachable
  obtain ⟨ws, -, hhandled, hall⟩ :=
    handlers_called_in_sending_order sampleDecode_laws samplePb_lawful h false
  have hfor : forHandlers .sample [sampleBeginWired] = [sampleBeginWired] := rfl
  have hws := (hall (sampleMgr_noItcp true) hest).1
  rw [hdone, hfor] at hws
  exact ⟨s, hcbs, hws ▸ hhandled⟩

end XmsgImXsc
