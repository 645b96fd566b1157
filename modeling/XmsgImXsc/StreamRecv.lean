/-
# XmsgImXsc.StreamRecv -- a call of the receive routine is a run

`XmsgImTcpChannel::evnRecv` decodes what has arrived and passes every PDU to `evnMsg`, until
it has to wait for more bytes or `evnMsg` returns false.  Here the routine, with `evnMsg` on
the receiver's channel as the function it calls, is shown to be a run of the byte-stream link
(`evnRecv_runs`): it hands over the PDUs that were sent, and it returns a negative value
only when `evnMsg` has refused the last of them.

The routine is the library's `drain` (`recvPdus_eq_drain`), so the proof goes by the PDUs that
a drain takes off the buffer (`drain_runs`).  For each the run makes a `receive` step
(`receive_step`), in which the channel does what `evnMsgOn` does and the PDU is the next one
that was sent.  The buffer never holds bytes that are no PDU, because it holds what is left of
what was sent.
-/
import XmsgImXsc.StreamLink

namespace XmsgImXsc

open Lts Scanning

variable {D M H U : Type} {decode : Decode}

/-- What a call of `evnMsg` finds: the user of the channel, the address of a new transaction
and the clock. -/
structure EvnContext (U : Type) where
  usr : Option U
  ptr : Nat
  gts : UInt64

/-- `evnMsg` as the receive loop calls it.  The state is the channel and how many PDUs were
passed on before; the call on the `n`-th finds `ctx n`. -/
def evnMsgOn (pb : Protobuf D M) (K : XscProto) (ctx : Nat → EvnContext U)
    (msgMgr : Option (XmsgImMsgMgr D H)) (st : XmsgImChannel M × Nat) (pdu : XscProtoPdu) :
    (XmsgImChannel M × Nat) × Bool :=
  let r := evnMsg pb (ctx st.2).usr (ctx st.2).ptr (ctx st.2).gts pdu K msgMgr st.1
  ((r.ch, st.2 + 1), r.ret)

/-- `evnMsg` leaves the channel in which the transaction an END names is ended. -/
theorem endTrans_ch (K : XscProto) (pb : Protobuf D M) (usr : Option U) (ptr : Nat)
    (gts : UInt64) (msgMgr : Option (XmsgImMsgMgr D H)) (l : Link M) (pdu : XscProtoPdu) :
    (StreamLink.endTrans K pb l pdu (evnMsg pb usr ptr gts pdu K msgMgr l.a.ch)).a.ch =
      (evnMsg pb usr ptr gts pdu K msgMgr l.a.ch).ch := by
  have hnone {r : EvnMsg M H U} (hended : r.ended = none) (hch : r.ch = l.a.ch) :
      (StreamLink.endTrans K pb l pdu r).a.ch = r.ch := by
    rw [StreamLink.endTrans_of_none hended, hch]
  unfold evnMsg
  split
  · split
    · exact hnone rfl rfl
    · exact hnone rfl rfl
  · cases htrans : pdu.transm.trans with
    | none => exact hnone rfl rfl
    | some trans =>
        cases msgMgr with
        | none => exact hnone rfl rfl
        | some mgr =>
            cases hitcp : mgr.itcp pdu with
            | SUCCESS => simpa only [hitcp] using hnone rfl rfl
            | FORBIDDEN => simpa only [hitcp] using hnone rfl rfl
            | EXCEPTION => simpa only [hitcp] using hnone rfl rfl
            | DISABLE =>
                cases htag : trans.trans with
                | BEGIN => simpa only [hitcp, htag] using hnone rfl rfl
                | UNIDIRECTION => simpa only [hitcp, htag] using hnone rfl rfl
                | PARTIAL => simpa only [hitcp, htag] using hnone rfl rfl
                | other tag => simpa only [hitcp, htag] using hnone rfl rfl
                | END =>
                    simp only [hitcp, htag]
                    cases hended : (l.a.ch.evnEnd trans).2 with
                    | some t =>
                        unfold StreamLink.endTrans
                        simp only [htrans]
                        exact Exec.takeOut_ch _ _
                    | none =>
                        refine hnone rfl ?_
                        show (l.a.ch.evnEnd trans).1 = l.a.ch
                        unfold XmsgImChannel.evnEnd at hended ⊢
                        split at hended
                        · rfl
                        · cases hended

namespace StreamLink

variable {K : XscProto} {pb : Protobuf D M} {mgr : Bool → Option (XmsgImMsgMgr D H)}
  {pro : XscProtocolType} {s : StreamLink decode M}

/-- The receiver may reply to a heartbeat: the codec knows the PDU. -/
def KnowsPong (decode : Decode) (M : Type) (K : XscProto) : Prop :=
  ∃ w : Wired decode M, w.note = .other K.pong

/-- One pass of the receive loop is a step. -/
theorem receive_step (pb : Protobuf D M) (mgr : Bool → Option (XmsgImMsgMgr D H))
    (pro : XscProtocolType) (laws : DecodeLaws decode) (hpong : KnowsPong decode M K)
    (hwire : s.Wire) {i : Bool} (hest : s.est (!i) = true) {pdu : XscProtoPdu} {n : Nat}
    (hscan : pduScan decode (s.pipe i).buf = .item pdu n) (ctx : EvnContext U) :
    let r := evnMsg pb ctx.usr ctx.ptr ctx.gts pdu K (mgr (!i)) (s.link (!i)).a.ch
    ∃ s' : StreamLink decode M, Step U K pb mgr pro s () s' ∧
      (s'.pipe i).buf = (s.pipe i).buf.drop n ∧
      (s'.link (!i)).a.ch = r.ch ∧ s'.est (!i) = r.ret ∧
      (s'.pipe i).sent = (s.pipe i).sent ∧
      (s'.pipe i).done.map Wired.got = (s.pipe i).done.map Wired.got ++ [pdu] := by
  intro r
  obtain ⟨w, hnext, hgot, -, -⟩ := (hwire.pipe i).next (Wired.carries M laws) hscan
  have hreply : ∃ pong : List (Wired decode M),
      pong.map Wired.note = if r.pong then [.other K.pong] else [] := by
    obtain ⟨v, hv⟩ := hpong
    by_cases hp : r.pong = true
    · exact ⟨[v], by rw [if_pos hp, List.map_singleton, hv]⟩
    · exact ⟨[], by rw [if_neg hp]; rfl⟩
  obtain ⟨pong, hpong⟩ := hreply
  have hne : (!i) ≠ i := by simp
  have hpipe := received_pipe K pb s i i w.note pdu n r pong
  have hlink := received_link K pb s i (!i) w.note pdu n r pong
  have hup := received_est K pb s i (!i) w.note pdu n r pong
  rw [if_pos rfl] at hpipe
  rw [if_neg hne] at hlink hup
  refine ⟨_, .receive s i hest hscan hnext hpong, ?_, ?_, ?_, ?_, ?_⟩
  · rw [hpipe]
    rfl
  · rw [hlink]
    exact endTrans_ch K pb ctx.usr ctx.ptr ctx.gts (mgr (!i)) (s.link (!i)) pdu
  · rw [hup, hest, Bool.true_and]
  · rw [hpipe]
    rfl
  · rw [hpipe, Pipe.done_take hnext, List.map_append, List.map_singleton, hgot]

/-- Draining what has arrived is a run, from where it finds the link. -/
theorem drain_runs (laws : DecodeLaws decode) (hpong : KnowsPong decode M K) (i : Bool)
    (ctx : Nat → EvnContext U) (b : Bytes) (st : XmsgImChannel M × Nat)
    (h : Reachable (system U K pb mgr pro) Always s) (hest : s.est (!i) = true)
    (hbuf : (s.pipe i).buf = b) (hch : (s.link (!i)).a.ch = st.1) :
    let d := drain (pduScanner decode laws) (evnMsgOn pb K ctx (mgr (!i))) b st
    ∃ s' : StreamLink decode M,
      Reachable ((system U K pb mgr pro).startingAt s) Always s' ∧ (s'.pipe i).buf = d.rest ∧
      (s'.link (!i)).a.ch = d.st.1 ∧ (s'.pipe i).sent = (s.pipe i).sent ∧
      (s'.pipe i).done.map Wired.got = (s.pipe i).done.map Wired.got ++ d.items ∧
      d.stop ≠ .malformed ∧ (s'.est (!i) = true ↔ d.stop = .starved) := by
  -- `S` is the scanner of the receive loop, `f` the function it calls
  generalize hf : evnMsgOn pb K ctx (mgr (!i)) = f
  generalize hS : pduScanner decode laws = S
  have hreceive {s : StreamLink decode M} {b : Bytes} {st : XmsgImChannel M × Nat}
      {pdu : XscProtoPdu} {n : Nat} (h : Reachable (system U K pb mgr pro) Always s)
      (hest : s.est (!i) = true) (hbuf : (s.pipe i).buf = b) (hch : (s.link (!i)).a.ch = st.1)
      (hb : S.scan b = .item pdu n) :
      ∃ s', Step U K pb mgr pro s () s' ∧ (s'.pipe i).buf = b.drop n ∧
        (s'.link (!i)).a.ch = (f st pdu).1.1 ∧ s'.est (!i) = (f st pdu).2 ∧
        (s'.pipe i).sent = (s.pipe i).sent ∧
        (s'.pipe i).done.map Wired.got = (s.pipe i).done.map Wired.got ++ [pdu] := by
    subst hbuf hf hS
    obtain ⟨hwire, -⟩ := reachable_wire laws h
    have hstep := receive_step pb mgr pro laws hpong hwire hest hb (ctx st.2)
    rw [hch] at hstep
    exact hstep
  induction b, st using drain.induct S f generalizing s with
  | case1 b st hb =>
      -- the loop waits for more bytes
      rw [drain_more _ _ hb]
      refine ⟨s, .init rfl, hbuf, hch, rfl, (List.append_nil _).symm, Stop.noConfusion, ?_⟩
      rw [hest]
      exact ⟨fun _ => rfl, fun _ => rfl⟩
  | case2 b st hb =>
      -- what has arrived is what was sent, and begins with no bytes that are rejected
      obtain ⟨hwire, -⟩ := reachable_wire laws h
      refine absurd ?_ ((hwire.pipe i).not_bad (Wired.carries M laws))
      rw [hbuf, hS]
      exact hb
  | case3 b st pdu n hb ha ih =>
      obtain ⟨s', hstep, hbuf', hch', hest', hsent', hdone'⟩ := hreceive h hest hbuf hch hb
      rw [ha] at hest'
      obtain ⟨s'', hs'', hrest, hst, hsent, hitems, hstop, hup⟩ :=
        ih (h.step (a := ()) trivial hstep) hest' hbuf' hch'
      -- the run of the rest begins where this step has led
      rw [drain_accept _ _ hb ha]
      have hfirst : Reachable ((system U K pb mgr pro).startingAt s) Always s' :=
        .step (a := ()) (.init rfl) trivial hstep
      refine ⟨s'', hfirst.append hs'', hrest, hst, hsent.trans hsent', ?_, hstop, hup⟩
      rw [hitems, hdone', List.append_assoc]
      rfl
  | case4 b st pdu n hb ha =>
      have hrefused : (f st pdu).2 = false := Bool.eq_false_iff.mpr ha
      obtain ⟨s', hstep, hbuf', hch', hest', hsent', hdone'⟩ := hreceive h hest hbuf hch hb
      rw [drain_refuse _ _ hb hrefused]
      refine ⟨s', .step (a := ()) (.init rfl) trivial hstep, hbuf', hch', hsent', hdone',
        Stop.noConfusion, ?_⟩
      rw [hest', hrefused]
      exact ⟨Bool.noConfusion, Stop.noConfusion⟩

end StreamLink

/-- One call of the receive routine on an established endpoint, over whatever has arrived, is
a run from there: the PDUs it hands over are the next ones that were sent, the channel is as
`evnMsg` leaves it after them, and the bytes that are left are those the result does not
count.  It returns a negative value only when `evnMsg` has returned false for the last PDU
handed over, and for no other, and the connection is lost then. -/
theorem evnRecv_runs {K : XscProto} {pb : Protobuf D M} {mgr : Bool → Option (XmsgImMsgMgr D H)}
    {pro : XscProtocolType} (laws : DecodeLaws decode) (hpong : StreamLink.KnowsPong decode M K)
    {s : StreamLink decode M} (h : Reachable (StreamLink.system U K pb mgr pro) Always s)
    (i : Bool) (hest : s.est (!i) = true) (ctx : Nat → EvnContext U) (at_ : ActorType)
    (workerMsgMgr h2nMsgMgr : Option (XmsgImMsgMgr D H))
    (hmgr : mgr (!i) = match at_ with
      | .ACTOR_N2H => workerMsgMgr
      | .ACTOR_H2N => h2nMsgMgr) :
    let f := evnMsgOn pb K ctx (mgr (!i))
    let st := ((s.link (!i)).a.ch, 0)
    ∃ (r : Recv (XmsgImChannel M × Nat)) (s' : StreamLink decode M),
      XmsgImTcpChannel.evnRecv decode (evnMsgOn pb K ctx) at_ workerMsgMgr h2nMsgMgr
        (s.pipe i).buf st = some r ∧
      Reachable ((StreamLink.system U K pb mgr pro).startingAt s) Always s' ∧
      (s'.link (!i)).a.ch = r.st.1 ∧ r.st = handled f st r.dispatched ∧
      (s'.pipe i).done.map Wired.got = (s.pipe i).done.map Wired.got ++ r.dispatched ∧
      (s.pipe i).todo.map Wired.got = r.dispatched ++ (s'.pipe i).todo.map Wired.got ∧
      (r.ret < 0 → s'.est (!i) = false ∧ ∃ pdus pdu, r.dispatched = pdus ++ [pdu] ∧
        Accepts f st pdus ∧ (f (handled f st pdus) pdu).2 = false) ∧
      (0 ≤ r.ret → s'.est (!i) = true ∧ Accepts f st r.dispatched ∧
        (s'.pipe i).buf = (s.pipe i).buf.drop r.ret.toNat ∧
        pduScan decode (s'.pipe i).buf = .more) := by
  intro f st
  have hdrain := recvPdus_eq_drain (pduScanner_scans laws) f (s.pipe i).buf st
  obtain ⟨s', hs', hrest, hst, hsent, hdone, hstop, hup⟩ :=
    StreamLink.drain_runs laws hpong i ctx (s.pipe i).buf st h hest rfl rfl
  have hsuffix := drain_rest_suffix (pduScanner decode laws) f (s.pipe i).buf st
  have hhandled := drain_st (pduScanner decode laws) f (s.pipe i).buf st
  have hlast := @drain_refused_last _ _ _ (pduScanner decode laws) f (s.pipe i).buf st
  have haccepts := @drain_starved_accepts _ _ _ (pduScanner decode laws) f (s.pipe i).buf st
  have hmore := @drain_starved_rest _ _ _ (pduScanner decode laws) f (s.pipe i).buf st
  generalize drain (pduScanner decode laws) f (s.pipe i).buf st = d
    at hdrain hrest hst hdone hstop hup hsuffix hhandled hlast haccepts hmore
  refine ⟨⟨retOfDrain (s.pipe i).buf d, d.items, d.st⟩, s', ?_, hs', hst, hhandled, hdone, ?_,
    ?_, ?_⟩
  · simp only [f, hmgr] at hdrain
    cases at_ with
    | ACTOR_N2H => exact hdrain
    | ACTOR_H2N => exact hdrain
  · -- what was sent is the same, and more of it is taken
    have hall := congrArg (List.map Wired.got) ((s.pipe i).done_append_todo)
    rw [← hsent, ← (s'.pipe i).done_append_todo, List.map_append, List.map_append, hdone,
      List.append_assoc] at hall
    exact List.append_cancel_left hall
  · intro hneg
    -- a negative result has two causes, and bytes that are no PDU do not occur
    have hrefused : d.stop = .refused := by
      cases hd : d.stop with
      | refused => rfl
      | malformed => exact absurd hd hstop
      | starved =>
          rw [retOfDrain, hd] at hneg
          exact absurd (Int.natCast_nonneg _) (Int.not_le.mpr hneg)
    refine ⟨Bool.eq_false_iff.mpr fun hest' => ?_, hlast hrefused⟩
    rw [hup.mp hest'] at hrefused
    cases hrefused
  · intro hpos
    have hstarved : d.stop = .starved := by
      cases hd : d.stop with
      | starved => rfl
      | malformed => exact absurd hd hstop
      | refused =>
          rw [retOfDrain, hd] at hpos
          cases hpos
    refine ⟨hup.mpr hstarved, haccepts hstarved, ?_, hrest ▸ hmore hstarved⟩
    rw [hrest, retOfDrain, hstarved]
    exact List.suffix_iff_eq_drop.mp hsuffix

/-- The reply to a heartbeat as the codec of the sample knows it. -/
theorem sampleDecode_knowsPong : StreamLink.KnowsPong sampleDecode SampleMsg .sample :=
  ⟨{ note := .other XscProto.sample.pong
     bytes := [0xC0]
     got := { transm := { indicator := 0xC0, len := 1 } }
     encodes := ⟨by decide, rfl, fun r => sampleDecode_iff.mpr
       ⟨0xC0, r, rfl, by decide, Nat.le_add_left 1 r.length, rfl⟩⟩
     carried := ⟨rfl, nofun, fun _ => rfl⟩ }, rfl⟩

/-- The request has arrived and is not received yet. -/
theorem sampleArrived_reachable :
    ∃ s : StreamLink sampleDecode SampleMsg,
      Reachable (StreamLink.system String .sample samplePb sampleMgr .XSC_PROTOCOL_TCP) Always s ∧
      s.est true = true ∧ (s.pipe false).buf = [1, 0] ∧ (s.pipe false).done = [] ∧
      (s.link true).a.ch = sampleChannel := by
  have hinit : Reachable (StreamLink.system String .sample samplePb sampleMgr .XSC_PROTOCOL_TCP)
      Always sampleStart := .init fun i => ⟨⟨Exec.start_fresh _, rfl, rfl, rfl, rfl⟩, rfl⟩
  have hbegin := hinit.step (a := ()) trivial
    (@StreamLink.Step.begin_ _ _ _ _ _ _ _ _ _ _ false _ _ [sampleBeginWired]
      (.futureBegin _ (XmsgImChannel.begin_ 1 0 (.ping, [9]) none) (by decide)) rfl rfl)
  have harrived := hbegin.step (a := ()) trivial (.arrive _ false 2)
  exact ⟨_, harrived, rfl, rfl, rfl, rfl⟩

/-- The user of the channel is known and the request is handled, or it is not and `evnMsg`
refuses the request. -/
theorem evnRecv_runs_sample :
    (∃ (r : Recv (XmsgImChannel SampleMsg × Nat)) (s s' : StreamLink sampleDecode SampleMsg),
      XmsgImTcpChannel.evnRecv sampleDecode
        (evnMsgOn samplePb .sample fun n => (⟨some "alice", n, 0⟩ : EvnContext String))
        .ACTOR_N2H (sampleMgr true) none [1, 0] (sampleChannel, 0) = some r ∧ r.ret = 2 ∧
      Reachable ((StreamLink.system String .sample samplePb sampleMgr
        .XSC_PROTOCOL_TCP).startingAt s) Always s' ∧
      (s'.pipe false).done.map Wired.got = r.dispatched) ∧
    ∃ (r : Recv (XmsgImChannel SampleMsg × Nat)) (s' : StreamLink sampleDecode SampleMsg),
      XmsgImTcpChannel.evnRecv sampleDecode
        (evnMsgOn samplePb .sample fun n => (⟨none, n, 0⟩ : EvnContext String))
        .ACTOR_N2H (sampleMgr true) none [1, 0] (sampleChannel, 0) = some r ∧ r.ret = -1 ∧
      s'.est true = false ∧ ∃ pdus pdu, r.dispatched = pdus ++ [pdu] := by
  obtain ⟨s, h, hest, hbuf, hdone, hch⟩ := sampleArrived_reachable
  constructor
  · obtain ⟨r, s', hrecv, hs', -, -, hitems, -⟩ := evnRecv_runs sampleDecode_laws
      sampleDecode_knowsPong h false hest (fun n => ⟨some "alice", n, 0⟩) .ACTOR_N2H
      (sampleMgr true) none rfl
    rw [Bool.not_false, hbuf, hch] at hrecv
    rw [hdone] at hitems
    refine ⟨r, s, s', hrecv, ?_, hs', hitems⟩
    have hret : (XmsgImTcpChannel.evnRecv sampleDecode
        (evnMsgOn samplePb .sample fun n => (⟨some "alice", n, 0⟩ : EvnContext String))
        .ACTOR_N2H (sampleMgr true) none [1, 0] (sampleChannel, 0)).map (·.ret) = some 2 := by
      decide
    rw [hrecv] at hret
    exact Option.some.inj hret
  · obtain ⟨r, s', hrecv, -, -, -, -, -, hneg, -⟩ := evnRecv_runs sampleDecode_laws
      sampleDecode_knowsPong h false hest (fun n => ⟨none, n, 0⟩) .ACTOR_N2H
      (sampleMgr true) none rfl
    rw [Bool.not_false, hbuf, hch] at hrecv
    have hret : (XmsgImTcpChannel.evnRecv sampleDecode
        (evnMsgOn samplePb .sample fun n => (⟨none, n, 0⟩ : EvnContext String))
        .ACTOR_N2H (sampleMgr true) none [1, 0] (sampleChannel, 0)).map (·.ret) = some (-1) := by
      decide
    rw [hrecv] at hret
    have hret : r.ret = -1 := Option.some.inj hret
    obtain ⟨hlost, pdus, pdu, hlast, -, -⟩ := hneg (by rw [hret]; decide)
    exact ⟨r, s', hrecv, hret, hlost, pdus, pdu, hlast⟩

end XmsgImXsc
