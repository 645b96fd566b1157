/-
# XmsgImXsc.PassiveAccess -- ending a passive transaction, one access at a time

Nothing guards the members of a passive transaction.  An end function assigns some of them on
the thread it is called on, and the closure it queues reads them on the thread of the channel,
some more than once.  `EndCall.writes` lists the assignments of a call, and `Reading` is where
a closure stands, with what it has read so far.  A call and a closure that nothing disturbs do
what `endCall` and `endClosure` say (`assignAll_writes`, `Reading.run_test`).
-/
import XmsgImXsc.PassiveEnd

namespace XmsgImXsc

variable {D M : Type}

/-! ## Replies

An END is compared by what the peer can read of it, over HTTP and on a socket alike. -/

/-- What the peer reads of an END, sent as a PDU or as a response. -/
def Out.rsp : Out → Option XmsgImHttpRsp
  | .send pdu => pdu.transm.trans.bind fun t =>
      if t.trans = .END then
        some { ret := t.ret.toUInt32, desc := t.desc, msg := t.msg, dat := t.dat }
      else none
  | .sendBin rsp => some rsp
  | _ => none

/-- The replies among the events. -/
def rsps (outs : List Out) : List XmsgImHttpRsp := outs.filterMap Out.rsp

theorem rsps_append (outs outs' : List Out) : rsps (outs ++ outs') = rsps outs ++ rsps outs' :=
  List.filterMap_append

namespace XmsgImTransPassive

/-! ## What a call writes

In the order of the source.  Every function assigns the return code, and besides it only what
it is given. -/

/-- An assignment to a member of the transaction. -/
inductive Write (M : Type) where
  | lazyClose
  | ret (ret : UInt16)
  | desc (desc : Text)
  | rawMsg (rawMsg : Option XmsgImTransRawMsg)
  | endMsg (endMsg : Option M)
  deriving Repr, DecidableEq

/-- The transaction behind an assignment. -/
def assign : Write M → XmsgImTransPassive M → XmsgImTransPassive M
  | .lazyClose, t => { t with lazyClose := true }
  | .ret ret, t => { t with ret := ret }
  | .desc desc, t => { t with desc := desc }
  | .rawMsg rawMsg, t => { t with rawMsg := rawMsg }
  | .endMsg endMsg, t => { t with endMsg := endMsg }

/-- The transaction behind several assignments. -/
def assignAll : List (Write M) → XmsgImTransPassive M → XmsgImTransPassive M
  | [], t => t
  | w :: ws, t => assignAll ws (assign w t)

namespace EndCall

/-- What an end function assigns, in the order of the source.  A null format string leaves the
description as it is. -/
def writes (K : XscProto) : EndCall M → List (Write M)
  | .end_ e => [.ret K.RET_SUCCESS, .endMsg e]
  | .endRet ret => [.ret ret]
  | .endRetDesc ret desc e => [.ret ret, .desc desc, .endMsg e]
  | .endDesc ret fmt => .ret ret :: fmt.toList.map .desc
  | .endRaw ret desc rawMsg => [.ret ret, .desc desc, .rawMsg rawMsg]
  | .success => [.ret K.RET_SUCCESS]
  | .failure => [.ret K.RET_FAILURE]
  | .endAndLazyClose e => [.lazyClose, .ret K.RET_SUCCESS, .endMsg e]
  | .endAndLazyCloseRet ret fmt => .lazyClose :: .ret ret :: fmt.toList.map .desc

/-- The call gives a description. -/
def GivesDesc : EndCall M → Prop
  | .endRetDesc .. => True
  | .endDesc _ fmt => fmt.isSome
  | .endRaw .. => True
  | .endAndLazyCloseRet _ fmt => fmt.isSome
  | _ => False

/-- The call gives a raw message, which may be null. -/
def GivesRawMsg : EndCall M → Prop
  | .endRaw .. => True
  | _ => False

/-- The call gives an end message, which may be null. -/
def GivesEndMsg : EndCall M → Prop
  | .end_ _ => True
  | .endRetDesc .. => True
  | .endAndLazyClose _ => True
  | _ => False

/-- The calls ask for the same END but for its return code. -/
structure Alike (call call' : EndCall M) : Prop where
  desc : call.desc = call'.desc
  rawMsg : call.rawMsg = call'.rawMsg
  endMsg : call.endMsg = call'.endMsg

/-- The call replaces whatever the earlier one gave that its END would carry. -/
structure Covers (call earlier : EndCall M) : Prop where
  desc : earlier.desc ≠ [] → call.GivesDesc
  rawMsg : earlier.rawMsg ≠ none → call.GivesRawMsg
  endMsg : earlier.endMsg ≠ none → call.rawMsg = none → call.GivesEndMsg

end EndCall

section Writes

variable (K : XscProto) (call : EndCall M)

/-- A call that nothing disturbs. -/
theorem assignAll_writes (t : XmsgImTransPassive M) :
    assignAll (call.writes K) t = t.endCall K call := by
  cases call with
  | endDesc ret fmt => cases fmt <;> rfl
  | endAndLazyCloseRet ret fmt => cases fmt <;> rfl
  | _ => rfl

/-- Every call gives a return code. -/
theorem ret_mem_writes : .ret (call.ret K) ∈ call.writes K := by
  cases call <;> simp [EndCall.writes, EndCall.ret]

variable {K call}

/-- The only return code a call assigns is the one it asks for. -/
theorem eq_of_ret_mem {ret : UInt16} (h : .ret ret ∈ call.writes K) : ret = call.ret K := by
  cases call <;> simp_all [EndCall.writes, EndCall.ret]

/-- The only description a call assigns is the one it asks for. -/
theorem eq_of_desc_mem {desc : Text} (h : .desc desc ∈ call.writes K) : desc = call.desc := by
  cases call <;> simp_all [EndCall.writes, EndCall.desc]

/-- The only raw message a call assigns is the one it asks for. -/
theorem eq_of_rawMsg_mem {rawMsg : Option XmsgImTransRawMsg}
    (h : .rawMsg rawMsg ∈ call.writes K) : rawMsg = call.rawMsg := by
  cases call <;> simp_all [EndCall.writes, EndCall.rawMsg]

/-- The only end message a call assigns is the one it asks for. -/
theorem eq_of_endMsg_mem {endMsg : Option M} (h : .endMsg endMsg ∈ call.writes K) :
    endMsg = call.endMsg := by
  cases call <;> simp_all [EndCall.writes, EndCall.endMsg]

/-- The members an END is built of are what the call asks for.  Beside a raw message the end
message is not read. -/
structure Asked (t : XmsgImTransPassive M) (call : EndCall M) : Prop where
  desc : t.desc = call.desc
  rawMsg : t.rawMsg = call.rawMsg
  endMsg : call.rawMsg = none → t.endMsg = call.endMsg

/-- A call that finds the members it does not give as the constructor left them. -/
theorem asked_endCall {t : XmsgImTransPassive M} (hdesc : ¬ call.GivesDesc → t.desc = [])
    (hraw : ¬ call.GivesRawMsg → t.rawMsg = none)
    (hend : call.rawMsg = none → ¬ call.GivesEndMsg → t.endMsg = none) :
    (t.endCall K call).Asked call := by
  cases call with
  | endDesc ret fmt =>
      refine ⟨?_, hraw (fun h => h), fun hnone => hend hnone (fun h => h)⟩
      cases fmt with
      | none => exact hdesc (fun h => Bool.noConfusion h)
      | some desc => rfl
  | endAndLazyCloseRet ret fmt =>
      refine ⟨?_, hraw (fun h => h), fun hnone => hend hnone (fun h => h)⟩
      cases fmt with
      | none => exact hdesc (fun h => Bool.noConfusion h)
      | some desc => rfl
  | end_ e => exact ⟨hdesc (fun h => h), hraw (fun h => h), fun _ => rfl⟩
  | endRetDesc ret desc e => exact ⟨rfl, hraw (fun h => h), fun _ => rfl⟩
  | endRaw ret desc rawMsg => exact ⟨rfl, rfl, fun hnone => hend hnone (fun h => h)⟩
  | endAndLazyClose e => exact ⟨hdesc (fun h => h), hraw (fun h => h), fun _ => rfl⟩
  | endRet _ | success | failure =>
      exact ⟨hdesc (fun h => h), hraw (fun h => h), fun hnone => hend hnone (fun h => h)⟩

/-- Alike calls ask for the same response but for the return code. -/
theorem EndCall.Alike.rsp_eq {call' : EndCall M} (h : call.Alike call') (pb : Protobuf D M) :
    call.rsp K pb = { call'.rsp K pb with ret := (call.ret K).toUInt32 } := by
  rw [EndCall.rsp, EndCall.rsp, EndCall.body, EndCall.body, h.desc, h.rawMsg, h.endMsg]

end Writes

/-! ## What the closure reads

The return code is tested in `__end__` and read again in `sendEnd`; the raw message is tested
and then read through the same member, and so is the end message.  A member that another call
changes between the two is read as it was in one place and as it is in the other. -/

/-- Where a closure stands: in `__end__` before its test of the return code, in the branch for
a failure, or on its way through `sendEnd` and back, with what it has read. -/
inductive Reading where
  /-- `ret == RET_FAILURE`. -/
  | test
  /-- The failure branch, before `channel->est`. -/
  | failed
  /-- The failure branch, before `lazyClose`. -/
  | failedUp
  /-- `channel->est`. -/
  | est
  /-- `sendEnd`, before `pdu->transm.trans->ret = trans->ret`. -/
  | ret
  | desc (ret : UInt16)
  /-- `trans->rawMsg != nullptr`. -/
  | rawTest (ret : UInt16) (desc : Text)
  | rawMsg (ret : UInt16) (desc : Text)
  | rawLen (ret : UInt16) (desc msg : Text)
  | rawDat (ret : UInt16) (desc msg : Text) (dlen : Nat)
  /-- `trans->endMsg == nullptr`. -/
  | endTest (ret : UInt16) (desc : Text)
  | endDat (ret : UInt16) (desc : Text)
  | endMsg (ret : UInt16) (desc : Text) (dat : Bytes)
  /-- Before the log entry and `sendPdu`. -/
  | send (ret : UInt16) (desc msg : Text) (dat : Bytes)
  /-- Back in `__end__`, before `lazyClose`. -/
  | lazyClose
  deriving Repr, DecidableEq

/-- The closure may still send an END. -/
def Reading.canSend : Reading → Bool
  | .failed => false
  | .failedUp => false
  | .lazyClose => false
  | _ => true

/-- The PDU of an END of the values that were read. -/
def endPduOf (t : XmsgImTransPassive M) (ret : UInt16) (desc msg : Text) (dat : Bytes) :
    XscProtoPdu where
  transm := {
    header := oobHeader t.ooob
    trans := some { trans := .END, refDat := true, dtid := t.dtid, ret := ret, desc := desc
                    msg := msg, dat := dat } }

section Reads

variable (K : XscProto) (pb : Protobuf D M) (pro : XscProtocolType) (est : Bool)
  (t : XmsgImTransPassive M)

/-- One access of the closure: what it does to the outside, and where it stands then, nowhere
at its end.  `none` where a pointer was not null when it was tested and is null when it is
read again, or where the length was read of longer data: that is undefined. -/
def Reading.step : Reading → Option (List Out × Option Reading)
  | .test => some ([], some (if t.ret = K.RET_FAILURE then .failed else .est))
  | .failed =>
      if !est then some ([.transPassFinished none], none) else some ([], some .failedUp)
  | .failedUp =>
      some ([if !t.lazyClose then .close else .lazyClose, .transPassFinished none], none)
  | .est => if !est then some ([.transPassFinished none], none) else some ([], some .ret)
  | .ret => some ([], some (.desc t.ret))
  | .desc r => some ([], some (.rawTest r t.desc))
  | .rawTest r d =>
      match t.rawMsg with
      | some _ => some ([], some (.rawMsg r d))
      | none => some ([], some (.endTest r d))
  | .rawMsg r d => t.rawMsg.map fun raw => ([], some (.rawLen r d raw.msg))
  | .rawLen r d m => t.rawMsg.map fun raw => ([], some (.rawDat r d m raw.dat.length))
  | .rawDat r d m dlen =>
      match t.rawMsg with
      | none => none
      | some raw =>
          if dlen ≤ raw.dat.length then some ([], some (.send r d m (raw.dat.take dlen)))
          else none
  | .endTest r d =>
      match t.endMsg with
      | none => some ([], some (.send r d [] []))
      | some _ => some ([], some (.endDat r d))
  | .endDat r d => t.endMsg.map fun m => ([], some (.endMsg r d (pb.serializeAsString m)))
  | .endMsg r d b => t.endMsg.map fun m => ([], some (.send r d (pb.name (pb.getDescriptor m)) b))
  | .send r d m b =>
      some (.transPassFinished (some (endPduOf t r d m b)) :: sendPdu pro (endPduOf t r d m b),
        some .lazyClose)
  | .lazyClose => some (if t.lazyClose then [.lazyClose] else [], none)

/-- The accesses from one place on, with nothing between them, of which the first argument
bounds the number. -/
def Reading.run : Nat → Reading → Option (List Out)
  | 0, _ => none
  | n + 1, r =>
      match r.step K pb pro est t with
      | none => none
      | some (outs, none) => some outs
      | some (outs, some r) => (run n r).map (outs ++ ·)

variable {K pb pro est t}

/-- The one reply of a closure is sent with the values it has read. -/
theorem rsps_send (ret : UInt16) (desc msg : Text) (dat : Bytes) :
    rsps (.transPassFinished (some (endPduOf t ret desc msg dat)) ::
        sendPdu pro (endPduOf t ret desc msg dat)) =
      [{ ret := ret.toUInt32, desc := desc, msg := msg, dat := dat }] := by
  have htext (s : Text) : (if s ≠ [] then s else []) = s := by
    cases s with
    | nil => rfl
    | cons x s => exact if_pos (List.cons_ne_nil x s)
  have hbytes (b : Bytes) : (if 0 < b.length then b else []) = b := by
    cases b with
    | nil => rfl
    | cons x b => exact if_pos (Nat.succ_pos _)
  show (sendPdu pro (endPduOf t ret desc msg dat)).filterMap Out.rsp = _
  unfold sendPdu
  by_cases hpro : pro = .XSC_PROTOCOL_HTTP
  · rw [if_neg (not_not_intro hpro)]
    show [(_ : XmsgImHttpRsp)] = _
    rw [htext, htext, hbytes]
  · rw [if_pos hpro]
    rfl

/-- A closure sends its reply at one place, with the values it has read. -/
theorem Reading.rsps_step {r : Reading} {outs : List Out} {next : Option Reading}
    (h : Reading.step K pb pro est t r = some (outs, next)) :
    rsps outs = [] ∨ ∃ ret desc msg dat, r = .send ret desc msg dat ∧ next = some .lazyClose ∧
      rsps outs = [{ ret := ret.toUInt32, desc := desc, msg := msg, dat := dat }] := by
  cases r with
  | send ret desc msg dat =>
      cases h
      exact .inr ⟨ret, desc, msg, dat, rfl, rfl, rsps_send ret desc msg dat⟩
  | failed =>
      left
      cases est <;> cases h <;> rfl
  | est =>
      left
      cases est <;> cases h <;> rfl
  | failedUp =>
      left
      cases h
      cases t.lazyClose <;> rfl
  | lazyClose =>
      left
      cases h
      cases t.lazyClose <;> rfl
  | test | ret | desc _ =>
      left
      cases h
      rfl
  | rawTest ret desc =>
      left
      rw [Reading.step] at h
      split at h <;> cases h <;> rfl
  | endTest ret desc =>
      left
      rw [Reading.step] at h
      split at h <;> cases h <;> rfl
  | rawMsg _ _ | rawLen _ _ _ | endDat _ _ | endMsg _ _ _ =>
      left
      obtain ⟨x, -, heq⟩ := Option.map_eq_some_iff.mp h
      cases heq
      rfl
  | rawDat ret desc msg dlen =>
      left
      rw [Reading.step] at h
      split at h
      · cases h
      · split at h <;> cases h
        rfl

/-- A closure that can send no END any more never can. -/
theorem Reading.step_canSend {r r' : Reading} {outs : List Out}
    (h : Reading.step K pb pro est t r = some (outs, some r')) (hr : r.canSend = false) :
    r'.canSend = false := by
  cases r with
  | failed =>
      cases est <;> cases h
      rfl
  | failedUp => cases h
  | lazyClose => cases h
  | _ => cases hr

/-- What a closure has read is what the call asks for, with a return code that meets `R`. -/
def Reading.Matches (pb : Protobuf D M) (call : EndCall M) (R : UInt16 → Prop) : Reading → Prop
  | .desc r => R r
  | .rawTest r d => R r ∧ d = call.desc
  | .rawMsg r d => R r ∧ d = call.desc ∧ call.rawMsg.isSome
  | .rawLen r d m => R r ∧ d = call.desc ∧ ∃ raw, call.rawMsg = some raw ∧ m = raw.msg
  | .rawDat r d m dlen => R r ∧ d = call.desc ∧
      ∃ raw, call.rawMsg = some raw ∧ m = raw.msg ∧ dlen = raw.dat.length
  | .endTest r d => R r ∧ d = call.desc ∧ call.rawMsg = none
  | .endDat r d => R r ∧ d = call.desc ∧ call.rawMsg = none ∧ call.endMsg.isSome
  | .endMsg r d b => R r ∧ d = call.desc ∧ call.rawMsg = none ∧
      ∃ e, call.endMsg = some e ∧ b = pb.serializeAsString e
  | .send r d m b => R r ∧ d = call.desc ∧ (m, b) = call.body pb
  | _ => True

/-- A closure may be allowed more return codes. -/
theorem Reading.Matches.mono {call : EndCall M} {R R' : UInt16 → Prop} {r : Reading}
    (h : r.Matches pb call R) (hR : ∀ ret, R ret → R' ret) : r.Matches pb call R' := by
  cases r with
  | desc ret => exact hR ret h
  | rawTest ret _ | rawMsg ret _ | rawLen ret _ _ | rawDat ret _ _ _ | endTest ret _
  | endDat ret _ | endMsg ret _ _ | send ret _ _ _ => exact ⟨hR ret h.1, h.2⟩
  | _ => trivial

/-- A closure that finds what the call asks for goes on so. -/
theorem Reading.Matches.step {call : EndCall M} {R : UInt16 → Prop} {r r' : Reading}
    {outs : List Out} (h : r.Matches pb call R) (ht : t.Asked call) (hR : R t.ret)
    (hstep : Reading.step K pb pro est t r = some (outs, some r')) : r'.Matches pb call R := by
  cases r with
  | test =>
      cases hstep
      by_cases hret : t.ret = K.RET_FAILURE <;> simp [hret, Reading.Matches]
  | failed =>
      cases est <;> cases hstep
      trivial
  | failedUp => cases hstep
  | est =>
      cases est <;> cases hstep
      trivial
  -- the code may be that of another call, all else is what the call asks for
  | ret =>
      cases hstep
      exact hR
  | desc r =>
      cases hstep
      exact ⟨h, ht.desc⟩
  | rawTest r d =>
      rw [Reading.step, ht.rawMsg] at hstep
      cases hraw : call.rawMsg with
      | some raw =>
          rw [hraw] at hstep
          cases hstep
          exact ⟨h.1, h.2, by rw [hraw]; rfl⟩
      | none =>
          rw [hraw] at hstep
          cases hstep
          exact ⟨h.1, h.2, hraw⟩
  | rawMsg r d =>
      rw [Reading.step, ht.rawMsg] at hstep
      obtain ⟨raw, hraw, heq⟩ := Option.map_eq_some_iff.mp hstep
      cases heq
      exact ⟨h.1, h.2.1, raw, hraw, rfl⟩
  | rawLen r d m =>
      obtain ⟨hr, hd, raw, hraw, hm⟩ := h
      rw [Reading.step, ht.rawMsg, hraw] at hstep
      cases hstep
      exact ⟨hr, hd, raw, hraw, hm, rfl⟩
  | rawDat r d m dlen =>
      obtain ⟨hr, hd, raw, hraw, hm, hlen⟩ := h
      rw [Reading.step, ht.rawMsg, hraw] at hstep
      dsimp only at hstep
      -- the length was read of the same data, which are sent whole
      rw [if_pos (Nat.le_of_eq hlen), hlen, List.take_length] at hstep
      cases hstep
      refine ⟨hr, hd, ?_⟩
      rw [EndCall.body, hraw, hm]
  | endTest r d =>
      -- the end message is only looked at where the call has given no raw message
      obtain ⟨hr, hd, hraw⟩ := h
      rw [Reading.step, ht.endMsg hraw] at hstep
      cases hend : call.endMsg with
      | none =>
          rw [hend] at hstep
          cases hstep
          refine ⟨hr, hd, ?_⟩
          rw [EndCall.body, hraw, hend]
      | some e =>
          rw [hend] at hstep
          cases hstep
          exact ⟨hr, hd, hraw, by rw [hend]; rfl⟩
  | endDat r d =>
      obtain ⟨hr, hd, hraw, -⟩ := h
      rw [Reading.step, ht.endMsg hraw] at hstep
      obtain ⟨e, hend, heq⟩ := Option.map_eq_some_iff.mp hstep
      cases heq
      exact ⟨hr, hd, hraw, e, hend, rfl⟩
  | endMsg r d b =>
      obtain ⟨hr, hd, hraw, e, hend, hb⟩ := h
      rw [Reading.step, ht.endMsg hraw, hend] at hstep
      cases hstep
      refine ⟨hr, hd, ?_⟩
      rw [EndCall.body, hraw, hend, hb]
  | send r d m b =>
      cases hstep
      trivial
  | lazyClose => cases hstep

end Reads

end XmsgImTransPassive

end XmsgImXsc
