/-
# XmsgImXsc.HttpChannel -- requests that come as HTTP headers

On an HTTP channel the name, the data and the out-of-band text of a request are header
fields.  `evnHeader` builds the BEGIN PDU of a GET request and dispatches it with a copy of
the code of `evnMsg` and `evnBegin`; of a request with another method it only keeps the
fields, and `evnBody` looks at what was kept.

`XscHttpChannel` parses the request and sets `method` before it calls `evnHeader`.  The
parts of the libraries that the channel uses are a parameter, `HttpLib`.
-/
import XmsgImXsc.Dispatch

namespace XmsgImXsc

variable {D M H U : Type}

/-! ## The channel -/

/-- What an HTTP channel uses of the libraries: the base64 decoder, the tag of a client's
out-of-band text and the indicator of a newly constructed PDU. -/
structure HttpLib where
  base64dec : Text → Bytes
  XSC_TAG_CLIENT_OOB : UInt8
  indicator : UInt8

/-- A library for the examples on fixed inputs; the decoder knows one byte. -/
def HttpLib.sample : HttpLib where
  base64dec s := if s = "CQ==" then [9] else []
  XSC_TAG_CLIENT_OOB := 0x70
  indicator := 0

/-- The header fields of a request. -/
abbrev HttpHeader := Tables.Table Text Text

/-- `header.find(name)`. -/
def HttpHeader.find (header : HttpHeader) (name : Text) : Option Text := header.lookup name

/-- The members that a request sets on the channel, which outlive the request. -/
structure XmsgImHttpChannel (M : Type) where
  base : XmsgImChannel M
  method : Text := []
  clientToken : Text := []
  msgName : Text := []
  dat : Bytes := []
  oob : Text := []

namespace XmsgImHttpChannel

/-- The first half of `evnHeader`: the name and the optional fields that are kept. -/
def keep (c : XmsgImHttpChannel M) (msgName : Text) (header : HttpHeader) :
    XmsgImHttpChannel M :=
  let c := { c with msgName := msgName }
  let c := match header.find "x-msg-client-token" with
    | some token => { c with clientToken := token }
    | none => c
  match header.find "x-msg-oob" with
  | some oob => { c with oob := oob }
  | none => c

/-- The BEGIN PDU built of the kept fields. -/
def beginPdu (lib : HttpLib) (c : XmsgImHttpChannel M) (stid : UInt32) : XscProtoPdu where
  transm := {
    indicator := lib.indicator
    header := if c.oob ≠ [] then some { oob := some [(lib.XSC_TAG_CLIENT_OOB, c.oob)] } else none
    trans := some { trans := .BEGIN, stid := stid, dat := c.dat, msg := c.msgName } }

/-- What one call of `evnHeader` does: the value it returns, the channel it leaves, the PDU
it builds, the handlers it calls and the transaction it logs with `transPassStart`. -/
structure EvnHeader (M H U : Type) where
  ret : Bool
  ch : XmsgImHttpChannel M
  pdu : Option XscProtoPdu := none
  calls : List (HandlerCall M H U) := []
  passStart : Option (XmsgImTransPassive M) := none

/-- `evnHeader`.  `usr` is `this->usr.lock()`, `ptr` the address of the new transaction and
`gts` the clock. -/
def evnHeader (lib : HttpLib) (pb : Protobuf D M) (usr : Option U) (ptr : Nat) (gts : UInt64)
    (msgMgr : Option (XmsgImMsgMgr D H)) (c : XmsgImHttpChannel M) (header : HttpHeader) :
    EvnHeader M H U :=
  match header.find "x-msg-name" with
  | none => { ret := false, ch := c }
  | some msgName =>
      let c := c.keep msgName header
      if c.method ≠ "GET" then { ret := true, ch := c }
      else
        match header.find "x-msg-dat" with
        | none => { ret := false, ch := c }
        | some dat =>
            let c := { c with dat := lib.base64dec dat }
            let (base, stid) := c.base.genTid
            let pdu := c.beginPdu lib stid
            let c := { c with base := base }
            match msgMgr with
            | none => { ret := false, ch := c, pdu := pdu }
            | some mgr =>
                match mgr.itcp pdu with
                | .SUCCESS => { ret := true, ch := c, pdu := pdu }
                | .FORBIDDEN => { ret := true, ch := c, pdu := pdu }
                | .EXCEPTION => { ret := false, ch := c, pdu := pdu }
                | .DISABLE =>
                    match mgr.getMsgStub c.msgName with
                    | none => { ret := false, ch := c, pdu := pdu }
                    | some stub =>
                        match stub.newBegin pb c.dat with
                        | none => { ret := false, ch := c, pdu := pdu }
                        | some req =>
                            let t : XmsgImTransPassive M :=
                              { XmsgImTransPassive.new ptr gts pdu with
                                beginMsg := some req, dtid := stid }
                            if !stub.auth then
                              { ret := true, ch := c, pdu := pdu, passStart := some t
                                calls := [.begin_ stub.cb .channel t req] }
                            else
                              match usr with
                              | none =>
                                  { ret := false, ch := c, pdu := pdu, passStart := some t }
                              | some u =>
                                  { ret := true, ch := c, pdu := pdu, passStart := some t
                                    calls := [.begin_ stub.cb (.usr u) t req] }

/-- `evnBody`, which looks neither at the bytes nor at `more`. -/
def evnBody (c : XmsgImHttpChannel M) (_dat : Bytes) (_more : Bool) : Bool :=
  if c.msgName = [] then false
  else if c.method ≠ "POST" then false
  else true

/-! ## What the two callbacks keep -/

section Keep

variable (c : XmsgImHttpChannel M) (msgName : Text) (header : HttpHeader)

@[simp] theorem keep_msgName : (c.keep msgName header).msgName = msgName := by
  unfold keep
  cases header.find "x-msg-client-token" <;> cases header.find "x-msg-oob" <;> rfl

@[simp] theorem keep_method : (c.keep msgName header).method = c.method := by
  unfold keep
  cases header.find "x-msg-client-token" <;> cases header.find "x-msg-oob" <;> rfl

@[simp] theorem keep_base : (c.keep msgName header).base = c.base := by
  unfold keep
  cases header.find "x-msg-client-token" <;> cases header.find "x-msg-oob" <;> rfl

@[simp] theorem keep_oob :
    (c.keep msgName header).oob = (header.find "x-msg-oob").getD c.oob := by
  unfold keep
  cases header.find "x-msg-client-token" <;> cases header.find "x-msg-oob" <;> rfl

/-- What makes `evnBody` accept: a message name and the method POST, not the bytes. -/
theorem evnBody_iff (dat : Bytes) (more : Bool) :
    c.evnBody dat more = true ↔ c.msgName ≠ [] ∧ c.method = "POST" := by
  unfold evnBody
  by_cases hname : c.msgName = [] <;> simp [hname]

end Keep

/-! ## The GET path and the binary path

Both dispatch a BEGIN the same way from the interceptor on; `getOutcome` is that common
part. -/

section Get

variable (lib : HttpLib) (pb : Protobuf D M) (usr : Option U) (ptr : Nat) (gts : UInt64)
  (msgMgr : Option (XmsgImMsgMgr D H))

/-- The dispatch of a BEGIN from the interceptor on. -/
def getOutcome (pdu : XscProtoPdu) (trans : XscProtoTransaction) : EvnBegin M H U :=
  match msgMgr with
  | none => { ret := false }
  | some mgr =>
      match mgr.itcp pdu with
      | .SUCCESS => { ret := true }
      | .FORBIDDEN => { ret := true }
      | .EXCEPTION => { ret := false }
      | .DISABLE => evnBegin pb mgr usr ptr gts pdu trans

/-- The channel when the PDU of a GET request is built. -/
def kept (c : XmsgImHttpChannel M) (msgName dat : Text) (header : HttpHeader) :
    XmsgImHttpChannel M :=
  { c.keep msgName header with dat := lib.base64dec dat }

variable {header : HttpHeader} {c : XmsgImHttpChannel M} {msgName dat : Text}

/-- A request without a name is refused, and nothing is kept. -/
theorem evnHeader_noName (hname : header.find "x-msg-name" = none) :
    evnHeader lib pb usr ptr gts msgMgr c header = { ret := false, ch := c } := by
  unfold evnHeader
  rw [hname]

/-- Of a request with another method the fields are kept, and it is accepted. -/
theorem evnHeader_notGet (hname : header.find "x-msg-name" = some msgName)
    (hmethod : c.method ≠ "GET") :
    evnHeader lib pb usr ptr gts msgMgr c header =
      { ret := true, ch := c.keep msgName header } := by
  unfold evnHeader
  rw [hname]
  simp [hmethod]

/-- A GET request without `x-msg-dat` is refused. -/
theorem evnHeader_noDat (hname : header.find "x-msg-name" = some msgName)
    (hmethod : c.method = "GET") (hdat : header.find "x-msg-dat" = none) :
    evnHeader lib pb usr ptr gts msgMgr c header =
      { ret := false, ch := c.keep msgName header } := by
  unfold evnHeader
  rw [hname]
  simp [hmethod, hdat]

/-- A GET request is dispatched as a BEGIN. -/
theorem evnHeader_get (hname : header.find "x-msg-name" = some msgName)
    (hmethod : c.method = "GET") (hdat : header.find "x-msg-dat" = some dat) :
    let k := kept lib c msgName dat header
    let pdu := k.beginPdu lib k.base.genTid.2
    ∃ trans, (pdu.transm.trans = some trans ∧ trans.trans = .BEGIN ∧ trans.msg = msgName ∧
        trans.dat = lib.base64dec dat) ∧
      evnHeader lib pb usr ptr gts msgMgr c header =
        let r := getOutcome pb usr ptr gts msgMgr pdu trans
        { ret := r.ret
          ch := { k with base := k.base.genTid.1 }
          pdu := some pdu
          calls := r.call.toList
          passStart := r.passStart } := by
  intro k pdu
  refine ⟨_, ⟨rfl, rfl, keep_msgName c msgName header, rfl⟩, ?_⟩
  have hget : ¬(c.keep msgName header).method ≠ "GET" := by
    rw [keep_method, hmethod]
    exact not_not_intro rfl
  unfold evnHeader getOutcome
  rw [hname]
  dsimp only
  rw [if_neg hget, hdat]
  cases msgMgr with
  | none => rfl
  | some mgr =>
      -- both sides look at the same interceptor result and the same stub
      show (match mgr.itcp pdu with
        | .SUCCESS => _
        | .FORBIDDEN => _
        | .EXCEPTION => _
        | .DISABLE => _) = _
      dsimp only
      cases mgr.itcp pdu with
      | SUCCESS => rfl
      | FORBIDDEN => rfl
      | EXCEPTION => rfl
      | DISABLE =>
          unfold evnBegin
          show (match mgr.getMsgStub k.msgName with | none => _ | some stub => _) = _
          dsimp only
          cases mgr.getMsgStub k.msgName with
          | none => rfl
          | some stub =>
              show (match stub.newBegin pb k.dat with | none => _ | some req => _) = _
              dsimp only
              cases stub.newBegin pb k.dat with
              | none => rfl
              | some req => cases stub.auth <;> cases usr <;> rfl

/-- The binary path dispatches a BEGIN without the PING bit in the same way. -/
theorem evnMsg_begin (K : XscProto) (base : XmsgImChannel M) {pdu : XscProtoPdu}
    {trans : XscProtoTransaction} (hping : pdu.transm.indicator &&& K.XSC_TAG_TRANSM_PING = 0)
    (htrans : pdu.transm.trans = some trans) (hbegin : trans.trans = .BEGIN) :
    let r : EvnMsg M H U := evnMsg pb usr ptr gts pdu K msgMgr base
    let o := getOutcome pb usr ptr gts msgMgr pdu trans
    r.ret = o.ret ∧ r.calls = o.call.toList ∧ r.passStart = o.passStart := by
  unfold evnMsg getOutcome
  rw [if_neg (by simpa using hping), htrans]
  cases msgMgr with
  | none => exact ⟨rfl, rfl, rfl⟩
  | some mgr =>
      dsimp only
      cases mgr.itcp pdu with
      | SUCCESS => exact ⟨rfl, rfl, rfl⟩
      | FORBIDDEN => exact ⟨rfl, rfl, rfl⟩
      | EXCEPTION => exact ⟨rfl, rfl, rfl⟩
      | DISABLE =>
          dsimp only
          rw [hbegin]
          exact ⟨rfl, rfl, rfl⟩

/-- The handler of a BEGIN sees the out-of-band list of the PDU. -/
theorem getOutcome_ioob {pdu : XscProtoPdu} {trans : XscProtoTransaction}
    {call : HandlerCall M H U}
    (h : (getOutcome pb usr ptr gts msgMgr pdu trans).call = some call) :
    call.ioob = pdu.oob := by
  unfold getOutcome at h
  cases msgMgr with
  | none => simp at h
  | some mgr =>
      cases hitcp : mgr.itcp pdu with
      | SUCCESS => simp [hitcp] at h
      | FORBIDDEN => simp [hitcp] at h
      | EXCEPTION => simp [hitcp] at h
      | DISABLE =>
          simp only [hitcp, evnBegin_fst, Option.bind_eq_some_iff, Option.map_eq_some_iff] at h
          obtain ⟨stub, -, req, -, self, -, rfl⟩ := h
          rfl

end Get

/-- The two paths have the same outcome: the same handler or none is called with the same
first argument, transaction and request message, the same transaction is logged and the
same value is returned. -/
structure EvnHeader.SameAs (h : EvnHeader M H U) (r : EvnMsg M H U) : Prop where
  calls : h.calls = r.calls
  passStart : h.passStart = r.passStart
  ret : h.ret = r.ret

/-- The GET path agrees with the binary path.  Whatever the header fields of a GET request
with a name and data, the message table, the result of the interceptor and the user of the
channel, `evnHeader` builds a BEGIN PDU of the request and has the outcome that `evnMsg` has
for that PDU. -/
theorem evnHeader_get_agrees_with_evnMsg (lib : HttpLib) (K : XscProto) (pb : Protobuf D M)
    (hnew : lib.indicator &&& K.XSC_TAG_TRANSM_PING = 0) (usr : Option U) (ptr : Nat)
    (gts : UInt64) (msgMgr : Option (XmsgImMsgMgr D H)) (c : XmsgImHttpChannel M)
    (header : HttpHeader) (hmethod : c.method = "GET") {msgName dat : Text}
    (hname : header.find "x-msg-name" = some msgName)
    (hdat : header.find "x-msg-dat" = some dat) :
    ∃ pdu trans, (evnHeader lib pb usr ptr gts msgMgr c header).pdu = some pdu ∧
      (pdu.transm.trans = some trans ∧ trans.trans = .BEGIN ∧ trans.msg = msgName ∧
        trans.dat = lib.base64dec dat) ∧
      (evnHeader lib pb usr ptr gts msgMgr c header).SameAs
        (evnMsg pb usr ptr gts pdu K msgMgr c.base) := by
  obtain ⟨trans, htrans, heq⟩ := evnHeader_get lib pb usr ptr gts msgMgr hname hmethod hdat
  obtain ⟨hret, hcalls, hstart⟩ :=
    evnMsg_begin pb usr ptr gts msgMgr K c.base hnew htrans.1 htrans.2.1
  rw [heq]
  exact ⟨_, trans, rfl, htrans, hcalls.symm, hstart.symm, hret.symm⟩

/-- A new HTTP channel. -/
def sample (method : Text) : XmsgImHttpChannel SampleMsg where
  base := (Exec.start .XSC_PROTOCOL_HTTP).ch
  method := method

/-- The header of a request with the fields `x-msg-name` and `x-msg-dat`, and with those of
`more`. -/
def sampleHeader (dat : Text) (more : HttpHeader) : HttpHeader :=
  (more.insert ("x-msg-dat" : Text) dat).insert ("x-msg-name" : Text) ("Ping" : Text)

theorem evnHeader_get_agrees_with_evnMsg_ping :
    ∃ pdu trans, (evnHeader .sample samplePb (some "alice") 1 0
        (some (RegCall.regAll samplePb sampleRegs)) (sample "GET")
        (sampleHeader "CQ==" ∅)).pdu = some pdu ∧
      (pdu.transm.trans = some trans ∧ trans.trans = .BEGIN ∧ trans.msg = "Ping" ∧
        trans.dat = HttpLib.sample.base64dec "CQ==") ∧
      (evnHeader .sample samplePb (some "alice") 1 0
        (some (RegCall.regAll samplePb sampleRegs)) (sample "GET")
        (sampleHeader "CQ==" ∅)).SameAs
        (evnMsg samplePb (some "alice") 1 0 pdu .sample
          (some (RegCall.regAll samplePb sampleRegs)) (sample "GET").base) :=
  evnHeader_get_agrees_with_evnMsg .sample .sample samplePb rfl (some "alice") 1 0
    (some (RegCall.regAll samplePb sampleRegs)) (sample "GET") (sampleHeader "CQ==" ∅) rfl
    (AList.lookup_insert _) rfl

end XmsgImHttpChannel

end XmsgImXsc
