/-
# XmsgImXsc.HttpRequests -- the requests of one HTTP connection

A connection serves any number of requests with one `XmsgImHttpChannel`.  Its members are
set when a request carries the field for them and keep their value when it does not, so
that the out-of-band text of a request is handed on to the later ones.

A request is `evnHeader` and then `evnBody` for every chunk of the body.  A body is accepted
only of a POST request, and only GET requests are dispatched.
-/
import XmsgImXsc.HttpChannel

namespace XmsgImXsc

variable {D M H U : Type}

/-! ## Requests and what is around them -/

/-- A request: the method, the header fields and the chunks of the body, each with the flag
that says whether more follow. -/
structure HttpRequest where
  method : Text
  header : HttpHeader
  body : List (Bytes × Bool) := []

namespace HttpRequest

/-- A PDU is built of the request. -/
def Builds (r : HttpRequest) : Prop :=
  r.method = "GET" ∧ (r.header.find "x-msg-name").isSome ∧
    (r.header.find "x-msg-dat").isSome

instance (r : HttpRequest) : Decidable r.Builds := inferInstanceAs (Decidable (_ ∧ _))

/-- The out-of-band text the channel keeps of the request. -/
def keptOob (r : HttpRequest) : Option Text :=
  (r.header.find "x-msg-name").bind fun _ => r.header.find "x-msg-oob"

/-- The data of the request, in a header field or in the body. -/
def data (lib : HttpLib) (r : HttpRequest) : Bytes :=
  if r.method = "GET" then lib.base64dec ((r.header.find "x-msg-dat").getD [])
  else (r.body.map (·.1)).flatten

end HttpRequest

/-- What a request finds around the channel: the user, the address of a new transaction, the
clock and the message manager; and what becomes of the rest of the channel until the next
request. -/
structure HttpEnv (D M H U : Type) where
  usr : Option U
  ptr : Nat
  gts : UInt64
  msgMgr : Option (XmsgImMsgMgr D H)
  activity : XmsgImChannel M → XmsgImChannel M

namespace XmsgImHttpChannel

variable (lib : HttpLib) (pb : Protobuf D M)

/-- The call of `evnHeader` for a request. -/
def serve (c : XmsgImHttpChannel M) (env : HttpEnv D M H U) (r : HttpRequest) :
    EvnHeader M H U :=
  evnHeader lib pb env.usr env.ptr env.gts env.msgMgr { c with method := r.method } r.header

/-- The channel after some requests. -/
def after (c : XmsgImHttpChannel M) (rs : List (HttpEnv D M H U × HttpRequest)) :
    XmsgImHttpChannel M :=
  rs.foldl (fun c r =>
    let c := (c.serve lib pb r.1 r.2).ch
    { c with base := r.1.activity c.base }) c

/-- The last out-of-band text that was kept of some requests, empty without one. -/
def lastOob (rs : List (HttpEnv D M H U × HttpRequest)) : Text :=
  ((rs.filterMap (·.2.keptOob)).getLast?).getD []

/-! ## The out-of-band text outlives its request -/

section Oob

variable (c : XmsgImHttpChannel M) (env : HttpEnv D M H U) (r : HttpRequest)

/-- What becomes of a request: it has no name, or another method, or no data, or it is
dispatched. -/
theorem serve_cases :
    (r.header.find "x-msg-name" = none ∧
      c.serve lib pb env r = { ret := false, ch := { c with method := r.method } }) ∨
    (∃ msgName, r.header.find "x-msg-name" = some msgName ∧ r.method ≠ "GET" ∧
      c.serve lib pb env r =
        { ret := true, ch := keep { c with method := r.method } msgName r.header }) ∨
    (∃ msgName, r.header.find "x-msg-name" = some msgName ∧ r.method = "GET" ∧
      r.header.find "x-msg-dat" = none ∧
      c.serve lib pb env r =
        { ret := false, ch := keep { c with method := r.method } msgName r.header }) ∨
    (∃ msgName dat trans, r.header.find "x-msg-name" = some msgName ∧ r.method = "GET" ∧
      r.header.find "x-msg-dat" = some dat ∧
      trans.msg = msgName ∧ trans.dat = lib.base64dec dat ∧
      let k := kept lib { c with method := r.method } msgName dat r.header
      let o := getOutcome pb env.usr env.ptr env.gts env.msgMgr
        (k.beginPdu lib k.base.genTid.2) trans
      c.serve lib pb env r =
        { ret := o.ret
          ch := { k with base := k.base.genTid.1 }
          pdu := some (k.beginPdu lib k.base.genTid.2)
          calls := o.call.toList
          passStart := o.passStart }) := by
  cases hname : r.header.find "x-msg-name" with
  | none => exact .inl ⟨rfl, evnHeader_noName lib pb _ _ _ _ hname⟩
  | some msgName =>
      right
      by_cases hmethod : r.method = "GET"
      · cases hdat : r.header.find "x-msg-dat" with
        | none =>
            have heq := evnHeader_noDat (c := { c with method := r.method }) lib pb env.usr env.ptr
              env.gts env.msgMgr hname hmethod hdat
            exact .inr (.inl ⟨msgName, rfl, hmethod, rfl, heq⟩)
        | some dat =>
            obtain ⟨trans, ⟨-, -, hmsg, hbody⟩, heq⟩ :=
              evnHeader_get (c := { c with method := r.method }) lib pb env.usr env.ptr env.gts
                env.msgMgr hname hmethod hdat
            exact .inr (.inr ⟨msgName, dat, trans, rfl, hmethod, rfl, hmsg, hbody, heq⟩)
      · exact .inl ⟨msgName, rfl, hmethod, evnHeader_notGet lib pb _ _ _ _ hname hmethod⟩

/-- A request leaves its own out-of-band data in the channel, or that of an earlier one. -/
theorem serve_oob : (c.serve lib pb env r).ch.oob = r.keptOob.getD c.oob := by
  unfold HttpRequest.keptOob
  rcases serve_cases lib pb c env r with ⟨hname, heq⟩ | ⟨msgName, hname, -, heq⟩ |
    ⟨msgName, hname, -, -, heq⟩ | ⟨msgName, dat, trans, hname, -, -, -, -, heq⟩
  · rw [heq, hname]
    rfl
  · rw [heq, hname]
    exact keep_oob _ msgName r.header
  · rw [heq, hname]
    exact keep_oob _ msgName r.header
  · rw [heq, hname]
    exact keep_oob _ msgName r.header

/-- After a history it is the data of the last request that had any. -/
theorem after_oob (rs : List (HttpEnv D M H U × HttpRequest)) :
    (c.after lib pb rs).oob = ((rs.filterMap (·.2.keptOob)).getLast?).getD c.oob := by
  induction rs generalizing c with
  | nil => rfl
  | cons r rs ih =>
      show (after lib pb _ rs).oob = _
      rw [ih]
      show _ = ((List.filterMap _ (r :: rs)).getLast?).getD c.oob
      rw [serve_oob, List.filterMap_cons]
      cases r.2.keptOob with
      | none => rfl
      | some oob =>
          show _ = ((oob :: _).getLast?).getD c.oob
          rw [List.getLast?_cons]
          rfl

/-- Without a PDU nothing is dispatched. -/
theorem serve_none (hnot : ¬r.Builds) :
    (c.serve lib pb env r).pdu = none ∧ (c.serve lib pb env r).calls = [] := by
  rcases serve_cases lib pb c env r with ⟨-, heq⟩ | ⟨msgName, -, -, heq⟩ |
    ⟨msgName, -, -, -, heq⟩ | ⟨msgName, dat, trans, hname, hmethod, hdat, -⟩
  · rw [heq]
    exact ⟨rfl, rfl⟩
  · rw [heq]
    exact ⟨rfl, rfl⟩
  · rw [heq]
    exact ⟨rfl, rfl⟩
  · exact absurd ⟨hmethod, by rw [hname]; rfl, by rw [hdat]; rfl⟩ hnot

/-- The PDU that is built carries the out-of-band text of the request, or else the kept
one; the handler finds it in the transaction. -/
theorem serve_pdu_some (hbuilds : r.Builds) :
    ∃ pdu, (c.serve lib pb env r).pdu = some pdu ∧
      pdu = ({ c with
        msgName := (r.header.find "x-msg-name").getD []
        dat := lib.base64dec ((r.header.find "x-msg-dat").getD [])
        oob := (r.header.find "x-msg-oob").getD c.oob }
          : XmsgImHttpChannel M).beginPdu lib c.base.genTid.2 ∧
      ∀ call ∈ (c.serve lib pb env r).calls, call.ioob = pdu.oob := by
  obtain ⟨hmethod, hname, hdat⟩ := hbuilds
  rcases serve_cases lib pb c env r with ⟨hnone, -⟩ | ⟨-, -, hnot, -⟩ |
    ⟨-, -, -, hnone, -⟩ | ⟨msgName, dat, trans, hname, -, hdat, -, -, heq⟩
  · simp [hnone] at hname
  · exact absurd hmethod hnot
  · simp [hnone] at hdat
  · rw [heq, hname, hdat]
    refine ⟨_, rfl, ?_, ?_⟩
    · unfold beginPdu kept
      rw [keep_msgName, keep_oob, keep_base]
      rfl
    · intro call hcall
      exact getOutcome_ioob pb _ _ _ _ (Option.mem_toList.mp hcall)

end Oob

/-- The PDU of a request without its stid, which the channel draws. -/
def withoutStid (pdu : XscProtoPdu) : XscProtoPdu :=
  { pdu with transm := { pdu.transm with
    trans := pdu.transm.trans.map fun trans => { trans with stid := 0 } } }

/-- Two calls of `evnHeader` agree in what they build of the request: the PDU apart from the
stid, and the out-of-band list their handlers see. -/
structure EvnHeader.Agree (e₁ e₂ : EvnHeader M H U) : Prop where
  pdu : e₁.pdu.map withoutStid = e₂.pdu.map withoutStid
  ioob : ∀ call₁ ∈ e₁.calls, ∀ call₂ ∈ e₂.calls, call₁.ioob = call₂.ioob

/-- The PDU keeps the text it was built with. -/
theorem beginPdu_oob_inj {lib : HttpLib} {c c' : XmsgImHttpChannel M} {stid stid' : UInt32}
    (h : withoutStid (c.beginPdu lib stid) = withoutStid (c'.beginPdu lib stid')) :
    c.oob = c'.oob := by
  have hheader : (c.beginPdu lib stid).transm.header = (c'.beginPdu lib stid').transm.header :=
    congrArg (fun pdu => pdu.transm.header) h
  unfold beginPdu at hheader
  dsimp only at hheader
  by_cases hc : c.oob = [] <;> by_cases hc' : c'.oob = []
  · rw [hc, hc']
  · simp [hc, hc'] at hheader
  · simp [hc, hc'] at hheader
  · simpa [hc, hc'] using hheader

/-- Requests of one connection are isolated from each other only as far as the out-of-band
text goes.  After any two histories of two connections the same request gives the same PDU,
apart from the stid, and the same out-of-band list to its handler exactly if no PDU is built
of it, or it carries an out-of-band text of its own, or the texts kept last in the two
histories are the same. -/
theorem requests_isolated_iff (base₁ base₂ : XmsgImChannel M)
    (h₁ h₂ : List (HttpEnv D M H U × HttpRequest)) (env₁ env₂ : HttpEnv D M H U)
    (r : HttpRequest) :
    EvnHeader.Agree ((after lib pb { base := base₁ } h₁).serve lib pb env₁ r)
        ((after lib pb { base := base₂ } h₂).serve lib pb env₂ r) ↔
      ¬r.Builds ∨ (r.header.find "x-msg-oob").isSome ∨ lastOob h₁ = lastOob h₂ := by
  have hoob₁ : (after lib pb { base := base₁ } h₁).oob = lastOob h₁ := after_oob lib pb _ h₁
  have hoob₂ : (after lib pb { base := base₂ } h₂).oob = lastOob h₂ := after_oob lib pb _ h₂
  generalize after lib pb { base := base₁ } h₁ = c₁ at hoob₁ ⊢
  generalize after lib pb { base := base₂ } h₂ = c₂ at hoob₂ ⊢
  rw [← hoob₁, ← hoob₂]
  by_cases hbuilds : r.Builds
  · obtain ⟨pdu₁, hpdu₁, heq₁, hcalls₁⟩ := serve_pdu_some lib pb c₁ env₁ r hbuilds
    obtain ⟨pdu₂, hpdu₂, heq₂, hcalls₂⟩ := serve_pdu_some lib pb c₂ env₂ r hbuilds
    constructor
    · -- equal PDUs have equal out-of-band texts
      intro hagree
      have hpdu := hagree.pdu
      rw [hpdu₁, hpdu₂] at hpdu
      have hinj := Option.some.inj hpdu
      rw [heq₁, heq₂] at hinj
      have htext := beginPdu_oob_inj hinj
      right
      cases hoob : r.header.find "x-msg-oob" with
      | some oob => exact .inl rfl
      | none =>
          simp only [hoob, Option.getD_none] at htext
          exact .inr htext
    · -- the text is that of the request, or what both channels have kept
      intro hcond
      have htext : (r.header.find "x-msg-oob").getD c₁.oob =
          (r.header.find "x-msg-oob").getD c₂.oob := by
        rcases hcond with hnot | hsome | heq
        · exact absurd hbuilds hnot
        · obtain ⟨oob, hoob⟩ := Option.isSome_iff_exists.mp hsome
          rw [hoob]
          rfl
        · rw [heq]
      have hsame : withoutStid pdu₁ = withoutStid pdu₂ := by
        rw [heq₁, heq₂, htext]
        rfl
      refine ⟨?_, ?_⟩
      · rw [hpdu₁, hpdu₂]
        exact congrArg some hsame
      · intro call₁ hcall₁ call₂ hcall₂
        rw [hcalls₁ call₁ hcall₁, hcalls₂ call₂ hcall₂]
        show (withoutStid pdu₁).oob = (withoutStid pdu₂).oob
        rw [hsame]
  · refine ⟨fun _ => .inl hbuilds, fun _ => ⟨?_, ?_⟩⟩
    · rw [(serve_none lib pb c₁ env₁ r hbuilds).1, (serve_none lib pb c₂ env₂ r hbuilds).1]
    · intro call₁ hcall₁
      rw [(serve_none lib pb c₁ env₁ r hbuilds).2] at hcall₁
      cases hcall₁

/-- The surroundings of the requests in the examples. -/
def sampleEnv : HttpEnv SampleType SampleMsg Nat String where
  usr := some "alice"
  ptr := 1
  gts := 0
  msgMgr := some (RegCall.regAll samplePb sampleRegs)
  activity := id

/-- A GET request with the data of `sampleHeader`. -/
def sampleGet (more : HttpHeader) : HttpRequest where
  method := "GET"
  header := sampleHeader "CQ==" more

/-- The handler of a request without an out-of-band text gets the text of the request before
it on the connection. -/
theorem requests_isolated_counterexample :
    let earlier := sampleGet ((∅ : HttpHeader).insert ("x-msg-oob" : Text) ("admin" : Text))
    let c : XmsgImHttpChannel SampleMsg := { base := (Exec.start .XSC_PROTOCOL_HTTP).ch }
    let first := (c.after .sample samplePb [(sampleEnv, earlier)]).serve .sample samplePb sampleEnv
      (sampleGet ∅)
    let second := (c.after .sample samplePb [(sampleEnv, sampleGet ∅)]).serve .sample samplePb
      sampleEnv (sampleGet ∅)
    first.calls.map (·.ioob) = [some [(HttpLib.sample.XSC_TAG_CLIENT_OOB, ("admin" : Text))]] ∧
      second.calls.map (·.ioob) = [none] ∧ ¬EvnHeader.Agree first second := by
  refine ⟨by decide, by decide, fun hagree => ?_⟩
  have hcond := (requests_isolated_iff .sample samplePb _ _ [(sampleEnv, _)] [(sampleEnv, _)]
    sampleEnv sampleEnv (sampleGet ∅)).mp hagree
  revert hcond
  decide

/-! ## Which accepted requests are dispatched -/

section Accepted

variable (c : XmsgImHttpChannel M) (env : HttpEnv D M H U) (r : HttpRequest)

/-- `evnHeader` and every call of `evnBody` return true. -/
def Accepted : Prop :=
  (c.serve lib pb env r).ret = true ∧
    ∀ chunk ∈ r.body, (c.serve lib pb env r).ch.evnBody chunk.1 chunk.2 = true

/-- The interceptor consumed or forbade the request. -/
def Intercepted : Prop :=
  ∃ mgr pdu, env.msgMgr = some mgr ∧ (c.serve lib pb env r).pdu = some pdu ∧
    (mgr.itcp pdu = .SUCCESS ∨ mgr.itcp pdu = .FORBIDDEN)

/-- One passive transaction was created for the request, with the message its data makes,
and the handler registered for its name was called with it, once. -/
def DispatchedOnce : Prop :=
  ∃ mgr stub msgName self t req, env.msgMgr = some mgr ∧
    r.header.find "x-msg-name" = some msgName ∧ mgr.getMsgStub msgName = some stub ∧
    stub.newBegin pb (r.data lib) = some req ∧ t.beginMsg = some req ∧
    (c.serve lib pb env r).passStart = some t ∧
    (c.serve lib pb env r).calls = [.begin_ stub.cb self t req]

/-- An accepted GET request was intercepted or dispatched. -/
theorem served_of_get (hmethod : r.method = "GET") (hret : (c.serve lib pb env r).ret = true) :
    c.Intercepted lib pb env r ∨ c.DispatchedOnce lib pb env r := by
  unfold Intercepted DispatchedOnce HttpRequest.data
  rcases serve_cases lib pb c env r with ⟨-, heq⟩ | ⟨-, -, hnot, -⟩ |
    ⟨msgName, -, -, -, heq⟩ | ⟨msgName, dat, trans, hname, -, hdat, hmsg, hbody, heq⟩
  · simp [heq] at hret
  · exact absurd hmethod hnot
  · simp [heq] at hret
  · rw [heq] at hret ⊢
    rw [hname, hdat]
    dsimp only at hret ⊢
    generalize kept lib { c with method := r.method } msgName dat r.header = k at hret ⊢
    generalize k.beginPdu lib k.base.genTid.2 = pdu at hret ⊢
    unfold getOutcome at hret ⊢
    cases hmgr : env.msgMgr with
    | none => simp [hmgr] at hret
    | some mgr =>
        cases hitcp : mgr.itcp pdu with
        | SUCCESS => exact .inl ⟨mgr, pdu, rfl, rfl, .inl hitcp⟩
        | FORBIDDEN => exact .inl ⟨mgr, pdu, rfl, rfl, .inr hitcp⟩
        | EXCEPTION => simp [hmgr, hitcp] at hret
        | DISABLE =>
            right
            simp only [hmgr, hitcp] at hret
            obtain ⟨stub, self, t, req, hstub, hreq, hbegin, hstart, hcall⟩ :=
              evnBegin_accepts pb mgr env.usr env.ptr env.gts pdu trans hret
            rw [hmsg] at hstub
            rw [hbody] at hreq
            refine ⟨mgr, stub, msgName, self, t, req, rfl, rfl, hstub, ?_, hbegin, ?_, ?_⟩
            · rw [if_pos hmethod]
              exact hreq
            · simp only [hitcp]
              exact hstart
            · simp only [hitcp, hcall]
              rfl

/-- A request with another method is accepted unless it has no name, or has a body and is no
POST request or has an empty name. -/
theorem accepted_iff_of_not_get (hmethod : r.method ≠ "GET") :
    c.Accepted lib pb env r ↔
      ¬(r.header.find "x-msg-name" = none ∨
        (r.body ≠ [] ∧ (r.method ≠ "POST" ∨ r.header.find "x-msg-name" = some []))) := by
  unfold Accepted
  rcases serve_cases lib pb c env r with ⟨hname, heq⟩ | ⟨msgName, hname, -, heq⟩ |
    ⟨-, -, hget, -⟩ | ⟨-, -, -, -, hget, -⟩
  · rw [heq, hname]
    simp
  · rw [heq, hname]
    simp only [true_and, evnBody_iff, keep_msgName, keep_method]
    constructor
    · rintro hall (hnone | ⟨hbody, hbad⟩)
      · cases hnone
      · obtain ⟨chunk, hchunk⟩ := List.exists_mem_of_ne_nil _ hbody
        obtain ⟨hne, hpost⟩ := hall chunk hchunk
        rcases hbad with hbad | hempty
        · exact hbad hpost
        · exact hne (Option.some.inj hempty)
    · intro hnot chunk hchunk
      have hbody : r.body ≠ [] := List.ne_nil_of_mem hchunk
      refine ⟨fun hempty => hnot (.inr ⟨hbody, .inr (congrArg some hempty)⟩), ?_⟩
      by_contra hpost
      exact hnot (.inr ⟨hbody, .inl hpost⟩)
  · exact absurd hget hmethod
  · exact absurd hget hmethod

/-- An accepted HTTP request is intercepted or dispatched once exactly if it is a GET
request.  A request with another method is accepted without a trace; it is refused only
when it has no name, or when a chunk of a body arrives and the method is not POST or the
name is empty. -/
theorem accepted_served_iff :
    (c.Accepted lib pb env r → c.Intercepted lib pb env r ∨ c.DispatchedOnce lib pb env r) ↔
      r.method = "GET" ∨ r.header.find "x-msg-name" = none ∨
        (r.body ≠ [] ∧ (r.method ≠ "POST" ∨ r.header.find "x-msg-name" = some [])) := by
  by_cases hmethod : r.method = "GET"
  · exact ⟨fun _ => .inl hmethod, fun _ hacc => served_of_get lib pb c env r hmethod hacc.1⟩
  · have hnone := serve_none lib pb c env r (fun hbuilds => hmethod hbuilds.1)
    have hserved : ¬(c.Intercepted lib pb env r ∨ c.DispatchedOnce lib pb env r) := by
      rintro (⟨mgr, pdu, -, hpdu, -⟩ | ⟨mgr, stub, msgName, self, t, req, -, -, -, -, -, -, hcalls⟩)
      · rw [hnone.1] at hpdu
        cases hpdu
      · rw [hnone.2] at hcalls
        cases hcalls
    constructor
    · intro himp
      right
      by_contra hnot
      exact hserved (himp ((accepted_iff_of_not_get lib pb c env r hmethod).mpr hnot))
    · intro hcond hacc
      have hrefused := (accepted_iff_of_not_get lib pb c env r hmethod).mp hacc
      rcases hcond with hget | hcond
      · exact absurd hget hmethod
      · exact absurd hcond hrefused

end Accepted

/-- A POST request with a name and a body is accepted and dropped. -/
theorem accepted_served_counterexample :
    let c : XmsgImHttpChannel SampleMsg := { base := (Exec.start .XSC_PROTOCOL_HTTP).ch }
    let r : HttpRequest :=
      { method := "POST", header := (∅ : HttpHeader).insert ("x-msg-name" : Text) ("Ping" : Text)
        body := [([9], false)] }
    c.Accepted .sample samplePb sampleEnv r ∧
      ¬(c.Intercepted .sample samplePb sampleEnv r ∨
        c.DispatchedOnce .sample samplePb sampleEnv r) := by
  intro c r
  have hpost : r.method ≠ "GET" := by decide
  have hacc : c.Accepted .sample samplePb sampleEnv r := by
    refine ⟨by decide, ?_⟩
    decide
  refine ⟨hacc, fun hserved => ?_⟩
  have hcond := (accepted_served_iff .sample samplePb c sampleEnv r).mp (fun _ => hserved)
  revert hcond
  decide

end XmsgImHttpChannel

end XmsgImXsc
