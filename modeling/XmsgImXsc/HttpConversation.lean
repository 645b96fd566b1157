/-
# XmsgImXsc.HttpConversation -- requests and answers on one HTTP connection

A response carries nothing that says which request it answers.  What a client can go by is
the order, and the channel does not keep it by itself: a handler ends its transaction when it
likes, and the closures of ended transactions are executed in the order in which they were
queued.

`HttpConn` is one connection with the passive transactions its requests led to, and the bytes
of the responses sent so far.  In every run each handled request is answered at most once and
the responses are those of the executed closures.  When the client waits, so that no request
comes while a transaction is open, the responses are in the order of the requests.
-/
import XmsgImXsc.HttpRequests
import XmsgImXsc.HttpRsp

namespace XmsgImXsc

open Lts Wire XmsgImTransPassive XmsgImHttpChannel

variable {D M H U F : Type}

/-! ## One connection -/

/-- A passive transaction: the number of its request, and the end function that its handler
has called, if it has, whose closure is queued. -/
structure HttpTrans (M : Type) where
  no : Nat
  trans : XmsgImTransPassive M
  call : Option (EndCall M) := none

/-- The channel, the requests so far, the numbers of those for which a handler was called, the
transactions not finished yet, the finished ones with the end function that was called, and
the bodies of the responses. -/
structure HttpConn (M : Type) where
  ch : XmsgImHttpChannel M
  est : Bool := true
  requests : List HttpRequest := []
  handled : List Nat := []
  open_ : List (HttpTrans M) := []
  ended : List (Nat × EndCall M) := []
  sent : List Bytes := []

/-- What happens on a connection: a request comes, or something else. -/
inductive HttpAct where
  | request
  | other
  deriving DecidableEq

namespace HttpConn

variable (lib : HttpLib) (K : XscProto) (pb : Protobuf D M)

/-- `evnHeader` and the calls of `evnBody` for a request.  When one returns false the
connection is closed. -/
def request (s : HttpConn M) (env : HttpEnv D M H U) (r : HttpRequest) : HttpConn M :=
  let o := s.ch.serve lib pb env r
  let created := o.calls.filterMap HandlerCall.passive
  { s with
    ch := { o.ch with base := env.activity o.ch.base }
    est := o.ret && r.body.all fun chunk => o.ch.evnBody chunk.1 chunk.2
    requests := s.requests ++ [r]
    handled := s.handled ++ created.map fun _ => s.requests.length
    open_ := s.open_ ++ created.map fun t => { no := s.requests.length, trans := t } }

/-- One step. -/
inductive Step (H U : Type) (W : Runtime F) (preserve : Bool) :
    HttpConn M → HttpAct → HttpConn M → Prop
  | request (s) (env : HttpEnv D M H U) (r) : s.est = true →
      Step H U W preserve s .request (s.request lib pb env r)
  /-- A handler ends its transaction, after it has set other fields of it. -/
  | handlerEnd (s) {l₁ l₂ : List (HttpTrans M)} {p : HttpTrans M}
      {trans : XmsgImTransPassive M} (call : EndCall M) : s.open_ = l₁ ++ p :: l₂ →
      p.call = none → trans.Fresh → trans.ptr = p.trans.ptr → trans.dtid = p.trans.dtid →
      Step H U W preserve s .other { s with
        open_ := l₁ ++ { p with trans := trans.endCall K call, call := some call } :: l₂ }
  /-- The closure of an ended transaction is executed, which may close the connection. -/
  | runEnd (s) {l₁ l₂ : List (HttpTrans M)} {p : HttpTrans M} {call : EndCall M} {c : Bool} :
      s.open_ = l₁ ++ p :: l₂ → p.call = some call →
      (.close ∈ p.trans.endClosure K pb .XSC_PROTOCOL_HTTP s.est → c = true) →
      Step H U W preserve s .other { s with
        est := s.est && !c
        open_ := l₁ ++ l₂
        ended := s.ended ++ [(p.no, call)]
        sent := s.sent ++ (p.trans.endClosure K pb .XSC_PROTOCOL_HTTP s.est).filterMap
          (Out.sentBytes W preserve) }
  /-- The connection is lost. -/
  | lost (s) : Step H U W preserve s .other { s with est := false }

/-- The runs of a new connection. -/
def system (H U : Type) (W : Runtime F) (preserve : Bool) : System (HttpConn M) HttpAct where
  init s := ∃ base, s = { ch := { base := base } }
  step := Step lib K pb H U W preserve

/-- The client waits: no request comes while a transaction is open. -/
def Waits (s : HttpConn M) (a : HttpAct) : Prop := a = .request → s.open_ = []

/-- The answers, as the end functions that were called ask for them; a failure is not
answered. -/
def answers (s : HttpConn M) : List XmsgImHttpRsp :=
  (s.ended.filter fun e => e.2.ret K ≠ K.RET_FAILURE).map fun e => e.2.rsp K pb

/-! ## What holds in every run -/

section Inv

variable {lib : HttpLib} {K : XscProto} {pb : Protobuf D M} {W : Runtime F} {preserve : Bool}
  {s s' : HttpConn M} {a : HttpAct}

/-- A request leads to no transaction, or to one when a PDU is built of it. -/
theorem created_cases (lib : HttpLib) (pb : Protobuf D M) (c : XmsgImHttpChannel M)
    (env : HttpEnv D M H U) (r : HttpRequest) :
    (c.serve lib pb env r).calls.filterMap HandlerCall.passive = [] ∨
      r.Builds ∧ ∃ t, (c.serve lib pb env r).calls.filterMap HandlerCall.passive = [t] := by
  by_cases hbuilds : r.Builds
  · rcases XmsgImHttpChannel.serve_cases lib pb c env r with ⟨-, heq⟩ | ⟨msgName, -, -, heq⟩ |
      ⟨msgName, -, -, -, heq⟩ | ⟨msgName, dat, trans, -, -, -, -, -, heq⟩
    · exact .inl (by rw [heq]; rfl)
    · exact .inl (by rw [heq]; rfl)
    · exact .inl (by rw [heq]; rfl)
    · rw [heq]
      dsimp only
      generalize XmsgImHttpChannel.getOutcome pb env.usr env.ptr env.gts env.msgMgr _ trans = o
      cases hcall : o.call with
      | none => exact .inl rfl
      | some call =>
          cases call with
          | begin_ cb self t req => exact .inr ⟨hbuilds, t, rfl⟩
          | unidirection cb self t uni => exact .inl rfl
  · left
    rw [(XmsgImHttpChannel.serve_none lib pb c env r hbuilds).2]
    rfl

/-- The bytes of the answers. -/
def written (W : Runtime F) (preserve : Bool) (rsps : List XmsgImHttpRsp) : List Bytes :=
  rsps.map fun rsp => rsp.toPb.serialize W preserve

/-- What the requests of a connection, their transactions and the bytes sent have to do with
each other. -/
structure Inv (K : XscProto) (pb : Protobuf D M) (W : Runtime F) (preserve : Bool)
    (s : HttpConn M) : Prop where
  handled : s.handled.Pairwise (· < ·)
  known : ∀ n ∈ s.handled, ∃ r, s.requests[n]? = some r ∧ r.Builds
  /-- A handled request has one transaction, open or finished. -/
  balance : (s.ended.map (·.1) ++ s.open_.map (·.no)).Perm s.handled
  /-- The closure that is queued finds what the end function asked for. -/
  queued : ∀ p ∈ s.open_, ∀ call, p.call = some call →
    p.trans.ret = call.ret K ∧ p.trans.rsp pb = call.rsp K pb
  sent : s.sent <+: written W preserve (s.answers K pb)
  up : s.est = true → s.sent = written W preserve (s.answers K pb)

/-- A request adds one handler call at most, and sends nothing. -/
theorem Inv.request (h : s.Inv K pb W preserve) (hest : s.est = true)
    (env : HttpEnv D M H U) (r : HttpRequest) :
    (s.request lib pb env r).Inv K pb W preserve := by
  have hlast (n : Nat) (hn : n ∈ s.handled) : n < s.requests.length := by
    obtain ⟨r', hr', -⟩ := h.known n hn
    exact (List.getElem?_eq_some_iff.mp hr').1
  have hold (n : Nat) (hn : n ∈ s.handled) :
      ∃ r', (s.requests ++ [r])[n]? = some r' ∧ r'.Builds := by
    obtain ⟨r', hr', hbuilds⟩ := h.known n hn
    exact ⟨r', by rw [List.getElem?_append_left (hlast n hn), hr'], hbuilds⟩
  unfold HttpConn.request
  dsimp only
  rcases created_cases lib pb s.ch env r with hnone | ⟨hbuilds, t, hone⟩
  · rw [hnone]
    refine ⟨?_, ?_, ?_, ?_, h.sent, fun _ => h.up hest⟩
    · exact (List.append_nil s.handled).symm ▸ h.handled
    · intro n hn
      exact hold n (by simpa using hn)
    · simpa using h.balance
    · simpa using h.queued
  · rw [hone]
    refine ⟨?_, ?_, ?_, ?_, h.sent, fun _ => h.up hest⟩
    · refine List.pairwise_append.mpr ⟨h.handled, List.pairwise_singleton _ _, ?_⟩
      intro n hn m hm
      rw [List.mem_singleton.mp hm]
      exact hlast n hn
    · intro n hn
      rcases List.mem_append.mp hn with hmem | hnew
      · exact hold n hmem
      · rw [List.mem_singleton.mp hnew]
        exact ⟨r, List.getElem?_concat_length, hbuilds⟩
    · show (s.ended.map (·.1) ++ (s.open_ ++ [_]).map HttpTrans.no).Perm (s.handled ++ [_])
      rw [List.map_append, ← List.append_assoc]
      exact h.balance.append_right _
    · intro p hp call hcall
      rcases List.mem_append.mp hp with hmem | hnew
      · exact h.queued p hmem call hcall
      · rw [List.mem_singleton.mp hnew] at hcall
        cases hcall

/-- A handler that ends its transaction leaves what its closure will find. -/
theorem Inv.handlerEnd (h : s.Inv K pb W preserve) {l₁ l₂ : List (HttpTrans M)}
    {p : HttpTrans M} {trans : XmsgImTransPassive M} (call : EndCall M)
    (hsplit : s.open_ = l₁ ++ p :: l₂) (hfresh : trans.Fresh) :
    Inv K pb W preserve { s with
      open_ := l₁ ++ { p with trans := trans.endCall K call, call := some call } :: l₂ } := by
  refine ⟨h.handled, h.known, ?_, ?_, h.sent, h.up⟩
  · have hbalance := h.balance
    rw [hsplit, List.map_append, List.map_cons] at hbalance
    rw [List.map_append, List.map_cons]
    exact hbalance
  · intro q hq call' hcall'
    rcases List.mem_append.mp hq with hmem | hmem
    · exact h.queued q (hsplit ▸ List.mem_append_left _ hmem) call' hcall'
    · rcases List.mem_cons.mp hmem with rfl | hmem
      · obtain rfl := Option.some.inj hcall'
        exact ⟨endCall_ret K trans call, hfresh.endCall_rsp K pb call⟩
      · exact h.queued q (hsplit ▸ List.mem_append_right _ (List.mem_cons_of_mem _ hmem)) call'
          hcall'

/-- The closure sends the answer that was asked for. -/
theorem Inv.runEnd (h : s.Inv K pb W preserve) {l₁ l₂ : List (HttpTrans M)} {p : HttpTrans M}
    {call : EndCall M} {c : Bool} (hsplit : s.open_ = l₁ ++ p :: l₂) (hcall : p.call = some call) :
    Inv K pb W preserve { s with
      est := s.est && !c
      open_ := l₁ ++ l₂
      ended := s.ended ++ [(p.no, call)]
      sent := s.sent ++ (p.trans.endClosure K pb .XSC_PROTOCOL_HTTP s.est).filterMap
        (Out.sentBytes W preserve) } := by
  obtain ⟨hret, hrsp⟩ := h.queued p (hsplit ▸ List.mem_append_right _ List.mem_cons_self) call hcall
  let s' : HttpConn M := { s with ended := s.ended ++ [(p.no, call)] }
  have hanswers : s'.answers K pb =
      s.answers K pb ++ (if call.ret K ≠ K.RET_FAILURE then [call.rsp K pb] else []) := by
    show ((s.ended ++ [(p.no, call)]).filter _).map _ = _
    rw [List.filter_append, List.map_append]
    congr 1
    by_cases hfail : call.ret K = K.RET_FAILURE <;> simp [hfail]
  have hbytes : (p.trans.endClosure K pb .XSC_PROTOCOL_HTTP s.est).filterMap
      (Out.sentBytes W preserve) = if s.est = true then
        written W preserve (if call.ret K ≠ K.RET_FAILURE then [call.rsp K pb] else [])
      else [] := by
    rw [sentBytes_endClosure, hret, hrsp]
    cases s.est with
    | false => rfl
    | true => by_cases hfail : call.ret K = K.RET_FAILURE <;> simp [hfail, written]
  have hnow : s.est = true → s.sent ++ (p.trans.endClosure K pb .XSC_PROTOCOL_HTTP s.est).filterMap
      (Out.sentBytes W preserve) = written W preserve (s'.answers K pb) := by
    intro hest
    rw [hbytes, if_pos hest, hanswers, h.up hest]
    exact List.map_append.symm
  refine ⟨h.handled, h.known, ?_, ?_, ?_, ?_⟩
  · have hbalance := h.balance
    rw [hsplit, List.map_append, List.map_cons] at hbalance
    refine List.Perm.trans ?_ hbalance
    rw [List.map_append, List.map_append, List.append_assoc]
    have hmove : (p.no :: (l₁.map (·.no) ++ l₂.map (·.no))).Perm
        (l₁.map (·.no) ++ p.no :: l₂.map (·.no)) := List.perm_middle.symm
    exact hmove.append_left _
  · intro q hq call' hcall'
    refine h.queued q ?_ call' hcall'
    rw [hsplit]
    rcases List.mem_append.mp hq with hmem | hmem
    · exact List.mem_append_left _ hmem
    · exact List.mem_append_right _ (List.mem_cons_of_mem _ hmem)
  · show s.sent ++ _ <+: written W preserve (s'.answers K pb)
    -- on a connection that is down nothing more is sent, while the answers go on
    by_cases hest : s.est = true
    · exact ⟨[], (List.append_nil _).trans (hnow hest)⟩
    · rw [hbytes, if_neg hest, List.append_nil, hanswers]
      refine h.sent.trans ?_
      show written W preserve _ <+: List.map _ _
      rw [List.map_append]
      exact List.prefix_append _ _
  · intro hup
    exact hnow (Bool.and_eq_true_iff.mp hup).1

theorem Step.inv (h : s.Inv K pb W preserve) (hstep : Step lib K pb H U W preserve s a s') :
    s'.Inv K pb W preserve := by
  cases hstep with
  | request env r hest => exact h.request hest env r
  | handlerEnd call hsplit _ hfresh _ _ => exact h.handlerEnd call hsplit hfresh
  | runEnd hsplit hcall _ => exact h.runEnd hsplit hcall
  | lost => exact ⟨h.handled, h.known, h.balance, h.queued, h.sent, fun hup => by cases hup⟩

theorem reachable_inv {G : HttpConn M → HttpAct → Prop}
    (h : Reachable (system lib K pb H U W preserve) G s) : s.Inv K pb W preserve := by
  refine h.invariant ?_ (fun s a s' hinv _ hstep => hstep.inv hinv)
  rintro s ⟨base, rfl⟩
  refine ⟨.nil, ?_, List.Perm.refl _, ?_, List.prefix_refl _, fun _ => rfl⟩
  · intro n hn
    cases hn
  · intro p hp
    cases hp

/-! ## A client that waits -/

/-- One transaction is open at a time, and the finished ones are in the order of their
requests. -/
structure InOrder (s : HttpConn M) : Prop where
  one : s.open_.length ≤ 1
  order : s.ended.map (·.1) ++ s.open_.map (·.no) = s.handled

/-- A client that waits has one request under way at most. -/
theorem InOrder.step (h : s.InOrder) (hwait : Waits s a)
    (hstep : Step lib K pb H U W preserve s a s') : s'.InOrder := by
  cases hstep with
  | request env r _ =>
      have hnil : s.open_ = [] := hwait rfl
      have horder := h.order
      rw [hnil, List.map_nil, List.append_nil] at horder
      unfold HttpConn.request
      dsimp only
      rcases created_cases lib pb s.ch env r with hnone | ⟨-, t, hone⟩
      · rw [hnone, hnil]
        refine ⟨Nat.zero_le 1, ?_⟩
        simpa using horder
      · rw [hone, hnil]
        refine ⟨Nat.le_refl 1, ?_⟩
        simpa using horder
  | @handlerEnd l₁ l₂ p trans call hsplit _ _ _ _ =>
      have hone := h.one
      have horder := h.order
      rw [hsplit] at hone horder
      refine ⟨?_, ?_⟩
      · simpa using hone
      · simpa using horder
  | @runEnd l₁ l₂ p call c hsplit _ _ =>
      -- the closure that is executed is the only one
      have hone := h.one
      have horder := h.order
      rw [hsplit, List.length_append, List.length_cons] at hone
      have hleft : l₁ = [] := List.eq_nil_of_length_eq_zero (by omega)
      have hright : l₂ = [] := List.eq_nil_of_length_eq_zero (by omega)
      subst hleft hright
      rw [hsplit] at horder
      refine ⟨Nat.zero_le 1, ?_⟩
      simpa using horder
  | lost => exact ⟨h.one, h.order⟩

end Inv

end HttpConn

section Answers

variable {lib : HttpLib} {K : XscProto} {pb : Protobuf D M} {W : Runtime F} {preserve : Bool}
  {s : HttpConn M}

end Answers

/-! A client that does not wait: its second request is answered first, and the first one with
a text that is not UTF-8.  Then one that waits: its second request comes when the first has
been answered. -/

end XmsgImXsc
