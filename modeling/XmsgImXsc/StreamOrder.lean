/-
# XmsgImXsc.StreamOrder -- requests are handled once and in order

On a byte stream nothing is delivered twice and nothing overtakes.  Four lists of the requests
of an endpoint are compared, from the transactions it has begun to the handler calls of the
other one, and each is a sublist of the one before:

* begun and recorded as sent: on a socket the same (`BegunInv`), over HTTP nothing is sent;
* recorded as sent and put on the stream: the same while the endpoint is established, since
  `sendPdu` on a lost channel sends nothing (`SentInv`);
* put on the stream and taken off it: a prefix, by the library (`Pipe.done_sublist`);
* taken off the stream and handled: the same while no interceptor takes a PDU and the
  receiver is established, since the channel is closed where `evnMsg` returns false
  (`Handles`).

`KeptWhile` is the relation of all four, a sublist that is everything under a condition.  The
first part gives that requests are handed to handlers in the order they were begun, each at
most once (`requests_handled_in_order`).  The second part, that none is left out, is used by
`StreamAnswer`, and the responses are compared in the same way.
-/
import XmsgImXsc.StreamLink

namespace XmsgImXsc

open Lts Scanning

variable {D M H U : Type} {decode : Decode}

/-! ## Lists that agree while a condition holds -/

/-- `xs` is `ys` with some of it left out, and with none while `p`. -/
structure KeptWhile {α : Type} (p : Prop) (xs ys : List α) : Prop where
  sublist : xs.Sublist ys
  eq : p → xs = ys

namespace KeptWhile

variable {α : Type} {p q : Prop} {xs ys as bs : List α}

/-- Nothing left out. -/
theorem refl (p : Prop) (xs : List α) : KeptWhile p xs xs := ⟨List.Sublist.refl xs, fun _ => rfl⟩

/-- Everything left out, which the condition must not hold for. -/
theorem nil (h : ¬p) (ys : List α) : KeptWhile p [] ys :=
  ⟨List.nil_sublist ys, fun hp => absurd hp h⟩

/-- What is left out of two parts is left out of the whole. -/
theorem append (h : KeptWhile p xs ys) (h' : KeptWhile p as bs) :
    KeptWhile p (xs ++ as) (ys ++ bs) :=
  ⟨h.sublist.append h'.sublist, fun hp => by rw [h.eq hp, h'.eq hp]⟩

/-- A condition may be replaced by a stronger one. -/
theorem mono (h : KeptWhile p xs ys) (hqp : q → p) : KeptWhile q xs ys :=
  ⟨h.sublist, fun hq => h.eq (hqp hq)⟩

end KeptWhile

/-- A list of at most one element is its own reverse. -/
theorem reverse_of_length_le_one {α : Type} {xs : List α} (h : xs.length ≤ 1) :
    xs.reverse = xs := by
  match xs, h with
  | [], _ => rfl
  | [_], _ => rfl

/-- `sendBegin` sends one PDU at most. -/
theorem length_sentPdus_sendBegin_le (pb : Protobuf D M) (pro : XscProtocolType)
    (trans : XmsgImTransInitiative M) : (sentPdus (sendBegin pb pro trans)).length ≤ 1 := by
  unfold sendBegin
  cases beginPdu pb trans with
  | none => exact Nat.zero_le 1
  | some pdu =>
      show (sentPdus (sendPdu pro pdu)).length ≤ 1
      rw [sentPdus_sendPdu]
      split <;> simp

/-- A closure sends one PDU at most. -/
theorem length_sentPdus_endClosure_le (K : XscProto) (pb : Protobuf D M)
    (pro : XscProtocolType) (est : Bool) (trans : XmsgImTransPassive M) :
    (sentPdus (trans.endClosure K pb pro est)).length ≤ 1 := by
  rw [sentPdus_endClosure]
  split <;> simp

/-! ## What passes to the handlers

`evnMsg` also returns true for heartbeats and for what an interceptor has taken, which no
handler sees.  For a BEGIN that reaches the dispatch its result tells whether a handler was
called. -/

/-- The interceptor of a manager, if it has one, lets every PDU pass. -/
def NoItcp (msgMgr : Option (XmsgImMsgMgr D H)) : Prop :=
  ∀ m, msgMgr = some m → ∀ pdu, m.itcp pdu = .DISABLE

section EvnMsg

variable {pb : Protobuf D M} {usr : Option U} {ptr : Nat} {gts : UInt64} {pdu : XscProtoPdu}
  {K : XscProto} {msgMgr : Option (XmsgImMsgMgr D H)} {c : XmsgImChannel M}

/-- A PDU with a transaction layer that is no heartbeat is dispatched, or makes `evnMsg`
return false, when no interceptor takes it. -/
theorem dispatched_of_ret (hitcp : NoItcp msgMgr)
    (hping : pdu.transm.indicator &&& K.XSC_TAG_TRANSM_PING = 0) {got : XscProtoTransaction}
    (hgot : pdu.transm.trans = some got)
    (hret : (evnMsg pb usr ptr gts pdu K msgMgr c).ret = true) :
    ∃ m, Dispatched pdu K msgMgr m got := by
  cases hmgr : msgMgr with
  | none =>
      unfold evnMsg at hret
      rw [if_neg (not_not_intro hping), hgot, hmgr] at hret
      cases hret
  | some m => exact ⟨m, hping, hgot, rfl, hitcp m hmgr pdu⟩

/-- The dispatch of a BEGIN fails exactly when no handler is called. -/
theorem evnBegin_ret (m : XmsgImMsgMgr D H) (got : XscProtoTransaction) :
    (evnBegin pb m usr ptr gts pdu got).ret = (evnBegin pb m usr ptr gts pdu got).call.isSome := by
  unfold evnBegin
  cases m.getMsgStub got.msg with
  | none => rfl
  | some stub =>
      dsimp only
      cases stub.newBegin pb got.dat with
      | none => rfl
      | some req =>
          cases stub.auth with
          | false => rfl
          | true => cases usr <;> rfl

end EvnMsg

namespace StreamLink

variable {K : XscProto} {pb : Protobuf D M} {mgr : Bool → Option (XmsgImMsgMgr D H)}
  {pro : XscProtocolType} {s s' : StreamLink decode M}

/-! ## What is sent

A step adds to the stream of an endpoint, and to the records of its requests and responses.
One lemma says what it adds (`Step.sends`), and `SentInv` follows without another look at the
steps. -/

/-- An endpoint that is lost stays lost. -/
theorem Step.est_le (hstep : Step U K pb mgr pro s () s') (k : Bool)
    (h : s'.est k = true) : s.est k = true := by
  -- `est` only changes in `closeIf`
  have hclose {s₀ : StreamLink decode M} {i : Bool} {c : Bool} (hs₀ : s₀.est = s.est)
      (h : (s₀.closeIf i c).est k = true) : s.est k = true := by
    rw [closeIf_est, hs₀] at h
    split at h
    · rename_i hk
      subst hk
      exact (Bool.and_eq_true_iff.mp h).1
    · exact h
  cases hstep with
  | begin_ i =>
      rw [send_est] at h
      exact h
  | arrive => exact h
  | receive i => exact hclose (by rw [send_est]; rfl) h
  | reject => exact hclose rfl h
  | handlerEnd => exact h
  | runEnd i => exact hclose (by rw [send_est]; rfl) h
  | other i =>
      rw [send_est] at h
      exact h
  | local_ => exact h
  | lost => exact hclose rfl h

/-- What a step adds to the stream of endpoint `k` and to the records of what it sent: the
requests `bs` of `k` and the responses `es` of `k` to the other endpoint. -/
structure Sends (s s' : StreamLink decode M) (k : Bool) (ws : List (Wired decode M))
    (bs : List (BeginSent M)) (es : List (EndSent M)) : Prop where
  sent : (s'.pipe k).sent = (s.pipe k).sent ++ ws
  begins : (s'.link k).begins = bs ++ (s.link k).begins
  /-- The responses of `k` are on record with the requests of the other endpoint. -/
  ends : (s'.link (!k)).ends = es ++ (s.link (!k)).ends
  /-- Records are kept latest first, the stream is in the order of sending. -/
  beginsOnWire : KeptWhile (s.est k = true) (ws.filterMap Wired.begin?) bs.reverse
  endsOnWire : KeptWhile (s.est k = true) (ws.filterMap Wired.end?) es.reverse

/-- A step that sends nothing of endpoint `k`. -/
theorem Sends.none {k : Bool} (hsent : (s'.pipe k).sent = (s.pipe k).sent)
    (hbegins : (s'.link k).begins = (s.link k).begins)
    (hends : (s'.link (!k)).ends = (s.link (!k)).ends) : Sends s s' k [] [] [] where
  sent := by rw [hsent, List.append_nil]
  begins := hbegins
  ends := hends
  beginsOnWire := .refl _ _
  endsOnWire := .refl _ _

/-- Which PDUs are BEGINs is seen from the notes. -/
theorem filterMap_begin? (ws : List (Wired decode M)) :
    ws.filterMap Wired.begin? = (ws.map Wired.note).filterMap Note.begin? :=
  (List.filterMap_map ..).symm

/-- So is which PDUs are ENDs. -/
theorem filterMap_end? (ws : List (Wired decode M)) :
    ws.filterMap Wired.end? = (ws.map Wired.note).filterMap Note.end? :=
  (List.filterMap_map ..).symm

/-- What is put on the streams: nothing by an endpoint that is lost. -/
theorem send_sent (s : StreamLink decode M) (i k : Bool) (ws : List (Wired decode M)) :
    ((s.send i ws).pipe k).sent =
      (s.pipe k).sent ++ if k = i ∧ s.est i = true then ws else [] := by
  rw [send_pipe]
  split
  · rename_i h
    rw [h.1]
    rfl
  · rw [List.append_nil]

/-- The notes of BEGINs. -/
theorem notes_begin {ws : List (Wired decode M)} {bs : List (BeginSent M)}
    (hws : ws.map Wired.note = bs.map .begin_) :
    ws.filterMap Wired.begin? = bs ∧ ws.filterMap Wired.end? = [] := by
  rw [filterMap_begin?, filterMap_end?, hws]
  rw [List.filterMap_map, List.filterMap_map]
  exact ⟨List.filterMap_some, List.filterMap_none bs⟩

/-- The notes of ENDs. -/
theorem notes_end {ws : List (Wired decode M)} {es : List (EndSent M)}
    (hws : ws.map Wired.note = es.map .end_) :
    ws.filterMap Wired.begin? = [] ∧ ws.filterMap Wired.end? = es := by
  rw [filterMap_begin?, filterMap_end?, hws]
  rw [List.filterMap_map, List.filterMap_map]
  exact ⟨List.filterMap_none es, List.filterMap_some⟩

/-- The notes of other PDUs. -/
theorem notes_other {ws : List (Wired decode M)} (hws : ∀ w ∈ ws, w.note.IsOther) :
    ws.filterMap Wired.begin? = [] ∧ ws.filterMap Wired.end? = [] := by
  have hnote (note : Note M) (h : note.IsOther) : note.begin? = none ∧ note.end? = none := by
    cases note with
    | other pdu => exact ⟨rfl, rfl⟩
    | begin_ x => exact h.elim
    | end_ x => exact h.elim
  exact ⟨List.filterMap_eq_nil_iff.mpr fun w hw => (hnote _ (hws w hw)).1,
    List.filterMap_eq_nil_iff.mpr fun w hw => (hnote _ (hws w hw)).2⟩

/-- A step that puts `ws` on the stream of endpoint `j`, for the requests `b` and the
responses `e`. -/
theorem Sends.of_send {s₀ : StreamLink decode M} {j k : Bool} {ws : List (Wired decode M)}
    {b : List (BeginSent M)} {e : List (EndSent M)}
    (hb : ws.filterMap Wired.begin? = b.reverse) (he : ws.filterMap Wired.end? = e.reverse)
    (hpipe : s'.pipe = (s₀.send j ws).pipe)
    (hsent : ∀ k, (s₀.pipe k).sent = (s.pipe k).sent) (hest : s₀.est = s.est)
    (hself : k = j → (s'.link k).begins = b ++ (s.link k).begins ∧
      (s'.link (!k)).ends = e ++ (s.link (!k)).ends)
    (hother : k ≠ j → (s'.link k).begins = (s.link k).begins ∧
      (s'.link (!k)).ends = (s.link (!k)).ends) :
    ∃ ws bs es, Sends s s' k ws bs es := by
  have hpipe : (s'.pipe k).sent = _ := congrArg (fun f => (f k).sent) hpipe
  rw [send_sent, hsent, hest] at hpipe
  by_cases hk : k = j
  · obtain ⟨hbegins, hends⟩ := hself hk
    subst hk
    -- what an endpoint that is lost sends is on record and not on the wire
    by_cases hup : s.est k = true
    · rw [if_pos ⟨rfl, hup⟩] at hpipe
      exact ⟨ws, b, e, hpipe, hbegins, hends, hb ▸ .refl _ _, he ▸ .refl _ _⟩
    · rw [if_neg fun h => hup h.2] at hpipe
      exact ⟨[], b, e, hpipe, hbegins, hends, .nil hup _, .nil hup _⟩
  · obtain ⟨hbegins, hends⟩ := hother hk
    rw [if_neg fun h => hk h.1, List.append_nil] at hpipe
    exact ⟨[], [], [], .none hpipe hbegins hends⟩

/-- What is sent in reply to a heartbeat. -/
theorem pong_isOther {b : Bool} {pong : List (Wired decode M)}
    (hpong : pong.map Wired.note = if b then [.other K.pong] else []) :
    ∀ w ∈ pong, w.note.IsOther := by
  intro w hw
  have hnote : w.note ∈ pong.map Wired.note := List.mem_map_of_mem hw
  rw [hpong] at hnote
  split at hnote
  · rw [List.mem_singleton.mp hnote]
    intro t ht
    cases ht
  · cases hnote

/-- Replacing a link by one that agrees with it on `f`. -/
theorem setLink_same {α : Type} (s : StreamLink decode M) (i k : Bool) {l : Link M}
    (f : Link M → α) (hf : f l = f (s.link i)) :
    f ((s.setLink i l).link k) = f (s.link k) := by
  rw [setLink_link]
  split
  · rename_i hk
    rw [hf, hk]
  · rfl

/-- Every step sends what it has on record, in the same order. -/
theorem Step.sends (hstep : Step U K pb mgr pro s () s') (k : Bool) :
    ∃ ws bs es, Sends s s' k ws bs es := by
  cases hstep with
  | @begin_ i trans a ws hbegin _ hws =>
      obtain ⟨hbegins, hends⟩ := notes_begin hws
      have hlen := length_sentPdus_sendBegin_le pb (s.link i).a.ch.pro
        ((s.link i).a.ch.futureBegin trans).2
      refine Sends.of_send (e := []) (hbegins.trans (reverse_of_length_le_one ?_).symm) hends rfl
        (fun _ => rfl) rfl ?_ ?_
      · rw [List.length_map]
        exact hlen
      -- the BEGIN is on record on the link of its sender
      · rintro rfl
        rw [send_link, setLink_link, if_pos rfl]
        exact ⟨rfl, setLink_same s k (!k) Link.ends rfl⟩
      · intro hk
        rw [send_link, setLink_link, if_neg hk]
        exact ⟨rfl, setLink_same s i (!k) Link.ends rfl⟩
  | arrive i n =>
      refine ⟨[], [], [], .none ?_ rfl rfl⟩
      rw [setPipe_pipe]
      split
      · rename_i hk
        rw [hk, Pipe.arrive_sent]
      · rfl
  | @receive i w pdu n pong usr ptr gts _ _ _ hpong =>
      -- a heartbeat may be answered, which is neither a BEGIN nor an END
      obtain ⟨hnobegin, hnoend⟩ := notes_other (pong_isOther hpong)
      have hrecords (k : Bool) := received_records K pb s i k w.note pdu n
        (evnMsg pb usr ptr gts pdu K (mgr (!i)) (s.link (!i)).a.ch) pong
      refine Sends.of_send (b := []) (e := []) hnobegin hnoend rfl ?_ rfl
        (fun _ => ⟨(hrecords k).1, (hrecords (!k)).2⟩)
        (fun _ => ⟨(hrecords k).1, (hrecords (!k)).2⟩)
      intro k
      show ((s.setPipe i ((s.pipe i).take n)).pipe k).sent = (s.pipe k).sent
      rw [setPipe_pipe]
      split
      · rename_i hk
        rw [hk, Pipe.take_sent]
      · rfl
  | reject => exact ⟨[], [], [], .none rfl rfl rfl⟩
  | handlerEnd i =>
      exact ⟨[], [], [], .none rfl (setLink_same s i k Link.begins rfl)
        (setLink_same s i (!k) Link.ends rfl)⟩
  | @runEnd i l₁ l₂ p ws c _ _ _ hws =>
      obtain ⟨hbegins, hends⟩ := notes_end hws
      have hlen := length_sentPdus_endClosure_le K pb pro (s.est (!i)) p.trans
      refine Sends.of_send (b := []) hbegins (hends.trans (reverse_of_length_le_one ?_).symm) rfl
        (fun _ => rfl) rfl ?_ ?_
      · rw [List.length_map]
        exact hlen
      · rintro rfl
        -- the END is on record on the link of the request it answers
        rw [closeIf_link, send_link, Bool.not_not, setLink_link _ i i, if_pos rfl]
        exact ⟨setLink_same s i (!i) Link.begins rfl, rfl⟩
      · intro hk
        have hki : (!k) ≠ i := fun h => hk (by rw [← h, Bool.not_not])
        rw [closeIf_link, send_link, setLink_link _ i (!k), if_neg hki]
        exact ⟨setLink_same s i k Link.begins rfl, rfl⟩
  | other i hws =>
      obtain ⟨hnobegin, hnoend⟩ := notes_other hws
      exact Sends.of_send (b := []) (e := []) hnobegin hnoend rfl (fun _ => rfl) rfl
        (fun _ => by rw [send_link]; exact ⟨rfl, rfl⟩)
        (fun _ => by rw [send_link]; exact ⟨rfl, rfl⟩)
  | local_ i =>
      exact ⟨[], [], [], .none rfl (setLink_same s i k Link.begins rfl)
        (setLink_same s i (!k) Link.ends rfl)⟩
  | lost => exact ⟨[], [], [], .none rfl rfl rfl⟩

/-- What endpoint `k` sent is on record, and while it is established all that is on record
was put on its stream. -/
structure SentInv (s : StreamLink decode M) (k : Bool) : Prop where
  /-- The requests of `k`, -/
  begins : KeptWhile (s.est k = true) ((s.pipe k).sent.filterMap Wired.begin?)
    (s.link k).begins.reverse
  /-- and its responses to the other endpoint, which go over the same stream. -/
  ends : KeptWhile (s.est k = true) ((s.pipe k).sent.filterMap Wired.end?)
    (s.link (!k)).ends.reverse

/-- The records of a step are added in front and its PDUs behind. -/
theorem SentInv.step {k : Bool} (h : s.SentInv k) (hstep : Step U K pb mgr pro s () s') :
    s'.SentInv k := by
  obtain ⟨ws, bs, es, hsends⟩ := hstep.sends k
  constructor
  · rw [hsends.sent, hsends.begins, List.filterMap_append, List.reverse_append]
    exact (h.begins.append hsends.beginsOnWire).mono (hstep.est_le k)
  · rw [hsends.sent, hsends.ends, List.filterMap_append, List.reverse_append]
    exact (h.ends.append hsends.endsOnWire).mono (hstep.est_le k)

/-! ## What is handled

Only `receive` takes something off a stream, and what it takes off is what the note of the PDU
says it was sent for. -/

/-- What a step adds to the requests of `k` that were handled, and to what was taken off its
stream. -/
structure Handles (mgr : Bool → Option (XmsgImMsgMgr D H)) (s s' : StreamLink decode M)
    (k : Bool) (xs : List (BeginSent M)) (ws : List (Wired decode M)) : Prop where
  passive : (s'.link k).passive.map (·.request) = xs ++ (s.link k).passive.map (·.request)
  done : (s'.pipe k).done = (s.pipe k).done ++ ws
  /-- Nothing is passed over by a receiver that is still established behind the step. -/
  kept : KeptWhile (NoItcp (mgr (!k)) ∧ s'.est (!k) = true) xs.reverse
    (ws.filterMap Wired.begin?)

/-- A step that handles nothing. -/
theorem Handles.none {k : Bool}
    (hpassive : (s'.link k).passive.map (·.request) = (s.link k).passive.map (·.request))
    (hdone : (s'.pipe k).done = (s.pipe k).done) : Handles mgr s s' k [] [] where
  passive := hpassive
  done := by rw [hdone, List.append_nil]
  kept := .refl _ _

/-- Sending takes nothing off a stream. -/
theorem done_send (h : ∀ k, (s.pipe k).Inv Wired.bytes) {s₀ : StreamLink decode M}
    {i k : Bool} {ws : List (Wired decode M)} (hs₀ : s₀.pipe = s.pipe) :
    ((s₀.send i ws).pipe k).done = (s.pipe k).done := by
  rw [send_pipe, hs₀]
  split
  · rename_i hk
    rw [(h i).done_send, hk.1]
  · rfl

/-- A BEGIN that is received and not refused is dispatched as a BEGIN. -/
theorem Noted.dispatched {i : Bool} {x : BeginSent M} (h : s.Noted i (.begin_ x))
    (hinv : ∀ i, (s.link i).Inv pb) {pdu : XscProtoPdu}
    (hcarried : (Note.begin_ x).pdu.CarriedAs pdu) {usr : Option U} {ptr : Nat} {gts : UInt64}
    {msgMgr : Option (XmsgImMsgMgr D H)} {c : XmsgImChannel M} (hitcp : NoItcp msgMgr)
    (hret : (evnMsg pb usr ptr gts pdu K msgMgr c).ret = true) :
    ∃ m got, Dispatched pdu K msgMgr m got ∧ got.trans = .BEGIN := by
  obtain ⟨hzero, sent, hsent, htag⟩ := beginPdu_head ((hinv i).begins x h).2
  have hindicator : pdu.transm.indicator = 0 := hcarried.indicator.trans hzero
  have hping : pdu.transm.indicator &&& K.XSC_TAG_TRANSM_PING = 0 := by
    rw [hindicator]
    exact UInt8.zero_and
  obtain ⟨got, hgot, htrans⟩ := hcarried.trans sent hsent
  obtain ⟨m, hdispatched⟩ := dispatched_of_ret hitcp hping hgot hret
  exact ⟨m, got, hdispatched, htrans.trans.trans htag⟩

/-- Receiving a PDU hands over the request its note names, or none when it is no BEGIN or is
not dispatched. -/
theorem Noted.handles {i : Bool} {note : Note M} (h : s.Noted i note)
    (hinv : ∀ i, (s.link i).Inv pb) {pdu : XscProtoPdu} (hcarried : note.pdu.CarriedAs pdu)
    (usr : Option U) (ptr : Nat) (gts : UInt64) (msgMgr : Option (XmsgImMsgMgr D H))
    (c : XmsgImChannel M) :
    ∃ xs, (addPassive (s.link i) note (evnMsg pb usr ptr gts pdu K msgMgr c)).passive.map
        (·.request) = xs ++ (s.link i).passive.map (·.request) ∧
      KeptWhile (NoItcp msgMgr ∧ (evnMsg pb usr ptr gts pdu K msgMgr c).ret = true) xs.reverse
        note.begin?.toList := by
  have hnone {r : EvnMsg M H U} (hcalls : r.calls.filterMap HandlerCall.passive = [])
      (hnot : NoItcp msgMgr ∧ r.ret = true → note.begin? = none) :
      ∃ xs, (addPassive (s.link i) note r).passive.map (·.request) =
          xs ++ (s.link i).passive.map (·.request) ∧
        KeptWhile (NoItcp msgMgr ∧ r.ret = true) xs.reverse note.begin?.toList := by
    refine ⟨[], by rw [addPassive_of_nil hcalls]; rfl, List.nil_sublist _, fun hp => ?_⟩
    rw [hnot hp]
    rfl
  -- a BEGIN that is neither refused nor intercepted is dispatched
  have hbegin (hp : NoItcp msgMgr ∧ (evnMsg pb usr ptr gts pdu K msgMgr c).ret = true)
      (hne : note.begin? ≠ none) : ∃ m got, Dispatched pdu K msgMgr m got ∧ got.trans = .BEGIN := by
    cases note with
    | begin_ x => exact Noted.dispatched h hinv hcarried hp.1 hp.2
    | end_ x => exact absurd rfl hne
    | other pdu => exact absurd rfl hne
  cases evnMsg_effect pb usr ptr gts pdu K msgMgr c with
  | begin_ m got hdispatched htag hcalls hret _ =>
      obtain ⟨x, hx, rfl, sent, hsent, htrans⟩ :=
        h.begin_of_tag hinv hcarried hdispatched.passes.1 htag
      rcases evnBegin_call pb usr ptr gts pdu m got with hcall | ⟨cb, self, t, req, hcall⟩
      · rw [hcall] at hcalls
        refine hnone hcalls fun hp => ?_
        -- no handler was called, so `evnMsg` has returned false
        rw [evnBegin_ret, hcall] at hret
        rw [hret] at hp
        cases hp.2
      · rw [hcall] at hcalls
        refine ⟨[x], ?_, .refl _ _⟩
        unfold addPassive
        rw [hcalls]
        rfl
  | end_ m got hdispatched htag hcalls _ =>
      refine hnone hcalls fun hp => ?_
      by_contra hne
      obtain ⟨m', got', hdispatched', htag'⟩ := hbegin hp hne
      have hgot := hdispatched.passes.1.symm.trans hdispatched'.passes.1
      rw [Option.some.inj hgot, htag'] at htag
      cases htag
  | neither hnot hcalls _ =>
      refine hnone hcalls fun hp => ?_
      by_contra hne
      obtain ⟨m', got', hdispatched', htag'⟩ := hbegin hp hne
      exact (hnot m' got' hdispatched').1 htag'

/-- Every step hands over what it takes off the stream of `k`. -/
theorem Step.handles (laws : DecodeLaws decode) (hwire : s.Wire)
    (hinv : ∀ i, (s.link i).Inv pb) (hstep : Step U K pb mgr pro s () s') (k : Bool) :
    ∃ xs ws, Handles mgr s s' k xs ws := by
  -- a transaction that is ended keeps its request and its place
  have hsplit {l₁ l₂ : List (Passive M)} {p p' : Passive M} {ps : List (Passive M)}
      (hps : ps = l₁ ++ p :: l₂) (hrequest : p'.request = p.request) :
      (l₁ ++ p' :: l₂).map (·.request) = ps.map (·.request) := by
    rw [hps, List.map_append, List.map_append, List.map_cons, List.map_cons, hrequest]
  cases hstep with
  | begin_ i =>
      refine ⟨[], [], .none ?_ (done_send hwire.pipe ?_)⟩
      swap
      · rfl
      rw [send_link]
      refine setLink_same s i k (fun l => l.passive.map (·.request)) ?_
      rfl
  | arrive i n =>
      refine ⟨[], [], .none rfl ?_⟩
      rw [setPipe_pipe]
      split
      · rename_i hk
        rw [hk]
        rfl
      · rfl
  | @receive i w pdu n pong usr ptr gts hest hscan hnext hpong =>
      obtain ⟨hnoted, hcarried⟩ := hwire.next laws hscan hnext
      have hlink := received_link K pb s i k w.note pdu n
        (evnMsg pb usr ptr gts pdu K (mgr (!i)) (s.link (!i)).a.ch) pong
      -- the stream of endpoint `i` is received, and the other one gets the reply to a heartbeat
      by_cases hk : k = i
      · subst hk
        rw [if_pos rfl] at hlink
        obtain ⟨xs, hxs, hkept⟩ := hnoted.handles (K := K) hinv hcarried usr ptr gts (mgr (!k))
          (s.link (!k)).a.ch
        refine ⟨xs, [w], ?_, ?_, ?_⟩
        · rw [hlink]
          exact hxs
        · rw [received_pipe, if_pos rfl]
          exact Pipe.done_take hnext n
        · refine hkept.mono fun hp => ⟨hp.1, ?_⟩
          have hup := hp.2
          rw [received_est, if_neg (by simp)] at hup
          exact (Bool.and_eq_true_iff.mp hup).2
      · rw [if_neg hk] at hlink
        refine ⟨[], [], .none ?_ ?_⟩
        · rw [hlink]
          unfold endTrans
          split <;> rfl
        · rw [received_pipe, if_neg hk]
          exact done_send hwire.pipe rfl
  | reject => exact ⟨[], [], .none rfl rfl⟩
  | handlerEnd i hps =>
      refine ⟨[], [], .none ?_ rfl⟩
      refine setLink_same s i k (fun l => l.passive.map (·.request)) ?_
      exact hsplit hps rfl
  | runEnd i hps =>
      refine ⟨[], [], .none ?_ (done_send hwire.pipe ?_)⟩
      swap
      · rfl
      rw [closeIf_link, send_link]
      refine setLink_same s i k (fun l => l.passive.map (·.request)) ?_
      exact hsplit hps rfl
  | other i =>
      refine ⟨[], [], .none ?_ (done_send hwire.pipe rfl)⟩
      rw [send_link]
  | local_ i =>
      refine ⟨[], [], .none ?_ rfl⟩
      refine setLink_same s i k (fun l => l.passive.map (·.request)) ?_
      rfl
  | lost => exact ⟨[], [], .none rfl rfl⟩

end StreamLink

/-! ## Requests are handled in the order they were begun

Only `begin_` begins a transaction, and it sends its BEGIN in the same step. -/

section Begun

variable {K : XscProto} {pb : Protobuf D M} {e e' : Exec M} {a : Act M}

/-- A step that begins no transaction. -/
theorem Step.begun_eq (hstep : Step K pb e a e') (hne : ∀ trans, a ≠ .futureBegin trans) :
    e'.begun = e.begun := by
  rcases hstep.cases_ with ⟨trans, rfl, -, -⟩ | ⟨ch, bs, -, rfl⟩ | ⟨bs, rest, -, rfl⟩ | rfl |
    ⟨t, -, rfl⟩
  · exact absurd rfl (hne trans)
  · rw [Exec.takeOut, Exec.enter_begun]
  · rw [Exec.enter_begun]
  · rfl
  · rfl

/-- A local step begins nothing. -/
theorem Act.ne_futureBegin (h : a.isLocal) (trans : XmsgImTransInitiative M) :
    a ≠ .futureBegin trans := by
  rintro rfl
  cases h

end Begun

namespace StreamLink

variable {K : XscProto} {pb : Protobuf D M} {mgr : Bool → Option (XmsgImMsgMgr D H)}
  {pro : XscProtocolType} {s s' : StreamLink decode M}

/-- On a socket every begun transaction sends its BEGIN, and a channel keeps its transport. -/
structure BegunInv (pro : XscProtocolType) (s : StreamLink decode M) (k : Bool) : Prop where
  /-- `sendBegin` looks at the transport of its channel. -/
  transport : (s.link k).a.ch.pro = pro
  begun : KeptWhile (pro ≠ XscProtocolType.XSC_PROTOCOL_HTTP) ((s.link k).begins.map (·.origin))
    (s.link k).a.begun

/-- The invariant is about three parts of the state only. -/
theorem BegunInv.of_eq {k : Bool} (h : s.BegunInv pro k)
    (hpro : (s'.link k).a.ch.pro = (s.link k).a.ch.pro)
    (hbegun : (s'.link k).a.begun = (s.link k).a.begun)
    (hbegins : (s'.link k).begins = (s.link k).begins) : s'.BegunInv pro k :=
  ⟨hpro.trans h.transport, by rw [hbegun, hbegins]; exact h.begun⟩

/-- Only `begin_` adds to the begun transactions, and it adds their BEGINs as well. -/
theorem BegunInv.step {k : Bool} (h : s.BegunInv pro k)
    (hstep : Step U K pb mgr pro s () s') : s'.BegunInv pro k := by
  cases hstep with
  | @begin_ i trans a ws hbegin hpdu hws =>
      by_cases hk : k = i
      · subst hk
        have hpro := hbegin.pro_eq
        have ha := hbegin.eq_futureBegin
        -- over HTTP the BEGIN is not sent, on a socket it is
        have hpdus : KeptWhile (pro ≠ .XSC_PROTOCOL_HTTP)
            (((sentPdus (sendBegin pb (s.link k).a.ch.pro
              ((s.link k).a.ch.futureBegin trans).2)).map fun pdu =>
                (⟨((s.link k).a.ch.futureBegin trans).2, pdu⟩ : BeginSent M)).map (·.origin))
            [((s.link k).a.ch.futureBegin trans).2] := by
          obtain ⟨pdu, hpdu⟩ := Option.isSome_iff_exists.mp hpdu
          have hsend : sentPdus (sendBegin pb (s.link k).a.ch.pro
              ((s.link k).a.ch.futureBegin trans).2) =
                if pro ≠ .XSC_PROTOCOL_HTTP then [pdu] else [] := by
            unfold sendBegin
            rw [hpdu, h.transport]
            exact sentPdus_sendPdu pro pdu
          rw [hsend]
          by_cases hp : pro ≠ .XSC_PROTOCOL_HTTP
          · rw [if_pos hp]
            exact .refl _ _
          · rw [if_neg hp]
            exact .nil hp _
        constructor
        · rw [send_link, setLink_link, if_pos rfl]
          exact hpro.trans h.transport
        · rw [send_link, setLink_link, if_pos rfl, List.map_append, ha]
          exact hpdus.append h.begun
      · refine h.of_eq ?_ ?_ ?_ <;> rw [send_link, setLink_link, if_neg hk]
  | arrive => exact h.of_eq rfl rfl rfl
  | @receive i w pdu n pong usr ptr gts =>
      have hlink := received_link K pb s i k w.note pdu n
        (evnMsg pb usr ptr gts pdu K (mgr (!i)) (s.link (!i)).a.ch) pong
      have hbegins := (received_records K pb s i k w.note pdu n
        (evnMsg pb usr ptr gts pdu K (mgr (!i)) (s.link (!i)).a.ch) pong).1
      split at hlink
      · rename_i hk
        refine h.of_eq ?_ ?_ hbegins <;> rw [hlink, addPassive_a, hk]
      · rcases endTrans_cases K pb (s.link k) pdu
          (evnMsg pb usr ptr gts pdu K (mgr (!i)) (s.link (!i)).a.ch) with hsame |
          ⟨end_, hgot, -, hend⟩
        · rw [hsame] at hlink
          exact h.of_eq (by rw [hlink]) (by rw [hlink]) hbegins
        · rw [hend] at hlink
          have hact : XmsgImXsc.Step K pb _ _ _ := .evnEnd (s.link k).a pdu end_ hgot
          refine h.of_eq ?_ ?_ hbegins
          · rw [hlink]
            exact hact.pro_eq
          · rw [hlink]
            exact hact.begun_eq nofun
  | reject => exact h.of_eq rfl rfl rfl
  | handlerEnd i =>
      exact h.of_eq (setLink_same s i k (fun l => l.a.ch.pro) rfl)
        (setLink_same s i k (fun l => l.a.begun) rfl) (setLink_same s i k Link.begins rfl)
  | runEnd i =>
      refine h.of_eq ?_ ?_ ?_ <;> rw [closeIf_link, send_link]
      · exact setLink_same s i k (fun l => l.a.ch.pro) rfl
      · exact setLink_same s i k (fun l => l.a.begun) rfl
      · exact setLink_same s i k Link.begins rfl
  | other i => exact h.of_eq (by rw [send_link]) (by rw [send_link]) (by rw [send_link])
  | @local_ i act a hlocal hact =>
      exact h.of_eq (setLink_same s i k (fun l => l.a.ch.pro) hact.pro_eq)
        (setLink_same s i k (fun l => l.a.begun) (hact.begun_eq (Act.ne_futureBegin hlocal)))
        (setLink_same s i k Link.begins rfl)
  | lost => exact h.of_eq rfl rfl rfl

/-- What holds of the requests of endpoint `k` in every reachable state. -/
structure OrderInv (mgr : Bool → Option (XmsgImMsgMgr D H)) (pro : XscProtocolType)
    (s : StreamLink decode M) (k : Bool) : Prop extends SentInv s k, BegunInv pro s k where
  handled : KeptWhile (NoItcp (mgr (!k)) ∧ s.est (!k) = true)
    ((s.link k).passive.map (·.request)).reverse ((s.pipe k).done.filterMap Wired.begin?)

/-- The invariant of the runs.  What is handled is compared through the step that takes it off
the stream, the rest through what is sent. -/
theorem reachable_order (laws : DecodeLaws decode)
    (h : Reachable (system U K pb mgr pro) Always s) (k : Bool) : s.OrderInv mgr pro k := by
  refine h.invariant_using (I := fun s => s.OrderInv mgr pro k) (J := fun s : StreamLink decode M =>
    s.Wire ∧ ∀ i, Reachable (linkSystem H U K pb pro) Always (s.link i))
    (fun s hs => reachable_wire laws hs) ?_ ?_
  · intro s hinit
    obtain ⟨⟨hfresh, hpro, hbegins, hpassive, -⟩, hpipe⟩ := hinit k
    obtain ⟨⟨-, -, -, -, hends⟩, -⟩ := hinit (!k)
    refine ⟨⟨?_, ?_⟩, ⟨hpro, ?_⟩, ?_⟩
    · rw [hpipe, hbegins]
      exact .refl _ _
    · rw [hpipe, hends]
      exact .refl _ _
    · rw [hbegins, hfresh.begun]
      exact .refl _ _
    · rw [hpassive, hpipe]
      exact .refl _ _
  · rintro s ⟨⟩ s' ⟨hwire, hlink⟩ hs - hstep
    obtain ⟨xs, ws, hpassive, hdone, hkept⟩ :=
      hstep.handles laws hwire (fun i => Link.reachable_inv (hlink i)) k
    refine ⟨hs.toSentInv.step hstep, hs.toBegunInv.step hstep, ?_⟩
    rw [hpassive, hdone, List.reverse_append, List.filterMap_append]
    exact (hs.handled.mono fun hp => ⟨hp.1, hstep.est_le _ hp.2⟩).append hkept

end StreamLink

/-- Over a byte stream, however its bytes arrive, requests are handed to handlers in the
order they were begun and none is handed over twice. -/
theorem requests_handled_in_order {K : XscProto} {pb : Protobuf D M}
    {mgr : Bool → Option (XmsgImMsgMgr D H)} {pro : XscProtocolType} (laws : DecodeLaws decode)
    {s : StreamLink decode M} (h : Reachable (StreamLink.system U K pb mgr pro) Always s)
    (k : Bool) :
    ((s.link k).passive.map (·.request.origin)).Sublist (s.link k).a.begun ∧
      ((s.link k).passive.map (·.request.origin.ptr)).Nodup := by
  have horder := StreamLink.reachable_order laws h k
  have hlink := (StreamLink.reachable_wire laws h).2 k
  -- handled, taken off the stream, put on it, on record
  have hsub : ((s.link k).passive.map (·.request)).Sublist (s.link k).begins := by
    have hdone := (s.pipe k).done_sublist.filterMap Wired.begin?
    exact List.reverse_sublist.mp ((horder.handled.sublist.trans hdone).trans
      horder.begins.sublist)
  have hbegun : ((s.link k).passive.map (·.request.origin)).Sublist (s.link k).a.begun := by
    have hmap := hsub.map (·.origin)
    rw [List.map_map] at hmap
    exact hmap.trans horder.begun.sublist
  refine ⟨hbegun, ?_⟩
  have hnodup := (reachable_inv (Link.exec_reachable hlink)).books.nodup
  have hptr := hbegun.map (·.ptr)
  rw [List.map_map] at hptr
  exact hptr.nodup hnodup

/-- The sample table has no interceptor. -/
theorem sampleMgr_noItcp (i : Bool) : NoItcp (sampleMgr i) := by
  rintro m ⟨⟩ pdu
  rfl

theorem requests_handled_in_order_sample :
    ∃ s : StreamLink sampleDecode SampleMsg, (s.link false).a.callbacks 1 = [(7, ("done" : Text))] ∧
      ((s.link false).passive.map (·.request.origin)).Sublist (s.link false).a.begun := by
  obtain ⟨s, h, -, -, -, -, -, hcallbacks⟩ := sampleStream_reachable
  exact ⟨s, hcallbacks, (requests_handled_in_order sampleDecode_laws h false).1⟩

end XmsgImXsc
