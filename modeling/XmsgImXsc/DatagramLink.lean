/-
# XmsgImXsc.DatagramLink -- two endpoints on UDP

A PDU is sent as one datagram.  The network may lose it, delay it, deliver it more than once
and out of order, so that a datagram that was sent once can be received at any later time,
any number of times.  `XmsgImUdpChannel::evnRecv` decodes one PDU and passes it to `evnMsg`.
The channel has no timeout sweep, and its `clean()` does nothing.

The notes on the PDUs, and what a received PDU does to the requests of the two endpoints, are
those of the byte streams.  Over datagrams, too, the requests run as over the link of
messages; and the only way out of the table is the response of the peer's handler.
-/
import XmsgImXsc.StreamRecv
import XmsgImXsc.StreamAnswer

namespace XmsgImXsc

open Lts

variable {D M H U : Type} {decode : Decode}

/-! ## A datagram is received -/

/-- `evnMsg` as `evnRecv` calls it.  The state is the PDU that was passed on, with what
`evnMsg` did. -/
def evnMsgOnce (pb : Protobuf D M) (K : XscProto) (ctx : EvnContext U) (c : XmsgImChannel M)
    (msgMgr : Option (XmsgImMsgMgr D H)) (_ : Option (XscProtoPdu × EvnMsg M H U))
    (pdu : XscProtoPdu) : Option (XscProtoPdu × EvnMsg M H U) × Bool :=
  let r := evnMsg pb ctx.usr ctx.ptr ctx.gts pdu K msgMgr c
  (some (pdu, r), r.ret)

/-- Of a datagram that was sent, the PDU is decoded that its bytes encode. -/
theorem udp_evnRecv_wired (pb : Protobuf D M) (K : XscProto) (ctx : EvnContext U)
    (c : XmsgImChannel M) (msgMgr : Option (XmsgImMsgMgr D H)) (w : Wired decode M) :
    (XmsgImUdpChannel.evnRecv decode (evnMsgOnce pb K ctx c) msgMgr w.bytes none).st =
      some (w.got, evnMsg pb ctx.usr ctx.ptr ctx.gts w.got K msgMgr c) := by
  have hdecode : decode w.bytes = (some w.got, false) := by
    have hfront := w.encodes.decodes []
    rwa [List.append_nil] at hfront
  unfold XmsgImUdpChannel.evnRecv
  rw [hdecode]
  rfl

/-! ## The endpoints -/

/-- The two endpoints `false` and `true`: the requests of each, and the datagrams it has sent
so far. -/
structure DatagramLink (decode : Decode) (M : Type) where
  link : Bool → Link M
  net : Bool → List (Wired decode M) := fun _ => []

namespace DatagramLink

/-- The requests of endpoint `i` are as in `l`. -/
def setLink (s : DatagramLink decode M) (i : Bool) (l : Link M) : DatagramLink decode M :=
  { s with link := Function.update s.link i l }

/-- Endpoint `i` sends datagrams.  They stay on the net for as often as they are delivered. -/
def send (s : DatagramLink decode M) (i : Bool) (ws : List (Wired decode M)) :
    DatagramLink decode M :=
  { s with net := Function.update s.net i (ws ++ s.net i) }

/-- Endpoint `!i` has received `pdu`, and `evnMsg` did `r` with it. -/
def received (K : XscProto) (pb : Protobuf D M) (s : DatagramLink decode M) (i : Bool)
    (note : Note M) (pdu : XscProtoPdu) (r : EvnMsg M H U) (pong : List (Wired decode M)) :
    DatagramLink decode M :=
  ((s.setLink i (StreamLink.addPassive (s.link i) note r)).setLink (!i)
    (StreamLink.endTrans K pb (s.link (!i)) pdu r)).send (!i) pong

end DatagramLink

/-- What happens to a UDP channel: anything but a sweep or a cleanup, since its `dida` and
its `clean` call neither. -/
def Act.OnUdp : Act M → Prop
  | .checkTransInit _ _ _ => False
  | .cleanTransInit => False
  | _ => True

namespace DatagramLink

/-- One step.  `mgr` holds the message managers of the endpoints. -/
inductive Step (U : Type) (K : XscProto) (pb : Protobuf D M)
    (mgr : Bool → Option (XmsgImMsgMgr D H)) :
    DatagramLink decode M → Unit → DatagramLink decode M → Prop
  /-- An endpoint begins a transaction and sends its BEGIN. -/
  | begin_ (s) (i : Bool) {trans a ws} : XmsgImXsc.Step K pb (s.link i).a (.futureBegin trans) a →
      ws.map Wired.note = ((sentPdus (sendBegin pb (s.link i).a.ch.pro
        ((s.link i).a.ch.futureBegin trans).2)).map
          (⟨((s.link i).a.ch.futureBegin trans).2, ·⟩)).map .begin_ →
      Step U K pb mgr s ()
        ((s.setLink i { s.link i with
          a := a
          begins := (sentPdus (sendBegin pb (s.link i).a.ch.pro
            ((s.link i).a.ch.futureBegin trans).2)).map
              (⟨((s.link i).a.ch.futureBegin trans).2, ·⟩) ++ (s.link i).begins }).send i ws)
  /-- A datagram that was sent at some time is received. -/
  | receive (s) (i : Bool) {w : Wired decode M} {pdu r pong} {ctx : EvnContext U} :
      w ∈ s.net i →
      (XmsgImUdpChannel.evnRecv decode (evnMsgOnce pb K ctx (s.link (!i)).a.ch) (mgr (!i))
        w.bytes none).st = some (pdu, r) →
      pong.map Wired.note = (if r.pong then [.other K.pong] else []) →
      Step U K pb mgr s () (s.received K pb i w.note pdu r pong)
  /-- A handler ends its transaction, after it has set fields of it. -/
  | handlerEnd (s) (i : Bool) {l₁ l₂ : List (Passive M)} {p : Passive M}
      {trans : XmsgImTransPassive M} {call} : (s.link i).passive = l₁ ++ p :: l₂ →
      p.phase = .handling → trans.ptr = p.trans.ptr → trans.dtid = p.trans.dtid →
      Step U K pb mgr s ()
        (s.setLink i { s.link i with
          passive := l₁ ++ ⟨p.request, trans.endCall K call, .queued⟩ :: l₂ })
  /-- An endpoint executes the closure of an ended transaction. -/
  | runEnd (s) (i : Bool) {l₁ l₂ : List (Passive M)} {p : Passive M} {ws} {est : Bool} :
      (s.link i).passive = l₁ ++ p :: l₂ → p.phase = .queued →
      ws.map Wired.note =
        ((sentPdus (p.trans.endClosure K pb .XSC_PROTOCOL_UDP est)).map (⟨p, ·⟩)).map .end_ →
      Step U K pb mgr s ()
        ((s.setLink i { s.link i with
          passive := l₁ ++ { p with phase := .ended } :: l₂
          ends := (sentPdus (p.trans.endClosure K pb .XSC_PROTOCOL_UDP est)).map (⟨p, ·⟩) ++
            (s.link i).ends }).send (!i) ws)
  /-- An endpoint sends something else. -/
  | other (s) (i : Bool) {ws : List (Wired decode M)} : (∀ w ∈ ws, w.note.IsOther) →
      Step U K pb mgr s () (s.send i ws)
  /-- Another step of a channel that involves no message. -/
  | local_ (s) (i : Bool) {act a} : act.isLocal → act.OnUdp →
      XmsgImXsc.Step K pb (s.link i).a act a →
      Step U K pb mgr s () (s.setLink i { s.link i with a := a })

/-- The runs from two fresh UDP channels with nothing sent. -/
def system (U : Type) (K : XscProto) (pb : Protobuf D M)
    (mgr : Bool → Option (XmsgImMsgMgr D H)) : System (DatagramLink decode M) Unit where
  init s := ∀ i, ((s.link i).a.Fresh ∧ (s.link i).a.ch.pro = .XSC_PROTOCOL_UDP ∧
    (s.link i).begins = [] ∧ (s.link i).passive = [] ∧ (s.link i).ends = []) ∧ s.net i = []
  step := Step U K pb mgr

/-! ## What a step does to a part of the state -/

section Frame

variable (s : DatagramLink decode M) (i k : Bool) (l : Link M) (ws : List (Wired decode M))

@[simp] theorem setLink_link : (s.setLink i l).link k = if k = i then l else s.link k :=
  Function.update_apply s.link i l k

@[simp] theorem setLink_net : (s.setLink i l).net = s.net := rfl

@[simp] theorem send_link : (s.send i ws).link = s.link := rfl

@[simp] theorem send_net :
    (s.send i ws).net k = if k = i then ws ++ s.net i else s.net k :=
  Function.update_apply s.net i (ws ++ s.net i) k

/-- Only the two parts that a datagram concerns are changed by receiving it. -/
theorem received_link (K : XscProto) (pb : Protobuf D M) (note : Note M) (pdu : XscProtoPdu)
    (r : EvnMsg M H U) (pong : List (Wired decode M)) :
    (s.received K pb i note pdu r pong).link k =
      if k = i then StreamLink.addPassive (s.link i) note r
      else StreamLink.endTrans K pb (s.link k) pdu r := by
  simp only [received, send_link, setLink_link]
  by_cases hk : k = i
  · subst hk
    rw [if_neg (Bool.eq_not_self k).mp, if_pos rfl, if_pos rfl]
  · obtain rfl : k = (!i) := Bool.eq_not_of_ne hk
    rw [if_pos rfl, if_neg hk]

/-- Receiving takes nothing off the network, so a datagram may come again. -/
theorem received_net (K : XscProto) (pb : Protobuf D M) (note : Note M) (pdu : XscProtoPdu)
    (r : EvnMsg M H U) (pong : List (Wired decode M)) :
    (s.received K pb i note pdu r pong).net k = (s.send (!i) pong).net k := by
  simp only [received, send_net, setLink_net]

/-- The requests of the two endpoints, on streams that carry nothing. -/
def asStream : StreamLink decode M :=
  { link := s.link, est := fun _ => true, pipe := fun _ => {} }

end Frame

end DatagramLink

/-! ## The refinement -/

/-- What was sent stays on record. -/
theorem LinkStep.records {K : XscProto} {pb : Protobuf D M} {pro : XscProtocolType}
    {l l' : Link M} (h : LinkStep H U K pb pro l () l') :
    l.begins ⊆ l'.begins ∧ l.ends ⊆ l'.ends := by
  cases h with
  | begin_ => exact ⟨List.subset_append_right _ _, List.Subset.refl _⟩
  | deliverBegin => exact ⟨List.Subset.refl _, List.Subset.refl _⟩
  | handlerEnd => exact ⟨List.Subset.refl _, List.Subset.refl _⟩
  | runEnd => exact ⟨List.Subset.refl _, List.subset_append_right _ _⟩
  | deliverEnd => exact ⟨List.Subset.refl _, List.Subset.refl _⟩
  | local_ => exact ⟨List.Subset.refl _, List.Subset.refl _⟩

namespace DatagramLink

variable {K : XscProto} {pb : Protobuf D M} {mgr : Bool → Option (XmsgImMsgMgr D H)}
  {s s' : DatagramLink decode M}

/-- What the notes of the datagrams say is on record. -/
def Noted (s : DatagramLink decode M) : Prop :=
  ∀ i, ∀ w ∈ s.net i, s.asStream.Noted i w.note

/-- Each request link makes a step of its own or none. -/
theorem Step.link_step (hnoted : s.Noted) (hinv : ∀ i, (s.link i).Inv pb)
    (hstep : Step U K pb mgr s () s') (k : Bool) :
    s'.link k = s.link k ∨
      LinkStep H U K pb .XSC_PROTOCOL_UDP (s.link k) () (s'.link k) := by
  have hset {i : Bool} {l : Link M}
      (hl : LinkStep H U K pb .XSC_PROTOCOL_UDP (s.link i) () l) :
      (s.setLink i l).link k = s.link k ∨
        LinkStep H U K pb .XSC_PROTOCOL_UDP (s.link k) () ((s.setLink i l).link k) := by
    rw [setLink_link]
    split
    · rename_i hk
      subst hk
      exact .inr hl
    · exact .inl rfl
  cases hstep with
  | begin_ i hbegin _ => exact hset (.begin_ _ hbegin)
  | @receive i w pdu r pong ctx hw hrecv _ =>
      -- the datagram carries the PDU that was sent, whatever became of the others
      rw [udp_evnRecv_wired] at hrecv
      obtain ⟨rfl, rfl⟩ := Prod.mk.inj (Option.some.inj hrecv)
      have heffect := evnMsg_effect pb ctx.usr ctx.ptr ctx.gts w.got K (mgr (!i))
        (s.link (!i)).a.ch
      have hsent : s.asStream.Noted i w.note := hnoted i w hw
      rw [received_link]
      by_cases hk : k = i
      · rw [if_pos hk, hk]
        exact hsent.deliver_begin hinv w.carried heffect
      · obtain rfl : k = (!i) := Bool.eq_not_of_ne hk
        rw [if_neg hk]
        exact hsent.deliver_end hinv w.carried heffect
  | handlerEnd i hsplit hphase hptr hdtid => exact hset (.handlerEnd _ hsplit hphase hptr hdtid)
  | runEnd i hsplit hphase _ => exact hset (.runEnd _ hsplit hphase)
  | other i _ => exact .inl rfl
  | local_ i hlocal _ hact => exact hset (.local_ _ hlocal hact)

/-- What is on record stays so. -/
theorem noted_mono {i : Bool} {note : Note M}
    (hrecords : ∀ k, (s.link k).begins ⊆ (s'.link k).begins ∧ (s.link k).ends ⊆ (s'.link k).ends)
    (h : s.asStream.Noted i note) : s'.asStream.Noted i note := by
  cases note with
  | begin_ x => exact (hrecords i).1 h
  | end_ x => exact (hrecords (!i)).2 h
  | other pdu => exact h

/-- A new datagram is noted with what it was sent for. -/
theorem Step.sent (hstep : Step U K pb mgr s () s') (k : Bool) :
    ∀ w ∈ s'.net k, w ∈ s.net k ∨ s'.asStream.Noted k w.note := by
  -- the network only grows in `send`, by what the step has put on record
  have hsend {s₀ : DatagramLink decode M} {i : Bool} {ws : List (Wired decode M)}
      (hnet : s'.net k = (s₀.send i ws).net k) (hold : s₀.net = s.net)
      (hws : ∀ w ∈ ws, s'.asStream.Noted i w.note) :
      ∀ w ∈ s'.net k, w ∈ s.net k ∨ s'.asStream.Noted k w.note := by
    intro w hw
    rw [hnet, send_net, hold] at hw
    split at hw
    · rename_i hk
      subst hk
      rcases List.mem_append.mp hw with hnew | hmem
      · exact .inr (hws w hnew)
      · exact .inl hmem
    · exact .inl hw
  cases hstep with
  | @begin_ i trans a ws _ hws =>
      refine hsend rfl rfl (StreamLink.noted_of_map hws ?_)
      intro note hnote
      obtain ⟨x, hx, rfl⟩ := List.mem_map.mp hnote
      show x ∈ ((setLink s i _).link i).begins
      rw [setLink_link, if_pos rfl]
      exact List.mem_append_left _ hx
  | @receive i w pdu r pong ctx _ _ hpong =>
      refine hsend (received_net s i k K pb w.note pdu r pong) rfl
        (StreamLink.noted_of_map hpong ?_)
      intro note hnote
      split at hnote
      · obtain rfl := List.mem_singleton.mp hnote
        intro t ht
        cases ht
      · cases hnote
  | handlerEnd i => exact fun w hw => .inl hw
  | @runEnd i l₁ l₂ p ws est _ _ hws =>
      refine hsend rfl rfl (StreamLink.noted_of_map hws ?_)
      intro note hnote
      obtain ⟨x, hx, rfl⟩ := List.mem_map.mp hnote
      show x ∈ ((setLink s i _).link (!(!i))).ends
      rw [setLink_link, Bool.not_not, if_pos rfl]
      exact List.mem_append_left _ hx
  | other i hws => exact hsend rfl rfl fun w hw => .of_isOther (hws w hw)
  | local_ i => exact fun w hw => .inl hw

/-- Over datagrams the requests of each endpoint run as on the link of messages. -/
theorem reachable_net (h : Reachable (system U K pb mgr) Always s) :
    s.Noted ∧ ∀ i, Reachable (linkSystem H U K pb .XSC_PROTOCOL_UDP) Always (s.link i) := by
  apply h.invariant (I := fun s : DatagramLink decode M =>
    s.Noted ∧ ∀ i, Reachable (linkSystem H U K pb .XSC_PROTOCOL_UDP) Always (s.link i))
  · intro s hinit
    refine ⟨fun i w hw => ?_, fun i => ?_⟩
    · rw [(hinit i).2] at hw
      cases hw
    · obtain ⟨⟨hfresh, -, hbegins, hpassive, hends⟩, -⟩ := hinit i
      exact .init ⟨hfresh, hbegins, hpassive, hends⟩
  · rintro s ⟨⟩ s' ⟨hnoted, hlink⟩ - hstep
    have hinv (i : Bool) := Link.reachable_inv (hlink i)
    have hmove (k : Bool) := hstep.link_step hnoted hinv k
    refine ⟨fun i w hw => ?_, fun i => ?_⟩
    · rcases hstep.sent i w hw with hold | hnew
      · refine noted_mono (fun k => ?_) (hnoted i w hold)
        rcases hmove k with heq | hlinkStep
        · rw [heq]
          exact ⟨List.Subset.refl _, List.Subset.refl _⟩
        · exact hlinkStep.records
      · exact hnew
    · rcases hmove i with heq | hlinkStep
      · rw [heq]
        exact hlink i
      · exact (hlink i).step (a := ()) trivial hlinkStep

end DatagramLink

/-! ## The only way out of the table -/

/-- Whatever happens to a UDP channel takes a transaction out of the table only by an END. -/
theorem Step.removed_onUdp {K : XscProto} {pb : Protobuf D M} {e e' : Exec M} {a : Act M}
    (hstep : Step K pb e a e') (ha : a.OnUdp) (hpro : e.ch.pro = .XSC_PROTOCOL_UDP)
    {b : Taken M} (hb : b ∈ e'.removed) :
    b ∈ e.removed ∨ ∃ pdu end_, b.by_ = .byEnd pdu end_ := by
  cases hstep with
  | genTid => exact .inl hb
  | futureBegin => exact .inl hb
  | rehash => exact .inl hb
  | cbReturn =>
      rw [Exec.enter_removed] at hb
      exact .inl hb
  | evnEnd pdu end_ _ =>
      rcases Exec.evnEnd_removed hb with hold | ⟨hby, -⟩
      · exact .inl hold
      · exact .inr ⟨pdu, end_, hby⟩
  | checkTransInit => exact ha.elim
  | cleanTransInit => exact ha.elim
  | clean =>
      have hnone : e.ch.clean.2 = [] := by
        unfold XmsgImChannel.clean
        rw [hpro]
        rfl
      rw [Exec.clean, Exec.takeOut_removed, hnone] at hb
      exact .inl hb

namespace DatagramLink

variable {K : XscProto} {pb : Protobuf D M} {mgr : Bool → Option (XmsgImMsgMgr D H)}
  {s s' : DatagramLink decode M}

/-- What a step does to the channel of endpoint `k` happens to a UDP channel. -/
theorem Step.exec_step (hstep : Step U K pb mgr s () s') (k : Bool) :
    (s'.link k).a = (s.link k).a ∨
      ∃ act, act.OnUdp ∧ XmsgImXsc.Step K pb (s.link k).a act (s'.link k).a := by
  have hset {i : Bool} {l : Link M} (hl : l.a = (s.link i).a ∨
      ∃ act, act.OnUdp ∧ XmsgImXsc.Step K pb (s.link i).a act l.a) :
      ((s.setLink i l).link k).a = (s.link k).a ∨
        ∃ act, act.OnUdp ∧ XmsgImXsc.Step K pb (s.link k).a act ((s.setLink i l).link k).a := by
    rw [setLink_link]
    split
    · rename_i hk
      subst hk
      exact hl
    · exact .inl rfl
  cases hstep with
  | @begin_ i trans a ws hbegin _ => exact hset (.inr ⟨.futureBegin trans, trivial, hbegin⟩)
  | @receive i w pdu r pong ctx _ _ _ =>
      rw [received_link]
      split
      · rename_i hk
        subst hk
        exact .inl (by rw [StreamLink.addPassive_a])
      · rcases StreamLink.endTrans_cases K pb (s.link k) pdu r with heq | ⟨end_, hend, -, heq⟩
        · exact .inl (by rw [heq])
        · rw [heq]
          exact .inr ⟨.evnEnd pdu end_, trivial, .evnEnd _ pdu end_ hend⟩
  | handlerEnd i => exact hset (.inl rfl)
  | runEnd i => exact hset (.inl rfl)
  | other i => exact .inl rfl
  | local_ i _ hudp hact => exact hset (.inr ⟨_, hudp, hact⟩)

/-- Every transaction that left the table was taken out by an END. -/
theorem reachable_byEnd (h : Reachable (system U K pb mgr) Always s) (k : Bool) :
    (s.link k).a.ch.pro = .XSC_PROTOCOL_UDP ∧
      ∀ b ∈ (s.link k).a.removed, ∃ pdu end_, b.by_ = .byEnd pdu end_ := by
  apply h.invariant (I := fun s : DatagramLink decode M => (s.link k).a.ch.pro = .XSC_PROTOCOL_UDP ∧
    ∀ b ∈ (s.link k).a.removed, ∃ pdu end_, b.by_ = .byEnd pdu end_)
  · intro s hinit
    obtain ⟨⟨hfresh, hpro, -⟩, -⟩ := hinit k
    refine ⟨hpro, ?_⟩
    rw [hfresh.removed]
    intro b hb
    cases hb
  · rintro s ⟨⟩ s' ⟨hpro, hremoved⟩ - hstep
    rcases hstep.exec_step k with heq | ⟨act, hudp, hact⟩
    · rw [heq]
      exact ⟨hpro, hremoved⟩
    · refine ⟨hact.pro_eq.trans hpro, fun b hb => ?_⟩
      rcases hact.removed_onUdp hudp hpro hb with hold | hend
      · exact hremoved b hold
      · exact hend

/-- An END that took a transaction out is the response to it, until the counter of the tids
wraps around. -/
theorem removed_answered (h : Reachable (system U K pb mgr) Always s) {k : Bool}
    (hn : (s.link k).a.drawn.length < 2 ^ 32) {b : Taken M} (hb : b ∈ (s.link k).a.removed) :
    ∃ pdu end_, b.by_ = .byEnd pdu end_ ∧ ∃ x ∈ (s.link k).ends, x.by_.request.origin = b.trans ∧
      ∃ sent, x.pdu.transm.trans = some sent ∧ sent.CarriedAs end_ := by
  have hreach := (reachable_net h).2 k
  have hlink := Link.reachable_inv hreach
  have hexec := XmsgImXsc.reachable_inv (Link.exec_reachable hreach)
  obtain ⟨t0, hnumbered⟩ := reachable_numbered (Link.exec_reachable hreach)
  obtain ⟨pdu, end_, hby⟩ := (reachable_byEnd h k).2 b hb
  obtain ⟨hstid, x, hx, sent, hsent, hcarried⟩ := hlink.completed b hb pdu end_ hby
  obtain ⟨horigin, hdtid⟩ := StreamLink.ends_origin hlink hx
  obtain ⟨-, -, -, hpdu⟩ := hlink.ends x hx
  have hbegun : b.trans ∈ (s.link k).a.begun := hexec.books.split.mem_iff.mpr
    (List.mem_append_right _ (List.mem_append_right _ (List.mem_map_of_mem hb)))
  have htid : x.by_.request.origin.stid = b.trans.stid := by
    rw [← hdtid, hstid, hcarried.dtid, (endPdu_head (hpdu ▸ hsent)).1]
  exact ⟨pdu, end_, hby, x, hx, hnumbered.eq_of_stid hn horigin hbegun htid, sent, hsent, hcarried⟩

end DatagramLink

section Udp

variable {K : XscProto} {pb : Protobuf D M} {mgr : Bool → Option (XmsgImMsgMgr D H)}
  {s : DatagramLink decode M}

/-- Whatever the network loses, delays, reorders or duplicates, the requests of each UDP
endpoint run as over the link of messages. -/
theorem datagrams_refine_link (h : Reachable (DatagramLink.system U K pb mgr) Always s)
    (i : Bool) : Reachable (linkSystem H U K pb .XSC_PROTOCOL_UDP) Always (s.link i) :=
  (DatagramLink.reachable_net h).2 i

/-- Over UDP, as long as fewer than 2^32 tids are drawn, a callback runs at most once, and
only with the response that the peer's handler gave to this very request.  No request is
given up: one that is no longer in the table was taken out by the END of its own response. -/
theorem udp_completed_only_by_own_answer (h : Reachable (DatagramLink.system U K pb mgr) Always s)
    (i : Bool) (hn : (s.link i).a.drawn.length < 2 ^ 32) :
    (∀ p, ((s.link i).a.callbacks p).length ≤ 1) ∧
      (∀ c ∈ (s.link i).a.invoked, ∃ pdu end_, c.1.by_ = .byEnd pdu end_ ∧
        ∃ x ∈ (s.link i).ends, x.by_.request.origin = c.1.trans ∧
          ∃ sent, x.pdu.transm.trans = some sent ∧ sent.CarriedAs end_) ∧
      ∀ t ∈ (s.link i).a.begun, t ∈ (s.link i).a.ch.pending ∨
        ∃ b ∈ (s.link i).a.removed, b.trans = t ∧ ∃ pdu end_, b.by_ = .byEnd pdu end_ ∧
          ∃ x ∈ (s.link i).ends, x.by_.request.origin = t ∧
            ∃ sent, x.pdu.transm.trans = some sent ∧ sent.CarriedAs end_ := by
  have hreach := Link.exec_reachable ((DatagramLink.reachable_net h).2 i)
  have hexec := XmsgImXsc.reachable_inv hreach
  refine ⟨hexec.callbacks_length_le, fun c hc => ?_, fun t ht => ?_⟩
  · refine DatagramLink.removed_answered h hn ?_
    exact hexec.books.queued.mem_iff.mpr (List.mem_append_right _ (List.mem_map_of_mem hc))
  · have hkept := hexec.books.split.mem_iff.mp ht
    rw [overwritten_of_drawn_lt hreach hn, List.nil_append] at hkept
    rcases List.mem_append.mp hkept with hpending | htaken
    · exact .inl hpending
    · obtain ⟨b, hb, rfl⟩ := List.mem_map.mp htaken
      exact .inr ⟨b, hb, rfl, DatagramLink.removed_answered h hn hb⟩

end Udp

/-! A request whose datagram is delivered twice, so that two handlers are called, and the
response of one of them, which is delivered twice too. -/

theorem sampleDatagram_reachable :
    ∃ s : DatagramLink sampleDecode SampleMsg,
      Reachable (DatagramLink.system String .sample samplePb sampleMgr) Always s ∧
      (s.link false).a.drawn.length < 2 ^ 32 ∧ (s.link false).passive.length = 2 ∧
      (s.link false).a.callbacks 1 = [(7, ("done" : Text))] := by
  let start : DatagramLink sampleDecode SampleMsg :=
    { link := fun _ => { a := Exec.start .XSC_PROTOCOL_UDP } }
  have hinit : Reachable (DatagramLink.system String .sample samplePb sampleMgr) Always start :=
    .init fun i => ⟨⟨Exec.start_fresh _, rfl, rfl, rfl, rfl⟩, rfl⟩
  have hbegin := hinit.step (a := ()) trivial
    (@DatagramLink.Step.begin_ _ _ _ _ _ _ _ _ _ false _ _ [sampleBeginWired]
      (.futureBegin _ (XmsgImChannel.begin_ 1 0 (.ping, [9]) none) (by decide)) rfl)
  have hfirst := hbegin.step (a := ()) trivial
    (@DatagramLink.Step.receive _ _ _ _ _ _ _ _ _ false sampleBeginWired _ _ [] ⟨some "alice", 1, 0⟩
      List.mem_cons_self rfl rfl)
  have hagain := hfirst.step (a := ()) trivial
    (@DatagramLink.Step.receive _ _ _ _ _ _ _ _ _ false sampleBeginWired _ _ [] ⟨some "alice", 2, 0⟩
      List.mem_cons_self rfl rfl)
  have hended := hagain.step (a := ()) trivial
    (@DatagramLink.Step.handlerEnd _ _ _ _ _ _ _ _ _ false [_] [] _ _
      (.endRetDesc 7 "done" (some (.ping, [8]))) rfl rfl rfl rfl)
  have hsent := hended.step (a := ()) trivial
    (@DatagramLink.Step.runEnd _ _ _ _ _ _ _ _ _ false [_] [] _ [sampleEndWired] true rfl rfl
      rfl)
  have hanswer := hsent.step (a := ()) trivial
    (@DatagramLink.Step.receive _ _ _ _ _ _ _ _ _ true sampleEndWired _ _ [] ⟨some "bob", 1, 0⟩
      List.mem_cons_self rfl rfl)
  have htwice := hanswer.step (a := ()) trivial
    (@DatagramLink.Step.receive _ _ _ _ _ _ _ _ _ true sampleEndWired _ _ [] ⟨some "bob", 1, 0⟩
      List.mem_cons_self rfl rfl)
  exact ⟨_, htwice, by decide, by decide, by decide⟩

theorem datagrams_refine_link_sample :
    ∃ s : DatagramLink sampleDecode SampleMsg, (s.link false).passive.length = 2 ∧
      ∀ i, Reachable (linkSystem Nat String .sample samplePb .XSC_PROTOCOL_UDP) Always
        (s.link i) := by
  obtain ⟨s, h, -, hpassive, -⟩ := sampleDatagram_reachable
  exact ⟨s, hpassive, fun i => datagrams_refine_link h i⟩

theorem udp_completed_only_by_own_answer_sample :
    ∃ s : DatagramLink sampleDecode SampleMsg,
      (s.link false).a.callbacks 1 = [(7, ("done" : Text))] ∧
      (∀ p, ((s.link false).a.callbacks p).length ≤ 1) ∧
      ∀ t ∈ (s.link false).a.begun, t ∈ (s.link false).a.ch.pending ∨
        ∃ b ∈ (s.link false).a.removed, b.trans = t ∧ ∃ pdu end_, b.by_ = .byEnd pdu end_ := by
  obtain ⟨s, h, hn, -, hcallbacks⟩ := sampleDatagram_reachable
  obtain ⟨honce, -, hkept⟩ := udp_completed_only_by_own_answer h false hn
  refine ⟨s, hcallbacks, honce, fun t ht => (hkept t ht).imp_right ?_⟩
  rintro ⟨b, hb, htrans, pdu, end_, hby, -⟩
  exact ⟨b, hb, htrans, pdu, end_, hby⟩

end XmsgImXsc
