/-
# XmsgImXsc.RecvDatagram -- several PDUs in one buffer

`XmsgImUdpChannel::evnRecv` has no loop: it decodes the PDU at the front of the datagram,
dispatches it and reports the whole datagram as consumed.  The receive loop of the other
transports goes on to the end of the buffer.  The two agree on a buffer of complete PDUs
exactly when there is only one.
-/
import XmsgImXsc.Recv

namespace XmsgImXsc

variable {σ G : Type}

/-- `XmsgImUdpChannel::evnRecv`. -/
def XmsgImUdpChannel.evnRecv (decode : Decode) (evnMsg : G → σ → XscProtoPdu → σ × Bool)
    (workerMsgMgr : G) (dat : Bytes) (s : σ) : Recv σ :=
  match decode dat with
  | (some pdu, false) =>
      let r := evnMsg workerMsgMgr s pdu
      -- `return len`, not the length of the PDU
      ⟨if r.2 then dat.length else -1, [pdu], r.1⟩
  | (some _, true) => ⟨-1, [], s⟩
  | (none, _) => ⟨-1, [], s⟩

/-! ## Buffers of complete PDUs -/

/-- The bytes of one PDU: wherever they stand at the front, that PDU is decoded, with its
exact length, whatever follows. -/
structure Encodes (decode : Decode) (bytes : Bytes) (pdu : XscProtoPdu) : Prop where
  pos : 0 < bytes.length
  len : pdu.transm.len = bytes.length
  decodes : ∀ r, decode (bytes ++ r) = (some pdu, false)

/-- The concatenation of encoded PDUs. -/
def wireBytes (wire : List (Bytes × XscProtoPdu)) : Bytes := (wire.map (·.1)).flatten

@[simp] theorem wireBytes_cons (p : Bytes × XscProtoPdu) (wire : List (Bytes × XscProtoPdu)) :
    wireBytes (p :: wire) = p.1 ++ wireBytes wire := rfl

/-- Every PDU is accepted when they are dispatched in order. -/
def AcceptsAll (evnMsg : σ → XscProtoPdu → σ × Bool) : σ → List XscProtoPdu → Prop
  | _, [] => True
  | s, pdu :: pdus => (evnMsg s pdu).2 = true ∧ AcceptsAll evnMsg (evnMsg s pdu).1 pdus

variable {decode : Decode} {wire : List (Bytes × XscProtoPdu)}

/-- There are no more PDUs than bytes. -/
theorem length_le_wireBytes (hwire : ∀ p ∈ wire, Encodes decode p.1 p.2) :
    wire.length ≤ (wireBytes wire).length := by
  induction wire with
  | nil => exact Nat.zero_le _
  | cons p wire ih =>
      have hpos := (hwire p List.mem_cons_self).pos
      have hrest := ih fun q hq => hwire q (List.mem_cons_of_mem p hq)
      rw [wireBytes_cons, List.length_append, List.length_cons]
      omega

/-- From the front of the last PDUs of a buffer the loop dispatches these and reports the
whole buffer. -/
theorem recvLoop_wire {evnMsg : σ → XscProtoPdu → σ × Bool} (pre : Bytes) {rounds : Nat} {s : σ}
    (hne : wire ≠ []) (hwire : ∀ p ∈ wire, Encodes decode p.1 p.2)
    (haccept : AcceptsAll evnMsg s (wire.map (·.2))) (hrounds : wire.length ≤ rounds) :
    ∃ st, recvLoop decode evnMsg (pre ++ wireBytes wire) rounds pre.length s =
      some ⟨(pre ++ wireBytes wire).length, wire.map (·.2), st⟩ := by
  -- the PDUs that have been dispatched stand in `pre`
  induction wire generalizing pre rounds s with
  | nil => exact absurd rfl hne
  | cons p wire ih =>
      obtain ⟨bytes, pdu⟩ := p
      obtain ⟨rounds, rfl⟩ := Nat.exists_eq_add_of_lt (Nat.lt_of_lt_of_le (Nat.succ_pos _) hrounds)
      obtain ⟨hpos, hlen, hdecodes⟩ := hwire (bytes, pdu) List.mem_cons_self
      obtain ⟨hfirst, hrest⟩ := haccept
      dsimp only at hpos hlen hdecodes hfirst hrest
      rw [Nat.zero_add, recvLoop, List.drop_left, wireBytes_cons, hdecodes]
      simp only [hfirst, hlen, Bool.not_true, Bool.false_eq_true, if_false, List.length_append]
      cases wire with
      | nil =>
          refine ⟨(evnMsg s pdu).1, ?_⟩
          rw [if_pos (by simp [wireBytes])]
          simp [wireBytes]
      | cons q wire =>
          have hmore : 0 < (wireBytes (q :: wire)).length := by
            have hq := (hwire q (List.mem_cons_of_mem _ List.mem_cons_self)).pos
            rw [wireBytes_cons, List.length_append]
            omega
          have hleft : (q :: wire).length ≤ rounds := by simpa using hrounds
          obtain ⟨st, hst⟩ := ih (pre ++ bytes) (List.cons_ne_nil q wire)
            (fun r hr => hwire r (List.mem_cons_of_mem _ hr)) hrest hleft
          rw [List.append_assoc, List.length_append] at hst
          refine ⟨st, ?_⟩
          rw [if_neg (by omega), if_pos (by omega), hst]
          simp [Recv.after]

/-- The loop dispatches the PDUs of a buffer in order and reports the whole buffer. -/
theorem recvPdus_wire {evnMsg : σ → XscProtoPdu → σ × Bool} {s : σ} (hne : wire ≠ [])
    (hwire : ∀ p ∈ wire, Encodes decode p.1 p.2)
    (haccept : AcceptsAll evnMsg s (wire.map (·.2))) :
    ∃ st, recvPdus decode evnMsg (wireBytes wire) s =
      some ⟨(wireBytes wire).length, wire.map (·.2), st⟩ := by
  have hlen := length_le_wireBytes hwire
  exact recvLoop_wire [] hne hwire haccept (by simpa using Nat.le_succ_of_le hlen)

/-- `XmsgImUdpChannel::evnRecv` dispatches the first PDU and reports the whole buffer. -/
theorem udp_evnRecv_wire {evnMsg : G → σ → XscProtoPdu → σ × Bool} {mgr : G} {s : σ}
    {p : Bytes × XscProtoPdu} (hp : Encodes decode p.1 p.2)
    (haccept : (evnMsg mgr s p.2).2 = true) :
    XmsgImUdpChannel.evnRecv decode evnMsg mgr (wireBytes (p :: wire)) s =
      ⟨(wireBytes (p :: wire)).length, [p.2], (evnMsg mgr s p.2).1⟩ := by
  unfold XmsgImUdpChannel.evnRecv
  rw [wireBytes_cons, hp.decodes]
  simp only [haccept, if_true]

/-! ## Agreement -/

/-- The three receive routines pass the same PDUs to `evnMsg`, which are all PDUs of the
buffer, and return its length. -/
def RecvsAgree (decode : Decode) (evnMsg : G → σ → XscProtoPdu → σ × Bool) (at_ : ActorType)
    (workerMsgMgr h2nMsgMgr : G) (wire : List (Bytes × XscProtoPdu)) (s : σ) : Prop :=
  let dat := wireBytes wire
  let udp := XmsgImUdpChannel.evnRecv decode evnMsg workerMsgMgr dat s
  ∃ rudp tcp, XmsgImRudpChannel.evnRecv decode evnMsg workerMsgMgr dat s = some rudp ∧
    XmsgImTcpChannel.evnRecv decode evnMsg at_ workerMsgMgr h2nMsgMgr dat s = some tcp ∧
    udp.dispatched = wire.map (·.2) ∧ rudp.dispatched = wire.map (·.2) ∧
    tcp.dispatched = wire.map (·.2) ∧
    udp.ret = dat.length ∧ rudp.ret = dat.length ∧ tcp.ret = dat.length

/-- On a non-empty buffer of complete PDUs that `evnMsg` accepts the three receive routines
agree exactly when the buffer holds one PDU.  Of a datagram with more, the second and all
others are dropped by the UDP channel, which reports them as consumed. -/
theorem recvs_agree_iff (evnMsg : G → σ → XscProtoPdu → σ × Bool) (at_ : ActorType)
    (workerMsgMgr h2nMsgMgr : G) (hne : wire ≠ [])
    (hwire : ∀ p ∈ wire, Encodes decode p.1 p.2) (s : σ)
    (hworker : AcceptsAll (evnMsg workerMsgMgr) s (wire.map (·.2)))
    (hh2n : at_ = .ACTOR_H2N → AcceptsAll (evnMsg h2nMsgMgr) s (wire.map (·.2))) :
    RecvsAgree decode evnMsg at_ workerMsgMgr h2nMsgMgr wire s ↔ wire.length = 1 := by
  obtain ⟨st, hrudp⟩ := recvPdus_wire hne hwire hworker
  have htcp : ∃ st, XmsgImTcpChannel.evnRecv decode evnMsg at_ workerMsgMgr h2nMsgMgr
      (wireBytes wire) s = some ⟨(wireBytes wire).length, wire.map (·.2), st⟩ := by
    cases at_ with
    | ACTOR_N2H => exact recvPdus_wire hne hwire hworker
    | ACTOR_H2N => exact recvPdus_wire hne hwire (hh2n rfl)
  obtain ⟨st', htcp⟩ := htcp
  obtain ⟨p, wire, rfl⟩ := List.exists_cons_of_ne_nil hne
  have hudp : XmsgImUdpChannel.evnRecv decode evnMsg workerMsgMgr (wireBytes (p :: wire)) s = _ :=
    udp_evnRecv_wire (hwire p List.mem_cons_self) hworker.1
  constructor
  · -- the UDP channel dispatches one PDU, whatever the buffer holds
    rintro ⟨rudp, tcp, -, -, hdispatched, -⟩
    rw [hudp] at hdispatched
    have hlength := congrArg List.length hdispatched
    simpa using hlength.symm
  · intro hone
    have hnil : wire = [] := by simpa using hone
    refine ⟨_, _, hrudp, htcp, ?_, rfl, rfl, ?_, rfl, rfl⟩
    · rw [hudp, hnil]
      rfl
    · rw [hudp]

/-- A heartbeat and its encoding under the codec that knows nothing else. -/
def heartbeat : Bytes × XscProtoPdu := ([0x80], { transm := { indicator := 0x80, len := 1 } })

theorem heartbeat_encodes : Encodes heartbeatDecode heartbeat.1 heartbeat.2 :=
  ⟨by decide, rfl, fun _ => rfl⟩

theorem recvs_agree_iff_heartbeat :
    RecvsAgree heartbeatDecode (fun (_ : Unit) n _ => (n + 1, true)) .ACTOR_N2H () ()
      [heartbeat] 0 := by
  have hall : AcceptsAll (fun n _ => (n + 1, true)) 0 ([heartbeat].map (·.2)) := ⟨rfl, trivial⟩
  refine (recvs_agree_iff (fun (_ : Unit) n _ => (n + 1, true)) .ACTOR_N2H () ()
    (List.cons_ne_nil _ _) ?_ 0 hall (fun habs => by cases habs)).mpr rfl
  intro p hp
  rw [List.mem_singleton.mp hp]
  exact heartbeat_encodes

/-- Two heartbeats in one datagram: the UDP channel dispatches one of them and reports both
bytes, the RUDP channel dispatches both. -/
theorem recvs_disagree_two_heartbeats :
    (∀ p ∈ [heartbeat, heartbeat], Encodes heartbeatDecode p.1 p.2) ∧
      XmsgImUdpChannel.evnRecv heartbeatDecode (fun (_ : Unit) n _ => (n + 1, true)) ()
          (wireBytes [heartbeat, heartbeat]) 0 = ⟨2, [heartbeat.2], 1⟩ ∧
      XmsgImRudpChannel.evnRecv heartbeatDecode (fun (_ : Unit) n _ => (n + 1, true)) ()
          (wireBytes [heartbeat, heartbeat]) 0 = some ⟨2, [heartbeat.2, heartbeat.2], 2⟩ ∧
      ¬ RecvsAgree heartbeatDecode (fun (_ : Unit) n _ => (n + 1, true)) .ACTOR_N2H () ()
          [heartbeat, heartbeat] 0 := by
  refine ⟨?_, by decide, by decide, ?_⟩
  · intro p hp
    have heq : p = heartbeat := by simpa using hp
    rw [heq]
    exact heartbeat_encodes
  · rintro ⟨rudp, tcp, -, -, hdispatched, -⟩
    revert hdispatched
    decide

end XmsgImXsc
