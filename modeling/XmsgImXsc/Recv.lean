/-
# XmsgImXsc.Recv -- cutting XSC PDUs out of received bytes

`XmsgImTcpChannel::evnRecv`, `XmsgImRudpChannel::evnRecv` and
`XmsgImWebSocketChannel::decodeXscPdu` are three copies of one loop over a receive buffer;
`recvPdus` is that loop.  On a WebSocket channel the loop runs once per frame, and
`decodeFrameBinary` keeps the undecoded end of the bytes in `cachedXscPdu`.

Under the laws of the codec the loop is the library's `drain`.  A sequence of frames is its
`feed` as long as the bytes that are cached when a frame arrives are decoded to the end of
that frame: the last branch of `decodeFrameBinary` erases the wrong range, and what it should
have kept is lost.  `webSocket_reassembly_agrees_iff` says that the WebSocket and the TCP path
agree exactly on the frames that never take that branch.
-/
import XmsgImXsc.Lib.Scanning
import XmsgImXsc.Pdu
import Mathlib.Algebra.GroupWithZero.Nat
import Mathlib.Tactic.Common

namespace XmsgImXsc

open Scanning

variable {σ G : Type}

/-! ## The receive loop -/

/-- The outcome of a receive routine: its return value, the PDUs it passed to `evnMsg` and
the state of the channel afterwards. -/
structure Recv (σ : Type) where
  ret : Int
  dispatched : List XscProtoPdu
  st : σ
  deriving Repr, DecidableEq

/-- Account for a PDU dispatched before the rest of the loop ran. -/
def Recv.after (pdu : XscProtoPdu) (r : Recv σ) : Recv σ :=
  { r with dispatched := pdu :: r.dispatched }

/-- The body of `while (true)`.  The first argument bounds the number of rounds; `none`
means that the bound was too small. -/
def recvLoop (decode : Decode) (evnMsg : σ → XscProtoPdu → σ × Bool) (dat : Bytes) :
    Nat → Nat → σ → Option (Recv σ)
  | 0, _, _ => none
  | rounds + 1, used, s =>
      match decode (dat.drop used) with
      | (some pdu, _) =>
          let used := used + pdu.transm.len
          let r := evnMsg s pdu
          if !r.2 then some ⟨-1, [pdu], r.1⟩
          else if used = dat.length then some ⟨used, [pdu], r.1⟩
          else if used < dat.length then
            (recvLoop decode evnMsg dat rounds used r.1).map (·.after pdu)
          else some ⟨-1, [pdu], r.1⟩ -- "it`s a bug": the PDU is longer than the buffer
      | (none, true) => some ⟨-1, [], s⟩
      | (none, false) => some ⟨used, [], s⟩

/-- The loop from its start.  Every round but the last takes a byte at least, so one round
per byte and one more are enough (`recvPdus_eq_drain`). -/
def recvPdus (decode : Decode) (evnMsg : σ → XscProtoPdu → σ × Bool) (dat : Bytes) (s : σ) :
    Option (Recv σ) :=
  recvLoop decode evnMsg dat (dat.length + 1) 0 s

/-- The message manager comes from the worker on an accepted channel and from the channel
itself on one this host opened. -/
def XmsgImTcpChannel.evnRecv (decode : Decode) (evnMsg : G → σ → XscProtoPdu → σ × Bool)
    (at_ : ActorType) (workerMsgMgr h2nMsgMgr : G) (dat : Bytes) (s : σ) : Option (Recv σ) :=
  recvPdus decode
    (evnMsg (match at_ with | .ACTOR_N2H => workerMsgMgr | .ACTOR_H2N => h2nMsgMgr)) dat s

/-- `evnRecv` of a RUDP channel, which uses the message manager of its worker. -/
def XmsgImRudpChannel.evnRecv (decode : Decode) (evnMsg : G → σ → XscProtoPdu → σ × Bool)
    (workerMsgMgr : G) (dat : Bytes) (s : σ) : Option (Recv σ) :=
  recvPdus decode (evnMsg workerMsgMgr) dat s

/-- `decodeXscPdu` of a WebSocket channel, the same loop. -/
def XmsgImWebSocketChannel.decodeXscPdu (decode : Decode)
    (evnMsg : G → σ → XscProtoPdu → σ × Bool) (workerMsgMgr : G) (dat : Bytes) (s : σ) :
    Option (Recv σ) :=
  recvPdus decode (evnMsg workerMsgMgr) dat s

/-! ## Reassembly on a WebSocket channel -/

/-- The outcome of handing a frame payload to a WebSocket channel. -/
structure FrameRecv (σ : Type) where
  accepted : Bool
  dispatched : List XscProtoPdu
  cachedXscPdu : Bytes
  st : σ
  deriving Repr, DecidableEq

/-- `v.erase(begin, begin + n)`.  A range that reaches behind the end of the vector has no
defined result. -/
def eraseFront (v : Bytes) (n : Nat) : Option Bytes :=
  if n ≤ v.length then some (v.drop n) else none

/-- `decodeFrameBinary`.  With an empty cache the loop runs over the frame itself, otherwise
over the cache with the frame appended.  `none` is the undefined result of the last branch,
which erases up to `used` bytes behind the end of the cache instead of up to `used` bytes
behind its beginning: all of the cache when nothing was decoded. -/
def XmsgImWebSocketChannel.decodeFrameBinary (decode : Decode)
    (evnMsg : G → σ → XscProtoPdu → σ × Bool) (workerMsgMgr : G) (cachedXscPdu : Bytes)
    (s : σ) (frame : Bytes) : Option (FrameRecv σ) :=
  let cache := if cachedXscPdu.isEmpty then cachedXscPdu else cachedXscPdu ++ frame
  let dat := if cachedXscPdu.isEmpty then frame else cache
  match XmsgImWebSocketChannel.decodeXscPdu decode evnMsg workerMsgMgr dat s with
  | none => none
  | some r =>
      let remain : Int := dat.length - r.ret
      if r.ret < 0 then some ⟨false, r.dispatched, cache, r.st⟩
      else if remain < 0 then some ⟨false, r.dispatched, cache, r.st⟩
      else if remain = 0 then some ⟨true, r.dispatched, [], r.st⟩
      else if cache.isEmpty then some ⟨true, r.dispatched, cache ++ dat.drop r.ret.toNat, r.st⟩
      else
        -- `erase(begin + 0, end + used)`
        (eraseFront cache (cache.length + r.ret.toNat)).map fun cache =>
          ⟨true, r.dispatched, cache, r.st⟩

/-- Frame payloads in the order of arrival.  A refused frame ends the connection, so no
later frame is looked at; a frame without a defined result leaves none. -/
def XmsgImWebSocketChannel.decodeFrames (decode : Decode)
    (evnMsg : G → σ → XscProtoPdu → σ × Bool) (workerMsgMgr : G) :
    List Bytes → Bytes → σ → Option (FrameRecv σ)
  | [], cachedXscPdu, s => some ⟨true, [], cachedXscPdu, s⟩
  | frame :: frames, cachedXscPdu, s =>
      match decodeFrameBinary decode evnMsg workerMsgMgr cachedXscPdu s frame with
      | none => none
      | some r =>
          if r.accepted then
            (decodeFrames decode evnMsg workerMsgMgr frames r.cachedXscPdu r.st).map
              fun q => { q with dispatched := r.dispatched ++ q.dispatched }
          else some r

/-! ## The codec as a scanner

The laws of the codec are those of a scanner: what it decodes depends on the bytes of the PDU
only, and bytes that are no PDU stay none whatever follows. -/

/-- What a decode says about the front of a buffer. -/
def pduScan (decode : Decode) (b : Bytes) : Scan XscProtoPdu :=
  match decode b with
  | (some pdu, _) => .item pdu pdu.transm.len
  | (none, true) => .bad
  | (none, false) => .more

section PduScan

variable {decode : Decode} {b : Bytes}

/-- What the three outcomes of the codec are to a scanner: a PDU, -/
theorem pduScan_item_iff {pdu : XscProtoPdu} {n : Nat} :
    pduScan decode b = .item pdu n ↔ (∃ e, decode b = (some pdu, e)) ∧ n = pdu.transm.len := by
  unfold pduScan
  split
  · next pdu' e hd =>
      rw [hd]
      constructor
      · intro h
        cases h
        exact ⟨⟨e, rfl⟩, rfl⟩
      · rintro ⟨⟨e', h⟩, rfl⟩
        cases h
        rfl
  · next hd => simp [hd]
  · next hd => simp [hd]

/-- bytes that are no PDU, -/
theorem pduScan_bad_iff : pduScan decode b = .bad ↔ decode b = (none, true) := by
  unfold pduScan
  split <;> simp_all

/-- and the beginning of one. -/
theorem pduScan_more_iff : pduScan decode b = .more ↔ decode b = (none, false) := by
  unfold pduScan
  split <;> simp_all

end PduScan

/-- A rejected buffer holds no PDU at its front, whatever follows it: such a PDU would
either be decoded from the buffer already or have the buffer as a proper prefix. -/
theorem DecodeLaws.bad_final {decode : Decode} (laws : DecodeLaws decode) {b : Bytes}
    (r : Bytes) (hb : decode b = (none, true)) (pdu : XscProtoPdu) (e : Bool) :
    decode (b ++ r) ≠ (some pdu, e) := by
  intro hpdu
  by_cases hlen : pdu.transm.len ≤ b.length
  · have hown := laws.own_bytes hpdu
    rw [List.take_append_of_le_length hlen] at hown
    have hfull := laws.stable (b.drop pdu.transm.len) hown
    rw [List.take_append_drop, hb] at hfull
    simp at hfull
  · have hprefix := laws.proper_prefix b.length hpdu (by omega)
    rw [List.take_left, hb] at hprefix
    simp at hprefix

/-- The codec as a scanner of PDUs. -/
def pduScanner (decode : Decode) (laws : DecodeLaws decode) : Scanner UInt8 XscProtoPdu where
  scan := pduScan decode
  pos := by
    intro b pdu n h
    obtain ⟨⟨e, hd⟩, rfl⟩ := pduScan_item_iff.mp h
    exact (laws.len_bounds hd).1
  le := by
    intro b pdu n h
    obtain ⟨⟨e, hd⟩, rfl⟩ := pduScan_item_iff.mp h
    exact (laws.len_bounds hd).2
  stable := by
    intro b pdu n r h
    obtain ⟨⟨e, hd⟩, rfl⟩ := pduScan_item_iff.mp h
    exact pduScan_item_iff.mpr ⟨⟨e, laws.stable r hd⟩, rfl⟩
  bad_final := by
    intro b r pdu n hbad hitem
    obtain ⟨⟨e, hd⟩, -⟩ := pduScan_item_iff.mp hitem
    exact laws.bad_final r (pduScan_bad_iff.mp hbad) pdu e hd

/-- A scanner that reports what the codec reports, and to which the end of the bytes is no
error. -/
structure ScansPdus (decode : Decode) (S : Scanner UInt8 XscProtoPdu) : Prop where
  scan : S.scan = pduScan decode
  empty : decode [] = (none, false)

theorem pduScanner_scans {decode : Decode} (laws : DecodeLaws decode) :
    ScansPdus decode (pduScanner decode laws) :=
  ⟨rfl, laws.empty⟩

/-! ## The loop is a drain

The loop counts what it has used and returns -1 for bytes that are no PDU and for a PDU that is
refused; the library's drain keeps the two apart. -/

/-- The return value of the receive loop, read off a drain of the whole buffer. -/
def retOfDrain (dat : Bytes) (d : Drained UInt8 XscProtoPdu σ) : Int :=
  match d.stop with
  | .starved => ((dat.length - d.rest.length : Nat) : Int)
  | _ => -1

section Drain

variable {decode : Decode} {S : Scanner UInt8 XscProtoPdu} (hS : ScansPdus decode S)
  (evnMsg : σ → XscProtoPdu → σ × Bool)

include hS

/-- From any position the loop does what the drain of the bytes from there on does. -/
theorem recvLoop_eq_drain (dat : Bytes) (rounds used : Nat) (s : σ)
    (hused : used ≤ dat.length) (hrounds : dat.length - used < rounds) :
    recvLoop decode evnMsg dat rounds used s =
      some ⟨retOfDrain dat (drain S evnMsg (dat.drop used) s),
        (drain S evnMsg (dat.drop used) s).items,
        (drain S evnMsg (dat.drop used) s).st⟩ := by
  induction rounds generalizing used s with
  | zero => omega
  | succ rounds ih =>
      rw [recvLoop]
      split
      · next pdu e hd =>
          have hscan : S.scan (dat.drop used) = .item pdu pdu.transm.len := by
            rw [hS.scan]
            exact pduScan_item_iff.mpr ⟨⟨e, hd⟩, rfl⟩
          have hpos := S.pos hscan
          have hle := S.le hscan
          rw [List.length_drop] at hle
          cases hok : (evnMsg s pdu).2 with
          | false =>
              rw [drain_refuse _ _ hscan hok]
              simp [retOfDrain, hok]
          | true =>
              rw [drain_accept _ _ hscan hok, List.drop_drop]
              by_cases hend : used + pdu.transm.len = dat.length
              · -- the buffer is used up; the drain would look at an empty rest
                have hmore : S.scan (dat.drop (used + pdu.transm.len)) = .more := by
                  rw [hend, List.drop_length, hS.scan]
                  exact pduScan_more_iff.mpr hS.empty
                rw [drain_more _ _ hmore]
                simp [retOfDrain, hok, hend]
              · have hlt : used + pdu.transm.len < dat.length := by omega
                simp only [hok, hend, hlt, Bool.not_true, Bool.false_eq_true, if_false, if_true]
                rw [ih (used + pdu.transm.len) (evnMsg s pdu).1 (by omega) (by omega)]
                rfl
      · next hd =>
          have hscan : S.scan (dat.drop used) = .bad := by
            rw [hS.scan]
            exact pduScan_bad_iff.mpr hd
          rw [drain_bad _ _ hscan]
          rfl
      · next hd =>
          have hscan : S.scan (dat.drop used) = .more := by
            rw [hS.scan]
            exact pduScan_more_iff.mpr hd
          rw [drain_more _ _ hscan]
          have hret : dat.length - (dat.length - used) = used := by omega
          simp [retOfDrain, hret]

/-- The receive loop returns, and does what the drain of the buffer does. -/
theorem recvPdus_eq_drain (dat : Bytes) (s : σ) :
    recvPdus decode evnMsg dat s =
      some ⟨retOfDrain dat (drain S evnMsg dat s),
        (drain S evnMsg dat s).items,
        (drain S evnMsg dat s).st⟩ := by
  have h := recvLoop_eq_drain hS evnMsg dat (dat.length + 1) 0 s (by omega) (by omega)
  simpa [recvPdus] using h

/-- The bytes a drain takes are those of the PDUs it hands over. -/
theorem drain_rest_eq_drop {b : Bytes} {s : σ}
    (hs : (drain S evnMsg b s).stop = .starved) :
    (drain S evnMsg b s).rest =
      b.drop (((drain S evnMsg b s).items.map (·.transm.len)).sum) := by
  induction b, s using drain.induct S evnMsg with
  | case1 b s hb => rw [drain_more _ _ hb]; simp
  | case2 b s hb => rw [drain_bad _ _ hb] at hs; simp at hs
  | case3 b s pdu n hb ha ih =>
      have hitem := hb
      rw [hS.scan] at hitem
      obtain ⟨-, rfl⟩ := pduScan_item_iff.mp hitem
      rw [drain_accept _ _ hb ha] at hs ⊢
      have hrest := ih hs
      rw [List.drop_drop] at hrest
      simpa using hrest
  | case4 b s pdu n hb ha =>
      rw [drain_refuse _ _ hb (by simpa using ha)] at hs
      simp at hs

end Drain

/-! ## Where a stream ends

Whether leftovers are settled is a question about streams and how the codec cuts them, with no
frame in it.  `EndsAs` answers it without the loop, so that the condition on the frames can be
stated before anything is run. -/

/-- Where the bytes received so far end, by the codec and by what `evnMsg` returns: behind a
PDU, within one, or they were rejected. -/
inductive StreamEnd where
  | boundary
  | withinPdu
  | rejected
  deriving Repr, DecidableEq

/-- The bytes `b`, received in the state `s` of the channel, end so. -/
inductive EndsAs (decode : Decode) (evnMsg : σ → XscProtoPdu → σ × Bool) :
    Bytes → σ → StreamEnd → Prop
  | boundary {s} : EndsAs decode evnMsg [] s .boundary
  | withinPdu {b s} : decode b = (none, false) → b ≠ [] → EndsAs decode evnMsg b s .withinPdu
  | malformed {b s} : decode b = (none, true) → EndsAs decode evnMsg b s .rejected
  | refused {b s pdu e} : decode b = (some pdu, e) → (evnMsg s pdu).2 = false →
      EndsAs decode evnMsg b s .rejected
  | pdu {b s pdu e ends} : decode b = (some pdu, e) → (evnMsg s pdu).2 = true →
      EndsAs decode evnMsg (b.drop pdu.transm.len) (evnMsg s pdu).1 ends →
      EndsAs decode evnMsg b s ends

/-- A frame that arrives when the bytes before it end within a PDU does not end within a PDU
itself: with the cached bytes it is decoded to its end, or rejected.  `cached` is what the
cache holds before the first frame; after a rejected frame nothing is asked. -/
def LeftoversSettled (decode : Decode) (evnMsg : σ → XscProtoPdu → σ × Bool) (cached : Bytes)
    (frames : List Bytes) (s : σ) : Prop :=
  ∀ k < frames.length,
    (∀ j ≤ k, ¬ EndsAs decode evnMsg (cached ++ (frames.take j).flatten) s .rejected) →
    EndsAs decode evnMsg (cached ++ (frames.take k).flatten) s .withinPdu →
    ¬ EndsAs decode evnMsg (cached ++ (frames.take (k + 1)).flatten) s .withinPdu

/-- Where a drained stream ends. -/
def streamEnd (d : Drained UInt8 XscProtoPdu σ) : StreamEnd :=
  match d.stop with
  | .starved => if d.rest = [] then .boundary else .withinPdu
  | _ => .rejected

theorem streamEnd_withinPdu_iff {d : Drained UInt8 XscProtoPdu σ} :
    streamEnd d = .withinPdu ↔ d.stop = .starved ∧ d.rest ≠ [] := by
  unfold streamEnd
  cases d.stop with
  | starved =>
      by_cases hrest : d.rest = []
      · simp [hrest]
      · simp [hrest]
  | malformed => simp
  | refused => simp

theorem streamEnd_rejected_iff {d : Drained UInt8 XscProtoPdu σ} :
    streamEnd d = .rejected ↔ d.stop ≠ .starved := by
  unfold streamEnd
  cases d.stop with
  | starved =>
      by_cases hrest : d.rest = []
      · simp [hrest]
      · simp [hrest]
  | malformed => simp
  | refused => simp

section EndsAs

variable {decode : Decode} (laws : DecodeLaws decode) {evnMsg : σ → XscProtoPdu → σ × Bool}

include laws

/-- The drain of the bytes tells where they end. -/
theorem endsAs_drain (b : Bytes) (s : σ) :
    EndsAs decode evnMsg b s (streamEnd (drain (pduScanner decode laws) evnMsg b s)) := by
  induction b, s using drain.induct (pduScanner decode laws) evnMsg with
  | case1 b s hb =>
      rw [drain_more _ _ hb]
      have hd : decode b = (none, false) := pduScan_more_iff.mp hb
      by_cases hnil : b = []
      · rw [hnil]
        exact .boundary
      · show EndsAs decode evnMsg b s (if b = [] then .boundary else .withinPdu)
        rw [if_neg hnil]
        exact .withinPdu hd hnil
  | case2 b s hb =>
      rw [drain_bad _ _ hb]
      exact .malformed (pduScan_bad_iff.mp hb)
  | case3 b s pdu n hb ha ih =>
      obtain ⟨⟨e, hd⟩, rfl⟩ := pduScan_item_iff.mp hb
      rw [drain_accept _ _ hb ha]
      exact .pdu hd ha ih
  | case4 b s pdu n hb ha =>
      obtain ⟨⟨e, hd⟩, rfl⟩ := pduScan_item_iff.mp hb
      have hrefused : (evnMsg s pdu).2 = false := by simpa using ha
      rw [drain_refuse _ _ hb hrefused]
      exact .refused hd hrefused

theorem EndsAs.eq_drain {b : Bytes} {s : σ} {ends : StreamEnd}
    (h : EndsAs decode evnMsg b s ends) :
    streamEnd (drain (pduScanner decode laws) evnMsg b s) = ends := by
  induction h with
  | boundary =>
      rw [drain_more _ _ (pduScan_more_iff.mpr laws.empty)]
      rfl
  | withinPdu hd hnil =>
      rw [drain_more _ _ (pduScan_more_iff.mpr hd)]
      exact if_neg hnil
  | malformed hd =>
      rw [drain_bad _ _ (pduScan_bad_iff.mpr hd)]
      rfl
  | refused hd hrefused =>
      rw [drain_refuse _ _ (pduScan_item_iff.mpr ⟨⟨_, hd⟩, rfl⟩) hrefused]
      rfl
  | pdu hd ha _ ih =>
      rw [drain_accept _ _ (pduScan_item_iff.mpr ⟨⟨_, hd⟩, rfl⟩) ha]
      exact ih

/-- Where a stream ends is where the drain stops. -/
theorem endsAs_iff {b : Bytes} {s : σ} {ends : StreamEnd} :
    EndsAs decode evnMsg b s ends ↔
      streamEnd (drain (pduScanner decode laws) evnMsg b s) = ends := by
  constructor
  · exact fun h => h.eq_drain laws
  · rintro rfl
    exact endsAs_drain laws b s

/-- So it ends in one way only. -/
theorem EndsAs.unique {b : Bytes} {s : σ} {ends ends' : StreamEnd}
    (h : EndsAs decode evnMsg b s ends) (h' : EndsAs decode evnMsg b s ends') : ends = ends' :=
  (h.eq_drain laws).symm.trans (h'.eq_drain laws)

/-- What follows a stream that is not rejected goes on from its undecoded rest. -/
theorem endsAs_append_iff {b : Bytes} {s : σ} (c : Bytes) {ends : StreamEnd}
    (hs : (drain (pduScanner decode laws) evnMsg b s).stop = .starved) :
    EndsAs decode evnMsg (b ++ c) s ends ↔
      EndsAs decode evnMsg ((drain (pduScanner decode laws) evnMsg b s).rest ++ c)
        (drain (pduScanner decode laws) evnMsg b s).st ends := by
  rw [endsAs_iff laws, endsAs_iff laws, drain_append_starved _ _ c hs]
  rfl

/-- Two frames whose bytes end behind a PDU settle what the first has left. -/
theorem leftoversSettled_pair {p q : Bytes} {s : σ}
    (h : EndsAs decode evnMsg (p ++ q) s .boundary) :
    LeftoversSettled decode evnMsg [] [p, q] s := by
  intro k hk _ hwithin hstill
  match k with
  | 0 =>
      have hstart := EndsAs.unique laws hwithin .boundary
      cases hstart
  | 1 =>
      have hpq : ([] : Bytes) ++ ([p, q].take (1 + 1)).flatten = p ++ q := by simp
      rw [hpq] at hstill
      have hend := EndsAs.unique laws hstill h
      cases hend
  | k + 2 =>
      have habs : k + 2 < 2 := hk
      omega

/-- The condition on a sequence of frames, one frame after the other. -/
theorem leftoversSettled_cons_iff {cached frame : Bytes} {frames : List Bytes} {s : σ}
    (hcached : decode cached = (none, false)) :
    let d := drain (pduScanner decode laws) evnMsg (cached ++ frame) s
    LeftoversSettled decode evnMsg cached (frame :: frames) s ↔
      (cached ≠ [] → d.stop = .starved → d.rest = []) ∧
        (d.stop = .starved → LeftoversSettled decode evnMsg d.rest frames d.st) := by
  intro d
  have hmore := drain_more (pduScanner decode laws) evnMsg (s := s)
    (pduScan_more_iff.mpr hcached)
  have hzero : ¬ EndsAs decode evnMsg (cached ++ []) s .rejected := by
    rw [List.append_nil, endsAs_iff laws, streamEnd_rejected_iff, hmore]
    exact not_not_intro rfl
  have hstart : EndsAs decode evnMsg (cached ++ []) s .withinPdu ↔ cached ≠ [] := by
    rw [List.append_nil, endsAs_iff laws, streamEnd_withinPdu_iff, hmore]
    exact and_iff_right rfl
  have hlater (k : Nat) (ends : StreamEnd) (hs : d.stop = .starved) :
      EndsAs decode evnMsg (cached ++ ((frame :: frames).take (k + 1)).flatten) s ends ↔
        EndsAs decode evnMsg (d.rest ++ (frames.take k).flatten) d.st ends := by
    rw [List.take_succ_cons, List.flatten_cons, ← List.append_assoc]
    exact endsAs_append_iff laws _ hs
  have hfirst (ends : StreamEnd) :
      EndsAs decode evnMsg (cached ++ ((frame :: frames).take 1).flatten) s ends ↔
        streamEnd d = ends := by
    have hone : ((frame :: frames).take 1).flatten = frame := by simp
    rw [hone]
    exact endsAs_iff laws
  constructor
  · intro h
    constructor
    · intro hne hs
      by_contra hrest
      refine h 0 (Nat.succ_pos _) ?_ (hstart.mpr hne)
        ((hfirst .withinPdu).mpr (streamEnd_withinPdu_iff.mpr ⟨hs, hrest⟩))
      intro j hj
      rw [Nat.le_zero.mp hj]
      exact hzero
    · intro hs k hk hok hwithin
      rw [← hlater (k + 1) _ hs]
      refine h (k + 1) (Nat.succ_lt_succ hk) ?_ ((hlater k _ hs).mpr hwithin)
      intro j hj
      cases j with
      | zero => exact hzero
      | succ j =>
          rw [hlater j _ hs]
          exact hok j (Nat.le_of_succ_le_succ hj)
  · rintro ⟨hhead, htail⟩ k hk hok hwithin
    -- frame `k` is the first one, or frame `k - 1` of those behind it
    cases k with
    | zero =>
        rw [hfirst, streamEnd_withinPdu_iff]
        rintro ⟨hs, hrest⟩
        exact hrest (hhead (hstart.mp hwithin) hs)
    | succ k =>
        -- the first frame was not rejected, as something follows it
        have hs : d.stop = .starved := by
          by_contra hstop
          exact hok 1 (Nat.succ_le_succ (Nat.zero_le k))
            ((hfirst .rejected).mpr (streamEnd_rejected_iff.mpr hstop))
        rw [hlater (k + 1) _ hs]
        refine htail hs k (Nat.lt_of_succ_lt_succ hk) ?_ ((hlater k _ hs).mp hwithin)
        intro j hj
        rw [← hlater j _ hs]
        exact hok (j + 1) (Nat.succ_le_succ hj)

end EndsAs

/-! ## Frames are a feed

With nothing cached the bytes of a frame are decoded in place and the undecoded end is kept.
With something cached they are appended to it first; when all of it is decoded, or is rejected,
nothing has to be kept.  What remains, where something was cached and something has to be kept,
is the branch with the wrong range. -/

section Frames

variable {decode : Decode} (laws : DecodeLaws decode) (evnMsg : G → σ → XscProtoPdu → σ × Bool)
  (mgr : G)

open XmsgImWebSocketChannel

/-- A frame result that says what a drain says: accepted when the drain starved, with the
undecoded rest in the cache. -/
structure FrameRecv.Agrees (r : FrameRecv σ) (d : Drained UInt8 XscProtoPdu σ) : Prop where
  accepted : r.accepted = true ↔ d.stop = .starved
  dispatched : r.dispatched = d.items
  st : r.st = d.st
  cached : d.stop = .starved → r.cachedXscPdu = d.rest

section Frame

variable (cached : Bytes) (s : σ) (frame : Bytes)

/-- The buffer the loop runs over is the cache with the frame behind it. -/
theorem decodeFrameBinary_dat :
    (if cached.isEmpty then frame else (if cached.isEmpty then cached else cached ++ frame)) =
      cached ++ frame := by
  cases cached <;> simp

/-- A frame is decoded as the cache with the frame behind it, and the cache then holds the
undecoded rest, unless bytes were cached and bytes are left. -/
theorem decodeFrameBinary_spec
    (hsettled : cached ≠ [] →
      (drain (pduScanner decode laws) (evnMsg mgr) (cached ++ frame) s).stop = .starved →
      (drain (pduScanner decode laws) (evnMsg mgr) (cached ++ frame) s).rest = []) :
    ∃ r, decodeFrameBinary decode evnMsg mgr cached s frame = some r ∧
      r.Agrees (drain (pduScanner decode laws) (evnMsg mgr) (cached ++ frame) s) := by
  have hdrain := recvPdus_eq_drain (pduScanner_scans laws) (evnMsg mgr) (cached ++ frame) s
  have hsuffix := drain_rest_suffix (pduScanner decode laws) (evnMsg mgr) (cached ++ frame) s
  simp only [decodeFrameBinary, decodeFrameBinary_dat, decodeXscPdu, hdrain]
  generalize drain (pduScanner decode laws) (evnMsg mgr) (cached ++ frame) s = d
    at hsuffix hsettled ⊢
  obtain ⟨items, rest, stop, st⟩ := d
  have hlen : rest.length ≤ (cached ++ frame).length := hsuffix.length_le
  cases stop with
  | malformed => exact ⟨_, by simp [retOfDrain]; rfl, by simp, rfl, rfl, by simp⟩
  | refused => exact ⟨_, by simp [retOfDrain]; rfl, by simp, rfl, rfl, by simp⟩
  | starved =>
      have hremain : (((cached ++ frame).length : Nat) : Int) -
          (((cached ++ frame).length - rest.length : Nat) : Int) = rest.length := by omega
      simp only [retOfDrain, hremain, Int.toNat_natCast]
      rw [if_neg (by omega), if_neg (by omega)]
      by_cases hrest : rest = []
      · -- everything decoded: the cache is cleared
        subst hrest
        exact ⟨_, if_pos rfl, by simp, rfl, rfl, fun _ => rfl⟩
      · rw [if_neg (by simpa using hrest)]
        have hdrop : (cached ++ frame).drop ((cached ++ frame).length - rest.length) = rest :=
          (List.suffix_iff_eq_drop.mp hsuffix).symm
        cases cached with
        | nil => exact ⟨_, if_pos rfl, by simp, rfl, rfl, fun _ => by simpa using hdrop⟩
        | cons c cs => exact absurd (hsettled (List.cons_ne_nil c cs) rfl) hrest

/-- When bytes were cached and bytes are left, the cache is emptied or nothing is defined. -/
theorem decodeFrameBinary_leftover (hne : cached ≠ [])
    (hs : (drain (pduScanner decode laws) (evnMsg mgr) (cached ++ frame) s).stop = .starved)
    (hrest : (drain (pduScanner decode laws) (evnMsg mgr) (cached ++ frame) s).rest ≠ []) :
    decodeFrameBinary decode evnMsg mgr cached s frame = none ∨
      decodeFrameBinary decode evnMsg mgr cached s frame =
        some ⟨true, (drain (pduScanner decode laws) (evnMsg mgr) (cached ++ frame) s).items, [],
          (drain (pduScanner decode laws) (evnMsg mgr) (cached ++ frame) s).st⟩ := by
  have hdrain := recvPdus_eq_drain (pduScanner_scans laws) (evnMsg mgr) (cached ++ frame) s
  have hsuffix := drain_rest_suffix (pduScanner decode laws) (evnMsg mgr) (cached ++ frame) s
  have hempty : cached.isEmpty = false := by simpa using hne
  have hcache : (cached ++ frame).isEmpty = false := by simp [hne]
  simp only [decodeFrameBinary, decodeXscPdu, hdrain, hempty, Bool.false_eq_true, if_false]
  generalize drain (pduScanner decode laws) (evnMsg mgr) (cached ++ frame) s = d
    at hsuffix hs hrest ⊢
  obtain ⟨items, rest, stop, st⟩ := d
  cases hs
  have hlen : rest.length ≤ (cached ++ frame).length := hsuffix.length_le
  have hpos : 0 < rest.length := List.length_pos_of_ne_nil hrest
  have hremain : (((cached ++ frame).length : Nat) : Int) -
      (((cached ++ frame).length - rest.length : Nat) : Int) = rest.length := by omega
  simp only [retOfDrain, hremain, Int.toNat_natCast, hcache]
  rw [if_neg (by omega), if_neg (by omega), if_neg (by omega), if_neg Bool.false_ne_true]
  by_cases hused : rest.length = (cached ++ frame).length
  · -- nothing was decoded: the range is the whole vector
    right
    rw [hused, Nat.sub_self, Nat.add_zero, eraseFront, if_pos (Nat.le_refl _), List.drop_length]
    rfl
  · left
    rw [eraseFront, if_neg (by omega)]
    rfl

end Frame

/-- A sequence of frames that settles what it leaves is fed to the scanner piece by piece. -/
theorem decodeFrames_spec {frames : List Bytes} {cached : Bytes} {s : σ}
    (hcached : decode cached = (none, false))
    (hsettled : LeftoversSettled decode (evnMsg mgr) cached frames s) :
    ∃ r, decodeFrames decode evnMsg mgr frames cached s = some r ∧
      r.Agrees (feed (pduScanner decode laws) (evnMsg mgr) frames cached s) := by
  induction frames generalizing cached s with
  | nil => exact ⟨_, rfl, by simp [feed], rfl, rfl, fun _ => rfl⟩
  | cons frame frames ih =>
      obtain ⟨hfirst, hlater⟩ := (leftoversSettled_cons_iff laws hcached).mp hsettled
      obtain ⟨r, hr, hrd⟩ := decodeFrameBinary_spec laws evnMsg mgr cached s frame hfirst
      by_cases hs : (drain (pduScanner decode laws) (evnMsg mgr) (cached ++ frame) s).stop =
          .starved
      · obtain ⟨q, hq, hqd⟩ := ih (pduScan_more_iff.mp (drain_starved_rest _ _ hs)) (hlater hs)
        rw [feed_cons_starved _ _ hs]
        rw [← hrd.cached hs, ← hrd.st] at hq hqd ⊢
        rw [← hrd.dispatched]
        refine ⟨{ q with dispatched := r.dispatched ++ q.dispatched }, ?_, ?_⟩
        · simp [decodeFrames, hr, hrd.accepted.mpr hs, hq]
        · exact ⟨hqd.accepted, by simp [hqd.dispatched], hqd.st, hqd.cached⟩
      · have hacc : r.accepted = false := by
          rw [← Bool.not_eq_true, hrd.accepted]
          exact hs
        rw [feed_cons_stopped _ _ hs]
        exact ⟨r, by simp [decodeFrames, hr, hacc], hrd⟩

/-- Frames that do not settle what they leave: after some of them the cache is empty, though
bytes are left, or nothing is defined. -/
theorem decodeFrames_leftover {frames : List Bytes} {cached : Bytes} {s : σ}
    (hcached : decode cached = (none, false))
    (hnot : ¬ LeftoversSettled decode (evnMsg mgr) cached frames s) :
    ∃ k, decodeFrames decode evnMsg mgr (frames.take k) cached s = none ∨
      ∃ r, decodeFrames decode evnMsg mgr (frames.take k) cached s = some r ∧
        r.accepted = true ∧ r.cachedXscPdu = [] ∧
        let d := drain (pduScanner decode laws) (evnMsg mgr)
          (cached ++ (frames.take k).flatten) s
        d.stop = .starved ∧ d.rest ≠ [] ∧ r.dispatched = d.items := by
  induction frames generalizing cached s with
  | nil => exact absurd (fun k hk => absurd hk (Nat.not_lt_zero k)) hnot
  | cons frame frames ih =>
      replace hnot := mt (leftoversSettled_cons_iff laws hcached).mpr hnot
      by_cases hfirst : cached ≠ [] →
          (drain (pduScanner decode laws) (evnMsg mgr) (cached ++ frame) s).stop = .starved →
          (drain (pduScanner decode laws) (evnMsg mgr) (cached ++ frame) s).rest = []
      · -- the frame is decoded as it should be, and a later one is not
        have hlater := not_and.mp hnot hfirst
        obtain ⟨hs, hlater⟩ := Classical.not_imp.mp hlater
        obtain ⟨r, hr, hrd⟩ := decodeFrameBinary_spec laws evnMsg mgr cached s frame hfirst
        obtain ⟨k, hk⟩ := ih (pduScan_more_iff.mp (drain_starved_rest _ _ hs)) hlater
        rw [← hrd.cached hs, ← hrd.st] at hk
        have hstep : decodeFrames decode evnMsg mgr ((frame :: frames).take (k + 1)) cached s =
            (decodeFrames decode evnMsg mgr (frames.take k) r.cachedXscPdu r.st).map
              fun q => { q with dispatched := r.dispatched ++ q.dispatched } := by
          simp [decodeFrames, hr, hrd.accepted.mpr hs]
        refine ⟨k + 1, ?_⟩
        rw [hstep]
        rcases hk with hnone | ⟨q, hq, haccept, hcache, hstop, hrest, hitems⟩
        · exact .inl (by rw [hnone]; rfl)
        · right
          have happend := drain_append_starved (pduScanner decode laws) (evnMsg mgr)
            (frames.take k).flatten hs
          rw [hrd.cached hs, hrd.st] at hstop hrest hitems
          refine ⟨{ q with dispatched := r.dispatched ++ q.dispatched }, by rw [hq]; rfl, haccept,
            hcache, ?_⟩
          rw [List.take_succ_cons, List.flatten_cons, ← List.append_assoc, happend]
          exact ⟨hstop, hrest, by rw [hrd.dispatched, hitems]; rfl⟩
      · -- this frame leaves something, and what it leaves is lost
        obtain ⟨hne, hleft⟩ := Classical.not_imp.mp hfirst
        obtain ⟨hs, hrest⟩ := Classical.not_imp.mp hleft
        refine ⟨1, ?_⟩
        have hone : ((frame :: frames).take 1).flatten = frame := by simp
        rw [hone]
        rcases decodeFrameBinary_leftover laws evnMsg mgr cached s frame hne hs hrest with
          hnone | hsome
        · exact .inl (by simp [decodeFrames, hnone])
        · refine .inr ⟨_, by simp [decodeFrames, hsome]; rfl, rfl, rfl, hs, hrest, by simp⟩

end Frames

section Agreement

open XmsgImWebSocketChannel

/-- WebSocket reassembly agrees with the TCP path: the frames dispatch exactly the PDUs that
`evnRecv` dispatches on the whole stream, and after every accepted frame the cache is the
part of the bytes received so far that is not decoded yet: what follows the dispatched PDUs,
at which no PDU starts. -/
def ReassemblyAgrees (decode : Decode) (evnMsg : G → σ → XscProtoPdu → σ × Bool)
    (mgr h2nMsgMgr : G) (frames : List Bytes) (s : σ) : Prop :=
  ∃ ws tcp, decodeFrames decode evnMsg mgr frames [] s = some ws ∧
    XmsgImTcpChannel.evnRecv decode evnMsg .ACTOR_N2H mgr h2nMsgMgr frames.flatten s =
      some tcp ∧
    ws.dispatched = tcp.dispatched ∧ ws.st = tcp.st ∧
    ∀ k, ∃ r, decodeFrames decode evnMsg mgr (frames.take k) [] s = some r ∧
      (r.accepted = true →
        r.cachedXscPdu =
          (frames.take k).flatten.drop ((r.dispatched.map (·.transm.len)).sum) ∧
        decode r.cachedXscPdu = (none, false))

/-- Frames that settle what is left do so up to any of them. -/
theorem LeftoversSettled.take {decode : Decode} {evnMsg : σ → XscProtoPdu → σ × Bool}
    {cached : Bytes} {frames : List Bytes} {s : σ}
    (h : LeftoversSettled decode evnMsg cached frames s) (n : Nat) :
    LeftoversSettled decode evnMsg cached (frames.take n) s := by
  intro k hk hok hwithin
  rw [List.length_take] at hk
  have htake (j : Nat) (hj : j ≤ n) : (frames.take n).take j = frames.take j := by
    rw [List.take_take, Nat.min_eq_left hj]
  rw [htake k (by omega)] at hwithin
  rw [htake (k + 1) (by omega)]
  refine h k (by omega) ?_ hwithin
  intro j hj
  rw [← htake j (by omega)]
  exact hok j hj

/-- However a byte stream is cut into frame payloads, WebSocket reassembly agrees with the TCP
path exactly when each frame that arrives with bytes still cached is decoded to its end or
rejected.  Nothing is assumed of `evnMsg`; when it refuses a PDU both sides stop there. -/
theorem webSocket_reassembly_agrees_iff {decode : Decode} (laws : DecodeLaws decode)
    (evnMsg : G → σ → XscProtoPdu → σ × Bool) (mgr h2nMsgMgr : G) (frames : List Bytes)
    (s : σ) :
    ReassemblyAgrees decode evnMsg mgr h2nMsgMgr frames s ↔
      LeftoversSettled decode (evnMsg mgr) [] frames s := by
  have hnil : (pduScanner decode laws).scan [] = .more := pduScan_more_iff.mpr laws.empty
  constructor
  · rintro ⟨-, -, -, -, -, -, hcaches⟩
    by_contra hnot
    obtain ⟨k, hk⟩ := decodeFrames_leftover laws evnMsg mgr laws.empty hnot
    obtain ⟨r, hr, hcache⟩ := hcaches k
    rcases hk with hnone | ⟨r', hr', haccept, hempty, hs, hrest, hitems⟩
    · rw [hnone] at hr
      cases hr
    · -- the cache is empty and bytes are left
      rw [hr'] at hr
      cases hr
      rw [List.nil_append] at hs hrest hitems
      refine hrest ?_
      rw [drain_rest_eq_drop (pduScanner_scans laws) (evnMsg mgr) hs, ← hitems, ← hempty]
      exact (hcache haccept).1.symm
  · intro hsettled
    obtain ⟨ws, hws, hwsd⟩ := decodeFrames_spec laws evnMsg mgr laws.empty hsettled
    obtain ⟨hitems, hst⟩ := feed_items_eq_drain (pduScanner decode laws) (evnMsg mgr) frames s
      hnil
    rw [List.nil_append] at hitems hst
    refine ⟨ws, _, hws,
      recvPdus_eq_drain (pduScanner_scans laws) (evnMsg mgr) frames.flatten s,
      hwsd.dispatched.trans hitems, hwsd.st.trans hst, ?_⟩
    intro k
    obtain ⟨r, hr, hrd⟩ := decodeFrames_spec laws evnMsg mgr laws.empty (hsettled.take k)
    refine ⟨r, hr, fun hacc => ?_⟩
    have hstarved := hrd.accepted.mp hacc
    have hfeed := feed_eq_drain (pduScanner decode laws) (evnMsg mgr) hnil hstarved
    rw [List.nil_append] at hfeed
    have hcached := hrd.cached hstarved
    rw [hfeed] at hstarved hcached
    rw [hcached, hrd.dispatched, hfeed]
    exact ⟨drain_rest_eq_drop (pduScanner_scans laws) (evnMsg mgr) hstarved,
      pduScan_more_iff.mp (drain_starved_rest _ _ hstarved)⟩

/-- A codec that knows heartbeats: a byte with the high bit set and as many bytes after it as
its other bits say. -/
def heartbeatDecode : Decode
  | [] => (none, false)
  | b :: r =>
      if b &&& 0x80 = 0 then (none, true)
      else if r.length < (b &&& 0x7F).toNat then (none, false)
      else (some { transm := { indicator := b, len := 1 + (b &&& 0x7F).toNat } }, false)

theorem heartbeatDecode_some {b : Bytes} {pdu : XscProtoPdu} {e : Bool}
    (h : heartbeatDecode b = (some pdu, e)) :
    ∃ x r, b = x :: r ∧ x &&& 0x80 ≠ 0 ∧ pdu.transm.len = 1 + (x &&& 0x7F).toNat ∧
      (x &&& 0x7F).toNat ≤ r.length ∧
      ∀ r' : Bytes, heartbeatDecode (x :: r') =
        if r'.length < (x &&& 0x7F).toNat then (none, false) else (some pdu, e) := by
  cases b with
  | nil => cases h
  | cons x r =>
      by_cases hx : x &&& 0x80 = 0
      · simp [heartbeatDecode, hx] at h
      · by_cases hr : r.length < (x &&& 0x7F).toNat
        · rw [heartbeatDecode, if_neg hx, if_pos hr] at h
          cases h
        · rw [heartbeatDecode, if_neg hx, if_neg hr] at h
          cases h
          exact ⟨x, r, rfl, hx, rfl, by omega, fun r' => if_neg hx⟩

theorem heartbeatDecode_laws : DecodeLaws heartbeatDecode where
  empty := rfl
  len_bounds := by
    intro b pdu e h
    obtain ⟨x, r, rfl, -, hlen, hle, -⟩ := heartbeatDecode_some h
    rw [hlen, List.length_cons]
    omega
  own_bytes := by
    intro b pdu e h
    obtain ⟨x, r, rfl, -, hlen, hle, hall⟩ := heartbeatDecode_some h
    rw [hlen, Nat.add_comm, List.take_succ_cons, hall, List.length_take]
    exact if_neg (by omega)
  stable := by
    intro b pdu e r' h
    obtain ⟨x, r, rfl, -, -, hle, hall⟩ := heartbeatDecode_some h
    rw [List.cons_append, hall, List.length_append]
    exact if_neg (by omega)
  proper_prefix := by
    intro b pdu e k h hk
    obtain ⟨x, r, rfl, -, hlen, hle, hall⟩ := heartbeatDecode_some h
    cases k with
    | zero => rfl
    | succ k =>
        rw [List.take_succ_cons, hall, List.length_take]
        exact if_pos (by omega)

/-- A heartbeat of two bytes in two frames, behind one of one byte. -/
theorem webSocket_reassembly_agrees_iff_heartbeats :
    ReassemblyAgrees heartbeatDecode (fun (_ : Unit) n _ => (n + 1, true)) () ()
      [[0x80, 0x81], [7]] 0 := by
  refine (webSocket_reassembly_agrees_iff heartbeatDecode_laws
    (fun (_ : Unit) (n : Nat) _ => (n + 1, true)) () () [[0x80, 0x81], [7]] 0).mpr ?_
  exact leftoversSettled_pair heartbeatDecode_laws (.pdu rfl rfl (.pdu rfl rfl .boundary))

example :
    decodeFrames heartbeatDecode (fun (_ : Unit) n _ => (n + 1, true)) ()
      [[0x80, 0x81], [7]] [] 0 =
    some ⟨true, [{ transm := { indicator := 0x80, len := 1 } },
      { transm := { indicator := 0x81, len := 2 } }], [], 2⟩ := by
  decide

/-- A heartbeat of six bytes over three frames: the second frame empties the cache, the third
is refused, and nothing is dispatched, where the TCP path dispatches the heartbeat.  And one of
two bytes with the beginning of another behind it, in the second of two frames, has no defined
result. -/
theorem webSocket_reassembly_loses_leftovers :
    DecodeLaws heartbeatDecode ∧
      decodeFrames heartbeatDecode (fun (_ : Unit) n _ => (n + 1, true)) ()
        [[0x85, 1], [2, 3], [4, 5]] [] 0 = some ⟨false, [], [], 0⟩ ∧
      XmsgImTcpChannel.evnRecv heartbeatDecode (fun (_ : Unit) n _ => (n + 1, true)) .ACTOR_N2H
        () () [0x85, 1, 2, 3, 4, 5] 0 =
          some ⟨6, [{ transm := { indicator := 0x85, len := 6 } }], 1⟩ ∧
      ¬ ReassemblyAgrees heartbeatDecode (fun (_ : Unit) n _ => (n + 1, true)) () ()
        [[0x85, 1], [2, 3], [4, 5]] 0 ∧
      decodeFrames heartbeatDecode (fun (_ : Unit) n _ => (n + 1, true)) ()
        [[0x81], [7, 0x81]] [] 0 = none ∧
      ¬ ReassemblyAgrees heartbeatDecode (fun (_ : Unit) n _ => (n + 1, true)) () ()
        [[0x81], [7, 0x81]] 0 := by
  refine ⟨heartbeatDecode_laws, by decide, by decide, ?_, by decide, ?_⟩
  · rintro ⟨ws, tcp, hws, htcp, hdispatched, -⟩
    cases hws
    cases htcp
    cases hdispatched
  · rintro ⟨ws, -, hws, -⟩
    cases hws

end Agreement

end XmsgImXsc
