/-
# XmsgImXsc.Channel -- the table of outstanding initiative transactions

`XmsgImChannel` keeps the transactions it began and that are not ended yet in `transInit`,
an `unordered_map` from `stid` to the transaction.  It is an association list with distinct
keys here; its order stands for the iteration order of the map.

An operation that ends transactions takes them out of the table first and runs the callbacks
afterwards.  The functions below stop where the first callback would run: they return the
new channel and the transactions taken out, and `ChannelRun` interleaves the callbacks.
-/
import XmsgImXsc.Lib.Table
import XmsgImXsc.Send

namespace XmsgImXsc

variable {D M : Type}

/-- What the library reads of the servers' configuration, and `DateMisc::sec`. -/
structure XscCfg where
  sec : UInt64
  h2nTransTimeout : UInt32
  n2hTransTimeout : UInt32
  rudpN2hTransTimeout : UInt32
  deriving Repr, DecidableEq

/-- `transInit`. -/
abbrev TransInit (M : Type) := Tables.Table UInt32 (XmsgImTransInitiative M)

/-- The state of a channel on the initiative side. -/
structure XmsgImChannel (M : Type) where
  transInit : TransInit M
  lastCheckTransTs : UInt64
  tidSeq : UInt32
  at_ : ActorType
  pro : XscProtocolType

namespace XmsgImChannel

/-! ## Beginning a transaction

The transaction object that `begin` hands to the queued closure.  `ptr` is the address of
the new object and `gts` the clock. -/

/-- `begin(req, cb, oob)`. -/
def begin_ (ptr : Nat) (gts : UInt64) (req : M) (oob : Option Oob) : XmsgImTransInitiative M :=
  { ({ ptr := ptr, gts := gts, beginMsg := some req } : XmsgImTrans M).addOobs oob with
    raw := false }

/-- `begin(msg, dat, cb, oob, raw)`: the request travels in `rawMsg`. -/
def beginDat (ptr : Nat) (gts : UInt64) (msg : Text) (dat : Bytes) (oob : Option Oob)
    (raw : Bool) : XmsgImTransInitiative M :=
  { ({ ptr := ptr, gts := gts, rawMsg := some ⟨msg, dat⟩ } : XmsgImTrans M).addOobs oob with
    raw := raw }

/-- `genTid`. -/
def genTid (c : XmsgImChannel M) : XmsgImChannel M × UInt32 :=
  ({ c with tidSeq := c.tidSeq + 1 }, c.tidSeq + 1)

/-- `futureBegin` up to `sendBegin`: the transaction gets a fresh tid and enters the table
under it. -/
def futureBegin (c : XmsgImChannel M) (trans : XmsgImTransInitiative M) :
    XmsgImChannel M × XmsgImTransInitiative M :=
  let (c, tid) := c.genTid
  let trans := { trans with stid := tid }
  ({ c with transInit := c.transInit.insert tid trans }, trans)

/-! ## Ending transactions -/

/-- `evnEnd` up to `trans->end(pdu)`: the entry for the peer's `dtid` is taken out, if there
is one. -/
def evnEnd (c : XmsgImChannel M) (end_ : XscProtoTransaction) :
    XmsgImChannel M × Option (XmsgImTransInitiative M) :=
  match c.transInit.lookup end_.dtid with
  | none => (c, none)
  | some t => ({ c with transInit := c.transInit.erase end_.dtid }, some t)

/-- What `evnEnd` returns: true without an entry, otherwise what `trans->end(pdu)` does. -/
def evnEndRet (K : XscProto) (pb : Protobuf D M) (c : XmsgImChannel M) (pdu : XscProtoPdu)
    (end_ : XscProtoTransaction) : Bool :=
  match (c.evnEnd end_).2 with
  | none => true
  | some t => (t.endPdu K pb pdu end_).2

/-- `now < trans->gts + tm`: the transaction stays in the table. -/
def notExpired (tm : Int32) (now : UInt64) (trans : XmsgImTransInitiative M) : Bool :=
  now < trans.gts + tm.toInt64.toUInt64

/-- `checkTransInit` up to its second loop: the transactions it is going to end with
`RET_TIME_OUT` and "local timeout".  `tm` is `n2hTransTimeout()`. -/
def checkTransInit (sec : UInt64) (tm : Int32) (c : XmsgImChannel M) (now : UInt64) :
    XmsgImChannel M × List (XmsgImTransInitiative M) :=
  if now < c.lastCheckTransTs + 10 * sec then (c, [])
  else
    let c := { c with lastCheckTransTs := now }
    let tmp := (Tables.values c.transInit).filter fun trans => !notExpired tm now trans
    ({ c with transInit := Tables.filter (notExpired tm now) c.transInit }, tmp)

/-- `cleanTransInit` up to its second loop: the transactions it is going to end with
`RET_TIME_OUT` and "local clean". -/
def cleanTransInit (c : XmsgImChannel M) : XmsgImChannel M × List (XmsgImTransInitiative M) :=
  ({ c with transInit := ∅ }, Tables.values c.transInit)

/-- `n2hTransTimeout`.  No configuration is read for UDP. -/
def n2hTransTimeout (cfg : XscCfg) (c : XmsgImChannel M) : Int32 :=
  let ofSec (tm : UInt32) : Int32 := (tm.toUInt64 * cfg.sec).toUInt32.toInt32
  match c.pro with
  | .XSC_PROTOCOL_TCP | .XSC_PROTOCOL_HTTP | .XSC_PROTOCOL_WEBSOCKET =>
      ofSec (match c.at_ with
        | .ACTOR_H2N => cfg.h2nTransTimeout
        | .ACTOR_N2H => cfg.n2hTransTimeout)
  | .XSC_PROTOCOL_RUDP => ofSec cfg.rudpN2hTransTimeout
  | .XSC_PROTOCOL_UDP => 10

end XmsgImChannel

/-! ## The overrides of the five transports -/

open XmsgImChannel

/-- `clean()` of a TCP channel: what is outstanding ends. -/
def XmsgImTcpChannel.clean (c : XmsgImChannel M) :
    XmsgImChannel M × List (XmsgImTransInitiative M) := c.cleanTransInit

/-- `clean()` of a RUDP channel, like that of a TCP channel. -/
def XmsgImRudpChannel.clean (c : XmsgImChannel M) :
    XmsgImChannel M × List (XmsgImTransInitiative M) := c.cleanTransInit

/-- `clean()` of a WebSocket channel has an empty body. -/
def XmsgImWebSocketChannel.clean (c : XmsgImChannel M) :
    XmsgImChannel M × List (XmsgImTransInitiative M) := (c, [])

/-- `clean()` of a UDP channel has an empty body. -/
def XmsgImUdpChannel.clean (c : XmsgImChannel M) :
    XmsgImChannel M × List (XmsgImTransInitiative M) := (c, [])

/-- `clean()` of an HTTP channel has an empty body. -/
def XmsgImHttpChannel.clean (c : XmsgImChannel M) :
    XmsgImChannel M × List (XmsgImTransInitiative M) := (c, [])

/-- The virtual call `clean()`, made when the channel is lost. -/
def XmsgImChannel.clean (c : XmsgImChannel M) :
    XmsgImChannel M × List (XmsgImTransInitiative M) :=
  match c.pro with
  | .XSC_PROTOCOL_TCP => XmsgImTcpChannel.clean c
  | .XSC_PROTOCOL_RUDP => XmsgImRudpChannel.clean c
  | .XSC_PROTOCOL_WEBSOCKET => XmsgImWebSocketChannel.clean c
  | .XSC_PROTOCOL_UDP => XmsgImUdpChannel.clean c
  | .XSC_PROTOCOL_HTTP => XmsgImHttpChannel.clean c

/-! ## What the operations do to the table -/

namespace XmsgImChannel

/-- The outstanding transactions. -/
def pending (c : XmsgImChannel M) : List (XmsgImTransInitiative M) := Tables.values c.transInit

/-- Every transaction is in the table under its own tid. -/
def Keyed (c : XmsgImChannel M) : Prop := Tables.All (fun k t => t.stid = k) c.transInit

variable {c : XmsgImChannel M}

/-- A begin adds the transaction and drops the one it overwrites, if any. -/
theorem futureBegin_pending (c : XmsgImChannel M) (trans : XmsgImTransInitiative M) :
    (c.futureBegin trans).1.pending =
      (c.futureBegin trans).2 :: Tables.values (c.transInit.erase (c.tidSeq + 1)) := rfl

/-- A transaction that is begun is in the table. -/
theorem futureBegin_pending_ne_nil (c : XmsgImChannel M) (trans : XmsgImTransInitiative M) :
    (c.futureBegin trans).1.pending ≠ [] := by
  rw [futureBegin_pending]
  exact List.cons_ne_nil _ _

/-- It is there under its own tid. -/
theorem futureBegin_keyed (h : c.Keyed) (trans : XmsgImTransInitiative M) :
    (c.futureBegin trans).1.Keyed :=
  Tables.All.insert h rfl

/-- `c'` is `c` with the transactions `ts` taken out of its table. -/
structure TakesOut (c c' : XmsgImChannel M) (ts : List (XmsgImTransInitiative M)) : Prop where
  perm : c.pending.Perm (ts ++ c'.pending)
  sub : ∀ k t, c'.transInit.lookup k = some t → c.transInit.lookup k = some t
  pro : c'.pro = c.pro
  tidSeq : c'.tidSeq = c.tidSeq

theorem TakesOut.refl (c : XmsgImChannel M) : c.TakesOut c [] :=
  ⟨List.Perm.refl _, fun _ _ h => h, rfl, rfl⟩

/-- Taking entries out leaves the others where they are. -/
theorem TakesOut.keyed {c c' : XmsgImChannel M} {ts : List (XmsgImTransInitiative M)}
    (h : c.TakesOut c' ts) (hkeyed : c.Keyed) : c'.Keyed := by
  intro k t hlook
  exact hkeyed k t (h.sub k t hlook)

theorem TakesOut.pending_subset {c c' : XmsgImChannel M} {ts : List (XmsgImTransInitiative M)}
    (h : c.TakesOut c' ts) : c'.pending ⊆ c.pending := by
  intro t ht
  exact h.perm.mem_iff.mpr (List.mem_append_right _ ht)

/-- An entry taken out or left in the table was in it before. -/
theorem TakesOut.empty {c c' : XmsgImChannel M} {ts : List (XmsgImTransInitiative M)}
    (h : c.TakesOut c' ts) (hempty : c.pending = []) : ts = [] ∧ c'.pending = [] := by
  have hperm := h.perm
  rw [hempty] at hperm
  exact List.append_eq_nil_iff.mp hperm.nil_eq.symm

/-- `evnEnd` takes out the entry found under the peer's `dtid`, if there is one. -/
theorem evnEnd_takesOut (c : XmsgImChannel M) (end_ : XscProtoTransaction) :
    c.TakesOut (c.evnEnd end_).1 (c.evnEnd end_).2.toList := by
  unfold evnEnd
  cases hlook : c.transInit.lookup end_.dtid with
  | none => exact TakesOut.refl c
  | some t =>
      refine ⟨Tables.values_erase_perm hlook, ?_, rfl, rfl⟩
      exact fun k t' => Tables.lookup_of_erase

/-- The sweep takes out the expired entries, or none. -/
theorem checkTransInit_takesOut (c : XmsgImChannel M) (sec : UInt64) (tm : Int32)
    (now : UInt64) :
    c.TakesOut (c.checkTransInit sec tm now).1 (c.checkTransInit sec tm now).2 := by
  unfold checkTransInit
  split
  · exact TakesOut.refl c
  · refine ⟨Tables.values_filter_perm (notExpired tm now) c.transInit, ?_, rfl, rfl⟩
    exact fun k t => Tables.lookup_of_filter

/-- The cleanup takes out every entry. -/
theorem cleanTransInit_takesOut (c : XmsgImChannel M) :
    c.TakesOut c.cleanTransInit.1 c.pending := by
  refine ⟨?_, ?_, rfl, rfl⟩
  · show c.pending.Perm (c.pending ++ [])
    rw [List.append_nil]
  · intro k t hlook
    simp [cleanTransInit] at hlook

/-- Whichever class the channel is of, `clean` takes out every entry or none. -/
theorem clean_takesOut (c : XmsgImChannel M) : c.TakesOut c.clean.1 c.clean.2 := by
  unfold clean
  cases c.pro with
  | XSC_PROTOCOL_TCP => exact c.cleanTransInit_takesOut
  | XSC_PROTOCOL_RUDP => exact c.cleanTransInit_takesOut
  | XSC_PROTOCOL_HTTP => exact TakesOut.refl c
  | XSC_PROTOCOL_WEBSOCKET => exact TakesOut.refl c
  | XSC_PROTOCOL_UDP => exact TakesOut.refl c

/-- No entry is left exactly when the table is the empty one. -/
theorem pending_eq_nil_iff : c.pending = [] ↔ c.transInit = ∅ := by
  unfold pending Tables.values
  rw [List.map_eq_nil_iff]
  constructor
  · intro h
    exact AList.ext h
  · intro h
    rw [h]
    rfl

/-! ## What they do to the other fields -/

@[simp] theorem evnEnd_last (end_ : XscProtoTransaction) :
    (c.evnEnd end_).1.lastCheckTransTs = c.lastCheckTransTs := by
  unfold evnEnd
  split <;> rfl

@[simp] theorem evnEnd_at (end_ : XscProtoTransaction) : (c.evnEnd end_).1.at_ = c.at_ := by
  unfold evnEnd
  split <;> rfl

@[simp] theorem checkTransInit_at (sec : UInt64) (tm : Int32) (now : UInt64) :
    (c.checkTransInit sec tm now).1.at_ = c.at_ := by
  unfold checkTransInit
  split <;> rfl

/-- What the timeout is read from. -/
theorem n2hTransTimeout_congr {c' : XmsgImChannel M} (cfg : XscCfg) (hpro : c'.pro = c.pro)
    (hat : c'.at_ = c.at_) : c'.n2hTransTimeout cfg = c.n2hTransTimeout cfg := by
  unfold n2hTransTimeout
  rw [hpro, hat]

end XmsgImChannel

end XmsgImXsc
