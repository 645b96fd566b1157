/-
# XmsgImXsc.Pdu -- the XSC PDU as this library reads and builds it

`libxsc-proto` owns the PDU and its codec; only what this library reads or writes of it is
a field here.  A C `uchar*` with its `dlen` is one `Bytes` value, a null pointer being the
empty one.  The numeric constants of `libxsc-proto` (return codes, indicator bits, header
tags) are not part of this repository, so they are a parameter, `XscProto`.

The codec itself is a parameter too.  `DecodeLaws` lists what the receive routines rely on.
-/
import Mathlib.Init

namespace XmsgImXsc

/-- Bytes in memory or on the wire. -/
abbrev Bytes := List UInt8

/-- A `std::string`: any bytes.  Nothing makes them UTF-8. -/
abbrev Text := Bytes

/-- The bytes of a string literal. -/
@[coe] def Text.lit (s : String) : Text := s.toUTF8.data.toList

instance : Coe String Text := ⟨Text.lit⟩

/-- The list of `(tag, value)` pairs of an out-of-band header. -/
abbrev Oob := List (UInt8 × Text)

/-! ## Constants of the wire protocol -/

/-- The constants of `libxsc-proto` that this library compares with or sends. -/
structure XscProto where
  RET_SUCCESS : UInt16
  RET_FAILURE : UInt16
  RET_EXCEPTION : UInt16
  RET_TIME_OUT : UInt16
  XSC_TAG_TRANSM_PING : UInt8
  XSC_TAG_TRANSM_PONG : UInt8
  XSC_TAG_INTERCEPT : UInt8
  deriving Repr, DecidableEq

/-- One choice of the constants, for the examples on fixed inputs. -/
def XscProto.sample : XscProto where
  RET_SUCCESS := 0
  RET_FAILURE := 1
  RET_EXCEPTION := 2
  RET_TIME_OUT := 3
  XSC_TAG_TRANSM_PING := 0x80
  XSC_TAG_TRANSM_PONG := 0xC0
  XSC_TAG_INTERCEPT := 0x01

/-- `XscProtoTransaction::trans`.  The tags that `evnMsg` does not switch on are `other`. -/
inductive XscTransTag where
  | BEGIN
  | END
  | UNIDIRECTION
  | PARTIAL
  | other (tag : UInt8)
  deriving Repr, DecidableEq

/-- `XscProtocolType`, the transports `XmsgImChannel` knows. -/
inductive XscProtocolType where
  | XSC_PROTOCOL_TCP
  | XSC_PROTOCOL_HTTP
  | XSC_PROTOCOL_WEBSOCKET
  | XSC_PROTOCOL_UDP
  | XSC_PROTOCOL_RUDP
  deriving Repr, DecidableEq

/-- `ActorType`: the side that opened the connection. -/
inductive ActorType where
  | ACTOR_N2H
  | ACTOR_H2N
  deriving Repr, DecidableEq

/-! ## The PDU -/

/-- The transaction layer. -/
structure XscProtoTransaction where
  trans : XscTransTag
  partSeq : Nat := 0
  haveNextPart : Bool := false
  refDat : Bool := false
  stid : UInt32 := 0
  dtid : UInt32 := 0
  ret : UInt16 := 0
  desc : Text := []
  msg : Text := []
  dat : Bytes := []
  deriving Repr, DecidableEq

/-- The transmission header; a null `oob` pointer is `none`. -/
structure XscTransmissionHeader where
  oob : Option Oob := none
  deriving Repr, DecidableEq

/-- The transmission layer.  `len` is the encoded size a decode reports. -/
structure XscTransmission where
  indicator : UInt8 := 0
  header : Option XscTransmissionHeader := none
  trans : Option XscProtoTransaction := none
  len : Nat := 0
  deriving Repr, DecidableEq

/-- `XscProtoPdu`, of which only the transmission is used here. -/
structure XscProtoPdu where
  transm : XscTransmission := {}
  deriving Repr, DecidableEq

/-- The out-of-band list a receiver copies: both pointers have to be set. -/
def XscProtoPdu.oob (pdu : XscProtoPdu) : Option Oob :=
  pdu.transm.header.bind (·.oob)

/-! ## The codec as a parameter -/

/-- `XscProtoPdu::decode(dat, len, &exp)`: the PDU, null when there is none, and the value
written to `exp`.  It is a function of the bytes it is given. -/
abbrev Decode := Bytes → Option XscProtoPdu × Bool

/-- What the receive routines rely on.  A PDU occupies the first `transm.len` bytes of the
buffer it was decoded from. -/
structure DecodeLaws (decode : Decode) : Prop where
  /-- A PDU takes at least one byte and no more than there are. -/
  len_bounds : ∀ {b pdu e}, decode b = (some pdu, e) →
    0 < pdu.transm.len ∧ pdu.transm.len ≤ b.length
  /-- The bytes of the PDU alone decode to it. -/
  own_bytes : ∀ {b pdu e}, decode b = (some pdu, e) →
    decode (b.take pdu.transm.len) = (some pdu, e)
  /-- Once a PDU is decoded, bytes that follow do not change the result. -/
  stable : ∀ {b pdu e} (r : Bytes), decode b = (some pdu, e) → decode (b ++ r) = (some pdu, e)
  /-- No bytes are a proper prefix of every PDU. -/
  empty : decode [] = (none, false)
  /-- On a proper prefix of a PDU the result is null without `exp`. -/
  proper_prefix : ∀ {b pdu e} (k : Nat), decode b = (some pdu, e) → k < pdu.transm.len →
    decode (b.take k) = (none, false)

/-- The transaction layer `got` that the peer decodes from one sent as `sent`. -/
structure XscProtoTransaction.CarriedAs (sent got : XscProtoTransaction) : Prop where
  trans : got.trans = sent.trans
  stid : got.stid = sent.stid
  dtid : got.dtid = sent.dtid
  ret : got.ret = sent.ret
  desc : got.desc = sent.desc
  msg : got.msg = sent.msg
  dat : got.dat = sent.dat

end XmsgImXsc
