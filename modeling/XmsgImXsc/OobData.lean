/-
# XmsgImXsc.OobData -- out-of-band data on its way to the peer

Every function that begins a transaction or sends a message copies the list it is given
into the transaction, the three PDU builders copy that list into the header, and the three
receiving transactions copy it out again.  A null pointer stands for the empty list
throughout.

The functions are near copies of each other and differ in whether the message is an object
or raw, and in the intercept entry that the `2ne` variants put in front.
-/
import XmsgImXsc.Channel

namespace XmsgImXsc

variable {D M : Type}

/-- The entries of an out-of-band list, none behind a null pointer. -/
abbrev oobEntries (oob : Option Oob) : Oob := oob.getD []

/-! ## The functions that start a transaction

Each gives the transaction that the queued closure hands to `futureBegin` or to
`futureUnidirection`.  The names `sne` and `dne` of the network elements are not used. -/

namespace XmsgImChannel

/-- What the functions have in common: the entries of the list are added, in order, to a new
transaction. -/
def newInitiative (trans : XmsgImTrans M) (oob : Option Oob) (raw : Bool) :
    XmsgImTransInitiative M :=
  { trans.addOobs oob with raw := raw }

/-- `forwardBegin(sne, dne, req, cb, oob)`. -/
def forwardBegin (ptr : Nat) (gts : UInt64) (req : M) (oob : Option Oob) :
    XmsgImTransInitiative M :=
  newInitiative { ptr := ptr, gts := gts, beginMsg := some req } oob false

/-- `forwardBegin2ne(sne, dne, req, cb, oob)`: marked as intercepted already, before the
caller's entries. -/
def forwardBegin2ne (K : XscProto) (ptr : Nat) (gts : UInt64) (req : M) (oob : Option Oob) :
    XmsgImTransInitiative M :=
  let trans := ({ ptr := ptr, gts := gts } : XmsgImTrans M).addOob K.XSC_TAG_INTERCEPT "enable"
  newInitiative { trans with beginMsg := some req } oob false

/-- `forwardBegin(sne, dne, msg, dat, cb, oob, raw)`. -/
def forwardBeginDat (ptr : Nat) (gts : UInt64) (msg : Text) (dat : Bytes)
    (oob : Option Oob) (raw : Bool) : XmsgImTransInitiative M :=
  newInitiative { ptr := ptr, gts := gts, rawMsg := some ⟨msg, dat⟩ } oob raw

/-- `forwardUnidirection(sne, dne, uni, oob)`. -/
def forwardUnidirection (ptr : Nat) (gts : UInt64) (uni : M) (oob : Option Oob) :
    XmsgImTrans M :=
  ({ ptr := ptr, gts := gts, uniMsg := some uni } : XmsgImTrans M).addOobs oob

/-- `forwardUnidirection2ne(sne, dne, uni, oob)`, marked like the BEGIN. -/
def forwardUnidirection2ne (K : XscProto) (ptr : Nat) (gts : UInt64) (uni : M)
    (oob : Option Oob) : XmsgImTrans M :=
  let trans := ({ ptr := ptr, gts := gts } : XmsgImTrans M).addOob K.XSC_TAG_INTERCEPT "enable"
  ({ trans with uniMsg := some uni } : XmsgImTrans M).addOobs oob

/-- `unidirection(uni, oob)`. -/
def unidirection (ptr : Nat) (gts : UInt64) (uni : M) (oob : Option Oob) : XmsgImTrans M :=
  ({ ptr := ptr, gts := gts, uniMsg := some uni } : XmsgImTrans M).addOobs oob

/-- `unidirection(msg, dat, oob)`. -/
def unidirectionDat (ptr : Nat) (gts : UInt64) (msg : Text) (dat : Bytes)
    (oob : Option Oob) : XmsgImTrans M :=
  ({ ptr := ptr, gts := gts, rawMsg := some ⟨msg, dat⟩ } : XmsgImTrans M).addOobs oob

end XmsgImChannel

/-- A call of one of the five functions that begin a transaction. -/
inductive BeginCall (M : Type) where
  | forwardBegin (req : M) (oob : Option Oob)
  | forwardBegin2ne (req : M) (oob : Option Oob)
  | forwardBeginDat (msg : Text) (dat : Bytes) (oob : Option Oob) (raw : Bool)
  | begin_ (req : M) (oob : Option Oob)
  | beginDat (msg : Text) (dat : Bytes) (oob : Option Oob) (raw : Bool)

namespace BeginCall

variable (K : XscProto)

/-- The transaction that the call makes. -/
def trans (ptr : Nat) (gts : UInt64) : BeginCall M → XmsgImTransInitiative M
  | .forwardBegin req oob => XmsgImChannel.forwardBegin ptr gts req oob
  | .forwardBegin2ne req oob => XmsgImChannel.forwardBegin2ne K ptr gts req oob
  | .forwardBeginDat msg dat oob raw => XmsgImChannel.forwardBeginDat ptr gts msg dat oob raw
  | .begin_ req oob => XmsgImChannel.begin_ ptr gts req oob
  | .beginDat msg dat oob raw => XmsgImChannel.beginDat ptr gts msg dat oob raw

/-- The out-of-band data the peer is meant to see. -/
def oob : BeginCall M → Oob
  | .forwardBegin _ oob => oobEntries oob
  | .forwardBegin2ne _ oob => (K.XSC_TAG_INTERCEPT, "enable") :: oobEntries oob
  | .forwardBeginDat _ _ oob _ => oobEntries oob
  | .begin_ _ oob => oobEntries oob
  | .beginDat _ _ oob _ => oobEntries oob

end BeginCall

/-- A call of one of the four functions that send a message without an answer. -/
inductive UnidirectionCall (M : Type) where
  | forwardUnidirection (uni : M) (oob : Option Oob)
  | forwardUnidirection2ne (uni : M) (oob : Option Oob)
  | unidirection (uni : M) (oob : Option Oob)
  | unidirectionDat (msg : Text) (dat : Bytes) (oob : Option Oob)

namespace UnidirectionCall

variable (K : XscProto)

/-- The transaction that the call makes. -/
def trans (ptr : Nat) (gts : UInt64) : UnidirectionCall M → XmsgImTrans M
  | .forwardUnidirection uni oob => XmsgImChannel.forwardUnidirection ptr gts uni oob
  | .forwardUnidirection2ne uni oob => XmsgImChannel.forwardUnidirection2ne K ptr gts uni oob
  | .unidirection uni oob => XmsgImChannel.unidirection ptr gts uni oob
  | .unidirectionDat msg dat oob => XmsgImChannel.unidirectionDat ptr gts msg dat oob

/-- The out-of-band data the peer is meant to see. -/
def oob : UnidirectionCall M → Oob
  | .forwardUnidirection _ oob => oobEntries oob
  | .forwardUnidirection2ne _ oob => (K.XSC_TAG_INTERCEPT, "enable") :: oobEntries oob
  | .unidirection _ oob => oobEntries oob
  | .unidirectionDat _ _ oob => oobEntries oob

end UnidirectionCall

/-! ## Adding entries and looking them up -/

namespace XmsgImTrans

/-- Entries are added behind those that are there, of the same tag or not. -/
theorem addOob_entries (trans : XmsgImTrans M) (tag : UInt8) (val : Text) :
    oobEntries (trans.addOob tag val).ooob = oobEntries trans.ooob ++ [(tag, val)] := rfl

/-- The entries of the list come behind those there are, in its order. -/
theorem addOobs_entries (trans : XmsgImTrans M) (oob : Option Oob) :
    oobEntries (trans.addOobs oob).ooob = oobEntries trans.ooob ++ oobEntries oob := by
  cases oob with
  | none => exact (List.append_nil _).symm
  | some kv =>
      show oobEntries (kv.foldl (fun t it => t.addOob it.1 it.2) trans).ooob = _ ++ kv
      induction kv generalizing trans with
      | nil => exact (List.append_nil _).symm
      | cons it kv ih =>
          rw [List.foldl_cons, ih, addOob_entries, List.append_assoc]
          rfl

@[simp] theorem addOobs_ioob (trans : XmsgImTrans M) (oob : Option Oob) :
    (trans.addOobs oob).ioob = trans.ioob :=
  addOobs_field (·.ioob) (fun _ _ _ => rfl) trans oob

@[simp] theorem addOobs_beginMsg (trans : XmsgImTrans M) (oob : Option Oob) :
    (trans.addOobs oob).beginMsg = trans.beginMsg :=
  addOobs_field (·.beginMsg) (fun _ _ _ => rfl) trans oob

@[simp] theorem addOobs_uniMsg (trans : XmsgImTrans M) (oob : Option Oob) :
    (trans.addOobs oob).uniMsg = trans.uniMsg :=
  addOobs_field (·.uniMsg) (fun _ _ _ => rfl) trans oob

@[simp] theorem addOobs_rawMsg (trans : XmsgImTrans M) (oob : Option Oob) :
    (trans.addOobs oob).rawMsg = trans.rawMsg :=
  addOobs_field (·.rawMsg) (fun _ _ _ => rfl) trans oob

/-- The first entry under a tag is found. -/
theorem findOob_eq (tag : UInt8) (kv : Oob) :
    findOob tag kv = (kv.find? (·.1 = tag)).map (·.2) := by
  induction kv with
  | nil => rfl
  | cons it kv ih =>
      unfold findOob
      by_cases htag : it.1 = tag
      · rw [if_neg (not_not_intro htag), List.find?_cons_of_pos (by simpa using htag)]
        rfl
      · rw [if_pos htag, List.find?_cons_of_neg (by simpa using htag), ih]

/-- `getOob` in terms of the entries. -/
theorem getOob_eq (trans : XmsgImTrans M) (tag : UInt8) (val : Text) :
    trans.getOob tag val =
      ((oobEntries trans.ioob).find? (·.1 = tag)).elim (false, val) fun it => (true, it.2) := by
  unfold getOob
  cases trans.ioob with
  | none => rfl
  | some kv =>
      dsimp only [oobEntries, Option.getD_some]
      rw [findOob_eq]
      cases kv.find? (·.1 = tag) <;> rfl

/-- The two lookups agree. -/
theorem haveOob_eq_getOob (trans : XmsgImTrans M) (tag : UInt8) (val : Text) :
    trans.haveOob tag = (trans.getOob tag val).1 := by
  unfold haveOob getOob
  cases trans.ioob with
  | none => rfl
  | some kv =>
      dsimp only
      cases findOob tag kv <;> rfl

/-- The incoming out-of-band data of a transaction is `oob`, and that is what the two
lookups say: the value of the first entry with the tag, or nothing. -/
structure Sees (trans : XmsgImTrans M) (oob : Oob) : Prop where
  ioob : oobEntries trans.ioob = oob
  found : ∀ tag val it, oob.find? (·.1 = tag) = some it → trans.getOob tag val = (true, it.2)
  missing : ∀ tag val, (∀ it ∈ oob, it.1 ≠ tag) → trans.getOob tag val = (false, val)
  haveOob : ∀ tag val, trans.haveOob tag = true ↔ (trans.getOob tag val).1 = true

theorem Sees.of_entries {trans : XmsgImTrans M} {oob : Oob}
    (h : oobEntries trans.ioob = oob) : trans.Sees oob where
  ioob := h
  found := by
    intro tag val it hit
    rw [getOob_eq, h, hit, Option.elim_some]
  missing := by
    intro tag val hmissing
    have hnone : oob.find? (·.1 = tag) = none := by
      rw [List.find?_eq_none]
      intro it hit
      simpa using hmissing it hit
    rw [getOob_eq, h, hnone, Option.elim_none]
  haveOob := by
    intro tag val
    rw [haveOob_eq_getOob trans tag val]

end XmsgImTrans

/-! ## Senders -/

theorem oobHeader_oob (ooob : Option Oob) : (oobHeader ooob).bind (·.oob) = ooob := by
  cases ooob <;> rfl

/-- With a message there is a PDU, and it carries the outgoing list. -/
theorem beginPdu_spec (pb : Protobuf D M) {trans : XmsgImTransInitiative M}
    (h : trans.rawMsg.isSome ∨ trans.beginMsg.isSome) :
    ∃ pdu, beginPdu pb trans = some pdu ∧ pdu.oob = trans.ooob := by
  unfold beginPdu
  cases hraw : trans.rawMsg with
  | some raw => exact ⟨_, rfl, oobHeader_oob _⟩
  | none =>
      obtain ⟨m, hm⟩ := Option.isSome_iff_exists.mp (h.resolve_left (by simp [hraw]))
      rw [hm]
      exact ⟨_, rfl, oobHeader_oob _⟩

/-- A unidirection with a message has a PDU, and its out-of-band data are in the header. -/
theorem unidirectionPdu_spec (pb : Protobuf D M) {trans : XmsgImTrans M}
    (h : trans.rawMsg.isSome ∨ trans.uniMsg.isSome) :
    ∃ pdu, unidirectionPdu pb trans = some pdu ∧ pdu.oob = trans.ooob := by
  unfold unidirectionPdu
  cases hraw : trans.rawMsg with
  | some raw => exact ⟨_, rfl, oobHeader_oob _⟩
  | none =>
      obtain ⟨m, hm⟩ := Option.isSome_iff_exists.mp (h.resolve_left (by simp [hraw]))
      rw [hm]
      exact ⟨_, rfl, oobHeader_oob _⟩

/-- So are those of an END. -/
theorem endPdu_oob (pb : Protobuf D M) (trans : XmsgImTransPassive M) :
    (endPdu pb trans).oob = trans.ooob :=
  oobHeader_oob _

/-! ## Started transactions -/

section Started

variable (K : XscProto) (pb : Protobuf D M) (ptr : Nat) (gts : UInt64)

/-- A transaction that was begun holds its out-of-band data for sending and none received,
and it has a message. -/
theorem BeginCall.trans_spec (b : BeginCall M) :
    oobEntries (b.trans K ptr gts).ooob = b.oob K ∧ (b.trans K ptr gts).ioob = none ∧
      ((b.trans K ptr gts).rawMsg.isSome ∨ (b.trans K ptr gts).beginMsg.isSome) := by
  cases b with
  | forwardBegin req oob =>
      refine ⟨XmsgImTrans.addOobs_entries _ oob, ?_, .inr ?_⟩
      all_goals simp [trans, XmsgImChannel.forwardBegin, XmsgImChannel.newInitiative]
  | forwardBegin2ne req oob =>
      refine ⟨XmsgImTrans.addOobs_entries _ oob, ?_, .inr ?_⟩
      all_goals simp [trans, XmsgImChannel.forwardBegin2ne, XmsgImChannel.newInitiative,
        XmsgImTrans.addOob]
  | forwardBeginDat msg dat oob raw =>
      refine ⟨XmsgImTrans.addOobs_entries _ oob, ?_, .inl ?_⟩
      all_goals simp [trans, XmsgImChannel.forwardBeginDat, XmsgImChannel.newInitiative]
  | begin_ req oob =>
      refine ⟨XmsgImTrans.addOobs_entries _ oob, ?_, .inr ?_⟩
      all_goals simp [trans, XmsgImChannel.begin_]
  | beginDat msg dat oob raw =>
      refine ⟨XmsgImTrans.addOobs_entries _ oob, ?_, .inl ?_⟩
      all_goals simp [trans, XmsgImChannel.beginDat]

theorem UnidirectionCall.trans_spec (u : UnidirectionCall M) :
    oobEntries (u.trans K ptr gts).ooob = u.oob K ∧
      ((u.trans K ptr gts).rawMsg.isSome ∨ (u.trans K ptr gts).uniMsg.isSome) := by
  cases u with
  | forwardUnidirection uni oob =>
      refine ⟨XmsgImTrans.addOobs_entries _ oob, .inr ?_⟩
      simp [trans, XmsgImChannel.forwardUnidirection]
  | forwardUnidirection2ne uni oob =>
      refine ⟨XmsgImTrans.addOobs_entries _ oob, .inr ?_⟩
      simp [trans, XmsgImChannel.forwardUnidirection2ne]
  | unidirection uni oob =>
      refine ⟨XmsgImTrans.addOobs_entries _ oob, .inr ?_⟩
      simp [trans, XmsgImChannel.unidirection]
  | unidirectionDat msg dat oob =>
      refine ⟨XmsgImTrans.addOobs_entries _ oob, .inl ?_⟩
      simp [trans, XmsgImChannel.unidirectionDat]

end Started

/-! ## Receivers -/

/-- The peer decodes a PDU with the out-of-band list that was sent. -/
def CarriesOob (sent got : XscProtoPdu) : Prop := oobEntries got.oob = oobEntries sent.oob

/-- An initiative transaction that has received nothing yet takes the list of the END. -/
theorem endPdu_ioob (K : XscProto) (pb : Protobuf D M) (trans : XmsgImTransInitiative M)
    (pdu : XscProtoPdu) (end_ : XscProtoTransaction) (hioob : trans.ioob = none) :
    oobEntries (trans.endPdu K pb pdu end_).1.ioob = oobEntries pdu.oob := by
  have hkeep : (trans.endPdu K pb pdu end_).1.ioob = pdu.oob := by
    unfold XmsgImTransInitiative.endPdu
    cases hoob : pdu.oob <;> by_cases hmsg : end_.msg = [] <;> cases hraw : trans.raw <;>
      cases XmsgImMsgStub.newPbMsgName pb end_.msg end_.dat <;> simp [hmsg, hraw, hioob]
  rw [hkeep]

/-- The passive transaction of a request once its handler has added entries to it. -/
def XmsgImTransPassive.withOob (trans : XmsgImTransPassive M) (kv : Oob) :
    XmsgImTransPassive M :=
  { trans with toXmsgImTrans := trans.toXmsgImTrans.addOobs (some kv) }

@[simp] theorem endCall_ooob (K : XscProto) (trans : XmsgImTransPassive M)
    (call : XmsgImTransPassive.EndCall M) : (trans.endCall K call).ooob = trans.ooob := by
  cases call <;> rfl

/-- What it means that out-of-band data survives on a transport. -/
structure OobSurvives (K : XscProto) (pb : Protobuf D M) (pro : XscProtocolType) : Prop where
  /-- A begin sends one PDU, and the passive transaction of the peer sees the data. -/
  begin_ : ∀ (b : BeginCall M) (ptr : Nat) (gts : UInt64) (c : XmsgImChannel M), ∃ pdu,
    sentPdus (sendBegin pb pro (c.futureBegin (b.trans K ptr gts)).2) = [pdu] ∧
      ∀ got ptr' gts', CarriesOob pdu got →
        (XmsgImTransPassive.new ptr' gts' got : XmsgImTransPassive M).Sees (b.oob K)
  /-- A passive transaction that ends in an answer, while the channel is up, sends one PDU, and the
  initiative transaction it answers sees what the handler added. -/
  end_ : ∀ (request : XscProtoPdu) (ptr : Nat) (gts : UInt64) (req : Option M) (dtid : UInt32)
      (kv : Oob) (call : XmsgImTransPassive.EndCall M) (est : Bool), ∃ pdu,
    let trans : XmsgImTransPassive M :=
      { XmsgImTransPassive.new ptr gts request with beginMsg := req, dtid := dtid }
    let ended := (trans.withOob kv).endCall K call
    sentPdus (ended.endClosure K pb pro est) =
        (if ended.ret ≠ K.RET_FAILURE ∧ est = true then [pdu] else []) ∧
      ∀ (b : BeginCall M) (c : XmsgImChannel M) ptr' gts' got end_, CarriesOob pdu got →
        ((c.futureBegin (b.trans K ptr' gts')).2.endPdu K pb got end_).1.Sees kv
  /-- A message without an answer is sent in one PDU, and the receiving transaction sees the
  data. -/
  unidirection : ∀ (u : UnidirectionCall M) (ptr : Nat) (gts : UInt64), ∃ pdu,
    sentPdus (sendUnidirection pb pro (u.trans K ptr gts)) = [pdu] ∧
      ∀ got ptr' gts', CarriesOob pdu got →
        (XmsgImTransUnidirectionPass.new ptr' gts' got : XmsgImTrans M).Sees (u.oob K)

/-- Out-of-band data survives every send path of a channel that is not an HTTP channel: the
receiving transaction has exactly the given entries, in order and with duplicates, behind
the intercept entry where a `2ne` function was called, and its lookups find the first
entry of a tag. -/
theorem oob_survives (K : XscProto) (pb : Protobuf D M) {pro : XscProtocolType}
    (hpro : pro ≠ .XSC_PROTOCOL_HTTP) : OobSurvives K pb pro where
  begin_ := by
    intro b ptr gts c
    obtain ⟨hooob, -, hmsg⟩ := b.trans_spec K ptr gts
    have hbegun : (c.futureBegin (b.trans K ptr gts)).2.rawMsg.isSome ∨
        (c.futureBegin (b.trans K ptr gts)).2.beginMsg.isSome := hmsg
    obtain ⟨pdu, hpdu, hcarried⟩ := beginPdu_spec pb hbegun
    refine ⟨pdu, ?_, ?_⟩
    · unfold sendBegin
      rw [hpdu]
      show sentPdus (sendPdu pro pdu) = [pdu]
      rw [sentPdus_sendPdu, if_pos hpro]
    · intro got ptr' gts' hgot
      apply XmsgImTrans.Sees.of_entries
      show oobEntries got.oob = b.oob K
      rw [hgot, hcarried]
      exact hooob
  end_ := by
    intro request ptr gts req dtid kv call est
    -- the end functions leave the out-of-band data alone, and the END carries them
    refine ⟨endPdu pb (XmsgImTransPassive.endCall K (XmsgImTransPassive.withOob
      { XmsgImTransPassive.new ptr gts request with beginMsg := req, dtid := dtid } kv) call),
      ?_, ?_⟩
    · rw [sentPdus_endClosure]
      simp [hpro]
    · intro b c ptr' gts' got end_ hgot
      have hioob : (c.futureBegin (b.trans K ptr' gts')).2.ioob = none :=
        (b.trans_spec K ptr' gts').2.1
      apply XmsgImTrans.Sees.of_entries
      rw [endPdu_ioob K pb _ got end_ hioob, hgot, endPdu_oob, endCall_ooob]
      exact XmsgImTrans.addOobs_entries _ (some kv)
  unidirection := by
    intro u ptr gts
    obtain ⟨hooob, hmsg⟩ := u.trans_spec K ptr gts
    obtain ⟨pdu, hpdu, hcarried⟩ := unidirectionPdu_spec pb hmsg
    refine ⟨pdu, ?_, ?_⟩
    · unfold sendUnidirection
      rw [hpdu]
      show sentPdus (sendPdu pro pdu) = [pdu]
      rw [sentPdus_sendPdu, if_pos hpro]
    · intro got ptr' gts' hgot
      apply XmsgImTrans.Sees.of_entries
      show oobEntries got.oob = u.oob K
      rw [hgot, hcarried]
      exact hooob

theorem oob_survives_tcp : OobSurvives .sample samplePb .XSC_PROTOCOL_TCP :=
  oob_survives .sample samplePb (by decide)

end XmsgImXsc
