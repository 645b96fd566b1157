/-
# XmsgImXsc.RecvSplit -- reading a stream piece by piece on TCP and RUDP

The framework keeps the bytes that `evnRecv` did not use and presents them again, in front
of the bytes of the next read; at the first negative return it closes the connection.
`streamReads` is that protocol over any receive routine.

Under the laws of the codec a run of reads is the library's `feed`, so the two receive
routines dispatch what one read of the whole stream dispatches, and fail where it fails.
-/
import XmsgImXsc.Recv

namespace XmsgImXsc

open Scanning

variable {σ G : Type}

/-! ## What the codec has to satisfy -/

/-- What the reads of a stream rely on.  Unlike `DecodeLaws` nothing is said about the bytes
of a PDU taken alone; instead a format error, once recognised, stays one. -/
structure StreamLaws (decode : Decode) : Prop where
  /-- A PDU takes at least one byte and no more than there are. -/
  len_bounds : ∀ {b pdu e}, decode b = (some pdu, e) →
    0 < pdu.transm.len ∧ pdu.transm.len ≤ b.length
  /-- Bytes that follow a decoded PDU do not change the result. -/
  stable : ∀ {b pdu e} (r : Bytes), decode b = (some pdu, e) → decode (b ++ r) = (some pdu, e)
  /-- Bytes that follow a format error do not change the result. -/
  error_stable : ∀ {b} (r : Bytes), decode b = (none, true) → decode (b ++ r) = (none, true)
  /-- No bytes are a proper prefix of every PDU. -/
  empty : decode [] = (none, false)

/-- The codec as a scanner whose rejections are final. -/
def streamScanner (decode : Decode) (laws : StreamLaws decode) :
    Scanner UInt8 XscProtoPdu where
  scan := pduScan decode
  pos := by
    intro b pdu n h
    obtain ⟨⟨e, hd⟩, rfl⟩ := pduScan_item_iff.mp h
    exact (laws.len_bounds hd).1
  le := by
    intro b pdu n h
    obtain ⟨⟨e, hd⟩, rfl⟩ := pduScan_item_iff.mp h
    exact (laws.len_bounds hd).2
  stable := by
    intro b pdu n r h
    obtain ⟨⟨e, hd⟩, rfl⟩ := pduScan_item_iff.mp h
    exact pduScan_item_iff.mpr ⟨⟨e, laws.stable r hd⟩, rfl⟩
  bad_final := by
    intro b r pdu n hbad hitem
    obtain ⟨⟨e, hd⟩, -⟩ := pduScan_item_iff.mp hitem
    rw [laws.error_stable r (pduScan_bad_iff.mp hbad)] at hd
    simp at hd

theorem streamScanner_scans {decode : Decode} (laws : StreamLaws decode) :
    ScansPdus decode (streamScanner decode laws) :=
  ⟨rfl, laws.empty⟩

theorem streamScanner_bad_stable {decode : Decode} (laws : StreamLaws decode) (b r : Bytes)
    (hb : (streamScanner decode laws).scan b = .bad) :
    (streamScanner decode laws).scan (b ++ r) = .bad :=
  pduScan_bad_iff.mpr (laws.error_stable r (pduScan_bad_iff.mp hb))

/-! ## The reads of one connection -/

/-- The outcome of a run of reads: whether one of them failed, the PDUs passed to `evnMsg`,
the bytes still to be presented again and the state of the channel. -/
structure StreamReads (σ : Type) where
  failed : Bool
  dispatched : List XscProtoPdu
  rest : Bytes
  st : σ
  deriving Repr, DecidableEq

/-- Successive reads through the receive routine `recv`, with `rest` unused so far. -/
def streamReads (recv : Bytes → σ → Option (Recv σ)) :
    List Bytes → Bytes → σ → Option (StreamReads σ)
  | [], rest, s => some ⟨false, [], rest, s⟩
  | chunk :: chunks, rest, s =>
      match recv (rest ++ chunk) s with
      | none => none
      | some r =>
          if r.ret < 0 then some ⟨true, r.dispatched, rest ++ chunk, r.st⟩
          else
            (streamReads recv chunks ((rest ++ chunk).drop r.ret.toNat) r.st).map fun q =>
              { q with dispatched := r.dispatched ++ q.dispatched }

/-- The PDUs `pdus` lie one behind the other at the front of a buffer, and `rest` is what
follows them. -/
inductive CutInto (decode : Decode) : Bytes → List XscProtoPdu → Bytes → Prop
  | nil (b : Bytes) : CutInto decode b [] b
  | cons {b rest : Bytes} {pdu : XscProtoPdu} {pdus : List XscProtoPdu} {e : Bool} :
      decode b = (some pdu, e) → CutInto decode (b.drop pdu.transm.len) pdus rest →
      CutInto decode b (pdu :: pdus) rest

/-! ## Reads are a feed -/

section Feed

variable {decode : Decode} {S : Scanner UInt8 XscProtoPdu} (hS : ScansPdus decode S)
  (evnMsg : σ → XscProtoPdu → σ × Bool)

include hS

/-- A drain that starved took exactly the PDUs it handed over. -/
theorem drain_cutInto {b : Bytes} {s : σ} (hs : (drain S evnMsg b s).stop = .starved) :
    CutInto decode b (drain S evnMsg b s).items (drain S evnMsg b s).rest := by
  induction b, s using drain.induct S evnMsg with
  | case1 b s hb =>
      rw [drain_more _ _ hb]
      exact .nil b
  | case2 b s hb => rw [drain_bad _ _ hb] at hs; simp at hs
  | case3 b s pdu n hb ha ih =>
      have hitem := hb
      rw [hS.scan] at hitem
      obtain ⟨⟨e, hd⟩, rfl⟩ := pduScan_item_iff.mp hitem
      rw [drain_accept _ _ hb ha] at hs ⊢
      exact .cons hd (ih hs)
  | case4 b s pdu n hb ha =>
      rw [drain_refuse _ _ hb (by simpa using ha)] at hs
      simp at hs

/-- A read says in its return value whether the drain starved, and how many bytes it took. -/
theorem recvPdus_ret {dat : Bytes} {s : σ} {r : Recv σ}
    (hr : recvPdus decode evnMsg dat s = some r) :
    (r.ret < 0 ↔ (drain S evnMsg dat s).stop ≠ .starved) ∧
      r.dispatched = (drain S evnMsg dat s).items ∧ r.st = (drain S evnMsg dat s).st ∧
      (0 ≤ r.ret → r.ret ≤ dat.length ∧ dat.drop r.ret.toNat = (drain S evnMsg dat s).rest) := by
  rw [recvPdus_eq_drain hS evnMsg dat s] at hr
  obtain rfl := Option.some.inj hr
  have hsuffix := drain_rest_suffix S evnMsg dat s
  have hdrop := List.suffix_iff_eq_drop.mp hsuffix
  refine ⟨?_, rfl, rfl, ?_⟩
  · show retOfDrain dat (drain S evnMsg dat s) < 0 ↔ _
    unfold retOfDrain
    split
    · next hs => simp [hs]
    · next hs => simpa using hs
  · show 0 ≤ retOfDrain dat (drain S evnMsg dat s) → _
    unfold retOfDrain
    split
    · intro _
      refine ⟨Int.ofNat_le.mpr (Nat.sub_le _ _), ?_⟩
      rw [Int.toNat_natCast]
      exact hdrop.symm
    · intro hneg
      omega

/-- A run of reads is the feed of its pieces. -/
theorem streamReads_eq_feed (chunks : List Bytes) (rest : Bytes) (s : σ) :
    ∃ q, streamReads (recvPdus decode evnMsg) chunks rest s = some q ∧
      q.dispatched = (feed S evnMsg chunks rest s).items ∧
      q.st = (feed S evnMsg chunks rest s).st ∧
      (q.failed = true ↔ (feed S evnMsg chunks rest s).stop ≠ .starved) := by
  induction chunks generalizing rest s with
  | nil => exact ⟨_, rfl, rfl, rfl, by simp [feed]⟩
  | cons chunk chunks ih =>
      have hr := recvPdus_eq_drain hS evnMsg (rest ++ chunk) s
      obtain ⟨hneg, hitems, hst, hbytes⟩ := recvPdus_ret hS evnMsg hr
      by_cases hd : (drain S evnMsg (rest ++ chunk) s).stop = .starved
      · have hnonneg := mt hneg.mp (not_not_intro hd)
        obtain ⟨q, hq, hqitems, hqst, hqfailed⟩ :=
          ih (drain S evnMsg (rest ++ chunk) s).rest (drain S evnMsg (rest ++ chunk) s).st
        rw [feed_cons_starved _ _ hd]
        rw [← (hbytes (by omega)).2] at hq
        refine ⟨{ q with dispatched := (drain S evnMsg (rest ++ chunk) s).items ++ q.dispatched },
          ?_, ?_, hqst, hqfailed⟩
        · simp only [streamReads, hr, if_neg hnonneg, hq]
          rfl
        · simp [hqitems]
      · rw [feed_cons_stopped _ _ hd]
        refine ⟨⟨true, (drain S evnMsg (rest ++ chunk) s).items, rest ++ chunk,
          (drain S evnMsg (rest ++ chunk) s).st⟩, ?_, rfl, rfl, by simpa using hd⟩
        simp only [streamReads, hr, if_pos (hneg.mpr hd)]

end Feed

/-! ## Segmentation on TCP and RUDP -/

/-- What one connection has in common with the read of the whole stream: the PDUs passed to
`evnMsg`, the state of the channel, and whether it failed. -/
structure StreamReads.SameAs (q : StreamReads σ) (r : Recv σ) : Prop where
  dispatched : q.dispatched = r.dispatched
  st : q.st = r.st
  failed : q.failed = true ↔ r.ret < 0

/-- A return value that is no error lies between zero and the length of the buffer, the
bytes before it are those of the dispatched PDUs, and no PDU starts at the bytes after. -/
def Recv.CutsExactly (decode : Decode) (dat : Bytes) (r : Recv σ) : Prop :=
  0 ≤ r.ret → r.ret ≤ dat.length ∧
    CutInto decode dat r.dispatched (dat.drop r.ret.toNat) ∧
    (dat.drop r.ret.toNat) <:+ dat ∧ ∀ pdu e, decode (dat.drop r.ret.toNat) ≠ (some pdu, e)

/-- One call of the loop cuts its bytes as the stream is cut. -/
theorem recvPdus_cutsExactly {decode : Decode} (laws : StreamLaws decode)
    (evnMsg : σ → XscProtoPdu → σ × Bool) (dat : Bytes) (s : σ) :
    ∃ r, recvPdus decode evnMsg dat s = some r ∧ r.CutsExactly decode dat := by
  have hr := recvPdus_eq_drain (streamScanner_scans laws) evnMsg dat s
  obtain ⟨hneg, hitems, -, hbytes⟩ := recvPdus_ret (streamScanner_scans laws) evnMsg hr
  refine ⟨_, hr, ?_⟩
  intro hpos
  obtain ⟨hle, hdrop⟩ := hbytes hpos
  have hstarved : (drain (streamScanner decode laws) evnMsg dat s).stop = .starved := by
    by_contra hstop
    exact absurd (hneg.mpr hstop) (by omega)
  refine ⟨hle, ?_, List.drop_suffix _ _, ?_⟩
  · rw [hdrop, hitems]
    exact drain_cutInto (streamScanner_scans laws) evnMsg hstarved
  · intro pdu e hpdu
    have hmore := pduScan_more_iff.mp (drain_starved_rest _ _ hstarved)
    rw [hdrop, hmore] at hpdu
    simp at hpdu

/-- Reads come to what the whole stream comes to. -/
theorem streamReads_sameAs {decode : Decode} (laws : StreamLaws decode)
    (evnMsg : σ → XscProtoPdu → σ × Bool) (chunks : List Bytes) (s : σ) :
    ∃ q r, streamReads (recvPdus decode evnMsg) chunks [] s = some q ∧
      recvPdus decode evnMsg chunks.flatten s = some r ∧ q.SameAs r := by
  have hnil : (streamScanner decode laws).scan [] = .more := pduScan_more_iff.mpr laws.empty
  obtain ⟨q, hq, hqitems, hqst, hqfailed⟩ :=
    streamReads_eq_feed (streamScanner_scans laws) evnMsg chunks [] s
  have hr := recvPdus_eq_drain (streamScanner_scans laws) evnMsg chunks.flatten s
  obtain ⟨hneg, hitems, hst, -⟩ := recvPdus_ret (streamScanner_scans laws) evnMsg hr
  obtain ⟨hfeed, hfeedst⟩ :=
    feed_items_eq_drain (streamScanner decode laws) evnMsg chunks s hnil
  have hstop := feed_stop_of_bad_stable (streamScanner decode laws) evnMsg chunks s
    (streamScanner_bad_stable laws) hnil
  rw [List.nil_append] at hfeed hfeedst hstop
  refine ⟨q, _, hq, hr, ?_, ?_, ?_⟩
  · rw [hqitems, hfeed, hitems]
  · rw [hqst, hfeedst, hst]
  · rw [hqfailed, hstop, hneg]

/-- Decoding does not depend on segmentation.  However a byte stream is cut into reads, on
an accepted or an opened TCP connection and on RUDP, `evnRecv` passes to `evnMsg` the PDUs
that one read of the whole stream passes to it and fails exactly if that read fails; and
every single return value that is no error cuts the presented bytes exactly behind the
dispatched PDUs.  Nothing is assumed of `evnMsg` but that it is a function of the PDU and
the dispatch state. -/
theorem evnRecv_segmentation_independent {decode : Decode} (laws : StreamLaws decode)
    (evnMsg : G → σ → XscProtoPdu → σ × Bool) (at_ : ActorType) (workerMsgMgr h2nMsgMgr : G)
    (chunks : List Bytes) (s : σ) :
    (∃ q r,
      streamReads (XmsgImTcpChannel.evnRecv decode evnMsg at_ workerMsgMgr h2nMsgMgr)
        chunks [] s = some q ∧
      XmsgImTcpChannel.evnRecv decode evnMsg at_ workerMsgMgr h2nMsgMgr chunks.flatten s =
        some r ∧ q.SameAs r) ∧
    (∃ q r,
      streamReads (XmsgImRudpChannel.evnRecv decode evnMsg workerMsgMgr) chunks [] s = some q ∧
      XmsgImRudpChannel.evnRecv decode evnMsg workerMsgMgr chunks.flatten s = some r ∧
        q.SameAs r) ∧
    (∀ dat t, ∃ r,
      XmsgImTcpChannel.evnRecv decode evnMsg at_ workerMsgMgr h2nMsgMgr dat t = some r ∧
        r.CutsExactly decode dat) ∧
    (∀ dat t, ∃ r, XmsgImRudpChannel.evnRecv decode evnMsg workerMsgMgr dat t = some r ∧
      r.CutsExactly decode dat) := by
  refine ⟨?_, ?_, ?_, ?_⟩
  · exact streamReads_sameAs laws _ chunks s
  · exact streamReads_sameAs laws (evnMsg workerMsgMgr) chunks s
  · exact recvPdus_cutsExactly laws _
  · exact recvPdus_cutsExactly laws (evnMsg workerMsgMgr)

theorem heartbeatDecode_streamLaws : StreamLaws heartbeatDecode where
  len_bounds := heartbeatDecode_laws.len_bounds
  stable := heartbeatDecode_laws.stable
  error_stable := by
    intro b r h
    cases b with
    | nil => simp [heartbeatDecode] at h
    | cons x b =>
        by_cases hx : x &&& 0x80 = 0
        · exact if_pos hx
        · rw [heartbeatDecode, if_neg hx] at h
          split at h <;> cases h
  empty := rfl

/-- Two heartbeats and a format error, read in two pieces, with the second heartbeat in both. -/
theorem evnRecv_segmentation_independent_heartbeats :
    (∃ q r,
      streamReads (XmsgImTcpChannel.evnRecv heartbeatDecode
        (fun (_ : Unit) (n : Nat) _ => (n + 1, true)) .ACTOR_H2N () ())
        [[0x80, 0x82, 1], [2, 0x00]] [] 0 = some q ∧
      XmsgImTcpChannel.evnRecv heartbeatDecode (fun (_ : Unit) (n : Nat) _ => (n + 1, true))
        .ACTOR_H2N () () [[0x80, 0x82, 1], [2, 0x00]].flatten 0 = some r ∧ q.SameAs r) ∧
    (∃ q r,
      streamReads (XmsgImRudpChannel.evnRecv heartbeatDecode
        (fun (_ : Unit) (n : Nat) _ => (n + 1, true)) ()) [[0x80, 0x82, 1], [2, 0x00]] [] 0 = some q ∧
      XmsgImRudpChannel.evnRecv heartbeatDecode (fun (_ : Unit) (n : Nat) _ => (n + 1, true))
        () [[0x80, 0x82, 1], [2, 0x00]].flatten 0 = some r ∧ q.SameAs r) ∧
    (∀ dat t, ∃ r, XmsgImTcpChannel.evnRecv heartbeatDecode
        (fun (_ : Unit) (n : Nat) _ => (n + 1, true)) .ACTOR_H2N () () dat t = some r ∧
      r.CutsExactly heartbeatDecode dat) ∧
    (∀ dat t, ∃ r, XmsgImRudpChannel.evnRecv heartbeatDecode
        (fun (_ : Unit) (n : Nat) _ => (n + 1, true)) () dat t = some r ∧
      r.CutsExactly heartbeatDecode dat) :=
  evnRecv_segmentation_independent heartbeatDecode_streamLaws
    (fun (_ : Unit) (n : Nat) _ => (n + 1, true)) .ACTOR_H2N () () [[0x80, 0x82, 1], [2, 0x00]] 0

example :
    streamReads (XmsgImRudpChannel.evnRecv heartbeatDecode
      (fun (_ : Unit) (n : Nat) _ => (n + 1, true)) ()) [[0x80, 0x82, 1], [2, 0x00]] [] 0 =
    some ⟨true, [{ transm := { indicator := 0x80, len := 1 } },
      { transm := { indicator := 0x82, len := 3 } }], [0x82, 1, 2, 0x00], 2⟩ := by
  decide

end XmsgImXsc
