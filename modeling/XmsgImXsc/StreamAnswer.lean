/-
# XmsgImXsc.StreamAnswer -- every request is answered once the streams are at rest

The responses of a byte stream complete the requests they answer, each at most once and in
the order they were sent (`responses_complete_in_order`).  When both endpoints are still
established, all bytes have arrived and were read, and every handler has ended its
transaction, no request is left in the table (`all_answered_at_rest`).

The argument for the second follows one request through the system:

* it was begun, so its BEGIN was sent, arrived and was handled (`StreamOrder`);
* its handler has ended the passive transaction with another code than `RET_FAILURE`, so the
  END was sent (`EndedInv`);
* the END arrived, and was looked up under the tid of the request;
* as long as fewer than 2^32 tids were drawn no other transaction has that tid, so whether
  the END took the transaction out or found it gone, nothing is left under the tid
  (`AnswerInv.used`).

The order of the completions is `AnswerInv.completed`.  Both invariants come from one
statement about a step, that it gives an endpoint one response at most (`Step.answers`).
-/
import XmsgImXsc.StreamOrder

namespace XmsgImXsc

open Lts Scanning

variable {D M H U : Type} {decode : Decode}

/-! ## What a step does to the records of a channel

A transaction leaves the table by its END, by the sweep or by the loss of the channel.  Only
the first counts as completed, and only an `evnEnd` completes anything. -/

/-- The transaction, if it was an END that took it out. -/
def Taken.byEnd? (b : Taken M) : Option (XmsgImTransInitiative M) :=
  match b.by_ with
  | .byEnd _ _ => some b.trans
  | .bySweep => none
  | .byClean => none

/-- The transactions that an END took out of the table, the latest first. -/
def Exec.completed (e : Exec M) : List (XmsgImTransInitiative M) :=
  e.removed.filterMap Taken.byEnd?

section Exec

variable {K : XscProto} {pb : Protobuf D M} {e e' : Exec M} {a : Act M}

/-- Tids are only drawn. -/
theorem Step.drawn_le (hstep : Step K pb e a e') : e.drawn.length ≤ e'.drawn.length := by
  rcases hstep.cases_ with ⟨trans, -, -, rfl⟩ | ⟨ch, bs, -, rfl⟩ | ⟨bs, rest, -, rfl⟩ | rfl |
    ⟨t, -, rfl⟩
  · exact Nat.le_succ _
  · rw [Exec.takeOut, Exec.enter_drawn]
  · rw [Exec.enter_drawn]
  · exact Nat.le_succ _
  · exact Nat.le_refl _

/-- Taking out transactions for another reason completes none. -/
theorem Exec.takeOut_completed (e : Exec M) (ch : XmsgImChannel M)
    (ts : List (XmsgImTransInitiative M)) {r : Removal}
    (hr : ∀ t : XmsgImTransInitiative M, (⟨t, r⟩ : Taken M).byEnd? = none) :
    (e.takeOut K pb ch (ts.map (⟨·, r⟩))).completed = e.completed := by
  have hnil : (ts.map (⟨·, r⟩ : _ → Taken M)).filterMap Taken.byEnd? = [] := by
    rw [List.filterMap_map]
    exact List.filterMap_eq_nil_iff.mpr fun t _ => hr t
  unfold Exec.completed
  rw [Exec.takeOut_removed, List.filterMap_append, hnil]
  rfl

/-- Only an END completes a transaction. -/
theorem Step.completed_eq (hstep : Step K pb e a e') (hne : ∀ pdu end_, a ≠ .evnEnd pdu end_) :
    e'.completed = e.completed := by
  cases hstep with
  | evnEnd pdu end_ _ => exact absurd rfl (hne pdu end_)
  | genTid => rfl
  | futureBegin => rfl
  | rehash => rfl
  | cbReturn =>
      unfold Exec.completed
      rw [Exec.enter_removed]
  | checkTransInit sec tm now => exact e.takeOut_completed _ _ fun _ => rfl
  | cleanTransInit => exact e.takeOut_completed _ _ fun _ => rfl
  | clean => exact e.takeOut_completed _ _ fun _ => rfl

/-- An END completes the transaction that is in the table under its tid. -/
theorem Exec.evnEnd_completed (e : Exec M) (pdu : XscProtoPdu) (end_ : XscProtoTransaction) :
    (e.evnEnd K pb pdu end_).completed =
      (e.ch.transInit.lookup end_.dtid).toList ++ e.completed := by
  have hended : (e.ch.evnEnd end_).2 = e.ch.transInit.lookup end_.dtid := by
    unfold XmsgImChannel.evnEnd
    split
    · rename_i h
      exact h.symm
    · rename_i h
      exact h.symm
  unfold Exec.completed Exec.evnEnd
  rw [Exec.takeOut_removed, List.filterMap_append, hended, List.filterMap_map]
  congr 1
  exact List.filterMap_some

/-- After an END nothing is under its tid. -/
theorem Exec.evnEnd_lookup_none (e : Exec M) (pdu : XscProtoPdu) (end_ : XscProtoTransaction) :
    (e.evnEnd K pb pdu end_).ch.transInit.lookup end_.dtid = none := by
  unfold Exec.evnEnd
  rw [Exec.takeOut_ch]
  unfold XmsgImChannel.evnEnd
  split
  · assumption
  · exact AList.lookup_erase _ _

/-- A tid that is no key stays none until it is drawn. -/
theorem Step.lookup_none (hstep : Step K pb e a e') {tid : UInt32}
    (h : e.ch.transInit.lookup tid = none)
    (hne : ∀ trans, a = .futureBegin trans → tid ≠ e.ch.genTid.2) :
    e'.ch.transInit.lookup tid = none := by
  rcases hstep.cases_ with ⟨trans, ha, -, rfl⟩ | ⟨ch, bs, htake, rfl⟩ | ⟨bs, rest, -, rfl⟩ |
    rfl | ⟨t, hperm, rfl⟩
  · exact (AList.lookup_insert_ne (hne trans ha)).trans h
  · rw [Exec.takeOut_ch]
    -- what is left in the table was in it before
    cases hlook : ch.transInit.lookup tid with
    | none => rfl
    | some t =>
        rw [htake.sub tid t hlook] at h
        cases h
  · rw [Exec.enter_ch]
    exact h
  · exact h
  · exact (AList.perm_lookup hperm).trans h

/-- The tid of a new transaction is that of no begun one, until the counter wraps around. -/
theorem Step.genTid_ne {trans : XmsgImTransInitiative M}
    (hstep : Step K pb e (.futureBegin trans) e') {t0 : UInt32} (hnumbered : e'.Numbered t0)
    (hn : e'.drawn.length < 2 ^ 32) {t : XmsgImTransInitiative M} (ht : t ∈ e.begun) :
    t.stid ≠ e.ch.genTid.2 := by
  intro heq
  cases hstep with
  | futureBegin _ hptr =>
      have hsame : t = (e.ch.futureBegin trans).2 :=
        hnumbered.eq_of_stid hn (List.mem_cons_of_mem _ ht) List.mem_cons_self heq
      apply hptr
      rw [← show t.ptr = trans.ptr by rw [hsame]; rfl]
      exact List.mem_map_of_mem ht

/-- No begin drops a transaction before the counter wraps around. -/
theorem overwritten_of_drawn_lt (h : Reachable (execSystem K pb) Always e)
    (hn : e.drawn.length < 2 ^ 32) : e.overwritten = [] := by
  suffices hinv : e.drawn.length < 2 ^ 32 → e.overwritten = [] from hinv hn
  refine h.invariant_using (I := fun e => e.drawn.length < 2 ^ 32 → e.overwritten = [])
    (J := fun e => e.Inv K pb ∧ ∃ t0, e.Numbered t0)
    (fun e he => ⟨reachable_inv he, reachable_numbered he⟩) ?_ ?_
  · intro e hfresh _
    exact hfresh.overwritten
  · rintro e a e' ⟨hinv, t0, hnumbered⟩ hover - hstep hn
    have hold := hover (Nat.lt_of_le_of_lt hstep.drawn_le hn)
    have hnumbered' := hnumbered.step hstep
    rcases hstep.cases_ with ⟨trans, rfl, -, rfl⟩ | ⟨ch, bs, -, rfl⟩ | ⟨bs, rest, -, rfl⟩ |
      rfl | ⟨t, -, rfl⟩
    · show (e.ch.transInit.lookup e.ch.genTid.2).toList ++ e.overwritten = []
      -- a transaction under the tid drawn now would have drawn it before
      cases hlook : e.ch.transInit.lookup e.ch.genTid.2 with
      | none =>
          rw [hold]
          rfl
      | some t =>
          have hbegun : t ∈ e.begun := hinv.books.split.mem_iff.mpr
            (List.mem_append_left _ (Tables.mem_values_iff.mpr ⟨_, hlook⟩))
          exact absurd (hinv.keyed _ _ hlook) (hstep.genTid_ne hnumbered' hn hbegun)
    · rw [Exec.takeOut, Exec.enter_overwritten]
      exact hold
    · rw [Exec.enter_overwritten]
      exact hold
    · exact hold
    · exact hold

end Exec

/-! ## What a step does with a response

`Answers` lists the ways in which a step can concern the responses to endpoint `k`.  Most steps
bring none and act on the channel of `k` in some other way or not at all; these are one case
each in `Step.answers`.  The receive step has a lemma for either side. -/

/-- An END is no heartbeat. -/
theorem endPdu_indicator (pb : Protobuf D M) (trans : XmsgImTransPassive M) :
    (endPdu pb trans).transm.indicator = 0 := rfl

namespace StreamLink

variable {K : XscProto} {pb : Protobuf D M} {mgr : Bool → Option (XmsgImMsgMgr D H)}
  {pro : XscProtocolType} {s s' : StreamLink decode M}

/-- What a step does to the responses endpoint `k` has received and to its channel. -/
inductive Answers (K : XscProto) (pb : Protobuf D M) (mgr : Bool → Option (XmsgImMsgMgr D H))
    (s s' : StreamLink decode M) (k : Bool) : Prop
  /-- No response was received, and the channel is as it was. -/
  | idle (ws) : (s'.pipe (!k)).done = (s.pipe (!k)).done ++ ws →
      ws.filterMap Wired.end? = [] → (s'.link k).a = (s.link k).a → Answers K pb mgr s s' k
  /-- No response was received, and the channel made a step of its own. -/
  | acts (act) : (s'.pipe (!k)).done = (s.pipe (!k)).done →
      XmsgImXsc.Step K pb (s.link k).a act (s'.link k).a →
      (∀ pdu end_, act ≠ .evnEnd pdu end_) → Answers K pb mgr s s' k
  /-- A response was received and found its transaction. -/
  | answered (x pdu end_) :
      (s'.pipe (!k)).done.filterMap Wired.end? =
        (s.pipe (!k)).done.filterMap Wired.end? ++ [x] →
      x ∈ (s.link k).ends → end_.dtid = x.by_.trans.dtid → pdu.transm.trans = some end_ →
      (s'.link k).a = (s.link k).a.evnEnd K pb pdu end_ → Answers K pb mgr s s' k
  /-- A response was received and not used. -/
  | ignored (x) :
      (s'.pipe (!k)).done.filterMap Wired.end? =
        (s.pipe (!k)).done.filterMap Wired.end? ++ [x] →
      x ∈ (s.link k).ends → (s'.link k).a = (s.link k).a →
      (NoItcp (mgr k) → s'.est k = true →
        (s.link k).a.ch.transInit.lookup x.by_.trans.dtid = none) → Answers K pb mgr s s' k

/-- A response that is received and not refused is dispatched as an END. -/
theorem Noted.dispatched_end {i : Bool} {x : EndSent M} (h : s.Noted i (.end_ x))
    (hinv : ∀ i, (s.link i).Inv pb) {pdu : XscProtoPdu}
    (hcarried : (Note.end_ x).pdu.CarriedAs pdu) {usr : Option U} {ptr : Nat} {gts : UInt64}
    {msgMgr : Option (XmsgImMsgMgr D H)} {c : XmsgImChannel M} (hitcp : NoItcp msgMgr)
    (hret : (evnMsg pb usr ptr gts pdu K msgMgr c).ret = true) :
    ∃ m got, Dispatched pdu K msgMgr m got ∧ got.trans = .END ∧ got.dtid = x.by_.trans.dtid := by
  -- the PDU is the one that `sendEnd` builds, which has no heartbeat tag
  obtain ⟨-, -, -, hpdu⟩ := (hinv (!i)).ends x h
  have hsent : x.pdu.transm.trans = _ := hpdu ▸ endPdu_trans pb x.by_.trans
  have hzero : x.pdu.transm.indicator = 0 := hpdu ▸ endPdu_indicator pb x.by_.trans
  have hindicator : pdu.transm.indicator = 0 := hcarried.indicator.trans hzero
  have hping : pdu.transm.indicator &&& K.XSC_TAG_TRANSM_PING = 0 := by
    rw [hindicator]
    exact UInt8.zero_and
  obtain ⟨got, hgot, htrans⟩ := hcarried.trans _ hsent
  obtain ⟨m, hdispatched⟩ := dispatched_of_ret hitcp hping hgot hret
  exact ⟨m, got, hdispatched, htrans.trans, htrans.dtid⟩

/-- What receiving a PDU does to the channel of the receiver, by the note of the PDU. -/
theorem Noted.answers {i : Bool} {note : Note M} (h : s.Noted i note)
    (hinv : ∀ i, (s.link i).Inv pb) {pdu : XscProtoPdu} (hcarried : note.pdu.CarriedAs pdu)
    (usr : Option U) (ptr : Nat) (gts : UInt64) (msgMgr : Option (XmsgImMsgMgr D H)) :
    let r := evnMsg pb usr ptr gts pdu K msgMgr (s.link (!i)).a.ch
    let a' := (endTrans K pb (s.link (!i)) pdu r).a
    (note.end? = none ∧ a' = (s.link (!i)).a) ∨
      ∃ x, note = .end_ x ∧ ((∃ end_, end_.dtid = x.by_.trans.dtid ∧
        pdu.transm.trans = some end_ ∧ a' = (s.link (!i)).a.evnEnd K pb pdu end_) ∨
        (a' = (s.link (!i)).a ∧ (NoItcp msgMgr → r.ret = true →
          (s.link (!i)).a.ch.transInit.lookup x.by_.trans.dtid = none))) := by
  intro r a'
  -- an END is ignored when it is not dispatched
  have hunused (hnot : ∀ m got, Dispatched pdu K msgMgr m got → got.trans ≠ .END)
      (hended : r.ended = none) :
      (note.end? = none ∧ a' = (s.link (!i)).a) ∨
        ∃ x, note = .end_ x ∧ ((∃ end_, end_.dtid = x.by_.trans.dtid ∧
          pdu.transm.trans = some end_ ∧ a' = (s.link (!i)).a.evnEnd K pb pdu end_) ∨
          (a' = (s.link (!i)).a ∧ (NoItcp msgMgr → r.ret = true →
            (s.link (!i)).a.ch.transInit.lookup x.by_.trans.dtid = none))) := by
    have ha : a' = (s.link (!i)).a := congrArg Link.a (endTrans_of_none hended)
    cases note with
    | begin_ x => exact .inl ⟨rfl, ha⟩
    | other pdu => exact .inl ⟨rfl, ha⟩
    | end_ x =>
        refine .inr ⟨x, rfl, .inr ⟨ha, fun hitcp hret => ?_⟩⟩
        obtain ⟨m, got, hdispatched, htag, -⟩ := h.dispatched_end hinv hcarried hitcp hret
        exact absurd htag (hnot m got hdispatched)
  cases evnMsg_effect pb usr ptr gts pdu K msgMgr (s.link (!i)).a.ch with
  | begin_ m got hdispatched htag _ _ hended =>
      -- what was dispatched as a BEGIN is not dispatched as an END as well
      refine hunused (fun m' got' h' htag' => ?_) hended
      obtain rfl : got = got' := Option.some.inj (hdispatched.passes.1.symm.trans h'.passes.1)
      rw [htag] at htag'
      cases htag'
  | neither hnot _ hended => exact hunused (fun m got h => (hnot m got h).2) hended
  | end_ m got hdispatched htag _ hended =>
      have hgot := hdispatched.passes.1
      obtain ⟨x, hx, rfl, sent, hsent, htrans⟩ := h.end_of_tag hinv hcarried hgot htag
      have hdtid : got.dtid = x.by_.trans.dtid := by
        obtain ⟨-, -, -, hpdu⟩ := (hinv (!i)).ends x hx
        rw [hpdu, endPdu_trans] at hsent
        obtain rfl := Option.some.inj hsent
        exact htrans.dtid
      refine .inr ⟨x, rfl, ?_⟩
      cases hr : r.ended with
      | none =>
          -- `evnEnd` has found nothing under the tid
          refine .inr ⟨congrArg Link.a (endTrans_of_none hr), fun _ _ => ?_⟩
          rw [← hdtid]
          have hnone : ((s.link (!i)).a.ch.evnEnd got).2 = none := hended.symm.trans hr
          unfold XmsgImChannel.evnEnd at hnone
          split at hnone
          · assumption
          · cases hnone
      | some t =>
          refine .inl ⟨got, hdtid, hgot, ?_⟩
          show (endTrans K pb (s.link (!i)) pdu r).a = _
          unfold endTrans
          rw [hr, hgot]

/-- Nothing was received, and the channel did nothing. -/
theorem Answers.same {k : Bool} (hdone : (s'.pipe (!k)).done = (s.pipe (!k)).done)
    (ha : (s'.link k).a = (s.link k).a) : Answers K pb mgr s s' k :=
  .idle [] (by rw [hdone, List.append_nil]) rfl ha

/-- One of the two channels makes a step of its own. -/
theorem Answers.of_act {i k : Bool} {act : Act M} {a : Exec M}
    (hact : XmsgImXsc.Step K pb (s.link i).a act a) (hne : ∀ pdu end_, act ≠ .evnEnd pdu end_)
    (hdone : (s'.pipe (!k)).done = (s.pipe (!k)).done)
    (ha : (s'.link k).a = if k = i then a else (s.link k).a) : Answers K pb mgr s s' k := by
  by_cases hk : k = i
  · subst hk
    rw [if_pos rfl] at ha
    rw [← ha] at hact
    exact .acts act hdone hact hne
  · rw [if_neg hk] at ha
    exact .same hdone ha

section Received

variable (hwire : s.Wire) {i : Bool} {w : Wired decode M} {pdu : XscProtoPdu} {n : Nat}
  {pong : List (Wired decode M)}

include hwire

/-- The endpoint whose PDU is received goes on as it was. -/
theorem answers_at_sender (r : EvnMsg M H U) :
    Answers K pb mgr s (s.received K pb i w.note pdu n r pong) i := by
  refine .same ?_ ?_
  · rw [received_pipe, if_neg (Bool.not_eq_self i).mp]
    exact done_send hwire.pipe rfl
  · rw [received_link, if_pos rfl, addPassive_a]

/-- The endpoint that receives the PDU is given a response, or none. -/
theorem answers_at_receiver (laws : DecodeLaws decode) (hinv : ∀ i, (s.link i).Inv pb)
    (hscan : pduScan decode (s.pipe i).buf = .item pdu n)
    (hnext : (s.pipe i).sent[(s.pipe i).taken]? = some w) (usr : Option U) (ptr : Nat)
    (gts : UInt64) :
    Answers K pb mgr s (s.received K pb i w.note pdu n
      (evnMsg pb usr ptr gts pdu K (mgr (!i)) (s.link (!i)).a.ch) pong) (!i) := by
  obtain ⟨hnoted, hcarried⟩ := hwire.next laws hscan hnext
  have hk : (!i) ≠ i := (Bool.not_eq_self i).mp
  have hlink := received_link K pb s i (!i) w.note pdu n
    (evnMsg pb usr ptr gts pdu K (mgr (!i)) (s.link (!i)).a.ch) pong
  have hpipe := received_pipe K pb s i i w.note pdu n
    (evnMsg pb usr ptr gts pdu K (mgr (!i)) (s.link (!i)).a.ch) pong
  have hest := received_est K pb s i (!i) w.note pdu n
    (evnMsg pb usr ptr gts pdu K (mgr (!i)) (s.link (!i)).a.ch) pong
  rw [if_neg hk] at hlink hest
  rw [if_pos rfl] at hpipe
  have hdone := Pipe.done_take hnext n
  have hends {x : EndSent M} (hx : w.note = .end_ x) :
      ((s.pipe i).take n).done.filterMap Wired.end? =
        (s.pipe i).done.filterMap Wired.end? ++ [x] := by
    have hend : w.end? = some x := congrArg Note.end? hx
    rw [hdone, List.filterMap_append, List.filterMap_cons_some hend]
    rfl
  rcases hnoted.answers (K := K) hinv hcarried usr ptr gts (mgr (!i)) with
    ⟨hnone, ha⟩ | ⟨x, hx, ⟨end_, hdtid, hgot, ha⟩ | ⟨ha, hunused⟩⟩
  · refine .idle [w] ?_ ?_ ?_
    · rw [Bool.not_not, hpipe]
      exact hdone
    · exact List.filterMap_cons_none hnone
    · rw [hlink]
      exact ha
  · refine .answered x pdu end_ ?_ ?_ hdtid hgot ?_
    · rw [Bool.not_not, hpipe]
      exact hends hx
    · rw [hx] at hnoted
      exact hnoted
    · rw [hlink]
      exact ha
  · refine .ignored x ?_ ?_ ?_ fun hitcp hup => ?_
    · rw [Bool.not_not, hpipe]
      exact hends hx
    · rw [hx] at hnoted
      exact hnoted
    · rw [hlink]
      exact ha
    · rw [hest] at hup
      exact hunused hitcp (Bool.and_eq_true_iff.mp hup).2

end Received

/-- Every step gives endpoint `k` one response at most. -/
theorem Step.answers (laws : DecodeLaws decode) (hwire : s.Wire)
    (hinv : ∀ i, (s.link i).Inv pb) (hstep : Step U K pb mgr pro s () s') (k : Bool) :
    Answers K pb mgr s s' k := by
  cases hstep with
  | @begin_ i trans a ws hbegin =>
      refine .of_act hbegin ?_ (done_send hwire.pipe rfl) ?_
      · intro pdu end_ hact
        cases hact
      · rw [send_link, setLink_link, apply_ite Link.a]
  | arrive i n =>
      refine .same ?_ rfl
      rw [setPipe_pipe]
      split
      · rename_i hk
        rw [hk]
        rfl
      · rfl
  | @receive i w pdu n pong usr ptr gts hest hscan hnext hpong =>
      by_cases hk : k = i
      · rw [hk]
        exact answers_at_sender hwire _
      · rw [Bool.eq_not_of_ne hk]
        exact answers_at_receiver hwire laws hinv hscan hnext usr ptr gts
  | reject => exact .same rfl rfl
  | handlerEnd i => exact .same rfl (setLink_same s i k Link.a rfl)
  | runEnd i =>
      refine .same (done_send hwire.pipe rfl) ?_
      rw [closeIf_link, send_link]
      exact setLink_same s i k Link.a rfl
  | other i =>
      refine .same (done_send hwire.pipe rfl) ?_
      rw [send_link]
  | @local_ i act a hlocal hact =>
      refine .of_act hact ?_ rfl ?_
      · rintro pdu end_ rfl
        cases hlocal
      · rw [setLink_link, apply_ite Link.a]
  | lost => exact .same rfl rfl

/-! ## Every ended transaction is answered

A passive transaction that was ended while the endpoint was established has its END on
record, unless it was ended with `RET_FAILURE`, which closes the channel instead. -/

/-- What is in a list with one element replaced. -/
theorem mem_of_replaced {α : Type} {l₁ l₂ xs : List α} {x x' y : α} (hsplit : xs = l₁ ++ x :: l₂)
    (hy : y ∈ l₁ ++ x' :: l₂) : y = x' ∨ y ∈ xs := by
  rcases List.mem_append.mp hy with hl | hr
  · exact .inr (hsplit ▸ List.mem_append_left _ hl)
  · rcases List.mem_cons.mp hr with rfl | hr
    · exact .inl rfl
    · exact .inr (hsplit ▸ List.mem_append_right _ (List.mem_cons_of_mem _ hr))

/-- A transaction that was created of a BEGIN is being handled. -/
theorem mem_addPassive {l : Link M} {note : Note M} {r : EvnMsg M H U} {p : Passive M}
    (hp : p ∈ (addPassive l note r).passive) : p ∈ l.passive ∨ p.phase = .handling := by
  unfold addPassive at hp
  split at hp
  · rcases List.mem_append.mp hp with hnew | hold
    · obtain ⟨t, -, rfl⟩ := List.mem_map.mp hnew
      exact .inr rfl
    · exact .inl hold
  · exact .inl hp

/-- An END concerns no passive transaction. -/
theorem endTrans_passive (K : XscProto) (pb : Protobuf D M) (l : Link M) (pdu : XscProtoPdu)
    (r : EvnMsg M H U) : (endTrans K pb l pdu r).passive = l.passive := by
  unfold endTrans
  split <;> rfl

/-- While the peer of endpoint `k` is established, the END of every transaction that it ended
with another result than a failure is on record. -/
def EndedInv (K : XscProto) (s : StreamLink decode M) (k : Bool) : Prop :=
  s.est (!k) = true → ∀ p ∈ (s.link k).passive, p.phase = .ended → p.trans.ret ≠ K.RET_FAILURE →
    ∃ x ∈ (s.link k).ends, x.by_.request = p.request

/-- A transaction is ended by the step that puts its END on record. -/
theorem EndedInv.step (hpro : pro ≠ .XSC_PROTOCOL_HTTP) {k : Bool} (h : s.EndedInv K k)
    (hstep : Step U K pb mgr pro s () s') : s'.EndedInv K k := by
  intro hest p hp hphase hret
  have hup := hstep.est_le (!k) hest
  -- a transaction that had ended before
  have hold (hp : p ∈ (s.link k).passive) : ∃ x ∈ (s'.link k).ends, x.by_.request = p.request := by
    obtain ⟨x, hx, hrequest⟩ := h hup p hp hphase hret
    exact ⟨x, (hstep.records k).2 hx, hrequest⟩
  have hsame {i : Bool} {l : Link M} (hl : l.passive = (s.link i).passive)
      (hp : p ∈ ((s.setLink i l).link k).passive) : p ∈ (s.link k).passive := by
    rw [setLink_same s i k Link.passive hl] at hp
    exact hp
  cases hstep with
  | begin_ i =>
      rw [send_link] at hp
      exact hold (hsame (by rfl) hp)
  | arrive => exact hold hp
  | @receive i w pdu n pong usr ptr gts =>
      have hlink := received_link K pb s i k w.note pdu n
        (evnMsg pb usr ptr gts pdu K (mgr (!i)) (s.link (!i)).a.ch) pong
      rw [hlink] at hp
      split at hp
      · rename_i hk
        rcases mem_addPassive hp with hmem | hhandling
        · exact hold (hk ▸ hmem)
        · rw [hphase] at hhandling
          cases hhandling
      · rw [endTrans_passive] at hp
        exact hold hp
  | reject => exact hold hp
  | handlerEnd i hsplit =>
      rw [setLink_link] at hp
      split at hp
      · rename_i hk
        rcases mem_of_replaced hsplit hp with rfl | hmem
        · cases hphase
        · exact hold (hk ▸ hmem)
      · exact hold hp
  | @runEnd i l₁ l₂ q ws c hsplit hqueued hclose hws =>
      by_cases hk : k = i
      · subst hk
        rw [closeIf_link, send_link, setLink_link, if_pos rfl] at hp ⊢
        rcases mem_of_replaced hsplit hp with rfl | hmem
        -- this step sends the END, as the channel is up and the result is no failure
        · refine ⟨⟨q, endPdu pb q.trans⟩, List.mem_append_left _ ?_, rfl⟩
          rw [sentPdus_endClosure, if_pos ⟨hpro, hret, hup⟩]
          exact List.mem_singleton_self _
        · obtain ⟨x, hx, hrequest⟩ := h hup p hmem hphase hret
          exact ⟨x, List.mem_append_right _ hx, hrequest⟩
      · refine hold ?_
        rw [closeIf_link, send_link, setLink_link, if_neg hk] at hp
        exact hp
  | other i =>
      rw [send_link] at hp
      exact hold hp
  | local_ i => exact hold (hsame (by rfl) hp)
  | lost => exact hold hp

/-! ## Every response that arrives completes its transaction

Once a response has arrived nothing is in the table under its tid, and nothing will be: no
later transaction is given that tid again. -/

/-- The responses that endpoint `k` has received. -/
def responses (s : StreamLink decode M) (k : Bool) : List (EndSent M) :=
  (s.pipe (!k)).done.filterMap Wired.end?

/-- What the responses that endpoint `k` has received have to do with its transactions, while
the counter has not wrapped around. -/
structure AnswerInv (mgr : Bool → Option (XmsgImMsgMgr D H)) (s : StreamLink decode M)
    (k : Bool) : Prop where
  /-- The completed transactions are those of received responses, in the order of these. -/
  completed : (s.link k).a.completed.reverse.Sublist
    ((s.responses k).map (·.by_.request.origin))
  /-- No response is received for a transaction that stays in the table. -/
  used : NoItcp (mgr k) → s.est k = true → ∀ x ∈ s.responses k,
    (s.link k).a.ch.transInit.lookup x.by_.trans.dtid = none

/-- A response that was received is one that was sent. -/
theorem Wire.responses (h : s.Wire) {k : Bool} {x : EndSent M} (hx : x ∈ s.responses k) :
    x ∈ (s.link k).ends := by
  obtain ⟨w, hw, hend⟩ := List.mem_filterMap.mp hx
  have hnoted := h.noted (!k) w ((s.pipe (!k)).done_sublist.subset hw)
  cases hnote : w.note with
  | begin_ y =>
      rw [Wired.end?, hnote] at hend
      cases hend
  | other pdu =>
      rw [Wired.end?, hnote] at hend
      cases hend
  | end_ y =>
      rw [Wired.end?, hnote] at hend
      obtain rfl := Option.some.inj hend
      rw [hnote, Noted, Bool.not_not] at hnoted
      exact hnoted

/-- A response names the tid of a begun transaction. -/
theorem ends_origin {l : Link M} (h : l.Inv pb) {x : EndSent M} (hx : x ∈ l.ends) :
    x.by_.request.origin ∈ l.a.begun ∧ x.by_.trans.dtid = x.by_.request.origin.stid := by
  obtain ⟨hrequest, hdtid, -, -⟩ := h.ends x hx
  exact ⟨(h.begins _ hrequest).1, hdtid⟩

/-- Whatever a step answers, tids are only drawn. -/
theorem Answers.drawn_le {k : Bool} (h : Answers K pb mgr s s' k) :
    (s.link k).a.drawn.length ≤ (s'.link k).a.drawn.length := by
  cases h with
  | idle ws _ _ ha => rw [ha]
  | acts act _ hact _ => exact hact.drawn_le
  | answered x pdu end_ _ _ _ hpdu ha =>
      have hact : XmsgImXsc.Step K pb (s.link k).a (.evnEnd pdu end_)
          ((s.link k).a.evnEnd K pb pdu end_) := .evnEnd _ pdu end_ hpdu
      rw [ha]
      exact hact.drawn_le
  | ignored x _ _ ha _ => rw [ha]

/-- A response completes the transaction that is under its tid, which is the one it answers:
the counter has not wrapped around, so no other one has drawn that tid. -/
theorem AnswerInv.step {k : Bool} (h : s.AnswerInv mgr k) (hwire : s.Wire)
    (hinv : (s.link k).Inv pb) (hexec : (s.link k).a.Inv K pb) {t0 : UInt32}
    (hnumbered : (s'.link k).a.Numbered t0) (hn : (s'.link k).a.drawn.length < 2 ^ 32)
    (hest : s'.est k = true → s.est k = true) (hanswers : Answers K pb mgr s s' k) :
    s'.AnswerInv mgr k := by
  have hsame (hresponses : s'.responses k = s.responses k)
      (ha : (s'.link k).a = (s.link k).a) : s'.AnswerInv mgr k := by
    refine ⟨?_, fun hitcp hup => ?_⟩
    · rw [ha, hresponses]
      exact h.completed
    · rw [ha, hresponses]
      exact h.used hitcp (hest hup)
  cases hanswers with
  | idle ws hdone hnone ha =>
      refine hsame ?_ ha
      rw [responses, hdone, List.filterMap_append, hnone, List.append_nil]
      rfl
  | acts act hdone hact hne =>
      have hresponses : s'.responses k = s.responses k := by
        rw [responses, hdone]
        rfl
      refine ⟨?_, fun hitcp hup x hx => ?_⟩
      · rw [hact.completed_eq hne, hresponses]
        exact h.completed
      · rw [hresponses] at hx
        obtain ⟨hbegun, hdtid⟩ := ends_origin hinv (hwire.responses hx)
        -- a tid whose response was received is not drawn again
        refine hact.lookup_none (h.used hitcp (hest hup) x hx) ?_
        rintro trans rfl
        rw [hdtid]
        exact hact.genTid_ne hnumbered hn hbegun
  | answered x pdu end_ hdone hx hdtid hpdu ha =>
      have hact : XmsgImXsc.Step K pb (s.link k).a (.evnEnd pdu end_)
          ((s.link k).a.evnEnd K pb pdu end_) := .evnEnd _ pdu end_ hpdu
      have hresponses : s'.responses k = s.responses k ++ [x] := hdone
      obtain ⟨horigin, hstid⟩ := ends_origin hinv hx
      constructor
      · rw [hresponses, ha, Exec.evnEnd_completed, List.reverse_append, List.map_append]
        refine h.completed.append ?_
        cases hlook : (s.link k).a.ch.transInit.lookup end_.dtid with
        | none => exact List.nil_sublist _
        | some t =>
            -- the transaction under the tid is the one that was requested
            have hbegun : t ∈ (s.link k).a.begun := hexec.books.split.mem_iff.mpr
              (List.mem_append_left _ (Tables.mem_values_iff.mpr ⟨_, hlook⟩))
            have hkeyed : t.stid = end_.dtid := hexec.keyed _ _ hlook
            have heq : t = x.by_.request.origin := by
              apply hnumbered.eq_of_stid hn
              · rw [ha]
                exact hact.begun_subset hbegun
              · rw [ha]
                exact hact.begun_subset horigin
              · rw [hkeyed, hdtid, hstid]
            rw [heq]
            exact List.Sublist.refl _
      · intro hitcp hup y hy
        rw [ha]
        rw [hresponses] at hy
        rcases List.mem_append.mp hy with hold | hnew
        · refine hact.lookup_none (h.used hitcp (hest hup) y hold) ?_
          intro trans htrans
          cases htrans
        · rw [List.mem_singleton.mp hnew, ← hdtid]
          -- the response has just taken out what was under its tid
          exact Exec.evnEnd_lookup_none _ pdu end_
  | ignored x hdone hx ha hunused =>
      -- one more response, and none more completed
      have hresponses : s'.responses k = s.responses k ++ [x] := hdone
      constructor
      · rw [hresponses, ha, List.map_append]
        exact h.completed.trans (List.sublist_append_left _ _)
      · intro hitcp hup y hy
        rw [ha]
        rw [hresponses] at hy
        rcases List.mem_append.mp hy with hold | hnew
        · exact h.used hitcp (hest hup) y hold
        · rw [List.mem_singleton.mp hnew]
          exact hunused hitcp hup

/-- What holds in every reachable state until the counter wraps around. -/
theorem reachable_answer (laws : DecodeLaws decode)
    (h : Reachable (system U K pb mgr pro) Always s) (k : Bool)
    (hn : (s.link k).a.drawn.length < 2 ^ 32) : s.AnswerInv mgr k := by
  suffices hinv : (s.link k).a.drawn.length < 2 ^ 32 → s.AnswerInv mgr k from hinv hn
  refine h.invariant_using
    (I := fun s => (s.link k).a.drawn.length < 2 ^ 32 → s.AnswerInv mgr k)
    (J := fun s : StreamLink decode M =>
      s.Wire ∧ ∀ i, Reachable (linkSystem H U K pb pro) Always (s.link i))
    (fun s hs => reachable_wire laws hs) ?_ ?_
  · intro s hinit _
    obtain ⟨⟨hfresh, -⟩, -⟩ := hinit k
    have hnone : s.responses k = [] := by
      rw [responses, (hinit (!k)).2]
      rfl
    refine ⟨?_, fun _ _ x hx => ?_⟩
    · rw [hnone, Exec.completed, hfresh.removed]
      exact List.Sublist.refl _
    · rw [hnone] at hx
      cases hx
  · rintro s ⟨⟩ s' ⟨hwire, hlink⟩ hs - hstep hn
    have hinv (i : Bool) := Link.reachable_inv (hlink i)
    have hanswers := hstep.answers laws hwire hinv k
    have hexec := Link.exec_reachable (hlink k)
    -- the link goes on as a link, by the refinement
    have hlink' : Reachable (linkSystem H U K pb pro) Always (s'.link k) := by
      rcases hstep.link_step laws hwire hinv k with heq | hlinkStep
      · rw [heq]
        exact hlink k
      · exact (hlink k).step (a := ()) trivial hlinkStep
    -- the numbering of the state after the step, which has all transactions begun so far
    obtain ⟨t0, hnumbered⟩ := reachable_numbered (Link.exec_reachable hlink')
    exact (hs (Nat.lt_of_le_of_lt hanswers.drawn_le hn)).step hwire (hinv k)
      (XmsgImXsc.reachable_inv hexec) hnumbered hn (hstep.est_le k) hanswers

/-- Every ended transaction has sent its END, in every reachable state. -/
theorem reachable_ended (hpro : pro ≠ .XSC_PROTOCOL_HTTP)
    (h : Reachable (system U K pb mgr pro) Always s) (k : Bool) : s.EndedInv K k := by
  apply h.invariant (I := fun s : StreamLink decode M => s.EndedInv K k)
  · intro s hinit _ p hp
    rw [(hinit k).1.2.2.2.1] at hp
    cases hp
  · rintro s ⟨⟩ s' hs - hstep
    exact hs.step hpro hstep

end StreamLink

/-- Over a byte stream the responses complete the requests they answer, each at most once and
in the order in which the peer sent them. -/
theorem responses_complete_in_order {K : XscProto} {pb : Protobuf D M}
    {mgr : Bool → Option (XmsgImMsgMgr D H)} {pro : XscProtocolType} (laws : DecodeLaws decode)
    {s : StreamLink decode M} (h : Reachable (StreamLink.system U K pb mgr pro) Always s)
    (k : Bool) (hn : (s.link k).a.drawn.length < 2 ^ 32) :
    (s.link k).a.completed.Sublist ((s.link k).ends.map (·.by_.request.origin)) ∧
      ((s.link k).a.completed.map (·.ptr)).Nodup := by
  have hanswer := StreamLink.reachable_answer laws h k hn
  have horder := StreamLink.reachable_order laws h (!k)
  have hlink := (StreamLink.reachable_wire laws h).2 k
  constructor
  -- received are some of the first that were sent
  · have hreceived : (s.responses k).Sublist (s.link k).ends.reverse := by
      have hsent := horder.ends.sublist
      rw [Bool.not_not] at hsent
      exact ((s.pipe (!k)).done_sublist.filterMap Wired.end?).trans hsent
    have hmap := hanswer.completed.trans (hreceived.map (·.by_.request.origin))
    rw [List.map_reverse] at hmap
    exact List.reverse_sublist.mp hmap
  -- completed are some of those that were taken out, each of which was taken out once
  · have hnodup := (reachable_inv (Link.exec_reachable hlink)).books.nodup_taken
    have hsub : ((s.link k).a.completed).Sublist ((s.link k).a.removed.map Taken.trans) := by
      have hof (b : Taken M) : b.byEnd? = some b.trans ∨ b.byEnd? = none := by
        unfold Taken.byEnd?
        cases b.by_ <;> simp
      unfold Exec.completed
      generalize (s.link k).a.removed = bs
      induction bs with
      | nil => exact List.Sublist.refl _
      | cons b bs ih =>
          rcases hof b with hsome | hnone
          · rw [List.filterMap_cons_some hsome]
            exact ih.cons_cons _
          · rw [List.filterMap_cons_none hnone]
            exact ih.cons _
    have hptr := hsub.map (·.ptr)
    rw [List.map_map] at hptr
    exact hptr.nodup hnodup

theorem responses_complete_in_order_sample :
    ∃ s : StreamLink sampleDecode SampleMsg, (s.link false).a.callbacks 1 = [(7, ("done" : Text))] ∧
      (s.link false).a.completed.Sublist
        ((s.link false).ends.map (·.by_.request.origin)) := by
  obtain ⟨s, h, -, -, hn, -, -, hcallbacks⟩ := sampleStream_reachable
  exact ⟨s, hcallbacks, (responses_complete_in_order sampleDecode_laws h false hn).1⟩

/-- At rest every request has its response.  Both endpoints are still established, all bytes
have arrived and what has arrived holds no PDU, every handler has ended its transaction and
none with a failure: then no request of endpoint `k` is left in its table, and when no
callback is in progress each had its callback exactly once. -/
theorem all_answered_at_rest {K : XscProto} {pb : Protobuf D M}
    {mgr : Bool → Option (XmsgImMsgMgr D H)} {pro : XscProtocolType} (laws : DecodeLaws decode)
    (hpro : pro ≠ .XSC_PROTOCOL_HTTP) (hitcp : ∀ i, NoItcp (mgr i)) {s : StreamLink decode M}
    (h : Reachable (StreamLink.system U K pb mgr pro) Always s) (hest : ∀ i, s.est i = true)
    (hflight : ∀ i, (s.pipe i).flight = [])
    (hread : ∀ i pdu n, pduScan decode (s.pipe i).buf ≠ .item pdu n) (k : Bool)
    (hn : (s.link k).a.drawn.length < 2 ^ 32)
    (hhandled : ∀ p ∈ (s.link k).passive, p.phase = .ended ∧ p.trans.ret ≠ K.RET_FAILURE) :
    (s.link k).a.ch.transInit = ∅ ∧
      ((s.link k).a.stack = [] → ∀ t ∈ (s.link k).a.begun,
        ((s.link k).a.callbacks t.ptr).length = 1) := by
  obtain ⟨hwire, hlink⟩ := StreamLink.reachable_wire laws h
  have hdone (i : Bool) : (s.pipe i).done = (s.pipe i).sent :=
    (hwire.pipe i).all_taken (Wired.carries M laws) (hflight i) (hread i)
  have hrequests := StreamLink.reachable_order laws h k
  have hresponses := StreamLink.reachable_order laws h (!k)
  have hexecReachable := Link.exec_reachable (hlink k)
  have hexec := reachable_inv hexecReachable
  -- every begun transaction has sent its BEGIN, which was handled
  have hhandledAll (t) (ht : t ∈ (s.link k).a.begun) :
      ∃ p ∈ (s.link k).passive, p.request.origin = t := by
    rw [← hrequests.begun.eq hpro] at ht
    obtain ⟨x, hx, rfl⟩ := List.mem_map.mp ht
    have hmem : x ∈ ((s.link k).passive.map (·.request)).reverse := by
      rw [hrequests.handled.eq ⟨hitcp _, hest _⟩, hdone k, hrequests.begins.eq (hest k)]
      exact List.mem_reverse.mpr hx
    obtain ⟨p, hp, hrequest⟩ := List.mem_map.mp (List.mem_reverse.mp hmem)
    exact ⟨p, hp, congrArg (·.origin) hrequest⟩
  -- its END was sent and received, and found no other transaction under its tid
  have hgone (t) (ht : t ∈ (s.link k).a.begun) :
      (s.link k).a.ch.transInit.lookup t.stid = none := by
    obtain ⟨p, hp, rfl⟩ := hhandledAll t ht
    obtain ⟨hphase, hret⟩ := hhandled p hp
    obtain ⟨x, hx, hrequest⟩ := StreamLink.reachable_ended hpro h k (hest _) p hp hphase hret
    have hreceived : x ∈ s.responses k := by
      have hsent := hresponses.ends.eq (hest _)
      rw [Bool.not_not] at hsent
      rw [StreamLink.responses, hdone, hsent]
      exact List.mem_reverse.mpr hx
    have hused := (StreamLink.reachable_answer laws h k hn).used (hitcp k) (hest k) x hreceived
    rw [(StreamLink.ends_origin (Link.reachable_inv (hlink k)) hx).2, hrequest] at hused
    exact hused
  -- so the table is empty, and whoever is not in it has had a callback
  have hempty : (s.link k).a.ch.transInit = ∅ := by
    apply XmsgImChannel.pending_eq_nil_iff.mp
    apply List.eq_nil_iff_forall_not_mem.mpr
    intro t ht
    have hbegun := hexec.books.split.mem_iff.mpr (List.mem_append_left _ ht)
    have hlook := hexec.lookup_stid ht
    rw [hgone t hbegun] at hlook
    cases hlook
  refine ⟨hempty, fun hstack t ht => ?_⟩
  have honce := hexec.endsOnce (overwritten_of_drawn_lt hexecReachable hn)
  rcases honce.pendingOrRemoved t ht with ⟨hlook, -⟩ | ⟨-, b, rfl, hremoved⟩
  · rw [hgone t ht] at hlook
    cases hlook
  · have hb : b ∈ (s.link k).a.removed := by
      have hmem : b ∈ (s.link k).a.removals b.trans.ptr := by
        rw [hremoved]
        exact List.mem_singleton_self b
      exact List.mem_of_mem_filter hmem
    rw [honce.returned hstack b hb]
    rfl

theorem all_answered_at_rest_sample :
    ∃ s : StreamLink sampleDecode SampleMsg, (s.link false).a.begun.map (·.ptr) = [1] ∧
      (s.link false).a.ch.transInit = ∅ ∧ ((s.link false).a.stack = [] →
        ∀ t ∈ (s.link false).a.begun, ((s.link false).a.callbacks t.ptr).length = 1) := by
  obtain ⟨s, h, hrest, hhandled, hn, -, hbegun, -⟩ := sampleStream_reachable
  refine ⟨s, hbegun, all_answered_at_rest sampleDecode_laws (by decide) sampleMgr_noItcp h
    (fun i => (hrest i).1) (fun i => (hrest i).2.1) ?_ false hn hhandled⟩
  intro i pdu n hscan
  rw [(hrest i).2.2] at hscan
  cases hscan

end XmsgImXsc
