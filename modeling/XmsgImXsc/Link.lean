/-
# XmsgImXsc.Link -- requests and responses between two endpoints

An initiating channel `a` and a passive peer, joined by a link that may delay, reorder,
lose and duplicate: whatever was sent can be delivered at any time, any number of times.
`begins` and `ends` are the messages sent so far.  A message carries, beside the PDU, what
it was sent for: a BEGIN the transaction that sent it, an END the passive transaction that
was ended, which in turn names the BEGIN it was created from.  No step reads these notes;
the theorem of this module is about them.
-/
import XmsgImXsc.Dispatch
import Mathlib.Algebra.GroupWithZero.Nat

namespace XmsgImXsc

open Lts

variable {D M H U : Type}

/-! ## The tids of a run -/

/-- The numbers a wrapping counter draws after `t0`, the latest first. -/
def tidsFrom (t0 : UInt32) : Nat → List UInt32
  | 0 => []
  | n + 1 => (t0 + UInt32.ofNat (n + 1)) :: tidsFrom t0 n

/-- A tid of the list is so many draws behind the first. -/
theorem mem_tidsFrom {t0 tid : UInt32} {n : Nat} (h : tid ∈ tidsFrom t0 n) :
    ∃ i, 0 < i ∧ i ≤ n ∧ tid = t0 + UInt32.ofNat i := by
  induction n with
  | zero => cases h
  | succ n ih =>
      rcases List.mem_cons.mp h with rfl | hmem
      · exact ⟨n + 1, by omega, by omega, rfl⟩
      · obtain ⟨i, hpos, hle, heq⟩ := ih hmem
        exact ⟨i, hpos, by omega, heq⟩

/-- Two numbers of the counter are equal when their positions differ by whole turns. -/
theorem tid_eq_iff (t0 : UInt32) (i j : Nat) :
    t0 + UInt32.ofNat i = t0 + UInt32.ofNat j ↔ i % 2 ^ 32 = j % 2 ^ 32 := by
  constructor
  · intro h
    have hofNat : UInt32.ofNat i = UInt32.ofNat j := by
      have := congrArg (fun tid => tid - t0) h
      simpa [UInt32.add_comm t0, UInt32.add_sub_cancel] using this
    have := congrArg UInt32.toNat hofNat
    simpa [UInt32.toNat_ofNat'] using this
  · intro h
    have hofNat : UInt32.ofNat i = UInt32.ofNat j := by
      rw [UInt32.ofNat_eq_iff_mod_eq_toNat, UInt32.toNat_ofNat', h]
    rw [hofNat]

/-- The counter draws no number twice before it has wrapped around. -/
theorem tidsFrom_nodup (t0 : UInt32) {n : Nat} (hn : n < 2 ^ 32) : (tidsFrom t0 n).Nodup := by
  induction n with
  | zero => exact List.nodup_nil
  | succ n ih =>
      refine List.nodup_cons.mpr ⟨?_, ih (by omega)⟩
      intro hmem
      obtain ⟨i, hpos, hle, heq⟩ := mem_tidsFrom hmem
      have hmod := (tid_eq_iff t0 (n + 1) i).mp heq
      rw [Nat.mod_eq_of_lt hn, Nat.mod_eq_of_lt (by omega)] at hmod
      omega

/-- The drawn tids of a run are consecutive, and every begun transaction has one of its
own. -/
structure Exec.Numbered (t0 : UInt32) (e : Exec M) : Prop where
  drawn : e.drawn = tidsFrom t0 e.drawn.length
  tidSeq : e.ch.tidSeq = t0 + UInt32.ofNat e.drawn.length
  begun : (e.begun.map (·.stid)).Sublist e.drawn

namespace Exec.Numbered

variable {K : XscProto} {pb : Protobuf D M} {t0 : UInt32} {e e' : Exec M} {a : Act M}

/-- Drawing one tid more. -/
theorem draw (h : e.Numbered t0) :
    (e.ch.tidSeq + 1) :: e.drawn = tidsFrom t0 (e.drawn.length + 1) ∧
      e.ch.tidSeq + 1 = t0 + UInt32.ofNat (e.drawn.length + 1) := by
  have hnext : e.ch.tidSeq + 1 = t0 + UInt32.ofNat (e.drawn.length + 1) := by
    rw [h.tidSeq, UInt32.ofNat_add, ← UInt32.add_assoc]
    rfl
  refine ⟨?_, hnext⟩
  show _ = (t0 + UInt32.ofNat (e.drawn.length + 1)) :: tidsFrom t0 e.drawn.length
  rw [← hnext, ← h.drawn]

/-- A step that draws no tid and begins nothing. -/
theorem of_eq (h : e.Numbered t0) (hdrawn : e'.drawn = e.drawn)
    (htidSeq : e'.ch.tidSeq = e.ch.tidSeq) (hbegun : e'.begun = e.begun) : e'.Numbered t0 where
  drawn := by
    rw [hdrawn]
    exact h.drawn
  tidSeq := by
    rw [htidSeq, hdrawn]
    exact h.tidSeq
  begun := by
    rw [hbegun, hdrawn]
    exact h.begun

/-- Only a begin draws, and it draws the next one. -/
theorem step (h : e.Numbered t0) (hstep : Step K pb e a e') : e'.Numbered t0 := by
  rcases hstep.cases_ with ⟨trans, -, -, rfl⟩ | ⟨ch, bs, htake, rfl⟩ | ⟨bs, rest, -, rfl⟩ |
    rfl | ⟨t, -, rfl⟩
  · refine ⟨h.draw.1, h.draw.2, ?_⟩
    show ((e.ch.tidSeq + 1) :: e.begun.map (·.stid)).Sublist ((e.ch.tidSeq + 1) :: e.drawn)
    exact h.begun.cons_cons _
  · refine h.of_eq (Exec.enter_drawn bs) ?_ (Exec.enter_begun bs)
    rw [Exec.takeOut_ch]
    exact htake.tidSeq
  · refine h.of_eq (Exec.enter_drawn bs) ?_ (Exec.enter_begun bs)
    rw [Exec.enter_ch]
  · exact ⟨h.draw.1, h.draw.2, h.begun.cons _⟩
  · exact h.of_eq rfl rfl rfl

/-- Two begun transactions with one tid are the same, until the counter wraps around. -/
theorem eq_of_stid (h : e.Numbered t0) (hn : e.drawn.length < 2 ^ 32)
    {t t' : XmsgImTransInitiative M} (ht : t ∈ e.begun) (ht' : t' ∈ e.begun)
    (hstid : t.stid = t'.stid) : t = t' := by
  have hnodup : e.drawn.Nodup := by
    rw [h.drawn]
    exact tidsFrom_nodup t0 hn
  exact List.inj_on_of_nodup_map (h.begun.nodup hnodup) ht ht' hstid

end Exec.Numbered

/-- The tids that a channel has drawn are consecutive from where its counter began. -/
theorem reachable_numbered {K : XscProto} {pb : Protobuf D M} {G : Exec M → Act M → Prop}
    {e : Exec M} (h : Reachable (execSystem K pb) G e) : ∃ t0, e.Numbered t0 := by
  apply h.invariant (I := fun e => ∃ t0, e.Numbered t0)
  · intro e hfresh
    refine ⟨e.ch.tidSeq, ?_, ?_, ?_⟩
    · rw [hfresh.drawn]
      rfl
    · rw [hfresh.drawn]
      simp
    · rw [hfresh.begun, hfresh.drawn]
      exact List.Sublist.refl _
  · rintro e a e' ⟨t0, hnumbered⟩ - hstep
    exact ⟨t0, hnumbered.step hstep⟩

/-! ## The link -/

/-- A BEGIN that was sent for the transaction `origin`. -/
structure BeginSent (M : Type) where
  origin : XmsgImTransInitiative M
  pdu : XscProtoPdu

/-- How far a passive transaction is: its handler has not ended it, the closure that sends
the END is queued, or that closure was executed. -/
inductive Phase where
  | handling
  | queued
  | ended
  deriving Repr, DecidableEq

/-- A passive transaction of the peer and the BEGIN it was created from. -/
structure Passive (M : Type) where
  request : BeginSent M
  trans : XmsgImTransPassive M
  phase : Phase

/-- An END that was sent for a passive transaction, which is as it was when it was sent. -/
structure EndSent (M : Type) where
  by_ : Passive M
  pdu : XscProtoPdu

/-- The two endpoints and the messages sent between them. -/
structure Link (M : Type) where
  a : Exec M
  begins : List (BeginSent M) := []
  passive : List (Passive M) := []
  ends : List (EndSent M) := []

/-- The steps of the initiating channel that involve no message. -/
def Act.isLocal : Act M → Bool
  | .futureBegin _ => false
  | .evnEnd _ _ => false
  | _ => true

/-- One step of the link.  `pro` is the transport of the peer. -/
inductive LinkStep (H U : Type) (K : XscProto) (pb : Protobuf D M) (pro : XscProtocolType) :
    Link M → Unit → Link M → Prop
  /-- The initiating channel begins a transaction and sends its BEGIN. -/
  | begin_ (s) {trans a} : Step K pb s.a (.futureBegin trans) a →
      LinkStep H U K pb pro s ()
        { s with
          a := a
          begins := (sentPdus (sendBegin pb s.a.ch.pro (s.a.ch.futureBegin trans).2)).map
            (⟨(s.a.ch.futureBegin trans).2, ·⟩) ++ s.begins }
  /-- A BEGIN reaches the peer, which calls a handler. -/
  | deliverBegin (s) {x : BeginSent M} {sent got : XscProtoTransaction} {pdu}
      {mgr : XmsgImMsgMgr D H} {usr : Option U} {ptr gts cb self trans req} : x ∈ s.begins →
      x.pdu.transm.trans = some sent → sent.CarriedAs got → pdu.transm.trans = some got →
      (evnBegin pb mgr usr ptr gts pdu got).1 = some (.begin_ cb self trans req) →
      LinkStep H U K pb pro s () { s with passive := ⟨x, trans, .handling⟩ :: s.passive }
  /-- A handler ends its transaction, after it has set fields of it. -/
  | handlerEnd (s) {l₁ l₂ : List (Passive M)} {p : Passive M} {trans : XmsgImTransPassive M}
      {call} : s.passive = l₁ ++ p :: l₂ → p.phase = .handling →
      trans.ptr = p.trans.ptr → trans.dtid = p.trans.dtid →
      LinkStep H U K pb pro s ()
        { s with passive := l₁ ++ ⟨p.request, trans.endCall K call, .queued⟩ :: l₂ }
  /-- The peer executes the closure of an ended transaction. -/
  | runEnd (s) {l₁ l₂ : List (Passive M)} {p : Passive M} {est : Bool} :
      s.passive = l₁ ++ p :: l₂ → p.phase = .queued →
      LinkStep H U K pb pro s ()
        { s with
          passive := l₁ ++ { p with phase := .ended } :: l₂
          ends := (sentPdus (p.trans.endClosure K pb pro est)).map (⟨p, ·⟩) ++ s.ends }
  /-- An END reaches the initiating channel. -/
  | deliverEnd (s) {x : EndSent M} {sent got : XscProtoTransaction} {pdu a} : x ∈ s.ends →
      x.pdu.transm.trans = some sent → sent.CarriedAs got →
      Step K pb s.a (.evnEnd pdu got) a → LinkStep H U K pb pro s () { s with a := a }
  /-- A sweep, a cleanup or another local step of the initiating channel. -/
  | local_ (s) {act a} : act.isLocal → Step K pb s.a act a →
      LinkStep H U K pb pro s () { s with a := a }

/-- The runs of the link from a fresh initiating channel with no message sent. -/
def linkSystem (H U : Type) (K : XscProto) (pb : Protobuf D M) (pro : XscProtocolType) :
    System (Link M) Unit where
  init s := s.a.Fresh ∧ s.begins = [] ∧ s.passive = [] ∧ s.ends = []
  step := LinkStep H U K pb pro

/-! ## What a step of the initiating channel does to the records -/

section Exec

variable {K : XscProto} {pb : Protobuf D M} {e e' : Exec M} {a : Act M}

/-- What a local step takes out is taken out by a sweep or a cleanup. -/
theorem Step.removed_local (hstep : Step K pb e a e') (ha : a.isLocal) {b : Taken M}
    (hb : b ∈ e'.removed) : b ∈ e.removed ∨ b.by_ = .bySweep ∨ b.by_ = .byClean := by
  cases hstep with
  | futureBegin => cases ha
  | evnEnd => cases ha
  | genTid => exact .inl hb
  | rehash => exact .inl hb
  | cbReturn =>
      rw [Exec.enter_removed] at hb
      exact .inl hb
  | checkTransInit sec tm now =>
      rw [Exec.checkTransInit, Exec.takeOut_removed] at hb
      rcases List.mem_append.mp hb with hnew | hold
      · obtain ⟨t, -, rfl⟩ := List.mem_map.mp hnew
        exact .inr (.inl rfl)
      · exact .inl hold
  | cleanTransInit =>
      rw [Exec.cleanTransInit, Exec.takeOut_removed] at hb
      rcases List.mem_append.mp hb with hnew | hold
      · obtain ⟨t, -, rfl⟩ := List.mem_map.mp hnew
        exact .inr (.inr rfl)
      · exact .inl hold
  | clean =>
      rw [Exec.clean, Exec.takeOut_removed] at hb
      rcases List.mem_append.mp hb with hnew | hold
      · obtain ⟨t, -, rfl⟩ := List.mem_map.mp hnew
        exact .inr (.inr rfl)
      · exact .inl hold

/-- What an END takes out was in the table under the tid the END names. -/
theorem Exec.evnEnd_removed {pdu : XscProtoPdu} {end_ : XscProtoTransaction} {b : Taken M}
    (hb : b ∈ (e.evnEnd K pb pdu end_).removed) :
    b ∈ e.removed ∨
      (b.by_ = .byEnd pdu end_ ∧ e.ch.transInit.lookup end_.dtid = some b.trans) := by
  rw [Exec.evnEnd, Exec.takeOut_removed] at hb
  rcases List.mem_append.mp hb with hnew | hold
  · right
    unfold XmsgImChannel.evnEnd at hnew
    cases hlook : e.ch.transInit.lookup end_.dtid with
    | none =>
        rw [hlook] at hnew
        cases hnew
    | some t =>
        rw [hlook] at hnew
        have heq : b = ⟨t, .byEnd pdu end_⟩ := List.mem_singleton.mp hnew
        subst heq
        exact ⟨rfl, rfl⟩
  · exact .inl hold

end Exec

/-! ## Every END answers the BEGIN of its own transaction -/

namespace Link

/-- What the messages and the passive transactions have to do with the transactions of the
initiating channel. -/
structure Inv (pb : Protobuf D M) (s : Link M) : Prop where
  /-- A BEGIN was built from a begun transaction. -/
  begins : ∀ x ∈ s.begins, x.origin ∈ s.a.begun ∧ beginPdu pb x.origin = some x.pdu
  /-- A passive transaction answers under the tid of the transaction whose BEGIN created it. -/
  passive : ∀ p ∈ s.passive, p.request ∈ s.begins ∧ p.trans.dtid = p.request.origin.stid
  /-- An END was built from a passive transaction that its handler had ended. -/
  ends : ∀ x ∈ s.ends, x.by_.request ∈ s.begins ∧
    x.by_.trans.dtid = x.by_.request.origin.stid ∧ x.by_.phase = .queued ∧
    x.pdu = endPdu pb x.by_.trans
  /-- A transaction that an END took out was under the tid the END names, and that END was
  sent. -/
  completed : ∀ b ∈ s.a.removed, ∀ pdu end_, b.by_ = .byEnd pdu end_ →
    b.trans.stid = end_.dtid ∧
      ∃ x ∈ s.ends, ∃ sent, x.pdu.transm.trans = some sent ∧ sent.CarriedAs end_

variable {K : XscProto} {pb : Protobuf D M} {pro : XscProtocolType} {s s' : Link M}

/-- The initiating channel of a link runs as a channel. -/
theorem exec_reachable (h : Reachable (linkSystem H U K pb pro) Always s) :
    Reachable (execSystem K pb) Always s.a := by
  apply h.project (fun s : Link M => s.a)
  · intro s hinit
    exact hinit.1
  · intro s _ s' _ _ hstep
    cases hstep with
    | begin_ hbegin => exact .inr ⟨_, trivial, hbegin⟩
    | deliverEnd _ _ _ hend => exact .inr ⟨_, trivial, hend⟩
    | local_ _ hlocal => exact .inr ⟨_, trivial, hlocal⟩
    | deliverBegin => exact .inl rfl
    | handlerEnd => exact .inl rfl
    | runEnd => exact .inl rfl

/-- A step of the channel that takes out nothing by an END keeps the invariant. -/
theorem Inv.exec_step (h : s.Inv pb) {act : Act M} {a : Exec M} (hstep : Step K pb s.a act a)
    (hremoved : ∀ b ∈ a.removed, b ∈ s.a.removed ∨ ∀ pdu end_, b.by_ = .byEnd pdu end_ →
      b.trans.stid = end_.dtid ∧
        ∃ x ∈ s.ends, ∃ sent, x.pdu.transm.trans = some sent ∧ sent.CarriedAs end_) :
    ({ s with a := a } : Link M).Inv pb where
  begins := by
    intro x hx
    exact ⟨hstep.begun_subset (h.begins x hx).1, (h.begins x hx).2⟩
  passive := h.passive
  ends := h.ends
  completed := by
    intro b hb pdu end_ hby
    rcases hremoved b hb with hold | hnew
    · exact h.completed b hold pdu end_ hby
    · exact hnew pdu end_ hby

/-- Replacing one passive transaction by another that answers the same request. -/
theorem Inv.replace (h : s.Inv pb) {l₁ l₂ : List (Passive M)} {p p' : Passive M}
    (hsplit : s.passive = l₁ ++ p :: l₂) (hrequest : p'.request = p.request)
    (hdtid : p'.trans.dtid = p.trans.dtid) :
    ∀ q ∈ l₁ ++ p' :: l₂, q.request ∈ s.begins ∧ q.trans.dtid = q.request.origin.stid := by
  intro q hq
  have hp := h.passive p (by rw [hsplit]; exact List.mem_append_right _ List.mem_cons_self)
  rcases List.mem_append.mp hq with hl | hr
  · exact h.passive q (by rw [hsplit]; exact List.mem_append_left _ hl)
  · rcases List.mem_cons.mp hr with rfl | hr
    · rw [hrequest, hdtid]
      exact hp
    · exact h.passive q (by
        rw [hsplit]
        exact List.mem_append_right _ (List.mem_cons_of_mem _ hr))

/-- Every message on the link comes from a step that sent it. -/
theorem Inv.step (h : s.Inv pb) (hexec : s.a.Inv K pb) (hstep : LinkStep H U K pb pro s () s') :
    s'.Inv pb := by
  cases hstep with
  | @begin_ trans a hbegin =>
      cases hbegin with
      | futureBegin _ hptr =>
          refine ⟨?_, ?_, ?_, h.completed⟩
          · intro x hx
            rcases List.mem_append.mp hx with hnew | hold
            · obtain ⟨pdu, hpdu, rfl⟩ := List.mem_map.mp hnew
              exact ⟨List.mem_cons_self, mem_sentPdus_sendBegin hpdu⟩
            · exact ⟨List.mem_cons_of_mem _ (h.begins x hold).1, (h.begins x hold).2⟩
          · intro p hp
            exact ⟨List.mem_append_right _ (h.passive p hp).1, (h.passive p hp).2⟩
          · intro x hx
            obtain ⟨hrequest, hrest⟩ := h.ends x hx
            exact ⟨List.mem_append_right _ hrequest, hrest⟩
  | @deliverBegin x sent got pdu mgr usr ptr gts cb self trans req hx hsent hcarried _ hcall =>
      refine ⟨h.begins, ?_, h.ends, h.completed⟩
      intro p hp
      rcases List.mem_cons.mp hp with rfl | hold
      · refine ⟨hx, ?_⟩
        -- the passive transaction copies the tid of the BEGIN
        rw [evnBegin_fst] at hcall
        simp only [Option.bind_eq_some_iff, Option.map_eq_some_iff] at hcall
        obtain ⟨stub, -, m, -, self', -, heq⟩ := hcall
        cases heq
        show got.stid = x.origin.stid
        rw [hcarried.stid]
        exact beginPdu_stid (h.begins x hx).2 hsent
      · exact h.passive p hold
  | @handlerEnd l₁ l₂ p trans call hsplit _ _ hdtid =>
      refine ⟨h.begins, ?_, h.ends, h.completed⟩
      refine h.replace hsplit rfl ?_
      show (trans.endCall K call).dtid = p.trans.dtid
      rw [XmsgImTransPassive.endCall_dtid]
      exact hdtid
  | @runEnd l₁ l₂ p est hsplit hphase =>
      have hp := h.passive p (by rw [hsplit]; exact List.mem_append_right _ List.mem_cons_self)
      refine ⟨h.begins, h.replace hsplit rfl rfl, ?_, ?_⟩
      · intro x hx
        rcases List.mem_append.mp hx with hnew | hold
        · obtain ⟨pdu, hpdu, rfl⟩ := List.mem_map.mp hnew
          rw [sentPdus_endClosure] at hpdu
          split at hpdu
          · exact ⟨hp.1, hp.2, hphase, List.mem_singleton.mp hpdu⟩
          · cases hpdu
        · exact h.ends x hold
      · intro b hb pdu end_ hby
        obtain ⟨hstid, x, hx, hsent⟩ := h.completed b hb pdu end_ hby
        exact ⟨hstid, x, List.mem_append_right _ hx, hsent⟩
  | @deliverEnd x sent got pdu a hx hsent hcarried hend =>
      refine h.exec_step hend ?_
      intro b hb
      cases hend
      rcases Exec.evnEnd_removed hb with hold | ⟨hby, hlook⟩
      · exact .inl hold
      · right
        intro pdu' end_ hby'
        rw [hby] at hby'
        cases hby'
        exact ⟨hexec.keyed _ _ hlook, x, hx, sent, hsent, hcarried⟩
  | @local_ act a hlocal hstep =>
      refine h.exec_step hstep ?_
      intro b hb
      rcases hstep.removed_local hlocal hb with hold | hby | hby
      · exact .inl hold
      · right
        intro pdu end_ hend
        rw [hby] at hend
        cases hend
      · right
        intro pdu end_ hend
        rw [hby] at hend
        cases hend

theorem reachable_inv (h : Reachable (linkSystem H U K pb pro) Always s) : s.Inv pb := by
  refine h.invariant_using (J := fun s : Link M => s.a.Inv K pb) ?_ ?_ ?_
  · intro s hs
    exact XmsgImXsc.reachable_inv (exec_reachable hs)
  · rintro s ⟨hfresh, hbegins, hpassive, hends⟩
    refine ⟨?_, ?_, ?_, ?_⟩
    · rw [hbegins]
      intro x hx
      cases hx
    · rw [hpassive]
      intro p hp
      cases hp
    · rw [hends]
      intro x hx
      cases hx
    · rw [hfresh.removed]
      intro b hb
      cases hb
  · intro s _ s' hexec h _ hstep
    exact h.step hexec hstep

end Link

/-- Over every interleaving, as long as fewer than 2^32 tids are drawn: an END that
completes a transaction is one that the peer sent when the handler had ended the passive
transaction created from that transaction's own BEGIN, and no transaction is completed
twice. -/
theorem end_answers_own_begin (H U : Type) (K : XscProto) (pb : Protobuf D M)
    (pro : XscProtocolType) {s : Link M} (h : Reachable (linkSystem H U K pb pro) Always s)
    (hn : s.a.drawn.length < 2 ^ 32) :
    (∀ i ∈ s.a.invoked, ∀ pdu end_, i.1.by_ = .byEnd pdu end_ →
      ∃ x ∈ s.ends, x.by_.request ∈ s.begins ∧ x.by_.request.origin = i.1.trans ∧
        beginPdu pb i.1.trans = some x.by_.request.pdu ∧ x.by_.phase = .queued ∧
        x.pdu = endPdu pb x.by_.trans ∧
        ∃ sent, x.pdu.transm.trans = some sent ∧ sent.CarriedAs end_) ∧
      ∀ p, (s.a.callbacks p).length ≤ 1 := by
  have hexec := reachable_inv (Link.exec_reachable h)
  have hlink := Link.reachable_inv h
  refine ⟨?_, hexec.callbacks_length_le⟩
  intro i hi pdu end_ hby
  have htaken : i.1 ∈ s.a.removed :=
    hexec.books.queued.mem_iff.mpr (List.mem_append_right _ (List.mem_map_of_mem hi))
  have hbegun : i.1.trans ∈ s.a.begun := by
    refine hexec.books.split.mem_iff.mpr ?_
    exact List.mem_append_right _ (List.mem_append_right _ (List.mem_map_of_mem htaken))
  obtain ⟨hstid, x, hx, sent, hsent, hcarried⟩ := hlink.completed _ htaken pdu end_ hby
  obtain ⟨hrequest, hdtid, hphase, hpdu⟩ := hlink.ends x hx
  -- both transactions are the one that drew the tid the END names
  have horigin : x.by_.request.origin = i.1.trans := by
    obtain ⟨t0, hnumbered⟩ := reachable_numbered (Link.exec_reachable h)
    apply hnumbered.eq_of_stid hn (hlink.begins _ hrequest).1 hbegun
    calc x.by_.request.origin.stid = x.by_.trans.dtid := hdtid.symm
      _ = sent.dtid := (endPdu_head (hpdu ▸ hsent)).1.symm
      _ = end_.dtid := hcarried.dtid.symm
      _ = i.1.trans.stid := hstid.symm
  refine ⟨x, hx, hrequest, horigin, ?_, hphase, hpdu, sent, hsent, hcarried⟩
  rw [← horigin]
  exact (hlink.begins _ hrequest).2

/-! A request and its response, which is delivered twice. -/

/-- The request as the peer decodes it. -/
def sampleRequest : XscProtoTransaction :=
  { trans := .BEGIN, stid := 1, msg := "Ping", dat := [9] }

/-- The response as the initiating channel decodes it. -/
def sampleAnswer : XscProtoTransaction :=
  { trans := .END, dtid := 1, ret := 7, desc := "done", msg := "Ping", dat := [8] }

theorem sampleLink_reachable :
    ∃ s, Reachable (linkSystem Nat String .sample samplePb .XSC_PROTOCOL_TCP) Always s ∧
      s.a.drawn.length < 2 ^ 32 ∧ s.a.callbacks 1 = [(7, ("done" : Text))] := by
  have hinit : Reachable (linkSystem Nat String .sample samplePb .XSC_PROTOCOL_TCP) Always
      { a := Exec.start .XSC_PROTOCOL_TCP } := .init ⟨Exec.start_fresh _, rfl, rfl, rfl⟩
  have hbegin := hinit.step (a := ()) trivial
    (.begin_ _ (.futureBegin _ (XmsgImChannel.begin_ 1 0 (.ping, [9]) none) (by decide)))
  have hcarriedBegin : XscProtoTransaction.CarriedAs
      { trans := .BEGIN, refDat := true, stid := 1, msg := "Ping", dat := [9] } sampleRequest :=
    ⟨rfl, rfl, rfl, rfl, rfl, rfl, rfl⟩
  have hcarriedEnd : XscProtoTransaction.CarriedAs
      { trans := .END, refDat := true, dtid := 1, ret := 7, desc := "done", msg := "Ping", dat := [8] }
      sampleAnswer := ⟨rfl, rfl, rfl, rfl, rfl, rfl, rfl⟩
  have hhandler : (evnBegin samplePb (RegCall.regAll samplePb sampleRegs) (some "alice") 1 0
      { transm := { trans := some sampleRequest } } sampleRequest).1 =
        some (.begin_ _ _ _ _) := rfl
  have hrequest := hbegin.step (a := ()) trivial
    (.deliverBegin _ List.mem_cons_self rfl hcarriedBegin rfl hhandler)
  have hended := hrequest.step (a := ()) trivial
    (@LinkStep.handlerEnd _ _ _ _ _ _ _ _ [] _ _ _ (.endRetDesc 7 "done" (some (.ping, [8])))
      rfl rfl rfl rfl)
  have hsent := hended.step (a := ()) trivial
    (@LinkStep.runEnd _ _ _ _ _ _ _ _ [] _ _ true rfl rfl)
  have hanswer := hsent.step (a := ()) trivial
    (.deliverEnd _ List.mem_cons_self rfl hcarriedEnd
      (.evnEnd _ { transm := { trans := some sampleAnswer } } sampleAnswer rfl))
  have htwice := hanswer.step (a := ()) trivial
    (.deliverEnd _ List.mem_cons_self rfl hcarriedEnd
      (.evnEnd _ { transm := { trans := some sampleAnswer } } sampleAnswer rfl))
  exact ⟨_, htwice, by decide, by decide⟩

theorem end_answers_own_begin_sample :
    ∃ s : Link SampleMsg, s.a.callbacks 1 = [(7, ("done" : Text))] ∧
      (∀ i ∈ s.a.invoked, ∀ pdu end_, i.1.by_ = .byEnd pdu end_ →
        ∃ x ∈ s.ends, x.by_.request.origin = i.1.trans) ∧
      ∀ p, (s.a.callbacks p).length ≤ 1 := by
  obtain ⟨s, h, hn, hcallbacks⟩ := sampleLink_reachable
  obtain ⟨hends, honce⟩ := end_answers_own_begin Nat String .sample samplePb _ h hn
  refine ⟨s, hcallbacks, ?_, honce⟩
  intro i hi pdu end_ hby
  obtain ⟨x, hx, -, horigin, -⟩ := hends i hi pdu end_ hby
  exact ⟨x, hx, horigin⟩

end XmsgImXsc
